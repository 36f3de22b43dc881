import Quicknet.JournalFiles
import Quicknet.Library.Transition

/-! What a journal reads as after crashes and power losses. Every file that the journal's
name may refer to holds the acknowledged snapshot or the pending one; a save moves the
name between these, and a synchronized directory leaves one of them. -/
namespace Quicknet

open DurableFile
open Json (Text text)

section Procedures

variable {P : Option FileContents → Prop} {α : Type}

theorem ignoring_triple {I fail crash : JournalDisk → Prop} {op : JournalFiles Unit}
    (needed : Bool) (h : Triple I op (fun _ => I) I crash) :
    Triple I (ignoring needed op) (fun _ => I) fail crash := by
  cases needed with
  | false => exact Triple.pure fun _ hd => hd
  | true =>
    have hattempt : Triple I op.attempt (fun _ => I) fail crash :=
      Triple.attempt (h.weaken (fun _ hd => hd) (fun _ _ hd => hd) (fun _ hd _ => hd) fun _ hd => hd)
    exact Triple.bind hattempt fun _ => Triple.pure fun _ hd => hd

/-- The `catch` clause removes at most the temporary file. -/
theorem orCleanUp_triple {I pre : JournalDisk → Prop} {post : JournalDisk → Prop}
    {op : JournalFiles Unit} (file directory ownsTemp : Bool) (name : TempName)
    (hI : ∀ d, I d → I (d.unlinkTemp name)) (h : Triple pre op (fun _ => post) I I) :
    Triple pre (orCleanUp file directory ownsTemp name op) (fun _ => post) I I := by
  have hpassive : Triple I (Files.passive fileFailed : JournalFiles Unit) (fun _ => I) I I :=
    Triple.passive _ (fun _ hd => hd) fun _ hd => hd
  have hremove : Triple I (removeTemp fileFailed name : JournalFiles Unit) (fun _ => I) I I :=
    Triple.operation hI (fun _ hd => hd) (fun _ => hI) fun _ hd => hd
  have hattempt : Triple pre op.attempt
      (fun r d => match r with | .ok _ => post d | .error _ => I d) I I :=
    Triple.attempt (h.weaken (fun _ hd => hd) (fun _ _ hd => hd) (fun _ hd _ => hd) fun _ hd => hd)
  apply Triple.bind hattempt
  intro r
  cases r with
  | ok u => exact Triple.pure fun _ hd => hd
  | error e =>
    apply Triple.bind (ignoring_triple file hpassive)
    intro _
    apply Triple.bind (ignoring_triple directory hpassive)
    intro _
    apply Triple.bind (ignoring_triple ownsTemp hremove)
    intro _
    exact Triple.throw fun _ hd => hd

/-- A replacement that returns is durable, and whatever its steps keep is kept throughout. -/
theorem durableReplace_rule {I : JournalDisk → Prop} (name : TempName) {contents : Text}
    (hI : Disk.Keeps (some contents) I) :
    Triple I (durableReplace name contents) (fun _ d => I d ∧ d.Durable (some contents)) I I := by
  let Written (synced : Bool) (d : JournalDisk) : Prop :=
    I d ∧ d.temp name = some ⟨some contents, synced⟩
  let Renamed (d : JournalDisk) : Prop := I d ∧ d.target = some ⟨some contents, true⟩
  let Settled (d : JournalDisk) : Prop := I d ∧ d.Durable (some contents)
  -- the cleanup removes the temporary file only
  have hunlink : ∀ d, I d → I (d.unlinkTemp name) := fun d hd => hI.unlinkTemp d name hd
  have hpassive {J : JournalDisk → Prop} (hJ : ∀ d, J d → I d) :
      Triple J (Files.passive fileFailed : JournalFiles Unit) (fun _ => J) I I :=
    Triple.passive _ hJ hJ
  have hcreate : Triple I (createTemp fileFailed name (some []) : JournalFiles Unit)
      (fun _ => I) I I := by
    apply Triple.bind (Triple.get (fun _ => I) fun _ hd => hd)
    intro d
    cases d.temp name with
    | some inode => exact Triple.throw fun _ hd => hd
    | none =>
      exact Triple.operation (fun d hd => hI.setTemp d name _ hd) (fun _ hd => hd)
        (fun _ d hd => hI.setTemp d name _ hd) fun _ hd => hd
  have hwrite : Triple I (writeTemp fileFailed name (some contents) : JournalFiles Unit)
      (fun _ => Written false) I I :=
    Triple.operation (fun d hd => ⟨hI.setTemp d name _ hd, Disk.temp_setTemp name _⟩)
      (fun _ hd => hd) (fun _ d hd => hI.setTemp d name _ hd) fun _ hd => hd
  have hsync : Triple (Written false) (syncTemp fileFailed name : JournalFiles Unit)
      (fun _ => Written true) I I := by
    have heffect (d : JournalDisk) (hd : Written false d) : Written true (d.syncInode name) := by
      rw [Disk.syncInode_of_temp hd.2]
      exact ⟨hI.setTemp d name _ hd.1, Disk.temp_setTemp name _⟩
    exact Triple.operation heffect (fun _ hd => hd.1) (fun _ d hd => (heffect d hd).1)
      fun _ hd => hd.1
  have hrename : Triple (Written true) (renameTemp fileFailed name : JournalFiles Unit)
      (fun _ => Renamed) I I :=
    Triple.operation
      (fun d hd => ⟨hI.replaceTarget d name hd.1 hd.2, Disk.replaceTarget_target hd.2⟩)
      (fun _ hd => hd.1) (fun _ d hd => hI.replaceTarget d name hd.1 hd.2) fun _ hd => hd.1
  have hsettle : Triple Renamed (syncDirectory fileFailed : JournalFiles Unit)
      (fun _ => Settled) I I :=
    Triple.operation (fun d hd => ⟨hI.settleDirectory d hd.1, ⟨hd.2, rfl⟩⟩) (fun _ hd => hd.1)
      (fun _ d hd => hI.settleDirectory d hd.1) fun _ hd => hd.1
  have hclosed : Triple Settled (ignoring true (Files.passive fileFailed) : JournalFiles Unit)
      (fun _ => Settled) I I :=
    (ignoring_triple true (Triple.passive _ (fun _ hd => hd) fun _ hd => hd)).weaken
      (fun _ hd => hd) (fun _ _ hd => hd) (fun _ hd => hd) fun _ hd => hd.1
  -- the steps in their order, each with the cleanup that follows its failure
  unfold durableReplace
  apply Triple.bind (orCleanUp_triple _ _ _ _ hunlink (hpassive fun _ hd => hd))
  intro _
  apply Triple.bind (orCleanUp_triple _ _ _ _ hunlink hcreate)
  intro _
  apply Triple.bind (orCleanUp_triple _ _ _ _ hunlink hwrite)
  intro _
  apply Triple.bind (orCleanUp_triple _ _ _ _ hunlink hsync)
  intro _
  apply Triple.bind (orCleanUp_triple _ _ _ _ hunlink (hpassive fun _ hd => hd.1))
  intro _
  apply Triple.bind (orCleanUp_triple _ _ _ _ hunlink (hpassive fun _ hd => hd.1))
  intro _
  apply Triple.bind (orCleanUp_triple _ _ _ _ hunlink hrename)
  intro _
  apply Triple.bind (orCleanUp_triple _ _ _ _ hunlink (hpassive fun _ hd => hd.1))
  intro _
  apply Triple.bind (orCleanUp_triple _ _ _ _ hunlink hsettle)
  intro _
  exact hclosed

/-- A replacement that returns is durable. One that fails or dies leaves the name at a
file that held before, or at the new one. -/
theorem durableReplace_triple (name : TempName) {contents : Text} (hp : P (some (some contents))) :
    Triple (Disk.Holds P) (durableReplace name contents)
      (fun _ d => d.Durable (some contents)) (Disk.Holds P) (Disk.Holds P) :=
  (durableReplace_rule name (Disk.keeps_holds hp)).weaken (fun _ hd => hd)
    (fun _ _ hd => hd.2) (fun _ hd => hd) fun _ hd => hd

theorem rethrow_triple {I : JournalDisk → Prop} {pre : JournalDisk → Prop}
    {post : α → JournalDisk → Prop} {op : JournalFiles α} (failure : Failure)
    (h : Triple pre op post I I) : Triple pre (rethrow failure op) post I I := by
  have hattempt : Triple pre op.attempt
      (fun r d => (∀ a, r = .ok a → post a d) ∧ ∀ e, r = .error e → I d) I I :=
    Triple.attempt (h.weaken (fun _ hd => hd)
      (fun _ _ hd => ⟨fun _ ha => Except.ok.inj ha ▸ hd, fun _ he => (by cases he)⟩)
      (fun _ hd _ => ⟨fun _ ha => (by cases ha), fun _ _ => hd⟩) fun _ hd => hd)
  apply Triple.bind hattempt
  intro r
  cases r with
  | ok a => exact Triple.pure fun _ hd => hd.1 a rfl
  | error e => exact Triple.throw fun _ hd => hd.2 e rfl

theorem passive_triple (I : JournalDisk → Prop) :
    Triple I (Files.passive fileFailed : JournalFiles Unit) (fun _ => I) I I :=
  Triple.passive _ (fun _ hd => hd) fun _ hd => hd

theorem readOpened_triple (I : JournalDisk → Prop) (inode : Inode FileContents) :
    Triple I (readOpened inode) (fun r d => I d ∧ inode.contents = some r) I I := by
  apply Triple.bind (passive_triple I)
  intro _
  split_ifs with hsize
  · exact Triple.throw fun _ hd => hd
  · apply Triple.bind (passive_triple I)
    intro _
    cases hc : inode.contents with
    | none => exact Triple.throw fun _ hd => hd
    | some contents => exact Triple.pure fun _ hd => ⟨hd, rfl⟩

/-- A read changes nothing and returns what the name's file holds. -/
theorem readBoundedJournal_triple (I : JournalDisk → Prop) :
    Triple I readBoundedJournal
      (fun r d => I d ∧ d.target.map (·.contents) = r.map some) I I := by
  apply Triple.bind (passive_triple I)
  intro _
  apply Triple.bind (Triple.get (fun d₀ d => I d ∧ d = d₀) fun d hd => ⟨hd, rfl⟩)
  intro d₀
  cases ht : d₀.target with
  | none =>
    refine Triple.pure ?_
    rintro d ⟨hd, rfl⟩
    exact ⟨hd, by rw [ht]; rfl⟩
  | some inode =>
    let Same (d : JournalDisk) : Prop := I d ∧ d = d₀
    have hread : Triple Same (readOpened inode).attempt
        (fun r d => Same d ∧ ∀ c, r = .ok c → inode.contents = some c) I I := by
      apply Triple.attempt
      exact (readOpened_triple Same inode).weaken (fun _ hd => hd)
        (fun c d hd => ⟨hd.1, fun c' hc => by obtain rfl := Except.ok.inj hc; exact hd.2⟩)
        (fun d hd e => ⟨hd, fun c' hc => by cases hc⟩) fun _ hd => hd.1
    apply Triple.bind hread
    intro read
    have hclose (J : JournalDisk → Prop) (hJ : ∀ d, J d → I d) :
        Triple J (Files.passive fileFailed : JournalFiles Unit).attempt (fun _ => J) I I :=
      Triple.attempt ((passive_triple J).weaken (fun _ hd => hd) (fun _ _ hd => hd)
        (fun _ hd _ => hd) hJ)
    apply Triple.bind (hclose _ fun _ hd => hd.1.1)
    intro closed
    cases read with
    | error e => exact Triple.throw fun _ hd => hd.1.1
    | ok contents =>
      cases closed with
      | error e => exact Triple.throw fun _ hd => hd.1.1
      | ok u =>
        refine Triple.pure ?_
        rintro d ⟨⟨hd, rfl⟩, hc⟩
        exact ⟨hd, by rw [ht, Option.map_some, hc _ rfl]; rfl⟩

end Procedures

section Store

variable {lib : TransactionLibrary} {store : JournalStore} {P : Option FileContents → Prop}

/-- What the contents under the journal's name read as. -/
def Denotes (lib : TransactionLibrary) (identity : IdentityText) (c : Option FileContents)
    (r : Option SnapshotText) : Prop :=
  (c = none ∧ r = none) ∨
    ∃ contents s, c = some (some contents) ∧
      decodeJournalSnapshot lib contents identity = .ok s ∧ r = some s

theorem Denotes.unique {identity : IdentityText} {c : Option FileContents}
    {r r' : Option SnapshotText} (h : Denotes lib identity c r) (h' : Denotes lib identity c r') :
    r = r' := by
  rcases h with ⟨rfl, rfl⟩ | ⟨contents, s, rfl, hs, rfl⟩
  · rcases h' with ⟨_, rfl⟩ | ⟨_, _, hc, _, _⟩
    · rfl
    · cases hc
  · rcases h' with ⟨hc, _⟩ | ⟨contents', s', hc, hs', rfl⟩
    · cases hc
    · obtain rfl := Option.some.inj (Option.some.inj hc)
      rw [hs] at hs'
      obtain rfl := Except.ok.inj hs'
      rfl

theorem denotes_encoded {identity : IdentityText} {s : SnapshotText} {contents : Text}
    (h : encodeJournalSnapshot lib s identity = .ok contents) :
    Denotes lib identity (some (some contents)) (some s) :=
  Or.inr ⟨contents, s, rfl, decode_encode h, rfl⟩

variable (lib store)

theorem load_triple (I : JournalDisk → Prop) :
    Triple I (store.load lib)
      (fun r d => I d ∧ Denotes lib store.identity (d.target.map (·.contents)) r ∧
        ∀ s ∈ r, WithinBounds store.bounds s) I I := by
  apply Triple.bind (rethrow_triple _ (readBoundedJournal_triple I))
  intro read
  cases read with
  | none => exact Triple.pure fun d hd => ⟨hd.1, Or.inl ⟨hd.2, rfl⟩, by simp⟩
  | some contents =>
    cases hdec : decodeJournalSnapshot lib contents store.identity with
    | error e =>
      simp only [hdec]
      exact Triple.throw fun _ hd => hd.1
    | ok snapshot =>
      simp only [hdec]
      have hdenotes : Denotes lib store.identity (some (some contents)) (some snapshot) :=
        Or.inr ⟨contents, snapshot, rfl, hdec, rfl⟩
      cases hb : store.bounds with
      | none =>
        refine Triple.pure fun d hd => ⟨hd.1, by rw [hd.2]; exact hdenotes, ?_⟩
        simp [WithinBounds]
      | some bounds =>
        cases hv : inspectJournalBounds snapshot bounds with
        | nil =>
          simp only [Option.map_some, hv]
          refine Triple.pure fun d hd => ⟨hd.1, by rw [hd.2]; exact hdenotes, ?_⟩
          intro s hs
          obtain rfl := Option.some.inj hs
          exact inspectJournalBounds_nil_iff.mp hv
        | cons violation violations =>
          simp only [Option.map_some, hv]
          exact Triple.throw fun _ hd => hd.1

/-- A save that returns has made the snapshot durable. -/
theorem save_triple (name : TempName) (snapshot : SnapshotText)
    (hp : ∀ contents, encodeJournalSnapshot lib snapshot store.identity = .ok contents →
      P (some (some contents))) :
    Triple (Disk.Holds P) (store.save lib name snapshot)
      (fun _ d => d.Holds fun c => Denotes lib store.identity c (some snapshot))
      (Disk.Holds P) (Disk.Holds P) := by
  unfold JournalStore.save
  cases hv : validateJournalText snapshot store.identity with
  | none => exact Triple.throw fun _ hd => hd
  | some captured =>
    obtain rfl := (validateJournalText_some_iff.mp hv).1
    simp only
    cases he : encodeJournalSnapshot lib captured store.identity with
    | error e => exact Triple.throw fun _ hd => hd
    | ok contents =>
      have hreplace := durableReplace_triple name (hp contents he)
      exact rethrow_triple _ (hreplace.weaken (fun _ hd => hd)
        (fun _ d hd => hd.holds (denotes_encoded he)) (fun _ hd => hd) fun _ hd => hd)

theorem removeJournalTempFiles_triple {I : JournalDisk → Prop}
    (hI : ∀ name d, I d → I (d.unlinkTemp name)) (names : List TempName) :
    Triple I (removeJournalTempFiles names) (fun _ => I) I I := by
  induction names with
  | nil => exact Triple.pure fun _ hd => hd
  | cons name names ih =>
    have hremove : Triple I (removeTemp fileFailed name : JournalFiles Unit) (fun _ => I) I I :=
      Triple.operation (hI name) (fun _ hd => hd) (fun _ => hI name) fun _ hd => hd
    apply Triple.bind (passive_triple I)
    intro _
    apply Triple.bind hremove
    intro _
    exact ih

/-- Opening the store leaves one snapshot that the name can be found to hold: one that
it could be found to hold before. -/
theorem openStore_triple (name : TempName) {R : Option SnapshotText → Prop} :
    Triple (Disk.Holds fun c => ∃ r, Denotes lib store.identity c r ∧ R r)
      (store.openStore lib name)
      (fun r d => R r ∧ d.Holds fun c => Denotes lib store.identity c r)
      (Disk.Holds fun c => ∃ r, Denotes lib store.identity c r ∧ R r)
      (Disk.Holds fun c => ∃ r, Denotes lib store.identity c r ∧ R r) := by
  let Possible (c : Option FileContents) : Prop := ∃ r, Denotes lib store.identity c r ∧ R r
  apply Triple.bind (load_triple lib store (Disk.Holds Possible))
  intro current
  let Loaded (d : JournalDisk) : Prop := d.Holds Possible ∧
    Denotes lib store.identity (d.target.map (·.contents)) current
  have hloaded (d : JournalDisk) (hd : Loaded d) : R current := by
    obtain ⟨r, hr, hR⟩ := hd.1.target
    obtain rfl := hr.unique hd.2
    exact hR
  apply Triple.bind (Triple.get (fun _ => Loaded) fun d hd => ⟨hd.1, hd.2.1⟩)
  intro d₀
  have hclean : Triple Loaded
      (rethrow (.error "Journal temporary-file cleanup failed.") do
        Files.passive fileFailed
        removeJournalTempFiles (d₀.temps.map (·.1)))
      (fun _ => Loaded) (Disk.Holds Possible) (Disk.Holds Possible) := by
    have h : Triple Loaded
        (do
          Files.passive fileFailed
          removeJournalTempFiles (d₀.temps.map (·.1)))
        (fun _ => Loaded) Loaded Loaded := by
      apply Triple.bind (passive_triple Loaded)
      intro _
      exact removeJournalTempFiles_triple (fun name d hd => ⟨hd.1.unlinkTemp name, hd.2⟩) _
    exact (rethrow_triple _ h).weaken (fun _ hd => hd) (fun _ _ hd => hd) (fun _ hd => hd.1)
      fun _ hd => hd.1
  apply Triple.bind hclean
  intro _
  cases hcur : current with
  | none =>
    refine Triple.pure fun d hd => ⟨hcur ▸ hloaded d hd, ?_⟩
    -- nothing was loaded, so the name refers to no file and never did
    have hnone : d.target = none := by
      rcases hd.2 with ⟨hc, _⟩ | ⟨_, _, _, _, hr⟩
      · exact Option.map_eq_none_iff.mp hc
      · rw [hcur] at hr
        cases hr
    exact hd.1.of_missing hnone (Or.inl ⟨rfl, rfl⟩)
  | some snapshot =>
    have hsave (hR : R (some snapshot)) : Triple (Disk.Holds Possible)
        (store.save lib name snapshot)
        (fun _ d => R (some snapshot) ∧
          d.Holds fun c => Denotes lib store.identity c (some snapshot))
        (Disk.Holds Possible) (Disk.Holds Possible) :=
      (save_triple lib store name snapshot fun contents he =>
        ⟨some snapshot, denotes_encoded he, hR⟩).weaken (fun _ hd => hd)
          (fun _ d hd => ⟨hR, hd⟩) (fun _ hd => hd) fun _ hd => hd
    have hany : Triple Loaded (store.save lib name snapshot)
        (fun _ d => R (some snapshot) ∧
          d.Holds fun c => Denotes lib store.identity c (some snapshot))
        (Disk.Holds Possible) (Disk.Holds Possible) :=
      fun script d hd => hsave (hcur ▸ hloaded d hd) script d hd.1
    apply Triple.bind hany
    intro _
    exact Triple.pure fun _ hd => hd

/-- What is loaded from a store that was opened is what it was opened with. -/
theorem loadPersistence_triple (r : Option SnapshotText) :
    Triple (Disk.Holds fun c => Denotes lib store.identity c r) (loadPersistence lib store)
      (fun p d => p = ⟨.idle, r, none⟩ ∧ d.Holds fun c => Denotes lib store.identity c r)
      (Disk.Holds fun c => Denotes lib store.identity c r)
      (Disk.Holds fun c => Denotes lib store.identity c r) := by
  apply Triple.bind (load_triple lib store _)
  intro initial
  cases hcreate : HeldPersistence.create lib store.identity initial with
  | none =>
    exact Triple.throw fun d hd => hd.1
  | some p =>
    refine Triple.pure fun d hd => ⟨?_, hd.1⟩
    obtain rfl := hd.1.target.unique hd.2.1
    cases r with
    | none => exact (Option.some.inj hcreate).symm
    | some s =>
      obtain ⟨u, hu, rfl⟩ := Option.map_eq_some_iff.mp hcreate
      obtain rfl := (verifyJournalText_some_iff.mp hu).1
      rfl

end Store

end Quicknet
