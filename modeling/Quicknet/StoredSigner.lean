import Quicknet.RuntimeBounds

/-! The signer with the store that it saves to, on a disk whose operations all succeed.
The store takes the snapshot with its strings, which the process holds beside the values
that the coordinator compares. A process may be killed between any two operations, and the
disk may lose power. -/
namespace Quicknet

open DurableFile Transition

/-- Operations that all succeed; the process is killed after `n` of them. -/
def succeeding (n : ℕ) : List (Outcome FileContents) := List.replicate n .done

structure StoredWorld where
  world : World
  disk : JournalDisk

inductive StoredAction
  /-- An action in which the store has no part. -/
  | act (i : Input)
  /-- The store's answer to the save in flight, of the snapshot with these strings. -/
  | persist (now : Timestamp) (name : TempName) (snapshot : SnapshotText) (operations : ℕ)
  /-- The start of a coordinator, or of a nonce repair. -/
  | start (now : Timestamp) (name : TempName) (repair : Bool) (operations : ℕ)
  | powerLoss (now : Timestamp) (choice : ℕ) (torn : FileContents)
      (temps : List (TempName × Inode FileContents))

/-- The snapshot whose save is awaited. -/
def World.saving : World → Option TransactionJournalSnapshot
  | .running c =>
    match c.task with
    | some (.storing _) => c.persistence.pending
    | _ => none
  | .repairing _ repair => some repair
  | _ => none

/-- The answers of the store, the starts and the openings are actions of their own. -/
def Action.leavesStore : Action → Bool
  | .stored | .storeFailed | .openJournal _ | .restart _ _ => false
  | _ => true

section Step

variable (lib : TransactionLibrary) (expected : IdentityText) (bounds : JournalBounds)
  (identity : JournalIdentity)

def actStep (i : Input) (st : StoredWorld) : Option (StoredWorld × Option Event) :=
  if i.action.leavesStore then
    (worldStep lib identity i st.world).map fun r => (⟨r.1, st.disk⟩, r.2)
  else none

/-- What the world makes of an answer of the store, which leaves this disk. -/
def answerStep (now : Timestamp) (action : Action) (w : World) (disk : JournalDisk) :
    Option (StoredWorld × Option Event) :=
  (worldStep lib identity ⟨now, action⟩ w).map fun r => (⟨r.1, disk⟩, r.2)

/-- The save of a snapshot, under a new temporary name. -/
def persistAnswer (now : Timestamp) (name : TempName) (snapshot : SnapshotText)
    (operations : ℕ) (st : StoredWorld) : Option (StoredWorld × Option Event) :=
  if st.world.saving = none ∨ readSnapshot snapshot ≠ st.world.saving ∨
      st.disk.temp name ≠ none then none
  else
    match (boundedStore expected bounds).save lib name snapshot (succeeding operations) st.disk with
    | (.ok _, _, disk) => answerStep lib identity now .stored st.world disk
    | (.threw _, _, disk) => answerStep lib identity now .storeFailed st.world disk
    | (.crashed, _, disk) => answerStep lib identity now .crash st.world disk

/-- The process that starts with what was loaded. -/
def startWith (now : Timestamp) (repair : Bool) (loaded : Option TransactionJournalSnapshot)
    (w : World) (disk : JournalDisk) : StoredWorld × Option Event :=
  if repair then (⟨.opened loaded, disk⟩, some (.loaded loaded))
  else
    match SignerCoordinator.create lib identity bounds.maxRetainedAttempts loaded now with
    | .ok c => (⟨.running c, disk⟩, some (.loaded loaded))
    | .error _ => (⟨w, disk⟩, none)

/-- Where the store refuses, or the process is killed before it has loaded, none starts. -/
def startStep (now : Timestamp) (name : TempName) (repair : Bool) (operations : ℕ)
    (st : StoredWorld) : Option (StoredWorld × Option Event) :=
  match st.world, validateJournalBounds bounds with
  | .stopped _ _, .ok () =>
    if st.disk.temp name ≠ none then none
    else
      match openAndLoad lib (boundedStore expected bounds) name (succeeding operations) st.disk with
      | (.ok read, _, disk) =>
        some (startWith lib bounds identity now repair (readLoaded read) st.world disk)
      | (_, _, disk) => some (⟨st.world, disk⟩, none)
  | _, _ => none

/-- A power loss kills the process, if there is one. -/
def powerLossStep (now : Timestamp) (disk : JournalDisk) (w : World) : StoredWorld × Option Event :=
  (answerStep lib identity now .crash w disk).getD (⟨w, disk⟩, none)

def storedStep (action : StoredAction) (st : StoredWorld) :
    Option (StoredWorld × Option Event) :=
  (readIdentity expected).bind fun identity =>
    match action with
    | .act i => actStep lib identity i st
    | .persist now name snapshot operations =>
      persistAnswer lib expected bounds identity now name snapshot operations st
    | .start now name repair operations =>
      startStep lib expected bounds identity now name repair operations st
    | .powerLoss now choice torn temps =>
      some (powerLossStep lib identity now (st.disk.powerLoss choice torn temps) st.world)

/-- The signer of one journal with its store, from an empty disk on. -/
def storedSystem : Transition.System StoredWorld StoredAction Event where
  init := ⟨.stopped none none, ⟨none, [], []⟩⟩
  step := storedStep lib expected bounds

abbrev runStored (as : List StoredAction) : StoredWorld × List Event :=
  (storedSystem lib expected bounds).run as

end Step

/-- The text that is written is no larger than a journal may be. -/
def StoredAction.Fits : StoredAction → Prop
  | .persist _ _ snapshot _ => Json.utf8Length (journalText snapshot) ≤ MAX_JOURNAL_BYTES
  | _ => True

instance : (a : StoredAction) → Decidable a.Fits
  | .persist _ _ snapshot _ =>
    Nat.decLe (Json.utf8Length (journalText snapshot)) MAX_JOURNAL_BYTES
  | .act _ => isTrue trivial
  | .start _ _ _ _ => isTrue trivial
  | .powerLoss _ _ _ _ => isTrue trivial

/-! Procedures whose operations succeed. -/

section Procedures

variable {lib : TransactionLibrary} {store : JournalStore} {name : TempName}

theorem orCleanUp_succeeds {pre : JournalDisk → Prop} {post : Unit → JournalDisk → Prop}
    {op : JournalFiles Unit} (file directory ownsTemp : Bool) (h : Succeeds pre op post) :
    Succeeds pre (orCleanUp file directory ownsTemp name op) post := by
  apply Succeeds.bind h.attempt
  intro r
  cases r with
  | ok u =>
    apply Succeeds.pure
    rintro d ⟨_, _, hpost⟩
    exact hpost
  | error e =>
    apply Succeeds.of_false
    rintro d ⟨_, he, _⟩
    cases he

/-- A replacement under a new name succeeds. -/
theorem durableReplace_succeeds (contents : Json.Text) :
    Succeeds (fun d => d.temp name = none) (durableReplace name contents) fun _ _ => True := by
  have hpassive (pre : JournalDisk → Prop) := @Succeeds.passive _ _ _ pre fileFailed
  have hcreate : Succeeds (fun d : JournalDisk => d.temp name = none)
      (createTemp fileFailed name (some [])) fun _ _ => True := by
    apply Succeeds.bind Succeeds.get
    intro d₀
    cases hd₀ : d₀.temp name with
    | none => exact Succeeds.operation fun _ _ => trivial
    | some inode =>
      apply Succeeds.of_false
      rintro d ⟨hd, rfl⟩
      rw [hd] at hd₀
      cases hd₀
  have hoperation {effect : JournalDisk → JournalDisk}
      {disturbed : FileContents → JournalDisk → JournalDisk} :
      Succeeds (fun _ => True) (Files.operation fileFailed effect disturbed) fun _ _ => True :=
    Succeeds.operation fun _ _ => trivial
  apply Succeeds.bind (orCleanUp_succeeds _ _ _ (hpassive _))
  intro _
  apply Succeeds.bind (orCleanUp_succeeds _ _ _ hcreate)
  intro _
  apply Succeeds.bind (orCleanUp_succeeds _ _ _ hoperation)
  intro _
  apply Succeeds.bind (orCleanUp_succeeds _ _ _ hoperation)
  intro _
  apply Succeeds.bind (orCleanUp_succeeds _ _ _ hoperation)
  intro _
  apply Succeeds.bind (orCleanUp_succeeds _ _ _ hoperation)
  intro _
  apply Succeeds.bind (orCleanUp_succeeds _ _ _ hoperation)
  intro _
  apply Succeeds.bind (orCleanUp_succeeds _ _ _ hoperation)
  intro _
  apply Succeeds.bind (orCleanUp_succeeds _ _ _ hoperation)
  intro _
  apply Succeeds.bind hoperation.attempt
  intro _
  exact Succeeds.pure fun _ _ => trivial

theorem rethrow_succeeds {α : Type} {pre : JournalDisk → Prop} {post : α → JournalDisk → Prop}
    {op : JournalFiles α} (failure : Failure) (h : Succeeds pre op post) :
    Succeeds pre (rethrow failure op) post := by
  apply Succeeds.bind h.attempt
  intro r
  cases r with
  | ok a =>
    apply Succeeds.pure
    rintro d ⟨_, ha, hpost⟩
    obtain rfl := Except.ok.inj ha
    exact hpost
  | error e =>
    apply Succeeds.of_false
    rintro d ⟨_, he, _⟩
    cases he

/-- The save of a snapshot that the encoder takes succeeds. -/
theorem save_succeeds {snapshot : SnapshotText} {contents : Json.Text}
    (h : encodeJournalSnapshot lib snapshot store.identity = .ok contents) :
    Succeeds (fun d => d.temp name = none) (store.save lib name snapshot) fun _ _ => True := by
  have hvalid : validateJournalText snapshot store.identity = some snapshot :=
    validateJournalText_some_iff.mpr ⟨rfl, (encodeJournalSnapshot_ok_iff.mp h).2.1.valid⟩
  unfold JournalStore.save
  simp only [hvalid, h]
  exact rethrow_succeeds _ (durableReplace_succeeds contents)

/-- The name's file can be read, where it refers to one. -/
def Readable (d : JournalDisk) : Prop :=
  ∀ inode ∈ d.target, ∃ contents, inode.contents = some contents ∧
    Json.utf8Length contents ≤ MAX_JOURNAL_BYTES

theorem readOpened_succeeds {inode : Inode FileContents} {contents : Json.Text}
    {pre : JournalDisk → Prop} (hcontents : inode.contents = some contents)
    (hsize : Json.utf8Length contents ≤ MAX_JOURNAL_BYTES) :
    Succeeds pre (readOpened inode) fun r d => pre d ∧ r = contents := by
  apply Succeeds.bind (Succeeds.passive fileFailed)
  intro _
  rw [hcontents]
  simp only [Option.map_some, Option.getD_some, if_neg (not_lt.mpr hsize)]
  apply Succeeds.bind (Succeeds.passive fileFailed)
  intro _
  exact Succeeds.pure fun _ hd => ⟨hd, rfl⟩

theorem readBoundedJournal_succeeds :
    Succeeds Readable readBoundedJournal fun _ _ => True := by
  apply Succeeds.bind (Succeeds.passive fileFailed)
  intro _
  apply Succeeds.bind Succeeds.get
  intro d₀
  cases htarget : d₀.target with
  | none => exact Succeeds.pure fun _ _ => trivial
  | some inode =>
    by_cases hread : Readable d₀
    · obtain ⟨contents, hcontents, hsize⟩ := hread inode htarget
      apply Succeeds.bind (readOpened_succeeds hcontents hsize).attempt
      intro read
      apply Succeeds.bind (Succeeds.passive fileFailed).attempt
      intro closed
      cases read with
      | error e =>
        apply Succeeds.of_false
        rintro d ⟨_, _, _, he, _⟩
        cases he
      | ok contents =>
        cases closed with
        | error e =>
          apply Succeeds.of_false
          rintro d ⟨_, he, _⟩
          cases he
        | ok u => exact Succeeds.pure fun _ _ => trivial
    · apply Succeeds.of_false
      rintro d ⟨hd, rfl⟩
      exact hread hd

/-- The journal on the disk is one that the store loads. -/
def Loadable (lib : TransactionLibrary) (store : JournalStore) (c : Option FileContents)
    (r : Option SnapshotText) : Prop :=
  Denotes lib store.identity c r ∧ ∀ s ∈ r, WithinBounds store.bounds s

theorem load_succeeds (r : Option SnapshotText) :
    Succeeds (fun d => Loadable lib store (d.target.map (·.contents)) r) (store.load lib)
      fun read _ => read = r := by
  let pre (d : JournalDisk) : Prop := Loadable lib store (d.target.map (·.contents)) r
  have hreadable (d : JournalDisk) (hd : pre d) : Readable d := by
    intro inode hinode
    obtain ⟨⟨hnone, _⟩ | ⟨contents, s, hc, hdecode, _⟩, _⟩ := hd
    · rw [hinode] at hnone
      cases hnone
    · rw [hinode] at hc
      exact ⟨contents, Option.some.inj hc, (decodeJournalSnapshot_ok_iff.mp hdecode).1.2⟩
  have hread : Succeeds pre readBoundedJournal
      fun c d => True ∧ pre d ∧ d.target.map (·.contents) = c.map some :=
    ((readBoundedJournal_succeeds).weaken hreadable fun _ _ h => h).of_triple
      (readBoundedJournal_triple pre)
  apply Succeeds.bind (rethrow_succeeds _ hread)
  intro read
  cases read with
  | none =>
    apply Succeeds.pure
    rintro d ⟨_, ⟨hdenotes, _⟩, htarget⟩
    rw [htarget] at hdenotes
    exact Denotes.unique (Or.inl ⟨rfl, rfl⟩) hdenotes
  | some contents =>
    -- contents that do not hold this journal cannot have been read
    by_cases hdenotes : Loadable lib store (some (some contents)) r
    · obtain ⟨⟨hnone, _⟩ | ⟨contents', s, hc, hdecode, rfl⟩, hbounds⟩ := hdenotes
      · cases hnone
      · obtain rfl := Option.some.inj (Option.some.inj hc)
        simp only [hdecode]
        cases hb : store.bounds with
        | none => exact Succeeds.pure fun _ _ => rfl
        | some b =>
          have hwithin := hbounds s rfl
          rw [hb] at hwithin
          simp only [Option.map_some, inspectJournalBounds_nil_iff.mpr hwithin]
          exact Succeeds.pure fun _ _ => rfl
    · apply Succeeds.of_false
      rintro d ⟨_, hd, htarget⟩
      have hloadable : Loadable lib store (d.target.map (·.contents)) r := hd
      rw [htarget] at hloadable
      exact hdenotes hloadable

/-- A snapshot that the store would save and load. -/
def Kept (lib : TransactionLibrary) (store : JournalStore) (r : Option SnapshotText) : Prop :=
  ∀ s ∈ r, (∃ contents, encodeJournalSnapshot lib s store.identity = .ok contents) ∧
    WithinBounds store.bounds s

/-- Every file that the journal's name may refer to holds a snapshot of this kind. -/
def HoldsJournal (lib : TransactionLibrary) (store : JournalStore) (R : Option SnapshotText → Prop)
    (d : JournalDisk) : Prop :=
  d.Holds fun c => ∃ r, Denotes lib store.identity c r ∧ R r

theorem temp_unlinkTemp {d : JournalDisk} (other : TempName) (h : d.temp name = none) :
    (d.unlinkTemp other).temp name = none := by
  have hnone : ∀ p ∈ d.temps, (name != p.1) = true := List.lookup_eq_none_iff.mp h
  apply List.lookup_eq_none_iff.mpr
  intro p hp
  exact hnone p (List.mem_of_mem_filter hp)

theorem removeJournalTempFiles_succeeds {I : JournalDisk → Prop}
    (hI : ∀ name d, I d → I (d.unlinkTemp name)) (names : List TempName) :
    Succeeds I (removeJournalTempFiles names) fun _ => I := by
  induction names with
  | nil => exact Succeeds.pure fun _ hd => hd
  | cons name names ih =>
    apply Succeeds.bind (Succeeds.passive fileFailed)
    intro _
    have hremove : Succeeds I (removeTemp fileFailed name) fun _ => I :=
      Succeeds.operation (hI name)
    apply Succeeds.bind hremove
    intro _
    exact ih

variable {R : Option SnapshotText → Prop}

/-- What is loaded from such a disk is such a snapshot. -/
theorem HoldsJournal.loaded {d : JournalDisk} {r : Option SnapshotText}
    (h : HoldsJournal lib store R d)
    (hr : Denotes lib store.identity (d.target.map (·.contents)) r) :
    R r := by
  obtain ⟨r', hr', hR⟩ := h.target
  rwa [hr.unique hr']

theorem openStore_succeeds (hR : ∀ r, R r → Kept lib store r) :
    Succeeds (fun d => d.temp name = none ∧ HoldsJournal lib store R d) (store.openStore lib name)
      fun _ _ => True := by
  let pre (d : JournalDisk) : Prop := d.temp name = none ∧ HoldsJournal lib store R d
  have hload : Succeeds pre (store.load lib)
      fun read d => pre d ∧ Denotes lib store.identity (d.target.map (·.contents)) read := by
    have hreads : Succeeds pre (store.load lib) fun _ _ => True := by
      intro d hd
      obtain ⟨r, hr, hkept⟩ := hd.2.target
      have hloadable : Loadable lib store (d.target.map (·.contents)) r :=
        ⟨hr, fun s hs => (hR r hkept s hs).2⟩
      exact ((load_succeeds r).weaken (fun _ h => h) fun _ _ _ => trivial) d hloadable
    exact (hreads.of_triple (load_triple lib store pre)).weaken (fun _ hd => hd)
      fun _ _ hd => ⟨hd.2.1, hd.2.2.1⟩
  apply Succeeds.bind hload
  intro current
  let Loaded (d : JournalDisk) : Prop :=
    pre d ∧ Denotes lib store.identity (d.target.map (·.contents)) current
  apply Succeeds.bind Succeeds.get
  intro d₀
  -- cleaning up touches temporary files only
  have hclean : Succeeds (fun d => Loaded d ∧ d₀ = d)
      (rethrow (.error "Journal temporary-file cleanup failed.") do
        Files.passive fileFailed
        removeJournalTempFiles (d₀.temps.map (·.1)))
      fun _ => Loaded := by
    apply rethrow_succeeds
    apply Succeeds.weaken _ (fun d hd => hd.1) fun _ _ hd => hd
    apply Succeeds.bind (Succeeds.passive fileFailed)
    intro _
    apply removeJournalTempFiles_succeeds
    intro other d hd
    exact ⟨⟨temp_unlinkTemp other hd.1.1, hd.1.2.unlinkTemp other⟩, hd.2⟩
  apply Succeeds.bind hclean
  intro _
  -- a journal that was there is written again
  cases current with
  | none => exact Succeeds.pure fun _ _ => trivial
  | some snapshot =>
    have hsave : Succeeds Loaded (store.save lib name snapshot) fun _ _ => True := by
      intro d hd
      obtain ⟨⟨contents, hencode⟩, _⟩ := hR _ (hd.1.2.loaded hd.2) snapshot rfl
      exact save_succeeds hencode d hd.1.1
    apply Succeeds.bind hsave
    intro _
    exact Succeeds.pure fun _ _ => trivial

/-- A start leaves one snapshot that the name can be found to hold, and loads it. -/
theorem openAndLoad_triple (lib : TransactionLibrary) (store : JournalStore) (name : TempName) :
    Triple (HoldsJournal lib store R) (openAndLoad lib store name)
      (fun read d => R read ∧ HoldsJournal lib store (· = read) d)
      (HoldsJournal lib store R) (HoldsJournal lib store R) := by
  apply Triple.bind (openStore_triple lib store name (R := R))
  intro opened
  by_cases hopened : R opened
  · have hback (d : JournalDisk)
        (hd : d.Holds fun c => Denotes lib store.identity c opened) : HoldsJournal lib store R d :=
      hd.mono fun c hc => ⟨opened, hc, hopened⟩
    refine (load_triple lib store
      (Disk.Holds fun c => Denotes lib store.identity c opened)).weaken
      (fun d hd => hd.2) (fun read d hd => ?_) hback hback
    obtain rfl := hd.1.target.unique hd.2.1
    exact ⟨hopened, hd.1.mono fun c hc => ⟨opened, hc, rfl⟩⟩
  · exact Triple.weaken (load_triple lib store fun _ => False) (fun d hd => hopened hd.1)
      (fun _ _ hd => hd.1.elim) (fun _ hd => hd.elim) fun _ hd => hd.elim

theorem openAndLoad_succeeds (hR : ∀ r, R r → Kept lib store r) :
    Succeeds (fun d => d.temp name = none ∧ HoldsJournal lib store R d)
      (openAndLoad lib store name) fun read d => R read ∧ HoldsJournal lib store (· = read) d := by
  have hopen := (@openStore_succeeds lib store name R hR).of_triple
    ((openStore_triple lib store name (R := R)).weaken (fun d hd => hd.2) (fun _ _ hd => hd)
      (fun _ hd => hd) fun _ hd => hd)
  have hstart : Succeeds (fun d => d.temp name = none ∧ HoldsJournal lib store R d)
      (openAndLoad lib store name) fun _ _ => True := by
    apply Succeeds.bind hopen
    intro opened d hd
    have hloadable : Loadable lib store (d.target.map (·.contents)) opened :=
      ⟨hd.2.2.target, fun s hs => (hR opened hd.2.1 s hs).2⟩
    exact ((load_succeeds opened).weaken (fun _ h => h) fun _ _ _ => trivial) d hloadable
  exact (hstart.of_triple ((openAndLoad_triple lib store name).weaken (fun d hd => hd.2)
    (fun _ _ hd => hd) (fun _ hd => hd) fun _ hd => hd)).weaken (fun _ hd => hd) fun _ _ hd => hd.2

end Procedures

end Quicknet
