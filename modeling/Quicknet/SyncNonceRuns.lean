import Quicknet.SyncNonce

/-! Runs of `sync-nonce`. Reads leave the file alone, opening the store leaves what it
decodes to, and only a save that begins may leave the planned snapshot instead. -/
namespace Quicknet

open DurableFile Transition
open Json (Text)

section Store

variable {lib : TransactionLibrary} {identity : IdentityText} {I : JournalDisk → Prop}

theorem decodedContents_denotes {c : Option FileContents} {r : Option SnapshotText}
    (h : Denotes lib identity c r) : decodedContents lib identity c = r.map some := by
  rcases h with ⟨rfl, rfl⟩ | ⟨contents, s, rfl, hs, rfl⟩
  · rfl
  · simp [decodedContents, hs, Except.toOption]

theorem decodedJournal_denotes {d : JournalDisk} {r : Option SnapshotText}
    (h : Denotes lib identity (d.target.map (·.contents)) r) :
    decodedJournal lib identity d = r.map some := decodedContents_denotes h

/-- A predicate of the decoded journal that the new snapshot satisfies. -/
theorem keeps_decoded {R : Option (Option SnapshotText) → Prop} {snapshot : SnapshotText}
    {contents : Text} (hR : R (some (some snapshot)))
    (he : encodeJournalSnapshot lib snapshot identity = .ok contents) :
    Disk.Keeps (some contents) fun d : JournalDisk => R (decodedJournal lib identity d) := by
  apply Disk.keeps_reads (P := fun c => R (decodedContents lib identity c))
  rw [decodedContents_denotes (denotes_encoded he)]
  exact hR

variable (lib) (store : JournalStore)

/-- A save keeps what the steps of its replacement keep. -/
theorem save_rule (name : TempName) (snapshot : SnapshotText)
    (hI : ∀ contents, encodeJournalSnapshot lib snapshot store.identity = .ok contents →
      Disk.Keeps (some contents) I) :
    Triple I (store.save lib name snapshot)
      (fun _ d => decodedJournal lib store.identity d = some (some snapshot)) I I := by
  unfold JournalStore.save
  cases hv : validateJournalText snapshot store.identity with
  | none => exact Triple.throw fun _ hd => hd
  | some captured =>
    obtain rfl := (validateJournalText_some_iff.mp hv).1
    simp only
    cases he : encodeJournalSnapshot lib captured store.identity with
    | error e => exact Triple.throw fun _ hd => hd
    | ok contents =>
      have hdecoded (d : JournalDisk) (hd : I d ∧ d.Durable (some contents)) :
          decodedJournal lib store.identity d = some (some captured) := by
        apply decodedJournal_denotes (r := some captured)
        rw [hd.2.target]
        exact denotes_encoded he
      exact rethrow_triple _ ((durableReplace_rule name (hI contents he)).weaken
        (fun _ hd => hd) (fun _ d hd => hdecoded d hd) (fun _ hd => hd) fun _ hd => hd)

/-- Opening rewrites a journal that decodes, and leaves what it decodes to. -/
theorem openStore_decoded (name : TempName) (j : Option (Option SnapshotText)) :
    Triple (fun d => decodedJournal lib store.identity d = j) (store.openStore lib name)
      (fun _ d => decodedJournal lib store.identity d = j)
      (fun d => decodedJournal lib store.identity d = j)
      (fun d => decodedJournal lib store.identity d = j) := by
  let Same (d : JournalDisk) : Prop := decodedJournal lib store.identity d = j
  apply Triple.bind (load_triple lib store Same)
  intro current
  let Loaded (d : JournalDisk) : Prop := Same d ∧ j = current.map some
  apply Triple.bind (Triple.get (fun _ => Loaded) fun d hd =>
    ⟨hd.1, hd.1.symm.trans (decodedJournal_denotes hd.2.1)⟩)
  intro d₀
  have hclean : Triple Loaded
      (rethrow (.error "Journal temporary-file cleanup failed.") do
        Files.passive fileFailed
        removeJournalTempFiles (d₀.temps.map (·.1)))
      (fun _ => Loaded) Loaded Loaded := by
    apply rethrow_triple
    apply Triple.bind (passive_triple Loaded)
    intro _
    exact removeJournalTempFiles_triple (fun _ _ hd => hd) _
  apply Triple.bind (hclean.weaken (fun _ hd => hd) (fun _ _ hd => hd) (fun _ hd => hd.1)
    fun _ hd => hd.1)
  intro _
  cases current with
  | none => exact Triple.pure fun _ hd => hd.1
  | some snapshot =>
    have hsave : Triple Loaded (store.save lib name snapshot) (fun _ => Same) Same Same := by
      intro script d hd
      have hkeeps : ∀ contents, encodeJournalSnapshot lib snapshot store.identity = .ok contents →
          Disk.Keeps (some contents) Same :=
        fun contents he => @keeps_decoded lib store.identity (· = j) snapshot contents hd.2.symm he
      exact ((save_rule lib store name snapshot hkeeps).weaken (fun _ hd => hd)
        (fun _ d' hd' => hd'.trans hd.2.symm) (fun _ hd => hd) fun _ hd => hd) script d hd.1
    apply Triple.bind hsave
    intro _
    exact Triple.pure fun _ hd => hd

end Store

section Steps

variable (lib : TransactionLibrary) (identity : IdentityText)

/-- The plan for a journal that reads as `initial`. -/
def PlannedFrom (initial : SnapshotText) (repair : RepairText) (planned : SnapshotText) : Prop :=
  ∃ observation latestNonce pendingNonce at',
    planNonceSyncText initial identity observation latestNonce pendingNonce at' =
      some (.repairAvailable repair planned)

/-- The journal was `left`, and is now the plan for it. -/
def AppliedTo (left : Option (Option SnapshotText)) (repair : RepairText) (d : JournalDisk) : Prop :=
  ∃ initial planned, left = some (some initial) ∧ PlannedFrom identity initial repair planned ∧
    decodedJournal lib identity d = some (some planned)

/-- What stands on disk, and what the command has planned, while it waits. -/
def StageOk (left : Option (Option SnapshotText)) (d : JournalDisk) : SyncStage → Prop
  | .ended => True
  | .starting | .reading | .inspecting _ => decodedJournal lib identity d = left
  | .rechecking initial repair planned | .opening initial repair planned
  | .loading initial repair planned =>
    decodedJournal lib identity d = left ∧ PlannedFrom identity initial repair planned
  | .saving initial repair planned =>
    decodedJournal lib identity d = left ∧ PlannedFrom identity initial repair planned ∧
      left = some (some initial)

/-- What a command leaves behind: only a save that has begun may have changed the journal. -/
def OutcomeOk (left : Option (Option SnapshotText)) (saving : Bool) (d : JournalDisk) :
    SyncOutcome → Prop
  | .returned (.applied repair) => AppliedTo lib identity left repair d
  | .returned _ => decodedJournal lib identity d = left
  | .rejected | .died => decodedJournal lib identity d = left ∨
    saving = true ∧ ∃ repair, AppliedTo lib identity left repair d

def MoveOk (left : Option (Option SnapshotText)) (saving : Bool) (d : JournalDisk) :
    SyncMove → Prop
  | .waits stage => StageOk lib identity left d stage
  | .ends outcome => OutcomeOk lib identity left saving d outcome

def SyncStage.isSaving : SyncStage → Bool
  | .saving _ _ _ => true
  | _ => false

variable {lib identity} {left : Option (Option SnapshotText)} {saving apply : Bool}
  {disk : JournalDisk} {initial planned : SnapshotText} {repair : RepairText} {s : SyncSettlement}

theorem moveOk_failed (h : decodedJournal lib identity disk = left) {outcome : SyncOutcome}
    (hout : outcome = .rejected ∨ outcome = .died) :
    MoveOk lib identity left saving disk (.ends outcome) := by
  rcases hout with rfl | rfl
  · exact Or.inl h
  · exact Or.inl h

theorem moveOk_guarded (h : decodedJournal lib identity disk = left) {move : SyncMove}
    (hmove : MoveOk lib identity left saving disk move) :
    MoveOk lib identity left saving disk (s.guarded move) := by
  unfold SyncSettlement.guarded
  split
  · exact moveOk_failed h (Or.inl rfl)
  · exact hmove

theorem syncRead_ok (h : decodedJournal lib identity disk = left) (read : Option SnapshotText) :
    MoveOk lib identity left saving disk (syncRead s read) := by
  unfold syncRead
  split
  · exact moveOk_failed h (Or.inl rfl)
  · cases read with
    | none => exact h
    | some initial =>
      simp only
      split
      · exact h
      · exact h

theorem syncInspected_ok (h : decodedJournal lib identity disk = left) :
    MoveOk lib identity left saving disk (syncInspected identity apply initial s) := by
  have hfailed : MoveOk lib identity left saving disk (.ends .rejected) :=
    moveOk_failed h (Or.inl rfl)
  unfold syncInspected
  split
  · exact hfailed
  · split
    · exact hfailed
    · split
      · exact h
      · split
        · exact hfailed
        · rename_i plan hplan
          split
          · exact hfailed
          · split
            · -- an apply goes on with the plan for what was read first
              split
              · obtain ⟨at', -, hplanned⟩ := Option.bind_eq_some_iff.mp hplan
                exact ⟨h, _, _, _, at', hplanned⟩
              · exact hfailed
            · exact h

/-- A read that has to match leads on only from the journal that the plan is for. -/
theorem syncMatched_ok (h : decodedJournal lib identity disk = left) {stage : SyncStage}
    {read : Option SnapshotText} (hread : decodedJournal lib identity disk = read.map some)
    (hstage : left = some (some initial) → StageOk lib identity left disk stage) :
    MoveOk lib identity left saving disk (syncMatched initial s stage read) := by
  unfold syncMatched
  split
  · exact moveOk_failed h (Or.inl rfl)
  · split
    · exact h
    · rename_i hmatch
      split
      · apply hstage
        rw [not_not.mp hmatch] at hread
        exact h.symm.trans hread
      · exact moveOk_failed h (Or.inl rfl)

/-- A file operation, by its rule. -/
theorem settleFiles_ok {α : Type} {op : JournalFiles α} {script : List (Outcome FileContents)}
    {next : α → SyncMove} {pre fail : JournalDisk → Prop} {post : α → JournalDisk → Prop}
    (hop : Triple pre op post fail fail) (hd : pre disk)
    (hnext : ∀ a d, post a d → MoveOk lib identity left saving d (next a))
    (hfail : ∀ d outcome, fail d → outcome = .rejected ∨ outcome = .died →
      MoveOk lib identity left saving d (.ends outcome)) :
    ∃ move d, settleFiles op script disk next = move.apply d ∧
      MoveOk lib identity left saving d move := by
  have hrun := hop script disk hd
  unfold settleFiles
  split
  · rename_i a script' d heq
    rw [heq] at hrun
    exact ⟨_, d, rfl, hnext a d hrun⟩
  · rename_i e script' d heq
    rw [heq] at hrun
    exact ⟨_, d, rfl, hfail d _ hrun (Or.inl rfl)⟩
  · rename_i script' d heq
    rw [heq] at hrun
    exact ⟨_, d, rfl, hfail d _ hrun (Or.inr rfl)⟩

/-- The reads of the command. -/
theorem settleLoad_ok (h : decodedJournal lib identity disk = left)
    {script : List (Outcome FileContents)} {next : Option SnapshotText → SyncMove}
    (hnext : ∀ read d, decodedJournal lib identity d = left →
      decodedJournal lib identity d = read.map some → MoveOk lib identity left saving d (next read)) :
    ∃ move d, settleFiles ((syncStore identity).load lib) script disk next = move.apply d ∧
      MoveOk lib identity left saving d move :=
  settleFiles_ok (load_triple lib (syncStore identity)
    fun d => decodedJournal lib identity d = left) h
    (fun read d hd => hnext read d hd.1 (decodedJournal_denotes hd.2.1))
    fun _ _ hd hout => moveOk_failed hd hout

/-- What one await and the code after it do. -/
theorem syncSettled_ok {m m' : SyncMachine} {e : Option SyncEvent}
    (h : StageOk lib identity left m.disk m.stage)
    (hs : syncSettled lib identity apply s m = some (m', e)) :
    ∃ move d, (m', e) = move.apply d ∧ MoveOk lib identity left m.stage.isSaving d move := by
  obtain ⟨disk, stage⟩ := m
  cases stage with
  | starting =>
    refine ⟨_, disk, (Option.some.inj hs).symm, ?_⟩
    split
    · exact moveOk_guarded h h
    · exact moveOk_failed h (Or.inl rfl)
  | reading =>
    rw [← Option.some.inj hs]
    exact settleLoad_ok h fun read d hd _ => syncRead_ok hd read
  | inspecting initial => exact ⟨_, disk, (Option.some.inj hs).symm, syncInspected_ok h⟩
  | rechecking initial repair planned =>
    rw [← Option.some.inj hs]
    exact settleLoad_ok h.1 fun read d hd hread =>
      syncMatched_ok hd hread fun _ => ⟨hd, h.2⟩
  | opening initial repair planned =>
    rw [← Option.some.inj hs]
    exact settleFiles_ok (openStore_decoded lib (syncStore identity) s.name left) h.1
      (fun _ d hd => moveOk_guarded hd ⟨hd, h.2⟩) fun _ _ hd hout => moveOk_failed hd hout
  | loading initial repair planned =>
    rw [← Option.some.inj hs]
    exact settleLoad_ok h.1 fun read d hd hread =>
      syncMatched_ok hd hread fun hleft => ⟨hd, h.2, hleft⟩
  | saving initial repair planned =>
    obtain ⟨hdisk, hplanned, hleft⟩ := h
    have happlied (d : JournalDisk)
        (hd : decodedJournal lib identity d = some (some planned)) :
        AppliedTo lib identity left repair d := ⟨initial, planned, hleft, hplanned, hd⟩
    -- a save that fails may have left the plan, and one that returns has
    let Either (j : Option (Option SnapshotText)) : Prop := j = left ∨ j = some (some planned)
    have hsave := save_rule lib (syncStore identity) s.name planned fun contents he =>
      @keeps_decoded lib identity Either planned contents (Or.inr rfl) he
    rw [← Option.some.inj hs]
    refine settleFiles_ok hsave (Or.inl hdisk) (fun _ d hd => happlied d hd) ?_
    intro d outcome hd hout
    have hend : decodedJournal lib identity d = left ∨
        true = true ∧ ∃ repair, AppliedTo lib identity left repair d := by
      rcases hd with hd | hd
      · exact Or.inl hd
      · exact Or.inr ⟨rfl, repair, happlied d hd⟩
    rcases hout with rfl | rfl
    · exact hend
    · exact hend
  | ended => cases hs

end Steps

section Runs

variable (lib : TransactionLibrary) (identity : IdentityText) (apply : Bool)

theorem leftBy_append (start : JournalDisk) (tr : List SyncEvent) (e : SyncEvent) :
    leftBy start (tr ++ [e]) = match e with
      | .changed disk => disk
      | .ended _ => leftBy start tr := by
  cases e <;> simp [leftBy]

/-- The journal as the last change by another process left it. -/
def leftJournal (start : JournalDisk) (tr : List SyncEvent) : Option (Option SnapshotText) :=
  decodedJournal lib identity (leftBy start tr)

variable {lib identity apply} {start : JournalDisk} {m m' : SyncMachine} {tr : List SyncEvent}
  {e : Option SyncEvent} {input : SyncInput}

/-- The step lemma. A change by another process is what the command finds next. -/
theorem syncStep_ok (h : StageOk lib identity (leftJournal lib identity start tr) m.disk m.stage)
    (hs : syncStep lib identity apply input m = some (m', e)) :
    StageOk lib identity (leftJournal lib identity start (tr ++ e.toList)) m'.disk m'.stage := by
  cases input with
  | changed disk =>
    obtain ⟨disk₀, stage⟩ := m
    cases stage with
    | saving _ _ _ => cases hs
    | ended =>
      obtain ⟨rfl, rfl⟩ := Prod.mk.inj (Option.some.inj hs)
      trivial
    | starting | reading | inspecting _ =>
      obtain ⟨rfl, rfl⟩ := Prod.mk.inj (Option.some.inj hs)
      rw [Option.toList_some, leftJournal, leftBy_append]
      exact rfl
    | rechecking _ _ _ | opening _ _ _ | loading _ _ _ =>
      obtain ⟨rfl, rfl⟩ := Prod.mk.inj (Option.some.inj hs)
      rw [Option.toList_some, leftJournal, leftBy_append]
      exact ⟨rfl, h.2⟩
  | settled s =>
    obtain ⟨move, d, heq, hmove⟩ := syncSettled_ok h hs
    cases move with
    | waits stage =>
      obtain ⟨rfl, rfl⟩ := Prod.mk.inj heq
      rw [Option.toList_none, List.append_nil]
      exact hmove
    | ends outcome =>
      obtain ⟨rfl, rfl⟩ := Prod.mk.inj heq
      trivial

/-- The run lemma. -/
theorem runSyncNonce_ok (lib : TransactionLibrary) (identity : IdentityText) (apply : Bool)
    (start : JournalDisk) (is : List SyncInput) :
    StageOk lib identity
      (leftJournal lib identity start (runSyncNonce lib identity apply start is).2)
      (runSyncNonce lib identity apply start is).1.disk
      (runSyncNonce lib identity apply start is).1.stage :=
  (syncSystem lib identity apply start).run_invariant
    (fun m tr => StageOk lib identity (leftJournal lib identity start tr) m.disk m.stage)
    rfl (fun _ _ _ _ _ h hs => syncStep_ok h hs) is

theorem StageOk.disk {left : Option (Option SnapshotText)} {d : JournalDisk} {stage : SyncStage}
    (h : StageOk lib identity left d stage) (hne : stage ≠ .ended) :
    decodedJournal lib identity d = left := by
  cases stage with
  | ended => exact absurd rfl hne
  | starting | reading | inspecting _ => exact h
  | rechecking _ _ _ | opening _ _ _ | loading _ _ _ | saving _ _ _ => exact h.1

/-- The stages that `syncNonce` goes through before it rechecks the journal. -/
def SyncStage.reads : SyncStage → Bool
  | .starting | .reading | .inspecting _ | .ended => true
  | .rechecking _ _ _ | .opening _ _ _ | .loading _ _ _ | .saving _ _ _ => false

/-- What a preview comes to: it waits in one of those stages, or it ends without a repair. -/
def SyncMove.previews : SyncMove → Prop
  | .waits stage => stage.reads = true
  | .ends outcome => ∀ repair, outcome ≠ .returned (.applied repair)

theorem syncInspected_previews (initial : SnapshotText) (s : SyncSettlement) :
    (syncInspected identity false initial s).previews := by
  have hrejected : SyncMove.previews (.ends .rejected) := by
    intro repair h
    cases h
  unfold syncInspected
  split
  · exact hrejected
  · split
    · exact hrejected
    · split
      · intro repair h
        cases h
      · split
        · exact hrejected
        · split
          · exact hrejected
          · -- `apply` is not set
            intro repair h
            cases h

theorem syncRead_previews (s : SyncSettlement) (read : Option SnapshotText) :
    (syncRead s read).previews := by
  unfold syncRead
  split
  · intro repair h
    cases h
  · cases read with
    | none =>
      intro repair h
      cases h
    | some initial =>
      simp only
      split
      · intro repair h
        cases h
      · rfl

/-- A preview makes no move that leads to a write, and touches no file. -/
theorem syncSettled_previews {s : SyncSettlement} (hm : m.stage.reads = true)
    (hs : syncSettled lib identity false s m = some (m', e)) :
    ∃ move, (m', e) = SyncMove.apply m.disk move ∧ move.previews := by
  obtain ⟨disk, stage⟩ := m
  have hfailed (outcome : SyncOutcome) (hout : outcome = .rejected ∨ outcome = .died) :
      SyncMove.previews (.ends outcome) := by
    intro repair h
    rcases hout with rfl | rfl
    · cases h
    · cases h
  cases stage with
  | starting =>
    refine ⟨_, (Option.some.inj hs).symm, ?_⟩
    unfold SyncSettlement.guarded
    split
    · split
      · exact hfailed _ (Or.inl rfl)
      · rfl
    · exact hfailed _ (Or.inl rfl)
  | reading =>
    -- the read leaves the whole disk, however it ends
    have hrun := load_triple lib (syncStore identity) (· = disk) s.script disk rfl
    have hmove := (Option.some.inj hs).symm
    unfold settleFiles at hmove
    split at hmove
    · rename_i read script d heq
      rw [heq] at hrun
      obtain rfl := hrun.1
      exact ⟨_, hmove, syncRead_previews s read⟩
    · rename_i failure script d heq
      rw [heq] at hrun
      obtain rfl := hrun
      exact ⟨_, hmove, hfailed _ (Or.inl rfl)⟩
    · rename_i script d heq
      rw [heq] at hrun
      obtain rfl := hrun
      exact ⟨_, hmove, hfailed _ (Or.inr rfl)⟩
  | inspecting initial =>
    exact ⟨_, (Option.some.inj hs).symm, syncInspected_previews initial s⟩
  | ended => cases hs
  | rechecking _ _ _ | opening _ _ _ | loading _ _ _ | saving _ _ _ => cases hm

/-- The step lemma of a preview. -/
theorem syncStep_previews (hm : m.stage.reads = true) (hdisk : m.disk = leftBy start tr)
    (hs : syncStep lib identity false input m = some (m', e)) :
    m'.stage.reads = true ∧ m'.disk = leftBy start (tr ++ e.toList) ∧
      ∀ repair, e ≠ some (.ended (.returned (.applied repair))) := by
  cases input with
  | changed disk =>
    have hchanged : m' = { m with disk := disk } ∧ e = some (.changed disk) := by
      unfold syncStep at hs
      simp only at hs
      split at hs
      · cases hs
      · obtain ⟨rfl, rfl⟩ := Prod.mk.inj (Option.some.inj hs)
        exact ⟨rfl, rfl⟩
    obtain ⟨rfl, rfl⟩ := hchanged
    refine ⟨hm, ?_, fun repair h => by cases h⟩
    rw [Option.toList_some, leftBy_append]
  | settled s =>
    obtain ⟨move, heq, hmove⟩ := syncSettled_previews hm hs
    cases move with
    | waits stage =>
      obtain ⟨rfl, rfl⟩ := Prod.mk.inj heq
      refine ⟨hmove, ?_, fun repair h => by cases h⟩
      rw [Option.toList_none, List.append_nil]
      exact hdisk
    | ends outcome =>
      obtain ⟨rfl, rfl⟩ := Prod.mk.inj heq
      refine ⟨rfl, ?_, ?_⟩
      · rw [Option.toList_some, leftBy_append]
        exact hdisk
      · intro repair h
        exact hmove repair (SyncEvent.ended.inj (Option.some.inj h))

/-- Whatever happens around it, a preview leaves every file as it is. -/
theorem runSyncNonce_previews (lib : TransactionLibrary) (identity : IdentityText)
    (start : JournalDisk) (is : List SyncInput) :
    (runSyncNonce lib identity false start is).1.stage.reads = true ∧
      (runSyncNonce lib identity false start is).1.disk =
        leftBy start (runSyncNonce lib identity false start is).2 :=
  (syncSystem lib identity false start).run_invariant
    (fun m tr => m.stage.reads = true ∧ m.disk = leftBy start tr) ⟨rfl, rfl⟩
    (fun _ _ _ _ _ h hs =>
      ⟨(syncStep_previews h.1 h.2 hs).1, (syncStep_previews h.1 h.2 hs).2.1⟩) is

/-- The repair is that of `planNonceSync` for the journal that the strings of `left` stand for,
and its snapshot is what the strings on disk stand for. -/
def AppliesPlan (lib : TransactionLibrary) (identity : IdentityText)
    (left : Option (Option SnapshotText)) (repair : RepairText) (d : JournalDisk) : Prop :=
  ∃ initial planned expected current observed latestNonce pendingNonce timestamp r t,
    left = some (some initial) ∧ decodedJournal lib identity d = some (some planned) ∧
      readIdentity identity = some expected ∧ readSnapshot initial = some current ∧
      planNonceSync current expected observed latestNonce pendingNonce timestamp =
        .ok (.repairAvailable r t) ∧
      readRepair repair = some r ∧ readSnapshot planned = some t

theorem AppliedTo.plan {left : Option (Option SnapshotText)} {repair : RepairText}
    {d : JournalDisk} (h : AppliedTo lib identity left repair d) :
    AppliesPlan lib identity left repair d := by
  obtain ⟨initial, planned, hleft, ⟨observation, latestNonce, pendingNonce, at', hplan⟩, hd⟩ := h
  obtain ⟨expected, current, observed, timestamp, r, t, hexpected, hcurrent, -, -, hrepair, hr, ht⟩ :=
    planNonceSyncText_repair hplan
  exact ⟨initial, planned, expected, current, observed, latestNonce, pendingNonce, timestamp, r, t,
    hleft, hd, hexpected, hcurrent, hrepair, hr, ht⟩

/-- Until it ends, the command leaves the journal as it is; and when it ends, the journal has
changed only if the command says that it applied its plan, or failed in saving it. What it
applied is the plan for the journal that was there. A preview never gets to a write, leaves
every file as it is, and does not end with a repair. -/
theorem sync_nonce_changes (lib : TransactionLibrary) (identity : IdentityText) (apply : Bool)
    (start : JournalDisk) (is : List SyncInput) {input : SyncInput} {m' : SyncMachine}
    {outcome : SyncOutcome}
    (hs : syncStep lib identity apply input (runSyncNonce lib identity apply start is).1 =
      some (m', some (.ended outcome))) :
    decodedJournal lib identity (runSyncNonce lib identity apply start is).1.disk =
        leftJournal lib identity start (runSyncNonce lib identity apply start is).2 ∧
      OutcomeOk lib identity
        (leftJournal lib identity start (runSyncNonce lib identity apply start is).2)
        (runSyncNonce lib identity apply start is).1.stage.isSaving m'.disk outcome ∧
      (∀ repair, outcome = .returned (.applied repair) →
        AppliesPlan lib identity
          (leftJournal lib identity start (runSyncNonce lib identity apply start is).2) repair
          m'.disk) ∧
      (apply = false → (runSyncNonce lib identity apply start is).1.stage.reads = true ∧
        m'.disk = leftBy start (runSyncNonce lib identity apply start is).2 ∧
        ∀ repair, outcome ≠ .returned (.applied repair)) := by
  have h := runSyncNonce_ok lib identity apply start is
  have hended : OutcomeOk lib identity
      (leftJournal lib identity start (runSyncNonce lib identity apply start is).2)
      (runSyncNonce lib identity apply start is).1.stage.isSaving m'.disk outcome ∧
      (runSyncNonce lib identity apply start is).1.stage ≠ .ended := by
    cases input with
    | changed disk =>
      -- what another process does never ends the command
      unfold syncStep at hs
      simp only at hs
      split at hs
      · cases hs
      · cases hs
    | settled s =>
      constructor
      · obtain ⟨move, d, heq, hmove⟩ := syncSettled_ok h hs
        cases move with
        | waits stage => cases heq
        | ends outcome' =>
          obtain ⟨rfl, hout⟩ := Prod.mk.inj heq
          obtain rfl := SyncEvent.ended.inj (Option.some.inj hout)
          exact hmove
      · intro hended
        have hnone : syncSettled lib identity apply s
            (runSyncNonce lib identity apply start is).1 = none := by
          unfold syncSettled
          rw [hended]
        exact absurd (hnone.symm.trans hs) (by simp)
  refine ⟨h.disk hended.2, hended.1, ?_, ?_⟩
  · rintro repair rfl
    exact hended.1.plan
  · rintro rfl
    obtain ⟨hreads, hdisk⟩ := runSyncNonce_previews lib identity start is
    obtain ⟨-, hleft, hnot⟩ := syncStep_previews hreads hdisk hs
    rw [Option.toList_some, leftBy_append] at hleft
    exact ⟨hreads, hleft, fun repair hout => hnot repair (by rw [hout])⟩

end Runs

section Sample

/-- A stored journal whose signer was used by something else. -/
def strayText : SnapshotText where
  identity := sampleIdentityText
  baseline := ⟨sampleAnchorText 5, 0⟩
  lastObservation := ⟨sampleAnchorText 5, 3⟩
  nextNonce := 0
  durableNextNonce := 0
  repairs := []
  attempts := []

def strayDisk : JournalDisk :=
  ⟨some ⟨(encodeJournalSnapshot sampleLibrary strayText sampleIdentityText).toOption, true⟩, [], []⟩

def strayObservation : ObservationText := ⟨sampleAnchorText 9, 3⟩
def strayTimestamp : Text := Json.text "2024-02-29T12:34:56.789Z"

/-- Every file operation succeeds, and the chain shows nonce 3. -/
def plainSettlement : SyncSettlement :=
  ⟨List.replicate 20 .done, 0, some (.observed strayObservation 3 3), some strayTimestamp,
    false, false, true⟩

/-- The start, three reads, the inspection and the rewrite by `open`. -/
def applyingRun : List SyncInput := List.replicate 6 (.settled plainSettlement)

def SyncEvent.applied? : SyncEvent → Option RepairText
  | .ended (.returned (.applied repair)) => some repair
  | _ => none

theorem applyingRun_ends : ∃ m', syncStep sampleLibrary sampleIdentityText true
    (.settled plainSettlement)
    (runSyncNonce sampleLibrary sampleIdentityText true strayDisk applyingRun).1 =
      some (m', some (.ended (.returned (.applied
        (repairText strayText strayObservation strayTimestamp))))) := by
  have hstep : ((syncStep sampleLibrary sampleIdentityText true (.settled plainSettlement)
      (runSyncNonce sampleLibrary sampleIdentityText true strayDisk applyingRun).1).bind
        (·.2.bind SyncEvent.applied?)) =
      some (repairText strayText strayObservation strayTimestamp) := by decide +kernel
  obtain ⟨⟨m', event⟩, hs, happlied⟩ := Option.bind_eq_some_iff.mp hstep
  obtain ⟨x, rfl, hx⟩ := Option.bind_eq_some_iff.mp happlied
  refine ⟨m', hs.trans ?_⟩
  unfold SyncEvent.applied? at hx
  split at hx
  · rw [Option.some.inj hx]
  · cases hx

/-- The repair is applied to the stored journal, and what is then stored is its plan. -/
theorem sync_nonce_changes_applied : ∃ m', syncStep sampleLibrary sampleIdentityText true
    (.settled plainSettlement)
    (runSyncNonce sampleLibrary sampleIdentityText true strayDisk applyingRun).1 =
      some (m', some (.ended (.returned (.applied
        (repairText strayText strayObservation strayTimestamp))))) ∧
    decodedJournal sampleLibrary sampleIdentityText strayDisk = some (some strayText) ∧
    AppliedTo sampleLibrary sampleIdentityText (some (some strayText))
      (repairText strayText strayObservation strayTimestamp) m'.disk := by
  obtain ⟨m', hs⟩ := applyingRun_ends
  have hstray : decodedJournal sampleLibrary sampleIdentityText strayDisk =
      some (some strayText) := by decide +kernel
  have hleft : (runSyncNonce sampleLibrary sampleIdentityText true strayDisk applyingRun).2 =
      [] := List.isEmpty_iff.mp (by decide +kernel)
  have hended := (sync_nonce_changes sampleLibrary sampleIdentityText true strayDisk applyingRun
    hs).2.1
  rw [hleft] at hended
  exact ⟨m', hs, hstray, hstray ▸ hended⟩

end Sample

end Quicknet
