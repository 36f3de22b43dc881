import Quicknet.JournalCrash

/-! Runs of the processes that own a journal, one after the other, on one disk. A process
starts, saves, retries, and dies, also in the middle of a start or a write; the disk may
lose power at any time. -/
namespace Quicknet

open DurableFile Transition

inductive JournalProcess
  | down
  | opened
  | running (p : HeldPersistence)

structure JournalMachine where
  disk : JournalDisk
  process : JournalProcess

/-- `create` loads the journal of the store that was opened; `persist` is
`persistPending`, which `save` and `retry` lead to. -/
inductive JournalAction
  | openStore (name : TempName) (script : List (Outcome FileContents))
  | create (script : List (Outcome FileContents))
  | save (next : SnapshotText)
  | persist (name : TempName) (script : List (Outcome FileContents))
  | retry
  | exit
  | powerLoss (choice : ℕ) (torn : FileContents) (temps : List (TempName × Inode FileContents))

inductive JournalEvent
  | opened (read : Option SnapshotText)
  | saving (snapshot : SnapshotText)
  | acked (snapshot : SnapshotText)

/-- The snapshot that was acknowledged last; opening the store acknowledges what it loads. -/
def acknowledgedSnapshot (tr : List JournalEvent) : Option SnapshotText :=
  tr.foldl (fun r e => match e with
    | .opened read => read
    | .saving _ => r
    | .acked s => some s) none

/-- The snapshot of the last save, until it is acknowledged or the store is opened
again. -/
def pendingSnapshot (tr : List JournalEvent) : Option SnapshotText :=
  tr.foldl (fun _ e => match e with
    | .opened _ => none
    | .saving s => some s
    | .acked _ => none) none

section Step

variable (lib : TransactionLibrary) (store : JournalStore)

def openStep (name : TempName) (script : List (Outcome FileContents)) (disk : JournalDisk) :
    JournalMachine × Option JournalEvent :=
  match store.openStore lib name script disk with
  | (.ok read, _, disk) => (⟨disk, .opened⟩, some (.opened read))
  | (_, _, disk) => (⟨disk, .down⟩, none)

def createStep (script : List (Outcome FileContents)) (disk : JournalDisk) : JournalMachine :=
  match loadPersistence lib store script disk with
  | (.ok p, _, disk) => ⟨disk, .running p⟩
  | (_, _, disk) => ⟨disk, .down⟩

def persistStep (name : TempName) (script : List (Outcome FileContents)) (disk : JournalDisk)
    (p : HeldPersistence) : Option (JournalMachine × Option JournalEvent) :=
  match p.state, p.pending with
  | .writing, some snapshot =>
    match store.save lib name snapshot script disk with
    | (.ok _, _, disk) => some (⟨disk, .running p.acknowledged⟩, some (.acked snapshot))
    | (.threw _, _, disk) => some (⟨disk, .running p.failed⟩, none)
    | (.crashed, _, disk) => some (⟨disk, .down⟩, none)
  | _, _ => none

def journalStep (action : JournalAction) (m : JournalMachine) :
    Option (JournalMachine × Option JournalEvent) :=
  match action, m.process with
  | .openStore name script, .down => some (openStep lib store name script m.disk)
  | .create script, .opened => some (createStep lib store script m.disk, none)
  | .save next, .running p =>
    (p.save lib store.identity next).map fun q =>
      (⟨m.disk, .running q⟩, q.pending.map .saving)
  | .persist name script, .running p => persistStep lib store name script m.disk p
  | .retry, .running p => p.retry.map fun q => (⟨m.disk, .running q⟩, none)
  | .exit, _ => some (⟨m.disk, .down⟩, none)
  | .powerLoss choice torn temps, _ => some (⟨m.disk.powerLoss choice torn temps, .down⟩, none)
  | _, _ => none

/-- The processes of one journal, from a missing journal on. -/
def journalSystem : Transition.System JournalMachine JournalAction JournalEvent where
  init := ⟨⟨none, [], []⟩, .down⟩
  step := journalStep lib store

abbrev runJournal (is : List JournalAction) : JournalMachine × List JournalEvent :=
  (journalSystem lib store).run is

end Step

section Histories

variable (tr : List JournalEvent) (r : Option SnapshotText) (s : SnapshotText)

@[simp] theorem acknowledged_opened : acknowledgedSnapshot (tr ++ [.opened r]) = r := by
  simp [acknowledgedSnapshot]

@[simp] theorem acknowledged_saving :
    acknowledgedSnapshot (tr ++ [.saving s]) = acknowledgedSnapshot tr := by
  simp [acknowledgedSnapshot]

@[simp] theorem acknowledged_acked : acknowledgedSnapshot (tr ++ [.acked s]) = some s := by
  simp [acknowledgedSnapshot]

@[simp] theorem pending_opened : pendingSnapshot (tr ++ [.opened r]) = none := by
  simp [pendingSnapshot]

@[simp] theorem pending_saving : pendingSnapshot (tr ++ [.saving s]) = some s := by
  simp [pendingSnapshot]

@[simp] theorem pending_acked : pendingSnapshot (tr ++ [.acked s]) = none := by
  simp [pendingSnapshot]

end Histories

/-- What the journal may be found to hold: the acknowledged snapshot, or the pending one. -/
def Possible (tr : List JournalEvent) (r : Option SnapshotText) : Prop :=
  r = acknowledgedSnapshot tr ∨ ∃ s, pendingSnapshot tr = some s ∧ r = some s

/-- What each event rests on. -/
def Justified (pre : List JournalEvent) : JournalEvent → Prop
  | .opened read => Possible pre read
  | .saving _ => True
  | .acked s => pendingSnapshot pre = some s

/-- What a process remembers: nothing, that no write is pending, or both snapshots. -/
def JournalProcess.Knows (tr : List JournalEvent) : JournalProcess → Prop
  | .down => True
  | .opened => pendingSnapshot tr = none
  | .running p => p.current = acknowledgedSnapshot tr ∧ p.pending = pendingSnapshot tr ∧
    (p.state = .idle → pendingSnapshot tr = none)

/-- Each file that the journal's name may refer to reads as a possible snapshot, and the
process knows which snapshots these are. -/
structure JournalConsistent (lib : TransactionLibrary) (store : JournalStore) (m : JournalMachine)
    (tr : List JournalEvent) : Prop where
  disk : m.disk.Holds fun c => ∃ r, Denotes lib store.identity c r ∧ Possible tr r
  process : m.process.Knows tr

section Runs

variable {lib : TransactionLibrary} {store : JournalStore} {tr : List JournalEvent}
  {disk : JournalDisk} {p : HeldPersistence}

/-- While nothing is pending, one snapshot is possible. -/
theorem Possible.of_idle {r : Option SnapshotText} (h : Possible tr r)
    (hp : pendingSnapshot tr = none) : r = acknowledgedSnapshot tr := by
  rcases h with h | ⟨s, hs, _⟩
  · exact h
  · rw [hp] at hs
    cases hs

theorem HeldPersistence.save_some {identity : IdentityText} {q : HeldPersistence}
    {next : SnapshotText} (h : p.save lib identity next = some q) :
    p.state = .idle ∧ q = ⟨.writing, p.current, some next⟩ := by
  unfold HeldPersistence.save at h
  split_ifs at h with hidle
  obtain ⟨s, hs, rfl⟩ := Option.map_eq_some_iff.mp h
  obtain rfl := (verifyJournalText_some_iff.mp hs).1
  exact ⟨hidle, rfl⟩

theorem HeldPersistence.retry_some {q : HeldPersistence} (h : p.retry = some q) :
    q = { p with state := .writing } := by
  unfold HeldPersistence.retry at h
  split_ifs at h
  exact (Option.some.inj h).symm

/-- What a step has to show of the machine it leads to and of its event. -/
def StepConsistent (lib : TransactionLibrary) (store : JournalStore) (tr : List JournalEvent)
    (r : JournalMachine × Option JournalEvent) : Prop :=
  JournalConsistent lib store r.1 (tr ++ r.2.toList) ∧ ∀ x, r.2 = some x → Justified tr x

theorem stepConsistent_quiet {m : JournalMachine} (h : JournalConsistent lib store m tr) :
    StepConsistent lib store tr (m, none) := by
  refine ⟨?_, by simp⟩
  rw [Option.toList_none, List.append_nil]
  exact h

theorem openStep_consistent (name : TempName) (script : List (Outcome FileContents))
    (h : disk.Holds fun c => ∃ r, Denotes lib store.identity c r ∧ Possible tr r) :
    StepConsistent lib store tr (openStep lib store name script disk) := by
  have hopen := openStore_triple lib store name (R := Possible tr)
    script disk h
  unfold openStep
  rcases hrun : store.openStore lib name script disk with ⟨result, rest, disk'⟩
  rw [hrun] at hopen
  cases result with
  | ok read =>
    obtain ⟨hposs, hholds⟩ := hopen
    have hdisk : disk'.Holds fun c => ∃ r, Denotes lib store.identity c r ∧
        Possible (tr ++ [.opened read]) r :=
      hholds.mono fun c hc => ⟨read, hc, Or.inl (acknowledged_opened tr read).symm⟩
    refine ⟨⟨hdisk, pending_opened tr read⟩, ?_⟩
    rintro x he
    obtain rfl := Option.some.inj he
    exact hposs
  | threw e => exact stepConsistent_quiet ⟨hopen, trivial⟩
  | crashed => exact stepConsistent_quiet ⟨hopen, trivial⟩

theorem createStep_consistent (script : List (Outcome FileContents))
    (h : disk.Holds fun c => ∃ r, Denotes lib store.identity c r ∧ Possible tr r)
    (hidle : pendingSnapshot tr = none) :
    JournalConsistent lib store (createStep lib store script disk) tr := by
  have hone : disk.Holds fun c => Denotes lib store.identity c (acknowledgedSnapshot tr) := by
    apply h.mono
    rintro c ⟨r, hr, hposs⟩
    rw [← hposs.of_idle hidle]
    exact hr
  have hback (d : JournalDisk)
      (hd : d.Holds fun c => Denotes lib store.identity c (acknowledgedSnapshot tr)) :
      d.Holds fun c => ∃ r, Denotes lib store.identity c r ∧ Possible tr r :=
    hd.mono fun c hc => ⟨_, hc, Or.inl rfl⟩
  have hload := loadPersistence_triple lib store (acknowledgedSnapshot tr)
    script disk hone
  unfold createStep
  rcases hrun : loadPersistence lib store script disk with ⟨result, rest, disk'⟩
  rw [hrun] at hload
  cases result with
  | ok p =>
    obtain ⟨rfl, hholds⟩ := hload
    exact ⟨hback disk' hholds, rfl, hidle.symm, fun _ => hidle⟩
  | threw e => exact ⟨hback disk' hload, trivial⟩
  | crashed => exact ⟨hback disk' hload, trivial⟩

/-- A save begins where nothing is pending, so there is one snapshot to keep. -/
theorem save_consistent {next : SnapshotText} {r : JournalMachine × Option JournalEvent}
    (h : JournalConsistent lib store ⟨disk, .running p⟩ tr)
    (hs : (p.save lib store.identity next).map (fun q =>
      ((⟨disk, .running q⟩ : JournalMachine), q.pending.map JournalEvent.saving)) = some r) :
    StepConsistent lib store tr r := by
  obtain ⟨q, hq, rfl⟩ := Option.map_eq_some_iff.mp hs
  obtain ⟨hidle, rfl⟩ := HeldPersistence.save_some hq
  obtain ⟨hcur, _, hnone⟩ := h.process
  have hdisk : disk.Holds fun c => ∃ r, Denotes lib store.identity c r ∧
      Possible (tr ++ [.saving next]) r := by
    apply h.disk.mono
    rintro c ⟨r, hr, hposs⟩
    refine ⟨r, hr, Or.inl ?_⟩
    rw [acknowledged_saving]
    exact hposs.of_idle (hnone hidle)
  refine ⟨⟨hdisk, ?_, (pending_saving tr next).symm, fun hw => by cases hw⟩, ?_⟩
  · show p.current = acknowledgedSnapshot (tr ++ [.saving next])
    rw [acknowledged_saving]
    exact hcur
  · rintro x he
    obtain rfl := Option.some.inj he
    trivial

/-- A write ends acknowledged, with the snapshot durable, or leaves both possible. -/
theorem persistStep_consistent {name : TempName} {script : List (Outcome FileContents)}
    {r : JournalMachine × Option JournalEvent}
    (h : JournalConsistent lib store ⟨disk, .running p⟩ tr)
    (hs : persistStep lib store name script disk p = some r) : StepConsistent lib store tr r := by
  obtain ⟨hcur, hpend, hidle⟩ := h.process
  unfold persistStep at hs
  split at hs
  · rename_i snapshot hstate hpending
    have hpendtr : pendingSnapshot tr = some snapshot := by rw [← hpend, hpending]
    have hsave := save_triple lib store name snapshot
      (P := fun c => ∃ r, Denotes lib store.identity c r ∧ Possible tr r)
      (fun contents he => ⟨some snapshot, denotes_encoded he, Or.inr ⟨snapshot, hpendtr, rfl⟩⟩)
      script disk h.disk
    rcases hrun : store.save lib name snapshot script disk with ⟨result, rest, disk'⟩
    rw [hrun] at hs hsave
    cases result with
    | ok u =>
      obtain rfl := Option.some.inj hs
      have hdisk : disk'.Holds fun c => ∃ r, Denotes lib store.identity c r ∧
          Possible (tr ++ [.acked snapshot]) r :=
        hsave.mono fun c hc => ⟨some snapshot, hc, Or.inl (acknowledged_acked tr snapshot).symm⟩
      have hnone := pending_acked tr snapshot
      refine ⟨⟨hdisk, ?_, hnone.symm, fun _ => hnone⟩, ?_⟩
      · show p.pending = acknowledgedSnapshot (tr ++ [.acked snapshot])
        rw [acknowledged_acked, hpending]
      · rintro x he
        obtain rfl := Option.some.inj he
        exact hpendtr
    | threw e =>
      obtain rfl := Option.some.inj hs
      exact stepConsistent_quiet ⟨hsave, hcur, hpend, fun hf => by cases hf⟩
    | crashed =>
      obtain rfl := Option.some.inj hs
      exact stepConsistent_quiet ⟨hsave, trivial⟩
  · cases hs

/-- Each action of a process or of its environment, at the states that allow it. -/
theorem journalStep_consistent {action : JournalAction} {m : JournalMachine}
    {r : JournalMachine × Option JournalEvent} (h : JournalConsistent lib store m tr)
    (hs : journalStep lib store action m = some r) : StepConsistent lib store tr r := by
  obtain ⟨disk, process⟩ := m
  unfold journalStep at hs
  split at hs
  · obtain rfl := Option.some.inj hs
    exact openStep_consistent _ _ h.disk
  · rename_i hp
    obtain rfl : process = .opened := hp
    obtain rfl := Option.some.inj hs
    exact stepConsistent_quiet (createStep_consistent _ h.disk h.process)
  · rename_i p hp
    obtain rfl : process = .running p := hp
    exact save_consistent h hs
  · rename_i p hp
    obtain rfl : process = .running p := hp
    exact persistStep_consistent h hs
  · rename_i p hp
    obtain rfl : process = .running p := hp
    obtain ⟨q, hq, rfl⟩ := Option.map_eq_some_iff.mp hs
    obtain rfl := HeldPersistence.retry_some hq
    obtain ⟨hcur, hpend, _⟩ := h.process
    exact stepConsistent_quiet ⟨h.disk, hcur, hpend, fun hw => by cases hw⟩
  · obtain rfl := Option.some.inj hs
    exact stepConsistent_quiet ⟨h.disk, trivial⟩
  · obtain rfl := Option.some.inj hs
    exact stepConsistent_quiet ⟨h.disk.powerLoss _ _ _, trivial⟩
  · cases hs

theorem runJournal_consistent (lib : TransactionLibrary) (store : JournalStore)
    (is : List JournalAction) :
    JournalConsistent lib store (runJournal lib store is).1 (runJournal lib store is).2 ∧
      EachEvent Justified (runJournal lib store is).2 := by
  apply System.run_invariant (journalSystem lib store) (fun m tr =>
    JournalConsistent lib store m tr ∧ EachEvent Justified tr)
  · have hdisk : (⟨none, [], []⟩ : JournalDisk).Holds
        fun c => ∃ r, Denotes lib store.identity c r ∧ Possible [] r := by
      refine ⟨fun entry he => ?_, fun _ entry he => by simp at he⟩
      obtain rfl : entry = none := by simpa using he
      exact ⟨by simp, none, Or.inl ⟨rfl, rfl⟩, Or.inl rfl⟩
    exact ⟨⟨hdisk, trivial⟩, eachEvent_nil _⟩
  · rintro action m tr t e ⟨hc, heach⟩ hs
    obtain ⟨hnext, hjust⟩ := journalStep_consistent hc hs
    exact ⟨hnext, heach.append_option hjust⟩

/-- Without a save, what a start loaded stays acknowledged and nothing is pending. -/
theorem unchanged_since_open {pre mid : List JournalEvent} {a : Option SnapshotText}
    (hmid : ∀ s, .saving s ∉ mid) (heach : EachEvent Justified (pre ++ .opened a :: mid)) :
    acknowledgedSnapshot (pre ++ .opened a :: mid) = a ∧
      pendingSnapshot (pre ++ .opened a :: mid) = none := by
  induction mid using List.reverseRecOn with
  | nil => exact ⟨acknowledged_opened pre a, pending_opened pre a⟩
  | append_singleton mid x ih =>
    have hsplit : pre ++ .opened a :: (mid ++ [x]) = (pre ++ .opened a :: mid) ++ [x] := by simp
    rw [hsplit] at heach ⊢
    obtain ⟨hacked, hpend⟩ := ih (fun s hs => hmid s (List.mem_append_left _ hs))
      fun p e q h => heach p e (q ++ [x]) (by rw [h]; simp)
    have hx := heach _ x [] rfl
    cases x with
    | saving s => exact absurd (List.mem_append_right _ List.mem_cons_self) (hmid s)
    | acked s =>
      -- a save is acknowledged only while it is pending
      have hs : pendingSnapshot (pre ++ .opened a :: mid) = some s := hx
      rw [hpend] at hs
      cases hs
    | opened b =>
      rw [acknowledged_opened, pending_opened]
      refine ⟨?_, rfl⟩
      calc b = acknowledgedSnapshot (pre ++ .opened a :: mid) := Possible.of_idle hx hpend
        _ = a := hacked

end Runs

/-- Opening the store loads the acknowledged snapshot or the pending one, which a running
process holds as its current and its pending snapshot; and where no save lies between two
openings, they load the same. -/
theorem journal_crash_consistent (lib : TransactionLibrary) (store : JournalStore)
    (is : List JournalAction) :
    (∀ pre r post, (runJournal lib store is).2 = pre ++ .opened r :: post →
      r = acknowledgedSnapshot pre ∨ ∃ s, pendingSnapshot pre = some s ∧ r = some s) ∧
    (∀ p, (runJournal lib store is).1.process = .running p →
      p.current = acknowledgedSnapshot (runJournal lib store is).2 ∧
        p.pending = pendingSnapshot (runJournal lib store is).2) ∧
    ∀ pre a mid b post,
      (runJournal lib store is).2 = pre ++ .opened a :: (mid ++ .opened b :: post) →
      (∀ s, .saving s ∉ mid) → b = a := by
  obtain ⟨hc, heach⟩ := runJournal_consistent lib store is
  refine ⟨fun pre r post h => heach pre (.opened r) post h,
    fun p hp => ?_, fun pre a mid b post h hmid => ?_⟩
  · have hknows := hc.process
    rw [hp] at hknows
    exact ⟨hknows.1, hknows.2.1⟩
  have hsplit : (runJournal lib store is).2 =
      (pre ++ .opened a :: mid) ++ .opened b :: post := by
    rw [h]
    simp
  have hbefore : EachEvent Justified (pre ++ .opened a :: mid) := by
    intro p e q hp
    exact heach p e (q ++ .opened b :: post) (by rw [hsplit, hp]; simp)
  obtain ⟨hacked, hpend⟩ := unchanged_since_open hmid hbefore
  calc b = acknowledgedSnapshot (pre ++ .opened a :: mid) :=
        Possible.of_idle (heach _ _ _ hsplit) hpend
    _ = a := hacked

end Quicknet
