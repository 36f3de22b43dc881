import Quicknet.JournalCrash
import Quicknet.NonceRepair

/-! The command `sync-nonce`. It reads the journal, inspects the chain, and applies a plan
only if the journal still reads as it did: once more before the store is opened, which
rewrites the file, and once more before the plan is saved. Another process may change the
file whenever the command waits, except where the service lock keeps it from writing
between a read of the command and the write that rests on it. -/
namespace Quicknet

open DurableFile Transition
open Json (Text text)

/-! `planNonceSync` on the strings of a snapshot. What they stand for decides. -/

inductive NonceSyncPlanText
  | alreadySynchronized
  | deferred
  | refused (reason : NonceSyncRefusal)
  | repairAvailable (repair : RepairText) (snapshot : SnapshotText)
  deriving DecidableEq

def repairText (current : SnapshotText) (observation : ObservationText) (at' : Text) : RepairText :=
  ⟨text "sync-nonce", at', current.nextNonce, observation.nonce, observation⟩

def repairedSnapshotText (current : SnapshotText) (observation : ObservationText) (at' : Text) :
    SnapshotText :=
  let repairs := current.repairs ++ [repairText current observation at']
  { current with
    lastObservation := observation
    nextNonce := observation.nonce
    durableNextNonce := observation.nonce
    repairs := repairs.drop (repairs.length - MAX_RETAINED_NONCE_REPAIRS) }

def planNonceSyncText (snapshot : SnapshotText) (identity : IdentityText)
    (observation : ObservationText) (latestNonce pendingNonce : ℕ) (at' : Text) :
    Option NonceSyncPlanText := do
  let expected ← readIdentity identity
  let current ← readSnapshot snapshot
  let observed ← readObservation observation
  let timestamp ← readTimestamp at'
  match planNonceSync current expected observed latestNonce pendingNonce timestamp with
  | .error _ => none
  | .ok .alreadySynchronized => some .alreadySynchronized
  | .ok .deferred => some .deferred
  | .ok (.refused reason) => some (.refused reason)
  | .ok (.repairAvailable _ _) =>
    some (.repairAvailable (repairText snapshot observation at')
      (repairedSnapshotText snapshot observation at'))

section Plan

variable {snapshot : SnapshotText} {identity : IdentityText} {observation : ObservationText}
  {latestNonce pendingNonce : ℕ} {at' : Text}

theorem mapM_drop {α β : Type} {f : α → Option β} {l : List α} {m : List β} (h : l.mapM f = some m)
    (n : ℕ) : (l.drop n).mapM f = some (m.drop n) := by
  induction n generalizing l m with
  | zero => exact h
  | succ n ih =>
    cases l with
    | nil =>
      obtain rfl : m = [] := by simpa using h.symm
      rfl
    | cons a l =>
      rw [List.mapM_cons] at h
      obtain ⟨b, -, h⟩ := Option.bind_eq_some_iff.mp h
      obtain ⟨m', hm', heq⟩ := Option.bind_eq_some_iff.mp h
      obtain rfl : b :: m' = m := Option.some.inj heq
      exact ih hm'

theorem mapM_length {α β : Type} {f : α → Option β} {l : List α} {m : List β}
    (h : l.mapM f = some m) : m.length = l.length := by
  induction l generalizing m with
  | nil =>
    obtain rfl : m = [] := by simpa using h.symm
    rfl
  | cons a l ih =>
    rw [List.mapM_cons] at h
    obtain ⟨b, -, h⟩ := Option.bind_eq_some_iff.mp h
    obtain ⟨m', hm', heq⟩ := Option.bind_eq_some_iff.mp h
    obtain rfl : b :: m' = m := Option.some.inj heq
    rw [List.length_cons, List.length_cons, ih hm']

theorem readSnapshot_repairs {t : SnapshotText} {s : TransactionJournalSnapshot}
    (h : readSnapshot t = some s) :
    s.nextNonce = t.nextNonce ∧ t.repairs.mapM readRepair = some s.repairs := by
  obtain ⟨i, -, h⟩ := Option.bind_eq_some_iff.mp h
  obtain ⟨b, -, h⟩ := Option.bind_eq_some_iff.mp h
  obtain ⟨o, -, h⟩ := Option.bind_eq_some_iff.mp h
  obtain ⟨repairs, hrepairs, h⟩ := Option.bind_eq_some_iff.mp h
  obtain ⟨attempts, -, h⟩ := Option.bind_eq_some_iff.mp h
  obtain rfl := Option.some.inj h
  exact ⟨rfl, hrepairs⟩

theorem readSnapshot_repaired {current : TransactionJournalSnapshot}
    {observed : AnchoredNonceObservation} {timestamp : Timestamp}
    (hcurrent : readSnapshot snapshot = some current)
    (hobserved : readObservation observation = some observed)
    (hnonce : observed.nonce = observation.nonce)
    (hrepair : readRepair (repairText snapshot observation at') =
      some ⟨timestamp, current.nextNonce, observed.nonce, observed⟩) :
    readSnapshot (repairedSnapshotText snapshot observation at') =
      some (repairedSnapshot current observed timestamp) := by
  obtain ⟨identity, hidentity, h⟩ := Option.bind_eq_some_iff.mp hcurrent
  obtain ⟨baseline, hbaseline, h⟩ := Option.bind_eq_some_iff.mp h
  obtain ⟨_, -, h⟩ := Option.bind_eq_some_iff.mp h
  obtain ⟨repairs, hrepairs, h⟩ := Option.bind_eq_some_iff.mp h
  obtain ⟨attempts, hattempts, h⟩ := Option.bind_eq_some_iff.mp h
  obtain rfl := Option.some.inj h
  -- the history with the new repair, and what is kept of it
  have hall : (snapshot.repairs ++ [repairText snapshot observation at']).mapM readRepair =
      some (repairs ++ [⟨timestamp, snapshot.nextNonce, observed.nonce, observed⟩]) := by
    rw [List.mapM_append, hrepairs]
    simp [hrepair]
  have hkept := mapM_drop hall ((snapshot.repairs ++ [repairText snapshot observation at']).length -
    MAX_RETAINED_NONCE_REPAIRS)
  rw [← mapM_length hall] at hkept
  show (do
    let identity ← readIdentity snapshot.identity
    let baseline ← readObservation snapshot.baseline
    let lastObservation ← readObservation observation
    let repairs ← (List.drop _ _).mapM readRepair
    let attempts ← snapshot.attempts.mapM readAttempt
    return (⟨identity, baseline, lastObservation, observation.nonce, observation.nonce, repairs,
      attempts⟩ : TransactionJournalSnapshot)) = _
  rw [hidentity, hbaseline, hobserved, hattempts, ← mapM_length hall, hkept]
  simp [repairedSnapshot, retainRepairs, hnonce]

/-- The strings of a plan stand for the plan of what the strings of the journal stand for. -/
theorem planNonceSyncText_repair {repair : RepairText} {planned : SnapshotText}
    (h : planNonceSyncText snapshot identity observation latestNonce pendingNonce at' =
      some (.repairAvailable repair planned)) :
    ∃ expected current observed timestamp r t, readIdentity identity = some expected ∧
      readSnapshot snapshot = some current ∧ readObservation observation = some observed ∧
      readTimestamp at' = some timestamp ∧
      planNonceSync current expected observed latestNonce pendingNonce timestamp =
        .ok (.repairAvailable r t) ∧
      readRepair repair = some r ∧ readSnapshot planned = some t := by
  obtain ⟨expected, hexpected, h⟩ := Option.bind_eq_some_iff.mp h
  obtain ⟨current, hcurrent, h⟩ := Option.bind_eq_some_iff.mp h
  obtain ⟨observed, hobserved, h⟩ := Option.bind_eq_some_iff.mp h
  obtain ⟨timestamp, htimestamp, h⟩ := Option.bind_eq_some_iff.mp h
  split at h
  · cases h
  · cases h
  · cases h
  · cases h
  · rename_i r t hplan
    obtain ⟨rfl, rfl⟩ := NonceSyncPlanText.repairAvailable.inj (Option.some.inj h)
    have hvalid := (planNonceSync_repair hplan).1
    obtain ⟨-, -, hr, ht⟩ := (planNonceSync_repair_iff hvalid).mp hplan
    have hnonce : observed.nonce = observation.nonce := by
      obtain ⟨anchor, -, hread⟩ := Option.bind_eq_some_iff.mp hobserved
      rw [← Option.some.inj hread]
    have hnext : current.nextNonce = snapshot.nextNonce ∧
        snapshot.repairs.mapM readRepair = some current.repairs := readSnapshot_repairs hcurrent
    have hrepair : readRepair (repairText snapshot observation at') = some r := by
      rw [hr, hnext.1, hnonce]
      simp [readRepair, repairText, hobserved, htimestamp]
    refine ⟨expected, current, observed, timestamp, r, t, hexpected, hcurrent, hobserved,
      htimestamp, hplan, hrepair, ?_⟩
    rw [hr] at hrepair
    rw [ht]
    exact readSnapshot_repaired hcurrent hobserved hnonce hrepair

end Plan

/-! The command. -/

/-- What `inspectNonceSync` finds. -/
inductive NonceSyncInspection
  | observed (observation : ObservationText) (latestNonce pendingNonce : ℕ)
  | anchorChanged

inductive SyncNonceResult
  | plan (plan : NonceSyncPlanText)
  | journalMissing
  | journalChanged
  | anchorChanged
  | applied (repair : RepairText)

inductive SyncOutcome
  | returned (result : SyncNonceResult)
  | rejected
  /-- The process died. -/
  | died

/-- What the command awaits. -/
inductive SyncStage
  | starting
  | reading
  | inspecting (initial : SnapshotText)
  | rechecking (initial : SnapshotText) (repair : RepairText) (planned : SnapshotText)
  | opening (initial : SnapshotText) (repair : RepairText) (planned : SnapshotText)
  | loading (initial : SnapshotText) (repair : RepairText) (planned : SnapshotText)
  | saving (initial : SnapshotText) (repair : RepairText) (planned : SnapshotText)
  | ended

structure SyncMachine where
  disk : JournalDisk
  stage : SyncStage

/-- How an await ends, and what the code after it finds: the outcomes of the file operations,
the answer of the chain, the clock, the signal (`abortedLater` at the second check of one
stretch of code), and whether the service lock is still held. -/
structure SyncSettlement where
  script : List (Outcome FileContents)
  name : TempName
  inspection : Option NonceSyncInspection
  now : Option Text
  aborted : Bool
  abortedLater : Bool
  held : Bool

inductive SyncInput
  | changed (disk : JournalDisk)
  | settled (s : SyncSettlement)

inductive SyncEvent
  | changed (disk : JournalDisk)
  | ended (outcome : SyncOutcome)

inductive SyncMove
  | waits (stage : SyncStage)
  | ends (outcome : SyncOutcome)

def SyncMove.apply (disk : JournalDisk) : SyncMove → SyncMachine × Option SyncEvent
  | .waits stage => (⟨disk, stage⟩, none)
  | .ends outcome => (⟨disk, .ended⟩, some (.ended outcome))

/-- A file operation, with the code that follows it. -/
def settleFiles {α : Type} (op : JournalFiles α) (script : List (Outcome FileContents))
    (disk : JournalDisk) (next : α → SyncMove) : SyncMachine × Option SyncEvent :=
  match op script disk with
  | (.ok a, _, d) => (next a).apply d
  | (.threw _, _, d) => (SyncMove.ends .rejected).apply d
  | (.crashed, _, d) => (SyncMove.ends .died).apply d

section Command

variable (lib : TransactionLibrary) (identity : IdentityText) (apply : Bool)

/-- `storeOptions` names no bounds. -/
def syncStore : JournalStore := ⟨identity, none⟩

/-- `signal?.throwIfAborted()` and `verifyOwnership()`. -/
def SyncSettlement.guarded (s : SyncSettlement) (move : SyncMove) : SyncMove :=
  if s.aborted || !s.held then .ends .rejected else move

/-- After the first read. -/
def syncRead (s : SyncSettlement) (read : Option SnapshotText) : SyncMove :=
  if s.aborted then .ends .rejected
  else
    match read with
    | none => .ends (.returned .journalMissing)
    | some initial =>
      if initial.attempts ≠ [] then .ends (.returned (.plan (.refused .retainedAttempts)))
      else .waits (.inspecting initial)

/-- After the inspection of the chain. A preview ends here. -/
def syncInspected (initial : SnapshotText) (s : SyncSettlement) : SyncMove :=
  match s.inspection with
  | none => .ends .rejected
  | some inspection =>
    if s.aborted then .ends .rejected
    else
      match inspection with
      | .anchorChanged => .ends (.returned .anchorChanged)
      | .observed observation latestNonce pendingNonce =>
        match s.now.bind (planNonceSyncText initial identity observation latestNonce pendingNonce) with
        | none => .ends .rejected
        | some plan =>
          if s.abortedLater then .ends .rejected
          else
            match apply, plan with
            | true, .repairAvailable repair planned =>
              if s.held then .waits (.rechecking initial repair planned) else .ends .rejected
            | _, plan => .ends (.returned (.plan plan))

/-- After a read that has to find the journal as it was. -/
def syncMatched (initial : SnapshotText) (s : SyncSettlement) (stage : SyncStage)
    (read : Option SnapshotText) : SyncMove :=
  if s.aborted then .ends .rejected
  else if read ≠ some initial then .ends (.returned .journalChanged)
  else if s.held then .waits stage
  else .ends .rejected

def syncSettled (s : SyncSettlement) (m : SyncMachine) : Option (SyncMachine × Option SyncEvent) :=
  match m.stage with
  | .starting =>
    some ((if captureJournalIdentity identity then s.guarded (.waits .reading)
      else .ends .rejected).apply m.disk)
  | .reading => some (settleFiles ((syncStore identity).load lib) s.script m.disk (syncRead s))
  | .inspecting initial => some ((syncInspected identity apply initial s).apply m.disk)
  | .rechecking initial repair planned =>
    some (settleFiles ((syncStore identity).load lib) s.script m.disk
      (syncMatched initial s (.opening initial repair planned)))
  | .opening initial repair planned =>
    some (settleFiles ((syncStore identity).openStore lib s.name) s.script m.disk
      fun _ => s.guarded (.waits (.loading initial repair planned)))
  | .loading initial repair planned =>
    some (settleFiles ((syncStore identity).load lib) s.script m.disk
      (syncMatched initial s (.saving initial repair planned)))
  | .saving _ repair planned =>
    some (settleFiles ((syncStore identity).save lib s.name planned) s.script m.disk
      fun _ => .ends (.returned (.applied repair)))
  | .ended => none

/-- The service lock keeps others from writing between the last read and the save. -/
def syncStep (input : SyncInput) (m : SyncMachine) : Option (SyncMachine × Option SyncEvent) :=
  match input with
  | .changed disk =>
    match m.stage with
    | .saving _ _ _ => none
    | _ => some ({ m with disk := disk }, some (.changed disk))
  | .settled s => syncSettled lib identity apply s m

def syncSystem (start : JournalDisk) : System SyncMachine SyncInput SyncEvent where
  init := ⟨start, .starting⟩
  step := syncStep lib identity apply

abbrev runSyncNonce (start : JournalDisk) (is : List SyncInput) : SyncMachine × List SyncEvent :=
  (syncSystem lib identity apply start).run is

end Command

/-- The disk as another process left it, or the start. -/
def leftBy (start : JournalDisk) (tr : List SyncEvent) : JournalDisk :=
  tr.foldl (fun left e =>
    match e with
    | .changed disk => disk
    | .ended _ => left) start

/-- What contents of the journal's file decode to: `some none` where they do not. -/
def decodedContents (lib : TransactionLibrary) (identity : IdentityText)
    (contents : Option FileContents) : Option (Option SnapshotText) :=
  contents.map fun t => t.bind fun t => (decodeJournalSnapshot lib t identity).toOption

/-- The decoded journal on disk; `none` is a missing one. -/
def decodedJournal (lib : TransactionLibrary) (identity : IdentityText) (d : JournalDisk) :
    Option (Option SnapshotText) :=
  decodedContents lib identity (d.target.map (·.contents))

end Quicknet
