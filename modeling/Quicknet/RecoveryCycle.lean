import Quicknet.BroadcastSafety
import Quicknet.RecoveryRevision

/-! Signer recovery cycles. A cycle retries a failed save, recovers the journal at the
durable anchor or reuses an earlier pass, checks inclusions, and sends at most one
transaction. Whatever else the process does with its coordinator happens between cycles or
while a cycle awaits; the code of a cycle between two awaits is a sequence of steps at
which nothing else may happen. -/
namespace Quicknet

open Transition SignerCoordinator

/-! `DurableRecoverySchedule`. A reading of the clock that is not finite is `none`. -/

abbrev ClockReading := Option ℚ

structure DurableRecoverySchedule where
  refreshIntervalMs : ℕ
  completed : Option (BlockAnchor × ℚ)
  deriving DecidableEq

namespace DurableRecoverySchedule

def isDue (schedule : DurableRecoverySchedule) (anchor : BlockAnchor) (now : ClockReading) : Bool :=
  match schedule.completed with
  | none => true
  | some (completed, at') =>
    if anchor.blockNumber ≠ completed.blockNumber ∨ anchor.blockHash ≠ completed.blockHash then true
    else
      match now with
      -- an unusable clock must not suppress recovery
      | none => true
      | some now => decide (now - at' < 0) || decide ((schedule.refreshIntervalMs : ℚ) ≤ now - at')

def recordCompleted (anchor : BlockAnchor) (now : ClockReading)
    (schedule : DurableRecoverySchedule) : DurableRecoverySchedule :=
  { schedule with completed := now.map fun at' => (anchor, at') }

def invalidate (schedule : DurableRecoverySchedule) : DurableRecoverySchedule :=
  { schedule with completed := none }

end DurableRecoverySchedule

/-! What the operations of a cycle return. -/

inductive SignerRecoveryResult
  | bootstrapDeferred (observation : AnchoredNonceObservation) (latestNonce pendingNonce : ℕ)
  | inspected (result : SignerRecoveryInspection)
  deriving DecidableEq, Repr

def AttemptReceiptResult.isForkServed : AttemptReceiptResult → Bool
  | .forkServedReceipt .. => true
  | _ => false

def SignerRecoveryResult.isResolution : SignerRecoveryResult → Bool
  | .inspected (.resolutionAvailable _ _) => true
  | _ => false

def isDurableRecoveryComplete (result : SignerRecoveryResult) (recoveryComplete : Bool)
    (persistenceState : JournalPersistenceState) (attempts : List JournalAttempt) : Bool :=
  if !recoveryComplete || persistenceState != .idle then false
  else
    match result with
    | .inspected (.noAttempt _) | .inspected (.resolutionAvailable _ _) => attempts.isEmpty
    | .inspected (.unresolved observation receipt search) =>
      match attempts with
      | [] => false
      | oldest :: _ =>
        if oldest.nonce < observation.nonce then false
        else if search.isSome || receipt.isForkServed then false
        else true
    | _ => false

namespace SignerCoordinator

variable (identity : JournalIdentity)

def attempts (c : SignerCoordinator) : List JournalAttempt :=
  (c.persistence.current.map (·.attempts)).getD []

def retryAttempt (c : SignerCoordinator) : Option JournalAttempt :=
  c.attempts.find? fun a => !a.phase.isIncluded

/-- What a recovery returns once its reads are answered, unless it saves its result, and
what it returns when that save was acknowledged. -/
def recoverReturns (action : Action) (c : SignerCoordinator) : Option SignerRecoveryResult :=
  match c.task, action with
  | some (.recovering anchor range), .answered log =>
    match c.persistence.current with
    | none =>
      match (readBootstrapObservation identity c.blockers anchor).replay log with
      | some (.ok (.bootstrapDeferred observation latestNonce pendingNonce)) =>
        some (.bootstrapDeferred observation latestNonce pendingNonce)
      | some (.ok (.anchorChanged observed)) => some (.inspected (.anchorChanged observed))
      | _ => none
    | some current =>
      match (inspectSignerRecovery current anchor range).replay log with
      | some (.ok result) => some (.inspected result)
      | _ => none
  | some (.saved (.own (.bootstrap _ _ _ observation))), .resume =>
    some (.inspected (.noAttempt observation))
  | some (.saved (.own (.recovery _ _ _ _ _ result))), .resume => some (.inspected result)
  | _, _ => none

/-- Whether an inclusion pass was inspected to its end and found complete, likewise. -/
def checkReturns (action : Action) (c : SignerCoordinator) : Option Bool :=
  match c.task, action with
  | some (.inspecting _ _ _), .answered _ => some false
  | some (.saved (.own (.inclusions _ _ _ _ _ _ _ _ complete _))), .resume => some complete
  | _, _ => none

end SignerCoordinator

/-! The cycle. -/

/-- Where a cycle stands. At `retrying`, `recovering`, `checking`, `abandoned` and
`broadcasting` it awaits; the other stages lie inside one stretch of code. -/
inductive CycleStage
  | started
  | retrying
  | beginning
  | calling (passes : ℕ)
  | recovering (passes : ℕ)
  | inspected
  | checking
  | finishing
  | sending
  | broadcasting
  | abandoning
  | abandoned
  deriving DecidableEq, Repr

/-- What may happen to the coordinator at a stage. The process may crash at each of them.
A cycle that awaits an operation of its inspection resumes from it itself. -/
def CycleStage.allows : CycleStage → Action → Bool
  | _, .crash => true
  | .recovering _, .settleOperation | .checking, .settleOperation => false
  | .retrying, _ | .recovering _, _ | .checking, _ | .abandoned, _ | .broadcasting, _ => true
  | _, _ => false

/-- `generation` is that of the inspection that the cycle owns, once it has begun one. -/
structure CycleRun where
  cycle : ℕ
  head : Option BlockAnchor
  anchor : BlockAnchor
  maxBlockRange : ℕ
  generation : ℕ
  stage : CycleStage
  deriving DecidableEq

/-- Content that a recovery goes by: the committed journal and the latched blockers. -/
structure DurableContent where
  current : Option TransactionJournalSnapshot
  blockers : CoordinatorBlockers

def DurableContent.revision (content : DurableContent) : DurableRecoveryRevision :=
  durableRecoveryRevision content.current content.blockers

def SignerCoordinator.durableContent (c : SignerCoordinator) : DurableContent :=
  ⟨c.persistence.current, c.blockers⟩

inductive CycleNote
  | started (cycle : ℕ)
  | passStarted (cycle : ℕ)
  | passCompleted (cycle : ℕ) (anchor : BlockAnchor) (at' : ℚ) (content : DurableContent)
  | passSkipped (cycle : ℕ) (anchor : BlockAnchor) (now : ClockReading) (content : DurableContent)
  /-- What was completed before may not be reused: the cycle failed, or its inclusion pass did
  not complete. -/
  | invalidated (cycle : ℕ)

/-- One step may move the coordinator and do something of the cycle's own. -/
structure CycleEvent where
  signer : Option Event
  note : Option CycleNote

/-- The process with its cycle. `recovered` and `checked` are what the operation of the cycle
that ran last has returned. -/
structure Cycling where
  world : World
  run : Option CycleRun
  cycles : ℕ
  completedDurableRevision : Option DurableRecoveryRevision
  durableSchedule : Option DurableRecoverySchedule
  recovered : Option SignerRecoveryResult
  checked : Option Bool

namespace Cycling

def invalidateDurableRecovery (s : Cycling) : Cycling :=
  { s with
    completedDurableRevision := none
    durableSchedule := s.durableSchedule.map (·.invalidate) }

/-- The cycle goes on from `stage`, over the coordinator as a call has left it. -/
def goesOn (s : Cycling) (r : CycleRun) (c : SignerCoordinator) (stage : CycleStage) : Cycling :=
  { s with world := .running c, run := some { r with stage := stage } }

/-- The outer `catch`. -/
def throws (s : Cycling) (cycle : ℕ) : Option (Cycling × Option CycleEvent) :=
  some ({ s.invalidateDurableRecovery with run := none }, some ⟨none, some (.invalidated cycle)⟩)

/-- The inner `catch`, which abandons the inspection first. -/
def abandons (s : Cycling) (r : CycleRun) (c : SignerCoordinator) :
    Option (Cycling × Option CycleEvent) :=
  some (s.goesOn r c .abandoning, none)

/-- `run` returns. -/
def returns (s : Cycling) (c : SignerCoordinator) : Cycling :=
  { s with world := .running c, run := none }

end Cycling

/-- `head` against `anchor`. -/
def ValidRecoveryHead (head anchor : BlockAnchor) : Prop :=
  head.blockNumber ≤ MAX_UINT256 ∧ anchor.blockNumber ≤ head.blockNumber ∧
    (head.blockNumber = anchor.blockNumber → head.blockHash = anchor.blockHash)

instance (head anchor : BlockAnchor) : Decidable (ValidRecoveryHead head anchor) := by
  unfold ValidRecoveryHead
  infer_instance

/-- What a step of a cycle reads from outside. -/
structure CycleReading where
  now : Timestamp
  clock : ClockReading
  aborted : Bool
  /-- Whether the operation that was awaited rejected, where its state does not tell. -/
  failed : Bool
  /-- Whether the retry schedule lets the transaction be sent. -/
  claimed : Bool
  client : Client

inductive CycleAction
  | signer (action : Action)
  | run (head : Option BlockAnchor) (anchor : BlockAnchor) (maxBlockRange : ℕ)
  | next

structure CycleInput where
  reading : CycleReading
  action : CycleAction

section Cycle

variable (lib : TransactionLibrary) (identity : JournalIdentity)

def canReuseDurablePass (s : Cycling) (c : SignerCoordinator) (r : CycleRun)
    (clock : ClockReading) : Bool :=
  match s.durableSchedule with
  | none => false
  | some schedule =>
    let status := c.status
    r.head.isSome && status.recoveryComplete && status.inclusionChecksComplete &&
      status.persistenceState == .idle &&
      !status.blockers.contains .unattributedSignerActivity &&
      !status.blockers.contains .conflictSearchExhausted &&
      s.completedDurableRevision == some c.committedDurableRecoveryRevision &&
      !schedule.isDue r.anchor clock

/-- `run`, up to its first call. -/
def startCycle (reading : CycleReading) (s : Cycling) (head : Option BlockAnchor)
    (anchor : BlockAnchor) (maxBlockRange : ℕ) : Option (Cycling × Option CycleEvent) :=
  let cycle := s.cycles+1
  let s := { s with cycles := cycle }
  if (∃ h ∈ head, ¬ ValidRecoveryHead h anchor) ∨ reading.aborted = true then s.throws cycle
  else some ({ s with run := some ⟨cycle, head, anchor, maxBlockRange, 0, .started⟩ },
    some ⟨none, some (.started cycle)⟩)

/-- A save that failed is retried first. -/
def retryCycle (s : Cycling) (r : CycleRun) (c : SignerCoordinator) :
    Option (Cycling × Option CycleEvent) :=
  if c.persistence.state = .failed then
    match c.retryPersistence with
    | none => s.throws r.cycle
    | some (c', e) => some (s.goesOn r c' .retrying, some ⟨e, none⟩)
  else some (s.goesOn r c .beginning, none)

/-- The decision, and the start of the inspection. -/
def beginCycle (reading : CycleReading) (s : Cycling) (r : CycleRun) (c : SignerCoordinator) :
    Option (Cycling × Option CycleEvent) :=
  if reading.aborted then s.throws r.cycle
  else
    match c.beginInspection with
    | none => s.throws r.cycle
    | some (c', e) =>
      let r' := { r with generation := c'.inspectionGeneration }
      if canReuseDurablePass s c r reading.clock then
        some (s.goesOn r' c' .inspected,
          some ⟨e, some (.passSkipped r.cycle r.anchor reading.clock c.durableContent)⟩)
      else
        some (s.invalidateDurableRecovery.goesOn r' c' (.calling (max 1 c'.attempts.length - 1)),
          some ⟨e, some (.passStarted r.cycle)⟩)

/-- `owner.recover`, with the passes that may follow. -/
def callRecover (s : Cycling) (r : CycleRun) (passes : ℕ) (c : SignerCoordinator) :
    Option (Cycling × Option CycleEvent) :=
  match c.callOwned r.generation (.recover r.anchor r.maxBlockRange) with
  | none => s.abandons r c
  | some (c', e) => some ({ s with recovered := none }.goesOn r c' (.recovering passes), some ⟨e, none⟩)

/-- The operation that the cycle awaits has settled; whether it rejected. -/
def SignerCoordinator.settledOwned (generation : ℕ) (c : SignerCoordinator) : Option Bool :=
  (c.owned generation).bind fun owner =>
    match owner.activeOperation with
    | some (.settled failed) => some failed
    | _ => none

/-- A pass has returned: another one follows a resolution, and a completed one is recorded. -/
def recoverSettled (reading : CycleReading) (s : Cycling) (r : CycleRun) (passes : ℕ)
    (c : SignerCoordinator) : Option (Cycling × Option CycleEvent) :=
  (c.settledOwned r.generation).bind fun failed =>
    c.settleOperation.bind fun (c', e) =>
      if failed then
        some (s.goesOn r c' .abandoning, some ⟨e, none⟩)
      else
        s.recovered.map fun result =>
          if 0 < passes ∧ result.isResolution = true ∧ c'.attempts ≠ [] then
            if reading.aborted then (s.goesOn r c' .abandoning, some ⟨e, none⟩)
            else (s.goesOn r c' (.calling (passes-1)), some ⟨e, none⟩)
          else
            match s.durableSchedule with
            | none => (s.goesOn r c' .inspected, some ⟨e, none⟩)
            | some schedule =>
              if isDurableRecoveryComplete result c'.recoveryComplete c'.persistence.state
                  c'.attempts then
                ({ s with
                    durableSchedule := some (schedule.recordCompleted r.anchor reading.clock)
                    completedDurableRevision := some c'.committedDurableRecoveryRevision }.goesOn r c'
                  .inspected,
                  some ⟨e, reading.clock.map fun at' =>
                    .passCompleted r.cycle r.anchor at' c'.durableContent⟩)
              else (s.goesOn r c' .inspected, some ⟨e, none⟩)

/-- The inclusion pass, or its absence. -/
def callCheckInclusions (reading : CycleReading) (s : Cycling) (r : CycleRun)
    (c : SignerCoordinator) : Option (Cycling × Option CycleEvent) :=
  if reading.aborted then s.abandons r c
  else if c.recoveryComplete = true ∧ (r.head.isSome = true ∨ c.attempts = []) then
    match c.callOwned r.generation (.checkInclusions reading.client (r.head.getD r.anchor)
        (r.head.map fun _ => r.maxBlockRange)) with
    | none => s.abandons r c
    | some (c', e) => some ({ s with checked := none }.goesOn r c' .checking, some ⟨e, none⟩)
  else some (s.invalidateDurableRecovery.goesOn r c .finishing,
    some ⟨none, some (.invalidated r.cycle)⟩)

def checkSettled (s : Cycling) (r : CycleRun) (c : SignerCoordinator) :
    Option (Cycling × Option CycleEvent) :=
  (c.settledOwned r.generation).bind fun failed =>
    c.settleOperation.bind fun (c', e) =>
      if failed then
        some (s.goesOn r c' .abandoning, some ⟨e, none⟩)
      else
        s.checked.map fun complete =>
          if complete then (s.goesOn r c' .finishing, some ⟨e, none⟩)
          else (s.invalidateDurableRecovery.goesOn r c' .finishing,
            some ⟨e, some (.invalidated r.cycle)⟩)

def finishCycle (reading : CycleReading) (s : Cycling) (r : CycleRun) (c : SignerCoordinator) :
    Option (Cycling × Option CycleEvent) :=
  if reading.aborted then s.abandons r c
  else
    match c.finishInspection reading.now r.generation with
    | none => s.abandons r c
    | some (c', e) => some (s.goesOn r c' .sending, some ⟨e, none⟩)

/-- The transaction that is due, if any. -/
def sendCycle (reading : CycleReading) (s : Cycling) (r : CycleRun) (c : SignerCoordinator) :
    Option (Cycling × Option CycleEvent) :=
  if reading.aborted then s.throws r.cycle
  else
    match c.retryAttempt with
    | none => some (s.returns c, none)
    | some attempt =>
      if c.canBroadcast && reading.claimed then
        match c.broadcastAttempt lib identity reading.now attempt.attemptId with
        | none => s.throws r.cycle
        | some (c', e) => some (s.goesOn r c' .broadcasting, some ⟨e, none⟩)
      else some (s.returns c, none)

def abandonCycle (s : Cycling) (r : CycleRun) (c : SignerCoordinator) :
    Option (Cycling × Option CycleEvent) :=
  match c.abandonInspection r.generation with
  | none => some (s.goesOn r c .abandoned, none)
  | some (c', e) => some (s.goesOn r c' .abandoned, some ⟨e, none⟩)

/-- A cycle goes on from its stage. -/
def nextCycle (reading : CycleReading) (s : Cycling) (r : CycleRun) (c : SignerCoordinator) :
    Option (Cycling × Option CycleEvent) :=
  match r.stage with
  | .started => retryCycle s r c
  | .retrying => if reading.failed then s.throws r.cycle else some (s.goesOn r c .beginning, none)
  | .beginning => beginCycle reading s r c
  | .calling passes => callRecover s r passes c
  | .recovering passes => recoverSettled reading s r passes c
  | .inspected => callCheckInclusions reading s r c
  | .checking => checkSettled s r c
  | .finishing => finishCycle reading s r c
  | .sending => sendCycle lib identity reading s r c
  | .broadcasting => if reading.failed then s.throws r.cycle else some (s.returns c, none)
  | .abandoning => abandonCycle s r c
  | .abandoned => s.throws r.cycle

/-- A step of the world below. A cycle ends with its process, and so does what it knew. -/
def signerCycleStep (i : Input) (s : Cycling) : Option (Cycling × Option CycleEvent) :=
  (worldStep lib identity i s.world).map fun (w, e) =>
    match s.world, w with
    | .running c, .running _ =>
      ({ s with
          world := w
          recovered := (c.recoverReturns identity i.action).orElse fun _ => s.recovered
          checked := (c.checkReturns i.action).orElse fun _ => s.checked },
        some ⟨e, none⟩)
    | _, _ =>
      ({ s.invalidateDurableRecovery with world := w, run := none }, some ⟨e, none⟩)

def cycleStep (input : CycleInput) (s : Cycling) : Option (Cycling × Option CycleEvent) :=
  match input.action, s.world, s.run with
  | .signer action, _, none => signerCycleStep lib identity ⟨input.reading.now, action⟩ s
  | .signer action, _, some r =>
    if r.stage.allows action then
      signerCycleStep lib identity ⟨input.reading.now, action⟩ s
    else none
  | .run head anchor maxBlockRange, .running _, none =>
    startCycle input.reading s head anchor maxBlockRange
  | .next, .running c, some r => nextCycle lib identity input.reading s r c
  | _, _, _ => none

/-- `interval` is the refresh interval of the schedule, where there is one. -/
def cycleSystem (interval : Option ℕ) : System Cycling CycleInput CycleEvent where
  init := ⟨.stopped none none, none, 0, none, interval.map fun i => ⟨i, none⟩, none, none⟩
  step := cycleStep lib identity

abbrev runCycles (interval : Option ℕ) (is : List CycleInput) : Cycling × List CycleEvent :=
  (cycleSystem lib identity interval).run is

end Cycle

end Quicknet
