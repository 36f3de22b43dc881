import Quicknet.RecoveryCycle
import Quicknet.TransactionManager

/-! The manager together with its recovery cycle. A reconciliation, and a submission before
it prepares anything, runs one cycle under an observation of the coordinator, and reads back
what the cycle returned once that promise has settled. Only the operation of the manager
calls the coordinator: besides these calls, a step of the signer is what a suspended
operation does when it is answered. Of a cycle's result the broadcast is kept; the statuses
of its two passes and the retry delay only report what it did. -/
namespace Quicknet

open Transition SignerCoordinator

/-- What the request of a broadcast came to. -/
inductive BroadcastAnswer
  | requestError
  | invalidResponse
  | returned (hash : Hash)
  deriving DecidableEq, Repr

structure BroadcastAttemptResult where
  acknowledged : Bool
  attemptId : AttemptId
  transactionHash : Hash
  nonce : ℕ
  deriving DecidableEq, Repr

/-- The result names the attempt and the transaction that were captured before the request. -/
def broadcastResult (attempt : JournalAttempt) (answer : BroadcastAnswer) : BroadcastAttemptResult :=
  let transaction := attempt.signedTransactions.latest
  { acknowledged := answer == .returned transaction.transactionHash
    attemptId := attempt.attemptId
    transactionHash := transaction.transactionHash
    nonce := attempt.nonce }

structure TransactionBroadcastOutcome where
  workId : WorkId
  attemptId : AttemptId
  transactionHash : Hash
  nonce : ℕ
  acknowledged : Bool
  deriving DecidableEq, Repr

structure TransactionManagerStatus where
  chainId : ℕ
  journalInitialized : Bool
  busy : Bool
  isOpen : Bool
  primaryReason : Option SignerBlocker
  blockers : List SignerBlocker
  recoveryComplete : Bool
  inclusionChecksComplete : Bool
  persistenceState : JournalPersistenceState
  blockedSince : Option Timestamp
  attempts : List JournalAttempt
  deriving DecidableEq, Repr

structure TransactionReconciliationReport where
  state : TransactionManagerStatus
  broadcast : Option TransactionBroadcastOutcome
  deriving DecidableEq, Repr

def OUTCOME_WITHOUT_IDENTITY : Failure :=
  .error "Broadcast outcome has no retained transaction identity."

def CLOSED_WITHOUT_BLOCKER : Failure :=
  .error "Signer gate is closed without a reported blocker."

namespace SignerCoordinator

def captureStatus (identity : JournalIdentity) (c : SignerCoordinator) (busy : Bool) :
    TransactionManagerStatus :=
  let signer := c.status
  { chainId := identity.chainId
    journalInitialized := c.persistence.current.isSome
    busy := busy
    isOpen := signer.isOpen && !busy
    primaryReason := signer.primaryReason
    blockers := signer.blockers
    recoveryComplete := signer.recoveryComplete
    inclusionChecksComplete := signer.inclusionChecksComplete
    persistenceState := signer.persistenceState
    blockedSince := signer.blockedSince
    attempts := c.attempts }

def captureReconciliationReport (identity : JournalIdentity) (c : SignerCoordinator)
    (broadcast : Option BroadcastAttemptResult) : Except Failure TransactionReconciliationReport :=
  match broadcast with
  | none => .ok ⟨c.captureStatus identity false, none⟩
  | some outcome =>
    match c.attempts.find? fun a => a.attemptId == outcome.attemptId with
    | none => .error OUTCOME_WITHOUT_IDENTITY
    | some attempt =>
      .ok ⟨c.captureStatus identity false, some
        { workId := attempt.workId
          attemptId := outcome.attemptId
          transactionHash := outcome.transactionHash
          nonce := outcome.nonce
          acknowledged := outcome.acknowledged }⟩

/-- The error that `submit` throws at a closed gate which names no reason. -/
def gateFailure (c : SignerCoordinator) : Option Failure :=
  if c.status.isOpen = false ∧ c.status.primaryReason = none then some CLOSED_WITHOUT_BLOCKER
  else none

end SignerCoordinator

/-- What a suspended operation of the coordinator does when it is answered. -/
def Action.isContinuation : Action → Bool
  | .startOperation | .answered _ | .settleOperation | .completeAbandonment => true
  | .sendSettled | .stored | .storeFailed | .resume => true
  | _ => false

/-- Where `reconcileOwned` stands. While the heads are selected it has not begun. A broadcast
under way keeps the attempt that it captured, and whether it has settled with a rejection.
The last stage is the moment before the caller resumes; `none` is a rejection. -/
inductive RecoveryStage
  | selecting
  | running
  | broadcasting (attempt : JournalAttempt) (settled : Option Bool)
  | ended (result : Option (Option BroadcastAttemptResult))
  deriving DecidableEq, Repr

/-- The operation of the manager: a recovery, by `reconcile` or before the submission of a
work identity, or what a submission does after it. -/
inductive ManagerCall
  | recovery (caller : Option WorkId) (stage : RecoveryStage)
  | submission (workId : WorkId) (stage : SubmissionStage)
  deriving DecidableEq, Repr

/-- The operation of the manager that awaits a recovery. -/
def recoveryOperation : Option WorkId → ManagerOperation
  | none => .reconcile
  | some workId => .submit workId .reconciling

namespace ManagerCall

/-- The operation with its recovery out of sight. -/
def operation : ManagerCall → ManagerOperation
  | .recovery caller _ => recoveryOperation caller
  | .submission workId stage => .submit workId stage

/-- A submission that goes on to its recovery selects the heads first. -/
def ofOperation : ManagerOperation → ManagerCall
  | .reconcile => .recovery none .selecting
  | .submit workId .reconciling => .recovery (some workId) .selecting
  | .submit workId stage => .submission workId stage

@[simp] theorem operation_ofOperation (operation : ManagerOperation) :
    (ofOperation operation).operation = operation := by
  cases operation with
  | reconcile => rfl
  | submit workId stage => cases stage <;> rfl

/-- The steps of the coordinator that can happen while the manager awaits. -/
def admits (run : Option CycleRun) : ManagerCall → Action → Bool
  | .recovery _ _, action => action.isContinuation && run.any fun r => r.stage.allows action
  | .submission workId stage, action =>
    stage != .reconciling && (ManagerOperation.submit workId stage).admits action

end ManagerCall

structure ManagerProcess where
  cycling : Cycling
  call : Option ManagerCall

/-- The process without its cycle. -/
def ManagerProcess.managed (s : ManagerProcess) : Managed :=
  ⟨s.cycling.world, s.call.map (·.operation)⟩

/-- `selected` is what `recoverSignerAtHeads` has read: the durable anchor, and the head where it
is another block; `none` where a read rejected or the heads were out of order. At `next` the
cycle goes on, from its own code or from an await that has settled. -/
inductive ProcessAction
  | signer (action : Action)
  | reconcile (head anchor : BlockAnchor)
  | submit (workId : WorkId)
  | selected (heads : Option (BlockAnchor × Option BlockAnchor))
  | next (answer : BroadcastAnswer)
  | recovered
  | submission (action : ManagerAction)

structure ProcessInput where
  reading : CycleReading
  action : ProcessAction

/-- `rejected` is a reconciliation whose recovery rejected; `raised` an error that the manager
itself throws, to the submission of a work identity or to `reconcile`. -/
inductive ProcessEvent
  | manager (e : ManagerEvent)
  | reported (report : TransactionReconciliationReport)
  | rejected
  | raised (caller : Option WorkId) (failure : Failure)

/-- What the process without its cycle shows of an event. -/
def ProcessEvent.manager? : ProcessEvent → Option ManagerEvent
  | .manager e => some e
  | .raised (some workId) _ => some (.thrown workId .none)
  | _ => none

def ProcessEvent.ofSigner (e : Option Event) : Option ProcessEvent :=
  e.map fun e => .manager (.signer e)

section Process

variable (lib : TransactionLibrary) (identity : JournalIdentity) (maxBlockRange : ℕ)

namespace RecoveryStage

/-- A broadcast under way has settled once the coordinator is released: it resolves after its
request, and rejects before. `task` is what the coordinator was suspended in. -/
def settled (task : Option Task) (w : World) (stage : RecoveryStage) : RecoveryStage :=
  match stage, w with
  | .broadcasting attempt none, .running c =>
    .broadcasting attempt (if c.task.isSome then none
      else some (match task with | some .sending => false | _ => true))
  | stage, _ => stage

theorem settled_running (task : Option Task) (c : SignerCoordinator) (a : JournalAttempt) :
    ∃ settled, RecoveryStage.settled task (.running c) (.broadcasting a none) =
      .broadcasting a settled ∧ (settled = none ↔ c.task.isSome = true) := by
  refine ⟨_, rfl, ?_⟩
  cases c.task <;> simp

/-- What the cycle finds of the operation that it awaits; `none` while that has not settled. -/
def awaited (reading : CycleReading) (r : CycleRun) (c : SignerCoordinator)
    (stage : RecoveryStage) : Option CycleReading :=
  match r.stage, stage with
  | .retrying, _ =>
    if c.task.isNone then some { reading with failed := c.persistence.state == .failed } else none
  | .broadcasting, .broadcasting _ settled => settled.map fun failed => { reading with failed := failed }
  | .broadcasting, _ => none
  | .abandoned, _ => if (c.owned r.generation).isNone then some reading else none
  | _, _ => some reading

/-- Where the recovery stands after a step of the cycle over `c`, which leads to `s`. -/
def after (answer : BroadcastAnswer) (c : SignerCoordinator) (s : Cycling)
    (e : Option CycleEvent) (stage : RecoveryStage) : RecoveryStage :=
  match s.run with
  | some r =>
    match r.stage, s.world, c.retryAttempt with
    -- `broadcastAttempt` rejects at once when its marker does not verify
    | .broadcasting, .running c', some attempt =>
      .broadcasting attempt (if c'.task.isSome then none else some true)
    | _, _, _ => .running
  | none =>
    -- a cycle that throws notes that nothing may be reused
    if (e.bind (·.note)).isSome then .ended none
    else match stage with
      | .broadcasting attempt _ => .ended (some (some (broadcastResult attempt answer)))
      | _ => .ended (some none)

end RecoveryStage

/-- The rejection of an operation that has not prepared anything. -/
def rejectCall (s : Cycling) (caller : Option WorkId) :
    Option (ManagerProcess × Option ProcessEvent) :=
  some (⟨s, none⟩, some (match caller with
    | none => .rejected
    | some workId => .manager (.thrown workId .none)))

/-- `reconcileOwned` begins: it observes the coordinator and runs the cycle. -/
def reconcileOwned (reading : CycleReading) (s : Cycling) (c : SignerCoordinator)
    (caller : Option WorkId) (head anchor : BlockAnchor) :
    Option (ManagerProcess × Option ProcessEvent) :=
  match c.beginObservation with
  | none => rejectCall s caller
  | some (c', _) =>
    (startCycle reading { s with world := .running c' } (some head) anchor maxBlockRange).map
      fun (s', _) =>
        (⟨s', some (.recovery caller (if s'.run.isSome then .running else .ended none))⟩, none)

/-- The cycle goes on, where what it awaits has settled. -/
def nextProcess (reading : CycleReading) (answer : BroadcastAnswer) (s : Cycling)
    (c : SignerCoordinator) (caller : Option WorkId) (stage : RecoveryStage) :
    Option (ManagerProcess × Option ProcessEvent) :=
  s.run.bind fun r =>
    (stage.awaited reading r c).bind fun reading =>
      (nextCycle lib identity reading s r c).map fun (s', e) =>
        (⟨s', some (.recovery caller (stage.after answer c s' e))⟩,
          ProcessEvent.ofSigner (e.bind (·.signer)))

/-- The step of a submission, over the same cycle. -/
def submissionProcess (s : Cycling) (r : Managed × Option ManagerEvent) :
    ManagerProcess × Option ProcessEvent :=
  (⟨{ s with world := r.1.world }, r.1.operation.map .ofOperation⟩, r.2.map .manager)

/-- The caller of `reconcileOwned` resumes. `reconcile` captures its report; a submission
looks at the gate. -/
def recoveredProcess (reading : CycleReading) (s : Cycling) (c : SignerCoordinator)
    (caller : Option WorkId) (result : Option (Option BroadcastAttemptResult)) :
    Option (ManagerProcess × Option ProcessEvent) :=
  c.endObservation reading.now |>.bind fun (c', _) =>
    let s := { s with world := .running c' }
    match caller, result with
    | none, none => rejectCall s none
    | none, some broadcast =>
      match c'.captureReconciliationReport identity broadcast with
      | .ok report => some (⟨s, none⟩, some (.reported report))
      | .error failure => some (⟨s, none⟩, some (.raised none failure))
    | some workId, _ =>
      match (if result.isSome && !reading.aborted then c'.gateFailure else none) with
      | some failure => some (⟨s, none⟩, some (.raised (some workId) failure))
      | none =>
        (submitReconciled c' workId result.isNone reading.aborted).map (submissionProcess s)

/-- A step of the signer. A crash ends the manager with its process. -/
def signerProcess (i : Input) (s : ManagerProcess) : Option (ManagerProcess × Option ProcessEvent) :=
  let world := (signerCycleStep lib identity i s.cycling).map fun (s', e) =>
    ((⟨s', none⟩ : ManagerProcess), ProcessEvent.ofSigner (e.bind (·.signer)))
  match s.cycling.world with
  | .running c =>
    match i.action, s.call with
    | .crash, _ => world
    | action, some call =>
      if call.admits s.cycling.run action then
        match call with
        | .recovery caller stage =>
          (signerCycleStep lib identity i s.cycling).map fun (s', e) =>
            (⟨s', some (.recovery caller (stage.settled c.task s'.world))⟩,
              ProcessEvent.ofSigner (e.bind (·.signer)))
        | .submission workId stage =>
          (coordinatorStep lib identity i c).map fun (c', e) =>
            submissionProcess s.cycling (⟨.running c', some
              ((ManagerOperation.submit workId stage).after c.task c'.task e)⟩, e.map .signer)
      else none
    | _, none => none
  | _ => world

def processStep (i : ProcessInput) (s : ManagerProcess) :
    Option (ManagerProcess × Option ProcessEvent) :=
  match i.action, s.cycling.world, s.call with
  | .signer action, _, _ => signerProcess lib identity ⟨i.reading.now, action⟩ s
  | .reconcile head anchor, .running c, none =>
    reconcileOwned maxBlockRange i.reading s.cycling c none head anchor
  | .submit workId, .running _, none =>
    some ({ s with call := some (.submission workId .captured) }, some (.manager (.entered workId)))
  | .selected heads, .running c, some (.recovery caller .selecting) =>
    match heads, i.reading.aborted with
    | some (anchor, head), false =>
      reconcileOwned maxBlockRange i.reading s.cycling c caller (head.getD anchor) anchor
    | _, _ => rejectCall s.cycling caller
  | .next answer, .running c, some (.recovery caller stage) =>
    nextProcess lib identity i.reading answer s.cycling c caller stage
  | .recovered, .running c, some (.recovery caller (.ended result)) =>
    recoveredProcess identity i.reading s.cycling c caller result
  | .submission action, .running c, some (.submission workId stage) =>
    (submissionStep lib identity ⟨i.reading.now, i.reading.aborted, action⟩ c workId stage).map
      (submissionProcess s.cycling)
  | _, _, _ => none

/-- `interval` is the refresh interval of the durable schedule, where there is one. -/
def processSystem (interval : Option ℕ) : System ManagerProcess ProcessInput ProcessEvent where
  init := ⟨(cycleSystem lib identity interval).init, none⟩
  step := processStep lib identity maxBlockRange

abbrev runProcess (interval : Option ℕ) (is : List ProcessInput) :
    ManagerProcess × List ProcessEvent :=
  (processSystem lib identity maxBlockRange interval).run is

end Process

end Quicknet
