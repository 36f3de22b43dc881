import Quicknet.SignerRuns

/-! The manager of one signer. It owns the coordinator and runs one operation at a
time: `enter` refuses every call that arrives at an await. A submission reconciles,
prepares an attempt and broadcasts it, and an error that it throws carries a
recording of what the journal holds. The recovery cycle appears as the operations of
the coordinator that it calls, in any order; reports and diagnostics are left out. -/
namespace Quicknet

open Transition

structure AttemptIdentity where
  workId : WorkId
  attemptId : AttemptId
  deriving DecidableEq, Repr

def JournalAttempt.attemptIdentity (a : JournalAttempt) : AttemptIdentity :=
  ⟨a.workId, a.attemptId⟩

/-- What is known of the attempt of a submission that failed. -/
inductive SubmissionRecording
  | none
  | uncertain (attempt : AttemptIdentity)
  | retained (attempt : AttemptIdentity)
  deriving DecidableEq, Repr

inductive PrepareAttemptResult
  | prepared (attemptId : AttemptId)
  | alreadyRetained (retained : AttemptIdentity)
  deriving DecidableEq, Repr

inductive SubmitTransactionWorkResult
  | deferred (primaryReason : SignerBlocker) (reasons : List SignerBlocker)
  | alreadyRetained (retained : AttemptIdentity)
  | submitted (broadcast : AttemptIdentity)
  deriving DecidableEq, Repr

/-- Where a submission stands. `attemptPrepared` and `broadcastSettled` are the
moments between the end of a coordinator operation and the resumption of its caller;
`none` is a rejection. -/
inductive SubmissionStage
  | captured
  | reconciling
  | preparingTransaction
  | preparingAttempt
  | attemptPrepared (result : Option PrepareAttemptResult)
  | broadcasting (attemptId : AttemptId)
  | broadcastSettled (attemptId : AttemptId) (failed : Bool)
  deriving DecidableEq, Repr

inductive ManagerOperation
  | reconcile
  | submit (workId : WorkId) (stage : SubmissionStage)
  deriving DecidableEq, Repr

/-- The world with its manager, which is busy while it has an operation. -/
structure Managed where
  world : World
  operation : Option ManagerOperation

/-- `signer` is a step of the world below. `transactionPrepared` settles
`prepareRelayerTransaction`, with the identifier that `prepareAttempt` draws next. -/
inductive ManagerAction
  | signer (action : Action)
  | reconcile
  | submit (workId : WorkId)
  | start
  | reconciled (failed : Bool)
  | transactionPrepared (transaction : Option PreparedRelayerTransaction) (attemptId : AttemptId)
      (accountAddress : Address)
  | attemptPrepared
  | broadcastSettled

/-- `aborted` is what the signal says when the code of this step reads it. -/
structure ManagerInput where
  now : Timestamp
  aborted : Bool
  action : ManagerAction

inductive ManagerEvent
  | signer (e : Event)
  | entered (workId : WorkId)
  | returned (workId : WorkId) (result : SubmitTransactionWorkResult)
  | thrown (workId : WorkId) (recording : SubmissionRecording)

namespace TransactionJournalSnapshot

/-- The attempt that a journal holds for a work identity. -/
def attemptOf (s : TransactionJournalSnapshot) (workId : WorkId) : Option JournalAttempt :=
  s.attempts.find? fun a => a.workId == workId

end TransactionJournalSnapshot

def JournalPersistence.failedWriteAttemptIdentity (p : JournalPersistence) (workId : WorkId) :
    Option AttemptIdentity :=
  if p.state = .failed then (p.pending.bind (·.attemptOf workId)).map (·.attemptIdentity)
  else none

namespace SignerCoordinator

def attemptOf (c : SignerCoordinator) (workId : WorkId) : Option JournalAttempt :=
  c.persistence.current.bind (·.attemptOf workId)

/-- Acknowledged state comes first: a marker that failed does not undo the
preparation before it. -/
def captureSubmissionRecording (c : SignerCoordinator) (workId : WorkId) : SubmissionRecording :=
  match c.attemptOf workId with
  | some retained => .retained retained.attemptIdentity
  | none =>
    if c.pendingWrite = some .prepared then
      match c.persistence.failedWriteAttemptIdentity workId with
      | some attempt => .uncertain attempt
      | none => .none
    else .none

/-- The attempt that `prepareAttempt` reports as already retained. -/
def preparedBefore (c : SignerCoordinator) (workId : WorkId) : Option JournalAttempt :=
  if c.assertAvailable && c.noPendingWrite && c.status.isOpen && isWorkId workId then
    c.attemptOf workId
  else none

end SignerCoordinator

namespace Action

/-- What a recovery cycle does with the coordinator: every operation but a
preparation. -/
def isRecovery : Action → Bool
  | .prepareAttempt _ _ _ _ | .signed _ _ => false
  | .crash | .openJournal _ | .restart _ _ | .syncNonce _ _ _ => false
  | _ => true

/-- Answers to the operation that is suspended. -/
def isSettlement : Action → Bool
  | .signed _ _ | .sendSettled | .stored | .storeFailed | .resume => true
  | _ => false

end Action

namespace ManagerOperation

/-- The steps of the coordinator that can happen while the manager awaits. Where a
submission awaits no operation of the coordinator, it stands still. -/
def admits : ManagerOperation → Action → Bool
  | .reconcile, action | .submit _ .reconciling, action => action.isRecovery
  | .submit _ .preparingAttempt, action | .submit _ (.broadcasting _), action =>
    action.isSettlement
  | _, _ => false

/-- Where the manager stands after a step of the coordinator from `task` to a state
with the task `task'`. -/
def after (task task' : Option Task) (e : Option Event) : ManagerOperation → ManagerOperation
  | .submit workId .preparingAttempt =>
    if task'.isSome then .submit workId .preparingAttempt
    else .submit workId (.attemptPrepared (match e with
      | some (.completed _ (some attemptId)) => some (.prepared attemptId)
      | _ => none))
  | .submit workId (.broadcasting attemptId) =>
    if task'.isSome then .submit workId (.broadcasting attemptId)
    else .submit workId (.broadcastSettled attemptId (match task with
      | some .sending => false
      | _ => true))
  | operation => operation

end ManagerOperation

section Manager

variable (lib : TransactionLibrary) (identity : JournalIdentity)

/-- The end of an operation, with the coordinator as it is. -/
def ended (c : SignerCoordinator) (e : ManagerEvent) : Option (Managed × Option ManagerEvent) :=
  some (⟨.running c, none⟩, some e)

def submitting (c : SignerCoordinator) (workId : WorkId) (stage : SubmissionStage) :
    Option (Managed × Option ManagerEvent) :=
  some (⟨.running c, some (.submit workId stage)⟩, none)

/-- The `catch` of `submit` after preparation started. Before it the recording is
`none`: the failure belongs to earlier work. -/
def submissionFailed (c : SignerCoordinator) (workId : WorkId) :
    Option (Managed × Option ManagerEvent) :=
  ended c (.thrown workId (c.captureSubmissionRecording workId))

/-- From the recovery to the await of `prepareRelayerTransaction`. No await lies in
between, so `submitTransaction` finds the signal and the gate as they are here. -/
def submitReconciled (c : SignerCoordinator) (workId : WorkId) (failed aborted : Bool) :
    Option (Managed × Option ManagerEvent) :=
  if failed || aborted then ended c (.thrown workId .none)
  else if c.status.isOpen then
    match c.attemptOf workId with
    | some retained => ended c (.returned workId (.alreadyRetained retained.attemptIdentity))
    | none => submitting c workId .preparingTransaction
  else
    match c.status.primaryReason with
    | none => ended c (.thrown workId .none)
    | some reason => ended c (.returned workId (.deferred reason (reason :: c.status.blockers.tail)))

/-- The call of `prepareAttempt`, which rejects, reports a retained attempt or
awaits the account. -/
def submitPrepared (now : Timestamp) (c : SignerCoordinator) (workId : WorkId)
    (transaction : Option PreparedRelayerTransaction) (attemptId : AttemptId)
    (accountAddress : Address) (aborted : Bool) : Option (Managed × Option ManagerEvent) :=
  match transaction with
  | none => submissionFailed c workId
  | some transaction =>
    if aborted then submissionFailed c workId
    else
      match c.prepareAttempt now workId attemptId accountAddress transaction with
      | some (c', e) =>
        some (⟨.running c', some (.submit workId .preparingAttempt)⟩, e.map .signer)
      | none => submitting c workId (.attemptPrepared
          ((c.preparedBefore workId).map fun a => .alreadyRetained a.attemptIdentity))

/-- The call of `broadcastAttempt`. It may reject in its synchronous part. -/
def submitBroadcast (now : Timestamp) (c : SignerCoordinator) (workId : WorkId)
    (result : Option PrepareAttemptResult) (aborted : Bool) :
    Option (Managed × Option ManagerEvent) :=
  match result with
  | none => submissionFailed c workId
  | some result =>
    if aborted then submissionFailed c workId
    else
      match result with
      | .alreadyRetained retained => ended c (.returned workId (.alreadyRetained retained))
      | .prepared attemptId =>
        match c.broadcastAttempt lib identity now attemptId with
        | none => submitting c workId (.broadcastSettled attemptId true)
        | some (c', e) =>
          let stage : SubmissionStage :=
            if c'.task.isSome then .broadcasting attemptId else .broadcastSettled attemptId true
          some (⟨.running c', some (.submit workId stage)⟩, e.map .signer)

/-- One stretch of code of a submission between two awaits. -/
def submissionStep (i : ManagerInput) (c : SignerCoordinator) (workId : WorkId)
    (stage : SubmissionStage) : Option (Managed × Option ManagerEvent) :=
  match stage, i.action with
  | .captured, .start =>
    if i.aborted then ended c (.thrown workId .none) else submitting c workId .reconciling
  | .reconciling, .reconciled failed =>
    -- a recovery that returned or threw has released the coordinator
    if c.task.isNone && c.inspectionOwner.isNone then
      submitReconciled c workId failed i.aborted
    else none
  | .preparingTransaction, .transactionPrepared transaction attemptId accountAddress =>
    submitPrepared i.now c workId transaction attemptId accountAddress i.aborted
  | .attemptPrepared result, .attemptPrepared =>
    submitBroadcast lib identity i.now c workId result i.aborted
  | .broadcastSettled attemptId failed, .broadcastSettled =>
    if failed then submissionFailed c workId
    else ended c (.returned workId (.submitted ⟨workId, attemptId⟩))
  | _, _ => none

/-- A step of the world below, which the operation of the manager has to admit. A
crash ends the manager with its process. -/
def signerStep (i : Input) (m : Managed) : Option (Managed × Option ManagerEvent) :=
  match m.world, m.operation with
  | .running c, some operation =>
    if operation.admits i.action then
      (coordinatorStep lib identity i c).map fun r =>
        (⟨.running r.1, some (operation.after c.task r.1.task r.2)⟩, r.2.map .signer)
    else
      match i.action with
      | .crash => (worldStep lib identity i m.world).map fun r => (⟨r.1, none⟩, r.2.map .signer)
      | _ => none
  | .running _, none =>
    match i.action with
    | .crash => (worldStep lib identity i m.world).map fun r => (⟨r.1, none⟩, r.2.map .signer)
    | _ => none
  | _, _ => (worldStep lib identity i m.world).map fun r => (⟨r.1, none⟩, r.2.map .signer)

def managerStep (i : ManagerInput) (m : Managed) : Option (Managed × Option ManagerEvent) :=
  match i.action, m.world, m.operation with
  | .signer action, _, _ => signerStep lib identity ⟨i.now, action⟩ m
  | .reconcile, .running c, none => some (⟨.running c, some .reconcile⟩, none)
  | .submit workId, .running c, none =>
    some (⟨.running c, some (.submit workId .captured)⟩, some (.entered workId))
  | .reconciled _, .running c, some .reconcile =>
    if c.task.isNone && c.inspectionOwner.isNone then some (⟨.running c, none⟩, none) else none
  | _, .running c, some (.submit workId stage) => submissionStep lib identity i c workId stage
  | _, _, _ => none

def managerSystem : System Managed ManagerInput ManagerEvent where
  init := ⟨.stopped none none, none⟩
  step := managerStep lib identity

abbrev runManager (is : List ManagerInput) : Managed × List ManagerEvent :=
  (managerSystem lib identity).run is

end Manager

end Quicknet
