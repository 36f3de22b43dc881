import Quicknet.DaemonStatus
import Quicknet.ManagerRecovery

/-! `read-signer-runtime-observation.ts` and `daemon-status-publisher.ts`. A publication
reads the runtime and builds its snapshot in one stretch of code; what it hands to the file
is what is kept of the write. A number that the clock or a caller gives is `none` where it is
not finite. -/
namespace Quicknet

open Json (Text text Value)

/-- The status of a manager with the strings that its process holds. -/
structure SpelledStatus (status : TransactionManagerStatus) where
  blockedSince : Option Text
  attempts : List AttemptText
  since_read : blockedSince.map readTimestamp = status.blockedSince.map some
  attempts_read : attempts.mapM readAttempt = some status.attempts

def PhaseText.phase : PhaseText → AttemptPhase
  | .signed => .signed
  | .broadcastMayHaveOccurred => .broadcastMayHaveOccurred
  | .included _ => .included

/-- It has the fields of an attempt of the snapshot, whose nonce is only printed there. -/
abbrev TransactionAttemptSummary := DaemonStatusAttempt

def summarizeAttempt (attempt : AttemptText) : TransactionAttemptSummary where
  attemptId := attempt.attemptId
  workId := attempt.workId
  nonce := attempt.nonce
  phase := attempt.phase.phase
  transactionHashes := attempt.signedTransactions.map (·.transactionHash)

structure SignerRuntimeObservation where
  journalInitialized : Bool
  status : LastObservedGate
  attempts : List TransactionAttemptSummary
  deriving DecidableEq

def readSignerRuntimeObservation (current : TransactionManagerStatus)
    (spelled : SpelledStatus current) : SignerRuntimeObservation where
  journalInitialized := current.journalInitialized
  status :=
    { isOpen := current.isOpen
      primaryReason := current.primaryReason
      blockers := current.blockers
      recoveryComplete := current.recoveryComplete
      inclusionChecksComplete := current.inclusionChecksComplete
      persistenceState := current.persistenceState
      blockedSince := spelled.blockedSince }
  attempts := spelled.attempts.map summarizeAttempt

/-- `Number.isSafeInteger`, with the integer. -/
def readSafeInteger (value : Option ℚ) : Option ℤ :=
  value.bind fun q => if q.den = 1 ∧ |q.num| ≤ MAX_SAFE_INTEGER then some q.num else none

structure DaemonStatusPublisher where
  identity : IdentityText
  runId : Text
  /-- Whether it was given the function that reads the runtime. -/
  initialized : Bool
  lastCompletedCycle : Option DaemonStatusCompletedCycle
  lastRetryObservation : Option DaemonStatusRetryObservation
  deriving DecidableEq

namespace DaemonStatusPublisher

open DaemonStatus

def create (identity : IdentityText) (runId : Text) : DaemonStatusPublisher :=
  ⟨identity, runId, false, none, none⟩

def timestamp (now : Option ℚ) : Except Failure Text :=
  match readSafeInteger now with
  | none => .error (.typeError "Invalid daemon status observation time.")
  | some milliseconds =>
    if |milliseconds| ≤ MAX_TIME_VALUE then .ok (toISOString milliseconds)
    else .error (.typeError "Invalid daemon status observation time.")

/-- A retry delay is null or a non-negative safe integer. -/
def checkRetryDelay : Option (Option ℚ) → Except Failure (Option ℕ)
  | none => .ok none
  | some value =>
    match readSafeInteger value with
    | none => .error (.typeError "Invalid daemon status retry delay.")
    | some delay =>
      if 0 ≤ delay then .ok (some delay.toNat)
      else .error (.typeError "Invalid daemon status retry delay.")

def checkCycle (cycle : Option ℚ) : Except Failure ℕ :=
  match readSafeInteger cycle with
  | none => .error (.typeError "Invalid daemon status cycle.")
  | some n => if 0 < n then .ok n.toNat else .error (.typeError "Invalid daemon status cycle.")

/-- The calls of the daemon, with the readings of the clock. -/
inductive Call
  | onInitialized
  | onRecoveryCompleted (retryDelayMs : Option (Option ℚ)) (now : Option ℚ)
  | onCycleCompleted (cycle : Option ℚ) (now : Option ℚ)
  deriving DecidableEq

def called (call : Call) (p : DaemonStatusPublisher) : Except Failure DaemonStatusPublisher :=
  match call with
  | .onInitialized => .ok { p with initialized := true }
  | .onRecoveryCompleted value now => do
    let retryDelayMs ← checkRetryDelay value
    let observedAt ← timestamp now
    return { p with lastRetryObservation := some ⟨observedAt, retryDelayMs⟩ }
  | .onCycleCompleted value now => do
    let cycle ← checkCycle value
    let completedAt ← timestamp now
    return { p with lastCompletedCycle := some ⟨cycle, completedAt⟩ }

/-- The publisher of one run. The events are the failures that are reported. -/
def system (identity : IdentityText) (runId : Text) :
    Transition.System DaemonStatusPublisher Call Failure where
  init := create identity runId
  step call p :=
    match called call p with
    | .ok next => some (next, none)
    | .error e => some (p, some e)

/-- `readRpcUsage` throws, or returns an object; one that no JSON text writes is refused by
the reader like any other that it does not take, and is an error here. -/
abbrev RpcUsageSource := Text → Except Failure Value

def captureRpcUsage (observedAt : Text) (readRpcUsage : RpcUsageSource) :
    Except Failure RpcUsage.RpcUsageSnapshot := do
  let value ← readRpcUsage observedAt
  let rpcUsage ← RpcUsage.readRpcUsageSnapshot value
  requireThat "RPC usage observation time does not match publication capture."
    (rpcUsage.observedAt = observedAt)
  return rpcUsage

/-- The usage that a publication includes, and the failure to read it, which is reported. -/
def rpcFields (observedAt : Text) :
    Option RpcUsageSource → Option RpcUsage.RpcUsageSnapshot × List Failure
  | none => (none, [])
  | some readRpcUsage =>
    match captureRpcUsage observedAt readRpcUsage with
    | .ok rpcUsage => (some rpcUsage, [])
    | .error e => (none, [e])

/-- The object that a publication puts together, in the order of the source. -/
def publishedObject (runtime : SignerRuntimeObservation) (observedAt : Text)
    (projection : DaemonStatusAttemptProjection) (rpcUsage : Option RpcUsage.RpcUsageSnapshot)
    (p : DaemonStatusPublisher) : Value :=
  .object ([(text "version", encodeInteger 1), (text "identity", encodeIdentity p.identity),
    (text "runId", .string p.runId), (text "observedAt", .string observedAt),
    (text "journalInitialized", .bool runtime.journalInitialized),
    (text "lastCompletedCycle", encodeNullable encodeCompletedCycle p.lastCompletedCycle),
    (text "lastRetryObservation", encodeNullable encodeRetryObservation p.lastRetryObservation),
    (text "lastObservedGate", encodeLastObservedGate runtime.status),
    (text "attemptSummary", encodeAttemptSummary projection.summary),
    (text "attempts", .array (projection.details.map DaemonStatus.encodeAttempt))] ++
      encodeRpcFields rpcUsage)

def buildSnapshot (runtime : SignerRuntimeObservation) (observedAt : Text)
    (rpcUsage : Option RpcUsage.RpcUsageSnapshot) (p : DaemonStatusPublisher) :
    Except Failure DaemonStatusSnapshot := do
  let attempts ← readDaemonStatusAttemptPopulation
    (.array (runtime.attempts.map DaemonStatus.encodeAttempt))
  readDaemonStatusSnapshot
    (p.publishedObject runtime observedAt (projectDaemonStatusAttempts attempts) rpcUsage) p.identity

structure Publication where
  reported : List Failure
  contents : Option Text
  deriving DecidableEq

def publishCurrent (runtime : SignerRuntimeObservation) (now : Option ℚ)
    (readRpcUsage : Option RpcUsageSource) (p : DaemonStatusPublisher) : Publication :=
  if p.initialized = false ∨ runtime.journalInitialized = false then ⟨[], none⟩
  else
    match timestamp now with
    | .error e => ⟨[e], none⟩
    | .ok observedAt =>
      let (rpcUsage, reported) := rpcFields observedAt readRpcUsage
      match (do
        let snapshot ← p.buildSnapshot runtime observedAt rpcUsage
        daemonStatusContents (encodeDaemonStatusSnapshot snapshot) p.identity) with
      | .ok contents => ⟨reported, some contents⟩
      | .error e => ⟨reported ++ [e], none⟩

end DaemonStatusPublisher

end Quicknet
