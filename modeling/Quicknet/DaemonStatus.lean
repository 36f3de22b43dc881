import Quicknet.JournalFiles
import Quicknet.RpcUsage
import Quicknet.SignerGate

/-! The status snapshot of the daemon: the projection of its attempts, the reader that
validates a snapshot, and the object that the reader returns. The reader has one error for
whatever it refuses, apart from those of the identity and of the RPC usage. A nonce is kept
as the number; `readNonce` takes no string of it but its decimal. -/
namespace Quicknet

open Json (Text text Value)

inductive AttemptPhase
  | signed
  | broadcastMayHaveOccurred
  | included
  deriving DecidableEq, Repr

def AttemptPhase.label : AttemptPhase → String
  | .signed => "signed"
  | .broadcastMayHaveOccurred => "broadcast-may-have-occurred"
  | .included => "included"

def SignerBlocker.label : SignerBlocker → String
  | .recoveryIncomplete => "recovery-incomplete"
  | .unresolvedAttempt => "unresolved-attempt"
  | .unattributedSignerActivity => "unattributed-signer-activity"
  | .persistenceFailure => "persistence-failure"
  | .conflictSearchExhausted => "conflict-search-exhausted"
  | .retentionCapacityReached => "retention-capacity-reached"

def JournalPersistenceState.label : JournalPersistenceState → String
  | .idle => "idle"
  | .writing => "writing"
  | .failed => "failed"

structure DaemonStatusAttempt where
  attemptId : Text
  workId : Text
  nonce : ℕ
  phase : AttemptPhase
  /-- Original transaction hash followed by fee replacement hashes. -/
  transactionHashes : List Text
  deriving DecidableEq

structure DaemonStatusCompletedCycle where
  cycle : ℕ
  completedAt : Text
  deriving DecidableEq

structure DaemonStatusRetryObservation where
  observedAt : Text
  retryDelayMs : Option ℕ
  deriving DecidableEq

structure DaemonStatusAttemptSummary where
  retainedCount : ℕ
  includedCount : ℕ
  unresolvedCount : ℕ
  lowestNonce : Option ℕ
  highestNonce : Option ℕ
  detailedCount : ℕ
  omittedCount : ℕ
  deriving DecidableEq

structure LastObservedGate where
  isOpen : Bool
  primaryReason : Option SignerBlocker
  blockers : List SignerBlocker
  recoveryComplete : Bool
  inclusionChecksComplete : Bool
  persistenceState : JournalPersistenceState
  blockedSince : Option Text
  deriving DecidableEq

structure DaemonStatusSnapshot where
  identity : IdentityText
  runId : Text
  observedAt : Text
  lastCompletedCycle : Option DaemonStatusCompletedCycle
  lastRetryObservation : Option DaemonStatusRetryObservation
  journalInitialized : Bool
  attemptSummary : DaemonStatusAttemptSummary
  attempts : List DaemonStatusAttempt
  lastObservedGate : LastObservedGate
  rpcUsage : Option RpcUsage.RpcUsageSnapshot
  deriving DecidableEq

/-! `project-daemon-status-attempts.ts`. -/

def MAX_DAEMON_STATUS_ATTEMPT_DETAILS : ℕ := 1

structure DaemonStatusAttemptProjection where
  summary : DaemonStatusAttemptSummary
  details : List DaemonStatusAttempt
  deriving DecidableEq

def DaemonStatusAttempt.isIncluded (a : DaemonStatusAttempt) : Bool := a.phase == .included

/-- Unresolved attempts are taken first, then included ones, each in their order. -/
def selectedAttempts (attempts : List DaemonStatusAttempt) : List DaemonStatusAttempt :=
  let unresolved := (attempts.filter (!·.isIncluded)).take MAX_DAEMON_STATUS_ATTEMPT_DETAILS
  unresolved ++ (attempts.filter (·.isIncluded)).take
    (MAX_DAEMON_STATUS_ATTEMPT_DETAILS - unresolved.length)

def projectDaemonStatusAttempts (attempts : List DaemonStatusAttempt) :
    DaemonStatusAttemptProjection :=
  let includedCount := attempts.countP (·.isIncluded)
  let details := (selectedAttempts attempts).mergeSort fun a b => decide (a.nonce ≤ b.nonce)
  { summary :=
      { retainedCount := attempts.length
        includedCount := includedCount
        unresolvedCount := attempts.length - includedCount
        lowestNonce := attempts.head?.map (·.nonce)
        highestNonce := attempts.getLast?.map (·.nonce)
        detailedCount := details.length
        omittedCount := attempts.length - details.length }
    details := details }

namespace DaemonStatus

def INVALID : String := "Invalid daemon status snapshot."

/-! Readers. -/

def readBoolean : Value → Option Bool
  | .bool b => some b
  | _ => none

def readBlocker (v : Value) : Option SignerBlocker :=
  readLabel SignerBlocker.label BLOCKER_PRECEDENCE v

def readAttemptPhase (v : Value) : Option AttemptPhase :=
  readLabel AttemptPhase.label [.signed, .broadcastMayHaveOccurred, .included] v

def readPersistenceState (v : Value) : Option JournalPersistenceState :=
  readLabel JournalPersistenceState.label [.idle, .writing, .failed] v

def readNonce (v : Value) : Option ℕ := do
  let nonce ← decodeDecimal v
  guard (nonce ≤ MAX_UINT256)
  return nonce

def readWorkId (v : Value) : Option Text := do
  let t ← decodeString v
  guard (isWorkId t = true)
  return t

/-- Hex strings that are equal after `toLowerCase` write the same number. -/
def HashesAccepted (hashes : List Text) : Prop :=
  hashes ≠ [] ∧ hashes.length ≤ MAX_SIGNED_TRANSACTIONS_PER_ATTEMPT ∧
    ∃ values, hashes.mapM (readFixedHex 32) = some values ∧ values.Nodup

instance (hashes) : Decidable (HashesAccepted hashes) := by
  unfold HashesAccepted
  cases hashes.mapM (readFixedHex 32) with
  | none => exact isFalse (by simp)
  | some values =>
    exact decidable_of_iff (hashes ≠ [] ∧ hashes.length ≤ MAX_SIGNED_TRANSACTIONS_PER_ATTEMPT ∧
      values.Nodup) (by simp)

def readTransactionHashes (v : Value) : Option (List Text) := do
  let hashes ← decodeArray decodeString v
  guard (HashesAccepted hashes)
  return hashes

def readAttempt (v : Value) : Option DaemonStatusAttempt := do
  let attemptId ← (v.field "attemptId").bind readUuidText
  let workId ← (v.field "workId").bind readWorkId
  let nonce ← (v.field "nonce").bind readNonce
  let phase ← (v.field "phase").bind readAttemptPhase
  let transactionHashes ← (v.field "transactionHashes").bind readTransactionHashes
  return ⟨attemptId, workId, nonce, phase, transactionHashes⟩

/-- Attempts in the order of their nonces, no identity and no work twice. -/
def AttemptsAccepted (maximumCount : ℕ) (attempts : List DaemonStatusAttempt) : Prop :=
  attempts.length ≤ maximumCount ∧ (attempts.map (·.attemptId)).Nodup ∧
    (attempts.map (·.workId)).Nodup ∧ (attempts.map (·.nonce)).Pairwise (· < ·)

instance (n as) : Decidable (AttemptsAccepted n as) := by unfold AttemptsAccepted; infer_instance

def readAttempts (maximumCount : ℕ) (v : Value) : Option (List DaemonStatusAttempt) := do
  let attempts ← decodeArray readAttempt v
  guard (AttemptsAccepted maximumCount attempts)
  return attempts

def readDaemonStatusAttemptPopulation (v : Value) : Except Failure (List DaemonStatusAttempt) :=
  orThrow INVALID (readAttempts MAX_RETAINED_ATTEMPTS v)

/-- The range of the nonces, which is null for no attempts. -/
def RangeAccepted (retainedCount : ℕ) (details : List DaemonStatusAttempt) :
    Option ℕ → Option ℕ → Prop
  | none, none => retainedCount = 0
  | some lowest, some highest =>
    retainedCount ≠ 0 ∧ lowest ≤ highest ∧ retainedCount ≤ highest - lowest + 1 ∧
      (retainedCount = 1 → lowest = highest) ∧
      ∀ d ∈ details, lowest ≤ d.nonce ∧ d.nonce ≤ highest
  | _, _ => False

instance (n ds l h) : Decidable (RangeAccepted n ds l h) := by
  cases l <;> cases h <;> unfold RangeAccepted <;> infer_instance

def CountsAccepted (s : DaemonStatusAttemptSummary) (details : List DaemonStatusAttempt) : Prop :=
  s.retainedCount ≤ MAX_RETAINED_ATTEMPTS ∧ s.includedCount ≤ s.retainedCount ∧
    s.unresolvedCount ≤ s.retainedCount ∧ s.detailedCount ≤ s.retainedCount ∧
    s.omittedCount ≤ s.retainedCount ∧ s.includedCount = s.retainedCount - s.unresolvedCount ∧
    s.detailedCount = details.length ∧
    s.detailedCount = min s.retainedCount MAX_DAEMON_STATUS_ATTEMPT_DETAILS ∧
    s.omittedCount = s.retainedCount - s.detailedCount

instance (s ds) : Decidable (CountsAccepted s ds) := by unfold CountsAccepted; infer_instance

/-- How the displayed attempts stand for all of them: unresolved ones first, and the ends of
the range where nothing before or after them was left out. -/
def DetailsAccepted (s : DaemonStatusAttemptSummary) (details : List DaemonStatusAttempt) : Prop :=
  let detailedUnresolvedCount := details.countP (!·.isIncluded)
  detailedUnresolvedCount = min s.unresolvedCount s.detailedCount ∧
    details.length - detailedUnresolvedCount ≤ s.includedCount ∧
    (0 < s.retainedCount ∧ (s.omittedCount = 0 ∨ s.unresolvedCount = 0 ∨ s.includedCount = 0) →
      details.head?.map (·.nonce) = s.lowestNonce) ∧
    (0 < s.retainedCount ∧ s.omittedCount = 0 →
      details.getLast?.map (·.nonce) = s.highestNonce)

instance (s ds) : Decidable (DetailsAccepted s ds) := by unfold DetailsAccepted; infer_instance

def SummaryAccepted (s : DaemonStatusAttemptSummary) (details : List DaemonStatusAttempt) : Prop :=
  CountsAccepted s details ∧
    RangeAccepted s.retainedCount details s.lowestNonce s.highestNonce ∧ DetailsAccepted s details

instance (s ds) : Decidable (SummaryAccepted s ds) := by unfold SummaryAccepted; infer_instance

def readAttemptSummary (details : List DaemonStatusAttempt) (v : Value) :
    Option DaemonStatusAttemptSummary := do
  let retainedCount ← (v.field "retainedCount").bind readNonNegativeSafeInteger
  let includedCount ← (v.field "includedCount").bind readNonNegativeSafeInteger
  let unresolvedCount ← (v.field "unresolvedCount").bind readNonNegativeSafeInteger
  let detailedCount ← (v.field "detailedCount").bind readNonNegativeSafeInteger
  let omittedCount ← (v.field "omittedCount").bind readNonNegativeSafeInteger
  let lowestNonce ← (v.field "lowestNonce").bind (decodeNullable readNonce)
  let highestNonce ← (v.field "highestNonce").bind (decodeNullable readNonce)
  let summary : DaemonStatusAttemptSummary :=
    ⟨retainedCount, includedCount, unresolvedCount, lowestNonce, highestNonce, detailedCount,
      omittedCount⟩
  guard (SummaryAccepted summary details)
  return summary

def readCompletedCycle (v : Value) : Option DaemonStatusCompletedCycle := do
  let cycle ← (v.field "cycle").bind readPositiveSafeInteger
  let completedAt ← (v.field "completedAt").bind readTimestampText
  return ⟨cycle, completedAt⟩

def readRetryObservation (v : Value) : Option DaemonStatusRetryObservation := do
  let observedAt ← (v.field "observedAt").bind readTimestampText
  let retryDelayMs ← (v.field "retryDelayMs").bind (decodeNullable readNonNegativeSafeInteger)
  return ⟨observedAt, retryDelayMs⟩

def BlockersAccepted (blockers : List SignerBlocker) : Prop :=
  blockers.length ≤ BLOCKER_PRECEDENCE.length ∧ blockers.Nodup

instance (bs) : Decidable (BlockersAccepted bs) := by unfold BlockersAccepted; infer_instance

def readBlockers (v : Value) : Option (List SignerBlocker) := do
  let blockers ← decodeArray readBlocker v
  guard (BlockersAccepted blockers)
  return blockers

/-- The primary reason is the first of the blockers, or null. -/
def readLastObservedGate (gate : Value) : Option LastObservedGate := do
  let isOpen ← (gate.field "open").bind readBoolean
  let recoveryComplete ← (gate.field "recoveryComplete").bind readBoolean
  let inclusionChecksComplete ← (gate.field "inclusionChecksComplete").bind readBoolean
  let persistenceState ← (gate.field "persistenceState").bind readPersistenceState
  let blockedSince ← (gate.field "blockedSince").bind (decodeNullable readTimestampText)
  let blockers ← (gate.field "blockers").bind readBlockers
  let primaryReason ← (gate.field "primaryReason").bind (decodeNullable readBlocker)
  guard (primaryReason = blockers.head?)
  return ⟨isOpen, primaryReason, blockers, recoveryComplete, inclusionChecksComplete,
    persistenceState, blockedSince⟩

/-- An open gate has nothing that keeps it closed. -/
def GateAccepted (journalInitialized : Bool) (gate : LastObservedGate) : Prop :=
  gate.isOpen = true → gate.blockers = [] ∧ journalInitialized = true ∧
    gate.recoveryComplete = true ∧ gate.inclusionChecksComplete = true ∧
    gate.persistenceState = .idle

instance (b g) : Decidable (GateAccepted b g) := by unfold GateAccepted; infer_instance

/-- The identity of the snapshot is the one that is expected, up to the case of its digits. -/
def checkIdentity (expected : IdentityText) (identity : Value) : Option Unit := do
  let chainId ← (identity.field "chainId").bind decodeNumber
  let signer ← (identity.field "signer").bind decodeString
  guard (chainId = expected.chainId ∧ readFixedHex 20 signer = readFixedHex 20 expected.signer)

def readVersion (v : Value) : Option Unit := do
  let version ← decodeNumber v
  guard (version = 1)

/-- Everything but the RPC usage, which is read last. -/
def readRequiredFields (root : Value) (expected : IdentityText) : Option DaemonStatusSnapshot := do
  let _ ← (root.field "version").bind readVersion
  let _ ← (root.field "identity").bind (checkIdentity expected)
  let runId ← (root.field "runId").bind readUuidText
  let journalInitialized ← (root.field "journalInitialized").bind readBoolean
  let observedAt ← (root.field "observedAt").bind readTimestampText
  let lastCompletedCycle ← (root.field "lastCompletedCycle").bind (decodeNullable readCompletedCycle)
  let lastRetryObservation ←
    (root.field "lastRetryObservation").bind (decodeNullable readRetryObservation)
  let gate ← (root.field "lastObservedGate").bind readLastObservedGate
  guard (GateAccepted journalInitialized gate)
  let attempts ← (root.field "attempts").bind (readAttempts MAX_DAEMON_STATUS_ATTEMPT_DETAILS)
  let attemptSummary ← (root.field "attemptSummary").bind (readAttemptSummary attempts)
  guard (journalInitialized = false → attemptSummary.retainedCount = 0)
  return ⟨expected, runId, observedAt, lastCompletedCycle, lastRetryObservation,
    journalInitialized, attemptSummary, attempts, gate, none⟩

def readDaemonStatusSnapshot (root : Value) (expectedIdentity : IdentityText) :
    Except Failure DaemonStatusSnapshot := do
  requireThat "Invalid journal identity." (captureJournalIdentity expectedIdentity = true)
  let snapshot ← orThrow INVALID (readRequiredFields root expectedIdentity)
  match root.field "rpcUsage" with
  | none => return snapshot
  | some usage => return { snapshot with rpcUsage := some (← RpcUsage.readRpcUsageSnapshot usage) }

/-! The object that the reader returns, as it is printed. -/

def encodeAttempt (a : DaemonStatusAttempt) : Value :=
  .object [(text "attemptId", .string a.attemptId), (text "workId", .string a.workId),
    (text "nonce", encodeBigint a.nonce), (text "phase", encodeLabel AttemptPhase.label a.phase),
    (text "transactionHashes", .array (a.transactionHashes.map .string))]

def encodeAttemptSummary (s : DaemonStatusAttemptSummary) : Value :=
  .object [(text "retainedCount", encodeInteger s.retainedCount),
    (text "includedCount", encodeInteger s.includedCount),
    (text "unresolvedCount", encodeInteger s.unresolvedCount),
    (text "lowestNonce", encodeNullable encodeBigint s.lowestNonce),
    (text "highestNonce", encodeNullable encodeBigint s.highestNonce),
    (text "detailedCount", encodeInteger s.detailedCount),
    (text "omittedCount", encodeInteger s.omittedCount)]

def encodeCompletedCycle (c : DaemonStatusCompletedCycle) : Value :=
  .object [(text "cycle", encodeInteger c.cycle), (text "completedAt", .string c.completedAt)]

def encodeRetryObservation (r : DaemonStatusRetryObservation) : Value :=
  .object [(text "observedAt", .string r.observedAt),
    (text "retryDelayMs", encodeNullable encodeInteger r.retryDelayMs)]

def encodeLastObservedGate (g : LastObservedGate) : Value :=
  .object [(text "open", .bool g.isOpen),
    (text "primaryReason", encodeNullable (encodeLabel SignerBlocker.label) g.primaryReason),
    (text "blockers", .array (g.blockers.map (encodeLabel SignerBlocker.label))),
    (text "recoveryComplete", .bool g.recoveryComplete),
    (text "inclusionChecksComplete", .bool g.inclusionChecksComplete),
    (text "persistenceState", encodeLabel JournalPersistenceState.label g.persistenceState),
    (text "blockedSince", encodeNullable .string g.blockedSince)]

/-- The property that is left out when there is no usage. -/
def encodeRpcFields (usage : Option RpcUsage.RpcUsageSnapshot) : List (Text × Value) :=
  usage.toList.map fun u => (text "rpcUsage", RpcUsage.encodeRpcUsageSnapshot u)

def encodeDaemonStatusSnapshot (s : DaemonStatusSnapshot) : Value :=
  .object ([(text "version", encodeInteger 1), (text "identity", encodeIdentity s.identity),
    (text "runId", .string s.runId), (text "observedAt", .string s.observedAt),
    (text "lastCompletedCycle", encodeNullable encodeCompletedCycle s.lastCompletedCycle),
    (text "lastRetryObservation", encodeNullable encodeRetryObservation s.lastRetryObservation),
    (text "journalInitialized", .bool s.journalInitialized),
    (text "attemptSummary", encodeAttemptSummary s.attemptSummary),
    (text "attempts", .array (s.attempts.map encodeAttempt)),
    (text "lastObservedGate", encodeLastObservedGate s.lastObservedGate)] ++
      encodeRpcFields s.rpcUsage)

/-! The file. -/

def MAX_DAEMON_STATUS_BYTES : ℕ := 16384

/-- `JSON.stringify(snapshot) + '\n'`. -/
def daemonStatusText (s : DaemonStatusSnapshot) : Text :=
  Json.print (encodeDaemonStatusSnapshot s) ++ text "\n"

/-- The contents that `writeDaemonStatusFile` puts in the place of the file. -/
def daemonStatusContents (snapshot : Value) (identity : IdentityText) : Except Failure Text := do
  let snapshot ← readDaemonStatusSnapshot snapshot identity
  if MAX_DAEMON_STATUS_BYTES < Json.utf8Length (daemonStatusText snapshot) then
    throw (.error "Daemon status snapshot exceeds its size limit.")
  return daemonStatusText snapshot

/-- What `readDaemonStatusFile` makes of the contents of the file. -/
def readDaemonStatusContents (contents : Text) (identity : IdentityText) :
    Except Failure DaemonStatusSnapshot := do
  requireThat "Invalid journal identity." (captureJournalIdentity identity = true)
  let failed : Failure := .error "Daemon status file could not be read or validated."
  if MAX_DAEMON_STATUS_BYTES < Json.utf8Length contents then throw failed
  match Json.parse contents with
  | none => throw failed
  | some root =>
    match readDaemonStatusSnapshot root identity with
    | .ok snapshot => return snapshot
    | .error _ => throw failed

end DaemonStatus

end Quicknet
