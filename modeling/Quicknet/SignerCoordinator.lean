import Quicknet.SignerGate
import Quicknet.SignerInclusions

/-! The coordinator of one signer. Its state is what an observer between two
awaits finds: the fields of the source, with `task` for the suspended operation.
Each definition below is one stretch of code between awaits. A stretch that
throws before it changes anything is refused (`none`). Diagnostics, the error
summaries and the log's cycle numbers are left out. -/
namespace Quicknet

open Interaction

/-- Identity of a `PublicClient` object. -/
abbrev Client := ℕ

inductive PendingWrite
  | bootstrap
  | resolution
  | observation
  | searchProgress (exhausted : Bool)
  | prepared
  | broadcast
  deriving DecidableEq, Repr

inductive InspectionHeadBracket
  | none
  | opened (client : Client) (head : BlockAnchor)
  | closed
  | failed
  deriving DecidableEq, Repr

namespace InspectionHeadBracket

def isOpened : InspectionHeadBracket → Bool
  | .opened _ _ => true
  | _ => false

end InspectionHeadBracket

/-- An operation of an inspection handle, with the options it captured. -/
inductive OwnedCall
  | openHead (client : Client) (head : BlockAnchor)
  | recover (anchor : BlockAnchor) (maxBlockRange : ℕ)
  | checkInclusions (client : Client) (head : BlockAnchor) (maxReplacementBlockRange : Option ℕ)
  deriving DecidableEq, Repr

/-- The registered promise of an owner: created, entered, or settled while its
caller has not yet resumed. -/
inductive ActiveOperation
  | queued (call : OwnedCall)
  | running
  | settled (failed : Bool)
  deriving DecidableEq, Repr

structure InspectionOwner where
  generation : ℕ
  activeOperation : Option ActiveOperation
  abandoning : Bool
  hasRunOperation : Bool
  headBracket : InspectionHeadBracket
  deriving DecidableEq, Repr

/-- What a journal write records, with the reads it rests on. `base` is the
committed snapshot that the operation captured. -/
inductive JournalWrite
  | prepared (attempt : JournalAttempt)
  | broadcast (attempt : JournalAttempt)
  | bootstrap (generation : ℕ) (anchor : BlockAnchor) (log : RpcLog)
      (observation : AnchoredNonceObservation)
  | recovery (generation : ℕ) (base : TransactionJournalSnapshot) (anchor : BlockAnchor)
      (maxBlockRange : ℕ) (log : RpcLog) (result : SignerRecoveryInspection)
  | inclusions (generation : ℕ) (base : TransactionJournalSnapshot) (head : BlockAnchor)
      (maxReplacementBlockRange : Option ℕ) (bracketed : Bool) (log : RpcLog)
      (observation : AnchoredNonceObservation) (attempts : List JournalAttempt)
      (inclusionChecksComplete : Bool) (broadcastAttemptId : Option AttemptId)
  | repair (observation : AnchoredNonceObservation)

/-- Who awaits a save: the operation that planned it, or `retryPersistence`. -/
inductive Continuation
  | own (w : JournalWrite)
  | retry

/-- The suspended operation and what it awaits. -/
inductive Task
  | signing (workId : WorkId) (attemptId : AttemptId) (createdAt : Timestamp)
      (accountAddress : Address) (transaction : PreparedRelayerTransaction)
      (previousBlockedSince : Option Timestamp) (previousInclusionChecksComplete : Bool)
  | openingHead (client : Client) (head : BlockAnchor)
  | recovering (anchor : BlockAnchor) (maxBlockRange : ℕ)
  | inspecting (head : BlockAnchor) (maxReplacementBlockRange : Option ℕ) (bracketed : Bool)
  | storing (k : Continuation)
  | saved (k : Continuation)
  | sending

inductive Event
  | begun (generation : ℕ)
  | finished (generation : ℕ)
  | abandoned (generation : ℕ)
  | headFailed (generation : ℕ)
  | write (w : JournalWrite) (next : TransactionJournalSnapshot)
  | acked (snapshot : TransactionJournalSnapshot)
  | loaded (read : Option TransactionJournalSnapshot)
  | completed (w : JournalWrite) (permit : Option AttemptId)
  | retried
  /-- The request `eth_sendRawTransaction` with its payload. -/
  | sent (attempt : JournalAttempt) (payload : Bytes) (blockers : CoordinatorBlockers)

structure SignerCoordinator where
  persistence : JournalPersistence
  maxRetainedAttempts : ℕ
  recoveryComplete : Bool
  inclusionChecksComplete : Bool
  reconciliationObservationActive : Bool
  busy : Bool
  broadcastPermit : Option AttemptId
  inspectionGeneration : ℕ
  inspectionOwner : Option InspectionOwner
  blockedSince : Option Timestamp
  pendingWrite : Option PendingWrite
  committedDurableRecoveryRevision : DurableRecoveryRevision
  blockers : CoordinatorBlockers
  task : Option Task

structure SignerStatus where
  isOpen : Bool
  blockers : List SignerBlocker
  primaryReason : Option SignerBlocker
  recoveryComplete : Bool
  inclusionChecksComplete : Bool
  persistenceState : JournalPersistenceState
  blockedSince : Option Timestamp
  deriving DecidableEq, Repr

namespace TransactionJournalSnapshot

/-- Evidence that something other than the journal's attempts used the key. -/
def showsUnattributedActivity (s : TransactionJournalSnapshot) : Bool :=
  s.nextNonce < s.lastObservation.nonce

/-- The nonce of `a` was consumed by the observed block and every block up to it
has been searched. -/
def SearchExhausted (s : TransactionJournalSnapshot) (a : JournalAttempt) : Prop :=
  a.progress = some s.lastObservation.anchor ∧ a.nonce < s.lastObservation.nonce

instance (s : TransactionJournalSnapshot) (a : JournalAttempt) : Decidable (s.SearchExhausted a) := by
  unfold SearchExhausted
  infer_instance

def showsExhaustedSearch (s : TransactionJournalSnapshot) : Bool :=
  s.firstUnresolved.any fun a => decide (s.SearchExhausted a)

end TransactionJournalSnapshot

/-! Plans: what an operation records, as a function of what it captured. -/

/-- Recorded evidence of other activity outlives a lower observation. -/
def retainObservation (unattributed : Bool) (recorded observed : AnchoredNonceObservation) :
    AnchoredNonceObservation :=
  if unattributed = true ∧ observed.nonce < recorded.nonce then recorded else observed

/-- The recorded search, or one that starts at a block where the nonce was not
consumed. -/
def recoveredSearch (current : TransactionJournalSnapshot) (oldest : JournalAttempt)
    (lastObservation : AnchoredNonceObservation) : Option ReplacementSearch :=
  match oldest.replacementSearch with
  | some search => some search
  | none =>
    if lastObservation.nonce ≤ oldest.nonce then some ⟨lastObservation, none⟩
    else if current.lastObservation.nonce ≤ oldest.nonce then
      some ⟨current.lastObservation, none⟩
    else none

def planResolution (current : TransactionJournalSnapshot)
    (lastObservation : AnchoredNonceObservation) (evidence : AttemptResolutionEvidence) :
    Except Failure (PendingWrite × TransactionJournalSnapshot) :=
  match current.attempts with
  | [] => .error (.error "No recorded attempt is available to resolve.")
  | oldest :: rest => do
    let resolution ← snapshotResolutionEvidence evidence
    assertResolutionTransaction oldest resolution
    return (.resolution, { current with
      lastObservation := lastObservation
      durableNextNonce := oldest.nonce+1
      attempts := rest })

/-- Progress of the search, when a call scanned at least one block. -/
def searchedBlocks : Option ReplacementSearchResult → Option (BlockAnchor × ℕ)
  | some (.notFound searchedThrough scannedBlocks remainingBlocks) =>
    if 0 < scannedBlocks then some (searchedThrough, remainingBlocks) else none
  | _ => none

def planObservation (current : TransactionJournalSnapshot)
    (lastObservation : AnchoredNonceObservation) (search : Option ReplacementSearchResult) :
    Except Failure (PendingWrite × TransactionJournalSnapshot) :=
  match current.attempts with
  | [] => .ok (.observation, { current with lastObservation := lastObservation })
  | oldest :: rest =>
    let recovered := recoveredSearch current oldest lastObservation
    let next (s : Option ReplacementSearch) : TransactionJournalSnapshot :=
      { current with
        lastObservation := lastObservation
        attempts := { oldest with replacementSearch := s } :: rest }
    match searchedBlocks search with
    | none => .ok (.observation, next recovered)
    | some (searchedThrough, remainingBlocks) =>
      match recovered with
      | none => .error (.error "Search progress requires a recorded lower bound.")
      | some s => .ok (.searchProgress (remainingBlocks = 0),
          next (some { s with searchedThrough := some searchedThrough }))

/-- An unresolved result whose search could not run against the chain it saw. -/
def SignerRecoveryInspection.isInconclusive : SignerRecoveryInspection → Bool
  | .anchorChanged _ | .nonceBehindJournal _ | .inconsistentObservations _ => true
  | .unresolved _ _ (some (.boundaryChanged _ _)) => true
  | .unresolved _ _ (some .anchorBehindSearch) => true
  | _ => false

/-- The write of a recovery; `none` when it returns without one. -/
def planRecovery (identity : JournalIdentity) (unattributed : Bool)
    (current : TransactionJournalSnapshot) (result : SignerRecoveryInspection) :
    Except Failure (Option (PendingWrite × TransactionJournalSnapshot)) :=
  if result.isInconclusive then .ok none
  else
    let recorded := current.lastObservation
    let record (plan : Except Failure (PendingWrite × TransactionJournalSnapshot)) :
        Except Failure (Option (PendingWrite × TransactionJournalSnapshot)) := do
      let (kind, next) ← plan
      let validated ← validateJournalSnapshotStructure next identity
      return some (kind, validated)
    match result with
    | .resolutionAvailable observation evidence =>
      record (planResolution current (retainObservation unattributed recorded observation) evidence)
    | .noAttempt observation =>
      if unattributed = true ∧ observation.nonce < recorded.nonce then .ok none
      else record (planObservation current observation none)
    | .unresolved observation _ search =>
      if unattributed = true ∧ observation.nonce < recorded.nonce then .ok none
      else record (planObservation current observation search)
    | _ => .ok none

def recoveryPermit (blockers : CoordinatorBlockers) (base : TransactionJournalSnapshot)
    (result : SignerRecoveryInspection) : Option AttemptId :=
  match result, base.attempts with
  | .unresolved observation receipt none, inspected :: _ =>
    if inspected.phase.isIncluded = false ∧ observation.nonce = inspected.nonce ∧
        blockers.isEmpty = true ∧ receipt.isAbsent = true then some inspected.attemptId
    else none
  | _, _ => none

/-- An inclusion pass inside an open bracket ends with the bracket's own check. -/
def inspectInclusionsOwned (snapshot : TransactionJournalSnapshot) (head : BlockAnchor)
    (maxReplacementBlockRange : Option ℕ) (bracketed : Bool) : Rpc SignerInclusionInspection := do
  match ← inspectSignerInclusionsInternal snapshot head maxReplacementBlockRange (!bracketed) with
  | .inspected observation attempts complete broadcast =>
    match ← (if bracketed then checkBlockAnchor head else return none) with
    | some observed => return .anchorChanged observed
    | none => return .inspected observation attempts complete broadcast
  | result => return result

def planInclusions (identity : JournalIdentity) (unattributed : Bool)
    (current : TransactionJournalSnapshot) (observation : AnchoredNonceObservation)
    (attempts : List JournalAttempt) : Except Failure TransactionJournalSnapshot :=
  validateJournalSnapshotStructure
    { current with
      lastObservation := retainObservation unattributed current.lastObservation observation
      attempts := attempts }
    identity

def bootstrapSnapshot (identity : JournalIdentity) (observation : AnchoredNonceObservation) :
    TransactionJournalSnapshot :=
  { identity := identity
    baseline := observation
    lastObservation := observation
    nextNonce := observation.nonce
    durableNextNonce := observation.nonce
    repairs := []
    attempts := [] }

def preparedAttempt (current : TransactionJournalSnapshot) (attemptId : AttemptId)
    (workId : WorkId) (createdAt : Timestamp) (signed : JournalSignedTransaction) :
    JournalAttempt :=
  { attemptId := attemptId
    workId := workId
    nonce := current.nextNonce
    createdAt := createdAt
    signedTransactions := ⟨signed, []⟩
    replacementSearch := some ⟨current.lastObservation, none⟩
    phase := .signed }

def preparedSnapshot (current : TransactionJournalSnapshot) (attempt : JournalAttempt) :
    TransactionJournalSnapshot :=
  { current with
    nextNonce := current.nextNonce+1
    attempts := current.attempts ++ [attempt] }

/-- Marks the oldest attempt that is not included. -/
def markBroadcast : List JournalAttempt → List JournalAttempt
  | [] => []
  | a :: rest =>
    if a.phase.isIncluded then a :: markBroadcast rest
    else { a with phase := .broadcastMayHaveOccurred } :: rest

namespace SignerCoordinator

def status (c : SignerCoordinator) : SignerStatus :=
  let gate := evaluateSignerGate c.persistence c.recoveryComplete c.inclusionChecksComplete
    c.maxRetainedAttempts c.blockers
  { isOpen := gate.isOpen && !c.busy && c.inspectionOwner.isNone
    blockers := gate.blockers
    primaryReason := gate.primaryReason
    recoveryComplete := c.recoveryComplete
    inclusionChecksComplete := c.inclusionChecksComplete
    persistenceState := c.persistence.state
    blockedSince := c.blockedSince }

/-- The oldest attempt that is not included has the permission to be sent. -/
def canBroadcast (c : SignerCoordinator) : Bool :=
  !c.busy && c.pendingWrite.isNone && c.inspectionOwner.isNone &&
    c.persistence.state == .idle &&
    match c.persistence.current with
    | none => false
    | some s =>
      match s.firstUnresolved with
      | none => false
      | some attempt =>
        c.recoveryComplete && c.broadcastPermit == some attempt.attemptId &&
          c.blockers.isEmpty && s.lastObservation.nonce == attempt.nonce

/-- The start of the blocked episode after a refresh. -/
def refreshedSince (now : Timestamp) (c : SignerCoordinator) : Option Timestamp :=
  if c.reconciliationObservationActive then c.blockedSince
  else if c.status.isOpen then none
  else if c.status.blockers = [] then c.blockedSince
  else c.blockedSince.orElse fun _ => some now

/-- Of what `refresh` publishes only the start of the blocked episode is kept. -/
def refresh (now : Timestamp) (c : SignerCoordinator) : SignerCoordinator :=
  { c with blockedSince := c.refreshedSince now }

def latchUnattributedActivity (c : SignerCoordinator) : SignerCoordinator :=
  { c with blockers := { c.blockers with
      unattributedSignerActivity := c.blockers.unattributedSignerActivity ||
        c.persistence.current.any (·.showsUnattributedActivity) } }

def latchExhaustedSearch (c : SignerCoordinator) : SignerCoordinator :=
  { c with blockers := { c.blockers with
      conflictSearchExhausted := c.blockers.conflictSearchExhausted ||
        c.persistence.current.any (·.showsExhaustedSearch) } }

def updateDurableRecoveryRevision (c : SignerCoordinator) : SignerCoordinator :=
  { c with committedDurableRecoveryRevision :=
      durableRecoveryRevision c.persistence.current c.blockers }

/-- What a finished write does to the blockers before they are derived again. -/
def applyPendingWrite (pending : Option PendingWrite) (b : CoordinatorBlockers) :
    CoordinatorBlockers :=
  match pending with
  | some .resolution => { b with conflictSearchExhausted := false }
  | some (.searchProgress exhausted) => { b with conflictSearchExhausted := exhausted }
  | _ => b

def finishWrite (now : Timestamp) (c : SignerCoordinator) : SignerCoordinator :=
  { c with
    blockers := applyPendingWrite c.pendingWrite c.blockers
    pendingWrite := none
    busy := false }
  |>.latchUnattributedActivity |>.latchExhaustedSearch |>.updateDurableRecoveryRevision
  |>.refresh now

def revokeActionAuthorization (c : SignerCoordinator) : SignerCoordinator :=
  { c with broadcastPermit := none, inclusionChecksComplete := false }

/-! Guards. -/

/-- `assertAvailable` without an owner. -/
def assertAvailable (c : SignerCoordinator) : Bool := c.inspectionOwner.isNone && !c.busy

def noPendingWrite (c : SignerCoordinator) : Bool :=
  c.pendingWrite.isNone && c.persistence.state == .idle

/-- `assertInspectionWorkAllowed`: the owner is current, is not being abandoned,
and its bracket can still be used. -/
def assertInspectionWorkAllowed (c : SignerCoordinator) (owner : InspectionOwner) : Bool :=
  !owner.abandoning && !c.busy && owner.headBracket != .failed && owner.headBracket != .closed

/-- The owner that a handle of this generation refers to, when it is current. -/
def owned (c : SignerCoordinator) (generation : ℕ) : Option InspectionOwner :=
  c.inspectionOwner.filter fun o => o.generation == generation

def updateOwner (f : InspectionOwner → InspectionOwner) (c : SignerCoordinator) :
    SignerCoordinator :=
  { c with inspectionOwner := c.inspectionOwner.map f }

def setBracket (bracket : InspectionHeadBracket) (c : SignerCoordinator) : SignerCoordinator :=
  c.updateOwner fun o => { o with headBracket := bracket }

def setActive (active : Option ActiveOperation) (c : SignerCoordinator) : SignerCoordinator :=
  c.updateOwner fun o => { o with activeOperation := active }

/-- The `finally` of an operation that held `busy`. -/
def release (now : Timestamp) (c : SignerCoordinator) : SignerCoordinator :=
  { c with busy := false, task := none }.refresh now

/-- The same, inside an inspection, whose promise settles. -/
def settle (now : Timestamp) (failed : Bool) (c : SignerCoordinator) : SignerCoordinator :=
  (c.release now).setActive (some (.settled failed))

/-- The blockers after a write was applied. -/
def derivedBlockers (c : SignerCoordinator) : CoordinatorBlockers :=
  let b := applyPendingWrite c.pendingWrite c.blockers
  ⟨b.unattributedSignerActivity || c.persistence.current.any (·.showsUnattributedActivity),
    b.conflictSearchExhausted || c.persistence.current.any (·.showsExhaustedSearch)⟩

section Fields

variable (now : Timestamp) (failed : Bool) (c : SignerCoordinator)

@[simp] theorem refresh_persistence : (c.refresh now).persistence = c.persistence := rfl
@[simp] theorem refresh_pendingWrite : (c.refresh now).pendingWrite = c.pendingWrite := rfl
@[simp] theorem refresh_busy : (c.refresh now).busy = c.busy := rfl
@[simp] theorem refresh_task : (c.refresh now).task = c.task := rfl
@[simp] theorem refresh_blockers : (c.refresh now).blockers = c.blockers := rfl
@[simp] theorem refresh_inspectionOwner : (c.refresh now).inspectionOwner = c.inspectionOwner := rfl
@[simp] theorem refresh_broadcastPermit : (c.refresh now).broadcastPermit = c.broadcastPermit := rfl
@[simp] theorem refresh_recoveryComplete : (c.refresh now).recoveryComplete = c.recoveryComplete :=
  rfl
@[simp] theorem refresh_inclusionChecksComplete :
    (c.refresh now).inclusionChecksComplete = c.inclusionChecksComplete := rfl
@[simp] theorem refresh_inspectionGeneration :
    (c.refresh now).inspectionGeneration = c.inspectionGeneration := rfl

@[simp] theorem release_persistence : (c.release now).persistence = c.persistence := rfl
@[simp] theorem release_pendingWrite : (c.release now).pendingWrite = c.pendingWrite := rfl
@[simp] theorem release_busy : (c.release now).busy = false := rfl
@[simp] theorem release_task : (c.release now).task = none := rfl
@[simp] theorem release_blockers : (c.release now).blockers = c.blockers := rfl
@[simp] theorem release_inspectionOwner : (c.release now).inspectionOwner = c.inspectionOwner := rfl
@[simp] theorem release_broadcastPermit : (c.release now).broadcastPermit = c.broadcastPermit := rfl
@[simp] theorem release_recoveryComplete : (c.release now).recoveryComplete = c.recoveryComplete :=
  rfl
@[simp] theorem release_inclusionChecksComplete :
    (c.release now).inclusionChecksComplete = c.inclusionChecksComplete := rfl
@[simp] theorem release_inspectionGeneration :
    (c.release now).inspectionGeneration = c.inspectionGeneration := rfl

@[simp] theorem settle_persistence : (c.settle now failed).persistence = c.persistence := rfl
@[simp] theorem settle_pendingWrite : (c.settle now failed).pendingWrite = c.pendingWrite := rfl
@[simp] theorem settle_busy : (c.settle now failed).busy = false := rfl
@[simp] theorem settle_task : (c.settle now failed).task = none := rfl
@[simp] theorem settle_blockers : (c.settle now failed).blockers = c.blockers := rfl
@[simp] theorem settle_inspectionOwner : (c.settle now failed).inspectionOwner =
    c.inspectionOwner.map fun o => { o with activeOperation := some (.settled failed) } := rfl
@[simp] theorem settle_broadcastPermit :
    (c.settle now failed).broadcastPermit = c.broadcastPermit := rfl
@[simp] theorem settle_recoveryComplete :
    (c.settle now failed).recoveryComplete = c.recoveryComplete := rfl
@[simp] theorem settle_inclusionChecksComplete :
    (c.settle now failed).inclusionChecksComplete = c.inclusionChecksComplete := rfl
@[simp] theorem settle_inspectionGeneration :
    (c.settle now failed).inspectionGeneration = c.inspectionGeneration := rfl

@[simp] theorem setBracket_persistence (bracket : InspectionHeadBracket) :
    (c.setBracket bracket).persistence = c.persistence := rfl
@[simp] theorem setBracket_pendingWrite (bracket : InspectionHeadBracket) :
    (c.setBracket bracket).pendingWrite = c.pendingWrite := rfl
@[simp] theorem setBracket_blockers (bracket : InspectionHeadBracket) :
    (c.setBracket bracket).blockers = c.blockers := rfl
@[simp] theorem setBracket_broadcastPermit (bracket : InspectionHeadBracket) :
    (c.setBracket bracket).broadcastPermit = c.broadcastPermit := rfl
@[simp] theorem setBracket_recoveryComplete (bracket : InspectionHeadBracket) :
    (c.setBracket bracket).recoveryComplete = c.recoveryComplete := rfl
@[simp] theorem setBracket_inclusionChecksComplete (bracket : InspectionHeadBracket) :
    (c.setBracket bracket).inclusionChecksComplete = c.inclusionChecksComplete := rfl
@[simp] theorem setBracket_inspectionGeneration (bracket : InspectionHeadBracket) :
    (c.setBracket bracket).inspectionGeneration = c.inspectionGeneration := rfl
@[simp] theorem setBracket_inspectionOwner (bracket : InspectionHeadBracket) :
    (c.setBracket bracket).inspectionOwner =
      c.inspectionOwner.map fun o => { o with headBracket := bracket } := rfl

@[simp] theorem finishWrite_persistence : (c.finishWrite now).persistence = c.persistence := rfl
@[simp] theorem finishWrite_pendingWrite : (c.finishWrite now).pendingWrite = none := rfl
@[simp] theorem finishWrite_busy : (c.finishWrite now).busy = false := rfl
@[simp] theorem finishWrite_task : (c.finishWrite now).task = c.task := rfl
@[simp] theorem finishWrite_blockers : (c.finishWrite now).blockers = c.derivedBlockers := rfl
@[simp] theorem finishWrite_inspectionOwner :
    (c.finishWrite now).inspectionOwner = c.inspectionOwner := rfl
@[simp] theorem finishWrite_broadcastPermit :
    (c.finishWrite now).broadcastPermit = c.broadcastPermit := rfl
@[simp] theorem finishWrite_recoveryComplete :
    (c.finishWrite now).recoveryComplete = c.recoveryComplete := rfl
@[simp] theorem finishWrite_inclusionChecksComplete :
    (c.finishWrite now).inclusionChecksComplete = c.inclusionChecksComplete := rfl
@[simp] theorem finishWrite_inspectionGeneration :
    (c.finishWrite now).inspectionGeneration = c.inspectionGeneration := rfl

end Fields

/-! Construction. -/

def create (lib : TransactionLibrary) (identity : JournalIdentity) (maxRetainedAttempts : ℕ)
    (initial : Option TransactionJournalSnapshot) (now : Timestamp) :
    Except Failure SignerCoordinator :=
  if 0 < maxRetainedAttempts ∧ maxRetainedAttempts ≤ MAX_SAFE_INTEGER then do
    let persistence ← JournalPersistence.create lib identity initial
    let c : SignerCoordinator :=
      { persistence := persistence
        maxRetainedAttempts := maxRetainedAttempts
        recoveryComplete := false
        inclusionChecksComplete := false
        reconciliationObservationActive := false
        busy := false
        broadcastPermit := none
        inspectionGeneration := 0
        inspectionOwner := none
        blockedSince := (persistence.current.bind (·.attempts.head?)).map (·.createdAt)
        pendingWrite := none
        committedDurableRecoveryRevision := .missing ⟨false, false⟩
        blockers := ⟨false, false⟩
        task := none }
    return c.latchUnattributedActivity.latchExhaustedSearch.refresh now
      |>.updateDurableRecoveryRevision
  else .error (.typeError "Invalid retained attempt capacity.")

/-! Inspections. -/

def beginInspection (c : SignerCoordinator) : Option (SignerCoordinator × Option Event) :=
  if c.assertAvailable && c.noPendingWrite then
    let generation := c.inspectionGeneration+1
    let owner : InspectionOwner := ⟨generation, none, false, false, .none⟩
    some ({ c with
        inspectionGeneration := generation
        inspectionOwner := some owner }.revokeActionAuthorization, some (.begun generation))
  else none

/-- A call on a handle registers its promise; the operation starts later. -/
def callOwned (generation : ℕ) (call : OwnedCall) (c : SignerCoordinator) :
    Option (SignerCoordinator × Option Event) :=
  (c.owned generation).bind fun owner =>
    if c.assertInspectionWorkAllowed owner && owner.activeOperation.isNone then
      some (c.setActive (some (.queued call)), none)
    else none

def startOpenHead (owner : InspectionOwner) (client : Client) (head : BlockAnchor)
    (c : SignerCoordinator) : SignerCoordinator × Option Event :=
  if owner.hasRunOperation ∨ owner.headBracket ≠ .none then
    (c.setActive (some (.settled true)), none)
  else
    -- Until opening succeeds, this inspection may only be abandoned.
    let c := c.setBracket .failed
    if head.blockNumber ≤ MAX_UINT256 then
      ({ c with task := some (.openingHead client head) }.setActive (some .running), none)
    else (c.setActive (some (.settled true)), some (.headFailed owner.generation))

def startRecover (anchor : BlockAnchor) (maxBlockRange : ℕ) (c : SignerCoordinator) :
    SignerCoordinator :=
  let c := c.updateOwner fun o => { o with hasRunOperation := true }
  if (0 < maxBlockRange ∧ maxBlockRange ≤ MAX_UINT256) ∧ c.noPendingWrite = true then
    { c with
      broadcastPermit := none
      busy := true
      recoveryComplete := false
      inclusionChecksComplete := false
      task := some (.recovering anchor maxBlockRange) }.setActive (some .running)
  else c.setActive (some (.settled true))

def startCheckInclusions (now : Timestamp) (owner : InspectionOwner) (client : Client)
    (head : BlockAnchor) (maxReplacementBlockRange : Option ℕ) (c : SignerCoordinator) :
    SignerCoordinator :=
  let c := c.updateOwner fun o => { o with hasRunOperation := true }
  if c.noPendingWrite = true ∧ c.persistence.current.isSome = true then
    let c := { c with broadcastPermit := none, inclusionChecksComplete := false, busy := true }
    let inspect (bracketed : Bool) : SignerCoordinator :=
      { c with task := some (.inspecting head maxReplacementBlockRange bracketed) }.setActive
        (some .running)
    match owner.headBracket with
    | .opened bracketClient bracketHead =>
      if client = bracketClient ∧ blockAnchorsMatch head bracketHead = true then inspect true
      else c.settle now true
    | _ => inspect false
  else c.setActive (some (.settled true))

/-- The registered operation is entered, unless its inspection was abandoned. -/
def startOperation (now : Timestamp) (c : SignerCoordinator) :
    Option (SignerCoordinator × Option Event) :=
  c.inspectionOwner.bind fun owner =>
    match owner.activeOperation with
    | some (.queued call) =>
      if c.assertInspectionWorkAllowed owner then
        match call with
        | .openHead client head => some (c.startOpenHead owner client head)
        | .recover anchor range => some (c.startRecover anchor range, none)
        | .checkInclusions client head range =>
          some (c.startCheckInclusions now owner client head range, none)
      else some (c.setActive (some (.settled true)), none)
    | _ => none

/-- The caller of the operation resumes: a failure inside an open bracket fails
the bracket. -/
def settleOperation (c : SignerCoordinator) : Option (SignerCoordinator × Option Event) :=
  c.inspectionOwner.bind fun owner =>
    match owner.activeOperation with
    | some (.settled failed) =>
      let c := c.setActive none
      if failed && owner.headBracket.isOpened then
        some ((c.setBracket .failed).revokeActionAuthorization,
          some (.headFailed owner.generation))
      else some (c, none)
    | _ => none

def finishInspection (now : Timestamp) (generation : ℕ) (c : SignerCoordinator) :
    Option (SignerCoordinator × Option Event) :=
  (c.owned generation).bind fun owner =>
    if !owner.abandoning && owner.activeOperation.isNone && !c.busy &&
        !owner.headBracket.isOpened && owner.headBracket != .failed && c.noPendingWrite then
      some ({ c with inspectionOwner := none }.refresh now, some (.finished generation))
    else none

def abandonInspection (generation : ℕ) (c : SignerCoordinator) :
    Option (SignerCoordinator × Option Event) :=
  (c.owned generation).bind fun owner =>
    if owner.abandoning then none
    else some ((c.updateOwner fun o => { o with abandoning := true }).revokeActionAuthorization,
      some (.abandoned generation))

/-- The promise that abandonment awaited has settled, and its caller resumed. -/
def completeAbandonment (now : Timestamp) (c : SignerCoordinator) :
    Option (SignerCoordinator × Option Event) :=
  c.inspectionOwner.bind fun owner =>
    if owner.abandoning && owner.activeOperation.isNone then
      some ({ c.revokeActionAuthorization with inspectionOwner := none }.refresh now, none)
    else none

/-! Writes. -/

section Writes

variable (lib : TransactionLibrary) (identity : JournalIdentity)

/-- Starts the save of `next`; `none` when the snapshot does not verify. -/
def beginWrite (w : JournalWrite) (kind : PendingWrite) (next : TransactionJournalSnapshot)
    (c : SignerCoordinator) : Option (SignerCoordinator × Option Event) :=
  match c.persistence.save lib identity next with
  | .ok p => some ({ c with
      pendingWrite := some kind
      persistence := p
      task := some (.storing (.own w)) }, some (.write w next))
  | .error _ => none

/-- The `catch` of a recovery whose persistence is idle. -/
def recoverFailed (now : Timestamp) (c : SignerCoordinator) : SignerCoordinator × Option Event :=
  ({ c with recoveryComplete := false, pendingWrite := none }.settle now true, none)

/-- The `catch` of an inclusion pass whose persistence is idle. -/
def checkInclusionsFailed (now : Timestamp) (c : SignerCoordinator) :
    SignerCoordinator × Option Event :=
  ({ c with inclusionChecksComplete := false, pendingWrite := none }.settle now true, none)

def readBootstrapObservation (blockers : CoordinatorBlockers) (anchor : BlockAnchor) :
    Rpc SignerBootstrapDecision :=
  if blockers.isEmpty then inspectSignerBootstrap identity.signer anchor
  else .throw (.error "Cannot bootstrap while coordinator blockers remain.")

def recoverMissing (now : Timestamp) (generation : ℕ) (anchor : BlockAnchor) (log : RpcLog)
    (c : SignerCoordinator) (out : Except Failure SignerBootstrapDecision) :
    SignerCoordinator × Option Event :=
  match out with
  | .error _ => c.recoverFailed now
  | .ok (.ready observation) =>
    (c.beginWrite lib identity (.bootstrap generation anchor log observation) .bootstrap
      (bootstrapSnapshot identity observation)).getD (c.recoverFailed now)
  | .ok _ => (c.settle now false, none)

def recoverPresent (now : Timestamp) (generation : ℕ) (current : TransactionJournalSnapshot)
    (anchor : BlockAnchor) (maxBlockRange : ℕ) (log : RpcLog) (c : SignerCoordinator)
    (out : Except Failure SignerRecoveryInspection) : SignerCoordinator × Option Event :=
  match out with
  | .error _ => c.recoverFailed now
  | .ok result =>
    match planRecovery identity c.blockers.unattributedSignerActivity current result with
    | .error _ => c.recoverFailed now
    | .ok none => (c.settle now false, none)
    | .ok (some (kind, next)) =>
      (c.beginWrite lib identity
        (.recovery generation current anchor maxBlockRange log result) kind next).getD
        (c.recoverFailed now)

/-- A pass that did not reach its result: an open bracket fails, and evidence
against the journal ends recovery. -/
def inclusionsNotInspected (now : Timestamp) (owner : InspectionOwner) (bracketed : Bool)
    (result : SignerInclusionInspection) (c : SignerCoordinator) :
    SignerCoordinator × Option Event :=
  let behind := match result with
    | .nonceBehindJournal _ | .inconsistentObservations _ => true
    | _ => false
  let c := { c with recoveryComplete := c.recoveryComplete && !behind }
  if bracketed then
    (((c.setBracket .failed).revokeActionAuthorization).settle now false,
      some (.headFailed owner.generation))
  else (c.settle now false, none)

def inclusionsAnswered (now : Timestamp) (owner : InspectionOwner)
    (current : TransactionJournalSnapshot) (head : BlockAnchor) (range : Option ℕ)
    (bracketed : Bool) (log : RpcLog) (c : SignerCoordinator)
    (out : Except Failure SignerInclusionInspection) : SignerCoordinator × Option Event :=
  match out with
  | .error _ => c.checkInclusionsFailed now
  | .ok (.inspected observation attempts complete broadcast) =>
    match planInclusions identity c.blockers.unattributedSignerActivity current observation
        attempts with
    | .error _ => c.checkInclusionsFailed now
    | .ok next =>
      (c.beginWrite lib identity (.inclusions owner.generation current head range bracketed log
        observation attempts complete broadcast) .observation next).getD
        (c.checkInclusionsFailed now)
  | .ok result => c.inclusionsNotInspected now owner bracketed result

def headAnswered (owner : InspectionOwner) (client : Client) (head : BlockAnchor)
    (c : SignerCoordinator) (out : Except Failure (Option BlockAnchor)) :
    SignerCoordinator × Option Event :=
  let c := { c with task := none }
  match out with
  | .ok none => ((c.setBracket (.opened client head)).setActive (some (.settled false)), none)
  | .ok (some _) =>
    (c.setActive (some (.settled false)), some (.headFailed owner.generation))
  | .error _ => (c.setActive (some (.settled true)), some (.headFailed owner.generation))

/-- The reads of an operation were answered as the log says; `none` when the
log is not one of the operation's. -/
def answered (now : Timestamp) (log : RpcLog) (c : SignerCoordinator) :
    Option (SignerCoordinator × Option Event) :=
  c.inspectionOwner.bind fun owner =>
    match c.task with
    | some (.openingHead client head) =>
      ((checkBlockAnchor head).replay log).map (c.headAnswered owner client head)
    | some (.recovering anchor range) =>
      match c.persistence.current with
      | none => ((readBootstrapObservation identity c.blockers anchor).replay log).map
          (c.recoverMissing lib identity now owner.generation anchor log)
      | some current => ((inspectSignerRecovery current anchor range).replay log).map
          (c.recoverPresent lib identity now owner.generation current anchor range log)
    | some (.inspecting head range bracketed) =>
      c.persistence.current.bind fun current =>
        ((inspectInclusionsOwned current head range bracketed).replay log).map
          (c.inclusionsAnswered lib identity now owner current head range bracketed log)
    | _ => none

/-- `already-retained` changes nothing and is refused here too. -/
def prepareAttempt (now : Timestamp) (workId : WorkId) (attemptId : AttemptId)
    (accountAddress : Address) (transaction : PreparedRelayerTransaction)
    (c : SignerCoordinator) : Option (SignerCoordinator × Option Event) :=
  if c.assertAvailable && c.noPendingWrite && c.status.isOpen && isWorkId workId then
    c.persistence.current.bind fun current =>
      if current.attempts.any fun a => a.workId == workId then none
      else some ({ c with
        broadcastPermit := none
        busy := true
        task := some (.signing workId attemptId now accountAddress transaction
          c.blockedSince c.inclusionChecksComplete) }, none)
  else none

/-- The `catch` of a preparation whose persistence is idle. -/
def prepareFailed (now : Timestamp) (previousBlockedSince : Option Timestamp)
    (previousInclusionChecksComplete : Bool) (c : SignerCoordinator) :
    SignerCoordinator × Option Event :=
  ({ c with
      pendingWrite := none
      blockedSince := previousBlockedSince
      inclusionChecksComplete := previousInclusionChecksComplete }.release now, none)

/-- The account answered. `summaryCreated` is whether `createErrorSummary`
returned. -/
def signed (now : Timestamp) (answer : Option Bytes) (summaryCreated : Bool)
    (c : SignerCoordinator) : Option (SignerCoordinator × Option Event) :=
  match c.task, c.persistence.current with
  | some (.signing workId attemptId createdAt accountAddress transaction
      previousBlockedSince previousInclusionChecksComplete), some current =>
    let failed := c.prepareFailed now previousBlockedSince previousInclusionChecksComplete
    match signPreparedTransaction lib identity current.nextNonce accountAddress transaction
        answer with
    | .error _ => some failed
    | .ok signed =>
      let attempt := preparedAttempt current attemptId workId createdAt signed
      match validateJournalSnapshotStructure (preparedSnapshot current attempt) identity with
      | .error _ => some failed
      | .ok next =>
        if summaryCreated then
          let c := { c with
            blockedSince := c.blockedSince.orElse fun _ => some createdAt
            inclusionChecksComplete := false }
          some ((c.beginWrite lib identity (.prepared attempt) .prepared next).getD failed)
        else some failed
  | _, _ => none

def send (attempt : JournalAttempt) (c : SignerCoordinator) : SignerCoordinator × Option Event :=
  ({ c with task := some .sending },
    some (.sent attempt attempt.signedTransactions.latest.signedTransaction c.blockers))

def broadcastAttempt (now : Timestamp) (attemptId : AttemptId) (c : SignerCoordinator) :
    Option (SignerCoordinator × Option Event) :=
  if c.assertAvailable && c.noPendingWrite then
    c.persistence.current.bind fun current =>
      current.firstUnresolved.bind fun attempt =>
        if attempt.attemptId = attemptId ∧ c.canBroadcast = true then
          let c := { c with
            broadcastPermit := none
            recoveryComplete := false
            inclusionChecksComplete := false
            busy := true }
          match attempt.phase with
          | .signed => some ((c.beginWrite lib identity (.broadcast attempt) .broadcast
              { current with attempts := markBroadcast current.attempts }).getD
              ({ c with pendingWrite := none }.release now, none))
          | _ => some (c.send attempt)
        else none
  else none

/-- The request settled, whatever it returned. -/
def sendSettled (now : Timestamp) (c : SignerCoordinator) :
    Option (SignerCoordinator × Option Event) :=
  match c.task with
  | some .sending => some (c.release now, none)
  | _ => none

def retryPersistence (c : SignerCoordinator) : Option (SignerCoordinator × Option Event) :=
  if c.assertAvailable && c.pendingWrite.isSome then
    match c.persistence.retry with
    | .ok p => some ({ c with busy := true, persistence := p, task := some (.storing .retry) }, none)
    | .error _ => none
  else none

/-- The store acknowledged the save. -/
def stored (c : SignerCoordinator) : Option (SignerCoordinator × Option Event) :=
  match c.task, c.persistence.pending with
  | some (.storing k), some s =>
    some ({ c with persistence := c.persistence.acknowledged, task := some (.saved k) },
      some (.acked s))
  | _, _ => none

/-- The store's save rejected: the `catch` of the operation that awaits it. -/
def storeFailed (now : Timestamp) (c : SignerCoordinator) :
    Option (SignerCoordinator × Option Event) :=
  let c' := { c with persistence := c.persistence.failed }
  match c.task with
  | some (.storing .retry) => some (c'.release now, none)
  | some (.storing (.own (.prepared _))) =>
    some ({ c' with recoveryComplete := false, inclusionChecksComplete := false }.release now, none)
  | some (.storing (.own (.broadcast _))) => some (c'.release now, none)
  | some (.storing (.own (.bootstrap _ _ _ _))) =>
    some ({ c' with recoveryComplete := false }.settle now true, none)
  | some (.storing (.own (.recovery _ _ _ _ _ _))) =>
    some ({ c' with recoveryComplete := false }.settle now true, none)
  | some (.storing (.own (.inclusions _ _ _ _ _ _ _ _ _ _))) =>
    some ({ c' with inclusionChecksComplete := false }.settle now true, none)
  | _ => none

def inclusionPermit (c : SignerCoordinator) (broadcastAttemptId : Option AttemptId) :
    Option AttemptId :=
  if c.recoveryComplete = true ∧ c.blockers.isEmpty = true then
    c.persistence.current.bind fun next =>
      next.firstUnresolved.bind fun attempt =>
        if broadcastAttemptId = some attempt.attemptId ∧
            next.lastObservation.nonce = attempt.nonce then some attempt.attemptId
        else none
  else none

/-- Installs a permission, when one was issued. -/
def permit (id : Option AttemptId) (c : SignerCoordinator) : SignerCoordinator :=
  { c with broadcastPermit := id.orElse fun _ => c.broadcastPermit }

section Permit

variable (id : Option AttemptId) (c : SignerCoordinator)

@[simp] theorem permit_persistence : (c.permit id).persistence = c.persistence := rfl
@[simp] theorem permit_pendingWrite : (c.permit id).pendingWrite = c.pendingWrite := rfl
@[simp] theorem permit_busy : (c.permit id).busy = c.busy := rfl
@[simp] theorem permit_task : (c.permit id).task = c.task := rfl
@[simp] theorem permit_blockers : (c.permit id).blockers = c.blockers := rfl
@[simp] theorem permit_inspectionOwner : (c.permit id).inspectionOwner = c.inspectionOwner := rfl
@[simp] theorem permit_broadcastPermit :
    (c.permit id).broadcastPermit = id.orElse fun _ => c.broadcastPermit := rfl
@[simp] theorem permit_recoveryComplete :
    (c.permit id).recoveryComplete = c.recoveryComplete := rfl
@[simp] theorem permit_inclusionChecksComplete :
    (c.permit id).inclusionChecksComplete = c.inclusionChecksComplete := rfl
@[simp] theorem permit_inspectionGeneration :
    (c.permit id).inspectionGeneration = c.inspectionGeneration := rfl

end Permit

/-- The operation resumes after its save was acknowledged. -/
def resumeOwn (now : Timestamp) (w : JournalWrite) (c : SignerCoordinator) :
    Option (SignerCoordinator × Option Event) :=
  match w with
  | .prepared attempt =>
    some (((c.finishWrite now).permit (some attempt.attemptId)).release now,
      some (.completed w (some attempt.attemptId)))
  | .broadcast attempt => some ({ c with pendingWrite := none }.send attempt)
  | .bootstrap _ _ _ _ =>
    some (({ c with recoveryComplete := true }.finishWrite now).settle now false,
      some (.completed w none))
  | .recovery _ base _ _ _ result =>
    let c := { c with recoveryComplete := true }.finishWrite now
    let id := recoveryPermit c.blockers base result
    some ((c.permit id).settle now false, some (.completed w id))
  | .inclusions _ _ _ _ bracketed _ _ _ complete broadcast =>
    let c := { c with inclusionChecksComplete := complete }.finishWrite now
    let id := c.inclusionPermit broadcast
    let c := c.permit id
    let c := if bracketed then c.setBracket .closed else c
    some (c.settle now false, some (.completed w id))
  | .repair _ => none

def resume (now : Timestamp) (c : SignerCoordinator) :
    Option (SignerCoordinator × Option Event) :=
  match c.task with
  | some (.saved (.own w)) => c.resumeOwn now w
  | some (.saved .retry) => some ({ c with task := none }.finishWrite now, some .retried)
  | _ => none

def beginObservation (c : SignerCoordinator) : Option (SignerCoordinator × Option Event) :=
  if !c.reconciliationObservationActive && c.assertAvailable then
    some ({ c with reconciliationObservationActive := true }, none)
  else none

def endObservation (now : Timestamp) (c : SignerCoordinator) :
    Option (SignerCoordinator × Option Event) :=
  if c.reconciliationObservationActive then
    some ({ c with reconciliationObservationActive := false }.refresh now, none)
  else none

end Writes

end SignerCoordinator

end Quicknet
