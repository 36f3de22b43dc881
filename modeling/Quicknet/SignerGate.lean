import Quicknet.JournalVerification

/-! Persistence of the journal, the gate computed from it, and the revision of
its committed content. -/
namespace Quicknet

inductive JournalPersistenceState
  | idle
  | writing
  | failed
  deriving DecidableEq, Repr

/-- `current = none` is a missing journal. `pending` is the snapshot of a write
that has not been acknowledged. -/
structure JournalPersistence where
  state : JournalPersistenceState
  current : Option TransactionJournalSnapshot
  pending : Option TransactionJournalSnapshot
  deriving DecidableEq, Repr

namespace JournalPersistence

def create (lib : TransactionLibrary) (identity : JournalIdentity)
    (initial : Option TransactionJournalSnapshot) : Except Failure JournalPersistence := do
  match initial with
  | none => return ⟨.idle, none, none⟩
  | some snapshot =>
    let verified ← verifyJournalSnapshot lib snapshot identity
    return ⟨.idle, some verified, none⟩

/-- Begins a write. A snapshot that does not verify leaves the state idle. -/
def save (lib : TransactionLibrary) (identity : JournalIdentity) (p : JournalPersistence)
    (next : TransactionJournalSnapshot) : Except Failure JournalPersistence :=
  if p.state = .idle then
    match verifyJournalSnapshot lib next identity with
    | .ok snapshot => .ok { p with state := .writing, pending := some snapshot }
    | .error _ => .error (.typeError "Invalid journal persistence snapshot.")
  else .error (.error "Journal persistence is not ready for a new write.")

/-- Writes the snapshot retained after a failed save again. -/
def retry (p : JournalPersistence) : Except Failure JournalPersistence :=
  if p.state = .failed ∧ p.pending ≠ none then .ok { p with state := .writing }
  else .error (.error "No failed journal write is available to retry.")

/-- `persistPending` once the store has saved the snapshot. -/
def acknowledged (p : JournalPersistence) : JournalPersistence :=
  ⟨.idle, p.pending, none⟩

/-- `persistPending` when the store's save rejects. -/
def failed (p : JournalPersistence) : JournalPersistence := { p with state := .failed }

end JournalPersistence

inductive SignerBlocker
  | recoveryIncomplete
  | unresolvedAttempt
  | unattributedSignerActivity
  | persistenceFailure
  | conflictSearchExhausted
  | retentionCapacityReached
  deriving DecidableEq, Repr

/-- The set of `CoordinatorBlocker` values. -/
structure CoordinatorBlockers where
  unattributedSignerActivity : Bool
  conflictSearchExhausted : Bool
  deriving DecidableEq, Repr

def CoordinatorBlockers.isEmpty (b : CoordinatorBlockers) : Bool :=
  !b.unattributedSignerActivity && !b.conflictSearchExhausted

def BLOCKER_PRECEDENCE : List SignerBlocker :=
  [.persistenceFailure, .unattributedSignerActivity, .conflictSearchExhausted,
    .unresolvedAttempt, .retentionCapacityReached, .recoveryIncomplete]

structure SignerGateDecision where
  isOpen : Bool
  blockers : List SignerBlocker
  primaryReason : Option SignerBlocker
  deriving DecidableEq, Repr

/-- Membership in the set that `evaluateSignerGate` builds. -/
def gateBlocks (persistence : JournalPersistence)
    (recoveryComplete inclusionChecksComplete : Bool) (maxRetainedAttempts : ℕ)
    (blockers : CoordinatorBlockers) : SignerBlocker → Bool
  | .persistenceFailure => persistence.state == .failed
  | .unattributedSignerActivity => blockers.unattributedSignerActivity
  | .conflictSearchExhausted => blockers.conflictSearchExhausted
  | .recoveryIncomplete =>
    !recoveryComplete || !inclusionChecksComplete || persistence.current.isNone
  | .unresolvedAttempt =>
    persistence.current.any fun s => s.attempts.any fun a => !a.phase.isIncluded
  | .retentionCapacityReached =>
    persistence.current.any fun s => decide (maxRetainedAttempts ≤ s.attempts.length)

def evaluateSignerGate (persistence : JournalPersistence)
    (recoveryComplete inclusionChecksComplete : Bool) (maxRetainedAttempts : ℕ)
    (blockers : CoordinatorBlockers) : SignerGateDecision :=
  let ordered := BLOCKER_PRECEDENCE.filter
    (gateBlocks persistence recoveryComplete inclusionChecksComplete maxRetainedAttempts blockers)
  { isOpen := persistence.state == .idle && ordered.isEmpty
    blockers := ordered
    primaryReason := ordered.head? }

/-- An open gate: what each absent blocker says. -/
theorem evaluateSignerGate_open_iff {p : JournalPersistence} {r i : Bool} {n : ℕ}
    {b : CoordinatorBlockers} :
    (evaluateSignerGate p r i n b).isOpen = true ↔
      p.state = .idle ∧ b.isEmpty = true ∧ r = true ∧ i = true ∧
      ∃ s, p.current = some s ∧ (∀ a ∈ s.attempts, a.phase.isIncluded = true) ∧
        s.attempts.length < n := by
  cases hc : p.current with
  | none =>
    simp [evaluateSignerGate, BLOCKER_PRECEDENCE, gateBlocks, hc]
  | some s =>
    cases hst : p.state <;>
      simp [evaluateSignerGate, BLOCKER_PRECEDENCE, gateBlocks, hc, hst,
        CoordinatorBlockers.isEmpty]
    tauto

/-! The revision of committed content, as the value that the source prints as
JSON. The observation block of an inclusion is not part of it. -/

inductive RevisionPhase
  | signed
  | broadcastMayHaveOccurred
  | included (outcome : InclusionOutcome) (inclusion : BlockAnchor)
  deriving DecidableEq, Repr

structure RevisionAttempt where
  attemptId : AttemptId
  nonce : ℕ
  phase : RevisionPhase
  transactionHashes : List Hash
  replacementSearch : Option ReplacementSearch
  deriving DecidableEq, Repr

inductive DurableRecoveryRevision
  | missing (blockers : CoordinatorBlockers)
  | present (nextNonce durableNextNonce : ℕ) (attempts : List RevisionAttempt)
      (blockers : CoordinatorBlockers)
  deriving DecidableEq, Repr

def projectPhase : JournalPhase → RevisionPhase
  | .signed => .signed
  | .broadcastMayHaveOccurred => .broadcastMayHaveOccurred
  | .included i => .included i.outcome i.inclusion

def projectAttempt (a : JournalAttempt) : RevisionAttempt :=
  ⟨a.attemptId, a.nonce, projectPhase a.phase, a.signedTransactions.hashes, a.replacementSearch⟩

def durableRecoveryRevision (current : Option TransactionJournalSnapshot)
    (blockers : CoordinatorBlockers) : DurableRecoveryRevision :=
  match current with
  | none => .missing blockers
  | some s => .present s.nextNonce s.durableNextNonce (s.attempts.map projectAttempt) blockers

end Quicknet
