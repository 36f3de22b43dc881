import Mathlib.Tactic

/-! The journal of one chain and signer. Hex strings that the source compares
after `toLowerCase` are the numbers they write, so equality of values is the
source's comparison and letter case is not represented. A string that
`isFixedHex` refuses has no value here. -/
namespace Quicknet

abbrev Hash := ℕ
abbrev Address := ℕ
abbrev Bytes := List UInt8

/-- Milliseconds of a clock reading, which the source writes as an ISO string. -/
abbrev Timestamp := ℕ

/-- A version 4 UUID, drawn by `randomUUID`. -/
abbrev AttemptId := ℕ

/-- UTF-16 code units of a work identity. -/
abbrev WorkId := List UInt16

def MAX_UINT256 : ℕ := 2^256-1
def MAX_SAFE_INTEGER : ℕ := 2^53-1

/-- Thrown values. Reads that the RPC rejects throw `rpc`. -/
inductive Failure
  | typeError (message : String)
  | error (message : String)
  | rpc
  deriving DecidableEq, Repr

structure BlockAnchor where
  blockNumber : ℕ
  blockHash : Hash
  deriving DecidableEq, Repr

structure JournalIdentity where
  chainId : ℕ
  signer : Address
  deriving DecidableEq, Repr

/-- Nonce observed at the explicit anchor block. -/
structure AnchoredNonceObservation where
  anchor : BlockAnchor
  nonce : ℕ
  deriving DecidableEq, Repr

def MAX_RETAINED_NONCE_REPAIRS : ℕ := 8

structure JournalNonceRepair where
  at' : Timestamp
  previousNextNonce : ℕ
  nextNonce : ℕ
  observation : AnchoredNonceObservation
  deriving DecidableEq, Repr

/-- `searchedThrough` is the last fully searched block, or `none` when no block
after the lower bound has been searched. -/
structure ReplacementSearch where
  lowerBound : AnchoredNonceObservation
  searchedThrough : Option BlockAnchor
  deriving DecidableEq, Repr

structure JournalSignedTransaction where
  transactionHash : Hash
  signedTransaction : Bytes
  deriving DecidableEq, Repr

/-- The non-empty tuple of the original transaction and its fee replacements. -/
structure SignedTransactions where
  original : JournalSignedTransaction
  replacements : List JournalSignedTransaction
  deriving DecidableEq, Repr

namespace SignedTransactions

def toList (t : SignedTransactions) : List JournalSignedTransaction :=
  t.original :: t.replacements

def hashes (t : SignedTransactions) : List Hash := t.toList.map (·.transactionHash)

/-- The transaction that a broadcast sends. -/
def latest (t : SignedTransactions) : JournalSignedTransaction :=
  t.replacements.getLastD t.original

@[simp] theorem hashes_ne_nil (t : SignedTransactions) : t.hashes ≠ [] := by
  simp [hashes, toList]

theorem latest_mem (t : SignedTransactions) : t.latest ∈ t.toList := by
  unfold latest toList
  rcases List.eq_nil_or_concat t.replacements with h | ⟨l, x, h⟩ <;> simp [h]

end SignedTransactions

inductive InclusionOutcome
  | success (transactionHash : Hash)
  | reverted (transactionHash : Hash)
  | replaced (replacementTransactionHash : Hash) (nonceAtAnchor : ℕ)
  deriving DecidableEq, Repr

namespace InclusionOutcome

/-- The transaction whose receipt the observation names. -/
def receiptHash : InclusionOutcome → Hash
  | .success h => h
  | .reverted h => h
  | .replaced h _ => h

end InclusionOutcome

structure JournalInclusionObservation where
  inclusion : BlockAnchor
  observedAt : BlockAnchor
  outcome : InclusionOutcome
  deriving DecidableEq, Repr

/-- The phase together with the inclusion it carries: only an included attempt
has one. -/
inductive JournalPhase
  | signed
  | broadcastMayHaveOccurred
  | included (inclusion : JournalInclusionObservation)
  deriving DecidableEq, Repr

namespace JournalPhase

def isIncluded : JournalPhase → Bool
  | .included _ => true
  | _ => false

@[simp] theorem isIncluded_signed : signed.isIncluded = false := rfl
@[simp] theorem isIncluded_broadcast : broadcastMayHaveOccurred.isIncluded = false := rfl
@[simp] theorem isIncluded_included (i : JournalInclusionObservation) :
    (included i).isIncluded = true := rfl

end JournalPhase

structure JournalAttempt where
  attemptId : AttemptId
  workId : WorkId
  nonce : ℕ
  createdAt : Timestamp
  signedTransactions : SignedTransactions
  replacementSearch : Option ReplacementSearch
  phase : JournalPhase
  deriving DecidableEq, Repr

namespace JournalAttempt

/-- What is fixed when an attempt is signed and never rewritten. -/
structure Record where
  attemptId : AttemptId
  workId : WorkId
  nonce : ℕ
  createdAt : Timestamp
  signedTransactions : SignedTransactions
  deriving DecidableEq, Repr

def record (a : JournalAttempt) : Record :=
  ⟨a.attemptId, a.workId, a.nonce, a.createdAt, a.signedTransactions⟩

/-- Block searched through for the transaction that consumed the nonce. -/
def progress (a : JournalAttempt) : Option BlockAnchor :=
  a.replacementSearch.bind (·.searchedThrough)

end JournalAttempt

structure TransactionJournalSnapshot where
  identity : JournalIdentity
  baseline : AnchoredNonceObservation
  lastObservation : AnchoredNonceObservation
  nextNonce : ℕ
  durableNextNonce : ℕ
  repairs : List JournalNonceRepair
  attempts : List JournalAttempt
  deriving DecidableEq, Repr

namespace TransactionJournalSnapshot

/-- The oldest attempt that is not included. -/
def firstUnresolved (s : TransactionJournalSnapshot) : Option JournalAttempt :=
  s.attempts.find? (fun a => !a.phase.isIncluded)

end TransactionJournalSnapshot

end Quicknet
