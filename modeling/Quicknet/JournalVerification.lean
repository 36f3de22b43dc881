import Quicknet.JournalValidation

/-! Signed bytes of the journal. The transaction library is a parameter: what
its functions return is not constrained, and a call that throws returns `none`. -/
namespace Quicknet

inductive TransactionType
  | legacy
  | eip2930
  | eip1559
  | other
  deriving DecidableEq, Repr

abbrev AccessList := List (Address × List Hash)

structure ParsedTransaction where
  type : TransactionType
  chainId : Option ℕ
  nonce : Option ℕ
  /-- The source's `to`. -/
  recipient : Option Address
  value : ℕ
  data : Bytes
  gas : ℕ
  accessList : Option AccessList
  gasPrice : Option ℕ
  maxFeePerGas : Option ℕ
  maxPriorityFeePerGas : Option ℕ
  r : Option ℕ
  s : Option ℕ
  v : Option ℕ
  yParity : Option ℕ
  deriving DecidableEq, Repr

namespace ParsedTransaction

def withoutSignature (t : ParsedTransaction) : ParsedTransaction :=
  { t with r := none, s := none, v := none, yParity := none }

/-- The transaction with only its fees and signature removed. -/
def intent (t : ParsedTransaction) : Option ParsedTransaction :=
  match t.type with
  | .legacy => some { t.withoutSignature with gasPrice := some 0 }
  | .eip2930 => some { t.withoutSignature with gasPrice := some 0 }
  | .eip1559 =>
    some { t.withoutSignature with maxFeePerGas := some 0, maxPriorityFeePerGas := some 0 }
  | .other => none

end ParsedTransaction

structure TransactionLibrary where
  keccak256 : Bytes → Hash
  parseTransaction : Bytes → Option ParsedTransaction
  serializeTransaction : ParsedTransaction → Option Bytes
  recoverTransactionAddress : Bytes → Option Address

def SECP256K1_ORDER : ℕ :=
  0xfffffffffffffffffffffffffffffffebaaedce6af48a03bbfd25e8cd0364141

section Verification

variable (lib : TransactionLibrary)

def SignatureValid (t : ParsedTransaction) : Prop :=
  (∃ r ∈ t.r, 0 < r ∧ r < SECP256K1_ORDER) ∧
    (∃ s ∈ t.s, 0 < s ∧ s ≤ SECP256K1_ORDER/2) ∧
    (t.yParity = some 0 ∨ t.yParity = some 1)

instance (t : ParsedTransaction) : Decidable (SignatureValid t) := by
  unfold SignatureValid
  infer_instance

/-- The intent that every variant of one attempt has to share; `none` where the
source throws. -/
def verifySignedTransaction (identity : JournalIdentity) (nonce : ℕ)
    (signed : JournalSignedTransaction) : Option Bytes :=
  if lib.keccak256 signed.signedTransaction = signed.transactionHash then
    (lib.parseTransaction signed.signedTransaction).bind fun transaction =>
      if transaction.type ≠ .other ∧ transaction.chainId = some identity.chainId ∧
          transaction.nonce = some nonce ∧ nonce ≤ MAX_SAFE_INTEGER ∧
          SignatureValid transaction ∧
          lib.serializeTransaction transaction = some signed.signedTransaction ∧
          lib.recoverTransactionAddress signed.signedTransaction = some identity.signer then
        transaction.intent.bind lib.serializeTransaction
      else none
  else none

/-- All variants have distinct hashes and the intent of the first. -/
def verifyJournalAttempt (identity : JournalIdentity) (nonce : ℕ) (t : SignedTransactions) :
    Bool :=
  decide t.hashes.Nodup &&
    match verifySignedTransaction lib identity nonce t.original with
    | none => false
    | some intent => t.replacements.all
        (fun x => decide (verifySignedTransaction lib identity nonce x = some intent))

def verifyJournalSnapshot (input : TransactionJournalSnapshot) (expected : JournalIdentity) :
    Except Failure TransactionJournalSnapshot := do
  let snapshot ← validateJournalSnapshotStructure input expected
  if snapshot.attempts.all
      (fun a => verifyJournalAttempt lib snapshot.identity a.nonce a.signedTransactions) then
    return snapshot
  else throw (.typeError "Invalid journal signed transaction.")

/-- An accepted snapshot is structurally valid and every attempt verifies. -/
structure SnapshotVerified (expected : JournalIdentity) (s : TransactionJournalSnapshot) : Prop
    extends SnapshotValid expected s where
  verified : ∀ a ∈ s.attempts, verifyJournalAttempt lib expected a.nonce a.signedTransactions = true

variable {lib} {expected : JournalIdentity} {s t : TransactionJournalSnapshot}

theorem verifyJournalSnapshot_ok_iff :
    verifyJournalSnapshot lib s expected = .ok t ↔ t = s ∧ SnapshotVerified lib expected s := by
  unfold verifyJournalSnapshot
  cases hv : validateJournalSnapshotStructure s expected with
  | error e =>
    simp only [bind, Except.bind, reduceCtorEq, false_iff, not_and]
    intro _ h
    rw [(validate_ok_iff (t := s)).mpr ⟨rfl, h.toSnapshotValid⟩] at hv
    cases hv
  | ok u =>
    obtain ⟨rfl, hvalid⟩ := validate_ok_iff.mp hv
    have hid : u.identity = expected := hvalid.header.2.2.1
    simp only [bind, Except.bind, pure, Except.pure]
    split_ifs with ha
    · rw [List.all_eq_true, hid] at ha
      constructor
      · intro h
        exact ⟨(Except.ok.inj h).symm, hvalid, ha⟩
      · rintro ⟨rfl, _⟩
        rfl
    · constructor
      · intro h
        cases h
      · rintro ⟨_, h⟩
        refine absurd ?_ ha
        rw [List.all_eq_true, hid]
        exact h.verified

/-- The nonce inside the bytes of a verified variant is the recorded one. -/
theorem verifySignedTransaction_nonce {nonce : ℕ} {x : JournalSignedTransaction} {intent : Bytes}
    (h : verifySignedTransaction lib expected nonce x = some intent) :
    (lib.parseTransaction x.signedTransaction).bind (·.nonce) = some nonce := by
  unfold verifySignedTransaction at h
  split_ifs at h
  obtain ⟨transaction, hp, h⟩ := Option.bind_eq_some_iff.mp h
  split_ifs at h with hc
  rw [hp, Option.bind_some]
  exact hc.2.2.1

theorem verifyJournalAttempt_nonce {nonce : ℕ} {u : SignedTransactions}
    (h : verifyJournalAttempt lib expected nonce u = true) {x : JournalSignedTransaction}
    (hx : x ∈ u.toList) :
    (lib.parseTransaction x.signedTransaction).bind (·.nonce) = some nonce := by
  unfold verifyJournalAttempt at h
  rw [Bool.and_eq_true] at h
  cases ho : verifySignedTransaction lib expected nonce u.original with
  | none => simp [ho] at h
  | some intent =>
    rw [ho] at h
    rcases List.mem_cons.mp hx with rfl | hx
    · exact verifySignedTransaction_nonce ho
    · have hr := List.all_eq_true.mp h.2 x hx
      exact verifySignedTransaction_nonce (of_decide_eq_true hr)

end Verification

/-! Signing a prepared request. -/

inductive PreparedFees
  | legacy (gasPrice : ℕ)
  | eip2930 (gasPrice : ℕ) (accessList : AccessList)
  | eip1559 (maxFeePerGas maxPriorityFeePerGas : ℕ) (accessList : Option AccessList)
  deriving DecidableEq, Repr

structure PreparedRelayerTransaction where
  recipient : Address
  data : Bytes
  value : ℕ
  gas : ℕ
  fees : PreparedFees
  deriving DecidableEq, Repr

def PreparedRelayerTransaction.unsigned (t : PreparedRelayerTransaction)
    (identity : JournalIdentity) (nonce : ℕ) : ParsedTransaction :=
  let common : ParsedTransaction :=
    { type := .other, chainId := some identity.chainId, nonce := some nonce, recipient := some t.recipient,
      value := t.value, data := t.data, gas := t.gas, accessList := none, gasPrice := none,
      maxFeePerGas := none, maxPriorityFeePerGas := none, r := none, s := none, v := none,
      yParity := none }
  match t.fees with
  | .legacy gasPrice => { common with type := .legacy, gasPrice := some gasPrice }
  | .eip2930 gasPrice accessList =>
    { common with type := .eip2930, gasPrice := some gasPrice, accessList := some accessList }
  | .eip1559 maxFeePerGas maxPriorityFeePerGas accessList =>
    { common with
      type := .eip1559
      maxFeePerGas := some maxFeePerGas
      maxPriorityFeePerGas := some maxPriorityFeePerGas
      accessList := accessList }

def PreparedRelayerTransaction.FeesValid (t : PreparedRelayerTransaction) : Prop :=
  match t.fees with
  | .eip1559 maxFeePerGas maxPriorityFeePerGas _ => maxPriorityFeePerGas ≤ maxFeePerGas
  | _ => True

instance (t : PreparedRelayerTransaction) : Decidable t.FeesValid := by
  unfold PreparedRelayerTransaction.FeesValid
  split <;> infer_instance

/-- `answer` is what the account returned for the transaction that the unsigned bytes
parse to, `none` when it rejected or they do not parse. -/
def signPreparedTransaction (lib : TransactionLibrary) (identity : JournalIdentity) (nonce : ℕ)
    (accountAddress : Address) (transaction : PreparedRelayerTransaction)
    (answer : Option Bytes) : Except Failure JournalSignedTransaction :=
  let failed : Except Failure JournalSignedTransaction :=
    .error (.error "Could not sign the prepared relayer transaction.")
  if IdentityValid identity ∧ accountAddress = identity.signer ∧ nonce ≤ MAX_SAFE_INTEGER ∧
      0 < transaction.gas ∧ transaction.FeesValid then
    match lib.serializeTransaction (transaction.unsigned identity nonce), answer with
    | some unsigned, some signedTransaction =>
      let signed : JournalSignedTransaction :=
        ⟨lib.keccak256 signedTransaction, signedTransaction⟩
      if verifyJournalAttempt lib identity nonce ⟨signed, []⟩ = true ∧
          (lib.parseTransaction signedTransaction).bind
            (fun parsed => lib.serializeTransaction parsed.withoutSignature) = some unsigned then
        .ok signed
      else failed
    | _, _ => failed
  else failed

end Quicknet
