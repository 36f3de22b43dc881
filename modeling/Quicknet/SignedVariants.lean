import Quicknet.JournalVerification

/-! What the signed bytes of an accepted attempt say, where the functions of viem meet
their specification. -/
namespace Quicknet

namespace ParsedTransaction

def Unsigned (t : ParsedTransaction) : Prop :=
  t.r = none ∧ t.s = none ∧ t.v = none ∧ t.yParity = none

instance (t : ParsedTransaction) : Decidable t.Unsigned := by
  unfold Unsigned
  infer_instance

/-- The transaction has only the fields of its type. -/
def WellTyped (t : ParsedTransaction) : Prop :=
  match t.type with
  | .legacy => t.accessList = none ∧ t.maxFeePerGas = none ∧ t.maxPriorityFeePerGas = none
  | .eip2930 => t.maxFeePerGas = none ∧ t.maxPriorityFeePerGas = none
  | .eip1559 => t.gasPrice = none
  | .other => True

instance (t : ParsedTransaction) : Decidable t.WellTyped := by
  unfold WellTyped
  cases t.type <;> infer_instance

def dropZero (fee : Option ℕ) : Option ℕ := fee.filter (· ≠ 0)

/-- The form in which a transaction is parsed: a nonce is always there, and a fee of zero
and an empty access list are left out. -/
def normal (t : ParsedTransaction) : ParsedTransaction :=
  { t with
    nonce := some (t.nonce.getD 0)
    accessList := t.accessList.filter (· ≠ [])
    gasPrice := dropZero t.gasPrice
    maxFeePerGas := dropZero t.maxFeePerGas
    maxPriorityFeePerGas := dropZero t.maxPriorityFeePerGas }

theorem getD_dropZero (fee : Option ℕ) : (dropZero fee).getD 0 = fee.getD 0 := by
  cases fee with
  | none => rfl
  | some n =>
    by_cases hn : n = 0
    · rw [hn]
      rfl
    · simp [dropZero, Option.filter, hn]

theorem getD_filter_ne_nil (accessList : Option AccessList) :
    (accessList.filter (· ≠ [])).getD [] = accessList.getD [] := by
  cases accessList with
  | none => rfl
  | some l => cases l <;> rfl

/-- What two transactions with one normal form have in common. -/
theorem normal_eq {t t' : ParsedTransaction} (h : t.normal = t'.normal) :
    (t.type = t'.type ∧ t.recipient = t'.recipient ∧ t.value = t'.value ∧ t.data = t'.data ∧
      t.gas = t'.gas) ∧
    t.accessList.getD [] = t'.accessList.getD [] ∧ t.gasPrice.getD 0 = t'.gasPrice.getD 0 ∧
    t.maxFeePerGas.getD 0 = t'.maxFeePerGas.getD 0 ∧
    t.maxPriorityFeePerGas.getD 0 = t'.maxPriorityFeePerGas.getD 0 := by
  have htype : t.normal.type = t'.normal.type := by rw [h]
  have hrecipient : t.normal.recipient = t'.normal.recipient := by rw [h]
  have hvalue : t.normal.value = t'.normal.value := by rw [h]
  have hdata : t.normal.data = t'.normal.data := by rw [h]
  have hgas : t.normal.gas = t'.normal.gas := by rw [h]
  have hlist : t.normal.accessList.getD [] = t'.normal.accessList.getD [] := by rw [h]
  have hgasPrice : t.normal.gasPrice.getD 0 = t'.normal.gasPrice.getD 0 := by rw [h]
  have hmaxFee : t.normal.maxFeePerGas.getD 0 = t'.normal.maxFeePerGas.getD 0 := by rw [h]
  have hpriorityFee : t.normal.maxPriorityFeePerGas.getD 0 =
      t'.normal.maxPriorityFeePerGas.getD 0 := by rw [h]
  refine ⟨⟨htype, hrecipient, hvalue, hdata, hgas⟩, ?_, ?_, ?_, ?_⟩
  · simpa only [normal, getD_filter_ne_nil] using hlist
  · simpa only [normal, getD_dropZero] using hgasPrice
  · simpa only [normal, getD_dropZero] using hmaxFee
  · simpa only [normal, getD_dropZero] using hpriorityFee

end ParsedTransaction

/-- The specification of viem's functions. `signs` says that the signature of a hash is
one by the key of an address. -/
structure TransactionLibrary.Meets (lib : TransactionLibrary)
    (signs : Address → Hash → (r s yParity : ℕ) → Prop) : Prop where
  /-- What is parsed from its own serialization has the fields of its type, in their normal
  form. -/
  parse_normal : ∀ bytes t, lib.parseTransaction bytes = some t →
    lib.serializeTransaction t = some bytes → t.type ≠ .other → t.WellTyped ∧ t.normal = t
  /-- Parsing undoes the serialization of an unsigned transaction. -/
  parse_serialize : ∀ t bytes, t.type ≠ .other → t.Unsigned → t.WellTyped →
    lib.serializeTransaction t = some bytes → lib.parseTransaction bytes = some t.normal
  /-- Recovery is of the signature that was parsed, over the hash of what was signed. -/
  recover_signs : ∀ bytes t address, lib.parseTransaction bytes = some t →
    lib.recoverTransactionAddress bytes = some address →
    ∃ unsigned, lib.serializeTransaction t.withoutSignature = some unsigned ∧
      ∃ r ∈ t.r, ∃ s ∈ t.s, ∃ yParity ∈ t.yParity,
        signs address (lib.keccak256 unsigned) r s yParity

/-- Transactions that differ in their fees and signatures at most. -/
structure SameEffects (t t' : ParsedTransaction) : Prop where
  type : t'.type = t.type
  chainId : t'.chainId = t.chainId
  nonce : t'.nonce = t.nonce
  recipient : t'.recipient = t.recipient
  value : t'.value = t.value
  data : t'.data = t.data
  gas : t'.gas = t.gas
  accessList : t'.accessList = t.accessList

section Variants

variable (lib : TransactionLibrary) (signs : Address → Hash → (r s yParity : ℕ) → Prop)
  (identity : JournalIdentity) (nonce : ℕ)

/-- The bytes of a variant are the canonical serialization of the transaction, which the
journal's signer signed for the journal's chain and the nonce. -/
structure VariantSigned (signed : JournalSignedTransaction) (t : ParsedTransaction) : Prop where
  hash : lib.keccak256 signed.signedTransaction = signed.transactionHash
  parsed : lib.parseTransaction signed.signedTransaction = some t
  canonical : lib.serializeTransaction t = some signed.signedTransaction
  type : t.type ≠ .other
  chainId : t.chainId = some identity.chainId
  nonce : t.nonce = some nonce
  signature : SignatureValid t
  signer : ∃ unsigned, lib.serializeTransaction t.withoutSignature = some unsigned ∧
    ∃ r ∈ t.r, ∃ s ∈ t.s, ∃ yParity ∈ t.yParity,
      signs identity.signer (lib.keccak256 unsigned) r s yParity

/-- The transaction that was asked for, where a fee of zero is one that is left out. -/
structure SignedAsRequested (request : PreparedRelayerTransaction) (t : ParsedTransaction) :
    Prop where
  chainId : t.chainId = some identity.chainId
  nonce : t.nonce = some nonce
  recipient : t.recipient = some request.recipient
  value : t.value = request.value
  data : t.data = request.data
  gas : t.gas = request.gas
  fees : match request.fees with
    | .legacy gasPrice => t.type = .legacy ∧ t.gasPrice.getD 0 = gasPrice ∧ t.accessList = none
    | .eip2930 gasPrice accessList => t.type = .eip2930 ∧ t.gasPrice.getD 0 = gasPrice ∧
      t.accessList.getD [] = accessList
    | .eip1559 maxFeePerGas maxPriorityFeePerGas accessList => t.type = .eip1559 ∧
      t.maxFeePerGas.getD 0 = maxFeePerGas ∧
      t.maxPriorityFeePerGas.getD 0 = maxPriorityFeePerGas ∧
      t.accessList.getD [] = accessList.getD []

end Variants

section Accepted

variable {lib : TransactionLibrary} {signs : Address → Hash → (r s yParity : ℕ) → Prop}
  {identity : JournalIdentity} {nonce : ℕ}

theorem ParsedTransaction.withoutSignature_unsigned (t : ParsedTransaction) :
    t.withoutSignature.Unsigned :=
  ⟨rfl, rfl, rfl, rfl⟩

/-- The intent is unsigned and of the transaction's type. -/
theorem ParsedTransaction.intent_some {t intent : ParsedTransaction} (h : t.intent = some intent) :
    intent.Unsigned ∧ intent.type = t.type ∧ t.type ≠ .other ∧ (t.WellTyped → intent.WellTyped) ∧
      SameEffects t intent := by
  unfold ParsedTransaction.intent at h
  cases htype : t.type with
  | other =>
    rw [htype] at h
    cases h
  | legacy | eip2930 | eip1559 =>
    rw [htype] at h
    cases h
    refine ⟨⟨rfl, rfl, rfl, rfl⟩, htype, by decide, ?_, ⟨rfl, rfl, rfl, rfl, rfl, rfl, rfl, rfl⟩⟩
    intro htyped
    simp only [WellTyped, withoutSignature, htype] at htyped ⊢
    exact htyped

/-- What a verified variant is, with the serialized intent that is compared. -/
theorem verifySignedTransaction_some (hlib : lib.Meets signs) {signed : JournalSignedTransaction}
    {intentBytes : Bytes}
    (h : verifySignedTransaction lib identity nonce signed = some intentBytes) :
    ∃ t intent, VariantSigned lib signs identity nonce signed t ∧ t.intent = some intent ∧
      lib.serializeTransaction intent = some intentBytes := by
  unfold verifySignedTransaction at h
  split_ifs at h with hhash
  obtain ⟨t, hparsed, hrest⟩ := Option.bind_eq_some_iff.mp h
  split_ifs at hrest with hvalid
  obtain ⟨htype, hchain, hnonce, _, hsignature, hcanonical, hrecover⟩ := hvalid
  obtain ⟨intent, hintent, hbytes⟩ := Option.bind_eq_some_iff.mp hrest
  refine ⟨t, intent, ?_, hintent, hbytes⟩
  exact ⟨hhash, hparsed, hcanonical, htype, hchain, hnonce, hsignature,
    hlib.recover_signs _ t _ hparsed hrecover⟩

/-- The serialized intent determines the transaction up to its fees and signature. -/
theorem sameEffects_of_intent (hlib : lib.Meets signs) {signed signed' : JournalSignedTransaction}
    {t t' intent intent' : ParsedTransaction} {intentBytes : Bytes}
    (h : VariantSigned lib signs identity nonce signed t)
    (h' : VariantSigned lib signs identity nonce signed' t')
    (hintent : t.intent = some intent) (hintent' : t'.intent = some intent')
    (hbytes : lib.serializeTransaction intent = some intentBytes)
    (hbytes' : lib.serializeTransaction intent' = some intentBytes) : SameEffects t t' := by
  obtain ⟨htyped, hnormal⟩ := hlib.parse_normal _ t h.parsed h.canonical h.type
  obtain ⟨htyped', hnormal'⟩ := hlib.parse_normal _ t' h'.parsed h'.canonical h'.type
  obtain ⟨hunsigned, htype, hother, hwell, heffects⟩ := ParsedTransaction.intent_some hintent
  obtain ⟨hunsigned', htype', hother', hwell', heffects'⟩ := ParsedTransaction.intent_some hintent'
  have hparse := hlib.parse_serialize intent intentBytes (by rw [htype]; exact hother) hunsigned
    (hwell htyped) hbytes
  have hparse' := hlib.parse_serialize intent' intentBytes (by rw [htype']; exact hother')
    hunsigned' (hwell' htyped') hbytes'
  -- Both intents are what the same bytes parse to.
  have hsame : intent'.normal = intent.normal := Option.some.inj (hparse'.symm.trans hparse)
  have hlist : t'.accessList = t.accessList := by
    calc t'.accessList = t'.normal.accessList := by rw [hnormal']
      _ = intent'.normal.accessList := by
        simp only [ParsedTransaction.normal, heffects'.accessList]
      _ = intent.normal.accessList := by rw [hsame]
      _ = t.normal.accessList := by
        simp only [ParsedTransaction.normal, heffects.accessList]
      _ = t.accessList := by rw [hnormal]
  obtain ⟨⟨htypes, hrecipient, hvalue, hdata, hgas⟩, _⟩ := ParsedTransaction.normal_eq hsame
  refine ⟨?_, ?_, ?_, ?_, ?_, ?_, ?_, hlist⟩
  · rw [← htype, ← htype', htypes]
  · rw [h.chainId, h'.chainId]
  · rw [h.nonce, h'.nonce]
  · rw [← heffects.recipient, ← heffects'.recipient, hrecipient]
  · rw [← heffects.value, ← heffects'.value, hvalue]
  · rw [← heffects.data, ← heffects'.data, hdata]
  · rw [← heffects.gas, ← heffects'.gas, hgas]

/-- Every variant of an accepted attempt verifies, and to one intent. -/
theorem verifyJournalAttempt_intent {variants : SignedTransactions}
    (h : verifyJournalAttempt lib identity nonce variants = true) :
    ∃ intentBytes, ∀ x ∈ variants.toList,
      verifySignedTransaction lib identity nonce x = some intentBytes := by
  unfold verifyJournalAttempt at h
  obtain ⟨_, hvariants⟩ := (Bool.and_eq_true _ _).mp h
  cases horiginal : verifySignedTransaction lib identity nonce variants.original with
  | none =>
    rw [horiginal] at hvariants
    cases hvariants
  | some intentBytes =>
    rw [horiginal] at hvariants
    refine ⟨intentBytes, ?_⟩
    intro x hx
    rcases List.mem_cons.mp hx with rfl | hx
    · exact horiginal
    · exact of_decide_eq_true (List.all_eq_true.mp hvariants x hx)

/-- The signed bytes and the request have one unsigned serialization. -/
theorem signedAsRequested (hlib : lib.Meets signs) {request : PreparedRelayerTransaction}
    {t : ParsedTransaction} {signed : JournalSignedTransaction} {unsigned : Bytes}
    (h : VariantSigned lib signs identity nonce signed t)
    (hunsigned : lib.serializeTransaction t.withoutSignature = some unsigned)
    (hrequest : lib.serializeTransaction (request.unsigned identity nonce) = some unsigned) :
    SignedAsRequested identity nonce request t := by
  obtain ⟨htyped, hnormal⟩ := hlib.parse_normal _ t h.parsed h.canonical h.type
  have htyped' : t.withoutSignature.WellTyped := htyped
  have hparse := hlib.parse_serialize t.withoutSignature unsigned h.type
    t.withoutSignature_unsigned htyped' hunsigned
  have hparse' : lib.parseTransaction unsigned =
      some (request.unsigned identity nonce).normal := by
    apply hlib.parse_serialize _ unsigned _ _ _ hrequest
    · unfold PreparedRelayerTransaction.unsigned
      cases request.fees <;> exact fun htype => (by cases htype)
    · unfold PreparedRelayerTransaction.unsigned
      cases request.fees <;> exact ⟨rfl, rfl, rfl, rfl⟩
    · unfold PreparedRelayerTransaction.unsigned
      cases request.fees with
      | legacy gasPrice => exact ⟨rfl, rfl, rfl⟩
      | eip2930 gasPrice accessList => exact ⟨rfl, rfl⟩
      | eip1559 maxFeePerGas maxPriorityFeePerGas accessList => rfl
  have hsame : t.withoutSignature.normal = (request.unsigned identity nonce).normal :=
    Option.some.inj (hparse.symm.trans hparse')
  obtain ⟨⟨htype, hrecipient, hvalue, hdata, hgas⟩, hlist, hgasPrice, hmaxFee, hpriorityFee⟩ :=
    ParsedTransaction.normal_eq hsame
  obtain ⟨recipient, data, value, gas, fees⟩ := request
  cases fees with
  | legacy gasPrice =>
    have hlegacy : t.type = .legacy := htype
    unfold ParsedTransaction.WellTyped at htyped
    rw [hlegacy] at htyped
    exact ⟨h.chainId, h.nonce, hrecipient, hvalue, hdata, hgas, hlegacy, hgasPrice, htyped.1⟩
  | eip2930 gasPrice accessList =>
    exact ⟨h.chainId, h.nonce, hrecipient, hvalue, hdata, hgas, htype, hgasPrice, hlist⟩
  | eip1559 maxFeePerGas maxPriorityFeePerGas accessList =>
    exact ⟨h.chainId, h.nonce, hrecipient, hvalue, hdata, hgas, htype, hmaxFee, hpriorityFee,
      hlist⟩

theorem signPreparedTransaction_ok {account : Address} {request : PreparedRelayerTransaction}
    {answer : Option Bytes} {signed : JournalSignedTransaction}
    (h : signPreparedTransaction lib identity nonce account request answer = .ok signed) :
    ∃ unsigned, answer = some signed.signedTransaction ∧
      lib.serializeTransaction (request.unsigned identity nonce) = some unsigned ∧
      verifyJournalAttempt lib identity nonce ⟨signed, []⟩ = true ∧
      (lib.parseTransaction signed.signedTransaction).bind
        (fun parsed => lib.serializeTransaction parsed.withoutSignature) = some unsigned := by
  unfold signPreparedTransaction at h
  split_ifs at h with hrequest
  cases hunsigned : lib.serializeTransaction (request.unsigned identity nonce) with
  | none =>
    rw [hunsigned] at h
    cases h
  | some unsigned =>
    cases answer with
    | none =>
      rw [hunsigned] at h
      cases h
    | some bytes =>
      rw [hunsigned] at h
      simp only at h
      split_ifs at h with hverified
      cases h
      exact ⟨unsigned, rfl, rfl, hverified.1, hverified.2⟩

/-- An accepted attempt has one transaction, in variants of its fees and signature, and
what is signed for a request is that request. -/
theorem accepted_one_transaction (hlib : lib.Meets signs) :
    (∀ variants : SignedTransactions, verifyJournalAttempt lib identity nonce variants = true →
      (∀ x ∈ variants.toList, ∃ t, VariantSigned lib signs identity nonce x t) ∧
      ∀ x ∈ variants.toList, ∀ y ∈ variants.toList, ∀ t t',
        lib.parseTransaction x.signedTransaction = some t →
        lib.parseTransaction y.signedTransaction = some t' → SameEffects t t') ∧
    ∀ (account : Address) (request : PreparedRelayerTransaction) (answer : Option Bytes),
      (∃ e, signPreparedTransaction lib identity nonce account request answer = .error e) ∨
      ∃ signed t, signPreparedTransaction lib identity nonce account request answer = .ok signed ∧
        answer = some signed.signedTransaction ∧ VariantSigned lib signs identity nonce signed t ∧
        SignedAsRequested identity nonce request t := by
  constructor
  · intro variants hverified
    obtain ⟨intentBytes, hintents⟩ := verifyJournalAttempt_intent hverified
    constructor
    · intro x hx
      obtain ⟨t, _, hsigned, _⟩ := verifySignedTransaction_some hlib (hintents x hx)
      exact ⟨t, hsigned⟩
    · intro x hx y hy t t' ht ht'
      obtain ⟨u, intent, hsigned, hintent, hbytes⟩ :=
        verifySignedTransaction_some hlib (hintents x hx)
      obtain ⟨u', intent', hsigned', hintent', hbytes'⟩ :=
        verifySignedTransaction_some hlib (hintents y hy)
      obtain rfl : u = t := Option.some.inj (hsigned.parsed.symm.trans ht)
      obtain rfl : u' = t' := Option.some.inj (hsigned'.parsed.symm.trans ht')
      exact sameEffects_of_intent hlib hsigned hsigned' hintent hintent' hbytes hbytes'
  · intro account request answer
    cases hsign : signPreparedTransaction lib identity nonce account request answer with
    | error e => exact .inl ⟨e, rfl⟩
    | ok signed =>
      right
      obtain ⟨unsigned, hanswer, hrequest, hverified, hactual⟩ := signPreparedTransaction_ok hsign
      obtain ⟨intentBytes, hintents⟩ := verifyJournalAttempt_intent hverified
      obtain ⟨t, _, hsigned, _⟩ :=
        verifySignedTransaction_some hlib (hintents signed List.mem_cons_self)
      rw [hsigned.parsed] at hactual
      exact ⟨signed, t, rfl, hanswer, hsigned, signedAsRequested hlib hsigned hactual hrequest⟩

end Accepted

/-! A legacy transaction and its replacement with a higher gas price, on the functions of
viem as far as these bytes need them. -/

def bytesOf (length n : ℕ) : Bytes :=
  (List.range length).map fun i => UInt8.ofNat (n / 256^(length - 1 - i))

def legacySigner : Address := 0x9d8a62f656a8d1615c1294fd71e9cfb3e4855a4f

def legacyUnsigned (gasPrice : Option ℕ) : ParsedTransaction where
  type := .legacy
  chainId := some 1
  nonce := some 9
  recipient := some 0x3535353535353535353535353535353535353535
  value := 1000000000000000000
  data := []
  gas := 21000
  accessList := none
  gasPrice := gasPrice
  maxFeePerGas := none
  maxPriorityFeePerGas := none
  r := none
  s := none
  v := none
  yParity := none

def legacySigned (gasPrice r s : ℕ) : ParsedTransaction :=
  { legacyUnsigned (some gasPrice) with r := some r, s := some s, v := some 37, yParity := some 0 }

def originalR : ℕ := 0x28ef61340bd939bc2195fe537567866003e1a15d3c71ff63e1590620aa636276
def originalS : ℕ := 0x67cbe9d8997f761aecb703304b3800ccf555c9f3dc64214b297fb1966a3b6d83
def replacementR : ℕ := 0x4c39ae6c9bcf4d79690c22e8efdb7f4a519ad2c6d1c9f4b715c1990a390bfbf9
def replacementS : ℕ := 0x434c748ee6344277cd757710b1cf4467263f374b6f19563de5eb2ce3af98017d

def originalTransaction : ParsedTransaction := legacySigned 20000000000 originalR originalS

def replacementTransaction : ParsedTransaction :=
  legacySigned 22000000000 replacementR replacementS

def originalBytes : Bytes :=
  bytesOf 45 0xf86c098504a817c800825208943535353535353535353535353535353535353535880de0b6b3a76400008025a0 ++
    bytesOf 32 originalR ++ [0xa0] ++ bytesOf 32 originalS

def replacementBytes : Bytes :=
  bytesOf 45 0xf86c0985051f4d5c00825208943535353535353535353535353535353535353535880de0b6b3a76400008025a0 ++
    bytesOf 32 replacementR ++ [0xa0] ++ bytesOf 32 replacementS

def originalUnsignedBytes : Bytes :=
  bytesOf 45 0xec098504a817c800825208943535353535353535353535353535353535353535880de0b6b3a764000080018080

def replacementUnsignedBytes : Bytes :=
  bytesOf 45 0xec0985051f4d5c00825208943535353535353535353535353535353535353535880de0b6b3a764000080018080

def intentBytes : Bytes :=
  bytesOf 40 0xe70980825208943535353535353535353535353535353535353535880de0b6b3a764000080018080

def legacyEncodings : List (ParsedTransaction × Bytes) :=
  [(originalTransaction, originalBytes), (replacementTransaction, replacementBytes),
    (legacyUnsigned (some 20000000000), originalUnsignedBytes),
    (legacyUnsigned (some 22000000000), replacementUnsignedBytes),
    (legacyUnsigned (some 0), intentBytes)]

def legacyHashes : List (Bytes × Hash) :=
  [(originalBytes, 0x33469b22e9f636356c4160a87eb19df52b7412e8eac32a4a55ffe88ea8350788),
    (replacementBytes, 0x9626fcd0b95b69d63ce40e80d1c28c9bad58aa53ed20a1f95b8c503807e58cde),
    (originalUnsignedBytes, 0xdaf5a779ae972f972197303d7b574746c7ef83eadac0f2791ad23db92e4c8e53),
    (replacementUnsignedBytes, 0xeaa54aef78bef455f69fcb73f006f8944e883f02483075b456b1dee52c1cfae1),
    (intentBytes, 0xca82cea9175a2590894b6fe46d27b8a06cd2448c6c1d1412198160268cb5b425)]

def legacyLibrary : TransactionLibrary where
  keccak256 bytes := (legacyHashes.lookup bytes).getD 0
  parseTransaction bytes :=
    (legacyEncodings.find? fun e => e.2 == bytes).map fun e => e.1.normal
  serializeTransaction t := (legacyEncodings.find? fun e => e.1 == t).map (·.2)
  recoverTransactionAddress bytes :=
    if bytes = originalBytes ∨ bytes = replacementBytes then some legacySigner else none

def legacySigns (address : Address) (hash : Hash) (r s yParity : ℕ) : Prop :=
  address = legacySigner ∧ (hash, r, s, yParity) ∈
    [(0xdaf5a779ae972f972197303d7b574746c7ef83eadac0f2791ad23db92e4c8e53,
      originalR, originalS, 0),
    (0xeaa54aef78bef455f69fcb73f006f8944e883f02483075b456b1dee52c1cfae1,
      replacementR, replacementS, 0)]

theorem legacyLibrary_meets : legacyLibrary.Meets legacySigns := by
  have hnormal : ∀ e ∈ legacyEncodings, e.1.normal.WellTyped ∧ e.1.normal.normal = e.1.normal := by
    decide
  have hround : ∀ e ∈ legacyEncodings,
      legacyLibrary.parseTransaction e.2 = some e.1.normal := by
    decide
  refine ⟨?_, ?_, ?_⟩
  · intro bytes t hparse _ _
    obtain ⟨e, hfind, ht⟩ := Option.map_eq_some_iff.mp hparse
    rw [← ht]
    exact hnormal e (List.mem_of_find?_eq_some hfind)
  · intro t bytes _ _ _ hserialize
    obtain ⟨e, hfind, hbytes⟩ := Option.map_eq_some_iff.mp hserialize
    have hfound := List.find?_some hfind
    have hsame : e.1 = t := eq_of_beq hfound
    rw [← hbytes, ← hsame]
    exact hround e (List.mem_of_find?_eq_some hfind)
  · intro bytes t address hparse hrecover
    have hbytes : bytes = originalBytes ∨ bytes = replacementBytes := by
      by_contra hne
      have hnone : legacyLibrary.recoverTransactionAddress bytes = none := if_neg hne
      rw [hnone] at hrecover
      cases hrecover
    have haddress : legacyLibrary.recoverTransactionAddress bytes = some legacySigner :=
      if_pos hbytes
    obtain rfl : legacySigner = address := Option.some.inj (haddress.symm.trans hrecover)
    rcases hbytes with rfl | rfl
    · have horiginal := hround (originalTransaction, originalBytes) (by decide)
      obtain rfl : originalTransaction.normal = t := Option.some.inj (horiginal.symm.trans hparse)
      exact ⟨originalUnsignedBytes, by decide, originalR, rfl, originalS, rfl, 0, rfl, rfl, by decide⟩
    · have hreplacement := hround (replacementTransaction, replacementBytes) (by decide)
      obtain rfl : replacementTransaction.normal = t :=
        Option.some.inj (hreplacement.symm.trans hparse)
      exact ⟨replacementUnsignedBytes, by decide, replacementR, rfl, replacementS, rfl, 0, rfl, rfl,
        by decide⟩

def legacyVariants : SignedTransactions :=
  ⟨⟨0x33469b22e9f636356c4160a87eb19df52b7412e8eac32a4a55ffe88ea8350788, originalBytes⟩,
    [⟨0x9626fcd0b95b69d63ce40e80d1c28c9bad58aa53ed20a1f95b8c503807e58cde, replacementBytes⟩]⟩

def legacyRequest : PreparedRelayerTransaction :=
  ⟨0x3535353535353535353535353535353535353535, [], 1000000000000000000, 21000,
    .legacy 20000000000⟩

/-- The replacement is accepted with the original, and an account that signs it instead of
the original is refused. -/
theorem legacy_variants_accepted :
    SameEffects originalTransaction replacementTransaction ∧
    (∃ signed t, signPreparedTransaction legacyLibrary ⟨1, legacySigner⟩ 9 legacySigner legacyRequest
      (some originalBytes) = .ok signed ∧ SignedAsRequested ⟨1, legacySigner⟩ 9 legacyRequest t) ∧
    ∃ e, signPreparedTransaction legacyLibrary ⟨1, legacySigner⟩ 9 legacySigner legacyRequest
      (some replacementBytes) = .error e := by
  have haccepted : verifyJournalAttempt legacyLibrary ⟨1, legacySigner⟩ 9 legacyVariants = true := by
    decide
  have hsigned : signPreparedTransaction legacyLibrary ⟨1, legacySigner⟩ 9 legacySigner legacyRequest
      (some originalBytes) = .ok legacyVariants.original := by
    rfl
  obtain ⟨hvariants, hsigning⟩ :=
    @accepted_one_transaction legacyLibrary legacySigns ⟨1, legacySigner⟩ 9 legacyLibrary_meets
  refine ⟨?_, ?_, ?_⟩
  · apply (hvariants legacyVariants haccepted).2 legacyVariants.original (by decide)
      ⟨0x9626fcd0b95b69d63ce40e80d1c28c9bad58aa53ed20a1f95b8c503807e58cde, replacementBytes⟩
      (by decide)
    · decide
    · decide
  · rcases hsigning legacySigner legacyRequest (some originalBytes) with ⟨e, he⟩ |
      ⟨signed, t, hok, _, _, hrequested⟩
    · rw [hsigned] at he
      cases he
    · exact ⟨signed, t, hok, hrequested⟩
  · exact ⟨_, rfl⟩

end Quicknet
