import Quicknet.JournalText

/-! `encodeJournalSnapshot` and `decodeJournalSnapshot`. Both catch whatever is thrown
inside them, so a failure inside is `none` here, and the one error they throw comes
last. -/
namespace Quicknet

open Json (Text text unit Value)

def MAX_JOURNAL_BYTES : ℕ := 1048576

def INVALID_ENCODING : String := "Invalid transaction journal encoding."

section Verification

variable (lib : TransactionLibrary)

def validateJournalText (input : SnapshotText) (expected : IdentityText) :
    Option SnapshotText := do
  let identity ← readIdentity expected
  let snapshot ← readSnapshot input
  match validateJournalSnapshotStructure snapshot identity with
  | .ok _ => some input
  | .error _ => none

def verifyJournalText (input : SnapshotText) (expected : IdentityText) : Option SnapshotText := do
  let identity ← readIdentity expected
  let snapshot ← readSnapshot input
  match verifyJournalSnapshot lib snapshot identity with
  | .ok _ => some input
  | .error _ => none

end Verification

/-! `JSON.stringify` of a snapshot, fields in the order in which validation copies them. -/

/-- The replacer writes a bigint as a string. -/
def encodeBigint (n : ℕ) : Value := .string (Json.decimal n)

def encodeNullable {α : Type} (encode : α → Value) : Option α → Value
  | none => .null
  | some a => encode a

def encodeIdentity (t : IdentityText) : Value :=
  .object [(text "chainId", .number (.ofNat t.chainId)), (text "signer", .string t.signer)]

def encodeAnchor (t : AnchorText) : Value :=
  .object [(text "blockNumber", encodeBigint t.blockNumber),
    (text "blockHash", .string t.blockHash)]

def encodeObservation (t : ObservationText) : Value :=
  .object [(text "anchor", encodeAnchor t.anchor), (text "nonce", encodeBigint t.nonce)]

def encodeRepair (t : RepairText) : Value :=
  .object [(text "kind", .string t.kind), (text "at", .string t.at'),
    (text "previousNextNonce", encodeBigint t.previousNextNonce),
    (text "nextNonce", encodeBigint t.nextNonce),
    (text "observation", encodeObservation t.observation)]

def encodeSearch (t : SearchText) : Value :=
  .object [(text "lowerBound", encodeObservation t.lowerBound),
    (text "searchedThrough", encodeNullable encodeAnchor t.searchedThrough)]

def encodeSignedTransaction (t : SignedTransactionText) : Value :=
  .object [(text "transactionHash", .string t.transactionHash),
    (text "signedTransaction", .string t.signedTransaction)]

def encodeInclusion (t : InclusionText) : Value :=
  let fields := [(text "inclusion", encodeAnchor t.inclusion),
    (text "observedAt", encodeAnchor t.observedAt)]
  match t.outcome with
  | .success h =>
    .object (fields ++ [(text "outcome", .string (text "success")),
      (text "transactionHash", .string h)])
  | .reverted h =>
    .object (fields ++ [(text "outcome", .string (text "reverted")),
      (text "transactionHash", .string h)])
  | .replaced h nonceAtAnchor =>
    .object (fields ++ [(text "outcome", .string (text "replaced")),
      (text "replacementTransactionHash", .string h),
      (text "nonceAtAnchor", encodeBigint nonceAtAnchor)])

/-- The phase and the inclusion that goes with it. -/
def encodePhase : PhaseText → Value × Value
  | .signed => (.string (text "signed"), .null)
  | .broadcastMayHaveOccurred => (.string (text "broadcast-may-have-occurred"), .null)
  | .included i => (.string (text "included"), encodeInclusion i)

def encodeAttempt (t : AttemptText) : Value :=
  .object [(text "attemptId", .string t.attemptId), (text "workId", .string t.workId),
    (text "nonce", encodeBigint t.nonce), (text "createdAt", .string t.createdAt),
    (text "signedTransactions", .array (t.signedTransactions.map encodeSignedTransaction)),
    (text "replacementSearch", encodeNullable encodeSearch t.replacementSearch),
    (text "phase", (encodePhase t.phase).1), (text "inclusion", (encodePhase t.phase).2)]

def encodeSnapshot (t : SnapshotText) : Value :=
  .object [(text "version", .number (.ofNat 1)), (text "identity", encodeIdentity t.identity),
    (text "baseline", encodeObservation t.baseline),
    (text "lastObservation", encodeObservation t.lastObservation),
    (text "nextNonce", encodeBigint t.nextNonce),
    (text "durableNextNonce", encodeBigint t.durableNextNonce),
    (text "repairs", .array (t.repairs.map encodeRepair)),
    (text "attempts", .array (t.attempts.map encodeAttempt))]

/-- The text of a snapshot, as it is written to the file. -/
def journalText (t : SnapshotText) : Text := Json.print (encodeSnapshot t) ++ text "\n"

def signedTransactionUnits (t : SnapshotText) : ℕ :=
  (t.attempts.map fun a => (a.signedTransactions.map (·.signedTransaction.length)).sum).sum

def BoundedContents (contents : Text) : Prop :=
  contents ≠ [] ∧ Json.utf8Length contents ≤ MAX_JOURNAL_BYTES

instance (contents : Text) : Decidable (BoundedContents contents) := by
  unfold BoundedContents
  infer_instance

/-- What the `catch` clause makes of a failure inside. -/
def orInvalidEncoding {α : Type} : Option α → Except Failure α
  | some a => .ok a
  | none => .error (.typeError INVALID_ENCODING)

def encodeJournalSnapshot (lib : TransactionLibrary) (input : SnapshotText)
    (expected : IdentityText) : Except Failure Text :=
  orInvalidEncoding do
    let snapshot ← validateJournalText input expected
    guard (signedTransactionUnits snapshot ≤ MAX_JOURNAL_BYTES)
    let contents := journalText snapshot
    guard (BoundedContents contents)
    let _ ← verifyJournalText lib snapshot expected
    return contents

/-! Decoding. A value without the field, or without the type, that the decoder or the
validation after it asks for has no result. -/

/-- `chainId` must be a safe integer, and `version` is compared with one, after the
number has been rounded to a double. -/
def decodeNumber : Value → Option ℕ
  | .number n => (Json.nearestDouble n.value).bind fun q =>
    if q.den = 1 ∧ 0 ≤ q.num then some q.num.toNat else none
  | _ => none

def decodeString : Value → Option Text
  | .string t => some t
  | _ => none

def decodeDecimal : Value → Option ℕ
  | .string t =>
    if t ≠ [] ∧ t.length ≤ 78 ∧ t.all Json.isDigit = true ∧
        ¬ (1 < t.length ∧ t.head? = some (Json.digit 0)) then
      some (Json.decimalValue t)
    else none
  | _ => none

def decodeArray {α : Type} (decodeItem : Value → Option α) : Value → Option (List α)
  | .array elements => elements.mapM decodeItem
  | _ => none

def decodeNullable {α : Type} (decode : Value → Option α) : Value → Option (Option α)
  | .null => some none
  | v => (decode v).map some

def decodeIdentity (v : Value) : Option IdentityText := do
  let chainId ← (v.field "chainId").bind decodeNumber
  let signer ← (v.field "signer").bind decodeString
  return ⟨chainId, signer⟩

def decodeAnchor (v : Value) : Option AnchorText := do
  let blockNumber ← (v.field "blockNumber").bind decodeDecimal
  let blockHash ← (v.field "blockHash").bind decodeString
  return ⟨blockNumber, blockHash⟩

def decodeObservation (v : Value) : Option ObservationText := do
  let anchor ← (v.field "anchor").bind decodeAnchor
  let nonce ← (v.field "nonce").bind decodeDecimal
  return ⟨anchor, nonce⟩

def decodeRepair (v : Value) : Option RepairText := do
  let kind ← (v.field "kind").bind decodeString
  let at' ← (v.field "at").bind decodeString
  let previousNextNonce ← (v.field "previousNextNonce").bind decodeDecimal
  let nextNonce ← (v.field "nextNonce").bind decodeDecimal
  let observation ← (v.field "observation").bind decodeObservation
  return ⟨kind, at', previousNextNonce, nextNonce, observation⟩

def decodeRepairs : Value → Option (List RepairText)
  | .array elements =>
    if elements.length ≤ MAX_RETAINED_NONCE_REPAIRS then
      decodeArray decodeRepair (.array elements)
    else none
  | _ => none

def decodeSearch (v : Value) : Option SearchText := do
  let searchedThrough ← (v.field "searchedThrough").bind (decodeNullable decodeAnchor)
  let lowerBound ← (v.field "lowerBound").bind decodeObservation
  return ⟨lowerBound, searchedThrough⟩

def decodeSignedTransaction (v : Value) : Option SignedTransactionText := do
  let transactionHash ← (v.field "transactionHash").bind decodeString
  let signedTransaction ← (v.field "signedTransaction").bind decodeString
  return ⟨transactionHash, signedTransaction⟩

def decodeInclusion (v : Value) : Option InclusionText := do
  let inclusion ← (v.field "inclusion").bind decodeAnchor
  let observedAt ← (v.field "observedAt").bind decodeAnchor
  let outcome ← (v.field "outcome").bind decodeString
  if outcome = text "success" then
    let h ← (v.field "transactionHash").bind decodeString
    return ⟨inclusion, observedAt, .success h⟩
  else if outcome = text "reverted" then
    let h ← (v.field "transactionHash").bind decodeString
    return ⟨inclusion, observedAt, .reverted h⟩
  else if outcome = text "replaced" then
    let h ← (v.field "replacementTransactionHash").bind decodeString
    let nonceAtAnchor ← (v.field "nonceAtAnchor").bind decodeDecimal
    return ⟨inclusion, observedAt, .replaced h nonceAtAnchor⟩
  else none

/-- `readAttempt` refuses every other pair of a phase and an inclusion. -/
def decodePhase (phase : Text) (inclusion : Option InclusionText) : Option PhaseText :=
  match inclusion with
  | none =>
    if phase = text "signed" then some .signed
    else if phase = text "broadcast-may-have-occurred" then some .broadcastMayHaveOccurred
    else none
  | some i => if phase = text "included" then some (.included i) else none

def decodeAttempt (v : Value) : Option AttemptText := do
  let attemptId ← (v.field "attemptId").bind decodeString
  let workId ← (v.field "workId").bind decodeString
  let nonce ← (v.field "nonce").bind decodeDecimal
  let createdAt ← (v.field "createdAt").bind decodeString
  let phase ← (v.field "phase").bind decodeString
  let signedTransactions ←
    (v.field "signedTransactions").bind (decodeArray decodeSignedTransaction)
  let replacementSearch ← (v.field "replacementSearch").bind (decodeNullable decodeSearch)
  let inclusion ← (v.field "inclusion").bind (decodeNullable decodeInclusion)
  let phase ← decodePhase phase inclusion
  return ⟨attemptId, workId, nonce, createdAt, signedTransactions, replacementSearch, phase⟩

def decodeSnapshot (v : Value) : Option SnapshotText := do
  let version ← (v.field "version").bind decodeNumber
  guard (version = 1)
  let identity ← (v.field "identity").bind decodeIdentity
  let baseline ← (v.field "baseline").bind decodeObservation
  let lastObservation ← (v.field "lastObservation").bind decodeObservation
  let nextNonce ← (v.field "nextNonce").bind decodeDecimal
  let durableNextNonce ← (v.field "durableNextNonce").bind decodeDecimal
  let repairs ← (v.field "repairs").bind decodeRepairs
  let attempts ← (v.field "attempts").bind (decodeArray decodeAttempt)
  return ⟨identity, baseline, lastObservation, nextNonce, durableNextNonce, repairs, attempts⟩

def decodeJournalSnapshot (lib : TransactionLibrary) (contents : Text)
    (expected : IdentityText) : Except Failure SnapshotText :=
  orInvalidEncoding do
    guard (BoundedContents contents)
    let root ← Json.parse contents
    let decoded ← decodeSnapshot root
    verifyJournalText lib decoded expected

end Quicknet
