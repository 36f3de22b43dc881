import Quicknet.JournalText
import Quicknet.Library.ObjectGraph

/-! The details that the relayer registers for its own errors. A registration keeps values only
after their checks, so that the types of the details state what was checked. -/
namespace Quicknet

open Json (Text text unit)
open ObjectGraph

def isFixedHex (bytes : ℕ) (t : Text) : Bool := (readFixedHex bytes t).isSome

abbrev FixedHex (bytes : ℕ) := {t : Text // isFixedHex bytes t = true}

def checkFixedHex (bytes : ℕ) (t : Text) : Option (FixedHex bytes) :=
  if h : isFixedHex bytes t = true then some ⟨t, h⟩ else none

/-! Mismatches. -/

abbrev ChainNumber := {n : ℕ // 0 < n ∧ n ≤ MAX_SAFE_INTEGER}

def checkChainNumber (x : Option ℚ) : Option ChainNumber :=
  (safeInteger x).bind fun n =>
    if h : 0 < n.toNat ∧ n.toNat ≤ MAX_SAFE_INTEGER then some ⟨n.toNat, h⟩ else none

inductive MismatchDetails
  | deploymentChain (expected received : ChainNumber)
  | consumerRegistry (consumer expected received : FixedHex 20)
  deriving DecidableEq

def mismatchMessage : MismatchDetails → Text
  | .deploymentChain expected received =>
    text "Deployment manifest chain mismatch: expected " ++ Json.decimal expected.val ++
      text ", received " ++ Json.decimal received.val ++ text "."
  | .consumerRegistry consumer expected received =>
    text "Quicknet consumer " ++ consumer.val ++ text " uses registry " ++ received.val ++
      text ", but relayer is configured for " ++ expected.val ++ text "."

/-- The error that is thrown, with what is registered for it. -/
structure MismatchError where
  message : Text
  details : MismatchDetails

def MismatchError.register (details : MismatchDetails) : MismatchError :=
  ⟨mismatchMessage details, details⟩

def createDeploymentChainMismatchError (expected received : Option ℚ) :
    Except Failure MismatchError :=
  match checkChainNumber expected, checkChainNumber received with
  | some expected, some received => return .register (.deploymentChain expected received)
  | _, _ => throw (.typeError "Invalid deployment chain mismatch.")

def createConsumerRegistryMismatchError (consumer expected received : Text) :
    Except Failure MismatchError :=
  match checkFixedHex 20 consumer, checkFixedHex 20 expected, checkFixedHex 20 received with
  | some consumer, some expected, some received =>
    return .register (.consumerRegistry consumer expected received)
  | _, _, _ => throw (.typeError "Invalid consumer registry mismatch.")

theorem checkChainNumber_eq_some {n : ℕ} (h : 0 < n ∧ n ≤ MAX_SAFE_INTEGER) :
    checkChainNumber (some n) = some ⟨n, h⟩ := by
  have hsafe : safeInteger (some (n : ℚ)) = some (n : ℤ) := by
    simp only [safeInteger, Option.bind_some, Rat.den_natCast, Rat.num_natCast, Int.natAbs_natCast]
    exact if_pos ⟨by simp, h.2⟩
  rw [checkChainNumber, hsafe, Option.bind_some]
  exact dif_pos h

/-- A chain mismatch is created from positive safe integers only. -/
theorem createDeploymentChainMismatchError_ok {expected received : Option ℚ} :
    (createDeploymentChainMismatchError expected received).isOk = true ↔
      ∃ e r : ChainNumber, expected = some (e.val : ℚ) ∧ received = some (r.val : ℚ) := by
  -- a number passes the check exactly as the value that it is
  have hcheck (x : Option ℚ) (n : ChainNumber) :
      checkChainNumber x = some n ↔ x = some (n.val : ℚ) := by
    constructor
    · intro h
      obtain ⟨m, hm, hn⟩ := Option.bind_eq_some_iff.mp h
      obtain ⟨rfl, _⟩ := safeInteger_eq_some hm
      split_ifs at hn with hpos
      obtain rfl := Option.some.inj hn
      have hcast : (m.toNat : ℤ) = m := by omega
      exact congrArg some (by exact_mod_cast congrArg (fun k : ℤ => (k : ℚ)) hcast.symm)
    · rintro rfl
      exact checkChainNumber_eq_some n.property
  rw [createDeploymentChainMismatchError]
  constructor
  · intro h
    split at h
    · next e r he hr => exact ⟨e, r, (hcheck _ e).mp he, (hcheck _ r).mp hr⟩
    · cases h
  · rintro ⟨e, r, he, hr⟩
    rw [(hcheck expected e).mpr he, (hcheck received r).mpr hr]
    rfl

/-- A registry mismatch is created from three addresses only. -/
theorem createConsumerRegistryMismatchError_ok {consumer expected received : Text} :
    (createConsumerRegistryMismatchError consumer expected received).isOk = true ↔
      isFixedHex 20 consumer = true ∧ isFixedHex 20 expected = true ∧
        isFixedHex 20 received = true := by
  have hcheck (t : Text) : (checkFixedHex 20 t).isSome = true ↔ isFixedHex 20 t = true := by
    unfold checkFixedHex
    split_ifs with h <;> simp [h]
  rw [← hcheck consumer, ← hcheck expected, ← hcheck received, createConsumerRegistryMismatchError]
  cases checkFixedHex 20 consumer <;> cases checkFixedHex 20 expected <;>
    cases checkFixedHex 20 received <;> simp [Except.isOk, Except.toBool]
  rfl

/-! Anchored reads. -/

inductive AnchoredReadMethod
  | ethGetBlockByNumber
  | ethGetTransactionCount
  deriving DecidableEq

def AnchoredReadMethod.label : AnchoredReadMethod → Text
  | .ethGetBlockByNumber => text "eth_getBlockByNumber"
  | .ethGetTransactionCount => text "eth_getTransactionCount"

inductive AnchoredReadOperation
  | signerBootstrap
  | signerRecovery
  | signerInclusions
  | nonceSync
  deriving DecidableEq

def AnchoredReadOperation.label : AnchoredReadOperation → Text
  | .signerBootstrap => text "signer-bootstrap"
  | .signerRecovery => text "signer-recovery"
  | .signerInclusions => text "signer-inclusions"
  | .nonceSync => text "nonce-sync"

abbrev BoundedUint256 := {n : ℕ // n ≤ MAX_UINT256}

inductive AnchoredReadFinality
  | safe
  | finalized
  | confirmations (confirmations : BoundedUint256)
  deriving DecidableEq

/-- The type, and the confirmations in decimal. -/
def AnchoredReadFinality.texts : AnchoredReadFinality → List Text
  | .safe => [text "safe"]
  | .finalized => [text "finalized"]
  | .confirmations n => [text "confirmations", Json.decimal n.val]

structure AnchoredReadScope where
  operation : Option AnchoredReadOperation
  finality : Option AnchoredReadFinality

structure AnchoredReadDetails extends AnchoredReadScope where
  method : AnchoredReadMethod
  blockNumber : BoundedUint256
  expectedBlockHash : Option (FixedHex 32)
  durationMs : {x : ℚ // 0 ≤ x}

/-- The texts of the details, with the block number in decimal. -/
def AnchoredReadDetails.texts (details : AnchoredReadDetails) : List Text :=
  [details.method.label, Json.decimal details.blockNumber.val] ++
    (details.expectedBlockHash.map (·.val)).toList ++
    (details.operation.map (·.label)).toList ++ details.finality.elim [] (·.texts)

def MismatchDetails.texts : MismatchDetails → List Text
  | .deploymentChain _ _ => [text "deployment-chain"]
  | .consumerRegistry consumer expected received =>
    [text "consumer-registry", consumer.val, expected.val, received.val]

section Registration

variable (g : Graph)

/-- `none` when the descriptor cannot be read. -/
def own (o : ℕ) (key : String) : Option Value :=
  match g.ownProperty o key with
  | .data v => some v
  | .throws => none
  | _ => some .undefined

def ANCHORED_READ_OPERATIONS : List AnchoredReadOperation :=
  [.signerBootstrap, .signerRecovery, .signerInclusions, .nonceSync]

def ANCHORED_READ_METHODS : List AnchoredReadMethod :=
  [.ethGetBlockByNumber, .ethGetTransactionCount]

def checkUint256 : Value → Option BoundedUint256
  | .bigint n =>
    if h : 0 ≤ n ∧ n.toNat ≤ MAX_UINT256 then some ⟨n.toNat, h.2⟩ else none
  | _ => none

def checkOperation (v : Value) : Option AnchoredReadOperation :=
  ANCHORED_READ_OPERATIONS.find? fun operation => v = .string operation.label

def checkMethod (v : Value) : Option AnchoredReadMethod :=
  ANCHORED_READ_METHODS.find? fun method => v = .string method.label

def checkDuration : Value → Option {x : ℚ // 0 ≤ x}
  | .number (some x) => if h : 0 ≤ x then some ⟨x, h⟩ else none
  | _ => none

/-- The outer `none` refuses the hash. -/
def checkBlockHash : Value → Option (Option (FixedHex 32))
  | .undefined => some none
  | .string t => (checkFixedHex 32 t).map some
  | _ => none

def captureFinality (finality : ℕ) : Option AnchoredReadFinality := do
  let type ← own g finality "type"
  if type = .string (text "safe") then some .safe
  else if type = .string (text "finalized") then some .finalized
  else if type = .string (text "confirmations") then
    (checkUint256 (← own g finality "confirmations")).map .confirmations
  else none

/-- Each of the two is captured, or left out, on its own. -/
def captureAnchoredReadScope : Option ℕ → AnchoredReadScope
  | none => ⟨none, none⟩
  | some input =>
    { operation := (own g input "operation").bind checkOperation
      finality := (own g input "finality").bind fun finality =>
        match finality with
        | .object o => captureFinality g o
        | _ => none }

def checkAnchoredRead (context : ℕ) : Option AnchoredReadDetails := do
  let method ← own g context "method"
  let blockNumber ← own g context "blockNumber"
  let expectedBlockHash ← own g context "expectedBlockHash"
  let durationMs ← own g context "durationMs"
  let method ← checkMethod method
  let blockNumber ← checkUint256 blockNumber
  let durationMs ← checkDuration durationMs
  let expectedBlockHash ← checkBlockHash expectedBlockHash
  return { captureAnchoredReadScope g (some context) with
    method, blockNumber, expectedBlockHash, durationMs }

/-- The details of errors by their number, as a `WeakMap` has them. -/
abbrev AnchoredReads := ℕ → Option AnchoredReadDetails

def registerAnchoredReadFailure (registered : AnchoredReads) (error : Value) (context : ℕ) :
    AnchoredReads :=
  match error with
  | .object o =>
    if (registered o).isSome = true then registered
    else Function.update registered o (checkAnchoredRead g context)
  | _ => registered

/-- What was registered for an error stays. -/
theorem registerAnchoredReadFailure_kept {registered : AnchoredReads} {o : ℕ}
    {details : AnchoredReadDetails} (h : registered o = some details) (error : Value)
    (context : ℕ) : registerAnchoredReadFailure g registered error context o = some details := by
  cases error with
  | object p =>
    rw [registerAnchoredReadFailure]
    split_ifs with hsome
    · exact h
    · have hne : o ≠ p := by
        rintro rfl
        exact hsome (by rw [h]; rfl)
      rw [Function.update_of_ne hne, h]
  | _ => exact h

/-- Of an error without details the first context decides. -/
theorem registerAnchoredReadFailure_new {registered : AnchoredReads} {o : ℕ}
    (h : registered o = none) (context : ℕ) :
    registerAnchoredReadFailure g registered (.object o) context o =
      checkAnchoredRead g context := by
  rw [registerAnchoredReadFailure, if_neg (by simp [h]), Function.update_self]

end Registration

end Quicknet
