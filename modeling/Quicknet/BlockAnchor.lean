import Quicknet.Journal
import Quicknet.Library.Interaction

/-! Reads of the chain through the RPC client. A reply holds `none` where the
response has no value that the source's checks accept. The block read of
`getBlockAnchor` carries the expected hash, which the source passes along for
its diagnostics; it is present exactly on the checks of a selected anchor. -/
namespace Quicknet

open Interaction

inductive NonceTag
  | at (blockNumber : ℕ)
  | latest
  | pending
  deriving DecidableEq, Repr

inductive Query
  | block (blockNumber : ℕ) (expectedBlockHash : Option Hash)
  | fullBlock (blockNumber : ℕ)
  | transactionCount (address : Address) (tag : NonceTag)
  | transactionReceipt (hash : Hash)
  deriving DecidableEq, Repr

structure BlockReply where
  number : Option ℕ
  hash : Option Hash
  deriving DecidableEq, Repr

structure TransactionReply where
  hash : Option Hash
  sender : Option Address
  nonce : Option ℕ
  deriving DecidableEq, Repr

structure FullBlockReply where
  number : Option ℕ
  hash : Option Hash
  parentHash : Option Hash
  transactions : Option (List TransactionReply)
  deriving DecidableEq, Repr

inductive ReceiptStatus
  | success
  | reverted
  deriving DecidableEq, Repr

structure ReceiptReply where
  transactionHash : Option Hash
  blockNumber : Option ℕ
  blockHash : Option Hash
  status : Option ReceiptStatus
  deriving DecidableEq, Repr

/-- A receipt that is not found is an answer; other rejections fail the read. -/
def Query.Reply : Query → Type
  | .block _ _ => BlockReply
  | .fullBlock _ => FullBlockReply
  | .transactionCount _ _ => Option ℕ
  | .transactionReceipt _ => Option ReceiptReply

abbrev Rpc (α : Type) := Prog Query.Reply Failure α
abbrev RpcLog := List (Exchange Query.Reply Failure)

def blockRead (blockNumber : ℕ) (expected : Option Hash) (reply : BlockReply) :
    Exchange Query.Reply Failure := ⟨.block blockNumber expected, .ok reply⟩

def fullBlockRead (blockNumber : ℕ) (reply : FullBlockReply) : Exchange Query.Reply Failure :=
  ⟨.fullBlock blockNumber, .ok reply⟩

def nonceRead (address : Address) (tag : NonceTag) (reply : Option ℕ) :
    Exchange Query.Reply Failure := ⟨.transactionCount address tag, .ok reply⟩

def receiptRead (hash : Hash) (reply : Option ReceiptReply) : Exchange Query.Reply Failure :=
  ⟨.transactionReceipt hash, .ok reply⟩

/-! The client's methods. -/

def getBlock (blockNumber : ℕ) (expected : Option Hash) : Rpc BlockReply :=
  Prog.ask (Query.block blockNumber expected)

def getFullBlock (blockNumber : ℕ) : Rpc FullBlockReply := Prog.ask (Query.fullBlock blockNumber)

def getTransactionCount (address : Address) (tag : NonceTag) : Rpc (Option ℕ) :=
  Prog.ask (Query.transactionCount address tag)

def getTransactionReceipt (hash : Hash) : Rpc (Option ReceiptReply) :=
  Prog.ask (Query.transactionReceipt hash)

theorem getBlock_ok_iff {n : ℕ} {e : Option Hash} {log : RpcLog} {r : BlockReply} :
    (getBlock n e).replay log = some (.ok r) ↔ log = [blockRead n e r] :=
  Prog.replay_ask_ok_iff

theorem getFullBlock_ok_iff {n : ℕ} {log : RpcLog} {r : FullBlockReply} :
    (getFullBlock n).replay log = some (.ok r) ↔ log = [fullBlockRead n r] :=
  Prog.replay_ask_ok_iff

theorem getTransactionCount_ok_iff {a : Address} {t : NonceTag} {log : RpcLog} {r : Option ℕ} :
    (getTransactionCount a t).replay log = some (.ok r) ↔ log = [nonceRead a t r] :=
  Prog.replay_ask_ok_iff

theorem getTransactionReceipt_ok_iff {h : Hash} {log : RpcLog} {r : Option ReceiptReply} :
    (getTransactionReceipt h).replay log = some (.ok r) ↔ log = [receiptRead h r] :=
  Prog.replay_ask_ok_iff

def blockAnchorsMatch (first second : BlockAnchor) : Bool :=
  first.blockNumber == second.blockNumber && first.blockHash == second.blockHash

theorem blockAnchorsMatch_iff {a b : BlockAnchor} : blockAnchorsMatch a b = true ↔ a = b := by
  cases a
  cases b
  simp [blockAnchorsMatch]

def getBlockAnchor (blockNumber : ℕ) (expectedBlockHash : Option Hash) : Rpc BlockAnchor := do
  let block ← getBlock blockNumber expectedBlockHash
  match block.hash with
  | some hash =>
    if block.number = some blockNumber then return ⟨blockNumber, hash⟩
    else .throw (.error "Invalid block anchor response.")
  | none => .throw (.error "Invalid block anchor response.")

/-- `none` when the block still has the expected hash, else what was observed. -/
def checkBlockAnchor (expected : BlockAnchor) : Rpc (Option BlockAnchor) := do
  let observed ← getBlockAnchor expected.blockNumber (some expected.blockHash)
  if blockAnchorsMatch expected observed then return none
  else return some observed

/-- The exchange of an anchor check that found the anchor unchanged. -/
def anchorSeen (a : BlockAnchor) : Exchange Query.Reply Failure :=
  blockRead a.blockNumber (some a.blockHash) ⟨some a.blockNumber, some a.blockHash⟩

theorem getBlockAnchor_ok_iff {n : ℕ} {e : Option Hash} {log : RpcLog} {a : BlockAnchor} :
    (getBlockAnchor n e).replay log = some (.ok a) ↔
      a.blockNumber = n ∧ log = [blockRead n e ⟨some n, some a.blockHash⟩] := by
  unfold getBlockAnchor
  rw [Prog.bind_eq, Prog.replay_bind_ok_iff]
  constructor
  · rintro ⟨block, l₁, l₂, rfl, h₁, h₂⟩
    rw [getBlock_ok_iff.mp h₁]
    split at h₂
    · rename_i hash hh
      split_ifs at h₂ with hn
      · rw [Prog.pure_eq] at h₂
        obtain ⟨rfl, ha⟩ := Prog.replay_ret_iff.mp h₂
        obtain rfl := Except.ok.inj ha
        refine ⟨rfl, ?_⟩
        rw [← hn, ← hh]
        rfl
      · exact absurd (Prog.replay_throw_iff.mp h₂).2 (by simp)
    · exact absurd (Prog.replay_throw_iff.mp h₂).2 (by simp)
  · rintro ⟨rfl, rfl⟩
    refine ⟨⟨some a.blockNumber, some a.blockHash⟩, _, [], (List.append_nil _).symm,
      getBlock_ok_iff.mpr rfl, ?_⟩
    simp [Prog.replay]

theorem checkBlockAnchor_unchanged_iff {a : BlockAnchor} {log : RpcLog} :
    (checkBlockAnchor a).replay log = some (.ok none) ↔ log = [anchorSeen a] := by
  unfold checkBlockAnchor
  rw [Prog.bind_eq, Prog.replay_bind_ok_iff]
  constructor
  · rintro ⟨b, l₁, l₂, rfl, h₁, h₂⟩
    obtain ⟨hn, rfl⟩ := getBlockAnchor_ok_iff.mp h₁
    split_ifs at h₂ with hm
    · obtain ⟨rfl, _⟩ := Prog.replay_ret_iff.mp h₂
      rw [blockAnchorsMatch_iff.mp hm]
      rfl
    · exact absurd (Prog.replay_ret_iff.mp h₂).2 (by simp)
  · rintro rfl
    refine ⟨a, _, [], (List.append_nil _).symm, getBlockAnchor_ok_iff.mpr ⟨rfl, rfl⟩, ?_⟩
    rw [if_pos (blockAnchorsMatch_iff.mpr rfl)]
    rfl

/-! The signer's transaction count at a block, between two checks of it. -/

inductive AnchoredNonceResult
  | verified (observation : AnchoredNonceObservation)
  | anchorChanged (observedAnchor : BlockAnchor)
  deriving DecidableEq, Repr

def parseNonceResponse (value : Option ℕ) : Except Failure ℕ :=
  match value with
  | some n => if n ≤ MAX_SAFE_INTEGER then .ok n else .error (.typeError "Invalid nonce response.")
  | none => .error (.typeError "Invalid nonce response.")

def readAnchoredNonce (signer : Address) (anchor : BlockAnchor) : Rpc AnchoredNonceResult := do
  match ← checkBlockAnchor anchor with
  | some observed => return .anchorChanged observed
  | none =>
    let count ← getTransactionCount signer (.at anchor.blockNumber)
    let nonce ← Prog.lift (parseNonceResponse count)
    match ← checkBlockAnchor anchor with
    | some observed => return .anchorChanged observed
    | none => return .verified ⟨anchor, nonce⟩

theorem parseNonceResponse_ok_iff {v : Option ℕ} {n : ℕ} :
    parseNonceResponse v = .ok n ↔ v = some n ∧ n ≤ MAX_SAFE_INTEGER := by
  unfold parseNonceResponse
  split
  · split_ifs with h
    · simp only [Except.ok.injEq, Option.some.injEq]
      constructor
      · rintro rfl
        exact ⟨rfl, h⟩
      · exact fun hh => hh.1
    · simp only [Option.some.injEq, false_iff]
      rintro ⟨rfl, hn⟩
      exact h hn
  · simp

/-- A verified nonce was read at the anchor, between two reads of it unchanged. -/
theorem readAnchoredNonce_verified_iff {signer : Address} {anchor : BlockAnchor} {log : RpcLog}
    {o : AnchoredNonceObservation} :
    (readAnchoredNonce signer anchor).replay log = some (.ok (.verified o)) ↔
      o.anchor = anchor ∧ o.nonce ≤ MAX_SAFE_INTEGER ∧
      log = [anchorSeen anchor, nonceRead signer (.at anchor.blockNumber) (some o.nonce),
        anchorSeen anchor] := by
  unfold readAnchoredNonce
  simp only [Prog.bind_eq, Prog.pure_eq]
  constructor
  · intro h
    obtain ⟨c₁, l₁, l₂, rfl, h₁, h₂⟩ := Prog.replay_bind_ok_iff.mp h
    cases c₁ with
    | some _ => exact absurd (Prog.replay_ret_iff.mp h₂).2 (by simp)
    | none =>
      obtain ⟨count, l₃, l₄, rfl, h₃, h₄⟩ := Prog.replay_bind_ok_iff.mp h₂
      obtain ⟨nonce, l₅, l₆, rfl, h₅, h₆⟩ := Prog.replay_bind_ok_iff.mp h₄
      obtain ⟨c₂, l₇, l₈, rfl, h₇, h₈⟩ := Prog.replay_bind_ok_iff.mp h₆
      cases c₂ with
      | some _ => exact absurd (Prog.replay_ret_iff.mp h₈).2 (by simp)
      | none =>
        obtain ⟨rfl, ho⟩ := Prog.replay_ret_iff.mp h₈
        obtain rfl := AnchoredNonceResult.verified.inj (Except.ok.inj ho)
        obtain ⟨rfl, hp⟩ := Prog.replay_lift_ok_iff.mp h₅
        obtain ⟨rfl, hmax⟩ := parseNonceResponse_ok_iff.mp hp
        rw [checkBlockAnchor_unchanged_iff.mp h₁, getTransactionCount_ok_iff.mp h₃,
          checkBlockAnchor_unchanged_iff.mp h₇]
        exact ⟨rfl, hmax, rfl⟩
  · rintro ⟨rfl, hmax, rfl⟩
    refine Prog.replay_bind_ok_iff.mpr ⟨none, [_], _, rfl,
      checkBlockAnchor_unchanged_iff.mpr rfl, ?_⟩
    refine Prog.replay_bind_ok_iff.mpr ⟨some o.nonce, [_], _, rfl,
      getTransactionCount_ok_iff.mpr rfl, ?_⟩
    refine Prog.replay_bind_ok_iff.mpr ⟨o.nonce, [], _, rfl,
      Prog.replay_lift_ok_iff.mpr ⟨rfl, parseNonceResponse_ok_iff.mpr ⟨rfl, hmax⟩⟩, ?_⟩
    exact Prog.replay_bind_ok_iff.mpr ⟨none, [_], [], rfl,
      checkBlockAnchor_unchanged_iff.mpr rfl, rfl⟩

/-! Whether a missing journal can adopt the durable nonce. -/

inductive SignerBootstrapDecision
  | ready (observation : AnchoredNonceObservation)
  | bootstrapDeferred (observation : AnchoredNonceObservation) (latestNonce pendingNonce : ℕ)
  | anchorChanged (observedAnchor : BlockAnchor)
  deriving DecidableEq, Repr

def inspectSignerBootstrap (signer : Address) (anchor : BlockAnchor) :
    Rpc SignerBootstrapDecision := do
  match ← readAnchoredNonce signer anchor with
  | .anchorChanged observed => return .anchorChanged observed
  | .verified observation =>
    let latest ← getTransactionCount signer .latest
    let latestNonce ← Prog.lift (parseNonceResponse latest)
    let pending ← getTransactionCount signer .pending
    let pendingNonce ← Prog.lift (parseNonceResponse pending)
    match ← checkBlockAnchor observation.anchor with
    | some observed => return .anchorChanged observed
    | none =>
      if latestNonce ≠ observation.nonce ∨ pendingNonce ≠ observation.nonce then
        return .bootstrapDeferred observation latestNonce pendingNonce
      else return .ready observation

end Quicknet
