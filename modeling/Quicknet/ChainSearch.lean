import Quicknet.ForkedSearch

/-! A search whose reads are all answered from one chain. It reads the blocks after its
boundary one by one, so it stops at the transaction that used the nonce, or below it. -/
namespace Quicknet

open Interaction

namespace SignerChain

variable {signer : Address} (chain : SignerChain signer)

/-- No block after `lo` and up to `hi` has a transaction of the signer with the nonce. -/
def Unused (nonce lo hi : ℕ) : Prop :=
  ∀ n, lo < n → n ≤ hi → (chain.block n).match? signer nonce = none

/-- The blocks with the numbers from `lo+1` on. -/
def after (lo len : ℕ) : List ChainBlock := (List.range' (lo+1) len).map chain.block

variable {chain}

theorem Includes.not_unused {nonce n lo hi : ℕ} {h : Hash} (hi' : chain.Includes nonce n h)
    (hlo : lo < n) (hhi : n ≤ hi) : ¬ chain.Unused nonce lo hi := by
  intro hu
  rw [Includes, hu n hlo hhi] at hi'
  cases hi'

/-- Every other block is without the nonce. -/
theorem Includes.other {nonce n m : ℕ} {h : Hash} (hi : chain.Includes nonce n h) (hm : m ≠ n) :
    (chain.block m).match? signer nonce = none := by
  cases hmatch : (chain.block m).match? signer nonce with
  | none => rfl
  | some g =>
    have hg : chain.Includes nonce m g := hmatch
    exact absurd (hg.unique hi).1 hm

theorem Unused.trans {nonce lo mid hi : ℕ} (h₁ : chain.Unused nonce lo mid)
    (h₂ : chain.Unused nonce mid hi) : chain.Unused nonce lo hi := by
  intro n hlo hhi
  rcases Nat.lt_or_ge mid n with hn | hn
  · exact h₂ n hn hhi
  · exact h₁ n hlo hn

theorem mem_after {lo len : ℕ} {b : ChainBlock} (hb : b ∈ chain.after lo len) :
    ∃ n, lo < n ∧ n ≤ lo+len ∧ b = chain.block n := by
  obtain ⟨n, hn, rfl⟩ := List.mem_map.mp hb
  rw [List.mem_range'_1] at hn
  exact ⟨n, by omega, by omega, rfl⟩

theorem after_succ (lo len : ℕ) :
    chain.after lo (len+1) = chain.after lo len ++ [chain.block (lo+len+1)] := by
  unfold after
  rw [List.range'_1_concat, List.map_append, List.map_singleton]
  congr 3
  omega

@[simp] theorem length_after (lo len : ℕ) : (chain.after lo len).length = len := by
  simp [after]

theorem linked_after {a : BlockAnchor} (ha : chain.Contains a) (len : ℕ) :
    LinkedAfter a (chain.after a.blockNumber len) := by
  have hext (n : ℕ) : Extends (chain.block n).anchor (chain.block (n+1)) :=
    ⟨by rw [chain.blockNumber, chain.blockNumber], chain.parentHash n⟩
  have hl : LinkedAfter (chain.block a.blockNumber).anchor (chain.after a.blockNumber len) :=
    ParentChain.linked_range' hext a.blockNumber len
  rwa [ha] at hl

end SignerChain

/-- The node answers from the chain. It may not have the receipt of a recorded transaction,
but one that it has names the block that includes the transaction. -/
structure ChainNode {signer : Address} (chain : SignerChain signer) (nonce : ℕ)
    (hashes : List Hash) (x : NodeAnswers) : Prop where
  header : ∀ n, x.header n = (chain.block n).anchor.blockHash
  fullBlock : ∀ n, x.fullBlock n = chain.block n
  transactionCount : ∀ n, x.transactionCount signer (.at n) = some (chain.nonceAt n)
  safe : ∀ n, chain.nonceAt n ≤ MAX_SAFE_INTEGER
  receipt : ∀ h ∈ hashes, ∀ r, x.transactionReceipt h = some r → ∃ n status,
    chain.Includes nonce n h ∧
      r = ⟨some h, some n, some (chain.block n).anchor.blockHash, some status⟩

theorem SearchValid.lower_le {nonce : ℕ} {search : ReplacementSearch}
    (h : SearchValid nonce search) :
    search.lowerBound.anchor.blockNumber ≤ search.boundary.blockNumber := by
  unfold ReplacementSearch.boundary
  cases hp : search.searchedThrough with
  | none => exact le_rfl
  | some p => exact (h.2.2 p hp).2.le

/-- A higher position may be recorded. -/
theorem SearchValid.advance {nonce : ℕ} {search : ReplacementSearch} {p : BlockAnchor}
    (h : SearchValid nonce search) (hp : search.boundary.blockNumber < p.blockNumber)
    (hmax : p.blockNumber ≤ MAX_UINT256) :
    SearchValid nonce { search with searchedThrough := some p } := by
  refine ⟨h.1, h.2.1, fun q hq => ?_⟩
  obtain rfl := Option.some.inj hq
  exact ⟨hmax, lt_of_le_of_lt h.lower_le hp⟩

/-- The blocks that a search starts from are on the chain. -/
def SearchContained {signer : Address} (chain : SignerChain signer)
    (search : ReplacementSearch) : Prop :=
  chain.Contains search.lowerBound.anchor ∧ ∀ p ∈ search.searchedThrough, chain.Contains p

theorem SearchContained.boundary {signer : Address} {chain : SignerChain signer}
    {search : ReplacementSearch} (h : SearchContained chain search) :
    chain.Contains search.boundary := by
  unfold ReplacementSearch.boundary
  cases hs : search.searchedThrough with
  | none => exact h.1
  | some p => exact h.2 p hs

section Node

variable {signer : Address} {chain : SignerChain signer} {nonce : ℕ} {hashes : List Hash}
  {x : NodeAnswers}

theorem ChainNode.serves (hx : ChainNode chain nonce hashes x) : chain.Serves signer x := by
  refine ⟨fun n => ?_, fun n => ?_, fun n _ => hx.fullBlock n⟩
  · rw [hx.fullBlock]
    exact chain.wellFormed n
  · rw [hx.fullBlock, chain.blockNumber]

theorem ChainNode.boundariesServed (hx : ChainNode chain nonce hashes x)
    {search : ReplacementSearch} (hs : SearchContained chain search) :
    BoundariesServed x search := by
  refine ⟨?_, fun p hp => ?_⟩
  · rw [hx.header, hs.1]
  · rw [hx.header, hs.2 p hp]

/-! What a search on the chain has seen. -/

variable {search : ReplacementSearch} {o : AnchoredNonceObservation} {range : ℕ} {log : RpcLog}
  {blocks : List ChainBlock} {found : Option (Hash × BlockAnchor)} {r : ReplacementSearchResult}

/-- Each block after the boundary, up to the position reached, was read. -/
theorem SearchRun.read (hx : ChainNode chain nonce hashes x)
    (h : SearchRun signer nonce hashes search o range log blocks found r)
    (hlog : Prog.AnsweredBy (chain.answer x) log) {n : ℕ} (hlo : search.boundary.blockNumber < n)
    (hhi : n ≤ search.boundary.blockNumber + blocks.length) :
    chain.block n ∈ blocks ∧ (chain.block n).read ∈ log := by
  obtain ⟨b, hb, hn⟩ := h.scan.linked.exists_height BlockAnchor.blockNumber
    (fun _ _ he => he.1) hlo hhi
  have hserved := (h.answered hlog).2 b hb
  rw [hx.fullBlock, hn] at hserved
  rw [hserved]
  refine ⟨hb, ?_⟩
  rw [h.log_eq]
  simp only [List.mem_append, List.mem_cons, List.mem_map]
  exact Or.inl (Or.inr (Or.inr ⟨b, hb, rfl⟩))

theorem SearchRun.length_le (h : SearchRun signer nonce hashes search o range log blocks found r) :
    search.boundary.blockNumber + blocks.length ≤ o.anchor.blockNumber := by
  have hlen := h.scan.length_le
  have hle := h.boundary_le
  unfold scanLength at hlen
  omega

theorem SearchRun.tip_contained (hx : ChainNode chain nonce hashes x)
    (h : SearchRun signer nonce hashes search o range log blocks found r)
    (hlog : Prog.AnsweredBy (chain.answer x) log) (hb : chain.Contains search.boundary) :
    chain.Contains (tipAfter search.boundary blocks) := by
  rcases List.eq_nil_or_concat blocks with rfl | ⟨front, last, hblocks⟩
  · exact hb
  · rw [List.concat_eq_append] at hblocks
    have hserved := (h.answered hlog).2 last (by simp [hblocks])
    rw [hx.fullBlock] at hserved
    rw [hblocks, tipAfter, ParentChain.tip_append_singleton]
    exact congrArg ChainBlock.anchor hserved

/-- A search that found nothing has passed over the blocks that it read. -/
theorem SearchRun.passed (hx : ChainNode chain nonce hashes x) {through : BlockAnchor} {k m : ℕ}
    (h : SearchRun signer nonce hashes search o range log blocks found (.notFound through k m))
    (hlog : Prog.AnsweredBy (chain.answer x) log) (hb : chain.Contains search.boundary) :
    chain.Contains through ∧ through.blockNumber = search.boundary.blockNumber + k ∧
      through.blockNumber ≤ o.anchor.blockNumber ∧
      m = o.anchor.blockNumber - through.blockNumber ∧
      chain.Unused nonce search.boundary.blockNumber through.blockNumber ∧
      ∀ n, search.boundary.blockNumber < n → n ≤ through.blockNumber →
        (chain.block n).read ∈ log := by
  have hr := h.result_eq
  cases found with
  | some p =>
    obtain ⟨hash, inclusion⟩ := p
    simp only [searchResult] at hr
    split_ifs at hr
  | none =>
    obtain ⟨rfl, rfl, rfl⟩ := ReplacementSearchResult.notFound.inj hr
    have hnumber := tipAfter_blockNumber h.scan.linked
    refine ⟨h.tip_contained hx hlog hb, hnumber, ?_, rfl, ?_, ?_⟩
    · rw [hnumber]
      exact h.length_le
    · intro n hlo hhi
      rw [hnumber] at hhi
      exact ChainBlock.match?_eq_none.mpr
        ((h.scan.none_found rfl).2 _ (h.read hx hlog hlo hhi).1)
    · intro n hlo hhi
      rw [hnumber] at hhi
      exact (h.read hx hlog hlo hhi).2

/-- What it found is the chain's transaction with the nonce. -/
theorem SearchRun.includes (hx : ChainNode chain nonce hashes x) {hash : Hash}
    {inclusion : BlockAnchor}
    (h : SearchRun signer nonce hashes search o range log blocks (some (hash, inclusion)) r)
    (hlog : Prog.AnsweredBy (chain.answer x) log) :
    inclusion = (chain.block inclusion.blockNumber).anchor ∧
      chain.Includes nonce inclusion.blockNumber hash ∧
      search.boundary.blockNumber < inclusion.blockNumber ∧
      inclusion.blockNumber ≤ o.anchor.blockNumber := by
  obtain ⟨front, last, rfl, rfl, hhash, _⟩ := h.scan.one_found hash inclusion rfl
  have hserved := (h.answered hlog).2 last (by simp)
  rw [hx.fullBlock] at hserved
  have hheight := ParentChain.height_mem BlockAnchor.blockNumber (fun _ _ hb => hb.1)
    h.scan.linked (b := last) (by simp)
  have hlen := h.length_le
  refine ⟨congrArg ChainBlock.anchor hserved.symm, ?_, hheight.1, by omega⟩
  rw [SignerChain.Includes, hserved, ChainBlock.match?, hhash]
  rfl

end Node

/-! The reads of an inspection, evaluated at such a node. -/

section Evaluation

variable {signer : Address} {chain : SignerChain signer} {nonce : ℕ} {hashes : List Hash}
  {x : NodeAnswers} {anchor : BlockAnchor}

/-- What the receipt of a recorded hash comes to at a block of the chain. -/
inductive ChainReceipt (chain : SignerChain signer) (nonce : ℕ) (anchor : BlockAnchor)
    (h : Hash) : AttemptReceiptResult → Prop
  | missing : ChainReceipt chain nonce anchor h .receiptNotFound
  | verified {n : ℕ} {status : ReceiptStatus} : chain.Includes nonce n h →
      n ≤ anchor.blockNumber → EvidenceValid
        ⟨anchor, (chain.block n).anchor, status.outcome h⟩ →
      ChainReceipt chain nonce anchor h
        (.verified ⟨anchor, (chain.block n).anchor, status.outcome h⟩)
  | above {n : ℕ} {status : ReceiptStatus} : chain.Includes nonce n h → anchor.blockNumber < n →
      ChainReceipt chain nonce anchor h (.includedNotDurable h status (chain.block n).anchor)

theorem ChainReceipt.includes {h : Hash} {r : AttemptReceiptResult}
    (hr : ChainReceipt chain nonce anchor h r) (hne : r ≠ .receiptNotFound) :
    ∃ n, chain.Includes nonce n h := by
  cases hr with
  | missing => exact absurd rfl hne
  | verified hi _ _ => exact ⟨_, hi⟩
  | above hi _ => exact ⟨_, hi⟩

theorem evidenceValid_of_chain {n : ℕ} {status : ReceiptStatus} {h : Hash}
    (ha : chain.Contains anchor) (hmax : anchor.blockNumber ≤ MAX_UINT256)
    (hn : n ≤ anchor.blockNumber) :
    EvidenceValid ⟨anchor, (chain.block n).anchor, status.outcome h⟩ := by
  refine ⟨hmax, ?_, ?_, ?_, ?_⟩
  · rw [chain.blockNumber]
    omega
  · rwa [chain.blockNumber]
  · intro heq
    simp only [chain.blockNumber] at heq ⊢
    rw [heq, ha]
  · cases status <;> exact trivial

theorem readReceipt_eval (hx : ChainNode chain nonce hashes x) (ha : chain.Contains anchor)
    (hmax : anchor.blockNumber ≤ MAX_UINT256) {h : Hash} (hh : h ∈ hashes) :
    ∃ r, (readReceipt h anchor).eval (chain.answer x) = .ok r ∧
      ChainReceipt chain nonce anchor h r := by
  have hget : (getTransactionReceipt h).eval (chain.answer x) = .ok (x.transactionReceipt h) := rfl
  unfold readReceipt
  rw [Prog.bind_eq, Prog.eval_bind, hget]
  cases hr : x.transactionReceipt h with
  | none => exact ⟨_, rfl, .missing⟩
  | some receipt =>
    obtain ⟨n, status, hi, rfl⟩ := hx.receipt h hh receipt hr
    have hblock : (getBlockAnchor n none).eval (chain.answer x) =
        .ok ⟨n, (chain.block n).anchor.blockHash⟩ := by
      rw [getBlockAnchor_eval, hx.header]
    have hpos : (⟨n, (chain.block n).anchor.blockHash⟩ : BlockAnchor) = (chain.block n).anchor := by
      have hnumber := chain.blockNumber n
      cases hb : (chain.block n).anchor
      rw [hb] at hnumber
      simp only at hnumber
      rw [hnumber]
    have hmatch : blockAnchorsMatch (chain.block n).anchor (chain.block n).anchor = true :=
      blockAnchorsMatch_iff.mpr rfl
    simp only [Except.bind, receiptInclusion, Prog.bind_eq, Prog.eval_bind, Prog.eval_lift,
      Prog.pure_eq, if_true, hblock, hpos, hmatch, Bool.not_true, Bool.false_eq_true, if_false,
      chain.blockNumber]
    split_ifs with habove
    · exact ⟨_, rfl, .above hi habove⟩
    · have hn : n ≤ anchor.blockNumber := by omega
      have hvalid : EvidenceValid ⟨anchor, (chain.block n).anchor, status.outcome h⟩ :=
        evidenceValid_of_chain ha hmax hn
      refine ⟨_, ?_, .verified hi hn hvalid⟩
      rw [snapshotResolutionEvidence_ok_iff.mpr ⟨rfl, hvalid⟩]
      rfl

/-- A scan of receipts that has met at most one inclusion, of a hash before `rest`. -/
def ReceiptScan.Single (chain : SignerChain signer) (nonce : ℕ) (anchor : BlockAnchor)
    (hashes rest : List Hash) (s : ReceiptScan) : Prop :=
  s.fork = none ∧ s.conflictingInclusions = false ∧
    ∀ r, s.included = some r → r ≠ .receiptNotFound ∧
      ∃ h ∈ hashes, h ∉ rest ∧ ChainReceipt chain nonce anchor h r

/-- The nonce has one inclusion, so no second recorded hash has a receipt. -/
theorem ReceiptScan.Single.add {h : Hash} {rest : List Hash} {s : ReceiptScan}
    {r : AttemptReceiptResult} (hs : s.Single chain nonce anchor hashes (h :: rest))
    (hh : h ∈ hashes) (hrest : h ∉ rest) (hr : ChainReceipt chain nonce anchor h r) :
    (s.add r).Single chain nonce anchor hashes rest := by
  obtain ⟨hfork, hconflict, hincluded⟩ := hs
  have hone (hne : r ≠ .receiptNotFound) : s.included = none := by
    cases hsi : s.included with
    | none => rfl
    | some r' =>
      obtain ⟨hne', g, _, hg, hr'⟩ := hincluded r' hsi
      obtain ⟨n, hn⟩ := hr.includes hne
      obtain ⟨m, hm⟩ := hr'.includes hne'
      exact absurd (hm.unique hn).2 fun heq => hg (by simp [heq])
  have hkeep (r' : AttemptReceiptResult) (h' : s.included = some r') :
      r' ≠ .receiptNotFound ∧ ∃ g ∈ hashes, g ∉ rest ∧ ChainReceipt chain nonce anchor g r' := by
    obtain ⟨hne, g, hg, hout, hrg⟩ := hincluded r' h'
    exact ⟨hne, g, hg, fun hmem => hout (by simp [hmem]), hrg⟩
  cases hr with
  | missing => exact ⟨hfork, hconflict, hkeep⟩
  | verified hi hn hv =>
    have hnone := hone (by simp)
    simp only [ReceiptScan.add, hnone]
    refine ⟨hfork, hconflict, fun r' hr' => ?_⟩
    obtain rfl := Option.some.inj hr'
    exact ⟨by simp, h, hh, hrest, .verified hi hn hv⟩
  | above hi hn =>
    have hnone := hone (by simp)
    simp only [ReceiptScan.add, hnone]
    refine ⟨hfork, hconflict, fun r' hr' => ?_⟩
    obtain rfl := Option.some.inj hr'
    exact ⟨by simp, h, hh, hrest, .above hi hn⟩

theorem readReceipts_eval (hx : ChainNode chain nonce hashes x) (ha : chain.Contains anchor)
    (hmax : anchor.blockNumber ≤ MAX_UINT256) {rest : List Hash} (hsub : rest ⊆ hashes)
    (hnd : rest.Nodup) {s : ReceiptScan} (hs : s.Single chain nonce anchor hashes rest) :
    ∃ t, (readReceipts anchor rest s).eval (chain.answer x) = .ok t ∧
      t.Single chain nonce anchor hashes [] := by
  induction rest generalizing s with
  | nil => exact ⟨s, rfl, hs⟩
  | cons h rest ih =>
    have hh : h ∈ hashes := hsub (by simp)
    rw [List.nodup_cons] at hnd
    obtain ⟨r, hr, hchain⟩ := readReceipt_eval hx ha hmax hh
    obtain ⟨t, ht, hsingle⟩ := ih (fun g hg => hsub (List.mem_cons_of_mem h hg)) hnd.2
      (hs.add hh hnd.1 hchain)
    refine ⟨t, ?_, hsingle⟩
    rw [readReceipts, Prog.bind_eq, Prog.eval_bind, hr]
    exact ht

/-- The receipts of an attempt agree with the chain. -/
theorem reconcileAttemptReceipt_eval (hx : ChainNode chain nonce hashes x)
    (ha : chain.Contains anchor) (hmax : anchor.blockNumber ≤ MAX_UINT256) (hne : hashes ≠ [])
    (hnd : hashes.Nodup) :
    ∃ r, (reconcileAttemptReceipt hashes anchor).eval (chain.answer x) = .ok r ∧
      ∃ h ∈ hashes, ChainReceipt chain nonce anchor h r := by
  have hstart : (⟨none, none, false⟩ : ReceiptScan).Single chain nonce anchor hashes hashes :=
    ⟨rfl, rfl, by simp⟩
  obtain ⟨t, ht, hfork, hconflict, hincluded⟩ :=
    readReceipts_eval hx ha hmax (List.Subset.refl hashes) hnd hstart
  have hno : ¬ (hashes = [] ∨ ¬ hashes.Nodup) := by simp [hne, hnd]
  unfold reconcileAttemptReceipt
  simp only [if_neg hno, Prog.bind_eq, Prog.eval_bind, checkBlockAnchor_eval ha, Except.bind, ht,
    hconflict, Bool.false_eq_true, if_false, Prog.pure_eq, Prog.eval_ret]
  cases hi : t.included with
  | none =>
    rw [hfork]
    obtain ⟨h, hh⟩ := List.exists_mem_of_ne_nil hashes hne
    exact ⟨_, rfl, h, hh, .missing⟩
  | some r =>
    obtain ⟨_, h, hh, _, hr⟩ := hincluded r hi
    exact ⟨r, rfl, h, hh, hr⟩

theorem readAnchoredNonce_eval (hx : ChainNode chain nonce hashes x)
    (ha : chain.Contains anchor) : (readAnchoredNonce signer anchor).eval (chain.answer x) =
      .ok (.verified ⟨anchor, chain.nonceAt anchor.blockNumber⟩) := by
  have hcount : (getTransactionCount signer (.at anchor.blockNumber)).eval (chain.answer x) =
      .ok (some (chain.nonceAt anchor.blockNumber)) := by
    rw [← hx.transactionCount]
    rfl
  have hparse := parseNonceResponse_ok_iff.mpr
    ⟨rfl, hx.safe anchor.blockNumber⟩
  unfold readAnchoredNonce
  simp only [Prog.bind_eq, Prog.eval_bind, checkBlockAnchor_eval ha, Except.bind, hcount,
    Prog.eval_lift, hparse, Prog.pure_eq, Prog.eval_ret]

/-- The checks before the first read, for a recorded search that is valid. -/
theorem captureSearch_of_valid {search : ReplacementSearch} {o : AnchoredNonceObservation}
    {range : ℕ} (hne : hashes ≠ []) (hnd : hashes.Nodup) (hn : nonce ≤ MAX_UINT256)
    (hs : SearchValid nonce search) (ho : ObservationValid o) (hlt : nonce < o.nonce)
    (hrange : 0 < range) (hmax : range ≤ MAX_UINT256) :
    captureSearch nonce hashes (some search) o range = .ok (some search) := by
  obtain ⟨⟨hla, hln⟩, hle, hthrough⟩ := hs
  have hboundary : search.boundary.blockNumber ≤ MAX_UINT256 := by
    unfold ReplacementSearch.boundary
    cases hp : search.searchedThrough with
    | none => exact hla
    | some p => exact (hthrough p hp).1
  unfold captureSearch
  simp only [bind, pure, requireThat_bind_ok_iff, Except.pure]
  exact ⟨⟨hne, hnd⟩, ho.1, ⟨hn, ho.2, hlt, hmax, by omega⟩, ⟨hla, hboundary⟩,
    fun p hp => (hthrough p hp).2, ⟨hln, hle⟩, trivial⟩

/-- A search at whose limit, or before, the next transaction is met reads up to there. -/
theorem searchAttemptReplacement_scans (hx : ChainNode chain nonce hashes x)
    {search : ReplacementSearch} {o : AnchoredNonceObservation} {range len : ℕ}
    (ha : chain.Contains o.anchor)
    (hc : captureSearch nonce hashes (some search) o range = .ok (some search))
    (hlower : search.lowerBound.anchor.blockNumber < o.anchor.blockNumber)
    (hle : search.boundary.blockNumber ≤ o.anchor.blockNumber) (hs : SearchContained chain search)
    (hunused : chain.Unused nonce search.boundary.blockNumber (search.boundary.blockNumber+len))
    (hlen : len+1 ≤ scanLength search.boundary o.anchor range)
    (hstop : (chain.block (search.boundary.blockNumber+len+1)).match? signer nonce = none →
      len+1 = scanLength search.boundary o.anchor range) :
    (searchAttemptReplacement signer nonce hashes (some search) o range).eval (chain.answer x) =
      .ok (searchResult hashes o (chain.block (search.boundary.blockNumber+len+1)).anchor (len+1)
        (((chain.block (search.boundary.blockNumber+len+1)).match? signer nonce).map
          (·, (chain.block (search.boundary.blockNumber+len+1)).anchor))) := by
  generalize hf : chain.after search.boundary.blockNumber len = front
  generalize hl : chain.block (search.boundary.blockNumber+len+1) = last at hstop ⊢
  -- the blocks that the scan reads are the chain's, and only the last can match
  have hblocks : chain.after search.boundary.blockNumber (len+1) = front ++ [last] := by
    rw [SignerChain.after_succ, hf, hl]
  have hlength : (front ++ [last]).length = len+1 := by
    rw [← hblocks, SignerChain.length_after]
  have hnumber {b : ChainBlock} (hb : b ∈ front ++ [last]) : ∃ m, b = chain.block m := by
    rw [← hblocks] at hb
    obtain ⟨m, _, _, hm⟩ := SignerChain.mem_after hb
    exact ⟨m, hm⟩
  have hserved : ∀ b ∈ front ++ [last], x.fullBlock b.anchor.blockNumber = b := by
    intro b hb
    obtain ⟨m, rfl⟩ := hnumber hb
    rw [chain.blockNumber, hx.fullBlock]
  have hlinked : LinkedAfter search.boundary (front ++ [last]) := by
    rw [← hblocks]
    exact SignerChain.linked_after hs.boundary _
  have hquiet : ∀ b ∈ front, b.match? signer nonce = none := by
    intro b hb
    rw [← hf] at hb
    obtain ⟨m, hlo, hhi, rfl⟩ := SignerChain.mem_after hb
    exact hunused m hlo hhi
  have hanchor : ∀ b ∈ front ++ [last], b.anchor.blockNumber = o.anchor.blockNumber →
      b.anchor = o.anchor := by
    intro b hb heq
    obtain ⟨m, rfl⟩ := hnumber hb
    rw [chain.blockNumber] at heq
    rw [heq]
    exact ha
  have hstops := searchAttemptReplacement_stops hx.serves ha hc hlower hle
    (hx.boundariesServed hs) hserved hlinked hquiet hanchor (by rwa [hlength])
    (by rwa [hlength])
  rw [hstops, hlength]

/-- A search whose anchor is past the chain's transaction goes on to it, or to the limit of
the call. -/
theorem searchAttemptReplacement_onChain (hx : ChainNode chain nonce hashes x)
    {search : ReplacementSearch} {o : AnchoredNonceObservation} {range n : ℕ} {h : Hash}
    (ha : chain.Contains o.anchor)
    (hc : captureSearch nonce hashes (some search) o range = .ok (some search))
    (hlower : search.lowerBound.anchor.blockNumber < o.anchor.blockNumber)
    (hs : SearchContained chain search) (hi : chain.Includes nonce n h)
    (hlo : search.boundary.blockNumber < n) (hhi : n ≤ o.anchor.blockNumber)
    (hrange : 0 < range) :
    ∃ k, 0 < k ∧ search.boundary.blockNumber + k ≤ n ∧
      (searchAttemptReplacement signer nonce hashes (some search) o range).eval (chain.answer x) =
        .ok (searchResult hashes o (chain.block (search.boundary.blockNumber+k)).anchor k
          (if search.boundary.blockNumber+k = n then some (h, (chain.block n).anchor)
            else none)) := by
  obtain ⟨len, hk⟩ : ∃ len, min range (n - search.boundary.blockNumber) = len+1 :=
    ⟨min range (n - search.boundary.blockNumber) - 1, by omega⟩
  have hunused : chain.Unused nonce search.boundary.blockNumber
      (search.boundary.blockNumber+len) := fun m _ hm => hi.other (by omega)
  have hmatch : (chain.block n).match? signer nonce = some h := hi
  have hlen : len+1 ≤ scanLength search.boundary o.anchor range := by
    unfold scanLength
    omega
  have hstop (hnone : (chain.block (search.boundary.blockNumber+len+1)).match? signer nonce =
      none) : len+1 = scanLength search.boundary o.anchor range := by
    have hne : search.boundary.blockNumber+len+1 ≠ n := by
      intro heq
      rw [heq, hmatch] at hnone
      cases hnone
    unfold scanLength
    omega
  refine ⟨len+1, by omega, by omega, ?_⟩
  rw [searchAttemptReplacement_scans hx ha hc hlower (by omega) hs hunused hlen hstop,
    ← Nat.add_assoc]
  by_cases heq : search.boundary.blockNumber+len+1 = n
  · rw [heq, if_pos rfl, hmatch]
    rfl
  · rw [if_neg heq, hi.other heq]
    rfl

end Evaluation

/-! The inspection of a recovery, and what it saves. -/

section Inspection

def InclusionOutcome.isReplaced : InclusionOutcome → Bool
  | .replaced _ _ => true
  | _ => false

/-- The block and hash of the transaction that the result names as the one that used the
nonce, and whether it takes it for a recorded one. -/
def SignerRecoveryInspection.names : SignerRecoveryInspection → Option (BlockAnchor × Hash × Bool)
  | .resolutionAvailable _ e =>
    some (e.inclusion, e.outcome.receiptHash, !e.outcome.isReplaced)
  | .unresolved _ _ (some (.recordedTransactionFound h _ inclusion)) => some (inclusion, h, true)
  | _ => none

/-- What a recovery returns at an anchor past the chain's transaction `h` of block `n`, when
the search resumes from block `lo`. -/
inductive RecoveredOnChain {signer : Address} (chain : SignerChain signer) (a : JournalAttempt)
    (o : AnchoredNonceObservation) (lo n : ℕ) (h : Hash) : SignerRecoveryInspection → Prop
  | resolved {e : AttemptResolutionEvidence} : EvidenceValid e → ResolutionMatches a e →
      e.inclusion = (chain.block n).anchor → e.outcome.receiptHash = h →
      e.outcome.isReplaced = decide (h ∉ a.signedTransactions.hashes) →
      RecoveredOnChain chain a o lo n h (.resolutionAvailable o e)
  | recorded {receipt : AttemptReceiptResult} : h ∈ a.signedTransactions.hashes →
      RecoveredOnChain chain a o lo n h (.unresolved o receipt
        (some (.recordedTransactionFound h o.anchor (chain.block n).anchor)))
  | advanced {receipt : AttemptReceiptResult} {k m : ℕ} : 0 < k → lo + k < n →
      RecoveredOnChain chain a o lo n h (.unresolved o receipt
        (some (.notFound (chain.block (lo+k)).anchor k m)))

variable {identity : JournalIdentity} {chain : SignerChain identity.signer}
  {s : TransactionJournalSnapshot} {a : JournalAttempt} {search : ReplacementSearch}
  {x : NodeAnswers} {anchor : BlockAnchor} {range n : ℕ} {h : Hash}

theorem RecoveredOnChain.names {o : AnchoredNonceObservation} {lo : ℕ}
    {r : SignerRecoveryInspection} (hr : RecoveredOnChain chain a o lo n h r) :
    r.names = some ((chain.block n).anchor, h, decide (h ∈ a.signedTransactions.hashes)) ∨
      ∃ receipt k m, 0 < k ∧ lo + k < n ∧
        r = .unresolved o receipt (some (.notFound (chain.block (lo+k)).anchor k m)) := by
  cases hr with
  | resolved _ _ hi hh hrep =>
    left
    simp [SignerRecoveryInspection.names, hi, hh, hrep]
  | recorded hmem =>
    left
    simp [SignerRecoveryInspection.names, hmem]
  | advanced hk hlt => exact Or.inr ⟨_, _, _, hk, hlt, rfl⟩

theorem ChainReceipt.resolved {o : AnchoredNonceObservation} {lo : ℕ} {g : Hash}
    {e : AttemptResolutionEvidence} (hg : g ∈ a.signedTransactions.hashes)
    (hr : ChainReceipt chain a.nonce o.anchor g (.verified e)) (hi : chain.Includes a.nonce n h) :
    RecoveredOnChain chain a o lo n h (.resolutionAvailable o e) := by
  cases hr with
  | @verified m status hm hle hvalid =>
    obtain ⟨rfl, rfl⟩ := hm.unique hi
    refine .resolved hvalid ?_ rfl ?_ ?_
    · cases status <;> exact hg
    · cases status <;> rfl
    · cases status <;> simp [ReceiptStatus.outcome, InclusionOutcome.isReplaced, hg]

/-- The inspection under a node of the chain. -/
theorem inspectSignerRecovery_onChain (hs : SnapshotValid identity s)
    (ha : s.attempts.head? = some a) (hsearch : a.replacementSearch = some search)
    (hcont : SearchContained chain search)
    (hx : ChainNode chain a.nonce a.signedTransactions.hashes x) (hanchor : chain.Contains anchor)
    (hmax : anchor.blockNumber ≤ MAX_UINT256) (hrange : 0 < range) (hrmax : range ≤ MAX_UINT256)
    (hi : chain.Includes a.nonce n h) (hlo : search.boundary.blockNumber < n)
    (hhi : n ≤ anchor.blockNumber) :
    ∃ r, (inspectSignerRecovery s anchor range).eval (chain.answer x) = .ok r ∧
      RecoveredOnChain chain a ⟨anchor, chain.nonceAt anchor.blockNumber⟩
        search.boundary.blockNumber n h r := by
  have hmem : a ∈ s.attempts := List.mem_of_mem_head? ha
  have hid : s.identity = identity := hs.header.2.2.1
  have hvalid : validateJournalSnapshotStructure s s.identity = .ok s :=
    validate_ok_iff.mpr ⟨rfl, by rwa [hid]⟩
  have hnd : a.signedTransactions.hashes.Nodup :=
    (List.nodup_flatMap.mp hs.attempts.2.2.2.2.2).1 a hmem
  have hav := hs.attempts.1 a hmem
  have hconsumed : a.nonce < chain.nonceAt anchor.blockNumber := by
    obtain ⟨m, rfl, _, hlt⟩ := hi.consumed
    exact lt_of_lt_of_le hlt (chain.nonceAt_mono hhi)
  have hnumber := (hs.nonce_bounds hmem).1
  have hdurable : ¬ chain.nonceAt anchor.blockNumber < s.durableNextNonce := by omega
  obtain ⟨receipt, hreceipt, g, hg, hchain⟩ := reconcileAttemptReceipt_eval hx hanchor hmax
    a.signedTransactions.hashes_ne_nil hnd
  have hobs : ObservationValid ⟨anchor, chain.nonceAt anchor.blockNumber⟩ := by
    refine ⟨hmax, (hx.safe _).trans ?_⟩
    decide
  have hcapture := captureSearch_of_valid (o := ⟨anchor, chain.nonceAt anchor.blockNumber⟩)
    a.signedTransactions.hashes_ne_nil hnd hav.1 (hav.2.2.2.1 search hsearch) hobs hconsumed
    hrange hrmax
  have hlower : search.lowerBound.anchor.blockNumber < anchor.blockNumber := by
    have hle := (hav.2.2.2.1 search hsearch).lower_le
    omega
  obtain ⟨k, hk, hkn, heval⟩ := searchAttemptReplacement_onChain hx
    (o := ⟨anchor, chain.nonceAt anchor.blockNumber⟩) hanchor hcapture hlower hcont hi hlo hhi
    hrange
  have hrequire : requireThat "Invalid signer recovery input."
      (0 < range ∧ range ≤ MAX_UINT256) = .ok () := if_pos ⟨hrange, hrmax⟩
  have hdecide : (inspectSignerRecovery s anchor range).eval (chain.answer x) =
      (inspectOldestAttempt s a receipt ⟨anchor, chain.nonceAt anchor.blockNumber⟩ range).eval
        (chain.answer x) := by
    unfold inspectSignerRecovery
    simp only [Prog.bind_eq, Prog.eval_bind, Prog.eval_lift, hvalid, hrequire, Except.bind, ha,
      hreceipt]
    cases hchain <;>
      simp only [inspectAfterReceipt, hid, Prog.bind_eq, Prog.eval_bind,
        readAnchoredNonce_eval hx hanchor, Except.bind, if_neg hdurable]
  rw [hdecide]
  -- a receipt on the chain names the block; without one the search goes on
  cases hchain with
  | verified hm hle hv =>
    simp only [inspectOldestAttempt, if_pos hconsumed, Prog.pure_eq, Prog.eval_ret]
    exact ⟨_, rfl, ChainReceipt.resolved (o := ⟨anchor, chain.nonceAt anchor.blockNumber⟩) hg
      (.verified hm hle hv) hi⟩
  | above hm habove =>
    obtain ⟨rfl, _⟩ := hm.unique hi
    omega
  | missing =>
    have hresolve : resolveReplacementSearch a.nonce a.replacementSearch s.lastObservation =
        some search := by
      unfold resolveReplacementSearch
      rw [hsearch]
    have hskip : ¬ (AttemptReceiptResult.receiptNotFound.isIncludedNotDurable = true ∧
        a.nonce < chain.nonceAt anchor.blockNumber) := by
      rintro ⟨hfalse, _⟩
      cases hfalse
    have hnot : ¬ ¬ a.nonce < chain.nonceAt anchor.blockNumber := not_not_intro hconsumed
    simp only [inspectOldestAttempt, inspectUnverified, if_neg hskip, if_neg hnot, hid, hresolve,
      Prog.bind_eq, Prog.eval_bind, heval, Except.bind, Prog.pure_eq, Prog.eval_ret]
    refine ⟨_, rfl, ?_⟩
    by_cases heq : search.boundary.blockNumber + k = n
    · rw [if_pos heq]
      unfold searchResult
      simp only
      split_ifs with hrec
      · exact .recorded hrec
      · have hev : EvidenceValid
            ⟨anchor, (chain.block n).anchor, ReceiptStatus.success.outcome h⟩ :=
          evidenceValid_of_chain hanchor hmax hhi
        refine .resolved ⟨hev.1, hev.2.1, hev.2.2.1, hev.2.2.2.1, hobs.2⟩ ⟨hrec, hconsumed⟩ rfl
          rfl ?_
        simp [InclusionOutcome.isReplaced, hrec]
    · rw [if_neg heq]
      exact .advanced hk (by omega)

/-- What a recovery names on the chain is the transaction that used the nonce, taken for
recorded exactly when its hash is recorded. -/
theorem names_onChain (hid : s.identity = identity) (ha : s.attempts.head? = some a)
    (hx : ChainNode chain a.nonce a.signedTransactions.hashes x) {log : RpcLog}
    {r : SignerRecoveryInspection} {inclusion : BlockAnchor} {recorded : Bool}
    (hrep : (inspectSignerRecovery s anchor range).replay log = some (.ok r))
    (hlog : Prog.AnsweredBy (chain.answer x) log) (hr : r.names = some (inclusion, h, recorded)) :
    inclusion = (chain.block inclusion.blockNumber).anchor ∧
      chain.Includes a.nonce inclusion.blockNumber h ∧
      inclusion.blockNumber ≤ anchor.blockNumber ∧
      recorded = decide (h ∈ a.signedTransactions.hashes) := by
  subst hid
  rcases inspectSignerRecovery_ok hrep with ⟨_, rfl⟩ | ⟨_, rfl, _⟩ | ⟨_, rfl, _⟩ |
    ⟨b, receipt, o, l₁, l₂, hold⟩
  · cases hr
  · cases hr
  · cases hr
  obtain rfl : a = b := Option.some.inj (ha.symm.trans hold.oldest)
  have hsearched : Prog.AnsweredBy (chain.answer x) l₂ := by
    intro y hy
    apply hlog
    rw [hold.log_eq]
    exact List.mem_append_right _ hy
  rcases hold.cases_result with ⟨e, rfl, _, rfl⟩ | rfl | ⟨_, rfl⟩ | ⟨result, _, hsearch, rfl⟩
  · -- the receipt of a recorded hash
    obtain ⟨reads, hreads, hmem, hanchor, hvalid, ⟨status, hreceipt, _⟩, hout⟩ :=
      reconcileAttemptReceipt_verified hold.receipt_ok
    simp only [SignerRecoveryInspection.names, Option.some.injEq, Prod.mk.injEq] at hr
    obtain ⟨rfl, rfl, rfl⟩ := hr
    have hin := List.mem_append_left [anchorSeen anchor]
      (List.mem_cons_of_mem (anchorSeen anchor) hreceipt)
    rw [← hreads] at hin
    have hread := hlog _ (hold.receiptLog_subset hin)
    obtain ⟨n, status', hi, heq⟩ := hx.receipt _ hmem _ (Except.ok.inj hread).symm
    simp only [ReceiptReply.mk.injEq, Option.some.injEq] at heq
    obtain ⟨_, rfl, hhash, _⟩ := heq
    refine ⟨?_, hi, ?_, ?_⟩
    · have hnumber := chain.blockNumber e.inclusion.blockNumber
      cases hb : (chain.block e.inclusion.blockNumber).anchor
      rw [hb] at hnumber hhash
      simp only at hnumber hhash
      rw [hnumber, ← hhash]
    · rw [← hanchor]
      exact hvalid.2.2.1
    · rcases hout with hout | hout <;>
        · rw [hout] at hmem ⊢
          simpa [InclusionOutcome.isReplaced] using hmem
  · cases hr
  · cases hr
  -- the match of a search
  obtain ⟨search, blocks, found, hs, hrun⟩ := searchAttemptReplacement_settled hsearch (by
    cases result with
    | recordedTransactionFound _ _ _ => rfl
    | replacementFound _ => rfl
    | notFound _ _ _ => rfl
    | _ => cases hr)
  have hres := hrun.result_eq
  cases found with
  | none =>
    rw [hres] at hr
    cases hr
  | some m =>
    obtain ⟨hash, incl⟩ := m
    obtain ⟨hblock, hi, _, hle⟩ := hrun.includes hx hsearched
    rw [hold.anchor_eq] at hle
    simp only [searchResult] at hres
    split_ifs at hres with hmem <;>
      · rw [hres] at hr
        simp only [afterSearch, SignerRecoveryInspection.names, Option.some.injEq,
          Prod.mk.injEq] at hr
        obtain ⟨rfl, rfl, rfl⟩ := hr
        refine ⟨hblock, hi, hle, ?_⟩
        simp [InclusionOutcome.isReplaced, InclusionOutcome.receiptHash, hmem]

theorem recovery_searchRun {log : RpcLog} {o : AnchoredNonceObservation}
    {receipt : AttemptReceiptResult} {through : BlockAnchor} {k m : ℕ}
    (hrep : (inspectSignerRecovery s anchor range).replay log =
      some (.ok (.unresolved o receipt (some (.notFound through k m))))) :
    ∃ a search blocks l₁ l₂, resolveReplacementSearch a.nonce a.replacementSearch
        s.lastObservation = some search ∧
      OldestInspection s anchor range log a receipt o l₁ l₂
        (.unresolved o receipt (some (.notFound through k m))) ∧
      SearchRun s.identity.signer a.nonce a.signedTransactions.hashes search o range l₂ blocks none
        (.notFound through k m) := by
  obtain ⟨a, l₁, l₂, hold, hsearch⟩ := recovery_notFound hrep
  obtain ⟨search, blocks, found, hs, hrun⟩ := searchAttemptReplacement_settled hsearch rfl
  refine ⟨a, search, blocks, l₁, l₂, hs, hold, ?_⟩
  cases found with
  | none => exact hrun
  | some p =>
    have hr := hrun.result_eq
    simp only [searchResult] at hr
    split_ifs at hr

/-- A search that a recovery reports as not found went on from where it resumed. -/
theorem notFound_onChain (hid : s.identity = identity) (ha : s.attempts.head? = some a)
    (hsearch : a.replacementSearch = some search) (hcont : SearchContained chain search)
    (hx : ChainNode chain a.nonce a.signedTransactions.hashes x) {log : RpcLog}
    {o : AnchoredNonceObservation} {receipt : AttemptReceiptResult} {through : BlockAnchor}
    {k m : ℕ}
    (hrep : (inspectSignerRecovery s anchor range).replay log =
      some (.ok (.unresolved o receipt (some (.notFound through k m)))))
    (hlog : Prog.AnsweredBy (chain.answer x) log) :
    chain.Contains through ∧ through.blockNumber = search.boundary.blockNumber + k ∧
      through.blockNumber ≤ anchor.blockNumber ∧ m = anchor.blockNumber - through.blockNumber ∧
      chain.Unused a.nonce search.boundary.blockNumber through.blockNumber ∧
      ∀ n, search.boundary.blockNumber < n → n ≤ through.blockNumber →
        (chain.block n).read ∈ log := by
  subst hid
  obtain ⟨b, search', blocks, l₁, l₂, hs, hold, hrun⟩ := recovery_searchRun hrep
  obtain rfl : a = b := Option.some.inj (ha.symm.trans hold.oldest)
  obtain rfl : search = search' := by
    unfold resolveReplacementSearch at hs
    rw [hsearch] at hs
    exact Option.some.inj hs
  have hsub : l₂ ⊆ log := by
    rw [hold.log_eq]
    exact List.subset_append_right _ _
  have hsearched : Prog.AnsweredBy (chain.answer x) l₂ := fun y hy => hlog y (hsub hy)
  obtain ⟨hc, hnumber, hle, hm, hunused, hread⟩ := hrun.passed hx hsearched hcont.boundary
  rw [hold.anchor_eq] at hle hm
  exact ⟨hc, hnumber, hle, hm, hunused, fun n hlo hhi => hsub (hread n hlo hhi)⟩

end Inspection

end Quicknet
