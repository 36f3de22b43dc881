import Quicknet.SignerRecovery

/-! A chain of blocks and a node that answers from it, or from forks of it. The
checks of a selected anchor follow the chain; what the node returns for other
reads is its own. -/
namespace Quicknet

open Interaction

structure CanonicalChain where
  block : ℕ → ChainBlock
  blockNumber : ∀ n, (block n).anchor.blockNumber = n
  parentHash : ∀ n, (block (n+1)).parentHash = (block n).anchor.blockHash

structure NodeAnswers where
  header : ℕ → Hash
  fullBlock : ℕ → ChainBlock
  transactionCount : Address → NonceTag → Option ℕ
  transactionReceipt : Hash → Option ReceiptReply

/-- Every transaction has the fields that the scan checks. -/
def TransactionsComplete (txs : List TransactionReply) : Prop :=
  ∀ t ∈ txs, t.hash.isSome = true ∧ t.sender.isSome = true ∧
    ∃ n ≤ MAX_SAFE_INTEGER, t.nonce = some n

section Match

variable {signer : Address} {nonce : ℕ}

/-- One transaction of the inner loop, when it has all fields. -/
theorem matchTransactions_cons {t : TransactionReply} {txs : List TransactionReply}
    {found : Option Hash} (hc : TransactionsComplete (t :: txs)) :
    TransactionsComplete txs ∧
      ((signerHashes signer nonce (t :: txs) = signerHashes signer nonce txs ∧
        matchTransactions signer nonce (t :: txs) found =
          matchTransactions signer nonce txs found) ∨
      ∃ hash, signerHashes signer nonce (t :: txs) = hash :: signerHashes signer nonce txs ∧
        (found = none → matchTransactions signer nonce (t :: txs) found =
          matchTransactions signer nonce txs (some hash))) := by
  obtain ⟨hh, hs, n, hn, ht⟩ := hc t (by simp)
  obtain ⟨hash, hhash⟩ := Option.isSome_iff_exists.mp hh
  obtain ⟨sender, hsender⟩ := Option.isSome_iff_exists.mp hs
  refine ⟨fun x hx => hc x (List.mem_cons_of_mem t hx), ?_⟩
  by_cases hm : sender = signer ∧ n = nonce
  · refine Or.inr ⟨hash, by simp [signerHashes, hhash, hsender, ht, hm], ?_⟩
    rintro rfl
    obtain ⟨rfl, rfl⟩ := hm
    simp [matchTransactions, hhash, hsender, ht, hn]
  · exact Or.inl ⟨by simp [signerHashes, hsender, ht, hm],
      by simp [matchTransactions, hhash, hsender, ht, hn, hm]⟩

theorem matchTransactions_found {txs : List TransactionReply} {hash : Hash}
    (hc : TransactionsComplete txs) (h : signerHashes signer nonce txs = []) :
    matchTransactions signer nonce txs (some hash) = .ok (some hash) := by
  induction txs with
  | nil => rfl
  | cons t txs ih =>
    obtain ⟨hrest, ⟨hs, hm⟩ | ⟨hash', hs, _⟩⟩ :=
      matchTransactions_cons hc
    · rw [hm]
      exact ih hrest (hs.symm.trans h)
    · rw [hs] at h
      cases h

theorem matchTransactions_once {txs : List TransactionReply} (hc : TransactionsComplete txs)
    (h : (signerHashes signer nonce txs).length ≤ 1) :
    matchTransactions signer nonce txs none = .ok (signerHashes signer nonce txs).head? := by
  induction txs with
  | nil => rfl
  | cons t txs ih =>
    obtain ⟨hrest, ⟨hs, hm⟩ | ⟨hash, hs, hm⟩⟩ :=
      matchTransactions_cons hc
    · rw [hs] at h ⊢
      rw [hm]
      exact ih hrest h
    · rw [hs] at h ⊢
      have hnil : signerHashes signer nonce txs = [] := by simpa using h
      rw [hm rfl, matchTransactions_found hrest hnil]
      rfl

end Match

/-- What a block of any chain satisfies: its transactions are complete, and a
nonce of the signer occurs at most once. -/
structure BlockWellFormed (signer : Address) (b : ChainBlock) : Prop where
  complete : TransactionsComplete b.transactions
  once : ∀ nonce, (signerHashes signer nonce b.transactions).length ≤ 1

/-- The transaction of the signer with the nonce. -/
def ChainBlock.match? (b : ChainBlock) (signer : Address) (nonce : ℕ) : Option Hash :=
  (signerHashes signer nonce b.transactions).head?

theorem ChainBlock.match?_eq_none {b : ChainBlock} {signer : Address} {nonce : ℕ} :
    b.match? signer nonce = none ↔ signerHashes signer nonce b.transactions = [] :=
  List.head?_eq_none_iff

namespace CanonicalChain

variable (chain : CanonicalChain)

/-- The block is on the chain. -/
def Contains (a : BlockAnchor) : Prop := (chain.block a.blockNumber).anchor = a

instance (a : BlockAnchor) : Decidable (chain.Contains a) := by
  unfold Contains
  infer_instance

@[simp] theorem contains_block (n : ℕ) : chain.Contains (chain.block n).anchor := by
  unfold Contains
  rw [chain.blockNumber]

/-- The replies of a node. A block read that carries an expected hash is the check
of a selected anchor. -/
def answer (x : NodeAnswers) : (q : Query) → q.Reply
  | .block n (some _) => ⟨some n, some (chain.block n).anchor.blockHash⟩
  | .block n none => ⟨some n, some (x.header n)⟩
  | .fullBlock n => (x.fullBlock n).reply
  | .transactionCount a t => x.transactionCount a t
  | .transactionReceipt h => x.transactionReceipt h

/-- The node never serves another block under a hash of the chain, and serves
blocks at their heights. -/
structure Serves (signer : Address) (x : NodeAnswers) : Prop where
  wellFormed : ∀ n, BlockWellFormed signer (x.fullBlock n)
  blockNumber : ∀ n, (x.fullBlock n).anchor.blockNumber = n
  binding : ∀ n, chain.Contains (x.fullBlock n).anchor → x.fullBlock n = chain.block n

end CanonicalChain

section Reads

variable {chain : CanonicalChain} {x : NodeAnswers}

theorem getBlockAnchor_eval_of {n : ℕ} {e : Option Hash} {hash : Hash}
    (h : chain.answer x (.block n e) = ⟨some n, some hash⟩) :
    (getBlockAnchor n e).eval (chain.answer x) = .ok ⟨n, hash⟩ := by
  have hread : (getBlock n e).eval (chain.answer x) = .ok ⟨some n, some hash⟩ := by
    rw [← h]
    rfl
  unfold getBlockAnchor
  rw [Prog.bind_eq, Prog.eval_bind, hread]
  simp [Except.bind]

theorem getBlockAnchor_eval (n : ℕ) :
    (getBlockAnchor n none).eval (chain.answer x) = .ok ⟨n, x.header n⟩ :=
  getBlockAnchor_eval_of rfl

theorem checkBlockAnchor_eval {a : BlockAnchor} (h : chain.Contains a) :
    (checkBlockAnchor a).eval (chain.answer x) = .ok none := by
  have hread : (getBlockAnchor a.blockNumber (some a.blockHash)).eval (chain.answer x) =
      .ok a := by
    refine getBlockAnchor_eval_of ?_
    change (⟨some a.blockNumber, some (chain.block a.blockNumber).anchor.blockHash⟩ : BlockReply) = _
    rw [h]
  unfold checkBlockAnchor
  rw [Prog.bind_eq, Prog.eval_bind, hread]
  simp [Except.bind, blockAnchorsMatch]

/-- The node still serves the saved blocks of the search. -/
def BoundariesServed (x : NodeAnswers) (search : ReplacementSearch) : Prop :=
  x.header search.lowerBound.anchor.blockNumber = search.lowerBound.anchor.blockHash ∧
    ∀ b ∈ search.searchedThrough, x.header b.blockNumber = b.blockHash

theorem checkBoundaries_eval {search : ReplacementSearch} :
    (checkBoundaries search).eval (chain.answer x) = .ok none ↔ BoundariesServed x search := by
  have hmatch (b : BlockAnchor) :
      blockAnchorsMatch b ⟨b.blockNumber, x.header b.blockNumber⟩ = true ↔
        x.header b.blockNumber = b.blockHash := by
    rw [blockAnchorsMatch_iff]
    cases b
    simp [eq_comm]
  unfold checkBoundaries BoundariesServed
  rw [Prog.bind_eq, Prog.eval_bind, getBlockAnchor_eval]
  simp only [Except.bind]
  by_cases hl : x.header search.lowerBound.anchor.blockNumber = search.lowerBound.anchor.blockHash
  · rw [(hmatch _).mpr hl]
    cases hs : search.searchedThrough with
    | none => simp [hl]
    | some b =>
      simp only [Bool.not_true, Bool.false_eq_true, if_false, Prog.bind_eq, Prog.eval_bind,
        getBlockAnchor_eval, Except.bind, Option.mem_def, Option.some.injEq]
      by_cases hb : x.header b.blockNumber = b.blockHash
      · have htrue := (hmatch b).mpr hb
        rw [hb] at htrue
        simp [htrue, hl, hb]
      · have hfalse : blockAnchorsMatch b ⟨b.blockNumber, x.header b.blockNumber⟩ = false := by
          rw [← Bool.not_eq_true, hmatch]
          exact hb
        simp [hfalse, hl, hb]
  · have hfalse : blockAnchorsMatch search.lowerBound.anchor
        ⟨search.lowerBound.anchor.blockNumber, x.header search.lowerBound.anchor.blockNumber⟩ =
          false := by
      rw [← Bool.not_eq_true, hmatch]
      exact hl
    simp [hfalse, hl]

variable {signer : Address} {nonce : ℕ} {anchor : BlockAnchor}

/-- One block of the loop. -/
theorem scanBlocks_eval_succ (hx : chain.Serves signer x) {start : BlockAnchor} {k n : ℕ}
    (hlink : Extends start (x.fullBlock (start.blockNumber+1)))
    (hanchor : start.blockNumber+1 = anchor.blockNumber →
      (x.fullBlock (start.blockNumber+1)).anchor = anchor) :
    (scanBlocks signer nonce anchor (k+1) start n).eval (chain.answer x) =
      match (x.fullBlock (start.blockNumber+1)).match? signer nonce with
      | some hash => .ok (.stopped (x.fullBlock (start.blockNumber+1)).anchor (n+1)
          (some (hash, (x.fullBlock (start.blockNumber+1)).anchor)))
      | none => (scanBlocks signer nonce anchor k (x.fullBlock (start.blockNumber+1)).anchor
          (n+1)).eval (chain.answer x) := by
  generalize hb : x.fullBlock (start.blockNumber+1) = b at hlink hanchor ⊢
  have hwf : BlockWellFormed signer b := hb ▸ hx.wellFormed _
  have hread : (getFullBlock (start.blockNumber+1)).eval (chain.answer x) = .ok b.reply := by
    rw [← hb]
    rfl
  have hpos : (⟨start.blockNumber+1, b.anchor.blockHash⟩ : BlockAnchor) = b.anchor := by
    rw [← hlink.1]
  have hl : linkBlock start b.reply = .ok (b.anchor, b.transactions) := by
    simp [linkBlock, ChainBlock.reply, hlink.1, hlink.2, hpos]
  have hno : ¬ (start.blockNumber+1 = anchor.blockNumber ∧
      (!blockAnchorsMatch anchor b.anchor) = true) := by
    rintro ⟨h₁, h₂⟩
    rw [hanchor h₁, Bool.not_eq_true', ← Bool.not_eq_true, blockAnchorsMatch_iff] at h₂
    exact h₂ rfl
  rw [scanBlocks]
  simp only [Prog.bind_eq, Prog.eval_bind, Prog.pure_eq, Prog.eval_lift, hread, hl, Except.bind,
    if_neg hno, matchTransactions_once hwf.complete (hwf.once nonce)]
  unfold ChainBlock.match?
  cases (signerHashes signer nonce b.transactions).head? <;> rfl

/-- Linked blocks without a match are passed over. -/
theorem scanBlocks_eval_quiet (hx : chain.Serves signer x) {start : BlockAnchor}
    {blocks : List ChainBlock} {k n : ℕ} (hl : LinkedAfter start blocks)
    (hserved : ∀ b ∈ blocks, x.fullBlock b.anchor.blockNumber = b)
    (hquiet : ∀ b ∈ blocks, b.match? signer nonce = none)
    (hanchor : ∀ b ∈ blocks, b.anchor.blockNumber = anchor.blockNumber → b.anchor = anchor) :
    (scanBlocks signer nonce anchor (blocks.length+k) start n).eval (chain.answer x) =
      (scanBlocks signer nonce anchor k (tipAfter start blocks) (n+blocks.length)).eval
        (chain.answer x) := by
  induction blocks generalizing start n with
  | nil => simp
  | cons b blocks ih =>
    obtain ⟨hext, hl⟩ := hl
    have hb : x.fullBlock (start.blockNumber+1) = b := by
      rw [← hext.1]
      exact hserved b (by simp)
    have hlen : (b :: blocks).length + k = blocks.length+k+1 := by
      simp only [List.length_cons]
      omega
    rw [hlen, scanBlocks_eval_succ hx (by rwa [hb]) (by
      rw [hb]
      intro h
      exact hanchor b (by simp) (hext.1.trans h)), hb, hquiet b (by simp)]
    simp only
    rw [ih hl (fun c hc => hserved c (List.mem_cons_of_mem b hc))
      (fun c hc => hquiet c (List.mem_cons_of_mem b hc))
      (fun c hc => hanchor c (List.mem_cons_of_mem b hc))]
    have hcount : n + (b :: blocks).length = n+1+blocks.length := by
      simp only [List.length_cons]
      omega
    rw [hcount]
    rfl

/-- The whole search, once its scan is known. -/
theorem searchAttemptReplacement_eval {hashes : List Hash} {search : ReplacementSearch}
    {o : AnchoredNonceObservation} {r m : ℕ} {previous : BlockAnchor}
    {found : Option (Hash × BlockAnchor)} (ha : chain.Contains o.anchor)
    (hc : captureSearch nonce hashes (some search) o r = .ok (some search))
    (hlower : search.lowerBound.anchor.blockNumber < o.anchor.blockNumber)
    (hle : search.boundary.blockNumber ≤ o.anchor.blockNumber)
    (hb : BoundariesServed x search)
    (hscan : (scanBlocks signer nonce o.anchor (scanLength search.boundary o.anchor r)
      search.boundary 0).eval (chain.answer x) = .ok (.stopped previous m found)) :
    (searchAttemptReplacement signer nonce hashes (some search) o r).eval (chain.answer x) =
      .ok (searchResult hashes o previous m found) := by
  have hno : ¬ (o.anchor.blockNumber ≤ search.lowerBound.anchor.blockNumber ∨
      o.anchor.blockNumber < search.boundary.blockNumber) := by omega
  unfold searchAttemptReplacement
  simp only [Prog.bind_eq, Prog.eval_bind, Prog.pure_eq, Prog.eval_lift, hc, Except.bind,
    if_neg hno, checkBlockAnchor_eval ha, checkBoundaries_eval.mpr hb, hscan]
  rfl

end Reads

end Quicknet
