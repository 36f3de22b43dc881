import Quicknet.CanonicalChain
import Quicknet.JournalWrites

/-! The replacement search when a node answers block reads from a fork. Parent
hashes tie the scanned blocks to the search boundary, and the closing check ties
the anchor to its chain, but nothing ties the last scanned block to the anchor
when the scan stops below it. -/
namespace Quicknet

open Interaction

/-- The chain of an account: its nonce after each block, which exactly the blocks
with its transactions consume. -/
structure SignerChain (signer : Address) extends CanonicalChain where
  nonceAt : ℕ → ℕ
  wellFormed : ∀ n, BlockWellFormed signer (block n)
  nonceAt_mono : Monotone nonceAt
  consumed : ∀ n nonce, signerHashes signer nonce (block (n+1)).transactions ≠ [] →
    nonceAt n ≤ nonce ∧ nonce < nonceAt (n+1)
  genesis : ∀ nonce, signerHashes signer nonce (block 0).transactions = []

namespace SignerChain

variable {signer : Address} (chain : SignerChain signer)

/-- The transaction with hash `h` is the signer's at this nonce, in block `n`. -/
def Includes (nonce n : ℕ) (h : Hash) : Prop :=
  (chain.block n).match? signer nonce = some h

variable {chain}

theorem Includes.consumed {nonce n : ℕ} {h : Hash} (hi : chain.Includes nonce n h) :
    ∃ m, n = m+1 ∧ chain.nonceAt m ≤ nonce ∧ nonce < chain.nonceAt n := by
  have hne : signerHashes signer nonce (chain.block n).transactions ≠ [] := by
    intro hnil
    rw [Includes, ChainBlock.match?_eq_none.mpr hnil] at hi
    cases hi
  cases n with
  | zero => exact absurd (chain.genesis nonce) hne
  | succ m => exact ⟨m, rfl, chain.consumed m nonce hne⟩

/-- A nonce is consumed by one transaction of one block. -/
theorem Includes.unique {nonce m n : ℕ} {g h : Hash} (hg : chain.Includes nonce m g)
    (hh : chain.Includes nonce n h) : m = n ∧ g = h := by
  obtain ⟨m', hm, hlm, hmu⟩ := hg.consumed
  obtain ⟨n', hn, hln, hnu⟩ := hh.consumed
  have hmn : m = n := by
    by_contra hne
    rcases Nat.lt_or_ge m n with hlt | hge
    · have := chain.nonceAt_mono (show m ≤ n' by omega)
      omega
    · have := chain.nonceAt_mono (show n ≤ m' by omega)
      omega
  subst hmn
  exact ⟨rfl, Option.some.inj (hg.symm.trans hh)⟩

end SignerChain

/-- The search that a pass makes for an attempt. -/
def attemptSearch (s : TransactionJournalSnapshot) (a : JournalAttempt)
    (o : AnchoredNonceObservation) (maxBlockRange : ℕ) : Rpc ReplacementSearchResult :=
  searchAttemptReplacement s.identity.signer a.nonce a.signedTransactions.hashes
    (resolveReplacementSearch a.nonce a.replacementSearch s.lastObservation) o maxBlockRange

theorem searchedBlocks_some_iff {r : ReplacementSearchResult} {b : BlockAnchor} {m : ℕ} :
    searchedBlocks (some r) = some (b, m) ↔ ∃ n, 0 < n ∧ r = .notFound b n m := by
  cases r with
  | notFound b' n m' =>
    simp only [searchedBlocks, ReplacementSearchResult.notFound.injEq]
    split_ifs with h
    · simp only [Option.some.injEq, Prod.mk.injEq]
      constructor
      · rintro ⟨rfl, rfl⟩
        exact ⟨n, h, rfl, rfl, rfl⟩
      · rintro ⟨_, _, rfl, rfl, rfl⟩
        exact ⟨rfl, rfl⟩
    · simp only [false_iff]
      rintro ⟨_, h', rfl, rfl, rfl⟩
      exact h h'
  | _ => simp [searchedBlocks]

/-- Progress comes from a search that a recovery reports as not found. -/
theorem SignerRecoveryInspection.observed_searched {result : SignerRecoveryInspection}
    {o : AnchoredNonceObservation} {search : Option ReplacementSearchResult}
    {through : BlockAnchor} {m : ℕ} (ho : result.observed = some (o, search))
    (hs : searchedBlocks search = some (through, m)) :
    ∃ receipt k, 0 < k ∧ result = .unresolved o receipt (some (.notFound through k m)) := by
  cases result with
  | unresolved o' receipt found =>
    obtain ⟨rfl, rfl⟩ := Prod.mk.inj (Option.some.inj ho)
    cases found with
    | none => cases hs
    | some r =>
      obtain ⟨k, hk, rfl⟩ := searchedBlocks_some_iff.mp hs
      exact ⟨receipt, k, hk, rfl⟩
  | noAttempt _ =>
    obtain ⟨_, rfl⟩ := Prod.mk.inj (Option.some.inj ho)
    cases hs
  | _ => cases ho

/-- The scan reads these blocks and stops: at the first one with the nonce, when
its hash is not recorded, or at the limit of the call. -/
def ScanStops (signer : Address) (nonce : ℕ) (hashes : List Hash) (search : ReplacementSearch)
    (o : AnchoredNonceObservation) (range : ℕ) (blocks : List ChainBlock) : Prop :=
  ∃ front last, blocks = front ++ [last] ∧ (∀ b ∈ front, b.match? signer nonce = none) ∧
    (last.match? signer nonce = none ∧
        blocks.length = scanLength search.boundary o.anchor range ∨
      ∃ hash, last.match? signer nonce = some hash ∧ hash ∉ hashes)

section Fork

variable {signer : Address} (chain : SignerChain signer) (x : NodeAnswers) (nonce : ℕ)
  (hashes : List Hash) (rs : Option ReplacementSearch) (search : ReplacementSearch)
  (o : AnchoredNonceObservation) (range : ℕ)

/-- The block a search names, and the position it reached, are the anchor or an
ancestor of it. Hence no transaction that the chain includes is taken to be
replaced, and a later search on the chain finds the position unchanged. -/
structure ForkSafe (out : Except Failure ReplacementSearchResult) : Prop where
  inclusion : ∀ e, out = .ok (.replacementFound e) →
    chain.Contains e.inclusion ∧ e.inclusion.blockNumber ≤ o.anchor.blockNumber
  unreplaced : ∀ e n h, out = .ok (.replacementFound e) → chain.Includes nonce n h → h ∉ hashes
  progress : ∀ r through m, out = .ok r → searchedBlocks (some r) = some (through, m) →
    chain.Contains through ∧ through.blockNumber ≤ o.anchor.blockNumber
  resumes : ∀ r through m (y : NodeAnswers), out = .ok r →
    searchedBlocks (some r) = some (through, m) →
    (∀ n, y.header n = (chain.block n).anchor.blockHash) →
    ∀ search ∈ rs, chain.Contains search.lowerBound.anchor →
    (checkBoundaries { search with searchedThrough := some through }).eval (chain.answer y) =
      .ok none

/-- A branch that is served from where it leaves the chain up to where the scan
stops, below the anchor. -/
structure ForkRun (front fork : List ChainBlock) : Prop where
  captured : captureSearch nonce hashes (some search) o range = .ok (some search)
  lower_lt : search.lowerBound.anchor.blockNumber < o.anchor.blockNumber
  boundaries : BoundariesServed x search
  served : ∀ b ∈ front ++ fork, x.fullBlock b.anchor.blockNumber = b
  linked : LinkedAfter search.boundary (front ++ fork)
  canonical : ∀ b ∈ front, chain.Contains b.anchor
  forked : ∀ b ∈ fork, ¬ chain.Contains b.anchor
  nonempty : fork ≠ []
  length_le : (front ++ fork).length ≤ scanLength search.boundary o.anchor range
  below : search.boundary.blockNumber + (front ++ fork).length < o.anchor.blockNumber
  stops : ScanStops signer nonce hashes search o range (front ++ fork)

end Fork

section Search

variable {signer : Address} {chain : SignerChain signer} {x : NodeAnswers} {nonce : ℕ}
  {hashes : List Hash} {search : ReplacementSearch} {o : AnchoredNonceObservation} {range : ℕ}

/-- A search whose scan stops after these blocks returns what it found in the last. -/
theorem searchAttemptReplacement_stops (hx : chain.Serves signer x)
    (ha : chain.Contains o.anchor)
    (hc : captureSearch nonce hashes (some search) o range = .ok (some search))
    (hlower : search.lowerBound.anchor.blockNumber < o.anchor.blockNumber)
    (hle : search.boundary.blockNumber ≤ o.anchor.blockNumber)
    (hb : BoundariesServed x search) {front : List ChainBlock} {last : ChainBlock}
    (hserved : ∀ b ∈ front ++ [last], x.fullBlock b.anchor.blockNumber = b)
    (hlinked : LinkedAfter search.boundary (front ++ [last]))
    (hquiet : ∀ b ∈ front, b.match? signer nonce = none)
    (hanchor : ∀ b ∈ front ++ [last], b.anchor.blockNumber = o.anchor.blockNumber →
      b.anchor = o.anchor)
    (hlen : (front ++ [last]).length ≤ scanLength search.boundary o.anchor range)
    (hstop : last.match? signer nonce = none →
      (front ++ [last]).length = scanLength search.boundary o.anchor range) :
    (searchAttemptReplacement signer nonce hashes (some search) o range).eval (chain.answer x) =
      .ok (searchResult hashes o last.anchor (front ++ [last]).length
        ((last.match? signer nonce).map fun h => (h, last.anchor))) := by
  refine searchAttemptReplacement_eval ha hc hlower hle hb ?_
  obtain ⟨hfront, hlast, _⟩ := ParentChain.linked_append.mp hlinked
  have hread : x.fullBlock ((tipAfter search.boundary front).blockNumber+1) = last := by
    rw [← hlast.1]
    exact hserved last (by simp)
  have hk : scanLength search.boundary o.anchor range =
      front.length + ((scanLength search.boundary o.anchor range - (front.length+1)) + 1) := by
    rw [List.length_append, List.length_singleton] at hlen
    omega
  rw [hk, scanBlocks_eval_quiet hx hfront (fun b hm => hserved b (by simp [hm])) hquiet
    (fun b hm => hanchor b (by simp [hm])), scanBlocks_eval_succ hx (by rwa [hread]) (by
      rw [hread]
      intro hn
      exact hanchor last (by simp) (hlast.1.trans hn)), hread]
  cases hm : last.match? signer nonce with
  | some hash => simp
  | none =>
    have hfull := hstop hm
    rw [List.length_append, List.length_singleton] at hfull
    rw [hfull, Nat.sub_self]
    simp [scanBlocks]

/-- Served blocks that a chain block extends are on the chain as well. -/
theorem contains_of_extends (hx : chain.Serves signer x) {c d : ChainBlock}
    (hd : x.fullBlock d.anchor.blockNumber = d) (he : Extends c.anchor d)
    (hcon : chain.Contains d.anchor) : chain.Contains c.anchor := by
  have hblock : d = chain.block (c.anchor.blockNumber+1) := by
    rw [← he.1, ← hx.binding d.anchor.blockNumber (by rwa [hd]), hd]
  have hparent := he.2
  rw [hblock, chain.parentHash] at hparent
  unfold CanonicalChain.Contains
  have hnumber := chain.blockNumber c.anchor.blockNumber
  cases hc : c.anchor
  cases hb : (chain.block c.anchor.blockNumber).anchor
  rw [hb] at hparent hnumber
  rw [hc] at hb hparent hnumber
  rw [hb]
  simp only at hparent hnumber
  rw [hparent, hnumber]

theorem ChainBlock.reply_injective {b c : ChainBlock} (h : b.reply = c.reply) : b = c := by
  obtain ⟨⟨n, hash⟩, parent, txs⟩ := b
  obtain ⟨⟨n', hash'⟩, parent', txs'⟩ := c
  simp only [ChainBlock.reply, FullBlockReply.mk.injEq, Option.some.injEq] at h
  obtain ⟨rfl, rfl, rfl, rfl⟩ := h
  rfl

theorem SearchRun.answered {blocks : List ChainBlock} {log : RpcLog}
    {found : Option (Hash × BlockAnchor)} {r : ReplacementSearchResult}
    (h : SearchRun signer nonce hashes search o range log blocks found r)
    (ha : Prog.AnsweredBy (chain.answer x) log) :
    BoundariesServed x search ∧ ∀ b ∈ blocks, x.fullBlock b.anchor.blockNumber = b := by
  have hheader {b : BlockAnchor} (hb : blockRead b.blockNumber none
      ⟨some b.blockNumber, some b.blockHash⟩ ∈ log) : x.header b.blockNumber = b.blockHash := by
    have hreply : (⟨some b.blockNumber, some b.blockHash⟩ : BlockReply) =
        ⟨some b.blockNumber, some (x.header b.blockNumber)⟩ := Except.ok.inj (ha _ hb)
    exact (Option.some.inj (BlockReply.mk.inj hreply).2).symm
  refine ⟨⟨hheader (by simp [h.log_eq, boundaryReads]), ?_⟩, ?_⟩
  · intro b hb
    refine hheader ?_
    rw [h.log_eq, boundaryReads, Option.mem_def.mp hb]
    simp
  · intro b hb
    have hread : b.read ∈ log := by
      rw [h.log_eq]
      simp only [List.mem_append, List.mem_cons, List.mem_map]
      exact Or.inl (Or.inr (Or.inr ⟨b, hb, rfl⟩))
    have hreply : b.reply = (x.fullBlock b.anchor.blockNumber).reply :=
      Except.ok.inj (ha _ hread)
    exact (ChainBlock.reply_injective hreply).symm

/-- The last block of a search that released a match or a position: it is on the
chain, or a branch was served up to it. -/
theorem SearchRun.last_contained (hx : chain.Serves signer x) (ha : chain.Contains o.anchor)
    {front : List ChainBlock} {last : ChainBlock} {log : RpcLog}
    {found : Option (Hash × BlockAnchor)} {r : ReplacementSearchResult}
    (h : SearchRun signer nonce hashes search o range log (front ++ [last]) found r)
    (hlog : Prog.AnsweredBy (chain.answer x) log)
    (hstops : ScanStops signer nonce hashes search o range (front ++ [last]))
    (hno : ¬ ∃ front fork, ForkRun chain x nonce hashes search o range front fork) :
    chain.Contains last.anchor ∧ last.anchor.blockNumber ≤ o.anchor.blockNumber := by
  obtain ⟨hboundaries, hserved⟩ := h.answered hlog
  have hlinked := h.scan.linked
  have hnumber : last.anchor.blockNumber =
      search.boundary.blockNumber + (front ++ [last]).length := by
    have htip := tipAfter_blockNumber hlinked
    rwa [tipAfter, ParentChain.tip_append_singleton] at htip
  have hlen := h.scan.length_le
  have hle : last.anchor.blockNumber ≤ o.anchor.blockNumber := by
    have hb := h.boundary_le
    have hscan : scanLength search.boundary o.anchor range ≤
        o.anchor.blockNumber - search.boundary.blockNumber := Nat.min_le_right _ _
    omega
  refine ⟨?_, hle⟩
  -- off the chain, the blocks would split into a canonical front and a fork
  by_contra hforked
  obtain ⟨canonical, fork, hsplit, hcanonical, hfork⟩ :=
    hlinked.split (P := fun b => chain.Contains b.anchor)
      (fun c hc d hd he hg => contains_of_extends hx (hserved d hd) he hg)
  refine hno ⟨canonical, fork, h.captured, h.lower_lt, hboundaries, ?_, ?_, hcanonical, hfork,
    ?_, ?_, ?_, ?_⟩
  · rw [← hsplit]
    exact hserved
  · rw [← hsplit]
    exact hlinked
  · rintro rfl
    rw [List.append_nil] at hsplit
    exact hforked (hcanonical last (by simp [← hsplit]))
  · rw [← hsplit]
    exact hlen
  · rw [← hsplit, ← hnumber]
    refine lt_of_le_of_ne hle fun heq => hforked ?_
    rw [h.scan.atAnchor last (by simp) heq]
    exact ha
  · rw [← hsplit]
    exact hstops

/-- A search under a node's answers is safe unless a branch is served up to where
its scan stops. -/
theorem forkSafe_of_no_run (hx : chain.Serves signer x) (ha : chain.Contains o.anchor)
    {rs : Option ReplacementSearch} (hno : ¬ ∃ search front fork, rs = some search ∧
      ForkRun chain x nonce hashes search o range front fork) :
    ForkSafe chain nonce hashes rs o
      ((searchAttemptReplacement signer nonce hashes rs o range).eval (chain.answer x)) := by
  generalize hp : searchAttemptReplacement signer nonce hashes rs o range = p
  have hreplay := Prog.replay_transcript (chain.answer x) p
  have hlog := Prog.answeredBy_transcript (chain.answer x) p
  generalize p.transcript (chain.answer x) = log at hreplay hlog
  -- a replacement that was found was served at a height where the chain has the same block
  have hfound (e : AttemptResolutionEvidence)
      (he : p.eval (chain.answer x) = .ok (.replacementFound e)) :
      chain.Contains e.inclusion ∧ e.inclusion.blockNumber ≤ o.anchor.blockNumber ∧
        ∃ hash n, hash ∉ hashes ∧ chain.Includes nonce n hash := by
    rw [he, ← hp] at hreplay
    obtain ⟨search, blocks, found, hs, hrun⟩ := searchAttemptReplacement_settled hreplay rfl
    have hno' : ¬ ∃ front fork, ForkRun chain x nonce hashes search o range front fork :=
      fun ⟨front, fork, h⟩ => hno ⟨search, front, fork, hs, h⟩
    have hr := hrun.result_eq
    cases found with
    | none => cases hr
    | some m =>
      obtain ⟨hash, inclusion⟩ := m
      simp only [searchResult] at hr
      split_ifs at hr with hmem
      obtain rfl := ReplacementSearchResult.replacementFound.inj hr
      obtain ⟨front, last, rfl, rfl, hhash, hfront⟩ := hrun.scan.one_found hash inclusion rfl
      have hmatch : last.match? signer nonce = some hash := by
        rw [ChainBlock.match?, hhash]
        rfl
      obtain ⟨hcon, hle⟩ := hrun.last_contained hx ha hlog ⟨front, last, rfl,
        fun b hb => ChainBlock.match?_eq_none.mpr (hfront b hb), Or.inr ⟨hash, hmatch, hmem⟩⟩ hno'
      refine ⟨hcon, hle, hash, last.anchor.blockNumber, hmem, ?_⟩
      have hserved := (hrun.answered hlog).2 last (by simp)
      have hblock := hx.binding last.anchor.blockNumber (by rwa [hserved])
      rw [SignerChain.Includes, ← hblock, hserved]
      exact hmatch
  -- so was the last block of a search that found none
  have hreached (r : ReplacementSearchResult) (through : BlockAnchor) (m : ℕ)
      (hr : p.eval (chain.answer x) = .ok r) (hs : searchedBlocks (some r) = some (through, m)) :
      chain.Contains through ∧ through.blockNumber ≤ o.anchor.blockNumber := by
    obtain ⟨n, hn, rfl⟩ := searchedBlocks_some_iff.mp hs
    rw [hr, ← hp] at hreplay
    obtain ⟨search, blocks, found, hs', hrun⟩ := searchAttemptReplacement_settled hreplay rfl
    have hno' : ¬ ∃ front fork, ForkRun chain x nonce hashes search o range front fork :=
      fun ⟨front, fork, h⟩ => hno ⟨search, front, fork, hs', h⟩
    have hres := hrun.result_eq
    cases found with
    | some m =>
      obtain ⟨hash, inclusion⟩ := m
      simp only [searchResult] at hres
      split_ifs at hres
    | none =>
      obtain ⟨rfl, rfl, rfl⟩ := ReplacementSearchResult.notFound.inj hres
      obtain ⟨hlen, hquiet⟩ := hrun.scan.none_found rfl
      obtain ⟨front, last, rfl⟩ : ∃ front last, blocks = front ++ [last] := by
        rcases List.eq_nil_or_concat blocks with rfl | ⟨front, last, rfl⟩
        · simp at hn
        · exact ⟨front, last, by simp⟩
      rw [tipAfter, ParentChain.tip_append_singleton]
      have hnone (b : ChainBlock) (hb : b ∈ front ++ [last]) : b.match? signer nonce = none :=
        ChainBlock.match?_eq_none.mpr (hquiet b hb)
      exact hrun.last_contained hx ha hlog ⟨front, last, rfl,
        fun b hb => hnone b (by simp [hb]), Or.inl ⟨hnone last (by simp), hlen⟩⟩ hno'
  refine ⟨fun e he => ⟨(hfound e he).1, (hfound e he).2.1⟩, ?_, hreached, ?_⟩
  · intro e n h he hincl
    obtain ⟨_, _, hash, m, hmem, hi⟩ := hfound e he
    rw [(hincl.unique hi).2]
    exact hmem
  · intro r through m y hr hs hy search _ hlower
    obtain ⟨hcon, _⟩ := hreached r through m hr hs
    refine checkBoundaries_eval.mpr ⟨?_, ?_⟩
    · rw [hy, hlower]
    · intro b hb
      obtain rfl := Option.some.inj hb
      rw [hy, hcon]

/-- Conversely, a served branch is named or recorded as progress. -/
theorem ForkRun.not_forkSafe (hx : chain.Serves signer x) (ha : chain.Contains o.anchor)
    {front fork : List ChainBlock} (h : ForkRun chain x nonce hashes search o range front fork) :
    ¬ ForkSafe chain nonce hashes (some search) o
      ((searchAttemptReplacement signer nonce hashes (some search) o range).eval
        (chain.answer x)) := by
  intro hsafe
  obtain ⟨quiet, last, hsplit, hquiet, hlast⟩ := h.stops
  -- the last block that the scan reads lies on the branch
  have hforked : ¬ chain.Contains last.anchor := by
    obtain ⟨fork', last', rfl⟩ : ∃ fork' last', fork = fork' ++ [last'] := by
      rcases List.eq_nil_or_concat fork with hnil | ⟨fork', last', hconcat⟩
      · exact absurd hnil h.nonempty
      · exact ⟨fork', last', by rw [hconcat]; simp⟩
    rw [← List.append_assoc] at hsplit
    obtain rfl : last' = last := by
      have := congrArg List.getLast? hsplit
      simpa using this
    exact h.forked last' (by simp)
  have hpos : search.boundary.blockNumber ≤ o.anchor.blockNumber := by
    have := h.below
    omega
  have hbelow {b : ChainBlock} (hb : b ∈ front ++ fork) :
      b.anchor.blockNumber < o.anchor.blockNumber := by
    have hm := ParentChain.height_mem BlockAnchor.blockNumber (fun _ _ he => he.1) h.linked hb
    exact lt_of_le_of_lt hm.2 h.below
  have heval := searchAttemptReplacement_stops hx ha h.captured h.lower_lt hpos h.boundaries
    (by rw [← hsplit]; exact h.served) (by rw [← hsplit]; exact h.linked) hquiet
    (by
      rw [← hsplit]
      intro b hb heq
      exact absurd heq (hbelow hb).ne)
    (by rw [← hsplit]; exact h.length_le)
    (by
      intro hnone
      rcases hlast with ⟨_, hlen⟩ | ⟨hash, hsome, _⟩
      · rwa [← hsplit]
      · rw [hnone] at hsome
        cases hsome)
  -- it is recorded as progress, or named as the replacement
  rcases hlast with ⟨hnone, _⟩ | ⟨hash, hsome, hmem⟩
  · rw [hnone] at heval
    exact hforked (hsafe.progress _ last.anchor _ heval
      (searchedBlocks_some_iff.mpr ⟨_, by simp, rfl⟩)).1
  · rw [hsome] at heval
    simp only [Option.map_some, searchResult, if_neg hmem] at heval
    exact hforked (hsafe.inclusion _ heval).1

end Search

section Passes

variable {s next : TransactionJournalSnapshot} {anchor : BlockAnchor} {range : ℕ} {log : RpcLog}
  {result : SignerRecoveryInspection}

/-- The pass searched for its oldest attempt, and this is what the search returned. -/
def SearchReturned (s : TransactionJournalSnapshot) (range : ℕ) (log : RpcLog)
    (r : ReplacementSearchResult) : Prop :=
  ∃ a o pre l, s.attempts.head? = some a ∧ log = pre ++ l ∧
    (attemptSearch s a o range).replay l = some (.ok r)

theorem OldestInspection.searched {a : JournalAttempt} {receipt : AttemptReceiptResult}
    {o : AnchoredNonceObservation} {l₁ l₂ : RpcLog} {r : ReplacementSearchResult}
    (h : OldestInspection s anchor range log a receipt o l₁ l₂ result)
    (hr : (attemptSearch s a o range).replay l₂ = some (.ok r)) : SearchReturned s range log r :=
  ⟨a, o, _, l₂, h.oldest, h.log_eq, hr⟩

/-- A recovery that takes the attempt to be replaced has searched for it. -/
theorem recovery_replaced {o : AnchoredNonceObservation} {e : AttemptResolutionEvidence}
    {hash : Hash} {n : ℕ}
    (h : (inspectSignerRecovery s anchor range).replay log =
      some (.ok (.resolutionAvailable o e))) (he : e.outcome = .replaced hash n) :
    SearchReturned s range log (.replacementFound e) := by
  rcases inspectSignerRecovery_ok h with ⟨_, hh⟩ | ⟨_, hh, _⟩ | ⟨_, hh, _⟩ |
    ⟨a, receipt, o', l₁, l₂, hold⟩
  · cases hh
  · cases hh
  · cases hh
  rcases hold.cases_result with ⟨e', rfl, _, hres⟩ | hres | ⟨_, hres⟩ | ⟨r, _, hsearch, hres⟩
  · obtain ⟨_, rfl⟩ := SignerRecoveryInspection.resolutionAvailable.inj hres
    obtain ⟨_, _, _, _, _, _, hout⟩ := reconcileAttemptReceipt_verified hold.receipt_ok
    rw [he] at hout
    rcases hout with hout | hout <;> cases hout
  · cases hres
  · cases hres
  · cases r with
    | replacementFound e' =>
      obtain ⟨_, rfl⟩ := SignerRecoveryInspection.resolutionAvailable.inj hres
      exact hold.searched hsearch
    | _ => cases hres

/-- A search that a recovery reports as not found ran to its end, after the reads for the
receipts and the nonce. -/
theorem recovery_notFound {o : AnchoredNonceObservation} {receipt : AttemptReceiptResult}
    {through : BlockAnchor} {k m : ℕ}
    (h : (inspectSignerRecovery s anchor range).replay log =
      some (.ok (.unresolved o receipt (some (.notFound through k m))))) :
    ∃ a l₁ l₂, OldestInspection s anchor range log a receipt o l₁ l₂
        (.unresolved o receipt (some (.notFound through k m))) ∧
      (attemptSearch s a o range).replay l₂ = some (.ok (.notFound through k m)) := by
  rcases inspectSignerRecovery_ok h with ⟨_, hh⟩ | ⟨_, hh, _⟩ | ⟨_, hh, _⟩ |
    ⟨a, receipt', o', l₁, l₂, hold⟩
  · cases hh
  · cases hh
  · cases hh
  rcases hold.cases_result with ⟨_, _, _, hh⟩ | hh | ⟨_, hh⟩ | ⟨r, _, hsearch, hh⟩
  · cases hh
  · cases hh
  · cases hh
  have hres : o = o' ∧ receipt = receipt' ∧ r = .notFound through k m := by
    cases r with
    | anchorChanged _ => cases hh
    | replacementFound _ => cases hh
    | _ =>
      obtain ⟨ho, hr, hs⟩ := SignerRecoveryInspection.unresolved.inj hh
      exact ⟨ho, hr, (Option.some.inj hs).symm⟩
  obtain ⟨rfl, rfl, rfl⟩ := hres
  exact ⟨a, l₁, l₂, hold, hsearch⟩

/-- A recovery that moves the progress of its attempt reports a search that read blocks. -/
theorem Recorded.progress_notFound {u : Bool} {kind : PendingWrite} {a b : JournalAttempt}
    (hrec : Recorded s u result kind next) (ha : s.attempts.head? = some a)
    (hb : next.attempts.head? = some b) (hab : a.attemptId = b.attemptId)
    (hid : (s.attempts.map (·.attemptId)).Nodup) (hne : b.progress ≠ a.progress) :
    ∃ o receipt through k m, 0 < k ∧
      result = .unresolved o receipt (some (.notFound through k m)) ∧
      b.progress = some through := by
  cases hrec with
  | @resolved o e oldest rest hs _ _ =>
    simp only [hs, List.head?_cons, Option.some.injEq] at ha hb
    subst ha
    rw [hs, List.map_cons, List.nodup_cons] at hid
    exact absurd (hab ▸ List.mem_map_of_mem (List.mem_of_mem_head? hb)) hid.1
  | emptied _ hs _ =>
    rw [hs] at ha
    cases ha
  | @observed result o search oldest rest _ hs _ _ =>
    simp only [hs, observedSnapshot, List.head?_cons, Option.some.injEq] at ha hb
    subst ha hb
    -- an observation alone does not move the search
    refine absurd ?_ hne
    unfold JournalAttempt.progress recoveredSearch
    cases oldest.replacementSearch with
    | some search => rfl
    | none =>
      simp only
      split_ifs <;> rfl
  | @searched result o search oldest rest lower t remaining ho hs _ hsb _ =>
    simp only [hs, observedSnapshot, List.head?_cons, Option.some.injEq] at ha hb
    subst ha hb
    obtain ⟨receipt, k, hk, rfl⟩ := SignerRecoveryInspection.observed_searched ho hsb
    exact ⟨o, receipt, t, k, remaining, hk, rfl, rfl⟩

/-- Progress that a recovery records is a position that its search returned. -/
theorem recovery_progress {u : Bool} {kind : PendingWrite} {a b : JournalAttempt}
    {through : BlockAnchor}
    (h : (inspectSignerRecovery s anchor range).replay log = some (.ok result))
    (hrec : Recorded s u result kind next) (ha : s.attempts.head? = some a)
    (hb : next.attempts.head? = some b) (hab : a.attemptId = b.attemptId)
    (hid : (s.attempts.map (·.attemptId)).Nodup) (hne : b.progress ≠ a.progress)
    (hthrough : b.progress = some through) :
    ∃ r m, SearchReturned s range log r ∧ searchedBlocks (some r) = some (through, m) := by
  obtain ⟨o, receipt, t, k, m, hk, rfl, ht⟩ := hrec.progress_notFound ha hb hab hid hne
  obtain rfl : t = through := Option.some.inj (ht.symm.trans hthrough)
  obtain ⟨_, _, _, hold, hsearch⟩ := recovery_notFound h
  exact ⟨_, m, hold.searched hsearch, searchedBlocks_some_iff.mpr ⟨k, hk, rfl⟩⟩

/-- An inclusion pass marks an attempt as replaced by the result of its search. -/
theorem searchCandidate_marks {head : BlockAnchor} {o : AnchoredNonceObservation}
    {entry entry' : InspectedAttempt}
    (h : (searchCandidate s head o range entry).replay log = some (.ok (.passed entry'))) :
    entry' = entry ∨ ∃ e,
      (attemptSearch s entry.attempt o range).replay log = some (.ok (.replacementFound e)) ∧
      entry'.attempt = { entry.attempt with
        phase := .included ⟨e.inclusion, head, e.outcome⟩ } := by
  have hret {y : PassStep InspectedAttempt} {l : RpcLog}
      (hr : (Prog.ret y : Rpc (PassStep InspectedAttempt)).replay l =
        some (.ok (.passed entry'))) : l = [] ∧ y = .passed entry' := by
    obtain ⟨hl, hy⟩ := Prog.replay_ret_iff.mp hr
    exact ⟨hl, (Except.ok.inj hy).symm⟩
  simp only [searchCandidate, Prog.bind_eq, Prog.pure_eq] at h
  split_ifs at h with hskip
  · exact Or.inl (PassStep.passed.inj (hret h).2).symm
  obtain ⟨r, l₁, l₂, rfl, h₁, h₂⟩ := Prog.replay_bind_ok_iff.mp h
  cases r with
  | anchorChanged _ => cases (hret h₂).2
  | replacementFound e =>
    obtain ⟨rfl, hy⟩ := hret h₂
    obtain rfl := PassStep.passed.inj hy
    exact Or.inr ⟨e, by simpa [attemptSearch] using h₁, rfl⟩
  | _ => exact Or.inl (PassStep.passed.inj (hret h₂).2).symm

end Passes

section SearchRuns

/-- A search under a node that mixes the anchor's chain with forks names and
records blocks of the anchor's chain exactly when no branch is served up to where
its scan stops; what a recovery or an inclusion pass takes to be replaced, or
records as progress, is what such a search returned. -/
theorem search_safe_iff_no_fork_run {signer : Address} (chain : SignerChain signer)
    (x : NodeAnswers) (nonce : ℕ) (hashes : List Hash) (rs : Option ReplacementSearch)
    (o : AnchoredNonceObservation) (range : ℕ) (hx : chain.Serves signer x)
    (ha : chain.Contains o.anchor) :
    (ForkSafe chain nonce hashes rs o
        ((searchAttemptReplacement signer nonce hashes rs o range).eval (chain.answer x)) ↔
      ¬ ∃ search front fork, rs = some search ∧
        ForkRun chain x nonce hashes search o range front fork) ∧
    (∀ s anchor log o' e hash n, (inspectSignerRecovery s anchor range).replay log =
        some (.ok (.resolutionAvailable o' e)) → e.outcome = .replaced hash n →
      SearchReturned s range log (.replacementFound e)) ∧
    (∀ s next anchor log result u kind a b through,
      (inspectSignerRecovery s anchor range).replay log = some (.ok result) →
      Recorded s u result kind next → s.attempts.head? = some a → next.attempts.head? = some b →
      a.attemptId = b.attemptId → (s.attempts.map (·.attemptId)).Nodup →
      b.progress ≠ a.progress → b.progress = some through →
      ∃ r m, SearchReturned s range log r ∧ searchedBlocks (some r) = some (through, m)) ∧
    ∀ s head log o' entry entry',
      (searchCandidate s head o' range entry).replay log = some (.ok (.passed entry')) →
      entry' = entry ∨ ∃ e,
        (attemptSearch s entry.attempt o' range).replay log = some (.ok (.replacementFound e)) ∧
        entry'.attempt = { entry.attempt with
          phase := .included ⟨e.inclusion, head, e.outcome⟩ } := by
  refine ⟨⟨?_, forkSafe_of_no_run hx ha⟩, ?_, ?_, ?_⟩
  · rintro hsafe ⟨search, front, fork, rfl, hrun⟩
    exact hrun.not_forkSafe hx ha hsafe
  · intro s anchor log o' e hash n
    exact recovery_replaced
  · intro s next anchor log result u kind a b through
    exact recovery_progress
  · intro s head log o' entry entry'
    exact searchCandidate_marks

/-- Account 7 sends its transaction with nonce 0 in block 2. -/
def sampleBlock (n : ℕ) : ChainBlock :=
  ⟨⟨n, 100+n⟩, 99+n, if n = 2 then [⟨some 1001, some 7, some 0⟩] else []⟩

theorem signerHashes_sampleBlock {nonce n : ℕ}
    (h : signerHashes 7 nonce (sampleBlock n).transactions ≠ []) : n = 2 ∧ nonce = 0 := by
  unfold sampleBlock at h
  by_cases hn : n = 2
  · refine ⟨hn, ?_⟩
    by_contra hne
    simp [hn, signerHashes, Ne.symm hne] at h
  · simp [hn, signerHashes] at h

theorem blockNumber_sampleBlock (n : ℕ) : (sampleBlock n).anchor.blockNumber = n := rfl

theorem parentHash_sampleBlock (n : ℕ) :
    (sampleBlock (n+1)).parentHash = (sampleBlock n).anchor.blockHash := by
  change (99+(n+1) : ℕ) = 100+n
  omega

theorem wellFormed_sampleBlock (n : ℕ) : BlockWellFormed 7 (sampleBlock n) := by
  refine ⟨?_, fun nonce => ?_⟩
  · intro t ht
    simp only [sampleBlock] at ht
    split_ifs at ht
    · rw [List.mem_singleton.mp ht]
      exact ⟨rfl, rfl, 0, by decide, rfl⟩
    · simp at ht
  · simp only [sampleBlock]
    split_ifs
    · exact (List.length_filterMap_le _ _)
    · simp [signerHashes]

/-- The nonce of account 7 after each block. -/
def sampleNonceAt (n : ℕ) : ℕ := if n < 2 then 0 else 1

theorem sampleNonceAt_mono : Monotone sampleNonceAt := by
  intro m n hmn
  unfold sampleNonceAt
  split_ifs <;> omega

theorem consumed_sampleBlock (n nonce : ℕ)
    (h : signerHashes 7 nonce (sampleBlock (n+1)).transactions ≠ []) :
    sampleNonceAt n ≤ nonce ∧ nonce < sampleNonceAt (n+1) := by
  obtain ⟨hn, rfl⟩ := signerHashes_sampleBlock h
  obtain rfl : n = 1 := by omega
  decide

theorem genesis_sampleBlock (nonce : ℕ) :
    signerHashes 7 nonce (sampleBlock 0).transactions = [] := by
  simp [sampleBlock, signerHashes]

def sampleChain : SignerChain 7 where
  block := sampleBlock
  blockNumber := blockNumber_sampleBlock
  parentHash := parentHash_sampleBlock
  nonceAt := sampleNonceAt
  wellFormed := wellFormed_sampleBlock
  nonceAt_mono := sampleNonceAt_mono
  consumed := consumed_sampleBlock
  genesis := genesis_sampleBlock

/-- Answers block 2 from a branch that holds another transaction, or none. -/
def forkedNode (transactions : List TransactionReply) : NodeAnswers where
  header n := if n = 2 then 902 else 100+n
  fullBlock n := if n = 2 then ⟨⟨2, 902⟩, 101, transactions⟩ else sampleBlock n
  transactionCount _ _ := some 1
  transactionReceipt h :=
    if h = 1001 then some ⟨some 1001, some 2, some 102, some .success⟩ else none

theorem serves_forkedNode {transactions : List TransactionReply}
    (h : BlockWellFormed 7 ⟨⟨2, 902⟩, 101, transactions⟩) :
    sampleChain.Serves 7 (forkedNode transactions) := by
  refine ⟨fun n => ?_, fun n => ?_, fun n hn => ?_⟩
  · simp only [forkedNode]
    split_ifs
    · exact h
    · exact sampleChain.wellFormed n
  · simp only [forkedNode]
    split_ifs with h2
    · exact h2.symm
    · rfl
  · simp only [forkedNode] at hn ⊢
    split_ifs at hn ⊢ with h2
    · have hhash : (⟨2, 102⟩ : BlockAnchor) = ⟨2, 902⟩ := hn
      exact absurd hhash (by decide)
    · rfl

/-- The journal of one sent attempt, whose search has the given progress. -/
def sampleJournal (searchedThrough : Option BlockAnchor) : TransactionJournalSnapshot :=
  { identity := ⟨1, 7⟩
    baseline := ⟨⟨1, 101⟩, 0⟩
    lastObservation := ⟨⟨1, 101⟩, 0⟩
    nextNonce := 1
    durableNextNonce := 0
    repairs := []
    attempts := [{
      attemptId := 77
      workId := [65]
      nonce := 0
      createdAt := 10
      signedTransactions := ⟨⟨1001, List.replicate 40 1⟩, []⟩
      replacementSearch := some ⟨⟨⟨1, 101⟩, 0⟩, searchedThrough⟩
      phase := .broadcastMayHaveOccurred }] }

theorem search_safe_at_sample :
    (ForkSafe sampleChain 0 [1001] (some ⟨⟨⟨1, 101⟩, 0⟩, none⟩) ⟨⟨3, 103⟩, 1⟩
        ((searchAttemptReplacement 7 0 [1001] (some ⟨⟨⟨1, 101⟩, 0⟩, none⟩) ⟨⟨3, 103⟩, 1⟩ 1).eval
          (sampleChain.answer (forkedNode []))) ↔
      ¬ ∃ search front fork, some ⟨⟨⟨1, 101⟩, 0⟩, none⟩ = some search ∧
        ForkRun sampleChain (forkedNode []) 0 [1001] search ⟨⟨3, 103⟩, 1⟩ 1 front fork) :=
  (search_safe_iff_no_fork_run sampleChain (forkedNode []) 0 [1001] (some ⟨⟨⟨1, 101⟩, 0⟩, none⟩)
    ⟨⟨3, 103⟩, 1⟩ 1 (serves_forkedNode ⟨by simp [TransactionsComplete], by simp [signerHashes]⟩)
    rfl).1

/-- The chain includes the recorded transaction in block 2, which the node serves
from a branch. A recovery at block 3 resolves the attempt as replaced; with a
limit of one block and an empty branch it records the branch as progress, and a
later search on the chain itself stops at that position. -/
theorem fork_run_resolves_and_records :
    (sampleChain.Serves 7 (forkedNode [⟨some 5000, some 7, some 0⟩]) ∧
      sampleChain.Serves 7 (forkedNode []) ∧ sampleChain.Contains ⟨3, 103⟩ ∧
      sampleChain.Includes 0 2 1001 ∧ ¬ sampleChain.Contains ⟨2, 902⟩) ∧
    ((inspectSignerRecovery (sampleJournal none) ⟨3, 103⟩ 10).eval
        (sampleChain.answer (forkedNode [⟨some 5000, some 7, some 0⟩])) =
      .ok (.resolutionAvailable ⟨⟨3, 103⟩, 1⟩ ⟨⟨3, 103⟩, ⟨2, 902⟩, .replaced 5000 1⟩) ∧
    planRecovery ⟨1, 7⟩ false (sampleJournal none)
        (.resolutionAvailable ⟨⟨3, 103⟩, 1⟩ ⟨⟨3, 103⟩, ⟨2, 902⟩, .replaced 5000 1⟩) =
      .ok (some (.resolution, { sampleJournal none with
        lastObservation := ⟨⟨3, 103⟩, 1⟩
        durableNextNonce := 1
        attempts := [] }))) ∧
    (inspectSignerRecovery (sampleJournal none) ⟨3, 103⟩ 1).eval
        (sampleChain.answer (forkedNode [])) =
      .ok (.unresolved ⟨⟨3, 103⟩, 1⟩ (.forkServedReceipt ⟨2, 102⟩ ⟨2, 902⟩)
        (some (.notFound ⟨2, 902⟩ 1 1))) ∧
    planRecovery ⟨1, 7⟩ false (sampleJournal none)
        (.unresolved ⟨⟨3, 103⟩, 1⟩ (.forkServedReceipt ⟨2, 102⟩ ⟨2, 902⟩)
          (some (.notFound ⟨2, 902⟩ 1 1))) =
      .ok (some (.searchProgress false, { sampleJournal (some ⟨2, 902⟩) with
        lastObservation := ⟨⟨3, 103⟩, 1⟩ })) ∧
    (searchAttemptReplacement 7 0 [1001] (some ⟨⟨⟨1, 101⟩, 0⟩, some ⟨2, 902⟩⟩)
        ⟨⟨3, 103⟩, 1⟩ 1).eval (sampleChain.answer
          ⟨fun n => 100+n, sampleBlock, fun _ _ => some 1, fun _ => none⟩) =
      .ok (.boundaryChanged .searchedThrough ⟨2, 102⟩) := by
  have hfull : BlockWellFormed 7 ⟨⟨2, 902⟩, 101, [⟨some 5000, some 7, some 0⟩]⟩ := by
    refine ⟨?_, fun nonce => List.length_filterMap_le _ _⟩
    intro t ht
    rw [List.mem_singleton.mp ht]
    exact ⟨rfl, rfl, 0, by decide, rfl⟩
  have hempty : BlockWellFormed 7 ⟨⟨2, 902⟩, 101, []⟩ :=
    ⟨by simp [TransactionsComplete], by simp [signerHashes]⟩
  refine ⟨⟨serves_forkedNode hfull, serves_forkedNode hempty, rfl, rfl, by decide⟩,
    ⟨?_, ?_⟩, ?_, ?_, ?_⟩ <;> decide +kernel

end SearchRuns

end Quicknet
