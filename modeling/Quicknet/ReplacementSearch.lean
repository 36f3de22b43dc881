import Quicknet.AttemptReceipt
import Quicknet.JournalValidation
import Quicknet.Library.ParentChain

/-! The forward scan for the transaction that consumed an attempt's nonce. It
starts at a saved block that is checked by number, follows parent hashes, and
stops at a match, at the limit of one call or at the anchor. -/
namespace Quicknet

open Interaction

inductive SearchBoundary
  | lowerBound
  | searchedThrough
  deriving DecidableEq, Repr

inductive ReplacementSearchResult
  | missingLowerBound
  | anchorBehindSearch
  | anchorChanged (observedAnchor : BlockAnchor)
  | boundaryChanged (boundary : SearchBoundary) (observedAnchor : BlockAnchor)
  | recordedTransactionFound (transactionHash : Hash) (anchor inclusion : BlockAnchor)
  | replacementFound (evidence : AttemptResolutionEvidence)
  | notFound (searchedThrough : BlockAnchor) (scannedBlocks remainingBlocks : ℕ)
  deriving DecidableEq, Repr

/-- Inner loop over a block's transactions, with the match found so far. -/
def matchTransactions (signer : Address) (nonce : ℕ) :
    List TransactionReply → Option Hash → Except Failure (Option Hash)
  | [], found => .ok found
  | transaction :: rest, found =>
    match transaction.hash, transaction.sender, transaction.nonce with
    | some hash, some sender, some n =>
      if n ≤ MAX_SAFE_INTEGER then
        if sender = signer ∧ n = nonce then
          match found with
          | some _ => .error (.typeError "Multiple transactions matched the recorded nonce.")
          | none => matchTransactions signer nonce rest (some hash)
        else matchTransactions signer nonce rest found
      else .error (.typeError "Invalid replacement search transaction.")
    | _, _, _ => .error (.typeError "Invalid replacement search transaction.")

/-- The checks of a scanned block: its number, its hashes and its parent. -/
def linkBlock (previous : BlockAnchor) (block : FullBlockReply) :
    Except Failure (BlockAnchor × List TransactionReply) :=
  match block.hash, block.parentHash, block.transactions with
  | some hash, some parentHash, some transactions =>
    if block.number = some (previous.blockNumber+1) ∧ parentHash = previous.blockHash then
      .ok (⟨previous.blockNumber+1, hash⟩, transactions)
    else .error (.typeError "Invalid replacement search block.")
  | _, _, _ => .error (.typeError "Invalid replacement search block.")

inductive ScanOutcome
  | anchorChanged (observedAnchor : BlockAnchor)
  | stopped (previous : BlockAnchor) (scannedBlocks : ℕ) (found : Option (Hash × BlockAnchor))
  deriving DecidableEq, Repr

/-- Outer loop over at most `remaining` block numbers after `previous`. -/
def scanBlocks (signer : Address) (nonce : ℕ) (anchor : BlockAnchor) :
    ℕ → BlockAnchor → ℕ → Rpc ScanOutcome
  | 0, previous, scannedBlocks => return .stopped previous scannedBlocks none
  | remaining+1, previous, scannedBlocks => do
    let block ← getFullBlock (previous.blockNumber+1)
    let (inclusion, transactions) ← Prog.lift (linkBlock previous block)
    if previous.blockNumber+1 = anchor.blockNumber ∧ !blockAnchorsMatch anchor inclusion then
      return .anchorChanged inclusion
    else
      match ← Prog.lift (matchTransactions signer nonce transactions none) with
      | some hash => return .stopped inclusion (scannedBlocks+1) (some (hash, inclusion))
      | none => scanBlocks signer nonce anchor remaining inclusion (scannedBlocks+1)

def resolveReplacementSearch (nonce : ℕ) (replacementSearch : Option ReplacementSearch)
    (lastObservation : AnchoredNonceObservation) : Option ReplacementSearch :=
  match replacementSearch with
  | some search => some search
  | none => if lastObservation.nonce ≤ nonce then some ⟨lastObservation, none⟩ else none

/-- The position a search resumes from. -/
def ReplacementSearch.boundary (search : ReplacementSearch) : BlockAnchor :=
  search.searchedThrough.getD search.lowerBound.anchor

/-- `boundary.blockNumber + maxBlockRange`, capped at the anchor. -/
def scanLength (boundary anchor : BlockAnchor) (maxBlockRange : ℕ) : ℕ :=
  min maxBlockRange (anchor.blockNumber - boundary.blockNumber)

/-- Checks of the saved blocks, by number: the lower bound always, the progress
marker when there is one. -/
def checkBoundaries (search : ReplacementSearch) : Rpc (Option ReplacementSearchResult) := do
  let observedLower ← getBlockAnchor search.lowerBound.anchor.blockNumber none
  if !blockAnchorsMatch search.lowerBound.anchor observedLower then
    return some (.boundaryChanged .lowerBound observedLower)
  else
    match search.searchedThrough with
    | none => return none
    | some boundary => do
      let observed ← getBlockAnchor boundary.blockNumber none
      if !blockAnchorsMatch boundary observed then
        return some (.boundaryChanged .searchedThrough observed)
      else return none

/-- The checks before the first read, in the source's order; `none` when the
attempt has no recorded lower bound. -/
def captureSearch (nonce : ℕ) (hashes : List Hash) (replacementSearch : Option ReplacementSearch)
    (observation : AnchoredNonceObservation) (maxBlockRange : ℕ) :
    Except Failure (Option ReplacementSearch) := do
  requireThat "Invalid replacement search input." (hashes ≠ [] ∧ hashes.Nodup)
  requireThat "Invalid replacement search anchor." (observation.anchor.blockNumber ≤ MAX_UINT256)
  requireThat "Invalid replacement search input."
    (nonce ≤ MAX_UINT256 ∧ observation.nonce ≤ MAX_UINT256 ∧ nonce < observation.nonce ∧
      maxBlockRange ≤ MAX_UINT256 ∧ maxBlockRange ≠ 0)
  match replacementSearch with
  | none => return none
  | some search =>
    requireThat "Invalid replacement search anchor."
      (search.lowerBound.anchor.blockNumber ≤ MAX_UINT256 ∧
        search.boundary.blockNumber ≤ MAX_UINT256)
    requireThat "Invalid replacement search boundary."
      (∀ b ∈ search.searchedThrough, search.lowerBound.anchor.blockNumber < b.blockNumber)
    requireThat "Invalid replacement search lower bound."
      (search.lowerBound.nonce ≤ MAX_UINT256 ∧ search.lowerBound.nonce ≤ nonce)
    return some search

/-- What the closing check releases: a match by whether its hash is recorded,
else the position reached. -/
def searchResult (hashes : List Hash) (observation : AnchoredNonceObservation)
    (previous : BlockAnchor) (scannedBlocks : ℕ) (found : Option (Hash × BlockAnchor)) :
    ReplacementSearchResult :=
  match found with
  | some (hash, inclusion) =>
    if hash ∈ hashes then .recordedTransactionFound hash observation.anchor inclusion
    else .replacementFound ⟨observation.anchor, inclusion, .replaced hash observation.nonce⟩
  | none =>
    .notFound previous scannedBlocks (observation.anchor.blockNumber - previous.blockNumber)

def searchAttemptReplacement (signer : Address) (nonce : ℕ) (hashes : List Hash)
    (replacementSearch : Option ReplacementSearch) (observation : AnchoredNonceObservation)
    (maxBlockRange : ℕ) : Rpc ReplacementSearchResult := do
  let anchor := observation.anchor
  match ← Prog.lift (captureSearch nonce hashes replacementSearch observation maxBlockRange) with
  | none => return .missingLowerBound
  | some search =>
    if anchor.blockNumber ≤ search.lowerBound.anchor.blockNumber ∨
        anchor.blockNumber < search.boundary.blockNumber then
      return .anchorBehindSearch
    else
      match ← checkBlockAnchor anchor with
      | some observed => return .anchorChanged observed
      | none =>
        match ← checkBoundaries search with
        | some changed => return changed
        | none =>
          match ← scanBlocks signer nonce anchor
              (scanLength search.boundary anchor maxBlockRange) search.boundary 0 with
          | .anchorChanged observed => return .anchorChanged observed
          | .stopped previous scannedBlocks found =>
            match ← checkBlockAnchor anchor with
            | some observed => return .anchorChanged observed
            | none => return searchResult hashes observation previous scannedBlocks found

/-! What a scan has read. -/

/-- A block as an accepted full-block reply gives it. -/
structure ChainBlock where
  anchor : BlockAnchor
  parentHash : Hash
  transactions : List TransactionReply
  deriving DecidableEq, Repr

def ChainBlock.reply (b : ChainBlock) : FullBlockReply :=
  ⟨some b.anchor.blockNumber, some b.anchor.blockHash, some b.parentHash, some b.transactions⟩

def ChainBlock.read (b : ChainBlock) : Exchange Query.Reply Failure :=
  fullBlockRead b.anchor.blockNumber b.reply

/-- `b` is at the next number and names `previous` as its parent. -/
def Extends (previous : BlockAnchor) (b : ChainBlock) : Prop :=
  b.anchor.blockNumber = previous.blockNumber+1 ∧ b.parentHash = previous.blockHash

abbrev LinkedAfter : BlockAnchor → List ChainBlock → Prop :=
  ParentChain.Linked Extends ChainBlock.anchor

abbrev tipAfter : BlockAnchor → List ChainBlock → BlockAnchor :=
  ParentChain.tip ChainBlock.anchor

theorem tipAfter_blockNumber {p : BlockAnchor} {l : List ChainBlock} (h : LinkedAfter p l) :
    (tipAfter p l).blockNumber = p.blockNumber + l.length :=
  ParentChain.height_tip BlockAnchor.blockNumber (fun _ _ hb => hb.1) h

/-- Hashes of the signer's transactions with the nonce, in the block's order. -/
def signerHashes (signer : Address) (nonce : ℕ) (transactions : List TransactionReply) :
    List Hash :=
  transactions.filterMap fun t =>
    if t.sender = some signer ∧ t.nonce = some nonce then t.hash else none

theorem matchTransactions_ok {signer : Address} {nonce : ℕ} {txs : List TransactionReply}
    {found m : Option Hash} (h : matchTransactions signer nonce txs found = .ok m) :
    m.toList = found.toList ++ signerHashes signer nonce txs := by
  induction txs generalizing found with
  | nil =>
    rw [matchTransactions, Except.ok.injEq] at h
    simp [h, signerHashes]
  | cons t txs ih =>
    unfold matchTransactions at h
    split at h
    · rename_i hash sender n hh hs hn
      split_ifs at h with hsafe hmatch
      · cases found with
        | some x => cases h
        | none =>
          rw [ih h]
          simp [signerHashes, hh, hs, hn, hmatch]
      · rw [ih h]
        simp [signerHashes, hs, hn, hmatch]
    · cases h

theorem linkBlock_ok {previous a : BlockAnchor} {block : FullBlockReply}
    {txs : List TransactionReply} (h : linkBlock previous block = .ok (a, txs)) :
    ∃ b : ChainBlock, b.reply = block ∧ b.anchor = a ∧ b.transactions = txs ∧
      Extends previous b := by
  obtain ⟨number, hash, parentHash, transactions⟩ := block
  unfold linkBlock at h
  split at h
  · rename_i hash' parent' txs' h₁ h₂ h₃
    split_ifs at h with hc
    obtain ⟨rfl, rfl⟩ := Prod.mk.inj (Except.ok.inj h)
    simp only at h₁ h₂ h₃ hc
    obtain ⟨rfl, rfl⟩ := hc
    exact ⟨⟨⟨_, hash'⟩, _, txs'⟩, by simp [ChainBlock.reply, h₁, h₂, h₃], rfl, rfl, rfl, rfl⟩
  · cases h

/-- The blocks of a scan that stopped: linked from the start, agreeing with the
anchor where they reach it, and free of the nonce before the last. -/
structure ScanRun (signer : Address) (nonce : ℕ) (anchor : BlockAnchor) (remaining : ℕ)
    (start : BlockAnchor) (blocks : List ChainBlock) (found : Option (Hash × BlockAnchor)) :
    Prop where
  linked : LinkedAfter start blocks
  atAnchor : ∀ b ∈ blocks, b.anchor.blockNumber = anchor.blockNumber → b.anchor = anchor
  length_le : blocks.length ≤ remaining
  none_found : found = none → blocks.length = remaining ∧
    ∀ b ∈ blocks, signerHashes signer nonce b.transactions = []
  one_found : ∀ hash inclusion, found = some (hash, inclusion) →
    ∃ front last, blocks = front ++ [last] ∧ last.anchor = inclusion ∧
      signerHashes signer nonce last.transactions = [hash] ∧
      ∀ b ∈ front, signerHashes signer nonce b.transactions = []

/-- One block of the loop, then the rest from its position. -/
theorem scanBlocks_succ {signer : Address} {nonce : ℕ} {anchor start : BlockAnchor} {k n : ℕ}
    {log : RpcLog} {out : ScanOutcome}
    (h : (scanBlocks signer nonce anchor (k+1) start n).replay log = some (.ok out)) :
    ∃ b rest, log = b.read :: rest ∧ Extends start b ∧
      if b.anchor.blockNumber = anchor.blockNumber ∧ b.anchor ≠ anchor then
        rest = [] ∧ out = .anchorChanged b.anchor
      else (∃ hash, signerHashes signer nonce b.transactions = [hash] ∧ rest = [] ∧
          out = .stopped b.anchor (n+1) (some (hash, b.anchor))) ∨
        (signerHashes signer nonce b.transactions = [] ∧
          (scanBlocks signer nonce anchor k b.anchor (n+1)).replay rest = some (.ok out)) := by
  unfold scanBlocks at h
  simp only [Prog.bind_eq, Prog.pure_eq] at h
  obtain ⟨block, l₁, l₂, rfl, h₁, h₂⟩ := Prog.replay_bind_ok_iff.mp h
  obtain rfl := getFullBlock_ok_iff.mp h₁
  obtain ⟨⟨a, txs⟩, l₃, l₄, rfl, h₃, h₄⟩ := Prog.replay_bind_ok_iff.mp h₂
  obtain ⟨rfl, hl⟩ := Prog.replay_lift_ok_iff.mp h₃
  obtain ⟨b, rfl, rfl, rfl, hext⟩ := linkBlock_ok hl
  refine ⟨b, l₄, by simp [ChainBlock.read, hext.1], hext, ?_⟩
  have hcond : (start.blockNumber+1 = anchor.blockNumber ∧
      (!blockAnchorsMatch anchor b.anchor) = true) ↔
      b.anchor.blockNumber = anchor.blockNumber ∧ b.anchor ≠ anchor := by
    rw [hext.1, Bool.not_eq_true', ← Bool.not_eq_true, blockAnchorsMatch_iff, ne_comm]
  simp only [hcond] at h₄
  split_ifs at h₄ ⊢ with hc
  · obtain ⟨rfl, ho⟩ := Prog.replay_ret_iff.mp h₄
    exact ⟨rfl, Except.ok.inj ho⟩
  · obtain ⟨m, l₅, l₆, rfl, h₅, h₆⟩ := Prog.replay_bind_ok_iff.mp h₄
    obtain ⟨rfl, hm⟩ := Prog.replay_lift_ok_iff.mp h₅
    have hhashes := matchTransactions_ok hm
    cases m with
    | some hash =>
      obtain ⟨rfl, ho⟩ := Prog.replay_ret_iff.mp h₆
      exact Or.inl ⟨hash, by simpa using hhashes.symm, rfl, Except.ok.inj ho⟩
    | none => exact Or.inr ⟨by simpa using hhashes.symm, h₆⟩

theorem scanBlocks_stopped {signer : Address} {nonce : ℕ} {anchor start last : BlockAnchor}
    {k n m : ℕ} {found : Option (Hash × BlockAnchor)} {log : RpcLog}
    (h : (scanBlocks signer nonce anchor k start n).replay log =
      some (.ok (.stopped last m found))) :
    ∃ blocks : List ChainBlock, log = blocks.map ChainBlock.read ∧
      ScanRun signer nonce anchor k start blocks found ∧
      last = tipAfter start blocks ∧ m = n + blocks.length := by
  induction k generalizing start n log with
  | zero =>
    obtain ⟨rfl, ho⟩ := Prog.replay_ret_iff.mp h
    obtain ⟨rfl, rfl, rfl⟩ := ScanOutcome.stopped.inj (Except.ok.inj ho)
    exact ⟨[], rfl, ⟨trivial, by simp, le_rfl, fun _ => ⟨rfl, by simp⟩, by simp⟩, rfl, rfl⟩
  | succ k ih =>
    obtain ⟨b, rest, rfl, hext, hout⟩ := scanBlocks_succ h
    split_ifs at hout with hc
    · cases hout.2
    have hanchor : b.anchor.blockNumber = anchor.blockNumber → b.anchor = anchor :=
      fun hn => by_contra fun hne => hc ⟨hn, hne⟩
    -- the block stops the scan, or the scan goes on from it
    rcases hout with ⟨hash, hhash, rfl, ho⟩ | ⟨hnone, hrest⟩
    · obtain ⟨rfl, rfl, rfl⟩ := ScanOutcome.stopped.inj ho
      refine ⟨[b], rfl, ⟨⟨hext, trivial⟩, by simpa using hanchor, by simp, by simp, ?_⟩, rfl, rfl⟩
      rintro hash' inclusion hf
      obtain ⟨rfl, rfl⟩ := Prod.mk.inj (Option.some.inj hf)
      exact ⟨[], b, rfl, rfl, hhash, by simp⟩
    · obtain ⟨blocks, rfl, hrun, rfl, rfl⟩ := ih hrest
      refine ⟨b :: blocks, rfl, ⟨⟨hext, hrun.linked⟩, ?_, ?_, ?_, ?_⟩, rfl, ?_⟩
      · intro c hcm
        rcases List.mem_cons.mp hcm with rfl | hcm
        · exact hanchor
        · exact hrun.atAnchor c hcm
      · simpa using hrun.length_le
      · intro hf
        obtain ⟨hl, hall⟩ := hrun.none_found hf
        refine ⟨by simp [hl], ?_⟩
        intro c hcm
        rcases List.mem_cons.mp hcm with rfl | hcm
        · exact hnone
        · exact hall c hcm
      · intro hash inclusion hf
        obtain ⟨front, last, rfl, hi, hh, hall⟩ := hrun.one_found hash inclusion hf
        refine ⟨b :: front, last, rfl, hi, hh, ?_⟩
        intro c hcm
        rcases List.mem_cons.mp hcm with rfl | hcm
        · exact hnone
        · exact hall c hcm
      · simp only [List.length_cons]
        omega

/-- The reads of the saved blocks when both are unchanged. -/
def boundaryReads (search : ReplacementSearch) : RpcLog :=
  [blockRead search.lowerBound.anchor.blockNumber none
    ⟨some search.lowerBound.anchor.blockNumber, some search.lowerBound.anchor.blockHash⟩] ++
  search.searchedThrough.toList.map fun b =>
    blockRead b.blockNumber none ⟨some b.blockNumber, some b.blockHash⟩

theorem checkBoundaries_unchanged {search : ReplacementSearch} {log : RpcLog}
    (h : (checkBoundaries search).replay log = some (.ok none)) : log = boundaryReads search := by
  unfold checkBoundaries at h
  simp only [Prog.bind_eq, Prog.pure_eq] at h
  obtain ⟨a, l₁, l₂, rfl, h₁, h₂⟩ := Prog.replay_bind_ok_iff.mp h
  obtain ⟨hn, rfl⟩ := getBlockAnchor_ok_iff.mp h₁
  split_ifs at h₂ with hm
  · exact absurd (Prog.replay_ret_iff.mp h₂).2 (by simp)
  have ha : search.lowerBound.anchor = a := blockAnchorsMatch_iff.mp (by simpa using hm)
  subst ha
  unfold boundaryReads
  cases hs : search.searchedThrough with
  | none =>
    rw [hs] at h₂
    obtain ⟨rfl, _⟩ := Prog.replay_ret_iff.mp h₂
    simp
  | some boundary =>
    rw [hs] at h₂
    obtain ⟨b, l₃, l₄, rfl, h₃, h₄⟩ := Prog.replay_bind_ok_iff.mp h₂
    obtain ⟨hb, rfl⟩ := getBlockAnchor_ok_iff.mp h₃
    split_ifs at h₄ with hm'
    · exact absurd (Prog.replay_ret_iff.mp h₄).2 (by simp)
    obtain ⟨rfl, _⟩ := Prog.replay_ret_iff.mp h₄
    have hbb : boundary = b := blockAnchorsMatch_iff.mp (by simpa using hm')
    subst hbb
    simp

theorem captureSearch_ok {nonce r : ℕ} {hashes : List Hash} {rs s : Option ReplacementSearch}
    {o : AnchoredNonceObservation} (h : captureSearch nonce hashes rs o r = .ok s) :
    s = rs ∧ hashes ≠ [] ∧ hashes.Nodup ∧ nonce < o.nonce ∧ 0 < r ∧
      ∀ x ∈ rs, x.lowerBound.nonce ≤ nonce ∧
        ∀ b ∈ x.searchedThrough, x.lowerBound.anchor.blockNumber < b.blockNumber := by
  unfold captureSearch at h
  cases rs with
  | none =>
    simp only [bind, pure, requireThat_bind_ok_iff, Except.pure, Except.ok.injEq] at h
    obtain ⟨⟨hne, hnd⟩, _, ⟨_, _, hlt, _, hr⟩, rfl⟩ := h
    exact ⟨rfl, hne, hnd, hlt, Nat.pos_of_ne_zero hr, by simp⟩
  | some x =>
    simp only [bind, pure, requireThat_bind_ok_iff, Except.pure, Except.ok.injEq] at h
    obtain ⟨⟨hne, hnd⟩, _, ⟨_, _, hlt, _, hr⟩, _, hb, ⟨_, hl⟩, rfl⟩ := h
    refine ⟨rfl, hne, hnd, hlt, Nat.pos_of_ne_zero hr, ?_⟩
    intro y hy
    obtain rfl := Option.some.inj hy
    exact ⟨hl, hb⟩

/-- A search that ran to its closing check: the saved blocks were read unchanged
and a scan from the boundary gave its result, all between two anchor checks. -/
structure SearchRun (signer : Address) (nonce : ℕ) (hashes : List Hash)
    (search : ReplacementSearch) (observation : AnchoredNonceObservation) (maxBlockRange : ℕ)
    (log : RpcLog) (blocks : List ChainBlock) (found : Option (Hash × BlockAnchor))
    (result : ReplacementSearchResult) : Prop where
  log_eq : log = anchorSeen observation.anchor ::
    (boundaryReads search ++ blocks.map ChainBlock.read) ++ [anchorSeen observation.anchor]
  scan : ScanRun signer nonce observation.anchor
    (scanLength search.boundary observation.anchor maxBlockRange) search.boundary blocks found
  result_eq : result = searchResult hashes observation (tipAfter search.boundary blocks)
    blocks.length found
  captured : captureSearch nonce hashes (some search) observation maxBlockRange =
    .ok (some search)
  consumed : nonce < observation.nonce
  boundary_le : search.boundary.blockNumber ≤ observation.anchor.blockNumber
  lower_lt : search.lowerBound.anchor.blockNumber < observation.anchor.blockNumber
  lower_le : search.lowerBound.nonce ≤ nonce
  lower_progress : ∀ b ∈ search.searchedThrough,
    search.lowerBound.anchor.blockNumber < b.blockNumber

/-- The results that release a match or a position. -/
def ReplacementSearchResult.isSettled : ReplacementSearchResult → Bool
  | .recordedTransactionFound _ _ _ => true
  | .replacementFound _ => true
  | .notFound _ _ _ => true
  | _ => false

theorem checkBoundaries_changed {search : ReplacementSearch} {log : RpcLog}
    {r : ReplacementSearchResult} (h : (checkBoundaries search).replay log = some (.ok (some r))) :
    ∃ boundary observed, r = .boundaryChanged boundary observed := by
  unfold checkBoundaries at h
  simp only [Prog.bind_eq, Prog.pure_eq] at h
  obtain ⟨a, l₁, l₂, rfl, _, h₂⟩ := Prog.replay_bind_ok_iff.mp h
  split_ifs at h₂
  · exact ⟨_, _, Option.some.inj (Except.ok.inj (Prog.replay_ret_iff.mp h₂).2)⟩
  cases hs : search.searchedThrough with
  | none =>
    rw [hs] at h₂
    exact absurd (Prog.replay_ret_iff.mp h₂).2 (by simp)
  | some boundary =>
    rw [hs] at h₂
    obtain ⟨b, l₃, l₄, rfl, _, h₄⟩ := Prog.replay_bind_ok_iff.mp h₂
    split_ifs at h₄
    · exact ⟨_, _, Option.some.inj (Except.ok.inj (Prog.replay_ret_iff.mp h₄).2)⟩
    · exact absurd (Prog.replay_ret_iff.mp h₄).2 (by simp)

theorem searchAttemptReplacement_settled {signer : Address} {nonce r : ℕ} {hashes : List Hash}
    {rs : Option ReplacementSearch} {o : AnchoredNonceObservation} {log : RpcLog}
    {result : ReplacementSearchResult}
    (h : (searchAttemptReplacement signer nonce hashes rs o r).replay log = some (.ok result))
    (hres : result.isSettled = true) :
    ∃ search blocks found, rs = some search ∧
      SearchRun signer nonce hashes search o r log blocks found result := by
  unfold searchAttemptReplacement at h
  simp only [Prog.bind_eq, Prog.pure_eq] at h
  obtain ⟨s, l₁, l₂, rfl, h₁, h₂⟩ := Prog.replay_bind_ok_iff.mp h
  obtain ⟨rfl, hcap⟩ := Prog.replay_lift_ok_iff.mp h₁
  obtain ⟨rfl, _, _, hconsumed, _, hsaved⟩ := captureSearch_ok hcap
  have hret {x : ReplacementSearchResult} {l : RpcLog}
      (hr : (Prog.ret x : Rpc ReplacementSearchResult).replay l = some (.ok result)) :
      l = [] ∧ result = x := by
    obtain ⟨hl, hx⟩ := Prog.replay_ret_iff.mp hr
    exact ⟨hl, Except.ok.inj hx⟩
  -- only a search that passes every check is settled: the other ways out go first
  cases s with
  | none =>
    rw [(hret h₂).2] at hres
    cases hres
  | some search =>
    simp only at h₂
    split_ifs at h₂ with hbehind
    · rw [(hret h₂).2] at hres
      cases hres
    obtain ⟨c₁, l₃, l₄, rfl, h₃, h₄⟩ := Prog.replay_bind_ok_iff.mp h₂
    cases c₁ with
    | some _ =>
      rw [(hret h₄).2] at hres
      cases hres
    | none =>
    obtain rfl := checkBlockAnchor_unchanged_iff.mp h₃
    obtain ⟨c₂, l₅, l₆, rfl, h₅, h₆⟩ := Prog.replay_bind_ok_iff.mp h₄
    cases c₂ with
    | some changed =>
      obtain ⟨_, _, rfl⟩ := checkBoundaries_changed h₅
      rw [(hret h₆).2] at hres
      cases hres
    | none =>
    obtain rfl := checkBoundaries_unchanged h₅
    obtain ⟨out, l₇, l₈, rfl, h₇, h₈⟩ := Prog.replay_bind_ok_iff.mp h₆
    cases out with
    | anchorChanged _ =>
      rw [(hret h₈).2] at hres
      cases hres
    | stopped previous scanned found =>
    obtain ⟨blocks, rfl, hrun, rfl, hcount⟩ := scanBlocks_stopped h₇
    obtain ⟨c₃, l₉, l₁₀, rfl, h₉, h₁₀⟩ := Prog.replay_bind_ok_iff.mp h₈
    cases c₃ with
    | some _ =>
      rw [(hret h₁₀).2] at hres
      cases hres
    | none =>
    obtain rfl := checkBlockAnchor_unchanged_iff.mp h₉
    obtain ⟨rfl, hr⟩ := hret h₁₀
    rw [hcount, Nat.zero_add] at hr
    obtain ⟨hl, hp⟩ := hsaved search rfl
    have hle : search.boundary.blockNumber ≤ o.anchor.blockNumber := by
      by_contra hlt
      exact hbehind (Or.inr (by omega))
    have hlo : search.lowerBound.anchor.blockNumber < o.anchor.blockNumber := by
      by_contra hlt
      exact hbehind (Or.inl (by omega))
    exact ⟨search, blocks, found, rfl, ⟨by simp, hrun, hr, hcap, hconsumed, hle, hlo, hl, hp⟩⟩

end Quicknet
