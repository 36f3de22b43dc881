import Quicknet.ReplacementSearch

/-! The recovery inspection of the oldest retained attempt at a durable block. -/
namespace Quicknet

open Interaction

inductive SignerRecoveryInspection
  | anchorChanged (observedAnchor : BlockAnchor)
  | nonceBehindJournal (observation : AnchoredNonceObservation)
  | noAttempt (observation : AnchoredNonceObservation)
  | inconsistentObservations (observation : AnchoredNonceObservation)
  | resolutionAvailable (observation : AnchoredNonceObservation)
      (evidence : AttemptResolutionEvidence)
  | unresolved (observation : AnchoredNonceObservation) (receipt : AttemptReceiptResult)
      (search : Option ReplacementSearchResult)
  deriving DecidableEq, Repr

def AttemptReceiptResult.isIncludedNotDurable : AttemptReceiptResult → Bool
  | .includedNotDurable _ _ _ => true
  | _ => false

/-- Whether the receipts leave room for another broadcast. -/
def AttemptReceiptResult.isAbsent : AttemptReceiptResult → Bool
  | .receiptNotFound => true
  | .forkServedReceipt _ _ => true
  | _ => false

def afterSearch (observation : AnchoredNonceObservation) (receipt : AttemptReceiptResult) :
    ReplacementSearchResult → SignerRecoveryInspection
  | .anchorChanged observed => .anchorChanged observed
  | .replacementFound evidence => .resolutionAvailable observation evidence
  | search => .unresolved observation receipt (some search)

/-- Without a durable receipt: a consumed nonce starts the search. -/
def inspectUnverified (snapshot : TransactionJournalSnapshot) (attempt : JournalAttempt)
    (receipt : AttemptReceiptResult) (observation : AnchoredNonceObservation)
    (maxBlockRange : ℕ) : Rpc SignerRecoveryInspection :=
  let consumed := attempt.nonce < observation.nonce
  if receipt.isIncludedNotDurable ∧ consumed then return .inconsistentObservations observation
  else if ¬ consumed then return .unresolved observation receipt none
  else do
    let search ← searchAttemptReplacement snapshot.identity.signer attempt.nonce
      attempt.signedTransactions.hashes
      (resolveReplacementSearch attempt.nonce attempt.replacementSearch snapshot.lastObservation)
      observation maxBlockRange
    return afterSearch observation receipt search

/-- The decision once receipt and nonce are known. -/
def inspectOldestAttempt (snapshot : TransactionJournalSnapshot) (attempt : JournalAttempt)
    (receipt : AttemptReceiptResult) (observation : AnchoredNonceObservation)
    (maxBlockRange : ℕ) : Rpc SignerRecoveryInspection :=
  match receipt with
  | .verified evidence =>
    if attempt.nonce < observation.nonce then return .resolutionAvailable observation evidence
    else return .inconsistentObservations observation
  | receipt => inspectUnverified snapshot attempt receipt observation maxBlockRange

/-- From the receipts on: the nonce at the anchor, then the decision. -/
def inspectAfterReceipt (snapshot : TransactionJournalSnapshot) (attempt : JournalAttempt)
    (receipt : AttemptReceiptResult) (anchor : BlockAnchor) (maxBlockRange : ℕ) :
    Rpc SignerRecoveryInspection := do
  match ← readAnchoredNonce snapshot.identity.signer anchor with
  | .anchorChanged observed => return .anchorChanged observed
  | .verified observation =>
    if observation.nonce < snapshot.durableNextNonce then return .nonceBehindJournal observation
    else inspectOldestAttempt snapshot attempt receipt observation maxBlockRange

def inspectSignerRecovery (input : TransactionJournalSnapshot) (anchor : BlockAnchor)
    (maxBlockRange : ℕ) : Rpc SignerRecoveryInspection := do
  let snapshot ← Prog.lift (validateJournalSnapshotStructure input input.identity)
  let _ ← Prog.lift (requireThat "Invalid signer recovery input."
    (0 < maxBlockRange ∧ maxBlockRange ≤ MAX_UINT256))
  match snapshot.attempts.head? with
  | none =>
    match ← readAnchoredNonce snapshot.identity.signer anchor with
    | .anchorChanged observed => return .anchorChanged observed
    | .verified observation =>
      if observation.nonce < snapshot.durableNextNonce then return .nonceBehindJournal observation
      else return .noAttempt observation
  | some attempt =>
    match ← reconcileAttemptReceipt attempt.signedTransactions.hashes anchor with
    | .anchorChanged observed => return .anchorChanged observed
    | receipt => inspectAfterReceipt snapshot attempt receipt anchor maxBlockRange

/-! What each decision rests on. -/

/-- The nonce was read at the anchor between two reads of it unchanged. -/
def NonceSeen (log : RpcLog) (signer : Address) (o : AnchoredNonceObservation) : Prop :=
  ∃ pre post, log = pre ++ [anchorSeen o.anchor,
    nonceRead signer (.at o.anchor.blockNumber) (some o.nonce), anchorSeen o.anchor] ++ post

/-- Reads made between two checks that found the anchor unchanged. -/
def Bracketed (log : RpcLog) (anchor : BlockAnchor) (reads : RpcLog) : Prop :=
  ∃ pre post, log = pre ++ (anchorSeen anchor :: reads ++ [anchorSeen anchor]) ++ post

/-- A canonical receipt of a recorded hash, at or below the anchor. -/
def ReceiptResolution (log : RpcLog) (attempt : JournalAttempt)
    (e : AttemptResolutionEvidence) : Prop :=
  ∃ reads, Bracketed log e.anchor reads ∧
    e.outcome.receiptHash ∈ attempt.signedTransactions.hashes ∧
    CanonicalReceipt reads e.outcome.receiptHash e.inclusion ∧
    e.inclusion.blockNumber ≤ e.anchor.blockNumber ∧
    (e.outcome = .success e.outcome.receiptHash ∨ e.outcome = .reverted e.outcome.receiptHash)

/-- A linked scan from a checked boundary up to the block of the one transaction
with the attempt's nonce, whose hash is not recorded. -/
def ScanResolution (log : RpcLog) (signer : Address) (attempt : JournalAttempt)
    (lastObservation : AnchoredNonceObservation) (e : AttemptResolutionEvidence) : Prop :=
  ∃ search front last hash nonceAtAnchor,
    resolveReplacementSearch attempt.nonce attempt.replacementSearch lastObservation =
      some search ∧
    Bracketed log e.anchor
      (boundaryReads search ++ (front ++ [last]).map ChainBlock.read) ∧
    LinkedAfter search.boundary (front ++ [last]) ∧
    (∀ b ∈ front, signerHashes signer attempt.nonce b.transactions = []) ∧
    signerHashes signer attempt.nonce last.transactions = [hash] ∧
    hash ∉ attempt.signedTransactions.hashes ∧
    e.inclusion = last.anchor ∧ last.anchor.blockNumber ≤ e.anchor.blockNumber ∧
    e.outcome = .replaced hash nonceAtAnchor ∧ attempt.nonce < nonceAtAnchor

theorem SearchRun.scanResolution {signer : Address} {attempt : JournalAttempt}
    {search : ReplacementSearch} {o lastObservation : AnchoredNonceObservation} {r : ℕ}
    {log : RpcLog} {blocks : List ChainBlock} {found : Option (Hash × BlockAnchor)}
    {e : AttemptResolutionEvidence}
    (hs : resolveReplacementSearch attempt.nonce attempt.replacementSearch lastObservation =
      some search)
    (h : SearchRun signer attempt.nonce attempt.signedTransactions.hashes search o r log blocks
      found (.replacementFound e)) :
    e.anchor = o.anchor ∧ ScanResolution log signer attempt lastObservation e := by
  cases found with
  | none => cases h.result_eq
  | some m =>
    obtain ⟨hash, inclusion⟩ := m
    have hr := h.result_eq
    simp only [searchResult] at hr
    split_ifs at hr with hmem
    obtain rfl := ReplacementSearchResult.replacementFound.inj hr
    obtain ⟨front, last, rfl, rfl, hhash, hfront⟩ := h.scan.one_found hash inclusion rfl
    refine ⟨rfl, search, front, last, hash, o.nonce, hs, ⟨[], [], by simp [h.log_eq]⟩,
      h.scan.linked, hfront, hhash, hmem, rfl, ?_, rfl, h.consumed⟩
    have hheight := ParentChain.height_mem BlockAnchor.blockNumber (fun _ _ hb => hb.1)
      h.scan.linked (b := last) (by simp)
    have hlen := h.scan.length_le
    have hb := h.boundary_le
    unfold scanLength at hlen
    change last.anchor.blockNumber ≤ o.anchor.blockNumber
    omega

theorem Bracketed.mono {log pre post reads : RpcLog} {a : BlockAnchor}
    (h : Bracketed log a reads) : Bracketed (pre ++ log ++ post) a reads := by
  obtain ⟨p, q, rfl⟩ := h
  exact ⟨pre ++ p, q ++ post, by simp⟩

theorem ScanResolution.mono {log pre post : RpcLog} {signer : Address} {attempt : JournalAttempt}
    {o : AnchoredNonceObservation} {e : AttemptResolutionEvidence}
    (h : ScanResolution log signer attempt o e) :
    ScanResolution (pre ++ log ++ post) signer attempt o e := by
  obtain ⟨search, front, last, hash, n, hs, hb, hrest⟩ := h
  exact ⟨search, front, last, hash, n, hs, hb.mono, hrest⟩

/-- Facts common to every result that carries an observation of an attempt. -/
structure OldestInspection (snapshot : TransactionJournalSnapshot) (anchor : BlockAnchor)
    (maxBlockRange : ℕ) (log : RpcLog) (attempt : JournalAttempt)
    (receipt : AttemptReceiptResult) (observation : AnchoredNonceObservation)
    (receiptLog searchLog : RpcLog) (result : SignerRecoveryInspection) : Prop where
  oldest : snapshot.attempts.head? = some attempt
  log_eq : log = receiptLog ++ [anchorSeen anchor, nonceRead snapshot.identity.signer
    (.at anchor.blockNumber) (some observation.nonce), anchorSeen anchor] ++ searchLog
  receipt_ok : (reconcileAttemptReceipt attempt.signedTransactions.hashes anchor).replay
    receiptLog = some (.ok receipt)
  anchor_eq : observation.anchor = anchor
  durable_le : snapshot.durableNextNonce ≤ observation.nonce
  decided : (inspectOldestAttempt snapshot attempt receipt observation maxBlockRange).replay
    searchLog = some (.ok result)

/-- An inspection that does not report a changed anchor has read the nonce, and
either there is no attempt, or the nonce is behind, or it decided on the oldest. -/
theorem inspectSignerRecovery_ok {s : TransactionJournalSnapshot} {anchor : BlockAnchor} {r : ℕ}
    {log : RpcLog} {result : SignerRecoveryInspection}
    (h : (inspectSignerRecovery s anchor r).replay log = some (.ok result)) :
    (∃ observed, result = .anchorChanged observed) ∨
    (∃ o, result = .nonceBehindJournal o ∧ o.anchor = anchor ∧ o.nonce < s.durableNextNonce) ∨
    (∃ o, result = .noAttempt o ∧ s.attempts = [] ∧ o.anchor = anchor ∧
      s.durableNextNonce ≤ o.nonce ∧ NonceSeen log s.identity.signer o) ∨
    ∃ attempt receipt o l₁ l₂, OldestInspection s anchor r log attempt receipt o l₁ l₂ result := by
  unfold inspectSignerRecovery at h
  simp only [Prog.bind_eq, Prog.pure_eq] at h
  obtain ⟨s', l₁, l₂, rfl, h₁, h₂⟩ := Prog.replay_bind_ok_iff.mp h
  obtain ⟨rfl, hv⟩ := Prog.replay_lift_ok_iff.mp h₁
  obtain ⟨rfl, _⟩ := validate_ok_iff.mp hv
  obtain ⟨_, l₃, l₄, rfl, h₃, h₄⟩ := Prog.replay_bind_ok_iff.mp h₂
  obtain ⟨rfl, _⟩ := Prog.replay_lift_ok_iff.mp h₃
  simp only [List.nil_append]
  have hret {x : SignerRecoveryInspection} {l : RpcLog}
      (hr : (Prog.ret x : Rpc SignerRecoveryInspection).replay l = some (.ok result)) :
      l = [] ∧ result = x := by
    obtain ⟨hl, hx⟩ := Prog.replay_ret_iff.mp hr
    exact ⟨hl, Except.ok.inj hx⟩
  -- after its checks the inspection reads for the oldest attempt, if there is one
  cases ha : s'.attempts.head? with
  | none =>
    rw [ha] at h₄
    obtain ⟨n, l₅, l₆, rfl, h₅, h₆⟩ := Prog.replay_bind_ok_iff.mp h₄
    cases n with
    | anchorChanged observed => exact Or.inl ⟨observed, (hret h₆).2⟩
    | verified o =>
      obtain ⟨rfl, _, rfl⟩ := readAnchoredNonce_verified_iff.mp h₅
      simp only at h₆
      split_ifs at h₆ with hb
      · exact Or.inr (Or.inl ⟨o, (hret h₆).2, rfl, hb⟩)
      · obtain ⟨rfl, hr⟩ := hret h₆
        exact Or.inr (Or.inr (Or.inl ⟨o, hr, List.head?_eq_none_iff.mp ha, rfl, by omega,
          [], [], by simp⟩))
  | some attempt =>
    rw [ha] at h₄
    obtain ⟨receipt, l₅, l₆, rfl, h₅, h₆⟩ := Prog.replay_bind_ok_iff.mp h₄
    by_cases hc : ∃ observed, receipt = .anchorChanged observed
    · obtain ⟨observed, rfl⟩ := hc
      exact Or.inl ⟨observed, (hret h₆).2⟩
    · have h₇ : (inspectAfterReceipt s' attempt receipt anchor r).replay l₆ =
          some (.ok result) := by
        cases receipt with
        | anchorChanged observed => exact absurd ⟨observed, rfl⟩ hc
        | _ => exact h₆
      unfold inspectAfterReceipt at h₇
      simp only [Prog.bind_eq, Prog.pure_eq] at h₇
      obtain ⟨n, l₇, l₈, rfl, h₈, h₉⟩ := Prog.replay_bind_ok_iff.mp h₇
      cases n with
      | anchorChanged observed => exact Or.inl ⟨observed, (hret h₉).2⟩
      | verified o =>
        obtain ⟨rfl, _, rfl⟩ := readAnchoredNonce_verified_iff.mp h₈
        simp only at h₉
        split_ifs at h₉ with hb
        · exact Or.inr (Or.inl ⟨o, (hret h₉).2, rfl, hb⟩)
        · exact Or.inr (Or.inr (Or.inr ⟨attempt, receipt, o, l₅, l₈, ha, by simp, h₅, rfl,
            by omega, h₉⟩))

namespace OldestInspection

variable {s : TransactionJournalSnapshot} {anchor : BlockAnchor} {r : ℕ} {log l₁ l₂ : RpcLog}
  {attempt : JournalAttempt} {receipt : AttemptReceiptResult} {o : AnchoredNonceObservation}
  {result : SignerRecoveryInspection}

theorem nonceSeen (h : OldestInspection s anchor r log attempt receipt o l₁ l₂ result) :
    NonceSeen log s.identity.signer o := by
  obtain rfl := h.anchor_eq
  exact ⟨l₁, l₂, h.log_eq⟩

theorem receiptLog_subset (h : OldestInspection s anchor r log attempt receipt o l₁ l₂ result) :
    l₁ ⊆ log := by
  rw [h.log_eq]
  intro x hx
  simp [hx]

/-- The outcomes of the decision, by receipt and consumption of the nonce. -/
theorem cases_result (h : OldestInspection s anchor r log attempt receipt o l₁ l₂ result) :
    (∃ e, receipt = .verified e ∧ attempt.nonce < o.nonce ∧ result = .resolutionAvailable o e) ∨
    (result = .inconsistentObservations o) ∨
    (¬ attempt.nonce < o.nonce ∧ result = .unresolved o receipt none) ∨
    ∃ search, attempt.nonce < o.nonce ∧
      (searchAttemptReplacement s.identity.signer attempt.nonce
        attempt.signedTransactions.hashes (resolveReplacementSearch attempt.nonce
          attempt.replacementSearch s.lastObservation) o r).replay l₂ = some (.ok search) ∧
      result = afterSearch o receipt search := by
  have hret {x : SignerRecoveryInspection} {l : RpcLog}
      (hr : (Prog.ret x : Rpc SignerRecoveryInspection).replay l = some (.ok result)) :
      l = [] ∧ result = x := by
    obtain ⟨hl, hx⟩ := Prog.replay_ret_iff.mp hr
    exact ⟨hl, Except.ok.inj hx⟩
  by_cases hv : ∃ e, receipt = .verified e
  · obtain ⟨e, rfl⟩ := hv
    have hd := h.decided
    simp only [inspectOldestAttempt, Prog.pure_eq] at hd
    split_ifs at hd with hc
    · exact Or.inl ⟨e, rfl, hc, (hret hd).2⟩
    · exact Or.inr (Or.inl (hret hd).2)
  · have hd : (inspectUnverified s attempt receipt o r).replay l₂ = some (.ok result) := by
      have hd := h.decided
      cases receipt with
      | verified e => exact absurd ⟨e, rfl⟩ hv
      | _ => exact hd
    simp only [inspectUnverified, Prog.bind_eq, Prog.pure_eq] at hd
    split_ifs at hd with h₁ h₂
    · exact Or.inr (Or.inl (hret hd).2)
    · obtain ⟨search, l₃, l₄, rfl, h₃, h₄⟩ := Prog.replay_bind_ok_iff.mp hd
      obtain ⟨rfl, hr⟩ := hret h₄
      exact Or.inr (Or.inr (Or.inr ⟨search, h₂, by simpa using h₃, hr⟩))
    · exact Or.inr (Or.inr (Or.inl ⟨h₂, (hret hd).2⟩))

/-- A resolution rests on a consumed nonce and on a receipt or a scan. -/
theorem resolution (h : OldestInspection s anchor r log attempt receipt o l₁ l₂ result)
    {o' : AnchoredNonceObservation} {e : AttemptResolutionEvidence}
    (hr : result = .resolutionAvailable o' e) :
    o' = o ∧ attempt.nonce < o.nonce ∧ e.anchor = anchor ∧
      (ReceiptResolution log attempt e ∨
        ScanResolution log s.identity.signer attempt s.lastObservation e) := by
  rcases h.cases_result with ⟨e', rfl, hc, hres⟩ | hres | ⟨_, hres⟩ | ⟨search, hc, hsearch, hres⟩
  · obtain ⟨rfl, rfl⟩ := SignerRecoveryInspection.resolutionAvailable.inj (hr.symm.trans hres)
    obtain ⟨reads, hl, hm, ha, hv, hcan, ho⟩ := reconcileAttemptReceipt_verified h.receipt_ok
    refine ⟨rfl, hc, ha, Or.inl ⟨reads, ⟨[], ?_⟩, hm, hcan, hv.2.2.1, ho⟩⟩
    rw [ha]
    exact ⟨_, by rw [h.log_eq, hl, List.nil_append, List.append_assoc]⟩
  · rw [hr] at hres
    cases hres
  · rw [hr] at hres
    cases hres
  · cases search with
    | replacementFound e' =>
      obtain ⟨rfl, rfl⟩ := SignerRecoveryInspection.resolutionAvailable.inj (hr.symm.trans hres)
      obtain ⟨search, blocks, found, hs, hrun⟩ := searchAttemptReplacement_settled hsearch rfl
      obtain ⟨ha, hscan⟩ := hrun.scanResolution hs
      refine ⟨rfl, hc, ha.trans h.anchor_eq, Or.inr ?_⟩
      rw [h.log_eq]
      have hlog : ScanResolution ((l₁ ++ [anchorSeen anchor, nonceRead s.identity.signer
          (.at anchor.blockNumber) (some o'.nonce), anchorSeen anchor]) ++ l₂ ++ [])
          s.identity.signer attempt s.lastObservation e := hscan.mono
      simpa using hlog
    | _ =>
      rw [hr] at hres
      cases hres

end OldestInspection

end Quicknet
