import Quicknet.SignerRecovery

/-! The inclusion pass over every retained attempt at an observed head. -/
namespace Quicknet

open Interaction

inductive InclusionRecheckResult
  | verifiedUnchanged (observedAt : BlockAnchor)
  | inclusionBlockChanged (inclusion canonicalBlock : BlockAnchor)
  | receiptUnavailable
  | headBehindInclusion
  deriving DecidableEq, Repr

/-- The saved outcome allows a receipt of this status; a replacement's receipt
may have either. -/
def statusAllowed (status : ReceiptStatus) : InclusionOutcome → Bool
  | .success _ => status == .success
  | .reverted _ => status == .reverted
  | .replaced _ _ => true

def checkInclusionReceipt (saved : JournalInclusionObservation) (receipt : ReceiptReply) :
    Except Failure Unit :=
  match receipt.status with
  | some status => requireThat "Inconsistent inclusion receipt response."
      (receipt.transactionHash = some saved.outcome.receiptHash ∧
        receipt.blockNumber = some saved.inclusion.blockNumber ∧
        receipt.blockHash = some saved.inclusion.blockHash ∧
        statusAllowed status saved.outcome = true)
  | none => .error (.typeError "Inconsistent inclusion receipt response.")

/-- Rechecks a saved inclusion inside a pass whose head the caller checks. -/
def recheckAttemptInclusionWithinPass (observation : JournalInclusionObservation)
    (head : BlockAnchor) : Rpc InclusionRecheckResult := do
  let saved ← Prog.lift (snapshotResolutionEvidence
    ⟨observation.observedAt, observation.inclusion, observation.outcome⟩)
  if head.blockNumber < saved.inclusion.blockNumber then return .headBehindInclusion
  else
    let canonicalBlock ← getBlockAnchor saved.inclusion.blockNumber none
    if !blockAnchorsMatch saved.inclusion canonicalBlock then
      return .inclusionBlockChanged saved.inclusion canonicalBlock
    else
      match ← getTransactionReceipt saved.outcome.receiptHash with
      | none => return .receiptUnavailable
      | some receipt =>
        let _ ← Prog.lift (checkInclusionReceipt observation receipt)
        return .verifiedUnchanged head

inductive SignerInclusionInspection
  | anchorChanged (observedAnchor : BlockAnchor)
  | nonceBehindJournal (observation : AnchoredNonceObservation)
  | inconsistentObservations (observation : AnchoredNonceObservation)
  | inspected (observation : AnchoredNonceObservation) (attempts : List JournalAttempt)
      (inclusionChecksComplete : Bool) (broadcastAttemptId : Option AttemptId)
  deriving DecidableEq, Repr

/-- A step of the pass, which a changed anchor ends early. -/
inductive PassStep (α : Type)
  | anchorChanged (observedAnchor : BlockAnchor)
  | passed (value : α)

/-- One entry of the pass: the attempt as it will be recorded, whether it was
verified (`verifiedIndices`) and whether a replacement may be searched for
(`replacementCandidates`). -/
structure InspectedAttempt where
  attempt : JournalAttempt
  verified : Bool
  candidate : Bool
  deriving DecidableEq, Repr

/-- An attempt whose recorded inclusion block left the canonical chain. Progress
from the previous fork must not skip blocks. -/
def demote (attempt : JournalAttempt) : JournalAttempt :=
  { attempt with
    phase := .broadcastMayHaveOccurred
    replacementSearch := attempt.replacementSearch.map fun s => ⟨s.lowerBound, none⟩ }

def inspectAttempt (head : BlockAnchor) (attempt : JournalAttempt) :
    Rpc (PassStep InspectedAttempt) :=
  match attempt.phase with
  | .included inclusion => do
    match ← recheckAttemptInclusionWithinPass inclusion head with
    | .verifiedUnchanged observedAt =>
      return .passed ⟨{ attempt with
        phase := .included { inclusion with observedAt := observedAt } }, true, false⟩
    | .inclusionBlockChanged _ _ => return .passed ⟨demote attempt, false, false⟩
    | .receiptUnavailable => return .passed ⟨attempt, false, false⟩
    | .headBehindInclusion => return .passed ⟨attempt, false, false⟩
  | _ => do
    match ← reconcileAttemptReceipt attempt.signedTransactions.hashes head with
    | .anchorChanged observed => return .anchorChanged observed
    | .verified evidence =>
      return .passed ⟨{ attempt with
        phase := .included ⟨evidence.inclusion, head, evidence.outcome⟩ }, true, false⟩
    | receipt => return .passed ⟨attempt, false, receipt.isAbsent⟩

def inspectAttempts (head : BlockAnchor) :
    List JournalAttempt → Rpc (PassStep (List InspectedAttempt))
  | [] => return .passed []
  | attempt :: rest => do
    match ← inspectAttempt head attempt with
    | .anchorChanged observed => return .anchorChanged observed
    | .passed entry =>
      match ← inspectAttempts head rest with
      | .anchorChanged observed => return .anchorChanged observed
      | .passed entries => return .passed (entry :: entries)

/-- The search of one candidate whose nonce was consumed at the head. -/
def searchCandidate (snapshot : TransactionJournalSnapshot) (head : BlockAnchor)
    (observation : AnchoredNonceObservation) (maxReplacementBlockRange : ℕ)
    (entry : InspectedAttempt) : Rpc (PassStep InspectedAttempt) :=
  let attempt := entry.attempt
  if entry.candidate = false ∨ observation.nonce ≤ attempt.nonce then return .passed entry
  else do
    match ← searchAttemptReplacement snapshot.identity.signer attempt.nonce
        attempt.signedTransactions.hashes
        (resolveReplacementSearch attempt.nonce attempt.replacementSearch snapshot.lastObservation)
        observation maxReplacementBlockRange with
    | .anchorChanged observed => return .anchorChanged observed
    | .replacementFound evidence =>
      return .passed ⟨{ attempt with
        phase := .included ⟨evidence.inclusion, head, evidence.outcome⟩ }, true, true⟩
    | _ => return .passed entry

def searchCandidates (snapshot : TransactionJournalSnapshot) (head : BlockAnchor)
    (observation : AnchoredNonceObservation) (maxReplacementBlockRange : ℕ) :
    List InspectedAttempt → Rpc (PassStep (List InspectedAttempt))
  | [] => return .passed []
  | entry :: rest => do
    match ← searchCandidate snapshot head observation maxReplacementBlockRange entry with
    | .anchorChanged observed => return .anchorChanged observed
    | .passed entry =>
      match ← searchCandidates snapshot head observation maxReplacementBlockRange rest with
      | .anchorChanged observed => return .anchorChanged observed
      | .passed entries => return .passed (entry :: entries)

/-- The oldest unresolved attempt, when it was left without a canonical receipt
at an unconsumed nonce and every earlier attempt was verified. -/
def broadcastCandidate (observation : AnchoredNonceObservation)
    (entries : List InspectedAttempt) : Option AttemptId :=
  let earlier := entries.takeWhile fun e => e.attempt.phase.isIncluded
  match entries.dropWhile fun e => e.attempt.phase.isIncluded with
  | [] => none
  | e :: _ =>
    if e.candidate ∧ observation.nonce = e.attempt.nonce ∧ earlier.all (·.verified) then
      some e.attempt.attemptId
    else none

def finishInclusionPass (snapshot : TransactionJournalSnapshot)
    (observation : AnchoredNonceObservation) (entries : List InspectedAttempt) :
    Except Failure SignerInclusionInspection := do
  let inspected ← validateJournalSnapshotStructure
    { snapshot with lastObservation := observation, attempts := entries.map (·.attempt) }
    snapshot.identity
  return .inspected inspected.lastObservation inspected.attempts (entries.all (·.verified))
    (broadcastCandidate observation entries)

/-- Head check of a pass that is not inside a caller's bracket. -/
def checkOuterHead (checked : Bool) (snapshot : TransactionJournalSnapshot) (head : BlockAnchor) :
    Rpc (Option BlockAnchor) :=
  if checked ∧ snapshot.attempts ≠ [] then checkBlockAnchor head else return none

def searchWhenEnabled (snapshot : TransactionJournalSnapshot) (head : BlockAnchor)
    (observation : AnchoredNonceObservation) (maxReplacementBlockRange : Option ℕ)
    (entries : List InspectedAttempt) : Rpc (PassStep (List InspectedAttempt)) :=
  match maxReplacementBlockRange with
  | none => return .passed entries
  | some range => searchCandidates snapshot head observation range entries

def inspectSignerInclusionsInternal (input : TransactionJournalSnapshot) (head : BlockAnchor)
    (maxReplacementBlockRange : Option ℕ) (checkHead : Bool) : Rpc SignerInclusionInspection := do
  let snapshot ← Prog.lift (validateJournalSnapshotStructure input input.identity)
  let _ ← Prog.lift (requireThat "Invalid signer inclusion input."
    (head.blockNumber ≤ MAX_UINT256 ∧
      ∀ r ∈ maxReplacementBlockRange, 0 < r ∧ r ≤ MAX_UINT256))
  match ← checkOuterHead checkHead snapshot head with
  | some observed => return .anchorChanged observed
  | none =>
    match ← inspectAttempts head snapshot.attempts with
    | .anchorChanged observed => return .anchorChanged observed
    | .passed entries =>
      match ← readAnchoredNonce snapshot.identity.signer head with
      | .anchorChanged observed => return .anchorChanged observed
      | .verified observation =>
        if observation.nonce < snapshot.durableNextNonce then
          return .nonceBehindJournal observation
        else if entries.any fun e => e.verified && decide (observation.nonce ≤ e.attempt.nonce) then
          return .inconsistentObservations observation
        else
          match ← searchWhenEnabled snapshot head observation maxReplacementBlockRange entries with
          | .anchorChanged observed => return .anchorChanged observed
          | .passed entries =>
            match ← checkOuterHead checkHead snapshot head with
            | some observed => return .anchorChanged observed
            | none => Prog.lift (finishInclusionPass snapshot observation entries)

/-! What a pass does to an attempt, and what it has read about it. -/

inductive InclusionUpdate (a : JournalAttempt) : JournalAttempt → Prop
  | same : InclusionUpdate a a
  | refreshed (i : JournalInclusionObservation) (head : BlockAnchor) :
      a.phase = .included i →
      InclusionUpdate a { a with phase := .included { i with observedAt := head } }
  | demoted (i : JournalInclusionObservation) : a.phase = .included i →
      InclusionUpdate a (demote a)
  | included (i : JournalInclusionObservation) : a.phase.isIncluded = false →
      InclusionUpdate a { a with phase := .included i }

theorem InclusionUpdate.record_eq {a b : JournalAttempt} (h : InclusionUpdate a b) :
    b.record = a.record := by
  cases h <;> rfl

/-- An attempt left unresolved by the pass either was so and is unchanged, or
was demoted from a recorded inclusion. -/
theorem InclusionUpdate.unresolved {a b : JournalAttempt} (h : InclusionUpdate a b)
    (hb : b.phase.isIncluded = false) :
    b = a ∨ (b = demote a ∧ a.phase.isIncluded = true) := by
  cases h with
  | same => exact Or.inl rfl
  | refreshed i head hi => simp at hb
  | demoted i hi => exact Or.inr ⟨rfl, by simp [hi]⟩
  | included i hi => simp at hb

/-- An attempt that was not included can still be recorded as included. -/
theorem InclusionUpdate.include {a b : JournalAttempt} (h : InclusionUpdate a b)
    (ha : a.phase.isIncluded = false) (i : JournalInclusionObservation) :
    InclusionUpdate a { b with phase := .included i } := by
  cases h with
  | same => exact .included i ha
  | refreshed j head hj => simp [hj] at ha
  | demoted j hj => simp [hj] at ha
  | included j _ => exact .included i ha

/-- The inclusion was read in this pass: as a receipt in the block that the RPC
reports at its number, or as the one transaction with the nonce in a block. -/
def InclusionChecked (log : RpcLog) (signer : Address) (nonce : ℕ)
    (i : JournalInclusionObservation) : Prop :=
  CanonicalReceipt log i.outcome.receiptHash i.inclusion ∨
  ∃ (b : ChainBlock) (hash : Hash) (n : ℕ), b.read ∈ log ∧ b.anchor = i.inclusion ∧
    i.outcome = .replaced hash n ∧ signerHashes signer nonce b.transactions = [hash]

theorem InclusionChecked.mono {log log' : RpcLog} {signer : Address} {nonce : ℕ}
    {i : JournalInclusionObservation} (h : InclusionChecked log signer nonce i)
    (hl : log ⊆ log') : InclusionChecked log' signer nonce i := by
  rcases h with h | ⟨b, hash, n, hb, hrest⟩
  · exact Or.inl (h.mono hl)
  · exact Or.inr ⟨b, hash, n, hl hb, hrest⟩

structure EntryFacts (log : RpcLog) (signer : Address) (a : JournalAttempt)
    (e : InspectedAttempt) : Prop where
  update : InclusionUpdate a e.attempt
  verified : e.verified = true →
    ∃ i, e.attempt.phase = .included i ∧ InclusionChecked log signer e.attempt.nonce i
  candidate : e.candidate = true → a.phase.isIncluded = false ∧
    ∀ h ∈ a.signedTransactions.hashes, NoCanonicalReceipt log h

theorem EntryFacts.mono {log log' : RpcLog} {signer : Address} {a : JournalAttempt}
    {e : InspectedAttempt} (h : EntryFacts log signer a e) (hl : log ⊆ log') :
    EntryFacts log' signer a e := by
  refine ⟨h.update, ?_, ?_⟩
  · intro hv
    obtain ⟨i, hi, hc⟩ := h.verified hv
    exact ⟨i, hi, hc.mono hl⟩
  · intro hc
    obtain ⟨hp, hn⟩ := h.candidate hc
    exact ⟨hp, fun x hx => (hn x hx).mono hl⟩

theorem recheck_verified {i : JournalInclusionObservation} {head x : BlockAnchor} {log : RpcLog}
    (h : (recheckAttemptInclusionWithinPass i head).replay log =
      some (.ok (.verifiedUnchanged x))) :
    x = head ∧ CanonicalReceipt log i.outcome.receiptHash i.inclusion := by
  unfold recheckAttemptInclusionWithinPass at h
  simp only [Prog.bind_eq, Prog.pure_eq] at h
  obtain ⟨saved, l₁, l₂, rfl, h₁, h₂⟩ := Prog.replay_bind_ok_iff.mp h
  obtain ⟨rfl, hs⟩ := Prog.replay_lift_ok_iff.mp h₁
  obtain ⟨rfl, _⟩ := snapshotResolutionEvidence_ok_iff.mp hs
  simp only at h₂
  split_ifs at h₂
  · exact absurd (Prog.replay_ret_iff.mp h₂).2 (by simp)
  obtain ⟨canonical, l₃, l₄, rfl, h₃, h₄⟩ := Prog.replay_bind_ok_iff.mp h₂
  obtain ⟨_, rfl⟩ := getBlockAnchor_ok_iff.mp h₃
  split_ifs at h₄ with hm
  · exact absurd (Prog.replay_ret_iff.mp h₄).2 (by simp)
  have hcanonical : i.inclusion = canonical := blockAnchorsMatch_iff.mp (by simpa using hm)
  subst hcanonical
  obtain ⟨reply, l₅, l₆, rfl, h₅, h₆⟩ := Prog.replay_bind_ok_iff.mp h₄
  obtain rfl := getTransactionReceipt_ok_iff.mp h₅
  cases reply with
  | none => exact absurd (Prog.replay_ret_iff.mp h₆).2 (by simp)
  | some receipt =>
    obtain ⟨_, l₇, l₈, rfl, h₇, h₈⟩ := Prog.replay_bind_ok_iff.mp h₆
    obtain ⟨rfl, hx⟩ := Prog.replay_ret_iff.mp h₈
    obtain rfl := InclusionRecheckResult.verifiedUnchanged.inj (Except.ok.inj hx)
    obtain ⟨rfl, hc⟩ := Prog.replay_lift_ok_iff.mp h₇
    refine ⟨rfl, ?_⟩
    obtain ⟨th, n, bh, st⟩ := receipt
    cases st with
    | none => cases hc
    | some status =>
      simp only [checkInclusionReceipt, requireThat] at hc
      split_ifs at hc with hall
      obtain ⟨rfl, rfl, rfl, _⟩ := hall
      exact ⟨status, by simp, by simp⟩

theorem inspectAttempt_facts {signer : Address} {head : BlockAnchor} {a : JournalAttempt}
    {log : RpcLog} {e : InspectedAttempt}
    (h : (inspectAttempt head a).replay log = some (.ok (.passed e))) :
    EntryFacts log signer a e := by
  have hret {x : PassStep InspectedAttempt} {l : RpcLog}
      (hr : (Prog.ret x : Rpc (PassStep InspectedAttempt)).replay l = some (.ok (.passed e))) :
      l = [] ∧ x = .passed e := by
    obtain ⟨hl, hx⟩ := Prog.replay_ret_iff.mp hr
    exact ⟨hl, (Except.ok.inj hx).symm⟩
  -- an included attempt is checked again, and any other has its receipts read
  by_cases hi : ∃ i, a.phase = .included i
  · obtain ⟨i, hi⟩ := hi
    simp only [inspectAttempt, hi, Prog.bind_eq, Prog.pure_eq] at h
    obtain ⟨result, l₁, l₂, rfl, h₁, h₂⟩ := Prog.replay_bind_ok_iff.mp h
    cases result with
    | verifiedUnchanged x =>
      obtain ⟨rfl, he⟩ := hret h₂
      obtain rfl := PassStep.passed.inj he
      obtain ⟨rfl, hc⟩ := recheck_verified h₁
      exact ⟨.refreshed i _ hi, fun _ => ⟨_, rfl, Or.inl (by simpa using hc)⟩, by simp⟩
    | inclusionBlockChanged _ _ =>
      obtain ⟨_, he⟩ := hret h₂
      obtain rfl := PassStep.passed.inj he
      exact ⟨.demoted i hi, by simp, by simp⟩
    | _ =>
      obtain ⟨_, he⟩ := hret h₂
      obtain rfl := PassStep.passed.inj he
      exact ⟨.same, by simp, by simp⟩
  · have hphase : a.phase.isIncluded = false := by
      cases hp : a.phase with
      | included i => exact absurd ⟨i, hp⟩ hi
      | _ => rfl
    have h' : (do
        match ← reconcileAttemptReceipt a.signedTransactions.hashes head with
        | .anchorChanged observed => return .anchorChanged observed
        | .verified evidence =>
          return .passed ⟨{ a with
            phase := .included ⟨evidence.inclusion, head, evidence.outcome⟩ }, true, false⟩
        | receipt => return .passed ⟨a, false, receipt.isAbsent⟩ :
          Rpc (PassStep InspectedAttempt)).replay log = some (.ok (.passed e)) := by
      unfold inspectAttempt at h
      cases hp : a.phase with
      | included i => exact absurd ⟨i, hp⟩ hi
      | _ =>
        simp only [hp] at h
        exact h
    simp only [Prog.bind_eq, Prog.pure_eq] at h'
    obtain ⟨receipt, l₁, l₂, rfl, h₁, h₂⟩ := Prog.replay_bind_ok_iff.mp h'
    have hsub : l₁ ⊆ l₁ ++ l₂ := List.subset_append_left _ _
    cases receipt with
    | anchorChanged _ => cases (hret h₂).2
    | verified evidence =>
      obtain ⟨rfl, he⟩ := hret h₂
      obtain rfl := PassStep.passed.inj he
      obtain ⟨reads, hl, _, _, _, hc, _⟩ := reconcileAttemptReceipt_verified h₁
      refine ⟨.included _ hphase, fun _ => ⟨_, rfl, Or.inl ?_⟩, by simp⟩
      refine hc.mono ?_
      rw [hl]
      intro x hx
      simp [hx]
    | includedNotDurable _ _ _ =>
      obtain ⟨rfl, he⟩ := hret h₂
      obtain rfl := PassStep.passed.inj he
      exact ⟨.same, by simp, by simp [AttemptReceiptResult.isAbsent]⟩
    | receiptNotFound =>
      obtain ⟨_, he⟩ := hret h₂
      obtain rfl := PassStep.passed.inj he
      exact ⟨.same, by simp, fun _ => ⟨hphase, fun x hx =>
        (reconcileAttemptReceipt_absent h₁ (Or.inl rfl) x hx).mono hsub⟩⟩
    | forkServedReceipt _ _ =>
      obtain ⟨_, he⟩ := hret h₂
      obtain rfl := PassStep.passed.inj he
      exact ⟨.same, by simp, fun _ => ⟨hphase, fun x hx =>
        (reconcileAttemptReceipt_absent h₁ (Or.inr ⟨_, _, rfl⟩) x hx).mono hsub⟩⟩

theorem inspectAttempts_facts {signer : Address} {head : BlockAnchor} {l : List JournalAttempt}
    {log : RpcLog} {es : List InspectedAttempt}
    (h : (inspectAttempts head l).replay log = some (.ok (.passed es))) :
    List.Forall₂ (EntryFacts log signer) l es := by
  induction l generalizing log es with
  | nil =>
    obtain ⟨_, hx⟩ := Prog.replay_ret_iff.mp h
    obtain rfl := PassStep.passed.inj (Except.ok.inj hx)
    exact .nil
  | cons a l ih =>
    simp only [inspectAttempts, Prog.bind_eq, Prog.pure_eq] at h
    obtain ⟨x, l₁, l₂, rfl, h₁, h₂⟩ := Prog.replay_bind_ok_iff.mp h
    cases x with
    | anchorChanged _ => exact absurd (Prog.replay_ret_iff.mp h₂).2 (by simp)
    | passed e =>
      obtain ⟨y, l₃, l₄, rfl, h₃, h₄⟩ := Prog.replay_bind_ok_iff.mp h₂
      cases y with
      | anchorChanged _ => exact absurd (Prog.replay_ret_iff.mp h₄).2 (by simp)
      | passed es' =>
        obtain ⟨_, hx⟩ := Prog.replay_ret_iff.mp h₄
        obtain rfl := PassStep.passed.inj (Except.ok.inj hx)
        refine .cons ((inspectAttempt_facts h₁).mono (List.subset_append_left _ _)) ?_
        refine (ih h₃).imp fun _ _ hf => hf.mono ?_
        intro x hx
        simp [hx]

/-- A search only ever turns a candidate into a replaced inclusion at a nonce
below the observation. -/
theorem searchCandidate_facts {s : TransactionJournalSnapshot} {head : BlockAnchor}
    {o : AnchoredNonceObservation} {r : ℕ} {a : JournalAttempt} {e e' : InspectedAttempt}
    {log log' : RpcLog} (hf : EntryFacts log s.identity.signer a e)
    (hnonce : e.verified = true → e.attempt.nonce < o.nonce)
    (h : (searchCandidate s head o r e).replay log' = some (.ok (.passed e'))) :
    EntryFacts (log ++ log') s.identity.signer a e' ∧
      (e'.verified = true → e'.attempt.nonce < o.nonce) := by
  have hleft : log ⊆ log ++ log' := List.subset_append_left _ _
  unfold searchCandidate at h
  simp only [Prog.bind_eq, Prog.pure_eq] at h
  have hret {x : PassStep InspectedAttempt} {l : RpcLog}
      (hr : (Prog.ret x : Rpc (PassStep InspectedAttempt)).replay l = some (.ok (.passed e'))) :
      l = [] ∧ x = .passed e' := by
    obtain ⟨hl, hx⟩ := Prog.replay_ret_iff.mp hr
    exact ⟨hl, (Except.ok.inj hx).symm⟩
  -- an attempt that is no candidate passes as it is
  split_ifs at h with hskip
  · obtain ⟨_, he⟩ := hret h
    obtain rfl := PassStep.passed.inj he
    exact ⟨hf.mono hleft, hnonce⟩
  rw [not_or, Bool.not_eq_false, not_le] at hskip
  obtain ⟨hphase, hreceipt⟩ := hf.candidate hskip.1
  obtain ⟨result, l₁, l₂, rfl, h₁, h₂⟩ := Prog.replay_bind_ok_iff.mp h
  cases result with
  | anchorChanged _ => cases (hret h₂).2
  -- what is found is in the last block that the search has read
  | replacementFound ev =>
    obtain ⟨rfl, he⟩ := hret h₂
    obtain rfl := PassStep.passed.inj he
    obtain ⟨search, blocks, found, _, hrun⟩ := searchAttemptReplacement_settled h₁ rfl
    refine ⟨⟨hf.update.include hphase _, fun _ => ⟨_, rfl, Or.inr ?_⟩,
      fun _ => ⟨hphase, fun x hx => (hreceipt x hx).mono hleft⟩⟩, fun _ => hskip.2⟩
    cases found with
    | none => cases hrun.result_eq
    | some m =>
      obtain ⟨hash, inclusion⟩ := m
      have hr := hrun.result_eq
      simp only [searchResult] at hr
      split_ifs at hr
      obtain rfl := ReplacementSearchResult.replacementFound.inj hr
      obtain ⟨front, last, rfl, rfl, hhash, _⟩ := hrun.scan.one_found hash inclusion rfl
      exact ⟨last, hash, o.nonce, by simp [hrun.log_eq], rfl, rfl, hhash⟩
  | _ =>
    obtain ⟨_, he⟩ := hret h₂
    obtain rfl := PassStep.passed.inj he
    exact ⟨hf.mono hleft, hnonce⟩

theorem searchCandidates_facts {s : TransactionJournalSnapshot} {head : BlockAnchor}
    {o : AnchoredNonceObservation} {r : ℕ} {l : List JournalAttempt}
    {es es' : List InspectedAttempt} {log log' : RpcLog}
    (hf : List.Forall₂ (EntryFacts log s.identity.signer) l es)
    (hnonce : ∀ e ∈ es, e.verified = true → e.attempt.nonce < o.nonce)
    (h : (searchCandidates s head o r es).replay log' = some (.ok (.passed es'))) :
    List.Forall₂ (EntryFacts (log ++ log') s.identity.signer) l es' ∧
      ∀ e ∈ es', e.verified = true → e.attempt.nonce < o.nonce := by
  induction hf generalizing log' es' with
  | nil =>
    obtain ⟨_, hx⟩ := Prog.replay_ret_iff.mp h
    obtain rfl := PassStep.passed.inj (Except.ok.inj hx)
    exact ⟨.nil, by simp⟩
  | @cons a e l es he _ ih =>
    simp only [searchCandidates, Prog.bind_eq, Prog.pure_eq] at h
    obtain ⟨x, l₁, l₂, rfl, h₁, h₂⟩ := Prog.replay_bind_ok_iff.mp h
    cases x with
    | anchorChanged _ => exact absurd (Prog.replay_ret_iff.mp h₂).2 (by simp)
    | passed e' =>
      obtain ⟨y, l₃, l₄, rfl, h₃, h₄⟩ := Prog.replay_bind_ok_iff.mp h₂
      cases y with
      | anchorChanged _ => exact absurd (Prog.replay_ret_iff.mp h₄).2 (by simp)
      | passed es'' =>
        obtain ⟨rfl, hx⟩ := Prog.replay_ret_iff.mp h₄
        obtain rfl := PassStep.passed.inj (Except.ok.inj hx)
        obtain ⟨hfact, hn⟩ := searchCandidate_facts he (hnonce e (by simp)) h₁
        obtain ⟨hrest, hns⟩ := ih (fun e' he' => hnonce e' (by simp [he'])) h₃
        -- the entry and those after it were established by different reads of one log
        have hfirst : log ++ l₁ ⊆ log ++ (l₁ ++ (l₃ ++ [])) := by
          intro x hx
          simp only [List.mem_append] at hx ⊢
          tauto
        have hlater : log ++ l₃ ⊆ log ++ (l₁ ++ (l₃ ++ [])) := by
          intro x hx
          simp only [List.mem_append] at hx ⊢
          tauto
        refine ⟨.cons (hfact.mono hfirst) (hrest.imp fun _ _ hh => hh.mono hlater), ?_⟩
        intro e'' he''
        rcases List.mem_cons.mp he'' with rfl | he''
        · exact hn
        · exact hns e'' he''

theorem searchWhenEnabled_facts {s : TransactionJournalSnapshot} {head : BlockAnchor}
    {o : AnchoredNonceObservation} {r : Option ℕ} {l : List JournalAttempt}
    {es es' : List InspectedAttempt} {log log' : RpcLog}
    (hf : List.Forall₂ (EntryFacts log s.identity.signer) l es)
    (hnonce : ∀ e ∈ es, e.verified = true → e.attempt.nonce < o.nonce)
    (h : (searchWhenEnabled s head o r es).replay log' = some (.ok (.passed es'))) :
    List.Forall₂ (EntryFacts (log ++ log') s.identity.signer) l es' ∧
      ∀ e ∈ es', e.verified = true → e.attempt.nonce < o.nonce := by
  cases r with
  | some r => exact searchCandidates_facts hf hnonce h
  | none =>
    obtain ⟨rfl, hx⟩ := Prog.replay_ret_iff.mp h
    obtain rfl := PassStep.passed.inj (Except.ok.inj hx)
    exact ⟨by simpa using hf, hnonce⟩

/-- A pass that reached its result: its observation, the queue it proposes and
what its two flags mean. -/
structure InclusionPass (s : TransactionJournalSnapshot) (head : BlockAnchor) (log : RpcLog)
    (o : AnchoredNonceObservation) (attempts : List JournalAttempt) (complete : Bool)
    (broadcast : Option AttemptId) : Prop where
  anchor_eq : o.anchor = head
  nonceSeen : NonceSeen log s.identity.signer o
  durable_le : s.durableNextNonce ≤ o.nonce
  updates : List.Forall₂ InclusionUpdate s.attempts attempts
  complete_checked : complete = true → ∀ a ∈ attempts, a.nonce < o.nonce ∧
    ∃ i, a.phase = .included i ∧ InclusionChecked log s.identity.signer a.nonce i
  broadcast_candidate : ∀ id, broadcast = some id → ∃ front a back,
    attempts = front ++ a :: back ∧ a.attemptId = id ∧ a.phase.isIncluded = false ∧
    a ∈ s.attempts ∧ o.nonce = a.nonce ∧
    (∀ h ∈ a.signedTransactions.hashes, NoCanonicalReceipt log h) ∧
    ∀ b ∈ front, ∃ i, b.phase = .included i ∧ InclusionChecked log s.identity.signer b.nonce i

theorem InclusionPass.append {s : TransactionJournalSnapshot} {head : BlockAnchor} {log : RpcLog}
    {o : AnchoredNonceObservation} {attempts : List JournalAttempt} {complete : Bool}
    {broadcast : Option AttemptId} (h : InclusionPass s head log o attempts complete broadcast)
    (rest : RpcLog) : InclusionPass s head (log ++ rest) o attempts complete broadcast := by
  have hsub : log ⊆ log ++ rest := List.subset_append_left _ _
  refine ⟨h.anchor_eq, ?_, h.durable_le, h.updates, ?_, ?_⟩
  · obtain ⟨pre, post, rfl⟩ := h.nonceSeen
    exact ⟨pre, post ++ rest, by simp⟩
  · intro hc a ha
    obtain ⟨hlt, i, hi, hcheck⟩ := h.complete_checked hc a ha
    exact ⟨hlt, i, hi, hcheck.mono hsub⟩
  · intro id hid
    obtain ⟨front, a, back, hs, ha, hp, hm, hn, hno, hfront⟩ := h.broadcast_candidate id hid
    refine ⟨front, a, back, hs, ha, hp, hm, hn, fun x hx => (hno x hx).mono hsub, ?_⟩
    intro b hb
    obtain ⟨i, hi, hcheck⟩ := hfront b hb
    exact ⟨i, hi, hcheck.mono hsub⟩

theorem broadcastCandidate_some {o : AnchoredNonceObservation} {es : List InspectedAttempt}
    {id : AttemptId} (h : broadcastCandidate o es = some id) :
    ∃ front e back, es = front ++ e :: back ∧ e.attempt.attemptId = id ∧
      e.attempt.phase.isIncluded = false ∧ e.candidate = true ∧ o.nonce = e.attempt.nonce ∧
      ∀ f ∈ front, f.verified = true := by
  unfold broadcastCandidate at h
  simp only at h
  cases hd : es.dropWhile (fun e => e.attempt.phase.isIncluded) with
  | nil =>
    rw [hd] at h
    cases h
  | cons e back =>
    rw [hd] at h
    simp only at h
    split_ifs at h with hc
    refine ⟨es.takeWhile (fun e => e.attempt.phase.isIncluded), e, back, ?_,
      Option.some.inj h, ?_, hc.1, hc.2.1, fun f hf => List.all_eq_true.mp hc.2.2 f hf⟩
    · rw [← hd]
      exact (List.takeWhile_append_dropWhile).symm
    · have hne : es.dropWhile (fun e => e.attempt.phase.isIncluded) ≠ [] := by simp [hd]
      have hhead := List.head_dropWhile_not
        (fun (e : InspectedAttempt) => e.attempt.phase.isIncluded) hne
      simpa only [hd, List.head_cons, Bool.not_eq_true] using hhead

theorem forall₂_split {α β : Type*} {R : α → β → Prop} {l : List α} {front : List β} {b : β}
    {back : List β} (h : List.Forall₂ R l (front ++ b :: back)) :
    (∃ a ∈ l, R a b) ∧ ∀ f ∈ front, ∃ a ∈ l, R a f := by
  induction front generalizing l with
  | nil =>
    cases h with
    | cons ha _ => exact ⟨⟨_, by simp, ha⟩, by simp⟩
  | cons f front ih =>
    cases h with
    | cons ha hrest =>
      obtain ⟨⟨a, hm, hr⟩, hall⟩ := ih hrest
      refine ⟨⟨a, by simp [hm], hr⟩, ?_⟩
      intro g hg
      rcases List.mem_cons.mp hg with rfl | hg
      · exact ⟨_, by simp, ha⟩
      · obtain ⟨a', hm', hr'⟩ := hall g hg
        exact ⟨a', by simp [hm'], hr'⟩

theorem finishInclusionPass_ok {s : TransactionJournalSnapshot} {o o' : AnchoredNonceObservation}
    {es : List InspectedAttempt} {attempts : List JournalAttempt} {complete : Bool}
    {broadcast : Option AttemptId}
    (h : finishInclusionPass s o es = .ok (.inspected o' attempts complete broadcast)) :
    o' = o ∧ attempts = es.map (·.attempt) ∧ complete = es.all (·.verified) ∧
      broadcast = broadcastCandidate o es := by
  unfold finishInclusionPass at h
  cases hv : validateJournalSnapshotStructure
      { s with lastObservation := o, attempts := es.map (·.attempt) } s.identity with
  | error e =>
    rw [hv] at h
    cases h
  | ok t =>
    obtain ⟨rfl, _⟩ := validate_ok_iff.mp hv
    rw [hv] at h
    obtain ⟨rfl, rfl, rfl, rfl⟩ := SignerInclusionInspection.inspected.inj (Except.ok.inj h)
    exact ⟨rfl, rfl, rfl, rfl⟩

theorem forall₂_map_right {α β γ : Type*} {R : α → γ → Prop} {f : β → γ} {l : List α}
    {m : List β} (h : List.Forall₂ (fun a b => R a (f b)) l m) : List.Forall₂ R l (m.map f) := by
  induction h with
  | nil => exact .nil
  | cons h _ ih => exact .cons h ih

theorem forall₂_mem_right {α β : Type*} {R : α → β → Prop} {l : List α} {m : List β}
    (h : List.Forall₂ R l m) {b : β} (hb : b ∈ m) : ∃ a ∈ l, R a b := by
  obtain ⟨front, back, rfl⟩ := List.append_of_mem hb
  exact (forall₂_split h).1

theorem inclusionPass_of_entries {s : TransactionJournalSnapshot} {head : BlockAnchor}
    {log : RpcLog} {o : AnchoredNonceObservation} {es : List InspectedAttempt}
    (ha : o.anchor = head) (hn : NonceSeen log s.identity.signer o)
    (hd : s.durableNextNonce ≤ o.nonce)
    (hf : List.Forall₂ (EntryFacts log s.identity.signer) s.attempts es)
    (hnonce : ∀ e ∈ es, e.verified = true → e.attempt.nonce < o.nonce) :
    InclusionPass s head log o (es.map (·.attempt)) (es.all (·.verified))
      (broadcastCandidate o es) := by
  refine ⟨ha, hn, hd, forall₂_map_right (hf.imp fun _ _ h => h.update), ?_, ?_⟩
  · intro hall a ham
    obtain ⟨e, he, rfl⟩ := List.mem_map.mp ham
    have hv := List.all_eq_true.mp hall e he
    obtain ⟨b, _, hfact⟩ := forall₂_mem_right hf he
    exact ⟨hnonce e he hv, hfact.verified hv⟩
  · intro id hid
    obtain ⟨front, e, back, rfl, hide, hphase, hcand, hno, hfront⟩ := broadcastCandidate_some hid
    obtain ⟨⟨a, ham, hfact⟩, hall⟩ := forall₂_split hf
    obtain ⟨hapd, hrec⟩ := hfact.candidate hcand
    have hsame : e.attempt = a := by
      rcases hfact.update.unresolved hphase with h | ⟨_, h⟩
      · exact h
      · rw [hapd] at h
        cases h
    refine ⟨front.map (·.attempt), e.attempt, back.map (·.attempt), by simp, hide, hphase,
      hsame ▸ ham, hno, hsame ▸ hrec, ?_⟩
    intro b hb
    obtain ⟨f, hfm, rfl⟩ := List.mem_map.mp hb
    obtain ⟨a', _, hfact'⟩ := hall f hfm
    exact hfact'.verified (hfront f hfm)

theorem EntryFacts.forall₂_mono {log log' : RpcLog} {signer : Address} {l : List JournalAttempt}
    {es : List InspectedAttempt} (h : List.Forall₂ (EntryFacts log signer) l es)
    (hl : log ⊆ log') : List.Forall₂ (EntryFacts log' signer) l es :=
  h.imp fun _ _ hf => hf.mono hl

/-- What an inspected result rests on. -/
theorem inspectSignerInclusions_ok {s : TransactionJournalSnapshot} {head : BlockAnchor}
    {r : Option ℕ} {checkHead : Bool} {log : RpcLog} {o : AnchoredNonceObservation}
    {attempts : List JournalAttempt} {complete : Bool} {broadcast : Option AttemptId}
    (h : (inspectSignerInclusionsInternal s head r checkHead).replay log =
      some (.ok (.inspected o attempts complete broadcast))) :
    InclusionPass s head log o attempts complete broadcast := by
  unfold inspectSignerInclusionsInternal at h
  simp only [Prog.bind_eq, Prog.pure_eq] at h
  have hret {x : SignerInclusionInspection} {l : RpcLog}
      (hr : (Prog.ret x : Rpc SignerInclusionInspection).replay l =
        some (.ok (.inspected o attempts complete broadcast))) :
      x = .inspected o attempts complete broadcast :=
    (Except.ok.inj (Prog.replay_ret_iff.mp hr).2).symm
  obtain ⟨s', l₁, l₂, rfl, h₁, h₂⟩ := Prog.replay_bind_ok_iff.mp h
  obtain ⟨rfl, hv⟩ := Prog.replay_lift_ok_iff.mp h₁
  obtain ⟨rfl, _⟩ := validate_ok_iff.mp hv
  obtain ⟨_, l₃, l₄, rfl, h₃, h₄⟩ := Prog.replay_bind_ok_iff.mp h₂
  obtain ⟨rfl, _⟩ := Prog.replay_lift_ok_iff.mp h₃
  obtain ⟨c₁, l₅, l₆, rfl, h₅, h₆⟩ := Prog.replay_bind_ok_iff.mp h₄
  cases c₁ with
  | some _ => cases hret h₆
  | none =>
  obtain ⟨x, l₇, l₈, rfl, h₇, h₈⟩ := Prog.replay_bind_ok_iff.mp h₆
  cases x with
  | anchorChanged _ => cases hret h₈
  | passed es =>
  obtain ⟨n, l₉, l₁₀, rfl, h₉, h₁₀⟩ := Prog.replay_bind_ok_iff.mp h₈
  cases n with
  | anchorChanged _ => cases hret h₁₀
  | verified o' =>
  obtain ⟨rfl, _, rfl⟩ := readAnchoredNonce_verified_iff.mp h₉
  simp only at h₁₀
  split_ifs at h₁₀ with hbehind hinconsistent
  · cases hret h₁₀
  · cases hret h₁₀
  obtain ⟨y, l₁₁, l₁₂, rfl, h₁₁, h₁₂⟩ := Prog.replay_bind_ok_iff.mp h₁₀
  cases y with
  | anchorChanged _ => cases hret h₁₂
  | passed es' =>
  obtain ⟨c₂, l₁₃, l₁₄, rfl, h₁₃, h₁₄⟩ := Prog.replay_bind_ok_iff.mp h₁₂
  cases c₂ with
  | some _ => cases hret h₁₄
  | none =>
  obtain ⟨rfl, hfin⟩ := Prog.replay_lift_ok_iff.mp h₁₄
  obtain ⟨rfl, rfl, rfl, rfl⟩ := finishInclusionPass_ok hfin
  -- the nonce that was read has passed every attempt with a verified inclusion
  have hnonce : ∀ e ∈ es, e.verified = true → e.attempt.nonce < o.nonce := by
    intro e he hve
    by_contra hlt
    refine hinconsistent (List.any_eq_true.mpr ⟨e, he, ?_⟩)
    simp only [hve, Bool.true_and, decide_eq_true_eq]
    omega
  obtain ⟨hfacts, hns⟩ := searchWhenEnabled_facts (inspectAttempts_facts h₇) hnonce h₁₁
  have hsub : l₇ ++ l₁₁ ⊆ [] ++ ([] ++ (l₅ ++ (l₇ ++ ([anchorSeen o.anchor,
      nonceRead s'.identity.signer (.at o.anchor.blockNumber) (some o.nonce),
      anchorSeen o.anchor] ++ (l₁₁ ++ (l₁₃ ++ [])))))) := by
    intro z hz
    simp only [List.mem_append] at hz ⊢
    tauto
  exact inclusionPass_of_entries rfl ⟨l₅ ++ l₇, l₁₁ ++ l₁₃, by simp⟩ (by omega)
    (EntryFacts.forall₂_mono hfacts hsub) hns

end Quicknet
