import Quicknet.BlockAnchor

/-! Resolution evidence, and the receipts of an attempt's recorded hashes read
between two checks of one anchor. -/
namespace Quicknet

open Interaction

structure AttemptResolutionEvidence where
  anchor : BlockAnchor
  inclusion : BlockAnchor
  outcome : InclusionOutcome
  deriving DecidableEq, Repr

/-- The checks of `snapshotResolutionEvidence` on a value of the right shape. -/
def EvidenceValid (e : AttemptResolutionEvidence) : Prop :=
  e.anchor.blockNumber ≤ MAX_UINT256 ∧ e.inclusion.blockNumber ≤ MAX_UINT256 ∧
    e.inclusion.blockNumber ≤ e.anchor.blockNumber ∧
    (e.inclusion.blockNumber = e.anchor.blockNumber →
      e.inclusion.blockHash = e.anchor.blockHash) ∧
    match e.outcome with
    | .replaced _ nonceAtAnchor => nonceAtAnchor ≤ MAX_UINT256
    | _ => True

instance (e : AttemptResolutionEvidence) : Decidable (EvidenceValid e) := by
  unfold EvidenceValid
  cases e.outcome <;> infer_instance

def snapshotResolutionEvidence (input : AttemptResolutionEvidence) :
    Except Failure AttemptResolutionEvidence :=
  if EvidenceValid input then .ok input
  else .error (.typeError "Invalid attempt resolution evidence.")

theorem snapshotResolutionEvidence_ok_iff {e f : AttemptResolutionEvidence} :
    snapshotResolutionEvidence e = .ok f ↔ f = e ∧ EvidenceValid e := by
  unfold snapshotResolutionEvidence
  split_ifs with h <;> simp [h, eq_comm]

/-- The evidence names one of the attempt's transactions, or for a replacement
none of them, at a nonce that had moved past the attempt. -/
def ResolutionMatches (attempt : JournalAttempt) (evidence : AttemptResolutionEvidence) : Prop :=
  OutcomeMatches attempt.nonce attempt.signedTransactions.hashes evidence.outcome
where
  OutcomeMatches (nonce : ℕ) (hashes : List Hash) : InclusionOutcome → Prop
    | .success h => h ∈ hashes
    | .reverted h => h ∈ hashes
    | .replaced h nonceAtAnchor => h ∉ hashes ∧ nonce < nonceAtAnchor

instance (a : JournalAttempt) (e : AttemptResolutionEvidence) :
    Decidable (ResolutionMatches a e) := by
  unfold ResolutionMatches
  cases e.outcome <;> unfold ResolutionMatches.OutcomeMatches <;> infer_instance

def assertResolutionTransaction (attempt : JournalAttempt) (evidence : AttemptResolutionEvidence) :
    Except Failure Unit :=
  if ResolutionMatches attempt evidence then .ok ()
  else .error (.typeError "Invalid attempt resolution evidence.")

inductive AttemptReceiptResult
  | verified (evidence : AttemptResolutionEvidence)
  | receiptNotFound
  | anchorChanged (observedAnchor : BlockAnchor)
  | includedNotDurable (transactionHash : Hash) (status : ReceiptStatus) (inclusion : BlockAnchor)
  | forkServedReceipt (inclusion canonicalBlock : BlockAnchor)
  deriving DecidableEq, Repr

def ReceiptStatus.outcome (status : ReceiptStatus) (transactionHash : Hash) : InclusionOutcome :=
  match status with
  | .success => .success transactionHash
  | .reverted => .reverted transactionHash

/-- The block and status of a receipt that passes the source's checks. -/
def receiptInclusion (transactionHash : Hash) (receipt : ReceiptReply) :
    Except Failure (BlockAnchor × ReceiptStatus) :=
  match receipt.transactionHash, receipt.blockNumber, receipt.blockHash, receipt.status with
  | some hash, some blockNumber, some blockHash, some status =>
    if hash = transactionHash then .ok (⟨blockNumber, blockHash⟩, status)
    else .error (.typeError "Invalid attempt receipt response.")
  | _, _, _, _ => .error (.typeError "Invalid attempt receipt response.")

def readReceipt (transactionHash : Hash) (anchor : BlockAnchor) : Rpc AttemptReceiptResult := do
  match ← getTransactionReceipt transactionHash with
  | none => return .receiptNotFound
  | some receipt =>
    let (inclusion, status) ← Prog.lift (receiptInclusion transactionHash receipt)
    let canonicalBlock ← getBlockAnchor inclusion.blockNumber none
    if !blockAnchorsMatch inclusion canonicalBlock then
      return .forkServedReceipt inclusion canonicalBlock
    else if anchor.blockNumber < inclusion.blockNumber then
      return .includedNotDurable transactionHash status inclusion
    else
      let evidence ← Prog.lift (snapshotResolutionEvidence
        ⟨anchor, inclusion, status.outcome transactionHash⟩)
      return .verified evidence

/-- What the loop over the recorded hashes has seen. -/
structure ReceiptScan where
  included : Option AttemptReceiptResult
  fork : Option AttemptReceiptResult
  conflictingInclusions : Bool
  deriving DecidableEq, Repr

def ReceiptScan.add (s : ReceiptScan) (result : AttemptReceiptResult) : ReceiptScan :=
  match result with
  | .verified _ | .includedNotDurable _ _ _ =>
    match s.included with
    | some _ => { s with conflictingInclusions := true }
    | none => { s with included := some result }
  | .forkServedReceipt _ _ => { s with fork := s.fork.orElse fun _ => some result }
  | .receiptNotFound | .anchorChanged _ => s

def readReceipts (anchor : BlockAnchor) : List Hash → ReceiptScan → Rpc ReceiptScan
  | [], scan => return scan
  | hash :: rest, scan => do
    let result ← readReceipt hash anchor
    readReceipts anchor rest (scan.add result)

def reconcileAttemptReceipt (transactionHashes : List Hash) (anchor : BlockAnchor) :
    Rpc AttemptReceiptResult :=
  if transactionHashes = [] ∨ ¬ transactionHashes.Nodup then
    .throw (.typeError "Invalid receipt reconciliation input.")
  else do
    match ← checkBlockAnchor anchor with
    | some observed => return .anchorChanged observed
    | none =>
      let scan ← readReceipts anchor transactionHashes ⟨none, none, false⟩
      match ← checkBlockAnchor anchor with
      | some observed => return .anchorChanged observed
      | none =>
        if scan.conflictingInclusions then
          .throw (.typeError "Conflicting attempt receipt observations.")
        else return (scan.included.orElse fun _ => scan.fork).getD .receiptNotFound

/-! What the log shows about a hash. -/

/-- A receipt of `hash` in `block`, with the block read back by its number. -/
def CanonicalReceipt (log : RpcLog) (hash : Hash) (block : BlockAnchor) : Prop :=
  ∃ status, receiptRead hash (some ⟨some hash, some block.blockNumber, some block.blockHash,
      some status⟩) ∈ log ∧
    blockRead block.blockNumber none ⟨some block.blockNumber, some block.blockHash⟩ ∈ log

/-- Either no receipt of `hash` was found, or one whose block was not the block
the RPC reported for that number. -/
def NoCanonicalReceipt (log : RpcLog) (hash : Hash) : Prop :=
  receiptRead hash none ∈ log ∨
  ∃ (status : ReceiptStatus) (block : BlockAnchor) (canonical : Hash),
    receiptRead hash (some ⟨some hash, some block.blockNumber, some block.blockHash,
      some status⟩) ∈ log ∧
    blockRead block.blockNumber none ⟨some block.blockNumber, some canonical⟩ ∈ log ∧
    canonical ≠ block.blockHash

theorem CanonicalReceipt.mono {log log' : RpcLog} {h : Hash} {b : BlockAnchor}
    (hc : CanonicalReceipt log h b) (hl : log ⊆ log') : CanonicalReceipt log' h b := by
  obtain ⟨status, h₁, h₂⟩ := hc
  exact ⟨status, hl h₁, hl h₂⟩

theorem NoCanonicalReceipt.mono {log log' : RpcLog} {h : Hash} (hc : NoCanonicalReceipt log h)
    (hl : log ⊆ log') : NoCanonicalReceipt log' h := by
  rcases hc with h₁ | ⟨status, block, canonical, h₁, h₂, hne⟩
  · exact Or.inl (hl h₁)
  · exact Or.inr ⟨status, block, canonical, hl h₁, hl h₂, hne⟩

theorem receiptInclusion_ok {hash : Hash} {r : ReceiptReply} {b : BlockAnchor} {s : ReceiptStatus}
    (h : receiptInclusion hash r = .ok (b, s)) :
    r = ⟨some hash, some b.blockNumber, some b.blockHash, some s⟩ := by
  obtain ⟨th, n, bh, st⟩ := r
  unfold receiptInclusion at h
  split at h
  · rename_i hash' n' bh' st' h₁ h₂ h₃ h₄
    split_ifs at h with he
    obtain ⟨rfl, rfl⟩ := Prod.mk.inj (Except.ok.inj h)
    simp only at h₁ h₂ h₃ h₄
    rw [h₁, h₂, h₃, h₄, he]
  · cases h

/-- The one read of a hash: what each answer says about its receipt. -/
theorem readReceipt_ok {hash : Hash} {anchor : BlockAnchor} {log : RpcLog}
    {result : AttemptReceiptResult}
    (h : (readReceipt hash anchor).replay log = some (.ok result)) :
    match result with
    | .verified e => CanonicalReceipt log hash e.inclusion ∧ e.anchor = anchor ∧
        EvidenceValid e ∧ e.outcome.receiptHash = hash ∧
        (e.outcome = .success hash ∨ e.outcome = .reverted hash)
    | .includedNotDurable h' _ inclusion => h' = hash ∧ CanonicalReceipt log hash inclusion ∧
        anchor.blockNumber < inclusion.blockNumber
    | .anchorChanged _ => False
    | _ => NoCanonicalReceipt log hash := by
  unfold readReceipt at h
  simp only [Prog.bind_eq, Prog.pure_eq] at h
  obtain ⟨reply, l₁, l₂, rfl, h₁, h₂⟩ := Prog.replay_bind_ok_iff.mp h
  obtain rfl := getTransactionReceipt_ok_iff.mp h₁
  cases reply with
  | none =>
    obtain ⟨rfl, hr⟩ := Prog.replay_ret_iff.mp h₂
    obtain rfl := Except.ok.inj hr
    exact Or.inl (by simp)
  | some receipt =>
    obtain ⟨⟨inclusion, status⟩, l₃, l₄, rfl, h₃, h₄⟩ := Prog.replay_bind_ok_iff.mp h₂
    obtain ⟨rfl, hi⟩ := Prog.replay_lift_ok_iff.mp h₃
    obtain rfl := receiptInclusion_ok hi
    obtain ⟨canonical, l₅, l₆, rfl, h₅, h₆⟩ := Prog.replay_bind_ok_iff.mp h₄
    obtain ⟨hn, rfl⟩ := getBlockAnchor_ok_iff.mp h₅
    -- the block of the receipt is not canonical, lies above the anchor, or is evidence
    split_ifs at h₆ with hm hlt
    · obtain ⟨rfl, hr⟩ := Prog.replay_ret_iff.mp h₆
      obtain rfl := Except.ok.inj hr
      refine Or.inr ⟨status, inclusion, canonical.blockHash, by simp, by simp [blockRead], ?_⟩
      intro he
      have heq : inclusion = canonical := by
        cases inclusion
        cases canonical
        simp_all
      rw [heq, Bool.not_eq_true', ← Bool.not_eq_true, blockAnchorsMatch_iff] at hm
      exact hm rfl
    all_goals
      have heq : inclusion = canonical := blockAnchorsMatch_iff.mp (by simpa using hm)
      subst heq
    · obtain ⟨rfl, hr⟩ := Prog.replay_ret_iff.mp h₆
      obtain rfl := Except.ok.inj hr
      exact ⟨rfl, ⟨status, by simp, by simp⟩, hlt⟩
    · obtain ⟨e, l₇, l₈, rfl, h₇, h₈⟩ := Prog.replay_bind_ok_iff.mp h₆
      obtain ⟨rfl, hr⟩ := Prog.replay_ret_iff.mp h₈
      obtain rfl := Except.ok.inj hr
      obtain ⟨rfl, he⟩ := Prog.replay_lift_ok_iff.mp h₇
      obtain ⟨rfl, hv⟩ := snapshotResolutionEvidence_ok_iff.mp he
      refine ⟨⟨status, by simp, by simp⟩, rfl, hv, ?_, ?_⟩
      · cases status <;> rfl
      · cases status
        · exact Or.inl rfl
        · exact Or.inr rfl

/-- What a scan that has passed over `hashes` knows. -/
structure ScanFacts (log : RpcLog) (anchor : BlockAnchor) (hashes : List Hash) (s : ReceiptScan) :
    Prop where
  absent : s.included = none → ∀ h ∈ hashes, NoCanonicalReceipt log h
  found : ∀ r ∈ s.included,
    (∃ e, r = .verified e ∧ e.outcome.receiptHash ∈ hashes ∧ e.anchor = anchor ∧
      EvidenceValid e ∧ CanonicalReceipt log e.outcome.receiptHash e.inclusion ∧
      (e.outcome = .success e.outcome.receiptHash ∨ e.outcome = .reverted e.outcome.receiptHash)) ∨
    ∃ h status inclusion, r = .includedNotDurable h status inclusion ∧ h ∈ hashes
  forked : ∀ r ∈ s.fork, ∃ inclusion canonical, r = .forkServedReceipt inclusion canonical

theorem ScanFacts.add {log l₁ : RpcLog} {anchor : BlockAnchor} {hashes : List Hash}
    {s : ReceiptScan} {h : Hash} {r : AttemptReceiptResult} (hs : ScanFacts log anchor hashes s)
    (hr : (readReceipt h anchor).replay l₁ = some (.ok r)) :
    ScanFacts (log ++ l₁) anchor (hashes ++ [h]) (s.add r) := by
  have hspec := readReceipt_ok hr
  have hleft : log ⊆ log ++ l₁ := List.subset_append_left _ _
  have hright : l₁ ⊆ log ++ l₁ := List.subset_append_right _ _
  -- what was found stays, and a hash without a receipt joins those passed over
  have hfound : ∀ r ∈ s.included,
      (∃ e, r = .verified e ∧ e.outcome.receiptHash ∈ hashes ++ [h] ∧ e.anchor = anchor ∧
        EvidenceValid e ∧ CanonicalReceipt (log ++ l₁) e.outcome.receiptHash e.inclusion ∧
        (e.outcome = .success e.outcome.receiptHash ∨
          e.outcome = .reverted e.outcome.receiptHash)) ∨
      ∃ h' status inclusion, r = .includedNotDurable h' status inclusion ∧ h' ∈ hashes ++ [h] := by
    intro r hr
    rcases hs.found r hr with ⟨e, rfl, hm, ha, hv, hc, ho⟩ | ⟨h', status, inclusion, rfl, hm⟩
    · exact Or.inl ⟨e, rfl, List.mem_append_left _ hm, ha, hv, hc.mono hleft, ho⟩
    · exact Or.inr ⟨h', status, inclusion, rfl, List.mem_append_left _ hm⟩
  have habsent (hnone : s.included = none) (hlast : NoCanonicalReceipt l₁ h) :
      ∀ x ∈ hashes ++ [h], NoCanonicalReceipt (log ++ l₁) x := by
    intro x hx
    rcases List.mem_append.mp hx with hx | hx
    · exact (hs.absent hnone x hx).mono hleft
    · rw [List.mem_singleton.mp hx]
      exact hlast.mono hright
  cases r with
  | anchorChanged _ => exact hspec.elim
  | receiptNotFound => exact ⟨fun hn => habsent hn hspec, hfound, hs.forked⟩
  | forkServedReceipt inclusion canonical =>
    refine ⟨fun hn => habsent hn hspec, hfound, ?_⟩
    intro x hx
    cases hf : s.fork with
    | none =>
      simp only [ReceiptScan.add, hf, Option.orElse_none, Option.mem_def, Option.some.injEq] at hx
      exact ⟨inclusion, canonical, hx.symm⟩
    | some y =>
      simp only [ReceiptScan.add, hf, Option.orElse_some, Option.mem_def, Option.some.injEq] at hx
      rw [← hx]
      exact hs.forked y hf
  | verified e =>
    cases hi : s.included with
    | some y =>
      have hadd := hfound y hi
      refine ⟨by simp [ReceiptScan.add, hi], ?_, by simpa [ReceiptScan.add, hi] using hs.forked⟩
      intro x hx
      simp only [ReceiptScan.add, hi, Option.mem_def, Option.some.injEq] at hx
      exact hx ▸ hadd
    | none =>
      refine ⟨by simp [ReceiptScan.add, hi], ?_, by simpa [ReceiptScan.add, hi] using hs.forked⟩
      intro x hx
      simp only [ReceiptScan.add, hi, Option.mem_def, Option.some.injEq] at hx
      obtain ⟨hc, ha, hv, hh, ho⟩ := hspec
      subst hx
      refine Or.inl ⟨e, rfl, ?_, ha, hv, ?_, ?_⟩
      · simp [hh]
      · rw [hh]
        exact hc.mono hright
      · rw [hh]
        exact ho
  | includedNotDurable h' status inclusion =>
    cases hi : s.included with
    | some y =>
      have hadd := hfound y hi
      refine ⟨by simp [ReceiptScan.add, hi], ?_, by simpa [ReceiptScan.add, hi] using hs.forked⟩
      intro x hx
      simp only [ReceiptScan.add, hi, Option.mem_def, Option.some.injEq] at hx
      exact hx ▸ hadd
    | none =>
      refine ⟨by simp [ReceiptScan.add, hi], ?_, by simpa [ReceiptScan.add, hi] using hs.forked⟩
      intro x hx
      simp only [ReceiptScan.add, hi, Option.mem_def, Option.some.injEq] at hx
      obtain ⟨rfl, _⟩ := hspec
      subst hx
      exact Or.inr ⟨h', status, inclusion, rfl, by simp⟩

theorem scanFacts_start (anchor : BlockAnchor) : ScanFacts [] anchor [] ⟨none, none, false⟩ :=
  ⟨fun _ h hh => by simp at hh, by simp, by simp⟩

theorem readReceipts_facts {anchor : BlockAnchor} {rest done : List Hash} {s t : ReceiptScan}
    {log l₁ : RpcLog} (hs : ScanFacts log anchor done s)
    (h : (readReceipts anchor rest s).replay l₁ = some (.ok t)) :
    ScanFacts (log ++ l₁) anchor (done ++ rest) t := by
  induction rest generalizing done s log l₁ with
  | nil =>
    obtain ⟨rfl, ht⟩ := Prog.replay_ret_iff.mp h
    obtain rfl := Except.ok.inj ht
    simpa using hs
  | cons hash rest ih =>
    unfold readReceipts at h
    obtain ⟨r, l₂, l₃, rfl, h₂, h₃⟩ := Prog.replay_bind_ok_iff.mp h
    have hh := ih (hs.add h₂) h₃
    simpa using hh

/-- A result other than a changed anchor was read between two checks that found
the anchor unchanged. -/
theorem reconcileAttemptReceipt_ok {hashes : List Hash} {anchor : BlockAnchor} {log : RpcLog}
    {result : AttemptReceiptResult}
    (h : (reconcileAttemptReceipt hashes anchor).replay log = some (.ok result)) :
    (∃ observed, result = .anchorChanged observed) ∨
    ∃ evidence scan, log = anchorSeen anchor :: evidence ++ [anchorSeen anchor] ∧
      ScanFacts evidence anchor hashes scan ∧
      result = (scan.included.orElse fun _ => scan.fork).getD .receiptNotFound := by
  unfold reconcileAttemptReceipt at h
  split_ifs at h
  · exact absurd (Prog.replay_throw_iff.mp h).2 (by simp)
  simp only [Prog.bind_eq, Prog.pure_eq] at h
  obtain ⟨c₁, l₁, l₂, rfl, h₁, h₂⟩ := Prog.replay_bind_ok_iff.mp h
  cases c₁ with
  | some observed => exact Or.inl ⟨observed, (Except.ok.inj (Prog.replay_ret_iff.mp h₂).2)⟩
  | none =>
    obtain rfl := checkBlockAnchor_unchanged_iff.mp h₁
    obtain ⟨scan, l₃, l₄, rfl, h₃, h₄⟩ := Prog.replay_bind_ok_iff.mp h₂
    obtain ⟨c₂, l₅, l₆, rfl, h₅, h₆⟩ := Prog.replay_bind_ok_iff.mp h₄
    cases c₂ with
    | some observed => exact Or.inl ⟨observed, (Except.ok.inj (Prog.replay_ret_iff.mp h₆).2)⟩
    | none =>
      obtain rfl := checkBlockAnchor_unchanged_iff.mp h₅
      have hfacts := readReceipts_facts (scanFacts_start anchor) h₃
      simp only at h₆
      split_ifs at h₆
      · exact absurd (Prog.replay_throw_iff.mp h₆).2 (by simp)
      obtain ⟨rfl, hr⟩ := Prog.replay_ret_iff.mp h₆
      refine Or.inr ⟨l₃, scan, by simp, by simpa using hfacts, Except.ok.inj hr⟩

theorem reconcileAttemptReceipt_verified {hashes : List Hash} {anchor : BlockAnchor}
    {log : RpcLog} {e : AttemptResolutionEvidence}
    (h : (reconcileAttemptReceipt hashes anchor).replay log = some (.ok (.verified e))) :
    ∃ reads, log = anchorSeen anchor :: reads ++ [anchorSeen anchor] ∧
      e.outcome.receiptHash ∈ hashes ∧ e.anchor = anchor ∧ EvidenceValid e ∧
      CanonicalReceipt reads e.outcome.receiptHash e.inclusion ∧
      (e.outcome = .success e.outcome.receiptHash ∨ e.outcome = .reverted e.outcome.receiptHash) := by
  rcases reconcileAttemptReceipt_ok h with ⟨_, hh⟩ | ⟨reads, scan, hlog, hf, hr⟩
  · cases hh
  · refine ⟨reads, hlog, ?_⟩
    cases hi : scan.included with
    | some r =>
      rw [hi, Option.orElse_some, Option.getD_some] at hr
      rcases hf.found r hi with ⟨e', he, hrest⟩ | ⟨_, _, _, hn, _⟩
      · obtain rfl := AttemptReceiptResult.verified.inj (hr.trans he)
        exact hrest
      · rw [← hr] at hn
        cases hn
    | none =>
      rw [hi, Option.orElse_none] at hr
      cases hk : scan.fork with
      | none =>
        rw [hk] at hr
        cases hr
      | some r =>
        obtain ⟨inclusion, canonical, hfk⟩ := hf.forked r hk
        rw [hk, hfk] at hr
        cases hr

/-- An absent or fork-served receipt means that no recorded hash has a
canonical one. -/
theorem reconcileAttemptReceipt_absent {hashes : List Hash} {anchor : BlockAnchor} {log : RpcLog}
    {result : AttemptReceiptResult}
    (h : (reconcileAttemptReceipt hashes anchor).replay log = some (.ok result))
    (hres : result = .receiptNotFound ∨ ∃ i c, result = .forkServedReceipt i c) :
    ∀ x ∈ hashes, NoCanonicalReceipt log x := by
  rcases reconcileAttemptReceipt_ok h with ⟨_, hh⟩ | ⟨reads, scan, hlog, hf, hr⟩
  · rcases hres with hres | ⟨_, _, hres⟩ <;> rw [hh] at hres <;> cases hres
  · have hsub : reads ⊆ log := by
      rw [hlog]
      intro x hx
      simp [hx]
    cases hi : scan.included with
    | none => exact fun x hx => (hf.absent hi x hx).mono hsub
    | some r =>
      rw [hi, Option.orElse_some, Option.getD_some] at hr
      rcases hf.found r hi with ⟨e, he, _⟩ | ⟨_, _, _, he, _⟩ <;>
        rcases hres with hres | ⟨_, _, hres⟩ <;> rw [hr, he] at hres <;> cases hres

end Quicknet
