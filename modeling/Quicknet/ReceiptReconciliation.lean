import Quicknet.AttemptReceipt

/-! The outcome of a receipt reconciliation, for every assignment of answers to the
recorded hashes: which answers decide it, and that their order does not. -/
namespace Quicknet

open Interaction

/-- What the RPC answers about one recorded hash: its receipt, and the block that is
read by the receipt's number. -/
structure ReceiptAnswer where
  receipt : Except Failure (Option ReceiptReply)
  block : Except Failure BlockReply

namespace ReceiptAnswer

/-- The receipt of `hash` in `inclusion`, as a well formed response reports it. -/
def Reports (a : ReceiptAnswer) (hash : Hash) (status : ReceiptStatus) (inclusion : BlockAnchor) :
    Prop :=
  a.receipt = .ok (some ⟨some hash, some inclusion.blockNumber, some inclusion.blockHash,
    some status⟩)

def Missing (a : ReceiptAnswer) : Prop := a.receipt = .ok none

/-- The block read by the number of the receipt is the receipt's block. -/
def Canonical (a : ReceiptAnswer) (hash : Hash) (status : ReceiptStatus)
    (inclusion : BlockAnchor) : Prop :=
  a.Reports hash status inclusion ∧
    a.block = .ok ⟨some inclusion.blockNumber, some inclusion.blockHash⟩

def ForkServed (a : ReceiptAnswer) (hash : Hash) (inclusion canonicalBlock : BlockAnchor) : Prop :=
  (∃ status, a.Reports hash status inclusion) ∧
    a.block = .ok ⟨some canonicalBlock.blockNumber, some canonicalBlock.blockHash⟩ ∧
    canonicalBlock.blockNumber = inclusion.blockNumber ∧
    canonicalBlock.blockHash ≠ inclusion.blockHash

/-- Neither malformed nor failing. -/
def Usable (a : ReceiptAnswer) (hash : Hash) : Prop :=
  a.Missing ∨ (∃ inclusion canonicalBlock, a.ForkServed hash inclusion canonicalBlock) ∨
    ∃ status inclusion, a.Canonical hash status inclusion

/-- What the checks of `getBlockAnchor` leave of a block read. -/
def blockAt (reply : Except Failure BlockReply) (blockNumber : ℕ) : Except Failure BlockAnchor := do
  let block ← reply
  match block.hash with
  | some hash =>
    if block.number = some blockNumber then .ok ⟨blockNumber, hash⟩
    else .error (.error "Invalid block anchor response.")
  | none => .error (.error "Invalid block anchor response.")

/-- What one recorded hash contributes. -/
def result (anchor : BlockAnchor) (hash : Hash) (a : ReceiptAnswer) :
    Except Failure AttemptReceiptResult := do
  match ← a.receipt with
  | none => return .receiptNotFound
  | some receipt =>
    let (inclusion, status) ← receiptInclusion hash receipt
    let canonicalBlock ← blockAt a.block inclusion.blockNumber
    if !blockAnchorsMatch inclusion canonicalBlock then
      return .forkServedReceipt inclusion canonicalBlock
    else if anchor.blockNumber < inclusion.blockNumber then
      return .includedNotDurable hash status inclusion
    else
      let evidence ← snapshotResolutionEvidence ⟨anchor, inclusion, status.outcome hash⟩
      return .verified evidence

end ReceiptAnswer

/-- An RPC that answers each recorded hash as assigned, and the opening and closing
checks of the anchor as given. The block of a receipt is read right after it. -/
def receiptRpc (answers : Hash → ReceiptAnswer) (opening closing : Except Failure BlockReply) :
    Prog.Environment Query.Reply Failure
  | past, .block _ (some _) => if past.isEmpty then opening else closing
  | past, .block _ none =>
    match past.getLast? with
    | some ⟨.transactionReceipt hash, _⟩ => (answers hash).block
    | _ => .error .rpc
  | _, .transactionReceipt hash => (answers hash).receipt
  | _, .fullBlock _ => .error .rpc
  | _, .transactionCount _ _ => .error .rpc

/-- The outcome of a reconciliation under such an RPC. -/
def reconciled (hashes : List Hash) (anchor : BlockAnchor) (answers : Hash → ReceiptAnswer)
    (opening closing : Except Failure BlockReply) : Except Failure AttemptReceiptResult :=
  ((reconcileAttemptReceipt hashes anchor).runIn (receiptRpc answers opening closing) []).2

section Reads

variable (answers : Hash → ReceiptAnswer) (opening closing : Except Failure BlockReply)
  (anchor : BlockAnchor) (past : List (Exchange Query.Reply Failure))

/-- A block read under an RPC, with what the checks leave of its reply. -/
theorem getBlockAnchor_runIn (env : Prog.Environment Query.Reply Failure) (n : ℕ)
    (expected : Option Hash) : (getBlockAnchor n expected).runIn env past =
      (past ++ [⟨.block n expected, env past (.block n expected)⟩],
        ReceiptAnswer.blockAt (env past (.block n expected)) n) := by
  have hget : (getBlock n expected).runIn env past =
      (past ++ [⟨.block n expected, env past (.block n expected)⟩],
        env past (.block n expected)) := Prog.runIn_ask _ _ _
  unfold getBlockAnchor
  rw [Prog.bind_eq]
  cases henv : env past (.block n expected) with
  | error e =>
    rw [henv] at hget
    exact Prog.runIn_bind_error hget _
  | ok block =>
    rw [henv] at hget
    rw [Prog.runIn_bind_ok hget]
    obtain ⟨number, hash⟩ := block
    cases hash with
    | none => rfl
    | some hash =>
      simp only [ReceiptAnswer.blockAt, bind, Except.bind]
      split_ifs <;> rfl

/-- What a check of the anchor makes of the reply. -/
def anchorCheck (anchor : BlockAnchor) (reply : Except Failure BlockReply) :
    Except Failure (Option BlockAnchor) := do
  let observed ← ReceiptAnswer.blockAt reply anchor.blockNumber
  return if blockAnchorsMatch anchor observed then none else some observed

theorem checkBlockAnchor_runIn (env : Prog.Environment Query.Reply Failure) :
    (checkBlockAnchor anchor).runIn env past =
      (past ++ [⟨.block anchor.blockNumber (some anchor.blockHash),
        env past (.block anchor.blockNumber (some anchor.blockHash))⟩],
      anchorCheck anchor (env past (.block anchor.blockNumber (some anchor.blockHash)))) := by
  have hget := getBlockAnchor_runIn past env anchor.blockNumber (some anchor.blockHash)
  unfold checkBlockAnchor anchorCheck
  rw [Prog.bind_eq]
  cases hb : ReceiptAnswer.blockAt (env past (.block anchor.blockNumber (some anchor.blockHash)))
      anchor.blockNumber with
  | error e =>
    rw [hb] at hget
    exact Prog.runIn_bind_error hget _
  | ok observed =>
    rw [hb] at hget
    rw [Prog.runIn_bind_ok hget]
    simp only [bind, Except.bind, pure, Except.pure]
    split_ifs <;> rfl

theorem readReceipt_runIn (hash : Hash) :
    ∃ log, (readReceipt hash anchor).runIn (receiptRpc answers opening closing) past =
      (past ++ log, (answers hash).result anchor hash) := by
  have hget : (getTransactionReceipt hash).runIn (receiptRpc answers opening closing) past =
      (past ++ [⟨.transactionReceipt hash, (answers hash).receipt⟩], (answers hash).receipt) :=
    Prog.runIn_ask _ _ _
  unfold readReceipt ReceiptAnswer.result
  -- the block of a receipt is read only once the receipt has passed its checks
  rw [Prog.bind_eq]
  cases hr : (answers hash).receipt with
  | error e =>
    rw [hr] at hget
    exact ⟨_, Prog.runIn_bind_error hget _⟩
  | ok reply =>
    rw [hr] at hget
    rw [Prog.runIn_bind_ok hget]
    cases reply with
    | none => exact ⟨_, rfl⟩
    | some receipt =>
      simp only [bind, Except.bind]
      cases hi : receiptInclusion hash receipt with
      | error e => exact ⟨_, rfl⟩
      | ok p =>
        obtain ⟨inclusion, status⟩ := p
        simp only [Prog.lift, Prog.ret_bind]
        have hblock := getBlockAnchor_runIn (past ++ [⟨.transactionReceipt hash,
          .ok (some receipt)⟩]) (receiptRpc answers opening closing) inclusion.blockNumber none
        have hanswer : receiptRpc answers opening closing
            (past ++ [⟨.transactionReceipt hash, .ok (some receipt)⟩])
            (.block inclusion.blockNumber none) = (answers hash).block := by
          simp only [receiptRpc, List.getLast?_concat]
          rfl
        rw [hanswer, List.append_assoc] at hblock
        refine ⟨[⟨.transactionReceipt hash, .ok (some receipt)⟩] ++
          [⟨.block inclusion.blockNumber none, (answers hash).block⟩], ?_⟩
        cases hb : ReceiptAnswer.blockAt (answers hash).block inclusion.blockNumber with
        | error e =>
          rw [hb] at hblock
          exact Prog.runIn_bind_error hblock _
        | ok canonicalBlock =>
          rw [hb] at hblock
          refine (Prog.runIn_bind_ok hblock _).trans ?_
          simp only [pure, Except.pure]
          split_ifs
          · rfl
          · rfl
          · cases snapshotResolutionEvidence ⟨anchor, inclusion, status.outcome hash⟩ <;> rfl

/-- The loop reads every hash in turn, and ends with the first error. -/
theorem readReceipts_runIn (hashes : List Hash) (scan : ReceiptScan) :
    ∃ log, (readReceipts anchor hashes scan).runIn (receiptRpc answers opening closing) past =
      (past ++ log, (hashes.mapM fun h => (answers h).result anchor h).map
        fun results => results.foldl ReceiptScan.add scan) := by
  induction hashes generalizing scan past with
  | nil => exact ⟨[], by simp [readReceipts, Prog.runIn, Except.map, pure, Except.pure]⟩
  | cons hash rest ih =>
    obtain ⟨log, hread⟩ := readReceipt_runIn answers opening closing anchor past hash
    unfold readReceipts
    rw [Prog.bind_eq, List.mapM_cons]
    cases hr : (answers hash).result anchor hash with
    | error e =>
      rw [hr] at hread
      exact ⟨log, Prog.runIn_bind_error hread _⟩
    | ok result =>
      rw [hr] at hread
      obtain ⟨log', hrest⟩ := ih (past ++ log) (scan.add result)
      refine ⟨log ++ log', ?_⟩
      rw [Prog.runIn_bind_ok hread, hrest, List.append_assoc]
      cases rest.mapM fun h => (answers h).result anchor h <;> rfl

end Reads

namespace AttemptReceiptResult

/-- The transaction is in a block of the chain. -/
def isInclusion : AttemptReceiptResult → Bool
  | .verified _ | .includedNotDurable _ _ _ => true
  | _ => false

def isFork : AttemptReceiptResult → Bool
  | .forkServedReceipt _ _ => true
  | _ => false

section Kinds

variable (e : AttemptResolutionEvidence) (h : Hash) (s : ReceiptStatus) (b c : BlockAnchor)

@[simp] theorem isInclusion_verified : (verified e).isInclusion = true := rfl
@[simp] theorem isInclusion_included : (includedNotDurable h s b).isInclusion = true := rfl
@[simp] theorem isInclusion_fork : (forkServedReceipt b c).isInclusion = false := rfl
@[simp] theorem isInclusion_absent : receiptNotFound.isInclusion = false := rfl
@[simp] theorem isInclusion_changed : (anchorChanged b).isInclusion = false := rfl
@[simp] theorem isFork_verified : (verified e).isFork = false := rfl
@[simp] theorem isFork_included : (includedNotDurable h s b).isFork = false := rfl
@[simp] theorem isFork_fork : (forkServedReceipt b c).isFork = true := rfl
@[simp] theorem isFork_absent : receiptNotFound.isFork = false := rfl
@[simp] theorem isFork_changed : (anchorChanged b).isFork = false := rfl

end Kinds

end AttemptReceiptResult

/-- What the results of all hashes settle: more than one inclusion is a conflict. -/
def settleReceipts (results : List AttemptReceiptResult) : Except Failure AttemptReceiptResult :=
  match results.filter (·.isInclusion) with
  | [] => .ok ((results.find? (·.isFork)).getD .receiptNotFound)
  | [included] => .ok included
  | _ :: _ :: _ => .error (.typeError "Conflicting attempt receipt observations.")

section Settle

/-- The loop keeps the first inclusion. -/
theorem foldl_add_included (results : List AttemptReceiptResult) (scan : ReceiptScan) :
    (results.foldl ReceiptScan.add scan).included =
      scan.included.orElse fun _ => (results.filter (·.isInclusion)).head? := by
  induction results generalizing scan with
  | nil => cases hi : scan.included <;> simp [hi]
  | cons result rest ih =>
    rw [List.foldl_cons, ih, List.filter_cons]
    cases result <;> cases hi : scan.included <;> simp [ReceiptScan.add, hi]

/-- The loop keeps the first fork-served receipt. -/
theorem foldl_add_fork (results : List AttemptReceiptResult) (scan : ReceiptScan) :
    (results.foldl ReceiptScan.add scan).fork =
      scan.fork.orElse fun _ => results.find? (·.isFork) := by
  induction results generalizing scan with
  | nil => cases hf : scan.fork <;> simp [hf]
  | cons result rest ih =>
    rw [List.foldl_cons, ih, List.find?_cons]
    cases result <;> cases hi : scan.included <;> cases hf : scan.fork <;>
      simp [ReceiptScan.add, hi, hf]

/-- An inclusion after the first is a conflict. -/
theorem foldl_add_conflicting (results : List AttemptReceiptResult) (scan : ReceiptScan) :
    (results.foldl ReceiptScan.add scan).conflictingInclusions = true ↔
      scan.conflictingInclusions = true ∨
        2 ≤ scan.included.toList.length + (results.filter (·.isInclusion)).length := by
  induction results generalizing scan with
  | nil => cases hi : scan.included <;> simp
  | cons result rest ih =>
    rw [List.foldl_cons, ih, List.filter_cons]
    have hsecond (n : ℕ) : 2 ≤ 1 + (n+1) := by omega
    cases result <;> cases hi : scan.included <;>
      simp [ReceiptScan.add, hi, hsecond, Nat.add_comm]

theorem foldl_add_settles (results : List AttemptReceiptResult) :
    (if (results.foldl ReceiptScan.add ⟨none, none, false⟩).conflictingInclusions then
      .error (.typeError "Conflicting attempt receipt observations.")
    else .ok (((results.foldl ReceiptScan.add ⟨none, none, false⟩).included.orElse fun _ =>
      (results.foldl ReceiptScan.add ⟨none, none, false⟩).fork).getD .receiptNotFound)) =
      settleReceipts results := by
  have hconflict := foldl_add_conflicting results ⟨none, none, false⟩
  simp only [Bool.false_eq_true, Option.toList_none, List.length_nil, Nat.zero_add,
    false_or] at hconflict
  rw [foldl_add_included, foldl_add_fork]
  unfold settleReceipts
  generalize results.filter (·.isInclusion) = inclusions at hconflict ⊢
  match inclusions, hconflict with
  | [], h => rw [if_neg (by rw [h]; simp)]; rfl
  | [_], h => rw [if_neg (by rw [h]; simp)]; rfl
  | _ :: _ :: _, h => rw [if_pos (h.mpr (by simp))]

theorem forall₂_mem_left {α β : Type*} {R : α → β → Prop} {l : List α} {m : List β}
    (h : List.Forall₂ R l m) {a : α} (ha : a ∈ l) : ∃ b ∈ m, R a b := by
  induction h with
  | nil => simp at ha
  | cons hr _ ih =>
    rcases List.mem_cons.mp ha with rfl | ha
    · exact ⟨_, by simp, hr⟩
    · obtain ⟨b, hb, hab⟩ := ih ha
      exact ⟨b, by simp [hb], hab⟩

theorem mapM_ok_iff {α β : Type} {f : α → Except Failure β} {l : List α} {m : List β} :
    l.mapM f = .ok m ↔ List.Forall₂ (fun a b => f a = .ok b) l m := by
  induction l generalizing m with
  | nil =>
    rw [List.forall₂_nil_left_iff]
    simp [pure, Except.pure, eq_comm]
  | cons a l ih =>
    rw [List.mapM_cons, List.forall₂_cons_left_iff]
    simp only [bind, Except.bind]
    cases hf : f a with
    | error e => simp
    | ok b =>
      cases hl : l.mapM f with
      | error e =>
        rw [hl] at ih
        simp [← ih]
      | ok m' =>
        rw [hl] at ih
        simp [← ih, pure, Except.pure, eq_comm]

/-- The outcome, from the two checks and what each hash contributes. -/
theorem reconciled_eq {hashes : List Hash} (hne : hashes ≠ []) (hnd : hashes.Nodup)
    (anchor : BlockAnchor) (answers : Hash → ReceiptAnswer)
    (opening closing : Except Failure BlockReply) :
    reconciled hashes anchor answers opening closing =
      (anchorCheck anchor opening).bind fun
        | some observed => .ok (.anchorChanged observed)
        | none => (hashes.mapM fun h => (answers h).result anchor h).bind fun results =>
          (anchorCheck anchor closing).bind fun
            | some observed => .ok (.anchorChanged observed)
            | none => settleReceipts results := by
  unfold reconciled reconcileAttemptReceipt
  rw [if_neg (by simp [hne, hnd]), Prog.bind_eq]
  -- the opening check, the reads of the hashes in their order, and the closing check
  have hopen := checkBlockAnchor_runIn anchor []
    (receiptRpc answers opening closing)
  have hopening : receiptRpc answers opening closing []
      (.block anchor.blockNumber (some anchor.blockHash)) = opening := rfl
  rw [hopening] at hopen
  cases ho : anchorCheck anchor opening with
  | error e =>
    rw [ho] at hopen
    rw [Prog.runIn_bind_error hopen]
    rfl
  | ok changed =>
    rw [ho] at hopen
    rw [Prog.runIn_bind_ok hopen]
    cases changed with
    | some observed => rfl
    | none =>
      obtain ⟨log, hreads⟩ := readReceipts_runIn answers opening closing anchor
        [⟨.block anchor.blockNumber (some anchor.blockHash), opening⟩] hashes ⟨none, none, false⟩
      simp only [Except.bind]
      cases hr : hashes.mapM fun h => (answers h).result anchor h with
      | error e =>
        rw [hr] at hreads
        exact congrArg Prod.snd (Prog.runIn_bind_error hreads _)
      | ok results =>
        rw [hr] at hreads
        refine (congrArg Prod.snd (Prog.runIn_bind_ok hreads _)).trans ?_
        have hclose := checkBlockAnchor_runIn anchor ([⟨.block
          anchor.blockNumber (some anchor.blockHash), opening⟩] ++ log)
          (receiptRpc answers opening closing)
        have hclosing : receiptRpc answers opening closing ([⟨.block anchor.blockNumber
            (some anchor.blockHash), opening⟩] ++ log)
            (.block anchor.blockNumber (some anchor.blockHash)) = closing := rfl
        rw [hclosing] at hclose
        cases hc : anchorCheck anchor closing with
        | error e =>
          rw [hc] at hclose
          exact congrArg Prod.snd (Prog.runIn_bind_error hclose _)
        | ok changed =>
          rw [hc] at hclose
          refine (congrArg Prod.snd (Prog.runIn_bind_ok hclose _)).trans ?_
          cases changed with
          | some observed => rfl
          | none =>
            refine Eq.trans ?_ (foldl_add_settles results)
            simp only
            split_ifs <;> rfl

end Settle

/-- The block cannot contradict the anchor as evidence: the anchor's number fits the
evidence, and a block at the anchor's height is the anchor. -/
def AgreesWith (anchor inclusion : BlockAnchor) : Prop :=
  anchor.blockNumber ≤ MAX_UINT256 ∧
    (inclusion.blockNumber = anchor.blockNumber → inclusion.blockHash = anchor.blockHash)

/-- The result that an answer yields, in the words of the answer. -/
inductive Yields (anchor : BlockAnchor) (hash : Hash) (a : ReceiptAnswer) :
    AttemptReceiptResult → Prop
  | missing : a.Missing → Yields anchor hash a .receiptNotFound
  | forkServed {inclusion canonicalBlock : BlockAnchor} :
      a.ForkServed hash inclusion canonicalBlock →
      Yields anchor hash a (.forkServedReceipt inclusion canonicalBlock)
  | above {status : ReceiptStatus} {inclusion : BlockAnchor} : a.Canonical hash status inclusion →
      anchor.blockNumber < inclusion.blockNumber →
      Yields anchor hash a (.includedNotDurable hash status inclusion)
  | durable {status : ReceiptStatus} {inclusion : BlockAnchor} :
      a.Canonical hash status inclusion → inclusion.blockNumber ≤ anchor.blockNumber →
      AgreesWith anchor inclusion →
      Yields anchor hash a (.verified ⟨anchor, inclusion, status.outcome hash⟩)

section Answers

variable {anchor : BlockAnchor} {hash : Hash} {a : ReceiptAnswer}

theorem blockAt_ok_iff {reply : Except Failure BlockReply} {n : ℕ} {b : BlockAnchor} :
    ReceiptAnswer.blockAt reply n = .ok b ↔
      b.blockNumber = n ∧ reply = .ok ⟨some n, some b.blockHash⟩ := by
  cases reply with
  | error e => simp [ReceiptAnswer.blockAt, bind, Except.bind]
  | ok block =>
    obtain ⟨number, blockHash⟩ := block
    cases blockHash with
    | none => simp [ReceiptAnswer.blockAt, bind, Except.bind]
    | some h =>
      obtain ⟨m, k⟩ := b
      simp only [ReceiptAnswer.blockAt, bind, Except.bind]
      split_ifs with hn
      · simp only [Except.ok.injEq, BlockAnchor.mk.injEq, BlockReply.mk.injEq, Option.some.injEq]
        constructor
        · rintro ⟨rfl, rfl⟩
          exact ⟨rfl, hn, rfl⟩
        · rintro ⟨rfl, _, rfl⟩
          exact ⟨rfl, rfl⟩
      · simp only [false_iff, Except.ok.injEq, BlockReply.mk.injEq]
        rintro ⟨_, hm, _⟩
        exact hn hm

theorem receiptInclusion_ok_iff {r : ReceiptReply} {b : BlockAnchor} {status : ReceiptStatus} :
    receiptInclusion hash r = .ok (b, status) ↔
      r = ⟨some hash, some b.blockNumber, some b.blockHash, some status⟩ := by
  constructor
  · exact receiptInclusion_ok
  · rintro rfl
    simp [receiptInclusion]

theorem evidenceValid_iff {inclusion : BlockAnchor} {status : ReceiptStatus} :
    EvidenceValid ⟨anchor, inclusion, status.outcome hash⟩ ↔
      inclusion.blockNumber ≤ anchor.blockNumber ∧ AgreesWith anchor inclusion := by
  unfold EvidenceValid AgreesWith
  cases status <;> simp only [ReceiptStatus.outcome, and_true] <;>
    constructor
  · rintro ⟨h₁, _, h₃, h₄⟩
    exact ⟨h₃, h₁, h₄⟩
  · rintro ⟨h₁, h₂, h₃⟩
    exact ⟨h₂, h₁.trans h₂, h₁, h₃⟩
  · rintro ⟨h₁, _, h₃, h₄⟩
    exact ⟨h₃, h₁, h₄⟩
  · rintro ⟨h₁, h₂, h₃⟩
    exact ⟨h₂, h₁.trans h₂, h₁, h₃⟩

/-- A canonical receipt contributes an inclusion, or the error of its evidence. -/
theorem result_canonical {status : ReceiptStatus} {inclusion : BlockAnchor}
    (h : a.Canonical hash status inclusion) :
    a.result anchor hash =
      if anchor.blockNumber < inclusion.blockNumber then
        .ok (.includedNotDurable hash status inclusion)
      else (snapshotResolutionEvidence ⟨anchor, inclusion, status.outcome hash⟩).map .verified := by
  unfold ReceiptAnswer.result
  rw [h.1]
  have hblock : ReceiptAnswer.blockAt a.block inclusion.blockNumber = .ok inclusion :=
    blockAt_ok_iff.mpr ⟨rfl, h.2⟩
  have hmatch : blockAnchorsMatch inclusion inclusion = true := blockAnchorsMatch_iff.mpr rfl
  simp only [bind, Except.bind, receiptInclusion_ok_iff.mpr rfl, hblock, hmatch, Bool.not_true,
    Bool.false_eq_true, if_false]
  split_ifs
  · rfl
  · cases snapshotResolutionEvidence ⟨anchor, inclusion, status.outcome hash⟩ <;> rfl

theorem result_forkServed {inclusion canonicalBlock : BlockAnchor}
    (h : a.ForkServed hash inclusion canonicalBlock) :
    a.result anchor hash = .ok (.forkServedReceipt inclusion canonicalBlock) := by
  obtain ⟨⟨status, hr⟩, hb, hn, hh⟩ := h
  unfold ReceiptAnswer.result
  rw [hr]
  have hblock : ReceiptAnswer.blockAt a.block inclusion.blockNumber = .ok canonicalBlock := by
    rw [← hn]
    exact blockAt_ok_iff.mpr ⟨rfl, hb⟩
  have hmatch : blockAnchorsMatch inclusion canonicalBlock = false := by
    rw [← Bool.not_eq_true, blockAnchorsMatch_iff]
    rintro rfl
    exact hh rfl
  simp only [bind, Except.bind, receiptInclusion_ok_iff.mpr rfl, hblock, hmatch, Bool.not_false,
    if_true]
  rfl

theorem result_missing (h : a.Missing) : a.result anchor hash = .ok .receiptNotFound := by
  unfold ReceiptAnswer.result
  rw [h]
  rfl

/-- An answer that contributes a result is neither malformed nor failing. -/
theorem usable_of_result {r : AttemptReceiptResult} (h : a.result anchor hash = .ok r) :
    a.Usable hash := by
  unfold ReceiptAnswer.result at h
  cases hr : a.receipt with
  | error e =>
    rw [hr] at h
    cases h
  | ok reply =>
    rw [hr] at h
    cases reply with
    | none => exact Or.inl hr
    | some receipt =>
      simp only [bind, Except.bind] at h
      cases hi : receiptInclusion hash receipt with
      | error e =>
        rw [hi] at h
        cases h
      | ok p =>
        obtain ⟨inclusion, status⟩ := p
        rw [hi] at h
        simp only at h
        cases hb : ReceiptAnswer.blockAt a.block inclusion.blockNumber with
        | error e =>
          rw [hb] at h
          cases h
        | ok canonicalBlock =>
          obtain ⟨hn, hblock⟩ := blockAt_ok_iff.mp hb
          have hreports : a.Reports hash status inclusion := by
            rw [receiptInclusion_ok hi] at hr
            exact hr
          by_cases hh : canonicalBlock.blockHash = inclusion.blockHash
          · rw [hh] at hblock
            exact Or.inr (Or.inr ⟨status, inclusion, hreports, hblock⟩)
          · rw [← hn] at hblock
            exact Or.inr (Or.inl ⟨inclusion, canonicalBlock, ⟨status, hreports⟩, hblock, hn, hh⟩)

/-- Whatever the answer, a result is the one that it yields. -/
theorem result_ok_iff {r : AttemptReceiptResult} :
    a.result anchor hash = .ok r ↔ Yields anchor hash a r := by
  constructor
  · intro h
    rcases usable_of_result h with hm | ⟨inclusion, canonicalBlock, hf⟩ | ⟨status, inclusion, hc⟩
    · rw [result_missing hm] at h
      obtain rfl := Except.ok.inj h
      exact .missing hm
    · rw [result_forkServed hf] at h
      obtain rfl := Except.ok.inj h
      exact .forkServed hf
    · rw [result_canonical hc] at h
      split_ifs at h with hlt
      · obtain rfl := Except.ok.inj h
        exact .above hc hlt
      · cases he : snapshotResolutionEvidence ⟨anchor, inclusion, status.outcome hash⟩ with
        | error e =>
          rw [he] at h
          cases h
        | ok evidence =>
          rw [he] at h
          obtain rfl := Except.ok.inj h
          obtain ⟨rfl, hv⟩ := snapshotResolutionEvidence_ok_iff.mp he
          obtain ⟨hle, hagree⟩ := evidenceValid_iff.mp hv
          exact .durable hc hle hagree
  · intro h
    cases h with
    | missing h => exact result_missing h
    | forkServed h => exact result_forkServed h
    | above h hlt => rw [result_canonical h, if_pos hlt]
    | durable h hle ha =>
      rw [result_canonical h, if_neg (not_lt.mpr hle)]
      rw [snapshotResolutionEvidence_ok_iff.mpr ⟨rfl, evidenceValid_iff.mpr ⟨hle, ha⟩⟩]
      rfl

end Answers

/-! The recorded hashes together. -/

/-- The hash has a canonical receipt. -/
def ReceiptAnswer.Includes (a : ReceiptAnswer) (hash : Hash) : Prop :=
  ∃ status inclusion, a.Canonical hash status inclusion

section Hashes

variable (hashes : List Hash) (answers : Hash → ReceiptAnswer) (anchor : BlockAnchor)

def OnlyInclusion (hash : Hash) (status : ReceiptStatus) (inclusion : BlockAnchor) : Prop :=
  hash ∈ hashes ∧ (answers hash).Canonical hash status inclusion ∧
    ∀ h ∈ hashes, (answers h).Includes h → h = hash

def TwoInclusions : Prop :=
  ∃ h ∈ hashes, ∃ h' ∈ hashes, h ≠ h' ∧ (answers h).Includes h ∧ (answers h').Includes h'

def NoInclusion : Prop := ∀ h ∈ hashes, ¬ (answers h).Includes h

/-- A canonical receipt at or below the anchor whose block contradicts it. -/
def ContradictsAnchor : Prop :=
  ∃ h ∈ hashes, ∃ status inclusion, (answers h).Canonical h status inclusion ∧
    inclusion.blockNumber ≤ anchor.blockNumber ∧ ¬ AgreesWith anchor inclusion

/-- What the answers of all hashes make of the reconciliation. -/
inductive Settles : Except Failure AttemptReceiptResult → Prop
  | contradicted {e : Failure} : ContradictsAnchor hashes answers anchor → Settles (.error e)
  | conflicting {e : Failure} : TwoInclusions hashes answers → Settles (.error e)
  | above {hash : Hash} {status : ReceiptStatus} {inclusion : BlockAnchor} :
      OnlyInclusion hashes answers hash status inclusion →
      anchor.blockNumber < inclusion.blockNumber →
      Settles (.ok (.includedNotDurable hash status inclusion))
  | durable {hash : Hash} {status : ReceiptStatus} {inclusion : BlockAnchor} :
      OnlyInclusion hashes answers hash status inclusion →
      inclusion.blockNumber ≤ anchor.blockNumber → AgreesWith anchor inclusion →
      Settles (.ok (.verified ⟨anchor, inclusion, status.outcome hash⟩))
  | forkServed {hash : Hash} {inclusion canonicalBlock : BlockAnchor} :
      NoInclusion hashes answers → hash ∈ hashes →
      (answers hash).ForkServed hash inclusion canonicalBlock →
      Settles (.ok (.forkServedReceipt inclusion canonicalBlock))
  | missing : (∀ h ∈ hashes, (answers h).Missing) → Settles (.ok .receiptNotFound)

end Hashes

section Classification

variable {hashes : List Hash} {answers : Hash → ReceiptAnswer} {anchor : BlockAnchor}

/-- A receipt of a replaced block includes nothing. -/
theorem ReceiptAnswer.ForkServed.not_includes {a : ReceiptAnswer} {hash : Hash}
    {b c : BlockAnchor} (h : a.ForkServed hash b c) : ¬ a.Includes hash := by
  rintro ⟨status, inclusion, hreports, hblock⟩
  obtain ⟨⟨status', hr⟩, hserved, _, hne⟩ := h
  have hreceipt := hreports.symm.trans hr
  have hread := hblock.symm.trans hserved
  simp only [Except.ok.injEq, Option.some.injEq, ReceiptReply.mk.injEq, true_and] at hreceipt
  simp only [Except.ok.injEq, BlockReply.mk.injEq, Option.some.injEq] at hread
  exact hne (hread.2.symm.trans hreceipt.2.1)

theorem ReceiptAnswer.Canonical.unique {a : ReceiptAnswer} {hash : Hash}
    {status status' : ReceiptStatus} {b b' : BlockAnchor} (h : a.Canonical hash status b)
    (h' : a.Canonical hash status' b') : status = status' ∧ b = b' := by
  have hr := h.1.symm.trans h'.1
  simp only [Except.ok.injEq, Option.some.injEq, ReceiptReply.mk.injEq, true_and] at hr
  obtain ⟨hn, hh, hs⟩ := hr
  refine ⟨hs, ?_⟩
  cases b
  cases b'
  simp_all

theorem Yields.isInclusion_iff {hash : Hash} {a : ReceiptAnswer} {r : AttemptReceiptResult}
    (h : Yields anchor hash a r) : r.isInclusion = true ↔ a.Includes hash := by
  cases h with
  | missing hm =>
    refine iff_of_false (by simp) ?_
    rintro ⟨status, inclusion, hr, _⟩
    exact absurd (hm.symm.trans hr) (by simp)
  | @forkServed inclusion canonicalBlock hf =>
    refine iff_of_false (by simp) ?_
    rintro ⟨status, block, hr, hb⟩
    obtain ⟨⟨status', hr'⟩, hb', _, hne⟩ := hf
    have hre := hr.symm.trans hr'
    have hbe := hb.symm.trans hb'
    simp_all
  | above hc _ => exact iff_of_true rfl ⟨_, _, hc⟩
  | durable hc _ _ => exact iff_of_true rfl ⟨_, _, hc⟩

theorem Yields.agrees {hash : Hash} {a : ReceiptAnswer} {r : AttemptReceiptResult}
    {status : ReceiptStatus} {inclusion : BlockAnchor} (h : Yields anchor hash a r)
    (hc : a.Canonical hash status inclusion) (hle : inclusion.blockNumber ≤ anchor.blockNumber) :
    AgreesWith anchor inclusion := by
  have hr : r.isInclusion = true := h.isInclusion_iff.mpr ⟨_, _, hc⟩
  cases h with
  | missing _ => cases hr
  | forkServed _ => cases hr
  | above hc' hlt =>
    obtain ⟨_, rfl⟩ := hc.unique hc'
    exact absurd hle (not_le.mpr hlt)
  | durable hc' _ ha =>
    obtain ⟨_, rfl⟩ := hc.unique hc'
    exact ha

/-- A usable answer contributes a result unless its block contradicts the anchor. -/
theorem ReceiptAnswer.Usable.yields {a : ReceiptAnswer} {hash : Hash} (h : a.Usable hash)
    (hagree : ∀ status inclusion, a.Canonical hash status inclusion →
      inclusion.blockNumber ≤ anchor.blockNumber → AgreesWith anchor inclusion) :
    ∃ r, a.result anchor hash = .ok r := by
  rcases h with hm | ⟨inclusion, canonicalBlock, hf⟩ | ⟨status, inclusion, hc⟩
  · exact ⟨_, result_missing hm⟩
  · exact ⟨_, result_forkServed hf⟩
  · rcases Nat.lt_or_ge anchor.blockNumber inclusion.blockNumber with hlt | hle
    · exact ⟨_, result_ok_iff.mpr (.above hc hlt)⟩
    · exact ⟨_, result_ok_iff.mpr (.durable hc hle (hagree status inclusion hc hle))⟩

/-- The loop ends with an error as soon as one answer contributes none. -/
theorem mapM_error {α β : Type} {f : α → Except Failure β} {l : List α} {a : α} (ha : a ∈ l)
    (hf : ∀ b, f a ≠ .ok b) : ∃ e, l.mapM f = .error e := by
  cases hm : l.mapM f with
  | error e => exact ⟨e, rfl⟩
  | ok m =>
    obtain ⟨b, _, hb⟩ := forall₂_mem_left (mapM_ok_iff.mp hm) ha
    exact absurd hb (hf b)

theorem mapM_error_mem {α β : Type} {f : α → Except Failure β} {l : List α} {e : Failure}
    (h : l.mapM f = .error e) : ∃ a ∈ l, f a = .error e := by
  induction l with
  | nil => cases h
  | cons a l ih =>
    rw [List.mapM_cons] at h
    cases hf : f a with
    | error e' =>
      rw [hf] at h
      obtain rfl := Except.error.inj h
      exact ⟨a, by simp, hf⟩
    | ok b =>
      rw [hf] at h
      cases hl : l.mapM f with
      | ok m =>
        rw [hl] at h
        cases h
      | error e' =>
        rw [hl] at h
        obtain rfl := Except.error.inj h
        obtain ⟨x, hx, hfx⟩ := ih hl
        exact ⟨x, by simp [hx], hfx⟩

/-- Whether the hash contributes an inclusion. -/
def contributes (answers : Hash → ReceiptAnswer) (anchor : BlockAnchor) (hash : Hash) : Bool :=
  match (answers hash).result anchor hash with
  | .ok r => r.isInclusion
  | .error _ => false

theorem contributes_mem {results : List AttemptReceiptResult}
    (hall : List.Forall₂ (fun h r => (answers h).result anchor h = .ok r) hashes results)
    {h : Hash} : h ∈ hashes.filter (contributes answers anchor) ↔
      h ∈ hashes ∧ (answers h).Includes h := by
  rw [List.mem_filter]
  refine and_congr_right ?_
  intro hmem
  obtain ⟨r, _, hr⟩ := forall₂_mem_left hall hmem
  rw [contributes, hr]
  exact (result_ok_iff.mp hr).isInclusion_iff

/-- When every hash contributes a result, the results settle the reconciliation. -/
theorem settleReceipts_settles {results : List AttemptReceiptResult} (hnd : hashes.Nodup)
    (hall : List.Forall₂ (fun h r => (answers h).result anchor h = .ok r) hashes results) :
    Settles hashes answers anchor (settleReceipts results) := by
  have hfilter : List.Forall₂ (fun h r => (answers h).result anchor h = .ok r)
      (hashes.filter (contributes answers anchor)) (results.filter (·.isInclusion)) := by
    apply List.rel_filter _ hall
    intro h r hr
    simp [contributes, hr]
  have hmem {h : Hash} := contributes_mem (h := h) hall
  have hnodup := hnd.filter (contributes answers anchor)
  generalize hashes.filter (contributes answers anchor) = included at hfilter hmem hnodup
  unfold settleReceipts
  generalize hrs : results.filter (·.isInclusion) = inclusions at hfilter
  -- no hash contributes an inclusion, one does, or two do
  match included, inclusions, hfilter with
  | [], [], _ =>
    have hnone : NoInclusion hashes answers := by
      intro h hh hi
      simpa using hmem.mpr ⟨hh, hi⟩
    cases hf : results.find? (·.isFork) with
    | some r =>
      obtain ⟨h, hh, hread⟩ := forall₂_mem_left hall.flip (List.mem_of_find?_eq_some hf)
      have hfork : r.isFork = true := List.find?_some hf
      cases result_ok_iff.mp hread with
      | forkServed hserved => exact .forkServed hnone hh hserved
      | missing _ => cases hfork
      | above _ _ => cases hfork
      | durable _ _ _ => cases hfork
    | none =>
      rw [List.find?_eq_none] at hf
      apply Settles.missing
      intro h hh
      obtain ⟨r, hr, hread⟩ := forall₂_mem_left hall hh
      have hno := hf r hr
      cases result_ok_iff.mp hread with
      | missing hm => exact hm
      | forkServed _ => simp at hno
      | above hc _ => exact absurd ⟨_, _, hc⟩ (hnone h hh)
      | durable hc _ _ => exact absurd ⟨_, _, hc⟩ (hnone h hh)
  | [h], [r], .cons hread .nil =>
    have hr : r.isInclusion = true := (List.mem_filter.mp (by rw [hrs]; simp : r ∈ _)).2
    have hone : ∀ h' ∈ hashes, (answers h').Includes h' → h' = h := by
      intro h' hh' hi
      simpa using hmem.mpr ⟨hh', hi⟩
    have hh : h ∈ hashes := (hmem.mp (by simp)).1
    cases result_ok_iff.mp hread with
    | missing _ => cases hr
    | forkServed _ => cases hr
    | above hc hlt => exact .above ⟨hh, hc, hone⟩ hlt
    | durable hc hle ha => exact .durable ⟨hh, hc, hone⟩ hle ha
  | h :: h' :: _, _ :: _ :: _, _ =>
    obtain ⟨hh, hi⟩ := hmem.mp (by simp : h ∈ _)
    obtain ⟨hh', hi'⟩ := hmem.mp (by simp : h' ∈ _)
    have hne : h ≠ h' := by
      rintro rfl
      simp at hnodup
    exact .conflicting ⟨h, hh, h', hh', hne, hi, hi'⟩

theorem anchorCheck_none_iff {reply : Except Failure BlockReply} :
    anchorCheck anchor reply = .ok none ↔
      reply = .ok ⟨some anchor.blockNumber, some anchor.blockHash⟩ := by
  unfold anchorCheck
  cases hb : ReceiptAnswer.blockAt reply anchor.blockNumber with
  | error e =>
    simp only [bind, Except.bind, reduceCtorEq, false_iff]
    rintro rfl
    rw [blockAt_ok_iff.mpr ⟨rfl, rfl⟩] at hb
    cases hb
  | ok observed =>
    obtain ⟨hn, rfl⟩ := blockAt_ok_iff.mp hb
    simp only [bind, Except.bind, pure, Except.pure, Except.ok.injEq, BlockReply.mk.injEq,
      Option.some.injEq, true_and]
    split_ifs with hm
    · rw [blockAnchorsMatch_iff.mp hm]
      simp
    · simp only [false_iff]
      intro hh
      apply hm
      rw [blockAnchorsMatch_iff]
      cases anchor
      cases observed
      simp_all

/-- The reconciliation between two checks that find the anchor. -/
theorem reconciled_settles (hne : hashes ≠ []) (hnd : hashes.Nodup)
    (husable : ∀ h ∈ hashes, (answers h).Usable h) :
    Settles hashes answers anchor (reconciled hashes anchor answers
      (.ok ⟨some anchor.blockNumber, some anchor.blockHash⟩)
      (.ok ⟨some anchor.blockNumber, some anchor.blockHash⟩)) := by
  rw [reconciled_eq hne hnd, anchorCheck_none_iff.mpr rfl]
  simp only [Except.bind]
  cases hm : hashes.mapM fun h => (answers h).result anchor h with
  | ok results => exact settleReceipts_settles hnd (mapM_ok_iff.mp hm)
  | error e =>
    obtain ⟨h, hh, hread⟩ := mapM_error_mem hm
    apply Settles.contradicted
    by_contra hagree
    obtain ⟨r, hr⟩ := (husable h hh).yields
      (fun status inclusion hc (hle : inclusion.blockNumber ≤ anchor.blockNumber) => by
      by_contra hno
      exact hagree ⟨h, hh, status, inclusion, hc, hle, hno⟩)
    rw [hread] at hr
    cases hr

/-- An inclusion that contradicts the anchor is an error, whatever the rest. -/
theorem reconciled_contradicted (hne : hashes ≠ []) (hnd : hashes.Nodup)
    (hcon : ContradictsAnchor hashes answers anchor) (closing : Except Failure BlockReply) :
    ∃ e, reconciled hashes anchor answers
      (.ok ⟨some anchor.blockNumber, some anchor.blockHash⟩) closing = .error e := by
  obtain ⟨h, hh, status, inclusion, hc, hle, hno⟩ := hcon
  have hread : ∀ r, (answers h).result anchor h ≠ .ok r := by
    intro r hr
    exact hno ((result_ok_iff.mp hr).agrees hc hle)
  obtain ⟨e, he⟩ := mapM_error (f := fun h => (answers h).result anchor h) hh hread
  refine ⟨e, ?_⟩
  rw [reconciled_eq hne hnd, anchorCheck_none_iff.mpr rfl]
  simp only [Except.bind, he]

theorem Settles.not_two {out : Except Failure AttemptReceiptResult} {r : AttemptReceiptResult}
    (h : Settles hashes answers anchor out) (ho : out = .ok r) :
    ¬ TwoInclusions hashes answers := by
  rintro ⟨x, hx, y, hy, hne, hix, hiy⟩
  cases h with
  | contradicted _ => cases ho
  | conflicting _ => cases ho
  | above honly _ => exact hne ((honly.2.2 x hx hix).trans (honly.2.2 y hy hiy).symm)
  | durable honly _ _ => exact hne ((honly.2.2 x hx hix).trans (honly.2.2 y hy hiy).symm)
  | forkServed hno _ _ => exact hno x hx hix
  | missing hm =>
    obtain ⟨_, _, hr, _⟩ := hix
    exact absurd ((hm x hx).symm.trans hr) (by simp)

/-! The order of the hashes. -/

/-- Two outcomes that are equal, or report two fork-served receipts. -/
inductive SameButFork :
    Except Failure AttemptReceiptResult → Except Failure AttemptReceiptResult → Prop
  | same (out : Except Failure AttemptReceiptResult) : SameButFork out out
  | forkServed (b c b' c' : BlockAnchor) :
      SameButFork (.ok (.forkServedReceipt b c)) (.ok (.forkServedReceipt b' c'))

theorem settleReceipts_perm {l m : List AttemptReceiptResult} (h : l.Perm m) :
    SameButFork (settleReceipts l) (settleReceipts m) := by
  have hp : (l.filter (·.isInclusion)).Perm (m.filter (·.isInclusion)) := h.filter _
  unfold settleReceipts
  generalize l.filter (·.isInclusion) = il at hp
  generalize m.filter (·.isInclusion) = im at hp
  match il, im with
  | [], [] =>
    cases hl : l.find? (·.isFork) with
    | none =>
      have hm : m.find? (·.isFork) = none := by
        rw [List.find?_eq_none] at hl ⊢
        exact fun r hr => hl r (h.mem_iff.mpr hr)
      rw [hm]
      exact .same _
    | some r =>
      cases hm : m.find? (·.isFork) with
      | none =>
        rw [List.find?_eq_none] at hm
        exact absurd (List.find?_some hl) (hm r (h.mem_iff.mp (List.mem_of_find?_eq_some hl)))
      | some r' =>
        have hr : r.isFork = true := List.find?_some hl
        have hr' : r'.isFork = true := List.find?_some hm
        cases r <;> cases hr
        cases r' <;> cases hr'
        exact .forkServed _ _ _ _
  | [r], [r'] =>
    obtain rfl : r = r' := by simpa using hp
    exact .same _
  | _ :: _ :: _, _ :: _ :: _ => exact .same _
  | [], _ :: _ => simpa using hp.length_eq
  | _ :: _, [] => simpa using hp.length_eq
  | [_], _ :: _ :: _ => simpa using hp.length_eq
  | _ :: _ :: _, [_] => simpa using hp.length_eq

/-- The one error that usable answers lead to on their own. -/
theorem ReceiptAnswer.Usable.error {a : ReceiptAnswer} {hash : Hash} {e : Failure}
    (h : a.Usable hash) (he : a.result anchor hash = .error e) :
    e = .typeError "Invalid attempt resolution evidence." := by
  rcases h with hm | ⟨inclusion, canonicalBlock, hf⟩ | ⟨status, inclusion, hc⟩
  · rw [result_missing hm] at he
    cases he
  · rw [result_forkServed hf] at he
    cases he
  · rw [result_canonical hc] at he
    split_ifs at he
    unfold snapshotResolutionEvidence at he
    split_ifs at he
    · cases he
    · exact (Except.error.inj he).symm

/-- Every order of the hashes has the same outcome, up to the fork-served receipt
that is reported, and up to the error when answers are malformed or fail. -/
theorem reconciled_perm {hashes' : List Hash} (hp : hashes.Perm hashes') (hne : hashes ≠ [])
    (hnd : hashes.Nodup) (opening closing : Except Failure BlockReply) :
    SameButFork (reconciled hashes anchor answers opening closing)
      (reconciled hashes' anchor answers opening closing) ∨
    (∃ e e', reconciled hashes anchor answers opening closing = .error e ∧
      reconciled hashes' anchor answers opening closing = .error e') ∧
      ∃ h ∈ hashes, ¬ (answers h).Usable h := by
  have hne' : hashes' ≠ [] := by
    rintro rfl
    exact hne hp.eq_nil
  rw [reconciled_eq hne hnd, reconciled_eq hne' (hp.nodup_iff.mp hnd)]
  cases anchorCheck anchor opening with
  | error e => exact Or.inl (.same _)
  | ok changed =>
    cases changed with
    | some observed => exact Or.inl (.same _)
    | none =>
      simp only [Except.bind]
      cases hm' : hashes'.mapM fun h => (answers h).result anchor h with
      | ok results' =>
        obtain ⟨results, hall, hperm⟩ := List.perm_comp_forall₂ hp (mapM_ok_iff.mp hm')
        rw [mapM_ok_iff.mpr hall]
        cases anchorCheck anchor closing with
        | error e => exact Or.inl (.same _)
        | ok changed =>
          cases changed with
          | some observed => exact Or.inl (.same _)
          | none => exact Or.inl (settleReceipts_perm hperm)
      | error e' =>
        obtain ⟨h', hh', he'⟩ := mapM_error_mem hm'
        obtain ⟨e, he⟩ := mapM_error (f := fun h => (answers h).result anchor h)
          (hp.mem_iff.mpr hh') (by simp [he'])
        rw [he]
        by_cases husable : ∀ h ∈ hashes, (answers h).Usable h
        · obtain ⟨h, hh, heh⟩ := mapM_error_mem he
          rw [(husable h hh).error heh, (husable h' (hp.mem_iff.mpr hh')).error he']
          exact Or.inl (.same _)
        · push Not at husable
          exact Or.inr ⟨⟨e, e', rfl, rfl⟩, husable⟩

end Classification

section Reconciliation

/-- The reply of a block read that shows `b`. -/
def anchorReply (b : BlockAnchor) : Except Failure BlockReply :=
  .ok ⟨some b.blockNumber, some b.blockHash⟩

section Anchors

variable {hashes : List Hash} {answers : Hash → ReceiptAnswer} {anchor : BlockAnchor}

theorem anchorCheck_changed {observed : BlockAnchor} (hn : observed.blockNumber = anchor.blockNumber)
    (hne : observed ≠ anchor) : anchorCheck anchor (anchorReply observed) = .ok (some observed) := by
  have hb : ReceiptAnswer.blockAt (anchorReply observed) anchor.blockNumber = .ok observed := by
    rw [← hn]
    exact blockAt_ok_iff.mpr ⟨rfl, rfl⟩
  unfold anchorCheck
  rw [hb]
  have hm : blockAnchorsMatch anchor observed = false := by
    rw [← Bool.not_eq_true, blockAnchorsMatch_iff]
    exact fun h => hne h.symm
  simp [bind, Except.bind, pure, Except.pure, hm]

/-- Without both checks matching, no receipt is reported. -/
theorem reconciled_mismatch (hne : hashes ≠ []) (hnd : hashes.Nodup)
    {opening closing : Except Failure BlockReply}
    (h : opening ≠ anchorReply anchor ∨ closing ≠ anchorReply anchor) {r : AttemptReceiptResult}
    (hr : reconciled hashes anchor answers opening closing = .ok r) :
    ∃ observed, r = .anchorChanged observed := by
  rw [reconciled_eq hne hnd] at hr
  cases ho : anchorCheck anchor opening with
  | error e =>
    rw [ho] at hr
    cases hr
  | ok changed =>
    rw [ho] at hr
    cases changed with
    | some observed => exact ⟨observed, (Except.ok.inj hr).symm⟩
    | none =>
      have hclosing : closing ≠ anchorReply anchor :=
        h.resolve_left (not_not.mpr (anchorCheck_none_iff.mp ho))
      simp only [Except.bind] at hr
      cases hm : hashes.mapM fun h => (answers h).result anchor h with
      | error e =>
        rw [hm] at hr
        cases hr
      | ok results =>
        rw [hm] at hr
        cases hc : anchorCheck anchor closing with
        | error e =>
          rw [hc] at hr
          cases hr
        | ok changed =>
          rw [hc] at hr
          cases changed with
          | some observed => exact ⟨observed, (Except.ok.inj hr).symm⟩
          | none => exact absurd (anchorCheck_none_iff.mp hc) hclosing

theorem reconciled_closing (hne : hashes ≠ []) (hnd : hashes.Nodup)
    (husable : ∀ h ∈ hashes, (answers h).Usable h) (hcon : ¬ ContradictsAnchor hashes answers anchor)
    {observed : BlockAnchor} (hn : observed.blockNumber = anchor.blockNumber)
    (hobs : observed ≠ anchor) :
    reconciled hashes anchor answers (anchorReply anchor) (anchorReply observed) =
      .ok (.anchorChanged observed) := by
  have hopen : anchorCheck anchor (anchorReply anchor) = .ok none := anchorCheck_none_iff.mpr rfl
  rw [reconciled_eq hne hnd, hopen, anchorCheck_changed hn hobs]
  simp only [Except.bind]
  cases hm : hashes.mapM fun h => (answers h).result anchor h with
  | ok results => rfl
  | error e =>
    obtain ⟨h, hh, hread⟩ := mapM_error_mem hm
    obtain ⟨r, hr⟩ := (husable h hh).yields
      (fun status inclusion hc (hle : inclusion.blockNumber ≤ anchor.blockNumber) => by
      by_contra hno
      exact hcon ⟨h, hh, status, inclusion, hc, hle, hno⟩)
    rw [hread] at hr
    cases hr

theorem OnlyInclusion.unique {h h' : Hash} {s s' : ReceiptStatus} {b b' : BlockAnchor}
    (ho : OnlyInclusion hashes answers h s b) (ho' : OnlyInclusion hashes answers h' s' b') :
    h = h' ∧ s = s' ∧ b = b' := by
  obtain rfl : h = h' := ho'.2.2 h ho.1 ⟨s, b, ho.2.1⟩
  exact ⟨rfl, ho.2.1.unique ho'.2.1⟩

/-- One inclusion that does not contradict the anchor settles the outcome. -/
theorem Settles.of_only {out : Except Failure AttemptReceiptResult} {h : Hash} {s : ReceiptStatus}
    {b : BlockAnchor} (hset : Settles hashes answers anchor out)
    (ho : OnlyInclusion hashes answers h s b)
    (ha : b.blockNumber ≤ anchor.blockNumber → AgreesWith anchor b) :
    out = .ok (if anchor.blockNumber < b.blockNumber then .includedNotDurable h s b
      else .verified ⟨anchor, b, s.outcome h⟩) := by
  cases hset with
  | contradicted hc =>
    obtain ⟨x, hx, s', b', hcan, hle, hno⟩ := hc
    obtain rfl := ho.2.2 x hx ⟨s', b', hcan⟩
    obtain ⟨_, rfl⟩ := ho.2.1.unique hcan
    exact absurd (ha hle) hno
  | conflicting ht =>
    obtain ⟨x, hx, y, hy, hne, hix, hiy⟩ := ht
    exact absurd ((ho.2.2 x hx hix).trans (ho.2.2 y hy hiy).symm) hne
  | above ho' hlt =>
    obtain ⟨rfl, rfl, rfl⟩ := ho.unique ho'
    rw [if_pos hlt]
  | durable ho' hle _ =>
    obtain ⟨rfl, rfl, rfl⟩ := ho.unique ho'
    rw [if_neg (not_lt.mpr hle)]
  | forkServed hno _ _ => exact absurd ⟨s, b, ho.2.1⟩ (hno h ho.1)
  | missing hm => exact absurd ((hm h ho.1).symm.trans ho.2.1.1) (by simp)

end Anchors

/-- The reconciliation over every assignment of answers. Between two checks that find
the anchor, usable answers decide it: the one canonical receipt, by its height, or an
error for two of them or for one that contradicts the anchor, or else a fork-served
receipt or none. With another anchor no receipt is reported. The order of the hashes
decides only which fork-served receipt, or which failure of an answer, is reported. -/
theorem receipt_reconciliation {hashes : List Hash} (hne : hashes ≠ []) (hnd : hashes.Nodup)
    (anchor : BlockAnchor) (answers : Hash → ReceiptAnswer) :
    ((∀ h ∈ hashes, (answers h).Usable h) →
      (∀ e, reconciled hashes anchor answers (anchorReply anchor) (anchorReply anchor) =
          .ok (.verified e) ↔
        ∃ h s b, OnlyInclusion hashes answers h s b ∧ b.blockNumber ≤ anchor.blockNumber ∧
          AgreesWith anchor b ∧ e = ⟨anchor, b, s.outcome h⟩) ∧
      (∀ h s b, reconciled hashes anchor answers (anchorReply anchor) (anchorReply anchor) =
          .ok (.includedNotDurable h s b) ↔
        OnlyInclusion hashes answers h s b ∧ anchor.blockNumber < b.blockNumber) ∧
      ((∃ e, reconciled hashes anchor answers (anchorReply anchor) (anchorReply anchor) =
          .error e) ↔
        TwoInclusions hashes answers ∨ ContradictsAnchor hashes answers anchor) ∧
      (NoInclusion hashes answers →
        (∃ h ∈ hashes, ∃ b c, (answers h).ForkServed h b c ∧
          reconciled hashes anchor answers (anchorReply anchor) (anchorReply anchor) =
            .ok (.forkServedReceipt b c)) ∨
        (∀ h ∈ hashes, (answers h).Missing) ∧
          reconciled hashes anchor answers (anchorReply anchor) (anchorReply anchor) =
            .ok .receiptNotFound)) ∧
    (∀ observed : BlockAnchor, observed.blockNumber = anchor.blockNumber → observed ≠ anchor →
      (∀ closing, reconciled hashes anchor answers (anchorReply observed) closing =
        .ok (.anchorChanged observed)) ∧
      ((∀ h ∈ hashes, (answers h).Usable h) → ¬ ContradictsAnchor hashes answers anchor →
        reconciled hashes anchor answers (anchorReply anchor) (anchorReply observed) =
          .ok (.anchorChanged observed))) ∧
    (∀ opening closing r, opening ≠ anchorReply anchor ∨ closing ≠ anchorReply anchor →
      reconciled hashes anchor answers opening closing = .ok r →
      ∃ observed, r = .anchorChanged observed) ∧
    ∀ hashes' opening closing, hashes.Perm hashes' →
      SameButFork (reconciled hashes anchor answers opening closing)
        (reconciled hashes' anchor answers opening closing) ∨
      (∃ e e', reconciled hashes anchor answers opening closing = .error e ∧
        reconciled hashes' anchor answers opening closing = .error e') ∧
        ∃ h ∈ hashes, ¬ (answers h).Usable h := by
  refine ⟨?_, ?_, ?_, ?_⟩
  -- usable answers settle the result, and each direction reads off one of its cases
  · intro husable
    have hset : Settles hashes answers anchor
        (reconciled hashes anchor answers (anchorReply anchor) (anchorReply anchor)) :=
      reconciled_settles hne hnd husable
    have hcon := fun h => @reconciled_contradicted hashes answers anchor hne hnd h
      (anchorReply anchor)
    generalize hout : reconciled hashes anchor answers (anchorReply anchor)
      (anchorReply anchor) = out at hset
    have hcon' : ContradictsAnchor hashes answers anchor → ∃ e, out = .error e := by
      intro h
      rw [← hout]
      exact hcon h
    clear hcon hout
    refine ⟨?_, ?_, ?_, ?_⟩
    · intro e
      constructor
      · rintro rfl
        cases hset with
        | durable ho hle ha => exact ⟨_, _, _, ho, hle, ha, rfl⟩
      · rintro ⟨h, s, b, ho, hle, ha, rfl⟩
        rw [hset.of_only ho fun _ => ha, if_neg (not_lt.mpr hle)]
    · intro h s b
      constructor
      · rintro rfl
        cases hset with
        | above ho hlt => exact ⟨ho, hlt⟩
      · rintro ⟨ho, hlt⟩
        rw [hset.of_only ho fun hle => absurd hle (not_le.mpr hlt), if_pos hlt]
    · constructor
      · rintro ⟨e, rfl⟩
        cases hset with
        | contradicted hc => exact Or.inr hc
        | conflicting ht => exact Or.inl ht
      · rintro (ht | hc)
        · cases out with
          | error e => exact ⟨e, rfl⟩
          | ok r => exact absurd ht (hset.not_two rfl)
        · exact hcon' hc
    · intro hno
      cases hset with
      | contradicted hc =>
        obtain ⟨x, hx, s, b, hcan, _⟩ := hc
        exact absurd ⟨s, b, hcan⟩ (hno x hx)
      | conflicting ht =>
        obtain ⟨x, hx, _, _, _, hix, _⟩ := ht
        exact absurd hix (hno x hx)
      | above ho _ => exact absurd ⟨_, _, ho.2.1⟩ (hno _ ho.1)
      | durable ho _ _ => exact absurd ⟨_, _, ho.2.1⟩ (hno _ ho.1)
      | forkServed _ hh hf => exact Or.inl ⟨_, hh, _, _, hf, rfl⟩
      | missing hm => exact Or.inr ⟨hm, rfl⟩
  -- another block at the anchor's height shows at the opening check or at the closing one
  · intro observed hn hobs
    refine ⟨?_, fun husable hcon => reconciled_closing hne hnd husable hcon hn hobs⟩
    intro closing
    rw [reconciled_eq hne hnd, anchorCheck_changed hn hobs]
    rfl
  · exact fun opening closing r h hr => reconciled_mismatch hne hnd h hr
  · exact fun hashes' opening closing hp => reconciled_perm hp hne hnd opening closing

section Sample

/-- A receipt of transaction 1 in `block`, which the RPC reports canonical. -/
def canonicalAnswer (block : BlockAnchor) : ReceiptAnswer :=
  ⟨.ok (some ⟨some 1, some block.blockNumber, some block.blockHash, some .success⟩),
    anchorReply block⟩

theorem canonicalAnswer_only (block : BlockAnchor) :
    OnlyInclusion [1] (fun _ => canonicalAnswer block) 1 .success block := by
  refine ⟨by simp, ⟨rfl, rfl⟩, ?_⟩
  intro h hh _
  simpa using hh

/-- A canonical receipt at the anchor's height but in another block, and one below an
anchor whose number is too large for evidence, are errors. -/
theorem canonical_receipt_rejected :
    (OnlyInclusion [1] (fun _ => canonicalAnswer ⟨5, 51⟩) 1 .success ⟨5, 51⟩ ∧
      ¬ ∃ e, reconciled [1] ⟨5, 50⟩ (fun _ => canonicalAnswer ⟨5, 51⟩) (anchorReply ⟨5, 50⟩)
        (anchorReply ⟨5, 50⟩) = .ok (.verified e)) ∧
    OnlyInclusion [1] (fun _ => canonicalAnswer ⟨5, 51⟩) 1 .success ⟨5, 51⟩ ∧
      ¬ ∃ e, reconciled [1] ⟨2^256, 50⟩ (fun _ => canonicalAnswer ⟨5, 51⟩)
        (anchorReply ⟨2^256, 50⟩) (anchorReply ⟨2^256, 50⟩) = .ok (.verified e) := by
  refine ⟨⟨canonicalAnswer_only _, ?_⟩, canonicalAnswer_only _, ?_⟩
  · rintro ⟨e, h⟩
    cases h
  · rintro ⟨e, h⟩
    cases h

/-- Transaction 2 was included in a block that the RPC has replaced since. -/
def forkedAnswer : ReceiptAnswer :=
  ⟨.ok (some ⟨some 2, some 3, some 30, some .success⟩), anchorReply ⟨3, 31⟩⟩

def replacedAnswers (hash : Hash) : ReceiptAnswer :=
  if hash = 2 then forkedAnswer else canonicalAnswer ⟨4, 40⟩

/-- The receipt of the replaced block, which is read first, does not decide. -/
theorem canonicalAnswer_verified : reconciled [2, 1] ⟨5, 50⟩ replacedAnswers
    (anchorReply ⟨5, 50⟩) (anchorReply ⟨5, 50⟩) =
      .ok (.verified ⟨⟨5, 50⟩, ⟨4, 40⟩, .success 1⟩) := by
  have hforked : (replacedAnswers 2).ForkServed 2 ⟨3, 30⟩ ⟨3, 31⟩ :=
    ⟨⟨.success, rfl⟩, rfl, rfl, by decide⟩
  have hcanonical : (replacedAnswers 1).Canonical 1 .success ⟨4, 40⟩ := ⟨rfl, rfl⟩
  have husable : ∀ h ∈ [2, 1], (replacedAnswers h).Usable h := by
    intro h hh
    rcases List.mem_cons.mp hh with rfl | hh
    · exact Or.inr (Or.inl ⟨_, _, hforked⟩)
    · obtain rfl := List.mem_singleton.mp hh
      exact Or.inr (Or.inr ⟨_, _, hcanonical⟩)
  have honly : OnlyInclusion [2, 1] replacedAnswers 1 .success ⟨4, 40⟩ := by
    refine ⟨by simp, hcanonical, ?_⟩
    intro h hh hincludes
    rcases List.mem_cons.mp hh with rfl | hh
    · exact absurd hincludes (ReceiptAnswer.ForkServed.not_includes hforked)
    · exact List.mem_singleton.mp hh
  have hverified := (receipt_reconciliation (by simp) (by decide) ⟨5, 50⟩ replacedAnswers).1 husable
  apply (hverified.1 _).mpr
  exact ⟨1, .success, ⟨4, 40⟩, honly, by decide, ⟨by decide, by decide⟩, rfl⟩

end Sample

end Reconciliation

end Quicknet
