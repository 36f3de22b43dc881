import Quicknet.NonceSync
import Quicknet.SignerCoordinator
import Quicknet.Library.NumberedQueue

/-! The journal writes: what each one records, as a relation between the
committed journal it starts from and the snapshot it saves. -/
namespace Quicknet

open Interaction

/-- The observation and search that a recovery records when it resolves nothing. -/
def SignerRecoveryInspection.observed : SignerRecoveryInspection →
    Option (AnchoredNonceObservation × Option ReplacementSearchResult)
  | .noAttempt observation => some (observation, none)
  | .unresolved observation _ search => some (observation, search)
  | _ => none

/-- The snapshot that records progress or a lower bound for the oldest attempt. -/
def observedSnapshot (s : TransactionJournalSnapshot) (observation : AnchoredNonceObservation)
    (oldest : JournalAttempt) (rest : List JournalAttempt) (search : Option ReplacementSearch) :
    TransactionJournalSnapshot :=
  { s with
    lastObservation := observation
    attempts := { oldest with replacementSearch := search } :: rest }

/-- What a recovery records: the four ways its plan can end in a write. -/
inductive Recorded (s : TransactionJournalSnapshot) (unattributed : Bool) :
    SignerRecoveryInspection → PendingWrite → TransactionJournalSnapshot → Prop
  | resolved {o : AnchoredNonceObservation} {e : AttemptResolutionEvidence}
      {oldest : JournalAttempt} {rest : List JournalAttempt} :
      s.attempts = oldest :: rest → EvidenceValid e → ResolutionMatches oldest e →
      Recorded s unattributed (.resolutionAvailable o e) .resolution
        { s with
          lastObservation := retainObservation unattributed s.lastObservation o
          durableNextNonce := oldest.nonce+1
          attempts := rest }
  | emptied {result : SignerRecoveryInspection} {o : AnchoredNonceObservation}
      {search : Option ReplacementSearchResult} :
      result.observed = some (o, search) → s.attempts = [] →
      ¬ (unattributed = true ∧ o.nonce < s.lastObservation.nonce) →
      Recorded s unattributed result .observation { s with lastObservation := o }
  | observed {result : SignerRecoveryInspection} {o : AnchoredNonceObservation}
      {search : Option ReplacementSearchResult} {oldest : JournalAttempt}
      {rest : List JournalAttempt} :
      result.observed = some (o, search) → s.attempts = oldest :: rest →
      ¬ (unattributed = true ∧ o.nonce < s.lastObservation.nonce) →
      searchedBlocks search = none →
      Recorded s unattributed result .observation
        (observedSnapshot s o oldest rest (recoveredSearch s oldest o))
  | searched {result : SignerRecoveryInspection} {o : AnchoredNonceObservation}
      {search : Option ReplacementSearchResult} {oldest : JournalAttempt}
      {rest : List JournalAttempt} {lower : ReplacementSearch} {through : BlockAnchor}
      {remaining : ℕ} :
      result.observed = some (o, search) → s.attempts = oldest :: rest →
      ¬ (unattributed = true ∧ o.nonce < s.lastObservation.nonce) →
      searchedBlocks search = some (through, remaining) →
      recoveredSearch s oldest o = some lower →
      Recorded s unattributed result (.searchProgress (remaining = 0))
        (observedSnapshot s o oldest rest (some { lower with searchedThrough := some through }))

theorem planResolution_ok {s next : TransactionJournalSnapshot} {kind : PendingWrite}
    {o recorded : AnchoredNonceObservation} {e : AttemptResolutionEvidence} {u : Bool}
    (hrec : recorded = retainObservation u s.lastObservation o)
    (h : planResolution s recorded e = .ok (kind, next)) :
    Recorded s u (.resolutionAvailable o e) kind next := by
  unfold planResolution at h
  cases hs : s.attempts with
  | nil =>
    rw [hs] at h
    cases h
  | cons oldest rest =>
    simp only [hs, snapshotResolutionEvidence, assertResolutionTransaction, bind, Except.bind] at h
    by_cases hv : EvidenceValid e
    · rw [if_pos hv] at h
      by_cases hm : ResolutionMatches oldest e
      · simp only [if_pos hm] at h
        obtain ⟨rfl, rfl⟩ := Prod.mk.inj (Except.ok.inj h)
        rw [hrec]
        exact .resolved hs hv hm
      · simp only [if_neg hm, reduceCtorEq] at h
    · simp only [if_neg hv, reduceCtorEq] at h

theorem planObservation_ok {s next : TransactionJournalSnapshot} {kind : PendingWrite}
    {result : SignerRecoveryInspection} {o : AnchoredNonceObservation}
    {search : Option ReplacementSearchResult} {u : Bool} (hobs : result.observed = some (o, search))
    (hkeep : ¬ (u = true ∧ o.nonce < s.lastObservation.nonce))
    (h : planObservation s o search = .ok (kind, next)) : Recorded s u result kind next := by
  unfold planObservation at h
  cases hs : s.attempts with
  | nil =>
    rw [hs] at h
    obtain ⟨rfl, rfl⟩ := Prod.mk.inj (Except.ok.inj h)
    rw [← hs]
    exact .emptied hobs hs hkeep
  | cons oldest rest =>
    simp only [hs] at h
    cases hb : searchedBlocks search with
    | none =>
      rw [hb] at h
      obtain ⟨rfl, rfl⟩ := Prod.mk.inj (Except.ok.inj h)
      exact .observed hobs hs hkeep hb
    | some p =>
      obtain ⟨through, remaining⟩ := p
      simp only [hb] at h
      cases hl : recoveredSearch s oldest o with
      | none =>
        rw [hl] at h
        cases h
      | some lower =>
        rw [hl] at h
        obtain ⟨rfl, rfl⟩ := Prod.mk.inj (Except.ok.inj h)
        exact .searched hobs hs hkeep hb hl

/-- A recovery that plans a write has one of the four results. -/
theorem planRecovery_some {identity : JournalIdentity} {u : Bool}
    {s next : TransactionJournalSnapshot} {result : SignerRecoveryInspection} {kind : PendingWrite}
    (h : planRecovery identity u s result = .ok (some (kind, next))) :
    result.isInconclusive = false ∧ Recorded s u result kind next := by
  unfold planRecovery at h
  by_cases hi : result.isInconclusive = true
  · simp only [if_pos hi, Except.ok.injEq, reduceCtorEq] at h
  rw [if_neg hi] at h
  refine ⟨by simpa using hi, ?_⟩
  -- a plan is returned as it was validated
  have hrecord {plan : Except Failure (PendingWrite × TransactionJournalSnapshot)}
      (hp : (plan >>= fun p => validateJournalSnapshotStructure p.2 identity >>= fun validated =>
        pure (some (p.1, validated))) = Except.ok (some (kind, next))) : plan = .ok (kind, next) := by
    cases plan with
    | error e => cases hp
    | ok p =>
      obtain ⟨k, n⟩ := p
      simp only [bind, Except.bind] at hp
      cases hv : validateJournalSnapshotStructure n identity with
      | error e =>
        rw [hv] at hp
        cases hp
      | ok m =>
        obtain ⟨rfl, _⟩ := validate_ok_iff.mp hv
        rw [hv] at hp
        obtain ⟨rfl, rfl⟩ := Prod.mk.inj (Option.some.inj (Except.ok.inj hp))
        rfl
  cases result with
  | resolutionAvailable o e => exact planResolution_ok rfl (hrecord h)
  | noAttempt o =>
    -- a lower nonce while unattributed activity is recorded plans nothing
    by_cases hk : u = true ∧ o.nonce < s.lastObservation.nonce
    · simp only [if_pos hk, Except.ok.injEq, reduceCtorEq] at h
    · simp only [if_neg hk] at h
      exact planObservation_ok rfl hk (hrecord h)
  | unresolved o receipt search =>
    by_cases hk : u = true ∧ o.nonce < s.lastObservation.nonce
    · simp only [if_pos hk, Except.ok.injEq, reduceCtorEq] at h
    · simp only [if_neg hk] at h
      exact planObservation_ok rfl hk (hrecord h)
  | anchorChanged _ => cases h
  | nonceBehindJournal _ => cases h
  | inconsistentObservations _ => cases h

def recoveryKind (base : TransactionJournalSnapshot) (result : SignerRecoveryInspection) :
    PendingWrite :=
  match result with
  | .resolutionAvailable _ _ => .resolution
  | .unresolved _ _ search =>
    if base.attempts = [] then .observation
    else match searchedBlocks search with
      | some (_, remaining) => .searchProgress (remaining = 0)
      | none => .observation
  | _ => .observation

theorem Recorded.kind_eq {s next : TransactionJournalSnapshot} {u : Bool}
    {result : SignerRecoveryInspection} {kind : PendingWrite} (h : Recorded s u result kind next) :
    kind = recoveryKind s result := by
  cases h with
  | resolved => rfl
  | emptied ho hs _ => cases result <;> simp_all [SignerRecoveryInspection.observed, recoveryKind]
  | observed ho hs _ hb =>
    cases result <;> simp_all [SignerRecoveryInspection.observed, recoveryKind, searchedBlocks]
  | searched ho hs _ hb _ =>
    cases result <;> simp_all [SignerRecoveryInspection.observed, recoveryKind, searchedBlocks]
    all_goals
      obtain ⟨rfl, rfl⟩ := ho
      cases hb

namespace JournalWrite

def kind : JournalWrite → PendingWrite
  | .prepared _ => .prepared
  | .broadcast _ => .broadcast
  | .bootstrap _ _ _ _ => .bootstrap
  | .recovery _ base _ _ _ result => recoveryKind base result
  | .inclusions _ _ _ _ _ _ _ _ _ _ => .observation
  | .repair _ => .observation

def isRepair : JournalWrite → Bool
  | .repair _ => true
  | _ => false

end JournalWrite

section Writes

variable (identity : JournalIdentity)

/-- `w` records `next` over the committed journal. -/
inductive Writes : Option TransactionJournalSnapshot → JournalWrite →
    TransactionJournalSnapshot → Prop
  | prepared {s : TransactionJournalSnapshot} {attemptId : AttemptId} {workId : WorkId}
      {createdAt : Timestamp} {signed : JournalSignedTransaction} :
      s.showsUnattributedActivity = false → (∀ a ∈ s.attempts, a.phase.isIncluded = true) →
      Writes (some s) (.prepared (preparedAttempt s attemptId workId createdAt signed))
        (preparedSnapshot s (preparedAttempt s attemptId workId createdAt signed))
  | broadcast {s : TransactionJournalSnapshot} {a : JournalAttempt} :
      s.firstUnresolved = some a → a.phase = .signed → s.lastObservation.nonce = a.nonce →
      Writes (some s) (.broadcast a) { s with attempts := markBroadcast s.attempts }
  | bootstrap {generation : ℕ} {anchor : BlockAnchor} {log : RpcLog}
      {o : AnchoredNonceObservation} :
      (inspectSignerBootstrap identity.signer anchor).replay log = some (.ok (.ready o)) →
      Writes none (.bootstrap generation anchor log o) (bootstrapSnapshot identity o)
  | recovery {s next : TransactionJournalSnapshot} {generation : ℕ} {anchor : BlockAnchor}
      {range : ℕ} {log : RpcLog} {result : SignerRecoveryInspection} :
      (inspectSignerRecovery s anchor range).replay log = some (.ok result) →
      result.isInconclusive = false →
      Recorded s s.showsUnattributedActivity result (recoveryKind s result) next →
      Writes (some s) (.recovery generation s anchor range log result) next
  | inclusions {s : TransactionJournalSnapshot} {generation : ℕ} {head : BlockAnchor}
      {range : Option ℕ} {bracketed : Bool} {log : RpcLog} {o : AnchoredNonceObservation}
      {attempts : List JournalAttempt} {complete : Bool} {broadcast : Option AttemptId} :
      InclusionPass s head log o attempts complete broadcast →
      Writes (some s)
        (.inclusions generation s head range bracketed log o attempts complete broadcast)
        { s with
          lastObservation :=
            retainObservation s.showsUnattributedActivity s.lastObservation o
          attempts := attempts }
  | repair {s next : TransactionJournalSnapshot} {o : AnchoredNonceObservation} {latest pending : ℕ}
      {at' : Timestamp} {r : JournalNonceRepair} :
      planNonceSync s identity o latest pending at' = .ok (.repairAvailable r next) →
      Writes (some s) (.repair o) next

end Writes

/-! Marking, and the counters and records that a write keeps. -/

theorem markBroadcast_records (l : List JournalAttempt) :
    (markBroadcast l).map JournalAttempt.record = l.map JournalAttempt.record := by
  induction l with
  | nil => rfl
  | cons a l ih =>
    unfold markBroadcast
    split_ifs
    · simp [ih]
    · simp [JournalAttempt.record]

/-- Marking changes only the phase of the oldest unresolved attempt. -/
theorem markBroadcast_split {l : List JournalAttempt} {a : JournalAttempt}
    (h : l.find? (fun b => !b.phase.isIncluded) = some a) :
    ∃ front back, l = front ++ a :: back ∧ (∀ b ∈ front, b.phase.isIncluded = true) ∧
      markBroadcast l = front ++ { a with phase := .broadcastMayHaveOccurred } :: back := by
  induction l with
  | nil => cases h
  | cons b l ih =>
    rw [List.find?_cons] at h
    cases hb : b.phase.isIncluded with
    | false =>
      simp only [hb, Bool.not_false, Option.some.injEq] at h
      subst h
      exact ⟨[], l, rfl, by simp, by simp [markBroadcast, hb]⟩
    | true =>
      simp only [hb, Bool.not_true] at h
      obtain ⟨front, back, rfl, hf, hm⟩ := ih h
      refine ⟨b :: front, back, rfl, ?_, by simp [markBroadcast, hb, hm]⟩
      intro c hc
      rcases List.mem_cons.mp hc with rfl | hc
      · exact hb
      · exact hf c hc

theorem firstUnresolved_of_split {s : TransactionJournalSnapshot} {front back : List JournalAttempt}
    {a : JournalAttempt} (hs : s.attempts = front ++ a :: back)
    (hf : ∀ b ∈ front, b.phase.isIncluded = true) (ha : a.phase.isIncluded = false) :
    s.firstUnresolved = some a := by
  unfold TransactionJournalSnapshot.firstUnresolved
  rw [hs, List.find?_append]
  have hnone : front.find? (fun b => !b.phase.isIncluded) = none := by
    rw [List.find?_eq_none]
    intro b hb
    simp [hf b hb]
  simp [hnone, ha]

theorem firstUnresolved_mem {s : TransactionJournalSnapshot} {a : JournalAttempt}
    (h : s.firstUnresolved = some a) : a ∈ s.attempts ∧ a.phase.isIncluded = false := by
  have hp := List.find?_some h
  exact ⟨List.mem_of_find?_eq_some h, by simpa using hp⟩

theorem InclusionUpdate.forall₂_records {l m : List JournalAttempt}
    (h : List.Forall₂ InclusionUpdate l m) :
    m.map JournalAttempt.record = l.map JournalAttempt.record := by
  induction h with
  | nil => rfl
  | cons h _ ih => rw [List.map_cons, List.map_cons, ih, h.record_eq]

/-- The journal as a queue of records under their nonces. -/
def nonceQueue : Option TransactionJournalSnapshot → NumberedQueue JournalAttempt.Record
  | none => ⟨0, []⟩
  | some s => ⟨s.durableNextNonce, s.attempts.map JournalAttempt.record⟩

theorem SnapshotValid.nonceQueue_next {e : JournalIdentity} {s : TransactionJournalSnapshot}
    (h : SnapshotValid e s) : (nonceQueue (some s)).next = s.nextNonce := by
  simp only [nonceQueue, NumberedQueue.next, List.length_map]
  exact h.length_attempts

theorem ContiguousFrom.getElem? {n : ℕ} {l : List JournalAttempt} (h : ContiguousFrom n l)
    {a : JournalAttempt} (ha : a ∈ l) : l[a.nonce - n]? = some a := by
  induction l generalizing n with
  | nil => simp at ha
  | cons b l ih =>
    rcases List.mem_cons.mp ha with rfl | ha
    · simp [h.1]
    · have hb := h.2.bounds ha
      have hk : a.nonce - n = (a.nonce - (n+1)) + 1 := by omega
      rw [hk, List.getElem?_cons_succ]
      exact ih h.2 ha

theorem SnapshotValid.nonceQueue_item {e : JournalIdentity} {s : TransactionJournalSnapshot}
    (h : SnapshotValid e s) {a : JournalAttempt} (ha : a ∈ s.attempts) :
    (nonceQueue (some s)).item? a.nonce = some a.record := by
  have hb := h.nonce_bounds ha
  have hitem : (s.attempts.map JournalAttempt.record)[a.nonce - s.durableNextNonce]? =
      some a.record := by
    rw [List.getElem?_map, h.contiguous.getElem? ha]
    rfl
  unfold NumberedQueue.item?
  exact (if_pos hb.1).trans hitem

section Facts

variable {identity : JournalIdentity} {base : Option TransactionJournalSnapshot} {w : JournalWrite}
  {next : TransactionJournalSnapshot}

theorem Recorded.queueStep {s : TransactionJournalSnapshot} {u : Bool}
    {result : SignerRecoveryInspection} {kind : PendingWrite} (h : Recorded s u result kind next)
    (hv : SnapshotValid identity s) :
    NumberedQueue.Step (nonceQueue (some s)) (nonceQueue (some next)) := by
  cases h with
  | @resolved o e oldest rest hs _ _ =>
    have hn : oldest.nonce = s.durableNextNonce := by
      have hc := hv.contiguous
      rw [hs] at hc
      exact hc.1
    simp only [nonceQueue, hs, hn, List.map_cons]
    exact .dequeue _ _ _
  | emptied _ hs _ => exact .keep _
  | observed _ hs _ _ =>
    simp only [nonceQueue, observedSnapshot, hs, List.map_cons]
    exact .keep _
  | searched _ hs _ _ _ =>
    simp only [nonceQueue, observedSnapshot, hs, List.map_cons]
    exact .keep _

/-- Every write is one step of the queue of nonces. -/
theorem Writes.queueStep (h : Writes identity base w next)
    (hv : ∀ s, base = some s → SnapshotValid identity s) :
    NumberedQueue.Step (nonceQueue base) (nonceQueue (some next)) := by
  cases h with
  | prepared _ _ =>
    simp only [nonceQueue, preparedSnapshot, List.map_append, List.map_cons, List.map_nil]
    exact .enqueue _ _ _
  | broadcast _ _ _ =>
    simp only [nonceQueue, markBroadcast_records]
    exact .keep _
  | bootstrap _ => exact .skip _ _ (Nat.zero_le _)
  | recovery _ _ hr => exact hr.queueStep (hv _ rfl)
  | inclusions hp =>
    simp only [nonceQueue, InclusionUpdate.forall₂_records hp.updates]
    exact .keep _
  | @repair s _ o latest pending at' r hp =>
    obtain ⟨hs, hempty, hlt, _, rfl, _⟩ := planNonceSync_repair hp
    simp only [nonceQueue, repairedSnapshot, hempty, List.map_nil]
    exact .skip _ _ (hs.durable_le_next.trans hlt.le)

theorem retainObservation_ge {u : Bool} {recorded o : AnchoredNonceObservation} (hu : u = true) :
    recorded.nonce ≤ (retainObservation u recorded o).nonce := by
  unfold retainObservation
  split_ifs with h
  · exact le_rfl
  · simp only [hu, true_and, not_lt] at h
    exact h

theorem Recorded.keeps_unattributed {s : TransactionJournalSnapshot}
    {result : SignerRecoveryInspection} {kind : PendingWrite} (h : Recorded s true result kind next)
    (hs : s.nextNonce < s.lastObservation.nonce) :
    next.nextNonce < next.lastObservation.nonce := by
  cases h with
  | resolved _ _ _ => exact lt_of_lt_of_le hs (retainObservation_ge rfl)
  | emptied _ _ hk =>
    simp only [true_and, not_lt] at hk
    exact lt_of_lt_of_le hs hk
  | observed _ _ hk _ =>
    simp only [true_and, not_lt] at hk
    exact lt_of_lt_of_le hs hk
  | searched _ _ hk _ _ =>
    simp only [true_and, not_lt] at hk
    exact lt_of_lt_of_le hs hk

/-- Recorded evidence of other activity outlives every write but a repair. -/
theorem Writes.keeps_unattributed {s : TransactionJournalSnapshot}
    (h : Writes identity (some s) w next) (hw : w.isRepair = false)
    (hs : s.showsUnattributedActivity = true) : next.showsUnattributedActivity = true := by
  unfold TransactionJournalSnapshot.showsUnattributedActivity at hs ⊢
  rw [decide_eq_true_eq] at hs ⊢
  cases h with
  | prepared hno _ =>
    simp only [TransactionJournalSnapshot.showsUnattributedActivity, decide_eq_false_iff_not] at hno
    exact absurd hs hno
  | broadcast _ _ _ => exact hs
  | recovery _ _ hr =>
    have hu : s.showsUnattributedActivity = true := decide_eq_true hs
    rw [hu] at hr
    exact hr.keeps_unattributed hs
  | inclusions _ =>
    exact lt_of_lt_of_le hs (retainObservation_ge (decide_eq_true hs))
  | repair _ => cases hw

end Facts

end Quicknet
