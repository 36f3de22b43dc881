import Quicknet.JournalSafety

/-! When a nonce repair is proposed, what it leaves in the journal, and how a
coordinator starts from it. -/
namespace Quicknet

/-- The snapshot that a plan asks to be saved. -/
def NonceSyncPlan.proposal : NonceSyncPlan → Option TransactionJournalSnapshot
  | .repairAvailable _ snapshot => some snapshot
  | _ => none

/-- The anchor does not lie behind the recorded one, and is the same block at the
same height. -/
def AnchorAhead (previous anchor : BlockAnchor) : Prop :=
  previous.blockNumber ≤ anchor.blockNumber ∧
    (anchor.blockNumber = previous.blockNumber → anchor.blockHash = previous.blockHash)

structure RepairEligible (s : TransactionJournalSnapshot) (o : AnchoredNonceObservation)
    (latestNonce pendingNonce : ℕ) : Prop where
  empty : s.attempts = []
  anchor : AnchorAhead s.lastObservation.anchor o.anchor
  observed : s.lastObservation.nonce ≤ o.nonce
  latest : latestNonce = o.nonce
  pending : pendingNonce = o.nonce
  forward : s.nextNonce < o.nonce

/-- What a repair changes and what it keeps. -/
structure Repaired (s : TransactionJournalSnapshot) (o : AnchoredNonceObservation)
    (r : JournalNonceRepair) (t : TransactionJournalSnapshot) : Prop where
  next_lt : s.nextNonce < t.nextNonce
  durable_lt : s.durableNextNonce < t.durableNextNonce
  next_eq : t.nextNonce = o.nonce
  durable_eq : t.durableNextNonce = o.nonce
  observation : t.lastObservation = o
  starts : r.previousNextNonce = s.nextNonce
  adopts : r.nextNonce = o.nonce ∧ r.observation = o
  /-- The last repairs, in their order, and no more than are retained. -/
  suffix : t.repairs <:+ s.repairs ++ [r]
  retained : t.repairs.length = min MAX_RETAINED_NONCE_REPAIRS (s.repairs.length+1)
  chained : RepairsChained t.repairs
  kept : t = { s with
    lastObservation := t.lastObservation
    nextNonce := t.nextNonce
    durableNextNonce := t.durableNextNonce
    repairs := t.repairs }

section Chain

theorem RepairsChained.tail {l : List JournalNonceRepair} (h : RepairsChained l) :
    RepairsChained l.tail := by
  match l, h with
  | [], _ => trivial
  | [_], _ => trivial
  | _ :: _ :: _, h => exact h.2

theorem RepairsChained.drop {l : List JournalNonceRepair} (h : RepairsChained l) (n : ℕ) :
    RepairsChained (l.drop n) := by
  induction n with
  | zero => exact h
  | succ n ih =>
    rw [← List.tail_drop]
    exact ih.tail

/-- A repair that starts at or after the last one continues the chain. -/
theorem RepairsChained.append {l : List JournalNonceRepair} {r : JournalNonceRepair}
    (h : RepairsChained l) (hr : ∀ x ∈ l.getLast?, x.nextNonce ≤ r.previousNextNonce) :
    RepairsChained (l ++ [r]) := by
  induction l with
  | nil => trivial
  | cons a l ih =>
    cases l with
    | nil => exact ⟨hr a (by simp), trivial⟩
    | cons b l =>
      refine ⟨h.1, ih h.2 ?_⟩
      intro x hx
      exact hr x (by simpa [List.getLast?_cons_cons] using hx)

theorem retainRepairs_length (l : List JournalNonceRepair) :
    (retainRepairs l).length = min MAX_RETAINED_NONCE_REPAIRS l.length := by
  unfold retainRepairs
  rw [List.length_drop]
  omega

theorem retainRepairs_suffix (l : List JournalNonceRepair) : retainRepairs l <:+ l :=
  List.drop_suffix _ _

/-- The repair that was added last is among those retained. -/
theorem retainRepairs_getLast? (l : List JournalNonceRepair) (r : JournalNonceRepair) :
    (retainRepairs (l ++ [r])).getLast? = some r := by
  have hlen : (l ++ [r]).length - MAX_RETAINED_NONCE_REPAIRS ≤ l.length := by
    simp only [List.length_append, List.length_singleton, MAX_RETAINED_NONCE_REPAIRS]
    omega
  unfold retainRepairs
  rw [List.drop_append_of_le_length hlen, List.getLast?_concat]

end Chain

section Plan

variable {identity : JournalIdentity} {s t : TransactionJournalSnapshot}
  {o : AnchoredNonceObservation} {latestNonce pendingNonce : ℕ} {at' : Timestamp}

theorem SnapshotValid.repaired_chained (hs : SnapshotValid identity s) :
    RepairsChained (s.repairs ++ [⟨at', s.nextNonce, o.nonce, o⟩]) := by
  obtain ⟨_, _, hchain, hlast⟩ := hs.repairs
  apply hchain.append
  intro x hx
  exact (hlast x hx).trans hs.durable_le_next

/-- The repaired journal passes the validation that the plan ends with. -/
theorem SnapshotValid.repaired (hs : SnapshotValid identity s) (ho : ObservationValid o)
    (hempty : s.attempts = []) (hlt : s.nextNonce < o.nonce) :
    SnapshotValid identity (repairedSnapshot s o at') := by
  obtain ⟨hexp, hid, heq, hbase, _, hnext, _, hbaseline, hdurable⟩ := hs.header
  obtain ⟨_, hvalid, _, _⟩ := hs.repairs
  refine ⟨?_, ?_, ?_⟩
  · refine ⟨hexp, hid, heq, hbase, ho, ho.2, ho.2, ?_, le_refl o.nonce⟩
    show s.baseline.nonce ≤ o.nonce
    omega
  · refine ⟨?_, ?_, hs.repaired_chained.drop _, ?_⟩
    · show (retainRepairs _).length ≤ _
      rw [retainRepairs_length]
      exact Nat.min_le_left _ _
    · intro r hr
      have hmem := (retainRepairs_suffix _).subset hr
      rcases List.mem_append.mp hmem with hr | hr
      · exact hvalid r hr
      · rw [List.mem_singleton.mp hr]
        exact ⟨hnext, ho.2, ho, hlt, rfl⟩
    · intro r hr
      have hlast : some _ = some r := (retainRepairs_getLast? s.repairs _).symm.trans hr
      rw [← Option.some.inj hlast]
      exact le_refl o.nonce
  · simp [AttemptsValid, repairedSnapshot, hempty, ContiguousFrom]

/-- The plan of a valid journal, read off its guards: it fails only on counts that
are out of range. -/
theorem planNonceSync_eq (hs : SnapshotValid identity s) :
    planNonceSync s identity o latestNonce pendingNonce at' =
      if ObservationValid o ∧ latestNonce ≤ MAX_UINT256 ∧ pendingNonce ≤ MAX_UINT256 then .ok (
        if s.attempts ≠ [] then .refused .retainedAttempts
        else if o.anchor.blockNumber < s.lastObservation.anchor.blockNumber then
          .refused .anchorRegression
        else if o.anchor.blockNumber = s.lastObservation.anchor.blockNumber ∧
            o.anchor.blockHash ≠ s.lastObservation.anchor.blockHash then .refused .anchorConflict
        else if o.nonce < s.nextNonce ∨ o.nonce < s.lastObservation.nonce then
          .refused .nonceRegression
        else if o.nonce ≠ latestNonce ∨ o.nonce ≠ pendingNonce then .deferred
        else if o.nonce = s.nextNonce then .alreadySynchronized
        else .repairAvailable ⟨at', s.nextNonce, o.nonce, o⟩ (repairedSnapshot s o at'))
      else .error (.typeError (if ObservationValid o then "Invalid nonce sync count."
        else "Invalid transaction journal snapshot.")) := by
  have hv : validateJournalSnapshotStructure s identity = .ok s := validate_ok_iff.mpr ⟨rfl, hs⟩
  unfold planNonceSync
  simp only [hv, bind, pure, Except.bind, Except.pure, requireThat]
  by_cases ho : ObservationValid o
  · by_cases hn : latestNonce ≤ MAX_UINT256 ∧ pendingNonce ≤ MAX_UINT256
    · simp only [ho, hn, if_true, and_self]
      split_ifs with h₁ h₂ h₃ h₄ h₅ h₆
      all_goals try rfl
      have hlt : s.nextNonce < o.nonce := by omega
      rw [validate_ok_iff.mpr ⟨rfl, hs.repaired ho (not_not.mp h₁) hlt⟩]
    · simp [ho, hn]
  · simp [ho]

/-- A repair is proposed exactly when the journal is eligible for it. -/
theorem planNonceSync_repair_iff (hs : SnapshotValid identity s) {r : JournalNonceRepair} :
    planNonceSync s identity o latestNonce pendingNonce at' = .ok (.repairAvailable r t) ↔
      ObservationValid o ∧ RepairEligible s o latestNonce pendingNonce ∧
        r = ⟨at', s.nextNonce, o.nonce, o⟩ ∧ t = repairedSnapshot s o at' := by
  rw [planNonceSync_eq hs]
  constructor
  · intro h
    split_ifs at h with hv h₁ h₂ h₃ h₄ h₅ h₆
    all_goals try cases h
    rw [not_or, not_not, not_not] at h₅
    rw [not_or, not_lt, not_lt] at h₄
    rw [not_and, not_not] at h₃
    refine ⟨hv.1, ⟨not_not.mp h₁, ⟨not_lt.mp h₂, h₃⟩, h₄.2, h₅.1.symm, h₅.2.symm, ?_⟩, rfl, rfl⟩
    omega
  · rintro ⟨ho, ⟨hempty, ⟨hle, hsame⟩, hobs, rfl, rfl, hlt⟩, rfl, rfl⟩
    have hback : ¬ (o.nonce < s.nextNonce ∨ o.nonce < s.lastObservation.nonce) := by omega
    have hconflict : ¬ (o.anchor.blockNumber = s.lastObservation.anchor.blockNumber ∧
        o.anchor.blockHash ≠ s.lastObservation.anchor.blockHash) := by
      rintro ⟨hn, hh⟩
      exact hh (hsame hn)
    rw [if_pos ⟨ho, ho.2, ho.2⟩, if_neg (not_not.mpr hempty), if_neg (not_lt.mpr hle),
      if_neg hconflict, if_neg hback, if_neg (by simp), if_neg (by omega)]

theorem planNonceSync_synchronized (hs : SnapshotValid identity s)
    (h : planNonceSync s identity o latestNonce pendingNonce at' = .ok .alreadySynchronized) :
    s.attempts = [] ∧ s.lastObservation.nonce ≤ s.nextNonce := by
  rw [planNonceSync_eq hs] at h
  split_ifs at h with hv h₁ h₂ h₃ h₄ h₅ h₆
  all_goals try cases h
  exact ⟨not_not.mp h₁, by omega⟩

theorem SnapshotValid.repaired_facts (hs : SnapshotValid identity s) (hlt : s.nextNonce < o.nonce) :
    Repaired s o ⟨at', s.nextNonce, o.nonce, o⟩ (repairedSnapshot s o at') := by
  refine ⟨hlt, lt_of_le_of_lt hs.durable_le_next hlt, rfl, rfl, rfl, rfl, ⟨rfl, rfl⟩,
    retainRepairs_suffix _, ?_, hs.repaired_chained.drop _, rfl⟩
  show (retainRepairs _).length = _
  rw [retainRepairs_length, List.length_append, List.length_singleton]

/-- A coordinator starts from every valid journal without attempts. -/
theorem create_empty (lib : TransactionLibrary) (hs : SnapshotValid identity s)
    (hempty : s.attempts = []) {n : ℕ} (hn : 0 < n ∧ n ≤ MAX_SAFE_INTEGER) (now : Timestamp) :
    ∃ c, SignerCoordinator.create lib identity n (some s) now = .ok c ∧
      c.blockers.unattributedSignerActivity = s.showsUnattributedActivity := by
  have hver : verifyJournalSnapshot lib s identity = .ok s := by
    apply verifyJournalSnapshot_ok_iff.mpr
    exact ⟨rfl, hs, by simp [hempty]⟩
  obtain ⟨c, hc⟩ : ∃ c, SignerCoordinator.create lib identity n (some s) now = .ok c := by
    unfold SignerCoordinator.create JournalPersistence.create
    rw [if_pos hn]
    simp only [hver, bind, Except.bind, pure, Except.pure]
    exact ⟨_, rfl⟩
  refine ⟨c, hc, ?_⟩
  rw [(create_ok hc).blockers]
  rfl

end Plan

section Repair

variable (lib : TransactionLibrary) (identity : JournalIdentity)

/-- The plan of a valid journal proposes a change only when it is eligible for a
repair. The repaired journal is valid, ahead of the old one and keeps the last
repairs; a coordinator that starts from it, or from a journal found synchronized,
does not find activity that no attempt explains. -/
theorem nonce_sync_plan {s : TransactionJournalSnapshot} (hs : SnapshotValid identity s)
    (o : AnchoredNonceObservation) (latestNonce pendingNonce : ℕ) (at' : Timestamp) :
    (∀ plan t, planNonceSync s identity o latestNonce pendingNonce at' = .ok plan →
      plan.proposal = some t →
      RepairEligible s o latestNonce pendingNonce ∧ SnapshotValid identity t ∧
        ∃ r, plan = .repairAvailable r t ∧ Repaired s o r t) ∧
    (ObservationValid o → RepairEligible s o latestNonce pendingNonce →
      ∃ plan, planNonceSync s identity o latestNonce pendingNonce at' = .ok plan ∧
        plan.proposal.isSome = true) ∧
    ∀ plan n now, planNonceSync s identity o latestNonce pendingNonce at' = .ok plan →
      plan.proposal.isSome = true ∨ plan = .alreadySynchronized →
      0 < n ∧ n ≤ MAX_SAFE_INTEGER →
      ∃ c, SignerCoordinator.create lib identity n (some (plan.proposal.getD s)) now = .ok c ∧
        c.blockers.unattributedSignerActivity = false := by
  have hrepair {plan : NonceSyncPlan} {t : TransactionJournalSnapshot}
      (h : planNonceSync s identity o latestNonce pendingNonce at' = .ok plan)
      (ht : plan.proposal = some t) :
      RepairEligible s o latestNonce pendingNonce ∧ SnapshotValid identity t ∧
        ∃ r, plan = .repairAvailable r t ∧ Repaired s o r t := by
    cases plan with
    | repairAvailable r t' =>
      obtain rfl : t' = t := Option.some.inj ht
      obtain ⟨ho, he, rfl, rfl⟩ := (planNonceSync_repair_iff hs).mp h
      exact ⟨he, hs.repaired ho he.empty he.forward, _, rfl, hs.repaired_facts he.forward⟩
    | _ => cases ht
  refine ⟨fun plan t => hrepair, ?_, ?_⟩
  · intro ho he
    exact ⟨_, (planNonceSync_repair_iff hs).mpr ⟨ho, he, rfl, rfl⟩, rfl⟩
  · intro plan n now h hplan hn
    rcases hplan with hsome | rfl
    · obtain ⟨t, ht⟩ := Option.isSome_iff_exists.mp hsome
      obtain ⟨he, hvalid, r, _, hr⟩ := hrepair h ht
      rw [ht, Option.getD_some]
      -- a repaired journal retains no attempt and has observed its next nonce
      have hempty : t.attempts = [] := by
        rw [hr.kept]
        exact he.empty
      have hquiet : t.showsUnattributedActivity = false := by
        simp [TransactionJournalSnapshot.showsUnattributedActivity, hr.observation, hr.next_eq]
      obtain ⟨c, hc, hb⟩ := create_empty lib hvalid hempty hn now
      exact ⟨c, hc, hb.trans hquiet⟩
    · obtain ⟨hempty, hle⟩ := planNonceSync_synchronized hs h
      have hquiet : s.showsUnattributedActivity = false := by
        simpa [TransactionJournalSnapshot.showsUnattributedActivity] using hle
      obtain ⟨c, hc, hb⟩ := create_empty lib hs hempty hn now
      exact ⟨c, hc, hb.trans hquiet⟩

section Sample

/-- An empty journal whose signer was used by something else. -/
def strayJournal : TransactionJournalSnapshot :=
  { bootstrapSnapshot sampleIdentity ⟨sampleAnchor, 0⟩ with lastObservation := ⟨sampleAnchor, 3⟩ }

theorem strayJournal_valid : SnapshotValid sampleIdentity strayJournal :=
  (validate_ok_iff.mp (rfl : validateJournalSnapshotStructure strayJournal sampleIdentity = _)).2

theorem strayJournal_repaired : ∃ r t,
    planNonceSync strayJournal sampleIdentity ⟨sampleHead, 3⟩ 3 3 1 = .ok (.repairAvailable r t) ∧
    RepairEligible strayJournal ⟨sampleHead, 3⟩ 3 3 ∧ Repaired strayJournal ⟨sampleHead, 3⟩ r t := by
  obtain ⟨he, _, r, hr, hrep⟩ := (nonce_sync_plan sampleLibrary sampleIdentity strayJournal_valid
    ⟨sampleHead, 3⟩ 3 3 1).1 _ _ rfl rfl
  exact ⟨r, _, congrArg Except.ok hr, he, hrep⟩

end Sample

end Repair

end Quicknet
