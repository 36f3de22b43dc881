import Quicknet.LatchedBlockers

/-! The revision of committed content that the coordinator publishes. It is derived
again when a write is applied; a broadcast that goes on to send after it saved its
own marker applies the write without deriving it. -/
namespace Quicknet

open Interaction Transition SignerCoordinator

/-- A payload of an attempt that the same operation has just marked. The event
carries the attempt as it was captured, before the marker. -/
def Event.sendsMarked : Event → Bool
  | .sent a _ _ => a.phase == .signed
  | _ => false

/-- A broadcast marked its attempt and sent it, and no write has been applied nor
a journal loaded since. -/
def MarkedSince (tr : List Event) : Prop :=
  Since (fun e => e.sendsMarked = true) (fun e => e.isApplied = false) tr

/-- Attempts that no broadcast has marked. -/
def signedCount (s : Option TransactionJournalSnapshot) : ℕ :=
  s.elim 0 fun s => s.attempts.countP fun a => a.phase == .signed

/-- The content that the published revision was derived from. -/
inductive RevisionFrom (tr : List Event) (c : SignerCoordinator) : Prop
  | applied : ¬ MarkedSince tr →
      c.committedDurableRecoveryRevision =
        durableRecoveryRevision (view tr).applied c.blockers → RevisionFrom tr c
  | earlier {s : Option TransactionJournalSnapshot} : MarkedSince tr →
      signedCount (view tr).applied < signedCount s →
      c.committedDurableRecoveryRevision = durableRecoveryRevision s c.blockers →
      RevisionFrom tr c

section Content

theorem projectPhase_signed_iff {p : JournalPhase} :
    projectPhase p = .signed ↔ p = .signed := by
  cases p <;> simp [projectPhase]

theorem countP_projectAttempt (l : List JournalAttempt) :
    (l.map projectAttempt).countP (fun a => a.phase == .signed) =
      l.countP fun a => a.phase == .signed := by
  rw [List.countP_map]
  apply List.countP_congr
  intro a _
  simp [projectAttempt, projectPhase_signed_iff]

/-- Equal revisions leave equally many attempts unmarked. -/
theorem signedCount_eq_of_revision {s t : Option TransactionJournalSnapshot}
    {b : CoordinatorBlockers} (h : durableRecoveryRevision s b = durableRecoveryRevision t b) :
    signedCount s = signedCount t := by
  cases s with
  | none => cases t with
    | none => rfl
    | some t => cases h
  | some s => cases t with
    | none => cases h
    | some t =>
      obtain ⟨_, _, hattempts, _⟩ := DurableRecoveryRevision.present.inj h
      show s.attempts.countP _ = t.attempts.countP _
      rw [← countP_projectAttempt s.attempts, ← countP_projectAttempt t.attempts, hattempts]

/-- Marking takes the marked attempt out of the count. -/
theorem signedCount_markBroadcast {s : TransactionJournalSnapshot} {a : JournalAttempt}
    (hf : s.firstUnresolved = some a) (ha : a.phase = .signed) :
    signedCount (some { s with attempts := markBroadcast s.attempts }) < signedCount (some s) := by
  obtain ⟨front, back, hs, _, hm⟩ := markBroadcast_split hf
  show (markBroadcast s.attempts).countP _ < s.attempts.countP _
  rw [hm, hs]
  simp only [List.countP_append, List.countP_cons, ha, beq_self_eq_true, if_true]
  simp

end Content

section Steps

variable {lib : TransactionLibrary} {identity : JournalIdentity} {tr : List Event}
  {c c' : SignerCoordinator} {e : Option Event}

/-- The revision changes only where a write is applied, and is then the revision of
the committed journal. -/
theorem CoordinatorStep.revision_eq (h : CoordinatorStep lib identity c e c') :
    (c'.committedDurableRecoveryRevision = c.committedDurableRecoveryRevision ∧
      c'.blockers = c.blockers ∧ ∀ x, e = some x → x.isApplied = false) ∨
    ∃ x, e = some x ∧ x.isApplied = true ∧
      c'.committedDurableRecoveryRevision =
        durableRecoveryRevision c'.persistence.current c'.blockers := by
  rcases h.blockers_eq with ⟨hb, hx⟩ | ⟨k, x, ht, rfl, hx, hl, hb⟩
  · have hrev : c'.committedDurableRecoveryRevision = c.committedDurableRecoveryRevision := by
      cases h with
      | resumed _ _ => exact Bool.noConfusion (hx _ rfl)
      | retried _ => exact Bool.noConfusion (hx _ rfl)
      | wrote hplan _ _ => cases hplan <;> rfl
      | _ => rfl
    exact Or.inl ⟨hrev, hb, hx⟩
  · refine Or.inr ⟨x, rfl, hx, ?_⟩
    cases h with
    | resumed _ hr => rw [hr.revision, hr.persistence, hr.blockers]
    | retried _ => rfl
    | owner _ hm => cases hm <;> cases hx
    | headAnswered _ _ hout =>
      rcases hout with ⟨_, hn⟩ | ⟨_, hn⟩
      · cases hn
      · obtain rfl := Option.some.inj hn
        cases hx
    | _ => cases hx

/-- A payload is sent for an attempt captured unmarked exactly when the marker is the
write that the operation has saved. -/
theorem CoordinatorStep.sent_marker {a : JournalAttempt} {payload : Bytes}
    {blockers : CoordinatorBlockers} (hj : JournalInv (view tr) c)
    (h : CoordinatorStep lib identity c (some (.sent a payload blockers)) c') :
    a.phase ≠ .signed ∧ (view tr).unapplied = none ∨
      (view tr).unapplied = some (.broadcast a) := by
  have hphase := hj.phase
  cases h with
  | sentAgain hsend hph =>
    exact Or.inl ⟨hph, (hphase.rested hsend.busy hsend.pendingWrite).1⟩
  | sentMarked ht =>
    rw [ht] at hphase
    obtain ⟨_, _, _, w, hw, _, _, rfl, _⟩ := hphase
    exact Or.inr hw
  | owner _ hm => cases hm
  | headAnswered _ _ hout =>
    rcases hout with ⟨_, hx⟩ | ⟨_, hx⟩ <;> cases hx

theorem markedSince_append_iff {x : Event} : MarkedSince (tr ++ [x]) ↔
    x.sendsMarked = true ∨ MarkedSince tr ∧ x.isApplied = false :=
  since_append_singleton_iff

theorem view_applied_of_isApplied {x : Event} (h : x.isApplied = true) :
    (view (tr ++ [x])).applied = (view (tr ++ [x])).journal := by
  rw [view_append_singleton]
  cases x with
  | loaded _ => rfl
  | completed _ _ => rfl
  | retried => rfl
  | _ => cases h

/-- Events that neither apply a write nor send leave what was applied. -/
theorem RevisionFrom.keep {x : Event} (h : RevisionFrom tr c)
    (hrev : c'.committedDurableRecoveryRevision = c.committedDurableRecoveryRevision)
    (hb : c'.blockers = c.blockers) (hx : x.isApplied = false) (hs : x.sendsMarked = false)
    (hv : (view (tr ++ [x])).applied = (view tr).applied) : RevisionFrom (tr ++ [x]) c' := by
  have hmarked : MarkedSince (tr ++ [x]) ↔ MarkedSince tr := by
    rw [markedSince_append_iff]
    simp [hx, hs]
  cases h with
  | applied hm hr =>
    apply RevisionFrom.applied
    · rwa [hmarked]
    · rw [hrev, hb, hv]
      exact hr
  | earlier hm hlt hr =>
    apply RevisionFrom.earlier
    · rwa [hmarked]
    · rw [hv]
      exact hlt
    · rw [hrev, hb]
      exact hr

/-- A marker that is applied without deriving the revision leaves it at earlier
content, in which the marked attempt was still unmarked. -/
theorem RevisionFrom.marked {a : JournalAttempt} {payload : Bytes} {blockers : CoordinatorBlockers}
    (h : RevisionFrom tr c) (hv : ViewOk lib identity (view tr))
    (hu : (view tr).unapplied = some (.broadcast a))
    (hrev : c'.committedDurableRecoveryRevision = c.committedDurableRecoveryRevision)
    (hb : c'.blockers = c.blockers) : RevisionFrom (tr ++ [.sent a payload blockers]) c' := by
  obtain ⟨_, t, hjournal, hw⟩ := hv.unapplied _ hu
  generalize happ : (view tr).applied = base at hw
  obtain ⟨s, hf, hph⟩ : ∃ s, base = some s ∧ signedCount (some t) < signedCount base ∧
      a.phase = .signed := by
    cases hw with
    | broadcast hf hph _ => exact ⟨_, rfl, signedCount_markBroadcast hf hph, hph⟩
  have hmarked : MarkedSince (tr ++ [.sent a payload blockers]) := by
    rw [markedSince_append_iff]
    exact Or.inl (beq_iff_eq.mpr hph.2)
  have happ' : (view (tr ++ [.sent a payload blockers])).applied = some t := by
    rw [view_append_singleton]
    exact hjournal
  cases h with
  | applied _ hr =>
    refine .earlier (s := (view tr).applied) hmarked ?_ (by rw [hrev, hb, hr])
    rw [happ', happ]
    exact hph.1
  | @earlier s' _ hlt hr =>
    refine .earlier (s := s') hmarked ?_ (by rw [hrev, hb, hr])
    rw [happ] at hlt
    rw [happ']
    exact hph.1.trans hlt

/-- The step lemma: whatever the coordinator does, its revision is that of what was
applied last, or of earlier content when a marker was sent since. -/
theorem RevisionFrom.step (h : RevisionFrom tr c) (hr : Reached lib identity tr c)
    (hr' : Reached lib identity (tr ++ e.toList) c') (hstep : CoordinatorStep lib identity c e c') :
    RevisionFrom (tr ++ e.toList) c' := by
  rcases hstep.revision_eq with ⟨hrev, hb, hx⟩ | ⟨x, rfl, hx, hrev⟩
  · cases e with
    | none =>
      simp only [Option.toList_none, List.append_nil]
      cases h with
      | applied hm hc => exact .applied hm (by rw [hrev, hb, hc])
      | earlier hm hlt hc => exact .earlier hm hlt (by rw [hrev, hb, hc])
    | some x =>
      have hxf := hx x rfl
      cases x with
      | loaded _ => cases hxf
      | completed _ _ => cases hxf
      | retried => cases hxf
      | sent a payload blockers =>
        rcases CoordinatorStep.sent_marker hr.journal hstep with ⟨hph, hu⟩ | hu
        · refine h.keep hrev hb rfl (beq_eq_false_iff_ne.mpr hph) ?_
          rw [view_append_singleton]
          exact (hr.trace.viewOk.applied hu).symm
        · exact h.marked hr.trace.viewOk hu hrev hb
      | _ => exact h.keep hrev hb rfl rfl (by rw [view_append_singleton]; rfl)
  · apply RevisionFrom.applied
    · rw [Option.toList_some, markedSince_append_iff, hx]
      cases x <;> simp_all [Event.isApplied, Event.sendsMarked]
    · rw [hrev, hr'.journal.current]
      rw [Option.toList_some, view_applied_of_isApplied hx]

theorem Created.revisionFrom {read : Option TransactionJournalSnapshot} (h : Created read c) :
    RevisionFrom (tr ++ [.loaded read]) c := by
  apply RevisionFrom.applied
  · rw [markedSince_append_iff]
    simp [Event.isApplied, Event.sendsMarked]
  · rw [h.revision, view_append_singleton]
    rfl

end Steps

section Freshness

variable (lib : TransactionLibrary) (identity : JournalIdentity)

theorem runSigner_revisionFrom (is : List Input) {c : SignerCoordinator}
    (hc : (runSigner lib identity is).1 = .running c) :
    RevisionFrom (runSigner lib identity is).2 c := by
  refine (runSigner_running lib identity (fun tr c => RevisionFrom tr c) (fun _ _ => True)
    ?_ ?_ (by simp) (by simp) (by simp) is).2 c hc
  · intro tr read c hcreated _
    exact hcreated.revisionFrom
  · intro tr c e c' hr hr' h hstep
    exact ⟨fun _ _ => trivial, h.step hr hr' hstep⟩

/-- Between operations every acknowledged write has been applied. -/
theorem runSigner_applied (is : List Input) {c : SignerCoordinator}
    (hc : (runSigner lib identity is).1 = .running c) (htask : c.task = none) :
    (view (runSigner lib identity is).2).applied = c.persistence.current := by
  have hreach := runSigner_reached lib identity is hc
  have hphase := hreach.journal.phase
  rw [htask] at hphase
  rw [hreach.journal.current]
  exact hreach.trace.viewOk.applied hphase.2.1

theorem runSigner_fresh (is : List Input) {c : SignerCoordinator}
    (hc : (runSigner lib identity is).1 = .running c) (htask : c.task = none)
    (hm : ¬ MarkedSince (runSigner lib identity is).2) :
    c.committedDurableRecoveryRevision =
      durableRecoveryRevision c.persistence.current c.blockers := by
  rw [← runSigner_applied lib identity is hc htask]
  cases runSigner_revisionFrom lib identity is hc with
  | applied _ hr => exact hr
  | earlier hmarked => exact absurd hmarked hm

/-- With no operation in progress, the published revision is that of the committed
journal and the latched blockers, unless a broadcast has marked its attempt and sent
it since a write was applied or the journal loaded. -/
theorem revision_fresh_iff (is : List Input) {c : SignerCoordinator}
    (hc : (runSigner lib identity is).1 = .running c) (htask : c.task = none) :
    c.committedDurableRecoveryRevision =
        durableRecoveryRevision c.persistence.current c.blockers ↔
      ¬ MarkedSince (runSigner lib identity is).2 := by
  refine ⟨fun heq hm => ?_, runSigner_fresh lib identity is hc htask⟩
  cases runSigner_revisionFrom lib identity is hc with
  | applied hnot => exact hnot hm
  | @earlier s _ hlt hr =>
    -- the content it shows has more attempts that are only signed
    rw [runSigner_applied lib identity is hc htask] at hlt
    have hcount := signedCount_eq_of_revision (hr.symm.trans heq)
    omega

section Sample

/-- The first broadcast of an attempt, settled. -/
def broadcastRun : List Input := (sampleActions ++ [Action.sendSettled]).map (⟨1, ·⟩)

/-- The coordinator rests, and its revision still shows the attempt unmarked. -/
theorem broadcastRun_stale : ∃ c,
    (runSigner sampleLibrary sampleIdentity broadcastRun).1 = .running c ∧ c.task = none ∧
    c.busy = false ∧ c.inspectionOwner = none ∧ c.persistence.state = .idle ∧
    c.committedDurableRecoveryRevision ≠
      durableRecoveryRevision c.persistence.current c.blockers :=
  ⟨_, rfl, rfl, rfl, rfl, rfl, by decide⟩

theorem broadcastRun_marked : MarkedSince (runSigner sampleLibrary sampleIdentity broadcastRun).2 := by
  by_contra hm
  have hfresh := (revision_fresh_iff sampleLibrary sampleIdentity broadcastRun rfl rfl).mpr hm
  revert hfresh
  decide

end Sample

end Freshness

end Quicknet
