import Quicknet.InspectionOwnership
import Quicknet.RecoveryCycle

/-! The pass of a cycle. While the cycle awaits it, the coordinator runs the recovery that
the cycle called, at the anchor of the cycle, until that has returned. -/
namespace Quicknet

open Interaction Transition SignerCoordinator

/-- The anchor at which the operation of a write recovers. -/
def JournalWrite.recoveredAt : JournalWrite → Option BlockAnchor
  | .bootstrap _ anchor _ _ | .recovery _ _ anchor _ _ _ => some anchor
  | _ => none

def Event.recoversAt (anchor : BlockAnchor) : Event → Bool
  | .completed w _ => w.recoveredAt == some anchor
  | _ => false

/-- The suspended operation recovers at the anchor. -/
inductive PassTask (anchor : BlockAnchor) (range : ℕ) : Task → Prop
  | reading : PassTask anchor range (.recovering anchor range)
  | storing {w : JournalWrite} : w.recoveredAt = some anchor →
      PassTask anchor range (.storing (.own w))
  | saved {w : JournalWrite} : w.recoveredAt = some anchor → PassTask anchor range (.saved (.own w))

/-- How far the operation of the pass has come. `returned` is whether a recovery at the
anchor was completed since the pass started. -/
inductive PassPhase (anchor : BlockAnchor) (range : ℕ) (returned : Prop)
    (c : SignerCoordinator) : Option ActiveOperation → Option Task → Prop
  | queued : PassPhase anchor range returned c (some (.queued (.recover anchor range))) none
  | running {t : Task} : PassTask anchor range t → c.recoveryComplete = false →
      PassPhase anchor range returned c (some .running) (some t)
  | settled {failed : Bool} :
      (failed = false → c.recoveryComplete = true → returned) →
      PassPhase anchor range returned c (some (.settled failed)) none

/-- The inspection of the cycle, as long as it is the current one, runs the pass. -/
structure RunsPass (r : CycleRun) (returned : Prop) (c : SignerCoordinator) : Prop where
  generation : r.generation ≤ c.inspectionGeneration
  phase : ∀ o, c.inspectionOwner = some o → o.generation = r.generation →
    PassPhase r.anchor r.maxBlockRange returned c o.activeOperation c.task

section Steps

variable {lib : TransactionLibrary} {identity : JournalIdentity} {c c' : SignerCoordinator}
  {e : Option Event}

theorem JournalWrite.generation_of_recoveredAt {w : JournalWrite} {anchor : BlockAnchor}
    (h : w.recoveredAt = some anchor) : ∃ g, w.generation? = some g := by
  cases w with
  | bootstrap g _ _ _ => exact ⟨g, rfl⟩
  | recovery g _ _ _ _ _ => exact ⟨g, rfl⟩
  | _ => cases h

/-- A promise that has settled waits for its caller: until that resumes, the inspection
can at most be abandoned. -/
theorem coordinatorStep_settled {i : Input} {o : InspectionOwner} {failed : Bool}
    (h : coordinatorStep lib identity i c = some (c', e)) (hi : i.action ≠ .settleOperation)
    (ho : c.inspectionOwner = some o) (ha : o.activeOperation = some (.settled failed))
    (ht : c.task = none) :
    (∃ b, c'.inspectionOwner = some { o with abandoning := b }) ∧ c'.task = none ∧
      c'.recoveryComplete = c.recoveryComplete := by
  unfold coordinatorStep at h
  -- every other action needs a free coordinator, a registered call or a suspended operation
  split at h
  · simp [beginInspection, assertAvailable, ho] at h
  · simp [callOwned, owned, ho, ha, Option.bind_eq_some_iff] at h
  · simp [startOperation, ho, ha] at h
  · simp [answered, ho, ht] at h
  · exact absurd ‹_› hi
  · simp [finishInspection, owned, ho, ha, Option.bind_eq_some_iff] at h
  · simp only [abandonInspection, Option.bind_eq_some_iff] at h
    obtain ⟨o', _, h⟩ := h
    split_ifs at h
    obtain ⟨rfl, rfl⟩ := Prod.mk.inj (Option.some.inj h)
    refine ⟨⟨true, ?_⟩, ht, rfl⟩
    simp [revokeActionAuthorization, updateOwner, ho]
  · simp [completeAbandonment, ho, ha] at h
  · simp [prepareAttempt, assertAvailable, ho] at h
  · simp [signed, ht] at h
  · simp [broadcastAttempt, assertAvailable, ho] at h
  · simp [sendSettled, ht] at h
  · simp [retryPersistence, assertAvailable, ho] at h
  · simp [stored, ht] at h
  · simp [storeFailed, ht] at h
  · simp [resume, ht] at h
  · simp [beginObservation, assertAvailable, ho] at h
  · unfold endObservation at h
    split_ifs at h
    obtain ⟨rfl, rfl⟩ := Prod.mk.inj (Option.some.inj h)
    exact ⟨⟨o.abandoning, ho⟩, ht, rfl⟩
  all_goals cases h

theorem PassPhase.task {anchor : BlockAnchor} {range : ℕ} {returned : Prop}
    {a : Option ActiveOperation} {t : Task} (h : PassPhase anchor range returned c a (some t)) :
    PassTask anchor range t ∧ c.recoveryComplete = false ∧ a = some .running := by
  cases h with
  | running ht hr => exact ⟨ht, hr, rfl⟩

/-- Until the promise settles, each step of the coordinator takes the pass on. -/
theorem PassPhase.step {anchor : BlockAnchor} {range : ℕ} {returned : Prop}
    {o o' : InspectionOwner} (h : PassPhase anchor range returned c o.activeOperation c.task)
    (hstep : CoordinatorStep lib identity c e c')
    (hopen : ∀ failed, o.activeOperation ≠ some (.settled failed))
    (ho : c.inspectionOwner = some o) (ho' : c'.inspectionOwner = some o') :
    PassPhase anchor range (returned ∨ ∃ x, e = some x ∧ x.recoversAt anchor = true) c'
      o'.activeOperation c'.task := by
  have howner {p : InspectionOwner} (hp : c.inspectionOwner = some p) : o = p :=
    Option.some.inj (ho.symm.trans hp)
  have hnone (hno : c.inspectionOwner = none) : False := by
    rw [hno] at ho
    cases ho
  have htask {t : Task} (ht : c.task = some t) :
      PassTask anchor range t ∧ c.recoveryComplete = false ∧ o.activeOperation = some .running := by
    rw [ht] at h
    exact h.task
  have hactive {p : InspectionOwner} {a : Option ActiveOperation} (hp : c.inspectionOwner = some p)
      (ha : p.activeOperation = a) : PassPhase anchor range returned c a c.task := by
    rw [← ha, ← howner hp]
    exact h
  -- whoever fails, or ends without a write, leaves recovery incomplete
  have hended {d : SignerCoordinator} {failed : Bool} {q : Prop}
      (hr : failed = false → d.recoveryComplete = false) :
      PassPhase anchor range q d (some (.settled failed)) none := by
    apply PassPhase.settled
    intro hf hrec
    rw [hr hf] at hrec
    cases hrec
  have hsame (hr : c'.recoveryComplete = c.recoveryComplete)
      (ha : o'.activeOperation = o.activeOperation) (ht : c'.task = c.task) :
      PassPhase anchor range (returned ∨ ∃ x, e = some x ∧ x.recoversAt anchor = true) c'
        o'.activeOperation c'.task := by
    rw [ha, ht]
    generalize o.activeOperation = a at h
    generalize c.task = t at h
    cases h with
    | queued => exact .queued
    | running ht hrec => exact .running ht (hr.trans hrec)
    | settled hret => exact .settled fun hf hrec => Or.inl (hret hf (hr.symm.trans hrec))
  cases hstep with
  | begun hno _ _ _ => exact (hnone hno).elim
  | @owner p p' _ revoke hp hm =>
    obtain rfl := howner hp
    obtain rfl := Option.some.inj ho'
    cases hm with
    | queued _ ha _ _ => cases hactive hp ha
    | rejected ha _ =>
      have hq := hactive hp ha
      change PassPhase _ _ _ _ (some (.settled true)) c.task
      generalize c.task = task at hq
      cases hq with
      | queued =>
        apply hended
        intro hf
        cases hf
    | headRejected ha _ _ => cases hactive hp ha
    | settled ha _ => exact absurd ha (hopen _)
    | bracketFailed ha _ => exact absurd ha (hopen _)
    | abandoned _ => exact hsame rfl rfl rfl
  | finished _ _ _ _ _ _ _ _ => cases ho'
  | abandonmentCompleted _ _ _ => cases ho'
  | headOpening hp ha _ _ _ _ => cases hactive hp ha
  | headAnswered _ ht _ => cases (htask ht).1
  | recovering hp ha _ _ _ _ _ _ =>
    obtain rfl := Option.some.inj ho'
    have hq := hactive hp ha
    generalize c.task = task at hq
    cases hq with
    | queued => exact .running .reading rfl
  | inspecting hp ha _ _ _ _ _ _ _ _ => cases hactive hp ha
  | inspectionRefused hp ha _ _ _ => cases hactive hp ha
  | @recoverEnded p _ _ recovered _ _ _ hp ht hmono _ =>
    have hrec := (htask ht).2.1
    simp only [settle_inspectionOwner, hp, Option.map_some, Option.some.injEq] at ho'
    subst ho'
    apply hended
    intro _
    cases recovered with
    | false => rfl
    | true => exact absurd (hrec.symm.trans (hmono rfl)) (by simp)
  | inclusionsEnded _ ht _ _ _ => cases (htask ht).1
  | inclusionsFailed _ ht _ => cases (htask ht).1
  | signing hno _ _ _ _ _ _ => exact (hnone hno).elim
  | prepareEnded ht => cases (htask ht).1
  | wrote hplan _ _ =>
    cases hplan with
    | prepared ht _ _ => cases (htask ht).1
    | broadcast hs _ => exact (hnone hs.owner).elim
    | bootstrap _ ht _ _ =>
      obtain rfl := howner ho'
      obtain ⟨hq, hrec, ha⟩ := htask ht
      rw [ha]
      cases hq with
      | reading => exact .running (.storing rfl) hrec
    | recovery _ ht _ _ _ =>
      obtain rfl := howner ho'
      obtain ⟨hq, hrec, ha⟩ := htask ht
      rw [ha]
      cases hq with
      | reading => exact .running (.storing rfl) hrec
    | inclusions _ ht _ _ _ => cases (htask ht).1
  | broadcastEnded hs => exact (hnone hs.owner).elim
  | sentAgain hs _ => exact (hnone hs.owner).elim
  | retrying hno _ _ _ _ => exact (hnone hno).elim
  | acked ht _ =>
    obtain rfl := howner ho'
    obtain ⟨hq, hrec, ha⟩ := htask ht
    rw [ha]
    cases hq with
    | storing hw => exact .running (.saved hw) hrec
  | storeFailed ht hk _ _ _ =>
    cases (htask ht).1 with
    | storing hw =>
      obtain ⟨g, hg⟩ := JournalWrite.generation_of_recoveredAt hw
      exact absurd ((hk _ rfl).symm.trans hg) (by simp)
  | storeFailedOwned ht _ _ _ _ =>
    simp only [settle_inspectionOwner, ho, Option.map_some, Option.some.injEq] at ho'
    subst ho'
    apply hended
    intro hf
    cases hf
  | resumed ht hr =>
    cases (htask ht).1 with
    | saved hw =>
      obtain ⟨g, hg⟩ := JournalWrite.generation_of_recoveredAt hw
      rw [hr.owner, hg, ho] at ho'
      simp only [Option.isSome_some, if_true, Option.map_some, Option.some.injEq] at ho'
      subst ho'
      rw [hr.task]
      apply PassPhase.settled
      intro _ _
      exact Or.inr ⟨_, rfl, beq_iff_eq.mpr hw⟩
  | sentMarked ht =>
    cases (htask ht).1 with
    | saved hw => cases hw
  | retried ht => cases (htask ht).1
  | sendSettled ht => cases (htask ht).1
  | observing _ =>
    obtain rfl := howner ho'
    exact hsame rfl rfl rfl

/-- The step lemma of a pass. What settles, settles with recovery complete only if a recovery
at the anchor was completed. -/
theorem RunsPass.step {r : CycleRun} {returned : Prop} {i : Input} (h : RunsPass r returned c)
    (hown : OwnerPhase c.inspectionOwner c.task)
    (hcs : coordinatorStep lib identity i c = some (c', e)) (hi : i.action ≠ .settleOperation) :
    RunsPass r (returned ∨ ∃ x, e = some x ∧ x.recoversAt r.anchor = true) c' := by
  have hstep := coordinatorStep_cases hcs
  have hgen := h.generation
  cases hstep.link hown with
  | begun _ hg ho hnew _ =>
    refine ⟨by omega, ?_⟩
    intro o ho' ho_gen
    obtain rfl := Option.some.inj (ho.symm.trans ho')
    omega
  | released hg ho =>
    refine ⟨by omega, ?_⟩
    intro o ho'
    rw [ho] at ho'
    cases ho'
  | @kept o o' hg ho ho' hsame _ _ =>
    refine ⟨by omega, ?_⟩
    intro p hp hpg
    obtain rfl := Option.some.inj (ho'.symm.trans hp)
    have hphase := h.phase o ho (hsame.symm.trans hpg)
    by_cases hopen : ∀ failed, o.activeOperation ≠ some (.settled failed)
    · exact hphase.step hstep hopen ho ho'
    · push Not at hopen
      obtain ⟨failed, ha⟩ := hopen
      rw [ha] at hphase
      generalize htask : c.task = task at hphase
      cases hphase with
      | settled hret =>
        obtain ⟨⟨b, hb⟩, ht, hr⟩ := coordinatorStep_settled hcs hi ho ha htask
        obtain rfl := Option.some.inj (hb.symm.trans ho')
        rw [ha, ht]
        apply PassPhase.settled
        intro hf hrec
        exact Or.inl (hret hf (hr ▸ hrec))

/-- The call of the cycle. -/
theorem RunsPass.called {r : CycleRun} {returned : Prop} (hinv : OwnerInv c)
    (hown : OwnerPhase c.inspectionOwner c.task)
    (h : c.callOwned r.generation (.recover r.anchor r.maxBlockRange) = some (c', e)) :
    RunsPass r returned c' := by
  obtain ⟨o, ho, h⟩ := Option.bind_eq_some_iff.mp h
  split_ifs at h with hg
  obtain ⟨rfl, rfl⟩ := Prod.mk.inj (Option.some.inj h)
  obtain ⟨ho, hgen⟩ := owned_iff.mp ho
  simp only [Bool.and_eq_true, Option.isNone_iff_eq_none] at hg
  have htask : c.task = none := by
    rw [ho] at hown
    apply hown.task_none
    simp [hg.2]
  constructor
  · show r.generation ≤ c.inspectionGeneration
    rw [← hinv.generation o ho, hgen]
  · intro o' ho' _
    simp only [setActive, updateOwner, ho, Option.map_some, Option.some.injEq] at ho'
    subst ho'
    show PassPhase _ _ _ _ _ c.task
    rw [htask]
    exact .queued

/-- The pass has returned. -/
theorem RunsPass.returned {r : CycleRun} {returned : Prop} (h : RunsPass r returned c)
    (hs : c.settledOwned r.generation = some false) (hr : c.recoveryComplete = true) : returned := by
  obtain ⟨o, ho, hs⟩ := Option.bind_eq_some_iff.mp hs
  obtain ⟨ho, hgen⟩ := owned_iff.mp ho
  have hp := h.phase o ho hgen
  split at hs
  · rename_i ha
    obtain rfl := Option.some.inj hs
    rw [ha] at hp
    generalize c.task = task at hp
    cases hp with
    | settled hret => exact hret rfl hr
  · cases hs

theorem RunsPass.mono {r : CycleRun} {p q : Prop} (h : RunsPass r p c) (hpq : p → q) :
    RunsPass r q c := by
  refine ⟨h.generation, fun o ho hg => ?_⟩
  have hp := h.phase o ho hg
  generalize o.activeOperation = a at hp ⊢
  generalize c.task = task at hp ⊢
  cases hp with
  | queued => exact .queued
  | running ht hr => exact .running ht hr
  | settled hret => exact .settled fun hf hr => hpq (hret hf hr)

end Steps

end Quicknet
