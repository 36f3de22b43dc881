import Quicknet.FailedOperations

/-! A save that failed: the snapshot is retained until a retry saves it, and what
authorized an action before it has to be established again. -/
namespace Quicknet

open Interaction Transition SignerCoordinator

/-- An inspection that has not run an operation found persistence idle. -/
def FreshIdle (c : SignerCoordinator) : Prop :=
  ∀ o, c.inspectionOwner = some o → o.hasRunOperation = false → c.persistence.state = .idle

/-- The snapshot of a failed save, kept until a retry is acknowledged. -/
structure Retained (current : Option TransactionJournalSnapshot) (s : TransactionJournalSnapshot)
    (c : SignerCoordinator) : Prop where
  current : c.persistence.current = current
  pending : c.persistence.pending = some s
  pendingWrite : c.pendingWrite ≠ none
  phase : c.persistence.state = .failed ∧ c.task = none ∨
    c.persistence.state = .writing ∧ c.task = some (.storing .retry)

section Retain

variable {lib : TransactionLibrary} {identity : JournalIdentity} {c c' : SignerCoordinator}
  {e : Option Event}

theorem FreshIdle.of_owner {f : InspectionOwner → InspectionOwner} (h : FreshIdle c)
    (hp : c'.persistence.state = c.persistence.state)
    (ho : c'.inspectionOwner = c.inspectionOwner.map f)
    (hf : ∀ o, (f o).hasRunOperation = false → o.hasRunOperation = false) : FreshIdle c' := by
  intro o hsome hr
  rw [ho, Option.map_eq_some_iff] at hsome
  obtain ⟨o₀, hsome, rfl⟩ := hsome
  rw [hp]
  exact h o₀ hsome (hf o₀ hr)

theorem FreshIdle.of_same (h : FreshIdle c) (hp : c'.persistence.state = c.persistence.state)
    (ho : c'.inspectionOwner = c.inspectionOwner) : FreshIdle c' := by
  intro o hsome hr
  rw [hp]
  exact h o (ho ▸ hsome) hr

theorem FreshIdle.of_none (h : c.inspectionOwner = none) : FreshIdle c := by
  intro o hsome
  rw [h] at hsome
  cases hsome

theorem FreshIdle.step (ho : OwnerPhase c.inspectionOwner c.task) (h : FreshIdle c)
    (hstep : CoordinatorStep lib identity c e c') : FreshIdle c' := by
  -- the owner of a write has run the operation that planned it
  have hran {w : JournalWrite} {g : ℕ} {o : InspectionOwner} (hown : OwnsWrite c.inspectionOwner w)
      (hg : w.generation? = some g) (hsome : c.inspectionOwner = some o) :
      o.hasRunOperation = true := by
    unfold OwnsWrite at hown
    rw [hg] at hown
    obtain ⟨x, hx, _, hr, _⟩ := hown
    rw [← Option.some.inj (hsome.symm.trans hx)] at hr
    exact hr
  cases hstep with
  | begun _ _ _ hidle => exact fun _ _ _ => hidle
  | @owner o o' _ _ hsome hm =>
    intro x hx hr
    obtain rfl := Option.some.inj hx
    exact h o hsome (hm.hasRun hr)
  | finished _ _ _ _ _ _ _ _ => exact .of_none rfl
  | abandonmentCompleted _ _ _ => exact .of_none rfl
  | @headOpening o _ _ hsome _ _ _ _ _ =>
    intro x hx hr
    obtain rfl := Option.some.inj hx
    exact h o hsome hr
  | @headAnswered o _ _ _ _ _ hsome _ _ =>
    intro x hx hr
    obtain rfl := Option.some.inj hx
    exact h o hsome hr
  | recovering _ _ _ _ _ _ _ hidle => exact fun _ _ _ => hidle
  | inspecting _ _ _ _ _ _ _ hidle _ _ => exact fun _ _ _ => hidle
  | inspectionRefused _ _ _ _ hidle => exact fun _ _ _ => hidle
  | recoverEnded _ _ _ _ => exact h.of_owner rfl rfl fun _ hr => hr
  | inclusionsEnded _ _ _ _ _ => exact h.of_owner rfl rfl fun _ hr => hr
  | @inclusionsFailed o _ _ _ _ hsome _ _ =>
    intro x hx hr
    obtain rfl := Option.some.inj hx
    exact h o hsome hr
  | signing hno _ _ _ _ _ _ => exact .of_none hno
  | prepareEnded _ => exact h.of_same rfl rfl
  | @wrote w _ _ _ hplan hidle _ =>
    have hown := hplan.ownsWrite ho
    have hsame : ∀ {d : SignerCoordinator} {k : PendingWrite} {n : TransactionJournalSnapshot},
        Planned lib identity c w k n d → d.inspectionOwner = c.inspectionOwner := by
      intro d k n hd
      cases hd <;> rfl
    rw [hsame hplan] at hown
    intro o hsome hr
    have hsome' : c.inspectionOwner = some o := by
      rw [← hsame hplan]
      exact hsome
    cases hg : w.generation? with
    | none =>
      unfold OwnsWrite at hown
      simp only [hg] at hown
      exact absurd (hown.symm.trans hsome') (by simp)
    | some g => exact absurd ((hran hown hg hsome').symm.trans hr) (by simp)
  | broadcastEnded hsend => exact .of_none hsend.owner
  | sentAgain hsend _ => exact .of_none hsend.owner
  | retrying hno _ _ _ _ => exact .of_none hno
  | acked _ _ => exact fun _ _ _ => rfl
  | @storeFailed k _ _ _ hk hgen _ _ _ =>
    rw [hk] at ho
    cases k with
    | retry => exact .of_none ho
    | own w =>
      unfold OwnerPhase OwnsWrite at ho
      simp only [hgen w rfl] at ho
      exact .of_none ho
  | @storeFailedOwned w g _ _ _ hk hg _ _ _ =>
    rw [hk] at ho
    intro x hx hr
    simp only [settle_inspectionOwner, Option.map_eq_some_iff] at hx
    obtain ⟨o, hsome, rfl⟩ := hx
    exact absurd ((hran ho hg hsome).symm.trans hr) (by simp)
  | @resumed w _ _ hk hr =>
    have howner := hr.owner
    cases hg : w.generation? with
    | none =>
      simp only [hg, Option.isSome_none, Bool.false_eq_true, if_false] at howner
      exact h.of_same (by rw [hr.persistence]) howner
    | some g =>
      simp only [hg, Option.isSome_some, if_true] at howner
      exact h.of_owner (by rw [hr.persistence]) howner fun _ hr => hr
  | sentMarked _ => exact h.of_same rfl rfl
  | retried _ => exact h.of_same rfl rfl
  | sendSettled _ => exact h.of_same rfl rfl
  | observing _ => exact h.of_same rfl rfl

/-- Until the retry is acknowledged nothing else is written or sent. -/
theorem Retained.step {current : Option TransactionJournalSnapshot}
    {s : TransactionJournalSnapshot} (hfresh : FreshIdle c) (h : Retained current s c)
    (hstep : CoordinatorStep lib identity c e c') :
    (Retained current s c' ∧ ∀ x, e = some x → x.voids = true) ∨ e = some (.acked s) := by
  -- what most steps need is ruled out: an idle file, no pending write, another task than the retry
  have hnotIdle {p : Prop} (hidle : c.persistence.state = .idle) : p := by
    rcases h.phase with ⟨hst, _⟩ | ⟨hst, _⟩
    · exact absurd (hst.symm.trans hidle) (by simp)
    · exact absurd (hst.symm.trans hidle) (by simp)
  have hnoWrite {p : Prop} (hp : c.pendingWrite = none) : p := absurd hp h.pendingWrite
  have htask {t : Task} {p : Prop} (hk : c.task = some t) (hne : t ≠ .storing .retry) : p := by
    rcases h.phase with ⟨_, ht⟩ | ⟨_, ht⟩
    · exact absurd (ht.symm.trans hk) (by simp)
    · exact absurd (Option.some.inj (ht.symm.trans hk)).symm hne
  have hframe (hp : c'.persistence = c.persistence) (hw : c'.pendingWrite = c.pendingWrite)
      (ht : c'.task = c.task) : Retained current s c' :=
    ⟨by rw [hp]; exact h.current, by rw [hp]; exact h.pending, by rw [hw]; exact h.pendingWrite,
      by rw [hp, ht]; exact h.phase⟩
  cases hstep with
  | begun _ _ _ hidle => exact hnotIdle hidle
  | owner _ hm =>
    refine Or.inl ⟨hframe rfl rfl rfl, ?_⟩
    intro x hx
    cases hm <;> cases hx <;> rfl
  | finished _ _ _ _ _ _ _ hidle => exact hnotIdle hidle
  | abandonmentCompleted _ _ _ => exact Or.inl ⟨hframe rfl rfl rfl, by simp⟩
  | headOpening hsome _ _ _ hr _ => exact hnotIdle (hfresh _ hsome hr)
  | headAnswered _ hk _ => exact htask hk (by simp)
  | recovering _ _ _ _ _ _ hp _ => exact hnoWrite hp
  | inspecting _ _ _ _ _ _ hp _ _ _ => exact hnoWrite hp
  | inspectionRefused _ _ _ hp _ => exact hnoWrite hp
  | recoverEnded _ hk _ _ => exact htask hk (by simp)
  | inclusionsEnded _ hk _ _ _ => exact htask hk (by simp)
  | inclusionsFailed _ hk _ => exact htask hk (by simp)
  | signing _ _ hp _ _ _ _ => exact hnoWrite hp
  | prepareEnded hk => exact htask hk (by simp)
  | wrote _ hidle _ => exact hnotIdle hidle
  | broadcastEnded hsend => exact hnotIdle hsend.idle
  | sentAgain hsend _ => exact hnotIdle hsend.idle
  | retrying _ _ _ _ _ =>
    exact Or.inl ⟨⟨h.current, h.pending, h.pendingWrite, Or.inr ⟨rfl, rfl⟩⟩, by simp⟩
  | acked _ hs =>
    obtain rfl := Option.some.inj (h.pending.symm.trans hs)
    exact Or.inr rfl
  | storeFailed _ _ _ _ _ =>
    exact Or.inl ⟨⟨h.current, h.pending, h.pendingWrite, Or.inl ⟨rfl, rfl⟩⟩, by simp⟩
  | storeFailedOwned hk _ _ _ _ => exact htask hk (by simp)
  | resumed hk _ => exact htask hk (by simp)
  | sentMarked hk => exact htask hk (by simp)
  | retried hk => exact htask hk (by simp)
  | sendSettled hk => exact htask hk (by simp)
  | observing _ => exact Or.inl ⟨hframe rfl rfl rfl, by simp⟩

end Retain

/-! What has to be established again after a retry. -/

/-- A save that failed is being retried, or waits for its retry. -/
def RetryDue (c : SignerCoordinator) : Prop :=
  c.persistence.state = .failed ∨ c.task = some (.storing .retry) ∨ c.task = some (.saved .retry)

/-- The write that is not acknowledged, or acknowledged and not yet applied. -/
def JournalView.outstanding (v : JournalView) : Option JournalWrite :=
  (v.pending.map (·.1)).orElse fun _ => v.unapplied

/-- An event of a completed operation of kind `K`. -/
def Completed (K : JournalWrite → Prop) (e : Event) : Prop :=
  ∃ w permit, e = .completed w permit ∧ K w

/-- Whether the failed write was that of an inclusion pass, which leaves recovery
complete. -/
def KeepsRecovery (w : JournalWrite) : Prop := w.checks.isSome = true

structure RetryInv (tr : List Event) (c : SignerCoordinator) : Prop where
  due : c.recoveryComplete = true → RetryDue c →
    ∃ w, (view tr).outstanding = some w ∧ KeepsRecovery w
  recovered : c.recoveryComplete = true → ∀ pre post, tr = pre ++ .retried :: post →
    (∃ w, (view pre).unapplied = some w ∧ KeepsRecovery w) ∨
      ∃ e ∈ post, Completed (fun w => w.recovers = true) e
  permit : c.broadcastPermit ≠ none → Since (Completed IsPass) (· ≠ .retried) tr
  preparing : Preparing c.task → Since (Completed IsInclusionPass) (· ≠ .retried) tr

section After

variable {lib : TransactionLibrary} {identity : JournalIdentity} {c c' : SignerCoordinator}
  {e : Option Event} {tr : List Event}

theorem Checked.since (h : Checked tr) : Since (Completed IsInclusionPass) (· ≠ .retried) tr := by
  apply h.mono
  · rintro x ⟨w, permit, rfl, hw⟩
    exact ⟨w, permit, rfl, hw⟩
  · rintro x hx rfl
    cases hx

theorem RetryInv.preparing_step (ha : ActionInv tr c) (h : RetryInv tr c)
    (hstep : CoordinatorStep lib identity c e c') :
    Preparing c'.task → Since (Completed IsInclusionPass) (· ≠ .retried) (tr ++ e.toList) := by
  refine Quicknet.preparing_step ha.owner ?_ h.preparing ?_ hstep
  · exact fun _ hc => (ha.checked (Or.inl hc)).since
  · exact fun x _ hx hv => hv.append_singleton hx

theorem RetryInv.permit_step (hi : JournalInv (view tr) c) (ha : ActionInv tr c)
    (h : RetryInv tr c) (hstep : CoordinatorStep lib identity c e c') :
    c'.broadcastPermit ≠ none → Since (Completed IsPass) (· ≠ .retried) (tr ++ e.toList) := by
  intro hp'
  obtain ⟨_, hauth⟩ := ha.authorization.step hi ha.owner hstep
  cases hauth with
  | revoked hun _ => exact absurd hun.1 hp'
  | kept he hpermit _ _ =>
    rw [he]
    change Since _ _ (tr ++ [])
    rw [List.append_nil]
    obtain ⟨id, hid⟩ := Option.ne_none_iff_exists'.mp hp'
    apply h.permit
    rw [hpermit id hid]
    simp
  | finished _ _ he hpermit _ _ =>
    rw [hpermit] at hp'
    rw [he]
    exact (h.permit hp').append_singleton (by simp)
  | @resumed w permit hun ht he hr =>
    rw [he]
    rw [hr.broadcastPermit, hun.1] at hp'
    cases permit with
    | none => exact absurd rfl hp'
    | some id =>
      rcases (hr.permits id rfl).isPass with ⟨a, rfl⟩ | ⟨hw, _⟩
      · -- behind the gate of a preparation stands an inclusion pass
        have hpass := h.preparing (by rw [ht]; trivial)
        have hmono : Since (Completed IsPass) (· ≠ .retried) tr := by
          apply hpass.mono _ fun _ hx => hx
          rintro x ⟨w, permit, rfl, hw⟩
          exact ⟨w, permit, rfl, hw.isPass⟩
        exact hmono.append_singleton (by simp)
      · exact since_here tr ⟨w, some id, rfl, hw⟩

/-- Recovery becomes complete only with a write that recovers. -/
theorem CoordinatorStep.recoveryComplete (hstep : CoordinatorStep lib identity c e c')
    (h : c'.recoveryComplete = true) : c.recoveryComplete = true ∨
      ∃ w permit, e = some (.completed w permit) ∧ w.recovers = true := by
  cases hstep with
  | recovering _ _ _ _ _ _ _ _ => cases h
  | recoverEnded _ _ hmono _ => exact Or.inl (hmono h)
  | inclusionsEnded _ _ hmono _ _ => exact Or.inl (hmono h)
  | inclusionsFailed _ _ hmono => exact Or.inl (hmono h)
  | wrote hplan _ _ =>
    cases hplan with
    | broadcast _ _ => cases h
    | _ => exact Or.inl h
  | broadcastEnded _ => cases h
  | sentAgain _ _ => cases h
  | storeFailed _ _ hmono _ _ => exact Or.inl (hmono h)
  | storeFailedOwned _ _ hmono _ _ => exact Or.inl (hmono h)
  | @resumed w permit _ _ hr =>
    rw [hr.recovered, Bool.or_eq_true] at h
    exact h.symm.imp (fun hc => hc) fun hw => ⟨w, permit, rfl, hw⟩
  | _ => exact Or.inl h

/-- The write that a save in flight belongs to. -/
theorem TaskPhase.storing {v : JournalView} {w : JournalWrite}
    (h : TaskPhase v c (some (.storing (.own w)))) :
    v.outstanding = some w ∧ w.isRepair = false := by
  obtain ⟨_, _, _, w', t, hp, _, hrepair, hawaits⟩ := h
  obtain rfl : w = w' := hawaits.1
  exact ⟨by simp [JournalView.outstanding, hp], hrepair⟩

theorem RetryInv.due_step (hi : JournalInv (view tr) c) (ha : ActionInv tr c) (h : RetryInv tr c)
    (hstep : CoordinatorStep lib identity c e c') (hr' : c'.recoveryComplete = true)
    (hd' : RetryDue c') :
    ∃ w, (view (tr ++ e.toList)).outstanding = some w ∧ KeepsRecovery w := by
  have hphase := hi.phase
  have hview (he : ∀ x, e = some x → ∀ v : JournalView, v.advance x = v) :
      view (tr ++ e.toList) = view tr := by
    cases e with
    | none => simp
    | some x => exact (view_append_singleton tr x).trans (he x rfl _)
  have hkeep (hr : c.recoveryComplete = true) (hd : RetryDue c)
      (he : ∀ x, e = some x → ∀ v : JournalView, v.advance x = v) :
      ∃ w, (view (tr ++ e.toList)).outstanding = some w ∧ KeepsRecovery w := by
    rw [hview he]
    exact h.due hr hd
  have hone {x : Event} (hx : ∀ v : JournalView, v.advance x = v) :
      ∀ y, some x = some y → ∀ v : JournalView, v.advance y = v := by
    intro y hy
    rw [← Option.some.inj hy]
    exact hx
  -- the new task awaits no retry, so persistence had failed before the step
  have hstate (hp : c'.persistence.state = c.persistence.state)
      (ht : c'.task ≠ some (.storing .retry) ∧ c'.task ≠ some (.saved .retry)) : RetryDue c := by
    rcases hd' with hf | hf | hf
    · exact Or.inl (hp ▸ hf)
    · exact absurd hf ht.1
    · exact absurd hf ht.2
  have hidle {p : Prop} (hp : c'.persistence.state = .idle)
      (ht : c'.task ≠ some (.storing .retry) ∧ c'.task ≠ some (.saved .retry)) : p := by
    rcases hd' with hf | hf | hf
    · exact absurd (hp.symm.trans hf) (by simp)
    · exact absurd hf ht.1
    · exact absurd hf ht.2
  cases hstep with
  | begun _ _ _ _ => exact hkeep hr' hd' (hone fun _ => rfl)
  | owner _ hm =>
    refine hkeep hr' hd' ?_
    cases hm <;> first | exact hone fun _ => rfl | simp
  | finished _ _ _ _ _ _ _ _ => exact hkeep hr' hd' (hone fun _ => rfl)
  | abandonmentCompleted _ _ _ => exact hkeep hr' hd' (by simp)
  | headOpening _ _ _ _ _ _ => exact hkeep hr' (hstate rfl (by simp)) (by simp)
  | headAnswered _ _ hout =>
    refine hkeep hr' (hstate rfl (by simp)) ?_
    rcases hout with ⟨_, rfl⟩ | ⟨_, rfl⟩
    · simp
    · exact hone fun _ => rfl
  | recovering _ _ _ _ _ _ _ _ => cases hr'
  | inspecting _ _ _ _ _ _ _ _ _ _ => exact hkeep hr' (hstate rfl (by simp)) (by simp)
  | inspectionRefused _ _ _ _ _ => exact hkeep hr' (hstate rfl (by simp)) (by simp)
  | recoverEnded _ _ hmono _ => exact hkeep (hmono hr') (hstate rfl (by simp)) (by simp)
  | inclusionsEnded _ _ hmono _ _ => exact hkeep (hmono hr') (hstate rfl (by simp)) (by simp)
  | inclusionsFailed _ _ hmono =>
    exact hkeep (hmono hr') (hstate rfl (by simp)) (hone fun _ => rfl)
  | signing _ _ _ _ _ _ _ => exact hkeep hr' (hstate rfl (by simp)) (by simp)
  | prepareEnded _ => exact hkeep hr' (hstate rfl (by simp)) (by simp)
  | wrote _ _ _ =>
    rcases hd' with hf | hf | hf
    · cases hf
    · cases hf
    · cases hf
  | broadcastEnded _ => cases hr'
  | sentAgain _ _ => cases hr'
  | retrying _ _ _ hf _ => exact hkeep hr' (Or.inl hf) (by simp)
  | @acked k s hk _ =>
    have hretry : k = .retry := by
      rcases hd' with hf | hf | hf
      · cases hf
      · cases hf
      · simpa using hf
    subst hretry
    obtain ⟨w, hw, hkeeps⟩ := h.due hr' (Or.inr (Or.inl hk))
    rw [hk] at hphase
    obtain ⟨_, _, _, w', t, hp, _⟩ := hphase
    refine ⟨w, ?_, hkeeps⟩
    change (view (tr ++ [.acked s])).outstanding = some w
    rw [view_append_singleton]
    simp only [JournalView.outstanding, hp, Option.map_some, Option.orElse_some] at hw
    simp only [JournalView.outstanding, JournalView.advance, hp, Option.map_some, Option.map_none]
    exact hw
  | @storeFailed k _ _ _ hk hgen hmono _ hprep =>
    cases k with
    | retry => exact hkeep (hmono hr') (Or.inr (Or.inl hk)) (by simp)
    | own w =>
      -- no write of an operation without an owner leaves recovery complete
      exfalso
      rw [hk] at hphase
      obtain ⟨_, hrepair⟩ := hphase.storing
      have hnone := hgen w rfl
      have htask := ha.task
      rw [hk] at htask
      cases w with
      | prepared a => exact hprep hr' a rfl
      | broadcast a => exact absurd (htask.1.symm.trans (hmono hr')) (by simp)
      | repair o => cases hrepair
      | _ => cases hnone
  | @storeFailedOwned w _ _ _ _ hk _ _ _ hchecks =>
    rw [hk] at hphase
    refine ⟨w, ?_, hchecks hr'⟩
    change (view (tr ++ [])).outstanding = some w
    rw [List.append_nil]
    exact hphase.storing.1
  | resumed hk hr =>
    rw [hk] at hphase
    exact hidle (by rw [hr.persistence]; exact hphase.2.1) (by simp [hr.task])
  | sentMarked hk =>
    rw [hk] at hphase
    exact hidle hphase.2.1 (by simp)
  | retried hk =>
    rw [hk] at hphase
    exact hidle hphase.2.1 (by simp)
  | sendSettled _ => exact hkeep hr' (hstate rfl (by simp)) (by simp)
  | observing _ => exact hkeep hr' hd' (by simp)

theorem RetryInv.recovered_step (hi : JournalInv (view tr) c) (h : RetryInv tr c)
    (hstep : CoordinatorStep lib identity c e c') (hr' : c'.recoveryComplete = true) :
    ∀ pre post, tr ++ e.toList = pre ++ .retried :: post →
      (∃ w, (view pre).unapplied = some w ∧ KeepsRecovery w) ∨
        ∃ x ∈ post, Completed (fun w => w.recovers = true) x := by
  intro pre post hsplit
  rcases hstep.recoveryComplete hr' with hr | ⟨w, permit, rfl, hw⟩
  · cases e with
    | none =>
      rw [Option.toList_none, List.append_nil] at hsplit
      exact h.recovered hr pre post hsplit
    | some x =>
      rcases append_singleton_split hsplit with ⟨rfl, rfl, _⟩ | ⟨post', rfl, hpre⟩
      · -- the retry that is applied now
        have hk : c.task = some (.saved .retry) := by
          generalize hx : (some Event.retried) = y at hstep
          cases hstep with
          | retried hk => exact hk
          | owner _ hm => cases hm <;> cases hx
          | headAnswered _ _ hout => rcases hout with ⟨_, rfl⟩ | ⟨_, rfl⟩ <;> cases hx
          | _ => cases hx
        obtain ⟨w, hw, hkeeps⟩ := h.due hr (Or.inr (Or.inr hk))
        have hphase := hi.phase
        rw [hk] at hphase
        have hp := hphase.2.2.1
        simp only [JournalView.outstanding, hp, Option.map_none] at hw
        exact Or.inl ⟨w, hw, hkeeps⟩
      · rcases h.recovered hr pre post' hpre with hleft | ⟨y, hy, hcompleted⟩
        · exact Or.inl hleft
        · exact Or.inr ⟨y, List.mem_append_left _ hy, hcompleted⟩
  · rcases append_singleton_split hsplit with ⟨_, hx, _⟩ | ⟨post', rfl, _⟩
    · cases hx
    · exact Or.inr ⟨_, List.mem_append_right _ (List.mem_singleton.mpr rfl), w, permit, rfl, hw⟩

theorem RetryInv.step (hi : JournalInv (view tr) c) (ha : ActionInv tr c) (h : RetryInv tr c)
    (hstep : CoordinatorStep lib identity c e c') : RetryInv (tr ++ e.toList) c' :=
  ⟨h.due_step hi ha hstep, h.recovered_step hi hstep, h.permit_step hi ha hstep,
    h.preparing_step ha hstep⟩

end After

section Runs

variable (lib : TransactionLibrary) (identity : JournalIdentity)

/-- What every reachable coordinator satisfies about a save that failed. -/
structure FailureInv (tr : List Event) (c : SignerCoordinator) : Prop where
  action : ActionInv tr c
  fresh : FreshIdle c
  retry : RetryInv tr c

theorem runSigner_failure (is : List Input) {c : SignerCoordinator}
    (hc : (runSigner lib identity is).1 = .running c) :
    FailureInv (runSigner lib identity is).2 c := by
  refine (runSigner_running lib identity FailureInv (fun _ _ => True) ?_ ?_
    (fun _ _ => trivial) (fun _ _ => trivial) (fun _ _ _ => trivial) is).2 c hc
  · intro tr read c h _
    refine ⟨h.actionInv, .of_none h.owner, ?_, ?_, ?_, ?_⟩
    · exact fun hr => absurd (h.recoveryComplete.symm.trans hr) (by simp)
    · exact fun hr => absurd (h.recoveryComplete.symm.trans hr) (by simp)
    · exact fun hp => absurd h.broadcastPermit hp
    · intro hp
      rw [h.task] at hp
      cases hp
  · intro tr c e c' hr _ h hstep
    refine ⟨fun _ _ => trivial, h.action.step hr.journal hstep, ?_, ?_⟩
    · exact h.fresh.step h.action.owner hstep
    · exact h.retry.step hr.journal h.action hstep

variable {lib identity} {is : List Input} {c : SignerCoordinator}

/-- A failed save leaves its snapshot behind, and nothing runs. -/
theorem retained_of_failed (hc : (runSigner lib identity is).1 = .running c)
    (hf : c.persistence.state = .failed) :
    ∃ s, c.persistence.pending = some s ∧ Retained c.persistence.current s c := by
  have hr := runSigner_reached lib identity is hc
  have hinv := runSigner_failure lib identity is hc
  have hphase := hr.journal.phase
  have hpending := hr.journal.pending
  have hown := hinv.action.owner
  have hno {p : Prop} (hi : c.persistence.state = .idle) : p :=
    absurd (hf.symm.trans hi) (by simp)
  have hw {p : Prop} (hi : c.persistence.state = .writing) : p :=
    absurd (hf.symm.trans hi) (by simp)
  have hretained (h : SaveFailed (view (runSigner lib identity is).2) c) (ht : c.task = none) :
      ∃ s, c.persistence.pending = some s ∧ Retained c.persistence.current s c := by
    obtain ⟨_, w, t, hp, hpw, _⟩ := h
    rw [hp, Option.map_some] at hpending
    exact ⟨t, hpending, rfl, hpending, by simp [hpw], Or.inl ⟨hf, ht⟩⟩
  cases ht : c.task with
  | none =>
    rw [ht] at hphase
    rcases hphase.2.2 with hrest | hfail
    · exact hno hrest.1
    · exact hretained hfail ht
  | some t =>
    rw [ht] at hphase
    cases t with
    | openingHead client head =>
      -- an inspection opens its head before anything else, with persistence idle
      rw [ht] at hown
      obtain ⟨o, hsome, _, hran, _⟩ := hown
      exact hno (hinv.fresh o hsome hran)
    | signing _ _ _ _ _ _ _ => exact hno hphase.1.2.2.1
    | recovering _ _ => exact hno hphase.2.2.1
    | inspecting _ _ _ => exact hno hphase.2.2.1
    | sending => exact hno hphase.2.2.1
    | storing k => exact hw hphase.2.2.1
    | saved k => exact hno hphase.2.1

/-- Along a run, the retained snapshot stands until its own save is acknowledged. -/
theorem retained_until_saved {current : Option TransactionJournalSnapshot}
    {s : TransactionJournalSnapshot} {js : List Input}
    (hc : (runSigner lib identity is).1 = .running c) (h : Retained current s c)
    (hjs : ∀ j ∈ js, j.action ≠ .crash) :
    ∃ c' post, runSigner lib identity (is ++ js) =
        (.running c', (runSigner lib identity is).2 ++ post) ∧
      (Retained current s c' ∧ (∀ x ∈ post, x.voids = true) ∨
        ∃ a b, post = a ++ .acked s :: b ∧ ∀ x ∈ a, x.voids = true) := by
  induction js using List.reverseRecOn with
  | nil => exact ⟨c, [], by simp [← hc], Or.inl ⟨h, by simp⟩⟩
  | append_singleton js j ih =>
    obtain ⟨d, post, hd, hpost⟩ := ih fun x hx => hjs x (List.mem_append_left _ hx)
    have hrun : (runSigner lib identity (is ++ js)).1 = .running d := by rw [hd]
    rw [← List.append_assoc]
    rcases runSigner_process hrun (hjs j (by simp)) with ⟨_, hsame⟩ | ⟨d', e, hstep, hnext⟩
    · exact ⟨d, post, hsame.trans hd, hpost⟩
    · refine ⟨d', post ++ e.toList, by rw [hnext, hd, List.append_assoc], ?_⟩
      rcases hpost with ⟨hret, hquiet⟩ | ⟨a, b, rfl, ha⟩
      · have hfresh := (runSigner_failure lib identity _ hrun).fresh
        rcases hret.step hfresh (coordinatorStep_cases hstep) with ⟨hret', he⟩ | rfl
        · refine Or.inl ⟨hret', ?_⟩
          intro x hx
          rcases List.mem_append.mp hx with hx | hx
          · exact hquiet x hx
          · exact he x (by simpa using hx)
        · exact Or.inr ⟨post, [], rfl, hquiet⟩
      · exact Or.inr ⟨a, b ++ e.toList, by simp, ha⟩

/-- Nothing but a retry is accepted to write or to send. -/
theorem failed_refuses {i : Input} (hf : c.persistence.state = .failed)
    (hi : i.action.needsNoOwner = true ∨ ∃ g, i.action = .finishInspection g)
    (hne : i.action ≠ .retryPersistence) : coordinatorStep lib identity i c = none := by
  have hnp : c.noPendingWrite = false := by simp [noPendingWrite, hf]
  obtain ⟨now, action⟩ := i
  rcases hi with hi | ⟨g, rfl⟩
  · cases action with
    | beginInspection => simp [coordinatorStep, beginInspection, hnp]
    | prepareAttempt _ _ _ _ => simp [coordinatorStep, prepareAttempt, hnp]
    | broadcastAttempt _ => simp [coordinatorStep, broadcastAttempt, hnp]
    | retryPersistence => exact absurd rfl hne
    | _ => cases hi
  · cases hown : c.owned g with
    | none => simp [coordinatorStep, finishInspection, hown]
    | some o => simp [coordinatorStep, finishInspection, hown, hnp]

end Runs

section Atomicity

variable (lib : TransactionLibrary) (identity : JournalIdentity)

/-- An operation that ends without applying a write keeps the journal, up to the
phase of an attempt it was sending, and creates no permission; a preparation among
them restores the status. While a save has failed only its own snapshot can be
written, and once that is retried the gate and every permission wait for a fresh
pass, and for a recovery unless the write was that of an inclusion pass. -/
theorem failed_operations_atomic (is : List Input) :
    (∀ js j c₀ c c' e, (runSigner lib identity is).1 = .running c₀ → c₀.task = none →
      Suspended lib identity is js → (runSigner lib identity (is ++ js)).1 = .running c →
      coordinatorStep lib identity j c = some (c', e) → c'.task = none →
      (∀ x, e = some x → x.isApplied = false) →
      (c'.persistence.current = c₀.persistence.current ∨
        c.task = some .sending ∧ Marked c₀.persistence.current c'.persistence.current) ∧
      (c'.broadcastPermit = none ∨ c'.broadcastPermit = c₀.broadcastPermit)) ∧
    (∀ i js j workId attemptId accountAddress transaction c₀ c₁ c c' e₁ e,
      (runSigner lib identity is).1 = .running c₀ →
      i.action = .prepareAttempt workId attemptId accountAddress transaction →
      coordinatorStep lib identity i c₀ = some (c₁, e₁) →
      Suspended lib identity (is ++ [i]) js →
      (runSigner lib identity (is ++ [i] ++ js)).1 = .running c →
      coordinatorStep lib identity j c = some (c', e) → c'.task = none →
      (∀ x, e = some x → x.isApplied = false) → c'.persistence.state = .idle →
      c'.status = restoredStatus c₀ c'.reconciliationObservationActive ∧
        c'.persistence = c₀.persistence ∧
        ∀ now w a account t, (c'.prepareAttempt now w a account t).isSome =
          (c₀.prepareAttempt now w a account t).isSome) ∧
    (∀ c, (runSigner lib identity is).1 = .running c → c.persistence.state = .failed →
      c.status.isOpen = false ∧ c.broadcastPermit = none ∧
      (∀ i, i.action.needsNoOwner = true ∨ (∃ g, i.action = .finishInspection g) →
        i.action ≠ .retryPersistence → coordinatorStep lib identity i c = none) ∧
      ∃ s, c.persistence.pending = some s ∧ ∀ js, (∀ j ∈ js, j.action ≠ .crash) →
        ∃ c' post, runSigner lib identity (is ++ js) =
            (.running c', (runSigner lib identity is).2 ++ post) ∧
          (Retained c.persistence.current s c' ∧ (∀ x ∈ post, x.voids = true) ∨
            ∃ a b, post = a ++ .acked s :: b ∧ ∀ x ∈ a, x.voids = true)) ∧
    ∀ pre post c, (runSigner lib identity is).2 = pre ++ .retried :: post →
      (runSigner lib identity is).1 = .running c →
      (c.status.isOpen = true → ∃ x ∈ post, Completed IsInclusionPass x) ∧
      (c.broadcastPermit ≠ none → ∃ x ∈ post, Completed IsPass x) ∧
      (c.status.isOpen = true ∨ c.canBroadcast = true →
        (∃ w, (view pre).unapplied = some w ∧ KeepsRecovery w) ∨
          ∃ x ∈ post, Completed (fun w => w.recovers = true) x) := by
  refine ⟨?_, ?_, ?_, ?_⟩
  · intro js j c₀ c c' e h₀ ht₀ hs hc hj ht' he
    exact failed_operation_kept h₀ ht₀ hs hc hj ht' he
  · intro i js j workId attemptId accountAddress transaction c₀ c₁ c c' e₁ e h₀ hi h₁ hs hc hj ht' he
      hidle
    exact failed_preparation_restored h₀ hi h₁ hs hc hj ht' he hidle
  -- the failed snapshot is pending, and nothing but its retry gets past it
  · intro c hc hf
    obtain ⟨s, hs, hret⟩ := retained_of_failed hc hf
    have hinv := runSigner_failure lib identity is hc
    refine ⟨?_, (hinv.action.authorization.written hret.pendingWrite).1,
      fun i hi hne => failed_refuses hf hi hne, s, hs, fun js hjs => retained_until_saved hc hret hjs⟩
    by_contra hopen
    obtain ⟨_, hgate⟩ := gateOpen_of_status (c := c) (by simpa using hopen)
    exact absurd (hf.symm.trans hgate.idle) (by simp)
  -- the retry has taken back what was checked before it
  · intro pre post c htr hc
    have hinv := runSigner_failure lib identity is hc
    rw [htr] at hinv
    have hafter {K : JournalWrite → Prop}
        (h : Since (Completed K) (· ≠ .retried) (pre ++ .retried :: post)) :
        ∃ x ∈ post, Completed K x := by
      apply h.after
      · rintro ⟨w, permit, hw, _⟩
        cases hw
      · simp
    refine ⟨?_, fun hp => hafter (hinv.retry.permit hp), ?_⟩
    · intro hopen
      obtain ⟨_, hgate⟩ := gateOpen_of_status hopen
      exact hafter (hinv.action.checked (Or.inl hgate.checked)).since
    · intro hcan
      have hrec : c.recoveryComplete = true := by
        rcases hcan with hopen | hcan
        · obtain ⟨_, hgate⟩ := gateOpen_of_status hopen
          exact hgate.recovered
        · simp only [canBroadcast, Bool.and_eq_true] at hcan
          have hcan := hcan.2
          split at hcan
          · cases hcan
          · split at hcan
            · cases hcan
            · simp only [Bool.and_eq_true] at hcan
              exact hcan.1.1.1
      exact hinv.retry.recovered hrec pre post rfl

section Sample

/-- A reconciliation observation is active when the first inclusion pass opens the gate. -/
def observedActions : List Action :=
  sampleActions.take 1 ++ Action.beginObservation :: (sampleActions.take 15).drop 1

def observedRun : List Input := observedActions.map (⟨1, ·⟩)

def samplePreparation : Input := ⟨1, .prepareAttempt [65] 77 7 ⟨9, [], 0, 21000, .legacy 1⟩⟩

/-- The observation ends while the key is signing, and the key answers nothing: the
preparation fails, and the episode that it began in is over. -/
theorem failed_preparation_ends_episode :
    ¬ ∀ js j c₀ c₁ c c' e₁ e,
      (runSigner sampleLibrary sampleIdentity observedRun).1 = .running c₀ →
      coordinatorStep sampleLibrary sampleIdentity samplePreparation c₀ = some (c₁, e₁) →
      Suspended sampleLibrary sampleIdentity (observedRun ++ [samplePreparation]) js →
      (runSigner sampleLibrary sampleIdentity (observedRun ++ [samplePreparation] ++ js)).1 =
        .running c →
      coordinatorStep sampleLibrary sampleIdentity j c = some (c', e) → c'.task = none →
      (∀ x, e = some x → x.isApplied = false) → c'.persistence.state = .idle →
      c'.status = c₀.status := by
  intro h
  have hs : Suspended sampleLibrary sampleIdentity (observedRun ++ [samplePreparation])
      [⟨1, .endObservation⟩] := by
    intro ks hks hne
    obtain rfl : ks = [⟨1, .endObservation⟩] := by
      rcases List.prefix_cons_iff.mp hks with rfl | ⟨t, rfl, ht⟩
      · exact absurd rfl hne
      · rw [List.prefix_nil.mp ht]
    exact ⟨_, rfl, by simp⟩
  have hstatus := h [⟨1, .endObservation⟩] ⟨1, .signed none true⟩ _ _ _ _ _ _ rfl rfl hs rfl rfl rfl
    (by simp) rfl
  exact absurd (congrArg SignerStatus.blockedSince hstatus) (by decide)

end Sample

end Atomicity

end Quicknet
