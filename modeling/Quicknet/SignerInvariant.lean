import Quicknet.SignerSteps
import Quicknet.SignerTrace

/-! The coordinator's journal state follows its trace: what is committed, what is
being written, and what the blockers reflect. -/
namespace Quicknet

open Interaction Transition SignerCoordinator

/-- The write that a save in flight, or acknowledged, belongs to. -/
def Continuation.Awaits (c : SignerCoordinator) (w : JournalWrite) : Continuation → Prop
  | .own w' => w' = w ∧ ∀ a, w = .broadcast a → c.blockers.isEmpty = true
  | .retry => True

/-- Nothing is being written. -/
def Rested (v : JournalView) (c : SignerCoordinator) : Prop :=
  c.persistence.state = .idle ∧ c.pendingWrite = none ∧ v.pending = none

/-- A save failed and its snapshot is retained. -/
def SaveFailed (v : JournalView) (c : SignerCoordinator) : Prop :=
  c.persistence.state = .failed ∧
    ∃ w t, v.pending = some (w, t) ∧ c.pendingWrite = some w.kind ∧ w.isRepair = false

/-- An operation runs that has not planned a write. -/
def Reading (v : JournalView) (c : SignerCoordinator) : Prop :=
  c.busy = true ∧ v.unapplied = none ∧ Rested v c

/-- What the suspended operation says about persistence. -/
def TaskPhase (v : JournalView) (c : SignerCoordinator) : Option Task → Prop
  | none | some (.openingHead _ _) =>
    c.busy = false ∧ v.unapplied = none ∧ (Rested v c ∨ SaveFailed v c)
  | some (.signing _ _ _ _ _ _ _) => Reading v c ∧ ∃ s, v.journal = some s ∧
      s.showsUnattributedActivity = false ∧ ∀ a ∈ s.attempts, a.phase.isIncluded = true
  | some (.recovering _ _) | some (.inspecting _ _ _) | some .sending => Reading v c
  | some (.storing k) => c.busy = true ∧ v.unapplied = none ∧ c.persistence.state = .writing ∧
      ∃ w t, v.pending = some (w, t) ∧ c.pendingWrite = some w.kind ∧ w.isRepair = false ∧
        k.Awaits c w
  | some (.saved k) => c.busy = true ∧ c.persistence.state = .idle ∧ v.pending = none ∧
      ∃ w, v.unapplied = some w ∧ c.pendingWrite = some w.kind ∧ w.isRepair = false ∧ k.Awaits c w

structure JournalInv (v : JournalView) (c : SignerCoordinator) : Prop where
  current : c.persistence.current = v.journal
  pending : c.persistence.pending = v.pending.map (·.2)
  phase : TaskPhase v c c.task
  unattributed : c.blockers.unattributedSignerActivity =
    v.applied.any (·.showsUnattributedActivity)
  exhausted : v.applied.any (·.showsExhaustedSearch) = true →
    c.blockers.conflictSearchExhausted = true
  recovered : c.recoveryComplete = true → v.confirmed = true

/-- The view after a step that emits at most one event. -/
def JournalView.after (v : JournalView) (e : Option Event) : JournalView := e.elim v v.advance

theorem view_append_option (tr : List Event) (e : Option Event) :
    view (tr ++ e.toList) = (view tr).after e := by
  cases e with
  | none => simp [JournalView.after]
  | some e => simp [JournalView.after]

section Frames

variable {v : JournalView} {c c' : SignerCoordinator}

/-- Every phase but that of an idle coordinator holds `busy`. -/
theorem TaskPhase.of_not_busy {t : Option Task} (h : TaskPhase v c t) (hb : c.busy = false) :
    v.unapplied = none ∧ (Rested v c ∨ SaveFailed v c) := by
  unfold TaskPhase at h
  split at h
  · exact h.2
  · exact h.2
  · rw [h.1.1] at hb
    cases hb
  · rw [h.1] at hb
    cases hb
  · rw [h.1] at hb
    cases hb
  · rw [h.1] at hb
    cases hb
  · rw [h.1] at hb
    cases hb
  · rw [h.1] at hb
    cases hb

theorem TaskPhase.rested {t : Option Task} (h : TaskPhase v c t) (hb : c.busy = false)
    (hp : c.pendingWrite = none) : v.unapplied = none ∧ Rested v c := by
  obtain ⟨hu, hr | ⟨_, w, t, _, hw, _⟩⟩ := h.of_not_busy hb
  · exact ⟨hu, hr⟩
  · rw [hp] at hw
    cases hw

/-- Steps that touch only the owner, the permission and the inclusion flag. -/
theorem JournalInv.frame (h : JournalInv v c) (hp : c'.persistence = c.persistence)
    (hw : c'.pendingWrite = c.pendingWrite) (hb : c'.busy = c.busy) (ht : c'.task = c.task)
    (hbl : c'.blockers = c.blockers) (hr : c'.recoveryComplete = c.recoveryComplete) :
    JournalInv v c' := by
  refine ⟨by rw [hp]; exact h.current, by rw [hp]; exact h.pending, ?_,
    by rw [hbl]; exact h.unattributed, by rw [hbl]; exact h.exhausted, by rw [hr]; exact h.recovered⟩
  have hphase := h.phase
  rw [ht]
  unfold TaskPhase Reading Rested SaveFailed Continuation.Awaits at hphase ⊢
  rw [hp, hw, hb, hbl]
  exact hphase

/-- An operation ends without a write. -/
theorem JournalInv.ended (h : JournalInv v c) (hread : v.unapplied = none ∧ Rested v c)
    (hp : c'.persistence = c.persistence) (hw : c'.pendingWrite = none) (hb : c'.busy = false)
    (ht : c'.task = none) (hbl : c'.blockers = c.blockers)
    (hr : c'.recoveryComplete = true → c.recoveryComplete = true) : JournalInv v c' := by
  refine ⟨by rw [hp]; exact h.current, by rw [hp]; exact h.pending, ?_,
    by rw [hbl]; exact h.unattributed, by rw [hbl]; exact h.exhausted,
    fun hh => h.recovered (hr hh)⟩
  rw [ht]
  refine ⟨hb, hread.1, Or.inl ⟨by rw [hp]; exact hread.2.1, hw, hread.2.2.2⟩⟩

/-- An operation is entered. -/
theorem JournalInv.entered {t : Task} (h : JournalInv v c)
    (hread : v.unapplied = none ∧ Rested v c) (hp : c'.persistence = c.persistence)
    (hw : c'.pendingWrite = c.pendingWrite) (hb : c'.busy = true) (ht : c'.task = some t)
    (hreading : Reading v c' → TaskPhase v c' (some t)) (hbl : c'.blockers = c.blockers)
    (hr : c'.recoveryComplete = true → c.recoveryComplete = true) : JournalInv v c' := by
  refine ⟨by rw [hp]; exact h.current, by rw [hp]; exact h.pending, ?_,
    by rw [hbl]; exact h.unattributed, by rw [hbl]; exact h.exhausted,
    fun hh => h.recovered (hr hh)⟩
  rw [ht]
  exact hreading ⟨hb, hread.1, by rw [hp]; exact hread.2.1, by rw [hw]; exact hread.2.2.1,
    hread.2.2.2⟩

end Frames

section Step

variable {lib : TransactionLibrary} {identity : JournalIdentity} {v : JournalView}
  {c c' : SignerCoordinator} {e : Option Event}

theorem inspectInclusionsOwned_ok {s : TransactionJournalSnapshot} {head : BlockAnchor}
    {range : Option ℕ} {bracketed : Bool} {log : RpcLog} {o : AnchoredNonceObservation}
    {attempts : List JournalAttempt} {complete : Bool} {broadcast : Option AttemptId}
    (h : (inspectInclusionsOwned s head range bracketed).replay log =
      some (.ok (.inspected o attempts complete broadcast))) :
    InclusionPass s head log o attempts complete broadcast := by
  unfold inspectInclusionsOwned at h
  simp only [Prog.bind_eq, Prog.pure_eq] at h
  obtain ⟨result, l₁, l₂, rfl, h₁, h₂⟩ := Prog.replay_bind_ok_iff.mp h
  cases result with
  | inspected o' attempts' complete' broadcast' =>
    simp only at h₂
    obtain ⟨changed, l₃, l₄, rfl, _, h₄⟩ := Prog.replay_bind_ok_iff.mp h₂
    cases changed with
    | some _ => exact absurd (Prog.replay_ret_iff.mp h₄).2 (by simp)
    | none =>
      obtain ⟨rfl, hr⟩ := Prog.replay_ret_iff.mp h₄
      obtain ⟨rfl, rfl, rfl, rfl⟩ := SignerInclusionInspection.inspected.inj (Except.ok.inj hr)
      exact (inspectSignerInclusions_ok h₁).append _
  | _ => exact absurd (Prog.replay_ret_iff.mp h₂).2 (by simp)

/-- A planned write records what its kind of write records. -/
theorem Planned.writes {w : JournalWrite} {kind : PendingWrite} {next : TransactionJournalSnapshot}
    {c₀ : SignerCoordinator} (hi : JournalInv v c) (hv : ViewOk lib identity v)
    (h : Planned lib identity c w kind next c₀) :
    v.pending = none ∧ v.unapplied = none ∧ Writes identity v.journal w next ∧ kind = w.kind ∧
      w.isRepair = false := by
  have hphase := hi.phase
  -- each plan starts from the journal that the trace shows, with no write pending
  cases h with
  | prepared ht hc hs =>
    rw [ht] at hphase
    obtain ⟨⟨_, hu, _, _, hp⟩, s, hj, hno, hall⟩ := hphase
    rw [hi.current, hj] at hc
    obtain rfl := Option.some.inj hc
    rw [hj]
    exact ⟨hp, hu, .prepared hno hall, rfl, rfl⟩
  | broadcast hsend hph =>
    obtain ⟨hu, _, _, hp⟩ := hphase.rested hsend.busy hsend.pendingWrite
    have hj := hi.current.symm.trans hsend.current
    rw [hj]
    exact ⟨hp, hu, .broadcast hsend.unresolved hph hsend.nonce, rfl, rfl⟩
  | bootstrap ho ht hc hr =>
    rw [ht] at hphase
    obtain ⟨_, hu, _, _, hp⟩ := hphase
    have hj := hi.current.symm.trans hc
    rw [hj]
    exact ⟨hp, hu, .bootstrap hr, rfl, rfl⟩
  | recovery ho ht hc hr hplan =>
    rw [ht] at hphase
    obtain ⟨_, hu, _, _, hp⟩ := hphase
    have hj := hi.current.symm.trans hc
    have happ := hi.unattributed
    rw [hv.applied hu, hj, Option.any_some] at happ
    rw [happ] at hplan
    obtain ⟨hcon, hrec⟩ := planRecovery_some hplan
    rw [hj]
    refine ⟨hp, hu, .recovery hr hcon ?_, hrec.kind_eq, rfl⟩
    rw [← hrec.kind_eq]
    exact hrec
  | inclusions ho ht hc hr hplan =>
    rw [ht] at hphase
    obtain ⟨_, hu, _, _, hp⟩ := hphase
    have hj := hi.current.symm.trans hc
    have happ := hi.unattributed
    rw [hv.applied hu, hj, Option.any_some] at happ
    obtain ⟨rfl, _⟩ := validate_ok_iff.mp hplan
    rw [hj, happ]
    exact ⟨hp, hu, .inclusions (inspectInclusionsOwned_ok hr), rfl, rfl⟩

/-- The state in which a planned write is saved. -/
theorem Planned.saves {w : JournalWrite} {kind : PendingWrite} {next : TransactionJournalSnapshot}
    {c₀ : SignerCoordinator} (hi : JournalInv v c) (h : Planned lib identity c w kind next c₀) :
    c₀.busy = true ∧ c₀.blockers = c.blockers ∧
      (c₀.recoveryComplete = true → c.recoveryComplete = true) ∧
      ∀ a, w = .broadcast a → c.blockers.isEmpty = true := by
  have hphase := hi.phase
  cases h with
  | prepared ht _ _ =>
    rw [ht] at hphase
    exact ⟨hphase.1.1, rfl, fun h => h, by simp⟩
  | broadcast hsend _ =>
    exact ⟨rfl, rfl, by simp [consumePermit], fun _ _ => hsend.unblocked⟩
  | bootstrap _ ht _ _ =>
    rw [ht] at hphase
    exact ⟨hphase.1, rfl, fun h => h, by simp⟩
  | recovery _ ht _ _ _ =>
    rw [ht] at hphase
    exact ⟨hphase.1, rfl, fun h => h, by simp⟩
  | inclusions _ ht _ _ _ =>
    rw [ht] at hphase
    exact ⟨hphase.1, rfl, fun h => h, by simp⟩

/-- A planned write starts to be saved. -/
theorem JournalInv.wrote {w : JournalWrite} {kind : PendingWrite}
    {next : TransactionJournalSnapshot} {c₀ : SignerCoordinator} (hi : JournalInv v c)
    (hv : ViewOk lib identity v) (hplan : Planned lib identity c w kind next c₀)
    (hver : SnapshotVerified lib identity next) :
    EventOk lib identity v (.write w next) ∧
      JournalInv (v.advance (.write w next))
        { c₀ with
          pendingWrite := some kind
          persistence := { c.persistence with state := .writing, pending := some next }
          task := some (.storing (.own w)) } := by
  obtain ⟨hp, hu, hw, rfl, hrep⟩ := hplan.writes hi hv
  obtain ⟨hb, hbl, hr, hempty⟩ := hplan.saves hi
  refine ⟨⟨hp, hu, hw, hver⟩, hi.current, rfl, ?_, ?_, ?_, fun h => hi.recovered (hr h)⟩
  · refine ⟨hb, hu, rfl, w, next, rfl, rfl, hrep, rfl, ?_⟩
    intro a ha
    rw [hbl]
    exact hempty a ha
  · rw [hbl]
    exact hi.unattributed
  · rw [hbl]
    exact hi.exhausted

theorem JournalInv.acked {k : Continuation} {s : TransactionJournalSnapshot} (hi : JournalInv v c)
    (ht : c.task = some (.storing k)) (hs : c.persistence.pending = some s) :
    EventOk lib identity v (.acked s) ∧
      JournalInv (v.advance (.acked s))
        { c with persistence := ⟨.idle, some s, none⟩, task := some (.saved k) } := by
  have hphase := hi.phase
  rw [ht] at hphase
  obtain ⟨hb, _, _, w, t, hp, hkind, hrep, hk⟩ := hphase
  have hst : t = s := by
    have hpend := hi.pending
    rw [hs, hp] at hpend
    exact (Option.some.inj hpend).symm
  subst hst
  refine ⟨⟨w, hp⟩, rfl, rfl, ?_, hi.unattributed, hi.exhausted, fun _ => rfl⟩
  exact ⟨hb, rfl, rfl, w, by simp [JournalView.advance, hp], hkind, hrep, hk⟩

theorem JournalInv.storeFailed {k : Continuation} (hi : JournalInv v c)
    (ht : c.task = some (.storing k)) (hp : c'.persistence = c.persistence.failed)
    (hw : c'.pendingWrite = c.pendingWrite) (hb : c'.busy = false) (htask : c'.task = none)
    (hbl : c'.blockers = c.blockers)
    (hr : c'.recoveryComplete = true → c.recoveryComplete = true) : JournalInv v c' := by
  have hphase := hi.phase
  rw [ht] at hphase
  obtain ⟨_, hu, _, w, t, hpend, hkind, hrep, _⟩ := hphase
  refine ⟨by rw [hp]; exact hi.current, by rw [hp]; exact hi.pending, ?_,
    by rw [hbl]; exact hi.unattributed, by rw [hbl]; exact hi.exhausted,
    fun h => hi.recovered (hr h)⟩
  rw [htask]
  exact ⟨hb, hu, Or.inr ⟨by rw [hp]; rfl, w, t, hpend, by rw [hw]; exact hkind, hrep⟩⟩

/-- A write is applied to the gate: the blockers are derived again. -/
theorem JournalInv.applied {k : Continuation} {w : JournalWrite} (hi : JournalInv v c)
    (hv : ViewOk lib identity v) (ht : c.task = some (.saved k)) (hw : v.unapplied = some w)
    (hp : c'.persistence = c.persistence) (hpw : c'.pendingWrite = none) (hb : c'.busy = false)
    (htask : c'.task = none)
    (hbl : c'.blockers = c.derivedBlockers) :
    JournalInv { v with unapplied := none, applied := v.journal } c' := by
  have hphase := hi.phase
  rw [ht] at hphase
  obtain ⟨_, hidle, hpend, w', hw', _, hrep, _⟩ := hphase
  obtain rfl := Option.some.inj (hw'.symm.trans hw)
  obtain ⟨hconf, t, hj, hwrites⟩ := hv.unapplied w' hw
  refine ⟨by rw [hp]; exact hi.current, by rw [hp]; exact hi.pending, ?_, ?_, ?_, fun _ => hconf⟩
  · rw [htask]
    exact ⟨hb, rfl, Or.inl ⟨by rw [hp]; exact hidle, hpw, hpend⟩⟩
  · have hkeep : v.applied.any (·.showsUnattributedActivity) = true →
        v.journal.any (·.showsUnattributedActivity) = true := by
      intro h
      rw [hj]
      cases ha : v.applied with
      | none => simp [ha] at h
      | some s =>
        rw [ha, Option.any_some] at h
        rw [ha] at hwrites
        exact hwrites.keeps_unattributed hrep h
    have hnew : c.derivedBlockers.unattributedSignerActivity =
        (c.blockers.unattributedSignerActivity ||
          c.persistence.current.any (·.showsUnattributedActivity)) := by
      unfold derivedBlockers applyPendingWrite
      split <;> rfl
    rw [hbl, hnew, hi.unattributed, hi.current]
    cases hold : v.applied.any (·.showsUnattributedActivity) with
    | false => simp
    | true => simp [hkeep hold]
  · intro h
    have hnew : c.derivedBlockers.conflictSearchExhausted =
        ((applyPendingWrite c.pendingWrite c.blockers).conflictSearchExhausted ||
          c.persistence.current.any (·.showsExhaustedSearch)) := rfl
    rw [hbl, hnew, hi.current, h, Bool.or_true]

theorem JournalInv.sentAgain {s : TransactionJournalSnapshot} {a : JournalAttempt}
    (hi : JournalInv v c) (hv : ViewOk lib identity v) (hsend : c.Sendable s a)
    (hph : a.phase ≠ .signed) :
    EventOk lib identity v
        (.sent a a.signedTransactions.latest.signedTransaction c.blockers) ∧
      JournalInv { v with unapplied := none, applied := v.journal }
        { c.consumePermit with task := some .sending } := by
  obtain ⟨hu, hidle, hpw, hp⟩ := hi.phase.rested hsend.busy hsend.pendingWrite
  have hj := hi.current.symm.trans hsend.current
  have hap := hv.applied hu
  have hinc := (firstUnresolved_mem hsend.unresolved).2
  have hbroadcast : a.phase = .broadcastMayHaveOccurred := by
    cases hphase : a.phase with
    | signed => exact absurd hphase hph
    | broadcastMayHaveOccurred => rfl
    | included i => simp [hphase] at hinc
  refine ⟨⟨hp, Or.inl hu, hi.recovered hsend.recovered, s, hj, a, hsend.unresolved, rfl,
    hbroadcast, rfl, hsend.nonce, hsend.unblocked⟩, hi.current, hi.pending,
    ⟨rfl, rfl, hidle, hpw, hp⟩, ?_, ?_, by simp [consumePermit]⟩
  · have h := hi.unattributed
    rw [hap] at h
    exact h
  · have h := hi.exhausted
    rw [hap] at h
    exact h

theorem JournalInv.sentMarked {a : JournalAttempt} (hi : JournalInv v c)
    (hv : ViewOk lib identity v) (ht : c.task = some (.saved (.own (.broadcast a)))) :
    EventOk lib identity v
        (.sent a a.signedTransactions.latest.signedTransaction c.blockers) ∧
      JournalInv { v with unapplied := none, applied := v.journal }
        { c with pendingWrite := none, task := some .sending } := by
  have hphase := hi.phase
  rw [ht] at hphase
  obtain ⟨hb, hidle, hp, w, hw, _, _, rfl, hempty⟩ := hphase
  obtain ⟨hconf, t, hj, hwrites⟩ := hv.unapplied _ hw
  generalize hap : v.applied = base at hwrites
  cases hwrites with
  | @broadcast s _ hf hsigned hn =>
    obtain ⟨front, back, hs, hfront, hm⟩ := markBroadcast_split hf
    have hfirst : TransactionJournalSnapshot.firstUnresolved
        { s with attempts := markBroadcast s.attempts } =
        some { a with phase := .broadcastMayHaveOccurred } :=
      firstUnresolved_of_split hm hfront rfl
    refine ⟨⟨hp, Or.inr hw, hconf, _, hj, _, hfirst, rfl, rfl, rfl, hn, hempty a rfl⟩,
      hi.current, hi.pending, ⟨hb, rfl, hidle, rfl, hp⟩, ?_, ?_, fun _ => hconf⟩
    · have h := hi.unattributed
      rw [hap] at h
      rw [hj]
      exact h
    · intro h
      rw [hj, Option.any_some] at h
      simp only [TransactionJournalSnapshot.showsExhaustedSearch, hfirst, Option.any_some,
        TransactionJournalSnapshot.SearchExhausted, hn, decide_eq_true_eq] at h
      exact absurd h.2 (lt_irrefl _)

theorem JournalInv.signing (hi : JournalInv v c) (hv : ViewOk lib identity v)
    (hp : c.pendingWrite = none) (hopen : c.status.isOpen = true) :
    (v.unapplied = none ∧ Rested v c) ∧ ∃ s, v.journal = some s ∧
      s.showsUnattributedActivity = false ∧ ∀ a ∈ s.attempts, a.phase.isIncluded = true := by
  obtain ⟨s, hs⟩ := gateOpen_of_status hopen
  have hrest := hi.phase.rested hs.busy hp
  have hj := hi.current.symm.trans hs.current
  refine ⟨hrest, s, hj, ?_, hs.included⟩
  have hun := hi.unattributed
  rw [hv.applied hrest.1, hj, Option.any_some] at hun
  have hempty := hs.unblocked
  simp only [CoordinatorBlockers.isEmpty, hun, Bool.and_eq_true, Bool.not_eq_true'] at hempty
  exact hempty.1

theorem JournalInv.resumed {w : JournalWrite} {permit : Option AttemptId}
    (hi : JournalInv v c) (hv : ViewOk lib identity v) (ht : c.task = some (.saved (.own w)))
    (h : Resumed c w permit c') :
    EventOk lib identity v (.completed w permit) ∧
      JournalInv { v with unapplied := none, applied := v.journal } c' := by
  have hphase := hi.phase
  rw [ht] at hphase
  obtain ⟨_, _, hp, w', hw, _, _, rfl, _⟩ := hphase
  exact ⟨⟨hp, hw⟩, hi.applied hv ht hw h.persistence h.pendingWrite h.busy h.task h.blockers⟩

theorem JournalInv.retried {now : Timestamp} (hi : JournalInv v c) (hv : ViewOk lib identity v)
    (ht : c.task = some (.saved .retry)) :
    EventOk lib identity v .retried ∧
      JournalInv { v with unapplied := none, applied := v.journal }
        ({ c with task := none }.finishWrite now) := by
  have hphase := hi.phase
  rw [ht] at hphase
  obtain ⟨_, _, hp, w, hw, _⟩ := hphase
  exact ⟨⟨hp, by simp [hw]⟩, hi.applied hv ht hw rfl rfl rfl rfl rfl⟩

/-- One step of the coordinator: its event is what it should be, and the state
follows the view. -/
theorem JournalInv.step (hi : JournalInv v c) (hv : ViewOk lib identity v)
    (h : CoordinatorStep lib identity c e c') :
    (∀ x, e = some x → EventOk lib identity v x) ∧ JournalInv (v.after e) c' := by
  -- a step without an event leaves the view where it is
  have hquiet (hnone : e = none) (hj : JournalInv v c') :
      (∀ x, e = some x → EventOk lib identity v x) ∧ JournalInv (v.after e) c' := by
    subst hnone
    exact ⟨fun _ hx => (Option.some_ne_none _ hx.symm).elim, hj⟩
  -- an event moves the view on, and has to be one that the journal allows
  have hevent {x : Event} (hx : e = some x) (he : EventOk lib identity v x)
      (hj : JournalInv (v.advance x) c') : (∀ x, e = some x → EventOk lib identity v x) ∧
        JournalInv (v.after e) c' := by
    subst hx
    refine ⟨fun y hy => ?_, hj⟩
    obtain rfl := Option.some.inj hy
    exact he
  have hphase := hi.phase
  cases h with
  | begun _ _ _ _ => exact hevent rfl trivial (hi.frame rfl rfl rfl rfl rfl rfl)
  | owner _ hm =>
    cases hm with
    | headRejected _ _ _ => exact hevent rfl trivial (hi.frame rfl rfl rfl rfl rfl rfl)
    | bracketFailed _ _ => exact hevent rfl trivial (hi.frame rfl rfl rfl rfl rfl rfl)
    | abandoned _ => exact hevent rfl trivial (hi.frame rfl rfl rfl rfl rfl rfl)
    | _ => exact hquiet rfl (hi.frame rfl rfl rfl rfl rfl rfl)
  | finished _ _ _ _ _ _ _ _ => exact hevent rfl trivial (hi.frame rfl rfl rfl rfl rfl rfl)
  | abandonmentCompleted _ _ _ => exact hquiet rfl (hi.frame rfl rfl rfl rfl rfl rfl)
  | headOpening _ _ _ hb _ _ =>
    have hstill := hphase.of_not_busy hb
    exact hquiet rfl ⟨hi.current, hi.pending, ⟨hb, hstill⟩, hi.unattributed, hi.exhausted,
      hi.recovered⟩
  | headAnswered _ ht hout =>
    rw [ht] at hphase
    rcases hout with ⟨_, hnone⟩ | ⟨_, hfail⟩
    · exact hquiet hnone ⟨hi.current, hi.pending, hphase, hi.unattributed, hi.exhausted,
        hi.recovered⟩
    · exact hevent hfail trivial ⟨hi.current, hi.pending, hphase, hi.unattributed, hi.exhausted,
        hi.recovered⟩
  | recovering _ _ _ hb _ _ hp _ =>
    exact hquiet rfl (hi.entered (hphase.rested hb hp) rfl rfl rfl rfl (fun h => h) rfl (by simp))
  | inspecting _ _ _ hb _ _ hp _ _ _ =>
    exact hquiet rfl (hi.entered (hphase.rested hb hp) rfl rfl rfl rfl (fun h => h) rfl (fun h => h))
  | inspectionRefused _ _ hb hp _ =>
    obtain ⟨hu, hrest⟩ := hphase.rested hb hp
    exact hquiet rfl (hi.ended ⟨hu, hrest⟩ rfl hp rfl rfl rfl (fun h => h))
  | recoverEnded _ ht hr hpend =>
    rw [ht] at hphase
    have hpw := hphase.2.2.2.1
    refine hquiet rfl (hi.ended ⟨hphase.2.1, hphase.2.2⟩ rfl ?_ rfl rfl rfl hr)
    rcases hpend with rfl | rfl
    · rfl
    · exact hpw
  | inclusionsEnded _ ht hr _ hpend =>
    rw [ht] at hphase
    have hpw := hphase.2.2.2.1
    refine hquiet rfl (hi.ended ⟨hphase.2.1, hphase.2.2⟩ rfl ?_ rfl rfl rfl hr)
    rcases hpend with rfl | rfl
    · rfl
    · exact hpw
  | inclusionsFailed _ ht hr =>
    rw [ht] at hphase
    exact hevent rfl trivial (hi.ended ⟨hphase.2.1, hphase.2.2⟩ rfl hphase.2.2.2.1 rfl rfl rfl hr)
  | signing _ hb hp _ hopen _ _ =>
    obtain ⟨hrest, hs⟩ := hi.signing hv hp hopen
    exact hquiet rfl (hi.entered hrest rfl rfl rfl rfl (fun h => ⟨h, hs⟩) rfl (fun h => h))
  | prepareEnded ht =>
    rw [ht] at hphase
    exact hquiet rfl (hi.ended ⟨hphase.1.2.1, hphase.1.2.2⟩ rfl rfl rfl rfl rfl (fun h => h))
  | wrote hplan _ hver =>
    obtain ⟨he, hj⟩ := hi.wrote hv hplan hver
    exact hevent rfl he hj
  | broadcastEnded hsend =>
    exact hquiet rfl (hi.ended (hphase.rested hsend.busy hsend.pendingWrite) rfl rfl rfl rfl rfl
      (by simp [consumePermit]))
  | sentAgain hsend hph =>
    obtain ⟨he, hj⟩ := hi.sentAgain hv hsend hph
    exact hevent rfl he hj
  | retrying _ hb hp _ _ =>
    obtain ⟨hu, hrest | ⟨_, w, t, hpend, hkind, hrep⟩⟩ := hphase.of_not_busy hb
    · exact absurd hrest.2.1 hp
    · exact hquiet rfl ⟨hi.current, hi.pending, ⟨rfl, hu, rfl, w, t, hpend, hkind, hrep, trivial⟩,
        hi.unattributed, hi.exhausted, hi.recovered⟩
  | acked ht hs =>
    have hacked : EventOk lib identity v (.acked _) ∧ _ := hi.acked ht hs
    exact hevent rfl hacked.1 hacked.2
  | storeFailed ht _ hr _ _ => exact hquiet rfl (hi.storeFailed ht rfl rfl rfl rfl rfl hr)
  | storeFailedOwned ht _ hr _ _ => exact hquiet rfl (hi.storeFailed ht rfl rfl rfl rfl rfl hr)
  | resumed ht hres =>
    obtain ⟨he, hj⟩ := hi.resumed hv ht hres
    exact hevent rfl he hj
  | sentMarked ht =>
    obtain ⟨he, hj⟩ := hi.sentMarked hv ht
    exact hevent rfl he hj
  | retried ht =>
    obtain ⟨he, hj⟩ := hi.retried hv ht
    exact hevent rfl he hj
  | sendSettled ht =>
    rw [ht] at hphase
    exact hquiet rfl (hi.ended ⟨hphase.2.1, hphase.2.2⟩ rfl hphase.2.2.2.1 rfl rfl rfl (fun h => h))
  | observing _ => exact hquiet rfl (hi.frame rfl rfl rfl rfl rfl rfl)

end Step

end Quicknet
