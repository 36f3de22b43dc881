import Quicknet.LatchedBlockers
import Quicknet.InspectionOwnership

/-! Operations that fail: what they leave of the journal, of the status before them
and of the authorization, and what a failed save holds up until it is retried. -/
namespace Quicknet

open Interaction Transition SignerCoordinator

/-! One operation, from the state in which it starts. -/

/-- The journal differs from `before` only by the phase of its oldest attempt that
is not included. -/
def Marked (before after : Option TransactionJournalSnapshot) : Prop :=
  ∃ s front a back, before = some s ∧ s.attempts = front ++ a :: back ∧
    (∀ b ∈ front, b.phase.isIncluded = true) ∧ a.phase = .signed ∧
    after = some { s with
      attempts := front ++ { a with phase := .broadcastMayHaveOccurred } :: back }

/-- What the suspended operation has made of the journal it found. -/
def KeptBy (before : Option TransactionJournalSnapshot) (c : SignerCoordinator) :
    Option Task → Prop
  | some (.storing (.own (.broadcast _))) =>
    c.persistence.current = before ∧ Marked before c.persistence.pending
  | some (.saved (.own (.broadcast _))) => Marked before c.persistence.current
  | some .sending => c.persistence.current = before ∨ Marked before c.persistence.current
  | some (.saved _) => True
  | _ => c.persistence.current = before

section Kept

variable {lib : TransactionLibrary} {identity : JournalIdentity} {c c' : SignerCoordinator}
  {e : Option Event} {before : Option TransactionJournalSnapshot}

theorem marked_of_sendable {s : TransactionJournalSnapshot} {a : JournalAttempt}
    (hs : c.Sendable s a) (ha : a.phase = .signed) :
    Marked c.persistence.current
      (some { s with attempts := markBroadcast s.attempts }) := by
  obtain ⟨front, back, hl, hfront, hmark⟩ := markBroadcast_split hs.unresolved
  exact ⟨s, front, a, back, hs.current, hl, hfront, ha, by rw [hmark]⟩

/-- A suspended operation shuts out the steps that need an idle coordinator. -/
theorem CoordinatorStep.not_idle {v : JournalView} (hj : JournalInv v c)
    (ho : OwnerPhase c.inspectionOwner c.task) (ht : c.task ≠ none) :
    (c.inspectionOwner = none → c.busy = true) ∧
      ∀ o, c.inspectionOwner = some o → o.activeOperation = some .running := by
  constructor
  · intro hno
    by_contra hb
    exact ht (ho.idle hj hno (by simpa using hb))
  · intro o hsome
    by_contra hrun
    rw [hsome] at ho
    exact ht (ho.task_none hrun)

theorem KeptBy.step {v : JournalView} (hj : JournalInv v c)
    (ho : OwnerPhase c.inspectionOwner c.task) (ht : c.task ≠ none) (h : KeptBy before c c.task)
    (hstep : CoordinatorStep lib identity c e c') (ht' : c'.task ≠ none) :
    KeptBy before c' c'.task := by
  obtain ⟨hbusy, hrun⟩ := CoordinatorStep.not_idle hj ho ht
  -- a suspended operation keeps others from starting, with an owner or without one
  have hidle {p : Prop} (hno : c.inspectionOwner = none) (hb : c.busy = false) : p :=
    absurd ((hbusy hno).symm.trans hb) (by simp)
  have hqueued {p : Prop} {o : InspectionOwner} {call : OwnedCall}
      (hsome : c.inspectionOwner = some o) (ha : o.activeOperation = some (.queued call)) : p :=
    absurd ((hrun o hsome).symm.trans ha) (by simp)
  cases hstep with
  | begun _ _ _ _ => exact h
  | owner _ _ => exact h
  | finished _ _ _ _ _ _ _ _ => exact h
  | abandonmentCompleted _ _ _ => exact h
  | headOpening hsome ha _ _ _ _ => exact hqueued hsome ha
  | recovering hsome ha _ _ _ _ _ _ => exact hqueued hsome ha
  | inspecting hsome ha _ _ _ _ _ _ _ _ => exact hqueued hsome ha
  | signing hno hb _ _ _ _ _ => exact hidle hno hb
  | wrote hplan _ _ =>
    cases hplan with
    | prepared hk _ _ =>
      rw [hk] at h
      exact h
    | broadcast hsend _ => exact hidle hsend.owner hsend.busy
    | bootstrap _ hk _ _ =>
      rw [hk] at h
      exact h
    | recovery _ hk _ _ _ =>
      rw [hk] at h
      exact h
    | inclusions _ hk _ _ _ =>
      rw [hk] at h
      exact h
  | sentAgain hsend _ => exact hidle hsend.owner hsend.busy
  | retrying hno hb _ _ _ => exact hidle hno hb
  | @acked k s hk hs =>
    rw [hk] at h
    cases k with
    | retry => trivial
    | own w =>
      cases w with
      | broadcast a =>
        have hmark := h.2
        rw [hs] at hmark
        exact hmark
      | _ => trivial
  | sentMarked hk =>
    rw [hk] at h
    exact Or.inr h
  | observing _ => exact h
  | resumed _ hr => exact absurd hr.task ht'
  | _ => exact absurd rfl ht'

/-- The first step of an operation leaves the journal as it finds it. -/
theorem KeptBy.start (ht : c.task = none) (hstep : CoordinatorStep lib identity c e c')
    (ht' : c'.task ≠ none) : KeptBy c.persistence.current c' c'.task := by
  have htask {t : Task} {p : Prop} (hk : c.task = some t) : p :=
    absurd (ht.symm.trans hk) (by simp)
  cases hstep with
  | begun _ _ _ _ => exact absurd ht ht'
  | owner _ _ => exact absurd ht ht'
  | finished _ _ _ _ _ _ _ _ => exact absurd ht ht'
  | abandonmentCompleted _ _ _ => exact absurd ht ht'
  | headOpening _ _ _ _ _ _ => rfl
  | recovering _ _ _ _ _ _ _ _ => rfl
  | inspecting _ _ _ _ _ _ _ _ _ _ => rfl
  | signing _ _ _ _ _ _ _ => rfl
  | wrote hplan _ _ =>
    cases hplan with
    | prepared hk _ _ => exact htask hk
    | broadcast hsend ha => exact ⟨rfl, marked_of_sendable hsend ha⟩
    | bootstrap _ hk _ _ => exact htask hk
    | recovery _ hk _ _ _ => exact htask hk
    | inclusions _ hk _ _ _ => exact htask hk
  | sentAgain _ _ => exact Or.inl rfl
  | retrying _ _ _ _ _ => rfl
  | acked hk _ => exact htask hk
  | sentMarked hk => exact htask hk
  | observing _ => exact absurd ht ht'
  | resumed hk _ => exact htask hk
  | _ => exact absurd rfl ht'

/-- An operation that ends without applying a write has kept the journal, or it was
a broadcast whose marking was acknowledged. -/
theorem KeptBy.finish {v : JournalView} (hj : JournalInv v c)
    (ho : OwnerPhase c.inspectionOwner c.task) (h : KeptBy before c c.task)
    (hstep : CoordinatorStep lib identity c e c') (ht' : c'.task = none)
    (he : ∀ x, e = some x → x.isApplied = false) :
    c'.persistence.current = before ∨
      c.task = some .sending ∧ Marked before c'.persistence.current := by
  have hnone (ht : c.task = none) : c.persistence.current = before := by
    rw [ht] at h
    exact h
  have hstoring {k : Continuation} (hk : c.task = some (.storing k)) :
      c.persistence.current = before := by
    rw [hk] at h
    cases k with
    | retry => exact h
    | own w =>
      cases w with
      | broadcast a => exact h.1
      | _ => exact h
  -- a task that ends without applying a write leaves the journal that was there before
  cases hstep with
  | begun _ _ _ _ => exact Or.inl (hnone ht')
  | owner _ _ => exact Or.inl (hnone ht')
  | finished _ _ _ _ _ _ _ _ => exact Or.inl (hnone ht')
  | abandonmentCompleted _ _ _ => exact Or.inl (hnone ht')
  | headAnswered _ hk _ =>
    rw [hk] at h
    exact Or.inl h
  | inspectionRefused hsome ha _ _ _ =>
    rw [hsome] at ho
    exact Or.inl (hnone (ho.task_none (by simp [ha])))
  | recoverEnded _ hk _ _ =>
    rw [hk] at h
    exact Or.inl h
  | inclusionsEnded _ hk _ _ _ =>
    rw [hk] at h
    exact Or.inl h
  | inclusionsFailed _ hk _ =>
    rw [hk] at h
    exact Or.inl h
  | prepareEnded hk =>
    rw [hk] at h
    exact Or.inl h
  | broadcastEnded hsend => exact Or.inl (hnone (ho.idle hj hsend.owner hsend.busy))
  | storeFailed hk _ _ _ _ => exact Or.inl (hstoring hk)
  | storeFailedOwned hk _ _ _ _ => exact Or.inl (hstoring hk)
  | resumed _ _ => exact absurd (he _ rfl) (by simp [Event.isApplied])
  | retried _ => exact absurd (he _ rfl) (by simp [Event.isApplied])
  | sendSettled hk =>
    rw [hk] at h
    exact h.imp (fun hc => hc) fun hm => ⟨hk, hm⟩
  | observing _ => exact Or.inl (hnone ht')
  | _ => cases ht'

/-- Only the operation that completes issues a permission. -/
theorem CoordinatorStep.permit (hstep : CoordinatorStep lib identity c e c')
    (he : ∀ x, e = some x → x.isApplied = false) :
    c'.broadcastPermit = none ∨ c'.broadcastPermit = c.broadcastPermit := by
  cases hstep with
  | @owner _ _ _ revoke _ _ =>
    cases revoke with
    | true => exact Or.inl rfl
    | false => exact Or.inr rfl
  | wrote hplan _ _ =>
    cases hplan with
    | broadcast _ _ => exact Or.inl rfl
    | _ => exact Or.inr rfl
  | resumed _ _ => exact absurd (he _ rfl) (by simp [Event.isApplied])
  | retried _ => exact absurd (he _ rfl) (by simp [Event.isApplied])
  | begun _ _ _ _ => exact Or.inl rfl
  | abandonmentCompleted _ _ _ => exact Or.inl rfl
  | recovering _ _ _ _ _ _ _ _ => exact Or.inl rfl
  | inspecting _ _ _ _ _ _ _ _ _ _ => exact Or.inl rfl
  | inspectionRefused _ _ _ _ _ => exact Or.inl rfl
  | inclusionsFailed _ _ _ => exact Or.inl rfl
  | signing _ _ _ _ _ _ _ => exact Or.inl rfl
  | broadcastEnded _ => exact Or.inl rfl
  | sentAgain _ _ => exact Or.inl rfl
  | _ => exact Or.inr rfl

/-- A step that applies a write leaves no operation suspended. -/
theorem CoordinatorStep.applied (hstep : CoordinatorStep lib identity c e c')
    (ht' : c'.task ≠ none) : ∀ x, e = some x → x.isApplied = false := by
  rcases hstep.blockers_eq with ⟨_, he⟩ | ⟨k, y, hk, rfl, hy, _, _⟩
  · exact he
  · -- the only steps that apply a write end the operation
    exfalso
    cases hstep with
    | resumed _ hr => exact ht' hr.task
    | retried _ => exact ht' rfl
    | owner _ hm => cases hm <;> cases hy
    | headAnswered _ _ hout =>
      rcases hout with ⟨_, hout⟩ | ⟨_, hout⟩ <;> cases hout
      cases hy
    | _ => cases hy

end Kept

/-! Operations along a run. -/

section Runs

variable (lib : TransactionLibrary) (identity : JournalIdentity)

/-- After each of these inputs an operation is suspended: the one that the first of
them started. -/
def Suspended (is js : List Input) : Prop :=
  ∀ ks, ks <+: js → ks ≠ [] →
    ∃ c, (runSigner lib identity (is ++ ks)).1 = .running c ∧ c.task ≠ none

variable {lib identity} {is js : List Input} {c₀ c c' : SignerCoordinator}

/-- What each step of a suspended operation keeps. -/
theorem Suspended.keeps {P : SignerCoordinator → Prop} (hs : Suspended lib identity is js)
    (h₀ : (runSigner lib identity is).1 = .running c₀)
    (hc : (runSigner lib identity (is ++ js)).1 = .running c) (hP : P c₀)
    (hstep : ∀ ks d d' e, (runSigner lib identity (is ++ ks)).1 = .running d → P d →
      CoordinatorStep lib identity d e d' → d'.task ≠ none → P d') : P c := by
  -- by induction on the inputs, each prefix of which leaves an operation suspended
  induction js using List.reverseRecOn generalizing c with
  | nil =>
    rw [List.append_nil, h₀] at hc
    rw [← World.running.inj hc]
    exact hP
  | append_singleton js j ih =>
    obtain ⟨x, hx, hxt⟩ := hs (js ++ [j]) (List.prefix_refl _) (by simp)
    obtain rfl := World.running.inj (hc.symm.trans hx)
    have hshort : Suspended lib identity is js :=
      fun ks hks hne => hs ks (hks.trans (List.prefix_append js [j])) hne
    obtain ⟨d, hd⟩ : ∃ d, (runSigner lib identity (is ++ js)).1 = .running d := by
      by_cases hjs : js = []
      · exact ⟨c₀, by rw [hjs, List.append_nil, h₀]⟩
      · obtain ⟨d, hd, _⟩ := hshort js (List.prefix_refl _) hjs
        exact ⟨d, hd⟩
    have hpd := ih hshort hd
    rw [← List.append_assoc] at hc
    rcases runSigner_step lib identity hd hc with rfl | ⟨e, hce⟩
    · exact hpd
    · exact hstep js d c e hd hpd hce hxt

/-- An operation that ends without applying a write keeps the journal, up to the
phase of an attempt that it was sending, and creates no permission. -/
theorem failed_operation_kept {j : Input} {e : Option Event}
    (h₀ : (runSigner lib identity is).1 = .running c₀) (ht₀ : c₀.task = none)
    (hs : Suspended lib identity is js) (hc : (runSigner lib identity (is ++ js)).1 = .running c)
    (hj : coordinatorStep lib identity j c = some (c', e)) (ht' : c'.task = none)
    (he : ∀ x, e = some x → x.isApplied = false) :
    (c'.persistence.current = c₀.persistence.current ∨
      c.task = some .sending ∧ Marked c₀.persistence.current c'.persistence.current) ∧
    (c'.broadcastPermit = none ∨ c'.broadcastPermit = c₀.broadcastPermit) := by
  have hP : KeptBy c₀.persistence.current c c.task ∧
      (c.broadcastPermit = none ∨ c.broadcastPermit = c₀.broadcastPermit) := by
    refine hs.keeps (P := fun d => KeptBy c₀.persistence.current d d.task ∧
      (d.broadcastPermit = none ∨ d.broadcastPermit = c₀.broadcastPermit)) h₀ hc ?_ ?_
    · rw [ht₀]
      exact ⟨rfl, Or.inr rfl⟩
    · intro ks d d' x hd hp hdd hdt'
      have hown := (runSigner_ownership lib identity _ hd).action.owner
      have hjournal := (runSigner_reached lib identity _ hd).journal
      constructor
      · by_cases hdt : d.task = none
        · have hsame : d.persistence.current = c₀.persistence.current := by
            have hkept := hp.1
            rw [hdt] at hkept
            exact hkept
          rw [← hsame]
          exact KeptBy.start hdt hdd hdt'
        · exact hp.1.step hjournal hown hdt hdd hdt'
      · rcases hdd.permit (hdd.applied hdt') with hn | hsame
        · exact Or.inl hn
        · rw [hsame]
          exact hp.2
  have hown := (runSigner_ownership lib identity _ hc).action.owner
  have hjournal := (runSigner_reached lib identity _ hc).journal
  have hcases := coordinatorStep_cases hj
  refine ⟨hP.1.finish hjournal hown hcases ht' he, ?_⟩
  rcases hcases.permit he with hn | hsame
  · exact Or.inl hn
  · rw [hsame]
    exact hP.2

end Runs

/-! The status before a preparation. -/

section Episode

variable {lib : TransactionLibrary} {identity : JournalIdentity} {c c' : SignerCoordinator}
  {e : Option Event}

theorem episodeOk_of_busy (h : c.busy = true) : c.EpisodeOk := by
  intro hopen
  simp [status, h] at hopen

theorem episodeOk_of_owner {o : InspectionOwner} (h : c.inspectionOwner = some o) :
    c.EpisodeOk := by
  intro hopen
  simp [status, h] at hopen

/-- Wherever the gate may open, the blocked episode is refreshed. -/
theorem CoordinatorStep.episode {v : JournalView} (hj : JournalInv v c)
    (hstep : CoordinatorStep lib identity c e c') : c'.EpisodeOk := by
  have hphase := hj.phase
  -- an owner or a task closes the gate, and every other step ends in a refresh
  cases hstep with
  | begun _ _ _ _ => exact episodeOk_of_owner rfl
  | owner _ _ => exact episodeOk_of_owner rfl
  | finished _ _ _ _ _ _ _ _ => exact episodeOk_refresh _ _
  | abandonmentCompleted _ _ _ => exact episodeOk_refresh _ _
  | headOpening _ _ _ _ _ _ => exact episodeOk_of_owner rfl
  | headAnswered _ _ _ => exact episodeOk_of_owner rfl
  | recovering _ _ _ _ _ _ _ _ => exact episodeOk_of_owner rfl
  | inspecting _ _ _ _ _ _ _ _ _ _ => exact episodeOk_of_owner rfl
  | inspectionRefused _ _ _ _ _ => exact episodeOk_settle _ _ _
  | recoverEnded _ _ _ _ => exact episodeOk_settle _ _ _
  | inclusionsEnded _ _ _ _ _ => exact episodeOk_settle _ _ _
  | inclusionsFailed _ _ _ => exact episodeOk_settle _ _ _
  | signing _ _ _ _ _ _ _ => exact episodeOk_of_busy rfl
  | prepareEnded _ => exact episodeOk_refresh _ _
  | wrote hplan _ _ =>
    cases hplan with
    | prepared hk _ _ =>
      rw [hk] at hphase
      exact episodeOk_of_busy hphase.1.1
    | broadcast _ _ => exact episodeOk_of_busy rfl
    | bootstrap hsome _ _ _ => exact episodeOk_of_owner hsome
    | recovery hsome _ _ _ _ => exact episodeOk_of_owner hsome
    | inclusions hsome _ _ _ _ => exact episodeOk_of_owner hsome
  | broadcastEnded _ => exact episodeOk_refresh _ _
  | sentAgain _ _ => exact episodeOk_of_busy rfl
  | retrying _ _ _ _ _ => exact episodeOk_of_busy rfl
  | acked hk _ =>
    rw [hk] at hphase
    exact episodeOk_of_busy hphase.1
  | storeFailed _ _ _ _ _ => exact episodeOk_refresh _ _
  | storeFailedOwned _ _ _ _ _ => exact episodeOk_settle _ _ _
  | resumed _ hr => exact hr.episode
  | sentMarked hk =>
    rw [hk] at hphase
    exact episodeOk_of_busy hphase.1
  | retried _ => exact episodeOk_refresh _ _
  | sendSettled _ => exact episodeOk_refresh _ _
  | observing hobs =>
    rcases hobs with ⟨rfl, _⟩ | ⟨rfl, now, rfl⟩
    · intro _ hactive
      cases hactive
    · exact episodeOk_refresh now { c with reconciliationObservationActive := false }

theorem runSigner_episode {is : List Input}
    (hc : (runSigner lib identity is).1 = .running c) : c.EpisodeOk := by
  refine (runSigner_running lib identity (fun _ c => c.EpisodeOk) (fun _ _ => True) ?_ ?_
    (fun _ _ => trivial) (fun _ _ => trivial) (fun _ _ _ => trivial) is).2 c hc
  · intro tr read c h _ hopen
    obtain ⟨_, hs⟩ := gateOpen_of_status hopen
    exact absurd (h.recoveryComplete.symm.trans hs.recovered) (by simp)
  · intro tr c e c' hr _ _ hstep
    exact ⟨fun _ _ => trivial, hstep.episode hr.journal⟩

end Episode

/-- The preparation that began in `c₀` has not planned its write. -/
structure SigningFrom (c₀ c : SignerCoordinator) : Prop where
  task : ∃ workId attemptId createdAt accountAddress transaction,
    c.task = some (.signing workId attemptId createdAt accountAddress transaction c₀.blockedSince
      c₀.inclusionChecksComplete)
  persistence : c.persistence = c₀.persistence
  capacity : c.maxRetainedAttempts = c₀.maxRetainedAttempts
  recoveryComplete : c.recoveryComplete = c₀.recoveryComplete
  blockers : c.blockers = c₀.blockers
  owner : c.inspectionOwner = none
  observation : c.reconciliationObservationActive = c₀.reconciliationObservationActive ∨
    c.reconciliationObservationActive = false

/-- The write of the preparation is planned. -/
def PreparingWrite (c : SignerCoordinator) : Prop :=
  ∃ a, c.task = some (.storing (.own (.prepared a))) ∨ c.task = some (.saved (.own (.prepared a)))

/-- The status that a failed preparation restores: the one it found, in which an
observation that ended meanwhile has closed its episode. -/
def restoredStatus (c₀ : SignerCoordinator) (observing : Bool) : SignerStatus :=
  if observing = c₀.reconciliationObservationActive then c₀.status
  else { c₀.status with blockedSince := none }

section Prepare

variable {lib : TransactionLibrary} {identity : JournalIdentity} {c₀ c c' : SignerCoordinator}
  {e : Option Event}

/-- A preparation under way holds the coordinator, and no inspection owns it. -/
theorem preparing_alone {v : JournalView} (hj : JournalInv v c)
    (ho : OwnerPhase c.inspectionOwner c.task) (h : SigningFrom c₀ c ∨ PreparingWrite c) :
    c.busy = true ∧ c.inspectionOwner = none := by
  have hphase := hj.phase
  rcases h with h | ⟨a, ha | ha⟩
  · obtain ⟨_, _, _, _, _, hk⟩ := h.task
    rw [hk] at hphase
    exact ⟨hphase.1.1, h.owner⟩
  · rw [ha] at hphase ho
    exact ⟨hphase.1, ho⟩
  · rw [ha] at hphase ho
    exact ⟨hphase.1, ho⟩

theorem SigningFrom.step {v : JournalView} (hj : JournalInv v c)
    (ho : OwnerPhase c.inspectionOwner c.task)
    (h : SigningFrom c₀ c ∨ PreparingWrite c) (hstep : CoordinatorStep lib identity c e c')
    (ht' : c'.task ≠ none) : SigningFrom c₀ c' ∨ PreparingWrite c' := by
  obtain ⟨hbusy, hno⟩ := preparing_alone hj ho h
  have hidle {p : Prop} (hb : c.busy = false) : p := absurd (hbusy.symm.trans hb) (by simp)
  have howner {p : Prop} {o : InspectionOwner} (hsome : c.inspectionOwner = some o) : p :=
    absurd (hno.symm.trans hsome) (by simp)
  -- a step that needs the coordinator free or owned is impossible here
  cases hstep with
  | begun _ hb _ _ => exact hidle hb
  | owner hsome _ => exact howner hsome
  | finished hsome _ _ _ _ _ _ _ => exact howner hsome
  | abandonmentCompleted hsome _ _ => exact howner hsome
  | headOpening hsome _ _ _ _ _ => exact howner hsome
  | recovering hsome _ _ _ _ _ _ _ => exact howner hsome
  | inspecting hsome _ _ _ _ _ _ _ _ _ => exact howner hsome
  | signing _ hb _ _ _ _ _ => exact hidle hb
  | wrote hplan _ _ =>
    cases hplan with
    | prepared _ _ _ => exact Or.inr ⟨_, Or.inl rfl⟩
    | broadcast hsend _ => exact hidle hsend.busy
    | bootstrap hsome _ _ _ => exact howner hsome
    | recovery hsome _ _ _ _ => exact howner hsome
    | inclusions hsome _ _ _ _ => exact howner hsome
  | sentAgain hsend _ => exact hidle hsend.busy
  | retrying _ hb _ _ _ => exact hidle hb
  -- the acknowledged save can only be that of the prepared attempt
  | @acked k _ hk _ =>
    right
    rcases h with h | ⟨a, ha | ha⟩
    · obtain ⟨_, _, _, _, _, hs⟩ := h.task
      cases hs.symm.trans hk
    · have hka : k = .own (.prepared a) := by
        have := ha.symm.trans hk
        simpa using this.symm
      exact ⟨a, Or.inr (by rw [hka])⟩
    · cases ha.symm.trans hk
  | sentMarked hk =>
    rcases h with h | ⟨a, ha | ha⟩
    · obtain ⟨_, _, _, _, _, hs⟩ := h.task
      cases hs.symm.trans hk
    · cases ha.symm.trans hk
    · cases ha.symm.trans hk
  | observing hobs =>
    rcases h with h | hw
    · refine Or.inl ⟨h.task, h.persistence, h.capacity, h.recoveryComplete, h.blockers, h.owner, ?_⟩
      rcases hobs with ⟨_, _, _, hb⟩ | ⟨rfl, _⟩
      · exact hidle hb
      · exact Or.inr rfl
    · exact Or.inr hw
  | resumed _ hr => exact absurd hr.task ht'
  | _ => exact absurd rfl ht'

theorem prepareAttempt_from {now : Timestamp} {workId : WorkId} {attemptId : AttemptId}
    {accountAddress : Address} {transaction : PreparedRelayerTransaction}
    (h : c₀.prepareAttempt now workId attemptId accountAddress transaction = some (c, e)) :
    SigningFrom c₀ c ∧ c₀.status.isOpen = true ∧ c₀.pendingWrite = none := by
  unfold prepareAttempt at h
  split_ifs at h with hg
  simp only [Bool.and_eq_true, assertAvailable_iff, noPendingWrite_iff] at hg
  obtain ⟨s, _, h⟩ := Option.bind_eq_some_iff.mp h
  split_ifs at h
  obtain ⟨rfl, _⟩ := Prod.mk.inj (Option.some.inj h)
  obtain ⟨⟨⟨⟨hno, _⟩, hp, _⟩, hopen⟩, _⟩ := hg
  exact ⟨⟨⟨_, _, _, _, _, rfl⟩, rfl, rfl, rfl, rfl, hno, Or.inl rfl⟩, hopen, hp⟩

/-- The end of a preparation that failed before its write was planned. -/
theorem SigningFrom.restored {now : Timestamp} (hopen : c₀.status.isOpen = true)
    (hep : c₀.EpisodeOk) (h : SigningFrom c₀ c) :
    ({ c with
      pendingWrite := none
      blockedSince := c₀.blockedSince
      inclusionChecksComplete := c₀.inclusionChecksComplete }.release now).status =
        restoredStatus c₀ c.reconciliationObservationActive := by
  -- all that the gate reads is as it was, so that only the time may differ
  obtain ⟨_, hs⟩ := gateOpen_of_status hopen
  have hgate : ({ c with
      pendingWrite := none
      blockedSince := c₀.blockedSince
      inclusionChecksComplete := c₀.inclusionChecksComplete
      busy := false
      task := none } : SignerCoordinator).status = c₀.status := by
    simp only [status, h.persistence, h.recoveryComplete, h.capacity, h.blockers, h.owner, hs.busy,
      hs.owner]
  have hsince : ({ c with
      pendingWrite := none
      blockedSince := c₀.blockedSince
      inclusionChecksComplete := c₀.inclusionChecksComplete
      busy := false
      task := none } : SignerCoordinator).refreshedSince now =
        if c.reconciliationObservationActive then c₀.blockedSince else none := by
    unfold refreshedSince
    rw [hgate, if_pos hopen]
  have hstatus (d : SignerCoordinator) :
      (d.refresh now).status = { d.status with blockedSince := d.refreshedSince now } := rfl
  unfold release
  rw [hstatus, hgate, hsince]
  unfold restoredStatus
  -- an observation that began or ended since decides what happens to it
  rcases h.observation with hobs | hobs
  · rw [if_pos hobs]
    cases hactive : c.reconciliationObservationActive with
    | true => rfl
    | false =>
      have hnone := hep hopen (hobs.symm.trans hactive)
      rw [← hnone]
      rfl
  · rw [hobs]
    cases hactive : c₀.reconciliationObservationActive with
    | true => rfl
    | false =>
      have hnone := hep hopen hactive
      rw [if_pos rfl, ← hnone]
      rfl

/-- A preparation that ends with persistence idle, and applies no write, restores
the state in which it was accepted. -/
theorem SigningFrom.finish {v : JournalView} (hj : JournalInv v c)
    (ho : OwnerPhase c.inspectionOwner c.task) (hopen : c₀.status.isOpen = true)
    (hp₀ : c₀.pendingWrite = none) (hep : c₀.EpisodeOk)
    (h : SigningFrom c₀ c ∨ PreparingWrite c)
    (hstep : CoordinatorStep lib identity c e c') (ht' : c'.task = none)
    (he : ∀ x, e = some x → x.isApplied = false) (hidle : c'.persistence.state = .idle) :
    c'.status = restoredStatus c₀ c'.reconciliationObservationActive ∧
      c'.persistence = c₀.persistence ∧ c'.busy = false ∧ c'.inspectionOwner = none ∧
      c'.pendingWrite = c₀.pendingWrite := by
  obtain ⟨hbusy, hno⟩ := preparing_alone hj ho h
  have hfree {p : Prop} (hb : c.busy = false) : p := absurd (hbusy.symm.trans hb) (by simp)
  have howner {p : Prop} {o : InspectionOwner} (hsome : c.inspectionOwner = some o) : p :=
    absurd (hno.symm.trans hsome) (by simp)
  have htask : c.task ≠ none := by
    rcases h with h | ⟨a, ha | ha⟩
    · obtain ⟨_, _, _, _, _, hk⟩ := h.task
      simp [hk]
    · simp [ha]
    · simp [ha]
  -- the only end that is left is that of a signing which saved nothing
  cases hstep with
  | begun _ hb _ _ => exact hfree hb
  | owner hsome _ => exact howner hsome
  | finished hsome _ _ _ _ _ _ _ => exact howner hsome
  | abandonmentCompleted hsome _ _ => exact howner hsome
  | headAnswered hsome _ _ => exact howner hsome
  | inspectionRefused hsome _ _ _ _ => exact howner hsome
  | recoverEnded hsome _ _ _ => exact howner hsome
  | inclusionsEnded hsome _ _ _ _ => exact howner hsome
  | inclusionsFailed hsome _ _ => exact howner hsome
  | prepareEnded hk =>
    rcases h with h | ⟨a, ha | ha⟩
    · obtain ⟨_, _, _, _, _, hs⟩ := h.task
      cases hs.symm.trans hk
      exact ⟨h.restored hopen hep, h.persistence, rfl, h.owner, hp₀.symm⟩
    · cases ha.symm.trans hk
    · cases ha.symm.trans hk
  | broadcastEnded hsend => exact hfree hsend.busy
  | storeFailed _ _ _ _ _ => cases hidle
  | storeFailedOwned _ _ _ _ _ => cases hidle
  | resumed _ _ => exact absurd (he _ rfl) (by simp [Event.isApplied])
  | retried _ => exact absurd (he _ rfl) (by simp [Event.isApplied])
  | sendSettled hk =>
    rcases h with h | ⟨a, ha | ha⟩
    · obtain ⟨_, _, _, _, _, hs⟩ := h.task
      cases hs.symm.trans hk
    · cases ha.symm.trans hk
    · cases ha.symm.trans hk
  | observing _ => exact absurd ht' htask
  | _ => cases ht'

/-- The same, along a run. -/
theorem failed_preparation_restored {is js : List Input} {i j : Input} {workId : WorkId}
    {attemptId : AttemptId} {accountAddress : Address} {transaction : PreparedRelayerTransaction}
    {c₁ : SignerCoordinator} {e₁ : Option Event}
    (h₀ : (runSigner lib identity is).1 = .running c₀)
    (hi : i.action = .prepareAttempt workId attemptId accountAddress transaction)
    (h₁ : coordinatorStep lib identity i c₀ = some (c₁, e₁))
    (hs : Suspended lib identity (is ++ [i]) js)
    (hc : (runSigner lib identity (is ++ [i] ++ js)).1 = .running c)
    (hj : coordinatorStep lib identity j c = some (c', e)) (ht' : c'.task = none)
    (he : ∀ x, e = some x → x.isApplied = false) (hidle : c'.persistence.state = .idle) :
    c'.status = restoredStatus c₀ c'.reconciliationObservationActive ∧
      c'.persistence = c₀.persistence ∧
      ∀ now w a account t, (c'.prepareAttempt now w a account t).isSome =
        (c₀.prepareAttempt now w a account t).isSome := by
  obtain ⟨now, action⟩ := i
  subst hi
  obtain ⟨hfrom, hopen, hp₀⟩ := prepareAttempt_from h₁
  have hrun₁ : (runSigner lib identity (is ++ [⟨now, .prepareAttempt workId attemptId accountAddress
      transaction⟩])).1 = .running c₁ := by
    rw [runSigner_advance h₀ (by simp)]
    unfold advance
    rw [h₁]
    rfl
  -- no step between the call and its end leaves the preparation
  have hP : SigningFrom c₀ c ∨ PreparingWrite c := by
    refine hs.keeps (P := fun d => SigningFrom c₀ d ∨ PreparingWrite d) hrun₁ hc (Or.inl hfrom) ?_
    intro ks d d' x hd hp hdd hdt'
    have hown := (runSigner_ownership lib identity _ hd).action.owner
    have hjournal := (runSigner_reached lib identity _ hd).journal
    exact SigningFrom.step hjournal hown hp hdd hdt'
  have hown := (runSigner_ownership lib identity _ hc).action.owner
  have hjournal := (runSigner_reached lib identity _ hc).journal
  obtain ⟨hstatus, hpersistence, hb, ho, hp⟩ := SigningFrom.finish hjournal hown hopen hp₀
    (runSigner_episode h₀) hP (coordinatorStep_cases hj) ht' he hidle
  refine ⟨hstatus, hpersistence, ?_⟩
  intro now' w a account t
  -- what the next preparation looks at is as it was
  obtain ⟨_, hgate⟩ := gateOpen_of_status hopen
  have hopen' : c'.status.isOpen = c₀.status.isOpen := by
    rw [hstatus]
    unfold restoredStatus
    split <;> rfl
  unfold prepareAttempt assertAvailable noPendingWrite
  rw [hopen', hpersistence, hb, ho, hp, hgate.busy, hgate.owner]
  split
  · cases c₀.persistence.current with
    | none => rfl
    | some s =>
      simp only [Option.bind_some]
      split <;> rfl
  · rfl

end Prepare

end Quicknet
