import Quicknet.SubmissionRecording

/-! Runs of the manager. Each is a run of the signer below it, so what is known of
every reachable coordinator holds here, and the recording of every submission that
throws is exact. -/
namespace Quicknet

open Interaction Transition SignerCoordinator

section Managed

variable (lib : TransactionLibrary) (identity : JournalIdentity)

inductive ManagerStep : Managed → Option ManagerEvent → Managed → Prop
  | world {w w' : World} {operation : Option ManagerOperation} {e : Option Event} {i : Input} :
      worldStep lib identity i w = some (w', e) →
      ((∀ c, w ≠ .running c) ∨ ∀ c, w' ≠ .running c) →
      ManagerStep ⟨w, operation⟩ (e.map .signer) ⟨w', none⟩
  | signer {c c' : SignerCoordinator} {operation : ManagerOperation} {e : Option Event}
      {i : Input} : operation.admits i.action = true →
      coordinatorStep lib identity i c = some (c', e) →
      ManagerStep ⟨.running c, some operation⟩ (e.map .signer)
        ⟨.running c', some (operation.after c.task c'.task e)⟩
  | reconcile {c : SignerCoordinator} :
      ManagerStep ⟨.running c, none⟩ none ⟨.running c, some .reconcile⟩
  | reconciled {c : SignerCoordinator} :
      ManagerStep ⟨.running c, some .reconcile⟩ none ⟨.running c, none⟩
  | submit {c : SignerCoordinator} {workId : WorkId} :
      ManagerStep ⟨.running c, none⟩ (some (.entered workId))
        ⟨.running c, some (.submit workId .captured)⟩
  | submission {c : SignerCoordinator} {workId : WorkId} {stage : SubmissionStage}
      {i : ManagerInput} {e : Option ManagerEvent} {m : Managed} :
      submissionStep lib identity i c workId stage = some (m, e) →
      ManagerStep ⟨.running c, some (.submit workId stage)⟩ e m

variable {lib identity}

theorem signerStep_cases {i : Input} {m m' : Managed} {e : Option ManagerEvent}
    (h : signerStep lib identity i m = some (m', e)) : ManagerStep lib identity m e m' := by
  obtain ⟨w, operation⟩ := m
  -- a crash ends the operation with the process
  have hcrash {c : SignerCoordinator} (hi : i.action = .crash)
      (h : (worldStep lib identity i (.running c)).map (fun r =>
        ((⟨r.1, none⟩ : Managed), r.2.map ManagerEvent.signer)) = some (m', e)) :
      ManagerStep lib identity ⟨.running c, operation⟩ e m' := by
    obtain ⟨r, hr, heq⟩ := Option.map_eq_some_iff.mp h
    obtain ⟨rfl, rfl⟩ := Prod.mk.inj heq
    refine .world hr (Or.inr ?_)
    simp only [worldStep, hi, Option.some.injEq] at hr
    intro d hd
    rw [← hr] at hd
    cases hd
  unfold signerStep at h
  split at h
  · rename_i c o hw ho
    obtain rfl : w = .running c := hw
    obtain rfl : operation = some o := ho
    split_ifs at h with hadm
    · obtain ⟨r, hr, heq⟩ := Option.map_eq_some_iff.mp h
      obtain ⟨rfl, rfl⟩ := Prod.mk.inj heq
      exact .signer hadm hr
    · split at h
      · rename_i hi
        exact hcrash hi h
      · cases h
  · rename_i c hw ho
    obtain rfl : w = .running c := hw
    split at h
    · rename_i hi
      exact hcrash hi h
    · cases h
  -- no process is running
  · rename_i hsome hnone
    obtain ⟨r, hr, heq⟩ := Option.map_eq_some_iff.mp h
    obtain ⟨rfl, rfl⟩ := Prod.mk.inj heq
    refine .world hr (Or.inl ?_)
    intro c hc
    cases operation with
    | none => exact hnone c hc rfl
    | some o => exact hsome c o hc rfl

theorem managerStep_cases {i : ManagerInput} {m m' : Managed} {e : Option ManagerEvent}
    (h : managerStep lib identity i m = some (m', e)) : ManagerStep lib identity m e m' := by
  obtain ⟨w, operation⟩ := m
  unfold managerStep at h
  split at h
  · exact signerStep_cases h
  · rename_i hw ho
    obtain rfl := hw
    obtain rfl := ho
    obtain ⟨rfl, rfl⟩ := Prod.mk.inj (Option.some.inj h)
    exact .reconcile
  · rename_i hw ho
    obtain rfl := hw
    obtain rfl := ho
    obtain ⟨rfl, rfl⟩ := Prod.mk.inj (Option.some.inj h)
    exact .submit
  · rename_i hw ho
    obtain rfl := hw
    obtain rfl := ho
    split_ifs at h
    obtain ⟨rfl, rfl⟩ := Prod.mk.inj (Option.some.inj h)
    exact .reconciled
  · rename_i hw ho _
    obtain rfl := hw
    obtain rfl := ho
    exact .submission h
  · cases h

end Managed

section Runs

variable {lib : TransactionLibrary} {identity : JournalIdentity}

theorem filterMap_signer (tr : List ManagerEvent) (e : Option Event) :
    (tr ++ (e.map ManagerEvent.signer).toList).filterMap ManagerEvent.signer? =
      tr.filterMap ManagerEvent.signer? ++ e.toList := by
  cases e with
  | none => simp
  | some e => simp [ManagerEvent.signer?]

theorem filterMap_own (tr : List ManagerEvent) {x : ManagerEvent} (hx : x.signer? = none) :
    (tr ++ [x]).filterMap ManagerEvent.signer? = tr.filterMap ManagerEvent.signer? := by
  rw [List.filterMap_append, List.filterMap_cons_none hx, List.filterMap_nil, List.append_nil]

variable (lib identity)

/-- After the trace `tr` the manager stands over a run of the signer, and its
submission has created what its stage says. -/
structure ManagedInv (tr : List ManagerEvent) (m : Managed) : Prop where
  signer : ∃ js, runSigner lib identity js = (m.world, tr.filterMap ManagerEvent.signer?)
  submission : ∀ workId stage, m.operation = some (.submit workId stage) →
    ∃ c, m.world = .running c ∧ SubmissionInv workId (createdAttempts tr) c stage

variable {lib identity} {tr : List ManagerEvent} {m m' : Managed} {e : Option ManagerEvent}

theorem ManagedInv.journal (h : ManagedInv lib identity tr m) {c : SignerCoordinator}
    (hc : m.world = .running c) : ∃ v, JournalInv v c := by
  obtain ⟨js, hjs⟩ := h.signer
  have hrun : (runSigner lib identity js).1 = .running c := by
    rw [hjs]
    exact hc
  exact ⟨_, (runSigner_reached lib identity js hrun).journal⟩

/-- The manager's own events leave the run below as it is. -/
theorem ManagedInv.own {x : ManagerEvent} (h : ManagedInv lib identity tr m)
    (hx : x.signer? = none) :
    ∃ js, runSigner lib identity js =
      (m.world, (tr ++ [x]).filterMap ManagerEvent.signer?) := by
  obtain ⟨js, hjs⟩ := h.signer
  exact ⟨js, by rw [filterMap_own tr hx]; exact hjs⟩

/-- A step of the signer below carries its run on. -/
theorem ManagedInv.extend {j : Input} {w' : World} {x : Option Event}
    (h : ManagedInv lib identity tr m) (hs : worldStep lib identity j m.world = some (w', x)) :
    ∃ js, runSigner lib identity js =
      (w', (tr ++ (x.map ManagerEvent.signer).toList).filterMap ManagerEvent.signer?) := by
  obtain ⟨js, hjs⟩ := h.signer
  exact ⟨js ++ [j], by rw [filterMap_signer]; exact runSigner_append hjs hs⟩

theorem ManagerOperation.admits_ne_crash {operation : ManagerOperation} {action : Action}
    (h : operation.admits action = true) : action ≠ .crash := by
  rintro rfl
  cases operation with
  | reconcile => cases h
  | submit workId stage => cases stage <;> cases h

/-- The step lemma of the manager. -/
theorem ManagedInv.step (h : ManagedInv lib identity tr m)
    (hs : ManagerStep lib identity m e m') : ManagedInv lib identity (tr ++ e.toList) m' := by
  cases hs with
  | world hw _ => exact ⟨h.extend hw, by simp⟩
  | @signer c c' operation x j hadm hstep =>
    have hworld := worldStep_of_running hstep
    refine ⟨h.extend hworld, ?_⟩
    intro workId stage' hop
    cases operation with
    | reconcile => cases hop
    | submit w stage =>
      obtain ⟨d, hd, hi⟩ := h.submission w stage rfl
      obtain rfl := World.running.inj hd
      obtain ⟨stage'', heq, hi'⟩ := hi.signer hadm hstep
      rw [heq] at hop
      obtain ⟨rfl, rfl⟩ := ManagerOperation.submit.inj (Option.some.inj hop)
      exact ⟨c', rfl, by rw [createdAttempts_signer]; exact hi'⟩
  | reconcile => exact ⟨by simpa using h.signer, by simp⟩
  | reconciled => exact ⟨by simpa using h.signer, by simp⟩
  | @submit c workId =>
    refine ⟨h.own rfl, ?_⟩
    intro w stage hop
    obtain ⟨rfl, rfl⟩ := ManagerOperation.submit.inj (Option.some.inj hop)
    exact ⟨c, rfl, createdAttempts_entered tr workId⟩
  | @submission c workId stage i _ _ hsub =>
    obtain ⟨d, hd, hi⟩ := h.submission workId stage rfl
    obtain rfl := World.running.inj hd
    obtain ⟨v, hj⟩ := h.journal rfl
    -- the submission waits, calls the signer, or ends
    cases submissionStep_continues hj hi hsub with
    | waits hi' =>
      refine ⟨by simpa using h.signer, ?_⟩
      intro w stage' hop
      obtain ⟨rfl, rfl⟩ := ManagerOperation.submit.inj (Option.some.inj hop)
      exact ⟨c, rfl, by simpa using hi'⟩
    | @calls j c' x stage' _ hstep hi' =>
      refine ⟨h.extend (worldStep_of_running hstep), ?_⟩
      intro w stage'' hop
      obtain ⟨rfl, rfl⟩ := ManagerOperation.submit.inj (Option.some.inj hop)
      exact ⟨c', rfl, by rw [createdAttempts_signer]; exact hi'⟩
    | returned => exact ⟨h.own rfl, by simp⟩
    | thrown _ => exact ⟨h.own rfl, by simp⟩

/-- The callers of `workId` resubmit on the recording `none` alone, and their process
lives on: no submission of `workId` ends otherwise. -/
structure ResubmitsOnNone (workId : WorkId) (mid : List ManagerEvent) : Prop where
  returned : ∀ result, .returned workId result ∉ mid
  thrown : ∀ recording, .thrown workId recording ∈ mid → recording = .none
  alive : ∀ read, .signer (.loaded read) ∉ mid

/-- The attempts prepared for a work identity. -/
def preparedFor (workId : WorkId) (mid : List ManagerEvent) : List JournalAttempt :=
  (mid.filterMap (·.prepared?)).filter fun a => a.workId == workId

/-- While the callers resubmit, one attempt is prepared at most: it belongs to the
submission in progress, or the process has ended with it. -/
structure ChainInv (workId : WorkId) (tr mid : List ManagerEvent) (m : Managed) : Prop where
  single : (preparedFor workId mid).length ≤ 1
  current : preparedFor workId mid ≠ [] →
    (∃ stage, m.operation = some (.submit workId stage) ∧ createdAttempts tr ≠ []) ∨
    ∀ c, m.world ≠ .running c

section Chain

variable {workId : WorkId} {mid : List ManagerEvent} {c c' : SignerCoordinator}
  {stage stage' : SubmissionStage} {x : Option Event}

theorem preparedFor_append (workId : WorkId) (mid : List ManagerEvent) (e : Option ManagerEvent) :
    preparedFor workId (mid ++ e.toList) = preparedFor workId mid ++
      (e.bind (·.prepared?)).toList.filter fun a => a.workId == workId := by
  cases e with
  | none => simp [preparedFor]
  | some e =>
    cases he : e.prepared? with
    | none => simp [preparedFor, he]
    | some a => simp [preparedFor, he]

theorem preparedFor_same {e : Option ManagerEvent} (he : e.bind (·.prepared?) = none) :
    preparedFor workId (mid ++ e.toList) = preparedFor workId mid := by
  rw [preparedFor_append, he]
  simp

/-- A submission creates one attempt at most, for its own work identity. -/
theorem SubmissionInv.created {created : List JournalAttempt}
    (h : SubmissionInv workId created c stage) :
    created.length ≤ 1 ∧ ∀ a ∈ created, a.workId = workId := by
  have hnil (h : created = []) : created.length ≤ 1 ∧ ∀ a ∈ created, a.workId = workId := by
    subst h
    exact ⟨by simp, by simp⟩
  have hone {b : JournalAttempt} (h : created = [b]) (hb : b.workId = workId) :
      created.length ≤ 1 ∧ ∀ a ∈ created, a.workId = workId := by
    subst h
    refine ⟨by simp, fun a ha => ?_⟩
    rw [List.mem_singleton.mp ha]
    exact hb
  cases stage with
  | captured => exact hnil h
  | reconciling => exact hnil h
  | preparingTransaction => exact hnil h.1
  | preparingAttempt =>
    rcases h with ⟨h, _⟩ | ⟨a, h, ⟨_, hp⟩ | ⟨_, hp⟩⟩
    · exact hnil h
    · exact hone h hp.work
    · exact hone h hp.work
  | attemptPrepared result =>
    cases result with
    | none =>
      rcases h with ⟨h, _⟩ | ⟨a, h, hp, _⟩
      · exact hnil h
      · exact hone h hp.work
    | some result =>
      cases result with
      | alreadyRetained _ => exact h.elim
      | prepared _ =>
        obtain ⟨a, h, _, hp⟩ := h
        exact hone h hp.work
  | broadcasting _ =>
    obtain ⟨a, h, _, hp, _⟩ := h
    exact hone h hp.work
  | broadcastSettled _ _ =>
    obtain ⟨a, h, _, hp⟩ := h
    exact hone h hp.work

/-- A call of the coordinator by the submission in progress. -/
theorem ChainInv.calls {w : WorkId}
    (h : ChainInv workId tr mid ⟨.running c, some (.submit w stage)⟩)
    (hi : SubmissionInv w (createdAttempts tr ++ (x.bind (·.prepared?)).toList) c' stage') :
    ChainInv workId (tr ++ (x.map ManagerEvent.signer).toList)
      (mid ++ (x.map ManagerEvent.signer).toList) ⟨.running c', some (.submit w stage')⟩ := by
  have hprepared : (x.map ManagerEvent.signer).bind (·.prepared?) = x.bind (·.prepared?) := by
    cases x <;> rfl
  have hcurrent (hne : preparedFor workId mid ≠ []) :
      w = workId ∧ createdAttempts tr ≠ [] := by
    rcases h.current hne with ⟨s, hop, hc⟩ | hn
    · exact ⟨(ManagerOperation.submit.inj (Option.some.inj hop)).1, hc⟩
    · exact absurd rfl (hn c)
  obtain ⟨hsingle, hwork⟩ := hi.created
  cases hx : x.bind (·.prepared?) with
  | none =>
    rw [hx] at hprepared
    refine ⟨by rw [preparedFor_same hprepared]; exact h.single, ?_⟩
    rw [preparedFor_same hprepared]
    intro hne
    obtain ⟨rfl, hc⟩ := hcurrent hne
    refine Or.inl ⟨stage', rfl, ?_⟩
    rw [createdAttempts_signer, hx]
    simpa using hc
  | some a =>
    rw [hx] at hprepared hsingle hwork
    -- the submission had created nothing before, so nothing was prepared for its work
    have hnil : createdAttempts tr = [] := by
      rw [List.length_append] at hsingle
      apply List.eq_nil_of_length_eq_zero
      simp only [Option.toList_some, List.length_singleton] at hsingle
      omega
    have haw : a.workId = w := hwork a (by simp)
    have hempty : preparedFor workId mid = [] := by
      by_contra hne
      exact (hcurrent hne).2 hnil
    constructor
    · rw [preparedFor_append, hempty, hprepared, List.nil_append]
      exact List.length_filter_le _ _
    · intro hne
      rw [preparedFor_append, hempty, hprepared, List.nil_append] at hne
      have hw : w = workId := by
        by_contra hn
        apply hne
        simp [haw, hn]
      subst hw
      refine Or.inl ⟨stage', rfl, ?_⟩
      rw [createdAttempts_signer, hx]
      simp

theorem worldStep_prepares_nothing {w w' : World} {j : Input}
    (hs : worldStep lib identity j w = some (w', x))
    (hw : (∀ c, w ≠ .running c) ∨ ∀ c, w' ≠ .running c) :
    x.bind (·.prepared?) = none ∧
      ((∃ read, x = some (.loaded read)) ∨ ∀ c, w' ≠ .running c) := by
  cases worldStep_cases hs with
  | @process c c' _ _ =>
    rcases hw with hw | hw
    · exact absurd rfl (hw c)
    · exact absurd rfl (hw c')
  | restarted _ => exact ⟨rfl, Or.inl ⟨_, rfl⟩⟩
  | _ => exact ⟨rfl, Or.inr (by simp)⟩

theorem ChainInv.step (h : ChainInv workId tr mid m) (hinv : ManagedInv lib identity tr m)
    (hs : ManagerStep lib identity m e m') (hr : ResubmitsOnNone workId (mid ++ e.toList)) :
    ChainInv workId (tr ++ e.toList) (mid ++ e.toList) m' := by
  have hnone {c : SignerCoordinator} {o : Option ManagerOperation} (hm : m = ⟨.running c, o⟩)
      (ho : ∀ stage, o ≠ some (.submit workId stage)) : preparedFor workId mid = [] := by
    subst hm
    by_contra hne
    rcases h.current hne with ⟨stage, hop, _⟩ | hn
    · exact ho stage hop
    · exact hn c rfl
  have hquiet (hempty : preparedFor workId mid = []) (he : e.bind (·.prepared?) = none) :
      ChainInv workId (tr ++ e.toList) (mid ++ e.toList) m' := by
    rw [← preparedFor_same he] at hempty
    exact ⟨by simp [hempty], fun hne => absurd hempty hne⟩
  cases hs with
  | @world _ _ _ x _ hw hrun =>
    obtain ⟨hp, hend⟩ := worldStep_prepares_nothing hw hrun
    have hprepared : (x.map ManagerEvent.signer).bind (·.prepared?) = none := by
      cases x with
      | none => rfl
      | some x => exact hp
    rcases hend with ⟨read, rfl⟩ | hstopped
    · exact absurd (by simp) (hr.alive read)
    · refine ⟨?_, fun _ => Or.inr hstopped⟩
      rw [preparedFor_same hprepared]
      exact h.single
  | @signer c c' operation x j hadm hstep =>
    cases operation with
    | reconcile =>
      refine hquiet (hnone rfl (by simp)) ?_
      have hp := recovery_prepares_nothing hadm hstep
      cases x with
      | none => rfl
      | some x => exact hp
    | submit w stage =>
      obtain ⟨d, hd, hi⟩ := hinv.submission w stage rfl
      obtain rfl := World.running.inj hd
      obtain ⟨stage', heq, hi'⟩ := hi.signer hadm hstep
      rw [heq]
      exact h.calls hi'
  | reconcile => exact hquiet (hnone rfl (by simp)) rfl
  | reconciled => exact hquiet (hnone rfl (by simp)) rfl
  | submit => exact hquiet (hnone rfl (by simp)) rfl
  | @submission c w stage i _ _ hsub =>
    obtain ⟨d, hd, hi⟩ := hinv.submission w stage rfl
    obtain rfl := World.running.inj hd
    obtain ⟨v, hj⟩ := hinv.journal rfl
    have hother (hne : w ≠ workId) : preparedFor workId mid = [] := by
      refine hnone rfl ?_
      intro s hop
      exact hne (ManagerOperation.submit.inj (Option.some.inj hop)).1
    cases submissionStep_continues hj hi hsub with
    | waits hi' => exact h.calls (x := none) (by simpa using hi')
    | calls _ _ hi' => exact h.calls hi'
    | @returned result =>
      refine hquiet (hother ?_) rfl
      rintro rfl
      exact hr.returned result (by simp)
    | @thrown recording hexact =>
      refine hquiet ?_ rfl
      by_cases hw : w = workId
      · subst hw
        -- the caller was told `none`, so its submission had created nothing
        have hcreated := hexact.resubmit (hr.thrown recording (by simp))
        by_contra hne
        rcases h.current hne with ⟨_, _, hc⟩ | hn
        · exact hc hcreated
        · exact hn c rfl
      · exact hother hw

end Chain

variable (lib identity)

/-- The trace of a run, with the state at its end. -/
structure RunInv (tr : List ManagerEvent) (m : Managed) : Prop where
  managed : ManagedInv lib identity tr m
  chain : ∀ workId pre mid, tr = pre ++ mid → ResubmitsOnNone workId mid →
    ChainInv workId tr mid m
  single : ∀ workId pre mid post, tr = pre ++ mid ++ post → ResubmitsOnNone workId mid →
    (preparedFor workId mid).length ≤ 1

variable {lib identity}

/-- A suffix of the longer trace is empty, or ends with the event of the step. -/
theorem suffix_append_option {pre mid : List ManagerEvent} (heq : tr ++ e.toList = pre ++ mid) :
    mid = [] ∨ ∃ short, tr = pre ++ short ∧ mid = short ++ e.toList := by
  rcases List.eq_nil_or_concat mid with rfl | ⟨short, last, rfl⟩
  · exact Or.inl rfl
  · right
    rw [List.concat_eq_append] at heq ⊢
    cases e with
    | none => exact ⟨short ++ [last], by simpa using heq, by simp⟩
    | some y =>
      rw [← List.append_assoc] at heq
      obtain ⟨htr, hy⟩ := List.append_inj' heq rfl
      exact ⟨short, htr, by rw [hy]⟩

theorem RunInv.step (h : RunInv lib identity tr m) (hs : ManagerStep lib identity m e m') :
    RunInv lib identity (tr ++ e.toList) m' := by
  have hchain : ∀ workId pre mid, tr ++ e.toList = pre ++ mid → ResubmitsOnNone workId mid →
      ChainInv workId (tr ++ e.toList) mid m' := by
    intro workId pre mid heq hr
    rcases suffix_append_option heq with rfl | ⟨short, htr, rfl⟩
    · exact ⟨by simp [preparedFor], fun hne => absurd rfl hne⟩
    · have hshort : ResubmitsOnNone workId short :=
        ⟨fun result hm => hr.returned result (List.mem_append_left _ hm),
          fun recording hm => hr.thrown recording (List.mem_append_left _ hm),
          fun read hm => hr.alive read (List.mem_append_left _ hm)⟩
      exact (h.chain workId pre short htr hshort).step h.managed hs hr
  refine ⟨h.managed.step hs, hchain, ?_⟩
  intro workId pre mid post heq hr
  rcases suffix_append_option heq with rfl | ⟨short, htr, _⟩
  · rw [List.append_nil] at heq
    exact (hchain workId pre mid heq hr).single
  · exact h.single workId pre mid short htr hr

variable (lib identity)

theorem runManager_inv (is : List ManagerInput) :
    RunInv lib identity (runManager lib identity is).2 (runManager lib identity is).1 := by
  refine (managerSystem lib identity).run_invariant (fun m tr => RunInv lib identity tr m)
    ⟨⟨⟨[], rfl⟩, by simp [managerSystem]⟩, ?_, ?_⟩ ?_ is
  · intro workId pre mid heq _
    obtain ⟨_, rfl⟩ := List.append_eq_nil_iff.mp heq.symm
    exact ⟨by simp [preparedFor], fun hne => absurd rfl hne⟩
  · intro workId pre mid post heq _
    obtain ⟨hpre, _⟩ := List.append_eq_nil_iff.mp heq.symm
    obtain ⟨_, rfl⟩ := List.append_eq_nil_iff.mp hpre
    simp [preparedFor]
  · intro i m tr m' e h hs
    exact h.step (managerStep_cases hs)

/-- The recording attached to the error of a submission is exact, and callers that
resubmit on `none` alone create one attempt at most. -/
theorem submission_recording (is : List ManagerInput) :
    (∀ i m' workId recording, managerStep lib identity i (runManager lib identity is).1 =
        some (m', some (.thrown workId recording)) →
      ∃ c, m'.world = .running c ∧
        RecordingExact (createdAttempts (runManager lib identity is).2) c recording) ∧
    ∀ workId pre mid post, (runManager lib identity is).2 = pre ++ mid ++ post →
      ResubmitsOnNone workId mid → (preparedFor workId mid).length ≤ 1 := by
  have hrun := runManager_inv lib identity is
  refine ⟨?_, hrun.single⟩
  intro i m' workId recording hs
  generalize hm : (runManager lib identity is).1 = m at hs hrun
  generalize hx : some (ManagerEvent.thrown workId recording) = x at hs
  cases managerStep_cases hs with
  | @world _ _ _ e _ _ _ => cases e <;> cases hx
  | @signer _ _ _ e _ _ _ => cases e <;> cases hx
  | @submission c w stage i _ _ hsub =>
    obtain ⟨d, hd, hi⟩ := hrun.managed.submission w stage rfl
    obtain rfl := World.running.inj hd
    obtain ⟨v, hj⟩ := hrun.managed.journal rfl
    subst hx
    generalize hx : some (ManagerEvent.thrown workId recording) = x at hsub
    cases submissionStep_continues hj hi hsub with
    | @calls _ _ e _ _ _ _ => cases e <;> cases hx
    | thrown hexact =>
      obtain ⟨_, rfl⟩ := ManagerEvent.thrown.inj (Option.some.inj hx)
      exact ⟨c, rfl, hexact⟩
    | _ => cases hx
  | _ => cases hx

end Runs

end Quicknet
