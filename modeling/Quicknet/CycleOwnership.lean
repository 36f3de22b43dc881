import Quicknet.ManagerRecovery
import Quicknet.ManagerRuns

/-! What a recovery cycle holds of the coordinator at each of its stages. Between its
inspection and its broadcast it holds nothing, an inspection that it abandons is released
before it throws, and a broadcast keeps the attempt that it sends. -/
namespace Quicknet

open Interaction Transition SignerCoordinator

/-- No operation is suspended and nobody owns the coordinator. -/
def Free (c : SignerCoordinator) : Prop := c.task = none ∧ c.inspectionOwner = none

/-- The inspection of the generation owns the coordinator. -/
def OwnedBy (generation : ℕ) (c : SignerCoordinator) : Prop :=
  ∃ o, c.inspectionOwner = some o ∧ o.generation = generation

/-- The journal contains the attempt, and a write that waits keeps it. -/
def Keeps (a : JournalAttempt) (p : JournalPersistence) : Prop :=
  HoldsAttempt p.current a ∧ ∀ s, p.pending = some s → HoldsAttempt (some s) a

/-- What every reachable coordinator satisfies about its journal and its owner. -/
structure Sound (c : SignerCoordinator) : Prop where
  journal : ∃ v, JournalInv v c
  owner : OwnerPhase c.inspectionOwner c.task

section Status

variable {c : SignerCoordinator}

theorem Free.notBusy (h : Free c) (hs : Sound c) : c.busy = false := by
  obtain ⟨v, hj⟩ := hs.journal
  have hphase := hj.phase
  rw [h.1] at hphase
  exact hphase.1

/-- While no operation is in progress, the gate is open or says why it is closed. -/
theorem status_open_iff {v : JournalView} (hj : JournalInv v c) (hb : c.busy = false)
    (ho : c.inspectionOwner = none) : c.status.isOpen = true ↔ c.status.blockers = [] := by
  have hopen : c.status.isOpen =
      (c.persistence.state == .idle && c.status.blockers.isEmpty) := by
    simp [status, evaluateSignerGate, hb, ho]
  rw [hopen, Bool.and_eq_true, List.isEmpty_iff]
  refine and_iff_right_of_imp ?_
  intro hempty
  -- a save that failed is itself a blocker, and none is under way
  rcases (hj.phase.of_not_busy hb).2 with hrest | hfailed
  · rw [hrest.1]
    rfl
  · have hmem : SignerBlocker.persistenceFailure ∈ c.status.blockers := by
      refine List.mem_filter.mpr ⟨by simp [BLOCKER_PRECEDENCE], ?_⟩
      simp [gateBlocks, hfailed.1]
    rw [hempty] at hmem
    cases hmem

theorem Free.gateFailure_none (h : Free c) (hs : Sound c) : c.gateFailure = none := by
  obtain ⟨v, hj⟩ := hs.journal
  unfold gateFailure
  rw [if_neg]
  rintro ⟨hclosed, hreason⟩
  have hempty : c.status.blockers = [] := List.head?_eq_none_iff.mp hreason
  rw [(status_open_iff hj (h.notBusy hs) h.2).mpr hempty] at hclosed
  cases hclosed

end Status

/-! What a suspended operation does when it is answered. -/

section Continuations

variable {lib : TransactionLibrary} {identity : JournalIdentity} {c c' : SignerCoordinator}
  {e : Option Event} {i : Input}

theorem Action.isContinuation.isRecovery {action : Action} (h : action.isContinuation = true) :
    action.isRecovery = true := by
  cases action <;> first | rfl | cases h

/-- Only the operation of an owner is answered otherwise than by a settlement. -/
theorem continuation_settles (hi : i.action.isContinuation = true) (ho : c.inspectionOwner = none)
    (h : coordinatorStep lib identity i c = some (c', e)) : i.action.isSettlement = true := by
  obtain ⟨now, action⟩ := i
  cases action with
  | startOperation => simp [coordinatorStep, SignerCoordinator.startOperation, ho] at h
  | answered log => simp [coordinatorStep, SignerCoordinator.answered, ho] at h
  | settleOperation => simp [coordinatorStep, SignerCoordinator.settleOperation, ho] at h
  | completeAbandonment => simp [coordinatorStep, SignerCoordinator.completeAbandonment, ho] at h
  | sendSettled => rfl
  | stored => rfl
  | storeFailed => rfl
  | resume => rfl
  | _ => cases hi

/-- Nothing continues on a free coordinator. -/
theorem Free.stays (hfree : Free c) (hi : i.action.isContinuation = true) :
    coordinatorStep lib identity i c = none := by
  obtain ⟨ht, ho⟩ := hfree
  obtain ⟨now, action⟩ := i
  cases action with
  | startOperation => simp [coordinatorStep, SignerCoordinator.startOperation, ho]
  | answered log => simp [coordinatorStep, SignerCoordinator.answered, ho]
  | settleOperation => simp [coordinatorStep, SignerCoordinator.settleOperation, ho]
  | completeAbandonment => simp [coordinatorStep, SignerCoordinator.completeAbandonment, ho]
  | sendSettled => simp [coordinatorStep, SignerCoordinator.sendSettled, ht]
  | stored => simp [coordinatorStep, SignerCoordinator.stored, ht]
  | storeFailed => simp [coordinatorStep, SignerCoordinator.storeFailed, ht]
  | resume => simp [coordinatorStep, SignerCoordinator.resume, ht]
  | _ => cases hi

/-- An owner with nothing registered has no operation suspended. -/
theorem task_of_idle_owner {o : InspectionOwner} (hs : OwnerPhase c.inspectionOwner c.task)
    (ho : c.inspectionOwner = some o) (ha : o.activeOperation = none) : c.task = none := by
  cases ht : c.task with
  | none => rfl
  | some t =>
    rw [ht, ho] at hs
    exact absurd (hs.running.symm.trans ha) (by simp)

/-- An inspection that is released had no operation suspended. -/
theorem CoordinatorStep.released {o : InspectionOwner} (hs : OwnerPhase c.inspectionOwner c.task)
    (hsome : c.inspectionOwner = some o) (hnone : c'.inspectionOwner = none)
    (h : CoordinatorStep lib identity c e c') : c'.task = none := by
  have hkept {p : Prop} (hk : c'.inspectionOwner = c.inspectionOwner) : p :=
    absurd ((hnone.symm.trans hk).trans hsome) (by simp)
  cases h with
  | finished ho _ ha _ _ _ _ _ =>
    have hidle : c.task = none := task_of_idle_owner hs ho ha
    exact hidle
  | abandonmentCompleted ho _ ha =>
    have hidle : c.task = none := task_of_idle_owner hs ho ha
    exact hidle
  | owner ho hm => cases hnone
  | wrote hplan _ _ => cases hplan <;> exact hkept rfl
  | resumed _ hres =>
    have ho := hres.owner
    rw [hnone, hsome] at ho
    split at ho <;> cases ho
  | inclusionsFailed _ _ _ => rfl
  | _ => first | exact hkept rfl | (simp [hsome] at hnone)

/-- The inspection of a cycle stays until it is released for good. -/
theorem continuation_owned {g : ℕ} (hs : Sound c) (ho : OwnedBy g c)
    (h : coordinatorStep lib identity i c = some (c', e)) : OwnedBy g c' ∨ Free c' := by
  obtain ⟨o, hsome, rfl⟩ := ho
  have hstep := coordinatorStep_cases h
  cases hstep.link hs.owner with
  | begun hnone _ _ _ _ => exact absurd (hnone.symm.trans hsome) (by simp)
  | released _ hnone => exact Or.inr ⟨hstep.released hs.owner hsome hnone, hnone⟩
  | @kept p p' _ hp hp' hg _ _ =>
    obtain rfl := Option.some.inj (hp.symm.trans hsome)
    exact Or.inl ⟨p', hp', hg⟩

/-- A step that begins no inspection and leaves the observation of a reconciliation as it is. -/
structure Framed (c c' : SignerCoordinator) : Prop where
  observation : c'.reconciliationObservationActive = c.reconciliationObservationActive
  alone : c.inspectionOwner = none → c'.inspectionOwner = none

theorem framed_of_same (hobs : c'.reconciliationObservationActive = c.reconciliationObservationActive)
    (ho : c'.inspectionOwner = c.inspectionOwner) : Framed c c' :=
  ⟨hobs, fun hnone => ho.trans hnone⟩

theorem framed_of_map {f : InspectionOwner → InspectionOwner}
    (hobs : c'.reconciliationObservationActive = c.reconciliationObservationActive)
    (ho : c'.inspectionOwner = c.inspectionOwner.map f) : Framed c c' := by
  refine ⟨hobs, fun hnone => ?_⟩
  rw [ho, hnone, Option.map_none]

theorem Framed.trans {c₀ : SignerCoordinator} (h : Framed c₀ c) (h' : Framed c c') : Framed c₀ c' :=
  ⟨h'.observation.trans h.observation, fun hnone => h'.alone (h.alone hnone)⟩

theorem setActive_framed (active : Option ActiveOperation) : Framed c (c.setActive active) :=
  framed_of_map rfl rfl

theorem setBracket_framed (bracket : InspectionHeadBracket) : Framed c (c.setBracket bracket) :=
  framed_of_map rfl rfl

theorem settle_framed (now : Timestamp) (failed : Bool) : Framed c (c.settle now failed) :=
  framed_of_map rfl rfl

theorem beginWrite_framed {c₀ : SignerCoordinator} {w : JournalWrite} {kind : PendingWrite}
    {next : TransactionJournalSnapshot} {failed : SignerCoordinator × Option Event}
    (hc : Framed c₀ c) (hf : Framed c₀ failed.1)
    (h : (c.beginWrite lib identity w kind next).getD failed = (c', e)) : Framed c₀ c' := by
  rcases beginWrite_getD h with hfail | hw
  · rw [hfail] at hf
    exact hf
  · unfold beginWrite at hw
    split at hw
    · obtain ⟨rfl, rfl⟩ := Prod.mk.inj (Option.some.inj hw)
      exact ⟨hc.observation, hc.alone⟩
    · cases hw

theorem recoverMissing_framed {now : Timestamp} {generation : ℕ} {anchor : BlockAnchor}
    {log : RpcLog} {out : Except Failure SignerBootstrapDecision}
    (h : c.recoverMissing lib identity now generation anchor log out = (c', e)) : Framed c c' := by
  unfold recoverMissing at h
  split at h
  · obtain ⟨rfl, rfl⟩ := Prod.mk.inj h
    exact framed_of_map rfl rfl
  · exact beginWrite_framed (framed_of_same rfl rfl) (framed_of_map rfl rfl) h
  · obtain ⟨rfl, rfl⟩ := Prod.mk.inj h
    exact framed_of_map rfl rfl

theorem recoverPresent_framed {now : Timestamp} {generation : ℕ}
    {current : TransactionJournalSnapshot} {anchor : BlockAnchor} {range : ℕ} {log : RpcLog}
    {out : Except Failure SignerRecoveryInspection}
    (h : c.recoverPresent lib identity now generation current anchor range log out = (c', e)) :
    Framed c c' := by
  unfold recoverPresent at h
  split at h
  · obtain ⟨rfl, rfl⟩ := Prod.mk.inj h
    exact framed_of_map rfl rfl
  · split at h
    · obtain ⟨rfl, rfl⟩ := Prod.mk.inj h
      exact framed_of_map rfl rfl
    · obtain ⟨rfl, rfl⟩ := Prod.mk.inj h
      exact framed_of_map rfl rfl
    · exact beginWrite_framed (framed_of_same rfl rfl) (framed_of_map rfl rfl) h

theorem inclusionsAnswered_framed {now : Timestamp} {owner : InspectionOwner}
    {current : TransactionJournalSnapshot} {head : BlockAnchor} {range : Option ℕ}
    {bracketed : Bool} {log : RpcLog} {out : Except Failure SignerInclusionInspection}
    (h : c.inclusionsAnswered lib identity now owner current head range bracketed log out =
      (c', e)) : Framed c c' := by
  unfold inclusionsAnswered at h
  split at h
  · obtain ⟨rfl, rfl⟩ := Prod.mk.inj h
    exact framed_of_map rfl rfl
  · split at h
    · obtain ⟨rfl, rfl⟩ := Prod.mk.inj h
      exact framed_of_map rfl rfl
    · exact beginWrite_framed (framed_of_same rfl rfl) (framed_of_map rfl rfl) h
  · unfold inclusionsNotInspected at h
    dsimp only at h
    split_ifs at h
    · obtain ⟨rfl, rfl⟩ := Prod.mk.inj h
      exact (setBracket_framed _).trans (framed_of_map rfl rfl)
    · obtain ⟨rfl, rfl⟩ := Prod.mk.inj h
      exact framed_of_map rfl rfl

theorem answered_framed {now : Timestamp} {log : RpcLog}
    (h : c.answered lib identity now log = some (c', e)) : Framed c c' := by
  obtain ⟨owner, _, h⟩ := Option.bind_eq_some_iff.mp h
  split at h
  · obtain ⟨out, _, h⟩ := Option.map_eq_some_iff.mp h
    unfold headAnswered at h
    dsimp only at h
    split at h <;> obtain ⟨rfl, rfl⟩ := Prod.mk.inj h
    · exact ⟨rfl, fun hnone => by simp [setActive, updateOwner, hnone]⟩
    · exact framed_of_map rfl rfl
    · exact framed_of_map rfl rfl
  · split at h
    · obtain ⟨out, _, h⟩ := Option.map_eq_some_iff.mp h
      exact recoverMissing_framed h
    · obtain ⟨out, _, h⟩ := Option.map_eq_some_iff.mp h
      exact recoverPresent_framed h
  · obtain ⟨current, _, h⟩ := Option.bind_eq_some_iff.mp h
    obtain ⟨out, _, h⟩ := Option.map_eq_some_iff.mp h
    exact inclusionsAnswered_framed h
  · cases h

theorem startOperation_framed {now : Timestamp} (h : c.startOperation now = some (c', e)) :
    Framed c c' := by
  obtain ⟨owner, _, h⟩ := Option.bind_eq_some_iff.mp h
  split at h
  · split_ifs at h
    · split at h
      · unfold startOpenHead at h
        dsimp only at h
        split_ifs at h <;> obtain ⟨rfl, rfl⟩ := Prod.mk.inj (Option.some.inj h)
        · exact setActive_framed _
        · exact (setBracket_framed _).trans (framed_of_map rfl rfl)
        · exact (setBracket_framed _).trans (setActive_framed _)
      · obtain ⟨rfl, rfl⟩ := Prod.mk.inj (Option.some.inj h)
        unfold startRecover
        dsimp only
        split_ifs
        · exact ⟨rfl, fun hnone => by simp [setActive, updateOwner, hnone]⟩
        · exact ⟨rfl, fun hnone => by simp [setActive, updateOwner, hnone]⟩
      · obtain ⟨rfl, rfl⟩ := Prod.mk.inj (Option.some.inj h)
        unfold startCheckInclusions
        dsimp only
        split_ifs
        · split
          · split_ifs
            · exact ⟨rfl, fun hnone => by simp [setActive, updateOwner, hnone]⟩
            · exact ⟨rfl, fun hnone => by simp [settle, setActive, updateOwner, hnone]⟩
          · exact ⟨rfl, fun hnone => by simp [setActive, updateOwner, hnone]⟩
        · exact ⟨rfl, fun hnone => by simp [setActive, updateOwner, hnone]⟩
    · obtain ⟨rfl, rfl⟩ := Prod.mk.inj (Option.some.inj h)
      exact setActive_framed _
  · cases h

theorem settleOperation_framed (h : c.settleOperation = some (c', e)) : Framed c c' := by
  obtain ⟨owner, _, h⟩ := Option.bind_eq_some_iff.mp h
  split at h
  · dsimp only at h
    split_ifs at h <;> obtain ⟨rfl, rfl⟩ := Prod.mk.inj (Option.some.inj h)
    · exact (setActive_framed none).trans (framed_of_map rfl rfl)
    · exact setActive_framed none
  · cases h

theorem storeFailed_framed {now : Timestamp} (h : c.storeFailed now = some (c', e)) :
    Framed c c' := by
  unfold SignerCoordinator.storeFailed at h
  dsimp only at h
  split at h
  · obtain ⟨rfl, rfl⟩ := Prod.mk.inj (Option.some.inj h)
    exact framed_of_same rfl rfl
  · obtain ⟨rfl, rfl⟩ := Prod.mk.inj (Option.some.inj h)
    exact framed_of_same rfl rfl
  · obtain ⟨rfl, rfl⟩ := Prod.mk.inj (Option.some.inj h)
    exact framed_of_same rfl rfl
  · obtain ⟨rfl, rfl⟩ := Prod.mk.inj (Option.some.inj h)
    exact framed_of_map rfl rfl
  · obtain ⟨rfl, rfl⟩ := Prod.mk.inj (Option.some.inj h)
    exact framed_of_map rfl rfl
  · obtain ⟨rfl, rfl⟩ := Prod.mk.inj (Option.some.inj h)
    exact framed_of_map rfl rfl
  · cases h

theorem resumeOwn_framed {now : Timestamp} {w : JournalWrite}
    (h : c.resumeOwn now w = some (c', e)) : Framed c c' := by
  have hfinish {d : SignerCoordinator} (hd : Framed c d) : Framed c (d.finishWrite now) :=
    hd.trans (framed_of_same rfl rfl)
  have hpermit {d : SignerCoordinator} (hd : Framed c d) (id : Option AttemptId) :
      Framed c (d.permit id) := hd.trans (framed_of_same rfl rfl)
  unfold resumeOwn at h
  cases w with
  | repair _ => cases h
  | prepared a =>
    obtain ⟨rfl, -⟩ := Prod.mk.inj (Option.some.inj h)
    exact (hpermit (hfinish (framed_of_same rfl rfl)) (some a.attemptId)).trans
      (framed_of_same rfl rfl)
  | broadcast a =>
    obtain ⟨rfl, -⟩ := Prod.mk.inj (Option.some.inj h)
    exact framed_of_same rfl rfl
  | bootstrap _ _ _ _ =>
    obtain ⟨rfl, -⟩ := Prod.mk.inj (Option.some.inj h)
    refine .trans ?_ (settle_framed now false)
    exact hfinish (framed_of_same rfl rfl)
  | recovery _ base _ _ _ result =>
    obtain ⟨rfl, -⟩ := Prod.mk.inj (Option.some.inj h)
    refine .trans ?_ (settle_framed now false)
    apply hpermit
    exact hfinish (framed_of_same rfl rfl)
  | inclusions _ _ _ _ bracketed _ _ _ complete broadcast =>
    obtain ⟨rfl, -⟩ := Prod.mk.inj (Option.some.inj h)
    refine .trans ?_ (settle_framed now false)
    cases bracketed with
    | false =>
      apply hpermit
      exact hfinish (framed_of_same rfl rfl)
    | true =>
      refine .trans ?_ (setBracket_framed .closed)
      apply hpermit
      exact hfinish (framed_of_same rfl rfl)

theorem resume_framed {now : Timestamp} (h : c.resume now = some (c', e)) : Framed c c' := by
  unfold SignerCoordinator.resume at h
  split at h
  · exact resumeOwn_framed h
  · obtain ⟨rfl, rfl⟩ := Prod.mk.inj (Option.some.inj h)
    exact framed_of_same rfl rfl
  · cases h

/-- The frame of whatever a suspended operation does when it is answered. -/
theorem continuation_framed (hi : i.action.isContinuation = true)
    (h : coordinatorStep lib identity i c = some (c', e)) : Framed c c' := by
  obtain ⟨now, action⟩ := i
  cases action with
  | startOperation => exact startOperation_framed h
  | answered log => exact answered_framed h
  | settleOperation => exact settleOperation_framed h
  | completeAbandonment =>
    obtain ⟨owner, _, h⟩ := Option.bind_eq_some_iff.mp h
    split_ifs at h
    obtain ⟨rfl, rfl⟩ := Prod.mk.inj (Option.some.inj h)
    exact ⟨rfl, fun _ => rfl⟩
  | sendSettled =>
    simp only [coordinatorStep, SignerCoordinator.sendSettled] at h
    split at h
    · obtain ⟨rfl, rfl⟩ := Prod.mk.inj (Option.some.inj h)
      exact framed_of_same rfl rfl
    · cases h
  | stored =>
    simp only [coordinatorStep, SignerCoordinator.stored] at h
    split at h
    · obtain ⟨rfl, rfl⟩ := Prod.mk.inj (Option.some.inj h)
      exact framed_of_same rfl rfl
    · cases h
  | storeFailed => exact storeFailed_framed h
  | resume => exact resume_framed h
  | _ => cases hi

theorem signed_framed {now : Timestamp} {answer : Option Bytes} {summaryCreated : Bool}
    (h : c.signed lib identity now answer summaryCreated = some (c', e)) : Framed c c' := by
  unfold SignerCoordinator.signed at h
  split at h
  · dsimp only at h
    have hfailed {since : Option Timestamp} {checked : Bool}
        (hf : some (c.prepareFailed now since checked) = some (c', e)) : Framed c c' := by
      obtain ⟨rfl, rfl⟩ := Prod.mk.inj (Option.some.inj hf)
      exact framed_of_same rfl rfl
    split at h
    · exact hfailed h
    · split at h
      · exact hfailed h
      · split_ifs at h
        · refine beginWrite_framed ?_ ?_ (Option.some.inj h)
          · exact framed_of_same rfl rfl
          · exact framed_of_same rfl rfl
        · exact hfailed h
  · cases h

theorem settlement_framed (hi : i.action.isSettlement = true)
    (h : coordinatorStep lib identity i c = some (c', e)) : Framed c c' := by
  obtain ⟨now, action⟩ := i
  cases action with
  | signed answer summaryCreated => exact signed_framed h
  | sendSettled => exact continuation_framed rfl h
  | stored => exact continuation_framed rfl h
  | storeFailed => exact continuation_framed rfl h
  | resume => exact continuation_framed rfl h
  | _ => cases hi

/-- A broadcast keeps its attempt, and ends with the coordinator released. -/
theorem broadcast_continues {a : JournalAttempt} (hi : i.action.isSettlement = true)
    (hkeeps : Keeps a c.persistence) (ht : IsBroadcast c.task)
    (h : coordinatorStep lib identity i c = some (c', e)) :
    Keeps a c'.persistence ∧ (IsBroadcast c'.task ∨ c'.task = none) := by
  unfold IsBroadcast at ht
  split at ht
  · rename_i b hk
    rcases settlement_storing hi hk h with h | h
    · cases hp : c.persistence.pending with
      | none => simp [SignerCoordinator.stored, hk, hp] at h
      | some s =>
        simp only [SignerCoordinator.stored, hk, hp, Option.some.injEq, Prod.mk.injEq] at h
        obtain ⟨rfl, rfl⟩ := h
        refine ⟨⟨?_, by simp [JournalPersistence.acknowledged]⟩, Or.inl trivial⟩
        simp only [JournalPersistence.acknowledged, hp]
        exact hkeeps.2 s hp
    · simp only [SignerCoordinator.storeFailed, hk, Option.some.injEq, Prod.mk.injEq] at h
      obtain ⟨rfl, rfl⟩ := h
      exact ⟨hkeeps, Or.inr rfl⟩
  · rename_i b hk
    have h := settlement_saved hi hk h
    simp only [SignerCoordinator.resume, hk, resumeOwn, send, Option.some.injEq,
      Prod.mk.injEq] at h
    obtain ⟨rfl, rfl⟩ := h
    exact ⟨hkeeps, Or.inl trivial⟩
  · rename_i hk
    have h := settlement_sending hi hk h
    simp only [sendSettled, hk, Option.some.injEq, Prod.mk.injEq] at h
    obtain ⟨rfl, rfl⟩ := h
    exact ⟨hkeeps, Or.inr rfl⟩
  · exact ht.elim

end Continuations

/-! The calls that a cycle makes itself. -/

section Calls

variable {lib : TransactionLibrary} {identity : JournalIdentity} {c c' : SignerCoordinator}
  {e : Option Event} {g : ℕ}

theorem retryPersistence_framed (h : c.retryPersistence = some (c', e)) : Framed c c' := by
  unfold SignerCoordinator.retryPersistence at h
  split_ifs at h
  split at h
  · obtain ⟨rfl, rfl⟩ := Prod.mk.inj (Option.some.inj h)
    exact framed_of_same rfl rfl
  · cases h

theorem beginInspection_owned (h : c.beginInspection = some (c', e)) :
    c'.reconciliationObservationActive = c.reconciliationObservationActive ∧
      OwnedBy c'.inspectionGeneration c' := by
  unfold beginInspection at h
  split_ifs at h
  obtain ⟨rfl, rfl⟩ := Prod.mk.inj (Option.some.inj h)
  exact ⟨rfl, _, rfl, rfl⟩

theorem callOwned_owned {call : OwnedCall} (h : c.callOwned g call = some (c', e)) :
    c'.reconciliationObservationActive = c.reconciliationObservationActive ∧ OwnedBy g c' := by
  obtain ⟨o, ho, h⟩ := Option.bind_eq_some_iff.mp h
  split_ifs at h
  obtain ⟨rfl, rfl⟩ := Prod.mk.inj (Option.some.inj h)
  obtain ⟨hsome, hg⟩ := owned_eq_some ho
  exact ⟨rfl, { o with activeOperation := some (.queued call) }, by
    simp [setActive, updateOwner, hsome], hg⟩

theorem abandonInspection_owned (h : c.abandonInspection g = some (c', e)) :
    c'.reconciliationObservationActive = c.reconciliationObservationActive ∧ OwnedBy g c' := by
  obtain ⟨o, ho, h⟩ := Option.bind_eq_some_iff.mp h
  split_ifs at h
  obtain ⟨rfl, rfl⟩ := Prod.mk.inj (Option.some.inj h)
  obtain ⟨hsome, hg⟩ := owned_eq_some ho
  exact ⟨rfl, { o with abandoning := true }, by
    simp [revokeActionAuthorization, updateOwner, hsome], hg⟩

theorem finishInspection_free {now : Timestamp} (hs : Sound c)
    (h : c.finishInspection now g = some (c', e)) :
    c'.reconciliationObservationActive = c.reconciliationObservationActive ∧ Free c' := by
  obtain ⟨o, ho, h⟩ := Option.bind_eq_some_iff.mp h
  split_ifs at h with hready
  obtain ⟨rfl, rfl⟩ := Prod.mk.inj (Option.some.inj h)
  simp only [Bool.and_eq_true, Option.isNone_iff_eq_none] at hready
  have hidle : c.task = none :=
    task_of_idle_owner hs.owner (owned_eq_some ho).1 hready.1.1.1.1.2
  exact ⟨rfl, hidle, rfl⟩

theorem broadcastAttempt_framed {now : Timestamp} {attemptId : AttemptId}
    (h : c.broadcastAttempt lib identity now attemptId = some (c', e)) : Framed c c' := by
  unfold SignerCoordinator.broadcastAttempt at h
  split_ifs at h
  obtain ⟨s, _, h⟩ := Option.bind_eq_some_iff.mp h
  obtain ⟨b, _, h⟩ := Option.bind_eq_some_iff.mp h
  split_ifs at h
  dsimp only at h
  split at h
  · refine beginWrite_framed ?_ ?_ (Option.some.inj h)
    · exact framed_of_same rfl rfl
    · exact framed_of_same rfl rfl
  · obtain ⟨rfl, rfl⟩ := Prod.mk.inj (Option.some.inj h)
    exact framed_of_same rfl rfl

theorem prepareAttempt_framed {now : Timestamp} {workId : WorkId} {attemptId : AttemptId}
    {accountAddress : Address} {transaction : PreparedRelayerTransaction}
    (h : c.prepareAttempt now workId attemptId accountAddress transaction = some (c', e)) :
    Framed c c' := by
  unfold SignerCoordinator.prepareAttempt at h
  split_ifs at h
  obtain ⟨s, _, h⟩ := Option.bind_eq_some_iff.mp h
  split_ifs at h
  obtain ⟨rfl, rfl⟩ := Prod.mk.inj (Option.some.inj h)
  exact framed_of_same rfl rfl

/-- A broadcast starts from the attempt that a retry would send. -/
theorem broadcastAttempt_keeps {now : Timestamp} {a : JournalAttempt} (hs : Sound c)
    (hfree : Free c) (ha : c.retryAttempt = some a)
    (h : c.broadcastAttempt lib identity now a.attemptId = some (c', e)) :
    Framed c c' ∧ Keeps a c'.persistence ∧ (IsBroadcast c'.task ∨ c'.task = none) := by
  obtain ⟨v, hj⟩ := hs.journal
  have hmem := List.mem_of_find?_eq_some ha
  have hpending : c.persistence.pending = none := by
    unfold SignerCoordinator.broadcastAttempt at h
    split_ifs at h with hready
    simp only [Bool.and_eq_true] at hready
    have hp := (noPendingWrite_iff.mp hready.2).1
    rw [hj.pending, (hj.phase.rested (hfree.notBusy hs) hp).2.2.2]
    rfl
  have hholds : HoldsAttempt c.persistence.current a := by
    cases hc : c.persistence.current with
    | none => simp [attempts, hc] at hmem
    | some s =>
      refine ⟨s, rfl, List.mem_map_of_mem ?_⟩
      simpa [attempts, hc] using hmem
  have hkeeps : Keeps a c.persistence := ⟨hholds, by simp [hpending]⟩
  refine ⟨broadcastAttempt_framed h, ?_⟩
  rcases broadcastAttempt_settles h with ⟨_, ht, hp⟩ | ⟨b, _, ht, s, hcur, hp⟩ | ⟨b, _, _, _, ht, hp⟩
  · rw [hp]
    exact ⟨hkeeps, Or.inr ht⟩
  · rw [hp, ht]
    refine ⟨⟨by rw [← hcur]; exact hholds, ?_⟩, Or.inl trivial⟩
    -- the marker changes no record
    rintro t ⟨⟩
    obtain ⟨s', hs', hrecord⟩ := hholds
    obtain rfl := Option.some.inj (hcur.symm.trans hs')
    exact ⟨_, rfl, by rw [markBroadcast_records]; exact hrecord⟩
  · rw [hp, ht]
    exact ⟨hkeeps, Or.inl trivial⟩

end Calls

end Quicknet
