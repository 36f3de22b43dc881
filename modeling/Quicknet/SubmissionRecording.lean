import Quicknet.InspectionOwnership
import Quicknet.TransactionManager

/-! What the recording of a failed submission says about the journal. The attempt of a
submission is followed from the write that prepares it, through the save of that write
and of the broadcast marker, to the error that the caller receives. -/
namespace Quicknet

open Interaction Transition SignerCoordinator

/-- The records that a journal holds for a work identity. -/
def workRecords (workId : WorkId) : Option TransactionJournalSnapshot → List JournalAttempt.Record
  | none => []
  | some s => (s.attempts.map (·.record)).filter fun r => r.workId == workId

/-- The journal contains the attempt, in whatever phase. -/
def HoldsAttempt (journal : Option TransactionJournalSnapshot) (a : JournalAttempt) : Prop :=
  ∃ s, journal = some s ∧ a.record ∈ s.attempts.map (·.record)

/-- The attempt whose preparation starts to be saved. -/
def Event.prepared? : Event → Option JournalAttempt
  | .write (.prepared a) _ => some a
  | _ => none

namespace ManagerEvent

def signer? : ManagerEvent → Option Event
  | .signer e => some e
  | _ => none

def prepared? (e : ManagerEvent) : Option JournalAttempt := e.signer?.bind (·.prepared?)

end ManagerEvent

/-- The attempts that were prepared since a submission was entered last. -/
def createdAttempts (tr : List ManagerEvent) : List JournalAttempt :=
  tr.foldl (fun created e =>
    match e with
    | .entered _ => []
    | e => created ++ e.prepared?.toList) []

section Records

variable {workId : WorkId} {journal : Option TransactionJournalSnapshot} {a : JournalAttempt}
  {s : TransactionJournalSnapshot}

theorem workRecords_head (workId : WorkId) (journal : Option TransactionJournalSnapshot) :
    (workRecords workId journal).head? = (journal.bind (·.attemptOf workId)).map (·.record) := by
  cases journal with
  | none => rfl
  | some s =>
    have hmap : workRecords workId (some s) =
        (s.attempts.filter fun a => a.workId == workId).map (·.record) := by
      show List.filter _ (List.map _ s.attempts) = _
      rw [List.filter_map]
      rfl
    rw [hmap, List.head?_map, List.head?_filter]
    rfl

theorem holdsAttempt_iff (ha : a.workId = workId) :
    HoldsAttempt journal a ↔ a.record ∈ workRecords workId journal := by
  cases journal with
  | none => simp [HoldsAttempt, workRecords]
  | some s =>
    have hw : (a.record.workId == workId) = true := by
      rw [← ha]
      exact beq_self_eq_true _
    unfold HoldsAttempt workRecords
    rw [List.mem_filter]
    constructor
    · rintro ⟨t, ht, hm⟩
      rw [Option.some.inj ht]
      exact ⟨hm, hw⟩
    · intro h
      exact ⟨s, rfl, h.1⟩

theorem workRecords_prepared (ha : a.workId = workId) :
    workRecords workId (some (preparedSnapshot s a)) =
      workRecords workId (some s) ++ [a.record] := by
  have hone : [a.record].filter (fun r => r.workId == workId) = [a.record] := by
    rw [List.filter_eq_self]
    intro r hr
    rw [List.mem_singleton.mp hr, ← ha]
    exact beq_self_eq_true _
  unfold workRecords preparedSnapshot
  simp only [List.map_append, List.map_cons, List.map_nil, List.filter_append]
  rw [hone]

/-- The broadcast marker changes no record. -/
theorem workRecords_marked :
    workRecords workId (some { s with attempts := markBroadcast s.attempts }) =
      workRecords workId (some s) := by
  simp only [workRecords, markBroadcast_records]

@[simp] theorem createdAttempts_nil : createdAttempts [] = [] := rfl

@[simp] theorem createdAttempts_entered (tr : List ManagerEvent) (workId : WorkId) :
    createdAttempts (tr ++ [.entered workId]) = [] := by
  simp [createdAttempts]

theorem createdAttempts_append {tr : List ManagerEvent} {e : ManagerEvent}
    (he : ∀ workId, e ≠ .entered workId) :
    createdAttempts (tr ++ [e]) = createdAttempts tr ++ e.prepared?.toList := by
  unfold createdAttempts
  rw [List.foldl_append, List.foldl_cons, List.foldl_nil]
  cases e with
  | entered workId => exact absurd rfl (he workId)
  | _ => rfl

theorem createdAttempts_signer (tr : List ManagerEvent) (e : Option Event) :
    createdAttempts (tr ++ (e.map ManagerEvent.signer).toList) =
      createdAttempts tr ++ (e.bind (·.prepared?)).toList := by
  cases e with
  | none => simp
  | some e => exact createdAttempts_append (by simp)

end Records

/-! The recording, from what the journal holds. -/

section Capture

variable {c : SignerCoordinator} {workId : WorkId} {r : JournalAttempt.Record}

theorem capture_retained (h : workRecords workId c.persistence.current = [r]) :
    c.captureSubmissionRecording workId = .retained ⟨r.workId, r.attemptId⟩ := by
  have hhead := workRecords_head workId c.persistence.current
  rw [h] at hhead
  obtain ⟨a, ha, har⟩ := Option.map_eq_some_iff.mp hhead.symm
  unfold captureSubmissionRecording attemptOf
  rw [ha, ← har]
  rfl

theorem attemptOf_none (h : workRecords workId c.persistence.current = []) :
    c.attemptOf workId = none := by
  have hhead := workRecords_head workId c.persistence.current
  rw [h] at hhead
  exact Option.map_eq_none_iff.mp hhead.symm

theorem workRecords_of_attemptOf (h : c.attemptOf workId = none) :
    workRecords workId c.persistence.current = [] := by
  have hhead := workRecords_head workId c.persistence.current
  rw [← List.head?_eq_none_iff, hhead, Option.map_eq_none_iff]
  exact h

theorem capture_uncertain (h : workRecords workId c.persistence.current = [])
    (hw : c.pendingWrite = some .prepared) (hs : c.persistence.state = .failed)
    (hp : workRecords workId c.persistence.pending = [r]) :
    c.captureSubmissionRecording workId = .uncertain ⟨r.workId, r.attemptId⟩ := by
  have hhead := workRecords_head workId c.persistence.pending
  rw [hp] at hhead
  obtain ⟨a, ha, har⟩ := Option.map_eq_some_iff.mp hhead.symm
  unfold captureSubmissionRecording JournalPersistence.failedWriteAttemptIdentity
  rw [attemptOf_none h, if_pos hw, if_pos hs, ha, ← har]
  rfl

theorem capture_none (h : workRecords workId c.persistence.current = [])
    (hw : c.pendingWrite = none) : c.captureSubmissionRecording workId = .none := by
  unfold captureSubmissionRecording
  rw [attemptOf_none h, hw]
  rfl

end Capture

/-! What the operations that a submission awaits do to persistence. -/

section Settlements

variable {lib : TransactionLibrary} {identity : JournalIdentity} {c c' : SignerCoordinator}
  {e : Option Event} {now : Timestamp}

theorem beginWrite_some {w : JournalWrite} {kind : PendingWrite} {next : TransactionJournalSnapshot}
    (h : c.beginWrite lib identity w kind next = some (c', e)) :
    e = some (.write w next) ∧ c'.task = some (.storing (.own w)) ∧ c'.pendingWrite = some kind ∧
      c'.persistence = ⟨.writing, c.persistence.current, some next⟩ := by
  unfold beginWrite at h
  split at h
  · rename_i p hp
    obtain ⟨_, _, rfl⟩ := save_ok_iff.mp hp
    obtain ⟨rfl, rfl⟩ := Prod.mk.inj (Option.some.inj h)
    exact ⟨rfl, rfl, rfl, rfl⟩
  · cases h

/-- A write is planned, or the operation fails with its `catch`. -/
theorem beginWrite_getD {w : JournalWrite} {kind : PendingWrite}
    {next : TransactionJournalSnapshot} {failed : SignerCoordinator × Option Event}
    (h : (c.beginWrite lib identity w kind next).getD failed = (c', e)) :
    failed = (c', e) ∨ c.beginWrite lib identity w kind next = some (c', e) := by
  cases hw : c.beginWrite lib identity w kind next with
  | none =>
    rw [hw] at h
    exact Or.inl h
  | some r =>
    rw [hw] at h
    exact Or.inr (congrArg some h)

/-- A preparation under way fails without a trace, or saves its attempt. -/
theorem signed_settles {workId : WorkId} {attemptId : AttemptId} {createdAt : Timestamp}
    {accountAddress : Address} {transaction : PreparedRelayerTransaction}
    {since : Option Timestamp} {checked : Bool} {answer : Option Bytes} {summaryCreated : Bool}
    (hk : c.task = some (.signing workId attemptId createdAt accountAddress transaction since
      checked)) (h : c.signed lib identity now answer summaryCreated = some (c', e)) :
    (e = none ∧ c'.task = none ∧ c'.persistence = c.persistence ∧ c'.pendingWrite = none) ∨
    ∃ s a, c.persistence.current = some s ∧ a.workId = workId ∧
      e = some (.write (.prepared a) (preparedSnapshot s a)) ∧
      c'.task = some (.storing (.own (.prepared a))) ∧ c'.pendingWrite = some .prepared ∧
      c'.persistence = ⟨.writing, some s, some (preparedSnapshot s a)⟩ := by
  have hfailed (hf : c.prepareFailed now since checked = (c', e)) :
      e = none ∧ c'.task = none ∧ c'.persistence = c.persistence ∧ c'.pendingWrite = none := by
    obtain ⟨rfl, rfl⟩ := Prod.mk.inj hf
    exact ⟨rfl, rfl, rfl, rfl⟩
  unfold signed at h
  cases hs : c.persistence.current with
  | none => simp [hk, hs] at h
  | some s =>
    simp only [hk, hs] at h
    split at h
    · exact Or.inl (hfailed (Option.some.inj h))
    · split at h
      · exact Or.inl (hfailed (Option.some.inj h))
      · rename_i next hv
        obtain ⟨rfl, _⟩ := validate_ok_iff.mp hv
        split_ifs at h
        · rcases beginWrite_getD (Option.some.inj h) with hf | hw
          · exact Or.inl (hfailed hf)
          · obtain ⟨he, ht, hp, hpers⟩ := beginWrite_some hw
            rw [hs] at hpers
            exact Or.inr ⟨s, _, rfl, rfl, he, ht, hp, hpers⟩
        · exact Or.inl (hfailed (Option.some.inj h))

/-- A broadcast fails without a trace, saves its marker or sends at once. -/
theorem broadcastAttempt_settles {attemptId : AttemptId}
    (h : c.broadcastAttempt lib identity now attemptId = some (c', e)) :
    (e = none ∧ c'.task = none ∧ c'.persistence = c.persistence) ∨
    (∃ b, (∃ next, e = some (.write (.broadcast b) next)) ∧
      c'.task = some (.storing (.own (.broadcast b))) ∧ ∃ s, c.persistence.current = some s ∧
      c'.persistence = ⟨.writing, some s, some { s with attempts := markBroadcast s.attempts }⟩) ∨
    ∃ b payload blockers, e = some (.sent b payload blockers) ∧ c'.task = some .sending ∧
      c'.persistence = c.persistence := by
  unfold SignerCoordinator.broadcastAttempt at h
  split_ifs at h
  obtain ⟨s, hs, h⟩ := Option.bind_eq_some_iff.mp h
  obtain ⟨b, _, h⟩ := Option.bind_eq_some_iff.mp h
  split_ifs at h
  simp only at h
  split at h
  · rcases beginWrite_getD (Option.some.inj h) with hf | hw
    · obtain ⟨rfl, rfl⟩ := Prod.mk.inj hf
      exact Or.inl ⟨rfl, rfl, rfl⟩
    · obtain ⟨he, ht, _, hpers⟩ := beginWrite_some hw
      exact Or.inr (Or.inl ⟨b, ⟨_, he⟩, ht, s, hs, by rw [hpers, ← hs]⟩)
  · obtain ⟨rfl, rfl⟩ := Prod.mk.inj (Option.some.inj h)
    exact Or.inr (Or.inr ⟨b, _, _, rfl, rfl, rfl⟩)

/-- Only an account that answers lets an attempt be written. -/
theorem coordinatorStep_prepared {i : Input} {a : JournalAttempt}
    {next : TransactionJournalSnapshot}
    (h : coordinatorStep lib identity i c = some (c', some (.write (.prepared a) next))) :
    ∃ answer summaryCreated, i.action = .signed answer summaryCreated := by
  -- the write was planned by a preparation under way, which takes no other input
  have hk : ∃ workId attemptId createdAt address transaction since checked, c.task =
      some (.signing workId attemptId createdAt address transaction since checked) := by
    cases coordinatorStep_cases h with
    | owner _ hm => cases hm
    | headAnswered _ _ hout => rcases hout with ⟨_, hout⟩ | ⟨_, hout⟩ <;> cases hout
    | wrote hplan _ _ =>
      cases hplan with
      | prepared hk _ _ => exact ⟨_, _, _, _, _, _, _, hk⟩
  obtain ⟨_, _, _, _, _, _, _, hk⟩ := hk
  obtain ⟨now, action⟩ := i
  cases action with
  | signed answer summaryCreated => exact ⟨answer, summaryCreated, rfl⟩
  | beginInspection => simp [coordinatorStep, beginInspection] at h
  | callOwned generation call =>
    obtain ⟨o, _, h⟩ := Option.bind_eq_some_iff.mp h
    split_ifs at h
    cases (Prod.mk.inj (Option.some.inj h)).2
  | startOperation =>
    obtain ⟨o, _, h⟩ := Option.bind_eq_some_iff.mp h
    split at h
    · split_ifs at h
      · split at h
        · unfold startOpenHead at h
          split_ifs at h <;> cases (Prod.mk.inj (Option.some.inj h)).2
        · cases (Prod.mk.inj (Option.some.inj h)).2
        · cases (Prod.mk.inj (Option.some.inj h)).2
      · cases (Prod.mk.inj (Option.some.inj h)).2
    · cases h
  | answered log =>
    obtain ⟨o, _, h⟩ := Option.bind_eq_some_iff.mp h
    simp [hk] at h
  | settleOperation =>
    obtain ⟨o, _, h⟩ := Option.bind_eq_some_iff.mp h
    split at h
    · simp only at h
      split_ifs at h <;> cases (Prod.mk.inj (Option.some.inj h)).2
    · cases h
  | finishInspection generation =>
    obtain ⟨o, _, h⟩ := Option.bind_eq_some_iff.mp h
    split_ifs at h
    cases (Prod.mk.inj (Option.some.inj h)).2
  | abandonInspection generation =>
    obtain ⟨o, _, h⟩ := Option.bind_eq_some_iff.mp h
    split_ifs at h
    cases (Prod.mk.inj (Option.some.inj h)).2
  | completeAbandonment =>
    obtain ⟨o, _, h⟩ := Option.bind_eq_some_iff.mp h
    split_ifs at h
    cases (Prod.mk.inj (Option.some.inj h)).2
  | prepareAttempt workId attemptId address transaction =>
    simp only [coordinatorStep, SignerCoordinator.prepareAttempt] at h
    split_ifs at h
    obtain ⟨s, _, h⟩ := Option.bind_eq_some_iff.mp h
    split_ifs at h
    cases (Prod.mk.inj (Option.some.inj h)).2
  | broadcastAttempt attemptId =>
    simp only [coordinatorStep] at h
    rcases broadcastAttempt_settles h with ⟨he, _⟩ | ⟨b, ⟨_, he⟩, _⟩ | ⟨b, _, _, he, _⟩ <;> cases he
  | retryPersistence =>
    simp only [coordinatorStep, SignerCoordinator.retryPersistence] at h
    split_ifs at h
    split at h
    · cases (Prod.mk.inj (Option.some.inj h)).2
    · cases h
  | sendSettled => simp [coordinatorStep, sendSettled, hk] at h
  | stored => simp [coordinatorStep, SignerCoordinator.stored, hk] at h
  | storeFailed => simp [coordinatorStep, SignerCoordinator.storeFailed, hk] at h
  | resume => simp [coordinatorStep, SignerCoordinator.resume, hk] at h
  | beginObservation => simp [coordinatorStep, beginObservation] at h
  | endObservation => simp [coordinatorStep, endObservation] at h
  | _ => cases h

/-- What an operation that is suspended can be answered. -/
theorem settlement_cases {i : Input} (hi : i.action.isSettlement = true)
    (h : coordinatorStep lib identity i c = some (c', e)) :
    (∃ answer summaryCreated,
      c.signed lib identity i.now answer summaryCreated = some (c', e)) ∨
    c.sendSettled i.now = some (c', e) ∨ c.stored = some (c', e) ∨
    c.storeFailed i.now = some (c', e) ∨ c.resume i.now = some (c', e) := by
  obtain ⟨now, action⟩ := i
  cases action with
  | signed answer summaryCreated => exact Or.inl ⟨answer, summaryCreated, h⟩
  | sendSettled => exact Or.inr (Or.inl h)
  | stored => exact Or.inr (Or.inr (Or.inl h))
  | storeFailed => exact Or.inr (Or.inr (Or.inr (Or.inl h)))
  | resume => exact Or.inr (Or.inr (Or.inr (Or.inr h)))
  | _ => cases hi

theorem settlement_signing {i : Input} {workId : WorkId} {attemptId : AttemptId}
    {createdAt : Timestamp} {accountAddress : Address} {transaction : PreparedRelayerTransaction}
    {since : Option Timestamp} {checked : Bool} (hi : i.action.isSettlement = true)
    (hk : c.task = some (.signing workId attemptId createdAt accountAddress transaction since
      checked)) (h : coordinatorStep lib identity i c = some (c', e)) :
    ∃ answer summaryCreated,
      c.signed lib identity i.now answer summaryCreated = some (c', e) := by
  rcases settlement_cases hi h with h | h | h | h | h
  · exact h
  · simp [sendSettled, hk] at h
  · simp [SignerCoordinator.stored, hk] at h
  · simp [SignerCoordinator.storeFailed, hk] at h
  · simp [SignerCoordinator.resume, hk] at h

theorem settlement_storing {i : Input} {k : Continuation} (hi : i.action.isSettlement = true)
    (hk : c.task = some (.storing k)) (h : coordinatorStep lib identity i c = some (c', e)) :
    c.stored = some (c', e) ∨ c.storeFailed i.now = some (c', e) := by
  rcases settlement_cases hi h with ⟨_, _, h⟩ | h | h | h | h
  · simp [signed, hk] at h
  · simp [sendSettled, hk] at h
  · exact Or.inl h
  · exact Or.inr h
  · simp [SignerCoordinator.resume, hk] at h

theorem settlement_saved {i : Input} {k : Continuation} (hi : i.action.isSettlement = true)
    (hk : c.task = some (.saved k)) (h : coordinatorStep lib identity i c = some (c', e)) :
    c.resume i.now = some (c', e) := by
  rcases settlement_cases hi h with ⟨_, _, h⟩ | h | h | h | h
  · simp [signed, hk] at h
  · simp [sendSettled, hk] at h
  · simp [SignerCoordinator.stored, hk] at h
  · simp [SignerCoordinator.storeFailed, hk] at h
  · exact h

theorem settlement_sending {i : Input} (hi : i.action.isSettlement = true)
    (hk : c.task = some .sending) (h : coordinatorStep lib identity i c = some (c', e)) :
    c.sendSettled i.now = some (c', e) := by
  rcases settlement_cases hi h with ⟨_, _, h⟩ | h | h | h | h
  · simp [signed, hk] at h
  · exact h
  · simp [SignerCoordinator.stored, hk] at h
  · simp [SignerCoordinator.storeFailed, hk] at h
  · simp [SignerCoordinator.resume, hk] at h

end Settlements

/-! A submission in progress. -/

/-- No attempt of the work identity is committed, and no write waits. -/
def Absent (workId : WorkId) (c : SignerCoordinator) : Prop :=
  workRecords workId c.persistence.current = [] ∧ c.pendingWrite = none

/-- The attempt stands only in the snapshot of the write that prepares it. -/
structure OnlyPending (workId : WorkId) (a : JournalAttempt) (c : SignerCoordinator) : Prop where
  work : a.workId = workId
  absent : workRecords workId c.persistence.current = []
  pendingWrite : c.pendingWrite = some .prepared
  pending : ∃ s, c.persistence.current = some s ∧
    c.persistence.pending = some (preparedSnapshot s a)

/-- The attempt is committed, and a write that waits keeps it. -/
structure Committed (workId : WorkId) (a : JournalAttempt) (c : SignerCoordinator) : Prop where
  work : a.workId = workId
  current : workRecords workId c.persistence.current = [a.record]
  pending : ∀ s, c.persistence.pending = some s → workRecords workId (some s) = [a.record]

def IsSigning (workId : WorkId) : Option Task → Prop
  | some (.signing w _ _ _ _ _ _) => w = workId
  | _ => False

/-- The marker of a broadcast is being saved, or the payload sent. -/
def IsBroadcast : Option Task → Prop
  | some (.storing (.own (.broadcast _))) | some (.saved (.own (.broadcast _))) => True
  | some .sending => True
  | _ => False

/-- What has become of the attempt of a submission at each stage. -/
def SubmissionInv (workId : WorkId) (created : List JournalAttempt) (c : SignerCoordinator) :
    SubmissionStage → Prop
  | .captured | .reconciling => created = []
  | .preparingTransaction => created = [] ∧ Absent workId c
  | .preparingAttempt =>
    (created = [] ∧ Absent workId c ∧ IsSigning workId c.task) ∨
    ∃ a, created = [a] ∧
      (c.task = some (.storing (.own (.prepared a))) ∧ OnlyPending workId a c ∨
        c.task = some (.saved (.own (.prepared a))) ∧ Committed workId a c)
  | .attemptPrepared none =>
    (created = [] ∧ Absent workId c) ∨
    ∃ a, created = [a] ∧ OnlyPending workId a c ∧ c.persistence.state = .failed
  | .attemptPrepared (some (.alreadyRetained _)) => False
  | .attemptPrepared (some (.prepared attemptId)) =>
    ∃ a, created = [a] ∧ a.attemptId = attemptId ∧ Committed workId a c
  | .broadcasting attemptId =>
    ∃ a, created = [a] ∧ a.attemptId = attemptId ∧ Committed workId a c ∧ IsBroadcast c.task
  | .broadcastSettled attemptId _ =>
    ∃ a, created = [a] ∧ a.attemptId = attemptId ∧ Committed workId a c

section Stages

variable {lib : TransactionLibrary} {identity : JournalIdentity} {c c' : SignerCoordinator}
  {e : Option Event} {workId : WorkId} {created : List JournalAttempt} {i : Input}

/-- The preparation goes on, or it has settled and its outcome is known. -/
theorem SubmissionInv.settle_preparing (h : SubmissionInv workId created c .preparingAttempt)
    (hi : i.action.isSettlement = true) (hs : coordinatorStep lib identity i c = some (c', e)) :
    ∃ stage, (ManagerOperation.submit workId .preparingAttempt).after c.task c'.task e =
        .submit workId stage ∧
      SubmissionInv workId (created ++ (e.bind (·.prepared?)).toList) c' stage := by
  have hgoes (ht : c'.task.isSome = true) :
      (ManagerOperation.submit workId .preparingAttempt).after c.task c'.task e =
        .submit workId .preparingAttempt := by
    simp [ManagerOperation.after, ht]
  rcases h with ⟨rfl, habsent, hsign⟩ | ⟨a, rfl, ⟨hk, hpending⟩ | ⟨hk, hheld⟩⟩
  · unfold IsSigning at hsign
    split at hsign
    · rename_i hk
      subst hsign
      obtain ⟨answer, summaryCreated, hs⟩ := settlement_signing hi hk hs
      rcases signed_settles hk hs with ⟨rfl, ht, hp, hw⟩ | ⟨s, a, hcur, ha, rfl, ht, hw, hp⟩
      · refine ⟨.attemptPrepared none, ?_, Or.inl ⟨rfl, ?_, hw⟩⟩
        · simp [ManagerOperation.after, ht]
        · rw [hp]
          exact habsent.1
      · refine ⟨.preparingAttempt, hgoes (by simp [ht]), Or.inr ⟨a, rfl, Or.inl ⟨ht, ?_⟩⟩⟩
        refine ⟨ha, ?_, hw, s, by rw [hp], by rw [hp]⟩
        rw [hp, ← hcur]
        exact habsent.1
    · exact hsign.elim
  · obtain ⟨s, hcur, hpend⟩ := hpending.pending
    rcases settlement_storing hi hk hs with hs | hs
    · -- the store acknowledged the preparation
      simp only [SignerCoordinator.stored, hk, hpend, Option.some.injEq, Prod.mk.injEq] at hs
      obtain ⟨rfl, rfl⟩ := hs
      refine ⟨.preparingAttempt, hgoes rfl, Or.inr ⟨a, rfl, Or.inr ⟨rfl, ?_⟩⟩⟩
      refine ⟨hpending.work, ?_, by simp [JournalPersistence.acknowledged]⟩
      have habsent := hpending.absent
      rw [hcur] at habsent
      simp only [JournalPersistence.acknowledged, hpend]
      rw [workRecords_prepared hpending.work, habsent, List.nil_append]
    · simp only [SignerCoordinator.storeFailed, hk, Option.some.injEq, Prod.mk.injEq] at hs
      obtain ⟨rfl, rfl⟩ := hs
      exact ⟨.attemptPrepared none, rfl, Or.inr ⟨a, rfl, ⟨hpending.work, hpending.absent,
        hpending.pendingWrite, hpending.pending⟩, rfl⟩⟩
  · have hs := settlement_saved hi hk hs
    simp only [SignerCoordinator.resume, hk, resumeOwn, Option.some.injEq, Prod.mk.injEq] at hs
    obtain ⟨rfl, rfl⟩ := hs
    exact ⟨.attemptPrepared (some (.prepared a.attemptId)), rfl, a, rfl, rfl, hheld.work,
      hheld.current, hheld.pending⟩

/-- The broadcast keeps the attempt, whatever becomes of its marker. -/
theorem SubmissionInv.settle_broadcasting {attemptId : AttemptId}
    (h : SubmissionInv workId created c (.broadcasting attemptId))
    (hi : i.action.isSettlement = true) (hs : coordinatorStep lib identity i c = some (c', e)) :
    ∃ stage, (ManagerOperation.submit workId (.broadcasting attemptId)).after c.task c'.task e =
        .submit workId stage ∧
      SubmissionInv workId (created ++ (e.bind (·.prepared?)).toList) c' stage := by
  obtain ⟨a, rfl, rfl, hheld, htask⟩ := h
  unfold IsBroadcast at htask
  -- the marker is being stored, it was stored, or the transaction is being sent
  split at htask
  · rename_i b hk
    rcases settlement_storing hi hk hs with hs | hs
    · cases hp : c.persistence.pending with
      | none => simp [SignerCoordinator.stored, hk, hp] at hs
      | some s =>
        simp only [SignerCoordinator.stored, hk, hp, Option.some.injEq, Prod.mk.injEq] at hs
        obtain ⟨rfl, rfl⟩ := hs
        refine ⟨.broadcasting a.attemptId, rfl, a, rfl, rfl, ⟨hheld.work, ?_, ?_⟩, trivial⟩
        · simp only [JournalPersistence.acknowledged, hp]
          exact hheld.pending s hp
        · simp [JournalPersistence.acknowledged]
    · simp only [SignerCoordinator.storeFailed, hk, Option.some.injEq, Prod.mk.injEq] at hs
      obtain ⟨rfl, rfl⟩ := hs
      refine ⟨.broadcastSettled a.attemptId true, ?_, a, rfl, rfl, hheld.work, hheld.current,
        hheld.pending⟩
      simp [ManagerOperation.after, hk]
  · rename_i b hk
    have hs := settlement_saved hi hk hs
    simp only [SignerCoordinator.resume, hk, resumeOwn, send, Option.some.injEq,
      Prod.mk.injEq] at hs
    obtain ⟨rfl, rfl⟩ := hs
    exact ⟨.broadcasting a.attemptId, rfl, a, rfl, rfl, ⟨hheld.work, hheld.current,
      hheld.pending⟩, trivial⟩
  · rename_i hk
    have hs := settlement_sending hi hk hs
    simp only [sendSettled, hk, Option.some.injEq, Prod.mk.injEq] at hs
    obtain ⟨rfl, rfl⟩ := hs
    refine ⟨.broadcastSettled a.attemptId false, ?_, a, rfl, rfl, hheld.work, hheld.current,
      hheld.pending⟩
    simp [ManagerOperation.after, hk]
  · exact htask.elim

/-- A recovery prepares nothing. -/
theorem recovery_prepares_nothing (hi : i.action.isRecovery = true)
    (hs : coordinatorStep lib identity i c = some (c', e)) : e.bind (·.prepared?) = none := by
  by_contra hne
  obtain ⟨a, ha⟩ := Option.ne_none_iff_exists'.mp hne
  obtain ⟨x, rfl, hx⟩ := Option.bind_eq_some_iff.mp ha
  unfold Event.prepared? at hx
  split at hx
  · obtain ⟨_, _, hsigned⟩ := coordinatorStep_prepared hs
    rw [hsigned] at hi
    cases hi
  · cases hx

/-- A step of the coordinator under a submission. -/
theorem SubmissionInv.signer {stage : SubmissionStage} (h : SubmissionInv workId created c stage)
    (hadm : (ManagerOperation.submit workId stage).admits i.action = true)
    (hs : coordinatorStep lib identity i c = some (c', e)) :
    ∃ stage', (ManagerOperation.submit workId stage).after c.task c'.task e =
        .submit workId stage' ∧
      SubmissionInv workId (created ++ (e.bind (·.prepared?)).toList) c' stage' := by
  cases stage with
  | reconciling =>
    refine ⟨.reconciling, rfl, ?_⟩
    rw [recovery_prepares_nothing hadm hs, Option.toList_none, List.append_nil]
    exact h
  | preparingAttempt => exact h.settle_preparing hadm hs
  | broadcasting attemptId => exact h.settle_broadcasting hadm hs
  | _ => cases hadm

end Stages

/-- The recording agrees with the journal about the attempts that the submission
created. -/
structure RecordingExact (created : List JournalAttempt) (c : SignerCoordinator)
    (recording : SubmissionRecording) : Prop where
  single : created.length ≤ 1
  none : recording = .none → ∀ a ∈ created, ¬ HoldsAttempt c.persistence.current a ∧
    ¬ HoldsAttempt c.persistence.pending a
  uncertain : ∀ identity, recording = .uncertain identity ↔
    ∃ a ∈ created, a.attemptIdentity = identity ∧ c.persistence.state = .failed ∧
      c.pendingWrite = some .prepared ∧ HoldsAttempt c.persistence.pending a ∧
      ¬ HoldsAttempt c.persistence.current a
  retained : ∀ identity, recording = .retained identity ↔
    ∃ a ∈ created, a.attemptIdentity = identity ∧ HoldsAttempt c.persistence.current a
  resubmit : recording = .none → created = []

section Exact

variable {c : SignerCoordinator} {workId : WorkId} {a : JournalAttempt}

theorem recordingExact_nil (c : SignerCoordinator) : RecordingExact [] c .none :=
  ⟨by simp, by simp, by simp, by simp, fun _ => rfl⟩

theorem Absent.exact (h : Absent workId c) :
    RecordingExact [] c (c.captureSubmissionRecording workId) := by
  rw [capture_none h.1 h.2]
  exact recordingExact_nil c

theorem OnlyPending.exact (h : OnlyPending workId a c) (hs : c.persistence.state = .failed) :
    RecordingExact [a] c (c.captureSubmissionRecording workId) := by
  obtain ⟨s, hcur, hpend⟩ := h.pending
  have habsent := h.absent
  rw [hcur] at habsent
  have hrecords : workRecords workId c.persistence.pending = [a.record] := by
    rw [hpend, workRecords_prepared h.work, habsent, List.nil_append]
  have hholds : HoldsAttempt c.persistence.pending a := by
    rw [holdsAttempt_iff h.work, hrecords]
    exact List.mem_singleton_self _
  have hnot : ¬ HoldsAttempt c.persistence.current a := by
    rw [holdsAttempt_iff h.work, h.absent]
    exact List.not_mem_nil
  rw [capture_uncertain h.absent h.pendingWrite hs hrecords]
  refine ⟨by simp, by simp, ?_, ?_, by simp⟩
  · intro identity
    constructor
    · intro heq
      have heq := SubmissionRecording.uncertain.inj heq
      exact ⟨a, by simp, heq, hs, h.pendingWrite, hholds, hnot⟩
    · rintro ⟨b, hb, heq, _⟩
      rw [List.mem_singleton.mp hb] at heq
      rw [← heq]
      rfl
  · intro identity
    constructor
    · intro heq
      cases heq
    · rintro ⟨b, hb, _, hcurrent⟩
      rw [List.mem_singleton.mp hb] at hcurrent
      exact absurd hcurrent hnot

theorem Committed.exact (h : Committed workId a c) :
    RecordingExact [a] c (c.captureSubmissionRecording workId) := by
  have hholds : HoldsAttempt c.persistence.current a := by
    rw [holdsAttempt_iff h.work, h.current]
    exact List.mem_singleton_self _
  rw [capture_retained h.current]
  refine ⟨by simp, by simp, ?_, ?_, by simp⟩
  · intro identity
    constructor
    · intro heq
      cases heq
    · rintro ⟨b, hb, _, _, _, _, hnot⟩
      rw [List.mem_singleton.mp hb] at hnot
      exact absurd hholds hnot
  · intro identity
    constructor
    · intro heq
      have heq := SubmissionRecording.retained.inj heq
      exact ⟨a, by simp, heq, hholds⟩
    · rintro ⟨b, hb, heq, _⟩
      rw [List.mem_singleton.mp hb] at heq
      rw [← heq]
      rfl

end Exact

/-! The code of a submission between its awaits. -/

/-- What a stretch of a submission does: it goes on, with a call of the coordinator or
without, or it ends. -/
inductive Continues (lib : TransactionLibrary) (identity : JournalIdentity) (workId : WorkId)
    (created : List JournalAttempt) (c : SignerCoordinator) :
    Option ManagerEvent → Managed → Prop
  | waits {stage : SubmissionStage} : SubmissionInv workId created c stage →
      Continues lib identity workId created c none ⟨.running c, some (.submit workId stage)⟩
  | calls {i : Input} {c' : SignerCoordinator} {e : Option Event} {stage : SubmissionStage} :
      i.action ≠ .crash → coordinatorStep lib identity i c = some (c', e) →
      SubmissionInv workId (created ++ (e.bind (·.prepared?)).toList) c' stage →
      Continues lib identity workId created c (e.map .signer)
        ⟨.running c', some (.submit workId stage)⟩
  | returned {result : SubmitTransactionWorkResult} :
      Continues lib identity workId created c (some (.returned workId result)) ⟨.running c, none⟩
  | thrown {recording : SubmissionRecording} : RecordingExact created c recording →
      Continues lib identity workId created c (some (.thrown workId recording))
        ⟨.running c, none⟩

section Continue

variable {lib : TransactionLibrary} {identity : JournalIdentity} {c : SignerCoordinator}
  {e : Option ManagerEvent} {m : Managed} {workId : WorkId} {created : List JournalAttempt}
  {i : ManagerInput}

theorem Continues.of_ended {x : ManagerEvent} (h : ended c x = some (m, e))
    (hx : Continues lib identity workId created c (some x) ⟨.running c, none⟩) :
    Continues lib identity workId created c e m := by
  obtain ⟨rfl, rfl⟩ := Prod.mk.inj (Option.some.inj h)
  exact hx

theorem Continues.of_failed (h : submissionFailed c workId = some (m, e))
    (hx : RecordingExact created c (c.captureSubmissionRecording workId)) :
    Continues lib identity workId created c e m :=
  .of_ended h (.thrown hx)

theorem Continues.of_submitting {stage : SubmissionStage}
    (h : submitting c workId stage = some (m, e)) (hx : SubmissionInv workId created c stage) :
    Continues lib identity workId created c e m := by
  obtain ⟨rfl, rfl⟩ := Prod.mk.inj (Option.some.inj h)
  exact .waits hx

theorem submitReconciled_continues {v : JournalView} {failed aborted : Bool}
    (hj : JournalInv v c) (h : submitReconciled c workId failed aborted = some (m, e)) :
    Continues lib identity workId [] c e m := by
  unfold submitReconciled at h
  split_ifs at h with hf hopen
  · exact .of_ended h (.thrown (recordingExact_nil c))
  · split at h
    · exact .of_ended h .returned
    · rename_i hnone
      refine .of_submitting h ⟨rfl, workRecords_of_attemptOf hnone, ?_⟩
      -- behind an open gate no write waits
      obtain ⟨s, hgate⟩ := gateOpen_of_status hopen
      rcases (hj.phase.of_not_busy hgate.busy).2 with hr | hfailed
      · exact hr.2.1
      · exact absurd (hgate.idle.symm.trans hfailed.1) (by simp)
  · split at h
    · exact .of_ended h (.thrown (recordingExact_nil c))
    · exact .of_ended h .returned

theorem submitPrepared_continues {transaction : Option PreparedRelayerTransaction}
    {attemptId : AttemptId} {accountAddress : Address} {aborted : Bool} {now : Timestamp}
    (ha : Absent workId c)
    (h : submitPrepared now c workId transaction attemptId accountAddress aborted =
      some (m, e)) : Continues lib identity workId [] c e m := by
  unfold submitPrepared at h
  split at h
  · exact .of_failed h ha.exact
  · rename_i transaction
    split_ifs at h with hab
    · exact .of_failed h ha.exact
    · split at h
      · rename_i c' e' hp
        obtain ⟨rfl, rfl⟩ := Prod.mk.inj (Option.some.inj h)
        have hstep : coordinatorStep lib identity
            ⟨now, .prepareAttempt workId attemptId accountAddress transaction⟩ c =
              some (c', e') := hp
        refine .calls (by simp) hstep ?_
        unfold SignerCoordinator.prepareAttempt at hp
        split_ifs at hp
        obtain ⟨s, _, hp⟩ := Option.bind_eq_some_iff.mp hp
        split_ifs at hp
        obtain ⟨rfl, rfl⟩ := Prod.mk.inj (Option.some.inj hp)
        exact Or.inl ⟨rfl, ha, rfl⟩
      · have hbefore : c.preparedBefore workId = none := by
          unfold preparedBefore
          split_ifs
          · exact attemptOf_none ha.1
          · rfl
        rw [hbefore] at h
        exact .of_submitting h (Or.inl ⟨rfl, ha⟩)

theorem submitBroadcast_continues {result : Option PrepareAttemptResult} {aborted : Bool}
    {now : Timestamp} (hi : SubmissionInv workId created c (.attemptPrepared result))
    (h : submitBroadcast lib identity now c workId result aborted = some (m, e)) :
    Continues lib identity workId created c e m := by
  unfold submitBroadcast at h
  cases result with
  | none =>
    apply Continues.of_failed h
    rcases hi with ⟨rfl, ha⟩ | ⟨a, rfl, hpending, hs⟩
    · exact ha.exact
    · exact hpending.exact hs
  | some result =>
    cases result with
    | alreadyRetained _ => exact hi.elim
    | prepared attemptId =>
      obtain ⟨a, rfl, hid, hheld⟩ := hi
      simp only at h
      split_ifs at h with hab
      · exact .of_failed h hheld.exact
      · split at h
        · exact .of_submitting h ⟨a, rfl, hid, hheld⟩
        · rename_i c' e' hb
          obtain ⟨rfl, rfl⟩ := Prod.mk.inj (Option.some.inj h)
          have hstep : coordinatorStep lib identity ⟨now, .broadcastAttempt attemptId⟩ c =
              some (c', e') := hb
          refine .calls (by simp) hstep ?_
          -- the attempt is held back, it is marked before it is sent, or it is sent again
          rcases broadcastAttempt_settles hb with ⟨rfl, ht, hp⟩ |
            ⟨b, ⟨next, rfl⟩, ht, s, hcur, hp⟩ | ⟨b, _, _, rfl, ht, hp⟩
          · rw [ht]
            refine ⟨a, rfl, hid, hheld.work, ?_, ?_⟩
            · rw [hp]
              exact hheld.current
            · rw [hp]
              exact hheld.pending
          · have hrecords : workRecords workId (some s) = [a.record] := by
              rw [← hcur]
              exact hheld.current
            rw [ht]
            refine ⟨a, rfl, hid, ⟨hheld.work, ?_, ?_⟩, by rw [ht]; trivial⟩
            · rw [hp]
              exact hrecords
            · intro t hpend
              rw [hp] at hpend
              rw [← Option.some.inj hpend, workRecords_marked]
              exact hrecords
          · rw [ht]
            refine ⟨a, rfl, hid, ⟨hheld.work, ?_, ?_⟩, by rw [ht]; trivial⟩
            · rw [hp]
              exact hheld.current
            · rw [hp]
              exact hheld.pending

/-- Every stretch of a submission keeps what its stage says of the attempt. -/
theorem submissionStep_continues {v : JournalView} {stage : SubmissionStage}
    (hj : JournalInv v c) (hi : SubmissionInv workId created c stage)
    (h : submissionStep lib identity i c workId stage = some (m, e)) :
    Continues lib identity workId created c e m := by
  unfold submissionStep at h
  split at h
  · obtain rfl : created = [] := hi
    split_ifs at h
    · exact .of_ended h (.thrown (recordingExact_nil c))
    · exact .of_submitting h rfl
  · obtain rfl : created = [] := hi
    split_ifs at h
    exact submitReconciled_continues hj h
  · obtain ⟨rfl, ha⟩ := hi
    exact submitPrepared_continues ha h
  · exact submitBroadcast_continues hi h
  · obtain ⟨a, rfl, _, hheld⟩ := hi
    split_ifs at h
    · exact .of_failed h hheld.exact
    · exact .of_ended h .returned
  · cases h

end Continue

end Quicknet
