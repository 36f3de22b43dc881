import Quicknet.ManagerRuns
import Quicknet.BeaconWork

/-! One attempt for one work identity. In every run each snapshot that is committed, pending
or on disk names an identity once at most, and the account is asked to sign for an identity
only while no such snapshot names it. -/
namespace Quicknet

open Interaction Transition SignerCoordinator

namespace World

/-- Every snapshot that the journal may turn out to hold. -/
def snapshots : World → List TransactionJournalSnapshot
  | .running c => c.persistence.current.toList ++ c.persistence.pending.toList
  | .stopped stored uncertain => stored.toList ++ uncertain.toList
  | .opened read => read.toList
  | .repairing stored repair => [stored, repair]

/-- An attempt of the identity is in one of them, in whatever phase. -/
def Retains (workId : WorkId) (w : World) : Prop :=
  ∃ s ∈ w.snapshots, ∃ a ∈ s.attempts, a.workId = workId

/-- The account has been asked to sign a transaction for the identity. -/
def Signs (workId : WorkId) : World → Prop
  | .running c => IsSigning workId c.task
  | _ => False

end World

section Signing

variable {lib : TransactionLibrary} {identity : JournalIdentity} {c c' : SignerCoordinator}
  {e : Option Event}

/-- While the account signs for an identity, the committed snapshot does not name it. -/
def SigningFresh (c : SignerCoordinator) : Prop :=
  ∀ workId, IsSigning workId c.task → ∀ s, c.persistence.current = some s →
    ∀ a ∈ s.attempts, a.workId ≠ workId

theorem IsSigning.preparing {workId : WorkId} {t : Option Task} (h : IsSigning workId t) :
    Preparing t := by
  unfold IsSigning at h
  split at h
  · trivial
  · exact h.elim

theorem SigningFresh.step (ho : OwnerPhase c.inspectionOwner c.task) (h : SigningFresh c)
    (hstep : CoordinatorStep lib identity c e c') : SigningFresh c' := by
  intro workId hsign
  cases hstep with
  | @signing w _ _ _ current _ _ _ _ hcurrent _ _ hfresh =>
    obtain rfl : w = workId := hsign
    intro s hs
    obtain rfl : current = s := Option.some.inj (hcurrent.symm.trans hs)
    exact hfresh
  | owner hsome _ =>
    -- an inspection that owns the coordinator leaves no preparation to go on
    rw [hsome] at ho
    exact absurd hsign.preparing ho.not_preparing
  | begun _ _ _ _ => exact h workId hsign
  | finished _ _ _ _ _ _ _ _ => exact h workId hsign
  | abandonmentCompleted _ _ _ => exact h workId hsign
  | observing _ => exact h workId hsign
  | resumed _ hr =>
    rw [hr.task] at hsign
    exact hsign.elim
  | _ => exact hsign.elim

theorem runSigner_signingFresh (is : List Input)
    (hc : (runSigner lib identity is).1 = .running c) : SigningFresh c := by
  refine ((runSigner_running lib identity (fun tr c => ActionInv tr c ∧ SigningFresh c)
    (fun _ _ => True) ?_ ?_ (fun _ _ => trivial) (fun _ _ => trivial)
    (fun _ _ _ => trivial) is).2 c hc).2
  · intro tr read c h _
    refine ⟨h.actionInv, ?_⟩
    intro workId hsign
    rw [h.task] at hsign
    exact hsign.elim
  · intro tr c e c' hr _ ⟨haction, hfresh⟩ hstep
    exact ⟨fun _ _ => trivial, haction.step hr.journal hstep, hfresh.step haction.owner hstep⟩

/-- Every snapshot that the journal may hold is valid, so it names an identity once. -/
theorem runSigner_snapshots (is : List Input) :
    ∀ s ∈ (runSigner lib identity is).1.snapshots, SnapshotValid identity s := by
  obtain ⟨htrace, hworld⟩ := runSigner_follows lib identity is
  have hview := htrace.viewOk
  have hjournal : ∀ s, (view (runSigner lib identity is).2).journal = some s →
      SnapshotValid identity s := fun s hs => (hview.journal s hs).toSnapshotValid
  have hpending : ∀ s, (view (runSigner lib identity is).2).pending.map (·.2) = some s →
      SnapshotValid identity s := by
    intro s hs
    obtain ⟨⟨w, t⟩, hp, rfl⟩ := Option.map_eq_some_iff.mp hs
    exact (hview.pending w t hp).2.2.toSnapshotValid
  intro s hs
  generalize (runSigner lib identity is).1 = w at hworld hs
  cases w with
  | running c =>
    have hinv : JournalInv _ c := hworld
    rcases List.mem_append.mp hs with hs | hs
    · exact hjournal s (hinv.current.symm.trans (Option.mem_toList.mp hs))
    · exact hpending s (hinv.pending.symm.trans (Option.mem_toList.mp hs))
  | stopped stored uncertain =>
    obtain ⟨rfl, rfl⟩ := hworld
    rcases List.mem_append.mp hs with hs | hs
    · exact hjournal s (Option.mem_toList.mp hs)
    · exact hpending s (Option.mem_toList.mp hs)
  | opened read =>
    obtain ⟨rfl, -⟩ := hworld
    exact hjournal s (Option.mem_toList.mp hs)
  | repairing stored repair =>
    obtain ⟨hstored, w, hrepair⟩ := hworld
    have hboth : s = stored ∨ s = repair := by simpa [World.snapshots] using hs
    rcases hboth with rfl | rfl
    · exact hjournal s hstored
    · exact hpending s (by rw [hrepair]; rfl)

/-- While the account signs for an identity, no snapshot names it: nothing is pending, and
the committed one did not name it when the signing began. -/
theorem runSigner_signs (is : List Input) {workId : WorkId}
    (h : (runSigner lib identity is).1.Signs workId) :
    ¬ (runSigner lib identity is).1.Retains workId := by
  cases hw : (runSigner lib identity is).1 with
  | running c =>
    rw [hw] at h
    have hfresh := runSigner_signingFresh is hw
    have hinv := (runSigner_reached lib identity is hw).journal
    have hpending : c.persistence.pending = none := by
      have hphase := hinv.phase
      have hsign : IsSigning workId c.task := h
      unfold IsSigning at hsign
      split at hsign
      · rename_i htask
        rw [htask] at hphase
        rw [hinv.pending, hphase.1.2.2.2.2]
        rfl
      · exact hsign.elim
    rintro ⟨s, hs, a, ha, hwork⟩
    have hcurrent : c.persistence.current = some s := by
      simpa [World.snapshots, hpending] using hs
    exact hfresh workId h s hcurrent a ha hwork
  | _ =>
    rw [hw] at h
    exact h.elim

/-- The preparation of an attempt is written while the account's answer is at hand. -/
theorem CoordinatorStep.prepared_signs {a : JournalAttempt} {next : TransactionJournalSnapshot}
    (h : CoordinatorStep lib identity c (some (.write (.prepared a) next)) c') :
    IsSigning a.workId c.task := by
  generalize hx : some (Event.write (.prepared a) next) = x at h
  cases h with
  | wrote hplan _ _ =>
    obtain ⟨hw, -⟩ := Event.write.inj (Option.some.inj hx)
    cases hplan with
    | prepared htask _ _ =>
      obtain rfl := JournalWrite.prepared.inj hw
      rw [htask]
      rfl
    | _ => cases hw
  | owner _ hmove => cases hmove <;> cases hx
  | headAnswered _ _ hans =>
    rcases hans with ⟨-, rfl⟩ | ⟨-, rfl⟩ <;> cases hx
  | _ => cases hx

end Signing

/-! What a submission reports. -/

section Submissions

variable {lib : TransactionLibrary} {identity : JournalIdentity} {c : SignerCoordinator}
  {m : Managed} {workId : WorkId}

/-- The journal of the trace holds the attempt that is reported. -/
def ReportsRetained (tr : List ManagerEvent) (workId : WorkId) (r : AttemptIdentity) : Prop :=
  ∃ s a, (view (tr.filterMap ManagerEvent.signer?)).journal = some s ∧ a ∈ s.attempts ∧
    a.workId = workId ∧ r = a.attemptIdentity

/-- A submission defers, reports the attempt that the journal holds, or has submitted the
attempt that it prepared itself. -/
def ResultOk (tr : List ManagerEvent) (workId : WorkId) : SubmitTransactionWorkResult → Prop
  | .deferred _ _ => True
  | .alreadyRetained r => ReportsRetained tr workId r
  | .submitted b => b.workId = workId ∧ ∃ a ∈ createdAttempts tr, a.workId = workId ∧
      a.attemptId = b.attemptId

def ReturnOk (tr : List ManagerEvent) : ManagerEvent → Prop
  | .returned workId result => ResultOk tr workId result
  | _ => True

theorem attemptOf_some {a : JournalAttempt} (h : c.attemptOf workId = some a) :
    ∃ s, c.persistence.current = some s ∧ a ∈ s.attempts ∧ a.workId = workId := by
  obtain ⟨s, hs, hfind⟩ := Option.bind_eq_some_iff.mp h
  have hw := List.find?_some hfind
  exact ⟨s, hs, List.mem_of_find?_eq_some hfind, by simpa using hw⟩

theorem submissionStep_returned {tr : List ManagerEvent} {i : ManagerInput}
    {stage : SubmissionStage} {w : WorkId} {result : SubmitTransactionWorkResult}
    (hj : c.persistence.current = (view (tr.filterMap ManagerEvent.signer?)).journal)
    (hi : SubmissionInv workId (createdAttempts tr) c stage)
    (h : submissionStep lib identity i c workId stage = some (m, some (.returned w result))) :
    ResultOk tr w result := by
  have hsubmitting {s : SubmissionStage}
      (h : submitting c workId s = some (m, some (.returned w result))) : False := by cases h
  have hfailed (h : submissionFailed c workId = some (m, some (.returned w result))) : False := by
    cases h
  -- a stage returns with a retained attempt, with a refusal, or with the attempt that it sent
  unfold submissionStep at h
  split at h
  · split_ifs at h
    · cases h
    · exact (hsubmitting h).elim
  · split_ifs at h
    unfold submitReconciled at h
    split_ifs at h
    · cases h
    · split at h
      · rename_i retained hretained
        cases h
        obtain ⟨s, hs, ha, hw⟩ := attemptOf_some hretained
        exact ⟨s, retained, hj.symm.trans hs, ha, hw, rfl⟩
      · exact (hsubmitting h).elim
    · split at h
      · cases h
      · cases h
        trivial
  · unfold submitPrepared at h
    split at h
    · exact (hfailed h).elim
    · split_ifs at h
      · exact (hfailed h).elim
      · split at h
        · rename_i x _
          cases x <;> cases h
        · exact (hsubmitting h).elim
  · rename_i result' _
    unfold submitBroadcast at h
    split at h
    · exact (hfailed h).elim
    · split_ifs at h
      · exact (hfailed h).elim
      · split at h
        · exact hi.elim
        · split at h
          · exact (hsubmitting h).elim
          · rename_i x _
            cases x <;> cases h
  · split_ifs at h
    · exact (hfailed h).elim
    · cases h
      obtain ⟨a, hcreated, hid, hcommitted⟩ := hi
      refine ⟨rfl, a, ?_, hcommitted.work, hid⟩
      rw [hcreated]
      exact List.mem_cons_self
  · cases h

/-- The step lemma for reports. -/
theorem ManagedInv.returnOk {tr : List ManagerEvent} {m' : Managed} {e : Option ManagerEvent}
    (h : ManagedInv lib identity tr m) (hs : ManagerStep lib identity m e m') :
    ∀ x, e = some x → ReturnOk tr x := by
  have hsigner (e : Option Event) : ∀ x, e.map ManagerEvent.signer = some x → ReturnOk tr x := by
    intro x hx
    obtain ⟨y, -, rfl⟩ := Option.map_eq_some_iff.mp hx
    trivial
  cases hs with
  | world _ _ => exact hsigner _
  | signer _ _ => exact hsigner _
  | reconcile => simp
  | reconciled => simp
  | submit =>
    intro x hx
    cases hx
    trivial
  | @submission c workId stage i _ _ hsub =>
    intro x hx
    subst hx
    obtain ⟨d, hd, hi⟩ := h.submission workId stage rfl
    obtain rfl := World.running.inj hd
    cases x with
    | returned w result =>
      obtain ⟨js, hjs⟩ := h.signer
      have hrun : (runSigner lib identity js).1 = .running c := by rw [hjs]
      have hcurrent := (runSigner_reached lib identity js hrun).journal.current
      rw [hjs] at hcurrent
      exact submissionStep_returned hcurrent hi hsub
    | _ => trivial

end Submissions

end Quicknet
