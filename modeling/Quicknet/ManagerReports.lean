import Quicknet.CycleOwnership

/-! What the manager reads back from a recovery. In every run of the process the coordinator
is free once a recovery has ended, so a closed gate names its reason, and an outcome of a
broadcast names an attempt that the committed journal retains. -/
namespace Quicknet

open Interaction Transition SignerCoordinator

/-- What a cycle holds of the coordinator at its stage. -/
def CycleStage.Holds (generation : ℕ) (c : SignerCoordinator) : CycleStage → Prop
  | .started | .beginning | .sending => Free c
  | .retrying | .broadcasting => c.inspectionOwner = none
  | _ => OwnedBy generation c ∨ Free c

/-- The committed journal retains the attempt of the outcome. -/
def BroadcastAttemptResult.RetainedIn (outcome : BroadcastAttemptResult) (c : SignerCoordinator) :
    Prop :=
  ∃ s a, c.persistence.current = some s ∧ a ∈ s.attempts ∧ a.attemptId = outcome.attemptId ∧
    a.nonce = outcome.nonce ∧ a.signedTransactions.latest.transactionHash = outcome.transactionHash

/-- Nothing is in progress: no cycle, no observation, no operation of the coordinator. -/
structure Resting (s : Cycling) (c : SignerCoordinator) : Prop where
  run : s.run = none
  observation : c.reconciliationObservationActive = false
  free : Free c

/-- What is known of the coordinator while a recovery is at its stage. -/
def RecoveryInv (s : Cycling) (c : SignerCoordinator) : RecoveryStage → Prop
  | .selecting => Resting s c
  | .running => c.reconciliationObservationActive = true ∧
      ∃ r, s.run = some r ∧ r.stage ≠ .broadcasting ∧ r.stage.Holds r.generation c
  | .broadcasting a settled => c.reconciliationObservationActive = true ∧
      ∃ r, s.run = some r ∧ r.stage = .broadcasting ∧ c.inspectionOwner = none ∧
        Keeps a c.persistence ∧ (settled = none → IsBroadcast c.task) ∧
        ∀ failed, settled = some failed → c.task = none
  | .ended result => c.reconciliationObservationActive = true ∧ s.run = none ∧ Free c ∧
      ∀ outcome, result = some (some outcome) → outcome.RetainedIn c

/-- What the cycle itself has the coordinator do: nothing, or a step of a recovery. -/
def Called (lib : TransactionLibrary) (identity : JournalIdentity) (c : SignerCoordinator)
    (e : Option Event) (c' : SignerCoordinator) : Prop :=
  (e = none ∧ c' = c) ∨
    ∃ i, i.action.isRecovery = true ∧ coordinatorStep lib identity i c = some (c', e)

section Next

variable (lib : TransactionLibrary) (identity : JournalIdentity) (answer : BroadcastAnswer)

/-- A step of the cycle is one of the coordinator, and keeps what is known. -/
def NextOk (c : SignerCoordinator) (stage : RecoveryStage) (s' : Cycling)
    (e : Option CycleEvent) : Prop :=
  ∃ c', s'.world = .running c' ∧ Called lib identity c (e.bind (·.signer)) c' ∧
    RecoveryInv s' c' (stage.after answer c s' e)

variable {lib identity answer} {s s' : Cycling} {r : CycleRun} {c c' : SignerCoordinator}
  {stage : RecoveryStage} {e : Option CycleEvent} {x : Option Event} {reading : CycleReading}

theorem retainedIn_of_holds {a : JournalAttempt}
    (h : HoldsAttempt c.persistence.current a) : (broadcastResult a answer).RetainedIn c := by
  obtain ⟨s, hs, hm⟩ := h
  obtain ⟨b, hb, hrecord⟩ := List.mem_map.mp hm
  obtain ⟨hid, hrest⟩ := JournalAttempt.Record.mk.inj hrecord
  exact ⟨s, b, hs, hb, hid, hrest.2.1, by rw [hrest.2.2.2]; rfl⟩

/-- The cycle throws: it held nothing any more. -/
theorem nextOk_throws {n : ℕ} (hw : s.world = .running c)
    (hobs : c.reconciliationObservationActive = true) (hfree : Free c)
    (h : s.throws n = some (s', e)) : NextOk lib identity answer c stage s' e := by
  obtain ⟨rfl, rfl⟩ := Prod.mk.inj (Option.some.inj h)
  exact ⟨c, hw, Or.inl ⟨rfl, rfl⟩, hobs, rfl, hfree, by simp⟩

/-- The cycle goes on, over the coordinator as its call has left it. -/
theorem nextOk_goes {r' : CycleRun} (hw : s'.world = .running c') (hr : s'.run = some r')
    (hstage : r'.stage ≠ .broadcasting) (hcalled : Called lib identity c x c')
    (hx : e.bind (·.signer) = x) (hobs : c'.reconciliationObservationActive = true)
    (hholds : r'.stage.Holds r'.generation c') : NextOk lib identity answer c stage s' e := by
  have hafter : stage.after answer c s' e = .running := by
    unfold RecoveryStage.after
    rw [hr]
    dsimp only
    split
    · rename_i hb _ _
      exact absurd hb hstage
    · rfl
  refine ⟨c', hw, by rw [hx]; exact hcalled, ?_⟩
  rw [hafter]
  exact ⟨hobs, r', hr, hstage, hholds⟩

theorem nextOk_abandons (hobs : c.reconciliationObservationActive = true) (hholds : OwnedBy r.generation c ∨ Free c)
    (h : s.abandons r c = some (s', e)) : NextOk lib identity answer c stage s' e := by
  obtain ⟨rfl, rfl⟩ := Prod.mk.inj (Option.some.inj h)
  exact nextOk_goes rfl rfl (by simp) (Or.inl ⟨rfl, rfl⟩) rfl hobs hholds

theorem retryCycle_ok (hw : s.world = .running c)
    (hobs : c.reconciliationObservationActive = true) (hfree : Free c)
    (h : retryCycle s r c = some (s', e)) : NextOk lib identity answer c stage s' e := by
  unfold retryCycle at h
  split_ifs at h
  · split at h
    · exact nextOk_throws hw hobs hfree h
    · rename_i c' x hretry
      obtain ⟨rfl, rfl⟩ := Prod.mk.inj (Option.some.inj h)
      have hframed := retryPersistence_framed hretry
      exact nextOk_goes rfl rfl (by simp) (Or.inr ⟨⟨0, .retryPersistence⟩, rfl, hretry⟩) rfl
        (hframed.observation.trans hobs) (hframed.alone hfree.2)
  · obtain ⟨rfl, rfl⟩ := Prod.mk.inj (Option.some.inj h)
    exact nextOk_goes rfl rfl (by simp) (Or.inl ⟨rfl, rfl⟩) rfl hobs hfree

theorem beginCycle_ok (hw : s.world = .running c)
    (hobs : c.reconciliationObservationActive = true) (hfree : Free c)
    (h : beginCycle reading s r c = some (s', e)) : NextOk lib identity answer c stage s' e := by
  unfold beginCycle at h
  split at h
  · exact nextOk_throws hw hobs hfree h
  · split at h
    · exact nextOk_throws hw hobs hfree h
    · rename_i c' x hbegin
      have hcalled : Called lib identity c x c' := Or.inr ⟨⟨0, .beginInspection⟩, rfl, hbegin⟩
      obtain ⟨hobs', howned⟩ := beginInspection_owned hbegin
      dsimp only at h
      split_ifs at h <;> obtain ⟨rfl, rfl⟩ := Prod.mk.inj (Option.some.inj h)
      · exact nextOk_goes rfl rfl (by simp) hcalled rfl (hobs'.trans hobs) (Or.inl howned)
      · exact nextOk_goes rfl rfl (by simp) hcalled rfl (hobs'.trans hobs) (Or.inl howned)

theorem callRecover_ok {passes : ℕ} (hobs : c.reconciliationObservationActive = true)
    (hholds : OwnedBy r.generation c ∨ Free c) (h : callRecover s r passes c = some (s', e)) :
    NextOk lib identity answer c stage s' e := by
  unfold callRecover at h
  split at h
  · exact nextOk_abandons hobs hholds h
  · rename_i c' x hcall
    obtain ⟨rfl, rfl⟩ := Prod.mk.inj (Option.some.inj h)
    obtain ⟨hobs', howned⟩ := callOwned_owned hcall
    exact nextOk_goes rfl rfl (by simp) (Or.inr ⟨⟨0, .callOwned _ _⟩, rfl, hcall⟩) rfl
      (hobs'.trans hobs) (Or.inl howned)

/-- The operation of the inspection has settled, and its inspection goes on. -/
theorem settled_goes {failed : Bool} {r' : CycleRun} (hs : Sound c)
    (hobs : c.reconciliationObservationActive = true)
    (hsettled : c.settledOwned r.generation = some failed)
    (hsettle : c.settleOperation = some (c', x)) (hw : s'.world = .running c')
    (hr : s'.run = some r') (hgeneration : r'.generation = r.generation)
    (hstage : ∀ d, (OwnedBy r.generation d ∨ Free d) → r'.stage.Holds r.generation d)
    (hstage' : r'.stage ≠ .broadcasting) (hx : e.bind (·.signer) = x) :
    NextOk lib identity answer c stage s' e := by
  have hstep : coordinatorStep lib identity ⟨0, .settleOperation⟩ c = some (c', x) := hsettle
  obtain ⟨o, ho, _⟩ := Option.bind_eq_some_iff.mp hsettled
  have howned : OwnedBy r.generation c := ⟨o, owned_eq_some ho⟩
  apply nextOk_goes hw hr hstage' (Or.inr ⟨_, rfl, hstep⟩) hx
  · exact (settleOperation_framed hsettle).observation.trans hobs
  · rw [hgeneration]
    exact hstage c' (continuation_owned hs howned hstep)

theorem recoverSettled_ok {passes : ℕ} (hs : Sound c)
    (hobs : c.reconciliationObservationActive = true)
    (h : recoverSettled reading s r passes c = some (s', e)) :
    NextOk lib identity answer c stage s' e := by
  obtain ⟨failed, hsettled, h⟩ := Option.bind_eq_some_iff.mp h
  obtain ⟨⟨c', x⟩, hsettle, h⟩ := Option.bind_eq_some_iff.mp h
  have hgo {s' : Cycling} {e : Option CycleEvent} (t : CycleStage)
      (hheld : ∀ d, (OwnedBy r.generation d ∨ Free d) → t.Holds r.generation d)
      (ht : t ≠ .broadcasting) (hw : s'.world = .running c')
      (hr : s'.run = some { r with stage := t }) (hx : e.bind (·.signer) = x) :
      NextOk lib identity answer c stage s' e :=
    settled_goes hs hobs hsettled hsettle hw hr rfl hheld ht hx
  dsimp only at h
  split at h
  · obtain ⟨rfl, rfl⟩ := Prod.mk.inj (Option.some.inj h)
    exact hgo .abandoning (fun _ hd => hd) (by simp) rfl rfl rfl
  · obtain ⟨result, _, h⟩ := Option.map_eq_some_iff.mp h
    split at h
    · split at h <;> obtain ⟨rfl, rfl⟩ := Prod.mk.inj h
      · exact hgo .abandoning (fun _ hd => hd) (by simp) rfl rfl rfl
      · exact hgo (.calling _) (fun _ hd => hd) (by simp) rfl rfl rfl
    · split at h
      · obtain ⟨rfl, rfl⟩ := Prod.mk.inj h
        exact hgo .inspected (fun _ hd => hd) (by simp) rfl rfl rfl
      · split at h <;> obtain ⟨rfl, rfl⟩ := Prod.mk.inj h
        · exact hgo .inspected (fun _ hd => hd) (by simp) rfl rfl rfl
        · exact hgo .inspected (fun _ hd => hd) (by simp) rfl rfl rfl

theorem callCheckInclusions_ok (hobs : c.reconciliationObservationActive = true)
    (hholds : OwnedBy r.generation c ∨ Free c)
    (h : callCheckInclusions reading s r c = some (s', e)) :
    NextOk lib identity answer c stage s' e := by
  unfold callCheckInclusions at h
  split_ifs at h
  · exact nextOk_abandons hobs hholds h
  · split at h
    · exact nextOk_abandons hobs hholds h
    · rename_i c' x hcall
      obtain ⟨rfl, rfl⟩ := Prod.mk.inj (Option.some.inj h)
      obtain ⟨hobs', howned⟩ := callOwned_owned hcall
      exact nextOk_goes rfl rfl (by simp) (Or.inr ⟨⟨0, .callOwned _ _⟩, rfl, hcall⟩) rfl
        (hobs'.trans hobs) (Or.inl howned)
  · obtain ⟨rfl, rfl⟩ := Prod.mk.inj (Option.some.inj h)
    exact nextOk_goes rfl rfl (by simp) (Or.inl ⟨rfl, rfl⟩) rfl hobs hholds

theorem checkSettled_ok (hs : Sound c) (hobs : c.reconciliationObservationActive = true)
    (h : checkSettled s r c = some (s', e)) : NextOk lib identity answer c stage s' e := by
  obtain ⟨failed, hsettled, h⟩ := Option.bind_eq_some_iff.mp h
  obtain ⟨⟨c', x⟩, hsettle, h⟩ := Option.bind_eq_some_iff.mp h
  dsimp only at h
  split_ifs at h
  · obtain ⟨rfl, rfl⟩ := Prod.mk.inj (Option.some.inj h)
    exact settled_goes hs hobs hsettled hsettle rfl rfl rfl (fun _ hd => hd) (by simp) rfl
  · obtain ⟨complete, _, h⟩ := Option.map_eq_some_iff.mp h
    split_ifs at h <;> obtain ⟨rfl, rfl⟩ := Prod.mk.inj h
    · exact settled_goes hs hobs hsettled hsettle rfl rfl rfl (fun _ hd => hd) (by simp) rfl
    · exact settled_goes hs hobs hsettled hsettle rfl rfl rfl (fun _ hd => hd) (by simp) rfl

theorem finishCycle_ok (hs : Sound c) (hobs : c.reconciliationObservationActive = true)
    (hholds : OwnedBy r.generation c ∨ Free c) (h : finishCycle reading s r c = some (s', e)) :
    NextOk lib identity answer c stage s' e := by
  unfold finishCycle at h
  split_ifs at h
  · exact nextOk_abandons hobs hholds h
  · split at h
    · exact nextOk_abandons hobs hholds h
    · rename_i c' x hfinish
      obtain ⟨rfl, rfl⟩ := Prod.mk.inj (Option.some.inj h)
      obtain ⟨hobs', hfree⟩ := finishInspection_free hs hfinish
      exact nextOk_goes rfl rfl (by simp)
        (Or.inr ⟨⟨reading.now, .finishInspection _⟩, rfl, hfinish⟩) rfl (hobs'.trans hobs) hfree

theorem abandonCycle_ok (hobs : c.reconciliationObservationActive = true)
    (hholds : OwnedBy r.generation c ∨ Free c) (h : abandonCycle s r c = some (s', e)) :
    NextOk lib identity answer c stage s' e := by
  unfold abandonCycle at h
  split at h
  · obtain ⟨rfl, rfl⟩ := Prod.mk.inj (Option.some.inj h)
    exact nextOk_goes rfl rfl (by simp) (Or.inl ⟨rfl, rfl⟩) rfl hobs hholds
  · rename_i c' x habandon
    obtain ⟨rfl, rfl⟩ := Prod.mk.inj (Option.some.inj h)
    obtain ⟨hobs', howned⟩ := abandonInspection_owned habandon
    exact nextOk_goes rfl rfl (by simp) (Or.inr ⟨⟨0, .abandonInspection _⟩, rfl, habandon⟩) rfl
      (hobs'.trans hobs) (Or.inl howned)

theorem sendCycle_ok (hw : s.world = .running c) (hs : Sound c)
    (hobs : c.reconciliationObservationActive = true) (hfree : Free c)
    (h : sendCycle lib identity reading s r c = some (s', e)) :
    NextOk lib identity answer c .running s' e := by
  have hreturns (h : some (s.returns c, none) = some (s', e)) :
      NextOk lib identity answer c .running s' e := by
    obtain ⟨rfl, rfl⟩ := Prod.mk.inj (Option.some.inj h)
    exact ⟨c, rfl, Or.inl ⟨rfl, rfl⟩, hobs, rfl, hfree, by simp⟩
  unfold sendCycle at h
  split at h
  · exact nextOk_throws hw hobs hfree h
  · split at h
    · exact hreturns h
    · rename_i attempt hattempt
      split at h
      · split at h
        · exact nextOk_throws hw hobs hfree h
        · rename_i c' x hsend
          obtain ⟨rfl, rfl⟩ := Prod.mk.inj (Option.some.inj h)
          obtain ⟨hframed, hkeeps, htask⟩ := broadcastAttempt_keeps hs hfree hattempt hsend
          refine ⟨c', rfl, Or.inr ⟨⟨reading.now, .broadcastAttempt _⟩, rfl, hsend⟩, ?_⟩
          have hafter : RecoveryStage.running.after answer c (s.goesOn r c' .broadcasting)
              (some ⟨x, none⟩) =
                .broadcasting attempt (if c'.task.isSome then none else some true) := by
            simp [RecoveryStage.after, Cycling.goesOn, hattempt]
          rw [hafter]
          refine ⟨hframed.observation.trans hobs, { r with stage := .broadcasting }, rfl, rfl,
            hframed.alone hfree.2, hkeeps, ?_, ?_⟩
          · intro hpending
            rcases htask with htask | htask
            · exact htask
            · simp [htask] at hpending
          · intro failed hsettled
            cases ht : c'.task with
            | none => rfl
            | some t => simp [ht] at hsettled
      · exact hreturns h

/-- A broadcast whose promise has settled leaves the coordinator free, its attempt retained. -/
theorem broadcasting_ok {a : JournalAttempt} {settled : Option Bool} (hw : s.world = .running c)
    (hobs : c.reconciliationObservationActive = true) (hfree : Free c) (hkeeps : Keeps a c.persistence)
    {failed : Bool} (h : (if failed then s.throws r.cycle else some (s.returns c, none)) = some (s', e)) :
    NextOk lib identity answer c (.broadcasting a settled) s' e := by
  split_ifs at h
  · exact nextOk_throws hw hobs hfree h
  · obtain ⟨rfl, rfl⟩ := Prod.mk.inj (Option.some.inj h)
    refine ⟨c, rfl, Or.inl ⟨rfl, rfl⟩, hobs, rfl, hfree, ?_⟩
    intro outcome houtcome
    obtain rfl := Option.some.inj (Option.some.inj houtcome)
    exact retainedIn_of_holds hkeeps.1

/-- The step lemma of the cycle under the manager. -/
theorem nextCycle_ok {reading' : CycleReading} (hw : s.world = .running c) (hr : s.run = some r)
    (hs : Sound c) (hinv : RecoveryInv s c stage)
    (hawaited : stage.awaited reading r c = some reading')
    (h : nextCycle lib identity reading' s r c = some (s', e)) :
    NextOk lib identity answer c stage s' e := by
  cases stage with
  | selecting => exact absurd (hr.symm.trans hinv.run) (by simp)
  | ended result => exact absurd (hr.symm.trans hinv.2.1) (by simp)
  | broadcasting a settled =>
    obtain ⟨hobs, r', hr', hstage, hown, hkeeps, _, hsettled⟩ := hinv
    obtain rfl := Option.some.inj (hr.symm.trans hr')
    simp only [RecoveryStage.awaited, hstage] at hawaited
    obtain ⟨failed, rfl, rfl⟩ := Option.map_eq_some_iff.mp hawaited
    simp only [nextCycle, hstage] at h
    exact broadcasting_ok hw hobs ⟨hsettled failed rfl, hown⟩ hkeeps h
  | running =>
    obtain ⟨hobs, r', hr', hbroadcast, hholds⟩ := hinv
    obtain rfl := Option.some.inj (hr.symm.trans hr')
    unfold nextCycle at h
    unfold CycleStage.Holds at hholds
    cases hstage : r.stage <;> simp only [hstage] at h hholds
    case started => exact retryCycle_ok hw hobs hholds h
    case retrying =>
      simp only [RecoveryStage.awaited, hstage] at hawaited
      split_ifs at hawaited with ht
      have hfree : Free c := ⟨Option.isNone_iff_eq_none.mp ht, hholds⟩
      split_ifs at h
      · exact nextOk_throws hw hobs hfree h
      · obtain ⟨rfl, rfl⟩ := Prod.mk.inj (Option.some.inj h)
        exact nextOk_goes rfl rfl (by simp) (Or.inl ⟨rfl, rfl⟩) rfl hobs hfree
    case beginning => exact beginCycle_ok hw hobs hholds h
    case calling passes => exact callRecover_ok hobs hholds h
    case recovering passes => exact recoverSettled_ok hs hobs h
    case inspected => exact callCheckInclusions_ok hobs hholds h
    case checking => exact checkSettled_ok hs hobs h
    case finishing => exact finishCycle_ok hs hobs hholds h
    case sending => exact sendCycle_ok hw hs hobs hholds h
    case broadcasting => exact absurd hstage hbroadcast
    case abandoning => exact abandonCycle_ok hobs hholds h
    case abandoned =>
      simp only [RecoveryStage.awaited, hstage] at hawaited
      split_ifs at hawaited with howned
      rcases hholds with ⟨o, ho, hg⟩ | hfree
      · -- the abandonment would still be awaited
        simp [owned, ho, hg] at howned
      · exact nextOk_throws hw hobs hfree h

end Next

/-! What an answer to the coordinator changes under a recovery. -/

section Answers

variable {lib : TransactionLibrary} {identity : JournalIdentity} {s s' : Cycling} {r : CycleRun}
  {c c' : SignerCoordinator} {stage : RecoveryStage} {e : Option Event} {i : Input}

theorem RecoveryInv.answered (hr : s.run = some r) (hs : Sound c) (hinv : RecoveryInv s c stage)
    (hi : i.action.isContinuation = true)
    (h : coordinatorStep lib identity i c = some (c', e)) (hw' : s'.world = .running c')
    (hr' : s'.run = s.run) : RecoveryInv s' c' (stage.settled c.task s'.world) := by
  have hframed := continuation_framed hi h
  -- a coordinator that is free has nothing to continue
  have hstuck {p : Prop} (hfree : Free c) : p :=
    absurd ((hfree.stays hi).symm.trans h) (by simp)
  cases stage with
  | selecting => exact absurd (hr.symm.trans hinv.run) (by simp)
  | ended result => exact absurd (hr.symm.trans hinv.2.1) (by simp)
  | running =>
    obtain ⟨hobs, r', hrun, hbroadcast, hholds⟩ := hinv
    obtain rfl := Option.some.inj (hr.symm.trans hrun)
    have hown (hheld : OwnedBy r.generation c ∨ Free c) : OwnedBy r.generation c' ∨ Free c' := by
      rcases hheld with howned | hfree
      · exact continuation_owned hs howned h
      · exact hstuck hfree
    refine ⟨hframed.observation.trans hobs, r, hr'.trans hr, hbroadcast, ?_⟩
    unfold CycleStage.Holds at hholds ⊢
    cases hstage : r.stage <;> simp only [hstage] at hholds ⊢
    case started => exact hstuck hholds
    case beginning => exact hstuck hholds
    case sending => exact hstuck hholds
    case retrying => exact hframed.alone hholds
    case broadcasting => exact hframed.alone hholds
    all_goals exact hown hholds
  -- the broadcast that recovery waits for goes on or is settled
  | broadcasting a settled =>
    obtain ⟨hobs, r', hrun, hstage, hown, hkeeps, htask, hsettled⟩ := hinv
    obtain rfl := Option.some.inj (hr.symm.trans hrun)
    cases settled with
    | some failed => exact hstuck ⟨hsettled failed rfl, hown⟩
    | none =>
      have hsettles := continuation_settles hi hown h
      obtain ⟨hkeeps', htask'⟩ := broadcast_continues hsettles hkeeps (htask rfl) h
      obtain ⟨settled', hafter, hpending⟩ := RecoveryStage.settled_running c.task c' a
      rw [hw', hafter]
      refine ⟨hframed.observation.trans hobs, r, hr'.trans hr, hstage, hframed.alone hown, hkeeps',
        ?_, ?_⟩
      · intro hnone
        rcases htask' with htask' | htask'
        · exact htask'
        · simp [htask'] at hpending
          exact absurd hnone hpending
      · intro failed hdone
        by_contra ht
        rw [hpending.mpr (Option.isSome_iff_ne_none.mpr ht)] at hdone
        cases hdone

end Answers

/-! The operations of the manager. -/

/-- The stages at which a submission awaits an operation of the coordinator. -/
def SubmissionStage.operates : SubmissionStage → Bool
  | .preparingAttempt | .broadcasting _ => true
  | _ => false

/-- A submission after its recovery: only its own operation may be suspended. -/
structure SubmissionHolds (s : Cycling) (c : SignerCoordinator) (stage : SubmissionStage) :
    Prop where
  run : s.run = none
  observation : c.reconciliationObservationActive = false
  owner : c.inspectionOwner = none
  task : stage.operates = false → c.task = none

def CallInv (s : Cycling) (c : SignerCoordinator) : Option ManagerCall → Prop
  | none => Resting s c
  | some (.recovery _ stage) => RecoveryInv s c stage
  | some (.submission _ stage) => SubmissionHolds s c stage

section Submissions

variable {lib : TransactionLibrary} {identity : JournalIdentity} {s : Cycling}
  {c c' : SignerCoordinator} {workId : WorkId} {stage stage' : SubmissionStage}
  {m : Managed} {e : Option ManagerEvent} {i : ManagerInput}

theorem SubmissionHolds.call (h : SubmissionHolds s c stage) :
    CallInv s c (some (.ofOperation (.submit workId stage))) := by
  cases stage with
  | reconciling => exact ⟨h.run, h.observation, h.task rfl, h.owner⟩
  | _ => exact h

theorem SubmissionHolds.resting (h : SubmissionHolds s c stage) (ht : c.task = none) :
    Resting s c :=
  ⟨h.run, h.observation, ht, h.owner⟩

/-- Where a stretch of a submission leads. -/
def SubmissionLeads (s : Cycling) (m : Managed) : Prop :=
  ∃ c', m.world = .running c' ∧
    CallInv { s with world := m.world } c' (m.operation.map .ofOperation)

theorem leads_of_ended {x : ManagerEvent} (h : Resting s c) (hm : ended c x = some (m, e)) :
    SubmissionLeads s m := by
  obtain ⟨rfl, rfl⟩ := Prod.mk.inj (Option.some.inj hm)
  exact ⟨c, rfl, h.run, h.observation, h.free⟩

theorem leads_of_submitting (h : SubmissionHolds s c stage)
    (hm : submitting c workId stage = some (m, e)) : SubmissionLeads s m := by
  obtain ⟨rfl, rfl⟩ := Prod.mk.inj (Option.some.inj hm)
  have hholds : SubmissionHolds { s with world := .running c } c stage :=
    ⟨h.run, h.observation, h.owner, h.task⟩
  exact ⟨c, rfl, hholds.call⟩

/-- The submission has called the coordinator. -/
theorem leads_of_called {x : Option ManagerEvent} (h : Resting s c) (hf : Framed c c')
    (ht : stage.operates = false → c'.task = none)
    (hm : some ((⟨.running c', some (.submit workId stage)⟩ : Managed), x) = some (m, e)) :
    SubmissionLeads s m := by
  obtain ⟨rfl, rfl⟩ := Prod.mk.inj (Option.some.inj hm)
  have hholds : SubmissionHolds { s with world := .running c' } c' stage :=
    ⟨h.run, hf.observation.trans h.observation, hf.alone h.free.2, ht⟩
  exact ⟨c', rfl, hholds.call⟩

theorem submitReconciled_leads {failed aborted : Bool} (h : Resting s c)
    (hm : submitReconciled c workId failed aborted = some (m, e)) : SubmissionLeads s m := by
  unfold submitReconciled at hm
  split_ifs at hm
  · exact leads_of_ended h hm
  · split at hm
    · exact leads_of_ended h hm
    · exact leads_of_submitting ⟨h.run, h.observation, h.free.2, fun _ => h.free.1⟩ hm
  · split at hm <;> exact leads_of_ended h hm

theorem submitPrepared_leads {now : Timestamp} {transaction : Option PreparedRelayerTransaction}
    {attemptId : AttemptId} {accountAddress : Address} {aborted : Bool} (h : Resting s c)
    (hm : submitPrepared now c workId transaction attemptId accountAddress aborted =
      some (m, e)) : SubmissionLeads s m := by
  unfold submitPrepared at hm
  split at hm
  · exact leads_of_ended h hm
  · split_ifs at hm
    · exact leads_of_ended h hm
    · split at hm
      · rename_i c' x hprepare
        exact leads_of_called h (prepareAttempt_framed hprepare) (by simp [SubmissionStage.operates])
          hm
      · exact leads_of_submitting ⟨h.run, h.observation, h.free.2, fun _ => h.free.1⟩ hm

theorem submitBroadcast_leads {now : Timestamp} {result : Option PrepareAttemptResult}
    {aborted : Bool} (h : Resting s c)
    (hm : submitBroadcast lib identity now c workId result aborted = some (m, e)) :
    SubmissionLeads s m := by
  unfold submitBroadcast at hm
  split at hm
  · exact leads_of_ended h hm
  · split_ifs at hm
    · exact leads_of_ended h hm
    · split at hm
      · exact leads_of_ended h hm
      · split at hm
        · exact leads_of_submitting ⟨h.run, h.observation, h.free.2, fun _ => h.free.1⟩ hm
        · rename_i c' x hsend
          apply leads_of_called h (broadcastAttempt_framed hsend) _ hm
          split_ifs with ht
          · simp [SubmissionStage.operates]
          · intro _
            exact Option.not_isSome_iff_eq_none.mp ht

/-- Every stretch of a submission leaves the coordinator to the operation that it awaits. -/
theorem submissionStep_leads (h : SubmissionHolds s c stage)
    (hm : submissionStep lib identity i c workId stage = some (m, e)) : SubmissionLeads s m := by
  unfold submissionStep at hm
  split at hm
  · split_ifs at hm
    · exact leads_of_ended (h.resting (h.task rfl)) hm
    · exact leads_of_submitting ⟨h.run, h.observation, h.owner, fun _ => h.task rfl⟩ hm
  · split_ifs at hm
    exact submitReconciled_leads (h.resting (h.task rfl)) hm
  · exact submitPrepared_leads (h.resting (h.task rfl)) hm
  · exact submitBroadcast_leads (h.resting (h.task rfl)) hm
  · split_ifs at hm
    · exact leads_of_ended (h.resting (h.task rfl)) hm
    · exact leads_of_ended (h.resting (h.task rfl)) hm
  · cases hm

end Submissions

/-! The process refines the manager without its cycle, step by step. -/

section Simulation

variable (lib : TransactionLibrary) (identity : JournalIdentity)

/-- Every run of the manager that ends in `m` can go on to `m'`, emitting `e`. -/
def Simulates (m : Managed) (e : Option ManagerEvent) (m' : Managed) : Prop :=
  ∀ tr, (∃ ms, runManager lib identity ms = (m, tr)) →
    ∃ ms, runManager lib identity ms = (m', tr ++ e.toList)

variable {lib identity} {m m' m'' : Managed} {e : Option ManagerEvent} {c c' : SignerCoordinator}
  {x : Option Event}

theorem simulates_refl (m : Managed) : Simulates lib identity m none m := by
  intro tr h
  rw [Option.toList_none, List.append_nil]
  exact h

theorem simulates_step {i : ManagerInput} (h : managerStep lib identity i m = some (m', e)) :
    Simulates lib identity m e m' := by
  rintro tr ⟨ms, hms⟩
  refine ⟨ms ++ [i], ?_⟩
  have hrun : runManager lib identity (ms ++ [i]) =
      (managerSystem lib identity).next (runManager lib identity ms) i :=
    System.run_append_singleton _ ms i
  have hstep : (managerSystem lib identity).step i m = some (m', e) := h
  rw [hrun, hms]
  simp only [System.next, hstep]

/-- A step without an event comes first. -/
theorem Simulates.trans (h : Simulates lib identity m none m')
    (h' : Simulates lib identity m' e m'') : Simulates lib identity m e m'' := by
  intro tr hm
  have hm' := h tr hm
  rw [Option.toList_none, List.append_nil] at hm'
  exact h' tr hm'

/-- The manager admits a step of the coordinator. -/
theorem simulates_signer {operation : ManagerOperation} {i : Input}
    (hadmits : operation.admits i.action = true)
    (h : coordinatorStep lib identity i c = some (c', x)) :
    Simulates lib identity ⟨.running c, some operation⟩ (x.map .signer)
      ⟨.running c', some (operation.after c.task c'.task x)⟩ := by
  apply @simulates_step _ _ _ _ _ ⟨i.now, false, .signer i.action⟩
  simp only [managerStep, signerStep, hadmits, if_true]
  rw [h]
  rfl

/-- A step of the coordinator under a recovery. -/
theorem simulates_recovery {caller : Option WorkId} {i : Input} (hi : i.action.isRecovery = true)
    (h : coordinatorStep lib identity i c = some (c', x)) :
    Simulates lib identity ⟨.running c, some (recoveryOperation caller)⟩ (x.map .signer)
      ⟨.running c', some (recoveryOperation caller)⟩ := by
  cases caller with
  | none => exact @simulates_signer lib identity _ _ _ .reconcile i hi h
  | some workId => exact @simulates_signer lib identity _ _ _ (.submit workId .reconciling) i hi h

/-- A recovery that ended with the coordinator free lets its caller go on. -/
theorem simulates_reconciled (hfree : Free c) :
    Simulates lib identity ⟨.running c, some .reconcile⟩ none ⟨.running c, none⟩ := by
  apply @simulates_step _ _ _ _ _ ⟨0, false, .reconciled false⟩
  simp [managerStep, hfree.1, hfree.2]

theorem simulates_submission {workId : WorkId} {failed aborted : Bool} (hfree : Free c)
    (hm : submitReconciled c workId failed aborted = some (m', e)) :
    Simulates lib identity ⟨.running c, some (.submit workId .reconciling)⟩ e m' := by
  apply @simulates_step _ _ _ _ _ ⟨0, aborted, .reconciled failed⟩
  simp only [managerStep, submissionStep, hfree.1, hfree.2]
  exact hm

end Simulation

/-! Runs of the process. -/

section Process

variable (lib : TransactionLibrary) (identity : JournalIdentity) (maxBlockRange : ℕ)

/-- A step of the process is one of the manager without its cycle, leaves the coordinator as
its operation needs it, and raises no error of the manager's own. -/
structure StepOk (s : ManagerProcess) (e : Option ProcessEvent) (s' : ManagerProcess) : Prop where
  simulates : Simulates lib identity s.managed (e.bind (·.manager?)) s'.managed
  call : ∀ c, s'.cycling.world = .running c → CallInv s'.cycling c s'.call
  quiet : ∀ caller failure, e ≠ some (.raised caller failure)

variable {lib identity maxBlockRange} {s s' : Cycling} {p p' : ManagerProcess}
  {c c' : SignerCoordinator} {caller : Option WorkId} {stage : RecoveryStage}
  {e : Option ProcessEvent} {x : Option Event} {reading : CycleReading}

@[simp] theorem ofSigner_manager : (ProcessEvent.ofSigner x).bind (·.manager?) =
    x.map ManagerEvent.signer := by
  cases x <;> rfl

theorem ofSigner_quiet {caller : Option WorkId} {failure : Failure} :
    ProcessEvent.ofSigner x ≠ some (.raised caller failure) := by
  cases x <;> simp [ProcessEvent.ofSigner]

theorem rejectCall_ok (hw : s.world = .running c) (hrest : Resting s c)
    (h : rejectCall s caller = some (p', e)) :
    StepOk lib identity ⟨s, some (.recovery caller stage)⟩ e p' := by
  obtain ⟨rfl, rfl⟩ := Prod.mk.inj (Option.some.inj h)
  have hcall (d : SignerCoordinator) (hd : s.world = .running d) : CallInv s d none := by
    obtain rfl := World.running.inj (hw.symm.trans hd)
    exact hrest
  cases caller with
  | none =>
    refine ⟨?_, hcall, by simp⟩
    show Simulates lib identity ⟨s.world, some .reconcile⟩ none ⟨s.world, none⟩
    rw [hw]
    exact simulates_reconciled hrest.free
  | some workId =>
    refine ⟨?_, hcall, by simp⟩
    show Simulates lib identity ⟨s.world, some (.submit workId .reconciling)⟩
      (some (.thrown workId .none)) ⟨s.world, none⟩
    rw [hw]
    have hthrown : submitReconciled c workId true false =
        some (⟨.running c, none⟩, some (.thrown workId .none)) := rfl
    exact simulates_submission hrest.free hthrown

/-- A recovery that begins is not refused, and its cycle starts over a free coordinator. -/
theorem reconcileOwned_ok {head anchor : BlockAnchor} (hs : Sound c) (hw : s.world = .running c)
    (hrest : Resting s c)
    (h : reconcileOwned maxBlockRange reading s c caller head anchor = some (p', e)) :
    StepOk lib identity ⟨s, some (.recovery caller stage)⟩ e p' := by
  have hbegin : c.beginObservation = some ({ c with reconciliationObservationActive := true }, none) := by
    simp [beginObservation, assertAvailable, hrest.observation, hrest.free.2,
      hrest.free.notBusy hs]
  unfold reconcileOwned at h
  rw [hbegin] at h
  obtain ⟨⟨s', note⟩, hstart, heq⟩ := Option.map_eq_some_iff.mp h
  obtain ⟨rfl, rfl⟩ := Prod.mk.inj heq
  have hstep : coordinatorStep lib identity ⟨0, .beginObservation⟩ c =
      some ({ c with reconciliationObservationActive := true }, none) := hbegin
  have hsim := @simulates_recovery lib identity _ _ _ caller ⟨0, .beginObservation⟩ rfl hstep
  have hlead : s'.world = .running { c with reconciliationObservationActive := true } ∧
      RecoveryInv s' { c with reconciliationObservationActive := true }
        (if s'.run.isSome then .running else .ended none) := by
    unfold startCycle at hstart
    dsimp only at hstart
    split at hstart
    · obtain ⟨rfl, rfl⟩ := Prod.mk.inj (Option.some.inj hstart)
      exact ⟨rfl, rfl, rfl, hrest.free, by simp⟩
    · obtain ⟨rfl, rfl⟩ := Prod.mk.inj (Option.some.inj hstart)
      exact ⟨rfl, rfl, _, rfl, by simp, hrest.free⟩
  refine ⟨?_, ?_, by simp⟩
  · show Simulates lib identity ⟨s.world, some _⟩ none ⟨s'.world, some _⟩
    rw [hw, hlead.1]
    exact hsim
  · intro d hd
    obtain rfl := World.running.inj (hlead.1.symm.trans hd)
    exact hlead.2

theorem nextProcess_ok {answer : BroadcastAnswer} (hs : Sound c) (hw : s.world = .running c)
    (hinv : RecoveryInv s c stage)
    (h : nextProcess lib identity reading answer s c caller stage = some (p', e)) :
    StepOk lib identity ⟨s, some (.recovery caller stage)⟩ e p' := by
  obtain ⟨r, hr, h⟩ := Option.bind_eq_some_iff.mp h
  obtain ⟨reading', hawaited, h⟩ := Option.bind_eq_some_iff.mp h
  obtain ⟨⟨s', x⟩, hnext, heq⟩ := Option.map_eq_some_iff.mp h
  obtain ⟨rfl, rfl⟩ := Prod.mk.inj heq
  obtain ⟨c', hw', hcalled, hinv'⟩ := nextCycle_ok hw hr hs hinv hawaited hnext
  refine ⟨?_, ?_, fun _ _ => ofSigner_quiet⟩
  · show Simulates lib identity ⟨s.world, some _⟩ _ ⟨s'.world, some _⟩
    rw [hw, hw', ofSigner_manager]
    rcases hcalled with ⟨hx, rfl⟩ | ⟨i, hi, hstep⟩
    · rw [hx]
      exact simulates_refl _
    · exact simulates_recovery hi hstep
  · intro d hd
    obtain rfl := World.running.inj (hw'.symm.trans hd)
    exact hinv'

/-- A step of the submission, over the cycle that it leaves alone. -/
theorem submissionProcess_ok {m' : Managed} {y : Option ManagerEvent}
    (hsim : Simulates lib identity p.managed y m') (hw : m'.world = .running c')
    (hcall : CallInv { s with world := m'.world } c' (m'.operation.map .ofOperation)) :
    StepOk lib identity p (submissionProcess s (m', y)).2 (submissionProcess s (m', y)).1 := by
  have hmanager : (submissionProcess s (m', y)).2.bind (·.manager?) = y := by
    cases y <;> rfl
  have hmanaged : (submissionProcess s (m', y)).1.managed = m' := by
    obtain ⟨w, operation⟩ := m'
    cases operation <;> simp [submissionProcess, ManagerProcess.managed]
  refine ⟨?_, ?_, ?_⟩
  · rw [hmanager, hmanaged]
    exact hsim
  · intro d hd
    obtain rfl := World.running.inj (hw.symm.trans hd)
    exact hcall
  · intro k f hy
    cases y <;> cases hy

theorem recoveredProcess_ok {result : Option (Option BroadcastAttemptResult)} (hs : Sound c)
    (hw : s.world = .running c) (hinv : RecoveryInv s c (.ended result))
    (h : recoveredProcess identity reading s c caller result = some (p', e)) :
    StepOk lib identity ⟨s, some (.recovery caller (.ended result))⟩ e p' := by
  obtain ⟨hobs, hrun, hfree, hretained⟩ := hinv
  obtain ⟨⟨c', x⟩, hend, h⟩ := Option.bind_eq_some_iff.mp h
  have hstep : coordinatorStep lib identity ⟨reading.now, .endObservation⟩ c = some (c', x) := hend
  have hsim := @simulates_recovery lib identity _ _ _ caller ⟨reading.now, .endObservation⟩ rfl hstep
  simp only [endObservation, hobs, if_true, Option.some.injEq, Prod.mk.injEq] at hend
  obtain ⟨rfl, rfl⟩ := hend
  set c' := { c with reconciliationObservationActive := false }.refresh reading.now
  have hs' : Sound c' := by
    obtain ⟨v, hj⟩ := hs.journal
    exact ⟨⟨v, hj.frame rfl rfl rfl rfl rfl rfl⟩, hs.owner⟩
  have hrest : Resting { s with world := .running c' } c' := ⟨hrun, rfl, hfree⟩
  have hbefore {y : Option ProcessEvent} {q : ManagerProcess}
      (h : StepOk lib identity ⟨{ s with world := .running c' }, some (.recovery caller .selecting)⟩
        y q) : StepOk lib identity ⟨s, some (.recovery caller (.ended result))⟩ y q := by
    refine ⟨?_, h.call, h.quiet⟩
    show Simulates lib identity ⟨s.world, some (recoveryOperation caller)⟩ _ _
    rw [hw]
    exact hsim.trans h.simulates
  dsimp only at h
  cases caller with
  | none => cases result with
    | none => exact hbefore (rejectCall_ok rfl hrest h)
    | some broadcast =>
      -- the attempt of the outcome is found in the journal
      have hreport : ∃ report, c'.captureReconciliationReport identity broadcast = .ok report := by
        cases broadcast with
        | none => exact ⟨_, rfl⟩
        | some outcome =>
          obtain ⟨t, a, hcur, ha, hid, _⟩ := hretained outcome rfl
          have hmem : a ∈ c'.attempts := by
            show a ∈ (c.persistence.current.map _).getD []
            rw [hcur]
            exact ha
          unfold captureReconciliationReport
          dsimp only
          split
          · rename_i hnone
            exact absurd (List.find?_eq_none.mp hnone a hmem) (by simp [hid])
          · exact ⟨_, rfl⟩
      obtain ⟨report, hreport⟩ := hreport
      simp only [hreport, Option.some.injEq, Prod.mk.injEq] at h
      obtain ⟨rfl, rfl⟩ := h
      apply hbefore
      refine ⟨simulates_reconciled hrest.free, ?_, by simp⟩
      intro d hd
      obtain rfl := World.running.inj hd
      exact hrest
  | some workId =>
    have hgate : c'.gateFailure = none := Free.gateFailure_none hfree hs'
    simp only [hgate, ite_self] at h
    obtain ⟨⟨m, y⟩, hm, heq⟩ := Option.map_eq_some_iff.mp h
    obtain ⟨rfl, rfl⟩ := Prod.mk.inj heq
    obtain ⟨d, hd, hcall⟩ := submitReconciled_leads hrest hm
    apply hbefore
    exact submissionProcess_ok (simulates_submission (show Free c' from hfree) hm) hd hcall

/-- A coordinator that starts is at rest. -/
theorem create_resting {n : ℕ} {read : Option TransactionJournalSnapshot} {now : Timestamp}
    (h : SignerCoordinator.create lib identity n read now = .ok c) (hrun : s.run = none) :
    Resting s c := by
  have hcreated := create_ok h
  refine ⟨hrun, ?_, hcreated.task, hcreated.owner⟩
  unfold SignerCoordinator.create at h
  split_ifs at h
  cases hp : JournalPersistence.create lib identity read with
  | error failure => simp [hp, bind, Except.bind] at h
  | ok persistence =>
    simp only [hp, bind, Except.bind, pure, Except.pure] at h
    obtain rfl := Except.ok.inj h
    rfl

/-- A process that ends, and what happens while none runs. -/
theorem simulates_world {i : Input} {w w' : World} {operation : Option ManagerOperation}
    (h : worldStep lib identity i w = some (w', x))
    (hout : (∀ c, w ≠ .running c) ∨ i.action = .crash) :
    Simulates lib identity ⟨w, operation⟩ (x.map .signer) ⟨w', none⟩ := by
  obtain ⟨now, action⟩ := i
  apply @simulates_step _ _ _ _ _ ⟨now, false, .signer action⟩
  simp only [managerStep, signerStep]
  cases w with
  | running c =>
    obtain rfl : action = .crash := hout.resolve_left fun hc => hc c rfl
    cases operation with
    | none =>
      dsimp only
      rw [h]
      rfl
    | some operation =>
      have hrefused : operation.admits .crash = false := by
        rw [Bool.eq_false_iff]
        intro hadmits
        exact ManagerOperation.admits_ne_crash hadmits rfl
      simp only [hrefused, Bool.false_eq_true, if_false]
      rw [h]
      rfl
  | _ =>
    dsimp only
    rw [h]
    rfl

theorem worldProcess_ok {i : Input} {x : Option CycleEvent}
    (h : signerCycleStep lib identity i s = some (s', x))
    (hout : (∀ c, s.world ≠ .running c) ∨ i.action = .crash) {call : Option ManagerCall} :
    StepOk lib identity ⟨s, call⟩ (ProcessEvent.ofSigner (x.bind (·.signer))) ⟨s', none⟩ := by
  obtain ⟨⟨w, y⟩, hstep, h⟩ := Option.map_eq_some_iff.mp h
  have hended : s' = { s.invalidateDurableRecovery with world := w, run := none } ∧
      x = some ⟨y, none⟩ := by
    dsimp only at h
    split at h
    · rename_i c d hw
      exfalso
      rcases hout with hout | hcrash
      · exact hout c hw
      · rw [hw] at hstep
        simp only [worldStep, hcrash] at hstep
        cases (Prod.mk.inj (Option.some.inj hstep)).1
    · obtain ⟨rfl, rfl⟩ := Prod.mk.inj h
      exact ⟨rfl, rfl⟩
  obtain ⟨rfl, rfl⟩ := hended
  refine ⟨?_, ?_, fun _ _ => ofSigner_quiet⟩
  · rw [ofSigner_manager]
    exact simulates_world hstep hout
  · intro c hc
    obtain rfl : w = .running c := hc
    -- only a restart leads to a process that runs
    generalize hs : s.world = w' at hstep
    cases worldStep_cases hstep with
    | process hprocess =>
      rcases hout with hout | hcrash
      · exact absurd hs (hout _)
      · simp only [worldStep, hcrash] at hstep
        cases (Prod.mk.inj (Option.some.inj hstep)).1
    | restarted hc => exact create_resting hc rfl

theorem signerCycleStep_running {i : Input} {x : Option CycleEvent} (hw : s.world = .running c)
    (hi : i.action ≠ .crash) (h : signerCycleStep lib identity i s = some (s', x)) :
    ∃ c' y, coordinatorStep lib identity i c = some (c', y) ∧ s'.world = .running c' ∧
      s'.run = s.run ∧ x = some ⟨y, none⟩ := by
  obtain ⟨⟨w, y⟩, hstep, h⟩ := Option.map_eq_some_iff.mp h
  rw [hw, worldStep] at hstep
  split at hstep
  · rename_i hcrash
    exact absurd hcrash hi
  · obtain ⟨⟨c', y'⟩, hcs, heq⟩ := Option.map_eq_some_iff.mp hstep
    obtain ⟨rfl, rfl⟩ := Prod.mk.inj heq
    simp only [hw] at h
    obtain ⟨rfl, rfl⟩ := Prod.mk.inj h
    exact ⟨c', y', hcs, rfl, rfl, rfl⟩

/-- The operation of a submission goes on, or has settled with the coordinator released. -/
theorem SubmissionHolds.settles {i : Input} {workId : WorkId} {stage : SubmissionStage}
    (h : SubmissionHolds s c stage) (hrec : stage ≠ .reconciling)
    (hadmits : (ManagerOperation.submit workId stage).admits i.action = true)
    (hstep : coordinatorStep lib identity i c = some (c', x)) :
    CallInv { s with world := .running c' } c' (some (.ofOperation
      ((ManagerOperation.submit workId stage).after c.task c'.task x))) := by
  have hsettles : i.action.isSettlement = true := by
    cases stage with
    | reconciling => exact absurd rfl hrec
    | preparingAttempt => exact hadmits
    | broadcasting _ => exact hadmits
    | _ => cases hadmits
  have hframed := settlement_framed hsettles hstep
  have hnext {stage' : SubmissionStage} (ht : stage'.operates = false → c'.task = none) :
      CallInv { s with world := .running c' } c' (some (.ofOperation (.submit workId stage'))) := by
    have hholds : SubmissionHolds { s with world := .running c' } c' stage' :=
      ⟨h.run, hframed.observation.trans h.observation, hframed.alone h.owner, ht⟩
    exact hholds.call
  unfold ManagerOperation.after
  cases stage with
  | preparingAttempt =>
    dsimp only
    split_ifs with ht
    · exact hnext (by simp [SubmissionStage.operates])
    · exact hnext fun _ => Option.not_isSome_iff_eq_none.mp ht
  | broadcasting _ =>
    dsimp only
    split_ifs with ht
    · exact hnext (by simp [SubmissionStage.operates])
    · exact hnext fun _ => Option.not_isSome_iff_eq_none.mp ht
  | reconciling => exact absurd rfl hrec
  | _ => cases hadmits

theorem signerProcess_ok {i : Input}
    (hs : ∀ c, p.cycling.world = .running c → Sound c ∧ CallInv p.cycling c p.call)
    (h : signerProcess lib identity i p = some (p', e)) : StepOk lib identity p e p' := by
  obtain ⟨s, call⟩ := p
  -- without a running coordinator, or at a crash, the call is over
  have hout (hout : (∀ c, s.world ≠ .running c) ∨ i.action = .crash)
      (h : (signerCycleStep lib identity i s).map (fun q =>
        ((⟨q.1, none⟩ : ManagerProcess), ProcessEvent.ofSigner (q.2.bind (·.signer)))) =
          some (p', e)) :
      StepOk lib identity ⟨s, call⟩ e p' := by
    obtain ⟨⟨s', x⟩, hstep, heq⟩ := Option.map_eq_some_iff.mp h
    obtain ⟨rfl, rfl⟩ := Prod.mk.inj heq
    exact worldProcess_ok hstep hout
  unfold signerProcess at h
  dsimp only at h
  split at h
  · rename_i c hw
    obtain ⟨hsound, hcall⟩ := hs c hw
    split at h
    · rename_i hcrash
      exact hout (Or.inr hcrash) h
    · rename_i call hcrash
      split_ifs at h with hadmits
      split at h
      · rename_i caller stage
        obtain ⟨⟨s', x⟩, hstep, heq⟩ := Option.map_eq_some_iff.mp h
        obtain ⟨rfl, rfl⟩ := Prod.mk.inj heq
        simp only [ManagerCall.admits, Bool.and_eq_true, Option.any_eq_true] at hadmits
        obtain ⟨hi, r, hr, -⟩ := hadmits
        obtain ⟨c', y, hcs, hw', hr', rfl⟩ := signerCycleStep_running hw hcrash hstep
        refine ⟨?_, ?_, fun _ _ => ofSigner_quiet⟩
        · show Simulates lib identity ⟨s.world, some (recoveryOperation caller)⟩ _
            ⟨s'.world, some (recoveryOperation caller)⟩
          rw [hw, hw', ofSigner_manager]
          exact simulates_recovery (Action.isContinuation.isRecovery hi) hcs
        · intro d hd
          obtain rfl := World.running.inj (hw'.symm.trans hd)
          exact RecoveryInv.answered hr hsound hcall hi hcs hw' hr'
      · rename_i workId stage
        obtain ⟨⟨c', y⟩, hcs, heq⟩ := Option.map_eq_some_iff.mp h
        simp only [ManagerCall.admits, Bool.and_eq_true, bne_iff_ne] at hadmits
        have hsim : Simulates lib identity (ManagerProcess.managed ⟨s, some (.submission workId stage)⟩)
            (y.map .signer) ⟨.running c',
              some ((ManagerOperation.submit workId stage).after c.task c'.task y)⟩ := by
          show Simulates lib identity ⟨s.world, some (.submit workId stage)⟩ _ _
          rw [hw]
          exact simulates_signer hadmits.2 hcs
        have hok := @submissionProcess_ok lib identity s _ _ _ _ hsim rfl
          (SubmissionHolds.settles hcall hadmits.1 hadmits.2 hcs)
        obtain ⟨rfl, rfl⟩ := Prod.mk.inj heq
        exact hok
    · cases h
  · rename_i hnot
    exact hout (Or.inl hnot) h

/-- The step lemma of the process. -/
theorem processStep_ok {i : ProcessInput}
    (hs : ∀ c, p.cycling.world = .running c → Sound c ∧ CallInv p.cycling c p.call)
    (h : processStep lib identity maxBlockRange i p = some (p', e)) :
    StepOk lib identity p e p' := by
  obtain ⟨s, call⟩ := p
  -- one case for each kind of input, with the call that it answers
  unfold processStep at h
  split at h
  · exact signerProcess_ok hs h
  · rename_i head anchor c _ hw hc
    change s.world = .running c at hw
    obtain rfl : call = none := hc
    obtain ⟨hsound, hrest⟩ := hs c hw
    have hok := @reconcileOwned_ok lib identity _ _ _ _ none .selecting _ _ _ _ hsound hw hrest h
    refine ⟨?_, hok.call, hok.quiet⟩
    have hreconcile : managerStep lib identity ⟨0, false, .reconcile⟩ ⟨.running c, none⟩ =
        some (⟨.running c, some .reconcile⟩, none) := rfl
    have hfirst := hok.simulates
    change Simulates lib identity ⟨s.world, some .reconcile⟩ _ _ at hfirst
    show Simulates lib identity ⟨s.world, none⟩ _ _
    rw [hw] at hfirst ⊢
    exact (simulates_step hreconcile).trans hfirst
  · rename_i workId c _ hw hc
    change s.world = .running c at hw
    obtain rfl : call = none := hc
    obtain ⟨hsound, hrest⟩ := hs c hw
    obtain ⟨rfl, rfl⟩ := Prod.mk.inj (Option.some.inj h)
    refine ⟨?_, ?_, by simp⟩
    · have hsubmit : managerStep lib identity ⟨0, false, .submit workId⟩ ⟨.running c, none⟩ =
          some (⟨.running c, some (.submit workId .captured)⟩, some (.entered workId)) := rfl
      show Simulates lib identity ⟨s.world, none⟩ (some (.entered workId))
        ⟨s.world, some (.submit workId .captured)⟩
      rw [hw]
      exact simulates_step hsubmit
    · intro d hd
      obtain rfl := World.running.inj (hw.symm.trans hd)
      exact ⟨hrest.run, hrest.observation, hrest.free.2, fun _ => hrest.free.1⟩
  · rename_i heads c caller _ hw hc
    change s.world = .running c at hw
    obtain rfl : call = some (.recovery caller .selecting) := hc
    obtain ⟨hsound, hrest⟩ := hs c hw
    split at h
    · exact reconcileOwned_ok hsound hw hrest h
    · exact rejectCall_ok hw hrest h
  · rename_i answer c caller stage _ hw hc
    change s.world = .running c at hw
    obtain rfl : call = some (.recovery caller stage) := hc
    obtain ⟨hsound, hinv⟩ := hs c hw
    exact nextProcess_ok hsound hw hinv h
  · rename_i c caller result _ hw hc
    change s.world = .running c at hw
    obtain rfl : call = some (.recovery caller (.ended result)) := hc
    obtain ⟨hsound, hinv⟩ := hs c hw
    exact recoveredProcess_ok hsound hw hinv h
  · rename_i action c workId stage _ hw hc
    change s.world = .running c at hw
    obtain rfl : call = some (.submission workId stage) := hc
    obtain ⟨hsound, hholds⟩ := hs c hw
    obtain ⟨⟨m, y⟩, hm, heq⟩ := Option.map_eq_some_iff.mp h
    obtain ⟨d, hd, hcall⟩ := submissionStep_leads hholds hm
    have hsim : Simulates lib identity (ManagerProcess.managed ⟨s, some (.submission workId stage)⟩)
        y m := by
      show Simulates lib identity ⟨s.world, some (.submit workId stage)⟩ _ _
      rw [hw]
      apply @simulates_step _ _ _ _ _ ⟨i.reading.now, i.reading.aborted, action⟩
      unfold submissionStep at hm
      unfold managerStep
      cases action with
      | signer _ => cases stage <;> cases hm
      | _ => exact hm
    have hok := @submissionProcess_ok lib identity s _ _ _ _ hsim hd hcall
    obtain ⟨rfl, rfl⟩ := Prod.mk.inj heq
    exact hok
  · cases h

/-- After a run of the process the manager without its cycle has run too, the coordinator is as
the operation in progress needs it, and no error of the manager's own was raised. -/
structure ProcessInv (lib : TransactionLibrary) (identity : JournalIdentity) (p : ManagerProcess)
    (tr : List ProcessEvent) : Prop where
  follows : ∃ ms, runManager lib identity ms = (p.managed, tr.filterMap (·.manager?))
  call : ∀ c, p.cycling.world = .running c → CallInv p.cycling c p.call
  quiet : ∀ caller failure, .raised caller failure ∉ tr

theorem ProcessInv.managed {tr : List ProcessEvent} (h : ProcessInv lib identity p tr) :
    ManagedInv lib identity (tr.filterMap (·.manager?)) p.managed := by
  obtain ⟨ms, hms⟩ := h.follows
  have hrun := (runManager_inv lib identity ms).managed
  rw [hms] at hrun
  exact hrun

theorem ProcessInv.sound {tr : List ProcessEvent} (h : ProcessInv lib identity p tr)
    (hc : p.cycling.world = .running c) : Sound c := by
  obtain ⟨js, hjs⟩ := h.managed.signer
  have hrun : (runSigner lib identity js).1 = .running c := by
    rw [hjs]
    exact hc
  exact ⟨⟨_, (runSigner_reached lib identity js hrun).journal⟩,
    (runSigner_ownership lib identity js hrun).action.owner⟩

theorem ProcessInv.step {tr : List ProcessEvent} {i : ProcessInput}
    (h : ProcessInv lib identity p tr)
    (hs : processStep lib identity maxBlockRange i p = some (p', e)) :
    ProcessInv lib identity p' (tr ++ e.toList) := by
  have hok := processStep_ok (fun c hc => ⟨h.sound hc, h.call c hc⟩) hs
  refine ⟨?_, hok.call, ?_⟩
  · have hevents : (tr ++ e.toList).filterMap (·.manager?) =
        tr.filterMap (·.manager?) ++ (e.bind (·.manager?)).toList := by
      cases e with
      | none => simp
      | some x =>
        rw [List.filterMap_append]
        cases hx : x.manager? <;> simp [hx]
    rw [hevents]
    exact hok.simulates _ h.follows
  · intro caller failure hm
    rcases List.mem_append.mp hm with hm | hm
    · exact h.quiet caller failure hm
    · exact hok.quiet caller failure (Option.mem_toList.mp hm)

end Process

section Runs

variable (lib : TransactionLibrary) (identity : JournalIdentity) (maxBlockRange : ℕ)
  (interval : Option ℕ)

theorem runProcess_inv (is : List ProcessInput) :
    ProcessInv lib identity (runProcess lib identity maxBlockRange interval is).1
      (runProcess lib identity maxBlockRange interval is).2 := by
  refine (processSystem lib identity maxBlockRange interval).run_invariant
    (fun p tr => ProcessInv lib identity p tr) ⟨⟨[], rfl⟩, ?_, by simp⟩ ?_ is
  · intro c hc
    cases hc
  · intro i p tr p' e h hs
    exact h.step hs

/-- While no operation is in progress and no inspection is owned, the reported status is open
exactly when no blocker is reported. Every outcome of a broadcast that the manager obtains,
from its recovery or for its submission, names an attempt of the committed journal. Neither
the error of a gate that is closed without a blocker nor that of an outcome without an
identity is ever raised. -/
theorem status_explained :
    (∀ is c, (runSigner lib identity is).1 = .running c → c.busy = false →
      c.inspectionOwner = none → (c.status.isOpen = true ↔ c.status.blockers = [])) ∧
    ∀ is,
      (∀ c, (runProcess lib identity maxBlockRange interval is).1.cycling.world = .running c →
        (∀ caller outcome, (runProcess lib identity maxBlockRange interval is).1.call =
            some (.recovery caller (.ended (some (some outcome)))) → outcome.RetainedIn c) ∧
        ∀ workId attemptId, (runProcess lib identity maxBlockRange interval is).1.call =
            some (.submission workId (.broadcastSettled attemptId false)) →
          ∃ s a, c.persistence.current = some s ∧ a ∈ s.attempts ∧
            a.attemptIdentity = ⟨workId, attemptId⟩) ∧
      ∀ caller, .raised caller CLOSED_WITHOUT_BLOCKER ∉
          (runProcess lib identity maxBlockRange interval is).2 ∧
        .raised caller OUTCOME_WITHOUT_IDENTITY ∉
          (runProcess lib identity maxBlockRange interval is).2 := by
  constructor
  · intro is c hc hb ho
    exact status_open_iff (runSigner_reached lib identity is hc).journal hb ho
  · intro is
    have hinv := runProcess_inv lib identity maxBlockRange interval is
    refine ⟨fun c hw => ⟨?_, ?_⟩, fun caller => ⟨hinv.quiet caller _, hinv.quiet caller _⟩⟩
    · intro caller outcome hc
      have hended := hinv.call c hw
      rw [hc] at hended
      exact hended.2.2.2 outcome rfl
    · intro workId attemptId hc
      obtain ⟨d, hd, a, -, hid, hheld⟩ := hinv.managed.submission workId
        (.broadcastSettled attemptId false)
        (by simp [ManagerProcess.managed, hc, ManagerCall.operation])
      obtain rfl := World.running.inj (hw.symm.trans hd)
      have hholds : HoldsAttempt c.persistence.current a := by
        rw [holdsAttempt_iff hheld.work, hheld.current]
        exact List.mem_singleton_self _
      obtain ⟨s, hs, hm⟩ := hholds
      obtain ⟨b, hb, hrecord⟩ := List.mem_map.mp hm
      obtain ⟨hbid, hbwork, _⟩ := JournalAttempt.Record.mk.inj hrecord
      refine ⟨s, b, hs, hb, ?_⟩
      rw [JournalAttempt.attemptIdentity, hbwork, hbid, hid]
      exact congrArg (AttemptIdentity.mk · attemptId) hheld.work

end Runs

end Quicknet
