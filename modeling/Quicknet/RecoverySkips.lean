import Quicknet.RecoveryPass

/-! When a cycle skips durable recovery. The published revision is that of the committed
content whenever recovery is complete, so a revision that did not change since a pass was
completed shows that the content did not change either. -/
namespace Quicknet

open Interaction Transition SignerCoordinator

section Revision

variable {lib : TransactionLibrary} {identity : JournalIdentity}

/-- A broadcast ends recovery, so a marker that it sent is older than the last recovery. -/
theorem Recovered.not_marked {tr : List Event} (h : Recovered tr) : ¬ MarkedSince tr := by
  rintro ⟨pre, m, post, rfl, hm, hpost⟩
  have hsent : ∃ a payload blockers, m = .sent a payload blockers := by
    cases m with
    | sent a payload blockers => exact ⟨a, payload, blockers, rfl⟩
    | _ => cases hm
  obtain ⟨a, payload, blockers, rfl⟩ := hsent
  obtain ⟨e, he, w, permit, rfl, _⟩ := h.after (by simp) (by simp [Event.isSentOrLoaded])
  exact absurd (hpost _ he) (by simp [Event.isApplied])

/-- At rest and with recovery complete, the published revision is that of the committed
content. -/
theorem revision_of_recovered {is : List Input} {c : SignerCoordinator} {tr : List Event}
    (hrun : runSigner lib identity is = (.running c, tr)) (htask : c.task = none)
    (hr : c.recoveryComplete = true) :
    c.committedDurableRecoveryRevision = c.durableContent.revision := by
  have hc : (runSigner lib identity is).1 = .running c := by rw [hrun]
  have hrecovered := ((runSigner_actions lib identity is).2 c hc).recovered hr
  exact runSigner_fresh lib identity is hc htask hrecovered.not_marked

/-- What a recovery goes by, in the committed journal and the blockers: the nonces, each
attempt with its phase, its hashes and its search, and what is latched. -/
structure SameContent (a b : DurableContent) : Prop where
  blockers : a.blockers = b.blockers
  journal : a.current.map (fun s => (s.nextNonce, s.durableNextNonce, s.attempts.map projectAttempt)) =
    b.current.map (fun s => (s.nextNonce, s.durableNextNonce, s.attempts.map projectAttempt))

theorem revision_eq_iff {a b : DurableContent} : a.revision = b.revision ↔ SameContent a b := by
  obtain ⟨s, ba⟩ := a
  obtain ⟨t, bb⟩ := b
  constructor
  · intro h
    cases s with
    | none => cases t with
      | none =>
        obtain rfl := DurableRecoveryRevision.missing.inj h
        exact ⟨rfl, rfl⟩
      | some t => cases h
    | some s => cases t with
      | none => cases h
      | some t =>
        obtain ⟨hn, hd, ha, hb⟩ := DurableRecoveryRevision.present.inj h
        exact ⟨hb, congrArg some (by simp only [hn, hd, ha])⟩
  · rintro ⟨hb, hj⟩
    change ba = bb at hb
    subst hb
    cases s with
    | none => cases t with
      | none => rfl
      | some t => cases hj
    | some s => cases t with
      | none => cases hj
      | some t =>
        obtain ⟨hn, hda⟩ := Prod.mk.inj (Option.some.inj hj)
        obtain ⟨hd, ha⟩ := Prod.mk.inj hda
        show DurableRecoveryRevision.present _ _ _ _ = DurableRecoveryRevision.present _ _ _ _
        rw [hn, hd, ha]

end Revision

/-! What a step of a cycle can do. -/

def CycleStage.early : CycleStage → Bool
  | .started | .retrying | .beginning => true
  | _ => false

def CycleStage.passing : CycleStage → Bool
  | .calling _ | .recovering _ => true
  | _ => false

/-- What the cycle itself has the coordinator do, if anything. -/
def Calls (lib : TransactionLibrary) (identity : JournalIdentity) (c : SignerCoordinator)
    (e : Option Event) (c' : SignerCoordinator) : Prop :=
  (e = none ∧ c' = c) ∨ ∃ i, coordinatorStep lib identity i c = some (c', e)

/-- A step that only moves the coordinator. -/
def CycleEvent.Moves (e : Option Event) (x : Option CycleEvent) : Prop :=
  (x.bind (·.signer)) = e ∧ (x.bind (·.note)) = none

section Steps

variable (lib : TransactionLibrary) (identity : JournalIdentity)

inductive CycleStep (s : Cycling) : Option CycleEvent → Cycling → Prop
  | process {c c' : SignerCoordinator} {i : Input} {e : Option Event}
      {recovered : Option SignerRecoveryResult} {checked : Option Bool} :
      s.world = .running c → coordinatorStep lib identity i c = some (c', e) →
      (∀ r, s.run = some r → r.stage.allows i.action = true) →
      CycleStep s (some ⟨e, none⟩)
        { s with world := .running c', recovered := recovered, checked := checked }
  | stopped {i : Input} {w : World} {e : Option Event} :
      worldStep lib identity i s.world = some (w, e) →
      CycleStep s (some ⟨e, none⟩) { s.invalidateDurableRecovery with world := w, run := none }
  | started {head : Option BlockAnchor} {anchor : BlockAnchor} {range : ℕ} : s.run = none →
      CycleStep s (some ⟨none, some (.started (s.cycles+1))⟩)
        { s with
          cycles := s.cycles+1
          run := some ⟨s.cycles+1, head, anchor, range, 0, .started⟩ }
  | threw {n k : ℕ} : s.cycles ≤ k →
      CycleStep s (some ⟨none, some (.invalidated n)⟩)
        { s.invalidateDurableRecovery with cycles := k, run := none }
  | went {r : CycleRun} {c c' : SignerCoordinator} {e : Option Event} {x : Option CycleEvent}
      {stage : Option CycleStage} {checked : Option Bool} :
      s.world = .running c → s.run = some r → Calls lib identity c e c' → CycleEvent.Moves e x →
      (∀ t ∈ stage, (t.early = true → r.stage.early = true) ∧
        (t.passing = true → r.stage.passing = true ∧ ∃ passes, t = .calling passes)) →
      CycleStep s x
        { s with
          world := .running c'
          run := stage.map fun t => { r with stage := t }
          checked := checked }
  | skipped {r : CycleRun} {c c' : SignerCoordinator} {e : Option Event} {clock : ClockReading} :
      s.world = .running c → s.run = some r → r.stage = .beginning →
      c.beginInspection = some (c', e) → canReuseDurablePass s c r clock = true →
      CycleStep s
        (some ⟨e, some (.passSkipped r.cycle r.anchor clock c.durableContent)⟩)
        (s.goesOn { r with generation := c'.inspectionGeneration } c' .inspected)
  | passStarted {r : CycleRun} {c c' : SignerCoordinator} {e : Option Event} {passes : ℕ} :
      s.world = .running c → s.run = some r → c.beginInspection = some (c', e) →
      CycleStep s (some ⟨e, some (.passStarted r.cycle)⟩)
        (s.invalidateDurableRecovery.goesOn { r with generation := c'.inspectionGeneration } c'
          (.calling passes))
  | called {r : CycleRun} {c c' : SignerCoordinator} {e : Option Event} {passes : ℕ} :
      s.world = .running c → s.run = some r → r.stage = .calling passes →
      c.callOwned r.generation (.recover r.anchor r.maxBlockRange) = some (c', e) →
      CycleStep s (some ⟨e, none⟩)
        ({ s with recovered := none }.goesOn r c' (.recovering passes))
  | completed {r : CycleRun} {c c' : SignerCoordinator} {e : Option Event} {passes : ℕ}
      {schedule : DurableRecoverySchedule} {clock : ClockReading} :
      s.world = .running c → s.run = some r → r.stage = .recovering passes →
      c.settledOwned r.generation = some false → c.settleOperation = some (c', e) →
      c'.recoveryComplete = true → s.durableSchedule = some schedule →
      CycleStep s
        (some ⟨e, clock.map fun at' => .passCompleted r.cycle r.anchor at' c'.durableContent⟩)
        ({ s with
            durableSchedule := some (schedule.recordCompleted r.anchor clock)
            completedDurableRevision := some c'.committedDurableRecoveryRevision }.goesOn r c'
          .inspected)
  | invalidated {r : CycleRun} {c c' : SignerCoordinator} {e : Option Event} :
      s.world = .running c → s.run = some r → Calls lib identity c e c' →
      CycleStep s (some ⟨e, some (.invalidated r.cycle)⟩)
        (s.invalidateDurableRecovery.goesOn r c' .finishing)

variable {lib identity}

section Cases

variable {s s' : Cycling} {x : Option CycleEvent} {r : CycleRun} {c : SignerCoordinator}
  {reading : CycleReading}

/-- The cycle goes on, at a stage that is neither early nor part of a pass. -/
theorem Cycling.goesOn_step {c' : SignerCoordinator} {e : Option Event} {stage : CycleStage}
    (hw : s.world = .running c) (hr : s.run = some r) (hcalls : Calls lib identity c e c')
    (hm : CycleEvent.Moves e x) (hearly : stage.early = true → r.stage.early = true)
    (hpassing : stage.passing = true → r.stage.passing = true ∧ ∃ passes, stage = .calling passes) :
    CycleStep lib identity s x (s.goesOn r c' stage) := by
  apply @CycleStep.went lib identity s r c c' e x (some stage) s.checked hw hr hcalls hm
  rintro t ⟨⟩
  exact ⟨hearly, hpassing⟩

theorem Cycling.abandons_step (hw : s.world = .running c) (hr : s.run = some r)
    (h : s.abandons r c = some (s', x)) : CycleStep lib identity s x s' := by
  obtain ⟨rfl, rfl⟩ := Prod.mk.inj (Option.some.inj h)
  apply s.goesOn_step hw hr (Or.inl ⟨rfl, rfl⟩) ⟨rfl, rfl⟩
  · intro hearly
    cases hearly
  · intro hpassing
    cases hpassing

theorem Cycling.returns_step (hw : s.world = .running c) (hr : s.run = some r)
    (h : some (s.returns c, none) = some (s', x)) : CycleStep lib identity s x s' := by
  obtain ⟨rfl, rfl⟩ := Prod.mk.inj (Option.some.inj h)
  apply @CycleStep.went lib identity s r c c none none none s.checked hw hr (Or.inl ⟨rfl, rfl⟩)
    ⟨rfl, rfl⟩
  rintro t ⟨⟩

theorem Cycling.throws_step {n : ℕ} (h : s.throws n = some (s', x)) :
    CycleStep lib identity s x s' := by
  obtain ⟨rfl, rfl⟩ := Prod.mk.inj (Option.some.inj h)
  exact .threw (le_refl _)

theorem startCycle_step {head : Option BlockAnchor} {anchor : BlockAnchor} {range : ℕ}
    (hrun : s.run = none) (h : startCycle reading s head anchor range = some (s', x)) :
    CycleStep lib identity s x s' := by
  unfold startCycle at h
  dsimp only at h
  split at h
  · obtain ⟨rfl, rfl⟩ := Prod.mk.inj (Option.some.inj h)
    exact .threw (Nat.le_succ _)
  · obtain ⟨rfl, rfl⟩ := Prod.mk.inj (Option.some.inj h)
    exact .started hrun

theorem retryCycle_step (hw : s.world = .running c) (hr : s.run = some r)
    (hstage : r.stage.early = true) (h : retryCycle s r c = some (s', x)) :
    CycleStep lib identity s x s' := by
  unfold retryCycle at h
  split at h
  · split at h
    · exact Cycling.throws_step h
    · rename_i c' e hretry
      obtain ⟨rfl, rfl⟩ := Prod.mk.inj (Option.some.inj h)
      apply s.goesOn_step hw hr (Or.inr ⟨⟨0, .retryPersistence⟩, hretry⟩) ⟨rfl, rfl⟩
      · exact fun _ => hstage
      · intro hpassing
        cases hpassing
  · obtain ⟨rfl, rfl⟩ := Prod.mk.inj (Option.some.inj h)
    apply s.goesOn_step hw hr (Or.inl ⟨rfl, rfl⟩) ⟨rfl, rfl⟩
    · exact fun _ => hstage
    · intro hpassing
      cases hpassing

theorem beginCycle_step (hw : s.world = .running c) (hr : s.run = some r)
    (hstage : r.stage = .beginning) (h : beginCycle reading s r c = some (s', x)) :
    CycleStep lib identity s x s' := by
  unfold beginCycle at h
  split at h
  · exact Cycling.throws_step h
  · split at h
    · exact Cycling.throws_step h
    · rename_i c' e hbegin
      dsimp only at h
      split at h
      · rename_i hreuse
        obtain ⟨rfl, rfl⟩ := Prod.mk.inj (Option.some.inj h)
        exact .skipped hw hr hstage hbegin hreuse
      · obtain ⟨rfl, rfl⟩ := Prod.mk.inj (Option.some.inj h)
        exact .passStarted hw hr hbegin

theorem callRecover_step {passes : ℕ} (hw : s.world = .running c) (hr : s.run = some r)
    (hstage : r.stage = .calling passes) (h : callRecover s r passes c = some (s', x)) :
    CycleStep lib identity s x s' := by
  unfold callRecover at h
  split at h
  · exact s.abandons_step hw hr h
  · rename_i c' e hcall
    obtain ⟨rfl, rfl⟩ := Prod.mk.inj (Option.some.inj h)
    exact .called hw hr hstage hcall

/-- A completed pass leaves recovery complete. -/
theorem isDurableRecoveryComplete_recovered {result : SignerRecoveryResult} {complete : Bool}
    {state : JournalPersistenceState} {attempts : List JournalAttempt}
    (h : isDurableRecoveryComplete result complete state attempts = true) : complete = true := by
  unfold isDurableRecoveryComplete at h
  split at h
  · cases h
  · rename_i hc
    simp only [Bool.or_eq_true, Bool.not_eq_true', not_or] at hc
    simpa using hc.1

theorem recoverSettled_step {passes : ℕ} (hw : s.world = .running c) (hr : s.run = some r)
    (hstage : r.stage = .recovering passes) (h : recoverSettled reading s r passes c = some (s', x)) :
    CycleStep lib identity s x s' := by
  obtain ⟨failed, hsettled, h⟩ := Option.bind_eq_some_iff.mp h
  obtain ⟨⟨c', e⟩, hsettle, h⟩ := Option.bind_eq_some_iff.mp h
  have hcalls : Calls lib identity c e c' := Or.inr ⟨⟨0, .settleOperation⟩, hsettle⟩
  have hpass : r.stage.passing = true := by
    rw [hstage]
    rfl
  -- every answer but a completed recovery goes on to another stage of the cycle
  have hgo {stage : CycleStage} (hearly : stage.early = false)
      (hpassing : stage.passing = true → ∃ p, stage = .calling p) :
      CycleStep lib identity s (some ⟨e, none⟩) (s.goesOn r c' stage) := by
    apply s.goesOn_step hw hr hcalls ⟨rfl, rfl⟩
    · rw [hearly]
      simp
    · exact fun hp => ⟨hpass, hpassing hp⟩
  dsimp only at h
  split at h
  · obtain ⟨rfl, rfl⟩ := Prod.mk.inj (Option.some.inj h)
    exact hgo rfl (by simp [CycleStage.passing])
  · rename_i hfailed
    obtain ⟨result, _, h⟩ := Option.map_eq_some_iff.mp h
    split at h
    · split at h
      · obtain ⟨rfl, rfl⟩ := Prod.mk.inj h
        exact hgo rfl (by simp [CycleStage.passing])
      · obtain ⟨rfl, rfl⟩ := Prod.mk.inj h
        exact hgo rfl fun _ => ⟨_, rfl⟩
    · split at h
      · obtain ⟨rfl, rfl⟩ := Prod.mk.inj h
        exact hgo rfl (by simp [CycleStage.passing])
      · rename_i schedule hschedule
        split at h
        · rename_i hcomplete
          obtain ⟨rfl, rfl⟩ := Prod.mk.inj h
          apply CycleStep.completed hw hr hstage _ hsettle
            (isDurableRecoveryComplete_recovered hcomplete) hschedule
          rw [hsettled, Bool.eq_false_of_not_eq_true hfailed]
        · obtain ⟨rfl, rfl⟩ := Prod.mk.inj h
          exact hgo rfl (by simp [CycleStage.passing])

theorem callCheckInclusions_step (hw : s.world = .running c) (hr : s.run = some r)
    (h : callCheckInclusions reading s r c = some (s', x)) : CycleStep lib identity s x s' := by
  unfold callCheckInclusions at h
  split at h
  · exact s.abandons_step hw hr h
  · split at h
    · split at h
      · exact s.abandons_step hw hr h
      · rename_i c' e hcall
        obtain ⟨rfl, rfl⟩ := Prod.mk.inj (Option.some.inj h)
        apply @CycleStep.went lib identity s r c c' e _ (some .checking) none hw hr
          (Or.inr ⟨⟨0, .callOwned _ _⟩, hcall⟩) ⟨rfl, rfl⟩
        rintro t ⟨⟩
        simp [CycleStage.early, CycleStage.passing]
    · obtain ⟨rfl, rfl⟩ := Prod.mk.inj (Option.some.inj h)
      exact .invalidated hw hr (Or.inl ⟨rfl, rfl⟩)

theorem checkSettled_step (hw : s.world = .running c) (hr : s.run = some r)
    (h : checkSettled s r c = some (s', x)) : CycleStep lib identity s x s' := by
  obtain ⟨failed, _, h⟩ := Option.bind_eq_some_iff.mp h
  obtain ⟨⟨c', e⟩, hsettle, h⟩ := Option.bind_eq_some_iff.mp h
  have hcalls : Calls lib identity c e c' := Or.inr ⟨⟨0, .settleOperation⟩, hsettle⟩
  dsimp only at h
  split at h
  · obtain ⟨rfl, rfl⟩ := Prod.mk.inj (Option.some.inj h)
    apply s.goesOn_step hw hr hcalls ⟨rfl, rfl⟩ <;> simp [CycleStage.early, CycleStage.passing]
  · obtain ⟨complete, _, h⟩ := Option.map_eq_some_iff.mp h
    split at h
    · obtain ⟨rfl, rfl⟩ := Prod.mk.inj h
      apply s.goesOn_step hw hr hcalls ⟨rfl, rfl⟩ <;> simp [CycleStage.early, CycleStage.passing]
    · obtain ⟨rfl, rfl⟩ := Prod.mk.inj h
      exact .invalidated hw hr hcalls

theorem finishCycle_step (hw : s.world = .running c) (hr : s.run = some r)
    (h : finishCycle reading s r c = some (s', x)) : CycleStep lib identity s x s' := by
  unfold finishCycle at h
  split at h
  · exact s.abandons_step hw hr h
  · split at h
    · exact s.abandons_step hw hr h
    · rename_i c' e hfinish
      obtain ⟨rfl, rfl⟩ := Prod.mk.inj (Option.some.inj h)
      apply s.goesOn_step hw hr (Or.inr ⟨⟨reading.now, .finishInspection _⟩, hfinish⟩) ⟨rfl, rfl⟩ <;>
        simp [CycleStage.early, CycleStage.passing]

theorem sendCycle_step (hw : s.world = .running c) (hr : s.run = some r)
    (h : sendCycle lib identity reading s r c = some (s', x)) : CycleStep lib identity s x s' := by
  unfold sendCycle at h
  split at h
  · exact Cycling.throws_step h
  · split at h
    · exact s.returns_step hw hr h
    · split at h
      · split at h
        · exact Cycling.throws_step h
        · rename_i c' e hsend
          obtain ⟨rfl, rfl⟩ := Prod.mk.inj (Option.some.inj h)
          apply s.goesOn_step hw hr (Or.inr ⟨⟨reading.now, .broadcastAttempt _⟩, hsend⟩)
            ⟨rfl, rfl⟩ <;> simp [CycleStage.early, CycleStage.passing]
      · exact s.returns_step hw hr h

theorem abandonCycle_step (hw : s.world = .running c) (hr : s.run = some r)
    (h : abandonCycle s r c = some (s', x)) : CycleStep lib identity s x s' := by
  unfold abandonCycle at h
  split at h
  · obtain ⟨rfl, rfl⟩ := Prod.mk.inj (Option.some.inj h)
    apply s.goesOn_step hw hr (Or.inl ⟨rfl, rfl⟩) ⟨rfl, rfl⟩ <;>
      simp [CycleStage.early, CycleStage.passing]
  · rename_i c' e habandon
    obtain ⟨rfl, rfl⟩ := Prod.mk.inj (Option.some.inj h)
    apply s.goesOn_step hw hr (Or.inr ⟨⟨0, .abandonInspection _⟩, habandon⟩) ⟨rfl, rfl⟩ <;>
      simp [CycleStage.early, CycleStage.passing]

theorem nextCycle_step (hw : s.world = .running c) (hr : s.run = some r)
    (h : nextCycle lib identity reading s r c = some (s', x)) : CycleStep lib identity s x s' := by
  unfold nextCycle at h
  split at h
  · rename_i hstage
    exact retryCycle_step hw hr (by rw [hstage]; rfl) h
  · rename_i hstage
    split at h
    · exact Cycling.throws_step h
    · obtain ⟨rfl, rfl⟩ := Prod.mk.inj (Option.some.inj h)
      apply s.goesOn_step hw hr (Or.inl ⟨rfl, rfl⟩) ⟨rfl, rfl⟩ <;>
        simp [hstage, CycleStage.early, CycleStage.passing]
  · rename_i hstage
    exact beginCycle_step hw hr hstage h
  · rename_i hstage
    exact callRecover_step hw hr hstage h
  · rename_i hstage
    exact recoverSettled_step hw hr hstage h
  · exact callCheckInclusions_step hw hr h
  · exact checkSettled_step hw hr h
  · exact finishCycle_step hw hr h
  · exact sendCycle_step hw hr h
  · split at h
    · exact Cycling.throws_step h
    · exact s.returns_step hw hr h
  · exact abandonCycle_step hw hr h
  · exact Cycling.throws_step h

theorem signerCycleStep_step {i : Input} (hallows : ∀ r, s.run = some r →
      r.stage.allows i.action = true)
    (h : signerCycleStep lib identity i s = some (s', x)) : CycleStep lib identity s x s' := by
  obtain ⟨⟨w, e⟩, hstep, h⟩ := Option.map_eq_some_iff.mp h
  dsimp only at h
  split at h
  · rename_i c d hw
    obtain ⟨rfl, rfl⟩ := Prod.mk.inj h
    rw [hw, worldStep] at hstep
    split at hstep
    · cases (Prod.mk.inj (Option.some.inj hstep)).1
    · obtain ⟨⟨c', e'⟩, hcs, heq⟩ := Option.map_eq_some_iff.mp hstep
      obtain ⟨hd, rfl⟩ := Prod.mk.inj heq
      obtain rfl := World.running.inj hd
      exact .process hw hcs hallows
  · obtain ⟨rfl, rfl⟩ := Prod.mk.inj h
    exact .stopped hstep

/-- Every input of the process with its cycle is one of the listed steps. -/
theorem cycleStep_cases {input : CycleInput} (h : cycleStep lib identity input s = some (s', x)) :
    CycleStep lib identity s x s' := by
  unfold cycleStep at h
  split at h
  · rename_i hrun
    refine signerCycleStep_step ?_ h
    intro r hr
    rw [hrun] at hr
    cases hr
  · rename_i r hrun
    split_ifs at h with hallows
    refine signerCycleStep_step ?_ h
    intro r' hr'
    obtain rfl := Option.some.inj (hrun.symm.trans hr')
    exact hallows
  · rename_i hrun
    exact startCycle_step hrun h
  · rename_i hw hr
    exact nextCycle_step hw hr h
  · cases h

end Cases

end Steps

/-! What holds over whole runs. -/

def CycleEvent.startsPass (e : CycleEvent) : Bool :=
  match e.note with
  | some (.passStarted _) => true
  | _ => false

/-- A pass starts, is completed, or what was completed may not be reused. -/
def CycleEvent.endsCompletion (e : CycleEvent) : Bool :=
  match e.note with
  | some (.passStarted _) | some (.passCompleted _ _ _ _) | some (.invalidated _) => true
  | _ => false

def CycleEvent.recoversAt (anchor : BlockAnchor) (e : CycleEvent) : Bool :=
  e.signer.any (·.recoversAt anchor)

/-- The coordinator's part of a trace. -/
def signerEvents (tr : List CycleEvent) : List Event := tr.filterMap (·.signer)

/-- A recovery at the anchor was completed after the last pass started. -/
def RecoveredSince (tr : List CycleEvent) (anchor : BlockAnchor) : Prop :=
  Since (fun e => e.recoversAt anchor = true) (fun e => e.startsPass = false) tr

/-- The pass that runs, or ran last, is that of `cycle`. -/
def PassOfCycle (tr : List CycleEvent) (cycle : ℕ) : Prop :=
  Since (fun e => e.note = some (.passStarted cycle)) (fun e => e.startsPass = false) tr

/-- What `s` reuses was completed at the anchor by a cycle before the next decision, and no
pass has started or failed since. -/
def CompletedBefore (s : Cycling) (anchor : BlockAnchor) (at' : ℚ) (tr : List CycleEvent) : Prop :=
  Since (fun e => ∃ n content, e.note = some (.passCompleted n anchor at' content) ∧
      s.completedDurableRevision = some content.revision ∧ n ≤ s.cycles ∧
      ∀ r, s.run = some r → r.stage.early = true → n < r.cycle)
    (fun e => e.endsCompletion = false) tr

section Runs

variable (lib : TransactionLibrary) (identity : JournalIdentity) (interval : Option ℕ)

structure CycleInv (s : Cycling) (tr : List CycleEvent) : Prop where
  follows : ∃ is, runSigner lib identity is = (s.world, signerEvents tr)
  cycle : ∀ r, s.run = some r → r.cycle = s.cycles
  pass : ∀ r, s.run = some r → r.stage.passing = true → PassOfCycle tr r.cycle
  runs : ∀ r c passes, s.run = some r → s.world = .running c → r.stage = .recovering passes →
    RunsPass r (RecoveredSince tr r.anchor) c
  completed : ∀ schedule anchor at', s.durableSchedule = some schedule →
    schedule.completed = some (anchor, at') → CompletedBefore s anchor at' tr
  interval : s.durableSchedule.map (·.refreshIntervalMs) = interval

/-- What a cycle that skips durable recovery may rely on. -/
structure Reusable (tr : List CycleEvent) (cycle : ℕ) (anchor : BlockAnchor) (now : ClockReading)
    (content : DurableContent) (n : ℕ) (at' : ℚ) (completed : DurableContent) : Prop where
  earlier : n < cycle
  since : Since (fun e => e.note = some (.passCompleted n anchor at' completed))
    (fun e => e.endsCompletion = false) tr
  fresh : ∃ i t, interval = some i ∧ now = some t ∧ 0 ≤ t - at' ∧ t - at' < i
  content : SameContent content completed

/-- What the cycle's notes show. -/
def NoteOk (pre : List CycleEvent) (e : CycleEvent) : Prop :=
  match e.note with
  | some (.passCompleted n anchor _ _) => PassOfCycle pre n ∧ RecoveredSince pre anchor
  | some (.passSkipped n anchor now content) =>
    ∃ m at' completed, Reusable interval pre n anchor now content m at' completed
  | _ => True

variable {lib identity interval}

theorem signerEvents_append (tr : List CycleEvent) (x : Option CycleEvent) :
    signerEvents (tr ++ x.toList) = signerEvents tr ++ (x.bind (·.signer)).toList := by
  cases x with
  | none => simp
  | some x =>
    obtain ⟨e, note⟩ := x
    cases e <;> simp [signerEvents]

/-- A call that the cycle makes extends the run of the coordinator. -/
theorem runSigner_calls {is : List Input} {c c' : SignerCoordinator} {e : Option Event}
    {tr : List Event} (hrun : runSigner lib identity is = (.running c, tr))
    (h : Calls lib identity c e c') :
    ∃ js, runSigner lib identity js = (.running c', tr ++ e.toList) := by
  rcases h with ⟨rfl, rfl⟩ | ⟨i, h⟩
  · exact ⟨is, by simpa using hrun⟩
  · exact ⟨_, runSigner_acts hrun h⟩

/-- What was completed stays so where nothing that ends it is noted, and cycles only begin. -/
theorem CompletedBefore.keep {s s' : Cycling} {anchor : BlockAnchor} {at' : ℚ}
    {tr : List CycleEvent} {x : Option CycleEvent} (h : CompletedBefore s anchor at' tr)
    (hrev : s'.completedDurableRevision = s.completedDurableRevision) (hcycles : s.cycles ≤ s'.cycles)
    (hrun : ∀ r', s'.run = some r' → r'.stage.early = true →
      s.cycles < r'.cycle ∨ ∃ r, s.run = some r ∧ r.stage.early = true ∧ r.cycle = r'.cycle)
    (hx : ∀ e, x = some e → e.endsCompletion = false) :
    CompletedBefore s' anchor at' (tr ++ x.toList) := by
  apply Since.append_option _ hx
  apply Since.mono h _ fun _ hq => hq
  rintro e ⟨n, content, hnote, hcontent, hn, hearly⟩
  refine ⟨n, content, hnote, hrev ▸ hcontent, hn.trans hcycles, ?_⟩
  intro r' hr' hstage
  rcases hrun r' hr' hstage with hlt | ⟨r, hr, hst, hcyc⟩
  · omega
  · rw [← hcyc]
    exact hearly r hr hst

/-- The caller of an operation resumes: of the coordinator only the owner moves. -/
theorem settleOperation_fields {c c' : SignerCoordinator} {e : Option Event}
    (h : c.settleOperation = some (c', e)) :
    c'.task = c.task ∧ c'.recoveryComplete = c.recoveryComplete := by
  obtain ⟨o, _, h⟩ := Option.bind_eq_some_iff.mp h
  split at h
  · dsimp only at h
    split at h
    · obtain ⟨rfl, rfl⟩ := Prod.mk.inj (Option.some.inj h)
      exact ⟨rfl, rfl⟩
    · obtain ⟨rfl, rfl⟩ := Prod.mk.inj (Option.some.inj h)
      exact ⟨rfl, rfl⟩
  · cases h

theorem settledOwned_task {c : SignerCoordinator} {generation : ℕ} {failed : Bool}
    (hown : OwnerPhase c.inspectionOwner c.task)
    (h : c.settledOwned generation = some failed) : c.task = none := by
  obtain ⟨o, ho, h⟩ := Option.bind_eq_some_iff.mp h
  rw [(owned_iff.mp ho).1] at hown
  apply hown.task_none
  split at h
  · rename_i ha
    simp [ha]
  · cases h

theorem DurableRecoverySchedule.not_due {schedule : DurableRecoverySchedule} {anchor : BlockAnchor}
    {now : ClockReading} (h : schedule.isDue anchor now = false) :
    ∃ at' t, schedule.completed = some (anchor, at') ∧ now = some t ∧ 0 ≤ t - at' ∧
      t - at' < schedule.refreshIntervalMs := by
  unfold DurableRecoverySchedule.isDue at h
  split at h
  · cases h
  · rename_i completed at' hc
    split_ifs at h with hanchor
    simp only [ne_eq, not_or, not_not] at hanchor
    obtain rfl : anchor = completed := by
      cases anchor
      cases completed
      rw [BlockAnchor.mk.injEq]
      exact hanchor
    split at h
    · cases h
    · rename_i t
      simp only [Bool.or_eq_false_iff, decide_eq_false_iff_not, not_lt, not_le] at h
      exact ⟨at', t, hc, rfl, h.1, h.2⟩

variable (lib identity) in
/-- What a step does to the coordinator and to the run, apart from what was completed. -/
structure Advances (s' : Cycling) (tr : List CycleEvent) (x : Option CycleEvent) : Prop where
  follows : ∃ is, runSigner lib identity is =
    (s'.world, signerEvents tr ++ (x.bind (·.signer)).toList)
  cycle : ∀ r, s'.run = some r → r.cycle = s'.cycles
  pass : ∀ r, s'.run = some r → r.stage.passing = true → PassOfCycle (tr ++ x.toList) r.cycle
  runs : ∀ r c passes, s'.run = some r → s'.world = .running c → r.stage = .recovering passes →
    RunsPass r (RecoveredSince (tr ++ x.toList) r.anchor) c

section Step

variable {s s' : Cycling} {tr : List CycleEvent} {x : Option CycleEvent}

/-- A step that keeps what was completed. -/
theorem CycleInv.kept (h : CycleInv lib identity interval s tr)
    (ha : Advances lib identity s' tr x)
    (hschedule : s'.durableSchedule = s.durableSchedule)
    (hrev : s'.completedDurableRevision = s.completedDurableRevision) (hcycles : s.cycles ≤ s'.cycles)
    (hrun : ∀ r', s'.run = some r' → r'.stage.early = true →
      s.cycles < r'.cycle ∨ ∃ r, s.run = some r ∧ r.stage.early = true ∧ r.cycle = r'.cycle)
    (hx : ∀ e, x = some e → e.endsCompletion = false) :
    CycleInv lib identity interval s' (tr ++ x.toList) := by
  refine ⟨?_, ha.cycle, ha.pass, ha.runs, ?_, hschedule ▸ h.interval⟩
  · rw [signerEvents_append]
    exact ha.follows
  · intro schedule anchor at' hs hc
    rw [hschedule] at hs
    exact (h.completed schedule anchor at' hs hc).keep hrev hcycles hrun hx

/-- A step that drops what was completed. -/
theorem CycleInv.dropped (h : CycleInv lib identity interval s tr)
    (ha : Advances lib identity s' tr x)
    (hschedule : s'.durableSchedule = s.durableSchedule.map (·.invalidate)) :
    CycleInv lib identity interval s' (tr ++ x.toList) := by
  refine ⟨?_, ha.cycle, ha.pass, ha.runs, ?_, ?_⟩
  · rw [signerEvents_append]
    exact ha.follows
  · intro schedule anchor at' hs hc
    rw [hschedule] at hs
    obtain ⟨old, _, rfl⟩ := Option.map_eq_some_iff.mp hs
    cases hc
  · rw [hschedule, Option.map_map, ← h.interval]
    rfl

/-- A step that leaves no cycle. -/
theorem Advances.ended (hrun : s'.run = none)
    (h : ∃ is, runSigner lib identity is =
      (s'.world, signerEvents tr ++ (x.bind (·.signer)).toList)) :
    Advances lib identity s' tr x := by
  refine ⟨h, ?_, ?_, ?_⟩ <;> simp [hrun]

/-- A step after which no pass is running. -/
theorem Advances.outside {r : CycleRun} (hrun : s'.run = some r) (hcycle : r.cycle = s'.cycles)
    (hstage : r.stage.passing = false)
    (h : ∃ is, runSigner lib identity is =
      (s'.world, signerEvents tr ++ (x.bind (·.signer)).toList)) :
    Advances lib identity s' tr x := by
  refine ⟨h, ?_, ?_, ?_⟩
  · intro r' hr
    obtain rfl := Option.some.inj (hrun.symm.trans hr)
    exact hcycle
  · intro r' hr hp
    obtain rfl := Option.some.inj (hrun.symm.trans hr)
    exact absurd (hstage.symm.trans hp) (by simp)
  · intro r' c passes hr _ hp
    obtain rfl := Option.some.inj (hrun.symm.trans hr)
    rw [hp] at hstage
    cases hstage

/-- A step after which a pass stands between two calls. -/
theorem Advances.calling {r : CycleRun} {passes : ℕ} (hrun : s'.run = some r)
    (hcycle : r.cycle = s'.cycles) (hstage : r.stage = .calling passes)
    (hpass : PassOfCycle (tr ++ x.toList) r.cycle)
    (h : ∃ is, runSigner lib identity is =
      (s'.world, signerEvents tr ++ (x.bind (·.signer)).toList)) :
    Advances lib identity s' tr x := by
  refine ⟨h, ?_, ?_, ?_⟩
  · intro r' hr
    obtain rfl := Option.some.inj (hrun.symm.trans hr)
    exact hcycle
  · intro r' hr _
    obtain rfl := Option.some.inj (hrun.symm.trans hr)
    exact hpass
  · intro r' c p hr _ hp
    obtain rfl := Option.some.inj (hrun.symm.trans hr)
    exact absurd (hstage.symm.trans hp) (by simp)

/-- What the coordinator does while a cycle awaits. -/
theorem CycleInv.process {c c' : SignerCoordinator} {i : Input} {e : Option Event}
    {recovered : Option SignerRecoveryResult} {checked : Option Bool}
    (h : CycleInv lib identity interval s tr) (hw : s.world = .running c)
    (hcs : coordinatorStep lib identity i c = some (c', e))
    (hallows : ∀ r, s.run = some r → r.stage.allows i.action = true) :
    CycleInv lib identity interval
      { s with world := .running c', recovered := recovered, checked := checked }
      (tr ++ [⟨e, none⟩]) := by
  obtain ⟨is, hrun⟩ := h.follows
  rw [hw] at hrun
  have hown := (runSigner_ownership lib identity is (c := c) (by rw [hrun])).action.owner
  apply h.kept (x := some ⟨e, none⟩)
  · refine ⟨⟨_, runSigner_acts hrun hcs⟩, h.cycle, ?_, ?_⟩
    · exact fun r hr hp => (h.pass r hr hp).append_singleton rfl
    · intro r d passes hr hd hstage
      obtain rfl := World.running.inj hd
      -- the promise of the pass is left to the cycle
      have hi : i.action ≠ .settleOperation := by
        intro hi
        have hal := hallows r hr
        rw [hstage, hi] at hal
        cases hal
      apply ((h.runs r c passes hr hw hstage).step hown hcs hi).mono
      rintro (hret | ⟨y, rfl, hy⟩)
      · exact Since.append_singleton hret rfl
      · exact since_here tr hy
  · rfl
  · rfl
  · exact le_refl _
  · exact fun r hr hearly => Or.inr ⟨r, hr, hearly, rfl⟩
  · rintro y ⟨⟩
    rfl

theorem CycleEvent.Moves.quiet {e : Option Event} (h : CycleEvent.Moves e x) :
    ∀ y, x = some y → y.note = none := by
  rintro y rfl
  exact h.2

theorem CycleInv.went {r : CycleRun} {c c' : SignerCoordinator} {e : Option Event}
    {stage : Option CycleStage} {checked : Option Bool}
    (h : CycleInv lib identity interval s tr) (hw : s.world = .running c) (hr : s.run = some r)
    (hcalls : Calls lib identity c e c') (hm : CycleEvent.Moves e x)
    (hstage : ∀ t ∈ stage, (t.early = true → r.stage.early = true) ∧
      (t.passing = true → r.stage.passing = true ∧ ∃ passes, t = .calling passes)) :
    CycleInv lib identity interval
      { s with
        world := .running c'
        run := stage.map fun t => { r with stage := t }
        checked := checked } (tr ++ x.toList) := by
  obtain ⟨is, hrun⟩ := h.follows
  rw [hw] at hrun
  have hfollows : ∃ js, runSigner lib identity js =
      (.running c', signerEvents tr ++ (x.bind (·.signer)).toList) := by
    rw [hm.1]
    exact runSigner_calls hrun hcalls
  apply h.kept
  · cases stage with
    | none => exact .ended rfl hfollows
    | some t =>
      obtain ⟨_, hpassing⟩ := hstage t rfl
      cases ht : t.passing with
      | false => exact .outside rfl (h.cycle r hr) ht hfollows
      | true =>
        obtain ⟨hrp, passes, rfl⟩ := hpassing ht
        have hpass : PassOfCycle (tr ++ x.toList) r.cycle := by
          apply (h.pass r hr hrp).append_option
          intro y hy
          rw [CycleEvent.startsPass, hm.quiet y hy]
        exact .calling rfl (h.cycle r hr) rfl hpass hfollows
  · rfl
  · rfl
  · exact le_refl _
  · intro r' hr' hearly
    obtain ⟨t, ht, rfl⟩ := Option.map_eq_some_iff.mp hr'
    exact Or.inr ⟨r, hr, (hstage t ht).1 hearly, rfl⟩
  · intro y hy
    rw [CycleEvent.endsCompletion, hm.quiet y hy]

theorem CycleInv.called {r : CycleRun} {c c' : SignerCoordinator} {e : Option Event} {passes : ℕ}
    (h : CycleInv lib identity interval s tr) (hw : s.world = .running c) (hr : s.run = some r)
    (hstage : r.stage = .calling passes)
    (hcall : c.callOwned r.generation (.recover r.anchor r.maxBlockRange) = some (c', e)) :
    CycleInv lib identity interval
      ({ s with recovered := none }.goesOn r c' (.recovering passes)) (tr ++ [⟨e, none⟩]) := by
  obtain ⟨is, hrun⟩ := h.follows
  rw [hw] at hrun
  have hinv := runSigner_ownership lib identity is (c := c) (by rw [hrun])
  have hpassing : r.stage.passing = true := by
    rw [hstage]
    rfl
  apply h.kept (x := some ⟨e, none⟩)
  · refine ⟨⟨_, runSigner_acts hrun (i := ⟨0, .callOwned _ _⟩) hcall⟩, ?_, ?_, ?_⟩
    · rintro r' ⟨⟩
      exact h.cycle r hr
    · rintro r' ⟨⟩ _
      exact (h.pass r hr hpassing).append_singleton rfl
    · rintro r' d p ⟨⟩ ⟨⟩ _
      have hp : RunsPass r (RecoveredSince (tr ++ [⟨e, none⟩]) r.anchor) c' :=
        RunsPass.called hinv.owner hinv.action.owner hcall
      exact ⟨hp.generation, hp.phase⟩
  · rfl
  · rfl
  · exact le_refl _
  · rintro r' ⟨⟩ hearly
    cases hearly
  · rintro y ⟨⟩
    rfl

/-- A pass is completed: its revision is that of the content that is noted with it. -/
theorem CycleInv.completes {r : CycleRun} {c c' : SignerCoordinator} {e : Option Event}
    {schedule : DurableRecoverySchedule} {clock : ClockReading}
    (h : CycleInv lib identity interval s tr) (hw : s.world = .running c) (hr : s.run = some r)
    {generation : ℕ} {failed : Bool} (hs : c.settledOwned generation = some failed)
    (hsettle : c.settleOperation = some (c', e)) (hrec : c'.recoveryComplete = true)
    (hschedule : s.durableSchedule = some schedule) :
    CycleInv lib identity interval
      ({ s with
          durableSchedule := some (schedule.recordCompleted r.anchor clock)
          completedDurableRevision := some c'.committedDurableRecoveryRevision }.goesOn r c'
        .inspected)
      (tr ++ [⟨e, clock.map fun at' => .passCompleted r.cycle r.anchor at' c'.durableContent⟩]) := by
  obtain ⟨is, hrun⟩ := h.follows
  rw [hw] at hrun
  have hown := (runSigner_ownership lib identity is (c := c) (by rw [hrun])).action.owner
  have hrun' := runSigner_acts hrun (i := ⟨0, .settleOperation⟩) hsettle
  obtain ⟨htask, _⟩ := settleOperation_fields hsettle
  have hfresh := revision_of_recovered hrun' (htask.trans (settledOwned_task hown hs)) hrec
  have hinterval := h.interval
  rw [hschedule] at hinterval
  refine ⟨⟨_, hrun'.trans ?_⟩, ?_, ?_, ?_, ?_, ?_⟩
  · exact congrArg _ (signerEvents_append tr (some ⟨e, _⟩)).symm
  · rintro r' ⟨⟩
    exact h.cycle r hr
  · rintro r' ⟨⟩ hp
    cases hp
  · rintro r' d p ⟨⟩ _ hp
    cases hp
  · rintro schedule' anchor at' ⟨⟩ hc
    obtain ⟨t, rfl, ht⟩ := Option.map_eq_some_iff.mp hc
    obtain ⟨rfl, rfl⟩ := Prod.mk.inj ht
    apply since_here
    refine ⟨r.cycle, c'.durableContent, rfl, congrArg some hfresh, (h.cycle r hr).le, ?_⟩
    rintro r' ⟨⟩ hearly
    cases hearly
  · exact hinterval

/-- The step lemma. -/
theorem CycleInv.step (h : CycleInv lib identity interval s tr)
    (hstep : CycleStep lib identity s x s') :
    CycleInv lib identity interval s' (tr ++ x.toList) := by
  obtain ⟨is, hrun⟩ := h.follows
  -- what ends a cycle or starts a pass drops the right to skip, and the rest keeps it
  cases hstep with
  | process hw hcs hallows => exact h.process hw hcs hallows
  | @stopped i w e hw =>
    refine h.dropped (x := some ⟨e, none⟩) (.ended rfl ⟨is ++ [i], ?_⟩) rfl
    rw [runSigner, System.run_append_singleton, ← runSigner, hrun]
    simp only [System.next, signerSystem, hw]
    rfl
  | @started head anchor range hno =>
    apply h.kept (x := some ⟨none, some (.started (s.cycles+1))⟩)
    · exact .outside rfl rfl rfl ⟨is, by simpa using hrun⟩
    · rfl
    · rfl
    · exact Nat.le_succ _
    · rintro r' ⟨⟩ _
      exact Or.inl (Nat.lt_succ_self _)
    · rintro y ⟨⟩
      rfl
  | @threw n k hk =>
    refine h.dropped (x := some ⟨none, some (.invalidated n)⟩) (.ended rfl ⟨is, ?_⟩) rfl
    exact hrun.trans (by simp [Cycling.invalidateDurableRecovery])
  | went hw hr hcalls hm hstage => exact h.went hw hr hcalls hm hstage
  | @skipped r c c' e clock hw hr hstage hbegin hreuse =>
    rw [hw] at hrun
    apply h.kept (x := some ⟨e, some (.passSkipped r.cycle r.anchor clock c.durableContent)⟩)
    · exact .outside rfl (h.cycle r hr) rfl ⟨_, runSigner_acts hrun (i := ⟨0, .beginInspection⟩) hbegin⟩
    · rfl
    · rfl
    · exact le_refl _
    · rintro r' ⟨⟩ hearly
      cases hearly
    · rintro y ⟨⟩
      rfl
  | @passStarted r c c' e passes hw hr hbegin =>
    rw [hw] at hrun
    refine h.dropped (x := some ⟨e, some (.passStarted r.cycle)⟩) ?_ rfl
    exact .calling rfl (h.cycle r hr) rfl (since_here tr rfl)
      ⟨_, runSigner_acts hrun (i := ⟨0, .beginInspection⟩) hbegin⟩
  | called hw hr hstage hcall => exact h.called hw hr hstage hcall
  | completed hw hr hstage hs hsettle hrec hschedule =>
    exact h.completes hw hr hs hsettle hrec hschedule
  | @invalidated r c c' e hw hr hcalls =>
    rw [hw] at hrun
    refine h.dropped (x := some ⟨e, some (.invalidated r.cycle)⟩) ?_ rfl
    exact .outside rfl (h.cycle r hr) rfl (runSigner_calls hrun hcalls)

/-- Whoever skips may rely on what was completed. -/
theorem CycleInv.reusable {r : CycleRun} {c c' : SignerCoordinator} {e : Option Event}
    {clock : ClockReading} (h : CycleInv lib identity interval s tr) (hw : s.world = .running c)
    (hr : s.run = some r) (hstage : r.stage = .beginning)
    (hbegin : c.beginInspection = some (c', e)) (hreuse : canReuseDurablePass s c r clock = true) :
    ∃ m at' completed,
      Reusable interval tr r.cycle r.anchor clock c.durableContent m at' completed := by
  obtain ⟨is, hrun⟩ := h.follows
  rw [hw] at hrun
  have hc : (runSigner lib identity is).1 = .running c := by rw [hrun]
  have hown := (runSigner_ownership lib identity is hc).action.owner
  have hjournal := (runSigner_reached lib identity is hc).journal
  -- the inspection began, so nothing was suspended at the decision
  have htask : c.task = none := by
    unfold beginInspection at hbegin
    split_ifs at hbegin with hg
    rw [Bool.and_eq_true, assertAvailable_iff] at hg
    exact hown.idle hjournal hg.1.1 hg.1.2
  unfold canReuseDurablePass at hreuse
  split at hreuse
  · cases hreuse
  · rename_i schedule hschedule
    simp only [Bool.and_eq_true, Bool.not_eq_true', beq_iff_eq] at hreuse
    obtain ⟨⟨⟨⟨⟨⟨⟨_, hrec⟩, _⟩, _⟩, _⟩, _⟩, hrev⟩, hdue⟩ := hreuse
    obtain ⟨at', t, hcompleted, rfl, hle, hlt⟩ := DurableRecoverySchedule.not_due hdue
    obtain ⟨pre, x, post, rfl, ⟨n, content, hnote, hcontent, _, hearly⟩, hpost⟩ :=
      h.completed schedule r.anchor at' hschedule hcompleted
    have hfresh := revision_of_recovered hrun htask hrec
    have hinterval := h.interval
    rw [hschedule] at hinterval
    refine ⟨n, at', content, ?_, ⟨pre, x, post, rfl, hnote, hpost⟩, ?_, ?_⟩
    · apply hearly r hr
      rw [hstage]
      rfl
    · exact ⟨schedule.refreshIntervalMs, t, hinterval.symm, rfl, hle, hlt⟩
    · rw [← revision_eq_iff, ← hfresh]
      exact Option.some.inj (hrev.symm.trans hcontent)

theorem CycleInv.noteOk (h : CycleInv lib identity interval s tr)
    (hstep : CycleStep lib identity s x s') : ∀ y, x = some y → NoteOk interval tr y := by
  cases hstep with
  | skipped hw hr hstage hbegin hreuse =>
    rintro y ⟨⟩
    exact h.reusable hw hr hstage hbegin hreuse
  | @completed r c c' e passes schedule clock hw hr hstage hs hsettle hrec _ =>
    rintro y ⟨⟩
    cases clock with
    | none => trivial
    | some at' =>
      have hpassing : r.stage.passing = true := by
        rw [hstage]
        rfl
      refine ⟨h.pass r hr hpassing, ?_⟩
      apply (h.runs r c passes hr hw hstage).returned hs
      rw [← (settleOperation_fields hsettle).2]
      exact hrec
  | went hw hr hcalls hm hstage =>
    intro y hy
    rw [NoteOk, hm.quiet y hy]
    trivial
  | _ =>
    rintro y ⟨⟩
    trivial

end Step

variable (lib identity interval)

theorem cycleInv_init : CycleInv lib identity interval (cycleSystem lib identity interval).init [] := by
  refine ⟨⟨[], rfl⟩, ?_, ?_, ?_, ?_, ?_⟩
  · rintro r ⟨⟩
  · rintro r ⟨⟩
  · rintro r c passes ⟨⟩
  · intro schedule anchor at' hs hc
    obtain ⟨i, _, rfl⟩ := Option.map_eq_some_iff.mp hs
    cases hc
  · cases interval with
    | none => rfl
    | some _ => rfl

theorem runCycles_ok (is : List CycleInput) :
    EachEvent (NoteOk interval) (runCycles lib identity interval is).2 := by
  refine ((cycleSystem lib identity interval).run_invariant
    (fun s tr => CycleInv lib identity interval s tr ∧ EachEvent (NoteOk interval) tr)
    ⟨cycleInv_init lib identity interval, eachEvent_nil _⟩ ?_ is).2
  intro i s tr s' x ⟨hinv, hnotes⟩ h
  have hstep := cycleStep_cases h
  exact ⟨hinv.step hstep, hnotes.append_option (hinv.noteOk hstep)⟩

/-- Whenever a cycle skips durable recovery, an earlier cycle has completed a pass at the same
anchor: it has started one, and a recovery at the anchor was committed in it. Since that
completion no pass has started or ended incomplete, no cycle has failed, the refresh interval
has not elapsed, and the committed content and the blockers are the same. -/
theorem durable_skip_sound (is : List CycleInput) {pre post : List CycleEvent} {e : CycleEvent}
    (htr : (runCycles lib identity interval is).2 = pre ++ e :: post) {cycle : ℕ}
    {anchor : BlockAnchor} {now : ClockReading} {content : DurableContent}
    (he : e.note = some (.passSkipped cycle anchor now content)) :
    ∃ a x b m at' completed, pre = a ++ x :: b ∧ m < cycle ∧
      x.note = some (.passCompleted m anchor at' completed) ∧
      (PassOfCycle a m ∧ RecoveredSince a anchor) ∧
      (∀ y ∈ b, y.endsCompletion = false) ∧
      (∃ i t, interval = some i ∧ now = some t ∧ 0 ≤ t - at' ∧ t - at' < i) ∧
      SameContent content completed := by
  have hnotes := runCycles_ok lib identity interval is
  have hskip := hnotes pre e post htr
  rw [NoteOk, he] at hskip
  obtain ⟨m, at', completed, hm, ⟨a, x, b, rfl, hx, hb⟩, hfresh, hcontent⟩ := hskip
  have hpass := hnotes a x (b ++ e :: post) (by rw [htr]; simp)
  rw [NoteOk, hx] at hpass
  exact ⟨a, x, b, m, at', completed, rfl, hm, hx, hpass, hb, hfresh, hcontent⟩

section Sample

/-- A cycle that completes its pass over a missing journal, and one that skips it. -/
def skipActions : List CycleAction :=
  [.signer (.restart false 10), .run (some sampleHead) sampleAnchor 100, .next, .next, .next,
    .signer .startOperation,
    .signer (.answered (nonceReads sampleAnchor ++ [nonceRead 7 .latest (some 0),
      nonceRead 7 .pending (some 0), anchorSeen sampleAnchor])),
    .signer .stored, .signer .resume, .next, .next,
    .signer .startOperation, .signer (.answered (nonceReads sampleHead)), .signer .stored,
    .signer .resume, .next, .next, .next,
    .run (some sampleHead) sampleAnchor 100, .next, .next]

def skipRun : List CycleInput := skipActions.map (⟨⟨1, some 5, false, false, true, 0⟩, ·⟩)

def skippedContent : DurableContent :=
  ⟨some { bootstrapSnapshot sampleIdentity ⟨sampleAnchor, 0⟩ with lastObservation := ⟨sampleHead, 0⟩ },
    ⟨false, false⟩⟩

-- the clock is compared by evaluation here
attribute [local semireducible] Rat.sub Rat.add in
set_option maxRecDepth 8000 in
theorem skipRun_skipped : (runCycles sampleLibrary sampleIdentity (some 1000) skipRun).2 =
    (runCycles sampleLibrary sampleIdentity (some 1000) skipRun).2.take 17 ++
      ⟨some (.begun 2), some (.passSkipped 2 sampleAnchor (some 5) skippedContent)⟩ :: [] := rfl

theorem skipRun_reused : ∃ x ∈ (runCycles sampleLibrary sampleIdentity (some 1000) skipRun).2.take 17,
    ∃ m at' completed, m < 2 ∧ x.note = some (.passCompleted m sampleAnchor at' completed) ∧
      SameContent skippedContent completed := by
  obtain ⟨a, x, b, m, at', completed, hpre, hm, hx, _, _, _, hcontent⟩ :=
    durable_skip_sound sampleLibrary sampleIdentity (some 1000) skipRun skipRun_skipped rfl
  refine ⟨x, ?_, m, at', completed, hm, hx, hcontent⟩
  rw [hpre]
  simp

end Sample

end Runs

end Quicknet
