import Quicknet.SignerInvariant

/-! Every run: the state follows the trace, and each event is what it should be
where it stands. Later modules add invariants of the running process to it. -/
namespace Quicknet

open Interaction Transition SignerCoordinator

/-- A coordinator as it starts from the journal it read. -/
structure Created (read : Option TransactionJournalSnapshot) (c : SignerCoordinator) : Prop where
  persistence : c.persistence = ⟨.idle, read, none⟩
  pendingWrite : c.pendingWrite = none
  busy : c.busy = false
  task : c.task = none
  owner : c.inspectionOwner = none
  broadcastPermit : c.broadcastPermit = none
  recoveryComplete : c.recoveryComplete = false
  inclusionChecksComplete : c.inclusionChecksComplete = false
  blockers : c.blockers =
    ⟨read.any (·.showsUnattributedActivity), read.any (·.showsExhaustedSearch)⟩
  revision : c.committedDurableRecoveryRevision = durableRecoveryRevision read c.blockers

/-- What holds of the world after the trace with view `v`. -/
def WorldInv (v : JournalView) : World → Prop
  | .running c => JournalInv v c
  | .stopped stored uncertain => stored = v.journal ∧ uncertain = v.pending.map (·.2)
  | .opened read => read = v.journal ∧ v.pending = none ∧ v.unapplied = none
  | .repairing stored repair => v.journal = some stored ∧ ∃ w, v.pending = some (w, repair)

section Reach

variable {lib : TransactionLibrary} {identity : JournalIdentity}

theorem create_ok {n : ℕ} {read : Option TransactionJournalSnapshot} {now : Timestamp}
    {c : SignerCoordinator} (h : SignerCoordinator.create lib identity n read now = .ok c) :
    Created read c := by
  unfold SignerCoordinator.create at h
  split_ifs at h
  unfold JournalPersistence.create at h
  cases read with
  | none =>
    obtain rfl := Except.ok.inj h
    exact ⟨rfl, rfl, rfl, rfl, rfl, rfl, rfl, rfl, rfl, rfl⟩
  | some s =>
    cases hv : verifyJournalSnapshot lib s identity with
    | error e =>
      simp [hv, bind, Except.bind] at h
    | ok t =>
      obtain ⟨rfl, _⟩ := verifyJournalSnapshot_ok_iff.mp hv
      simp only [hv, bind, Except.bind, pure, Except.pure] at h
      obtain rfl := Except.ok.inj h
      exact ⟨rfl, rfl, rfl, rfl, rfl, rfl, rfl, rfl, rfl, rfl⟩

theorem Created.journalInv {read : Option TransactionJournalSnapshot} {c : SignerCoordinator}
    {v : JournalView} (h : Created read c) : JournalInv (v.advance (.loaded read)) c := by
  refine ⟨by rw [h.persistence]; rfl, by rw [h.persistence]; rfl, ?_, ?_, ?_, ?_⟩
  · rw [h.task]
    exact ⟨h.busy, rfl, Or.inl ⟨by rw [h.persistence], h.pendingWrite, rfl⟩⟩
  · rw [h.blockers]
    rfl
  · intro hs
    rw [h.blockers]
    exact hs
  · intro hr
    rw [h.recoveryComplete] at hr
    cases hr

/-- What a start finds on disk is the committed journal or the pending one. -/
theorem chooseRead_ok {v : JournalView} {u : Bool} :
    EventOk lib identity v (.loaded (chooseRead u v.journal (v.pending.map (·.2)))) := by
  cases u with
  | false => exact Or.inl rfl
  | true =>
    cases hp : v.pending with
    | none => exact Or.inl rfl
    | some p => exact Or.inr ⟨p.1, p.2, hp, rfl⟩

/-- The step lemma of the world: events are what they should be, and the state
goes on following the trace. -/
theorem WorldInv.step {v : JournalView} {w w' : World} {e : Option Event}
    (hi : WorldInv v w) (hv : ViewOk lib identity v) (h : WorldStep lib identity w e w') :
    (∀ x, e = some x → EventOk lib identity v x) ∧ WorldInv (v.after e) w' := by
  have hone {x : Event} (he : EventOk lib identity v x) :
      ∀ y, some x = some y → EventOk lib identity v y := by
    intro y hy
    obtain rfl := Option.some.inj hy
    exact he
  cases h with
  | process hstep => exact JournalInv.step hi hv hstep
  | crashed => exact ⟨by simp, hi.current, hi.pending⟩
  | openedJournal =>
    obtain ⟨rfl, rfl⟩ := hi
    exact ⟨hone chooseRead_ok, rfl, rfl, rfl⟩
  | restarted hc =>
    obtain ⟨rfl, rfl⟩ := hi
    exact ⟨hone chooseRead_ok, (create_ok hc).journalInv (v := v)⟩
  | repairing hplan =>
    obtain ⟨hj, hp, hu⟩ := hi
    obtain ⟨_, hempty, _, _, hrep, hvalid⟩ := planNonceSync_repair hplan
    refine ⟨hone ⟨hp, hu, by rw [← hj]; exact .repair hplan, hvalid, ?_⟩, hj.symm, _, rfl⟩
    intro a ha
    rw [hrep] at ha
    simp [repairedSnapshot, hempty] at ha
  | closed =>
    obtain ⟨rfl, hp, _⟩ := hi
    exact ⟨by simp, rfl, by simp [JournalView.after, hp]⟩
  | repaired =>
    obtain ⟨_, w, hp⟩ := hi
    exact ⟨hone ⟨w, hp⟩, rfl, rfl⟩
  | repairFailed =>
    obtain ⟨hj, w, hp⟩ := hi
    exact ⟨by simp, hj.symm, by simp [JournalView.after, hp]⟩

variable (lib identity)

/-- After every run the trace is well formed and the world follows it. -/
theorem runSigner_follows (is : List Input) :
    TraceOk lib identity (runSigner lib identity is).2 ∧
      WorldInv (view (runSigner lib identity is).2) (runSigner lib identity is).1 := by
  refine (signerSystem lib identity).run_invariant
    (fun w tr => TraceOk lib identity tr ∧ WorldInv (view tr) w)
    ⟨eachEvent_nil _, rfl, rfl⟩ ?_ is
  intro i w tr w' e ⟨htr, hw⟩ hstep
  obtain ⟨he, hw'⟩ := WorldInv.step hw htr.viewOk (worldStep_cases hstep)
  rw [view_append_option]
  exact ⟨htr.append_option he, hw'⟩

/-- What every reachable running state offers to an invariant on top of it. -/
structure Reached (tr : List Event) (c : SignerCoordinator) : Prop where
  trace : TraceOk lib identity tr
  journal : JournalInv (view tr) c

theorem runSigner_reached (is : List Input) {c : SignerCoordinator}
    (hc : (runSigner lib identity is).1 = .running c) :
    Reached lib identity (runSigner lib identity is).2 c := by
  obtain ⟨htrace, hworld⟩ := runSigner_follows lib identity is
  rw [hc] at hworld
  exact ⟨htrace, hworld⟩

/-- Consecutive states of one process. -/
theorem runSigner_step {is : List Input} {i : Input} {c c' : SignerCoordinator}
    (hc : (runSigner lib identity is).1 = .running c)
    (hc' : (runSigner lib identity (is ++ [i])).1 = .running c') :
    c = c' ∨ ∃ e, CoordinatorStep lib identity c e c' := by
  rw [runSigner, System.run_append_singleton] at hc'
  unfold System.next at hc'
  split at hc'
  · rw [hc] at hc'
    exact Or.inl (World.running.inj hc')
  · rename_i t e he
    have hstep := worldStep_cases he
    rw [hc] at hstep
    obtain rfl : t = .running c' := hc'
    cases hstep with
    | process h => exact Or.inr ⟨e, h⟩

/-- An invariant of the running process, with a property of its events, is
proved at the start of a process and for each of its steps. The events that
occur while no coordinator runs have the property by themselves. -/
theorem runSigner_running (Inv : List Event → SignerCoordinator → Prop)
    (P : List Event → Event → Prop)
    (hcreate : ∀ tr read c, Created read c → Reached lib identity (tr ++ [.loaded read]) c →
      Inv (tr ++ [.loaded read]) c)
    (hstep : ∀ tr c e c', Reached lib identity tr c → Reached lib identity (tr ++ e.toList) c' →
      Inv tr c → CoordinatorStep lib identity c e c' →
      (∀ x, e = some x → P tr x) ∧ Inv (tr ++ e.toList) c')
    (hloaded : ∀ tr read, P tr (.loaded read)) (hacked : ∀ tr s, P tr (.acked s))
    (hrepair : ∀ tr o s, P tr (.write (.repair o) s)) (is : List Input) :
    EachEvent P (runSigner lib identity is).2 ∧
      ∀ c, (runSigner lib identity is).1 = .running c → Inv (runSigner lib identity is).2 c := by
  have hrun := (signerSystem lib identity).run_invariant
    (fun w tr => (TraceOk lib identity tr ∧ WorldInv (view tr) w) ∧
      EachEvent P tr ∧ ∀ c, w = .running c → Inv tr c)
    ⟨⟨eachEvent_nil _, rfl, rfl⟩, eachEvent_nil _, fun c hc => by cases hc⟩ ?_ is
  · exact hrun.2
  intro i w tr w' e ⟨⟨htr, hw⟩, hp, hinv⟩ h
  replace h := worldStep_cases h
  obtain ⟨he, hw'⟩ := WorldInv.step hw htr.viewOk h
  have htr' : TraceOk lib identity (tr ++ e.toList) := htr.append_option he
  rw [← view_append_option] at hw'
  refine ⟨⟨htr', hw'⟩, ?_⟩
  cases h with
  | process hcs =>
    obtain ⟨hx, hc⟩ := hstep tr _ e _ ⟨htr, hw⟩ ⟨htr', hw'⟩ (hinv _ rfl) hcs
    refine ⟨hp.append_option hx, fun d hd => ?_⟩
    obtain rfl := World.running.inj hd
    exact hc
  | restarted hc =>
    refine ⟨hp.append_singleton (hloaded tr _), fun d hd => ?_⟩
    obtain rfl := World.running.inj hd
    exact hcreate tr _ _ (create_ok hc) ⟨htr', hw'⟩
  | crashed => exact ⟨by simpa using hp, fun _ hd => by cases hd⟩
  | openedJournal => exact ⟨hp.append_singleton (hloaded tr _), fun _ hd => by cases hd⟩
  | repairing _ => exact ⟨hp.append_singleton (hrepair tr _ _), fun _ hd => by cases hd⟩
  | closed => exact ⟨by simpa using hp, fun _ hd => by cases hd⟩
  | repaired => exact ⟨hp.append_singleton (hacked tr _), fun _ hd => by cases hd⟩
  | repairFailed => exact ⟨by simpa using hp, fun _ hd => by cases hd⟩

end Reach

end Quicknet
