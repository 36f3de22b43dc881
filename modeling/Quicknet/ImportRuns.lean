import Quicknet.JournalSafety
import Quicknet.RoundImport

/-! Runs of round imports. Each is a run of the manager below, and while an attempt of a
work identity stays retained nothing in it is signed or prepared for that identity. -/
namespace Quicknet

open Interaction Transition SignerCoordinator
open Json (Text)

section Steps

variable (lib : TransactionLibrary) (identity : JournalIdentity) (address : Text)

/-- What one input does. Only the first two kinds move the manager. -/
inductive ImporterStep (s : Importers) : Option ImporterEvent → Importers → Prop
  | manager {m : Managed} {e : Option ManagerEvent} :
      ManagerStep lib identity s.managed e m →
      ImporterStep s (e.map .manager) (s.afterManager m e)
  | submits {c : SignerCoordinator} {k : ℕ} {r : RoundImport} {path : SubmissionPath} :
      s.managed = ⟨.running c, none⟩ → s.imports[k]? = some r →
      ImporterStep s (some (.manager (.entered r.workId)))
        ({ s with managed := ⟨.running c, some (.submit r.workId .captured)⟩,
                  submitting := some k }.setStage k (.submitting path))
  | refused : ImporterStep s none s
  | started {workId : WorkId} {round : ℤ} :
      ImporterStep s (some (.started s.imports.length workId))
        { s with imports := s.imports ++ [⟨workId, round, .verifyingDeployment none⟩] }
  | retained {c : SignerCoordinator} {workId : WorkId} {round : ℤ} {a : JournalAttempt} :
      s.managed.world = .running c → c.attemptOf workId = some a →
      ImporterStep s
        (some (.ended s.imports.length workId (some (.alreadyRetained a.attemptIdentity))))
        { s with imports := s.imports ++ [⟨workId, round, .ended⟩] }
  | waits {k : ℕ} {r : RoundImport} {stage : ImportStage} {aborted : Bool}
      {answer : ImportAnswer} : s.imports[k]? = some r →
      importMove r.round r.stage aborted answer = some (.waits stage) →
      ImporterStep s none (s.setStage k stage)
  | ends {k : ℕ} {r : RoundImport} {result : Option ImportQuicknetRoundResult} {aborted : Bool}
      {answer : ImportAnswer} {move : ImportMove} : s.imports[k]? = some r →
      importMove r.round r.stage aborted answer = some move →
      (result = none ∨ move = .ends result) →
      ImporterStep s (some (.ended k r.workId result)) (s.setStage k .ended)

variable {lib identity address} {s s' : Importers} {e : Option ImporterEvent}

theorem submissionStep_submit (now : Timestamp) (workId w : WorkId) (c : SignerCoordinator)
    (stage : SubmissionStage) :
    submissionStep lib identity ⟨now, false, .submit workId⟩ c w stage = none := by
  cases stage <;> rfl

theorem managerStep_submit {now : Timestamp} {workId : WorkId} {m m' : Managed}
    {x : Option ManagerEvent}
    (h : managerStep lib identity ⟨now, false, .submit workId⟩ m = some (m', x)) :
    ∃ c, m = ⟨.running c, none⟩ ∧ m' = ⟨.running c, some (.submit workId .captured)⟩ ∧
      x = some (.entered workId) := by
  obtain ⟨w, operation⟩ := m
  unfold managerStep at h
  split at h
  · rename_i ha
    cases ha
  · rename_i ha _ _
    cases ha
  · rename_i ha hw ho
    obtain rfl := hw
    obtain rfl := ho
    obtain ⟨rfl, rfl⟩ := Prod.mk.inj (Option.some.inj h)
    cases ha
    exact ⟨_, rfl, rfl, rfl⟩
  · rename_i ha _ _
    cases ha
  · -- the submission in progress has no use for the call
    rw [submissionStep_submit] at h
    cases h
  · cases h

theorem importerStep_cases {i : ImporterInput}
    (h : importerStep lib identity address i s = some (s', e)) :
    ImporterStep lib identity s e s' := by
  cases i with
  | manager i =>
    obtain ⟨⟨m, x⟩, hm, heq⟩ := Option.map_eq_some_iff.mp h
    obtain ⟨rfl, rfl⟩ := Prod.mk.inj heq
    exact .manager (managerStep_cases hm)
  | importRound round aborted =>
    simp only [importerStep, importRound] at h
    split at h
    · rename_i c hc
      -- the round or the signal, the work ID, and the work that is retained already
      split_ifs at h
      · obtain ⟨rfl, rfl⟩ := Prod.mk.inj (Option.some.inj h)
        exact .refused
      · split at h
        · obtain ⟨rfl, rfl⟩ := Prod.mk.inj (Option.some.inj h)
          exact .refused
        · split at h
          · rename_i hretained
            obtain ⟨rfl, rfl⟩ := Prod.mk.inj (Option.some.inj h)
            exact .retained hc hretained
          · obtain ⟨rfl, rfl⟩ := Prod.mk.inj (Option.some.inj h)
            exact .started
    · cases h
  | settle k now aborted answer =>
    obtain ⟨r, hr, h⟩ := Option.bind_eq_some_iff.mp h
    obtain ⟨move, hmove, h⟩ := Option.bind_eq_some_iff.mp h
    cases move with
    | waits stage =>
      obtain ⟨rfl, rfl⟩ := Prod.mk.inj (Option.some.inj h)
      exact .waits hr hmove
    | ends result =>
      obtain ⟨rfl, rfl⟩ := Prod.mk.inj (Option.some.inj h)
      exact .ends hr hmove (Or.inr rfl)
    | submits path =>
      simp only [submitImport] at h
      split at h
      · rename_i m x hsub
        obtain ⟨rfl, rfl⟩ := Prod.mk.inj (Option.some.inj h)
        obtain ⟨c, hm, rfl, rfl⟩ := managerStep_submit hsub
        exact .submits hm hr
      · obtain ⟨rfl, rfl⟩ := Prod.mk.inj (Option.some.inj h)
        exact .ends hr hmove (Or.inl rfl)

end Steps

section Manager

variable {lib : TransactionLibrary} {identity : JournalIdentity} {m m' : Managed}
  {tr : List ManagerEvent} {e : Option ManagerEvent}

theorem ManagedInv.not_retains (h : ManagedInv lib identity tr m) {workId : WorkId}
    (hsign : m.world.Signs workId) : ¬ m.world.Retains workId := by
  obtain ⟨js, hjs⟩ := h.signer
  have hrun := @runSigner_signs lib identity js workId
  rw [hjs] at hrun
  exact hrun hsign

theorem ManagedInv.current (h : ManagedInv lib identity tr m) {c : SignerCoordinator}
    (hc : m.world = .running c) :
    c.persistence.current = (view (tr.filterMap ManagerEvent.signer?)).journal := by
  obtain ⟨js, hjs⟩ := h.signer
  have hrun : (runSigner lib identity js).1 = .running c := by rw [hjs, hc]
  have hcurrent := (runSigner_reached lib identity js hrun).journal.current
  rwa [hjs] at hcurrent

/-- An attempt is prepared with the answer of the account, which was asked to sign for it. -/
theorem ManagedInv.prepares (h : ManagedInv lib identity tr m)
    (hs : ManagerStep lib identity m e m') {a : JournalAttempt}
    (he : e.bind (·.prepared?) = some a) : m.world.Signs a.workId := by
  have hcoordinator {c c' : SignerCoordinator} {i : Input} {x : Option Event}
      (hstep : coordinatorStep lib identity i c = some (c', x))
      (hx : (x.map ManagerEvent.signer).bind (·.prepared?) = some a) :
      IsSigning a.workId c.task := by
    obtain ⟨y, rfl, hy⟩ : ∃ y, x = some y ∧ y.prepared? = some a := by
      cases x with
      | none => cases hx
      | some y => exact ⟨y, rfl, hx⟩
    unfold Event.prepared? at hy
    split at hy
    · obtain rfl := Option.some.inj hy
      exact (coordinatorStep_cases hstep).prepared_signs
    · cases hy
  cases hs with
  | @world _ _ _ x _ hw hrun =>
    have hnone := (worldStep_prepares_nothing hw hrun).1
    cases x with
    | none => cases he
    | some x =>
      rw [show (Option.map ManagerEvent.signer (some x)).bind (·.prepared?) = x.prepared? from rfl,
        show x.prepared? = none from hnone] at he
      cases he
  | signer _ hstep => exact hcoordinator hstep he
  | reconcile => cases he
  | reconciled => cases he
  | submit => cases he
  | @submission c w stage i _ _ hsub =>
    obtain ⟨d, hd, hi⟩ := h.submission w stage rfl
    obtain rfl := World.running.inj hd
    obtain ⟨v, hj⟩ := h.journal rfl
    cases submissionStep_continues hj hi hsub with
    | waits _ => cases he
    | calls _ hstep _ => exact hcoordinator hstep he
    | returned => cases he
    | thrown _ => cases he

/-- A submission goes on under its work identity, or ends, or its process does. -/
theorem ManagedInv.submission_step (h : ManagedInv lib identity tr m)
    (hs : ManagerStep lib identity m e m') {w : WorkId} {stage : SubmissionStage}
    (hop : m.operation = some (.submit w stage)) :
    ((∀ x, e = some x → x.signer?.isSome = true) ∧ ((∀ c, m'.world ≠ .running c) ∨
        ∃ stage', m'.operation = some (.submit w stage'))) ∨
      (∃ result, e = some (.returned w result)) ∨
      ∃ recording, e = some (.thrown w recording) := by
  obtain ⟨c, hc, hi⟩ := h.submission w stage hop
  have hsigner (x : Option Event) :
      ∀ y, x.map ManagerEvent.signer = some y → y.signer?.isSome = true := by
    intro y hy
    obtain ⟨z, -, rfl⟩ := Option.map_eq_some_iff.mp hy
    rfl
  cases hs with
  | world _ hrun =>
    rcases hrun with hrun | hrun
    · exact absurd hc (hrun c)
    · exact Or.inl ⟨hsigner _, Or.inl hrun⟩
  | @signer d c' operation x j hadm hstep =>
    obtain rfl := Option.some.inj hop
    obtain rfl := World.running.inj hc
    obtain ⟨stage', heq, -⟩ := hi.signer hadm hstep
    rw [heq]
    exact Or.inl ⟨hsigner x, Or.inr ⟨stage', rfl⟩⟩
  | reconcile => cases hop
  | reconciled => cases hop
  | submit => cases hop
  | submission hsub =>
    obtain ⟨rfl, rfl⟩ := ManagerOperation.submit.inj (Option.some.inj hop)
    obtain rfl := World.running.inj hc
    obtain ⟨v, hj⟩ := h.journal rfl
    cases submissionStep_continues hj hi hsub with
    | waits _ => exact Or.inl ⟨by simp, Or.inr ⟨_, rfl⟩⟩
    | calls _ _ _ => exact Or.inl ⟨hsigner _, Or.inr ⟨_, rfl⟩⟩
    | returned => exact Or.inr (Or.inl ⟨_, rfl⟩)
    | thrown _ => exact Or.inr (Or.inr ⟨_, rfl⟩)

/-- What a submission created, it created since the last one was entered. -/
theorem mem_createdAttempts {pre mid : List ManagerEvent} {workId : WorkId}
    (hentered : .entered workId ∈ mid) {a : JournalAttempt}
    (ha : a ∈ createdAttempts (pre ++ mid)) : a ∈ mid.filterMap (·.prepared?) := by
  induction mid using List.reverseRecOn with
  | nil => cases hentered
  | append_singleton mid e ih =>
    rw [← List.append_assoc] at ha
    rw [List.filterMap_append, List.mem_append]
    by_cases he : ∃ w, e = .entered w
    · obtain ⟨w, rfl⟩ := he
      rw [createdAttempts_entered] at ha
      cases ha
    · rw [createdAttempts_append fun w hw => he ⟨w, hw⟩] at ha
      rcases List.mem_append.mp ha with ha | ha
      · have hmid : .entered workId ∈ mid := by
          rcases List.mem_append.mp hentered with hm | hm
          · exact hm
          · exact absurd ⟨workId, (List.mem_singleton.mp hm).symm⟩ he
        exact Or.inl (ih hmid ha)
      · right
        rw [List.mem_filterMap]
        exact ⟨e, List.mem_singleton_self e, Option.mem_toList.mp ha⟩

end Manager

section Importers

variable (lib : TransactionLibrary) (identity : JournalIdentity)

/-- What the manager did in a trace of the imports. -/
def managerTrace (tr : List ImporterEvent) : List ManagerEvent :=
  tr.filterMap ImporterEvent.manager?

/-- The imports stand over a run of the manager, and the one that waits for a submission
waits for the submission in progress. -/
structure ImportersInv (tr : List ImporterEvent) (s : Importers) : Prop where
  managed : ManagedInv lib identity (managerTrace tr) s.managed
  submitting : ∀ k, s.submitting = some k → ∃ r path stage, s.imports[k]? = some r ∧
    r.stage = .submitting path ∧ s.managed.operation = some (.submit r.workId stage)

variable {lib identity} {s s' : Importers} {tr : List ImporterEvent} {e : Option ImporterEvent}

theorem managerTrace_append (tr evs : List ImporterEvent) :
    managerTrace (tr ++ evs) = managerTrace tr ++ managerTrace evs :=
  List.filterMap_append

@[simp] theorem managerTrace_manager (e : Option ManagerEvent) :
    managerTrace (e.map ImporterEvent.manager).toList = e.toList := by
  cases e <;> rfl

namespace Importers

/-- An import of a list in which one import's stage was changed. -/
theorem modify_getElem? {imports : List RoundImport} {f : RoundImport → RoundImport} {j k : ℕ}
    {r : RoundImport} (h : (imports.modify k f)[j]? = some r) (hf : ∀ r, (f r).workId = r.workId) :
    ∃ r', imports[j]? = some r' ∧ r'.workId = r.workId ∧
      (r.stage = r'.stage ∨ j = k ∧ r.stage = (f r').stage) := by
  rw [List.getElem?_modify] at h
  obtain ⟨r', hr', rfl⟩ := Option.map_eq_some_iff.mp h
  by_cases hkj : k = j
  · exact ⟨r', hr', by simp [hkj, hf], Or.inr ⟨hkj.symm, by simp [hkj]⟩⟩
  · exact ⟨r', hr', by simp [hkj], Or.inl (by simp [hkj])⟩

theorem setStage_getElem? {stage : ImportStage} {j k : ℕ} {r : RoundImport}
    (h : (s.setStage k stage).imports[j]? = some r) :
    ∃ r', s.imports[j]? = some r' ∧ r'.workId = r.workId ∧
      (r.stage = r'.stage ∨ j = k ∧ r.stage = stage) :=
  modify_getElem? h fun _ => rfl

/-- The stage that a step of the manager leaves an import in: its own, the last one when the
process ends, or the answer to its submission. -/
theorem afterManager_getElem? {m : Managed} {x : Option ManagerEvent} {j : ℕ} {r : RoundImport}
    (h : (s.afterManager m x).imports[j]? = some r) :
    ∃ r', s.imports[j]? = some r' ∧ r'.workId = r.workId ∧
      (r.stage = r'.stage ∨ r.stage = .ended ∨ s.submitting = some j ∧ ∃ path, r'.stage = .submitting path ∧
        ((∃ w result, x = some (.returned w result) ∧ r.stage = .settled path (some result)) ∨
          r.stage = .settled path none)) := by
  -- only the import that waits for the manager is settled
  have hsettled {answer : Option SubmitTransactionWorkResult}
      (hanswer : answer = none ∨ ∃ w result, x = some (.returned w result) ∧ answer = some result)
      (h : ({ s with managed := m }.settleSubmission answer).imports[j]? = some r) :
      ∃ r', s.imports[j]? = some r' ∧ r'.workId = r.workId ∧
        (r.stage = r'.stage ∨ r.stage = .ended ∨ s.submitting = some j ∧ ∃ path, r'.stage = .submitting path ∧
          ((∃ w result, x = some (.returned w result) ∧ r.stage = .settled path (some result)) ∨
            r.stage = .settled path none)) := by
    unfold settleSubmission at h
    split at h
    · exact ⟨r, h, rfl, Or.inl rfl⟩
    · rename_i k hk
      obtain ⟨r', hr', hw, hr⟩ := modify_getElem? h fun _ => rfl
      refine ⟨r', hr', hw, ?_⟩
      rcases hr with hr | ⟨rfl, hstage⟩
      · exact Or.inl hr
      · cases hs : r'.stage with
        | submitting path =>
          simp only [hs] at hstage
          refine Or.inr (Or.inr ⟨hk, path, rfl, ?_⟩)
          rcases hanswer with rfl | ⟨w, result, hx, rfl⟩
          · exact Or.inr hstage
          · exact Or.inl ⟨w, result, hx, hstage⟩
        | _ =>
          simp only [hs] at hstage
          exact Or.inl hstage
  unfold afterManager at h
  split at h
  · split at h
    · exact ⟨r, h, rfl, Or.inl rfl⟩
    · exact hsettled (Or.inr ⟨_, _, rfl, rfl⟩) h
    · exact hsettled (Or.inl rfl) h
    · exact ⟨r, h, rfl, Or.inl rfl⟩
  -- with the process every import ends
  · rw [List.getElem?_map] at h
    obtain ⟨r', hr', rfl⟩ := Option.map_eq_some_iff.mp h
    exact ⟨r', hr', rfl, Or.inr (Or.inl rfl)⟩

/-- A submission is still awaited only while it goes on. -/
theorem afterManager_submitting {m : Managed} {x : Option ManagerEvent} {k : ℕ}
    (h : (s.afterManager m x).submitting = some k) :
    s.submitting = some k ∧ (∃ c, m.world = .running c) ∧
      (s.afterManager m x).imports = s.imports ∧
      ∀ y, x = some y → (∀ w, y ≠ .entered w) ∧ (∀ w result, y ≠ .returned w result) ∧
        ∀ w recording, y ≠ .thrown w recording := by
  have hsettled {answer : Option SubmitTransactionWorkResult} :
      ({ s with managed := m }.settleSubmission answer).submitting ≠ some k := by
    unfold settleSubmission
    split
    · rename_i hnone
      rw [show s.submitting = none from hnone]
      simp
    · simp
  unfold afterManager at h ⊢
  split at h
  · rename_i c hc
    split at h
    · cases h
    · exact absurd h hsettled
    · exact absurd h hsettled
    · rename_i hentered hreturned hthrown
      refine ⟨h, ⟨c, hc⟩, ?_, ?_⟩
      · rfl
      · intro y hy
        subst hy
        exact ⟨fun w hw => hentered w (by rw [hw]), fun w result hw => hreturned w result (by rw [hw]),
          fun w recording hw => hthrown w recording (by rw [hw])⟩
  · cases h

theorem afterManager_managed (s : Importers) (m : Managed) (x : Option ManagerEvent) :
    (s.afterManager m x).managed = m := by
  have hsettled (answer : Option SubmitTransactionWorkResult) :
      ({ s with managed := m }.settleSubmission answer).managed = m := by
    unfold settleSubmission
    split <;> rfl
  unfold afterManager
  split
  · split
    · rfl
    · exact hsettled _
    · exact hsettled _
    · rfl
  · rfl

end Importers

/-- Steps that leave the manager alone. -/
theorem ImportersInv.keep (h : ImportersInv lib identity tr s) (hm : s'.managed = s.managed)
    (hsub : s'.submitting = s.submitting) (he : managerTrace e.toList = [])
    (himports : ∀ (j : ℕ) (r : RoundImport) (path : SubmissionPath), s.imports[j]? = some r →
      r.stage = .submitting path → s'.imports[j]? = some r) :
    ImportersInv lib identity (tr ++ e.toList) s' := by
  refine ⟨?_, ?_⟩
  · rw [managerTrace_append, he, List.append_nil, hm]
    exact h.managed
  · intro k hk
    rw [hsub] at hk
    obtain ⟨r, path, stage, hr, hpath, hop⟩ := h.submitting k hk
    exact ⟨r, path, stage, himports k r path hr hpath, hpath, by rw [hm, hop]⟩

/-- The step lemma. -/
theorem ImportersInv.step (h : ImportersInv lib identity tr s)
    (hs : ImporterStep lib identity s e s') : ImportersInv lib identity (tr ++ e.toList) s' := by
  have hbegun {x : RoundImport} (j : ℕ) (r : RoundImport) (path : SubmissionPath)
      (hr : s.imports[j]? = some r) (_ : r.stage = .submitting path) :
      (s.imports ++ [x])[j]? = some r := by
    have hj := (List.getElem?_eq_some_iff.mp hr).1
    rw [List.getElem?_append_left hj, hr]
  -- an import that waits for its submission does not move
  have hmoved {k : ℕ} {x : RoundImport} {stage : ImportStage} {aborted : Bool}
      {answer : ImportAnswer} {move : ImportMove} (hx : s.imports[k]? = some x)
      (hmove : importMove x.round x.stage aborted answer = some move) (j : ℕ) (r : RoundImport)
      (path : SubmissionPath) (hr : s.imports[j]? = some r) (hpath : r.stage = .submitting path) :
      (s.setStage k stage).imports[j]? = some r := by
    have hne : k ≠ j := by
      rintro rfl
      obtain rfl := Option.some.inj (hx.symm.trans hr)
      rw [hpath] at hmove
      cases hmove
    rw [Importers.setStage, List.getElem?_modify, hr]
    simp [hne]
  cases hs with
  | @manager m x hstep =>
    have hmanaged := h.managed.step hstep
    refine ⟨?_, ?_⟩
    · rw [managerTrace_append, managerTrace_manager, Importers.afterManager_managed]
      exact hmanaged
    · intro k hk
      obtain ⟨hsub, ⟨c, hc⟩, himports, hevent⟩ := Importers.afterManager_submitting hk
      obtain ⟨r, path, stage, hr, hpath, hop⟩ := h.submitting k hsub
      rw [himports, Importers.afterManager_managed]
      rcases h.managed.submission_step hstep hop with
        ⟨-, hstopped | ⟨stage', hop'⟩⟩ | ⟨result, hx⟩ | ⟨recording, hx⟩
      · exact absurd hc (hstopped c)
      · exact ⟨r, path, stage', hr, hpath, hop'⟩
      · exact absurd rfl ((hevent _ hx).2.1 _ result)
      · exact absurd rfl ((hevent _ hx).2.2 _ recording)
  | @submits c k r path hm hr =>
    refine ⟨?_, ?_⟩
    · rw [managerTrace_append]
      have hstep := h.managed
      rw [hm] at hstep
      exact hstep.step .submit
    · intro j hj
      obtain rfl := Option.some.inj hj
      refine ⟨{ r with stage := .submitting path }, path, .captured, ?_, rfl, rfl⟩
      show (s.imports.modify k _)[k]? = _
      rw [List.getElem?_modify, hr]
      simp
  | refused => exact h.keep rfl rfl rfl fun _ _ _ hr _ => hr
  | started => exact h.keep rfl rfl rfl hbegun
  | retained _ _ => exact h.keep rfl rfl rfl hbegun
  | waits hget hmove => exact h.keep rfl rfl rfl (hmoved hget hmove)
  | ends hget hmove _ => exact h.keep rfl rfl rfl (hmoved hget hmove)

variable (lib identity) in
theorem runImporters_inv (address : Text) (is : List ImporterInput) :
    ImportersInv lib identity (runImporters lib identity address is).2
      (runImporters lib identity address is).1 := by
  refine (importerSystem lib identity address).run_invariant
    (fun s tr => ImportersInv lib identity tr s) ⟨?_, by simp [importerSystem]⟩ ?_ is
  · exact ⟨⟨[], rfl⟩, by simp [importerSystem]⟩
  · intro i s tr s' e h hs
    exact h.step (importerStep_cases hs)

end Importers

/-! From here on an attempt of one work identity stays retained. `base` is the trace when
that began, and the imports in `fresh` had submitted nothing by then. -/

section Retained

/-- At some moment since `base` the journal held the attempt that is reported. -/
def HeldSince (workId : WorkId) (base tr : List ImporterEvent) (r : AttemptIdentity) : Prop :=
  ∃ a b, tr = base ++ a ++ b ∧ ReportsRetained (managerTrace (base ++ a)) workId r

/-- A submission that leaves nothing new behind. -/
def SubmissionRefuses (held : AttemptIdentity → Prop) : SubmitTransactionWorkResult → Prop
  | .deferred _ _ => True
  | .alreadyRetained r => held r
  | .submitted _ => False

/-- An import that leaves nothing new behind. It may find the beacon already stored. -/
def ImportRefuses (held : AttemptIdentity → Prop) : Option ImportQuicknetRoundResult → Prop
  | none | some .alreadyStored | some (.signerUnavailable _) => True
  | some (.alreadyRetained r) => held r
  | some (.imported _) | some (.pending _ _) => False

def StageRefuses (held : AttemptIdentity → Prop) : ImportStage → Prop
  | .settled _ (some result) => SubmissionRefuses held result
  | .awaitingReceipt _ _ | .readingBeacon _ _ => False
  | _ => True

def MoveRefuses (held : AttemptIdentity → Prop) : ImportMove → Prop
  | .waits stage => StageRefuses held stage
  | .submits _ => True
  | .ends result => ImportRefuses held result

/-- The import has not handed its transaction over yet, or is over. -/
def ImportStage.Unsubmitted : ImportStage → Prop
  | .submitting _ | .settled _ _ | .awaitingReceipt _ _ | .readingBeacon _ _ => False
  | _ => True

variable {held held' : AttemptIdentity → Prop}

theorem SubmissionRefuses.mono {result : SubmitTransactionWorkResult} (hle : ∀ r, held r → held' r)
    (h : SubmissionRefuses held result) : SubmissionRefuses held' result := by
  cases result with
  | alreadyRetained r => exact hle r h
  | deferred _ _ => trivial
  | submitted _ => exact h

theorem ImportRefuses.mono {result : Option ImportQuicknetRoundResult}
    (hle : ∀ r, held r → held' r) (h : ImportRefuses held result) : ImportRefuses held' result := by
  unfold ImportRefuses at h ⊢
  split at h
  · trivial
  · trivial
  · trivial
  · exact hle _ h
  · exact h
  · exact h

theorem StageRefuses.mono {stage : ImportStage} (hle : ∀ r, held r → held' r)
    (h : StageRefuses held stage) : StageRefuses held' stage := by
  unfold StageRefuses at h ⊢
  split at h
  · exact h.mono hle
  · exact h
  · exact h
  · trivial

theorem MoveRefuses.unlessAborted {move : ImportMove} (aborted : Bool)
    (h : MoveRefuses held move) : MoveRefuses held (move.unlessAborted aborted) := by
  cases aborted with
  | true => trivial
  | false => exact h

/-- What an import makes of an answer, from a stage that has submitted nothing. -/
theorem StageRefuses.move {stage : ImportStage} {round : ℤ} {aborted : Bool}
    {answer : ImportAnswer} {move : ImportMove} (h : StageRefuses held stage)
    (hmove : importMove round stage aborted answer = some move) : MoveRefuses held move := by
  have haborted {x : ImportMove} (hx : some (x.unlessAborted aborted) = some move)
      (hfresh : MoveRefuses held x) : MoveRefuses held move := by
    rw [← Option.some.inj hx]
    exact hfresh.unlessAborted aborted
  unfold importMove at hmove
  split at hmove
  · cases hmove
  · cases hmove
  · -- the end of its own submission
    rename_i path result acknowledged
    cases result with
    | none =>
      obtain rfl := Option.some.inj hmove
      trivial
    | some result =>
      cases result with
      | deferred _ _ =>
        obtain rfl := Option.some.inj hmove
        trivial
      | alreadyRetained r =>
        obtain rfl := Option.some.inj hmove
        exact h
      | submitted b => exact h.elim
  · cases hmove
  · obtain rfl := Option.some.inj hmove
    trivial
  · exact haborted hmove trivial
  · rename_i beacon isStored
    refine haborted hmove ?_
    cases isStored with
    | true => trivial
    | false =>
      cases beacon with
      | none => trivial
      | some r =>
        show MoveRefuses held (if (r : ℤ) ≠ round then .ends none else .waits .simulating)
        split <;> trivial
  · obtain rfl := Option.some.inj hmove
    trivial
  · exact haborted hmove trivial
  · exact haborted hmove trivial
  · rename_i path encoded
    cases encoded with
    | true => exact haborted hmove trivial
    | false =>
      obtain rfl := Option.some.inj hmove
      trivial
  · exact h.elim
  · exact h.elim
  · exact h.elim
  · cases hmove

variable {lib : TransactionLibrary} {identity : JournalIdentity} {workId : WorkId} {fresh : ℕ → Prop}
  {base evs : List ImporterEvent} {s s' : Importers} {e : Option ImporterEvent}

theorem HeldSince.append {tr : List ImporterEvent} {r : AttemptIdentity}
    (h : HeldSince workId base tr r) (x : List ImporterEvent) :
    HeldSince workId base (tr ++ x) r := by
  obtain ⟨a, b, rfl, hr⟩ := h
  exact ⟨a, b ++ x, by simp, hr⟩

theorem heldSince_now {r : AttemptIdentity}
    (h : ReportsRetained (managerTrace (base ++ evs)) workId r) :
    HeldSince workId base (base ++ evs) r :=
  ⟨evs, [], by simp, h⟩

/-- A submission that was entered since `base`. -/
def EnteredIn (evs : List ImporterEvent) : Prop := ∃ w, .manager (.entered w) ∈ evs

/-- Nothing was prepared for the identity since `base`, and whatever began since then has
come to nothing, or will. -/
structure RetainedInv (workId : WorkId) (base : List ImporterEvent) (fresh : ℕ → Prop)
    (evs : List ImporterEvent) (s : Importers) : Prop where
  prepared : ∀ a ∈ (managerTrace evs).filterMap (·.prepared?), a.workId ≠ workId
  returned : EachEvent (fun a e => ∀ result, e = .manager (.returned workId result) →
    EnteredIn a → SubmissionRefuses (HeldSince workId base (base ++ a)) result) evs
  ended : ∀ k result, fresh k → .ended k workId result ∈ evs →
    ImportRefuses (HeldSince workId base (base ++ evs)) result
  stages : ∀ (k : ℕ) (r : RoundImport), fresh k → s.imports[k]? = some r →
    r.workId = workId → StageRefuses (HeldSince workId base (base ++ evs)) r.stage
  entered : ∀ k, fresh k → s.submitting = some k → EnteredIn evs

theorem retainedInv_nil (h : ImportersInv lib identity base s)
    (hfresh : ∀ k r, fresh k → s.imports[k]? = some r → r.stage.Unsubmitted) :
    RetainedInv workId base fresh [] s := by
  refine ⟨by simp [managerTrace], eachEvent_nil _, by simp, ?_, ?_⟩
  · intro k r hk hr _
    have hun := hfresh k r hk hr
    cases hstage : r.stage with
    | settled _ _ | awaitingReceipt _ _ | readingBeacon _ _ =>
      rw [hstage] at hun
      exact hun.elim
    | _ => trivial
  · intro k hk hs
    obtain ⟨r, path, _, hr, hpath, _⟩ := h.submitting k hs
    have hun := hfresh k r hk hr
    rw [hpath] at hun
    exact hun.elim

/-- While an attempt is retained, a submission entered since `base` leaves nothing new. -/
theorem RetainedInv.result (h : RetainedInv workId base fresh evs s) (hentered : EnteredIn evs)
    {result : SubmitTransactionWorkResult}
    (hok : ResultOk (managerTrace (base ++ evs)) workId result) :
    SubmissionRefuses (HeldSince workId base (base ++ evs)) result := by
  cases result with
  | deferred _ _ => trivial
  | alreadyRetained r => exact heldSince_now hok
  | submitted b =>
    obtain ⟨-, a, ha, hw, -⟩ := hok
    obtain ⟨w, hw'⟩ := hentered
    have hmem : .entered w ∈ managerTrace evs := List.mem_filterMap.mpr ⟨_, hw', rfl⟩
    rw [managerTrace_append] at ha
    exact h.prepared a (mem_createdAttempts hmem ha) hw

/-- What a step has to show. -/
theorem RetainedInv.extend (h : RetainedInv workId base fresh evs s)
    (hprepared : ∀ a ∈ (managerTrace e.toList).filterMap (·.prepared?), a.workId ≠ workId)
    (hreturned : ∀ result, e = some (.manager (.returned workId result)) → EnteredIn evs →
      SubmissionRefuses (HeldSince workId base (base ++ evs)) result)
    (hended : ∀ k result, fresh k → e = some (.ended k workId result) →
      ImportRefuses (HeldSince workId base (base ++ evs ++ e.toList)) result)
    (hstages : ∀ (k : ℕ) (r : RoundImport), fresh k → s'.imports[k]? = some r →
      r.workId = workId → StageRefuses (HeldSince workId base (base ++ evs)) r.stage)
    (hentered : ∀ k, fresh k → s'.submitting = some k →
      s.submitting = some k ∨ EnteredIn e.toList) :
    RetainedInv workId base fresh (evs ++ e.toList) s' := by
  have happend (r : AttemptIdentity) (hr : HeldSince workId base (base ++ evs) r) :
      HeldSince workId base (base ++ (evs ++ e.toList)) r := by
    rw [← List.append_assoc]
    exact hr.append _
  refine ⟨?_, ?_, ?_, ?_, ?_⟩
  · intro a ha
    rw [managerTrace_append, List.filterMap_append] at ha
    rcases List.mem_append.mp ha with ha | ha
    · exact h.prepared a ha
    · exact hprepared a ha
  · apply h.returned.append_option
    intro x hx result hresult
    exact hreturned result (by rw [hx, hresult])
  · intro k result hk hmem
    rcases List.mem_append.mp hmem with hmem | hmem
    · exact (h.ended k result hk hmem).mono happend
    · rw [← List.append_assoc]
      exact hended k result hk (Option.mem_toList.mp hmem)
  · intro k r hk hr hw
    exact (hstages k r hk hr hw).mono happend
  · intro k hk hs
    rcases hentered k hk hs with hs | ⟨w, hw⟩
    · obtain ⟨w, hw⟩ := h.entered k hk hs
      exact ⟨w, List.mem_append_left _ hw⟩
    · exact ⟨w, List.mem_append_right _ hw⟩

/-- A step of one import, or the start of one. -/
theorem RetainedInv.own (h : RetainedInv workId base fresh evs s)
    (hown : managerTrace e.toList = []) (hsub : s'.submitting = s.submitting)
    (hended : ∀ k result, fresh k → e = some (.ended k workId result) →
      ImportRefuses (HeldSince workId base (base ++ evs ++ e.toList)) result)
    (hstages : ∀ (k : ℕ) (r : RoundImport), fresh k → s'.imports[k]? = some r →
      r.workId = workId → StageRefuses (HeldSince workId base (base ++ evs)) r.stage) :
    RetainedInv workId base fresh (evs ++ e.toList) s' := by
  apply h.extend
  · simp [hown]
  · intro result hx
    rw [hx] at hown
    cases hown
  · exact hended
  · exact hstages
  · intro k _ hk
    exact Or.inl (hsub ▸ hk)

/-- The stages once one more import has begun. -/
theorem RetainedInv.stages_concat (h : RetainedInv workId base fresh evs s) {x : RoundImport}
    (hx : StageRefuses (HeldSince workId base (base ++ evs)) x.stage) :
    ∀ (k : ℕ) (r : RoundImport), fresh k → (s.imports ++ [x])[k]? = some r →
      r.workId = workId → StageRefuses (HeldSince workId base (base ++ evs)) r.stage := by
  intro k r hk hr hw
  rcases Nat.lt_or_ge k s.imports.length with hlt | hge
  · rw [List.getElem?_append_left hlt] at hr
    exact h.stages k r hk hr hw
  · rw [List.getElem?_append_right hge] at hr
    obtain rfl := List.mem_singleton.mp (List.mem_of_getElem? hr)
    exact hx

/-- The stages once one import has moved. -/
theorem RetainedInv.stages_setStage (h : RetainedInv workId base fresh evs s) {j : ℕ}
    {x : RoundImport} {stage : ImportStage} (hj : s.imports[j]? = some x)
    (hx : fresh j → x.workId = workId →
      StageRefuses (HeldSince workId base (base ++ evs)) stage) :
    ∀ (k : ℕ) (r : RoundImport), fresh k → (s.setStage j stage).imports[k]? = some r →
      r.workId = workId → StageRefuses (HeldSince workId base (base ++ evs)) r.stage := by
  intro k r hk hr hw
  obtain ⟨r', hr', hw', hstage⟩ := Importers.setStage_getElem? hr
  rcases hstage with hstage | ⟨rfl, hstage⟩
  · rw [hstage]
    exact h.stages k r' hk hr' (hw'.trans hw)
  · rw [hstage]
    obtain rfl : x = r' := Option.some.inj (hj.symm.trans hr')
    exact hx hk (hw'.trans hw)

/-- The step lemma. The identity is retained when the step begins. -/
theorem RetainedInv.step (h : RetainedInv workId base fresh evs s)
    (hinv : ImportersInv lib identity (base ++ evs) s)
    (hr : s.managed.world.Retains workId) (hs : ImporterStep lib identity s e s') :
    RetainedInv workId base fresh (evs ++ e.toList) s' := by
  cases hs with
  | @manager m x hstep =>
    have hreturnOk := hinv.managed.returnOk hstep
    apply h.extend
    · intro a ha hw
      rw [managerTrace_manager] at ha
      obtain ⟨y, hy, hya⟩ := List.mem_filterMap.mp ha
      have hsign := hinv.managed.prepares hstep
        (show x.bind (·.prepared?) = some a by rw [Option.mem_toList.mp hy]; exact hya)
      rw [hw] at hsign
      exact hinv.managed.not_retains hsign hr
    · intro result hx hentered
      obtain ⟨y, rfl, hy⟩ := Option.map_eq_some_iff.mp hx
      obtain rfl := ImporterEvent.manager.inj hy
      exact h.result hentered (hreturnOk _ rfl)
    · intro k result _ hx
      obtain ⟨y, -, hy⟩ := Option.map_eq_some_iff.mp hx
      cases hy
    · intro k r hk hget hw
      obtain ⟨r', hr', hw', hstage⟩ := Importers.afterManager_getElem? hget
      have hold := h.stages k r' hk hr' (hw'.trans hw)
      rcases hstage with hstage | hstage | ⟨hsub, path, -, ⟨w, result, rfl, hstage⟩ | hstage⟩
      · rw [hstage]
        exact hold
      · rw [hstage]
        trivial
      · -- the submission that ended was the one of this import
        rw [hstage]
        obtain ⟨r'', _, stage, hr'', -, hop⟩ := hinv.submitting k hsub
        obtain rfl : r' = r'' := Option.some.inj (hr'.symm.trans hr'')
        have hwork : w = workId := by
          rcases hinv.managed.submission_step hstep hop with
            ⟨hnot, -⟩ | ⟨result', hx⟩ | ⟨recording, hx⟩
          · exact absurd (hnot _ rfl) (by simp [ManagerEvent.signer?])
          · obtain ⟨rfl, -⟩ := ManagerEvent.returned.inj (Option.some.inj hx)
            exact hw'.trans hw
          · cases hx
        subst hwork
        exact h.result (h.entered k hk hsub) (hreturnOk _ rfl)
      · rw [hstage]
        trivial
    · intro k _ hsub
      exact Or.inl (Importers.afterManager_submitting hsub).1
  | @submits c k r path hm hget =>
    apply h.extend
    · intro a ha
      cases ha
    · intro result hx
      cases hx
    · intro k result _ hx
      cases hx
    · exact h.stages_setStage hget fun _ _ => trivial
    · intro _ _ _
      exact Or.inr ⟨r.workId, by simp⟩
  | refused =>
    rw [Option.toList_none, List.append_nil]
    exact h
  | started =>
    apply h.own
    · rfl
    · rfl
    · intro k result _ hx
      cases hx
    · exact h.stages_concat trivial
  | @retained c w round a hc ha =>
    apply h.own
    · rfl
    · rfl
    · intro k result _ hx
      obtain ⟨-, rfl, rfl⟩ := ImporterEvent.ended.inj (Option.some.inj hx)
      obtain ⟨t, ht, hat, hw⟩ := attemptOf_some ha
      have hcurrent := hinv.managed.current hc
      exact (heldSince_now ⟨t, a, hcurrent.symm.trans ht, hat, hw, rfl⟩).append _
    · exact h.stages_concat trivial
  | @waits k r stage aborted answer hget hmove =>
    apply h.own
    · rfl
    · rfl
    · intro k result _ hx
      cases hx
    · exact h.stages_setStage hget fun hk hw => (h.stages k r hk hget hw).move hmove
  | @ends k r result aborted answer move hget hmove hends =>
    apply h.own
    · rfl
    · rfl
    · intro j result' hj hx
      obtain ⟨rfl, hw, rfl⟩ := ImporterEvent.ended.inj (Option.some.inj hx)
      rcases hends with rfl | rfl
      · trivial
      · have hrefuses := (h.stages k r hj hget hw).move hmove
        exact ImportRefuses.mono (fun _ hr => hr.append _) hrefuses
    · exact h.stages_setStage hget fun _ _ => trivial

variable (lib identity) in
theorem runImporters_concat (address : Text) (is : List ImporterInput) (i : ImporterInput) :
    (∃ s e, importerStep lib identity address i (runImporters lib identity address is).1 = some (s, e) ∧
      runImporters lib identity address (is ++ [i]) =
        (s, (runImporters lib identity address is).2 ++ e.toList)) ∨
    runImporters lib identity address (is ++ [i]) = runImporters lib identity address is := by
  have hrun : runImporters lib identity address (is ++ [i]) =
      (importerSystem lib identity address).next (runImporters lib identity address is) i :=
    System.run_append_singleton _ is i
  rw [hrun]
  unfold System.next
  split
  · exact Or.inr rfl
  · rename_i s e hs
    exact Or.inl ⟨s, e, hs, rfl⟩

/-- The import has not begun or not submitted anything, or is over. -/
def Unsubmitted (s : Importers) (k : ℕ) : Prop :=
  ∀ r, s.imports[k]? = some r → r.stage.Unsubmitted

variable (lib identity) in
/-- The run lemma, by induction on what follows `pre`. -/
theorem runImporters_retained (address : Text) (pre mid : List ImporterInput) (workId : WorkId)
    (hr : ∀ n ≤ mid.length,
      (runImporters lib identity address (pre ++ mid.take n)).1.managed.world.Retains workId) :
    ∃ evs, (runImporters lib identity address (pre ++ mid)).2 =
        (runImporters lib identity address pre).2 ++ evs ∧
      RetainedInv workId (runImporters lib identity address pre).2
        (Unsubmitted (runImporters lib identity address pre).1) evs
        (runImporters lib identity address (pre ++ mid)).1 := by
  induction mid using List.reverseRecOn with
  | nil =>
    have hinv := runImporters_inv lib identity address pre
    rw [List.append_nil]
    exact ⟨[], by simp, retainedInv_nil hinv fun k r hk hr => hk r hr⟩
  | append_singleton mid i ih =>
    have hbefore : ∀ n ≤ mid.length,
        (runImporters lib identity address (pre ++ mid.take n)).1.managed.world.Retains workId := by
      intro n hn
      have htake := hr n (by rw [List.length_append]; omega)
      rwa [List.take_append_of_le_length hn] at htake
    obtain ⟨evs, htrace, hmid⟩ := ih hbefore
    have hnow := hbefore mid.length le_rfl
    rw [List.take_length] at hnow
    have hinv := runImporters_inv lib identity address (pre ++ mid)
    rw [htrace] at hinv
    rw [← List.append_assoc]
    rcases runImporters_concat lib identity address (pre ++ mid) i with ⟨s, e, hs, hrun⟩ | hrun
    · rw [hrun]
      refine ⟨evs ++ e.toList, by rw [htrace, List.append_assoc], ?_⟩
      exact hmid.step hinv hnow (importerStep_cases hs)
    · rw [hrun]
      exact ⟨evs, htrace, hmid⟩

end Retained

section Claim

variable (lib : TransactionLibrary) (identity : JournalIdentity) (address : Text)

/-- While an attempt of the identity is retained: the account is not asked to sign for it and
nothing is prepared for it, no submission entered meanwhile submits anything, and neither does
an import that had submitted nothing before. -/
structure NothingNew (pre mid : List ImporterInput) (workId : WorkId)
    (evs : List ImporterEvent) : Prop where
  signs : ∀ n ≤ mid.length,
    ¬ (runImporters lib identity address (pre ++ mid.take n)).1.managed.world.Signs workId
  prepared : ∀ a ∈ (managerTrace evs).filterMap (·.prepared?), a.workId ≠ workId
  submissions : ∀ a b w result, evs = a ++ .manager (.returned workId result) :: b →
    .manager (.entered w) ∈ a → SubmissionRefuses
      (HeldSince workId (runImporters lib identity address pre).2
        (runImporters lib identity address (pre ++ mid)).2) result
  imports : ∀ k result, Unsubmitted (runImporters lib identity address pre).1 k →
    .ended k workId result ∈ evs → ImportRefuses
      (HeldSince workId (runImporters lib identity address pre).2
        (runImporters lib identity address (pre ++ mid)).2) result

/-- One live attempt for each beacon. -/
theorem one_attempt_per_beacon :
    (∀ chainId chainId' registry registry' round round' workId workId',
      createBeaconWorkId chainId registry round = .ok workId →
      createBeaconWorkId chainId' registry' round' = .ok workId' →
      (workId = workId' ↔ chainId = chainId' ∧ toLowerText registry = toLowerText registry' ∧
        round = round')) ∧
    (∀ chainId registry round workId, createBeaconWorkId chainId registry round = .ok workId →
      isWorkId workId = true) ∧
    (∀ is, ∀ s ∈ (runSigner lib identity is).1.snapshots, (s.attempts.map (·.workId)).Nodup) ∧
    (∀ is workId, (runSigner lib identity is).1.Signs workId →
      ¬ (runSigner lib identity is).1.Retains workId) ∧
    ∀ pre mid workId,
      (∀ n ≤ mid.length,
        (runImporters lib identity address (pre ++ mid.take n)).1.managed.world.Retains workId) →
      ∃ evs, (runImporters lib identity address (pre ++ mid)).2 =
          (runImporters lib identity address pre).2 ++ evs ∧
        NothingNew lib identity address pre mid workId evs := by
  refine ⟨?_, ?_, ?_, fun is workId => runSigner_signs is, ?_⟩
  -- the work ID spells the chain, the registry in lower case and the round
  · intro chainId chainId' registry registry' round round' workId workId' h h'
    constructor
    · rintro rfl
      exact createBeaconWorkId_inj h h'
    · rintro ⟨rfl, hlower, rfl⟩
      exact createBeaconWorkId_lower h h' hlower
  · intro chainId registry round workId h
    exact (createBeaconWorkId_ok h).2.2.2.2.2.1
  · intro is s hs
    exact (runSigner_snapshots is s hs).attempts.2.2.2.2.1
  · intro pre mid workId hr
    obtain ⟨evs, htrace, hinv⟩ := runImporters_retained lib identity address pre mid workId hr
    refine ⟨evs, htrace, ?_, hinv.prepared, ?_, ?_⟩
    -- an attempt would be signed only for work that is not retained
    · intro n hn hsign
      have hmanaged := (runImporters_inv lib identity address (pre ++ mid.take n)).managed
      exact hmanaged.not_retains hsign (hr n hn)
    · intro a b w result heq hentered
      have hrefuses := hinv.returned a _ b heq result rfl ⟨w, hentered⟩
      apply hrefuses.mono
      intro r hheld
      rw [htrace, heq, ← List.append_assoc]
      exact hheld.append _
    · intro k result hk hmem
      rw [htrace]
      exact hinv.ended k result hk hmem

end Claim

section Sample

def zeroAddress : Text := Json.text "0x" ++ List.replicate 40 0x30

def sampleBeacon : WorkId := beaconWorkId 1 zeroAddress 1

/-- A submission whose prepared attempt does not reach the disk. -/
def failedSubmission : List ManagerAction :=
  [.signer (.restart false 10), .submit sampleBeacon, .start] ++
    ((sampleActions.drop 1).take 14).map ManagerAction.signer ++
    [.reconciled false, .transactionPrepared (some ⟨9, [], 0, 21000, .legacy 1⟩) 77 7,
      .signer (.signed (some signedBytes) true), .signer .storeFailed, .signer .resume,
      .attemptPrepared]

def failedRun : List ImporterInput := failedSubmission.map fun action => .manager ⟨1, false, action⟩

/-- An import that finds its beacon in the registry. -/
def storedImport : List ImporterInput :=
  [.importRound 1 false, .settle 0 1 false .done, .settle 0 1 false (.stored true),
    .settle 0 1 false .done]

set_option maxRecDepth 8000 in
theorem failedRun_retains {n : ℕ} (hn : n ≤ storedImport.length) :
    (runImporters sampleLibrary sampleIdentity zeroAddress
      (failedRun ++ storedImport.take n)).1.managed.world.Retains sampleBeacon := by
  have hpending : ∃ c s a, (runImporters sampleLibrary sampleIdentity zeroAddress
      (failedRun ++ storedImport.take n)).1.managed.world = .running c ∧
      c.persistence.pending = some s ∧ s.attempts = [a] ∧ a.workId = sampleBeacon := by
    have hn : n ≤ 4 := hn
    interval_cases n <;> exact ⟨_, _, _, rfl, rfl, rfl, rfl⟩
  obtain ⟨c, s, a, hc, hs, ha, hw⟩ := hpending
  rw [hc]
  exact ⟨s, by simp [World.snapshots, hs], a, by simp [ha], hw⟩

set_option maxRecDepth 8000 in
/-- An import begun while the attempt is retained need not report it, be refused or fail. -/
theorem retained_import_stored : ¬ ∀ (lib : TransactionLibrary) (identity : JournalIdentity)
    (address : Text) (pre mid : List ImporterInput) (workId : WorkId),
    (∀ n ≤ mid.length,
      (runImporters lib identity address (pre ++ mid.take n)).1.managed.world.Retains workId) →
    ∀ k result, (runImporters lib identity address pre).1.imports.length ≤ k →
      .ended k workId result ∈ (runImporters lib identity address (pre ++ mid)).2 →
      result = none ∨ (∃ retained, result = some (.alreadyRetained retained)) ∨
        ∃ blocker, result = some (.signerUnavailable blocker) := by
  intro h
  have hended : .ended 0 sampleBeacon (some .alreadyStored) ∈
      (runImporters sampleLibrary sampleIdentity zeroAddress (failedRun ++ storedImport)).2 := by
    apply List.mem_of_getLast?
    rfl
  have hfresh : (runImporters sampleLibrary sampleIdentity zeroAddress failedRun).1.imports = [] :=
    rfl
  have hclaim := h sampleLibrary sampleIdentity zeroAddress failedRun storedImport sampleBeacon
    (fun n hn => failedRun_retains hn) 0 _ (by rw [hfresh]; exact le_rfl) hended
  simp at hclaim

end Sample

end Quicknet
