import Quicknet.BroadcastSafety

/-! Who may operate the coordinator: one inspection and one operation at a time,
and what an abandoned inspection leaves behind. -/
namespace Quicknet

open Interaction Transition SignerCoordinator

/-- The owner is the inspection that began last, and its promise runs only while
an operation is suspended. -/
structure OwnerInv (c : SignerCoordinator) : Prop where
  generation : ∀ o, c.inspectionOwner = some o → o.generation = c.inspectionGeneration
  running : ∀ o, c.inspectionOwner = some o → o.activeOperation = some .running → c.task ≠ none

/-- A handle on which every call is refused. -/
def Stale (c : SignerCoordinator) (generation : ℕ) : Prop :=
  generation ≤ c.inspectionGeneration ∧ ∀ o, c.owned generation = some o → o.abandoning = true

/-- What a step does to the ownership. -/
inductive OwnerLink (c c' : SignerCoordinator) : Prop
  | begun {o' : InspectionOwner} : c.inspectionOwner = none →
      c'.inspectionGeneration = c.inspectionGeneration+1 → c'.inspectionOwner = some o' →
      o'.generation = c.inspectionGeneration+1 → o'.activeOperation = none → OwnerLink c c'
  | released : c'.inspectionGeneration = c.inspectionGeneration → c'.inspectionOwner = none →
      OwnerLink c c'
  | kept {o o' : InspectionOwner} : c'.inspectionGeneration = c.inspectionGeneration →
      c.inspectionOwner = some o → c'.inspectionOwner = some o' → o'.generation = o.generation →
      (o.abandoning = true → o'.abandoning = true) →
      (o'.activeOperation = some .running → c'.task ≠ none ∨
        o.activeOperation = some .running ∧ c'.task = c.task) →
      OwnerLink c c'

section Links

variable {lib : TransactionLibrary} {identity : JournalIdentity} {c c' : SignerCoordinator}
  {e : Option Event}

theorem OwnerLink.of_same (hg : c'.inspectionGeneration = c.inspectionGeneration)
    (ho : c'.inspectionOwner = c.inspectionOwner) (ht : c'.task ≠ none ∨ c'.task = c.task) :
    OwnerLink c c' := by
  cases hc : c.inspectionOwner with
  | none => exact .released hg (ho.trans hc)
  | some o =>
    refine .kept hg hc (ho.trans hc) rfl (fun h => h) fun hrun => ?_
    exact ht.imp (fun h => h) fun h => ⟨hrun, h⟩

/-- An operation of the owner that ends leaves its promise settled. -/
theorem OwnerLink.of_settled {f : InspectionOwner → InspectionOwner}
    (hg : c'.inspectionGeneration = c.inspectionGeneration)
    (ho : c'.inspectionOwner = c.inspectionOwner.map f)
    (hf : ∀ o, (f o).generation = o.generation ∧ (f o).abandoning = o.abandoning ∧
      (f o).activeOperation ≠ some .running) : OwnerLink c c' := by
  cases hc : c.inspectionOwner with
  | none => exact .released hg (by rw [ho, hc]; rfl)
  | some o =>
    obtain ⟨hgen, hab, hrun⟩ := hf o
    refine .kept hg hc (by rw [ho, hc]; rfl) hgen (fun h => hab.trans h) fun h => absurd h hrun

theorem OwnerMove.link {o o' : InspectionOwner} {revoke : Bool} (hsome : c.inspectionOwner = some o)
    (hm : OwnerMove o e revoke o') : OwnerLink c (c.moveOwner o' revoke) := by
  cases hm with
  | abandoned _ => exact .kept rfl hsome rfl rfl (fun _ => rfl) fun h => Or.inr ⟨h, rfl⟩
  | _ => exact .kept rfl hsome rfl rfl (fun h => h) fun h => by cases h

theorem CoordinatorStep.link (ho : OwnerPhase c.inspectionOwner c.task)
    (hstep : CoordinatorStep lib identity c e c') : OwnerLink c c' := by
  cases hstep with
  | begun hno _ _ _ => exact .begun hno rfl rfl rfl rfl
  | owner hsome hm => exact hm.link hsome
  | finished _ _ _ _ _ _ _ _ => exact .released rfl rfl
  | abandonmentCompleted _ _ _ => exact .released rfl rfl
  | headOpening hsome _ _ _ _ _ =>
    exact .kept rfl hsome rfl rfl (fun h => h) fun _ => Or.inl (by simp)
  | headAnswered hsome _ _ => exact .kept rfl hsome rfl rfl (fun h => h) fun h => by cases h
  | recovering hsome _ _ _ _ _ _ _ =>
    exact .kept rfl hsome rfl rfl (fun h => h) fun _ => Or.inl (by simp)
  | inspecting hsome _ _ _ _ _ _ _ _ _ =>
    exact .kept rfl hsome rfl rfl (fun h => h) fun _ => Or.inl (by simp)
  | inspectionRefused hsome _ _ _ _ =>
    exact .kept rfl hsome rfl rfl (fun h => h) fun h => by cases h
  | recoverEnded _ _ _ _ => exact .of_settled rfl rfl fun o => ⟨rfl, rfl, by simp⟩
  | inclusionsEnded _ _ _ _ _ => exact .of_settled rfl rfl fun o => ⟨rfl, rfl, by simp⟩
  | inclusionsFailed hsome _ _ => exact .kept rfl hsome rfl rfl (fun h => h) fun h => by cases h
  | signing _ _ _ _ _ _ _ => exact .of_same rfl rfl (Or.inl (by simp))
  | prepareEnded ht =>
    rw [ht] at ho
    exact .released rfl ho
  | wrote hplan _ _ => exact .of_same (by cases hplan <;> rfl) (by cases hplan <;> rfl) (Or.inl (by simp))
  | broadcastEnded hsend => exact .released rfl hsend.owner
  | sentAgain _ _ => exact .of_same rfl rfl (Or.inl (by simp))
  | retrying _ _ _ _ _ => exact .of_same rfl rfl (Or.inl (by simp))
  | acked _ _ => exact .of_same rfl rfl (Or.inl (by simp))
  | @storeFailed k _ _ _ ht hk _ _ _ =>
    rw [ht] at ho
    cases k with
    | retry => exact .released rfl ho
    | own w =>
      -- the write of an operation that runs without an owner
      unfold OwnerPhase OwnsWrite at ho
      simp only [hk w rfl] at ho
      exact .released rfl ho
  | storeFailedOwned _ _ _ _ _ => exact .of_settled rfl rfl fun o => ⟨rfl, rfl, by simp⟩
  | @resumed w _ _ ht hr =>
    have howner := hr.owner
    cases hg : w.generation? with
    | none =>
      rw [ht] at ho
      unfold OwnerPhase OwnsWrite at ho
      simp only [hg] at ho
      simp only [hg, Option.isSome_none, Bool.false_eq_true, if_false] at howner
      exact .released hr.generation (howner.trans ho)
    | some g =>
      simp only [hg, Option.isSome_some, if_true] at howner
      exact .of_settled hr.generation howner fun o => ⟨rfl, rfl, by simp⟩
  | sentMarked _ => exact .of_same rfl rfl (Or.inl (by simp))
  | retried ht =>
    rw [ht] at ho
    exact .released rfl ho
  | sendSettled ht =>
    rw [ht] at ho
    exact .released rfl ho
  | observing _ => exact .of_same rfl rfl (Or.inr rfl)

theorem OwnerInv.step (h : OwnerInv c) (hl : OwnerLink c c') : OwnerInv c' := by
  constructor
  · intro x hx
    cases hl with
    | begun _ hg ho hgen _ =>
      obtain rfl := Option.some.inj (ho.symm.trans hx)
      rw [hgen, hg]
    | released _ ho => exact absurd (ho.symm.trans hx) (by simp)
    | kept hg hsome ho hgen _ _ =>
      obtain rfl := Option.some.inj (ho.symm.trans hx)
      rw [hgen, hg]
      exact h.generation _ hsome
  · intro x hx hrun
    cases hl with
    | begun _ _ ho _ ha =>
      obtain rfl := Option.some.inj (ho.symm.trans hx)
      exact absurd (ha.symm.trans hrun) (by simp)
    | released _ ho => exact absurd (ho.symm.trans hx) (by simp)
    | kept _ hsome ho _ _ ht =>
      obtain rfl := Option.some.inj (ho.symm.trans hx)
      rcases ht hrun with ht | ⟨hrun', ht⟩
      · exact ht
      · rw [ht]
        exact h.running _ hsome hrun'

theorem Created.ownerInv {read : Option TransactionJournalSnapshot} (h : Created read c) :
    OwnerInv c := by
  constructor
  · intro o ho
    rw [h.owner] at ho
    cases ho
  · intro o ho
    rw [h.owner] at ho
    cases ho

theorem owned_iff {generation : ℕ} {o : InspectionOwner} :
    c.owned generation = some o ↔ c.inspectionOwner = some o ∧ o.generation = generation := by
  unfold owned
  rw [Option.filter_eq_some_iff]
  simp

theorem Stale.step {generation : ℕ} (h : Stale c generation) (hl : OwnerLink c c') :
    Stale c' generation := by
  obtain ⟨hle, hab⟩ := h
  cases hl with
  | begun _ hg ho hgen _ =>
    refine ⟨by omega, fun x hx => ?_⟩
    obtain ⟨hx, hxg⟩ := owned_iff.mp hx
    obtain rfl := Option.some.inj (ho.symm.trans hx)
    omega
  | released hg ho =>
    refine ⟨by omega, fun x hx => ?_⟩
    exact absurd (ho.symm.trans (owned_iff.mp hx).1) (by simp)
  | kept hg hsome ho hgen hmono _ =>
    refine ⟨by omega, fun x hx => ?_⟩
    obtain ⟨hx, hxg⟩ := owned_iff.mp hx
    obtain rfl := Option.some.inj (ho.symm.trans hx)
    exact hmono (hab _ (owned_iff.mpr ⟨hsome, hgen.symm.trans hxg⟩))

end Links

/-! What the authorization owes to finished inspections. -/

/-- The event ends the evidence of an inspection. -/
def Event.voids : Event → Bool
  | .abandoned _ | .headFailed _ => true
  | _ => false

/-- An inclusion pass that found every attempt included. -/
def IsInclusionPass (w : JournalWrite) : Prop := w.checks = some true

/-- A recovery of a present journal, or an inclusion pass. -/
def IsPass : JournalWrite → Prop
  | .recovery _ _ _ _ _ _ | .inclusions _ _ _ _ _ _ _ _ _ _ => True
  | _ => False

/-- The operation of the inspection that completed last is of kind `K`. -/
def PassOf (K : JournalWrite → Prop) (tr : List Event) (generation : ℕ) : Prop :=
  ∃ pre w permit, tr = pre ++ [.completed w permit] ∧ K w ∧ w.generation? = some generation

/-- An inspection that began, was neither abandoned nor failed, completed an
operation of kind `K`, and finished. -/
def Vetted (K : JournalWrite → Prop) (tr after : List Event) : Prop :=
  ∃ pre g mid w permit, tr = pre ++ .begun g :: (mid ++ .completed w permit :: .finished g :: after) ∧
    K w ∧ w.generation? = some g ∧ ∀ x ∈ mid, x.endsInspection = false

/-- The last such inspection, after which no evidence was voided. -/
def StillVetted (K : JournalWrite → Prop) (tr : List Event) : Prop :=
  ∃ after, Vetted K tr after ∧ ∀ x ∈ after, x.voids = false

/-- What an authorization rests on, with and without an owner. -/
def Credited (K : JournalWrite → Prop) (tr : List Event) : Option InspectionOwner → Prop
  | none => StillVetted K tr
  | some o => PassOf K tr o.generation

/-- A preparation is under way whose permission is not issued yet. -/
def Preparing : Option Task → Prop
  | some (.signing _ _ _ _ _ _ _) | some (.storing (.own (.prepared _)))
  | some (.saved (.own (.prepared _))) => True
  | _ => False

structure CreditInv (tr : List Event) (c : SignerCoordinator) : Prop where
  checked : c.inclusionChecksComplete = true ∨ retainedFlag c.task = true →
    Credited IsInclusionPass tr c.inspectionOwner
  permit : c.broadcastPermit ≠ none → Credited IsPass tr c.inspectionOwner
  preparing : Preparing c.task → StillVetted IsInclusionPass tr

section Credit

variable {lib : TransactionLibrary} {identity : JournalIdentity} {c c' : SignerCoordinator}
  {e : Option Event} {tr : List Event} {K : JournalWrite → Prop}

theorem IsInclusionPass.isPass {w : JournalWrite} (h : IsInclusionPass w) : IsPass w := by
  cases w with
  | inclusions _ _ _ _ _ _ _ _ _ _ => trivial
  | _ => cases h

theorem IsInclusionPass.generation {w : JournalWrite} (h : IsInclusionPass w) :
    ∃ g, w.generation? = some g := by
  cases w with
  | inclusions g _ _ _ _ _ _ _ _ _ => exact ⟨g, rfl⟩
  | _ => cases h

theorem StillVetted.mono {K' : JournalWrite → Prop} (h : StillVetted K tr)
    (hk : ∀ w, K w → K' w) : StillVetted K' tr := by
  obtain ⟨after, ⟨pre, g, mid, w, permit, htr, hw, hg, hmid⟩, hafter⟩ := h
  exact ⟨after, ⟨pre, g, mid, w, permit, htr, hk w hw, hg, hmid⟩, hafter⟩

theorem StillVetted.append_option (h : StillVetted K tr) (he : ∀ x, e = some x → x.voids = false) :
    StillVetted K (tr ++ e.toList) := by
  cases e with
  | none => simpa using h
  | some x =>
    obtain ⟨after, ⟨pre, g, mid, w, permit, rfl, hw, hg, hmid⟩, hafter⟩ := h
    refine ⟨after ++ [x], ⟨pre, g, mid, w, permit, by simp, hw, hg, hmid⟩, ?_⟩
    intro y hy
    rcases List.mem_append.mp hy with hy | hy
    · exact hafter y hy
    · rw [List.mem_singleton.mp hy]
      exact he x rfl

/-- A live inspection that finishes right after its pass is vetted. -/
theorem PassOf.finish {g : ℕ} (h : PassOf K tr g) (hlive : LiveInspection tr g) :
    StillVetted K (tr ++ [.finished g]) := by
  obtain ⟨pre, w, permit, rfl, hw, hg⟩ := h
  obtain ⟨before, b, since, heq, rfl, hsince⟩ := hlive
  -- the pass is the last event, so it lies after the inspection began
  have hlast : since ≠ [] := by
    rintro rfl
    have hb := (List.append_inj' heq rfl).2
    simp at hb
  obtain ⟨mid, x, rfl⟩ := List.eq_nil_or_concat since |>.resolve_left hlast
  rw [List.concat_eq_append] at heq hsince
  have hassoc : before ++ .begun g :: (mid ++ [x]) = (before ++ .begun g :: mid) ++ [x] := by simp
  rw [hassoc] at heq
  obtain ⟨rfl, hx⟩ := List.append_inj' heq rfl
  obtain rfl := List.singleton_inj.mp hx
  refine ⟨[], ⟨before, g, mid, w, permit, by simp, hw, hg, ?_⟩, by simp⟩
  exact fun y hy => hsince y (List.mem_append_left _ hy)

theorem Credited.resumed {w : JournalWrite} {permit : Option AttemptId} {g : ℕ}
    (ht : c.task = some (.saved (.own w))) (ho : OwnerPhase c.inspectionOwner c.task)
    (hr : Resumed c w permit c') (hw : K w) (hg : w.generation? = some g) :
    Credited K (tr ++ [.completed w permit]) c'.inspectionOwner := by
  rw [ht] at ho
  obtain ⟨o, hsome, hgen⟩ := hr.owner_generation ho hg
  rw [hsome]
  exact ⟨tr, w, permit, rfl, hw, by rw [hg, hgen]⟩

/-- A permission is issued by a recovery, by an inclusion pass or by a preparation. -/
theorem JournalWrite.Permits.isPass {w : JournalWrite} {id : AttemptId} (h : w.Permits id) :
    (∃ a, w = .prepared a) ∨ IsPass w ∧ ∃ g, w.generation? = some g := by
  cases w with
  | prepared a => exact Or.inl ⟨a, rfl⟩
  | recovery g _ _ _ _ _ => exact Or.inr ⟨trivial, g, rfl⟩
  | inclusions g _ _ _ _ _ _ _ _ _ => exact Or.inr ⟨trivial, g, rfl⟩
  | _ => cases h

/-- With an owner nothing is being prepared. -/
theorem OwnerPhase.not_preparing {o : InspectionOwner} {t : Option Task}
    (h : OwnerPhase (some o) t) : ¬ Preparing t := by
  intro hp
  cases t with
  | none => exact hp
  | some t =>
    cases t with
    | signing _ _ _ _ _ _ _ => cases h
    | storing k =>
      cases k with
      | retry => exact hp
      | own w =>
        cases w with
        | prepared _ => cases h
        | _ => exact hp
    | saved k =>
      cases k with
      | retry => exact hp
      | own w =>
        cases w with
        | prepared _ => cases h
        | _ => exact hp
    | _ => exact hp

/-- A property of the trace that an open gate gives, and that no event of a
preparation takes back, holds while one is under way. -/
theorem preparing_step {V : List Event → Prop} (ho : OwnerPhase c.inspectionOwner c.task)
    (hopen : c.inspectionOwner = none → c.inclusionChecksComplete = true → V tr)
    (hprep : Preparing c.task → V tr)
    (hkeep : ∀ x : Event, x.voids = false → x ≠ .retried → V tr → V (tr ++ [x]))
    (hstep : CoordinatorStep lib identity c e c') : Preparing c'.task → V (tr ++ e.toList) := by
  intro hp
  have hsame (hc : Preparing c.task) : V (tr ++ (none : Option Event).toList) := by
    change V (tr ++ [])
    rw [List.append_nil]
    exact hprep hc
  -- a preparation is entered by its signing and left by the end of its save
  cases hstep with
  | signing hno _ _ _ hgate _ _ =>
    obtain ⟨_, hs⟩ := gateOpen_of_status hgate
    change V (tr ++ [])
    rw [List.append_nil]
    exact hopen hno hs.checked
  | wrote hplan _ _ =>
    cases hplan with
    | prepared ht _ _ =>
      apply hkeep _ rfl (by simp) (hprep _)
      rw [ht]
      trivial
    | _ => cases hp
  | @acked k _ ht _ =>
    apply hkeep _ rfl (by simp) (hprep _)
    rw [ht]
    cases k with
    | retry => cases hp
    | own w =>
      cases w with
      | prepared a => trivial
      | _ => cases hp
  | begun _ _ _ _ => exact hkeep _ rfl (by simp) (hprep hp)
  | owner hsome _ =>
    rw [hsome] at ho
    exact absurd hp ho.not_preparing
  | finished _ _ _ _ _ _ _ _ => exact hkeep _ rfl (by simp) (hprep hp)
  | abandonmentCompleted _ _ _ => exact hsame hp
  | observing _ => exact hsame hp
  | resumed _ hr =>
    rw [hr.task] at hp
    cases hp
  | _ => cases hp

theorem CreditInv.preparing_step (ho : OwnerPhase c.inspectionOwner c.task) (h : CreditInv tr c)
    (hstep : CoordinatorStep lib identity c e c') :
    Preparing c'.task → StillVetted IsInclusionPass (tr ++ e.toList) := by
  refine Quicknet.preparing_step ho ?_ h.preparing ?_ hstep
  · intro hno hc
    have hcredit := h.checked (Or.inl hc)
    rw [hno] at hcredit
    exact hcredit
  · intro x hx _ hv
    refine hv.append_option (e := some x) ?_
    intro y hy
    rw [← Option.some.inj hy]
    exact hx

theorem CreditInv.step (hi : JournalInv (view tr) c) (ha : ActionInv tr c) (h : CreditInv tr c)
    (hstep : CoordinatorStep lib identity c e c') : CreditInv (tr ++ e.toList) c' := by
  obtain ⟨_, hauth⟩ := ha.authorization.step hi ha.owner hstep
  have hkeep {K : JournalWrite → Prop} {owner owner' : Option InspectionOwner}
      (hc : Credited K tr owner)
      (hg : owner'.map (·.generation) = owner.map (·.generation)) : Credited K tr owner' := by
    cases owner with
    | none =>
      rw [Option.map_none, Option.map_eq_none_iff] at hg
      rw [hg]
      exact hc
    | some o =>
      obtain ⟨o', rfl, hgen⟩ := Option.map_eq_some_iff.mp hg
      unfold Credited at hc ⊢
      simp only at hc ⊢
      rw [hgen]
      exact hc
  -- an inspection that finishes was not abandoned and its bracket did not fail
  have hlive {o : InspectionOwner} (he : e = some (.finished o.generation)) :
      LiveInspection tr o.generation := ha.actionOk hstep _ he
  have hfinish {K : JournalWrite → Prop} {o : InspectionOwner} (hsome : c.inspectionOwner = some o)
      (hno : c'.inspectionOwner = none) (he : e = some (.finished o.generation))
      (hc : Credited K tr c.inspectionOwner) : Credited K (tr ++ e.toList) c'.inspectionOwner := by
    rw [hsome] at hc
    rw [hno, he]
    exact hc.finish (hlive he)
  refine ⟨?_, ?_, h.preparing_step ha.owner hstep⟩
  · intro hc'
    cases hauth with
    | revoked hun hret =>
      rcases hc' with hc' | hc'
      · exact absurd (hun.2.symm.trans hc') (by simp)
      · exact absurd (hret.symm.trans hc') (by simp)
    | kept he _ hflag hgen =>
      rw [he]
      change Credited _ (tr ++ []) _
      rw [List.append_nil]
      exact hkeep (h.checked (hflag hc')) hgen
    | finished hsome hno he _ hflag ht =>
      rw [hflag, ht] at hc'
      exact hfinish hsome hno he (h.checked hc')
    | @resumed w permit hun ht he hr =>
      rw [he]
      rcases hc' with hc' | hc'
      · rw [hr.checked, hun.2] at hc'
        have hw : IsInclusionPass w := by
          cases hchecks : w.checks with
          | none => simp [hchecks] at hc'
          | some b =>
            rw [hchecks, Option.getD_some] at hc'
            rw [IsInclusionPass, hchecks, hc']
        obtain ⟨g, hg⟩ := hw.generation
        exact Credited.resumed ht ha.owner hr hw hg
      · rw [hr.task] at hc'
        cases hc'
  · intro hp'
    cases hauth with
    | revoked hun _ => exact absurd hun.1 hp'
    | kept he hpermit _ hgen =>
      rw [he]
      change Credited _ (tr ++ []) _
      rw [List.append_nil]
      refine hkeep (h.permit ?_) hgen
      obtain ⟨id, hid⟩ := Option.ne_none_iff_exists'.mp hp'
      rw [hpermit id hid]
      simp
    | finished hsome hno he hpermit _ _ =>
      rw [hpermit] at hp'
      exact hfinish hsome hno he (h.permit hp')
    | @resumed w permit hun ht he hr =>
      rw [he]
      rw [hr.broadcastPermit, hun.1] at hp'
      cases permit with
      | none => exact absurd rfl hp'
      | some id =>
        rcases (hr.permits id rfl).isPass with ⟨a, rfl⟩ | ⟨hw, g, hg⟩
        · -- the preparation began behind an open gate, without an owner
          have hvetted := h.preparing (by rw [ht]; trivial)
          have hown := ha.owner
          rw [ht] at hown
          have howner : c'.inspectionOwner = none := by
            rw [hr.owner]
            exact hown
          rw [howner]
          have hadd := hvetted.append_option (e := some (.completed (.prepared a) (some id)))
            (by simp [Event.voids])
          exact hadd.mono fun _ => IsInclusionPass.isPass
        · exact Credited.resumed ht ha.owner hr hw hg

theorem Created.creditInv {read : Option TransactionJournalSnapshot} (h : Created read c) :
    CreditInv tr c := by
  refine ⟨?_, ?_, ?_⟩
  · rintro (hc | hc)
    · rw [h.inclusionChecksComplete] at hc
      cases hc
    · rw [h.task] at hc
      cases hc
  · intro hp
    exact absurd h.broadcastPermit hp
  · intro hp
    rw [h.task] at hp
    cases hp

end Credit

/-! Runs. -/

section Runs

variable (lib : TransactionLibrary) (identity : JournalIdentity)

/-- What every reachable coordinator satisfies about its owner. -/
structure OwnershipInv (tr : List Event) (c : SignerCoordinator) : Prop where
  action : ActionInv tr c
  owner : OwnerInv c
  credit : CreditInv tr c

theorem runSigner_ownership (is : List Input) {c : SignerCoordinator}
    (hc : (runSigner lib identity is).1 = .running c) :
    OwnershipInv (runSigner lib identity is).2 c := by
  refine (runSigner_running lib identity OwnershipInv (fun _ _ => True) ?_ ?_
    (fun _ _ => trivial) (fun _ _ => trivial) (fun _ _ _ => trivial) is).2 c hc
  · intro tr read c h _
    exact ⟨h.actionInv, h.ownerInv, h.creditInv⟩
  · intro tr c e c' hr _ h hstep
    refine ⟨fun _ _ => trivial, h.action.step hr.journal hstep, ?_, ?_⟩
    · exact h.owner.step (hstep.link h.action.owner)
    · exact h.credit.step hr.journal h.action hstep

end Runs

/-! Calls that are refused, and the release of an abandoned inspection. -/

/-- The actions that may start an operation of the coordinator. -/
def Action.startsOperation : Action → Bool
  | .startOperation | .prepareAttempt _ _ _ _ | .broadcastAttempt _ | .retryPersistence => true
  | _ => false

/-- The calls that no inspection may own the coordinator for. -/
def Action.needsNoOwner : Action → Bool
  | .beginInspection | .prepareAttempt _ _ _ _ | .broadcastAttempt _ | .retryPersistence => true
  | _ => false

/-- The handle that a call is made on. -/
def Action.handle? : Action → Option ℕ
  | .callOwned g _ | .finishInspection g | .abandonInspection g => some g
  | _ => none

section Refusals

variable {lib : TransactionLibrary} {identity : JournalIdentity} {c c' : SignerCoordinator}
  {e : Option Event} {i : Input}

theorem coordinatorStep_owned (ho : c.inspectionOwner ≠ none)
    (hi : i.action.needsNoOwner = true) : coordinatorStep lib identity i c = none := by
  have hun : c.assertAvailable = false := by
    cases hc : c.inspectionOwner with
    | none => exact absurd hc ho
    | some o => simp [assertAvailable, hc]
  obtain ⟨now, action⟩ := i
  cases action with
  | beginInspection => simp [coordinatorStep, beginInspection, hun]
  | prepareAttempt _ _ _ _ => simp [coordinatorStep, prepareAttempt, hun]
  | broadcastAttempt _ => simp [coordinatorStep, broadcastAttempt, hun]
  | retryPersistence => simp [coordinatorStep, retryPersistence, hun]
  | _ => cases hi

/-- No operation starts while another is suspended. -/
theorem coordinatorStep_suspended {v : JournalView} (hj : JournalInv v c)
    (ho : OwnerPhase c.inspectionOwner c.task) (ht : c.task ≠ none)
    (hi : i.action.startsOperation = true) : coordinatorStep lib identity i c = none := by
  cases hc : c.inspectionOwner with
  | none =>
    have hbusy : c.busy = true := by
      by_contra hb
      exact ht (ho.idle hj hc (by simpa using hb))
    have hun : c.assertAvailable = false := by simp [assertAvailable, hbusy]
    obtain ⟨now, action⟩ := i
    cases action with
    | startOperation => simp [coordinatorStep, startOperation, hc]
    | prepareAttempt _ _ _ _ => simp [coordinatorStep, prepareAttempt, hun]
    | broadcastAttempt _ => simp [coordinatorStep, broadcastAttempt, hun]
    | retryPersistence => simp [coordinatorStep, retryPersistence, hun]
    | _ => cases hi
  | some o =>
    by_cases hneeds : i.action.needsNoOwner = true
    · exact coordinatorStep_owned (by simp [hc]) hneeds
    · obtain ⟨now, action⟩ := i
      cases action with
      | startOperation =>
        obtain ⟨t, ht⟩ := Option.ne_none_iff_exists'.mp ht
        rw [hc, ht] at ho
        simp [coordinatorStep, startOperation, hc, ho.running]
      | prepareAttempt _ _ _ _ => exact absurd rfl hneeds
      | broadcastAttempt _ => exact absurd rfl hneeds
      | retryPersistence => exact absurd rfl hneeds
      | _ => cases hi

theorem coordinatorStep_stale {g : ℕ} (h : Stale c g) (hi : i.action.handle? = some g) :
    coordinatorStep lib identity i c = none := by
  obtain ⟨now, action⟩ := i
  have hcases : c.owned g = none ∨ ∃ o, c.owned g = some o ∧ o.abandoning = true := by
    cases hc : c.owned g with
    | none => exact Or.inl rfl
    | some o => exact Or.inr ⟨o, rfl, h.2 o hc⟩
  cases action with
  | callOwned g' call =>
    obtain rfl : g' = g := Option.some.inj hi
    rcases hcases with hn | ⟨o, ho, hab⟩
    · simp [coordinatorStep, callOwned, hn]
    · simp [coordinatorStep, callOwned, ho, assertInspectionWorkAllowed, hab]
  | finishInspection g' =>
    obtain rfl : g' = g := Option.some.inj hi
    rcases hcases with hn | ⟨o, ho, hab⟩
    · simp [coordinatorStep, finishInspection, hn]
    · simp [coordinatorStep, finishInspection, ho, hab]
  | abandonInspection g' =>
    obtain rfl : g' = g := Option.some.inj hi
    rcases hcases with hn | ⟨o, ho, hab⟩
    · simp [coordinatorStep, abandonInspection, hn]
    · simp [coordinatorStep, abandonInspection, ho, hab]
  | _ => cases hi

/-- A finished handle, and one whose abandonment began, is stale. -/
theorem stale_of_ended (hown : OwnerInv c) {g : ℕ}
    (hi : i.action = .finishInspection g ∨ i.action = .abandonInspection g)
    (h : coordinatorStep lib identity i c = some (c', e)) : Stale c' g := by
  obtain ⟨now, action⟩ := i
  rcases hi with rfl | rfl
  · obtain ⟨o, ho, h⟩ := Option.bind_eq_some_iff.mp h
    obtain ⟨hsome, rfl⟩ := owned_iff.mp ho
    split_ifs at h
    obtain ⟨rfl, _⟩ := Prod.mk.inj (Option.some.inj h)
    exact ⟨(hown.generation o hsome).le, fun x hx => by cases (owned_iff.mp hx).1⟩
  · obtain ⟨o, ho, h⟩ := Option.bind_eq_some_iff.mp h
    obtain ⟨hsome, rfl⟩ := owned_iff.mp ho
    split_ifs at h
    rw [updateOwner_of_some hsome] at h
    obtain ⟨rfl, _⟩ := Prod.mk.inj (Option.some.inj h)
    refine ⟨(hown.generation o hsome).le, fun x hx => ?_⟩
    rw [← Option.some.inj (owned_iff.mp hx).1]

/-- A superseded handle is stale. -/
theorem stale_of_superseded (hown : OwnerInv c) {g : ℕ} (hg : g < c.inspectionGeneration) :
    Stale c g := by
  refine ⟨hg.le, fun o ho => ?_⟩
  obtain ⟨hsome, rfl⟩ := owned_iff.mp ho
  exact absurd (hown.generation o hsome) (by omega)

theorem finishInspection_refused {now : Timestamp} {g : ℕ} {o : InspectionOwner}
    (ho : c.owned g = some o)
    (hb : o.headBracket.isOpened = true ∨ o.headBracket = .failed) :
    c.finishInspection now g = none := by
  unfold finishInspection
  rcases hb with hb | hb
  · simp [ho, hb]
  · simp [ho, hb]

/-! An owner that is being abandoned. -/

/-- It starts nothing, and only its release ends its ownership. -/
theorem CoordinatorStep.abandoning {o : InspectionOwner} (hsome : c.inspectionOwner = some o)
    (hab : o.abandoning = true) (hstep : CoordinatorStep lib identity c e c') :
    c.task = none → c'.task = none := by
  intro ht
  have hsame {x : InspectionOwner} (hx : c.inspectionOwner = some x) : x.abandoning = true := by
    rw [← Option.some.inj (hsome.symm.trans hx)]
    exact hab
  have hno (hx : c.inspectionOwner = none) : c'.task = none :=
    absurd (hsome.symm.trans hx) (by simp)
  have htask {t : Task} (hx : c.task = some t) : c'.task = none :=
    absurd (ht.symm.trans hx) (by simp)
  cases hstep with
  | begun hx _ _ _ => exact hno hx
  | owner _ _ => exact ht
  | finished _ _ _ _ _ _ _ _ => exact ht
  | abandonmentCompleted _ _ _ => exact ht
  | headOpening hx _ ha _ _ _ => exact absurd ((hsame hx).symm.trans ha) (by simp)
  | recovering hx _ ha _ _ _ _ _ => exact absurd ((hsame hx).symm.trans ha) (by simp)
  | inspecting hx _ ha _ _ _ _ _ _ _ => exact absurd ((hsame hx).symm.trans ha) (by simp)
  | signing hx _ _ _ _ _ _ => exact hno hx
  | wrote hplan _ _ =>
    cases hplan with
    | prepared hx _ _ => exact htask hx
    | broadcast hsend _ => exact hno hsend.owner
    | bootstrap _ hx _ _ => exact htask hx
    | recovery _ hx _ _ _ => exact htask hx
    | inclusions _ hx _ _ _ => exact htask hx
  | sentAgain hsend _ => exact hno hsend.owner
  | retrying hx _ _ _ _ => exact hno hx
  | acked hx _ => exact htask hx
  | resumed hx _ => exact htask hx
  | sentMarked hx => exact htask hx
  | observing _ => exact ht
  | _ => rfl

/-- A call registered before the abandonment is rejected without effect. -/
theorem startOperation_abandoning {now : Timestamp} {o : InspectionOwner}
    (hsome : c.inspectionOwner = some o) (hab : o.abandoning = true) :
    c.startOperation now =
      match o.activeOperation with
      | some (.queued _) => some (c.setActive (some (.settled true)), none)
      | _ => none := by
  unfold startOperation
  rw [hsome, Option.bind_some]
  have hwork : c.assertInspectionWorkAllowed o = false := by
    simp [assertInspectionWorkAllowed, hab]
  cases ha : o.activeOperation with
  | none => rfl
  | some a => cases a <;> simp [hwork]

end Refusals

section Release

variable (lib : TransactionLibrary) (identity : JournalIdentity)

/-- The coordinator after an input, which it may refuse. -/
def advance (i : Input) (c : SignerCoordinator) : SignerCoordinator :=
  ((coordinatorStep lib identity i c).map (·.1)).getD c

variable {lib identity} {c : SignerCoordinator}

/-- An input other than a crash is refused, or makes one step of the process. -/
theorem runSigner_process {is : List Input} {i : Input}
    (hc : (runSigner lib identity is).1 = .running c) (hi : i.action ≠ .crash) :
    coordinatorStep lib identity i c = none ∧
      runSigner lib identity (is ++ [i]) = runSigner lib identity is ∨
    ∃ c' e, coordinatorStep lib identity i c = some (c', e) ∧
      runSigner lib identity (is ++ [i]) = (.running c', (runSigner lib identity is).2 ++ e.toList) := by
  have hworld : worldStep lib identity i (.running c) =
      (coordinatorStep lib identity i c).map fun r => (.running r.1, r.2) := by
    simp only [worldStep]
  have hnext : runSigner lib identity (is ++ [i]) =
      (signerSystem lib identity).next (runSigner lib identity is) i :=
    System.run_append_singleton _ is i
  rw [hnext]
  unfold System.next
  split
  · rename_i hstep
    change worldStep lib identity i (runSigner lib identity is).1 = none at hstep
    rw [hc, hworld, Option.map_eq_none_iff] at hstep
    exact Or.inl ⟨hstep, rfl⟩
  · rename_i t e hstep
    change worldStep lib identity i (runSigner lib identity is).1 = some (t, e) at hstep
    rw [hc, hworld] at hstep
    obtain ⟨r, hr, heq⟩ := Option.map_eq_some_iff.mp hstep
    obtain ⟨rfl, rfl⟩ := Prod.mk.inj heq
    exact Or.inr ⟨r.1, r.2, hr, rfl⟩

theorem runSigner_advance {is : List Input} {i : Input}
    (hc : (runSigner lib identity is).1 = .running c) (hi : i.action ≠ .crash) :
    (runSigner lib identity (is ++ [i])).1 = .running (advance lib identity i c) := by
  unfold advance
  rcases runSigner_process hc hi with ⟨hn, hrun⟩ | ⟨c', e, hstep, hrun⟩
  · rw [hn, hrun]
    exact hc
  · rw [hstep, hrun]
    rfl

/-- The owner is being abandoned, and persistence is that of `c₀`. -/
def Abandoning (c₀ c : SignerCoordinator) (P : Option ActiveOperation → Prop) : Prop :=
  c.persistence = c₀.persistence ∧ c.pendingWrite = c₀.pendingWrite ∧
    ∃ o, c.inspectionOwner = some o ∧ o.abandoning = true ∧ P o.activeOperation

/-- The call that waits is refused. -/
theorem Abandoning.start {c₀ : SignerCoordinator} (now : Timestamp)
    (h : Abandoning c₀ c (· ≠ some .running)) :
    Abandoning c₀ (advance lib identity ⟨now, .startOperation⟩ c)
      (fun a => a = none ∨ ∃ failed, a = some (.settled failed)) := by
  obtain ⟨hp, hw, o, hsome, hab, hrun⟩ := h
  unfold advance coordinatorStep
  dsimp only
  rw [startOperation_abandoning hsome hab]
  cases ha : o.activeOperation with
  | none => exact ⟨hp, hw, o, hsome, hab, Or.inl ha⟩
  | some a =>
    cases a with
    | queued call =>
      refine ⟨hp, hw, { o with activeOperation := some (.settled true) }, ?_, hab,
        Or.inr ⟨true, rfl⟩⟩
      simp [setActive, updateOwner, hsome]
    | running => exact absurd ha hrun
    | settled failed => exact ⟨hp, hw, o, hsome, hab, Or.inr ⟨failed, ha⟩⟩

/-- The caller of the operation that settled resumes. -/
theorem Abandoning.settle {c₀ : SignerCoordinator} (now : Timestamp)
    (h : Abandoning c₀ c (fun a => a = none ∨ ∃ failed, a = some (.settled failed))) :
    Abandoning c₀ (advance lib identity ⟨now, .settleOperation⟩ c) (· = none) := by
  obtain ⟨hp, hw, o, hsome, hab, ha | ⟨failed, ha⟩⟩ := h
  · have hnone : c.settleOperation = none := by simp [settleOperation, hsome, ha]
    unfold advance coordinatorStep
    dsimp only
    rw [hnone]
    exact ⟨hp, hw, o, hsome, hab, ha⟩
  · by_cases hfail : failed = true ∧ o.headBracket.isOpened = true
    · have hsettle : c.settleOperation = some
          (((c.setActive none).setBracket .failed).revokeActionAuthorization,
            some (.headFailed o.generation)) := by
        simp [settleOperation, hsome, ha, hfail]
      unfold advance coordinatorStep
      dsimp only
      rw [hsettle]
      refine ⟨hp, hw, { o with activeOperation := none, headBracket := .failed }, ?_, hab, rfl⟩
      simp [revokeActionAuthorization, setBracket, setActive, updateOwner, hsome]
    · have hsettle : c.settleOperation = some (c.setActive none, none) := by
        simp only [settleOperation, hsome, Option.bind_some, ha, Bool.and_eq_true]
        rw [if_neg hfail]
      unfold advance coordinatorStep
      dsimp only
      rw [hsettle]
      refine ⟨hp, hw, { o with activeOperation := none }, ?_, hab, rfl⟩
      simp [setActive, updateOwner, hsome]

theorem Abandoning.release {c₀ : SignerCoordinator} (now : Timestamp)
    (h : Abandoning c₀ c (· = none)) :
    (advance lib identity ⟨now, .completeAbandonment⟩ c).inspectionOwner = none ∧
      (advance lib identity ⟨now, .completeAbandonment⟩ c).persistence = c₀.persistence ∧
      (advance lib identity ⟨now, .completeAbandonment⟩ c).pendingWrite = c₀.pendingWrite := by
  obtain ⟨hp, hw, o, hsome, hab, ha⟩ := h
  have hcomplete : c.completeAbandonment now = some
      ({ c.revokeActionAuthorization with inspectionOwner := none }.refresh now, none) := by
    simp [completeAbandonment, hsome, hab, ha]
  unfold advance coordinatorStep
  dsimp only
  rw [hcomplete]
  exact ⟨rfl, hp, hw⟩

/-- What is left to do once the last operation of an abandoned inspection settled. -/
def releaseInputs (now : Timestamp) : List Input :=
  [⟨now, .startOperation⟩, ⟨now, .settleOperation⟩, ⟨now, .completeAbandonment⟩]

theorem abandonment_releases {is : List Input} {o : InspectionOwner}
    (hc : (runSigner lib identity is).1 = .running c) (hsome : c.inspectionOwner = some o)
    (hab : o.abandoning = true) (ht : c.task = none) (now : Timestamp) :
    ∃ c', (runSigner lib identity (is ++ releaseInputs now)).1 = .running c' ∧
      c'.inspectionOwner = none ∧ c'.persistence = c.persistence ∧
      c'.pendingWrite = c.pendingWrite := by
  have hrun : o.activeOperation ≠ some .running :=
    fun hr => (runSigner_ownership lib identity is hc).owner.running o hsome hr ht
  have h₀ : Abandoning c c (· ≠ some .running) := ⟨rfl, rfl, o, hsome, hab, hrun⟩
  have h₁ := runSigner_advance (i := ⟨now, .startOperation⟩) hc (by simp)
  have h₂ := runSigner_advance (i := ⟨now, .settleOperation⟩) h₁ (by simp)
  have h₃ := runSigner_advance (i := ⟨now, .completeAbandonment⟩) h₂ (by simp)
  have hinputs : is ++ releaseInputs now = is ++ [⟨now, .startOperation⟩] ++
      [⟨now, .settleOperation⟩] ++ [⟨now, .completeAbandonment⟩] := by simp [releaseInputs]
  rw [hinputs]
  exact ⟨_, h₃, ((h₀.start now).settle now).release now⟩

/-- A stale handle stays stale as long as its process runs. -/
theorem stale_stays {is js : List Input} {g : ℕ}
    (hc : (runSigner lib identity is).1 = .running c) (h : Stale c g)
    (hjs : ∀ j ∈ js, j.action ≠ .crash) :
    ∃ c', (runSigner lib identity (is ++ js)).1 = .running c' ∧ Stale c' g := by
  -- by induction on the inputs, each of which keeps the process running
  induction js using List.reverseRecOn with
  | nil => exact ⟨c, by simpa using hc, h⟩
  | append_singleton js j ih =>
    obtain ⟨d, hd, hstale⟩ := ih fun x hx => hjs x (List.mem_append_left _ hx)
    rw [← List.append_assoc]
    refine ⟨_, runSigner_advance hd (hjs j (by simp)), ?_⟩
    unfold advance
    cases hstep : coordinatorStep lib identity j d with
    | none => exact hstale
    | some r =>
      have hlink := (coordinatorStep_cases hstep).link
        (runSigner_ownership lib identity _ hd).action.owner
      exact hstale.step hlink

end Release

/-! The split of a trace at an event that voids evidence. -/

/-- A later inspection began, completed an operation of kind `K` while it was live,
and finished. -/
def ReopenedBy (K : JournalWrite → Prop) (post : List Event) : Prop :=
  ∃ after, Vetted K post after

/-- What was vetted and not voided since lies after every event that voids. -/
theorem StillVetted.after {K : JournalWrite → Prop} {pre post : List Event} {e : Event}
    (h : StillVetted K (pre ++ e :: post)) (he : e.voids = true) : ReopenedBy K post := by
  obtain ⟨after, ⟨before, g, mid, w, permit, heq, hw, hg, hmid⟩, hafter⟩ := h
  have hends : e.endsInspection = true := by
    cases e with
    | abandoned _ => rfl
    | headFailed _ => rfl
    | _ => cases he
  -- the event is none of those from the beginning of that inspection on
  have hout : e ∉ .begun g :: (mid ++ .completed w permit :: .finished g :: after) := by
    intro hmem
    simp only [List.mem_cons, List.mem_append] at hmem
    rcases hmem with rfl | hmem | rfl | rfl | hmem
    · cases he
    · rw [hmid e hmem] at hends
      cases hends
    · cases he
    · cases he
    · rw [hafter e hmem] at he
      cases he
  rcases List.append_eq_append_iff.mp heq with ⟨l, hl, hr⟩ | ⟨l, hl, hr⟩
  · cases l with
    | nil => exact absurd (by rw [List.nil_append] at hr; rw [← hr]; simp) hout
    | cons x l =>
      obtain ⟨rfl, hpost⟩ := List.cons.inj hr
      exact ⟨after, l, g, mid, w, permit, hpost, hw, hg, hmid⟩
  · exact absurd (by rw [hr]; simp) hout

section Ownership

variable (lib : TransactionLibrary) (identity : JournalIdentity)

/-- At most one inspection owns the coordinator and at most one operation runs; a
stale handle is refused for good; an inspection that is abandoned starts nothing
and is released once its operation has settled; and neither the gate nor a
permission outlives an abandoned inspection or a failed head bracket, until a
later inspection has finished after a pass of its own. -/
theorem inspection_ownership (is : List Input) :
    (∀ c, (runSigner lib identity is).1 = .running c →
      (∀ i, c.inspectionOwner ≠ none ∧ i.action.needsNoOwner = true ∨
        c.task ≠ none ∧ i.action.startsOperation = true → coordinatorStep lib identity i c = none) ∧
      (∀ g, Stale c g →
        (∀ i, i.action.handle? = some g → coordinatorStep lib identity i c = none) ∧
        ∀ js, (∀ j ∈ js, j.action ≠ .crash) →
          ∃ c', (runSigner lib identity (is ++ js)).1 = .running c' ∧ Stale c' g) ∧
      (∀ g, g < c.inspectionGeneration → Stale c g) ∧
      (∀ i g c' e, i.action = .finishInspection g ∨ i.action = .abandonInspection g →
        coordinatorStep lib identity i c = some (c', e) → Stale c' g) ∧
      (∀ i g o, i.action = .finishInspection g → c.owned g = some o →
        o.headBracket.isOpened = true ∨ o.headBracket = .failed →
        coordinatorStep lib identity i c = none) ∧
      ∀ o, c.inspectionOwner = some o → o.abandoning = true →
        (∀ i c' e, coordinatorStep lib identity i c = some (c', e) →
          (c.task = none → c'.task = none) ∧
          (c'.inspectionOwner = none ∨ ∃ o', c'.inspectionOwner = some o' ∧
            o'.generation = o.generation ∧ o'.abandoning = true) ∧
          (i.action = .startOperation → c' = c.setActive (some (.settled true)))) ∧
        (c.task = none → ∀ now, ∃ c',
          (runSigner lib identity (is ++ releaseInputs now)).1 = .running c' ∧
          c'.inspectionOwner = none ∧ c'.persistence = c.persistence ∧
          c'.pendingWrite = c.pendingWrite)) ∧
    (∀ c c' e i, i.action = .completeAbandonment ∨ (∃ g, i.action = .abandonInspection g) →
      coordinatorStep lib identity i c = some (c', e) →
      c'.persistence = c.persistence ∧ c'.pendingWrite = c.pendingWrite ∧ c'.task = c.task) ∧
    ∀ pre e post, (runSigner lib identity is).2 = pre ++ e :: post → e.voids = true →
      ∀ c, (runSigner lib identity is).1 = .running c →
        (c.status.isOpen = true → ReopenedBy IsInclusionPass post) ∧
        (c.canBroadcast = true ∨ c.inspectionOwner = none ∧ c.broadcastPermit ≠ none →
          ReopenedBy IsPass post) := by
  have hown {c : SignerCoordinator} (hc : (runSigner lib identity is).1 = .running c) :=
    runSigner_ownership lib identity is hc
  refine ⟨?_, ?_, ?_⟩
  -- what a running coordinator refuses, and what an abandoned inspection can still do
  · intro c hc
    refine ⟨?_, ?_, ?_, ?_, ?_, ?_⟩
    · rintro i (⟨ho, hi⟩ | ⟨ht, hi⟩)
      · exact coordinatorStep_owned ho hi
      · have hr := runSigner_reached lib identity is hc
        exact coordinatorStep_suspended hr.journal (hown hc).action.owner ht hi
    · intro g hg
      exact ⟨fun i hi => coordinatorStep_stale hg hi, fun js hjs => stale_stays hc hg hjs⟩
    · exact fun g hg => stale_of_superseded (hown hc).owner hg
    · exact fun i g c' e hi h => stale_of_ended (hown hc).owner hi h
    · intro i g o hi ho hb
      obtain ⟨now, action⟩ := i
      subst hi
      exact finishInspection_refused ho hb
    · intro o hsome hab
      refine ⟨?_, fun ht now => abandonment_releases hc hsome hab ht now⟩
      intro i c' e hstep
      have hcases := coordinatorStep_cases hstep
      refine ⟨hcases.abandoning hsome hab, ?_, ?_⟩
      · cases hcases.link (hown hc).action.owner with
        | begun hno _ _ _ _ => exact absurd (hsome.symm.trans hno) (by simp)
        | released _ hno => exact Or.inl hno
        | kept _ hx hx' hgen hmono _ =>
          obtain rfl := Option.some.inj (hsome.symm.trans hx)
          exact Or.inr ⟨_, hx', hgen, hmono hab⟩
      · intro hi
        obtain ⟨now, action⟩ := i
        subst hi
        change c.startOperation now = _ at hstep
        rw [startOperation_abandoning hsome hab] at hstep
        split at hstep
        · exact (Prod.mk.inj (Option.some.inj hstep)).1.symm
        · cases hstep
  -- both calls change nothing but the owner
  · intro c c' e i hi hstep
    obtain ⟨now, action⟩ := i
    rcases hi with rfl | ⟨g, rfl⟩
    · obtain ⟨o, _, h⟩ := Option.bind_eq_some_iff.mp hstep
      split_ifs at h
      obtain ⟨rfl, _⟩ := Prod.mk.inj (Option.some.inj h)
      exact ⟨rfl, rfl, rfl⟩
    · obtain ⟨o, _, h⟩ := Option.bind_eq_some_iff.mp hstep
      split_ifs at h
      obtain ⟨rfl, _⟩ := Prod.mk.inj (Option.some.inj h)
      exact ⟨rfl, rfl, rfl⟩
  -- after an event that voids them only a later pass opens the gate or permits a send
  · intro pre e post htr he c hc
    have hcredit := (hown hc).credit
    rw [htr] at hcredit
    refine ⟨?_, ?_⟩
    · intro hopen
      obtain ⟨_, hs⟩ := gateOpen_of_status hopen
      have hvetted := hcredit.checked (Or.inl hs.checked)
      rw [hs.owner] at hvetted
      exact StillVetted.after hvetted he
    · intro hcan
      have hpermit : c.inspectionOwner = none ∧ c.broadcastPermit ≠ none := by
        rcases hcan with hcan | hcan
        · simp only [canBroadcast, Bool.and_eq_true, Bool.not_eq_true', Option.isNone_iff_eq_none,
            beq_iff_eq] at hcan
          refine ⟨hcan.1.1.2, ?_⟩
          have hcan := hcan.2
          split at hcan
          · cases hcan
          · split at hcan
            · cases hcan
            · simp only [Bool.and_eq_true, beq_iff_eq] at hcan
              rw [hcan.1.1.2]
              simp
        · exact hcan
      have hvetted := hcredit.permit hpermit.2
      rw [hpermit.1] at hvetted
      exact StillVetted.after hvetted he

end Ownership

end Quicknet
