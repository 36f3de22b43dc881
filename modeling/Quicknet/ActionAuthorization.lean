import Quicknet.JournalSafety

/-! The action authorization: the permission to send and the completed inclusion
pass. Both are traced back to the operation that issued them. -/
namespace Quicknet

open Interaction Transition SignerCoordinator

/-! The owner while one of its operations is suspended. -/

/-- The owner's registered operation has been entered. -/
def Runs (owner : Option InspectionOwner) (P : InspectionOwner → Prop) : Prop :=
  ∃ o, owner = some o ∧ o.activeOperation = some .running ∧ P o

/-- A write of an inspection belongs to the current owner; others run without one. -/
def OwnsWrite (owner : Option InspectionOwner) (w : JournalWrite) : Prop :=
  match w.generation? with
  | none => owner = none
  | some g => Runs owner fun o => o.hasRunOperation = true ∧ o.generation = g ∧
      (w.isBracketed = true → o.headBracket.isOpened = true)

def OwnerPhase (owner : Option InspectionOwner) : Option Task → Prop
  | none => True
  | some (.openingHead _ _) =>
    Runs owner fun o => o.hasRunOperation = false ∧ o.headBracket = .failed
  | some (.recovering _ _) => Runs owner fun o => o.hasRunOperation = true
  | some (.inspecting _ _ bracketed) =>
    Runs owner fun o => o.hasRunOperation = true ∧ bracketed = o.headBracket.isOpened
  | some (.storing (.own w)) | some (.saved (.own w)) => OwnsWrite owner w
  | some (.signing _ _ _ _ _ _ _) | some .sending | some (.storing .retry)
  | some (.saved .retry) => owner = none

section Owner

variable {lib : TransactionLibrary} {identity : JournalIdentity} {c c' : SignerCoordinator}
  {e : Option Event}

/-- A suspended operation of the owner keeps its promise registered. -/
theorem OwnerPhase.running {o : InspectionOwner} {t : Task} (h : OwnerPhase (some o) (some t)) :
    o.activeOperation = some .running := by
  have hruns {P : InspectionOwner → Prop} (hr : Runs (some o) P) :
      o.activeOperation = some .running := by
    obtain ⟨o', ho, ha, _⟩ := hr
    obtain rfl := Option.some.inj ho
    exact ha
  have howns {w : JournalWrite} (hw : OwnsWrite (some o) w) :
      o.activeOperation = some .running := by
    unfold OwnsWrite at hw
    split at hw
    · cases hw
    · exact hruns hw
  cases t with
  | signing _ _ _ _ _ _ _ => cases h
  | openingHead _ _ => exact hruns h
  | recovering _ _ => exact hruns h
  | inspecting _ _ _ => exact hruns h
  | sending => cases h
  | storing k =>
    cases k with
    | own w => exact howns h
    | retry => cases h
  | saved k =>
    cases k with
    | own w => exact howns h
    | retry => cases h

theorem OwnerPhase.task_none {o : InspectionOwner} {t : Option Task} (h : OwnerPhase (some o) t)
    (ha : o.activeOperation ≠ some .running) : t = none := by
  cases t with
  | none => rfl
  | some t => exact absurd h.running ha

theorem OwnsWrite.abandon {o : InspectionOwner} {w : JournalWrite} {b : Bool}
    (h : OwnsWrite (some o) w) : OwnsWrite (some { o with abandoning := b }) w := by
  unfold OwnsWrite at h ⊢
  split
  · rename_i hg
    rw [hg] at h
    cases h
  · rename_i g hg
    rw [hg] at h
    obtain ⟨o', ho, ha, hp⟩ := h
    obtain rfl := Option.some.inj ho
    exact ⟨_, rfl, ha, hp⟩

/-- Abandonment leaves the suspended operation to finish. -/
theorem OwnerPhase.abandon {o : InspectionOwner} {t : Option Task} {b : Bool}
    (h : OwnerPhase (some o) t) : OwnerPhase (some { o with abandoning := b }) t := by
  have hruns {P Q : InspectionOwner → Prop} (hr : Runs (some o) P)
      (hpq : P o → Q { o with abandoning := b }) : Runs (some { o with abandoning := b }) Q := by
    obtain ⟨o', ho, ha, hp⟩ := hr
    obtain rfl := Option.some.inj ho
    exact ⟨_, rfl, ha, hpq hp⟩
  cases t with
  | none => trivial
  | some t =>
    cases t with
    | signing _ _ _ _ _ _ _ => cases h
    | openingHead _ _ => exact hruns h fun hp => hp
    | recovering _ _ => exact hruns h fun hp => hp
    | inspecting _ _ _ => exact hruns h fun hp => hp
    | sending => cases h
    | storing k =>
      cases k with
      | own w => exact OwnsWrite.abandon h
      | retry => cases h
    | saved k =>
      cases k with
      | own w => exact OwnsWrite.abandon h
      | retry => cases h

/-- A planned write belongs to whoever plans it. -/
theorem Planned.ownsWrite {w : JournalWrite} {kind : PendingWrite}
    {next : TransactionJournalSnapshot} {c₀ : SignerCoordinator}
    (h : Planned lib identity c w kind next c₀) (ho : OwnerPhase c.inspectionOwner c.task) :
    OwnsWrite c₀.inspectionOwner w := by
  have hruns {o : InspectionOwner} {P : InspectionOwner → Prop} (hsome : c.inspectionOwner = some o)
      (hr : Runs c.inspectionOwner P) : o.activeOperation = some .running ∧ P o := by
    obtain ⟨o', ho', ha, hp⟩ := hr
    obtain rfl := Option.some.inj (hsome.symm.trans ho')
    exact ⟨ha, hp⟩
  cases h with
  | prepared ht _ _ =>
    rw [ht] at ho
    exact ho
  | broadcast hsend _ => exact hsend.owner
  | bootstrap hsome ht _ _ =>
    rw [ht] at ho
    obtain ⟨ha, hr⟩ := hruns hsome ho
    exact ⟨_, hsome, ha, hr, rfl, by simp [JournalWrite.isBracketed]⟩
  | recovery hsome ht _ _ _ =>
    rw [ht] at ho
    obtain ⟨ha, hr⟩ := hruns hsome ho
    exact ⟨_, hsome, ha, hr, rfl, by simp [JournalWrite.isBracketed]⟩
  | inclusions hsome ht _ _ _ =>
    rw [ht] at ho
    obtain ⟨ha, hr, hb⟩ := hruns hsome ho
    exact ⟨_, hsome, ha, hr, rfl, fun h => hb ▸ h⟩

/-- Without an owner, an idle coordinator suspends nothing. -/
theorem OwnerPhase.idle {v : JournalView} (hi : JournalInv v c)
    (h : OwnerPhase c.inspectionOwner c.task) (hno : c.inspectionOwner = none)
    (hb : c.busy = false) : c.task = none := by
  have hphase := hi.phase
  have hbusy {p : Prop} (hp : c.busy = true ∧ p) : False :=
    absurd (hp.1.symm.trans hb) (by simp)
  cases ht : c.task with
  | none => rfl
  | some t =>
    rw [ht] at hphase h
    rw [hno] at h
    cases t with
    | openingHead _ _ =>
      obtain ⟨o, ho, _⟩ := h
      cases ho
    | signing _ _ _ _ _ _ _ => exact (hbusy hphase.1).elim
    | recovering _ _ => exact (hbusy hphase).elim
    | inspecting _ _ _ => exact (hbusy hphase).elim
    | storing _ => exact (hbusy hphase).elim
    | saved _ => exact (hbusy hphase).elim
    | sending => exact (hbusy hphase).elim

theorem OwnerPhase.step {v : JournalView} (hi : JournalInv v c)
    (h : OwnerPhase c.inspectionOwner c.task) (hstep : CoordinatorStep lib identity c e c') :
    OwnerPhase c'.inspectionOwner c'.task := by
  -- an owner without a running operation has none of its own suspended
  have hidle {o : InspectionOwner} (hsome : c.inspectionOwner = some o)
      (ha : o.activeOperation ≠ some .running) : c.task = none := by
    rw [hsome] at h
    exact h.task_none ha
  cases hstep with
  | begun hno hb _ _ =>
    change OwnerPhase _ c.task
    rw [h.idle hi hno hb]
    trivial
  | @owner o o' _ revoke hsome hm =>
    change OwnerPhase (some o') c.task
    cases hm with
    | abandoned _ =>
      rw [hsome] at h
      exact h.abandon
    | queued _ ha _ _ =>
      rw [hidle hsome (by simp [ha])]
      trivial
    | rejected ha _ =>
      rw [hidle hsome (by simp [ha])]
      trivial
    | headRejected ha _ _ =>
      rw [hidle hsome (by simp [ha])]
      trivial
    | settled ha _ =>
      rw [hidle hsome (by simp [ha])]
      trivial
    | bracketFailed ha _ =>
      rw [hidle hsome (by simp [ha])]
      trivial
  | finished hsome _ ha _ _ _ _ _ =>
    change OwnerPhase none c.task
    rw [hidle hsome (by simp [ha])]
    trivial
  | abandonmentCompleted hsome _ ha =>
    change OwnerPhase none c.task
    rw [hidle hsome (by simp [ha])]
    trivial
  | headOpening _ _ _ _ hr _ => exact ⟨_, rfl, rfl, hr, rfl⟩
  | recovering _ _ _ _ _ _ _ _ => exact ⟨_, rfl, rfl, rfl⟩
  | inspecting _ _ _ _ _ _ _ _ _ hb => exact ⟨_, rfl, rfl, rfl, hb⟩
  | signing hno _ _ _ _ _ _ => exact hno
  | wrote hplan _ _ =>
    have hown := hplan.ownsWrite h
    cases hplan <;> exact hown
  | sentAgain hsend _ => exact hsend.owner
  | retrying hno _ _ _ _ => exact hno
  | @acked k s ht _ =>
    rw [ht] at h
    cases k with
    | own w => exact h
    | retry => exact h
  | sentMarked ht =>
    rw [ht] at h
    exact h
  | resumed _ hr =>
    rw [hr.task]
    trivial
  | observing _ => exact h
  | _ => trivial

end Owner

/-! Where the authorization is absent. -/

/-- Neither a permission nor a completed inclusion pass. -/
def Unauthorized (c : SignerCoordinator) : Prop :=
  c.broadcastPermit = none ∧ c.inclusionChecksComplete = false

/-- Only an idle coordinator, and one that signs, can have an authorization. -/
def TaskAuthorization (c : SignerCoordinator) : Option Task → Prop
  | none | some (.openingHead _ _) => True
  | some (.signing _ _ _ _ _ _ _) => c.broadcastPermit = none
  | some _ => Unauthorized c

structure AuthorizationPhase (c : SignerCoordinator) : Prop where
  fresh : ∀ o, c.inspectionOwner = some o → o.hasRunOperation = false → Unauthorized c
  written : c.pendingWrite ≠ none → Unauthorized c
  suspended : TaskAuthorization c c.task

theorem AuthorizationPhase.of_unauthorized {c : SignerCoordinator} (h : Unauthorized c) :
    AuthorizationPhase c := by
  refine ⟨fun _ _ _ => h, fun _ => h, ?_⟩
  unfold TaskAuthorization
  split
  · trivial
  · trivial
  · exact h.1
  · exact h

section Authorization

variable {lib : TransactionLibrary} {identity : JournalIdentity} {c c' : SignerCoordinator}
  {e : Option Event}

theorem Planned.unauthorized {w : JournalWrite} {kind : PendingWrite}
    {next : TransactionJournalSnapshot} {c₀ : SignerCoordinator}
    (h : Planned lib identity c w kind next c₀) (ha : AuthorizationPhase c) : Unauthorized c₀ := by
  have hs := ha.suspended
  cases h with
  | prepared ht _ _ =>
    rw [ht] at hs
    exact ⟨hs, rfl⟩
  | broadcast _ _ => exact ⟨rfl, rfl⟩
  | bootstrap _ ht _ _ =>
    rw [ht] at hs
    exact hs
  | recovery _ ht _ _ _ =>
    rw [ht] at hs
    exact hs
  | inclusions _ ht _ _ _ =>
    rw [ht] at hs
    exact hs

/-- The owner after an owner's move ran an operation if it had before. -/
theorem OwnerMove.hasRun {o o' : InspectionOwner} {revoke : Bool} (h : OwnerMove o e revoke o')
    (hr : o'.hasRunOperation = false) : o.hasRunOperation = false := by
  cases h with
  | @rejected _ hasRun _ hmono =>
    cases ho : o.hasRunOperation with
    | false => rfl
    | true => exact absurd (hmono ho) (by simpa using hr)
  | _ => exact hr

end Authorization

/-! The trace back to the operations that issued the authorization. -/

def Event.isFinished : Event → Bool
  | .finished _ => true
  | _ => false

/-- The event stands between no two sends of one process. -/
def Event.isSentOrLoaded : Event → Bool
  | .sent _ _ _ | .loaded _ => true
  | _ => false

/-- The event changes which inspection is current, or makes it fail. -/
def Event.endsInspection : Event → Bool
  | .begun _ | .finished _ | .abandoned _ | .headFailed _ | .loaded _ => true
  | _ => false

/-- The last operation that completed is an inclusion pass that found every
attempt included. -/
def Checked (tr : List Event) : Prop :=
  Since (fun e => ∃ w permit, e = .completed w permit ∧ w.checks = some true)
    (fun e => e.isFinished = true) tr

/-- A recovery was committed after every earlier send of the process. -/
def Recovered (tr : List Event) : Prop :=
  Since (fun e => ∃ w permit, e = .completed w permit ∧ w.recovers = true)
    (fun e => e.isSentOrLoaded = false) tr

/-- The inspection is current, was not abandoned, and its head did not fail. -/
def LiveInspection (tr : List Event) (generation : ℕ) : Prop :=
  Since (· = .begun generation) (fun e => e.endsInspection = false) tr

/-- The last operation that completed issued the permission; its inspection is
finished, or still the current one. -/
def Issued (tr : List Event) (owner : Option InspectionOwner) (id : AttemptId) : Prop :=
  ∃ pre w post, tr = pre ++ .completed w (some id) :: post ∧ w.Permits id ∧
    (∀ x ∈ post, x.isFinished = true) ∧
    ∀ g, w.generation? = some g → .finished g ∈ post ∨ ∃ o, owner = some o ∧ o.generation = g

/-- The inclusion flag that a suspended preparation restores when it fails. -/
def retainedFlag : Option Task → Bool
  | some (.signing _ _ _ _ _ _ previous) => previous
  | _ => false

/-- How a step treats the authorization. -/
inductive AuthorizationStep (c : SignerCoordinator) (e : Option Event) (c' : SignerCoordinator) :
    Prop
  | revoked : Unauthorized c' → retainedFlag c'.task = false → AuthorizationStep c e c'
  | kept : e = none → (∀ id, c'.broadcastPermit = some id → c.broadcastPermit = some id) →
      (c'.inclusionChecksComplete = true ∨ retainedFlag c'.task = true →
        c.inclusionChecksComplete = true ∨ retainedFlag c.task = true) →
      c'.inspectionOwner.map (·.generation) = c.inspectionOwner.map (·.generation) →
      AuthorizationStep c e c'
  | finished {o : InspectionOwner} : c.inspectionOwner = some o → c'.inspectionOwner = none →
      e = some (.finished o.generation) → c'.broadcastPermit = c.broadcastPermit →
      c'.inclusionChecksComplete = c.inclusionChecksComplete → c'.task = c.task →
      AuthorizationStep c e c'
  | resumed {w : JournalWrite} {permit : Option AttemptId} : Unauthorized c →
      c.task = some (.saved (.own w)) → e = some (.completed w permit) → Resumed c w permit c' →
      AuthorizationStep c e c'

section Issue

variable {lib : TransactionLibrary} {identity : JournalIdentity} {c c' : SignerCoordinator}
  {e : Option Event}

/-- Preparations are signed without an owner. -/
theorem OwnerPhase.retainedFlag_eq {o : InspectionOwner} {t : Option Task}
    (h : OwnerPhase (some o) t) : retainedFlag t = false := by
  cases t with
  | none => rfl
  | some t =>
    cases t with
    | signing _ _ _ _ _ _ _ => cases h
    | _ => rfl

/-- Every step revokes the authorization, keeps it, or completes the operation
that may issue one. -/
theorem AuthorizationPhase.step {v : JournalView} (hi : JournalInv v c)
    (ho : OwnerPhase c.inspectionOwner c.task) (h : AuthorizationPhase c)
    (hstep : CoordinatorStep lib identity c e c') :
    AuthorizationPhase c' ∧ AuthorizationStep c e c' := by
  have hs := h.suspended
  -- most steps leave no authorization behind them
  have hrevoked (hu : Unauthorized c') (ht : retainedFlag c'.task = false) :
      AuthorizationPhase c' ∧ AuthorizationStep c e c' :=
    ⟨.of_unauthorized hu, .revoked hu ht⟩
  -- a check that an operation carries is one that it found complete
  have hflag {t : Task} {checked : Bool} (ht : c.task = some t) (hun : Unauthorized c)
      (hc : checked = true → c.inclusionChecksComplete = true) : checked = false := by
    cases hc' : checked with
    | false => rfl
    | true => exact absurd (hc hc') (by simp [hun.2])
  cases hstep with
  | begun hno hb _ _ =>
    refine hrevoked ⟨rfl, rfl⟩ ?_
    change retainedFlag c.task = false
    rw [ho.idle hi hno hb]
    rfl
  | @owner o o' _ revoke hsome hm =>
    have hret : retainedFlag c.task = false := by
      rw [hsome] at ho
      exact ho.retainedFlag_eq
    cases revoke with
    | true => exact hrevoked ⟨rfl, rfl⟩ hret
    | false =>
      have hphase : AuthorizationPhase (c.moveOwner o' false) := by
        refine ⟨?_, h.written, hs⟩
        intro x hx hr
        obtain rfl := Option.some.inj hx
        exact h.fresh o hsome (hm.hasRun hr)
      have hkept (he : e = none) (hg : o'.generation = o.generation) :
          AuthorizationStep c e (c.moveOwner o' false) := by
        refine .kept he (fun _ hid => hid) (fun hc => hc) ?_
        change some o'.generation = c.inspectionOwner.map (·.generation)
        rw [hsome, hg]
        rfl
      cases hm with
      | queued _ _ _ _ => exact ⟨hphase, hkept rfl rfl⟩
      | rejected _ _ => exact ⟨hphase, hkept rfl rfl⟩
      | settled _ _ => exact ⟨hphase, hkept rfl rfl⟩
      | headRejected _ hr _ => exact hrevoked (h.fresh o hsome hr) hret
  | finished hsome _ _ _ _ _ _ _ =>
    refine ⟨⟨?_, h.written, hs⟩, .finished hsome rfl rfl rfl rfl rfl⟩
    intro _ hx
    cases hx
  | abandonmentCompleted hsome _ _ =>
    rw [hsome] at ho
    exact hrevoked ⟨rfl, rfl⟩ ho.retainedFlag_eq
  | headOpening hsome _ _ _ hr _ => exact hrevoked (h.fresh _ hsome hr) rfl
  | headAnswered hsome ht _ =>
    rw [ht] at ho
    obtain ⟨o, ho', _, hr, _⟩ := ho
    exact hrevoked (h.fresh o ho' hr) rfl
  | recovering _ _ _ _ _ _ _ _ => exact hrevoked ⟨rfl, rfl⟩ rfl
  | inspecting _ _ _ _ _ _ _ _ _ _ => exact hrevoked ⟨rfl, rfl⟩ rfl
  | inspectionRefused _ _ _ _ _ => exact hrevoked ⟨rfl, rfl⟩ rfl
  | recoverEnded _ ht _ _ =>
    rw [ht] at hs
    exact hrevoked hs rfl
  | inclusionsEnded _ ht _ hchecked _ =>
    have hun : Unauthorized c := by
      rw [ht] at hs
      exact hs
    exact hrevoked ⟨hun.1, hflag ht hun hchecked⟩ rfl
  | inclusionsFailed _ _ _ => exact hrevoked ⟨rfl, rfl⟩ rfl
  | signing hno _ hp _ _ _ _ =>
    -- the preparation retains the completed checks
    refine ⟨⟨?_, fun hw => absurd hp hw, rfl⟩, .kept rfl (by simp) (fun hc => ?_) rfl⟩
    · intro o hx _
      exact absurd (hno.symm.trans hx) (by simp)
    · exact Or.inl (hc.elim (fun h => h) (fun h => h))
  | prepareEnded ht =>
    rw [ht] at ho hs
    have hno : c.inspectionOwner = none := ho
    -- and gives them back where nothing was written
    refine ⟨⟨?_, fun hw => absurd rfl hw, trivial⟩, .kept rfl (fun _ hid => hid) ?_ rfl⟩
    · intro o hx _
      exact absurd (hno.symm.trans hx) (by simp)
    · rintro (hc | hc)
      · exact Or.inr (by rw [ht]; exact hc)
      · cases hc
  | wrote hplan _ _ =>
    have hun := hplan.unauthorized h
    exact hrevoked hun rfl
  | broadcastEnded _ => exact hrevoked ⟨rfl, rfl⟩ rfl
  | sentAgain _ _ => exact hrevoked ⟨rfl, rfl⟩ rfl
  | retrying _ _ hp _ _ => exact hrevoked (h.written hp) rfl
  | acked ht _ =>
    rw [ht] at hs
    exact hrevoked hs rfl
  | storeFailed ht _ _ hchecked _ =>
    have hun : Unauthorized c := by
      rw [ht] at hs
      exact hs
    exact hrevoked ⟨hun.1, hflag ht hun hchecked⟩ rfl
  | storeFailedOwned ht _ _ hchecked _ =>
    have hun : Unauthorized c := by
      rw [ht] at hs
      exact hs
    exact hrevoked ⟨hun.1, hflag ht hun hchecked⟩ rfl
  | @resumed w permit _ ht hr =>
    rw [ht] at ho hs
    refine ⟨⟨?_, fun hw => absurd hr.pendingWrite hw, by rw [hr.task]; trivial⟩,
      .resumed hs ht rfl hr⟩
    intro o hx hrun
    rw [hr.owner] at hx
    unfold OwnerPhase OwnsWrite at ho
    simp only at ho
    cases hg : w.generation? with
    | none =>
      rw [hg] at ho hx
      rw [show c.inspectionOwner = none from ho] at hx
      cases hx
    | some g =>
      rw [hg] at ho hx
      obtain ⟨o', ho', _, hran, _, _⟩ := ho
      rw [ho'] at hx
      obtain rfl := Option.some.inj hx
      exact absurd (hran.symm.trans hrun) (by simp)
  | sentMarked ht =>
    rw [ht] at hs
    exact hrevoked hs rfl
  | retried ht =>
    rw [ht] at hs
    exact hrevoked hs rfl
  | sendSettled ht =>
    rw [ht] at hs
    exact hrevoked hs rfl
  | observing _ =>
    exact ⟨⟨h.fresh, h.written, hs⟩, .kept rfl (fun _ hid => hid) (fun hc => hc) rfl⟩

theorem SignerCoordinator.Resumed.owner_generation {w : JournalWrite} {permit : Option AttemptId} {g : ℕ}
    (h : Resumed c w permit c') (ho : OwnsWrite c.inspectionOwner w) (hg : w.generation? = some g) :
    ∃ o, c'.inspectionOwner = some o ∧ o.generation = g := by
  unfold OwnsWrite at ho
  rw [hg] at ho
  obtain ⟨o, ho', _, _, hgen, _⟩ := ho
  rw [h.owner, hg, ho']
  exact ⟨_, rfl, hgen⟩

/-- The inclusion flag, also where a preparation would restore it, is the result
of the last pass. -/
theorem AuthorizationStep.checked {tr : List Event} (h : AuthorizationStep c e c')
    (hc : c.inclusionChecksComplete = true ∨ retainedFlag c.task = true → Checked tr) :
    c'.inclusionChecksComplete = true ∨ retainedFlag c'.task = true →
      Checked (tr ++ e.toList) := by
  intro hc'
  cases h with
  | revoked hun hret =>
    rcases hc' with hc' | hc'
    · exact absurd (hun.2.symm.trans hc') (by simp)
    · exact absurd (hret.symm.trans hc') (by simp)
  | kept he _ hflag _ =>
    subst he
    simpa using hc (hflag hc')
  | finished _ _ he _ hflag ht =>
    subst he
    rw [hflag, ht] at hc'
    exact (hc hc').append_singleton rfl
  | @resumed w permit hun _ he hr =>
    subst he
    rcases hc' with hc' | hc'
    · rw [hr.checked, hun.2] at hc'
      cases hw : w.checks with
      | none => simp [hw] at hc'
      | some b =>
        rw [hw, Option.getD_some] at hc'
        exact since_here tr ⟨w, permit, rfl, by rw [hw, hc']⟩
    · rw [hr.task] at hc'
      cases hc'

/-- The permission was issued by the operation that completed last. -/
theorem AuthorizationStep.issued {tr : List Event} (h : AuthorizationStep c e c')
    (ho : OwnerPhase c.inspectionOwner c.task)
    (hp : ∀ id, c.broadcastPermit = some id → Issued tr c.inspectionOwner id) :
    ∀ id, c'.broadcastPermit = some id → Issued (tr ++ e.toList) c'.inspectionOwner id := by
  intro id hid
  cases h with
  | revoked hun _ => exact absurd (hun.1.symm.trans hid) (by simp)
  -- a permit that is kept was granted by the same operation
  | kept he hpermit _ hgen =>
    subst he
    obtain ⟨pre, w, post, rfl, hw, hfin, hg⟩ := hp id (hpermit id hid)
    refine ⟨pre, w, post, by simp, hw, hfin, ?_⟩
    intro g hwg
    rcases hg g hwg with hm | ⟨o, hsome, hog⟩
    · exact Or.inl hm
    · rw [hsome, Option.map_some, hog, Option.map_eq_some_iff] at hgen
      exact Or.inr hgen
  -- finishing an inspection records that its generation has ended
  | @finished o hsome _ he hpermit _ _ =>
    subst he
    rw [hpermit] at hid
    obtain ⟨pre, w, post, rfl, hw, hfin, hg⟩ := hp id hid
    refine ⟨pre, w, post ++ [.finished o.generation], by simp, hw, ?_, ?_⟩
    · intro x hx
      rcases List.mem_append.mp hx with hx | hx
      · exact hfin x hx
      · rw [List.mem_singleton.mp hx]
        rfl
    · intro g hwg
      refine Or.inl ?_
      rcases hg g hwg with hm | ⟨o', hsome', hog⟩
      · exact List.mem_append_left _ hm
      · obtain rfl := Option.some.inj (hsome.symm.trans hsome')
        rw [hog]
        simp
  -- the operation that is resumed grants the permit itself
  | @resumed w permit hun ht he hr =>
    subst he
    rw [hr.broadcastPermit, hun.1] at hid
    rw [ht] at ho
    cases permit with
    | none => cases hid
    | some p =>
      obtain rfl := Option.some.inj hid
      exact ⟨tr, w, [], rfl, hr.permits p rfl, by simp,
        fun g hg => Or.inr (hr.owner_generation ho hg)⟩

/-- Every step that leaves recovery complete keeps it, or completes a recovery. -/
theorem CoordinatorStep.recovered {tr : List Event} (hstep : CoordinatorStep lib identity c e c')
    (hmark : ∀ a, c.task = some (.saved (.own (.broadcast a))) → c.recoveryComplete = false)
    (h : c.recoveryComplete = true → Recovered tr) :
    c'.recoveryComplete = true → Recovered (tr ++ e.toList) := by
  intro hr
  -- the recovery of before still counts, unless something was sent or loaded since
  have hkeep (hc : c.recoveryComplete = true) (he : ∀ x, e = some x → x.isSentOrLoaded = false) :
      Recovered (tr ++ e.toList) := (h hc).append_option he
  have hone {x : Event} (hx : x.isSentOrLoaded = false) :
      ∀ y, some x = some y → y.isSentOrLoaded = false := by
    intro y hy
    obtain rfl := Option.some.inj hy
    exact hx
  cases hstep with
  | begun _ _ _ _ => exact hkeep hr (hone rfl)
  | owner _ hm =>
    refine hkeep hr ?_
    cases hm with
    | headRejected _ _ _ => exact hone rfl
    | bracketFailed _ _ => exact hone rfl
    | abandoned _ => exact hone rfl
    | _ => simp
  | finished _ _ _ _ _ _ _ _ => exact hkeep hr (hone rfl)
  | headAnswered _ _ hout =>
    refine hkeep hr ?_
    rcases hout with ⟨_, rfl⟩ | ⟨_, rfl⟩
    · simp
    · exact hone rfl
  | recovering _ _ _ _ _ _ _ _ => cases hr
  | recoverEnded _ _ hmono _ => exact hkeep (hmono hr) (by simp)
  | inclusionsEnded _ _ hmono _ _ => exact hkeep (hmono hr) (by simp)
  | inclusionsFailed _ _ hmono => exact hkeep (hmono hr) (hone rfl)
  | wrote hplan _ _ =>
    refine hkeep ?_ (hone rfl)
    cases hplan with
    | broadcast _ _ => cases hr
    | _ => exact hr
  | broadcastEnded _ => cases hr
  | sentAgain _ _ => cases hr
  | acked _ _ => exact hkeep hr (hone rfl)
  | storeFailed _ _ hmono _ _ => exact hkeep (hmono hr) (by simp)
  | storeFailedOwned _ _ hmono _ _ => exact hkeep (hmono hr) (by simp)
  | @resumed w permit _ _ hres =>
    rw [hres.recovered, Bool.or_eq_true] at hr
    rcases hr with hr | hr
    · exact since_here tr ⟨w, permit, rfl, hr⟩
    · exact hkeep hr (hone rfl)
  | sentMarked ht => exact absurd ((hmark _ ht).symm.trans hr) (by simp)
  | retried _ => exact hkeep hr (hone rfl)
  | _ => exact hkeep hr (by simp)

/-- The current inspection is live unless it is abandoned or its bracket failed.
While the head is opening the bracket is marked failed in advance. -/
def OwnerLive (tr : List Event) (c : SignerCoordinator) : Prop :=
  ∀ o, c.inspectionOwner = some o → o.abandoning = false →
    (o.headBracket ≠ .failed ∨ ∃ client head, c.task = some (.openingHead client head)) →
    LiveInspection tr o.generation

theorem OwnerLive.of_none {tr : List Event} (h : c.inspectionOwner = none) : OwnerLive tr c := by
  intro o ho
  rw [h] at ho
  cases ho

/-- Steps whose event leaves inspections alone, and that change of the owner only
what liveness does not read. -/
theorem OwnerLive.keep {tr : List Event} (h : OwnerLive tr c)
    (he : ∀ x, e = some x → x.endsInspection = false)
    (ho : ∀ o', c'.inspectionOwner = some o' → o'.abandoning = false →
      (o'.headBracket ≠ .failed ∨ ∃ client head, c'.task = some (.openingHead client head)) →
      ∃ o, c.inspectionOwner = some o ∧ o.generation = o'.generation ∧ o.abandoning = false ∧
        (o.headBracket ≠ .failed ∨ ∃ client head, c.task = some (.openingHead client head))) :
    OwnerLive (tr ++ e.toList) c' := by
  intro o' hsome ha hb
  obtain ⟨o, hsome', hg, ha', hb'⟩ := ho o' hsome ha hb
  rw [← hg]
  exact (h o hsome' ha' hb').append_option he

/-- The same for an owner that a settling operation leaves. -/
theorem OwnerLive.settled {tr : List Event} (h : OwnerLive tr c)
    (he : ∀ x, e = some x → x.endsInspection = false) (ht : c'.task = none)
    {f : InspectionOwner → InspectionOwner} (ho : c'.inspectionOwner = c.inspectionOwner.map f)
    (hf : ∀ o, c.inspectionOwner = some o → (f o).generation = o.generation ∧
      (f o).abandoning = o.abandoning ∧ ((f o).headBracket ≠ .failed → o.headBracket ≠ .failed)) :
    OwnerLive (tr ++ e.toList) c' := by
  refine h.keep he ?_
  intro o' hsome ha hb
  rw [ho, Option.map_eq_some_iff] at hsome
  obtain ⟨o, hsome, rfl⟩ := hsome
  obtain ⟨hg, hab, hbr⟩ := hf o hsome
  refine ⟨o, hsome, hg.symm, hab ▸ ha, Or.inl ?_⟩
  rcases hb with hb | ⟨_, _, hb⟩
  · exact hbr hb
  · rw [ht] at hb
    cases hb

theorem OwnerLive.step {tr : List Event} (h : OwnerLive tr c)
    (ho : OwnerPhase c.inspectionOwner c.task) (hstep : CoordinatorStep lib identity c e c') :
    OwnerLive (tr ++ e.toList) c' := by
  have hone {x : Event} (hx : x.endsInspection = false) :
      ∀ y, some x = some y → y.endsInspection = false := by
    intro y hy
    obtain rfl := Option.some.inj hy
    exact hx
  -- most steps leave the owner as it is and open no head
  have hsame (he : ∀ x, e = some x → x.endsInspection = false)
      (hown : c'.inspectionOwner = c.inspectionOwner)
      (ht : c'.task = c.task ∨ ∀ client head, c'.task ≠ some (.openingHead client head)) :
      OwnerLive (tr ++ e.toList) c' := by
    refine h.keep he ?_
    intro o hsome ha hb
    refine ⟨o, hown ▸ hsome, rfl, ha, ?_⟩
    rcases hb with hb | ⟨client, head, hb⟩
    · exact Or.inl hb
    · rcases ht with ht | ht
      · exact Or.inr ⟨client, head, ht ▸ hb⟩
      · exact absurd hb (ht client head)
  cases hstep with
  | begun _ _ _ _ =>
    intro o hsome _ _
    obtain rfl := Option.some.inj hsome
    exact since_here tr rfl
  | @owner o o' _ revoke hsome hm =>
    have hidle (ha : o.activeOperation ≠ some .running) : c.task = none := by
      rw [hsome] at ho
      exact ho.task_none ha
    have hkeep (he : e = none) (hg : o'.generation = o.generation)
        (hab : o'.abandoning = o.abandoning) (hb : o'.headBracket = o.headBracket) :
        OwnerLive (tr ++ e.toList) (c.moveOwner o' revoke) := by
      subst he
      refine h.keep (by simp) ?_
      intro x hx ha hbx
      obtain rfl := Option.some.inj hx
      exact ⟨o, hsome, hg.symm, hab ▸ ha, by rw [← hb]; exact hbx⟩
    -- with a failed bracket there is nothing to show, unless its opening read is still out
    have hfailed (ha : o.activeOperation ≠ some .running) (hb : o'.headBracket = .failed) :
        OwnerLive (tr ++ e.toList) (c.moveOwner o' revoke) := by
      intro x hx _ hbx
      obtain rfl := Option.some.inj hx
      rcases hbx with hbx | ⟨_, _, hbx⟩
      · exact absurd hb hbx
      · rw [show c.task = _ from hbx] at hidle
        cases hidle ha
    cases hm with
    | queued _ _ _ _ => exact hkeep rfl rfl rfl rfl
    | rejected _ _ => exact hkeep rfl rfl rfl rfl
    | settled _ _ => exact hkeep rfl rfl rfl rfl
    | headRejected ha _ _ => exact hfailed (by simp [ha]) rfl
    | bracketFailed ha _ => exact hfailed (by simp [ha]) rfl
    | abandoned _ =>
      intro x hx ha _
      obtain rfl := Option.some.inj hx
      cases ha
  | finished _ _ _ _ _ _ _ _ => exact .of_none rfl
  | abandonmentCompleted _ _ _ => exact .of_none rfl
  | @headOpening o client head hsome _ ha _ _ hb =>
    refine h.keep (by simp) ?_
    intro o' hsome' _ _
    obtain rfl := Option.some.inj hsome'
    exact ⟨o, hsome, rfl, ha, Or.inl (by simp [hb])⟩
  | @headAnswered o client head _ bracket _ hsome ht hout =>
    rcases hout with ⟨_, rfl⟩ | ⟨hb, _⟩
    · refine h.keep (by simp) ?_
      intro o' hsome' ha _
      obtain rfl := Option.some.inj hsome'
      exact ⟨o, hsome, rfl, ha, Or.inr ⟨client, head, ht⟩⟩
    · rw [ht] at ho
      obtain ⟨x, hx, _, _, hfail⟩ := ho
      obtain rfl := Option.some.inj (hsome.symm.trans hx)
      intro o' hsome' _ hb'
      obtain rfl := Option.some.inj hsome'
      rcases hb' with hb' | ⟨_, _, hb'⟩
      · exact absurd (hb.trans hfail) hb'
      · cases hb'
  | @recovering o _ _ hsome _ ha _ hb _ _ _ =>
    refine h.keep (by simp) ?_
    intro o' hsome' _ _
    obtain rfl := Option.some.inj hsome'
    exact ⟨o, hsome, rfl, ha, Or.inl hb⟩
  | @inspecting o _ _ _ _ hsome _ ha _ hb _ _ _ _ _ =>
    refine h.keep (by simp) ?_
    intro o' hsome' _ _
    obtain rfl := Option.some.inj hsome'
    exact ⟨o, hsome, rfl, ha, Or.inl hb⟩
  | @inspectionRefused o _ _ _ _ hsome _ _ _ _ =>
    refine h.keep (by simp) ?_
    intro o' hsome' ha hb
    obtain rfl := Option.some.inj hsome'
    refine ⟨o, hsome, rfl, ha, Or.inl ?_⟩
    rcases hb with hb | ⟨_, _, hb⟩
    · exact hb
    · cases hb
  | recoverEnded _ _ _ _ =>
    exact h.settled (by simp) rfl rfl fun o _ => ⟨rfl, rfl, fun hb => hb⟩
  | inclusionsEnded _ _ _ _ _ =>
    exact h.settled (by simp) rfl rfl fun o _ => ⟨rfl, rfl, fun hb => hb⟩
  | inclusionsFailed _ _ _ =>
    intro o' hsome' _ hb
    obtain rfl := Option.some.inj hsome'
    rcases hb with hb | ⟨_, _, hb⟩
    · exact absurd rfl hb
    · cases hb
  | signing hno _ _ _ _ _ _ => exact .of_none hno
  | prepareEnded _ => exact hsame (by simp) rfl (Or.inr (by simp))
  | wrote hplan _ _ => exact hsame (hone rfl) (by cases hplan <;> rfl) (Or.inr (by simp))
  | broadcastEnded hsend => exact .of_none hsend.owner
  | sentAgain hsend _ => exact .of_none hsend.owner
  | retrying hno _ _ _ _ => exact .of_none hno
  | acked _ _ => exact hsame (hone rfl) rfl (Or.inr (by simp))
  | storeFailed _ _ _ _ _ => exact hsame (by simp) rfl (Or.inr (by simp))
  | storeFailedOwned _ _ _ _ _ =>
    exact h.settled (by simp) rfl rfl fun o _ => ⟨rfl, rfl, fun hb => hb⟩
  | @resumed w _ _ ht hr =>
    rw [ht] at ho
    have hown : OwnsWrite c.inspectionOwner w := ho
    -- a write of an inspection settles the operation of its owner, and any other has found no owner
    cases hg : w.generation? with
    | none =>
      have howner := hr.owner
      simp only [hg, Option.isSome_none, Bool.false_eq_true, if_false] at howner
      exact hsame (hone rfl) howner (Or.inr (by simp [hr.task]))
    | some g =>
      have howner := hr.owner
      simp only [hg, Option.isSome_some, if_true] at howner
      refine h.settled (hone rfl) hr.task howner ?_
      intro o hsome
      refine ⟨rfl, rfl, ?_⟩
      unfold OwnsWrite at hown
      rw [hg] at hown
      obtain ⟨x, hx, _, _, _, hopen⟩ := hown
      obtain rfl := Option.some.inj (hsome.symm.trans hx)
      cases hw : w.isBracketed with
      | false => simp
      | true =>
        intro _ hfail
        have hopened := hopen hw
        rw [hfail] at hopened
        cases hopened
  | sentMarked _ => exact hsame (hone rfl) rfl (Or.inr (by simp))
  | retried _ => exact hsame (hone rfl) rfl (Or.inr (by simp))
  | sendSettled _ => exact hsame (by simp) rfl (Or.inr (by simp))
  | observing _ => exact hsame (by simp) rfl (Or.inl rfl)

end Issue

end Quicknet
