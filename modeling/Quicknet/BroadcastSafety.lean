import Quicknet.ActionAuthorization

/-! What an open gate and a sent payload rest on, in every run. -/
namespace Quicknet

open Interaction Transition SignerCoordinator

/-- The permission was there when the broadcast began: its own marking is all that
was written since. -/
def SendAuthorized (tr : List Event) (a : JournalAttempt) : Prop :=
  ∃ pre mark, tr = pre ++ mark ∧
    (mark = [] ∨ ∃ next, mark = [.write (.broadcast a) next, .acked next]) ∧
    Issued pre none a.attemptId ∧ Recovered pre

/-- What the suspended operation took over from the state in which it began. -/
def TaskTrace (tr : List Event) (c : SignerCoordinator) : Option Task → Prop
  | some (.signing _ _ _ _ _ _ _) => Checked tr
  | some (.storing (.own (.broadcast a))) => c.recoveryComplete = false ∧
      ∃ pre next, tr = pre ++ [.write (.broadcast a) next] ∧ Issued pre none a.attemptId ∧
        Recovered pre
  | some (.saved (.own (.broadcast a))) => c.recoveryComplete = false ∧
      ∃ pre next, tr = pre ++ [.write (.broadcast a) next, .acked next] ∧
        Issued pre none a.attemptId ∧ Recovered pre
  | _ => True

structure ActionInv (tr : List Event) (c : SignerCoordinator) : Prop where
  owner : OwnerPhase c.inspectionOwner c.task
  authorization : AuthorizationPhase c
  checked : c.inclusionChecksComplete = true ∨ retainedFlag c.task = true → Checked tr
  issued : ∀ id, c.broadcastPermit = some id → Issued tr c.inspectionOwner id
  recovered : c.recoveryComplete = true → Recovered tr
  live : OwnerLive tr c
  task : TaskTrace tr c c.task

/-- What an event shows about the authorization it ends, uses or rests on. -/
def ActionOk (tr : List Event) : Event → Prop
  | .finished g => LiveInspection tr g
  | .sent a _ _ => SendAuthorized tr a
  | .write (.prepared _) _ => Checked tr
  | _ => True

section Step

variable {lib : TransactionLibrary} {identity : JournalIdentity} {c c' : SignerCoordinator}
  {e : Option Event} {tr : List Event}

/-- With an owner nothing is being signed or sent. -/
theorem OwnerPhase.taskTrace {o : InspectionOwner} {t : Option Task}
    (h : OwnerPhase (some o) t) : TaskTrace tr c t := by
  cases t with
  | none => trivial
  | some t =>
    cases t with
    | signing _ _ _ _ _ _ _ => cases h
    | storing k =>
      cases k with
      | retry => trivial
      | own w =>
        cases w with
        | broadcast _ => cases h
        | _ => trivial
    | saved k =>
      cases k with
      | retry => trivial
      | own w =>
        cases w with
        | broadcast _ => cases h
        | _ => trivial
    | _ => trivial

theorem ActionInv.sendable {s : TransactionJournalSnapshot} {a : JournalAttempt}
    (h : ActionInv tr c) (hs : c.Sendable s a) : Issued tr none a.attemptId ∧ Recovered tr := by
  have hissued := h.issued _ hs.permit
  rw [hs.owner] at hissued
  exact ⟨hissued, h.recovered hs.recovered⟩

theorem ActionInv.taskTrace (hi : JournalInv (view tr) c) (h : ActionInv tr c)
    (hstep : CoordinatorStep lib identity c e c') : TaskTrace (tr ++ e.toList) c' c'.task := by
  have ho := h.owner
  have ht := h.task
  have howned {o : InspectionOwner} (hsome : c.inspectionOwner = some o) {d : SignerCoordinator}
      {l : List Event} : TaskTrace l d c.task := by
    rw [hsome] at ho
    exact ho.taskTrace
  cases hstep with
  | begun hno hb _ _ =>
    change TaskTrace _ _ c.task
    rw [ho.idle hi hno hb]
    trivial
  | owner hsome _ => exact howned hsome
  | finished hsome _ _ _ _ _ _ _ => exact howned hsome
  | abandonmentCompleted hsome _ _ => exact howned hsome
  | signing _ _ _ _ hopen _ _ =>
    obtain ⟨_, hs⟩ := gateOpen_of_status hopen
    change Checked (tr ++ [])
    rw [List.append_nil]
    exact h.checked (Or.inl hs.checked)
  -- the marker of a send is saved only for what was authorized before
  | wrote hplan _ _ =>
    cases hplan with
    | broadcast hsend _ =>
      obtain ⟨hissued, hrec⟩ := h.sendable hsend
      exact ⟨rfl, tr, _, rfl, hissued, hrec⟩
    | _ => trivial
  -- the snapshot that is acknowledged is the one that the trace shows as pending
  | @acked k s hk hs =>
    cases k with
    | retry => trivial
    | own w =>
      cases w with
      | broadcast a =>
        rw [hk] at ht
        obtain ⟨hrec, pre, next, rfl, hissued, hrecovered⟩ := ht
        have hpend := hi.pending
        rw [hs, view_append_singleton] at hpend
        obtain rfl : s = next := Option.some.inj hpend
        exact ⟨hrec, pre, s, by simp, hissued, hrecovered⟩
      | _ => trivial
  | resumed _ hr =>
    rw [hr.task]
    trivial
  | observing _ =>
    change TaskTrace (tr ++ []) _ c.task
    rw [List.append_nil]
    exact ht
  | _ => trivial

theorem ActionInv.actionOk (h : ActionInv tr c) (hstep : CoordinatorStep lib identity c e c') :
    ∀ x, e = some x → ActionOk tr x := by
  have hone {x : Event} (hx : ActionOk tr x) : ∀ y, some x = some y → ActionOk tr y := by
    intro y hy
    obtain rfl := Option.some.inj hy
    exact hx
  have ht := h.task
  cases hstep with
  | finished hsome ha _ _ _ hb _ _ => exact hone (h.live _ hsome ha (Or.inl hb))
  | wrote hplan _ _ =>
    cases hplan with
    | prepared hk _ _ =>
      rw [hk] at ht
      exact hone ht
    | _ => exact hone trivial
  | sentAgain hsend _ => exact hone ⟨tr, [], by simp, Or.inl rfl, h.sendable hsend⟩
  | sentMarked hk =>
    rw [hk] at ht
    obtain ⟨_, pre, next, hpre, hissued⟩ := ht
    exact hone ⟨pre, _, hpre, Or.inr ⟨next, rfl⟩, hissued⟩
  | owner _ hm => cases hm <;> first | exact hone trivial | simp
  | headAnswered _ _ hout => rcases hout with ⟨_, rfl⟩ | ⟨_, rfl⟩ <;> first | exact hone trivial | simp
  | begun _ _ _ _ => exact hone trivial
  | inclusionsFailed _ _ _ => exact hone trivial
  | acked _ _ => exact hone trivial
  | resumed _ _ => exact hone trivial
  | retried _ => exact hone trivial
  | _ => simp

theorem ActionInv.step (hi : JournalInv (view tr) c) (h : ActionInv tr c)
    (hstep : CoordinatorStep lib identity c e c') : ActionInv (tr ++ e.toList) c' := by
  obtain ⟨hphase, hauth⟩ := h.authorization.step hi h.owner hstep
  refine ⟨h.owner.step hi hstep, hphase, hauth.checked h.checked, hauth.issued h.owner h.issued,
    hstep.recovered ?_ h.recovered, h.live.step h.owner hstep, h.taskTrace hi hstep⟩
  intro a ha
  have ht := h.task
  rw [ha] at ht
  exact ht.1

theorem Created.actionInv {read : Option TransactionJournalSnapshot} (h : Created read c) :
    ActionInv tr c := by
  have hun : Unauthorized c := ⟨h.broadcastPermit, h.inclusionChecksComplete⟩
  refine ⟨by rw [h.task]; trivial, .of_unauthorized hun, ?_, ?_, ?_, .of_none h.owner,
    by rw [h.task]; trivial⟩
  · rintro (hc | hc)
    · exact absurd (hun.2.symm.trans hc) (by simp)
    · rw [h.task] at hc
      cases hc
  · intro id hid
    exact absurd (hun.1.symm.trans hid) (by simp)
  · intro hr
    exact absurd (h.recoveryComplete.symm.trans hr) (by simp)

end Step

section Runs

variable (lib : TransactionLibrary) (identity : JournalIdentity)

theorem runSigner_actions (is : List Input) :
    EachEvent ActionOk (runSigner lib identity is).2 ∧
      ∀ c, (runSigner lib identity is).1 = .running c → ActionInv (runSigner lib identity is).2 c := by
  refine runSigner_running lib identity ActionInv ActionOk ?_ ?_ (fun _ _ => trivial)
    (fun _ _ => trivial) (fun _ _ _ => trivial) is
  · intro tr read c h _
    exact h.actionInv
  · intro tr c e c' hr _ h hstep
    exact ⟨h.actionOk hstep, h.step hr.journal hstep⟩

end Runs

/-! What the last inclusion pass found. -/

/-- The operation that completed last is an inclusion pass. It recorded `s`, whose
attempts it found included, and made the reads in `log`. -/
def LastPass (tr : List Event) (s : TransactionJournalSnapshot) (log : RpcLog) : Prop :=
  ∃ pre generation base head range bracketed o eligible permit post,
    tr = pre ++ .completed (.inclusions generation base head range bracketed log o s.attempts true
      eligible) permit :: post ∧
    (∀ x ∈ post, x.isFinished = true) ∧
    InclusionPass base head log o s.attempts true eligible ∧
    s = { base with
      lastObservation :=
        retainObservation base.showsUnattributedActivity base.lastObservation o
      attempts := s.attempts }

section Pass

variable {lib : TransactionLibrary} {identity : JournalIdentity} {tr : List Event}
  {s : TransactionJournalSnapshot}

theorem view_finished {post : List Event} (h : ∀ x ∈ post, x.isFinished = true) :
    view (tr ++ post) = view tr := by
  induction post using List.reverseRecOn with
  | nil => simp
  | append_singleton post x ih =>
    rw [← List.append_assoc, view_append_singleton,
      ih fun y hy => h y (List.mem_append_left _ hy)]
    have hx := h x (by simp)
    cases x with
    | finished g => rfl
    | _ => cases hx

/-- A completed operation's write is in the journal and was recorded over the
journal that was applied before. -/
theorem TraceOk.completed {pre post : List Event} {w : JournalWrite} {permit : Option AttemptId}
    (h : TraceOk lib identity (pre ++ .completed w permit :: post)) :
    (view pre).unapplied = some w ∧ ∃ t, (view pre).journal = some t ∧
      Writes identity (view pre).applied w t := by
  have hv : ViewOk lib identity (view pre) := TraceOk.viewOk h.of_append
  have hu := (h pre (.completed w permit) post rfl).2
  exact ⟨hu, (hv.unapplied w hu).2⟩

/-- After a completed operation and ends of inspections the journal is still the
one that the operation wrote. -/
theorem view_completed {pre post : List Event} {w : JournalWrite} {permit : Option AttemptId}
    (h : ∀ x ∈ post, x.isFinished = true) :
    (view (pre ++ .completed w permit :: post)).journal = (view pre).journal := by
  have hsplit : pre ++ .completed w permit :: post = (pre ++ [.completed w permit]) ++ post := by
    simp
  rw [hsplit, view_finished h, view_append_singleton]
  rfl

theorem Checked.lastPass (h : Checked tr) (htr : TraceOk lib identity tr)
    (hs : (view tr).journal = some s) : ∃ log, LastPass tr s log := by
  obtain ⟨pre, e, post, rfl, ⟨w, permit, rfl, hw⟩, hfin⟩ := h
  obtain ⟨_, t, hj, hwrites⟩ := htr.completed
  rw [view_completed hfin, hj] at hs
  obtain rfl := Option.some.inj hs
  cases w with
  | inclusions g base head range bracketed log o attempts complete eligible =>
    obtain rfl : complete = true := Option.some.inj hw
    generalize (view pre).applied = applied at hwrites
    cases hwrites with
    | inclusions hp =>
      exact ⟨log, pre, g, base, head, range, bracketed, o, eligible, permit, post, rfl, hfin, hp,
        rfl⟩
  | _ => cases hw

theorem ContiguousFrom.exists_last {n : ℕ} {l : List JournalAttempt} (h : ContiguousFrom n l)
    (hl : l ≠ []) : ∃ a ∈ l, a.nonce+1 = n + l.length := by
  induction l generalizing n with
  | nil => exact absurd rfl hl
  | cons a l ih =>
    by_cases hempty : l = []
    · subst hempty
      exact ⟨a, by simp, by simp [h.1]⟩
    · obtain ⟨b, hb, hn⟩ := ih h.2 hempty
      exact ⟨b, List.mem_cons_of_mem _ hb, by rw [hn, List.length_cons]; omega⟩

/-- When nothing else used the key, the pass observed exactly the next nonce. -/
theorem LastPass.observed {log : RpcLog} (h : LastPass tr s log) (hv : SnapshotValid identity s)
    (hno : s.showsUnattributedActivity = false) :
    s.lastObservation.nonce = s.nextNonce ∧ NonceSeen log s.identity.signer s.lastObservation := by
  obtain ⟨_, g, base, head, range, bracketed, o, eligible, permit, _, _, _, hp, hs⟩ := h
  have hnext : s.nextNonce ≤ o.nonce := by
    by_cases hempty : s.attempts = []
    · have hlen := hv.length_attempts
      have hdur : s.durableNextNonce = base.durableNextNonce := by rw [hs]
      have hle := hp.durable_le
      simp only [hempty, List.length_nil] at hlen
      omega
    · obtain ⟨a, ha, hn⟩ := hv.contiguous.exists_last hempty
      have hlt := (hp.complete_checked rfl a ha).1
      have hlen := hv.length_attempts
      omega
  have hle : s.lastObservation.nonce ≤ s.nextNonce := by
    simpa [TransactionJournalSnapshot.showsUnattributedActivity] using hno
  have hlast : s.lastObservation = retainObservation base.showsUnattributedActivity
      base.lastObservation o := by rw [hs]
  have hobs : s.lastObservation = o := by
    rw [hlast]
    unfold retainObservation at hlast ⊢
    split_ifs at hlast ⊢ with hk
    · -- Retained evidence of other activity would show in the recorded journal.
      rw [hlast] at hle
      omega
    · rfl
  have hid : s.identity = base.identity := by rw [hs]
  rw [hobs] at hle
  exact ⟨by rw [hobs]; omega, by rw [hobs, hid]; exact hp.nonceSeen⟩

end Pass

section Gate

variable (lib : TransactionLibrary) (identity : JournalIdentity)

/-- An open gate, and the attempt that a preparation records behind it. -/
theorem open_gate_guarantees (is : List Input) :
    (∀ c, (runSigner lib identity is).1 = .running c → c.status.isOpen = true →
      ∃ s log, c.persistence.current = some s ∧ c.persistence.state = .idle ∧
        c.blockers.isEmpty = true ∧ LastPass (runSigner lib identity is).2 s log ∧
        (∀ a ∈ s.attempts, ∃ i, a.phase = .included i ∧
          InclusionChecked log s.identity.signer a.nonce i) ∧
        ContiguousFrom s.durableNextNonce s.attempts ∧
        s.durableNextNonce + s.attempts.length = s.nextNonce ∧
        s.lastObservation.nonce = s.nextNonce) ∧
    EachEvent (fun pre e => ∀ a next, e = .write (.prepared a) next →
      ∃ s log, (view pre).journal = some s ∧ LastPass pre s log ∧
        next = { s with nextNonce := s.nextNonce+1, attempts := s.attempts ++ [a] } ∧
        a.nonce = s.lastObservation.nonce ∧ a.nonce = s.nextNonce ∧
        (∀ t ∈ a.signedTransactions.toList,
          (lib.parseTransaction t.signedTransaction).bind (·.nonce) = some a.nonce) ∧
        a.replacementSearch = some ⟨s.lastObservation, none⟩ ∧
        NonceSeen log s.identity.signer s.lastObservation)
      (runSigner lib identity is).2 := by
  have htrace := (runSigner_follows lib identity is).1
  have hactions := runSigner_actions lib identity is
  refine ⟨?_, ?_⟩
  · intro c hc hopen
    have hr := runSigner_reached lib identity is hc
    have hv : ViewOk lib identity (view (runSigner lib identity is).2) := TraceOk.viewOk hr.trace
    obtain ⟨s, hs⟩ := gateOpen_of_status hopen
    have hj := hr.journal.current.symm.trans hs.current
    have hok := hv.journal s hj
    obtain ⟨log, hpass⟩ :=
      ((hactions.2 c hc).checked (Or.inl hs.checked)).lastPass htrace hj
    -- an open gate has no blocker, so that the journal shows no activity of others
    have hno : s.showsUnattributedActivity = false := by
      have hun := hr.journal.unattributed
      rw [hv.applied (hr.journal.phase.of_not_busy hs.busy).1, hj, Option.any_some] at hun
      have hempty := hs.unblocked
      simp only [CoordinatorBlockers.isEmpty, hun, Bool.and_eq_true, Bool.not_eq_true'] at hempty
      exact hempty.1
    have hchecked (a : JournalAttempt) (ha : a ∈ s.attempts) : ∃ i, a.phase = .included i ∧
        InclusionChecked log s.identity.signer a.nonce i := by
      obtain ⟨_, _, base, _, _, _, _, _, _, _, _, _, hp, heq⟩ := hpass
      have hid : s.identity = base.identity := by rw [heq]
      rw [hid]
      exact (hp.complete_checked rfl a ha).2
    exact ⟨s, log, hs.current, hs.idle, hs.unblocked, hpass, hchecked, hok.contiguous,
      hok.length_attempts, (hpass.observed hok.toSnapshotValid hno).1⟩
  · rintro pre _ post hsplit a next rfl
    rw [hsplit] at htrace
    have hact := hactions.1 pre _ post hsplit
    have hv : ViewOk lib identity (view pre) := TraceOk.viewOk htrace.of_append
    have hpre : TraceOk lib identity pre := htrace.of_append
    obtain ⟨_, _, hw, hver⟩ := htrace pre (.write (.prepared a) next) post rfl
    generalize hj : (view pre).journal = base at hw
    cases hw with
    | @prepared s attemptId workId createdAt signed hno hall =>
      have hok := hv.journal s hj
      obtain ⟨log, hpass⟩ := Checked.lastPass hact hpre hj
      obtain ⟨hnonce, hseen⟩ := hpass.observed hok.toSnapshotValid hno
      refine ⟨s, log, rfl, hpass, rfl, hnonce.symm, rfl, ?_, rfl, hseen⟩
      intro t ht
      refine verifyJournalAttempt_nonce (hver.verified _ ?_) ht
      simp [preparedSnapshot]

end Gate

/-! Eligibility of a sent payload. -/

/-- The event only concerns inspections. -/
def Event.isInspection : Event → Bool
  | .begun _ | .finished _ | .abandoned _ | .headFailed _ => true
  | _ => false

/-- Between the completion of its operation and the use of the permission the
inspection ended, neither abandoned nor with a failed head. -/
def FinishedLive (completed ends : List Event) (generation : ℕ) : Prop :=
  ∃ l r, ends = l ++ .finished generation :: r ∧ LiveInspection (completed ++ l) generation

/-- What the operation that issued the permission had established about the
attempt. -/
inductive PermissionBasis (completed ends : List Event) (a : JournalAttempt) : JournalWrite → Prop
  | prepared {b : JournalAttempt} : b.record = a.record →
      PermissionBasis completed ends a (.prepared b)
  | recovery {generation range : ℕ} {base : TransactionJournalSnapshot} {anchor : BlockAnchor}
      {log : RpcLog} {o : AnchoredNonceObservation} {receipt : AttemptReceiptResult}
      {b : JournalAttempt} : FinishedLive completed ends generation →
      base.attempts.head? = some b → b.record = a.record → b.phase.isIncluded = false →
      o.anchor = anchor → NonceSeen log base.identity.signer o → o.nonce = b.nonce →
      (∀ h ∈ b.signedTransactions.hashes, NoCanonicalReceipt log h) →
      PermissionBasis completed ends a
        (.recovery generation base anchor range log (.unresolved o receipt none))
  | inclusions {generation : ℕ} {range : Option ℕ} {base : TransactionJournalSnapshot}
      {head : BlockAnchor} {bracketed complete : Bool} {log : RpcLog}
      {o : AnchoredNonceObservation} {front back : List JournalAttempt} {b : JournalAttempt}
      {eligible : Option AttemptId} : FinishedLive completed ends generation →
      b ∈ base.attempts → b.record = a.record → b.phase.isIncluded = false →
      o.anchor = head → NonceSeen log base.identity.signer o → o.nonce = b.nonce →
      (∀ h ∈ b.signedTransactions.hashes, NoCanonicalReceipt log h) →
      (∀ x ∈ front, ∃ i, x.phase = .included i ∧
        InclusionChecked log base.identity.signer x.nonce i) →
      PermissionBasis completed ends a (.inclusions generation base head range bracketed log o
        (front ++ b :: back) complete eligible)

/-- Why the payload of `a` may be sent after `tr`. -/
structure SendEligible (tr : List Event) (a : JournalAttempt) (blockers : CoordinatorBlockers) :
    Prop where
  oldest : ∃ s front b back, (view tr).journal = some s ∧ s.attempts = front ++ b :: back ∧
    b.record = a.record ∧ b.phase = .broadcastMayHaveOccurred ∧
    (∀ x ∈ front, x.phase.isIncluded = true) ∧ s.lastObservation.nonce = b.nonce
  unblocked : blockers.isEmpty = true
  recovered : Recovered tr
  permission : ∃ before s quiet w ends mark,
    tr = before ++ .acked s :: quiet ++ .completed w (some a.attemptId) :: ends ++ mark ∧
    (view before).pending = some (w, s) ∧ (∀ x ∈ quiet, x.isInspection = true) ∧
    (∀ x ∈ ends, x.isFinished = true) ∧
    (mark = [] ∨ ∃ next, mark = [.write (.broadcast a) next, .acked next]) ∧
    PermissionBasis (before ++ .acked s :: quiet ++ [.completed w (some a.attemptId)]) ends a w

section Eligible

variable {lib : TransactionLibrary} {identity : JournalIdentity} {tr : List Event}

theorem recoveryPermit_some {blockers : CoordinatorBlockers} {base : TransactionJournalSnapshot}
    {result : SignerRecoveryInspection} {id : AttemptId}
    (h : recoveryPermit blockers base result = some id) :
    ∃ o receipt b, result = .unresolved o receipt none ∧ base.attempts.head? = some b ∧
      b.attemptId = id ∧ b.phase.isIncluded = false ∧ o.nonce = b.nonce ∧
      receipt.isAbsent = true := by
  unfold recoveryPermit at h
  split at h
  · rename_i o receipt b rest hs
    split_ifs at h with hc
    exact ⟨o, receipt, b, rfl, by rw [hs]; rfl, Option.some.inj h, hc.1, hc.2.1, hc.2.2.2⟩
  · cases h

theorem AttemptReceiptResult.isAbsent_iff {r : AttemptReceiptResult} :
    r.isAbsent = true ↔ r = .receiptNotFound ∨ ∃ i c, r = .forkServedReceipt i c := by
  cases r <;> simp [AttemptReceiptResult.isAbsent]

/-- An acknowledged write that is not applied was acknowledged last. -/
theorem TraceOk.unapplied_acked (h : TraceOk lib identity tr) {w : JournalWrite}
    (hu : (view tr).unapplied = some w) :
    ∃ pre s post, tr = pre ++ .acked s :: post ∧ (view pre).pending = some (w, s) ∧
      ∀ x ∈ post, x.isInspection = true := by
  induction tr using List.reverseRecOn with
  | nil => cases hu
  | append_singleton tr e ih =>
    have he := h tr e [] (by simp)
    have hkeep (hx : e.isInspection = true) (hv : (view tr).unapplied = some w) :
        ∃ pre s post, tr ++ [e] = pre ++ .acked s :: post ∧
          (view pre).pending = some (w, s) ∧ ∀ x ∈ post, x.isInspection = true := by
      obtain ⟨pre, s, post, rfl, hp, hq⟩ := ih h.of_append hv
      refine ⟨pre, s, post ++ [e], by simp, hp, ?_⟩
      intro x hm
      rcases List.mem_append.mp hm with hm | hm
      · exact hq x hm
      · rw [List.mem_singleton.mp hm]
        exact hx
    rw [view_append_singleton] at hu
    cases e with
    | acked s =>
      obtain ⟨w', hp⟩ := he
      simp only [JournalView.advance, hp, Option.map_some, Option.some.injEq] at hu
      subst hu
      exact ⟨tr, s, [], rfl, hp, by simp⟩
    | write w' next => exact absurd (he.2.1.symm.trans hu) (by simp)
    | loaded _ => cases hu
    | completed _ _ => cases hu
    | retried => cases hu
    | sent _ _ _ => cases hu
    | begun _ => exact hkeep rfl hu
    | finished _ => exact hkeep rfl hu
    | abandoned _ => exact hkeep rfl hu
    | headFailed _ => exact hkeep rfl hu

/-- The journal behind a permission and the mark of its broadcast retain what the
issuing operation's journal retained. -/
theorem TraceOk.retains_marked {pre mark : List Event} {a : JournalAttempt}
    {r : JournalAttempt.Record} (h : TraceOk lib identity (pre ++ mark))
    (hmark : mark = [] ∨ ∃ next, mark = [.write (.broadcast a) next, .acked next])
    (hr : Retains pre r) : Retains (pre ++ mark) r := by
  rcases hmark with rfl | ⟨next, rfl⟩
  · simpa using hr
  · obtain ⟨s, b, hs, hb, rfl⟩ := hr
    obtain ⟨_, _, hw, _⟩ := h pre (.write (.broadcast a) next) [.acked next] rfl
    rw [hs] at hw
    rcases hw.records with ⟨_, _, _, _, _, _, _, heq, _⟩ | ⟨added, hadd⟩
    · cases heq
    · have hm : b.record ∈ next.attempts.map JournalAttempt.record := by
        rw [hadd]
        exact List.mem_append_left _ (List.mem_map_of_mem hb)
      obtain ⟨c, hc, hrec⟩ := List.mem_map.mp hm
      have hsplit : pre ++ [.write (.broadcast a) next, .acked next] =
          (pre ++ [.write (.broadcast a) next]) ++ [.acked next] := by simp
      exact ⟨next, c, by rw [hsplit, view_append_singleton]; rfl, hc, hrec⟩

/-- In one journal an attempt's identity determines its record. -/
theorem Retains.record_eq (h : TraceOk lib identity tr) {r r' : JournalAttempt.Record}
    (hr : Retains tr r) (hr' : Retains tr r') (hid : r.attemptId = r'.attemptId) : r = r' := by
  obtain ⟨s, b, hs, hb, rfl⟩ := hr
  obtain ⟨s', b', hs', hb', rfl⟩ := hr'
  obtain rfl := Option.some.inj (hs.symm.trans hs')
  rw [(h.viewOk.journal s hs).attempt_of_id hb hb' hid]

/-- What the issuing operation established is about the attempt that is sent. -/
theorem TraceOk.permissionBasis {issue ends mark : List Event} {w : JournalWrite}
    {a : JournalAttempt}
    (h : TraceOk lib identity (issue ++ .completed w (some a.attemptId) :: ends ++ mark))
    (hact : EachEvent ActionOk (issue ++ .completed w (some a.attemptId) :: ends ++ mark))
    (hw : w.Permits a.attemptId) (hends : ∀ x ∈ ends, x.isFinished = true)
    (hfin : ∀ g, w.generation? = some g → .finished g ∈ ends)
    (hmark : mark = [] ∨ ∃ next, mark = [.write (.broadcast a) next, .acked next])
    (ha : Retains (issue ++ .completed w (some a.attemptId) :: ends ++ mark) a.record) :
    PermissionBasis (issue ++ [.completed w (some a.attemptId)]) ends a w := by
  have hpre : TraceOk lib identity (issue ++ .completed w (some a.attemptId) :: ends) :=
    h.of_append
  obtain ⟨_, t, hj, hwrites⟩ := hpre.completed
  -- the permission names an attempt, and the journal has one record under its identity
  have hrecord {b x : JournalAttempt} (hx : x ∈ t.attempts) (hb : x.record = b.record)
      (hid : b.attemptId = a.attemptId) : b.record = a.record := by
    have hret : Retains (issue ++ .completed w (some a.attemptId) :: ends) b.record :=
      ⟨t, x, by rw [view_completed hends]; exact hj, hx, hb⟩
    exact (h.retains_marked hmark hret).record_eq h ha hid
  -- an inspection that issued the permission was live when it finished
  have hlive {g : ℕ} (hg : w.generation? = some g) :
      FinishedLive (issue ++ [.completed w (some a.attemptId)]) ends g := by
    obtain ⟨l, r, rfl⟩ := List.append_of_mem (hfin g hg)
    refine ⟨l, r, rfl, ?_⟩
    have hok : LiveInspection (issue ++ .completed w (some a.attemptId) :: l) g :=
      hact (issue ++ .completed w (some a.attemptId) :: l) (.finished g) (r ++ mark) (by simp)
    simpa using hok
  generalize happ : (view issue).applied = applied at hwrites
  -- a write keeps the records that it was planned on, except where it resolves one
  have hbase {base : TransactionJournalSnapshot} {b : JournalAttempt} (hb : b ∈ base.attempts)
      (hwb : Writes identity (some base) w t) (hres : ∀ g base anchor range log o e, w ≠ .recovery g base anchor range log
        (.resolutionAvailable o e)) :
      ∃ x ∈ t.attempts, x.record = b.record := by
    rcases hwb.records with ⟨_, _, _, _, _, _, _, rfl, _⟩ | ⟨added, hadd⟩
    · exact absurd rfl (hres _ _ _ _ _ _ _)
    · have hm : b.record ∈ t.attempts.map JournalAttempt.record := by
        rw [hadd]
        exact List.mem_append_left _ (List.mem_map_of_mem hb)
      exact List.mem_map.mp hm
  cases w with
  | prepared b =>
    cases hwrites with
    | prepared _ _ => exact .prepared (hrecord (by simp [preparedSnapshot]) rfl hw)
  | recovery g base anchor range log result =>
    obtain ⟨blockers, hpermit⟩ := hw
    obtain ⟨o, receipt, b, rfl, hhead, hid, hphase, hnonce, habsent⟩ := recoveryPermit_some hpermit
    have hb : b ∈ base.attempts := List.mem_of_mem_head? hhead
    have hwb := hwrites
    cases hwrites with
    | recovery hr _ _ =>
      obtain ⟨x, hx, hrec⟩ := hbase hb hwb (by simp)
      rcases inspectSignerRecovery_ok hr with ⟨_, h'⟩ | ⟨_, h', _⟩ | ⟨_, h', _⟩ |
        ⟨attempt, receipt', o', l₁, l₂, hold⟩
      · cases h'
      · cases h'
      · cases h'
      obtain rfl : attempt = b := Option.some.inj (hold.oldest.symm.trans hhead)
      have hsame : o = o' ∧ receipt = receipt' := by
        rcases hold.cases_result with ⟨_, _, _, h'⟩ | h' | ⟨_, h'⟩ | ⟨search, _, _, h'⟩
        · cases h'
        · cases h'
        · obtain ⟨rfl, rfl, _⟩ := SignerRecoveryInspection.unresolved.inj h'
          exact ⟨rfl, rfl⟩
        · cases search with
          | _ => cases h'
      obtain ⟨rfl, rfl⟩ := hsame
      have hno := reconcileAttemptReceipt_absent hold.receipt_ok
        (AttemptReceiptResult.isAbsent_iff.mp habsent)
      exact .recovery (hlive rfl) hhead (hrecord hx hrec hid) hphase hold.anchor_eq hold.nonceSeen
        hnonce fun y hy => (hno y hy).mono hold.receiptLog_subset
  | inclusions g base head range bracketed log o attempts complete eligible =>
    have hwb := hwrites
    cases hwrites with
    | inclusions hp =>
      obtain ⟨front, b, back, rfl, hid, hphase, hmem, hnonce, hno, hfront⟩ :=
        hp.broadcast_candidate a.attemptId hw
      obtain ⟨x, hx, hrec⟩ := hbase hmem hwb (by simp)
      exact .inclusions (hlive rfl) hmem (hrecord hx hrec hid) hphase hp.anchor_eq hp.nonceSeen
        hnonce hno hfront
  | bootstrap _ _ _ _ => exact hw.elim
  | broadcast _ => exact hw.elim
  | repair _ => exact hw.elim

end Eligible

section Sends

variable (lib : TransactionLibrary) (identity : JournalIdentity)

/-- Every payload is sent for the oldest attempt that is not included, at the
observed nonce, unblocked, on a permission that no other write has followed; and
between two sends a recovery completes. -/
theorem sends_eligible (is : List Input) :
    EachEvent (fun pre e => ∀ a payload blockers, e = .sent a payload blockers →
      SendEligible pre a blockers) (runSigner lib identity is).2 ∧
    ∀ pre mid post a b p q ba bb, (runSigner lib identity is).2 =
        pre ++ .sent a p ba :: (mid ++ .sent b q bb :: post) →
      ∃ w permit, .completed w permit ∈ mid ∧ w.recovers = true := by
  have htrace := (runSigner_follows lib identity is).1
  have hactions := (runSigner_actions lib identity is).1
  have heligible : EachEvent (fun pre e => ∀ a payload blockers, e = .sent a payload blockers →
      SendEligible pre a blockers) (runSigner lib identity is).2 := by
    rintro pre _ post hsplit a payload blockers rfl
    rw [hsplit] at htrace hactions
    have hpre : TraceOk lib identity pre := htrace.of_append
    obtain ⟨_, _, _, s, hs, b, hf, hrec, hphase, _, hnonce, hempty⟩ := htrace pre _ post rfl
    obtain ⟨pre', mark, rfl, hmark, ⟨issue, w, ends, rfl, hw, hends, hg⟩, hrecovered⟩ :=
      hactions pre _ post rfl
    -- nobody owns the coordinator at a send, so the inspection that issued the permission is over
    have hfin (g : ℕ) (hgen : w.generation? = some g) : .finished g ∈ ends := by
      rcases hg g hgen with hm | ⟨_, h, _⟩
      · exact hm
      · cases h
    have hb := (firstUnresolved_mem hf).1
    refine ⟨?_, hempty, ?_, ?_⟩
    · obtain ⟨front, back, hsplit, hfront, _⟩ := markBroadcast_split hf
      exact ⟨s, front, b, back, hs, hsplit, hrec, hphase, hfront, hnonce⟩
    · obtain ⟨l, x, r, hl, hx, hr⟩ := hrecovered
      refine ⟨l, x, r ++ mark, by rw [hl]; simp, hx, ?_⟩
      intro y hy
      rcases List.mem_append.mp hy with hy | hy
      · exact hr y hy
      · rcases hmark with rfl | ⟨next, rfl⟩
        · cases hy
        · rcases List.mem_cons.mp hy with rfl | hy
          · rfl
          · rw [List.mem_singleton.mp hy]
            rfl
    · have hret : Retains (issue ++ .completed w (some a.attemptId) :: ends ++ mark) a.record :=
        ⟨s, b, hs, hb, hrec⟩
      have hbasis := hpre.permissionBasis hactions.of_append hw hends hfin hmark hret
      have hissue : TraceOk lib identity (issue ++ .completed w (some a.attemptId) :: ends) :=
        hpre.of_append
      obtain ⟨before, t, quiet, rfl, hpend, hquiet⟩ :=
        TraceOk.unapplied_acked hissue.of_append hissue.completed.1
      exact ⟨before, t, quiet, w, ends, mark, rfl, hpend, hquiet, hends, hmark, hbasis⟩
  refine ⟨heligible, ?_⟩
  intro pre mid post a b p q ba bb hsplit
  have hsplit' : (runSigner lib identity is).2 =
      (pre ++ .sent a p ba :: mid) ++ .sent b q bb :: post := by
    rw [hsplit]
    simp
  have hrec := (heligible _ _ _ hsplit' b q bb rfl).recovered
  obtain ⟨x, hx, w, permit, rfl, hw⟩ := Since.after hrec (by rintro ⟨_, _, h, _⟩; cases h)
    (by simp [Event.isSentOrLoaded])
  exact ⟨w, permit, hx, hw⟩

end Sends

end Quicknet
