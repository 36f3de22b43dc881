import Quicknet.JournalSafety

/-! The two latched blockers over whole runs: when each stands, what it stands
for, and what alone removes it. -/
namespace Quicknet

open Interaction Transition SignerCoordinator

/-- The committed journal shows activity that no recorded attempt explains. -/
def ShowsActivity (s : Option TransactionJournalSnapshot) : Prop :=
  s.any (·.showsUnattributedActivity) = true

/-- `e` commits a nonce repair. -/
def CommitsRepair (pre : List Event) (e : Event) : Prop :=
  ∃ o next, Commits pre (.repair o) next e

theorem showsActivity_iff {s : Option TransactionJournalSnapshot} :
    ShowsActivity s ↔ ∃ t, s = some t ∧ t.nextNonce < t.lastObservation.nonce := by
  cases s <;> simp [ShowsActivity, TransactionJournalSnapshot.showsUnattributedActivity]

section Activity

variable {lib : TransactionLibrary} {identity : JournalIdentity}

/-- The evidence is in the journal and has been taken up. -/
def ActivityTaken (tr : List Event) : Prop :=
  ShowsActivity (view tr).journal ∧ ShowsActivity (view tr).applied

theorem Writes.showsActivity {base : Option TransactionJournalSnapshot} {w : JournalWrite}
    {next : TransactionJournalSnapshot} (h : Writes identity base w next)
    (hw : ∀ o, w ≠ .repair o) (hb : ShowsActivity base) : ShowsActivity (some next) := by
  obtain ⟨s, rfl, hs⟩ := showsActivity_iff.mp hb
  refine h.keeps_unattributed ?_ (by simpa [ShowsActivity] using hb)
  cases w with
  | repair o => exact absurd rfl (hw o)
  | _ => rfl

/-- Only the commit of a repair takes recorded evidence back. -/
theorem TraceOk.activity_step {pre post : List Event} {e : Event}
    (h : TraceOk lib identity (pre ++ e :: post)) (ha : ActivityTaken pre) :
    ActivityTaken (pre ++ [e]) ∨ CommitsRepair pre e := by
  have hv : ViewOk lib identity (view pre) := TraceOk.viewOk h.of_append
  have he := h pre e post rfl
  obtain ⟨hj, hap⟩ := ha
  have hpending {w : JournalWrite} {t : TransactionJournalSnapshot}
      (hp : (view pre).pending = some (w, t)) :
      ShowsActivity (some t) ∨ ∃ o, w = .repair o := by
    by_cases hw : ∃ o, w = .repair o
    · exact Or.inr hw
    · exact Or.inl ((hv.pending w t hp).2.1.showsActivity (not_exists.mp hw) hj)
  unfold ActivityTaken
  rw [view_append_singleton]
  cases e with
  | acked s =>
    obtain ⟨w, hp⟩ := he
    rcases hpending hp with hs | ⟨o, rfl⟩
    · exact Or.inl ⟨hs, hap⟩
    · exact Or.inr ⟨o, s, hp, Or.inl rfl⟩
  | loaded read =>
    rcases he with rfl | ⟨w, t, hp, rfl⟩
    · exact Or.inl ⟨hj, hj⟩
    · rcases hpending hp with hs | ⟨o, rfl⟩
      · exact Or.inl ⟨hs, hs⟩
      · exact Or.inr ⟨o, t, hp, Or.inr rfl⟩
  | completed _ _ => exact Or.inl ⟨hj, hj⟩
  | retried => exact Or.inl ⟨hj, hj⟩
  | sent _ _ _ => exact Or.inl ⟨hj, hj⟩
  | _ => exact Or.inl ⟨hj, hap⟩

theorem TraceOk.activity {pre post : List Event} (h : TraceOk lib identity (pre ++ post))
    (ha : ActivityTaken pre) :
    ActivityTaken (pre ++ post) ∨ ∃ a e b, post = a ++ e :: b ∧ CommitsRepair (pre ++ a) e := by
  refine EachEvent.stays (P := ActivityTaken) ?_ ha
  intro a e b hab
  rw [hab] at h
  exact h.activity_step

end Activity

/-! The exhausted search, and the attempt it belongs to. -/

/-- The event at which an acknowledged write, or a loaded journal, reaches the
blockers. -/
def Event.isApplied : Event → Bool
  | .loaded _ | .completed _ _ | .retried => true
  | _ => false

/-- Applying the write removes the blocker: it resolves the oldest attempt, or
records progress that leaves blocks to search. -/
def JournalWrite.clearsSearch (w : JournalWrite) : Bool :=
  w.kind == .resolution || w.kind == .searchProgress false

/-- The running process found the search for this attempt exhausted, and has not
resolved it or recorded further progress since. -/
inductive ExhaustedSearch : List Event → JournalAttempt.Record → Prop
  | found {tr : List Event} {e : Event} {s : TransactionJournalSnapshot} {a : JournalAttempt} :
      e.isApplied = true → (view (tr ++ [e])).journal = some s → s.attempts.head? = some a →
      (s.showsExhaustedSearch = true ∨
        ∃ w, (view tr).unapplied = some w ∧ w.kind = .searchProgress true) →
      ExhaustedSearch (tr ++ [e]) a.record
  | kept {tr : List Event} {e : Event} {r : JournalAttempt.Record} : ExhaustedSearch tr r →
      (∀ read, e ≠ .loaded read) →
      (e.isApplied = true → ∀ w, (view tr).unapplied = some w → w.clearsSearch = false) →
      ExhaustedSearch (tr ++ [e]) r

/-- The blocker belongs to the oldest attempt of the journal it was derived from. -/
def SearchAttributed (tr : List Event) (c : SignerCoordinator) : Prop :=
  c.blockers.conflictSearchExhausted = true →
    ∃ s a, (view tr).applied = some s ∧ s.attempts.head? = some a ∧ ExhaustedSearch tr a.record

/-- The write resolves the attempt, or records progress of its search that
leaves blocks to search. -/
inductive ClearsSearch (r : JournalAttempt.Record) (base next : TransactionJournalSnapshot) :
    JournalWrite → Prop
  | resolved {generation range : ℕ} {anchor : BlockAnchor} {log : RpcLog}
      {o : AnchoredNonceObservation} {e : AttemptResolutionEvidence} {a : JournalAttempt} :
      a.record = r → ResolvesOldest base anchor log o e a next →
      ClearsSearch r base next
        (.recovery generation base anchor range log (.resolutionAvailable o e))
  | progressed {generation range : ℕ} {anchor through : BlockAnchor} {log : RpcLog}
      {o : AnchoredNonceObservation} {receipt : AttemptReceiptResult} {scanned remaining : ℕ}
      {a b : JournalAttempt} :
      base.attempts.head? = some a → a.record = r → next.attempts.head? = some b → b.record = r →
      0 < scanned → 0 < remaining → b.progress = some through →
      ClearsSearch r base next (.recovery generation base anchor range log
        (.unresolved o receipt (some (.notFound through scanned remaining))))

section Search

variable {lib : TransactionLibrary} {identity : JournalIdentity}

theorem recoveryKind_progress {base : TransactionJournalSnapshot}
    {result : SignerRecoveryInspection} {b : Bool}
    (h : recoveryKind base result = .searchProgress b) :
    base.attempts ≠ [] ∧ ∃ o receipt through scanned remaining,
      result = .unresolved o receipt (some (.notFound through scanned remaining)) ∧
        0 < scanned ∧ b = decide (remaining = 0) := by
  cases result with
  | unresolved o receipt search =>
    simp only [recoveryKind] at h
    split_ifs at h with he
    refine ⟨he, o, receipt, ?_⟩
    cases search with
    | none => simp [searchedBlocks] at h
    | some r =>
      cases r with
      | notFound through scanned remaining =>
        simp only [searchedBlocks] at h
        split_ifs at h with hs
        exact ⟨through, scanned, remaining, rfl, hs, (PendingWrite.searchProgress.inj h).symm⟩
      | _ => simp [searchedBlocks] at h
  | _ => cases h

theorem recoveryKind_resolution {base : TransactionJournalSnapshot}
    {result : SignerRecoveryInspection} (h : recoveryKind base result = .resolution) :
    ∃ o e, result = .resolutionAvailable o e := by
  cases result with
  | resolutionAvailable o e => exact ⟨o, e, rfl⟩
  | unresolved o receipt search =>
    simp only [recoveryKind] at h
    split_ifs at h
    split at h <;> cases h
  | _ => cases h

/-- Blockers change only where a finished write is applied. -/
theorem CoordinatorStep.blockers_eq {c c' : SignerCoordinator} {e : Option Event}
    (h : CoordinatorStep lib identity c e c') :
    (c'.blockers = c.blockers ∧ ∀ x, e = some x → x.isApplied = false) ∨
    ∃ k x, c.task = some (.saved k) ∧ e = some x ∧ x.isApplied = true ∧ (∀ r, x ≠ .loaded r) ∧
      c'.blockers = c.derivedBlockers := by
  have hquiet {x : Event} (hx : x.isApplied = false) : ∀ y, some x = some y → y.isApplied = false := by
    intro y hy
    obtain rfl := Option.some.inj hy
    exact hx
  cases h with
  | resumed ht hr => exact Or.inr ⟨_, _, ht, rfl, rfl, by simp, hr.blockers⟩
  | retried ht => exact Or.inr ⟨_, _, ht, rfl, rfl, by simp, rfl⟩
  | owner _ hm =>
    refine Or.inl ⟨rfl, ?_⟩
    cases hm with
    | headRejected _ _ _ => exact hquiet rfl
    | bracketFailed _ _ => exact hquiet rfl
    | abandoned _ => exact hquiet rfl
    | _ => simp
  | headAnswered _ _ hout =>
    refine Or.inl ⟨rfl, ?_⟩
    rcases hout with ⟨_, rfl⟩ | ⟨_, rfl⟩
    · simp
    · exact hquiet rfl
  | begun _ _ _ _ => exact Or.inl ⟨rfl, hquiet rfl⟩
  | finished _ _ _ _ _ _ _ _ => exact Or.inl ⟨rfl, hquiet rfl⟩
  | inclusionsFailed _ _ _ => exact Or.inl ⟨rfl, hquiet rfl⟩
  | wrote hplan _ _ => exact Or.inl ⟨by cases hplan <;> rfl, hquiet rfl⟩
  | sentAgain _ _ => exact Or.inl ⟨rfl, hquiet rfl⟩
  | sentMarked _ => exact Or.inl ⟨rfl, hquiet rfl⟩
  | acked _ _ => exact Or.inl ⟨rfl, hquiet rfl⟩
  | _ => exact Or.inl ⟨rfl, by simp⟩

/-- The search that a journal shows exhausted is its oldest attempt's. -/
theorem exhausted_head {s : TransactionJournalSnapshot} (hs : s.showsExhaustedSearch = true) :
    ∃ a, s.attempts.head? = some a := by
  cases ha : s.attempts with
  | nil => simp [TransactionJournalSnapshot.showsExhaustedSearch,
      TransactionJournalSnapshot.firstUnresolved, ha] at hs
  | cons a rest => exact ⟨a, rfl⟩

theorem derivedBlockers_exhausted {c : SignerCoordinator} {w : JournalWrite}
    (hp : c.pendingWrite = some w.kind) (h : c.derivedBlockers.conflictSearchExhausted = true) :
    c.persistence.current.any (·.showsExhaustedSearch) = true ∨ w.kind = .searchProgress true ∨
      c.blockers.conflictSearchExhausted = true ∧ w.clearsSearch = false := by
  have hnew : ((applyPendingWrite c.pendingWrite c.blockers).conflictSearchExhausted ||
      c.persistence.current.any (·.showsExhaustedSearch)) = true := h
  rw [Bool.or_eq_true, hp] at hnew
  rcases hnew with hold | hshow
  · unfold JournalWrite.clearsSearch
    cases hk : w.kind with
    | resolution => simp [hk, applyPendingWrite] at hold
    | searchProgress exhausted =>
      have hex : exhausted = true := by simpa [hk, applyPendingWrite] using hold
      exact Or.inr (Or.inl (by rw [hex]))
    | _ => exact Or.inr (Or.inr ⟨by simpa [hk, applyPendingWrite] using hold, by simp⟩)
  · exact Or.inl hshow

/-- A write that does not clear the search keeps the oldest attempt. -/
theorem Writes.head_record {base next : TransactionJournalSnapshot} {w : JournalWrite}
    {a : JournalAttempt} (h : Writes identity (some base) w next) (hw : w.clearsSearch = false)
    (ha : base.attempts.head? = some a) :
    ∃ b, next.attempts.head? = some b ∧ b.record = a.record := by
  rcases h.records with ⟨g, anchor, range, log, o, e, x, rfl, _⟩ | ⟨added, hadd⟩
  · simp [JournalWrite.clearsSearch, JournalWrite.kind, recoveryKind] at hw
  · have hhead : (next.attempts.map JournalAttempt.record).head? = some a.record := by
      rw [hadd, List.head?_append, List.head?_map, ha]
      rfl
    rw [List.head?_map, Option.map_eq_some_iff] at hhead
    exact hhead

/-- An exhausted progress write is about an attempt that it retains. -/
theorem Writes.exhausted_head {base : Option TransactionJournalSnapshot}
    {next : TransactionJournalSnapshot} {w : JournalWrite} (h : Writes identity base w next)
    (hw : w.kind = .searchProgress true) : ∃ a, next.attempts.head? = some a := by
  cases h with
  | @recovery s _ generation anchor range log result _ _ hrec =>
    obtain ⟨hne, _⟩ := recoveryKind_progress hw
    generalize recoveryKind s result = kind at hrec
    cases hrec with
    | searched _ _ _ _ _ => exact ⟨_, rfl⟩
    | observed _ _ _ _ => exact ⟨_, rfl⟩
    | emptied _ hs _ => exact absurd hs hne
    | resolved _ _ _ => cases hw
  | _ => cases hw

theorem SearchAttributed.frame {tr : List Event} {c c' : SignerCoordinator} {e : Option Event}
    (h : SearchAttributed tr c) (hb : c'.blockers = c.blockers)
    (he : ∀ x, e = some x → x.isApplied = false)
    (hv : ∀ s a, (view tr).applied = some s → s.attempts.head? = some a →
      ∃ s' a', (view (tr ++ e.toList)).applied = some s' ∧ s'.attempts.head? = some a' ∧
        a'.record = a.record) : SearchAttributed (tr ++ e.toList) c' := by
  intro hl
  rw [hb] at hl
  obtain ⟨s, a, hs, ha, hex⟩ := h hl
  obtain ⟨s', a', hs', ha', hrec⟩ := hv s a hs ha
  refine ⟨s', a', hs', ha', ?_⟩
  rw [hrec]
  cases e with
  | none => simpa using hex
  | some x =>
    refine hex.kept ?_ ?_
    · rintro read rfl
      exact absurd (he _ rfl) (by simp [Event.isApplied])
    · intro hx
      rw [he x rfl] at hx
      cases hx

/-- The blocker goes on belonging to the oldest attempt. -/
theorem SearchAttributed.step {tr : List Event} {c c' : SignerCoordinator} {e : Option Event}
    (hr : Reached lib identity tr c) (hr' : Reached lib identity (tr ++ e.toList) c')
    (h : SearchAttributed tr c) (hstep : CoordinatorStep lib identity c e c') :
    SearchAttributed (tr ++ e.toList) c' := by
  have hv : ViewOk lib identity (view tr) := TraceOk.viewOk hr.trace
  -- the blockers are as they were, or were derived again from a saved journal
  rcases hstep.blockers_eq with ⟨hb, he⟩ | ⟨k, x, ht, rfl, hx, hload, hb⟩
  · refine h.frame hb he ?_
    intro s a hs ha
    cases e with
    | none => exact ⟨s, a, by simpa using hs, ha, rfl⟩
    | some x =>
      have hone : tr ++ (some x).toList = tr ++ [x] := rfl
      rw [hone, view_append_singleton]
      have hx := he x rfl
      cases x with
      | sent b payload blockers =>
        obtain ⟨_, hu, _, t, hj, _⟩ := hr'.trace tr (.sent b payload blockers) [] rfl
        rcases hu with hu | hu
        · rw [hv.applied hu] at hs
          exact ⟨s, a, hs, ha, rfl⟩
        · obtain ⟨_, t', hj', hw⟩ := hv.unapplied _ hu
          rw [hs] at hw
          obtain ⟨b', hb', hrec⟩ := hw.head_record rfl ha
          exact ⟨t', b', hj', hb', hrec⟩
      | completed _ _ => cases hx
      | retried => cases hx
      | loaded _ => cases hx
      | _ => exact ⟨s, a, hs, ha, rfl⟩
  · intro hl
    have hphase := hr.journal.phase
    rw [ht] at hphase
    obtain ⟨_, _, _, w, hu, hpend, _, _⟩ := hphase
    obtain ⟨_, t, hj, hw⟩ := hv.unapplied w hu
    have hj' : (view (tr ++ [x])).journal = some t ∧ (view (tr ++ [x])).applied = some t := by
      rw [view_append_singleton]
      cases x with
      | loaded r => exact absurd rfl (hload r)
      | completed _ _ => exact ⟨hj, hj⟩
      | retried => exact ⟨hj, hj⟩
      | _ => cases hx
    have hone : tr ++ (some x).toList = tr ++ [x] := rfl
    rw [hone]
    rw [hb] at hl
    have hfound {a : JournalAttempt} (ha : t.attempts.head? = some a)
        (hcause : t.showsExhaustedSearch = true ∨
          ∃ w, (view tr).unapplied = some w ∧ w.kind = .searchProgress true) :
        ∃ s a, (view (tr ++ [x])).applied = some s ∧ s.attempts.head? = some a ∧
          ExhaustedSearch (tr ++ [x]) a.record :=
      ⟨t, a, hj'.2, ha, .found hx hj'.1 ha hcause⟩
    -- the journal shows the exhausted search, or the write records it, or an older one still counts
    rcases derivedBlockers_exhausted hpend hl with hshow | hprog | ⟨hold, hclear⟩
    · rw [hr.journal.current, hj, Option.any_some] at hshow
      obtain ⟨a, ha⟩ := exhausted_head hshow
      exact hfound ha (Or.inl hshow)
    · obtain ⟨a, ha⟩ := hw.exhausted_head hprog
      exact hfound ha (Or.inr ⟨w, hu, hprog⟩)
    · obtain ⟨s, a, hs, ha, hex⟩ := h hold
      rw [hs] at hw
      obtain ⟨b, hb', hrec⟩ := hw.head_record hclear ha
      refine ⟨t, b, hj'.2, hb', ?_⟩
      rw [hrec]
      refine hex.kept hload fun _ w' hw' => ?_
      obtain rfl := Option.some.inj (hu.symm.trans hw')
      exact hclear

/-- A write that clears the search resolves its attempt or records progress of it. -/
theorem Writes.clears {base next : TransactionJournalSnapshot} {w : JournalWrite}
    {a : JournalAttempt} (h : Writes identity (some base) w next) (hw : w.clearsSearch = true)
    (ha : base.attempts.head? = some a) : ClearsSearch a.record base next w := by
  have hrecords := h.records
  cases h with
  | @recovery _ _ generation anchor range log result hr _ hrec =>
    simp only [JournalWrite.clearsSearch, Bool.or_eq_true, beq_iff_eq] at hw
    rcases hw with hk | hk
    · obtain ⟨o, e, rfl⟩ := recoveryKind_resolution hk
      rcases hrecords with ⟨g, anchor', range', log', o', e', x, heq, hres⟩ | ⟨added, hadd⟩
      · obtain ⟨rfl, _, rfl, rfl, rfl, hresult⟩ := JournalWrite.recovery.inj heq
        obtain ⟨rfl, rfl⟩ := SignerRecoveryInspection.resolutionAvailable.inj hresult
        have hx : x = a := by
          rw [hres.oldest] at ha
          exact Option.some.inj ha
        exact .resolved (by rw [hx]) hres
      · -- The resolved attempt would be retained after all.
        generalize recoveryKind base (.resolutionAvailable o e) = kind at hrec
        cases hrec with
        | resolved hs _ _ =>
          have hlen := congrArg List.length hadd
          simp [hs] at hlen
          omega
        | emptied ho _ _ => cases ho
        | observed ho _ _ _ => cases ho
        | searched ho _ _ _ _ => cases ho
    · obtain ⟨hne, o, receipt, through, scanned, remaining, rfl, hscan, hrem⟩ :=
        recoveryKind_progress hk
      have hpos : 0 < remaining := by
        have := of_decide_eq_false hrem.symm
        omega
      generalize recoveryKind base _ = kind at hrec
      cases hrec with
      | emptied _ hs _ => exact absurd hs hne
      | observed ho _ _ hb =>
        obtain ⟨_, rfl⟩ := Prod.mk.inj (Option.some.inj ho)
        simp only [searchedBlocks, if_pos hscan, reduceCtorEq] at hb
      | @searched _ _ _ oldest rest lower _ _ ho hs _ hb _ =>
        obtain ⟨_, rfl⟩ := Prod.mk.inj (Option.some.inj ho)
        simp only [searchedBlocks, if_pos hscan, Option.some.injEq, Prod.mk.injEq] at hb
        obtain ⟨rfl, _⟩ := hb
        have hold : oldest = a := by
          rw [hs] at ha
          exact Option.some.inj ha
        exact .progressed ha rfl rfl (by rw [← hold]; rfl) hscan hpos rfl
  | _ => cases hw

/-- Within a process the blocker goes only when a write that clears the search of
its own attempt is applied. -/
theorem SearchAttributed.cleared {tr : List Event} {c c' : SignerCoordinator} {e : Option Event}
    (hr : Reached lib identity tr c) (h : SearchAttributed tr c)
    (hstep : CoordinatorStep lib identity c e c')
    (hl : c.blockers.conflictSearchExhausted = true)
    (hl' : c'.blockers.conflictSearchExhausted = false) :
    ∃ w base next r, (view tr).unapplied = some w ∧ (view tr).applied = some base ∧
      (view tr).journal = some next ∧ ExhaustedSearch tr r ∧ ClearsSearch r base next w := by
  have hv : ViewOk lib identity (view tr) := TraceOk.viewOk hr.trace
  rcases hstep.blockers_eq with ⟨hb, _⟩ | ⟨k, x, ht, _, _, _, hb⟩
  · rw [hb, hl] at hl'
    cases hl'
  have hphase := hr.journal.phase
  rw [ht] at hphase
  obtain ⟨_, _, _, w, hu, hpend, _, _⟩ := hphase
  obtain ⟨_, next, hj, hw⟩ := hv.unapplied w hu
  obtain ⟨base, a, hs, ha, hex⟩ := h hl
  rw [hs] at hw
  refine ⟨w, base, next, a.record, hu, hs, hj, hex, hw.clears ?_ ha⟩
  rw [hb] at hl'
  have hold : (applyPendingWrite c.pendingWrite c.blockers).conflictSearchExhausted = false := by
    have hor : ((applyPendingWrite c.pendingWrite c.blockers).conflictSearchExhausted ||
      c.persistence.current.any (·.showsExhaustedSearch)) = false := hl'
    exact (Bool.or_eq_false_iff.mp hor).1
  unfold JournalWrite.clearsSearch
  cases hk : w.kind with
  | resolution => rfl
  | searchProgress exhausted =>
    rw [hpend, hk] at hold
    have hex : exhausted = false := hold
    rw [hex]
    rfl
  | _ =>
    rw [hpend, hk] at hold
    exact absurd (hl.symm.trans hold) (by simp)

end Search

theorem Created.searchAttributed {tr : List Event} {read : Option TransactionJournalSnapshot}
    {c : SignerCoordinator} (h : Created read c) : SearchAttributed (tr ++ [.loaded read]) c := by
  intro hl
  rw [h.blockers] at hl
  cases read with
  | none => cases hl
  | some s =>
    obtain ⟨a, ha⟩ := exhausted_head hl
    exact ⟨s, a, by simp [JournalView.advance], ha,
      .found rfl (by simp [JournalView.advance]) ha (Or.inl hl)⟩

section Latches

variable (lib : TransactionLibrary) (identity : JournalIdentity)

theorem runSigner_attributed (is : List Input) {c : SignerCoordinator}
    (hc : (runSigner lib identity is).1 = .running c) :
    SearchAttributed (runSigner lib identity is).2 c := by
  refine (runSigner_running lib identity SearchAttributed (fun _ _ => True) ?_ ?_
    (fun _ _ => trivial) (fun _ _ => trivial) (fun _ _ _ => trivial) is).2 c hc
  · intro tr read c h _
    exact h.searchAttributed
  · intro tr c e c' hr hr' h hstep
    exact ⟨fun _ _ => trivial, h.step hr hr' hstep⟩

/-- Between operations the blocker stands exactly for what the journal shows, and
once taken up the evidence stays latched until a repair is committed. Before it
is taken up, the operation that recorded it is about to resume. -/
theorem unattributed_activity_latched (is : List Input) :
    (∀ c, (runSigner lib identity is).1 = .running c → c.busy = false →
      c.persistence.state = .idle →
      (c.blockers.unattributedSignerActivity = true ↔
        ∃ s, c.persistence.current = some s ∧ s.nextNonce < s.lastObservation.nonce)) ∧
    (∀ pre post, (runSigner lib identity is).2 = pre ++ post → ShowsActivity (view pre).journal →
      (view pre).unapplied = none → (∀ l e r, post = l ++ e :: r → ¬ CommitsRepair (pre ++ l) e) →
      ∀ c, (runSigner lib identity is).1 = .running c →
        c.blockers.unattributedSignerActivity = true) ∧
    ∀ c, (runSigner lib identity is).1 = .running c → ShowsActivity c.persistence.current →
      c.blockers.unattributedSignerActivity = false →
      (∃ k, c.task = some (.saved k)) ∧ c.busy = true ∧ c.status.isOpen = false := by
  obtain ⟨htrace, hworld⟩ := runSigner_follows lib identity is
  have hv := htrace.viewOk
  refine ⟨?_, ?_, ?_⟩
  · intro c hc hb _
    rw [hc] at hworld
    have hj : JournalInv (view (runSigner lib identity is).2) c := hworld
    have hu := (hj.phase.of_not_busy hb).1
    rw [hj.unattributed, hv.applied hu, ← hj.current]
    exact showsActivity_iff
  · intro pre post hsplit hshow hun hno c hc
    rw [hc] at hworld
    have hj : JournalInv (view (runSigner lib identity is).2) c := hworld
    rw [hsplit] at htrace hj
    have hpre : ViewOk lib identity (view pre) := TraceOk.viewOk htrace.of_append
    rcases TraceOk.activity htrace ⟨hshow, by rw [hpre.applied hun]; exact hshow⟩ with
      ⟨_, hap⟩ | ⟨l, e, r, hl, hrep⟩
    · rw [hj.unattributed]
      exact hap
    · exact absurd hrep (hno l e r hl)
  · intro c hc hshow hlatch
    rw [hc] at hworld
    have hj : JournalInv (view (runSigner lib identity is).2) c := hworld
    -- activity without its blocker means a write that is not applied yet
    have hun : (view (runSigner lib identity is).2).unapplied ≠ none := by
      intro hu
      rw [hj.unattributed, hv.applied hu, ← hj.current] at hlatch
      unfold ShowsActivity at hshow
      rw [hshow] at hlatch
      cases hlatch
    have hphase := hj.phase
    cases ht : c.task with
    | none =>
      rw [ht] at hphase
      exact absurd hphase.2.1 hun
    | some t =>
      rw [ht] at hphase
      cases t with
      | saved k =>
        refine ⟨⟨k, rfl⟩, hphase.1, ?_⟩
        simp [status, hphase.1]
      | openingHead _ _ => exact absurd hphase.2.1 hun
      | signing _ _ _ _ _ _ _ => exact absurd hphase.1.2.1 hun
      | recovering _ _ => exact absurd hphase.2.1 hun
      | inspecting _ _ _ => exact absurd hphase.2.1 hun
      | storing _ => exact absurd hphase.2.1 hun
      | sending => exact absurd hphase.2.1 hun

section Sample

/-- The inclusion pass reads nonce 3, and its save has just been acknowledged. -/
def activityActions : List Action :=
  sampleActions.take 10 ++ [Action.answered [anchorSeen sampleHead,
    nonceRead 7 (.at sampleHead.blockNumber) (some 3), anchorSeen sampleHead], Action.stored]

def activityRun : List Input := activityActions.map (⟨1, ·⟩)

/-- From the acknowledgment until the pass resumes, the journal shows activity
that no blocker stands for yet. -/
theorem unattributed_activity_unlatched :
    ¬ ∀ pre post, (runSigner sampleLibrary sampleIdentity activityRun).2 = pre ++ post →
      ShowsActivity (view pre).journal →
      (∀ l e r, post = l ++ e :: r → ¬ CommitsRepair (pre ++ l) e) →
      ∀ c, (runSigner sampleLibrary sampleIdentity activityRun).1 = .running c →
        c.blockers.unattributedSignerActivity = true := by
  intro h
  have hrest (l : List Event) (e : Event) (r : List Event) (hl : [] = l ++ e :: r) :
      ¬ CommitsRepair ((runSigner sampleLibrary sampleIdentity activityRun).2 ++ l) e :=
    absurd hl (by simp)
  have hshown : ShowsActivity
      (view (runSigner sampleLibrary sampleIdentity activityRun).2).journal := by
    unfold ShowsActivity
    rfl
  have hlatched := h _ [] (List.append_nil _).symm hshown hrest _ rfl
  -- the latch is still the one that the pass began with
  cases hlatched

end Sample

/-- The blocker of an exhausted search stands when the journal shows one, and only
for the oldest attempt. Within a process it goes only with a committed write
that resolves that attempt or records unexhausted progress for it. -/
theorem exhausted_search_follows (is : List Input) :
    (∀ c, (runSigner lib identity is).1 = .running c →
      (c.blockers.conflictSearchExhausted = true →
        ∃ s a, (view (runSigner lib identity is).2).applied = some s ∧
          s.attempts.head? = some a ∧ ExhaustedSearch (runSigner lib identity is).2 a.record) ∧
      (c.busy = false → c.persistence.state = .idle →
        c.persistence.current = (view (runSigner lib identity is).2).applied ∧
        ∀ s, c.persistence.current = some s →
          (∀ a ∈ s.attempts.tail, a.progress = none) ∧
          ∀ a, s.firstUnresolved = some a → a.progress = some s.lastObservation.anchor →
            a.nonce < s.lastObservation.nonce → c.blockers.conflictSearchExhausted = true)) ∧
    ∀ i c c', (runSigner lib identity is).1 = .running c →
      (runSigner lib identity (is ++ [i])).1 = .running c' →
      c.blockers.conflictSearchExhausted = true → c'.blockers.conflictSearchExhausted = false →
      ∃ w base next r, (view (runSigner lib identity is).2).unapplied = some w ∧
        (view (runSigner lib identity is).2).applied = some base ∧
        (view (runSigner lib identity is).2).journal = some next ∧
        ExhaustedSearch (runSigner lib identity is).2 r ∧ ClearsSearch r base next w := by
  refine ⟨?_, ?_⟩
  · intro c hc
    have hr := runSigner_reached lib identity is hc
    have hv : ViewOk lib identity (view (runSigner lib identity is).2) := TraceOk.viewOk hr.trace
    refine ⟨runSigner_attributed lib identity is hc, ?_⟩
    intro hb _
    -- at rest the journal is the snapshot that was applied
    have hap := hv.applied (hr.journal.phase.of_not_busy hb).1
    refine ⟨by rw [hap, hr.journal.current], ?_⟩
    intro s hs
    have hj := hr.journal.current.symm.trans hs
    refine ⟨(hv.journal s hj).progress_oldest, ?_⟩
    intro a ha hp hn
    refine hr.journal.exhausted ?_
    rw [hap, hj]
    simp [TransactionJournalSnapshot.showsExhaustedSearch, ha,
      TransactionJournalSnapshot.SearchExhausted, hp, hn]
  · intro i c c' hc hc' hl hl'
    rcases runSigner_step lib identity hc hc' with rfl | ⟨e, hstep⟩
    · rw [hl] at hl'
      cases hl'
    · exact (runSigner_attributed lib identity is hc).cleared
        (runSigner_reached lib identity is hc) hstep hl hl'

end Latches

end Quicknet

