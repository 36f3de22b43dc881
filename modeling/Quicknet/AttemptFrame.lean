import Quicknet.ForkedSearch
import Quicknet.JournalSafety
import Quicknet.Library.QueueFrame

/-! What the committed journal keeps of a retained attempt. Every write rebuilds
the queue; here each rebuilt attempt is compared with the one it was built from. -/
namespace Quicknet

open Interaction Transition QueueFrame

/-- What an attempt keeps through any number of writes. -/
structure AttemptKept (a b : JournalAttempt) : Prop where
  record : b.record = a.record
  unsigned : b.phase = .signed → a.phase = .signed
  lowerBound : ∀ s ∈ a.replacementSearch, ∃ t ∈ b.replacementSearch, t.lowerBound = s.lowerBound

/-- What one write does to an attempt: the progress of its search stays, moves
forward, or is cleared because its inclusion was withdrawn. -/
structure AttemptStep (a b : JournalAttempt) : Prop extends AttemptKept a b where
  progress : b.progress = a.progress ∨
    (∃ p, b.progress = some p ∧ ∀ q ∈ a.progress, q.blockNumber < p.blockNumber) ∨
    (b.progress = none ∧ b.phase.isIncluded = false ∧ a.phase.isIncluded = true)

theorem AttemptKept.refl (a : JournalAttempt) : AttemptKept a a :=
  ⟨rfl, fun h => h, fun s hs => ⟨s, hs, rfl⟩⟩

theorem AttemptKept.trans {a b c : JournalAttempt} (h₁ : AttemptKept a b)
    (h₂ : AttemptKept b c) : AttemptKept a c := by
  refine ⟨h₂.record.trans h₁.record, fun hc => h₁.unsigned (h₂.unsigned hc), ?_⟩
  intro s hs
  obtain ⟨t, ht, hts⟩ := h₁.lowerBound s hs
  obtain ⟨u, hu, hut⟩ := h₂.lowerBound t ht
  exact ⟨u, hu, hut.trans hts⟩

theorem AttemptStep.refl (a : JournalAttempt) : AttemptStep a a :=
  ⟨AttemptKept.refl a, Or.inl rfl⟩

theorem AttemptStep.refl_list (l : List JournalAttempt) : List.Forall₂ AttemptStep l l :=
  List.forall₂_same.mpr fun a _ => AttemptStep.refl a

/-- Every attempt of the queue is still there, in its place; at most one was added. -/
def QueueKept (s t : TransactionJournalSnapshot) : Prop :=
  ∃ kept added, t.attempts = kept ++ added ∧ added.length ≤ 1 ∧
    List.Forall₂ AttemptStep s.attempts kept

section Step

variable {identity : JournalIdentity} {s next : TransactionJournalSnapshot} {w : JournalWrite}

/-- What an inclusion pass proposes for an attempt. -/
theorem InclusionUpdate.step {a b : JournalAttempt} (h : InclusionUpdate a b) :
    AttemptStep a b := by
  cases h with
  | same => exact AttemptStep.refl a
  | refreshed i head hi =>
    exact ⟨⟨rfl, fun hb => (by cases hb), fun s hs => ⟨s, hs, rfl⟩⟩, Or.inl rfl⟩
  | demoted i hi =>
    refine ⟨⟨rfl, fun hb => (by cases hb), ?_⟩, Or.inr (Or.inr ⟨?_, rfl, by rw [hi]; rfl⟩)⟩
    · intro s hs
      refine ⟨⟨s.lowerBound, none⟩, ?_, rfl⟩
      simp only [demote, Option.mem_def.mp hs]
      rfl
    · -- the progress is gone, the lower bound is not
      unfold JournalAttempt.progress demote
      cases a.replacementSearch <;> rfl
  | included i hi =>
    exact ⟨⟨rfl, fun hb => (by cases hb), fun s hs => ⟨s, hs, rfl⟩⟩, Or.inl rfl⟩

/-- Marking changes one phase, and never to `signed`. -/
theorem markBroadcast_step (l : List JournalAttempt) :
    List.Forall₂ AttemptStep l (markBroadcast l) := by
  induction l with
  | nil => exact .nil
  | cons a l ih =>
    unfold markBroadcast
    split_ifs
    · exact .cons (AttemptStep.refl a) ih
    · have ha : AttemptStep a { a with phase := .broadcastMayHaveOccurred } :=
        ⟨⟨rfl, fun hb => (by cases hb), fun s hs => ⟨s, hs, rfl⟩⟩, Or.inl rfl⟩
      exact .cons ha (AttemptStep.refl_list l)

/-- A recorded lower bound is the one the search goes on with. -/
theorem recoveredSearch_of_some {a : JournalAttempt} {o : AnchoredNonceObservation}
    {search : ReplacementSearch} (h : a.replacementSearch = some search) :
    recoveredSearch s a o = some search := by
  unfold recoveredSearch
  rw [h]

theorem recoveredSearch_progress {a : JournalAttempt} {o : AnchoredNonceObservation}
    {search : ReplacementSearch} (h : recoveredSearch s a o = some search) :
    search.searchedThrough = a.progress ∧
      ∀ t ∈ a.replacementSearch, search.lowerBound = t.lowerBound := by
  unfold JournalAttempt.progress
  cases ha : a.replacementSearch with
  | some t =>
    rw [recoveredSearch_of_some ha] at h
    obtain rfl := Option.some.inj h
    refine ⟨rfl, ?_⟩
    intro u hu
    rw [Option.some.inj hu]
  | none =>
    unfold recoveredSearch at h
    rw [ha] at h
    simp only at h
    refine ⟨?_, by simp⟩
    split_ifs at h <;> (obtain rfl := Option.some.inj h; rfl)

/-- A search that has scanned a block ends above the position it resumed from. -/
theorem SearchReturned.forward {range n m : ℕ} {log : RpcLog} {through : BlockAnchor}
    (h : SearchReturned s range log (.notFound through n m)) (hn : 0 < n) {a : JournalAttempt}
    (ha : s.attempts.head? = some a) : ∀ q ∈ a.progress, q.blockNumber < through.blockNumber := by
  obtain ⟨a', o, pre, l, ha', _, hreplay⟩ := h
  obtain rfl : a = a' := Option.some.inj (ha.symm.trans ha')
  obtain ⟨search, blocks, found, hs, hrun⟩ := searchAttemptReplacement_settled hreplay rfl
  intro q hq
  have hsearch : a.replacementSearch = some search := by
    unfold JournalAttempt.progress at hq
    cases hr : a.replacementSearch with
    | none => simp [hr] at hq
    | some t =>
      rw [hr] at hs
      exact hs
  have hboundary : search.boundary = q := by
    unfold JournalAttempt.progress at hq
    rw [hsearch] at hq
    unfold ReplacementSearch.boundary
    rw [show search.searchedThrough = some q from hq]
    rfl
  have hres := hrun.result_eq
  cases found with
  | some p =>
    obtain ⟨hash, inclusion⟩ := p
    simp only [searchResult] at hres
    split_ifs at hres
  | none =>
    obtain ⟨rfl, rfl, _⟩ := ReplacementSearchResult.notFound.inj hres
    have hheight := tipAfter_blockNumber hrun.scan.linked
    rw [hboundary] at hheight ⊢
    omega

/-- The four ways a recovery ends in a write. -/
theorem Recorded.frame {u : Bool} {kind : PendingWrite} {anchor : BlockAnchor} {range : ℕ}
    {log : RpcLog} {result : SignerRecoveryInspection}
    (h : (inspectSignerRecovery s anchor range).replay log = some (.ok result))
    (hid : (s.attempts.map (·.attemptId)).Nodup) (hrec : Recorded s u result kind next) :
    QueueKept s next ∨ ∃ a, s.attempts = a :: next.attempts := by
  have hrecorded := hrec
  cases hrec with
  | resolved hs _ _ => exact Or.inr ⟨_, hs⟩
  | emptied _ hs _ =>
    exact Or.inl ⟨_, [], (List.append_nil _).symm, by simp, AttemptStep.refl_list _⟩
  | @observed result o search oldest rest _ hs _ _ =>
    refine Or.inl ⟨_, [], (List.append_nil _).symm, by simp, ?_⟩
    rw [hs]
    refine .cons ⟨⟨rfl, fun hb => hb, ?_⟩, Or.inl ?_⟩ (AttemptStep.refl_list rest)
    · intro t ht
      exact ⟨t, recoveredSearch_of_some ht, rfl⟩
    · change (recoveredSearch s oldest o).bind (·.searchedThrough) = oldest.progress
      cases hr : recoveredSearch s oldest o with
      | some t => exact (recoveredSearch_progress hr).1
      | none =>
        unfold JournalAttempt.progress
        cases hn : oldest.replacementSearch with
        | none => rfl
        | some t =>
          rw [recoveredSearch_of_some hn] at hr
          cases hr
  | @searched result o search oldest rest lower through remaining ho hs hk hsb hl =>
    refine Or.inl ⟨_, [], (List.append_nil _).symm, by simp, ?_⟩
    have hlower := (recoveredSearch_progress hl).2
    have hhead : s.attempts.head? = some oldest := by rw [hs]; rfl
    have hkept : AttemptKept oldest { oldest with
        replacementSearch := some { lower with searchedThrough := some through } } :=
      ⟨rfl, fun hb => hb, fun t ht => ⟨_, rfl, hlower t ht⟩⟩
    rw [hs]
    refine .cons ⟨hkept, ?_⟩ (AttemptStep.refl_list rest)
    by_cases hsame : oldest.progress = some through
    · left
      exact hsame.symm
    -- new progress is the position that the search of this call returned
    · right
      left
      refine ⟨through, rfl, ?_⟩
      obtain ⟨r, m, hret, hsr⟩ := recovery_progress h hrecorded hhead rfl rfl hid
        (fun heq => hsame (heq ▸ rfl)) rfl
      obtain ⟨n, hn, rfl⟩ := searchedBlocks_some_iff.mp hsr
      exact hret.forward hn hhead

/-- Every write keeps the queue, or is a recovery that removes the oldest attempt. -/
theorem Writes.frame (h : Writes identity (some s) w next) (hs : SnapshotValid identity s) :
    QueueKept s next ∨ ∃ a, s.attempts = a :: next.attempts := by
  cases h with
  | prepared _ _ => exact Or.inl ⟨_, [_], rfl, by simp, AttemptStep.refl_list _⟩
  | broadcast _ _ _ =>
    exact Or.inl ⟨_, [], (List.append_nil _).symm, by simp, markBroadcast_step _⟩
  | recovery hr _ hrec => exact Recorded.frame hr hs.attempts.2.2.2.1 hrec
  | inclusions hp =>
    exact Or.inl ⟨_, [], (List.append_nil _).symm, by simp,
      hp.updates.imp fun _ _ hu => hu.step⟩
  | repair hp =>
    obtain ⟨_, hempty, _, _, rfl, _⟩ := planNonceSync_repair hp
    refine Or.inl ⟨[], [], by simp [repairedSnapshot, hempty], by simp, ?_⟩
    rw [hempty]
    exact .nil

end Step

section Runs

variable {lib : TransactionLibrary} {identity : JournalIdentity}

/-- Between two events the queue is kept, or a recovery of the oldest is committed. -/
theorem TraceOk.frame_step {pre post : List Event} {e : Event}
    {s t : TransactionJournalSnapshot} (h : TraceOk lib identity (pre ++ e :: post))
    (hs : (view pre).journal = some s) (ht : (view (pre ++ [e])).journal = some t) :
    QueueKept s t ∨
      ∃ a, s.attempts = a :: t.attempts ∧ CommitsResolution a.record pre e := by
  have hv : ViewOk lib identity (view pre) := TraceOk.viewOk h.of_append
  rcases h.journal_step with hkeep | ⟨w, next, hcommit, hw, hnext⟩
  · have hst : s = t := Option.some.inj (hs.symm.trans (hkeep.symm.trans ht))
    subst hst
    exact Or.inl ⟨_, [], (List.append_nil _).symm, by simp, AttemptStep.refl_list _⟩
  have hnt : next = t := Option.some.inj (hnext.symm.trans ht)
  subst hnt
  rw [hs] at hw
  rcases hw.frame (hv.journal s hs).toSnapshotValid with hkept | ⟨a, ha⟩
  · exact Or.inl hkept
  right
  refine ⟨a, ha, ?_⟩
  have hretains : Retains pre a.record := ⟨s, a, hs, by simp [ha], rfl⟩
  rcases h.retains_step hretains with ⟨u, b, hu, hb, hrec⟩ | hres
  · -- the removed record cannot be that of a later attempt
    have hun : u = next := Option.some.inj (hu.symm.trans ht)
    subst hun
    have hid := (hv.journal s hs).attempts.2.2.2.1
    rw [ha, List.map_cons, List.nodup_cons] at hid
    have hbid : b.attemptId = a.attemptId := congrArg JournalAttempt.Record.attemptId hrec
    exact absurd (hbid ▸ List.mem_map_of_mem hb) hid.1
  · exact hres

theorem QueueKept.framed {s t : TransactionJournalSnapshot} (h : QueueKept s t) :
    Framed AttemptKept 0 s.attempts t.attempts := by
  obtain ⟨kept, added, ht, _, hk⟩ := h
  exact ⟨[], s.attempts, kept, added, rfl, rfl, hk.imp fun _ _ ha => ha.toAttemptKept, ht⟩

theorem QueueKept.mem {s t : TransactionJournalSnapshot} (h : QueueKept s t)
    {a : JournalAttempt} (ha : a ∈ s.attempts) : ∃ b ∈ t.attempts, AttemptKept a b := by
  rcases h.framed.mem ha with hnone | hkept
  · simp at hnone
  · exact hkept

/-- A journal that is present stays present. -/
theorem TraceOk.journal_some {pre post : List Event} {e : Event}
    {s : TransactionJournalSnapshot} (h : TraceOk lib identity (pre ++ e :: post))
    (hs : (view pre).journal = some s) : ∃ t, (view (pre ++ [e])).journal = some t := by
  rcases h.journal_step with hkeep | ⟨_, next, _, _, hnext⟩
  · exact ⟨s, hkeep.trans hs⟩
  · exact ⟨next, hnext⟩

theorem TraceOk.journal_stays {pre mid : List Event} {s : TransactionJournalSnapshot}
    (h : TraceOk lib identity (pre ++ mid)) (hs : (view pre).journal = some s) :
    ∃ t, (view (pre ++ mid)).journal = some t := by
  induction mid using List.reverseRecOn with
  | nil => exact ⟨s, by simpa using hs⟩
  | append_singleton mid e ih =>
    rw [← List.append_assoc] at h ⊢
    obtain ⟨u, hu⟩ := ih h.of_append
    exact h.journal_some hu

/-- From one committed snapshot to a later one. -/
theorem TraceOk.framed {pre mid : List Event} {s t : TransactionJournalSnapshot}
    (h : TraceOk lib identity (pre ++ mid)) (hs : (view pre).journal = some s)
    (ht : (view (pre ++ mid)).journal = some t) :
    (∃ k, Framed AttemptKept k s.attempts t.attempts) ∧
    ∀ a ∈ s.attempts, (∃ b ∈ t.attempts, AttemptKept a b) ∨
      ∃ l e r, mid = l ++ e :: r ∧ CommitsResolution a.record (pre ++ l) e := by
  induction mid using List.reverseRecOn generalizing t with
  | nil =>
    rw [List.append_nil, hs] at ht
    obtain rfl := Option.some.inj ht
    exact ⟨⟨0, Framed.refl AttemptKept.refl _⟩, fun a ha => Or.inl ⟨a, ha, AttemptKept.refl a⟩⟩
  | append_singleton mid e ih =>
    rw [← List.append_assoc] at h ht
    have hpre : TraceOk lib identity (pre ++ mid) := h.of_append
    obtain ⟨u, hu⟩ := hpre.journal_stays hs
    obtain ⟨⟨k, hframe⟩, hmem⟩ := ih hpre hu
    have hstep := h.frame_step hu ht
    refine ⟨?_, ?_⟩
    · have hnext : ∃ j, Framed AttemptKept j u.attempts t.attempts := by
        rcases hstep with hkept | ⟨a, ha, _⟩
        · exact ⟨0, hkept.framed⟩
        · refine ⟨1, [a], t.attempts, t.attempts, [], ha, rfl, ?_, (List.append_nil _).symm⟩
          exact List.forall₂_same.mpr fun b _ => AttemptKept.refl b
      obtain ⟨j, hj⟩ := hnext
      exact hframe.trans (fun _ _ _ h₁ h₂ => h₁.trans h₂) hj
    · intro a ha
      rcases hmem a ha with ⟨b, hb, hab⟩ | ⟨l, e', r, rfl, hres⟩
      · rcases hstep with hkept | ⟨c, hc, hres⟩
        · obtain ⟨b', hb', hbb'⟩ := hkept.mem hb
          exact Or.inl ⟨b', hb', hab.trans hbb'⟩
        · rw [hc, List.mem_cons] at hb
          rcases hb with rfl | hb
          · refine Or.inr ⟨mid, e, [], rfl, ?_⟩
            rw [← hab.record]
            exact hres
          · exact Or.inl ⟨b, hb, hab⟩
      · exact Or.inr ⟨l, e', r ++ [e], by simp, hres⟩

end Runs

section Frame

variable (lib : TransactionLibrary) (identity : JournalIdentity)

/-- Every committed write keeps the retained attempts in their order, each with
its record, lower bound and progress, or is a recovery that removes the oldest;
over any number of writes an attempt is kept until such a recovery. -/
theorem attempts_framed (is : List Input) :
    EachEvent (fun pre e => ∀ s t, (view pre).journal = some s →
      (view (pre ++ [e])).journal = some t → (t.attempts.map (·.attemptId)).Nodup ∧
        (QueueKept s t ∨
          ∃ a, s.attempts = a :: t.attempts ∧ CommitsResolution a.record pre e))
      (runSigner lib identity is).2 ∧
    ∀ pre mid post s t, (runSigner lib identity is).2 = pre ++ mid ++ post →
      (view pre).journal = some s → (view (pre ++ mid)).journal = some t →
      (∃ k, Framed AttemptKept k s.attempts t.attempts) ∧
      ∀ a ∈ s.attempts, (∃ b ∈ t.attempts, AttemptKept a b) ∨
        ∃ l e r, mid = l ++ e :: r ∧ CommitsResolution a.record (pre ++ l) e := by
  have htrace := (runSigner_follows lib identity is).1
  refine ⟨?_, ?_⟩
  · intro pre e post hsplit s t hs ht
    rw [hsplit] at htrace
    have hpre : TraceOk lib identity (pre ++ [e]) := by
      have hassoc : pre ++ e :: post = (pre ++ [e]) ++ post := by simp
      rw [hassoc] at htrace
      exact htrace.of_append
    exact ⟨(hpre.viewOk.journal t ht).attempts.2.2.2.1, htrace.frame_step hs ht⟩
  · intro pre mid post s t hsplit hs ht
    rw [hsplit] at htrace
    have hpre : TraceOk lib identity (pre ++ mid) := htrace.of_append
    exact hpre.framed hs ht

end Frame

end Quicknet
