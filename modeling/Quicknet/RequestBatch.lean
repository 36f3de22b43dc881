import Quicknet.RequestProcessor

/-! A batch of requests as a whole: which rounds it imports, in which order, what becomes of
the rounds after the first failure, and what its observers can do to it. -/
namespace Quicknet.Daemon
open Interaction

/-! The rounds of a batch, each with the smallest block that requests it. -/

/-- One entry for each requested round, in the order of their first requests. -/
structure FirstRequests (requests : List QuicknetRandomnessRequest) (firsts : List (ℕ × ℕ)) :
    Prop where
  rounds : ∀ round, round ∈ firsts.map Prod.fst ↔ ∃ request ∈ requests, request.round = round
  ordered : (firsts.map Prod.fst).Pairwise fun a b =>
    (requests.map (·.round)).idxOf a < (requests.map (·.round)).idxOf b
  least : ∀ round block, (round, block) ∈ firsts →
    (∃ request ∈ requests, request.round = round ∧ request.blockNumber = block) ∧
      ∀ request ∈ requests, request.round = round → block ≤ request.blockNumber

theorem FirstRequests.nodup {requests : List QuicknetRandomnessRequest} {firsts : List (ℕ × ℕ)}
    (h : FirstRequests requests firsts) : (firsts.map Prod.fst).Nodup := by
  apply h.ordered.imp
  intro a b hlt heq
  rw [heq] at hlt
  exact lt_irrefl _ hlt

theorem recordFirstBlock_rounds (firsts : List (ℕ × ℕ)) (request : QuicknetRandomnessRequest) :
    (recordFirstBlock firsts request).map Prod.fst =
      if request.round ∈ firsts.map Prod.fst then firsts.map Prod.fst
      else firsts.map Prod.fst ++ [request.round] := by
  induction firsts with
  | nil => rfl
  | cons entry rest ih =>
    obtain ⟨round, block⟩ := entry
    unfold recordFirstBlock
    by_cases hround : round = request.round
    · subst hround
      simp
    · have hmem : request.round ∈ (((round, block) :: rest).map Prod.fst) ↔
          request.round ∈ rest.map Prod.fst := by
        rw [List.map_cons, List.mem_cons]
        exact or_iff_right (Ne.symm hround)
      rw [if_neg hround, List.map_cons, ih]
      by_cases hrest : request.round ∈ rest.map Prod.fst
      · rw [if_pos hrest, if_pos (hmem.mpr hrest), List.map_cons]
      · rw [if_neg hrest, if_neg (mt hmem.mp hrest), List.map_cons, List.cons_append]

/-- An entry is an earlier one of another round, or that of the request. -/
theorem mem_recordFirstBlock {firsts : List (ℕ × ℕ)} {request : QuicknetRandomnessRequest}
    (hnodup : (firsts.map Prod.fst).Nodup) {round block : ℕ}
    (h : (round, block) ∈ recordFirstBlock firsts request) :
    (round ≠ request.round ∧ (round, block) ∈ firsts) ∨
      (round = request.round ∧
        ((∃ previous, (round, previous) ∈ firsts ∧ block = min request.blockNumber previous) ∨
          (round ∉ firsts.map Prod.fst ∧ block = request.blockNumber))) := by
  induction firsts with
  | nil =>
    obtain ⟨rfl, rfl⟩ := Prod.mk.inj (List.mem_singleton.mp h)
    exact Or.inr ⟨rfl, Or.inr ⟨by simp, rfl⟩⟩
  | cons entry rest ih =>
    obtain ⟨r, b⟩ := entry
    rw [List.map_cons, List.nodup_cons] at hnodup
    unfold recordFirstBlock at h
    by_cases hr : r = request.round
    · rw [if_pos hr] at h
      rcases List.mem_cons.mp h with heq | hmem
      · obtain ⟨rfl, rfl⟩ := Prod.mk.inj heq
        refine Or.inr ⟨hr, Or.inl ⟨b, List.mem_cons_self, ?_⟩⟩
        split <;> omega
      · refine Or.inl ⟨?_, List.mem_cons_of_mem _ hmem⟩
        intro hround
        rw [hr, ← hround] at hnodup
        exact hnodup.1 (List.mem_map.mpr ⟨_, hmem, rfl⟩)
    · rw [if_neg hr] at h
      rcases List.mem_cons.mp h with heq | hmem
      · obtain ⟨rfl, rfl⟩ := Prod.mk.inj heq
        exact Or.inl ⟨hr, List.mem_cons_self⟩
      · rcases ih hnodup.2 hmem with ⟨hne, hrest⟩ | ⟨hround, ⟨previous, hrest, hmin⟩ | ⟨hnew, hblock⟩⟩
        · exact Or.inl ⟨hne, List.mem_cons_of_mem _ hrest⟩
        · exact Or.inr ⟨hround, Or.inl ⟨previous, List.mem_cons_of_mem _ hrest, hmin⟩⟩
        · refine Or.inr ⟨hround, Or.inr ⟨?_, hblock⟩⟩
          rw [List.map_cons, List.mem_cons, not_or, hround]
          rw [hround] at hnew
          exact ⟨Ne.symm hr, hnew⟩

theorem idxOf_concat {l : List ℕ} {a b : ℕ} (ha : a ∈ l) : (l ++ [b]).idxOf a = l.idxOf a :=
  List.idxOf_append_of_mem ha

theorem FirstRequests.record {requests : List QuicknetRandomnessRequest}
    {firsts : List (ℕ × ℕ)} (h : FirstRequests requests firsts)
    (request : QuicknetRandomnessRequest) :
    FirstRequests (requests ++ [request]) (recordFirstBlock firsts request) where
  rounds round := by
    rw [recordFirstBlock_rounds]
    simp only [List.mem_append, List.mem_singleton]
    -- the round was there before, or it stands last now
    split
    · rename_i hmem
      rw [h.rounds]
      constructor
      · rintro ⟨r, hr, hround⟩
        exact ⟨r, Or.inl hr, hround⟩
      · rintro ⟨r, hr | rfl, hround⟩
        · exact ⟨r, hr, hround⟩
        · rw [← hround]
          exact (h.rounds _).mp hmem
    · rw [List.mem_append, h.rounds, List.mem_singleton]
      constructor
      · rintro (⟨r, hr, hround⟩ | hround)
        · exact ⟨r, Or.inl hr, hround⟩
        · exact ⟨request, Or.inr rfl, hround.symm⟩
      · rintro ⟨r, hr | rfl, hround⟩
        · exact Or.inl ⟨r, hr, hround⟩
        · exact Or.inr hround.symm
  ordered := by
    have hrequested {a : ℕ} (ha : a ∈ firsts.map Prod.fst) : a ∈ requests.map (·.round) := by
      obtain ⟨r, hr, hround⟩ := (h.rounds a).mp ha
      exact List.mem_map.mpr ⟨r, hr, hround⟩
    -- a request at the end moves no earlier one
    have hkeep : (firsts.map Prod.fst).Pairwise fun a b =>
        ((requests ++ [request]).map (·.round)).idxOf a <
          ((requests ++ [request]).map (·.round)).idxOf b := by
      refine h.ordered.imp_of_mem fun ha hb hlt => ?_
      rw [List.map_append, List.map_singleton, idxOf_concat (hrequested ha),
        idxOf_concat (hrequested hb)]
      exact hlt
    rw [recordFirstBlock_rounds]
    split
    · exact hkeep
    · rename_i hnew
      refine List.pairwise_append.mpr ⟨hkeep, List.pairwise_singleton _ _, ?_⟩
      intro a ha b hb
      rw [List.mem_singleton.mp hb]
      have hnot : request.round ∉ requests.map (·.round) := by
        intro hmem
        obtain ⟨r, hr, hround⟩ := List.mem_map.mp hmem
        exact hnew ((h.rounds _).mpr ⟨r, hr, hround⟩)
      rw [List.map_append, List.map_singleton, idxOf_concat (hrequested ha),
        List.idxOf_append_of_notMem hnot]
      have := List.idxOf_lt_length_of_mem (hrequested ha)
      omega
  least round block hmem := by
    -- the block of another round, the smaller of two blocks, or the block of a first request
    rcases mem_recordFirstBlock h.nodup hmem with
      ⟨hne, hfirst⟩ | ⟨hround, ⟨previous, hfirst, hblock⟩ | ⟨hnew, hblock⟩⟩
    · obtain ⟨⟨r, hr, hrr, hrb⟩, hle⟩ := h.least round block hfirst
      refine ⟨⟨r, List.mem_append_left _ hr, hrr, hrb⟩, ?_⟩
      intro r' hr' hround'
      rcases List.mem_append.mp hr' with hr' | hr'
      · exact hle r' hr' hround'
      · rw [List.mem_singleton.mp hr'] at hround'
        exact absurd hround'.symm hne
    · obtain ⟨⟨r, hr, hrr, hrb⟩, hle⟩ := h.least round previous hfirst
      constructor
      · rcases le_total request.blockNumber previous with hmin | hmin
        · exact ⟨request, by simp, hround.symm, by omega⟩
        · exact ⟨r, List.mem_append_left _ hr, hrr, by omega⟩
      · intro r' hr' hround'
        rcases List.mem_append.mp hr' with hr' | hr'
        · have := hle r' hr' hround'
          omega
        · rw [List.mem_singleton.mp hr']
          omega
    · refine ⟨⟨request, by simp, hround.symm, hblock.symm⟩, ?_⟩
      intro r' hr' hround'
      rcases List.mem_append.mp hr' with hr' | hr'
      · exact absurd ((h.rounds round).mpr ⟨r', hr', hround'⟩) hnew
      · rw [List.mem_singleton.mp hr', hblock]

theorem firstBlocks_spec (requests : List QuicknetRandomnessRequest) :
    FirstRequests requests (firstBlocks requests) := by
  induction requests using List.reverseRecOn with
  | nil =>
    exact ⟨by simp [firstBlocks], List.Pairwise.nil, by simp [firstBlocks]⟩
  | append_singleton requests last ih =>
    rw [firstBlocks, List.foldl_append, List.foldl_cons, List.foldl_nil]
    exact ih.record last

/-! What the imports of a batch replied, and what an outcome makes of it. -/

/-- The calls of the importer in a log. -/
def importCalls (log : DaemonLog) : List (ScanType × ℕ) :=
  log.filterMap fun x =>
    match x.query with
    | .importRound scan round => some (scan, round)
    | _ => none

/-- The calls of the importer that returned or threw, with what they replied. -/
def importReplies (log : DaemonLog) : List (ℕ × Except ImportFailure ImportResult) :=
  log.filterMap fun x =>
    match x with
    | ⟨.importRound _ round, .ok reply⟩ => some (round, reply)
    | _ => none

@[simp] theorem importCalls_append (l₁ l₂ : DaemonLog) :
    importCalls (l₁ ++ l₂) = importCalls l₁ ++ importCalls l₂ :=
  List.filterMap_append

@[simp] theorem importReplies_append (l₁ l₂ : DaemonLog) :
    importReplies (l₁ ++ l₂) = importReplies l₁ ++ importReplies l₂ :=
  List.filterMap_append

/-- The status of a round that was imported. -/
def statusOf : Except ImportFailure ImportResult → RoundStatus
  | .ok (.completed result) => .completed result
  | .ok (.pending result) => .pending result
  | .ok (.signerUnavailable blocker) => .signerUnavailable blocker
  | .ok (.alreadyRetained attemptId workId) => .alreadyRetained attemptId workId
  | .error failure => .failed failure.error

/-- The status of the rounds after this one, when they are not imported any more. -/
def RoundStatus.defers : RoundStatus → Option RoundStatus
  | .failed _ => some .earlierImportFailed
  | .signerUnavailable blocker => some (.signerUnavailable blocker)
  | _ => none

/-- The outcomes of the rounds that were imported and of those that were not, when the
imports replied `replies`. -/
structure Outcomes (replies : List (ℕ × Except ImportFailure ImportResult))
    (called deferred : List QuicknetRoundOutcome) : Prop where
  replied : called.map (fun o => (o.round, o.status)) =
    replies.map fun reply => (reply.1, statusOf reply.2)
  continued : ∀ o ∈ called.dropLast, o.status.defers = none
  deferred : ∀ o ∈ deferred, ∃ last,
    called.getLast? = some last ∧ last.status.defers = some o.status

/-- An exchange that ends a batch: the signal was aborted, an import was cancelled, or the
await was never answered. -/
def Interrupted (e : Failure) (x : Exchange DaemonQuery.Reply Failure) : Prop :=
  x = ⟨.signal, .ok (some e)⟩ ∨
    (∃ scan round failure, failure.cancelled = true ∧ failure.error = e ∧
      x = ⟨.importRound scan round, .ok (.error failure)⟩) ∨
    ∃ q, x = ⟨q, .error e⟩

/-- A log ends in an interruption exactly when its outcome is the error of one. -/
structure Ends {α : Type} (log : DaemonLog) (out : Except Failure α) : Prop where
  raised : ∀ e, out = .error e → ∃ x, log.getLast? = some x ∧ Interrupted e x
  interrupted : ∀ x ∈ log, ∀ e, Interrupted e x → out = .error e

theorem Ends.map {α β : Type} {log : DaemonLog} {out : Except Failure α} (h : Ends log out)
    (f : α → β) : Ends log (out.map f) where
  raised e he := by
    cases out with
    | ok a => cases he
    | error e' => exact h.raised e (by rw [Except.error.inj he])
  interrupted x hx e he := by
    rw [h.interrupted x hx e he]
    rfl

/-- Exchanges that interrupt nothing may stand before a log. -/
theorem Ends.after {α : Type} {past log : DaemonLog} {out : Except Failure α} (h : Ends log out)
    (hpast : ∀ x ∈ past, ∀ e, ¬ Interrupted e x) : Ends (past ++ log) out where
  raised e he := by
    obtain ⟨x, hx, hi⟩ := h.raised e he
    refine ⟨x, ?_, hi⟩
    rw [List.getLast?_append, hx]
    rfl
  interrupted x hx e he := by
    rcases List.mem_append.mp hx with hx | hx
    · exact absurd he (hpast x hx e)
    · exact h.interrupted x hx e he

/-- A single interruption. -/
theorem Ends.single {α : Type} {e : Failure} {x : Exchange DaemonQuery.Reply Failure}
    (h : Interrupted e x) (hunique : ∀ e', Interrupted e' x → e' = e) :
    Ends (α := α) [x] (.error e) where
  raised e' he := by
    rw [← Except.error.inj he]
    exact ⟨x, rfl, h⟩
  interrupted y hy e' he := by
    rw [List.mem_singleton.mp hy] at he
    rw [hunique e' he]

theorem ends_ok_nil {α : Type} (a : α) : Ends [] (.ok a : Except Failure α) where
  raised e he := by cases he
  interrupted x hx := by cases hx

theorem Interrupted.unanswered {e e' : Failure} {q : DaemonQuery}
    (h : Interrupted e' ⟨q, .error e⟩) : e' = e := by
  rcases h with heq | ⟨_, _, _, _, _, heq⟩ | ⟨q', heq⟩
  · cases congrArg Exchange.query heq
    cases heq
  · cases congrArg Exchange.query heq
    cases heq
  · cases congrArg Exchange.query heq
    cases heq
    rfl

/-- An await that is never answered. -/
theorem ends_unanswered {α : Type} (q : DaemonQuery) (e : Failure) :
    Ends (α := α) [⟨q, .error e⟩] (.error e) :=
  Ends.single (Or.inr (Or.inr ⟨q, rfl⟩)) fun _ he => he.unanswered

/-! A callback is asked and its reply is not looked at. -/

def IsCallback : DaemonQuery → Prop
  | .onCompleted _ _ _ => True
  | .onIncomplete _ _ => True
  | _ => False

theorem IsCallback.not_interrupted {q : DaemonQuery} (h : IsCallback q) {reply : q.Reply}
    (e : Failure) : ¬ Interrupted e ⟨q, .ok reply⟩ := by
  rintro (heq | ⟨_, _, _, _, _, heq⟩ | ⟨q', heq⟩)
  · cases congrArg Exchange.query heq
    exact h
  · cases congrArg Exchange.query heq
    exact h
  · cases congrArg Exchange.query heq
    cases heq

/-- Exchanges with callbacks, which returned or threw. -/
def Reported (log : DaemonLog) : Prop :=
  ∀ x ∈ log, ∃ q, ∃ reply : q.Reply, IsCallback q ∧ x = ⟨q, .ok reply⟩

theorem IsCallback.importCalls {q : DaemonQuery} (h : IsCallback q)
    (reply : Except Failure q.Reply) : importCalls [⟨q, reply⟩] = [] := by
  cases q <;> first | rfl | exact h.elim

theorem Reported.importCalls {log : DaemonLog} (h : Reported log) : importCalls log = [] := by
  refine List.filterMap_eq_nil_iff.mpr fun x hx => ?_
  obtain ⟨q, reply, hq, rfl⟩ := h x hx
  cases q <;> first | rfl | exact hq.elim

theorem Reported.not_interrupted {log : DaemonLog} (h : Reported log) :
    ∀ x ∈ log, ∀ e, ¬ Interrupted e x := by
  intro x hx e
  obtain ⟨q, reply, hq, rfl⟩ := h x hx
  exact hq.not_interrupted e

/-- A reply belongs to a call. -/
theorem importReplies_of_importCalls {log : DaemonLog} (h : importCalls log = []) :
    importReplies log = [] := by
  refine List.filterMap_eq_nil_iff.mpr fun x hx => ?_
  have hcall := List.filterMap_eq_nil_iff.mp h x hx
  obtain ⟨q, reply⟩ := x
  cases q with
  | importRound scan round => cases hcall
  | _ => rfl

theorem observe_ignores (q : DaemonQuery) : (observe q).Ignores IsCallback :=
  ⟨fun _ _ _ => rfl, fun _ => trivial⟩

theorem throwIfAborted_ignores : throwIfAborted.Ignores IsCallback := by
  apply Prog.Ignores.bind (Prog.ignores_ask id)
  intro reply
  cases reply <;> exact trivial

theorem processRounds_ignores (scan : ScanType) (firsts : List (ℕ × ℕ)) (failed : Bool)
    (signer : Option SignerBlocker) :
    (processRounds scan failed signer firsts).Ignores IsCallback := by
  induction firsts generalizing failed signer with
  | nil => exact trivial
  | cons entry rest ih =>
    obtain ⟨round, first⟩ := entry
    have hincomplete (status : RoundStatus) (s : Option SignerBlocker) :
        Prog.Ignores IsCallback (do
          observe (.onIncomplete scan ⟨round, first, status⟩)
          return ⟨round, first, status⟩ :: (← processRounds scan false s rest)) :=
      (observe_ignores _).bind fun _ => (ih false s).bind fun _ => trivial
    unfold processRounds
    cases failed with
    | true => exact (ih true signer).bind fun _ => trivial
    | false =>
      cases signer with
      | some blocker => exact hincomplete _ _
      | none =>
        apply Prog.Ignores.bind (Prog.ignores_ask id)
        intro reply
        cases reply with
        | ok result =>
          cases result with
          | completed result =>
            exact (observe_ignores _).bind fun _ => (ih false none).bind fun _ => trivial
          | pending result => exact hincomplete _ _
          | signerUnavailable blocker => exact hincomplete _ _
          | alreadyRetained attemptId workId => exact hincomplete _ _
        | error failure =>
          dsimp only
          split
          · exact trivial
          · exact (ih true none).bind fun _ => trivial

/-! One entry of the loop: it is imported or not, an observer may be told, and the rest
follows. -/

/-- The flags of the loop after a status was recorded. -/
def RoundStatus.flags : RoundStatus → Bool × Option SignerBlocker
  | .failed _ => (true, none)
  | .signerUnavailable blocker => (false, some blocker)
  | _ => (false, none)

/-- An outcome was recorded, perhaps reported, and the loop went on with the flags. -/
inductive Recorded (scan : ScanType) (outcome : QuicknetRoundOutcome) (failed : Bool)
    (signer : Option SignerBlocker) (rest : List (ℕ × ℕ)) :
    DaemonLog → Except Failure (List QuicknetRoundOutcome) → Prop
  | continued {reported log : DaemonLog} {out : Except Failure (List QuicknetRoundOutcome)}
      (hreported : Reported reported)
      (h : (processRounds scan failed signer rest).replay log = some out) :
      Recorded scan outcome failed signer rest (reported ++ log) (out.map (outcome :: ·))
  | unanswered {q : DaemonQuery} (hq : IsCallback q) (e : Failure) :
      Recorded scan outcome failed signer rest [⟨q, .error e⟩] (.error e)

theorem processRounds_cons {scan : ScanType} {outcome : QuicknetRoundOutcome} {failed : Bool}
    {signer : Option SignerBlocker} {rest : List (ℕ × ℕ)} {log : DaemonLog}
    {out : Except Failure (List QuicknetRoundOutcome)}
    (h : (do return outcome :: (← processRounds scan failed signer rest) : Async _).replay log =
      some out) :
    ∃ out', (processRounds scan failed signer rest).replay log = some out' ∧
      out = out'.map (outcome :: ·) := by
  rw [Prog.bind_eq, Prog.replay_bind_iff] at h
  rcases h with ⟨e, rfl, h⟩ | ⟨tail, l₁, l₂, rfl, h₁, h₂⟩
  · exact ⟨.error e, h, rfl⟩
  · obtain ⟨rfl, rfl⟩ := Prog.replay_ret_iff.mp h₂
    rw [List.append_nil]
    exact ⟨.ok tail, h₁, rfl⟩

theorem recorded_of_return {scan : ScanType} {outcome : QuicknetRoundOutcome} {failed : Bool}
    {signer : Option SignerBlocker} {rest : List (ℕ × ℕ)} {log : DaemonLog}
    {out : Except Failure (List QuicknetRoundOutcome)}
    (h : (do return outcome :: (← processRounds scan failed signer rest) : Async _).replay log =
      some out) : Recorded scan outcome failed signer rest log out := by
  obtain ⟨out', h', rfl⟩ := processRounds_cons h
  rw [← List.nil_append log]
  exact Recorded.continued (fun x hx => by cases hx) h'

theorem recorded_of_observe {scan : ScanType} {outcome : QuicknetRoundOutcome} {failed : Bool}
    {signer : Option SignerBlocker} {rest : List (ℕ × ℕ)} {q : DaemonQuery}
    {log : DaemonLog} {out : Except Failure (List QuicknetRoundOutcome)}
    (h : (do
      observe q
      return outcome :: (← processRounds scan failed signer rest) : Async _).replay log =
        some out) (hq : IsCallback q) : Recorded scan outcome failed signer rest log out := by
  rcases Prog.replay_read_iff.mp h with ⟨e, rfl, rfl⟩ | ⟨reply, tail, rfl, hrest⟩
  · exact Recorded.unanswered hq e
  · obtain ⟨out', h', rfl⟩ := processRounds_cons hrest
    rw [← List.singleton_append]
    refine Recorded.continued ?_ h'
    intro x hx
    exact ⟨q, reply, hq, List.mem_singleton.mp hx⟩

theorem processRounds_failed {scan : ScanType} {signer : Option SignerBlocker} {round first : ℕ}
    {rest : List (ℕ × ℕ)} {log : DaemonLog} {out : Except Failure (List QuicknetRoundOutcome)}
    (h : (processRounds scan true signer ((round, first) :: rest)).replay log = some out) :
    Recorded scan ⟨round, first, .earlierImportFailed⟩ true signer rest log out := by
  unfold processRounds at h
  exact recorded_of_return h

theorem processRounds_unavailable {scan : ScanType} {blocker : SignerBlocker} {round first : ℕ}
    {rest : List (ℕ × ℕ)} {log : DaemonLog} {out : Except Failure (List QuicknetRoundOutcome)}
    (h : (processRounds scan false (some blocker) ((round, first) :: rest)).replay log =
      some out) :
    Recorded scan ⟨round, first, .signerUnavailable blocker⟩ false (some blocker) rest log out := by
  unfold processRounds at h
  exact recorded_of_observe h trivial

/-- The import of a round, and how the loop goes on with its reply. -/
theorem processRounds_imports {scan : ScanType} {round first : ℕ} {rest : List (ℕ × ℕ)}
    {log : DaemonLog} {out : Except Failure (List QuicknetRoundOutcome)}
    (h : (processRounds scan false none ((round, first) :: rest)).replay log = some out) :
    (∃ e, log = [⟨.importRound scan round, .error e⟩] ∧ out = .error e) ∨
      (∃ failure, failure.cancelled = true ∧ out = .error failure.error ∧
        log = [⟨.importRound scan round, .ok (.error failure)⟩]) ∨
      ∃ (reply : Except ImportFailure ImportResult) (tail : DaemonLog),
        (∀ failure, reply = .error failure → failure.cancelled = false) ∧
        log = ⟨.importRound scan round, .ok reply⟩ :: tail ∧
        Recorded scan ⟨round, first, statusOf reply⟩ (statusOf reply).flags.1
          (statusOf reply).flags.2 rest tail out := by
  unfold processRounds at h
  rcases Prog.replay_read_iff.mp h with ⟨e, hlog, hout⟩ | ⟨reply, tail, rfl, hrest⟩
  · exact Or.inl ⟨e, hlog, hout⟩
  · cases reply with
    | ok result =>
      refine Or.inr (Or.inr ⟨.ok result, tail, by simp, rfl, ?_⟩)
      cases result with
      | completed result => exact recorded_of_observe hrest trivial
      | pending result => exact recorded_of_observe hrest trivial
      | signerUnavailable blocker => exact recorded_of_observe hrest trivial
      | alreadyRetained attemptId workId => exact recorded_of_observe hrest trivial
    | error failure =>
      change (if failure.cancelled = true then Prog.throw failure.error else do
        return (⟨round, first, .failed failure.error⟩ : QuicknetRoundOutcome) ::
          (← processRounds scan true none rest) : Async _).replay tail = some out at hrest
      split at hrest
      · rename_i hcancelled
        obtain ⟨rfl, hout⟩ := Prog.replay_throw_iff.mp hrest
        exact Or.inr (Or.inl ⟨failure, hcancelled, hout, rfl⟩)
      · rename_i hcancelled
        refine Or.inr (Or.inr ⟨.error failure, tail, ?_, rfl, recorded_of_return hrest⟩)
        intro f hf
        rw [← Except.error.inj hf]
        exact Bool.not_eq_true _ ▸ hcancelled

/-! The rounds after the first failure, or without a signer, are not imported. -/

/-- What the loop did and returned once it imports no more. -/
structure Stopped (status : RoundStatus) (log : DaemonLog)
    (out : Except Failure (List QuicknetRoundOutcome)) : Prop where
  calls : importCalls log = []
  ends : Ends log out
  deferred : ∀ outcomes, out = .ok outcomes → ∀ o ∈ outcomes, o.status = status

theorem stopped_nil (status : RoundStatus) : Stopped status [] (.ok []) where
  calls := rfl
  ends := ends_ok_nil _
  deferred outcomes h o ho := by
    rw [← Except.ok.inj h] at ho
    cases ho

theorem map_cons_ok {o : QuicknetRoundOutcome} {out : Except Failure (List QuicknetRoundOutcome)}
    {outcomes : List QuicknetRoundOutcome} (h : out.map (o :: ·) = .ok outcomes) :
    ∃ tail, out = .ok tail ∧ outcomes = o :: tail := by
  cases out with
  | ok tail => exact ⟨tail, rfl, (Except.ok.inj h).symm⟩
  | error e => cases h

theorem Recorded.stopped {scan : ScanType} {round first : ℕ} {status : RoundStatus} {failed : Bool}
    {signer : Option SignerBlocker} {rest : List (ℕ × ℕ)} {log : DaemonLog}
    {out : Except Failure (List QuicknetRoundOutcome)}
    (h : Recorded scan ⟨round, first, status⟩ failed signer rest log out)
    (hrest : ∀ log out, (processRounds scan failed signer rest).replay log = some out →
      Stopped status log out) : Stopped status log out := by
  cases h with
  | continued hreported h =>
    have ih := hrest _ _ h
    constructor
    · rw [importCalls_append, hreported.importCalls, ih.calls, List.append_nil]
    · exact (ih.ends.map _).after hreported.not_interrupted
    · intro outcomes houtcomes o ho
      obtain ⟨tail, htail, rfl⟩ := map_cons_ok houtcomes
      rcases List.mem_cons.mp ho with rfl | ho
      · rfl
      · exact ih.deferred tail htail o ho
  | unanswered hq e =>
    constructor
    · exact hq.importCalls _
    · exact ends_unanswered _ e
    · intro outcomes houtcomes
      cases houtcomes

theorem stopped_failed {scan : ScanType} {signer : Option SignerBlocker} {firsts : List (ℕ × ℕ)}
    {log : DaemonLog} {out : Except Failure (List QuicknetRoundOutcome)}
    (h : (processRounds scan true signer firsts).replay log = some out) :
    Stopped .earlierImportFailed log out := by
  induction firsts generalizing log out with
  | nil =>
    obtain ⟨rfl, rfl⟩ := Prog.replay_ret_iff.mp h
    exact stopped_nil _
  | cons entry rest ih => exact (processRounds_failed h).stopped fun log out => ih

theorem stopped_unavailable {scan : ScanType} {blocker : SignerBlocker} {firsts : List (ℕ × ℕ)}
    {log : DaemonLog} {out : Except Failure (List QuicknetRoundOutcome)}
    (h : (processRounds scan false (some blocker) firsts).replay log = some out) :
    Stopped (.signerUnavailable blocker) log out := by
  induction firsts generalizing log out with
  | nil =>
    obtain ⟨rfl, rfl⟩ := Prog.replay_ret_iff.mp h
    exact stopped_nil _
  | cons entry rest ih => exact (processRounds_unavailable h).stopped fun log out => ih

/-- A status after which the loop imports goes on with clear flags; after any other, the
rest is stopped. -/
theorem stopped_of_defers {scan : ScanType} {status deferred : RoundStatus}
    (hstatus : status.defers = some deferred) {firsts : List (ℕ × ℕ)} {log : DaemonLog}
    {out : Except Failure (List QuicknetRoundOutcome)}
    (h : (processRounds scan status.flags.1 status.flags.2 firsts).replay log = some out) :
    Stopped deferred log out := by
  cases status with
  | failed e =>
    cases hstatus
    exact stopped_failed h
  | signerUnavailable blocker =>
    cases hstatus
    exact stopped_unavailable h
  | _ => cases hstatus

theorem flags_of_defers {status : RoundStatus} (h : status.defers = none) :
    status.flags = (false, none) := by
  cases status with
  | failed e => cases h
  | signerUnavailable blocker => cases h
  | _ => rfl

/-! The rounds before that are imported one by one. -/

/-- An import that failed or found no signer. -/
def Stops (x : Exchange DaemonQuery.Reply Failure) : Prop :=
  ∃ reply ∈ importReplies [x], (statusOf reply.2).defers ≠ none

theorem Reported.not_stops {log : DaemonLog} (h : Reported log) : ∀ x ∈ log, ¬ Stops x := by
  intro x hx ⟨reply, hreply, _⟩
  have hsingle : Reported [x] := fun y hy => h y (List.mem_singleton.mp hy ▸ hx)
  rw [importReplies_of_importCalls hsingle.importCalls] at hreply
  cases hreply

/-- What the loop did and returned from where it still imports. -/
structure Imported (scan : ScanType) (firsts : List (ℕ × ℕ)) (log : DaemonLog)
    (out : Except Failure (List QuicknetRoundOutcome)) : Prop where
  calls : importCalls log <+: firsts.map fun entry => (scan, entry.1)
  halted : log.Pairwise fun x y => Stops x → importCalls [y] = []
  ends : Ends log out
  outcomes : ∀ outcomes, out = .ok outcomes →
    ∃ called deferred, outcomes = called ++ deferred ∧
      Outcomes (importReplies log) called deferred

theorem importCalls_mem {log : DaemonLog} (h : importCalls log = []) :
    ∀ x ∈ log, importCalls [x] = [] := by
  intro x hx
  obtain ⟨l₁, l₂, rfl⟩ := List.append_of_mem hx
  rw [List.append_cons, importCalls_append, importCalls_append] at h
  exact (List.append_eq_nil_iff.mp (List.append_eq_nil_iff.mp h).1).2

/-- Exchanges that stop nothing may stand before others. -/
theorem halted_after {past log : DaemonLog} (hpast : ∀ x ∈ past, ¬ Stops x)
    (hlog : log.Pairwise fun x y => Stops x → importCalls [y] = []) :
    (past ++ log).Pairwise fun x y => Stops x → importCalls [y] = [] := by
  refine List.pairwise_append.mpr ⟨?_, hlog, fun x hx y _ h => absurd h (hpast x hx)⟩
  exact List.Pairwise.imp_of_mem (fun hx _ _ h => absurd h (hpast _ hx))
    (List.pairwise_of_forall fun _ _ => trivial)

/-- Without imports nothing can be out of order. -/
theorem halted_of_importCalls {log : DaemonLog} (h : importCalls log = []) :
    log.Pairwise fun x y => Stops x → importCalls [y] = [] :=
  List.Pairwise.imp_of_mem (fun _ hy _ _ => importCalls_mem h _ hy)
    (List.pairwise_of_forall fun _ _ => trivial)

theorem imported_nil (scan : ScanType) (firsts : List (ℕ × ℕ)) :
    Imported scan firsts [] (.ok []) where
  calls := List.nil_prefix
  halted := List.Pairwise.nil
  ends := ends_ok_nil _
  outcomes outcomes h := by
    rw [← Except.ok.inj h]
    exact ⟨[], [], rfl, rfl, fun o ho => absurd ho List.not_mem_nil,
      fun o ho => absurd ho List.not_mem_nil⟩

/-- An import that interrupts the batch is the only one. -/
theorem imported_interrupted {scan : ScanType} {round first : ℕ} {rest : List (ℕ × ℕ)}
    {reply : Except Failure (Except ImportFailure ImportResult)} {e : Failure}
    (hends : Ends (α := List QuicknetRoundOutcome) [⟨.importRound scan round, reply⟩] (.error e)) :
    Imported scan ((round, first) :: rest) [⟨.importRound scan round, reply⟩] (.error e) where
  calls := ⟨rest.map fun entry => (scan, entry.1), rfl⟩
  halted := List.pairwise_singleton _ _
  ends := hends
  outcomes outcomes h := by cases h

/-- What stands after an import: exchanges with observers, then the rest of the loop or a
callback that never returned. -/
theorem Recorded.rest {scan : ScanType} {outcome : QuicknetRoundOutcome} {rest : List (ℕ × ℕ)}
    {log : DaemonLog} {out : Except Failure (List QuicknetRoundOutcome)}
    (h : Recorded scan outcome outcome.status.flags.1 outcome.status.flags.2 rest log out)
    (hrest : ∀ log out, (processRounds scan false none rest).replay log = some out →
      Imported scan rest log out) :
    ∃ reported tail out', Reported reported ∧ log = reported ++ tail ∧
      out = out'.map (outcome :: ·) ∧
      (outcome.status.defers = none → Imported scan rest tail out') ∧
      ∀ deferred, outcome.status.defers = some deferred → Stopped deferred tail out' := by
  cases h with
  | continued hreported h =>
    refine ⟨_, _, _, hreported, rfl, rfl, ?_, fun deferred hd => stopped_of_defers hd h⟩
    intro hd
    rw [flags_of_defers hd] at h
    exact hrest _ _ h
  | @unanswered q hq e =>
    have hcalls := hq.importCalls (Except.error e)
    have hends : Ends (α := List QuicknetRoundOutcome) [⟨q, .error e⟩] (.error e) :=
      ends_unanswered q e
    have hnothing : Reported [] := fun x hx => absurd hx List.not_mem_nil
    refine ⟨[], [⟨q, .error e⟩], .error e, hnothing, rfl, rfl, ?_, ?_⟩
    · intro _
      exact ⟨hcalls ▸ List.nil_prefix, halted_of_importCalls hcalls, hends,
        fun outcomes h => by cases h⟩
    · intro deferred _
      exact ⟨hcalls, hends, fun outcomes h => by cases h⟩

/-- A round that was imported stands before the outcomes of the rest. -/
theorem Imported.cons {scan : ScanType} {round first : ℕ}
    {reply : Except ImportFailure ImportResult} {rest : List (ℕ × ℕ)} {reported tail : DaemonLog}
    {out : Except Failure (List QuicknetRoundOutcome)}
    (hreply : ∀ failure, reply = .error failure → failure.cancelled = false)
    (hreported : Reported reported)
    (hnone : (statusOf reply).defers = none → Imported scan rest tail out)
    (hsome : ∀ deferred, (statusOf reply).defers = some deferred → Stopped deferred tail out) :
    Imported scan ((round, first) :: rest)
      (⟨.importRound scan round, .ok reply⟩ :: (reported ++ tail))
      (out.map (⟨round, first, statusOf reply⟩ :: ·)) := by
  have hends : Ends tail out := by
    cases hd : (statusOf reply).defers with
    | none => exact (hnone hd).ends
    | some deferred => exact (hsome deferred hd).ends
  -- neither the import of this round nor its reports interrupt the batch
  have hhead : ∀ x ∈ (⟨.importRound scan round, .ok reply⟩ :: reported : DaemonLog),
      ∀ e, ¬ Interrupted e x := by
    intro x hx e
    rcases List.mem_cons.mp hx with rfl | hx
    · rintro (heq | ⟨_, _, failure, hcancelled, _, heq⟩ | ⟨_, heq⟩)
      · cases congrArg Exchange.query heq
      · cases heq
        rw [hreply failure rfl] at hcancelled
        cases hcancelled
      · cases congrArg Exchange.query heq
        cases heq
    · exact hreported.not_interrupted x hx e
  have hcalls : importCalls (⟨.importRound scan round, .ok reply⟩ :: (reported ++ tail)) =
      (scan, round) :: importCalls tail := by
    rw [← List.singleton_append, importCalls_append, importCalls_append, hreported.importCalls]
    rfl
  have hreplies : importReplies (⟨.importRound scan round, .ok reply⟩ :: (reported ++ tail)) =
      (round, reply) :: importReplies tail := by
    rw [← List.singleton_append, importReplies_append, importReplies_append,
      importReplies_of_importCalls hreported.importCalls]
    rfl
  -- the rest is imported where this round defers nothing, and is not touched where it does
  constructor
  · rw [hcalls, List.map_cons, List.cons_prefix_cons]
    refine ⟨rfl, ?_⟩
    cases hd : (statusOf reply).defers with
    | none => exact (hnone hd).calls
    | some deferred =>
      rw [(hsome deferred hd).calls]
      exact List.nil_prefix
  · cases hd : (statusOf reply).defers with
    | none =>
      rw [← List.cons_append]
      apply halted_after _ (hnone hd).halted
      intro x hx
      rcases List.mem_cons.mp hx with rfl | hx
      · rintro ⟨r, hr, hdefers⟩
        rw [List.mem_singleton.mp hr] at hdefers
        exact hdefers hd
      · exact hreported.not_stops x hx
    | some deferred =>
      have hrest : importCalls (reported ++ tail) = [] := by
        rw [importCalls_append, hreported.importCalls, (hsome deferred hd).calls, List.append_nil]
      exact List.pairwise_cons.mpr
        ⟨fun y hy _ => importCalls_mem hrest y hy, halted_of_importCalls hrest⟩
  · rw [← List.cons_append]
    exact (hends.map _).after hhead
  -- the outcomes of the rounds that were called come before the deferred ones
  · intro outcomes houtcomes
    obtain ⟨outcomes', hok, rfl⟩ := map_cons_ok houtcomes
    rw [hreplies]
    cases hd : (statusOf reply).defers with
    | none =>
      obtain ⟨called, deferred, rfl, ih⟩ := (hnone hd).outcomes outcomes' hok
      refine ⟨_ :: called, deferred, rfl, ?_, ?_, ?_⟩
      · rw [List.map_cons, List.map_cons, ih.replied]
      · intro o ho
        rcases called with _ | ⟨next, called⟩
        · cases ho
        · rw [List.dropLast_cons_cons] at ho
          rcases List.mem_cons.mp ho with rfl | ho
          · exact hd
          · exact ih.continued o ho
      · intro o ho
        obtain ⟨last, hlast, hdefers⟩ := ih.deferred o ho
        refine ⟨last, ?_, hdefers⟩
        rw [List.getLast?_cons, hlast]
        rfl
    | some status =>
      have hstopped := hsome status hd
      refine ⟨[_], outcomes', rfl, ?_, fun o ho => absurd ho List.not_mem_nil, ?_⟩
      · rw [importReplies_of_importCalls hstopped.calls]
        rfl
      · intro o ho
        exact ⟨_, rfl, hd.trans (congrArg some (hstopped.deferred outcomes' hok o ho).symm)⟩

theorem processRounds_imported {scan : ScanType} {firsts : List (ℕ × ℕ)} {log : DaemonLog}
    {out : Except Failure (List QuicknetRoundOutcome)}
    (h : (processRounds scan false none firsts).replay log = some out) :
    Imported scan firsts log out := by
  induction firsts generalizing log out with
  | nil =>
    obtain ⟨rfl, rfl⟩ := Prog.replay_ret_iff.mp h
    exact imported_nil scan []
  | cons entry rest ih =>
    obtain ⟨round, first⟩ := entry
    rcases processRounds_imports h with
      ⟨e, rfl, rfl⟩ | ⟨failure, hcancelled, rfl, rfl⟩ | ⟨reply, tail, hreply, rfl, hrecorded⟩
    · exact imported_interrupted (ends_unanswered _ e)
    · refine imported_interrupted
        (Ends.single (Or.inr (Or.inl ⟨scan, round, failure, hcancelled, rfl, rfl⟩)) ?_)
      rintro e' (heq | ⟨_, _, failure', _, rfl, heq⟩ | ⟨_, heq⟩)
      · cases congrArg Exchange.query heq
      · cases heq
        rfl
      · cases congrArg Exchange.query heq
        cases heq
    · obtain ⟨reported, tail, out', hreported, rfl, rfl, hnone, hsome⟩ :=
        hrecorded.rest fun log out => ih
      exact Imported.cons hreply hreported hnone hsome

/-! The batch. -/

theorem processQuicknetRequests_imported {scan : ScanType}
    {requests : List QuicknetRandomnessRequest} {log : DaemonLog}
    {out : Except Failure (List QuicknetRoundOutcome)}
    (h : (processQuicknetRequestsWithOutcomes scan requests).replay log = some out) :
    Imported scan (firstBlocks requests) log out := by
  rcases Prog.replay_read_iff.mp h with ⟨e, rfl, rfl⟩ | ⟨reply, tail, rfl, hrest⟩
  · exact ⟨List.nil_prefix, List.pairwise_singleton _ _, ends_unanswered _ e,
      fun outcomes h => by cases h⟩
  · cases reply with
    | some reason =>
      obtain ⟨rfl, rfl⟩ := Prog.replay_throw_iff.mp hrest
      refine ⟨List.nil_prefix, List.pairwise_singleton _ _, ?_, fun outcomes h => by cases h⟩
      refine Ends.single (Or.inl rfl) ?_
      rintro e (heq | ⟨_, _, _, _, _, heq⟩ | ⟨_, heq⟩)
      · cases heq
        rfl
      · cases congrArg Exchange.query heq
      · cases congrArg Exchange.query heq
        cases heq
    | none =>
      have himported := processRounds_imported hrest
      have hsignal : ∀ x ∈ ([⟨.signal, .ok none⟩] : DaemonLog), ∀ e, ¬ Interrupted e x := by
        intro x hx e
        rw [List.mem_singleton.mp hx]
        rintro (heq | ⟨_, _, _, _, _, heq⟩ | ⟨_, heq⟩)
        · cases heq
        · cases congrArg Exchange.query heq
        · cases congrArg Exchange.query heq
          cases heq
      refine ⟨himported.calls, ?_, himported.ends.after hsignal, himported.outcomes⟩
      refine List.pairwise_cons.mpr ⟨?_, himported.halted⟩
      rintro y _ ⟨_, hmem, _⟩
      cases hmem

theorem importCalls_alike {log log' : DaemonLog}
    (h : List.Forall₂ (Prog.AlikeUpTo IsCallback) log log') : importCalls log = importCalls log' := by
  induction h with
  | nil => rfl
  | cons hx _ ih =>
    rcases hx with rfl | ⟨q, r, r', hq, rfl, rfl⟩
    · rw [← List.singleton_append, importCalls_append, ih, ← importCalls_append,
        List.singleton_append]
    · rw [← List.singleton_append, importCalls_append, hq.importCalls, ih,
        ← List.singleton_append, importCalls_append, hq.importCalls]

/-! Observers keep what they are handed: `onIncomplete` gets the object that was pushed to the
outcomes, `onCompleted` the result inside one. -/

/-- What the observers have assigned to those objects when the batch returns. -/
structure Observers where
  onIncomplete : QuicknetRoundOutcome → QuicknetRoundOutcome
  onCompleted : ℕ → CompletedImportResult → CompletedImportResult

/-- Observers that only read. -/
def Observers.reading : Observers := ⟨id, fun _ => id⟩

/-- What an outcome holds when the batch returns. -/
def Observers.leave (observers : Observers) (outcome : QuicknetRoundOutcome) :
    QuicknetRoundOutcome :=
  match outcome.status with
  | .completed result =>
    { outcome with status := .completed (observers.onCompleted outcome.round result) }
  | .pending _ | .signerUnavailable _ | .alreadyRetained _ _ => observers.onIncomplete outcome
  | .failed _ | .earlierImportFailed => outcome

@[simp] theorem Observers.leave_reading (outcome : QuicknetRoundOutcome) :
    Observers.reading.leave outcome = outcome := by
  obtain ⟨round, first, status⟩ := outcome
  cases status <;> rfl

/-- The loop with the objects it shares: each entry is what its object holds in the end. The
loop itself never reads an object back that it has handed out. -/
def processSharedRounds (observers : Observers) (scan : ScanType) (failed : Bool)
    (signerUnavailable : Option SignerBlocker) :
    List (ℕ × ℕ) → Async (List QuicknetRoundOutcome)
  | [] => return []
  | (round, firstRequestBlock) :: rest => do
    let record (status : RoundStatus) : QuicknetRoundOutcome :=
      ⟨round, firstRequestBlock, status⟩
    let recordIncomplete (status : RoundStatus) (signer : Option SignerBlocker) :
        Async (List QuicknetRoundOutcome) := do
      observe (.onIncomplete scan (record status))
      return observers.onIncomplete (record status) ::
        (← processSharedRounds observers scan false signer rest)
    match failed, signerUnavailable with
    | true, signer =>
      return record .earlierImportFailed ::
        (← processSharedRounds observers scan true signer rest)
    | false, some blocker =>
      recordIncomplete (.signerUnavailable blocker) (some blocker)
    | false, none =>
      match (← Prog.ask (DaemonQuery.importRound scan round) :
          Except ImportFailure ImportResult) with
      | .ok (.pending result) => recordIncomplete (.pending result) none
      | .ok (.signerUnavailable blocker) =>
        recordIncomplete (.signerUnavailable blocker) (some blocker)
      | .ok (.alreadyRetained attemptId workId) =>
        recordIncomplete (.alreadyRetained attemptId workId) none
      | .ok (.completed result) =>
        observe (.onCompleted scan round result)
        return record (.completed (observers.onCompleted round result)) ::
          (← processSharedRounds observers scan false none rest)
      | .error failure =>
        if failure.cancelled then
          .throw failure.error
        else
          return record (.failed failure.error) ::
            (← processSharedRounds observers scan true none rest)

def processSharedRequests (observers : Observers) (scan : ScanType)
    (requests : List QuicknetRandomnessRequest) : Async (List QuicknetRoundOutcome) := do
  throwIfAborted
  processSharedRounds observers scan false none (firstBlocks requests)

/-- What a run returns when the observers have assigned to its outcomes. -/
def Observers.leaveAll (observers : Observers) :
    Except Failure (List QuicknetRoundOutcome) → Except Failure (List QuicknetRoundOutcome) :=
  Except.map (List.map observers.leave)

section Shared

variable (observers : Observers) (env : Prog.Environment DaemonQuery.Reply Failure)

/-- One entry before the rest, in a run. -/
theorem runIn_return_cons (o : QuicknetRoundOutcome) (p : Async (List QuicknetRoundOutcome))
    (past : DaemonLog) :
    (do return o :: (← p) : Async _).runIn env past =
      ((p.runIn env past).1, (p.runIn env past).2.map (o :: ·)) := by
  rw [Prog.bind_eq, Prog.runIn_bind]
  rcases p.runIn env past with ⟨past', e | outcomes⟩ <;> rfl

theorem runIn_shared_cons {p q : Async (List QuicknetRoundOutcome)} (past : DaemonLog)
    (o : QuicknetRoundOutcome)
    (h : q.runIn env past = ((p.runIn env past).1, observers.leaveAll (p.runIn env past).2)) :
    (do return observers.leave o :: (← q) : Async _).runIn env past =
      (((do return o :: (← p) : Async _).runIn env past).1,
        observers.leaveAll ((do return o :: (← p) : Async _).runIn env past).2) := by
  rw [runIn_return_cons, runIn_return_cons, h]
  rcases p.runIn env past with ⟨past', e | outcomes⟩ <;> rfl

/-- The same first step keeps two runs that differ in what observers leave. -/
theorem runIn_shared_bind {α : Type} (first : Async α)
    {p q : α → Async (List QuicknetRoundOutcome)} (past : DaemonLog)
    (h : ∀ a past, (q a).runIn env past =
      (((p a).runIn env past).1, observers.leaveAll ((p a).runIn env past).2)) :
    (first.bind q).runIn env past =
      (((first.bind p).runIn env past).1, observers.leaveAll ((first.bind p).runIn env past).2) := by
  rw [Prog.runIn_bind, Prog.runIn_bind]
  rcases first.runIn env past with ⟨past', e | a⟩
  · rfl
  · exact h a past'

/-- The observers change neither what the loop asks nor anything but the objects they hold. -/
theorem runIn_processSharedRounds (scan : ScanType) (firsts : List (ℕ × ℕ)) (failed : Bool)
    (signer : Option SignerBlocker) (past : DaemonLog) :
    (processSharedRounds observers scan failed signer firsts).runIn env past =
      (((processRounds scan failed signer firsts).runIn env past).1,
        observers.leaveAll ((processRounds scan failed signer firsts).runIn env past).2) := by
  induction firsts generalizing failed signer past with
  | nil => rfl
  | cons entry rest ih =>
    obtain ⟨round, first⟩ := entry
    have hcons (status : RoundStatus) (f : Bool) (s : Option SignerBlocker) (past : DaemonLog) :=
      runIn_shared_cons observers env past ⟨round, first, status⟩ (ih f s past)
    have hobserved (q : DaemonQuery) (status : RoundStatus) (s : Option SignerBlocker)
        (past : DaemonLog) :=
      runIn_shared_bind observers env (observe q) past fun _ past =>
        hcons status false s past
    unfold processSharedRounds processRounds
    -- the branches of the loop, each of which puts one outcome before the rest
    cases failed with
    | true => exact hcons .earlierImportFailed true signer past
    | false =>
      cases signer with
      | some blocker => exact hobserved _ (.signerUnavailable blocker) (some blocker) past
      | none =>
        refine runIn_shared_bind observers env _ _ fun reply past => ?_
        cases reply with
        | ok result =>
          cases result with
          | completed result => exact hobserved _ (.completed result) none past
          | pending result => exact hobserved _ (.pending result) none past
          | signerUnavailable blocker =>
            exact hobserved _ (.signerUnavailable blocker) (some blocker) past
          | alreadyRetained attemptId workId =>
            exact hobserved _ (.alreadyRetained attemptId workId) none past
        | error failure =>
          dsimp only
          split
          · rfl
          · exact hcons (.failed failure.error) true none past

theorem runIn_processSharedRequests (scan : ScanType)
    (requests : List QuicknetRandomnessRequest) (past : DaemonLog) :
    (processSharedRequests observers scan requests).runIn env past =
      (((processQuicknetRequestsWithOutcomes scan requests).runIn env past).1,
        observers.leaveAll
          ((processQuicknetRequestsWithOutcomes scan requests).runIn env past).2) :=
  runIn_shared_bind observers env throwIfAborted _ fun _ past =>
    runIn_processSharedRounds observers env scan (firstBlocks requests) false none past

end Shared

theorem leaveAll_ok {observers : Observers} {out : Except Failure (List QuicknetRoundOutcome)}
    {outcomes : List QuicknetRoundOutcome} (h : observers.leaveAll out = .ok outcomes) :
    ∃ recorded, out = .ok recorded ∧ outcomes = recorded.map observers.leave := by
  cases out with
  | ok recorded => exact ⟨recorded, rfl, (Except.ok.inj h).symm⟩
  | error e => cases h

/-- Observers that only read leave the batch that the daemon runs. -/
theorem runIn_reading (scan : ScanType) (requests : List QuicknetRandomnessRequest)
    (env : Prog.Environment DaemonQuery.Reply Failure) (past : DaemonLog) :
    (processSharedRequests .reading scan requests).runIn env past =
      (processQuicknetRequestsWithOutcomes scan requests).runIn env past := by
  rw [runIn_processSharedRequests]
  rcases (processQuicknetRequestsWithOutcomes scan requests).runIn env past with
    ⟨log, e | outcomes⟩
  · rfl
  · have hleave : (Observers.reading.leave : QuicknetRoundOutcome → _) = id :=
      funext Observers.leave_reading
    simp [Observers.leaveAll, Except.map, hleave]

/-- In any environment: an outcome is recorded for each requested round, with the first block
that requests it, and returned as its observer leaves it; each round is imported at most once,
in the order of the requests, and none after a failure or without a signer; an interruption is
thrown on; observers change nothing but the objects that they are handed. -/
theorem request_batch (observers : Observers) (scan : ScanType)
    (requests : List QuicknetRandomnessRequest)
    (env : Prog.Environment DaemonQuery.Reply Failure) :
    let run := (processSharedRequests observers scan requests).runIn env []
    (∀ outcomes, run.2 = .ok outcomes → ∃ recorded, outcomes = recorded.map observers.leave ∧
      FirstRequests requests (recorded.map fun o => (o.round, o.firstRequestBlock)) ∧
        ∃ called deferred, recorded = called ++ deferred ∧
          Outcomes (importReplies run.1) called deferred) ∧
      (importCalls run.1).Nodup ∧
      (∃ firsts, FirstRequests requests firsts ∧
        importCalls run.1 <+: firsts.map fun first => (scan, first.1)) ∧
      (run.1.Pairwise fun x y => Stops x → importCalls [y] = []) ∧
      Ends run.1 run.2 ∧
      ∀ observers' env', Prog.AgreeUpTo IsCallback env env' →
        let run' := (processSharedRequests observers' scan requests).runIn env' []
        importCalls run'.1 = importCalls run.1 ∧
          ∃ recorded, run.2 = observers.leaveAll recorded ∧
            run'.2 = observers'.leaveAll recorded := by
  intro run
  -- the observers can change what is returned, not what is called
  have hrun : run = (((processQuicknetRequestsWithOutcomes scan requests).runIn env []).1,
      observers.leaveAll ((processQuicknetRequestsWithOutcomes scan requests).runIn env []).2) :=
    runIn_processSharedRequests observers env scan requests []
  obtain ⟨log, hlog, hreplay⟩ :=
    Prog.runIn_replay env (processQuicknetRequestsWithOutcomes scan requests) []
  rw [List.nil_append] at hlog
  have himported := processQuicknetRequests_imported hreplay
  rw [← hlog] at himported hreplay
  have hfirsts := firstBlocks_spec requests
  rw [hrun]
  refine ⟨?_, ?_, ⟨_, hfirsts, himported.calls⟩, himported.halted, himported.ends.map _, ?_⟩
  · intro outcomes houtcomes
    obtain ⟨recorded, hrecorded, rfl⟩ := leaveAll_ok houtcomes
    refine ⟨recorded, rfl, ?_, himported.outcomes recorded hrecorded⟩
    rw [hrecorded] at hreplay
    rcases Prog.replay_bind_ok_iff.mp hreplay with ⟨_, l₁, l₂, _, _, h₂⟩
    rw [processRounds_ok h₂]
    exact hfirsts
  · have hrounds : ((firstBlocks requests).map fun first => (scan, first.1)).Nodup := by
      have hmap : ((firstBlocks requests).map fun first => (scan, first.1)) =
          ((firstBlocks requests).map Prod.fst).map (Prod.mk scan) := by
        rw [List.map_map]
        rfl
      rw [hmap]
      exact hfirsts.nodup.map fun a b h => (Prod.mk.inj h).2
    exact hrounds.sublist himported.calls.sublist
  · intro observers' env' henv
    -- no decision of the batch looks at what a callback answers
    have hignores : (processQuicknetRequestsWithOutcomes scan requests).Ignores IsCallback :=
      throwIfAborted_ignores.bind fun _ => processRounds_ignores _ _ _ _
    obtain ⟨hlogs, houtcome⟩ := hignores.runIn henv List.Forall₂.nil
    rw [runIn_processSharedRequests]
    exact ⟨(importCalls_alike hlogs).symm, _, rfl, by rw [houtcome]⟩

section Sample

def sampleRequest : QuicknetRandomnessRequest := ⟨3, 5, 9, 70, 0⟩

/-- Every import stays pending, and every observer returns. -/
def pendingImports : Prog.Environment DaemonQuery.Reply Failure := fun _ q =>
  match q with
  | .signal => .ok none
  | .importRound _ _ => .ok (.ok (.pending ⟨77, 80, .receiptTimeout⟩))
  | .onCompleted _ _ _ | .onIncomplete _ _ | .onReconciliation => .ok (.ok ())
  | _ => .error .rpc

/-- An observer that moves the block of the outcome it is told of. -/
def movingObservers : Observers :=
  { Observers.reading with onIncomplete := fun outcome => { outcome with firstRequestBlock := 100 } }

/-- With it the batch returns an outcome whose block no request has. -/
theorem request_batch_moved :
    ¬ ∀ outcomes,
      ((processSharedRequests movingObservers .durable [sampleRequest]).runIn pendingImports []).2 =
        .ok outcomes →
      FirstRequests [sampleRequest] (outcomes.map fun o => (o.round, o.firstRequestBlock)) := by
  intro h
  obtain ⟨⟨request, hmem, _, hblock⟩, _⟩ := (h _ rfl).least 5 100 List.mem_cons_self
  rw [List.mem_singleton.mp hmem] at hblock
  exact absurd hblock (by decide)

end Sample

end Quicknet.Daemon
