import Quicknet.DaemonCycle
import Quicknet.SoftScans

/-! The loop of the daemon refines the runs of iterations: its accesses of the store and the
chain are those of a sequence of iterations, each with the cursor that the ones before it
left for its consumer. -/
namespace Quicknet.Daemon
open Interaction

/-! The exchanges of the iterations in a log of the loop. -/

/-- A query that the cycle does not answer itself. -/
def external : DaemonQuery → Bool
  | .onCompleted _ _ _ => false
  | .onIncomplete _ _ => false
  | .onReconciliation => false
  | _ => true

def externalLog (log : DaemonLog) : DaemonLog := log.filter fun x => external x.query

def within (cycle : ℕ) (x : Exchange DaemonQuery.Reply Failure) :
    Exchange LoopQuery.Reply Failure :=
  ⟨.iteration cycle x.query, x.reply⟩

def iterationExchange? : Exchange LoopQuery.Reply Failure →
    Option (Exchange DaemonQuery.Reply Failure)
  | ⟨.iteration _ q, reply⟩ => some ⟨q, reply⟩
  | _ => none

def daemonLog (log : LoopLog) : DaemonLog := log.filterMap iterationExchange?

theorem daemonLog_append (a b : LoopLog) : daemonLog (a ++ b) = daemonLog a ++ daemonLog b :=
  List.filterMap_append

theorem daemonLog_within (cycle : ℕ) (log : DaemonLog) :
    daemonLog (log.map (within cycle)) = log := by
  unfold daemonLog
  rw [List.filterMap_map]
  exact List.filterMap_some

section Observed

variable {α : Type} {cycle : ℕ} {q : DaemonQuery} {k : q.Reply → Async α}

theorem observed_external (hq : external q = true) (records : IterationRecords) :
    observed cycle (.read q k) records =
      .read (.iteration cycle q) fun r => observed cycle (k r) records := by
  cases q <;> first | rfl | cases hq

theorem observed_observer (hq : external q = false) (records : IterationRecords) :
    ∃ r records', observed cycle (.read q k) records = observed cycle (k r) records' := by
  cases q with
  | onCompleted scanType round result => exact ⟨.ok (), _, rfl⟩
  | onIncomplete scanType outcome => exact ⟨.ok (), _, rfl⟩
  | onReconciliation => exact ⟨.ok (), _, rfl⟩
  | _ => cases hq

/-- Under its observers an iteration does what it does alone, with one answer for each call of
an observer put in. -/
theorem observed_replay {p : Async α} {records : IterationRecords} {log : LoopLog}
    {out : Except Failure (Except Failure α × IterationRecords)}
    (h : (observed cycle p records).replay log = some out) :
    ∃ inner out', p.replay inner = some out' ∧ log = (externalLog inner).map (within cycle) ∧
      ((∃ records', out = .ok (out', records')) ∨ ∃ e, out = .error e ∧ out' = .error e) := by
  induction p generalizing records log with
  | ret a =>
    obtain ⟨rfl, rfl⟩ := Prog.replay_ret_iff.mp h
    exact ⟨[], .ok a, rfl, rfl, Or.inl ⟨records, rfl⟩⟩
  | throw e =>
    obtain ⟨rfl, rfl⟩ := Prog.replay_ret_iff.mp h
    exact ⟨[], .error e, rfl, rfl, Or.inl ⟨records, rfl⟩⟩
  | read q k ih =>
    cases hq : external q with
    | true =>
      rw [observed_external hq] at h
      rcases Prog.replay_read_iff.mp h with ⟨e, rfl, rfl⟩ | ⟨r, rest, rfl, hrest⟩
      · refine ⟨[⟨q, .error e⟩], .error e, Prog.replay_read_iff.mpr (Or.inl ⟨e, rfl, rfl⟩), ?_,
          Or.inr ⟨e, rfl, rfl⟩⟩
        simp only [externalLog, List.filter_cons, hq, if_true, List.filter_nil, List.map_cons,
          List.map_nil]
        rfl
      · obtain ⟨inner, out', hinner, rfl, hout⟩ := ih r hrest
        refine ⟨⟨q, .ok r⟩ :: inner, out', Prog.replay_read_iff.mpr (Or.inr ⟨r, inner, rfl, hinner⟩),
          ?_, hout⟩
        simp only [externalLog, List.filter_cons, hq, if_true, List.map_cons]
        rfl
    | false =>
      obtain ⟨r, records', heq⟩ := observed_observer (k := k) hq records
      rw [heq] at h
      obtain ⟨inner, out', hinner, rfl, hout⟩ := ih r h
      refine ⟨⟨q, .ok r⟩ :: inner, out', Prog.replay_read_iff.mpr (Or.inr ⟨r, inner, rfl, hinner⟩),
        ?_, hout⟩
      simp [externalLog, hq]

end Observed

/-- The observers are no accesses of the store. -/
theorem threads_external {log : DaemonLog} {s t : FileCheckpointStore} :
    Threads s (externalLog log) t ↔ Threads s log t := by
  induction log generalizing s with
  | nil => exact Iff.rfl
  | cons x log ih =>
    cases hx : external x.query with
    | true =>
      have hcons : externalLog (x :: log) = x :: externalLog log := by simp [externalLog, hx]
      rw [hcons]
      constructor
      · intro h
        cases h with
        | cons step rest => exact Threads.cons step (ih.mp rest)
      · intro h
        cases h with
        | cons step rest => exact Threads.cons step (ih.mpr rest)
    | false =>
      have hcons : externalLog (x :: log) = externalLog log := by simp [externalLog, hx]
      rw [hcons]
      constructor
      · intro h
        refine Threads.cons (StoreStep.other ?_) (ih.mp h)
        cases hq : x.query <;> rw [hq] at hx <;> trivial
      · intro h
        cases h with
        | cons step rest =>
          cases step with
          | other _ => exact ih.mpr rest
          | _ => cases hx

/-! Sequences of iterations. -/

/-- Iterations one after the other, with the store and the cursors between them. -/
inductive Iterates (options : RunDaemonOptions) :
    FileCheckpointStore → Checkpoints → List SoftIteration → FileCheckpointStore → Checkpoints → Prop
  | nil (s : FileCheckpointStore) (cursors : Checkpoints) : Iterates options s cursors [] s cursors
  | cons {s t u : FileCheckpointStore} {cursors cursors' : Checkpoints} {consumer : Address}
      {log : DaemonLog} {out : Except Failure RunDaemonIterationResult}
      {history : List SoftIteration} (hmem : consumer ∈ options.consumers)
      (hlog : (runDaemonIteration (iterationOptions options cursors consumer)).replay log = some out)
      (store : Threads s log t)
      (rest : Iterates options t (setSoftCursor cursors
        ⟨iterationOptions options cursors consumer, log, out, t.saved consumer⟩) history u cursors') :
      Iterates options s cursors
        (⟨iterationOptions options cursors consumer, log, out, t.saved consumer⟩ :: history) u cursors'

section Iterates

variable {options : RunDaemonOptions} {s t u : FileCheckpointStore}
  {cursors cursors' cursors'' : Checkpoints} {history more : List SoftIteration}

theorem Iterates.consumers (h : Iterates options s cursors history t cursors') :
    ∀ it ∈ history, it.options.consumer ∈ options.consumers := by
  induction h with
  | nil => exact fun it hit => absurd hit List.not_mem_nil
  | cons hmem _ _ _ ih => exact List.forall_mem_cons.mpr ⟨hmem, ih⟩

theorem Iterates.append (h : Iterates options s cursors history t cursors')
    (hmore : Iterates options t cursors' more u cursors'') :
    Iterates options s cursors (history ++ more) u cursors'' := by
  induction h with
  | nil => exact hmore
  | cons hmem hlog store _ ih => exact .cons hmem hlog store (ih hmore)

/-- In the runs of the soft scans, from the cursors that the earlier iterations left. -/
theorem Iterates.softRuns (h : Iterates options s cursors history t cursors')
    {before : List SoftIteration} (hbefore : SoftRuns options.startBlock s before)
    (hcursors : cursors = softCursors before) :
    SoftRuns options.startBlock t (before ++ history) := by
  induction h generalizing before with
  | nil => simpa using hbefore
  | @cons s t u cursors cursors' consumer log out history hmem hlog store rest ih =>
    subst hcursors
    have hrun := SoftRuns.iterate hbefore rfl rfl hlog store
    have hnext := ih hrun (softCursors_append before _).symm
    rw [List.append_assoc] at hnext
    exact hnext

/-- In the runs of the durable scans, which keep no cursors. -/
theorem Iterates.runs (h : Iterates options s cursors history t cursors') {before : List Iteration}
    (hbefore : Runs options.startBlock s before) :
    ∃ after : List Iteration, Runs options.startBlock t (before ++ after) ∧
      after.map Iteration.log = history.map SoftIteration.log := by
  induction h generalizing before with
  | nil => exact ⟨[], by simpa using hbefore, rfl⟩
  | cons hmem hlog store rest ih =>
    obtain ⟨after, hruns, hlogs⟩ := ih (Runs.iterate hbefore rfl hlog store)
    refine ⟨_ :: after, by simpa using hruns, ?_⟩
    rw [List.map_cons, List.map_cons, hlogs]

end Iterates

/-! What a part of the loop does, as iterations. -/

/-- Every execution of the computation is a sequence of iterations that starts at the cursors
and ends at ones that fit what was returned. -/
def Refines {α : Type} (options : RunDaemonOptions) (cursors : Checkpoints) (p : Loop α)
    (post : α → Checkpoints → Prop) : Prop :=
  ∀ (log : LoopLog) (out : Except Failure α) (s t : FileCheckpointStore),
    p.replay log = some out → Threads s (daemonLog log) t →
      ∃ history cursors', Iterates options s cursors history t cursors' ∧
        history.flatMap (fun it => externalLog it.log) = daemonLog log ∧
        ∀ a, out = .ok a → post a cursors'

section Refines

variable {α β : Type} {options : RunDaemonOptions} {cursors : Checkpoints}
  {post : α → Checkpoints → Prop} {post' : β → Checkpoints → Prop}

theorem refines_ret {a : α} (h : post a cursors) : Refines options cursors (.ret a) post := by
  intro log out s t hlog store
  obtain ⟨rfl, rfl⟩ := Prog.replay_ret_iff.mp hlog
  cases store
  exact ⟨[], cursors, .nil s cursors, rfl, fun b hb => Except.ok.inj hb ▸ h⟩

theorem refines_throw {e : Failure} : Refines options cursors (.throw e) post := by
  intro log out s t hlog store
  obtain ⟨rfl, rfl⟩ := Prog.replay_throw_iff.mp hlog
  cases store
  exact ⟨[], cursors, .nil s cursors, rfl, fun b hb => (by cases hb)⟩

/-- A query of the loop itself. -/
theorem refines_read {q : LoopQuery} {k : q.Reply → Loop α}
    (hq : ∀ reply, iterationExchange? ⟨q, reply⟩ = none)
    (hk : ∀ r, Refines options cursors (k r) post) : Refines options cursors (.read q k) post := by
  intro log out s t hlog store
  rcases Prog.replay_read_iff.mp hlog with ⟨e, rfl, rfl⟩ | ⟨r, rest, rfl, hrest⟩
  · have hnil : daemonLog [⟨q, .error e⟩] = [] := by simp [daemonLog, hq]
    rw [hnil] at store ⊢
    cases store
    exact ⟨[], cursors, .nil s cursors, rfl, fun b hb => (by cases hb)⟩
  · have hcons : daemonLog (⟨q, .ok r⟩ :: rest) = daemonLog rest := by simp [daemonLog, hq]
    rw [hcons] at store ⊢
    exact hk r rest out s t hrest store

theorem Refines.bind {p : Loop α} {f : α → Loop β} (hp : Refines options cursors p post)
    (hf : ∀ a cursors', post a cursors' → Refines options cursors' (f a) post') :
    Refines options cursors (p.bind f) post' := by
  intro log out s t hlog store
  rcases Prog.replay_bind_iff.mp hlog with ⟨e, rfl, herror⟩ | ⟨a, l₁, l₂, rfl, hlog₁, hlog₂⟩
  · obtain ⟨history, cursors', hiterates, hexternal, _⟩ := hp log _ s t herror store
    exact ⟨history, cursors', hiterates, hexternal, fun b hb => (by cases hb)⟩
  · rw [daemonLog_append] at store ⊢
    obtain ⟨u, store₁, store₂⟩ := store.append
    obtain ⟨h₁, c₁, hiterates₁, hexternal₁, hpost⟩ := hp l₁ _ s u hlog₁ store₁
    obtain ⟨h₂, c₂, hiterates₂, hexternal₂, hpost'⟩ :=
      hf a c₁ (hpost a rfl) l₂ out u t hlog₂ store₂
    refine ⟨h₁ ++ h₂, c₂, hiterates₁.append hiterates₂, ?_, hpost'⟩
    rw [List.flatMap_append, hexternal₁, hexternal₂]

/-- An observed iteration is one iteration, and its cursor is the consumer's next one. -/
theorem refines_iteration (cycle : ℕ) {consumer : Address} (hmem : consumer ∈ options.consumers) :
    Refines options cursors (observed cycle
      (runDaemonIteration (iterationOptions options cursors consumer)) noRecords)
      fun result cursors' => cursors' = match result.1 with
        | .ok iteration => setCheckpoint cursors consumer iteration.softCursor
        | .error _ => cursors := by
  intro log out s t hlog store
  obtain ⟨inner, out', hinner, rfl, hout⟩ := observed_replay hlog
  rw [daemonLog_within] at store ⊢
  refine ⟨_, _, .cons hmem hinner (threads_external.mp store) (.nil t _), by simp, ?_⟩
  rintro ⟨result, records⟩ hresult
  rcases hout with ⟨records', rfl⟩ | ⟨e, rfl, _⟩
  · obtain ⟨rfl, _⟩ := Prod.mk.inj (Except.ok.inj hresult)
    rfl
  · cases hresult

theorem refines_ask {q : LoopQuery} {f : q.Reply → Loop α}
    (hq : ∀ reply, iterationExchange? ⟨q, reply⟩ = none)
    (hf : ∀ r, Refines options cursors (f r) post) :
    Refines options cursors ((Prog.ask q).bind f) post :=
  refines_read hq hf

theorem refines_runConsumers (cycle : ℕ) {consumers : List Address}
    (hsub : consumers ⊆ options.consumers) (cursors : Checkpoints) :
    Refines options cursors (runConsumers options cycle consumers cursors)
      fun result cursors' => result.2 = cursors' := by
  induction consumers generalizing cursors with
  | nil => exact refines_ret rfl
  | cons consumer rest ih =>
    have hrest := fun cursors => ih (fun c hc => hsub (List.mem_cons_of_mem _ hc)) cursors
    unfold runConsumers
    simp only [Prog.bind_eq]
    refine refines_ask (q := .signal) (fun _ => rfl) fun aborted => ?_
    cases aborted with
    | some reason => exact refines_ret rfl
    | none =>
      refine Refines.bind (refines_iteration cycle (hsub List.mem_cons_self)) ?_
      rintro ⟨out, records⟩ cursors' hcursors
      cases out with
      | ok iteration =>
        rw [hcursors]
        exact (hrest _).bind fun result cursors' hresult => refines_ret hresult
      | error error =>
        rw [hcursors]
        refine refines_ask (q := .cancelled error) (fun _ => rfl) fun cancelled => ?_
        cases cancelled with
        | true => exact refines_throw
        | false => exact (hrest _).bind fun result cursors' hresult => refines_ret hresult

theorem refines_runDaemonCycle (cycle : ℕ) (cursors : Checkpoints) :
    Refines options cursors (runDaemonCycle options cycle cursors)
      fun result cursors' => result.2 = cursors' := by
  unfold runDaemonCycle
  refine refines_ask (q := .signal) (fun _ => rfl) fun aborted => ?_
  cases aborted with
  | some reason => exact refines_throw
  | none =>
    refine refines_ask (q := .recover cycle) (fun _ => rfl) fun recovered => ?_
    cases recovered with
    | ok _ => exact refines_runConsumers cycle (List.Subset.refl _) cursors
    | error error =>
      refine refines_ask (q := .cancelled error) (fun _ => rfl) fun cancelled => ?_
      cases cancelled with
      | true => exact refines_throw
      | false => exact refines_ret rfl

theorem refines_await {q : LoopQuery} (hq : ∀ reply, iterationExchange? ⟨q, reply⟩ = none)
    (reply : q.Reply → Except Failure Unit) :
    Refines options cursors (await q reply) fun _ cursors' => cursors' = cursors := by
  refine refines_ask hq fun r => ?_
  cases reply r with
  | ok _ => exact refines_ret rfl
  | error e => exact refines_throw

theorem refines_runCycles (remaining : ℕ) (cursors : Checkpoints) :
    Refines options cursors (runCycles options remaining cursors) fun _ _ => True := by
  induction remaining generalizing cursors with
  | zero =>
    refine refines_ask (q := .signal) (fun _ => rfl) fun aborted => ?_
    cases aborted with
    | some reason => exact refines_ret trivial
    | none => exact refines_throw
  | succ remaining ih =>
    refine refines_ask (q := .signal) (fun _ => rfl) fun aborted => ?_
    cases aborted with
    | some reason => exact refines_ret trivial
    | none =>
      refine Refines.bind (refines_runDaemonCycle _ cursors) ?_
      rintro ⟨result, softCursors⟩ cursors' rfl
      refine Refines.bind (refines_await (q := .onCycle _ result) (fun _ => rfl) id) ?_
      rintro _ _ rfl
      refine refines_ask (q := .signal) (fun _ => rfl) fun aborted => ?_
      cases aborted with
      | some reason => exact refines_ret trivial
      | none =>
        refine Refines.bind (refines_await (q := .sleep options.pollIntervalMs) (fun _ => rfl) id) ?_
        rintro _ _ rfl
        exact ih _

theorem refines_runDaemon : Refines options [] (runDaemon options) fun _ _ => True := by
  unfold runDaemon
  split_ifs
  · exact refines_runCycles _ _
  · exact refines_throw

end Refines

/-! Processes. -/

section Processes

variable {options : RunDaemonOptions} {log : LoopLog} {out : Except Failure Unit}
  {s t : FileCheckpointStore}

/-- Whatever a process of the daemon has done, its iterations are a run of soft scans from the
files that it has found, for the consumers that it was given. So each cursor moves forwards,
over blocks that were scanned or that belong to the durable scan. -/
theorem runDaemon_iterations {disk durable : Checkpoints}
    (hlog : (runDaemon options).replay log = some out)
    (store : Threads ⟨disk, durable, none⟩ (daemonLog log) t) :
    ∃ history, SoftRuns options.startBlock t history ∧
      history.flatMap (fun it => externalLog it.log) = daemonLog log ∧
      (∀ it ∈ history, it.options.consumer ∈ options.consumers) ∧
      ∀ consumer, Transition.EachEvent (MovesOverCovered consumer) history := by
  obtain ⟨history, cursors, hiterates, hexternal, _⟩ :=
    refines_runDaemon log out _ t hlog store
  have hruns := hiterates.softRuns (SoftRuns.start disk durable) rfl
  exact ⟨history, hruns, hexternal, hiterates.consumers, fun consumer => hruns.moves consumer⟩

/-- The first cycle of two consumers, killed after the first one's iteration. -/
def killedLog : LoopLog :=
  [⟨.signal, .ok (none : Option Failure)⟩, ⟨.signal, .ok (none : Option Failure)⟩,
    ⟨.recover 1, .ok (.ok () : Except Failure Unit)⟩, ⟨.signal, .ok (none : Option Failure)⟩] ++
    (externalLog storedRequestLog).map (within 1) ++ [⟨.signal, .error .rpc⟩]

theorem killedLog_replay :
    (runDaemon ⟨[1, 2], 10, 100, 1000⟩).replay killedLog = some (.error .rpc) := by
  rfl

theorem killedLog_threads :
    Threads ⟨[], [], none⟩ (daemonLog killedLog)
      ((FileCheckpointStore.load ⟨[], [], none⟩ 1 storedRequestOpening).2.save 1 12
        storedRequestOpening .durable).2 :=
  threads_external.mpr storedRequest_threads

theorem killedLog_iterations :
    ∃ history : List SoftIteration,
      history.flatMap (fun it => externalLog it.log) = daemonLog killedLog ∧
      ∀ consumer, Transition.EachEvent (MovesOverCovered consumer) history := by
  obtain ⟨history, _, hexternal, _, hmoves⟩ :=
    runDaemon_iterations killedLog_replay killedLog_threads
  exact ⟨history, hexternal, hmoves⟩

/-- Processes that run one after the other on the same files, all with one `startBlock`. -/
inductive Lives (startBlock : ℕ) : FileCheckpointStore → List LoopLog → Prop
  | start : Lives startBlock ⟨[], [], none⟩ []
  | live {s t : FileCheckpointStore} {logs : List LoopLog} {options : RunDaemonOptions}
      {log : LoopLog} {out : Except Failure Unit} (before : Lives startBlock s logs)
      (powerLost : Bool) (hstart : options.startBlock = startBlock)
      (hlog : (runDaemon options).replay log = some out)
      (store : Threads (s.restart powerLost) (daemonLog log) t) :
      Lives startBlock t (logs ++ [log])

theorem Lives.runs {startBlock : ℕ} {logs : List LoopLog} (h : Lives startBlock s logs) :
    ∃ history, Runs startBlock s history ∧
      history.flatMap (fun it => externalLog it.log) = logs.flatMap daemonLog := by
  induction h with
  | start => exact ⟨[], Runs.start, rfl⟩
  | live before powerLost hstart hlog store ih =>
    obtain ⟨history, hruns, hexternal⟩ := ih
    subst hstart
    obtain ⟨more, cursors, hiterates, hmore, _⟩ := refines_runDaemon _ _ _ _ hlog store
    obtain ⟨after, hafter, hlogs⟩ := hiterates.runs (Runs.restart hruns powerLost)
    refine ⟨history ++ after, hafter, ?_⟩
    have hsame : after.flatMap (fun it => externalLog it.log) =
        more.flatMap (fun it => externalLog it.log) := by
      rw [← List.flatMap_map Iteration.log externalLog, hlogs,
        List.flatMap_map SoftIteration.log externalLog]
    rw [List.flatMap_append, List.flatMap_append, hexternal, hsame, hmore]
    simp

end Processes

end Quicknet.Daemon
