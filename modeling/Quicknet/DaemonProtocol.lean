import Quicknet.DaemonCycle
import Quicknet.Library.Monitor

/-! The protocol of the daemon's loop. Cycles have consecutive numbers, each recovers the
signer before anything else is done in it, and each is reported once, with one result for each
consumer unless the process was aborted. -/
namespace Quicknet.Daemon
open Interaction
open Interaction.Prog (Monitored monitored_ret monitored_throw monitored_read)

inductive CyclePhase
  | idle
  | working
  | blocked
  | reported
  deriving DecidableEq, Repr

structure CycleState where
  cycle : ℕ
  phase : CyclePhase
  aborted : Bool
  deriving DecidableEq, Repr

def DaemonConsumerCycleResult.isFailed : DaemonConsumerCycleResult → Bool
  | .success _ _ _ _ => false
  | .failed _ _ _ => true

/-- The consumers of a report are those of the process in their order, up to an abort. Where
the signer was not recovered, all of them have failed. -/
def CycleReported (options : RunDaemonOptions) (s : CycleState) (result : RunDaemonCycleResult) : Prop :=
  result.map DaemonConsumerCycleResult.consumer <+: options.consumers ∧
    (s.aborted = false → result.map DaemonConsumerCycleResult.consumer = options.consumers) ∧
    (s.phase = .blocked → result.all DaemonConsumerCycleResult.isFailed = true)

instance (options : RunDaemonOptions) (s : CycleState) (result : RunDaemonCycleResult) :
    Decidable (CycleReported options s result) :=
  inferInstanceAs (Decidable (_ ∧ (_ → _) ∧ (_ → _)))

def isAbort : Exchange LoopQuery.Reply Failure → Bool
  | ⟨.signal, .ok (some _)⟩ => true
  | _ => false

def recoveredPhase : Except Failure (Except Failure Unit) → CyclePhase
  | .ok (.ok _) => .working
  | _ => .blocked

/-- The exchanges that a state of the loop allows. -/
def allowCycle (options : RunDaemonOptions) (s : CycleState) :
    Exchange LoopQuery.Reply Failure → Option CycleState
  | ⟨.signal, reply⟩ => some { s with aborted := s.aborted || isAbort ⟨.signal, reply⟩ }
  | ⟨.recover c, reply⟩ =>
    if s.phase = .idle ∧ c = s.cycle + 1 then some { s with cycle := c, phase := recoveredPhase reply }
    else none
  | ⟨.iteration c _, _⟩ => if s.phase = .working ∧ c = s.cycle then some s else none
  | ⟨.cancelled _, _⟩ => if s.phase = .working ∨ s.phase = .blocked then some s else none
  | ⟨.onCycle c result, _⟩ =>
    if (s.phase = .working ∨ s.phase = .blocked) ∧ c = s.cycle ∧ CycleReported options s result then
      some { s with phase := .reported }
    else none
  | ⟨.sleep milliseconds, _⟩ =>
    if s.phase = .reported ∧ milliseconds = options.pollIntervalMs then
      some { s with phase := .idle }
    else none

section Parts

variable {options : RunDaemonOptions} {s : CycleState}

theorem monitored_signal {α : Type} {f : Option Failure → Loop α}
    {post : Except Failure α → CycleState → Prop} (hend : ∀ e, post (.error e) s)
    (hnone : (f none).Monitored (allowCycle options) post s)
    (hsome : ∀ reason, (f (some reason)).Monitored (allowCycle options) post
      { s with aborted := true }) :
    ((Prog.ask LoopQuery.signal).bind f).Monitored (allowCycle options) post s := by
  have hkept (reply : Except Failure (Option Failure)) (hreply : isAbort ⟨.signal, reply⟩ = false) :
      allowCycle options s ⟨.signal, reply⟩ = some s := by
    change some { s with aborted := s.aborted || isAbort ⟨.signal, reply⟩ } = some s
    rw [hreply, Bool.or_false]
  refine monitored_read (fun e => ⟨s, hkept (.error e) rfl, hend e⟩) fun aborted => ?_
  cases aborted with
  | none => exact ⟨s, hkept (.ok none) rfl, hnone⟩
  | some reason =>
    refine ⟨{ s with aborted := true }, ?_, hsome reason⟩
    change some { s with aborted := s.aborted || true } = _
    rw [Bool.or_true]

/-- An iteration in the cycle of the state. -/
theorem monitored_observed {α : Type} (hphase : s.phase = .working) (p : Async α)
    (records : IterationRecords) :
    (observed s.cycle p records).Monitored (allowCycle options) (fun _ t => t = s) s := by
  have hallow (q : DaemonQuery) (reply : Except Failure q.Reply) :
      allowCycle options s ⟨.iteration s.cycle q, reply⟩ = some s := if_pos ⟨hphase, rfl⟩
  induction p generalizing records with
  | ret a => exact monitored_ret rfl
  | throw e => exact monitored_ret rfl
  | read q k ih =>
    cases q with
    | onCompleted scanType round result => exact ih _ _
    | onIncomplete scanType outcome => exact ih _ _
    | onReconciliation => exact ih _ _
    | _ => exact monitored_read (fun e => ⟨s, hallow _ _, rfl⟩) fun r => ⟨s, hallow _ _, ih r records⟩

theorem monitored_cancelled {α : Type} {e : Failure} {f : Bool → Loop α}
    {post : Except Failure α → CycleState → Prop} (hphase : s.phase = .working ∨ s.phase = .blocked)
    (hend : ∀ e, post (.error e) s)
    (hf : ∀ b, (f b).Monitored (allowCycle options) post s) :
    ((Prog.ask (LoopQuery.cancelled e)).bind f).Monitored (allowCycle options) post s :=
  monitored_read (fun e => ⟨s, if_pos hphase, hend e⟩) fun b => ⟨s, if_pos hphase, hf b⟩

/-- What the loop over the consumers returns, in the same cycle. -/
def ConsumersDone (cycle : ℕ) (consumers : List Address)
    (out : Except Failure (RunDaemonCycleResult × Checkpoints)) (t : CycleState) : Prop :=
  t.cycle = cycle ∧ t.phase = .working ∧ ∀ result, out = .ok result →
    result.1.map DaemonConsumerCycleResult.consumer <+: consumers ∧
      (t.aborted = false → result.1.map DaemonConsumerCycleResult.consumer = consumers)

theorem consumersDone_error {consumers : List Address} (hphase : s.phase = .working) (e : Failure) :
    ConsumersDone s.cycle consumers (.error e) s :=
  ⟨rfl, hphase, fun _ hout => (by cases hout)⟩

theorem monitored_runConsumers {consumers : List Address} (cursors : Checkpoints)
    (hphase : s.phase = .working) :
    (runConsumers options s.cycle consumers cursors).Monitored (allowCycle options)
      (ConsumersDone s.cycle consumers) s := by
  induction consumers generalizing cursors s with
  | nil =>
    refine monitored_ret ⟨rfl, hphase, fun result hout => ?_⟩
    rw [← Except.ok.inj hout]
    constructor
    · exact List.nil_prefix
    · exact fun _ => rfl
  | cons consumer rest ih =>
    -- the result of this consumer, before those of the rest
    have hcons (r : DaemonConsumerCycleResult) (hr : r.consumer = consumer) (cursors : Checkpoints) :
        ((runConsumers options s.cycle rest cursors).bind fun result =>
          (.ret (r :: result.1, result.2) : Loop (RunDaemonCycleResult × Checkpoints))).Monitored
            (allowCycle options) (ConsumersDone s.cycle (consumer :: rest)) s := by
      refine (ih cursors hphase).bind ?_ ?_
      · rintro result t ⟨hcycle, htphase, hdone⟩
        refine monitored_ret ⟨hcycle, htphase, fun result' hout => ?_⟩
        rw [← Except.ok.inj hout]
        obtain ⟨hfirst, hall⟩ := hdone result rfl
        constructor
        · rw [List.map_cons, hr]
          exact List.cons_prefix_cons.mpr ⟨rfl, hfirst⟩
        · intro habort
          rw [List.map_cons, hr, hall habort]
      · rintro e t ⟨hcycle, htphase, _⟩
        exact ⟨hcycle, htphase, fun _ hout => (by cases hout)⟩
    unfold runConsumers
    refine monitored_signal (consumersDone_error hphase) ?_ fun reason => ?_
    · refine (monitored_observed hphase _ noRecords).bind ?_ ?_
      · rintro ⟨out, records⟩ t rfl
        cases out with
        | ok iteration => exact hcons _ rfl _
        | error error =>
          refine monitored_cancelled (Or.inl hphase) (consumersDone_error hphase) fun cancelled => ?_
          cases cancelled with
          | true => exact monitored_throw (consumersDone_error hphase error)
          | false => exact hcons _ rfl _
      · rintro e t rfl
        exact consumersDone_error hphase e
    · refine monitored_ret ⟨rfl, hphase, fun result hout => ?_⟩
      rw [← Except.ok.inj hout]
      constructor
      · exact List.nil_prefix
      · exact fun habort => (by cases habort)

/-- What a cycle returns is what it has to report. -/
def CycleDone (options : RunDaemonOptions) (cycle : ℕ)
    (out : Except Failure (RunDaemonCycleResult × Checkpoints)) (t : CycleState) : Prop :=
  ∀ result, out = .ok result →
    (t.phase = .working ∨ t.phase = .blocked) ∧ cycle = t.cycle ∧ CycleReported options t result.1

theorem cycleDone_error {cycle : ℕ} (e : Failure) : CycleDone options cycle (.error e) s :=
  fun _ hout => (by cases hout)

theorem monitored_runDaemonCycle (cursors : Checkpoints) (hphase : s.phase = .idle) :
    (runDaemonCycle options (s.cycle + 1) cursors).Monitored (allowCycle options)
      (CycleDone options (s.cycle + 1)) s := by
  unfold runDaemonCycle
  refine monitored_signal cycleDone_error ?_ fun reason => monitored_throw (cycleDone_error reason)
  refine monitored_read (fun e => ⟨_, if_pos ⟨hphase, rfl⟩, cycleDone_error e⟩) fun recovered =>
    ⟨_, if_pos ⟨hphase, rfl⟩, ?_⟩
  cases recovered with
  | ok _ =>
    let t : CycleState := ⟨s.cycle + 1, .working, s.aborted⟩
    refine (monitored_runConsumers (s := t) cursors rfl).mono ?_
    rintro out u ⟨hcycle, huphase, hdone⟩ result hout
    obtain ⟨hfirst, hall⟩ := hdone result hout
    refine ⟨Or.inl huphase, hcycle.symm, hfirst, hall, fun hblocked => ?_⟩
    rw [huphase] at hblocked
    cases hblocked
  | error error =>
    refine monitored_cancelled (Or.inr rfl) cycleDone_error fun cancelled => ?_
    cases cancelled with
    | true => exact monitored_throw (cycleDone_error error)
    | false =>
      refine monitored_ret fun result hout => ?_
      rw [← Except.ok.inj hout]
      have hconsumers : (options.consumers.map fun consumer =>
          DaemonConsumerCycleResult.failed consumer error noRecords).map
            DaemonConsumerCycleResult.consumer = options.consumers := by
        rw [List.map_map]
        exact List.map_id _
      refine ⟨Or.inr rfl, rfl, ?_, fun _ => hconsumers, fun _ => ?_⟩
      · rw [hconsumers]
      · simp [DaemonConsumerCycleResult.isFailed]

theorem monitored_await {q : LoopQuery} {t : CycleState} (reply : q.Reply → Except Failure Unit)
    (hallow : ∀ r, allowCycle options s ⟨q, r⟩ = some t) :
    (await q reply).Monitored (allowCycle options) (fun _ u => u = t) s := by
  refine monitored_read (fun e => ⟨t, hallow _, rfl⟩) fun r => ⟨t, hallow _, ?_⟩
  change (Prog.lift (reply r)).Monitored _ _ t
  cases reply r with
  | ok _ => exact monitored_ret rfl
  | error e => exact monitored_throw rfl

theorem monitored_runCycles {remaining : ℕ} (cursors : Checkpoints) (hphase : s.phase = .idle)
    (hcycle : s.cycle + remaining = MAX_SAFE_INTEGER) :
    (runCycles options remaining cursors).Monitored (allowCycle options) (fun _ _ => True) s := by
  induction remaining generalizing cursors s with
  | zero =>
    exact monitored_signal (fun _ => trivial) (monitored_throw trivial)
      fun reason => monitored_ret trivial
  | succ remaining ih =>
    refine monitored_signal (fun _ => trivial) ?_ fun reason => monitored_ret trivial
    -- the cycle that follows on the one of the state
    have hnumber : MAX_SAFE_INTEGER - remaining = s.cycle + 1 := by omega
    rw [hnumber]
    refine (monitored_runDaemonCycle cursors hphase).bind ?_ fun _ _ _ => trivial
    rintro ⟨result, softCursors⟩ t hdone
    obtain ⟨htphase, htcycle, hreported⟩ := hdone _ rfl
    have hreport := monitored_await (q := .onCycle (s.cycle + 1) result) id fun _ =>
      if_pos ⟨htphase, htcycle, hreported⟩
    refine hreport.bind ?_ fun _ _ _ => trivial
    rintro _ _ rfl
    refine monitored_signal (fun _ => trivial) ?_ fun reason => monitored_ret trivial
    have hsleep : (await (.sleep options.pollIntervalMs) id).Monitored (allowCycle options)
        (fun _ u => u = { t with phase := .idle }) { t with phase := .reported } := by
      apply monitored_await
      exact fun _ => if_pos ⟨rfl, rfl⟩
    refine hsleep.bind ?_ fun _ _ _ => trivial
    rintro _ _ rfl
    exact ih softCursors rfl (by dsimp only; omega)

/-- The loop follows the protocol, however it is answered and wherever it ends. -/
theorem monitored_runDaemon :
    (runDaemon options).Monitored (allowCycle options) (fun _ _ => True) ⟨0, .idle, false⟩ := by
  unfold runDaemon
  split_ifs
  · exact monitored_runCycles [] rfl (Nat.zero_add _)
  · exact monitored_throw trivial

end Parts

/-! What the protocol says of a log. -/

def recoveryOf : Exchange LoopQuery.Reply Failure → Option ℕ
  | ⟨.recover c, _⟩ => some c
  | _ => none

def reportOf : Exchange LoopQuery.Reply Failure → Option ℕ
  | ⟨.onCycle c _, _⟩ => some c
  | _ => none

/-- The cycles whose recovery was tried. -/
def recoveries (log : LoopLog) : List ℕ := log.filterMap recoveryOf

/-- The cycles that were reported. -/
def reports (log : LoopLog) : List ℕ := log.filterMap reportOf

def recoveredRead (cycle : ℕ) : Exchange LoopQuery.Reply Failure :=
  ⟨.recover cycle, .ok (.ok () : Except Failure Unit)⟩

def CyclePhase.within (phase : CyclePhase) : Bool := phase == .working || phase == .blocked

theorem recoveredPhase_within (reply : Except Failure (Except Failure Unit)) :
    (recoveredPhase reply).within = true := by
  rcases reply with e | e | ⟨⟩ <;> rfl

theorem recoveredPhase_working {reply : Except Failure (Except Failure Unit)}
    (h : recoveredPhase reply = .working) : reply = .ok (.ok ()) := by
  rcases reply with e | e | ⟨⟩
  · cases h
  · cases h
  · rfl

/-- The state of the loop, read off the log. -/
structure ProtocolInv (log : LoopLog) (s : CycleState) : Prop where
  recovered : recoveries log = List.range' 1 s.cycle
  reported : reports log = List.range' 1 (if s.phase.within then s.cycle - 1 else s.cycle)
  begun : s.phase.within = true → 0 < s.cycle
  working : s.phase = .working → ∃ before after, log = before ++ recoveredRead s.cycle :: after ∧
    recoveries after = []
  aborted : s.aborted = log.any isAbort

section Log

variable {options : RunDaemonOptions} {log : LoopLog} {s t : CycleState}
  {x : Exchange LoopQuery.Reply Failure}

/-- An exchange that neither recovers nor reports. -/
theorem ProtocolInv.other (h : ProtocolInv log s) (hrecovery : recoveryOf x = none)
    (hreport : reportOf x = none) (haborted : isAbort x = false) : ProtocolInv (log ++ [x]) s where
  recovered := by
    rw [← h.recovered]
    simp [recoveries, hrecovery]
  reported := by
    rw [← h.reported]
    simp [reports, hreport]
  begun := h.begun
  working hphase := by
    obtain ⟨before, after, rfl, hafter⟩ := h.working hphase
    refine ⟨before, after ++ [x], by simp, ?_⟩
    unfold recoveries at hafter ⊢
    rw [List.filterMap_append, hafter]
    simp [hrecovery]
  aborted := by
    rw [h.aborted]
    simp [haborted]

theorem ProtocolInv.step (h : ProtocolInv log s) (hx : allowCycle options s x = some t) :
    ProtocolInv (log ++ [x]) t := by
  obtain ⟨q, reply⟩ := x
  cases q with
  -- reading the signal only records whether it was aborted
  | signal =>
    obtain rfl := Option.some.inj hx
    refine ⟨?_, ?_, h.begun, ?_, ?_⟩
    · rw [← h.recovered]
      simp [recoveries, recoveryOf]
    · refine Eq.trans ?_ h.reported
      simp [reports, reportOf]
    · intro hphase
      obtain ⟨before, after, rfl, hafter⟩ := h.working hphase
      refine ⟨before, after ++ [⟨.signal, reply⟩], by simp, ?_⟩
      unfold recoveries at hafter ⊢
      rw [List.filterMap_append, hafter]
      rfl
    · dsimp only
      rw [h.aborted]
      simp
  -- a recovery begins the next cycle, with the last one reported
  | recover c =>
    dsimp only [allowCycle] at hx
    split_ifs at hx with hc
    obtain ⟨hidle, rfl⟩ := hc
    obtain rfl := Option.some.inj hx
    have hbefore : recoveries log = List.range' 1 s.cycle := h.recovered
    have hreports := h.reported
    rw [hidle] at hreports
    refine ⟨?_, ?_, fun _ => Nat.succ_pos _, ?_, ?_⟩
    · have happend : recoveries (log ++ [⟨.recover (s.cycle + 1), reply⟩]) =
          recoveries log ++ [s.cycle + 1] := by simp [recoveries, recoveryOf]
      rw [happend, hbefore, List.range'_concat]
      simp [Nat.add_comm]
    · have hsame : reports (log ++ [⟨.recover (s.cycle + 1), reply⟩]) = reports log := by
        simp [reports, reportOf]
      rw [hsame, hreports]
      exact congrArg (List.range' 1) (if_pos (recoveredPhase_within reply)).symm
    · intro hphase
      refine ⟨log, [], ?_, rfl⟩
      rw [recoveredPhase_working hphase]
      rfl
    · dsimp only
      rw [h.aborted]
      simp [isAbort]
  | iteration c q =>
    dsimp only [allowCycle] at hx
    split_ifs at hx
    obtain rfl := Option.some.inj hx
    exact h.other rfl rfl rfl
  | cancelled e =>
    dsimp only [allowCycle] at hx
    split_ifs at hx
    obtain rfl := Option.some.inj hx
    exact h.other rfl rfl rfl
  -- the report closes the cycle, which counts as reported from here on
  | onCycle c result =>
    dsimp only [allowCycle] at hx
    split_ifs at hx with hc
    obtain ⟨hphase, rfl, _⟩ := hc
    obtain rfl := Option.some.inj hx
    have hwithin : s.phase.within = true := by
      rcases hphase with hphase | hphase <;> rw [hphase] <;> rfl
    have hpositive := h.begun hwithin
    have hreports := h.reported
    rw [hwithin] at hreports
    refine ⟨?_, ?_, fun hfalse => (by cases hfalse), fun hfalse => (by cases hfalse), ?_⟩
    · rw [← h.recovered]
      simp [recoveries, recoveryOf]
    · have happend : reports (log ++ [⟨.onCycle s.cycle result, reply⟩]) =
          reports log ++ [s.cycle] := by simp [reports, reportOf]
      rw [happend, hreports]
      obtain ⟨n, hn⟩ := Nat.exists_eq_succ_of_ne_zero (Nat.ne_of_gt hpositive)
      have hfinal : CyclePhase.within .reported = false := rfl
      dsimp only
      rw [hfinal, hn]
      simp [List.range'_concat, Nat.add_comm]
    · dsimp only
      rw [h.aborted]
      simp [isAbort]
  | sleep milliseconds =>
    dsimp only [allowCycle] at hx
    split_ifs at hx with hc
    obtain rfl := Option.some.inj hx
    have hidle := h.other (x := ⟨.sleep milliseconds, reply⟩) rfl rfl rfl
    have hreports := hidle.reported
    rw [hc.1] at hreports
    exact ⟨hidle.recovered, hreports, fun hfalse => (by cases hfalse), fun hfalse => (by cases hfalse),
      hidle.aborted⟩

/-- In every log of the daemon the recoveries have the numbers from 1 on; what an iteration
does is done under the last recovery, which was for its cycle and succeeded; and a report is of
the last recovered cycle, after one report of each cycle before it, and names the consumers of
the daemon in their order, all of them unless the process was aborted. -/
theorem runDaemon_protocol {out : Except Failure Unit} {before after : LoopLog}
    (hlog : (runDaemon options).replay (before ++ x :: after) = some out) :
    recoveries before = List.range' 1 (recoveries before).length ∧
      (∀ c, x.query = .recover c → c = (recoveries before).length + 1) ∧
      (∀ c q, x.query = .iteration c q →
        ∃ earlier later, before = earlier ++ recoveredRead c :: later ∧ recoveries later = []) ∧
      ∀ c result, x.query = .onCycle c result →
        c = (recoveries before).length ∧ reports before = List.range' 1 (c - 1) ∧
          result.map DaemonConsumerCycleResult.consumer <+: options.consumers ∧
          (before.any isAbort = false →
            result.map DaemonConsumerCycleResult.consumer = options.consumers) := by
  -- the invariant holds where `x` was allowed, and what allowed it says the rest
  obtain ⟨t, hfollow, _⟩ := monitored_runDaemon _ out hlog
  obtain ⟨u, v, hu, hv⟩ := follow_split hfollow
  have hinv : ProtocolInv before u :=
    follow_invariant ProtocolInv (fun _ _ _ _ h hx => h.step hx)
      ⟨rfl, rfl, fun hfalse => (by cases hfalse), fun hfalse => (by cases hfalse), rfl⟩ hu
  have hlength : (recoveries before).length = u.cycle := by
    rw [hinv.recovered, List.length_range']
  rw [hlength]
  refine ⟨hinv.recovered, ?_, ?_, ?_⟩
  · intro c hq
    obtain ⟨q, reply⟩ := x
    obtain rfl : q = .recover c := hq
    dsimp only [allowCycle] at hv
    split_ifs at hv with hc
    exact hc.2
  · intro c q hq
    obtain ⟨q', reply⟩ := x
    obtain rfl : q' = .iteration c q := hq
    dsimp only [allowCycle] at hv
    split_ifs at hv with hc
    rw [hc.2]
    exact hinv.working hc.1
  · intro c result hq
    obtain ⟨q', reply⟩ := x
    obtain rfl : q' = .onCycle c result := hq
    dsimp only [allowCycle] at hv
    split_ifs at hv with hc
    obtain ⟨hphase, rfl, hfirst, hall, _⟩ := hc
    have hwithin : u.phase.within = true := by
      rcases hphase with hphase | hphase <;> rw [hphase] <;> rfl
    have hreports := hinv.reported
    rw [hwithin] at hreports
    exact ⟨rfl, hreports, hfirst, fun habort => hall (hinv.aborted.trans habort)⟩

/-- A cycle whose recovery failed, and the begin of the next one. -/
def secondCycleLog : LoopLog :=
  [⟨.signal, .ok (none : Option Failure)⟩, ⟨.signal, .ok (none : Option Failure)⟩,
    ⟨.recover 1, .ok (.error .rpc : Except Failure Unit)⟩, ⟨.cancelled .rpc, .ok false⟩,
    ⟨.onCycle 1 [.failed 1 .rpc noRecords], .ok (.ok () : Except Failure Unit)⟩,
    ⟨.signal, .ok (none : Option Failure)⟩, ⟨.sleep 1000, .ok (.ok () : Except Failure Unit)⟩,
    ⟨.signal, .ok (none : Option Failure)⟩, ⟨.signal, .ok (none : Option Failure)⟩,
    recoveredRead 2, ⟨.signal, .ok (none : Option Failure)⟩]

theorem secondCycle_recovered :
    ∃ earlier later, secondCycleLog = earlier ++ recoveredRead 2 :: later ∧ recoveries later = [] := by
  have hlog : (runDaemon ⟨[1], 10, 100, 1000⟩).replay
      (secondCycleLog ++ ⟨.iteration 2 .signal, .error .rpc⟩ :: []) = some (.error .rpc) := by
    rfl
  exact (runDaemon_protocol hlog).2.2.1 2 .signal rfl

end Log

end Quicknet.Daemon
