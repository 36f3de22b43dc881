import Quicknet.JournalText
import Quicknet.Library.Transition

/-! When the transaction of an attempt is sent again. A claim reserves one send and doubles
the wait for the next, on a clock that may go backwards and whose reading may fail. -/
namespace Quicknet

open Json (Text)
open Transition

namespace BroadcastRetry

def MAX_DELAY_MS : ℚ := 2147483647

def MAX_SAFE_MS : ℚ := (MAX_SAFE_INTEGER : ℕ)

inductive RetryError
  | typeError (message : String)
  | rangeError (message : String)
  | error (message : String)
  deriving DecidableEq, Repr

def isPositiveSafeInteger (value : ℚ) : Bool :=
  decide (value.den = 1) && decide (0 < value) && decide (value ≤ MAX_SAFE_MS)

structure BroadcastRetryScheduleOptions where
  initialDelayMs : ℚ
  maxDelayMs : ℚ
  deriving DecidableEq, Repr

def validateBroadcastRetryOptions (options : BroadcastRetryScheduleOptions) :
    Except RetryError Unit :=
  if !isPositiveSafeInteger options.initialDelayMs || !isPositiveSafeInteger options.maxDelayMs ||
      decide (options.maxDelayMs < options.initialDelayMs) ||
      decide (MAX_DELAY_MS < options.maxDelayMs) then
    .error (.rangeError "Invalid broadcast retry delays.")
  else .ok ()

structure BroadcastRetrySchedule where
  attemptId : Option Text
  dueAt : ℚ
  nextDelayMs : ℚ
  lastNow : ℚ
  initialDelayMs : ℚ
  maxDelayMs : ℚ
  deriving DecidableEq

/-- What the call of the clock does. -/
inductive RetryReading
  | threw
  /-- `NaN` or an infinity -/
  | notFinite
  | finite (value : ℚ)
  deriving DecidableEq, Repr

/-- A method of the schedule, which keeps what it assigned when it throws. -/
abbrev Method := ExceptT RetryError (StateM BroadcastRetrySchedule)

def Method.exec {α : Type} (m : Method α) (s : BroadcastRetrySchedule) :
    Except RetryError α × BroadcastRetrySchedule :=
  m.run.run s

namespace BroadcastRetrySchedule

def create (options : BroadcastRetryScheduleOptions) :
    Except RetryError BroadcastRetrySchedule := do
  validateBroadcastRetryOptions options
  return {
    attemptId := none
    dueAt := 0
    nextDelayMs := options.initialDelayMs
    lastNow := 0
    initialDelayMs := options.initialDelayMs
    maxDelayMs := options.maxDelayMs }

def readNow (reading : RetryReading) : Method ℚ := do
  match reading with
  | .threw => throw (.error "Could not read the broadcast retry clock.")
  | .notFinite => throw (.rangeError "Invalid broadcast retry clock.")
  | .finite value =>
    if value < 0 ∨ MAX_SAFE_MS - (← get).maxDelayMs < value then
      throw (.rangeError "Invalid broadcast retry clock.")
    modify fun s => { s with lastNow := max s.lastNow value }
    return (← get).lastNow

def track (attempt : Option (Text × PhaseText)) (reading : RetryReading) : Method Unit := do
  match attempt with
  | none =>
    modify fun s => { s with attemptId := none, dueAt := 0, nextDelayMs := s.initialDelayMs }
  | some (attemptId, phase) =>
    if isUuidV4 attemptId = false ∨ (phase ≠ .signed ∧ phase ≠ .broadcastMayHaveOccurred) then
      throw (.typeError "Invalid broadcast retry attempt.")
    if some attemptId = (← get).attemptId then
      return ()
    let now ← readNow reading
    modify fun s => { s with
      attemptId := some attemptId
      dueAt := if phase = .broadcastMayHaveOccurred then now + s.initialDelayMs else now
      nextDelayMs := s.initialDelayMs }

/-- Milliseconds until a send is due, or none when no attempt is tracked. -/
def delayMs (reading : RetryReading) : Method (Option ℤ) := do
  if (← get).attemptId = none then
    return none
  let now ← readNow reading
  return some (max 0 ⌈(← get).dueAt - now⌉)

def claim (attemptId : Text) (reading : RetryReading) : Method Bool := do
  if (← get).attemptId = none ∨ some attemptId ≠ (← get).attemptId then
    return false
  let now ← readNow reading
  if now < (← get).dueAt then
    return false
  modify fun s => { s with dueAt := now + s.nextDelayMs }
  modify fun s => { s with nextDelayMs := min s.maxDelayMs (s.nextDelayMs * 2) }
  return true

end BroadcastRetrySchedule

/-! A schedule in use: every call finds the state that the calls before it left. -/

/-- A call, with what the clock does if the call reads it. -/
inductive RetryCall
  | track (attempt : Option (Text × PhaseText)) (reading : RetryReading)
  | claim (attemptId : Text) (reading : RetryReading)
  | delayMs (reading : RetryReading)
  deriving DecidableEq

inductive RetryResult
  | tracked
  | claimed (due : Bool)
  | delay (ms : Option ℤ)
  deriving DecidableEq, Repr

def RetryCall.method : RetryCall → Method RetryResult
  | .track attempt reading => do
    BroadcastRetrySchedule.track attempt reading
    return .tracked
  | .claim attemptId reading => do
    return .claimed (← BroadcastRetrySchedule.claim attemptId reading)
  | .delayMs reading => do
    return .delay (← BroadcastRetrySchedule.delayMs reading)

/-- A call that was made: what it found, how it ended and what it left. -/
structure RetryEntry where
  before : BroadcastRetrySchedule
  call : RetryCall
  result : Except RetryError RetryResult
  after : BroadcastRetrySchedule

def RetryCall.enter (call : RetryCall) (s : BroadcastRetrySchedule) : RetryEntry :=
  ⟨s, call, (call.method.exec s).1, (call.method.exec s).2⟩

def retrySystem (s : BroadcastRetrySchedule) :
    System BroadcastRetrySchedule RetryCall RetryEntry where
  init := s
  step call t := some ((call.enter t).after, some (call.enter t))

/-! How a method is executed. -/

section Exec

variable {α β : Type} {m : Method α} {f : α → Method β} {s t : BroadcastRetrySchedule}

@[simp] theorem exec_pure (a : α) : (pure a : Method α).exec s = (.ok a, s) := rfl

@[simp] theorem exec_throw (e : RetryError) : (throw e : Method α).exec s = (.error e, s) := rfl

@[simp] theorem exec_get : (get : Method BroadcastRetrySchedule).exec s = (.ok s, s) := rfl

@[simp] theorem exec_modify (g : BroadcastRetrySchedule → BroadcastRetrySchedule) :
    Method.exec (modify g) s = (.ok ⟨⟩, g s) := rfl

theorem exec_bind : (m >>= f).exec s =
    match m.exec s with
    | (.ok a, t) => (f a).exec t
    | (.error e, t) => (.error e, t) := by
  unfold Method.exec
  rw [ExceptT.run_bind, StateT.run_bind]
  rcases m.run.run s with ⟨e | a, t⟩
  · rfl
  · rfl

@[simp] theorem exec_map (g : α → β) :
    (g <$> m).exec s = ((m.exec s).1.map g, (m.exec s).2) := by
  rw [map_eq_pure_bind, exec_bind]
  rcases m.exec s with ⟨e | a, t⟩
  · rfl
  · rfl

end Exec

/-! What each call does. -/

/-- A reading in range, and the time of the schedule after it. -/
def Reads (reading : RetryReading) (s : BroadcastRetrySchedule) (now : ℚ) : Prop :=
  ∃ value, reading = .finite value ∧ 0 ≤ value ∧ value ≤ MAX_SAFE_MS - s.maxDelayMs ∧
    now = max s.lastNow value

theorem readNow_cases (reading : RetryReading) (s : BroadcastRetrySchedule) :
    (∃ e, (BroadcastRetrySchedule.readNow reading).exec s = (.error e, s)) ∨
      ∃ now, Reads reading s now ∧
        (BroadcastRetrySchedule.readNow reading).exec s = (.ok now, { s with lastNow := now }) := by
  cases reading with
  | threw => exact Or.inl ⟨_, rfl⟩
  | notFinite => exact Or.inl ⟨_, rfl⟩
  | finite value =>
    by_cases h : value < 0 ∨ MAX_SAFE_MS - s.maxDelayMs < value
    · left
      refine ⟨.rangeError "Invalid broadcast retry clock.", ?_⟩
      simp [BroadcastRetrySchedule.readNow, exec_bind, h]
    · right
      refine ⟨max s.lastNow value, ?_, ?_⟩
      · rw [not_or, not_lt, not_lt] at h
        exact ⟨value, rfl, h.1, h.2, rfl⟩
      · simp [BroadcastRetrySchedule.readNow, exec_bind, h, Except.map]

/-- What a call can do, with its result. -/
inductive Retried (s : BroadcastRetrySchedule) :
    RetryCall → Except RetryError RetryResult → BroadcastRetrySchedule → Prop
  | threw (call : RetryCall) (e : RetryError) : Retried s call (.error e) s
  | cleared (reading : RetryReading) :
      Retried s (.track none reading) (.ok .tracked)
        { s with attemptId := none, dueAt := 0, nextDelayMs := s.initialDelayMs }
  | kept {id : Text} (h : s.attemptId = some id) (phase : PhaseText) (reading : RetryReading) :
      Retried s (.track (some (id, phase)) reading) (.ok .tracked) s
  | began {id : Text} (h : s.attemptId ≠ some id) (phase : PhaseText) {reading : RetryReading}
      {now : ℚ} (hnow : Reads reading s now) :
      Retried s (.track (some (id, phase)) reading) (.ok .tracked)
        { s with
          attemptId := some id
          dueAt := if phase = .broadcastMayHaveOccurred then now + s.initialDelayMs else now
          nextDelayMs := s.initialDelayMs
          lastNow := now }
  | other {id : Text} (h : s.attemptId ≠ some id) (reading : RetryReading) :
      Retried s (.claim id reading) (.ok (.claimed false)) s
  | early {id : Text} (h : s.attemptId = some id) {reading : RetryReading} {now : ℚ}
      (hnow : Reads reading s now) (hdue : now < s.dueAt) :
      Retried s (.claim id reading) (.ok (.claimed false)) { s with lastNow := now }
  | due {id : Text} (h : s.attemptId = some id) {reading : RetryReading} {now : ℚ}
      (hnow : Reads reading s now) (hdue : s.dueAt ≤ now) :
      Retried s (.claim id reading) (.ok (.claimed true))
        { s with
          dueAt := now + s.nextDelayMs
          nextDelayMs := min s.maxDelayMs (s.nextDelayMs * 2)
          lastNow := now }
  | untracked (h : s.attemptId = none) (reading : RetryReading) :
      Retried s (.delayMs reading) (.ok (.delay none)) s
  | delay {id : Text} (h : s.attemptId = some id) {reading : RetryReading} {now : ℚ}
      (hnow : Reads reading s now) :
      Retried s (.delayMs reading) (.ok (.delay (some (max 0 ⌈s.dueAt - now⌉))))
        { s with lastNow := now }

theorem track_retried (attempt : Option (Text × PhaseText)) (reading : RetryReading)
    (s : BroadcastRetrySchedule) :
    Retried s (.track attempt reading) ((RetryCall.track attempt reading).enter s).result
      ((RetryCall.track attempt reading).enter s).after := by
  unfold RetryCall.enter RetryCall.method BroadcastRetrySchedule.track
  cases attempt with
  | none => exact Retried.cleared reading
  | some attempt =>
    obtain ⟨id, phase⟩ := attempt
    by_cases hvalid : isUuidV4 id = false ∨ (phase ≠ .signed ∧ phase ≠ .broadcastMayHaveOccurred)
    · simp only [exec_bind, hvalid, if_true, exec_throw]
      exact Retried.threw _ _
    · by_cases hid : s.attemptId = some id
      · simp only [exec_bind, hvalid, if_false, exec_pure, exec_get, hid, if_true]
        exact Retried.kept hid phase reading
      · rcases readNow_cases reading s with ⟨e, hread⟩ | ⟨now, hnow, hread⟩
        · simp only [exec_bind, hvalid, if_false, exec_get, Ne.symm hid, hread]
          exact Retried.threw _ _
        · simp only [exec_bind, hvalid, if_false, exec_pure, exec_get, exec_modify, Ne.symm hid,
            hread]
          exact Retried.began hid phase hnow

theorem claim_retried (id : Text) (reading : RetryReading) (s : BroadcastRetrySchedule) :
    Retried s (.claim id reading) ((RetryCall.claim id reading).enter s).result
      ((RetryCall.claim id reading).enter s).after := by
  unfold RetryCall.enter RetryCall.method BroadcastRetrySchedule.claim
  by_cases hid : s.attemptId = some id
  · have htracked : ¬ (s.attemptId = none ∨ some id ≠ s.attemptId) := by
      rw [hid]
      simp
    rcases readNow_cases reading s with ⟨e, hread⟩ | ⟨now, hnow, hread⟩
    · simp only [exec_bind, exec_get, htracked, if_false, hread]
      exact Retried.threw _ _
    · by_cases hdue : now < s.dueAt
      · simp only [exec_bind, exec_get, htracked, if_false, hread, hdue, if_true, exec_pure]
        exact Retried.early hid hnow hdue
      · simp only [exec_bind, exec_get, htracked, if_false, hread, hdue, exec_modify, exec_pure]
        exact Retried.due hid hnow (not_lt.mp hdue)
  · have hother : s.attemptId = none ∨ some id ≠ s.attemptId := Or.inr (Ne.symm hid)
    simp only [exec_bind, exec_get, hother, if_true, exec_pure]
    exact Retried.other hid reading

theorem delayMs_retried (reading : RetryReading) (s : BroadcastRetrySchedule) :
    Retried s (.delayMs reading) ((RetryCall.delayMs reading).enter s).result
      ((RetryCall.delayMs reading).enter s).after := by
  unfold RetryCall.enter RetryCall.method BroadcastRetrySchedule.delayMs
  by_cases hid : s.attemptId = none
  · simp only [exec_bind, exec_get, hid, if_true, exec_pure]
    exact Retried.untracked hid reading
  · obtain ⟨id, hsome⟩ := Option.ne_none_iff_exists'.mp hid
    rcases readNow_cases reading s with ⟨e, hread⟩ | ⟨now, hnow, hread⟩
    · simp only [exec_bind, exec_get, hid, if_false, hread]
      exact Retried.threw _ _
    · simp only [exec_bind, exec_get, hid, if_false, hread, exec_pure]
      exact Retried.delay hsome hnow

theorem enter_retried (call : RetryCall) (s : BroadcastRetrySchedule) :
    Retried s call (call.enter s).result (call.enter s).after := by
  cases call with
  | track attempt reading => exact track_retried attempt reading s
  | claim id reading => exact claim_retried id reading s
  | delayMs reading => exact delayMs_retried reading s

/-! The bounds that every call keeps. -/

structure Sound (options : BroadcastRetryScheduleOptions) (s : BroadcastRetrySchedule) : Prop where
  initial : s.initialDelayMs = options.initialDelayMs
  longest : s.maxDelayMs = options.maxDelayMs
  next_ge : options.initialDelayMs ≤ s.nextDelayMs
  next_le : s.nextDelayMs ≤ options.maxDelayMs
  now_le : s.lastNow ≤ MAX_SAFE_MS - options.maxDelayMs
  due_le : s.dueAt ≤ MAX_SAFE_MS

theorem validate_ok {options : BroadcastRetryScheduleOptions}
    (h : validateBroadcastRetryOptions options = .ok ()) :
    0 < options.initialDelayMs ∧ options.initialDelayMs ≤ options.maxDelayMs ∧
      options.maxDelayMs ≤ MAX_DELAY_MS ∧ options.maxDelayMs ≤ MAX_SAFE_MS := by
  unfold validateBroadcastRetryOptions at h
  split at h
  · cases h
  · rename_i hvalid
    simp only [isPositiveSafeInteger, Bool.or_eq_true, Bool.not_eq_true', Bool.and_eq_false_iff,
      decide_eq_true_eq, decide_eq_false_iff_not, not_or, not_not, not_lt, not_le] at hvalid
    obtain ⟨⟨⟨⟨⟨_, hpos⟩, _⟩, _, hsafe⟩, hle⟩, hmax⟩ := hvalid
    exact ⟨hpos, hle, hmax, hsafe⟩

theorem create_sound {options : BroadcastRetryScheduleOptions} {s : BroadcastRetrySchedule}
    (h : BroadcastRetrySchedule.create options = .ok s) : Sound options s := by
  unfold BroadcastRetrySchedule.create at h
  cases hvalid : validateBroadcastRetryOptions options with
  | error e =>
    rw [hvalid] at h
    cases h
  | ok u =>
    rw [hvalid] at h
    cases h
    obtain ⟨hpos, hle, hmax, hsafe⟩ := validate_ok hvalid
    constructor
    all_goals dsimp only
    all_goals first | rfl | linarith

theorem Reads.bounds {options : BroadcastRetryScheduleOptions} {reading : RetryReading}
    {s : BroadcastRetrySchedule} {now : ℚ} (h : Sound options s) (hnow : Reads reading s now) :
    s.lastNow ≤ now ∧ now ≤ MAX_SAFE_MS - options.maxDelayMs := by
  obtain ⟨value, _, _, hle, rfl⟩ := hnow
  rw [h.longest] at hle
  exact ⟨le_max_left _ _, max_le h.now_le hle⟩

theorem Sound.step {options : BroadcastRetryScheduleOptions} {s t : BroadcastRetrySchedule}
    (hvalid : validateBroadcastRetryOptions options = .ok ()) (h : Sound options s)
    {call : RetryCall} {result : Except RetryError RetryResult} (hstep : Retried s call result t) :
    Sound options t ∧ s.lastNow ≤ t.lastNow := by
  obtain ⟨hpos, hle, _, hsafe⟩ := validate_ok hvalid
  cases hstep with
  | threw _ _ => exact ⟨h, le_rfl⟩
  | cleared _ =>
    exact ⟨⟨h.initial, h.longest, h.initial.ge, h.initial.le.trans hle, h.now_le, by linarith⟩,
      le_rfl⟩
  | kept _ _ _ => exact ⟨h, le_rfl⟩
  | began _ phase hnow =>
    obtain ⟨hmono, hbound⟩ := hnow.bounds h
    refine ⟨⟨h.initial, h.longest, h.initial.ge, h.initial.le.trans hle, hbound, ?_⟩, hmono⟩
    dsimp only
    rw [h.initial]
    split <;> linarith
  | other _ _ => exact ⟨h, le_rfl⟩
  | early _ hnow _ =>
    obtain ⟨hmono, hbound⟩ := hnow.bounds h
    exact ⟨{ h with now_le := hbound }, hmono⟩
  | due _ hnow _ =>
    obtain ⟨hmono, hbound⟩ := hnow.bounds h
    have hnext := h.next_ge
    have hmost := h.next_le
    refine ⟨⟨h.initial, h.longest, ?_, ?_, hbound, ?_⟩, hmono⟩
    · rw [h.longest]
      exact le_min hle (by linarith)
    · rw [h.longest]
      exact min_le_left _ _
    · dsimp only
      linarith
  | untracked _ _ => exact ⟨h, le_rfl⟩
  | delay _ hnow =>
    obtain ⟨hmono, hbound⟩ := hnow.bounds h
    exact ⟨{ h with now_le := hbound }, hmono⟩

/-! Stretches of a run. -/

/-- Calls made one after the other, from one state to another. -/
def Calls (s : BroadcastRetrySchedule) : List RetryEntry → BroadcastRetrySchedule → Prop
  | [], t => t = s
  | e :: entries, t => (∃ call : RetryCall, e = call.enter s) ∧ Calls e.after entries t

@[simp] theorem calls_nil {s t : BroadcastRetrySchedule} : Calls s [] t ↔ t = s := Iff.rfl

@[simp] theorem calls_singleton {s t : BroadcastRetrySchedule} {e : RetryEntry} :
    Calls s [e] t ↔ (∃ call : RetryCall, e = call.enter s) ∧ t = e.after := Iff.rfl

theorem calls_append {s u : BroadcastRetrySchedule} {pre post : List RetryEntry} :
    Calls s (pre ++ post) u ↔ ∃ t, Calls s pre t ∧ Calls t post u := by
  induction pre generalizing s with
  | nil => simp
  | cons e pre ih =>
    rw [List.cons_append, Calls, ih]
    constructor
    · intro ⟨hcall, t, hpre, hpost⟩
      exact ⟨t, ⟨hcall, hpre⟩, hpost⟩
    · intro ⟨t, ⟨hcall, hpre⟩, hpost⟩
      exact ⟨hcall, t, hpre, hpost⟩

theorem calls_run (s : BroadcastRetrySchedule) (calls : List RetryCall) :
    Calls s ((retrySystem s).run calls).2 ((retrySystem s).run calls).1 := by
  apply System.run_invariant (retrySystem s) fun t entries => Calls s entries t
  · exact rfl
  · intro call t entries t' e h heq
    cases heq
    exact calls_append.mpr ⟨t, h, ⟨call, rfl⟩, rfl⟩

theorem Sound.calls {options : BroadcastRetryScheduleOptions} {s t : BroadcastRetrySchedule}
    (hvalid : validateBroadcastRetryOptions options = .ok ()) (h : Sound options s)
    {entries : List RetryEntry} (hcalls : Calls s entries t) :
    Sound options t ∧ s.lastNow ≤ t.lastNow := by
  induction entries generalizing s with
  | nil =>
    rw [calls_nil.mp hcalls]
    exact ⟨h, le_rfl⟩
  | cons e entries ih =>
    obtain ⟨⟨call, rfl⟩, hrest⟩ := hcalls
    obtain ⟨hnext, hlater⟩ := h.step hvalid (enter_retried call s)
    obtain ⟨hsound, hmono⟩ := ih hnext hrest
    exact ⟨hsound, hlater.trans hmono⟩

/-! While one attempt stays tracked. -/

/-- The time of a claim that was granted. -/
def RetryEntry.claimTime (e : RetryEntry) : Option ℚ :=
  if e.result = .ok (.claimed true) then some e.after.lastNow else none

def claimTimes (entries : List RetryEntry) : List ℚ :=
  entries.filterMap RetryEntry.claimTime

def RetryEntry.Keeps (id : Text) (e : RetryEntry) : Prop :=
  e.before.attemptId = some id ∧ e.after.attemptId = some id

/-- The wait after the first `n` claims and one more. -/
def BroadcastRetryScheduleOptions.wait (options : BroadcastRetryScheduleOptions) (n : ℕ) : ℚ :=
  min options.maxDelayMs (options.initialDelayMs * 2 ^ n)

/-- While an attempt stays tracked, only a granted claim moves its due time. -/
theorem Retried.kept_cases {s t : BroadcastRetrySchedule} {call : RetryCall}
    {result : Except RetryError RetryResult} (h : Retried s call result t) {id : Text}
    (hs : s.attemptId = some id) (ht : t.attemptId = some id) :
    (result ≠ .ok (.claimed true) ∧ t.dueAt = s.dueAt ∧ t.nextDelayMs = s.nextDelayMs) ∨
      (result = .ok (.claimed true) ∧ s.dueAt ≤ t.lastNow ∧
        t.dueAt = t.lastNow + s.nextDelayMs ∧
        t.nextDelayMs = min s.maxDelayMs (s.nextDelayMs * 2)) := by
  cases h with
  | cleared _ => cases ht
  | began hnew _ _ =>
    dsimp only at ht
    rw [ht] at hnew
    exact absurd hs hnew
  | due _ _ hdue => exact Or.inr ⟨rfl, hdue, rfl, rfl⟩
  | _ => exact Or.inl ⟨by simp, rfl, rfl⟩

/-- What the granted claims of an attempt leave in the schedule. -/
structure Spaced (options : BroadcastRetryScheduleOptions) (times : List ℚ)
    (s : BroadcastRetrySchedule) : Prop where
  next : options.wait times.length ≤ s.nextDelayMs
  due : ∀ last, times.getLast? = some last → last + options.wait (times.length - 1) ≤ s.dueAt
  spaced : ∀ (k : ℕ) a b, times[k]? = some a → times[k + 1]? = some b → a + options.wait k ≤ b

theorem wait_succ_le {options : BroadcastRetryScheduleOptions} {n : ℕ} {next : ℚ}
    (hpos : 0 ≤ options.maxDelayMs) (h : options.wait n ≤ next) :
    options.wait (n + 1) ≤ min options.maxDelayMs (next * 2) := by
  unfold BroadcastRetryScheduleOptions.wait at h ⊢
  apply le_min (min_le_left _ _)
  rcases min_le_iff.mp h with hmax | hnext
  · exact (min_le_left _ _).trans (by linarith)
  · calc
      min options.maxDelayMs (options.initialDelayMs * 2 ^ (n + 1))
          ≤ options.initialDelayMs * 2 ^ (n + 1) := min_le_right _ _
      _ = options.initialDelayMs * 2 ^ n * 2 := by ring
      _ ≤ next * 2 := by linarith

theorem Spaced.claim {options : BroadcastRetryScheduleOptions} {times : List ℚ}
    {s t : BroadcastRetrySchedule} (hpos : 0 ≤ options.maxDelayMs) (hsound : Sound options s)
    (h : Spaced options times s) (hdue : s.dueAt ≤ t.lastNow)
    (hat : t.dueAt = t.lastNow + s.nextDelayMs)
    (hnext : t.nextDelayMs = min s.maxDelayMs (s.nextDelayMs * 2)) :
    Spaced options (times ++ [t.lastNow]) t where
  next := by
    rw [hnext, hsound.longest, List.length_append, List.length_singleton]
    exact wait_succ_le hpos h.next
  due last hlast := by
    rw [List.getLast?_concat, Option.some.injEq] at hlast
    rw [hat, ← hlast, List.length_append, List.length_singleton, Nat.add_sub_cancel]
    linarith [h.next]
  spaced k a b ha hb := by
    rcases lt_trichotomy (k + 1) times.length with hlt | heq | hgt
    · rw [List.getElem?_append_left (by omega)] at ha hb
      exact h.spaced k a b ha hb
    · -- the claim before this one was the last
      rw [List.getElem?_append_left (by omega)] at ha
      rw [heq, List.getElem?_concat_length, Option.some.injEq] at hb
      have hlast : times.getLast? = some a := by
        rw [List.getLast?_eq_getElem?, ← heq, Nat.add_sub_cancel, ha]
      have hspace := h.due a hlast
      rw [← heq, Nat.add_sub_cancel] at hspace
      linarith
    · rw [List.getElem?_eq_none (by simp; omega)] at hb
      cases hb

theorem claimTimes_snoc (entries : List RetryEntry) (e : RetryEntry) :
    claimTimes (entries ++ [e]) = claimTimes entries ++ e.claimTime.toList := by
  rw [claimTimes, List.filterMap_append]
  cases h : e.claimTime <;> simp [claimTimes, h]

/-- In a stretch in which an attempt stays tracked. -/
theorem Calls.spaced {options : BroadcastRetryScheduleOptions} {s t : BroadcastRetrySchedule}
    {entries : List RetryEntry} (hvalid : validateBroadcastRetryOptions options = .ok ())
    (hsound : Sound options s) (hcalls : Calls s entries t) {id : Text}
    (hkeeps : ∀ e ∈ entries, e.Keeps id) :
    Spaced options (claimTimes entries) t ∧ s.dueAt ≤ t.dueAt := by
  obtain ⟨hpos, hle, _, _⟩ := validate_ok hvalid
  induction entries using List.reverseRecOn generalizing t with
  | nil =>
    rw [calls_nil.mp hcalls]
    refine ⟨⟨?_, fun last h => (by cases h), fun k a b h => (by cases h)⟩, le_rfl⟩
    exact (min_le_right _ _).trans (by simpa [claimTimes] using hsound.next_ge)
  | append_singleton entries e ih =>
    obtain ⟨t, hpre, ⟨call, rfl⟩, rfl⟩ := calls_append.mp hcalls
    obtain ⟨hspaced, hmono⟩ := ih hpre fun e he => hkeeps e (List.mem_append_left _ he)
    obtain ⟨hbefore, hafter⟩ := hkeeps (call.enter t) (by simp)
    have hthere := (hsound.calls hvalid hpre).1
    rw [claimTimes_snoc]
    rcases (enter_retried call t).kept_cases hbefore hafter with
      ⟨hresult, hdue, hnext⟩ | ⟨hresult, hdue, hat, hnext⟩
    · rw [RetryEntry.claimTime, if_neg hresult, Option.toList_none, List.append_nil]
      refine ⟨⟨?_, ?_, hspaced.spaced⟩, ?_⟩
      · rw [hnext]
        exact hspaced.next
      · rw [hdue]
        exact hspaced.due
      · rw [hdue]
        exact hmono
    · rw [RetryEntry.claimTime, if_pos hresult, Option.toList_some]
      refine ⟨hspaced.claim (by linarith) hthere hdue hat hnext, ?_⟩
      have hge := hthere.next_ge
      rw [hat]
      linarith

/-! The schedule over a whole run. -/

/-- The call that begins to track an attempt which may have been broadcast already. -/
def RetryEntry.Restarts (id : Text) (e : RetryEntry) : Prop :=
  e.before.attemptId ≠ some id ∧ e.after.attemptId = some id ∧
    ∃ reading, e.call = .track (some (id, .broadcastMayHaveOccurred)) reading

structure BacksOff (options : BroadcastRetryScheduleOptions) (entries : List RetryEntry) :
    Prop where
  clock : entries.Pairwise fun earlier later => earlier.after.lastNow ≤ later.after.lastNow
  /-- The claims of an attempt, counted from 0 in any stretch in which it stays tracked. -/
  spaced : ∀ pre mid post id, entries = pre ++ mid ++ post → (∀ e ∈ mid, e.Keeps id) →
    ∀ (k : ℕ) a b, (claimTimes mid)[k]? = some a → (claimTimes mid)[k + 1]? = some b →
      a + min options.maxDelayMs (options.initialDelayMs * 2 ^ k) ≤ b
  restarted : ∀ pre first mid granted post id time,
    entries = pre ++ ([first] ++ mid ++ [granted]) ++ post → first.Restarts id →
      (∀ e ∈ mid, e.Keeps id) → granted.claimTime = some time →
        first.after.lastNow + options.initialDelayMs ≤ time
  atomic : ∀ e ∈ entries, ∀ err, e.result = .error err → e.after = e.before
  bounded : ∀ e ∈ entries, e.after.dueAt ≤ MAX_SAFE_MS

theorem Calls.mem {s u : BroadcastRetrySchedule} {entries : List RetryEntry}
    (h : Calls s entries u) {e : RetryEntry} (he : e ∈ entries) :
    ∃ t pre, Calls s pre t ∧ ∃ call : RetryCall, e = call.enter t := by
  obtain ⟨pre, post, rfl⟩ := List.append_of_mem he
  obtain ⟨t, hpre, hcall, _⟩ := calls_append.mp h
  exact ⟨t, pre, hpre, hcall⟩

theorem Calls.clock {options : BroadcastRetryScheduleOptions} {s t : BroadcastRetrySchedule}
    (hvalid : validateBroadcastRetryOptions options = .ok ()) (h : Sound options s)
    {entries : List RetryEntry} (hcalls : Calls s entries t) :
    entries.Pairwise fun earlier later => earlier.after.lastNow ≤ later.after.lastNow := by
  induction entries generalizing s with
  | nil => exact List.Pairwise.nil
  | cons e entries ih =>
    obtain ⟨⟨call, rfl⟩, hrest⟩ := hcalls
    have hnext := (h.step hvalid (enter_retried call s)).1
    refine List.pairwise_cons.mpr ⟨?_, ih hnext hrest⟩
    intro later hlater
    obtain ⟨pre, post, rfl⟩ := List.append_of_mem hlater
    rw [List.append_cons] at hrest
    obtain ⟨u, hpre, _⟩ := calls_append.mp hrest
    obtain ⟨v, _, _, rfl⟩ := calls_append.mp hpre
    exact (hnext.calls hvalid hpre).2

/-- The claim after a restart waits for the initial delay. -/
theorem Calls.restarted {options : BroadcastRetryScheduleOptions} {s t : BroadcastRetrySchedule}
    (hvalid : validateBroadcastRetryOptions options = .ok ()) (h : Sound options s)
    {first granted : RetryEntry} {mid : List RetryEntry}
    (hcalls : Calls s ([first] ++ mid ++ [granted]) t) {id : Text} (hfirst : first.Restarts id)
    (hmid : ∀ e ∈ mid, e.Keeps id) {time : ℚ} (htime : granted.claimTime = some time) :
    first.after.lastNow + options.initialDelayMs ≤ time := by
  obtain ⟨v, hpre, ⟨last, rfl⟩, rfl⟩ := calls_append.mp hcalls
  obtain ⟨u, ⟨⟨call, rfl⟩, rfl⟩, hmiddle⟩ := calls_append.mp hpre
  obtain ⟨hbefore, hafter, reading, hcall⟩ := hfirst
  -- the due time after the first call
  have hdue : (call.enter s).after.dueAt =
      (call.enter s).after.lastNow + options.initialDelayMs := by
    have hstep := enter_retried call s
    rw [show call = _ from hcall] at hstep hafter ⊢
    generalize ((RetryCall.track _ reading).enter s).result = result at hstep
    generalize ((RetryCall.track _ reading).enter s).after = after at hstep hafter ⊢
    cases hstep with
    | threw _ _ => exact absurd hafter hbefore
    | kept h _ _ => exact absurd h hbefore
    | began _ _ hnow =>
      dsimp only
      rw [if_pos rfl, h.initial]
  have hsound := (h.step hvalid (enter_retried call s)).1
  obtain ⟨_, hmono⟩ := hmiddle.spaced hvalid hsound hmid
  -- the claim was due when it was granted
  have hgranted : v.dueAt ≤ time := by
    unfold RetryEntry.claimTime at htime
    split at htime
    · rename_i hresult
      rw [← Option.some.inj htime]
      have hstep := enter_retried last v
      rw [hresult] at hstep
      generalize (last.enter v).after = after at hstep ⊢
      cases hstep with
      | due _ _ hdue => exact hdue
    · cases htime
  linarith

theorem broadcast_retry {options : BroadcastRetryScheduleOptions} {s : BroadcastRetrySchedule}
    (hcreate : BroadcastRetrySchedule.create options = .ok s) (calls : List RetryCall) :
    BacksOff options ((retrySystem s).run calls).2 := by
  have hvalid : validateBroadcastRetryOptions options = .ok () := by
    unfold BroadcastRetrySchedule.create at hcreate
    cases h : validateBroadcastRetryOptions options with
    | error e =>
      rw [h] at hcreate
      cases hcreate
    | ok u => rfl
  have hsound := create_sound hcreate
  have hrun := calls_run s calls
  constructor
  · exact hrun.clock hvalid hsound
  · intro pre mid post id hsplit hkeeps
    rw [hsplit] at hrun
    obtain ⟨u, hhead, _⟩ := calls_append.mp hrun
    obtain ⟨t, hpre, hmid⟩ := calls_append.mp hhead
    exact (hmid.spaced hvalid (hsound.calls hvalid hpre).1 hkeeps).1.spaced
  · intro pre first mid granted post id time hsplit hfirst hkeeps htime
    rw [hsplit] at hrun
    obtain ⟨u, hhead, _⟩ := calls_append.mp hrun
    obtain ⟨t, hpre, hstretch⟩ := calls_append.mp hhead
    exact hstretch.restarted hvalid (hsound.calls hvalid hpre).1 hfirst hkeeps htime
  · intro e he err herr
    obtain ⟨t, pre, _, call, rfl⟩ := hrun.mem he
    have hstep := enter_retried call t
    rw [herr] at hstep
    generalize (call.enter t).after = after at hstep ⊢
    cases hstep
    rfl
  · intro e he
    obtain ⟨t, pre, hpre, call, rfl⟩ := hrun.mem he
    have ht := (hsound.calls hvalid hpre).1
    exact (ht.step hvalid (enter_retried call t)).1.due_le

/-! A schedule that starts at 1 s, with its claims tried too early and in time. -/

def sampleOptions : BroadcastRetryScheduleOptions := ⟨1000, 3000⟩

def sampleSchedule : BroadcastRetrySchedule := ⟨none, 0, 1000, 0, 1000, 3000⟩

def sampleAttemptId : Text := Json.text "0f8fad5b-d9cb-469f-a165-70867728950e"

def sampleCalls : List RetryCall := [
  .track (some (sampleAttemptId, .broadcastMayHaveOccurred)) (.finite 500),
  .claim sampleAttemptId (.finite 1499),
  .claim sampleAttemptId (.finite 1500),
  .claim sampleAttemptId .threw,
  .delayMs (.finite 100),
  .claim sampleAttemptId (.finite 2500),
  .claim sampleAttemptId (.finite 4500)]

theorem broadcast_retry_sample :
    claimTimes ((retrySystem sampleSchedule).run sampleCalls).2 = [1500, 2500, 4500] ∧
      BacksOff sampleOptions ((retrySystem sampleSchedule).run sampleCalls).2 :=
  ⟨by decide +kernel, broadcast_retry (by rfl) sampleCalls⟩

end BroadcastRetry

end Quicknet
