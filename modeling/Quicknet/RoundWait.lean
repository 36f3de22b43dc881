import Quicknet.BeaconSchedule
import Quicknet.Journal
import Quicknet.Library.Interaction

/-! Waiting for a round with a timer of the platform, which has a shorter range than the
delays that the wait accepts. -/
namespace Quicknet.RoundWait
open Interaction

inductive WaitError
  | rangeError (message : String)
  /-- `BigInt` of a number that is not an integer. -/
  | notAnInteger
  | aborted (reason : Failure)
  /-- The rejection of a timer whose signal was aborted. -/
  | timerAborted
  deriving DecidableEq, Repr

inductive TimerReply
  /-- After how many milliseconds the timer fired. -/
  | fired (waited : ℚ)
  | rejected
  deriving DecidableEq, Repr

inductive WaitQuery
  | signal
  | now
  | delay (milliseconds : ℕ)
  deriving DecidableEq, Repr

/-- A signal replies the reason once it is aborted; a reading that is not finite is `none`. -/
def WaitQuery.Reply : WaitQuery → Type
  | .signal => Option Failure
  | .now => Option ℚ
  | .delay _ => TimerReply

abbrev Wait (α : Type) := Prog WaitQuery.Reply WaitError α
abbrev WaitLog := List (Exchange WaitQuery.Reply WaitError)
abbrev WaitEnvironment := Prog.Environment WaitQuery.Reply WaitError

/-- `signal?.throwIfAborted()`. -/
def throwIfAborted (signal : Bool) : Wait Unit :=
  if signal then do
    match (← Prog.ask WaitQuery.signal : Option Failure) with
    | some reason => .throw (.aborted reason)
    | none => return ()
  else return ()

def sleepFor (milliseconds : ℕ) (signal : Bool) : Wait Unit := do
  match (← Prog.ask (WaitQuery.delay milliseconds) : TimerReply) with
  | .fired _ => return ()
  | .rejected =>
    throwIfAborted signal
    .throw .timerAborted

def bigInt (value : Option ℚ) : Except WaitError ℤ :=
  match value with
  | none => .error .notAnInteger
  | some value => if value.den = 1 then .ok value.num else .error .notAnInteger

def roundScheduledTime (round : ℤ) : Except WaitError ℤ :=
  match Contracts.Client.roundScheduledTime round with
  | .ok timestamp => .ok timestamp
  | .error message => .error (.rangeError message)

def waitForQuicknetRound (round : ℤ) (signal : Bool) : Wait Unit :=
  if round ≤ 0 then .throw (.rangeError "Quicknet round must be greater than zero.")
  else do
    throwIfAborted signal
    let scheduledTimestamp ← Prog.lift (roundScheduledTime round)
    let scheduledMilliseconds := scheduledTimestamp * 1000
    let nowMilliseconds ← Prog.lift (bigInt (← Prog.ask WaitQuery.now))
    if scheduledMilliseconds ≤ nowMilliseconds then return ()
    else
      let delayMilliseconds := scheduledMilliseconds - nowMilliseconds
      if (MAX_SAFE_INTEGER : ℤ) < delayMilliseconds then
        .throw (.rangeError
          s!"Quicknet round {round} is too far in the future to wait for safely.")
      else do
        sleepFor delayMilliseconds.toNat signal
        throwIfAborted signal

/-! The timer and the clock. -/

def TIMEOUT_MAX : ℕ := 2147483647

/-- The delay that the platform waits for; one out of its range becomes a millisecond. -/
def timerDelay (milliseconds : ℕ) : ℕ :=
  if 1 ≤ milliseconds ∧ milliseconds ≤ TIMEOUT_MAX then milliseconds else 1

/-- How long the timers of a log waited. -/
def waited (log : WaitLog) : ℚ :=
  (log.map fun x =>
    match x with
    | ⟨.delay _, .ok (.fired waited)⟩ => waited
    | _ => 0).sum

/-- What the signal said at the start, what the clock read, and a timer that does not fire
before its delay. -/
structure Serves (env : WaitEnvironment) (aborted : Option Failure) (reading : Option ℚ) :
    Prop where
  entry : env [] .signal = .ok aborted
  start : ∀ past, env past .now = .ok reading
  timer : ∀ past milliseconds waited, env past (.delay milliseconds) = .ok (.fired waited) →
    (timerDelay milliseconds : ℚ) ≤ waited

/-- The scheduled time of a round in milliseconds. -/
def scheduledMs (round : ℤ) : ℤ :=
  (Contracts.Client.QUICKNET_GENESIS_TIMESTAMP + (round - 1) * Contracts.Client.QUICKNET_PERIOD_SECONDS) * 1000

/-- A wait that resolves does so once the clock, which moves on at least as much as the
timer waited, has reached the scheduled time. -/
def NeverEarly (round : ℤ) (signal : Bool) (aborted : Option Failure) (reading : Option ℚ) :
    Prop :=
  ∀ env, Serves env aborted reading →
    let run := (waitForQuicknetRound round signal).runIn env []
    run.2 = .ok () → ∀ clock : ℚ, (∀ start, reading = some start → start + waited run.1 ≤ clock) →
      (scheduledMs round : ℚ) ≤ clock

/-- The signal is aborted already, or the wait is in the range of the timer or refused. -/
def InRange (round : ℤ) (signal : Bool) (aborted : Option Failure) (reading : Option ℚ) : Prop :=
  round ≤ 0 ∨ (signal = true ∧ aborted ≠ none) ∨
    ∀ now : ℤ, reading = some (now : ℚ) →
      scheduledMs round - now ≤ TIMEOUT_MAX ∨ (MAX_SAFE_INTEGER : ℤ) < scheduledMs round - now

/-! What a wait does. -/

theorem roundScheduledTime_ok {round : ℤ} (hround : 0 < round) :
    roundScheduledTime round = .ok (Contracts.Client.QUICKNET_GENESIS_TIMESTAMP +
      (round - 1) * Contracts.Client.QUICKNET_PERIOD_SECONDS) := by
  unfold roundScheduledTime Contracts.Client.roundScheduledTime
  rw [if_neg (by omega)]

theorem bigInt_ok {reading : Option ℚ} {now : ℤ} (h : bigInt reading = .ok now) :
    reading = some (now : ℚ) := by
  unfold bigInt at h
  split at h
  · cases h
  · rename_i value
    split at h
    · rename_i hden
      rw [← Except.ok.inj h, Rat.coe_int_num_of_den_eq_one hden]
    · cases h

theorem bigInt_intCast (now : ℤ) : bigInt (some (now : ℚ)) = .ok now := by
  unfold bigInt
  dsimp only
  rw [if_pos (Rat.den_intCast now), Rat.num_intCast]

/-- A check of the signal that passes leaves the timers as they were. -/
theorem throwIfAborted_ok {env : WaitEnvironment} {signal : Bool} {past : WaitLog}
    (h : ((throwIfAborted signal).runIn env past).2 = .ok ()) :
    waited ((throwIfAborted signal).runIn env past).1 = waited past ∧
      (signal = true → env past .signal = .ok none) := by
  cases signal with
  | false => exact ⟨rfl, by simp⟩
  | true =>
    unfold throwIfAborted at h ⊢
    simp only [if_true, Prog.bind_eq, Prog.runIn_bind, Prog.runIn_ask] at h ⊢
    cases hsignal : env past .signal with
    | error e =>
      simp only [hsignal] at h
      cases h
    | ok reply =>
      simp only [hsignal] at h ⊢
      cases reply with
      | some reason => cases h
      | none => exact ⟨by simp [waited, Prog.runIn], fun _ => rfl⟩

theorem waited_append (l₁ l₂ : WaitLog) : waited (l₁ ++ l₂) = waited l₁ + waited l₂ := by
  rw [waited, List.map_append, List.sum_append]
  rfl

/-- A sleep that resolves waited for its timer. -/
theorem sleepFor_ok {env : WaitEnvironment} {milliseconds : ℕ} {signal : Bool} {past : WaitLog}
    (h : ((sleepFor milliseconds signal).runIn env past).2 = .ok ()) :
    ∃ w, env past (.delay milliseconds) = .ok (.fired w) ∧
      waited ((sleepFor milliseconds signal).runIn env past).1 = waited past + w := by
  unfold sleepFor at h ⊢
  simp only [Prog.bind_eq, Prog.runIn_bind, Prog.runIn_ask] at h ⊢
  cases hdelay : env past (.delay milliseconds) with
  | error e =>
    simp only [hdelay] at h
    cases h
  | ok reply =>
    simp only [hdelay] at h ⊢
    cases reply with
    | fired w =>
      refine ⟨w, rfl, ?_⟩
      change waited (past ++ [⟨.delay milliseconds, .ok (.fired w)⟩]) = _
      rw [waited_append]
      simp [waited]
    | rejected =>
      -- a rejected sleep throws, with the reason of the signal or without
      obtain ⟨_, _, hthrow⟩ := Prog.runIn_bind_returned h
      rw [hthrow] at h
      cases h

/-- A wait that resolves found the round scheduled already, or slept for the difference. -/
theorem wait_ok {env : WaitEnvironment} {round : ℤ} {signal : Bool} (hround : 0 < round)
    (h : ((waitForQuicknetRound round signal).runIn env []).2 = .ok ()) :
    (signal = true → env [] .signal = .ok none) ∧
      ∃ past, ∃ now : ℤ, env past .now = .ok (some (now : ℚ)) ∧
        (scheduledMs round ≤ now ∧
            waited ((waitForQuicknetRound round signal).runIn env []).1 = 0 ∨
          now < scheduledMs round ∧ scheduledMs round - now ≤ MAX_SAFE_INTEGER ∧
            ∃ past w, env past (.delay (scheduledMs round - now).toNat) = .ok (.fired w) ∧
              waited ((waitForQuicknetRound round signal).runIn env []).1 = w) := by
  unfold waitForQuicknetRound at h ⊢
  rw [if_neg (not_le.mpr hround)] at h ⊢
  simp only [Prog.bind_eq] at h ⊢
  obtain ⟨_, hentry, hrun⟩ := Prog.runIn_bind_returned h
  rw [hrun] at h ⊢
  obtain ⟨hwaited, hsignal⟩ := throwIfAborted_ok hentry
  refine ⟨hsignal, ?_⟩
  generalize ((throwIfAborted signal).runIn env []).1 = past at h hwaited ⊢
  rw [roundScheduledTime_ok hround] at h ⊢
  simp only [Prog.lift, Prog.ret_bind, Prog.runIn_bind, Prog.runIn_ask] at h ⊢
  cases hnow : env past .now with
  | error e =>
    simp only [hnow] at h
    cases h
  | ok reading =>
    simp only [hnow] at h ⊢
    cases hint : bigInt reading with
    | error e =>
      simp only [hint] at h
      cases h
    | ok now =>
      rw [bigInt_ok hint] at hnow
      simp only [hint, Prog.runIn] at h ⊢
      refine ⟨past, now, hnow, ?_⟩
      have hread : waited (past ++ [⟨.now, .ok reading⟩]) = 0 := by
        rw [waited_append, hwaited]
        simp [waited]
      -- the round is there already, or the wait sleeps for the difference, if a timer can
      by_cases hreached : scheduledMs round ≤ now
      · left
        refine ⟨hreached, ?_⟩
        unfold scheduledMs at hreached
        simp only [hreached, if_true] at h ⊢
        exact hread
      · right
        refine ⟨not_le.mp hreached, ?_⟩
        unfold scheduledMs at hreached ⊢
        by_cases hfar : (MAX_SAFE_INTEGER : ℤ) <
            (Contracts.Client.QUICKNET_GENESIS_TIMESTAMP +
              (round - 1) * Contracts.Client.QUICKNET_PERIOD_SECONDS) * 1000 - now
        · simp only [hreached, hfar, if_true, if_false] at h
          cases h
        · simp only [hreached, hfar, if_false] at h ⊢
          refine ⟨not_lt.mp hfar, ?_⟩
          obtain ⟨_, hslept, hrun⟩ := Prog.runIn_bind_returned h
          rw [hrun] at h ⊢
          obtain ⟨w, hfired, hsleep⟩ := sleepFor_ok hslept
          refine ⟨_, w, hfired, ?_⟩
          rw [(throwIfAborted_ok h).1, hsleep, hread, zero_add]

theorem never_early_of_inRange {round : ℤ} {signal : Bool} {aborted : Option Failure}
    {reading : Option ℚ} (h : InRange round signal aborted reading) :
    NeverEarly round signal aborted reading := by
  intro env henv run hok clock hclock
  by_cases hround : 0 < round
  · obtain ⟨hsignal, past, now, hnow, hcase⟩ := wait_ok hround hok
    have hreading : reading = some (now : ℚ) :=
      Except.ok.inj ((henv.start past).symm.trans hnow)
    have hlater := hclock now hreading
    rcases hcase with ⟨hreached, hwaited⟩ | ⟨hbefore, hsafe, past, w, hfired, hwaited⟩
    · rw [hwaited, add_zero] at hlater
      exact (Int.cast_le.mpr hreached).trans hlater
    · rw [hwaited] at hlater
      have htimer := henv.timer _ _ _ hfired
      -- the delay is in the range of the timer
      have hrange : scheduledMs round - now ≤ TIMEOUT_MAX := by
        rcases h with h | ⟨hgiven, haborted⟩ | h
        · omega
        · exact absurd (Except.ok.inj (henv.entry.symm.trans (hsignal hgiven))) haborted
        · rcases h now hreading with h | h
          · exact h
          · omega
      have hdelay : (timerDelay (scheduledMs round - now).toNat : ℤ) = scheduledMs round - now := by
        unfold timerDelay
        rw [if_pos (by omega)]
        omega
      have hcast : (scheduledMs round : ℚ) - now ≤ w := by
        calc
          (scheduledMs round : ℚ) - now = ((scheduledMs round - now : ℤ) : ℚ) := by push_cast; ring
          _ = ((timerDelay (scheduledMs round - now).toNat : ℤ) : ℚ) := by rw [hdelay]
          _ = (timerDelay (scheduledMs round - now).toNat : ℚ) := Int.cast_natCast _
          _ ≤ w := htimer
      linarith
  · -- a round that is not positive is refused
    have hrefused : (waitForQuicknetRound round signal).runIn env [] =
        ([], .error (.rangeError "Quicknet round must be greater than zero.")) := by
      unfold waitForQuicknetRound
      rw [if_pos (not_lt.mp hround)]
      rfl
    cases (congrArg Prod.snd hrefused).symm.trans hok

/-- A timer that fires at the delay of the platform, and no abort after the start. -/
def punctual (aborted : Option Failure) (reading : Option ℚ) : WaitEnvironment := fun past q =>
  match q with
  | .signal => .ok (if past.isEmpty then aborted else none)
  | .now => .ok reading
  | .delay milliseconds => .ok (.fired (timerDelay milliseconds))

theorem punctual_serves (aborted : Option Failure) (reading : Option ℚ) :
    Serves (punctual aborted reading) aborted reading where
  entry := rfl
  start _ := rfl
  timer past milliseconds waited h := by
    cases h
    exact le_rfl

/-- In it a wait for a round that lies ahead takes the delay of the platform. -/
theorem punctual_run {round : ℤ} {signal : Bool} {aborted : Option Failure} {now : ℤ}
    (hround : 0 < round) (hentry : signal = true → aborted = none)
    (hbefore : now < scheduledMs round) (hsafe : scheduledMs round - now ≤ MAX_SAFE_INTEGER) :
    let run := (waitForQuicknetRound round signal).runIn (punctual aborted (some (now : ℚ))) []
    run.2 = .ok () ∧ waited run.1 = timerDelay (scheduledMs round - now).toNat := by
  have hrefused : ¬ round ≤ 0 := not_le.mpr hround
  unfold scheduledMs at hbefore hsafe
  have hreached := not_le.mpr hbefore
  have hfar := not_lt.mpr hsafe
  unfold waitForQuicknetRound scheduledMs
  rw [if_neg hrefused, roundScheduledTime_ok hround]
  cases signal with
  | false =>
    simp [Prog.bind_eq, Prog.lift, Prog.runIn_bind, Prog.runIn_ask, throwIfAborted, sleepFor,
      punctual, bigInt_intCast, hreached, hfar, Prog.runIn, waited]
  | true =>
    rw [hentry rfl]
    simp [Prog.bind_eq, Prog.lift, Prog.runIn_bind, Prog.runIn_ask, throwIfAborted, sleepFor,
      punctual, bigInt_intCast, hreached, hfar, Prog.runIn, waited]

theorem inRange_of_neverEarly {round : ℤ} {signal : Bool} {aborted : Option Failure}
    {reading : Option ℚ} (h : NeverEarly round signal aborted reading) :
    InRange round signal aborted reading := by
  by_contra hout
  unfold InRange at hout
  push Not at hout
  obtain ⟨hround, hentry, now, rfl, hlong, hsafe⟩ := hout
  unfold TIMEOUT_MAX at hlong
  obtain ⟨hok, hwaited⟩ := punctual_run hround hentry (by omega) hsafe
  -- the platform waits for a millisecond instead
  have hmillisecond : timerDelay (scheduledMs round - now).toNat = 1 := by
    unfold timerDelay TIMEOUT_MAX
    rw [if_neg (by omega)]
  have hearly := h _ (punctual_serves aborted _) hok (now + 1) (by
    intro start hstart
    rw [← Option.some.inj hstart, hwaited, hmillisecond, Nat.cast_one])
  have hclock : scheduledMs round ≤ now + 1 := by exact_mod_cast hearly
  omega

/-- A wait is never early exactly when its delay is one that the timer keeps. -/
theorem never_early_iff (round : ℤ) (signal : Bool) (aborted : Option Failure)
    (reading : Option ℚ) :
    NeverEarly round signal aborted reading ↔ InRange round signal aborted reading :=
  ⟨inRange_of_neverEarly, never_early_of_inRange⟩

/-- The wait for a round of the year 2025, started at the genesis of the beacon. -/
theorem far_round_early : ¬ NeverEarly 20000000 false none (some 1692803367000) := by
  intro h
  rcases inRange_of_neverEarly h with hround | ⟨hsignal, _⟩ | hrange
  · norm_num at hround
  · cases hsignal
  · rcases hrange 1692803367000 (by norm_num) with hshort | hfar
    · norm_num [scheduledMs, Contracts.Client.QUICKNET_GENESIS_TIMESTAMP,
        Contracts.Client.QUICKNET_PERIOD_SECONDS, TIMEOUT_MAX] at hshort
    · norm_num [scheduledMs, Contracts.Client.QUICKNET_GENESIS_TIMESTAMP,
        Contracts.Client.QUICKNET_PERIOD_SECONDS, MAX_SAFE_INTEGER] at hfar

end Quicknet.RoundWait
