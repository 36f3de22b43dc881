import Quicknet.BeaconRegistry
import Quicknet.Library.PeriodicSchedule

/-! The round schedule, in the registry contract and in the client library. The contract
computes on words and reverts where a checked operation overflows; the library computes
on integers. -/
namespace Quicknet.Contracts

open PeriodicSchedule

abbrev Uint256 := BitVec 256

/-- `panic` is the revert of a checked operation. -/
inductive ScheduleError
  | invalidRound
  | panic
  deriving DecidableEq

section Checked

variable {w : ℕ}

def addChecked (a b : BitVec w) : Except ScheduleError (BitVec w) :=
  if a.toNat + b.toNat < 2^w then .ok (a + b) else .error .panic

def subChecked (a b : BitVec w) : Except ScheduleError (BitVec w) :=
  if b.toNat ≤ a.toNat then .ok (a - b) else .error .panic

def mulChecked (a b : BitVec w) : Except ScheduleError (BitVec w) :=
  if a.toNat * b.toNat < 2^w then .ok (a * b) else .error .panic

def divChecked (a b : BitVec w) : Except ScheduleError (BitVec w) :=
  if b = 0 then .error .panic else .ok (a / b)

theorem addChecked_ok {a b : BitVec w} (h : a.toNat + b.toNat < 2^w) :
    ∃ c, addChecked a b = .ok c ∧ c.toNat = a.toNat + b.toNat := by
  refine ⟨a + b, if_pos h, ?_⟩
  rw [BitVec.toNat_add, Nat.mod_eq_of_lt h]

theorem subChecked_ok {a b : BitVec w} (h : b.toNat ≤ a.toNat) :
    ∃ c, subChecked a b = .ok c ∧ c.toNat = a.toNat - b.toNat :=
  ⟨a - b, if_pos h, BitVec.toNat_sub_of_le h⟩

theorem mulChecked_ok {a b : BitVec w} (h : a.toNat * b.toNat < 2^w) :
    ∃ c, mulChecked a b = .ok c ∧ c.toNat = a.toNat * b.toNat := by
  refine ⟨a * b, if_pos h, ?_⟩
  rw [BitVec.toNat_mul, Nat.mod_eq_of_lt h]

theorem divChecked_ok {a b : BitVec w} (h : b ≠ 0) :
    ∃ c, divChecked a b = .ok c ∧ c.toNat = a.toNat / b.toNat :=
  ⟨a / b, if_neg h, BitVec.toNat_udiv⟩

end Checked

def GENESIS_TIMESTAMP : BitVec 64 := 1692803367
def PERIOD_SECONDS : BitVec 64 := 3

def roundScheduledTime (round : Round) : Except ScheduleError Uint256 :=
  if round = 0 then .error .invalidRound
  else do
    let elapsedRounds ← subChecked round 1
    let elapsed ← mulChecked (elapsedRounds.setWidth 256) (PERIOD_SECONDS.setWidth 256)
    addChecked (GENESIS_TIMESTAMP.setWidth 256) elapsed

def roundAt (timestamp : Uint256) : Except ScheduleError Round :=
  if timestamp < GENESIS_TIMESTAMP.setWidth 256 then .ok 0
  else do
    let elapsed ← subChecked timestamp (GENESIS_TIMESTAMP.setWidth 256)
    let periods ← divChecked elapsed (PERIOD_SECONDS.setWidth 256)
    let round ← addChecked periods 1
    if (BitVec.allOnes 64).setWidth 256 < round then .error .invalidRound
    else .ok (round.setWidth 64)

/-- The registry reads the block's timestamp and nothing of its storage. -/
def latestScheduledRound (_ : Registry) (blockTimestamp : Uint256) : Except ScheduleError Round :=
  roundAt blockTimestamp

/-! The client library. Its division of integers truncates. -/

namespace Client

def QUICKNET_GENESIS_TIMESTAMP : ℤ := 1692803367
def QUICKNET_PERIOD_SECONDS : ℤ := 3

def roundAt (timestamp : ℤ) : ℤ :=
  if timestamp < QUICKNET_GENESIS_TIMESTAMP then 0
  else (timestamp - QUICKNET_GENESIS_TIMESTAMP).tdiv QUICKNET_PERIOD_SECONDS + 1

def roundScheduledTime (round : ℤ) : Except String ℤ :=
  if round = 0 then .error "Quicknet round must be greater than zero."
  else .ok (QUICKNET_GENESIS_TIMESTAMP + (round - 1) * QUICKNET_PERIOD_SECONDS)

end Client

def GENESIS : ℕ := 1692803367
def PERIOD : ℕ := 3

theorem period_pos : 0 < PERIOD := by decide

section Schedule

theorem genesis_toNat : (GENESIS_TIMESTAMP.setWidth 256).toNat = GENESIS := by decide
theorem period_toNat : (PERIOD_SECONDS.setWidth 256).toNat = PERIOD := by decide

theorem client_roundAt_natCast (t : ℕ) : Client.roundAt t = (latest GENESIS PERIOD t : ℕ) := by
  unfold Client.roundAt latest Client.QUICKNET_GENESIS_TIMESTAMP Client.QUICKNET_PERIOD_SECONDS
    GENESIS PERIOD
  split_ifs with hz hn hn
  · rfl
  · omega
  · omega
  · rw [Int.tdiv_eq_ediv_of_nonneg (by omega)]
    omega

theorem client_roundScheduledTime_natCast {r : ℕ} (hr : 0 < r) :
    Client.roundScheduledTime r = .ok (scheduled GENESIS PERIOD r : ℕ) := by
  unfold Client.roundScheduledTime scheduled Client.QUICKNET_GENESIS_TIMESTAMP
    Client.QUICKNET_PERIOD_SECONDS GENESIS PERIOD
  rw [if_neg (by omega)]
  congr 1
  omega

/-- No checked operation overflows: the time of the last round fits in 66 bits. -/
theorem roundScheduledTime_ok {r : Round} (hr : r ≠ 0) :
    ∃ s, roundScheduledTime r = .ok s ∧ s.toNat = scheduled GENESIS PERIOD r.toNat := by
  have hpos : 1 ≤ r.toNat := by
    apply Nat.pos_of_ne_zero
    intro h
    exact hr (BitVec.eq_of_toNat_eq h)
  have hlt := r.isLt
  obtain ⟨a, ha, haval⟩ := subChecked_ok (a := r) (b := 1) (by simpa using hpos)
  have hone : (1 : BitVec 64).toNat = 1 := rfl
  rw [hone] at haval
  have hwide : (a.setWidth 256).toNat = r.toNat - 1 := by
    rw [BitVec.toNat_setWidth_of_le (by norm_num), haval]
  obtain ⟨b, hb, hbval⟩ := mulChecked_ok (a := a.setWidth 256) (b := PERIOD_SECONDS.setWidth 256)
    (by rw [hwide, period_toNat]; unfold PERIOD; omega)
  rw [hwide, period_toNat] at hbval
  obtain ⟨c, hc, hcval⟩ := addChecked_ok (a := GENESIS_TIMESTAMP.setWidth 256) (b := b)
    (by rw [hbval, genesis_toNat]; unfold GENESIS PERIOD; omega)
  refine ⟨c, ?_, ?_⟩
  · unfold roundScheduledTime
    rw [if_neg hr, ha]
    simp only [bind, Except.bind, hb, hc]
  · rw [hcval, hbval, genesis_toNat]
    rfl

/-- `roundAt` returns the latest slot, or reverts because it does not fit. -/
theorem roundAt_eq (t : Uint256) :
    (latest GENESIS PERIOD t.toNat < 2^64 ∧
      ∃ v, roundAt t = .ok v ∧ v.toNat = latest GENESIS PERIOD t.toNat) ∨
    (2^64 ≤ latest GENESIS PERIOD t.toNat ∧ roundAt t = .error .invalidRound) := by
  have hlt := t.isLt
  -- before genesis the code returns without any arithmetic
  by_cases hbefore : t < GENESIS_TIMESTAMP.setWidth 256
  · left
    have hzero : latest GENESIS PERIOD t.toNat = 0 := by
      have h := BitVec.lt_def.mp hbefore
      rw [genesis_toNat] at h
      exact if_pos h
    rw [hzero]
    exact ⟨by norm_num, 0, if_pos hbefore, rfl⟩
  · have hafter : GENESIS ≤ t.toNat := by
      have h := mt BitVec.lt_def.mpr hbefore
      rw [genesis_toNat] at h
      omega
    -- after it each operation is checked, and none of them fails
    obtain ⟨a, ha, haval⟩ := subChecked_ok (a := t) (b := GENESIS_TIMESTAMP.setWidth 256)
      (by rw [genesis_toNat]; exact hafter)
    obtain ⟨b, hb, hbval⟩ := divChecked_ok (a := a) (b := PERIOD_SECONDS.setWidth 256) (by decide)
    rw [haval, genesis_toNat, period_toNat] at hbval
    have hone : (1 : Uint256).toNat = 1 := rfl
    obtain ⟨c, hc, hcval⟩ := addChecked_ok (a := b) (b := 1)
      (by rw [hbval, hone]; unfold GENESIS PERIOD; omega)
    rw [hbval, hone] at hcval
    have hlatest : c.toNat = latest GENESIS PERIOD t.toNat := by
      unfold latest
      rw [if_neg (by omega), hcval]
    have hmax : ((BitVec.allOnes 64).setWidth 256).toNat = 2^64 - 1 := by decide
    have hrun : roundAt t = if (BitVec.allOnes 64).setWidth 256 < c then .error .invalidRound
        else .ok (c.setWidth 64) := by
      unfold roundAt
      rw [if_neg hbefore, ha]
      simp only [bind, Except.bind, hb, hc]
    -- the sum is truncated only where it fits
    by_cases hfits : c.toNat < 2^64
    · left
      refine ⟨hlatest ▸ hfits, c.setWidth 64, ?_, ?_⟩
      · rw [hrun, if_neg]
        rw [BitVec.lt_def, hmax]
        omega
      · rw [BitVec.toNat_setWidth, Nat.mod_eq_of_lt hfits, hlatest]
    · right
      refine ⟨by omega, ?_⟩
      rw [hrun, if_pos]
      rw [BitVec.lt_def, hmax]
      omega

/-- The time of a round on the two sides, and the slot it is. -/
theorem roundScheduledTime_eq {r : Round} {s : Uint256} (h : roundScheduledTime r = .ok s) :
    r ≠ 0 ∧ 0 < r.toNat ∧ s.toNat = scheduled GENESIS PERIOD r.toNat := by
  have hr : r ≠ 0 := by
    rintro rfl
    cases h
  have hpos : 0 < r.toNat := by
    apply Nat.pos_of_ne_zero
    intro h0
    exact hr (BitVec.eq_of_toNat_eq h0)
  obtain ⟨s', hs', hval⟩ := roundScheduledTime_ok hr
  rw [h] at hs'
  obtain rfl := Except.ok.inj hs'
  exact ⟨hr, hpos, hval⟩

theorem roundAt_ok_iff {t : Uint256} {v : Round} :
    roundAt t = .ok v ↔ v.toNat = latest GENESIS PERIOD t.toNat := by
  have hlt := v.isLt
  rcases roundAt_eq t with ⟨_, u, hu, hval⟩ | ⟨hbig, herr⟩
  · rw [hu, Except.ok.injEq, ← hval]
    exact ⟨fun h => h ▸ rfl, fun h => BitVec.eq_of_toNat_eq h.symm⟩
  · rw [herr]
    constructor
    · intro h
      cases h
    · intro h
      omega

theorem roundAt_error_iff {t : Uint256} {e : ScheduleError} :
    roundAt t = .error e ↔ e = .invalidRound ∧ 2^64 ≤ latest GENESIS PERIOD t.toNat := by
  rcases roundAt_eq t with ⟨hfits, u, hu, _⟩ | ⟨hbig, herr⟩
  · rw [hu]
    constructor
    · intro h
      cases h
    · rintro ⟨_, h⟩
      omega
  · rw [herr, Except.error.injEq, eq_comm]
    exact ⟨fun h => ⟨h, hbig⟩, fun h => h.1⟩

theorem client_roundAt_of_neg {t : ℤ} (ht : t < 0) : Client.roundAt t = 0 := by
  apply if_pos
  unfold Client.QUICKNET_GENESIS_TIMESTAMP
  omega

theorem client_le_roundAt_iff {r t s : ℤ} (hr : 1 ≤ r)
    (hs : Client.roundScheduledTime r = .ok s) : r ≤ Client.roundAt t ↔ s ≤ t := by
  obtain ⟨n, rfl⟩ := Int.eq_ofNat_of_zero_le (by omega : 0 ≤ r)
  have hn : 0 < n := by omega
  rw [client_roundScheduledTime_natCast hn] at hs
  obtain rfl := Except.ok.inj hs
  by_cases ht : 0 ≤ t
  · obtain ⟨m, rfl⟩ := Int.eq_ofNat_of_zero_le ht
    have h : n ≤ latest GENESIS PERIOD m ↔ scheduled GENESIS PERIOD n ≤ m :=
      le_latest_iff period_pos hn
    rw [client_roundAt_natCast]
    exact_mod_cast h
  · rw [client_roundAt_of_neg (by omega)]
    omega

theorem client_roundAt_mono : Monotone Client.roundAt := by
  intro t u h
  by_cases ht : 0 ≤ t
  · obtain ⟨m, rfl⟩ := Int.eq_ofNat_of_zero_le ht
    obtain ⟨n, rfl⟩ := Int.eq_ofNat_of_zero_le (ht.trans h)
    rw [client_roundAt_natCast, client_roundAt_natCast]
    have hle : latest GENESIS PERIOD m ≤ latest GENESIS PERIOD n := latest_mono (Int.ofNat_le.mp h)
    exact_mod_cast hle
  · rw [client_roundAt_of_neg (by omega)]
    by_cases hu : 0 ≤ u
    · obtain ⟨n, rfl⟩ := Int.eq_ofNat_of_zero_le hu
      rw [client_roundAt_natCast]
      omega
    · rw [client_roundAt_of_neg (by omega)]

end Schedule

/-- The two schedules agree, are inverse to one another in the sense of a Galois
connection, and never overflow; `roundAt` reverts exactly for the rounds that do not fit. -/
theorem schedule_laws :
    (∀ r : Round, r ≠ 0 → ∃ s, roundScheduledTime r = .ok s ∧
      Client.roundScheduledTime r.toNat = .ok (s.toNat : ℤ) ∧
      roundAt s = .ok r ∧ Client.roundAt s.toNat = r.toNat) ∧
    (∀ t v, roundAt t = .ok v → Client.roundAt t.toNat = v.toNat) ∧
    (∀ r t s v, roundScheduledTime r = .ok s → roundAt t = .ok v → (r ≤ v ↔ s ≤ t)) ∧
    (∀ r t s : ℤ, 1 ≤ r → Client.roundScheduledTime r = .ok s →
      (r ≤ Client.roundAt t ↔ s ≤ t)) ∧
    ((∀ r r' s s', r ≤ r' → roundScheduledTime r = .ok s → roundScheduledTime r' = .ok s' →
      s ≤ s') ∧
      (∀ t t' v v', t ≤ t' → roundAt t = .ok v → roundAt t' = .ok v' → v ≤ v') ∧
      (∀ r r' s s' : ℤ, r ≤ r' → Client.roundScheduledTime r = .ok s →
        Client.roundScheduledTime r' = .ok s' → s ≤ s') ∧ Monotone Client.roundAt) ∧
    (∀ r, roundScheduledTime r ≠ .error .panic) ∧ (∀ t, roundAt t ≠ .error .panic) ∧
    ∀ t, (∃ e, roundAt t = .error e) ↔ 2^64 - 1 < Client.roundAt t.toNat := by
  refine ⟨?_, ?_, ?_, fun r t s => client_le_roundAt_iff, ⟨?_, ?_, ?_, client_roundAt_mono⟩,
    ?_, ?_, ?_⟩
  · intro r hr
    obtain ⟨s, hs, hval⟩ := roundScheduledTime_ok hr
    obtain ⟨_, hpos, _⟩ := roundScheduledTime_eq hs
    -- the round that is latest at a round's time is the round itself
    have hround : latest GENESIS PERIOD s.toNat = r.toNat := by
      rw [hval]
      exact latest_scheduled period_pos hpos
    refine ⟨s, hs, ?_, roundAt_ok_iff.mpr hround.symm, ?_⟩
    · rw [client_roundScheduledTime_natCast hpos, hval]
    · rw [client_roundAt_natCast, hround]
  · intro t v h
    rw [client_roundAt_natCast, roundAt_ok_iff.mp h]
  · intro r t s v hs hv
    obtain ⟨_, hpos, hval⟩ := roundScheduledTime_eq hs
    rw [BitVec.le_def, BitVec.le_def, roundAt_ok_iff.mp hv, hval]
    exact le_latest_iff period_pos hpos
  · intro r r' s s' h hs hs'
    obtain ⟨_, _, hval⟩ := roundScheduledTime_eq hs
    obtain ⟨_, _, hval'⟩ := roundScheduledTime_eq hs'
    rw [BitVec.le_def, hval, hval']
    exact scheduled_mono (BitVec.le_def.mp h)
  · intro t t' v v' h hv hv'
    rw [BitVec.le_def, roundAt_ok_iff.mp hv, roundAt_ok_iff.mp hv']
    exact latest_mono (BitVec.le_def.mp h)
  · intro r r' s s' h hs hs'
    unfold Client.roundScheduledTime at hs hs'
    split_ifs at hs hs'
    obtain rfl := Except.ok.inj hs
    obtain rfl := Except.ok.inj hs'
    unfold Client.QUICKNET_PERIOD_SECONDS
    omega
  · intro r h
    by_cases hr : r = 0
    · subst hr
      cases h
    · obtain ⟨s, hs, _⟩ := roundScheduledTime_ok hr
      rw [hs] at h
      cases h
  · intro t h
    cases (roundAt_error_iff.mp h).1
  · intro t
    rw [client_roundAt_natCast]
    constructor
    · rintro ⟨e, he⟩
      have := (roundAt_error_iff.mp he).2
      omega
    · intro h
      exact ⟨.invalidRound, roundAt_error_iff.mpr ⟨rfl, by omega⟩⟩

end Quicknet.Contracts
