import Mathlib.Tactic

/-! Numbered slots of equal length from a first instant on. Slot one is at the first
instant, and slot zero stands for the time before it. -/
namespace PeriodicSchedule

variable (start period : ℕ)

def scheduled (r : ℕ) : ℕ := start + (r - 1) * period

def latest (t : ℕ) : ℕ := if t < start then 0 else (t - start) / period + 1

variable {start period}

theorem scheduled_mono : Monotone (scheduled start period) := by
  intro r s h
  unfold scheduled
  gcongr

theorem latest_mono : Monotone (latest start period) := by
  intro t u h
  unfold latest
  split_ifs with ht hu hu
  · exact le_rfl
  · exact Nat.zero_le _
  · omega
  · gcongr

/-- A slot has begun exactly when its instant has come. -/
theorem le_latest_iff (hp : 0 < period) {r t : ℕ} (hr : 0 < r) :
    r ≤ latest start period t ↔ scheduled start period r ≤ t := by
  unfold latest scheduled
  split_ifs with ht
  · constructor
    · intro h
      omega
    · intro h
      have := Nat.zero_le ((r - 1) * period)
      omega
  · have hdiv : r - 1 ≤ (t - start) / period ↔ (r - 1) * period ≤ t - start :=
      Nat.le_div_iff_mul_le hp
    constructor
    · intro h
      have := hdiv.mp (by omega)
      omega
    · intro h
      have := hdiv.mpr (by omega)
      omega

theorem latest_scheduled (hp : 0 < period) {r : ℕ} (hr : 0 < r) :
    latest start period (scheduled start period r) = r := by
  apply le_antisymm
  · by_contra h
    have hlater : r + 1 ≤ latest start period (scheduled start period r) := by omega
    have htime := (le_latest_iff hp (by omega : 0 < r + 1)).mp hlater
    unfold scheduled at htime
    have hstep : (r + 1 - 1) * period = (r - 1) * period + period := by
      obtain ⟨k, rfl⟩ := Nat.exists_eq_succ_of_ne_zero hr.ne'
      simp only [Nat.succ_eq_add_one, Nat.add_sub_cancel]
      ring
    omega
  · exact (le_latest_iff hp hr).mpr le_rfl

/-- The slot that is `lead` slots ahead keeps all but one period of the lead. -/
theorem lead_le_scheduled (hp : 0 < period) {lead : ℕ} (hl : 0 < lead) (t : ℕ) :
    t + lead * period + 1 ≤
      scheduled start period (latest start period t + lead) + period := by
  obtain ⟨l, rfl⟩ := Nat.exists_eq_succ_of_ne_zero hl.ne'
  unfold latest scheduled
  split_ifs with ht
  · have hexp : (l + 1) * period = l * period + period := by ring
    simp only [Nat.succ_eq_add_one, Nat.zero_add, Nat.add_sub_cancel]
    omega
  · have hmod := Nat.div_add_mod (t - start) period
    have hlt := Nat.mod_lt (t - start) hp
    generalize (t - start) / period = q at hmod ⊢
    have hcount : q + 1 + (l + 1) - 1 = q + (l + 1) := by omega
    have hexp : (q + (l + 1)) * period = period * q + (l + 1) * period := by ring
    rw [Nat.succ_eq_add_one, hcount, hexp]
    omega

theorem scheduled_lead_le {lead t : ℕ} (ht : start ≤ t) :
    scheduled start period (latest start period t + lead) ≤ t + lead * period := by
  unfold latest scheduled
  rw [if_neg (by omega)]
  have hmul := Nat.div_mul_le_self (t - start) period
  generalize (t - start) / period = q at hmul ⊢
  have hcount : q + 1 + lead - 1 = q + lead := by omega
  rw [hcount, Nat.add_mul]
  omega

end PeriodicSchedule
