import Quicknet.Library.Json

/-! The number that `JSON.stringify` prints for a double: of the decimals that are read
back as the double, one with the fewest digits, and of these the closest. Seventeen digits
are always enough, so every number has a short text, and reading the text gives the number. -/
namespace Json

/-- A finite double that is not negative. The two zeros are one, as both print the digit. -/
structure Magnitude where
  value : ℚ
  nonneg : 0 ≤ value
  finite : nearestDouble value = some value
  deriving DecidableEq

/-! Rounding. -/

section Rounding

theorem roundHalfEven_error (q : ℚ) : |q - roundHalfEven q| ≤ 1/2 := by
  have hle := Int.floor_le q
  have hlt := Int.lt_floor_add_one q
  unfold roundHalfEven
  simp only
  split_ifs with h₁ h₂ h₃
  · rw [abs_le]
    constructor <;> linarith
  · push_cast
    rw [abs_le]
    constructor <;> linarith
  · rw [abs_le]
    constructor <;> linarith
  · push_cast
    rw [abs_le]
    constructor <;> linarith

theorem roundHalfEven_of_near {q : ℚ} {m : ℤ} (h : |q - m| < 1/2) : roundHalfEven q = m := by
  have herror := roundHalfEven_error q
  have hclose : |((roundHalfEven q - m : ℤ) : ℚ)| < 1 := by
    push_cast
    calc |(roundHalfEven q : ℚ) - m| = |(q - m) - (q - roundHalfEven q)| := by ring_nf
      _ ≤ |q - m| + |q - roundHalfEven q| := abs_sub _ _
      _ < 1 := by linarith
  have hzero : roundHalfEven q - m = 0 := by
    rw [← Int.abs_lt_one_iff]
    exact_mod_cast hclose
  omega

/-- The exponent of the spacing of the doubles around `q`. -/
def spacingExponent (q : ℚ) : ℤ := max (Int.log 2 |q| - 52) (-1074)

theorem nearestDouble_of_near {y x : ℚ} {m : ℤ} (hx : x = m * 2^spacingExponent y)
    (hnear : |y / 2^spacingExponent y - m| < 1/2) (hbound : |x| < 2^1024) :
    nearestDouble y = some x := by
  have hround : roundHalfEven (y / 2^spacingExponent y) = m := roundHalfEven_of_near hnear
  unfold nearestDouble
  simp only
  change (if |(roundHalfEven (y / 2^spacingExponent y) : ℚ) * 2^spacingExponent y| < 2^1024 then
    some ((roundHalfEven (y / 2^spacingExponent y) : ℚ) * 2^spacingExponent y) else none) = _
  rw [hround, ← hx, if_pos hbound]

/-- A positive double is a multiple of the spacing, below `2^53` of it, and from `2^52` on
unless the spacing is the smallest. -/
theorem double_cases {x : ℚ} (hx : 0 < x) (h : nearestDouble x = some x) :
    ∃ m : ℤ, x = m * 2^spacingExponent x ∧ 0 < m ∧ m < 2^53 ∧ x < 2^1024 ∧
      (-1074 < spacingExponent x → 2^52 ≤ m ∧ Int.log 2 x = spacingExponent x + 52) := by
  have hpos : (0 : ℚ) < 2^spacingExponent x := by positivity
  have hdef : nearestDouble x =
      if |(roundHalfEven (x / 2^spacingExponent x) : ℚ) * 2^spacingExponent x| < 2^1024 then
        some ((roundHalfEven (x / 2^spacingExponent x) : ℚ) * 2^spacingExponent x)
      else none := rfl
  rw [hdef] at h
  generalize roundHalfEven (x / 2^spacingExponent x) = m at h
  split_ifs at h with hbound
  have hm : (m : ℚ) * 2^spacingExponent x = x := Option.some.inj h
  rw [hm, abs_of_pos hx] at hbound
  have hexp : spacingExponent x = max (Int.log 2 x - 52) (-1074) := by
    unfold spacingExponent
    rw [abs_of_pos hx]
  refine ⟨m, hm.symm, ?_, ?_, hbound, ?_⟩
  · have hmul : 0 < (m : ℚ) * 2^spacingExponent x := by rw [hm]; exact hx
    exact_mod_cast (pos_iff_pos_of_mul_pos hmul).mpr hpos
  · have hlt : (m : ℚ) * 2^spacingExponent x < 2^53 * 2^spacingExponent x :=
      calc (m : ℚ) * 2^spacingExponent x = x := hm
        _ < ((2 : ℕ) : ℚ)^(Int.log 2 x + 1) := Int.lt_zpow_succ_log_self (by norm_num) x
        _ ≤ ((2 : ℕ) : ℚ)^(53 + spacingExponent x) :=
          zpow_le_zpow_right₀ (by norm_num) (by omega)
        _ = 2^53 * 2^spacingExponent x := by
          rw [Nat.cast_ofNat, zpow_add₀ (by norm_num)]
          rfl
    exact_mod_cast lt_of_mul_lt_mul_right hlt hpos.le
  · intro hlarge
    have hlog : Int.log 2 x = spacingExponent x + 52 := by omega
    refine ⟨?_, hlog⟩
    have hle : (2 : ℚ)^52 * 2^spacingExponent x ≤ m * 2^spacingExponent x :=
      calc (2 : ℚ)^52 * 2^spacingExponent x = ((2 : ℕ) : ℚ)^Int.log 2 x := by
            rw [hlog, add_comm, Nat.cast_ofNat, zpow_add₀ (by norm_num)]
            rfl
        _ ≤ x := Int.zpow_log_le_self (by norm_num) hx
        _ = m * 2^spacingExponent x := hm.symm
    exact_mod_cast le_of_mul_le_mul_right hle hpos

/-- Rounding what has been rounded changes nothing. -/
theorem nearestDouble_idem {q x : ℚ} (hx : 0 ≤ x) (h : nearestDouble q = some x) :
    nearestDouble x = some x := by
  rcases hx.eq_or_lt with rfl | hx
  · exact_mod_cast nearestDouble_natCast (n := 0) (by norm_num)
  have hunit : (0 : ℚ) < 2^spacingExponent q := by positivity
  have hmin : -1074 ≤ spacingExponent q := le_max_right _ _
  have hdef : nearestDouble q =
      if |(roundHalfEven (q / 2^spacingExponent q) : ℚ) * 2^spacingExponent q| < 2^1024 then
        some ((roundHalfEven (q / 2^spacingExponent q) : ℚ) * 2^spacingExponent q)
      else none := rfl
  rw [hdef] at h
  split_ifs at h with hbound
  have hm := Option.some.inj h
  rw [hm] at hbound
  have hle : roundHalfEven (q / 2^spacingExponent q) ≤ 2^53 := by
    have herror := (abs_le.mp (roundHalfEven_error (q / 2^spacingExponent q))).1
    have hlt : q / 2^spacingExponent q < 2^53 := by
      rw [div_lt_iff₀ hunit]
      calc q ≤ |q| := le_abs_self q
        _ < ((2 : ℕ) : ℚ)^(Int.log 2 |q| + 1) := Int.lt_zpow_succ_log_self (by norm_num) _
        _ ≤ ((2 : ℕ) : ℚ)^(53 + spacingExponent q) :=
          zpow_le_zpow_right₀ (by norm_num) (by unfold spacingExponent; omega)
        _ = 2^53 * 2^spacingExponent q := by
          rw [Nat.cast_ofNat, zpow_add₀ (by norm_num)]
          rfl
    have hround : (roundHalfEven (q / 2^spacingExponent q) : ℚ) < 2^53 + 1 := by linarith
    have hint : roundHalfEven (q / 2^spacingExponent q) < 2^53 + 1 := by exact_mod_cast hround
    omega
  generalize roundHalfEven (q / 2^spacingExponent q) = m at hm hle
  have hexp : spacingExponent x = max (Int.log 2 x - 52) (-1074) := by
    unfold spacingExponent
    rw [abs_of_pos hx]
  -- `x` is a multiple of the spacing around it, which is finer unless `x` is the next power of two
  have hmultiple : ∃ k : ℤ, x = k * 2^spacingExponent x := by
    rcases hle.lt_or_eq with hlt | rfl
    · have hsmall : x < ((2 : ℕ) : ℚ)^(53 + spacingExponent q) := by
        have hmq : (m : ℚ) < 2^53 := by exact_mod_cast hlt
        rw [← hm, Nat.cast_ofNat, zpow_add₀ (by norm_num)]
        exact mul_lt_mul_of_pos_right hmq hunit
      have hlog := (Int.lt_zpow_iff_log_lt (by norm_num) hx).mp hsmall
      refine ⟨m * 2^(spacingExponent q - spacingExponent x).toNat, ?_⟩
      have hdiff : ((spacingExponent q - spacingExponent x).toNat : ℤ) =
          spacingExponent q - spacingExponent x := Int.toNat_of_nonneg (by omega)
      push_cast
      rw [mul_assoc, ← zpow_natCast, hdiff, ← zpow_add₀ (by norm_num), sub_add_cancel, hm]
    · have hpow : x = ((2 : ℕ) : ℚ)^(53 + spacingExponent q) := by
        rw [← hm, Nat.cast_ofNat, zpow_add₀ (by norm_num)]
        push_cast
        rfl
      have hlog : Int.log 2 x = 53 + spacingExponent q := by
        rw [hpow]
        exact Int.log_zpow (by norm_num) _
      have hnext : spacingExponent x = spacingExponent q + 1 := by omega
      refine ⟨2^52, ?_⟩
      rw [hnext, ← hm, zpow_add_one₀ (by norm_num)]
      push_cast
      ring
  obtain ⟨k, hk⟩ := hmultiple
  refine nearestDouble_of_near hk ?_ hbound
  have hunit' : (2 : ℚ)^spacingExponent x ≠ 0 := by positivity
  have hzero : x / 2^spacingExponent x - k = 0 := by
    rw [sub_eq_zero, div_eq_iff hunit']
    exact hk
  rw [hzero, abs_zero]
  norm_num

/-- What is within one part in `2·10^16` of a double is read as that double. -/
theorem nearestDouble_of_close {x y : ℚ} (hx : 0 < x) (h : nearestDouble x = some x)
    (hclose : |y - x| ≤ x / (2*10^16)) : nearestDouble y = some x := by
  obtain ⟨m, hm, hm0, hm53, hbound, hlarge⟩ := double_cases hx h
  have hy : 0 < y := by
    have hlow := (abs_le.mp hclose).1
    have hsmall : x / (2*10^16) < x := div_lt_self hx (by norm_num)
    linarith
  have habs : |x| < 2^1024 := by rwa [abs_of_pos hx]
  have hunit : (0 : ℚ) < 2^spacingExponent x := by positivity
  have hmq : (m : ℚ) < 2^53 := by exact_mod_cast hm53
  have hexp : spacingExponent y = max (Int.log 2 y - 52) (-1074) := by
    unfold spacingExponent
    rw [abs_of_pos hy]
  -- the distance, in units of the spacing around `x`
  have hdist : |y / 2^spacingExponent x - m| ≤ m / (2*10^16) := by
    have hscale : y / 2^spacingExponent x - m = (y - x) / 2^spacingExponent x := by
      rw [sub_div]
      congr 1
      rw [eq_div_iff hunit.ne', ← hm]
    rw [hscale, abs_div, abs_of_pos hunit, div_le_iff₀ hunit]
    calc |y - x| ≤ x / (2*10^16) := hclose
      _ = m / (2*10^16) * 2^spacingExponent x := by
        rw [div_mul_eq_mul_div, ← hm]
  have hhalf : (m : ℚ) / (2*10^16) < 1/2 := by
    rw [div_lt_div_iff₀ (by norm_num) (by norm_num)]
    linarith
  rcases lt_trichotomy (spacingExponent y) (spacingExponent x) with hlt | heq | hgt
  · -- `y` lies below the power of two that `x` is, where the spacing is half as large
    obtain ⟨hm52, _⟩ := hlarge (by omega)
    have hbelow : y / 2^spacingExponent x < 2^52 := by
      rw [div_lt_iff₀ hunit]
      calc y < ((2 : ℕ) : ℚ)^(Int.log 2 y + 1) := Int.lt_zpow_succ_log_self (by norm_num) y
        _ ≤ ((2 : ℕ) : ℚ)^(52 + spacingExponent x) :=
          zpow_le_zpow_right₀ (by norm_num) (by omega)
        _ = 2^52 * 2^spacingExponent x := by
          rw [Nat.cast_ofNat, zpow_add₀ (by norm_num)]
          rfl
    have hlow := (abs_le.mp hdist).1
    have hm_eq : m = 2^52 := by
      have hm_lt : (m : ℚ) < 2^52 + 1 := by linarith
      have hm_le : m < 2^52 + 1 := by exact_mod_cast hm_lt
      omega
    have habove : (2 : ℚ)^51 * 2^spacingExponent x ≤ y := by
      rw [← le_div_iff₀ hunit]
      rw [hm_eq] at hlow hhalf
      push_cast at hlow hhalf
      linarith
    have hlog : spacingExponent x + 51 ≤ Int.log 2 y := by
      rw [← Int.zpow_le_iff_le_log (by norm_num) hy, add_comm, Nat.cast_ofNat,
        zpow_add₀ (by norm_num)]
      exact habove
    have hnext : spacingExponent y = spacingExponent x - 1 := by omega
    have hdouble : (2 : ℚ)^spacingExponent x = 2 * 2^spacingExponent y := by
      rw [hnext, zpow_sub_one₀ (by norm_num)]
      ring
    have hunit' : (0 : ℚ) < 2^spacingExponent y := by positivity
    refine nearestDouble_of_near (m := 2^53) ?_ ?_ habs
    · rw [hm, hm_eq, hdouble]
      push_cast
      ring
    · have htwice : y / 2^spacingExponent y - (2^53 : ℤ) =
          2 * (y / 2^spacingExponent x - m) := by
        rw [hm_eq, hdouble]
        push_cast
        field_simp
        ring
      rw [htwice, abs_mul, abs_of_pos (by norm_num : (0 : ℚ) < 2)]
      calc 2 * |y / 2^spacingExponent x - m| ≤ 2 * (m / (2*10^16)) := by linarith
        _ < 1/2 := by
          rw [hm_eq]
          norm_num
  · refine nearestDouble_of_near (m := m) ?_ ?_ habs
    · rw [heq, ← hm]
    · rw [heq]
      exact hdist.trans_lt hhalf
  · -- no double of this spacing is that far below the next power of two
    exfalso
    have hmin : -1074 ≤ spacingExponent x := le_max_right _ _
    have hlog : spacingExponent x + 53 ≤ Int.log 2 y := by omega
    rw [← Int.zpow_le_iff_le_log (by norm_num) hy, add_comm, Nat.cast_ofNat,
      zpow_add₀ (by norm_num)] at hlog
    have hfar : (2 : ℚ)^53 ≤ y / 2^spacingExponent x := by
      rw [le_div_iff₀ hunit]
      exact hlog
    have hm_le : (m : ℚ) ≤ 2^53 - 1 := by
      have hint : m ≤ 2^53 - 1 := by omega
      exact_mod_cast hint
    have hhigh := (abs_le.mp hdist).2
    linarith

end Rounding

/-! The digits. -/

/-- The `n` with `10^(n-1) ≤ x < 10^n`. -/
def magnitudeDigits (x : ℚ) : ℤ := Int.log 10 x + 1

/-- `x` in units of its digit number `k`. -/
def leading (x : ℚ) (k : ℕ) : ℚ := x / 10^(magnitudeDigits x - k)

def decimalAt (x : ℚ) (k s : ℕ) : ℚ := s * 10^(magnitudeDigits x - k)

/-- The decimals of `k` digits around `x`, the closest first. Below a power of two the doubles
lie closer, so that the closest decimal may be another double's where the next one above is not. -/
def candidates (x : ℚ) (k : ℕ) : List ℕ :=
  [(roundHalfEven (leading x k)).toNat, ⌊leading x k⌋.toNat, ⌈leading x k⌉.toNat]

/-- The `k` digits that are read as `x`, if there are any. -/
def significand (x : ℚ) (k : ℕ) : Option ℕ :=
  (candidates x k).find? fun s => nearestDouble (decimalAt x k s) = some x

def digitCount (x : ℚ) : ℕ :=
  ((List.range' 1 17).find? fun k => (significand x k).isSome).getD 17

/-- Rounding up may add a digit, which is a power of ten then. -/
def shortest (x : ℚ) : ℕ × ℤ :=
  let k := digitCount x
  let s := (significand x k).getD 0
  if s = 10^k then (10^(k-1), magnitudeDigits x + 1) else (s, magnitudeDigits x)

/-- The `w` lowest digits of `s`. -/
def lowDigits : ℕ → ℕ → List (Fin 10)
  | 0, _ => []
  | w+1, s => Fin.ofNat 10 (s / 10^w) :: lowDigits w s

/-- The number with the digits of `s`, of which `w` follow the point. -/
def pointed (s w : ℕ) (exponent : Option ℤ) : Number := ⟨false, s / 10^w, lowDigits w s, exponent⟩

/-- `Number::toString`, where the digits stand for `s * 10^(n-k)`. -/
def formatted (s k : ℕ) (n : ℤ) : Number :=
  if k ≤ n ∧ n ≤ 21 then .ofNat (s * 10^(n-k).toNat)
  else if -6 < n ∧ n ≤ 21 then pointed s (k-n).toNat none
  else pointed s (k-1) (some (n-1))

def Magnitude.toNumber (d : Magnitude) : Number :=
  if d.value = 0 then .ofNat 0
  else formatted (shortest d.value).1 (digitCount d.value) (shortest d.value).2

section Digits

theorem decimalAt_error {x : ℚ} (hx : 0 < x) (k : ℕ) :
    |decimalAt x k (roundHalfEven (leading x k)).toNat - x| ≤ 10^(magnitudeDigits x - k) / 2 := by
  have hunit : (0 : ℚ) < 10^(magnitudeDigits x - k) := by positivity
  have herror := roundHalfEven_error (leading x k)
  have hq : 0 < leading x k := div_pos hx hunit
  have hnonneg : 0 ≤ roundHalfEven (leading x k) := by
    have hgt : (-1 : ℚ) < roundHalfEven (leading x k) := by
      have h := (abs_le.mp herror).2
      linarith
    have hint : (-1 : ℤ) < roundHalfEven (leading x k) := by exact_mod_cast hgt
    omega
  have hcast : (((roundHalfEven (leading x k)).toNat : ℕ) : ℚ) = roundHalfEven (leading x k) := by
    rw [← Int.cast_natCast, Int.toNat_of_nonneg hnonneg]
  have hscale : decimalAt x k (roundHalfEven (leading x k)).toNat - x =
      -((leading x k - roundHalfEven (leading x k)) * 10^(magnitudeDigits x - k)) := by
    unfold decimalAt
    rw [hcast, sub_mul, leading, div_mul_cancel₀ _ hunit.ne']
    ring
  rw [hscale, abs_neg, abs_mul, abs_of_pos hunit]
  calc _ ≤ 1/2 * (10 : ℚ)^(magnitudeDigits x - k) := by gcongr
    _ = 10^(magnitudeDigits x - k) / 2 := by ring

/-- Seventeen digits are read back. -/
theorem significand_seventeen {x : ℚ} (hx : 0 < x) (h : nearestDouble x = some x) :
    (significand x 17).isSome = true := by
  have hread : nearestDouble (decimalAt x 17 (roundHalfEven (leading x 17)).toNat) = some x := by
    apply nearestDouble_of_close hx h
    have hpow : (10 : ℚ)^Int.log 10 x ≤ x := by
      have hle := Int.zpow_log_le_self (R := ℚ) (b := 10) (by norm_num) hx
      rwa [Nat.cast_ofNat] at hle
    calc |decimalAt x 17 (roundHalfEven (leading x 17)).toNat - x|
        ≤ 10^(magnitudeDigits x - (17 : ℕ)) / 2 := decimalAt_error hx 17
      _ = 10^Int.log 10 x / (2*10^16) := by
        have hexp : magnitudeDigits x - (17 : ℕ) = Int.log 10 x - (16 : ℕ) := by
          unfold magnitudeDigits
          push_cast
          ring
        rw [hexp, zpow_sub₀ (by norm_num), zpow_natCast]
        ring
      _ ≤ x / (2*10^16) := by gcongr
  apply List.find?_isSome.mpr
  exact ⟨_, List.mem_cons_self, by simpa using hread⟩

theorem significand_some {x : ℚ} {k s : ℕ} (h : significand x k = some s) :
    s ∈ candidates x k ∧ nearestDouble (decimalAt x k s) = some x :=
  ⟨List.mem_of_find?_eq_some h, by simpa using List.find?_some h⟩

theorem digitCount_spec {x : ℚ} (hx : 0 < x) (h : nearestDouble x = some x) :
    1 ≤ digitCount x ∧ digitCount x ≤ 17 ∧ ∃ s, significand x (digitCount x) = some s := by
  unfold digitCount
  cases hfind : (List.range' 1 17).find? fun k => (significand x k).isSome with
  | none =>
    have hmem : 17 ∈ List.range' 1 17 := by decide
    exact absurd (significand_seventeen hx h) (List.find?_eq_none.mp hfind 17 hmem)
  | some k =>
    have hk := List.mem_range'_1.mp (List.mem_of_find?_eq_some hfind)
    simp only [Option.getD_some]
    have hsome : (significand x k).isSome = true :=
      List.find?_some (p := fun k => (significand x k).isSome) hfind
    exact ⟨hk.1, by omega, Option.isSome_iff_exists.mp hsome⟩

/-- No candidate has more digits than it should, but for a power of ten. -/
theorem candidates_le {x : ℚ} {k s : ℕ} (hs : s ∈ candidates x k) : s ≤ 10^k := by
  have hunit : (0 : ℚ) < 10^(magnitudeDigits x - k) := by positivity
  have hlt : leading x k < ((10^k : ℕ) : ℤ) := by
    have hlog := Int.lt_zpow_succ_log_self (R := ℚ) (b := 10) (by norm_num) x
    rw [Nat.cast_ofNat] at hlog
    rw [leading, div_lt_iff₀ hunit]
    calc x < 10^magnitudeDigits x := hlog
      _ = (((10^k : ℕ) : ℤ) : ℚ) * 10^(magnitudeDigits x - k) := by
        push_cast
        rw [← zpow_natCast, ← zpow_add₀ (by norm_num)]
        congr 1
        ring
  have hceil : ⌈leading x k⌉ ≤ ((10^k : ℕ) : ℤ) := Int.ceil_le.mpr hlt.le
  have hfloor : ⌊leading x k⌋ ≤ ⌈leading x k⌉ := Int.floor_le_ceil _
  have hround : roundHalfEven (leading x k) ≤ ((10^k : ℕ) : ℤ) := by
    have herror := (abs_le.mp (roundHalfEven_error (leading x k))).1
    have hint : (roundHalfEven (leading x k) : ℚ) < (((10^k : ℕ) : ℤ) : ℚ) + 1 := by linarith
    exact Int.lt_add_one_iff.mp (by exact_mod_cast hint)
  simp only [candidates, List.mem_cons, List.not_mem_nil, or_false] at hs
  rcases hs with rfl | rfl | rfl
  · exact Int.toNat_le.mpr hround
  · exact Int.toNat_le.mpr (hfloor.trans hceil)
  · exact Int.toNat_le.mpr hceil

/-- The decimal that was found, with at most as many digits as were asked for. -/
theorem shortest_spec {x : ℚ} (hx : 0 < x) (h : nearestDouble x = some x) :
    nearestDouble (((shortest x).1 : ℚ) * 10^((shortest x).2 - digitCount x)) = some x ∧
      (shortest x).1 < 10^digitCount x ∧
      magnitudeDigits x ≤ (shortest x).2 ∧ (shortest x).2 ≤ magnitudeDigits x + 1 := by
  obtain ⟨hk, _, s, hs⟩ := digitCount_spec hx h
  obtain ⟨hmem, hread⟩ := significand_some hs
  have hle := candidates_le hmem
  unfold shortest
  simp only [hs, Option.getD_some]
  split_ifs with htop
  · refine ⟨?_, Nat.pow_lt_pow_right (by norm_num) (by omega), by simp, by simp⟩
    have hsame : ((10^(digitCount x - 1) : ℕ) : ℚ) * 10^(magnitudeDigits x + 1 - digitCount x) =
        decimalAt x (digitCount x) s := by
      unfold decimalAt
      rw [htop]
      push_cast
      rw [← zpow_natCast, ← zpow_natCast, ← zpow_add₀ (by norm_num), ← zpow_add₀ (by norm_num)]
      congr 1
      push_cast [hk]
      ring
    rw [hsame]
    exact hread
  · exact ⟨hread, lt_of_le_of_ne hle htop, by simp, by simp⟩

theorem lowDigits_value (w s : ℕ) :
    (lowDigits w s).foldr (fun d rest => ((d.val : ℚ) + rest) / 10) 0 = (s % 10^w : ℕ) / 10^w := by
  induction w with
  | zero => simp [lowDigits, Nat.mod_one]
  | succ w ih =>
    have hval : ((Fin.ofNat 10 (s / 10^w)).val : ℚ) = (s / 10^w % 10 : ℕ) := rfl
    rw [lowDigits, List.foldr_cons, ih, hval, Nat.mod_pow_succ]
    push_cast
    field_simp
    ring

theorem pointed_value (s w : ℕ) (exponent : Option ℤ) :
    (pointed s w exponent).value = s / 10^w * 10^(exponent.getD 0) := by
  have hsplit : ((s / 10^w : ℕ) : ℚ) + ((s % 10^w : ℕ) : ℚ) / 10^w = s / 10^w := by
    have hdiv : 10^w * (s / 10^w) + s % 10^w = s := Nat.div_add_mod s (10^w)
    have hq : (10 : ℚ)^w * ((s / 10^w : ℕ) : ℚ) + ((s % 10^w : ℕ) : ℚ) = s := by exact_mod_cast hdiv
    field_simp
    linarith
  unfold pointed Number.value
  simp only [Bool.false_eq_true, if_false, one_mul]
  rw [lowDigits_value, hsplit]

theorem formatted_value {s k : ℕ} {n : ℤ} (hk : 1 ≤ k) :
    (formatted s k n).value = s * 10^(n - k) := by
  unfold formatted
  split_ifs with hplain hpoint
  · have hexp : ((n - k).toNat : ℤ) = n - k := Int.toNat_of_nonneg (by omega)
    rw [Number.value_ofNat]
    push_cast
    rw [← zpow_natCast, hexp]
  · have hexp : ((k - n).toNat : ℤ) = k - n := Int.toNat_of_nonneg (by omega)
    rw [pointed_value, Option.getD_none, zpow_zero, mul_one, ← zpow_natCast, hexp, div_eq_mul_inv,
      ← zpow_neg, neg_sub]
  · rw [pointed_value, Option.getD_some, ← zpow_natCast, div_eq_mul_inv, ← zpow_neg, mul_assoc,
      ← zpow_add₀ (by norm_num)]
    congr 2
    push_cast [hk]
    ring

/-- The text of a double is read as the double. -/
theorem nearestDouble_toNumber (d : Magnitude) :
    nearestDouble d.toNumber.value = some d.value := by
  unfold Magnitude.toNumber
  split_ifs with hzero
  · have h := nearestDouble_natCast (n := 0) (by norm_num)
    rw [Number.value_ofNat, hzero]
    exact_mod_cast h
  · have hpos : 0 < d.value := lt_of_le_of_ne d.nonneg (Ne.symm hzero)
    rw [formatted_value (digitCount_spec hpos d.finite).1]
    exact (shortest_spec hpos d.finite).1

/-- The double that a number is read as, unless it is negative or infinite. -/
def readMagnitude (n : Number) : Option Magnitude :=
  match h : nearestDouble n.value with
  | some q => if hq : 0 ≤ q then some ⟨q, hq, nearestDouble_idem hq h⟩ else none
  | none => none

theorem readMagnitude_toNumber (d : Magnitude) : readMagnitude d.toNumber = some d := by
  have hread := nearestDouble_toNumber d
  unfold readMagnitude
  split
  · next q h =>
    obtain rfl : d.value = q := Option.some.inj (hread.symm.trans h)
    rw [dif_pos d.nonneg]
  · next h =>
    rw [hread] at h
    cases h

end Digits

/-! The length of the text. -/

section Length

theorem lowDigits_length (w s : ℕ) : (lowDigits w s).length = w := by
  induction w with
  | zero => rfl
  | succ w ih => rw [lowDigits, List.length_cons, ih]

theorem printFraction_length (fraction : List (Fin 10)) :
    (printFraction fraction).length ≤ fraction.length + 1 := by
  cases fraction with
  | nil => simp [printFraction]
  | cons d ds => simp [printFraction]

theorem printExponent_length {e : ℤ} (he : e.natAbs < 1000) :
    (printExponent (some e)).length ≤ 5 := by
  have hlength := decimal_length_le (k := 3) (by norm_num) he
  simp only [printExponent, List.length_cons]
  omega

theorem pointed_length {s w k : ℕ} (exponent : Option ℤ) (hk : 0 < k) (hs : s < 10^(w+k)) :
    (printNumber (pointed s w exponent)).length ≤ k + w + 1 + (printExponent exponent).length := by
  have hinteger : (decimal (s / 10^w)).length ≤ k := by
    apply decimal_length_le hk
    rw [Nat.div_lt_iff_lt_mul (by positivity), ← pow_add, add_comm]
    exact hs
  have hfraction := printFraction_length (lowDigits w s)
  rw [lowDigits_length] at hfraction
  simp only [printNumber, pointed, Bool.false_eq_true, if_false, List.nil_append,
    List.length_append]
  omega

theorem formatted_length {s k : ℕ} {n : ℤ} (hk : 1 ≤ k) (hk17 : k ≤ 17) (hs : s < 10^k)
    (hn : (n - 1).natAbs < 1000) : (printNumber (formatted s k n)).length ≤ 24 := by
  unfold formatted
  split_ifs with hplain hpoint
  · have hlt : s * 10^(n-k).toNat < 10^21 :=
      calc s * 10^(n-k).toNat < 10^k * 10^(n-k).toNat := by gcongr
        _ = 10^(k + (n-k).toNat) := (pow_add _ _ _).symm
        _ ≤ 10^21 := Nat.pow_le_pow_right (by norm_num) (by omega)
    have hlength := decimal_length_le (by norm_num) hlt
    simp only [printNumber, Number.ofNat, printFraction, printExponent, Bool.false_eq_true,
      if_false, List.nil_append, List.append_nil]
    omega
  · by_cases hpos : 0 < n
    · have hw : (k - n).toNat + n.toNat = k := by omega
      have hlength := pointed_length (s := s) (w := (k-n).toNat) (k := n.toNat) none (by omega)
        (by rwa [hw])
      simp only [printExponent, List.length_nil] at hlength
      omega
    · have hs' : s < 10^((k-n).toNat + 1) :=
        hs.trans_le (Nat.pow_le_pow_right (by norm_num) (by omega))
      have hlength := pointed_length none (by norm_num) hs'
      simp only [printExponent, List.length_nil] at hlength
      omega
  · have hlength := pointed_length (s := s) (w := k-1) (k := 1) (some (n-1)) (by norm_num)
      (by rwa [Nat.sub_add_cancel hk])
    have hexponent := printExponent_length hn
    omega

/-- The longest: six zeros before seventeen digits. -/
example : printNumber (formatted 12345678901234567 17 (-5)) = text "0.0000012345678901234567" := by
  decide

theorem two_pow_le (n : ℕ) : (2 : ℚ)^(3*n) ≤ 10^n :=
  calc (2 : ℚ)^(3*n) = 8^n := by
        rw [pow_mul]
        norm_num
    _ ≤ 10^n := pow_le_pow_left₀ (by norm_num) (by norm_num) n

theorem magnitudeDigits_bound {x : ℚ} (hx : 0 < x) (h : nearestDouble x = some x) :
    -358 < magnitudeDigits x ∧ magnitudeDigits x ≤ 342 := by
  obtain ⟨m, hm, hm0, _, hbound, _⟩ := double_cases hx h
  have hlow : ((10 : ℕ) : ℚ)^(-358 : ℤ) ≤ x := by
    have hone : (1 : ℚ) ≤ m := by exact_mod_cast hm0
    calc ((10 : ℕ) : ℚ)^(-358 : ℤ) = (10^358)⁻¹ := by
          rw [Nat.cast_ofNat, zpow_neg, zpow_ofNat]
      _ ≤ (2^(3*358))⁻¹ := inv_anti₀ (by positivity) (two_pow_le 358)
      _ = 2^(-1074 : ℤ) := by rw [zpow_neg, zpow_ofNat]
      _ ≤ 2^spacingExponent x := zpow_le_zpow_right₀ (by norm_num) (le_max_right _ _)
      _ ≤ m * 2^spacingExponent x := le_mul_of_one_le_left (by positivity) hone
      _ = x := hm.symm
  have hhigh : x < ((10 : ℕ) : ℚ)^(342 : ℤ) :=
    calc x < 2^1024 := hbound
      _ ≤ 2^(3*342) := pow_le_pow_right₀ (by norm_num) (by norm_num)
      _ ≤ 10^342 := two_pow_le 342
      _ = ((10 : ℕ) : ℚ)^(342 : ℤ) := by
        rw [Nat.cast_ofNat]
        rfl
  have h₁ := (Int.zpow_le_iff_le_log (by norm_num) hx).mp hlow
  have h₂ := (Int.lt_zpow_iff_log_lt (by norm_num) hx).mp hhigh
  unfold magnitudeDigits
  omega

theorem toNumber_length (d : Magnitude) : (printNumber d.toNumber).length ≤ 24 := by
  unfold Magnitude.toNumber
  split_ifs with hzero
  · decide
  · have hpos : 0 < d.value := lt_of_le_of_ne d.nonneg (Ne.symm hzero)
    obtain ⟨hk, hk17, _⟩ := digitCount_spec hpos d.finite
    obtain ⟨_, hs, hlow, hhigh⟩ := shortest_spec hpos d.finite
    have hbound := magnitudeDigits_bound hpos d.finite
    exact formatted_length hk hk17 hs (by omega)

end Length

end Json
