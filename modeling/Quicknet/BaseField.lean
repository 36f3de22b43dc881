import Quicknet.BeaconVerifier

/-! The base field of the signature curve: its modulus is prime, so an `x` and a
sign bit leave at most one nonzero `y`. -/
namespace Quicknet.Contracts
open PrimeCertificate

/-! A chain of primes, each a large factor of the predecessor of the next. -/

theorem prime_13090036741 : Nat.Prime 13090036741 := by
  have h : Certifies 13090036741 31020 421987 2 34 := by decide +kernel
  apply h.prime
  · norm_num
  · norm_num
  · norm_num

theorem prime_3819663927398918131021 : Nat.Prime 3819663927398918131021 := by
  have h : Certifies 3819663927398918131021 291799328220 13090036741 2 72 := by decide +kernel
  have h' : Certifies 3819663927398918131021 33802335640698390540 113 2 72 := by decide +kernel
  apply prime_of_two h h' prime_13090036741
  · norm_num
  · norm_num
  · norm_num
  · norm_num

theorem prime_1125266252156850182658904441386709967 :
    Nat.Prime 1125266252156850182658904441386709967 := by
  have h : Certifies 1125266252156850182658904441386709967 294598235223046
      3819663927398918131021 2 120 := by
    decide +kernel
  apply h.prime prime_3819663927398918131021
  · norm_num
  · norm_num

theorem prime_15778400344354997994418419698270088123916926905054652752758194827714659 :
    Nat.Prime 15778400344354997994418419698270088123916926905054652752758194827714659 := by
  have h : Certifies 15778400344354997994418419698270088123916926905054652752758194827714659
      14021926201120671579994175730661374 1125266252156850182658904441386709967 2 234 := by
    decide +kernel
  apply h.prime prime_1125266252156850182658904441386709967
  · norm_num
  · norm_num

theorem fieldModulus_prime : fieldModulus.Prime := by
  have h : Certifies fieldModulus 253663835868735594330404923636534084567099854
      15778400344354997994418419698270088123916926905054652752758194827714659 2 381 := by
    decide +kernel
  have hlarge : 1 < fieldModulus := by decide +kernel
  have hsize : fieldModulus <
      15778400344354997994418419698270088123916926905054652752758194827714659 *
        15778400344354997994418419698270088123916926905054652752758194827714659 := by
    decide +kernel
  exact h.prime
    prime_15778400344354997994418419698270088123916926905054652752758194827714659 hlarge hsize

theorem fieldModulus_mod_four : fieldModulus % 4 = 3 := by
  decide +kernel

/-- `y` is the ordinate that the encoded `x` and sign bit stand for. -/
structure IsRoot (x : ℕ) (signBit : Bool) (y : ℕ) : Prop where
  lt : y < fieldModulus
  onCurve : y ^ 2 ≡ x ^ 3 + 4 [MOD fieldModulus]
  sign : signBit = decide (fieldModulus < 2 * y)

/-- Two roots of one square agree or are opposite. -/
theorem roots_eq_or_opposite {y z : ℕ} (hy : y < fieldModulus) (hz : z < fieldModulus)
    (h : y ^ 2 ≡ z ^ 2 [MOD fieldModulus]) : y = z ∨ y + z = fieldModulus ∨ (y = 0 ∧ z = 0) := by
  have hprime := fieldModulus_prime
  have hdvd : (fieldModulus : ℤ) ∣ ((z : ℤ) - y) * (z + y) := by
    have := (Nat.modEq_iff_dvd).mp h
    push_cast at this
    convert this using 1
    ring
  generalize fieldModulus = p at *
  rcases (Nat.prime_iff_prime_int.mp hprime).dvd_or_dvd hdvd with hd | hd
  · left
    have hmod : y ≡ z [MOD p] := Nat.modEq_iff_dvd.mpr hd
    exact Nat.ModEq.eq_of_lt_of_lt hmod hy hz
  · right
    have hd' : p ∣ z + y := by exact_mod_cast hd
    obtain ⟨k, hk⟩ := hd'
    have hk2 : k < 2 := by
      by_contra hge
      have : p * 2 ≤ p * k := Nat.mul_le_mul_left p (by omega)
      omega
    rcases (show k = 0 ∨ k = 1 by omega) with rfl | rfl
    · right
      omega
    · left
      omega

/-- The sign bit tells the two roots apart. -/
theorem IsRoot.unique {x : ℕ} {signBit : Bool} {y z : ℕ} (hy : IsRoot x signBit y)
    (hz : IsRoot x signBit z) : y = z := by
  have hodd := fieldModulus_mod_four
  have hsign : decide (fieldModulus < 2 * y) = decide (fieldModulus < 2 * z) :=
    hy.sign.symm.trans hz.sign
  rw [decide_eq_decide] at hsign
  rcases roots_eq_or_opposite hy.lt hz.lt (hy.onCurve.trans hz.onCurve.symm) with h | h | h
  · exact h
  · omega
  · omega

/-! Decompression by an exponent, for a modulus that is `3` modulo `4`. -/

/-- The number whose square is the square that a root has, if there is a root. -/
def squareRoot (x : ℕ) : ℕ :=
  powMod fieldModulus 381 ((x ^ 3 + 4) % fieldModulus) ((fieldModulus + 1) / 4)

instance (x : ℕ) (signBit : Bool) (y : ℕ) : Decidable (IsRoot x signBit y) :=
  decidable_of_iff
    (y < fieldModulus ∧ y ^ 2 % fieldModulus = (x ^ 3 + 4) % fieldModulus ∧
      signBit = decide (fieldModulus < 2 * y))
    ⟨fun h => ⟨h.1, h.2.1, h.2.2⟩, fun h => ⟨h.lt, h.onCurve, h.sign⟩⟩

/-- That number or its opposite, whichever has the sign. -/
def signedRoot (x : ℕ) (signBit : Bool) : ℕ :=
  if signBit = decide (fieldModulus < 2 * squareRoot x) then squareRoot x
  else fieldModulus - squareRoot x

def decompress (x : ℕ) (signBit : Bool) : Option ℕ :=
  if IsRoot x signBit (signedRoot x signBit) then some (signedRoot x signBit) else none

theorem squareRoot_sq {x y : ℕ} (h : y ^ 2 ≡ x ^ 3 + 4 [MOD fieldModulus]) :
    squareRoot x ^ 2 ≡ y ^ 2 [MOD fieldModulus] := by
  have hfour := fieldModulus_mod_four
  have hdigits : (fieldModulus + 1) / 4 < 2 ^ 381 := by decide +kernel
  have : Fact fieldModulus.Prime := ⟨fieldModulus_prime⟩
  have hbase : squareRoot x ≡ (y ^ 2) ^ ((fieldModulus + 1) / 4) [MOD fieldModulus] := by
    rw [squareRoot, powMod_eq _ hdigits]
    apply (Nat.mod_modEq _ _).trans
    apply Nat.ModEq.pow
    exact (Nat.mod_modEq _ _).trans h.symm
  have hexp : 2 * ((fieldModulus + 1) / 4 * 2) = fieldModulus + 1 := by omega
  calc squareRoot x ^ 2 ≡ ((y ^ 2) ^ ((fieldModulus + 1) / 4)) ^ 2 [MOD fieldModulus] :=
        hbase.pow 2
    _ ≡ y ^ (fieldModulus + 1) [MOD fieldModulus] := by
        rw [← pow_mul, ← pow_mul, hexp]
    _ ≡ y ^ 2 [MOD fieldModulus] := by
        apply (ZMod.natCast_eq_natCast_iff _ _ _).mp
        push_cast
        rw [pow_succ, ZMod.pow_card, pow_two]

theorem squareRoot_lt (x : ℕ) : squareRoot x < fieldModulus := by
  have hdigits : (fieldModulus + 1) / 4 < 2 ^ 381 := by decide +kernel
  rw [squareRoot, powMod_eq _ hdigits]
  exact Nat.mod_lt _ fieldModulus_prime.pos

theorem IsRoot.eq_signedRoot {x : ℕ} {signBit : Bool} {y : ℕ} (h : IsRoot x signBit y) :
    signedRoot x signBit = y := by
  have hfour := fieldModulus_mod_four
  have hylt := h.lt
  have hlt := squareRoot_lt x
  have hsq := squareRoot_sq h.onCurve
  rw [signedRoot, h.sign]
  generalize squareRoot x = c at *
  rcases roots_eq_or_opposite hlt hylt hsq with heq | hopp | hzero
  · rw [heq, if_pos rfl]
  · rw [if_neg]
    · omega
    · rw [decide_eq_decide]
      omega
  · rw [hzero.1, hzero.2, if_pos rfl]

theorem decompress_eq_some_iff {x : ℕ} {signBit : Bool} {y : ℕ} :
    decompress x signBit = some y ↔ IsRoot x signBit y := by
  have hroot : IsRoot x signBit y → signedRoot x signBit = y := IsRoot.eq_signedRoot
  unfold decompress
  generalize signedRoot x signBit = c at *
  by_cases hc : IsRoot x signBit c
  · rw [if_pos hc, Option.some_inj]
    exact ⟨fun h => h ▸ hc, hroot⟩
  · rw [if_neg hc]
    constructor
    · intro h
      exact absurd h.symm (Option.some_ne_none y)
    · intro h
      rw [hroot h] at hc
      exact absurd h hc

end Quicknet.Contracts
