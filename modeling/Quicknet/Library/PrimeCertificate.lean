import Mathlib.Tactic
import Mathlib.FieldTheory.Finite.Basic

/-! Primality of large numbers from a large prime factor of the predecessor.
The powers of a certificate are computed by repeated squaring. -/
namespace PrimeCertificate

/-- `a ^ n % m` by squaring; `fuel` bounds the binary digits of `n`. -/
def powMod (m : ℕ) : ℕ → ℕ → ℕ → ℕ
  | 0, _, _ => 1 % m
  | fuel + 1, a, n =>
    let h := powMod m fuel (a * a % m) (n / 2)
    if n % 2 = 1 then a * h % m else h

theorem powMod_eq (m : ℕ) {fuel a n : ℕ} (hn : n < 2 ^ fuel) :
    powMod m fuel a n = a ^ n % m := by
  induction fuel generalizing a n with
  | zero =>
    have hzero : n = 0 := by simpa using hn
    simp [powMod, hzero]
  | succ fuel ih =>
    have hhalf : n / 2 < 2 ^ fuel := by
      rw [pow_succ] at hn
      omega
    have hsq : (a * a % m) ^ (n / 2) % m = a ^ (2 * (n / 2)) % m := by
      rw [← Nat.pow_mod, ← pow_two, ← pow_mul]
    simp only [powMod, ih hhalf, hsq]
    split
    · rename_i hodd
      have hn' : n = 2 * (n / 2) + 1 := by omega
      calc a * (a ^ (2 * (n / 2)) % m) % m = a * a ^ (2 * (n / 2)) % m := by
            rw [Nat.mul_mod_mod]
        _ = a ^ n % m := by
            conv_rhs => rw [hn', pow_succ']
    · rename_i heven
      have hn' : 2 * (n / 2) = n := by omega
      rw [hn']

/-- What a base `a` shows about a prime `q` with `n - 1 = k * q`. -/
structure Certifies (n k q a fuel : ℕ) : Prop where
  cofactor : n = k * q + 1
  digits : k * q < 2 ^ fuel
  fermat : powMod n fuel a (k * q) = 1
  coprime : Nat.gcd (powMod n fuel a k - 1) n = 1

instance (n k q a fuel : ℕ) : Decidable (Certifies n k q a fuel) :=
  decidable_of_iff
    (n = k * q + 1 ∧ k * q < 2 ^ fuel ∧ powMod n fuel a (k * q) = 1 ∧
      Nat.gcd (powMod n fuel a k - 1) n = 1)
    ⟨fun h => ⟨h.1, h.2.1, h.2.2.1, h.2.2.2⟩, fun h => ⟨h.1, h.2, h.3, h.4⟩⟩

/-- Modulo a prime factor `l` of `n`, the power `a ^ k` has order `q`. -/
theorem Certifies.dvd_pred {n k q a fuel : ℕ} (h : Certifies n k q a fuel) (hq : q.Prime)
    {l : ℕ} (hl : l.Prime) (hln : l ∣ n) : q ∣ l - 1 := by
  have : Fact l.Prime := ⟨hl⟩
  have : Fact q.Prime := ⟨hq⟩
  have hk : k < 2 ^ fuel :=
    lt_of_le_of_lt (Nat.le_mul_of_pos_right k hq.pos) h.digits
  -- modulo `l` the power has order `q`, which divides the order of the units
  have hpow : ((a : ZMod l) ^ k) ^ q = 1 := by
    have hmod : a ^ (k * q) % n = 1 := by
      rw [← powMod_eq n h.digits]
      exact h.fermat
    have hone : a ^ (k * q) ≡ 1 [MOD l] := by
      apply Nat.ModEq.of_dvd hln
      rw [Nat.ModEq, hmod, Nat.mod_eq_of_lt]
      by_contra hle
      have : n = 0 ∨ n = 1 := by omega
      rcases this with hn | hn
      · have := h.cofactor
        omega
      · rw [hn, Nat.mod_one] at hmod
        omega
    rw [← pow_mul]
    have := (ZMod.natCast_eq_natCast_iff _ _ _).mpr hone
    push_cast at this
    exact this
  -- the power is not 1, as its difference to 1 is coprime to `n`
  have hne : (a : ZMod l) ^ k ≠ 1 := by
    intro hone
    have hmod : a ^ k ≡ 1 [MOD l] := by
      apply (ZMod.natCast_eq_natCast_iff _ _ _).mp
      push_cast
      exact hone
    have hdvd : l ∣ powMod n fuel a k - 1 := by
      rw [powMod_eq n hk]
      have hred : a ^ k % n ≡ 1 [MOD l] :=
        ((Nat.mod_modEq _ n).of_dvd hln).trans hmod
      exact (Nat.modEq_iff_dvd' (Nat.pos_of_ne_zero fun hzero => by
        rw [hzero] at hred
        exact hl.one_lt.ne' (Nat.dvd_one.mp ((Nat.modEq_zero_iff_dvd).mp hred.symm)))).mp hred.symm
    have := Nat.dvd_gcd hdvd hln
    rw [h.coprime] at this
    exact hl.one_lt.ne' (Nat.dvd_one.mp this)
  have hord : orderOf ((a : ZMod l) ^ k) = q := orderOf_eq_prime hpow hne
  rw [← hord]
  apply ZMod.orderOf_dvd_card_sub_one
  intro hzero
  rw [hzero, zero_pow hq.ne_zero] at hpow
  exact zero_ne_one hpow

/-- A number is prime when all its prime factors are `1` modulo a number that
exceeds its square root. -/
theorem prime_of_dvd_pred {n f : ℕ} (hn : 1 < n)
    (hf : ∀ l, l.Prime → l ∣ n → f ∣ l - 1) (hsize : n < f * f) : n.Prime := by
  by_contra hnp
  have hprime : n.minFac.Prime := Nat.minFac_prime hn.ne'
  have hsq : n.minFac * n.minFac ≤ n := by
    rw [← pow_two]
    exact Nat.minFac_sq_le_self (by omega) hnp
  have hle : f ≤ n.minFac - 1 :=
    Nat.le_of_dvd (by have := hprime.one_lt; omega) (hf _ hprime n.minFac_dvd)
  have hlt : f * f ≤ n.minFac * n.minFac :=
    Nat.mul_le_mul (by omega) (by omega)
  omega

theorem Certifies.prime {n k q a fuel : ℕ} (h : Certifies n k q a fuel) (hq : q.Prime)
    (hn : 1 < n) (hsize : n < q * q) : n.Prime :=
  prime_of_dvd_pred hn (fun _ hl hln => h.dvd_pred hq hl hln) hsize

/-- Two prime factors of the predecessor serve where neither alone is large enough. -/
theorem prime_of_two {n k q a fuel k' q' a' fuel' : ℕ} (h : Certifies n k q a fuel)
    (h' : Certifies n k' q' a' fuel') (hq : q.Prime) (hq' : q'.Prime) (hne : q ≠ q')
    (hn : 1 < n) (hsize : n < q * q' * (q * q')) : n.Prime := by
  apply prime_of_dvd_pred hn _ hsize
  intro l hl hln
  exact Nat.Coprime.mul_dvd_of_dvd_of_dvd ((Nat.coprime_primes hq hq').mpr hne)
    (h.dvd_pred hq hl hln) (h'.dvd_pred hq' hl hln)

end PrimeCertificate
