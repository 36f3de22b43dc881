import Quicknet.BaseField

/-! The limb arithmetic of the witness path, as facts about the integers that the limbs
write: the coordinate that an encoding holds, the range check and the sign check. -/
namespace Quicknet.Contracts

/-! The encoding. Its first byte carries the compression, infinity and sign bits. -/

theorem pow_bytes (n : ℕ) : (256 : ℕ) ^ n = 2 ^ (8 * n) := by
  rw [pow_mul]
  norm_num

def firstByte (signature : Bytes) : BitVec 8 := signature.headD 0

/-- The number below the three flag bits. -/
def encodedX (signature : Bytes) : ℕ := bigEndian signature % 2 ^ 381

theorem firstByte_eq {signature : Bytes} (hlen : signature.length = 48) :
    (firstByte signature).toNat = bigEndian signature / 2 ^ 376 := by
  cases signature with
  | nil => simp at hlen
  | cons b rest =>
    have hrest : rest.length = 47 := by simpa using hlen
    have hlt : bigEndian rest < 2 ^ 376 := by
      have h := bigEndian_lt rest
      rw [hrest, pow_bytes] at h
      omega
    have hsplit := bigEndian_cons b rest
    rw [hrest, pow_bytes] at hsplit
    change b.toNat = _
    omega

theorem bigEndian_split {signature : Bytes} (hlen : signature.length = 48) :
    bigEndian signature =
      bigEndian (signature.take 16) * 2 ^ 256 + bigEndian (signature.drop 16) := by
  have h := bigEndian_append (signature.take 16) (signature.drop 16)
  rwa [List.take_append_drop, List.length_drop, hlen, pow_bytes] at h

/-- The three flag bits of the first byte, by the value of the byte. -/
theorem flagBits (b : BitVec 8) :
    b.getLsbD 7 = decide (128 ≤ b.toNat) ∧ b.getLsbD 6 = decide (64 ≤ b.toNat % 128) ∧
      b.getLsbD 5 = decide (32 ≤ b.toNat % 64) := by
  revert b
  decide

/-- A decoded coordinate is the encoded number, with the encoded sign. -/
theorem decode_sound {signature : Bytes} {xHi : BitVec 128} {xLo : BitVec 256} {signBit : Bool}
    (h : decodeCanonicalG1Compressed signature = some (xHi, xLo, signBit)) :
    ((firstByte signature).getLsbD 7 = true ∧ (firstByte signature).getLsbD 6 = false ∧
      encodedX signature < fieldModulus) ∧
    limbs xHi xLo = encodedX signature ∧ signBit = (firstByte signature).getLsbD 5 := by
  obtain ⟨hlen, hhi, hlo, hlt⟩ := decodeCanonicalG1Compressed_eq_some_iff.mp h
  have hP := P_HI_lt
  have hxHi : xHi.toNat < 2 ^ 125 := by
    have hlimbs := hlt
    rw [fieldModulus, limbs_lt_iff, BitVec.lt_def, ← BitVec.toNat_inj] at hlimbs
    omega
  have hxLo := xLo.isLt
  have hsplit := bigEndian_split hlen
  have hbyte := firstByte_eq hlen
  have hx : encodedX signature = limbs xHi xLo := by
    unfold encodedX limbs
    rcases flags_cases signBit with ⟨_, hflags⟩ | ⟨_, hflags⟩ <;> omega
  obtain ⟨h7, h6, h5⟩ := flagBits (firstByte signature)
  rw [h7, h6, h5, hx]
  refine ⟨⟨?_, ?_, hlt⟩, rfl, ?_⟩
  · rw [decide_eq_true_eq]
    rcases flags_cases signBit with ⟨_, hflags⟩ | ⟨_, hflags⟩ <;> omega
  · rw [decide_eq_false_iff_not]
    rcases flags_cases signBit with ⟨_, hflags⟩ | ⟨_, hflags⟩ <;> omega
  · rcases flags_cases signBit with ⟨hsign, hflags⟩ | ⟨hsign, hflags⟩
    · rw [hsign, eq_comm, decide_eq_true_eq]
      omega
    · rw [hsign, eq_comm, decide_eq_false_iff_not]
      omega

theorem decode_complete {signature : Bytes} (hlen : signature.length = 48)
    (hcompressed : (firstByte signature).getLsbD 7 = true)
    (hfinite : (firstByte signature).getLsbD 6 = false)
    (hlt : encodedX signature < fieldModulus) :
    ∃ d, decodeCanonicalG1Compressed signature = some d := by
  have hP : fieldModulus < 2 ^ 381 := by decide +kernel
  have hX : encodedX signature = bigEndian signature % 2 ^ 381 := rfl
  have hbyte := firstByte_eq hlen
  have hb := (firstByte signature).isLt
  have hsplit := bigEndian_split hlen
  have htail : bigEndian (signature.drop 16) < 2 ^ 256 := by
    have h := bigEndian_lt (signature.drop 16)
    rwa [List.length_drop, hlen, pow_bytes] at h
  obtain ⟨h7, h6, _⟩ := flagBits (firstByte signature)
  rw [h7, decide_eq_true_eq] at hcompressed
  rw [h6, decide_eq_false_iff_not] at hfinite
  -- the limbs are the quotient and the remainder of the encoded number
  let xHi : BitVec 128 := BitVec.ofNat 128 (encodedX signature / 2 ^ 256)
  let xLo : BitVec 256 := BitVec.ofNat 256 (encodedX signature)
  have hxHi : xHi.toNat = encodedX signature / 2 ^ 256 := by
    rw [BitVec.toNat_ofNat]
    omega
  have hxLo : xLo.toNat = encodedX signature % 2 ^ 256 := BitVec.toNat_ofNat _ _
  refine ⟨(xHi, xLo, decide (32 ≤ (firstByte signature).toNat % 64)),
    decodeCanonicalG1Compressed_eq_some_iff.mpr ⟨hlen, ?_, ?_, ?_⟩⟩
  · have hsign := flags_cases (decide (32 ≤ (firstByte signature).toNat % 64))
    simp only [decide_eq_true_eq, decide_eq_false_iff_not] at hsign
    omega
  · omega
  · unfold limbs
    omega

/-! The checks of `y`, as `verifyBeaconWithWitness` makes them in its body. -/

def yOutOfRange (yHi : BitVec 128) (yLo : BitVec 256) : Bool :=
  decide (yHi > P_HI) || (yHi == P_HI && decide (yLo ≥ P_LO))

/-- Whether the sign bit names the larger root. -/
def signMatches (signBit : Bool) (yHi : BitVec 128) (yLo : BitVec 256) :
    Except VerifierError Bool := do
  let (oppositeYHi, oppositeYLo) ← negateY yHi yLo
  let largerRoot :=
    decide (yHi > oppositeYHi) || (yHi == oppositeYHi && decide (yLo > oppositeYLo))
  return signBit == largerRoot

/-- The two checks stand between the decoding and the pairing. -/
theorem verifyBeaconWithWitness_eq (pre : Precompiles) (gasleft : ℕ) {round : Round}
    {signature : Bytes} (yHi : BitVec 128) (yLo : BitVec 256) {xHi : BitVec 128}
    {xLo : BitVec 256} {signBit : Bool} (hround : round ≠ 0)
    (hdecode : decodeCanonicalG1Compressed signature = some (xHi, xLo, signBit)) :
    verifyBeaconWithWitness pre gasleft round signature yHi yLo =
      if yOutOfRange yHi yLo then .ok (false, 0)
      else if xHi == 0 && xLo == 0 && yHi == 0 && yLo == 0 then .ok (false, 0)
      else (signMatches signBit yHi yLo).bind fun accepted =>
        if accepted then verifySignaturePoint pre gasleft round signature ⟨xHi, xLo, yHi, yLo⟩
        else .ok (false, 0) := by
  unfold verifyBeaconWithWitness signMatches yOutOfRange
  rw [if_neg hround, hdecode]
  simp only
  split
  · rfl
  · split
    · rfl
    · cases negateY yHi yLo with
      | error e => rfl
      | ok opposite =>
        simp only [bind, Except.bind, pure, Except.pure, bne]
        generalize (decide (yHi > opposite.1) || yHi == opposite.1 && decide (yLo > opposite.2)) =
          largerRoot
        cases signBit <;> cases largerRoot <;> rfl

theorem yOutOfRange_iff {yHi : BitVec 128} {yLo : BitVec 256} :
    yOutOfRange yHi yLo = false ↔ limbs yHi yLo < fieldModulus :=
  limbs_lt_modulus_iff

/-- The opposite of zero is the modulus itself, so the comparison with the opposite is
stated for limbs that may reach it. -/
theorem signMatches_eq (signBit : Bool) {yHi : BitVec 128} {yLo : BitVec 256}
    (hy : limbs yHi yLo < fieldModulus) :
    signMatches signBit yHi yLo =
      .ok (signBit == decide (fieldModulus - limbs yHi yLo < limbs yHi yLo)) := by
  obtain ⟨hi, lo, hneg, hopp⟩ := negateY_spec hy
  have hlarger : decide (fieldModulus < 2 * limbs yHi yLo) =
      decide (fieldModulus - limbs yHi yLo < limbs yHi yLo) := by
    apply decide_eq_decide.mpr
    omega
  simp only [signMatches, hneg, bind, Except.bind, pure, Except.pure, largerRoot_eq hopp hy, hlarger]

/-- Of two opposite coordinates a sign bit accepts exactly one. -/
theorem signMatches_opposite (signBit : Bool) {yHi hi : BitVec 128} {yLo lo : BitVec 256}
    (hy : limbs yHi yLo < fieldModulus) (hzero : limbs yHi yLo ≠ 0)
    (hopp : limbs hi lo = fieldModulus - limbs yHi yLo) :
    (signMatches signBit yHi yLo = .ok true ∧ signMatches signBit hi lo = .ok false) ∨
      (signMatches signBit yHi yLo = .ok false ∧ signMatches signBit hi lo = .ok true) := by
  have hodd : fieldModulus % 4 = 3 := fieldModulus_mod_four
  have hlt : limbs hi lo < fieldModulus := by omega
  rw [signMatches_eq signBit hy, signMatches_eq signBit hlt, hopp]
  generalize limbs yHi yLo = y at *
  generalize fieldModulus = p at *
  have hback : p - (p - y) = y := by omega
  rw [hback]
  by_cases hlarger : p - y < y
  · have hsmaller : ¬ y < p - y := by omega
    rw [decide_eq_true hlarger, decide_eq_false hsmaller]
    cases signBit
    · exact Or.inr ⟨rfl, rfl⟩
    · exact Or.inl ⟨rfl, rfl⟩
  · have hsmaller : y < p - y := by omega
    rw [decide_eq_false hlarger, decide_eq_true hsmaller]
    cases signBit
    · exact Or.inl ⟨rfl, rfl⟩
    · exact Or.inr ⟨rfl, rfl⟩

/-- Decoding, range check, negation and sign check of the witness path, over all
encodings and all limbs. -/
theorem limb_arithmetic :
    (fieldModulus = 0x1a0111ea397fe69a4b1ba7b6434bacd764774b84f38512bf6730d2a0f6b0f6241eabfffeb153ffffb9feffffffffaaab ∧
      fieldModulus.Prime) ∧
    (∀ signature : Bytes, signature.length = 48 →
      ((∃ d, decodeCanonicalG1Compressed signature = some d) ↔
        (firstByte signature).getLsbD 7 = true ∧ (firstByte signature).getLsbD 6 = false ∧
          encodedX signature < fieldModulus) ∧
      ∀ xHi xLo signBit, decodeCanonicalG1Compressed signature = some (xHi, xLo, signBit) →
        xHi.toNat * 2 ^ 256 + xLo.toNat = encodedX signature ∧
          signBit = (firstByte signature).getLsbD 5) ∧
    (∀ yHi yLo, yOutOfRange yHi yLo = false ↔ yHi.toNat * 2 ^ 256 + yLo.toNat < fieldModulus) ∧
    (∀ yHi yLo, yOutOfRange yHi yLo = false →
      (∃ hi lo, negateY yHi yLo = .ok (hi, lo) ∧
        limbs hi lo = fieldModulus - limbs yHi yLo ∧
        (limbs yHi yLo ≠ 0 → yOutOfRange hi lo = false ∧ ∀ signBit,
          (signMatches signBit yHi yLo = .ok true ∧ signMatches signBit hi lo = .ok false) ∨
            (signMatches signBit yHi yLo = .ok false ∧ signMatches signBit hi lo = .ok true))) ∧
      ∀ signBit, signMatches signBit yHi yLo =
        .ok (signBit == decide (fieldModulus - limbs yHi yLo < limbs yHi yLo))) ∧
    (∀ pre gasleft round signature yHi yLo xHi xLo signBit, round ≠ 0 →
      decodeCanonicalG1Compressed signature = some (xHi, xLo, signBit) →
      verifyBeaconWithWitness pre gasleft round signature yHi yLo =
        if yOutOfRange yHi yLo then .ok (false, 0)
        else if xHi == 0 && xLo == 0 && yHi == 0 && yLo == 0 then .ok (false, 0)
        else (signMatches signBit yHi yLo).bind fun accepted =>
          if accepted then verifySignaturePoint pre gasleft round signature ⟨xHi, xLo, yHi, yLo⟩
          else .ok (false, 0)) := by
  refine ⟨⟨by decide +kernel, fieldModulus_prime⟩, ?_, fun _ _ => yOutOfRange_iff, ?_, ?_⟩
  · intro signature hlen
    refine ⟨⟨?_, ?_⟩, fun xHi xLo signBit h => (decode_sound h).2⟩
    · rintro ⟨⟨xHi, xLo, signBit⟩, h⟩
      exact (decode_sound h).1
    · rintro ⟨hcompressed, hfinite, hlt⟩
      exact decode_complete hlen hcompressed hfinite hlt
  · intro yHi yLo hrange
    have hy := yOutOfRange_iff.mp hrange
    obtain ⟨hi, lo, hneg, hopp⟩ := negateY_spec hy
    refine ⟨⟨hi, lo, hneg, hopp, fun hzero => ⟨?_, fun signBit => ?_⟩⟩,
      fun signBit => signMatches_eq signBit hy⟩
    · apply yOutOfRange_iff.mpr
      omega
    · exact signMatches_opposite signBit hy hzero hopp
  · intro pre gasleft round signature yHi yLo xHi xLo signBit hround hdecode
    exact verifyBeaconWithWitness_eq pre gasleft yHi yLo hround hdecode

end Quicknet.Contracts
