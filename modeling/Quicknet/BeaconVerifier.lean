import Quicknet.Library.PrimeCertificate
import Quicknet.BeaconRegistry

/-! The verifier contract. Point decoding, hashing and the pairing precompile are
parameters; encodings, limbs and the checks around them are as the contract
computes them. -/
namespace Quicknet.Contracts

/-! Byte strings as big-endian numbers. -/

def bigEndian (bytes : Bytes) : ℕ :=
  bytes.foldl (fun acc b => acc * 256 + b.toNat) 0

theorem bigEndian_foldl (acc : ℕ) (bytes : Bytes) :
    bytes.foldl (fun acc b => acc * 256 + b.toNat) acc =
      acc * 256 ^ bytes.length + bigEndian bytes := by
  induction bytes generalizing acc with
  | nil => simp [bigEndian]
  | cons b bytes ih =>
    have hb : bigEndian (b :: bytes) = b.toNat * 256 ^ bytes.length + bigEndian bytes := by
      simpa [bigEndian] using ih b.toNat
    rw [List.foldl_cons, ih, hb, List.length_cons, pow_succ]
    ring

theorem bigEndian_append (a b : Bytes) :
    bigEndian (a ++ b) = bigEndian a * 256 ^ b.length + bigEndian b := by
  rw [← bigEndian_foldl, bigEndian, List.foldl_append]
  rfl

theorem bigEndian_cons (b : BitVec 8) (bytes : Bytes) :
    bigEndian (b :: bytes) = b.toNat * 256 ^ bytes.length + bigEndian bytes := by
  have h := bigEndian_append [b] bytes
  simpa [bigEndian] using h

theorem bigEndian_lt (bytes : Bytes) : bigEndian bytes < 256 ^ bytes.length := by
  induction bytes with
  | nil => simp [bigEndian]
  | cons b bytes ih =>
    have hb : b.toNat < 256 := b.isLt
    rw [bigEndian_cons, List.length_cons, pow_succ]
    calc b.toNat * 256 ^ bytes.length + bigEndian bytes
        < b.toNat * 256 ^ bytes.length + 256 ^ bytes.length := by omega
      _ = (b.toNat + 1) * 256 ^ bytes.length := by ring
      _ ≤ 256 * 256 ^ bytes.length := Nat.mul_le_mul_right _ hb
      _ = 256 ^ bytes.length * 256 := by ring

theorem bigEndian_inj {a b : Bytes} (hlen : a.length = b.length)
    (h : bigEndian a = bigEndian b) : a = b := by
  induction a generalizing b with
  | nil => exact (List.length_eq_zero_iff.mp hlen.symm).symm
  | cons x a ih =>
    cases b with
    | nil => simp at hlen
    | cons y b =>
      have hlen' : a.length = b.length := by simpa using hlen
      rw [bigEndian_cons, bigEndian_cons, hlen'] at h
      have ha : bigEndian a < 256 ^ b.length := by
        rw [← hlen']
        exact bigEndian_lt a
      have hb := bigEndian_lt b
      have hhead : x.toNat = y.toNat := by
        have hx : (x.toNat * 256 ^ b.length + bigEndian a) / 256 ^ b.length = x.toNat := by
          rw [Nat.mul_comm, Nat.mul_add_div (by positivity), Nat.div_eq_of_lt ha, add_zero]
        have hy : (y.toNat * 256 ^ b.length + bigEndian b) / 256 ^ b.length = y.toNat := by
          rw [Nat.mul_comm, Nat.mul_add_div (by positivity), Nat.div_eq_of_lt hb, add_zero]
        rw [← hx, h, hy]
      have htail : bigEndian a = bigEndian b := by
        rw [hhead] at h
        omega
      rw [BitVec.eq_of_toNat_eq hhead, ih hlen' htail]

/-- The big-endian bytes of a number, as `abi.encodePacked` lays out an integer. -/
def encodePacked (length value : ℕ) : Bytes :=
  (List.range length).reverse.map fun i => BitVec.ofNat 8 (value / 256 ^ i)

/-- `mload` at an offset into the data of a byte string. -/
def mload (bytes : Bytes) (offset : ℕ) : BitVec 256 :=
  BitVec.ofNat 256 (bigEndian ((bytes.drop offset).take 32))

/-! Coordinates, split into 128 high and 256 low bits. -/

def limbs (hi : BitVec 128) (lo : BitVec 256) : ℕ := hi.toNat * 2 ^ 256 + lo.toNat

def P_HI : BitVec 128 := 0x1a0111ea397fe69a4b1ba7b6434bacd7

def P_LO : BitVec 256 := 0x64774b84f38512bf6730d2a0f6b0f6241eabfffeb153ffffb9feffffffffaaab

def MAX_X_HI : BitVec 128 := 0x1fffffffffffffffffffffffffffffff

/-- The base-field modulus whose limbs the contract holds as constants. -/
def fieldModulus : ℕ := limbs P_HI P_LO

theorem limbs_inj {hi hi' : BitVec 128} {lo lo' : BitVec 256}
    (h : limbs hi lo = limbs hi' lo') : hi = hi' ∧ lo = lo' := by
  have h1 := lo.isLt
  have h2 := lo'.isLt
  unfold limbs at h
  constructor
  · apply BitVec.eq_of_toNat_eq
    omega
  · apply BitVec.eq_of_toNat_eq
    omega

theorem limbs_lt_iff {hi hi' : BitVec 128} {lo lo' : BitVec 256} :
    limbs hi lo < limbs hi' lo' ↔ hi < hi' ∨ (hi = hi' ∧ lo < lo') := by
  have h1 := lo.isLt
  have h2 := lo'.isLt
  rw [BitVec.lt_def, BitVec.lt_def, BitVec.toNat_inj.symm]
  unfold limbs
  omega

/-- The comparison by which the contract rejects an out-of-range coordinate. -/
theorem limbs_lt_modulus_iff {hi : BitVec 128} {lo : BitVec 256} :
    (decide (hi > P_HI) || (hi == P_HI && decide (lo ≥ P_LO))) = false ↔
      limbs hi lo < fieldModulus := by
  rw [fieldModulus, limbs_lt_iff]
  simp only [gt_iff_lt, ge_iff_le, Bool.or_eq_false_iff, decide_eq_false_iff_not,
    Bool.and_eq_false_iff, beq_eq_false_iff_ne, ne_eq, BitVec.lt_def, BitVec.le_def,
    ← BitVec.toNat_inj]
  omega

/-! The functions of the contract. -/

inductive VerifierError
  | insufficientVerifierGas
  | invalidPairingResponse
  /-- Checked arithmetic that under- or overflows. -/
  | panic
  /-- A library call that reverts. -/
  | library
  deriving DecidableEq

structure PointG1 where
  xHi : BitVec 128
  xLo : BitVec 256
  yHi : BitVec 128
  yLo : BitVec 256
  deriving DecidableEq

/-- The library's structure has the second coefficient of a coordinate first. -/
structure PointG2 where
  x1Hi : BitVec 128
  x1Lo : BitVec 256
  x0Hi : BitVec 128
  x0Lo : BitVec 256
  y1Hi : BitVec 128
  y1Lo : BitVec 256
  y0Hi : BitVec 128
  y0Lo : BitVec 256

/-- The static call of the pairing precompile: whether it succeeded, how many
bytes it returned, and the output word. -/
structure PairingReply where
  callSuccess : Bool
  returnSize : ℕ
  out : BitVec 256
  deriving DecidableEq

/-- The code outside the contract: the library's functions, which may revert, and
two precompiles. -/
structure Precompiles where
  sha256 : Bytes → Bytes32
  hashToPoint : Bytes → Bytes → Option PointG1
  g1UnmarshalCompressed : Bytes → Option PointG1
  pairing : List (BitVec 256) → PairingReply

def SELF_TEST_ROUND : Round := 1000

def SELF_TEST_SIGNATURE : Bytes :=
  [0xb4, 0x46, 0x79, 0xb9, 0xa5, 0x9a, 0xf2, 0xec, 0x87, 0x6b, 0x1a, 0x6b, 0x1a, 0xd5, 0x2e, 0xa9,
   0xb1, 0x61, 0x5f, 0xc3, 0x98, 0x2b, 0x19, 0x57, 0x63, 0x50, 0xf9, 0x34, 0x47, 0xcb, 0x11, 0x25,
   0xe3, 0x42, 0xb7, 0x3a, 0x8d, 0xd2, 0xba, 0xcb, 0xe4, 0x7e, 0x4b, 0x6b, 0x63, 0xed, 0x5e, 0x39]

def SELF_TEST_RANDOMNESS : Bytes32 :=
  0xfe290beca10872ef2fb164d2aa4442de4566183ec51c56ff3cd603d930e54fdd

def SELF_TEST_Y_HI : BitVec 128 := 0x11f92e4521ef54f047b64b85fa98db2d

def SELF_TEST_Y_LO : BitVec 256 :=
  0x46f0f44add1f60b93f8a0dbddd63b34f238657c2d93aed18b90bddd60a01b6d2

def DST : Bytes :=
  "BLS_SIG_BLS12381G1_XMD:SHA-256_SSWU_RO_NUL_".toList.map fun c => BitVec.ofNat 8 c.toNat

def COMPRESSED_SIGNATURE_LENGTH : ℕ := 48

def PAIRING_GAS : ℕ := 500000

def PAIRING_GAS_RESERVE : ℕ := 10000

/-- The negated generator of the second group, `NEG_G2_X0_HI` to `NEG_G2_Y1_LO`. -/
def NEG_G2 : PointG2 where
  x0Hi := 0x024aa2b2f08f0a91260805272dc51051
  x0Lo := 0xc6e47ad4fa403b02b4510b647ae3d1770bac0326a805bbefd48056c8c121bdb8
  x1Hi := 0x13e02b6052719f607dacd3a088274f65
  x1Lo := 0x596bd0d09920b61ab5da61bbdc7f5049334cf11213945d57e5ac7d055d042b7e
  y0Hi := 0x0d1b3cc2c7027888be51d9ef691d77bc
  y0Lo := 0xb679afda66c73f17f9ee3837a55024f78c71363275a75d75d86bab79f74782aa
  y1Hi := 0x13fa4d4a0ad8b1ce186ed5061789213d
  y1Lo := 0x993923066dddaf1040bc3ff59f825c78df74f2d75467e25e0f55f8a00fa030ed

def publicKey : PointG2 :=
  ⟨0x03cf0f2896adee7eb8b5f01fcad39122,
   0x12c437e0073e911fb90022d3e760183c8c4b450b6a0a6c3ac6a5776a2d106451,
   0x0d1fec758c921cc22b0e17e63aaf4bcb,
   0x5ed66304de9cf809bd274ca73bab4af5a6e9c76a4bc09e76eae8991ef5ece45a,
   0x01a714f2edb74119a2f2b0d5a7c75ba9,
   0x02d163700a61bc224ededd8e63aef7be1aaf8e93d7a9718b047ccddb3eb5d68b,
   0x0e5db2b6bfbb01c867749cadffca88b3,
   0x6c24f3012ba09fc4d3022c5c37dce0f977d3adb5d183c7477c442b1f04515273⟩

def PointG1.words (p : PointG1) : List (BitVec 256) :=
  [p.xHi.setWidth 256, p.xLo, p.yHi.setWidth 256, p.yLo]

def PointG2.words (p : PointG2) : List (BitVec 256) :=
  [p.x0Hi.setWidth 256, p.x0Lo, p.x1Hi.setWidth 256, p.x1Lo,
   p.y0Hi.setWidth 256, p.y0Lo, p.y1Hi.setWidth 256, p.y1Lo]

/-- Canonicality of a compressed encoding, with the limbs of `x` and the sign bit. -/
def decodeCanonicalG1Compressed (signature : Bytes) : Option (BitVec 128 × BitVec 256 × Bool) :=
  if signature.length ≠ COMPRESSED_SIGNATURE_LENGTH then none
  else
    let wordA := mload signature 0
    let xLo := mload signature 16
    let first : BitVec 8 := (wordA >>> 248).setWidth 8
    if first &&& 0x80 == 0 || first &&& 0x40 != 0 then none
    else
      let xHi := (wordA >>> 128).setWidth 128 &&& MAX_X_HI
      if decide (xHi > P_HI) || (xHi == P_HI && decide (xLo ≥ P_LO)) then none
      else some (xHi, xLo, first &&& 0x20 != 0)

/-- Subtraction that panics below zero. -/
def checkedSub {w : ℕ} (a b : BitVec w) : Except VerifierError (BitVec w) :=
  if a < b then .error .panic else .ok (a - b)

/-- Subtraction of limbs; only the subtraction of the low limbs is unchecked. -/
def subLimbs (pHi yHi : BitVec 128) (pLo yLo : BitVec 256) :
    Except VerifierError (BitVec 128 × BitVec 256) := do
  let oppositeYHi ← checkedSub pHi yHi
  let oppositeYLo := pLo - yLo
  if yLo > pLo then
    return (← checkedSub oppositeYHi 1, oppositeYLo)
  else
    return (oppositeYHi, oppositeYLo)

/-- The limbs of `p - y`. -/
def negateY (yHi : BitVec 128) (yLo : BitVec 256) :
    Except VerifierError (BitVec 128 × BitVec 256) :=
  subLimbs P_HI yHi P_LO yLo

def requirePairingGas (gasleft : ℕ) : Except VerifierError Unit :=
  let eip150Minimum := (PAIRING_GAS * 64 + 62) / 63
  if gasleft < eip150Minimum + PAIRING_GAS_RESERVE then .error .insufficientVerifierGas
  else .ok ()

def pairingInput (signature message : PointG1) : List (BitVec 256) :=
  signature.words ++ NEG_G2.words ++ message.words ++ publicKey.words

def verifyPairing (pre : Precompiles) (gasleft : ℕ) (signature message : PointG1) :
    Except VerifierError Bool := do
  requirePairingGas gasleft
  let reply := pre.pairing (pairingInput signature message)
  if !reply.callSuccess then
    return false
  else if reply.returnSize != 32 || decide (reply.out > 1) then
    throw .invalidPairingResponse
  else
    return reply.out == 1

/-- The point that the round number hashes to. -/
def messagePoint (pre : Precompiles) (round : Round) : Option PointG1 :=
  let roundHash := pre.sha256 (encodePacked 8 round.toNat)
  pre.hashToPoint DST (encodePacked 32 roundHash.toNat)

/-- A library call: `none` reverts. -/
def library {α : Type} (x : Option α) : Except VerifierError α :=
  match x with
  | some a => .ok a
  | none => .error .library

def verifySignaturePoint (pre : Precompiles) (gasleft : ℕ) (round : Round) (signature : Bytes)
    (signaturePoint : PointG1) : Except VerifierError (Bool × Bytes32) := do
  let message ← library (messagePoint pre round)
  if !(← verifyPairing pre gasleft signaturePoint message) then
    return (false, 0)
  else
    return (true, pre.sha256 signature)

def verifyBeacon (pre : Precompiles) (gasleft : ℕ) (round : Round) (signature : Bytes) :
    Except VerifierError (Bool × Bytes32) :=
  if round = 0 then .ok (false, 0)
  else
    match decodeCanonicalG1Compressed signature with
    | none => .ok (false, 0)
    | some _ => do
      let signaturePoint ← library (pre.g1UnmarshalCompressed signature)
      verifySignaturePoint pre gasleft round signature signaturePoint

def verifyBeaconWithWitness (pre : Precompiles) (gasleft : ℕ) (round : Round)
    (signature : Bytes) (yHi : BitVec 128) (yLo : BitVec 256) :
    Except VerifierError (Bool × Bytes32) :=
  if round = 0 then .ok (false, 0)
  else
    match decodeCanonicalG1Compressed signature with
    | none => .ok (false, 0)
    | some (xHi, xLo, signBit) =>
      if decide (yHi > P_HI) || (yHi == P_HI && decide (yLo ≥ P_LO)) then .ok (false, 0)
      else if xHi == 0 && xLo == 0 && yHi == 0 && yLo == 0 then .ok (false, 0)
      else do
        let (oppositeYHi, oppositeYLo) ← negateY yHi yLo
        let largerRoot :=
          decide (yHi > oppositeYHi) || (yHi == oppositeYHi && decide (yLo > oppositeYLo))
        if signBit != largerRoot then
          return (false, 0)
        else
          verifySignaturePoint pre gasleft round signature ⟨xHi, xLo, yHi, yLo⟩

/-! What the encoding determines. The 16 bytes that hold the flags and the high
limb are separated from the 32 bytes of the low limb. -/

theorem mload_zero {signature : Bytes} (hlen : signature.length = 48) :
    (mload signature 0).toNat / 2 ^ 128 = bigEndian (signature.take 16) := by
  have hsplit : bigEndian (signature.take 32) =
      bigEndian (signature.take 16) * 256 ^ 16 + bigEndian ((signature.take 32).drop 16) := by
    have h := bigEndian_append ((signature.take 32).take 16) ((signature.take 32).drop 16)
    have hdrop : ((signature.take 32).drop 16).length = 16 := by simp [hlen]
    rwa [List.take_append_drop, hdrop, List.take_take] at h
  have hhead : bigEndian (signature.take 16) < 256 ^ 16 := by
    have h := bigEndian_lt (signature.take 16)
    rwa [List.length_take, hlen] at h
  have htail : bigEndian ((signature.take 32).drop 16) < 256 ^ 16 := by
    have h := bigEndian_lt ((signature.take 32).drop 16)
    rwa [List.length_drop, List.length_take, hlen] at h
  rw [mload, List.drop_zero, BitVec.toNat_ofNat]
  omega

theorem mload_sixteen {signature : Bytes} (hlen : signature.length = 48) :
    (mload signature 16).toNat = bigEndian (signature.drop 16) := by
  have htail : bigEndian (signature.drop 16) < 256 ^ 32 := by
    have h := bigEndian_lt (signature.drop 16)
    rwa [List.length_drop, hlen] at h
  have htake : (signature.drop 16).take 32 = signature.drop 16 := by
    apply List.take_of_length_le
    rw [List.length_drop, hlen]
  rw [mload, htake, BitVec.toNat_ofNat]
  omega

/-- The three flag bits of the first byte. -/
theorem compression_bit (b : BitVec 8) : (b &&& 0x80 == 0) = decide (b.toNat < 128) := by
  revert b
  decide

theorem infinity_bit (b : BitVec 8) : (b &&& 0x40 != 0) = decide (64 ≤ b.toNat % 128) := by
  revert b
  decide

theorem sign_bit (b : BitVec 8) : (b &&& 0x20 != 0) = decide (32 ≤ b.toNat % 64) := by
  revert b
  decide

theorem P_HI_lt : P_HI.toNat < 2 ^ 125 := by
  decide

theorem maskedX_toNat {hi : ℕ} {wordA : BitVec 256} (hword : wordA.toNat / 2 ^ 128 = hi) :
    ((wordA >>> 128).setWidth 128 &&& MAX_X_HI).toNat = hi % 2 ^ 125 := by
  have hmax : MAX_X_HI.toNat = 2 ^ 125 - 1 := by decide
  rw [BitVec.toNat_and, hmax, Nat.and_two_pow_sub_one_eq_mod, BitVec.toNat_setWidth,
    BitVec.toNat_ushiftRight, Nat.shiftRight_eq_div_pow, hword]
  omega

theorem firstByte_toNat {hi : ℕ} {wordA : BitVec 256} (hword : wordA.toNat / 2 ^ 128 = hi) :
    ((wordA >>> 248).setWidth 8 : BitVec 8).toNat = hi / 2 ^ 120 := by
  have hdiv : wordA.toNat / 2 ^ 248 = hi / 2 ^ 120 := by
    rw [← hword, Nat.div_div_eq_div_mul, ← pow_add]
  rw [BitVec.toNat_setWidth, BitVec.toNat_ushiftRight, Nat.shiftRight_eq_div_pow, hdiv]
  omega

/-- The flags of an accepted encoding: compressed, not infinity, and the sign. -/
def flags (signBit : Bool) : ℕ := 2 ^ 127 + if signBit then 2 ^ 125 else 0

theorem flags_cases (signBit : Bool) :
    (signBit = true ∧ flags signBit = 2 ^ 127 + 2 ^ 125) ∨
      (signBit = false ∧ flags signBit = 2 ^ 127) := by
  cases signBit
  · exact Or.inr ⟨rfl, rfl⟩
  · exact Or.inl ⟨rfl, rfl⟩

/-- The accepted encodings are the 48-byte strings with the compression flag, no
infinity flag, a sign bit and an `x` below the modulus. -/
theorem decodeCanonicalG1Compressed_eq_some_iff {signature : Bytes} {xHi : BitVec 128}
    {xLo : BitVec 256} {signBit : Bool} :
    decodeCanonicalG1Compressed signature = some (xHi, xLo, signBit) ↔
      signature.length = 48 ∧ bigEndian (signature.take 16) = flags signBit + xHi.toNat ∧
      bigEndian (signature.drop 16) = xLo.toNat ∧ limbs xHi xLo < fieldModulus := by
  unfold decodeCanonicalG1Compressed
  by_cases hlen : signature.length = 48
  · have hhead : bigEndian (signature.take 16) < 2 ^ 128 := by
      have h := bigEndian_lt (signature.take 16)
      rw [List.length_take, hlen, show min 16 48 = 16 from rfl] at h
      omega
    have hxLo := mload_sixteen hlen
    have hfirst := firstByte_toNat (mload_zero hlen)
    have hxHi := maskedX_toNat (mload_zero hlen)
    have hP := P_HI_lt
    simp only [COMPRESSED_SIGNATURE_LENGTH, hlen, ne_eq, not_true_eq_false, if_false,
      compression_bit, infinity_bit, sign_bit, hfirst, true_and]
    rw [← hxLo]
    generalize (mload signature 0 >>> 128).setWidth 128 &&& MAX_X_HI = X at hxHi ⊢
    generalize mload signature 16 = L
    generalize bigEndian (signature.take 16) = hi at *
    -- a coordinate below the modulus leaves the three top bits to the flags
    have hbits : limbs xHi xLo < fieldModulus → xHi.toNat < 2 ^ 125 := by
      intro h
      rw [fieldModulus, limbs_lt_iff, BitVec.lt_def, ← BitVec.toNat_inj] at h
      omega
    have hflags := flags_cases signBit
    split
    · rename_i hbad
      simp only [Bool.or_eq_true, decide_eq_true_eq] at hbad
      constructor
      · intro h
        cases h
      · rintro ⟨heq, _, hlt⟩
        have := hbits hlt
        omega
    · rename_i hgood
      simp only [Bool.or_eq_true, decide_eq_true_eq, not_or, not_lt, not_le] at hgood
      have hunique : hi = flags signBit + xHi.toNat → xHi.toNat < 2 ^ 125 → X = xHi := by
        intro heq hlt
        apply BitVec.eq_of_toNat_eq
        omega
      split
      · rename_i hrange
        have hnot : ¬ limbs X L < fieldModulus := by
          rw [← limbs_lt_modulus_iff, hrange]
          decide
        constructor
        · intro h
          cases h
        · rintro ⟨heq, hlo, hlt⟩
          have hX := hunique heq (hbits hlt)
          have hL : L = xLo := BitVec.eq_of_toNat_eq hlo
          rw [hX, hL] at hnot
          exact absurd hlt hnot
      · rename_i hrange
        have hlt : limbs X L < fieldModulus := by
          rw [← limbs_lt_modulus_iff]
          simpa using hrange
        simp only [Option.some.injEq, Prod.mk.injEq]
        constructor
        · rintro ⟨rfl, rfl, rfl⟩
          refine ⟨?_, rfl, hlt⟩
          have hsign := flags_cases (decide (32 ≤ hi / 2 ^ 120 % 64))
          simp only [decide_eq_true_eq, decide_eq_false_iff_not, not_le] at hsign
          omega
        · rintro ⟨heq, hlo, hlt'⟩
          have hx := hbits hlt'
          refine ⟨hunique heq hx, BitVec.eq_of_toNat_eq hlo, ?_⟩
          rcases hflags with ⟨hs, hf⟩ | ⟨hs, hf⟩
          · rw [hs, decide_eq_true_eq]
            omega
          · rw [hs, decide_eq_false_iff_not]
            omega
  · have hne : signature.length ≠ COMPRESSED_SIGNATURE_LENGTH := hlen
    rw [if_pos hne]
    constructor
    · intro h
      cases h
    · intro h
      exact absurd h.1 hlen

/-- A canonical encoding is determined by what it decodes to. -/
theorem decodeCanonicalG1Compressed_inj {a b : Bytes} {d : BitVec 128 × BitVec 256 × Bool}
    (ha : decodeCanonicalG1Compressed a = some d)
    (hb : decodeCanonicalG1Compressed b = some d) : a = b := by
  obtain ⟨xHi, xLo, signBit⟩ := d
  obtain ⟨halen, hahi, halo, _⟩ := decodeCanonicalG1Compressed_eq_some_iff.mp ha
  obtain ⟨hblen, hbhi, hblo, _⟩ := decodeCanonicalG1Compressed_eq_some_iff.mp hb
  have hhead : a.take 16 = b.take 16 := by
    apply bigEndian_inj
    · rw [List.length_take, List.length_take, halen, hblen]
    · rw [hahi, hbhi]
  have htail : a.drop 16 = b.drop 16 := by
    apply bigEndian_inj
    · rw [List.length_drop, List.length_drop, halen, hblen]
    · rw [halo, hblo]
  rw [← List.take_append_drop 16 a, ← List.take_append_drop 16 b, hhead, htail]

/-! The sign comparison. -/

/-- Neither checked subtraction panics when the difference is positive. -/
theorem subLimbs_spec {pHi yHi : BitVec 128} {pLo yLo : BitVec 256}
    (hy : limbs yHi yLo < limbs pHi pLo) :
    ∃ hi lo, subLimbs pHi yHi pLo yLo = .ok (hi, lo) ∧
      limbs hi lo = limbs pHi pLo - limbs yHi yLo := by
  have hlo := yLo.isLt
  have hPlo := pLo.isLt
  unfold limbs at hy
  have hle : ¬ pHi < yHi := by
    rw [BitVec.lt_def]
    omega
  have hdiff : (pHi - yHi).toNat = pHi.toNat - yHi.toNat := by
    apply BitVec.toNat_sub_of_le
    rw [BitVec.le_def]
    omega
  unfold subLimbs checkedSub
  rw [if_neg hle]
  -- a borrow takes one from the high limb, which is positive then
  by_cases hborrow : yLo > pLo
  · have hlt : pLo.toNat < yLo.toNat := BitVec.lt_def.mp hborrow
    have hone : (1 : BitVec 128).toNat = 1 := by simp
    have hpos : ¬ pHi - yHi < 1 := by
      rw [BitVec.lt_def, hdiff, hone]
      omega
    have hdec : (pHi - yHi - 1).toNat = pHi.toNat - yHi.toNat - 1 := by
      rw [BitVec.toNat_sub_of_le, hdiff, hone]
      rw [BitVec.le_def, hdiff, hone]
      omega
    have hwrap : (pLo - yLo).toNat = pLo.toNat + 2 ^ 256 - yLo.toNat := by
      rw [BitVec.toNat_sub]
      omega
    refine ⟨pHi - yHi - 1, pLo - yLo, ?_, ?_⟩
    · simp only [bind, Except.bind, pure, Except.pure, if_pos hborrow, if_neg hpos]
    · unfold limbs
      rw [hdec, hwrap]
      omega
  · have hge : yLo.toNat ≤ pLo.toNat := BitVec.not_lt.mp hborrow
    have hdiffLo : (pLo - yLo).toNat = pLo.toNat - yLo.toNat := BitVec.toNat_sub_of_le hge
    refine ⟨pHi - yHi, pLo - yLo, ?_, ?_⟩
    · simp only [bind, Except.bind, pure, Except.pure, if_neg hborrow]
    · unfold limbs
      rw [hdiff, hdiffLo]
      omega

theorem negateY_spec {yHi : BitVec 128} {yLo : BitVec 256} (hy : limbs yHi yLo < fieldModulus) :
    ∃ hi lo, negateY yHi yLo = .ok (hi, lo) ∧ limbs hi lo = fieldModulus - limbs yHi yLo :=
  subLimbs_spec hy

theorem largerRoot_eq {p : ℕ} {yHi hi : BitVec 128} {yLo lo : BitVec 256}
    (hopp : limbs hi lo = p - limbs yHi yLo) (hy : limbs yHi yLo < p) :
    (decide (yHi > hi) || (yHi == hi && decide (yLo > lo))) =
      decide (p < 2 * limbs yHi yLo) := by
  have hlt : limbs hi lo < limbs yHi yLo ↔ p < 2 * limbs yHi yLo := by
    rw [hopp]
    omega
  have hgt : (decide (yHi > hi) || (yHi == hi && decide (yLo > lo))) = true ↔
      limbs hi lo < limbs yHi yLo := by
    rw [limbs_lt_iff, Bool.or_eq_true, Bool.and_eq_true, decide_eq_true_eq, decide_eq_true_eq,
      beq_iff_eq, gt_iff_lt, gt_iff_lt, eq_comm]
  rw [Bool.eq_iff_iff, hgt, hlt, decide_eq_true_eq]

/-! When each entry point verifies. -/

def SufficientGas (gasleft : ℕ) : Prop :=
  (PAIRING_GAS * 64 + 62) / 63 + PAIRING_GAS_RESERVE ≤ gasleft

/-- The pairing precompile accepts the point as the signature of the round. -/
def Accepts (pre : Precompiles) (round : Round) (point : PointG1) : Prop :=
  ∃ message, messagePoint pre round = some message ∧
    pre.pairing (pairingInput point message) = ⟨true, 32, 1⟩

theorem verifyPairing_true_iff {pre : Precompiles} {gasleft : ℕ} {signature message : PointG1} :
    verifyPairing pre gasleft signature message = .ok true ↔
      SufficientGas gasleft ∧ pre.pairing (pairingInput signature message) = ⟨true, 32, 1⟩ := by
  unfold verifyPairing requirePairingGas SufficientGas
  by_cases hgas : gasleft < (PAIRING_GAS * 64 + 62) / 63 + PAIRING_GAS_RESERVE
  · simp only [if_pos hgas, bind, Except.bind, reduceCtorEq, false_iff, not_and]
    omega
  · simp only [if_neg hgas, bind, Except.bind]
    obtain ⟨callSuccess, returnSize, out⟩ := pre.pairing (pairingInput signature message)
    have hle : (PAIRING_GAS * 64 + 62) / 63 + PAIRING_GAS_RESERVE ≤ gasleft := by omega
    cases callSuccess
    · simp [pure, Except.pure]
    · simp only [Bool.not_true, Bool.false_eq_true, if_false, hle, true_and,
        PairingReply.mk.injEq]
      split
      · rename_i hbad
        constructor
        · intro h
          cases h
        · rintro ⟨rfl, rfl⟩
          simp at hbad
      · rename_i hgood
        simp only [bne_iff_ne, ne_eq, Bool.or_eq_true, not_or, not_not] at hgood
        simp [pure, Except.pure, hgood.1]

theorem verifySignaturePoint_true_iff {pre : Precompiles} {gasleft : ℕ} {round : Round}
    {signature : Bytes} {point : PointG1} {h : Bytes32} :
    verifySignaturePoint pre gasleft round signature point = .ok (true, h) ↔
      SufficientGas gasleft ∧ Accepts pre round point ∧ h = pre.sha256 signature := by
  unfold verifySignaturePoint library Accepts
  cases hmessage : messagePoint pre round with
  | none => simp [bind, Except.bind]
  | some message =>
    simp only [bind, Except.bind, Option.some.injEq, exists_eq_left']
    have hiff : verifyPairing pre gasleft point message = .ok true ↔ _ := verifyPairing_true_iff
    cases hpairing : verifyPairing pre gasleft point message with
    | error e =>
      rw [hpairing] at hiff
      simp only [reduceCtorEq, false_iff] at hiff
      simp only [reduceCtorEq, false_iff]
      intro hall
      exact hiff ⟨hall.1, hall.2.1⟩
    | ok b =>
      rw [hpairing] at hiff
      cases b
      · simp only [Except.ok.injEq, Bool.false_eq_true, false_iff] at hiff
        simp only [Bool.not_false, if_true, pure, Except.pure, Except.ok.injEq, Prod.mk.injEq,
          Bool.false_eq_true, false_and, false_iff]
        intro hall
        exact hiff ⟨hall.1, hall.2.1⟩
      · simp only [true_iff] at hiff
        simp [pure, Except.pure, hiff, eq_comm]

theorem verifyBeacon_true_iff {pre : Precompiles} {gasleft : ℕ} {round : Round}
    {signature : Bytes} {h : Bytes32} :
    verifyBeacon pre gasleft round signature = .ok (true, h) ↔
      round ≠ 0 ∧ SufficientGas gasleft ∧ h = pre.sha256 signature ∧
      ∃ xHi xLo signBit point,
        decodeCanonicalG1Compressed signature = some (xHi, xLo, signBit) ∧
        pre.g1UnmarshalCompressed signature = some point ∧ Accepts pre round point := by
  unfold verifyBeacon
  split
  · rename_i hzero
    simp [hzero]
  · rename_i hround
    cases hdecode : decodeCanonicalG1Compressed signature with
    | none => simp
    | some d =>
      obtain ⟨xHi, xLo, signBit⟩ := d
      cases hpoint : pre.g1UnmarshalCompressed signature with
      | none => simp [library, bind, Except.bind]
      | some point =>
        simp only [library, bind, Except.bind, verifySignaturePoint_true_iff]
        constructor
        · rintro ⟨hgas, haccepts, hh⟩
          exact ⟨hround, hgas, hh, xHi, xLo, signBit, point, rfl, rfl, haccepts⟩
        · rintro ⟨_, hgas, hh, _, _, _, point', _, hp, haccepts⟩
          cases hp
          exact ⟨hgas, haccepts, hh⟩

/-- What the witness path demands of the limbs of `y` besides the pairing. -/
structure WitnessFits (xHi : BitVec 128) (xLo : BitVec 256) (signBit : Bool) (yHi : BitVec 128)
    (yLo : BitVec 256) : Prop where
  inRange : limbs yHi yLo < fieldModulus
  notInfinity : ¬ (xHi = 0 ∧ xLo = 0 ∧ yHi = 0 ∧ yLo = 0)
  sign : signBit = decide (fieldModulus < 2 * limbs yHi yLo)

theorem verifyBeaconWithWitness_true_iff {pre : Precompiles} {gasleft : ℕ} {round : Round}
    {signature : Bytes} {yHi : BitVec 128} {yLo : BitVec 256} {h : Bytes32} :
    verifyBeaconWithWitness pre gasleft round signature yHi yLo = .ok (true, h) ↔
      round ≠ 0 ∧ SufficientGas gasleft ∧ h = pre.sha256 signature ∧
      ∃ xHi xLo signBit,
        decodeCanonicalG1Compressed signature = some (xHi, xLo, signBit) ∧
        WitnessFits xHi xLo signBit yHi yLo ∧ Accepts pre round ⟨xHi, xLo, yHi, yLo⟩ := by
  unfold verifyBeaconWithWitness
  -- the guards of the code in their order, each refusing what the right side rules out
  split
  · rename_i hzero
    simp [hzero]
  · rename_i hround
    cases hdecode : decodeCanonicalG1Compressed signature with
    | none => simp
    | some d =>
      obtain ⟨xHi, xLo, signBit⟩ := d
      simp only
      split
      · rename_i hrange
        constructor
        · intro hh
          cases hh
        · rintro ⟨_, _, _, _, _, _, hd, hfits, _⟩
          have := limbs_lt_modulus_iff.mpr hfits.inRange
          rw [hrange] at this
          cases this
      · rename_i hrange
        have hlt : limbs yHi yLo < fieldModulus := by
          rw [← limbs_lt_modulus_iff]
          simpa using hrange
        split
        · rename_i hinf
          simp only [Bool.and_eq_true, beq_iff_eq] at hinf
          constructor
          · intro hh
            cases hh
          · rintro ⟨_, _, _, _, _, _, hd, hfits, _⟩
            cases hd
            exact absurd ⟨hinf.1.1.1, hinf.1.1.2, hinf.1.2, hinf.2⟩ hfits.notInfinity
        · rename_i hinf
          simp only [Bool.and_eq_true, beq_iff_eq, not_and] at hinf
          obtain ⟨hi, lo, hneg, hopp⟩ := negateY_spec hlt
          simp only [hneg, bind, Except.bind, largerRoot_eq hopp hlt]
          split
          · rename_i hsign
            constructor
            · intro hh
              cases hh
            · rintro ⟨_, _, _, _, _, _, hd, hfits, _⟩
              cases hd
              rw [hfits.sign] at hsign
              simp at hsign
          · rename_i hsign
            rw [verifySignaturePoint_true_iff]
            constructor
            · rintro ⟨hgas, haccepts, hh⟩
              refine ⟨hround, hgas, hh, xHi, xLo, signBit, rfl, ⟨hlt, ?_, ?_⟩, haccepts⟩
              · rintro ⟨h1, h2, h3, h4⟩
                exact hinf ⟨⟨h1, h2⟩, h3⟩ h4
              · simpa using hsign
            · rintro ⟨_, hgas, hh, _, _, _, hd, _, haccepts⟩
              cases hd
              exact ⟨hgas, haccepts, hh⟩

end Quicknet.Contracts
