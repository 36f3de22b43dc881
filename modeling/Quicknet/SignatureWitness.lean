import Quicknet.BaseField
import Quicknet.RegistryAgreement

/-! The witness that the client computes for a compressed signature, and the
agreement of the two verification paths with it. -/
namespace Quicknet.Contracts

/-! Parsing of the signature text. -/

/-- The length of a JavaScript string: characters outside the basic plane count twice. -/
def utf16Length (text : List Char) : ℕ :=
  (text.map fun c => if c.toNat < 0x10000 then 1 else 2).sum

def HEX_CHARACTERS : List Char := "0123456789abcdefABCDEF".toList

def isHex (value : List Char) : Bool := value.all fun c => HEX_CHARACTERS.contains c

def parseCompressedSignature (signature : List Char) : Except String (List Char) :=
  let expectedLength := COMPRESSED_SIGNATURE_LENGTH * 2
  if utf16Length signature ≠ expectedLength then
    .error "Invalid compressed Quicknet signature: expected 48 bytes."
  else if !isHex signature then
    .error "Invalid compressed Quicknet signature: contains non-hex characters"
  else
    .ok ('0' :: 'x' :: signature.map Char.toLower)

def hexDigit (c : Char) : ℕ :=
  if '0' ≤ c ∧ c ≤ '9' then c.toNat - '0'.toNat
  else if 'a' ≤ c ∧ c ≤ 'f' then c.toNat - 'a'.toNat + 10
  else if 'A' ≤ c ∧ c ≤ 'F' then c.toNat - 'A'.toNat + 10
  else 0

/-- `Number.parseInt` with radix 16, on a string of hexadecimal digits. -/
def parseHex (digits : List Char) : ℕ := digits.foldl (fun acc c => acc * 16 + hexDigit c) 0

def slice (text : List Char) (start stop : ℕ) : List Char := (text.take stop).drop start

/-- The lower-case digits of a byte string. -/
def hexOf (bytes : Bytes) : List Char :=
  bytes.flatMap fun b =>
    [HEX_CHARACTERS.getD (b.toNat / 16) '0', HEX_CHARACTERS.getD (b.toNat % 16) '0']

/-! Creation of the witness. -/

/-- The points of the third-party curve implementation. -/
structure NobleG1 (Point : Type) where
  fromBytes : Bytes → Except String Point
  assertValidity : Point → Except String Unit
  /-- The compressed encoding. -/
  toBytes : Point → Bytes
  toAffine : Point → ℕ × ℕ

structure SignatureWitness where
  yHi : ℕ
  yLo : ℕ
  deriving DecidableEq

def LOW_LIMB_BITS : ℕ := 256

def LOW_LIMB_MASK : ℕ := (1 <<< LOW_LIMB_BITS) - 1

def signatureBytes (normalized : List Char) : Bytes :=
  (List.range COMPRESSED_SIGNATURE_LENGTH).map fun index =>
    let offset := 2 + index * 2
    BitVec.ofNat 8 (parseHex (slice normalized offset (offset + 2)))

def createSignatureWitness {Point : Type} (G1 : NobleG1 Point) (signature : List Char) :
    Except String SignatureWitness := do
  if signature.take 2 ≠ ['0', 'x'] then
    throw "Invalid compressed Quicknet signature: expected a 0x prefix"
  let normalized ← parseCompressedSignature (signature.drop 2)
  let bytes := signatureBytes normalized
  let firstByte := parseHex (slice normalized 2 4)
  if firstByte &&& 0xc0 ≠ 0x80 then
    throw "Invalid compressed Quicknet signature: invalid encoding flags"
  let point ← G1.fromBytes bytes
  G1.assertValidity point
  let canonicalBytes := G1.toBytes point
  if canonicalBytes.length ≠ bytes.length then
    throw "Invalid compressed Quicknet signature: noncanonical encoding"
  if canonicalBytes ≠ bytes then
    throw "Invalid compressed Quicknet signature: noncanonical encoding"
  let (_, y) := G1.toAffine point
  return ⟨y >>> LOW_LIMB_BITS, y &&& LOW_LIMB_MASK⟩

/-! What the text of a signature denotes. -/

/-- The digits denote the bytes, in either letter case. -/
inductive Spells : List Char → Bytes → Prop
  | nil : Spells [] []
  | cons {hi lo : Char} {digits : List Char} {bytes : Bytes}
      (hhi : hi ∈ HEX_CHARACTERS) (hlo : lo ∈ HEX_CHARACTERS) (rest : Spells digits bytes) :
      Spells (hi :: lo :: digits) (BitVec.ofNat 8 (hexDigit hi * 16 + hexDigit lo) :: bytes)

theorem Spells.length {digits : List Char} {bytes : Bytes} (h : Spells digits bytes) :
    digits.length = 2 * bytes.length := by
  induction h with
  | nil => rfl
  | cons _ _ _ ih =>
    simp only [List.length_cons, ih]
    omega

theorem Spells.hex {digits : List Char} {bytes : Bytes} (h : Spells digits bytes) :
    ∀ c ∈ digits, c ∈ HEX_CHARACTERS := by
  induction h with
  | nil =>
    intro c hc
    cases hc
  | cons hhi hlo _ ih =>
    intro c hc
    rcases List.mem_cons.mp hc with rfl | hc
    · exact hhi
    · rcases List.mem_cons.mp hc with rfl | hc
      · exact hlo
      · exact ih c hc

theorem hexOf_byte (b : BitVec 8) :
    HEX_CHARACTERS.getD (b.toNat / 16) '0' ∈ HEX_CHARACTERS ∧
      HEX_CHARACTERS.getD (b.toNat % 16) '0' ∈ HEX_CHARACTERS ∧
      BitVec.ofNat 8 (hexDigit (HEX_CHARACTERS.getD (b.toNat / 16) '0') * 16 +
        hexDigit (HEX_CHARACTERS.getD (b.toNat % 16) '0')) = b := by
  revert b
  decide

theorem spells_hexOf (bytes : Bytes) : Spells (hexOf bytes) bytes := by
  induction bytes with
  | nil => exact Spells.nil
  | cons b bytes ih =>
    obtain ⟨hhi, hlo, hb⟩ := hexOf_byte b
    have h := Spells.cons hhi hlo ih
    rw [hb] at h
    exact h

theorem hex_ascii : ∀ c ∈ HEX_CHARACTERS, c.toNat < 0x10000 := by
  have h : HEX_CHARACTERS.all (fun c => decide (c.toNat < 0x10000)) = true := by decide
  simpa only [List.all_eq_true, decide_eq_true_eq] using h

theorem hexDigit_toLower : ∀ c ∈ HEX_CHARACTERS, hexDigit c.toLower = hexDigit c := by
  have h : HEX_CHARACTERS.all (fun c => decide (hexDigit c.toLower = hexDigit c)) = true := by
    decide
  simpa only [List.all_eq_true, decide_eq_true_eq] using h

theorem utf16Length_hex {text : List Char} (h : ∀ c ∈ text, c ∈ HEX_CHARACTERS) :
    utf16Length text = text.length := by
  induction text with
  | nil => rfl
  | cons c text ih =>
    have hc : c.toNat < 0x10000 := hex_ascii c (h c (by simp))
    have htail := ih fun d hd => h d (by simp [hd])
    rw [utf16Length] at htail ⊢
    simp only [List.map_cons, List.sum_cons, if_pos hc, htail, List.length_cons]
    omega

theorem parseCompressedSignature_spells {digits : List Char} {bytes : Bytes}
    (h : Spells digits bytes) (hlen : bytes.length = 48) :
    parseCompressedSignature digits = .ok ('0' :: 'x' :: digits.map Char.toLower) := by
  have hsize : utf16Length digits = COMPRESSED_SIGNATURE_LENGTH * 2 := by
    rw [utf16Length_hex h.hex, h.length, hlen]
    rfl
  have hhex : isHex digits = true := by
    rw [isHex, List.all_eq_true]
    intro c hc
    rw [List.contains_iff_mem]
    exact h.hex c hc
  simp only [parseCompressedSignature, hsize, hhex, ne_eq, not_true_eq_false, if_false,
    Bool.not_true, Bool.false_eq_true]

/-- The two digits at an even offset, put in lower case, parse to the byte there. -/
theorem Spells.byte {digits : List Char} {bytes : Bytes} (h : Spells digits bytes) {i : ℕ}
    (hi : i < bytes.length) :
    BitVec.ofNat 8 (parseHex (slice (digits.map Char.toLower) (i * 2) (i * 2 + 2))) =
      bytes[i] := by
  induction h generalizing i with
  | nil => simp at hi
  | @cons a b digits bytes ha hb rest ih =>
    cases i with
    | zero =>
      have hdigits : parseHex [a.toLower, b.toLower] = hexDigit a * 16 + hexDigit b := by
        simp [parseHex, hexDigit_toLower a ha, hexDigit_toLower b hb]
      simpa [slice] using congrArg (BitVec.ofNat 8) hdigits
    | succ i =>
      have hstep : slice ((a :: b :: digits).map Char.toLower) ((i + 1) * 2) ((i + 1) * 2 + 2) =
          slice (digits.map Char.toLower) (i * 2) (i * 2 + 2) := by
        have hoff : (i + 1) * 2 = i * 2 + 2 := by omega
        simp only [slice, hoff, List.map_cons, List.take_succ_cons, List.drop_succ_cons]
      rw [hstep]
      exact ih (by simpa using hi)

theorem signatureBytes_spells {digits : List Char} {bytes : Bytes} (h : Spells digits bytes)
    (hlen : bytes.length = 48) :
    signatureBytes ('0' :: 'x' :: digits.map Char.toLower) = bytes := by
  apply List.ext_getElem
  · simp [signatureBytes, hlen, COMPRESSED_SIGNATURE_LENGTH]
  · intro i hi hi'
    rw [← h.byte hi']
    simp only [signatureBytes, List.getElem_map, List.getElem_range, slice]
    have hoff : 2 + i * 2 = i * 2 + 1 + 1 := by omega
    simp only [hoff, List.take_succ_cons, List.drop_succ_cons]

theorem hexDigit_lt : ∀ c ∈ HEX_CHARACTERS, hexDigit c < 16 := by
  have h : HEX_CHARACTERS.all (fun c => decide (hexDigit c < 16)) = true := by decide
  simpa only [List.all_eq_true, decide_eq_true_eq] using h

/-- The first byte as the client reads it, from the text. -/
theorem firstByte_spells {digits : List Char} {b : BitVec 8} {bytes : Bytes}
    (h : Spells digits (b :: bytes)) :
    parseHex (slice ('0' :: 'x' :: digits.map Char.toLower) 2 4) = b.toNat := by
  cases h with
  | @cons hi lo digits _ hhi hlo rest =>
    have hsmall := hexDigit_lt hi hhi
    have hsmall' := hexDigit_lt lo hlo
    have hdigits : parseHex [hi.toLower, lo.toLower] = hexDigit hi * 16 + hexDigit lo := by
      simp [parseHex, hexDigit_toLower hi hhi, hexDigit_toLower lo hlo]
    rw [BitVec.toNat_ofNat, Nat.mod_eq_of_lt (by omega), ← hdigits]
    simp [slice]

theorem encoding_flags (b : BitVec 8) (hge : 128 ≤ b.toNat) (hlt : b.toNat < 192) :
    b.toNat &&& 0xc0 = 0x80 := by
  revert b
  decide

/-- The flags of a canonical encoding pass the check of the client. -/
theorem decode_firstByte {b : BitVec 8} {bytes : Bytes} {d : BitVec 128 × BitVec 256 × Bool}
    (h : decodeCanonicalG1Compressed (b :: bytes) = some d) : b.toNat &&& 0xc0 = 0x80 := by
  obtain ⟨xHi, xLo, signBit⟩ := d
  obtain ⟨hlen, hhead, _, hrange⟩ := decodeCanonicalG1Compressed_eq_some_iff.mp h
  have hxHi : xHi.toNat < 2 ^ 125 := by
    have hP := P_HI_lt
    rw [fieldModulus, limbs_lt_iff, BitVec.lt_def, ← BitVec.toNat_inj] at hrange
    omega
  have hbytes : bytes.length = 47 := by simpa using hlen
  have hcons : bigEndian ((b :: bytes).take 16) =
      b.toNat * 2 ^ 120 + bigEndian (bytes.take 15) := by
    have htake : (bytes.take 15).length = 15 := by simp [hbytes]
    rw [List.take_succ_cons, bigEndian_cons, htake]
    norm_num
  have htail : bigEndian (bytes.take 15) < 2 ^ 120 := by
    have hlt := bigEndian_lt (bytes.take 15)
    have htake : (bytes.take 15).length = 15 := by simp [hbytes]
    rw [htake] at hlt
    omega
  rcases flags_cases signBit with ⟨_, hf⟩ | ⟨_, hf⟩
  · apply encoding_flags <;> omega
  · apply encoding_flags <;> omega

/-! What the proofs rely on of the code outside. -/

/-- The library decodes a canonical encoding to the curve point with the encoded
`x` and sign, and fails only where there is none. -/
structure Bls2Decodes (pre : Precompiles) : Prop where
  sound : ∀ signature xHi xLo signBit point,
    decodeCanonicalG1Compressed signature = some (xHi, xLo, signBit) →
    pre.g1UnmarshalCompressed signature = some point →
    point.xHi = xHi ∧ point.xLo = xLo ∧
      IsRoot (limbs xHi xLo) signBit (limbs point.yHi point.yLo)
  complete : ∀ signature xHi xLo signBit y,
    decodeCanonicalG1Compressed signature = some (xHi, xLo, signBit) →
    IsRoot (limbs xHi xLo) signBit y → ∃ point, pre.g1UnmarshalCompressed signature = some point

/-- The client's curve implementation does the same, finds the points of the
prime-order subgroup valid, and encodes a point canonically. -/
structure NobleDecodes {Point : Type} (G1 : NobleG1 Point) (InSubgroup : ℕ → ℕ → Prop) :
    Prop where
  sound : ∀ signature xHi xLo signBit point,
    decodeCanonicalG1Compressed signature = some (xHi, xLo, signBit) →
    G1.fromBytes signature = .ok point →
    (G1.toAffine point).1 = limbs xHi xLo ∧
      IsRoot (limbs xHi xLo) signBit (G1.toAffine point).2
  complete : ∀ signature xHi xLo signBit y,
    decodeCanonicalG1Compressed signature = some (xHi, xLo, signBit) →
    IsRoot (limbs xHi xLo) signBit y → ∃ point, G1.fromBytes signature = .ok point
  valid : ∀ point, InSubgroup (G1.toAffine point).1 (G1.toAffine point).2 →
    G1.assertValidity point = .ok ()
  encodes : ∀ point xHi xLo signBit, (G1.toAffine point).1 = limbs xHi xLo →
    limbs xHi xLo < fieldModulus → IsRoot (limbs xHi xLo) signBit (G1.toAffine point).2 →
    decodeCanonicalG1Compressed (G1.toBytes point) = some (xHi, xLo, signBit)

/-- The pairing accepts only points of the prime-order subgroup of the curve. -/
structure PairingSound (pre : Precompiles) (InSubgroup : ℕ → ℕ → Prop) : Prop where
  subgroup : ∀ round point, Accepts pre round point →
    InSubgroup (limbs point.xHi point.xLo) (limbs point.yHi point.yLo)
  onCurve : ∀ round point, Accepts pre round point →
    limbs point.yHi point.yLo ^ 2 ≡ limbs point.xHi point.xLo ^ 3 + 4 [MOD fieldModulus]
  nonzero : ∀ round point, Accepts pre round point → limbs point.yHi point.yLo ≠ 0

/-! The three implementations agree. -/

section Agreement

variable {Point : Type} {pre : Precompiles} {G1 : NobleG1 Point} {InSubgroup : ℕ → ℕ → Prop}

/-- The `y` of an accepted witness is the root that the encoding stands for. -/
theorem WitnessFits.isRoot (hpairing : PairingSound pre InSubgroup) {round : Round}
    {xHi yHi : BitVec 128} {xLo yLo : BitVec 256} {signBit : Bool}
    (h : WitnessFits xHi xLo signBit yHi yLo) (ha : Accepts pre round ⟨xHi, xLo, yHi, yLo⟩) :
    IsRoot (limbs xHi xLo) signBit (limbs yHi yLo) := by
  have hcurve := hpairing.onCurve _ _ ha
  simp only at hcurve
  exact ⟨h.inRange, hcurve, h.sign⟩

theorem IsRoot.witnessFits (hpairing : PairingSound pre InSubgroup) {round : Round}
    {xHi yHi : BitVec 128} {xLo yLo : BitVec 256} {signBit : Bool}
    (h : IsRoot (limbs xHi xLo) signBit (limbs yHi yLo))
    (ha : Accepts pre round ⟨xHi, xLo, yHi, yLo⟩) : WitnessFits xHi xLo signBit yHi yLo := by
  refine ⟨h.lt, ?_, h.sign⟩
  rintro ⟨_, _, hyHi, hyLo⟩
  apply hpairing.nonzero _ _ ha
  change limbs yHi yLo = 0
  rw [hyHi, hyLo]
  rfl

/-- The library decodes the signature of an accepted witness to that witness. -/
theorem unmarshal_of_witness (hbls2 : Bls2Decodes pre) {signature : Bytes}
    {xHi yHi : BitVec 128} {xLo yLo : BitVec 256} {signBit : Bool}
    (hd : decodeCanonicalG1Compressed signature = some (xHi, xLo, signBit))
    (hroot : IsRoot (limbs xHi xLo) signBit (limbs yHi yLo)) :
    pre.g1UnmarshalCompressed signature = some ⟨xHi, xLo, yHi, yLo⟩ := by
  obtain ⟨point, hpoint⟩ := hbls2.complete _ _ _ _ _ hd hroot
  obtain ⟨hxHi, hxLo, hroot'⟩ := hbls2.sound _ _ _ _ _ hd hpoint
  obtain ⟨hyHi, hyLo⟩ := limbs_inj (hroot'.unique hroot)
  obtain ⟨pxHi, pxLo, pyHi, pyLo⟩ := point
  simp only at hxHi hxLo hyHi hyLo
  rw [hpoint, hxHi, hxLo, hyHi, hyLo]

/-- The client computes the limbs of that root from any spelling of the signature. -/
theorem createSignatureWitness_spells (hnoble : NobleDecodes G1 InSubgroup) {signature : Bytes}
    {xHi yHi : BitVec 128} {xLo yLo : BitVec 256} {signBit : Bool}
    (hd : decodeCanonicalG1Compressed signature = some (xHi, xLo, signBit))
    (hroot : IsRoot (limbs xHi xLo) signBit (limbs yHi yLo))
    (hsub : InSubgroup (limbs xHi xLo) (limbs yHi yLo)) {digits : List Char}
    (hspells : Spells digits signature) :
    createSignatureWitness G1 ('0' :: 'x' :: digits) = .ok ⟨yHi.toNat, yLo.toNat⟩ := by
  obtain ⟨hlen, _, _, hrange⟩ := decodeCanonicalG1Compressed_eq_some_iff.mp hd
  obtain ⟨point, hpoint⟩ := hnoble.complete _ _ _ _ _ hd hroot
  obtain ⟨hx, hroot'⟩ := hnoble.sound _ _ _ _ _ hd hpoint
  have hy : (G1.toAffine point).2 = limbs yHi yLo := hroot'.unique hroot
  have hvalid : G1.assertValidity point = .ok () := by
    apply hnoble.valid
    rw [hx, hy]
    exact hsub
  have hcanonical : G1.toBytes point = signature :=
    decodeCanonicalG1Compressed_inj (hnoble.encodes _ _ _ _ hx hrange hroot') hd
  have hflags : parseHex (slice ('0' :: 'x' :: digits.map Char.toLower) 2 4) &&& 0xc0 = 0x80 := by
    cases signature with
    | nil => simp at hlen
    | cons b bytes =>
      rw [firstByte_spells hspells]
      exact decode_firstByte hd
  have hhi : limbs yHi yLo >>> LOW_LIMB_BITS = yHi.toNat := by
    have hlo := yLo.isLt
    rw [LOW_LIMB_BITS, Nat.shiftRight_eq_div_pow, limbs]
    omega
  have hlo : limbs yHi yLo &&& LOW_LIMB_MASK = yLo.toNat := by
    have hlt := yLo.isLt
    have hmask : LOW_LIMB_MASK = 2 ^ 256 - 1 := by decide
    rw [hmask, Nat.and_two_pow_sub_one_eq_mod, limbs]
    omega
  simp only [createSignatureWitness, List.take_succ_cons, List.take_zero, List.drop_succ_cons,
    List.drop_zero, ne_eq, not_true_eq_false, if_false, parseCompressedSignature_spells hspells hlen,
    signatureBytes_spells hspells hlen, hflags, hpoint, hvalid, hcanonical, hy, hhi, hlo,
    bind, Except.bind, pure, Except.pure]

/-- The compressed path verifies a signature exactly when some witness does; that
witness is unique and is what the client computes. -/
theorem witness_path_agrees (hbls2 : Bls2Decodes pre) (hnoble : NobleDecodes G1 InSubgroup)
    (hpairing : PairingSound pre InSubgroup) {gasleft gasleft' : ℕ}
    (hgas : SufficientGas gasleft) (hgas' : SufficientGas gasleft') (round : Round)
    (signature : Bytes) :
    (∀ h, verifyBeacon pre gasleft round signature = .ok (true, h) ↔
      ∃ yHi yLo, verifyBeaconWithWitness pre gasleft' round signature yHi yLo =
        .ok (true, h)) ∧
    ∀ h yHi yLo, verifyBeaconWithWitness pre gasleft' round signature yHi yLo = .ok (true, h) →
      (∀ h' yHi' yLo', verifyBeaconWithWitness pre gasleft' round signature yHi' yLo' =
        .ok (true, h') → yHi' = yHi ∧ yLo' = yLo) ∧
      (∀ digits, Spells digits signature →
        createSignatureWitness G1 ('0' :: 'x' :: digits) = .ok ⟨yHi.toNat, yLo.toNat⟩) ∧
      yHi.toNat < 2 ^ 128 ∧ yLo.toNat < 2 ^ 256 ∧
      ∃ point, pre.g1UnmarshalCompressed signature = some point ∧
        yHi.toNat * 2 ^ 256 + yLo.toNat = limbs point.yHi point.yLo := by
  refine ⟨fun h => ⟨?_, ?_⟩, ?_⟩
  · intro hok
    obtain ⟨hround, _, hh, xHi, xLo, signBit, point, hd, hpoint, ha⟩ :=
      verifyBeacon_true_iff.mp hok
    obtain ⟨hxHi, hxLo, hroot⟩ := hbls2.sound _ _ _ _ _ hd hpoint
    obtain ⟨pxHi, pxLo, pyHi, pyLo⟩ := point
    simp only at hxHi hxLo hroot
    subst hxHi hxLo
    exact ⟨pyHi, pyLo, verifyBeaconWithWitness_true_iff.mpr
      ⟨hround, hgas', hh, _, _, _, hd, hroot.witnessFits hpairing ha, ha⟩⟩
  · rintro ⟨yHi, yLo, hok⟩
    obtain ⟨hround, _, hh, xHi, xLo, signBit, hd, hfits, ha⟩ :=
      verifyBeaconWithWitness_true_iff.mp hok
    -- a witness that fits is a root, and the larger one by the sign bit
    have hpoint := unmarshal_of_witness hbls2 hd (hfits.isRoot hpairing ha)
    exact verifyBeacon_true_iff.mpr ⟨hround, hgas, hh, _, _, _, _, hd, hpoint, ha⟩
  · intro h yHi yLo hok
    obtain ⟨hround, _, hh, xHi, xLo, signBit, hd, hfits, ha⟩ :=
      verifyBeaconWithWitness_true_iff.mp hok
    have hroot := hfits.isRoot hpairing ha
    refine ⟨?_, ?_, yHi.isLt, yLo.isLt, ?_⟩
    · intro h' yHi' yLo' hok'
      obtain ⟨_, _, _, _, _, _, hd', hfits', ha'⟩ := verifyBeaconWithWitness_true_iff.mp hok'
      rw [hd, Option.some_inj, Prod.mk.injEq, Prod.mk.injEq] at hd'
      obtain ⟨rfl, rfl, rfl⟩ := hd'
      exact limbs_inj ((hfits'.isRoot hpairing ha').unique hroot)
    · intro digits hspells
      have hsub := hpairing.subgroup _ _ ha
      simp only at hsub
      exact createSignatureWitness_spells hnoble hd hroot hsub hspells
    · refine ⟨_, unmarshal_of_witness hbls2 hd hroot, ?_⟩
      simp only [limbs]

end Agreement

/-! The implementations with exponentiation as their square root, on the known
answer of round 1000. -/

theorem bigEndian_encodePacked (n value : ℕ) :
    bigEndian (encodePacked n value) = value % 256 ^ n := by
  induction n with
  | zero => simp [encodePacked, bigEndian, Nat.mod_one]
  | succ n ih =>
    have hsplit : encodePacked (n + 1) value =
        BitVec.ofNat 8 (value / 256 ^ n) :: encodePacked n value := by
      simp [encodePacked, List.range_succ]
    have hlen : (encodePacked n value).length = n := by simp [encodePacked]
    have hmod : value % 256 ^ (n + 1) = value % 256 ^ n + 256 ^ n * (value / 256 ^ n % 256) := by
      rw [pow_succ]
      exact Nat.mod_mul
    rw [hsplit, bigEndian_cons, hlen, ih, BitVec.toNat_ofNat, hmod, Nat.mul_comm]
    exact Nat.add_comm _ _

def compress (xHi : BitVec 128) (xLo : BitVec 256) (signBit : Bool) : Bytes :=
  encodePacked 16 (flags signBit + xHi.toNat) ++ encodePacked 32 xLo.toNat

theorem decode_compress {xHi : BitVec 128} {xLo : BitVec 256} {signBit : Bool}
    (h : limbs xHi xLo < fieldModulus) :
    decodeCanonicalG1Compressed (compress xHi xLo signBit) = some (xHi, xLo, signBit) := by
  have hhead : (encodePacked 16 (flags signBit + xHi.toNat)).length = 16 := by
    simp [encodePacked]
  have htail : (encodePacked 32 xLo.toNat).length = 32 := by
    simp [encodePacked]
  have hxHi : xHi.toNat < 2 ^ 125 := by
    have hP := P_HI_lt
    rw [fieldModulus, limbs_lt_iff, BitVec.lt_def, ← BitVec.toNat_inj] at h
    omega
  have hxLo := xLo.isLt
  have hflags := flags_cases signBit
  rw [decodeCanonicalG1Compressed_eq_some_iff]
  refine ⟨?_, ?_, ?_, h⟩
  · rw [compress, List.length_append, hhead, htail]
  · rw [compress, List.take_left' hhead, bigEndian_encodePacked]
    omega
  · rw [compress, List.drop_left' hhead, bigEndian_encodePacked]
    omega

/-- The library's decoder, as far as the contract relies on it. -/
def unmarshalCompressed (signature : Bytes) : Option PointG1 := do
  let (xHi, xLo, signBit) ← decodeCanonicalG1Compressed signature
  let y ← decompress (limbs xHi xLo) signBit
  return ⟨xHi, xLo, BitVec.ofNat 128 (y / 2 ^ 256), BitVec.ofNat 256 (y % 2 ^ 256)⟩

def squareRootBls2 : Precompiles := { selfTest with g1UnmarshalCompressed := unmarshalCompressed }

def SelfTestSubgroup (x y : ℕ) : Prop :=
  x = limbs selfTestPoint.xHi selfTestPoint.xLo ∧ y = limbs selfTestPoint.yHi selfTestPoint.yLo

instance (x y : ℕ) : Decidable (SelfTestSubgroup x y) := inferInstanceAs (Decidable (_ ∧ _))

/-- Points as pairs of coordinates. -/
def squareRootNoble : NobleG1 (ℕ × ℕ) where
  fromBytes signature :=
    match decodeCanonicalG1Compressed signature with
    | none => .error "invalid encoding"
    | some (xHi, xLo, signBit) =>
      match decompress (limbs xHi xLo) signBit with
      | none => .error "bad point: not on curve"
      | some y => .ok (limbs xHi xLo, y)
  assertValidity point :=
    if SelfTestSubgroup point.1 point.2 then .ok () else .error "bad point: not in subgroup"
  toBytes point :=
    compress (BitVec.ofNat 128 (point.1 / 2 ^ 256)) (BitVec.ofNat 256 (point.1 % 2 ^ 256))
      (decide (fieldModulus < 2 * point.2))
  toAffine point := point

theorem limbs_ofNat {y : ℕ} (h : y < fieldModulus) :
    limbs (BitVec.ofNat 128 (y / 2 ^ 256)) (BitVec.ofNat 256 (y % 2 ^ 256)) = y := by
  have hP : fieldModulus < 2 ^ 128 * 2 ^ 256 := by decide +kernel
  have hlt : y < 2 ^ 128 * 2 ^ 256 := h.trans hP
  have hhi : y / 2 ^ 256 < 2 ^ 128 := Nat.div_lt_of_lt_mul (by rwa [Nat.mul_comm])
  have hlo : y % 2 ^ 256 < 2 ^ 256 := Nat.mod_lt _ (by positivity)
  rw [limbs, BitVec.toNat_ofNat, BitVec.toNat_ofNat, Nat.mod_eq_of_lt hhi, Nat.mod_eq_of_lt hlo]
  exact Nat.div_add_mod' y (2 ^ 256)

theorem squareRootBls2_decodes : Bls2Decodes squareRootBls2 := by
  constructor
  · intro signature xHi xLo signBit point hd hpoint
    simp only [squareRootBls2, unmarshalCompressed, hd, Option.bind_eq_bind, Option.bind_some,
      Option.bind_eq_some_iff] at hpoint
    obtain ⟨y, hy, hpoint⟩ := hpoint
    have hroot := decompress_eq_some_iff.mp hy
    rw [← Option.some.inj hpoint]
    refine ⟨rfl, rfl, ?_⟩
    rw [limbs_ofNat hroot.lt]
    exact hroot
  · intro signature xHi xLo signBit y hd hroot
    refine ⟨⟨xHi, xLo, BitVec.ofNat 128 (y / 2 ^ 256), BitVec.ofNat 256 (y % 2 ^ 256)⟩, ?_⟩
    simp only [squareRootBls2, unmarshalCompressed, hd, Option.bind_eq_bind, Option.bind_some,
      decompress_eq_some_iff.mpr hroot, Option.pure_def]

theorem squareRootNoble_decodes : NobleDecodes squareRootNoble SelfTestSubgroup := by
  constructor
  · intro signature xHi xLo signBit point hd hpoint
    simp only [squareRootNoble, hd] at hpoint
    split at hpoint
    · cases hpoint
    · rename_i y hy
      rw [← Except.ok.inj hpoint]
      exact ⟨rfl, decompress_eq_some_iff.mp hy⟩
  · intro signature xHi xLo signBit y hd hroot
    refine ⟨(limbs xHi xLo, y), ?_⟩
    simp only [squareRootNoble, hd, decompress_eq_some_iff.mpr hroot]
  · intro point hsub
    simp only [squareRootNoble] at hsub ⊢
    rw [if_pos hsub]
  · intro point xHi xLo signBit hx hlt hroot
    simp only [squareRootNoble] at hx hroot ⊢
    have hlimbs := limbs_ofNat hlt
    obtain ⟨hhi, hlo⟩ := limbs_inj hlimbs
    rw [hx, hhi, hlo, ← hroot.sign]
    exact decode_compress hlt

theorem squareRootBls2_pairing : PairingSound squareRootBls2 SelfTestSubgroup := by
  have honly : ∀ round point, Accepts squareRootBls2 round point → point = selfTestPoint := by
    rintro round point ⟨message, _, hpairing⟩
    simp only [squareRootBls2, selfTest] at hpairing
    split at hpairing
    · rename_i hinput
      exact pairingInput_inj hinput
    · cases hpairing
  constructor
  · intro round point h
    rw [honly round point h]
    exact ⟨rfl, rfl⟩
  · intro round point h
    rw [honly round point h]
    decide +kernel
  · intro round point h
    rw [honly round point h]
    decide +kernel

theorem selfTest_witness_path :
    verifyBeacon squareRootBls2 600000 SELF_TEST_ROUND SELF_TEST_SIGNATURE =
        .ok (true, SELF_TEST_RANDOMNESS) ∧
      createSignatureWitness squareRootNoble ('0' :: 'x' :: hexOf SELF_TEST_SIGNATURE) =
        .ok ⟨SELF_TEST_Y_HI.toNat, SELF_TEST_Y_LO.toNat⟩ := by
  have hgas : SufficientGas 600000 := by
    unfold SufficientGas
    decide
  obtain ⟨hiff, hwitness⟩ := witness_path_agrees squareRootBls2_decodes squareRootNoble_decodes
    squareRootBls2_pairing hgas hgas SELF_TEST_ROUND SELF_TEST_SIGNATURE
  have hok : verifyBeaconWithWitness squareRootBls2 600000 SELF_TEST_ROUND SELF_TEST_SIGNATURE
      SELF_TEST_Y_HI SELF_TEST_Y_LO = .ok (true, SELF_TEST_RANDOMNESS) :=
    selfTest_verifyBeaconWithWitness
  refine ⟨(hiff _).mpr ⟨_, _, hok⟩, ?_⟩
  exact (hwitness _ _ _ hok).2.1 _ (spells_hexOf _)

end Quicknet.Contracts
