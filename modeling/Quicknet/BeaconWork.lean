import Quicknet.JournalText

/-! The identity of the work of storing one round in one registry: `createBeaconWorkId`,
and the parts that can be read back from what it returns. -/
namespace Quicknet

open Json (Text text unit)

def MAX_UINT64 : ℕ := 2^64-1

/-- `toLowerCase`, on the units of a hex string. -/
def toLowerUnit (c : UInt16) : UInt16 := if 0x41 ≤ c ∧ c ≤ 0x5a then c + 0x20 else c

def toLowerText (t : Text) : Text := t.map toLowerUnit

def WORK_ID_PREFIX : Text := text "quicknet-round:v1:"

def beaconWorkId (chainId : ℕ) (registry : Text) (round : ℕ) : WorkId :=
  WORK_ID_PREFIX ++ (Json.decimal chainId ++ (unit ':' :: (toLowerText registry ++
    (unit ':' :: Json.decimal round))))

def createBeaconWorkId (chainId : ℤ) (registry : Text) (round : ℤ) : Except Failure WorkId :=
  if chainId ≤ 0 ∨ (MAX_SAFE_INTEGER : ℤ) < chainId ∨ (readFixedHex 20 registry).isNone = true ∨
      round ≤ 0 ∨ (MAX_UINT64 : ℤ) < round then
    .error (.typeError "Invalid beacon work identity input.")
  else
    let workId := beaconWorkId chainId.toNat registry round.toNat
    if isWorkId workId = true then .ok workId
    else .error (.typeError "Invalid beacon work identity.")

/-- The parts of an identity: up to the first colon after the prefix, the next 42 units,
and what follows the colon after these. -/
def readBeaconWork (workId : WorkId) : ℕ × Text × ℕ :=
  let parts := workId.drop WORK_ID_PREFIX.length
  let rest := (parts.dropWhile Json.isDigit).drop 1
  (Json.decimalValue (parts.takeWhile Json.isDigit), rest.take 42,
    Json.decimalValue (rest.drop 43))

section Units

/-- A unit that prints as one ASCII character. -/
def Printable (c : UInt16) : Prop := 0x20 ≤ c ∧ c < 0x7f

theorem printable_iff {c : UInt16} : Printable c ↔ 0x20 ≤ c.toNat ∧ c.toNat < 0x7f := by
  unfold Printable
  rw [UInt16.le_iff_toNat_le, UInt16.lt_iff_toNat_lt]
  rfl

theorem isWellFormed_printable {t : Text} (h : ∀ c ∈ t, Printable c) : isWellFormed t = true := by
  have hlow {c : UInt16} (hc : Printable c) : c < 0xD800 := by
    have hbound := (printable_iff.mp hc).2
    rw [UInt16.lt_iff_toNat_lt]
    show c.toNat < 0xD800
    omega
  fun_induction isWellFormed t with
  | case1 => rfl
  | case2 c => simp [hlow (h c (by simp))]
  | case3 c d rest hc ih => exact ih fun e he => h e (List.mem_cons_of_mem c he)
  | case4 c d rest hc => exact absurd (by simp [hlow (h c (by simp))]) hc

/-- Printable units of the right number are an identity. -/
theorem isWorkId_printable {t : Text} (h : ∀ c ∈ t, Printable c) (hne : t ≠ [])
    (hlen : t.length ≤ MAX_WORK_ID_LENGTH) : isWorkId t = true := by
  have hall : ∀ c ∈ t, 0x20 ≤ c ∧ (c < 0x7f ∨ 0x9f < c) :=
    fun c hc => ⟨(h c hc).1, Or.inl (h c hc).2⟩
  unfold isWorkId
  simpa [hne, hlen, isWellFormed_printable h] using hall

theorem printable_digit {c : UInt16} (h : Json.isDigit c = true) : Printable c := by
  rw [Json.isDigit, decide_eq_true_eq] at h
  rw [printable_iff]
  omega

/-- A hex digit, in either case, is a digit or a letter up to `f`. -/
theorem hexValue_isSome {c : UInt16} (h : (Json.hexValue c).isSome = true) :
    (0x30 ≤ c.toNat ∧ c.toNat ≤ 0x39) ∨ (0x41 ≤ c.toNat ∧ c.toNat ≤ 0x46) ∨
      (0x61 ≤ c.toNat ∧ c.toNat ≤ 0x66) := by
  unfold Json.hexValue at h
  split_ifs at h with h₁ h₂ h₃
  · rw [Json.isDigit, decide_eq_true_eq] at h₁
    exact Or.inl h₁
  · exact Or.inr (Or.inl h₂)
  · exact Or.inr (Or.inr h₃)
  · cases h

theorem toLowerUnit_toNat (c : UInt16) : (toLowerUnit c).toNat = c.toNat ∨
    (toLowerUnit c).toNat = c.toNat + 0x20 ∧ c.toNat ≤ 0x5a := by
  unfold toLowerUnit
  split_ifs with h
  · right
    have hlow := UInt16.le_iff_toNat_le.mp h.1
    have hhigh : c.toNat ≤ 0x5a := UInt16.le_iff_toNat_le.mp h.2
    refine ⟨?_, hhigh⟩
    rw [UInt16.toNat_add]
    show (c.toNat + 0x20) % 2^16 = _
    omega
  · exact Or.inl rfl

end Units

section Registry

theorem readHexDigits_isSome {t : Text} {n : ℕ} (h : readHexDigits t = some n) :
    ∀ c ∈ t, (Json.hexValue c).isSome = true := by
  have hfold : ∀ (t : Text) (m : ℕ),
      t.foldlM (fun n c => (Json.hexValue c).map (16*n + ·)) m = some n →
        ∀ c ∈ t, (Json.hexValue c).isSome = true := by
    intro t
    induction t with
    | nil => simp
    | cons d ds ih =>
      intro m hm c hc
      rw [List.foldlM_cons] at hm
      obtain ⟨k, hk, hrest⟩ := Option.bind_eq_some_iff.mp hm
      rcases List.mem_cons.mp hc with rfl | hc
      · obtain ⟨v, hv, -⟩ := Option.map_eq_some_iff.mp hk
        simp [hv]
      · exact ih k hrest c hc
  exact hfold t 0 h

/-- An address is 42 units, none of them a colon once its letters are small. -/
theorem registry_units {registry : Text} (h : (readFixedHex 20 registry).isSome = true) :
    registry.length = 42 ∧ ∀ c ∈ toLowerText registry, Printable c ∧ c ≠ unit ':' := by
  obtain ⟨n, hn⟩ := Option.isSome_iff_exists.mp h
  unfold readFixedHex at hn
  split_ifs at hn with hform
  obtain ⟨hlen, hprefix⟩ := hform
  refine ⟨hlen, ?_⟩
  obtain ⟨rest, hrest⟩ := hprefix
  have hdigits := readHexDigits_isSome hn
  intro c hc
  obtain ⟨d, hd, rfl⟩ := List.mem_map.mp hc
  have hcolon : (unit ':').toNat = 0x3a := rfl
  have hunits : d.toNat = 0x30 ∨ d.toNat = 0x78 ∨ (Json.hexValue d).isSome = true := by
    rw [← hrest] at hd hdigits
    rcases List.mem_append.mp hd with hd | hd
    · have hx : d = unit '0' ∨ d = unit 'x' := by simpa [text] using hd
      rcases hx with rfl | rfl
      · exact Or.inl rfl
      · exact Or.inr (Or.inl rfl)
    · exact Or.inr (Or.inr (hdigits d hd))
  have hne : (toLowerUnit d).toNat ≠ 0x3a → toLowerUnit d ≠ unit ':' := by
    intro hne heq
    rw [heq] at hne
    exact hne hcolon
  have hlower := toLowerUnit_toNat d
  have hsmall : 0x20 ≤ (toLowerUnit d).toNat ∧ (toLowerUnit d).toNat < 0x7f ∧
      (toLowerUnit d).toNat ≠ 0x3a := by
    rcases hunits with hd | hd | hd
    · omega
    · omega
    · have hvalue := hexValue_isSome hd
      omega
  exact ⟨printable_iff.mpr ⟨hsmall.1, hsmall.2.1⟩, hne hsmall.2.2⟩

end Registry

section Identity

variable {chainId chainId' : ℤ} {registry registry' : Text} {round round' : ℤ} {workId : WorkId}

/-- What the checks leave: numbers in range, and an address. -/
theorem createBeaconWorkId_ok (h : createBeaconWorkId chainId registry round = .ok workId) :
    0 < chainId ∧ chainId ≤ MAX_SAFE_INTEGER ∧ 0 < round ∧ round ≤ MAX_UINT64 ∧
      (readFixedHex 20 registry).isSome = true ∧ isWorkId workId = true ∧
      workId = beaconWorkId chainId.toNat registry round.toNat := by
  unfold createBeaconWorkId at h
  simp only at h
  split_ifs at h with hin hid
  simp only [not_or, not_le, not_lt, Option.isNone_iff_eq_none] at hin
  obtain ⟨hc, hsafe, hr, hpos, hmax⟩ := hin
  have hw := Except.ok.inj h
  exact ⟨hc, hsafe, hpos, hmax, Option.isSome_iff_ne_none.mpr hr, hw ▸ hid, hw.symm⟩

/-- The last check of the function never fails. -/
theorem isWorkId_beaconWorkId {c r : ℕ} (hc : c ≤ MAX_SAFE_INTEGER) (hr : r ≤ MAX_UINT64)
    (hregistry : (readFixedHex 20 registry).isSome = true) :
    isWorkId (beaconWorkId c registry r) = true := by
  obtain ⟨hlen, hunits⟩ := registry_units hregistry
  apply isWorkId_printable
  · intro u hu
    simp only [beaconWorkId, List.mem_append, List.mem_cons] at hu
    rcases hu with hu | hu | rfl | hu | rfl | hu
    · have hall : WORK_ID_PREFIX.all (fun c => decide (0x20 ≤ c.toNat ∧ c.toNat < 0x7f)) = true := by
        decide
      exact printable_iff.mpr (of_decide_eq_true (List.all_eq_true.mp hall u hu))
    · exact printable_digit (Json.decimal_isDigit hu)
    · exact printable_iff.mpr (by decide)
    · exact (hunits u hu).1
    · exact printable_iff.mpr (by decide)
    · exact printable_digit (Json.decimal_isDigit hu)
  · simp [beaconWorkId]
  · have hchain : (Json.decimal c).length ≤ 16 :=
      Json.decimal_length_le (by norm_num) (by unfold MAX_SAFE_INTEGER at hc; omega)
    have hround : (Json.decimal r).length ≤ 20 :=
      Json.decimal_length_le (by norm_num) (by unfold MAX_UINT64 at hr; omega)
    have hprefix : WORK_ID_PREFIX.length = 18 := rfl
    simp only [beaconWorkId, List.length_append, List.length_cons, toLowerText, List.length_map,
      hlen, hprefix, MAX_WORK_ID_LENGTH]
    omega

/-- Reading an identity gives the chain, the registry in small letters, and the round. -/
theorem readBeaconWork_beaconWorkId (c r : ℕ)
    (hregistry : (readFixedHex 20 registry).isSome = true) :
    readBeaconWork (beaconWorkId c registry r) = (c, toLowerText registry, r) := by
  have hlen : (toLowerText registry).length = 42 := by
    rw [toLowerText, List.length_map]
    exact (registry_units hregistry).1
  have hparts : (beaconWorkId c registry r).drop WORK_ID_PREFIX.length =
      Json.decimal c ++ (unit ':' :: (toLowerText registry ++ (unit ':' :: Json.decimal r))) :=
    List.drop_left
  -- the digits of the chain end at the first colon
  obtain ⟨htake, hdrop⟩ := @Json.takeWhile_digits (Json.decimal c)
    (unit ':' :: (toLowerText registry ++ (unit ':' :: Json.decimal r)))
    (fun d hd => Json.decimal_isDigit hd) (by simp; decide)
  have hround : (toLowerText registry ++ unit ':' :: Json.decimal r).drop 43 = Json.decimal r := by
    rw [List.drop_append, hlen]
    simp [List.drop_eq_nil_of_le, hlen]
  have hregistry' : (toLowerText registry ++ unit ':' :: Json.decimal r).take 42 =
      toLowerText registry := by
    rw [← hlen]
    exact List.take_left
  unfold readBeaconWork
  simp only [hparts, htake, hdrop, List.drop_succ_cons, List.drop_zero, hround, hregistry',
    Json.decimalValue_decimal]

/-- The identity is injective, up to the case of the registry's letters. -/
theorem createBeaconWorkId_inj (h : createBeaconWorkId chainId registry round = .ok workId)
    (h' : createBeaconWorkId chainId' registry' round' = .ok workId) :
    chainId = chainId' ∧ toLowerText registry = toLowerText registry' ∧ round = round' := by
  obtain ⟨hc, -, hr, -, hregistry, -, hw⟩ := createBeaconWorkId_ok h
  obtain ⟨hc', -, hr', -, hregistry', -, hw'⟩ := createBeaconWorkId_ok h'
  have hread : (chainId.toNat, toLowerText registry, round.toNat) =
      (chainId'.toNat, toLowerText registry', round'.toNat) :=
    calc (chainId.toNat, toLowerText registry, round.toNat)
      _ = readBeaconWork workId := by rw [hw, readBeaconWork_beaconWorkId _ _ hregistry]
      _ = (chainId'.toNat, toLowerText registry', round'.toNat) := by
        rw [hw', readBeaconWork_beaconWorkId _ _ hregistry']
  simp only [Prod.mk.injEq] at hread
  obtain ⟨hchain, hlower, hround⟩ := hread
  exact ⟨by omega, hlower, by omega⟩

/-- Registries that differ only in the case of their letters share their identities. -/
theorem createBeaconWorkId_lower {workId' : WorkId}
    (h : createBeaconWorkId chainId registry round = .ok workId)
    (h' : createBeaconWorkId chainId registry' round = .ok workId')
    (hlower : toLowerText registry = toLowerText registry') : workId = workId' := by
  obtain ⟨-, -, -, -, -, -, hw⟩ := createBeaconWorkId_ok h
  obtain ⟨-, -, -, -, -, -, hw'⟩ := createBeaconWorkId_ok h'
  rw [hw, hw', beaconWorkId, beaconWorkId, hlower]

end Identity

end Quicknet
