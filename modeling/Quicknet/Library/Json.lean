import Mathlib.Tactic
import Mathlib.Data.Nat.Digits.Lemmas
import Mathlib.Data.Int.Log

/-! JSON texts as lists of UTF-16 code units. A text is split into tokens, and the
tokens drive a machine with a stack of open arrays and objects, so neither part needs
to bound its own recursion. Printing a value and parsing the result gives the value. -/
namespace Json

abbrev Text := List UInt16

def unit (c : Char) : UInt16 := UInt16.ofNat c.toNat

def text (s : String) : Text := s.toList.map unit

/-! Natural numbers in decimal. -/

def digit (d : ℕ) : UInt16 := UInt16.ofNat (0x30 + d)

def digitValue (c : UInt16) : ℕ := c.toNat - 0x30

def isDigit (c : UInt16) : Bool := decide (0x30 ≤ c.toNat ∧ c.toNat ≤ 0x39)

def decimal (n : ℕ) : Text :=
  if n = 0 then [digit 0] else ((Nat.digits 10 n).map digit).reverse

def decimalValue (t : Text) : ℕ := Nat.ofDigits 10 (t.reverse.map digitValue)

section Decimal

theorem digit_toNat {d : ℕ} (h : d < 10) : (digit d).toNat = 0x30 + d := by
  unfold digit
  rw [UInt16.toNat_ofNat']
  omega

theorem digitValue_digit {d : ℕ} (h : d < 10) : digitValue (digit d) = d := by
  unfold digitValue
  rw [digit_toNat h]
  omega

theorem isDigit_digit {d : ℕ} (h : d < 10) : isDigit (digit d) = true := by
  unfold isDigit
  rw [digit_toNat h, decide_eq_true_eq]
  omega

theorem decimal_ne_nil (n : ℕ) : decimal n ≠ [] := by
  unfold decimal
  split_ifs with h
  · simp
  · simpa using Nat.digits_ne_nil_iff_ne_zero.mpr h

theorem decimalValue_decimal (n : ℕ) : decimalValue (decimal n) = n := by
  unfold decimal decimalValue
  split_ifs with h
  · subst h
    rfl
  · rw [List.reverse_reverse, List.map_map]
    have hid : ∀ d ∈ Nat.digits 10 n, (digitValue ∘ digit) d = id d := by
      intro d hd
      exact digitValue_digit (Nat.digits_lt_base (by norm_num) hd)
    rw [List.map_congr_left hid, List.map_id, Nat.ofDigits_digits]

theorem decimal_isDigit {n : ℕ} {c : UInt16} (hc : c ∈ decimal n) : isDigit c = true := by
  unfold decimal at hc
  split_ifs at hc
  · rw [List.mem_singleton.mp hc]
    exact isDigit_digit (by norm_num)
  · simp only [List.mem_reverse, List.mem_map] at hc
    obtain ⟨d, hd, rfl⟩ := hc
    exact isDigit_digit (Nat.digits_lt_base (by norm_num) hd)

/-- Only zero starts with the digit zero. -/
theorem decimal_head {n : ℕ} (hn : n ≠ 0) : (decimal n).head? ≠ some (digit 0) := by
  unfold decimal
  rw [if_neg hn, List.head?_reverse, List.getLast?_map]
  intro h
  obtain ⟨d, hd, hz⟩ := Option.map_eq_some_iff.mp h
  have hne : Nat.digits 10 n ≠ [] := Nat.digits_ne_nil_iff_ne_zero.mpr hn
  have hlast := Nat.getLast_digit_ne_zero 10 hn
  rw [List.getLast?_eq_some_getLast hne, Option.some.injEq] at hd
  have hlt : d < 10 := by
    rw [← hd]
    exact Nat.digits_lt_base (by norm_num) (List.getLast_mem hne)
  have hval := congrArg digitValue hz
  rw [digitValue_digit hlt, digitValue_digit (by norm_num)] at hval
  exact hlast (by rw [hd]; exact hval)

theorem decimal_zero : decimal 0 = [digit 0] := rfl

theorem decimal_length_le {n k : ℕ} (hk : 0 < k) (h : n < 10^k) : (decimal n).length ≤ k := by
  unfold decimal
  split_ifs with hn
  · exact hk
  · rw [List.length_reverse, List.length_map]
    exact (Nat.digits_length_le_iff (by norm_num) n).mpr h

end Decimal

/-! Strings. -/

def hexDigit (d : ℕ) : UInt16 := UInt16.ofNat (if d < 10 then 0x30 + d else 0x57 + d)

def hexValue (c : UInt16) : Option ℕ :=
  if isDigit c then some (c.toNat - 0x30)
  else if 0x41 ≤ c.toNat ∧ c.toNat ≤ 0x46 then some (c.toNat - 0x37)
  else if 0x61 ≤ c.toNat ∧ c.toNat ≤ 0x66 then some (c.toNat - 0x57)
  else none

def hexUnit (a b c d : UInt16) : Option UInt16 := do
  let w ← hexValue a
  let x ← hexValue b
  let y ← hexValue c
  let z ← hexValue d
  return UInt16.ofNat (w*4096 + x*256 + y*16 + z)

def quote : UInt16 := unit '"'
def backslash : UInt16 := 0x5c

/-- The unit that a one-letter escape stands for. -/
def escaped (e : UInt16) : Option UInt16 :=
  if e = quote ∨ e = backslash ∨ e = unit '/' then some e
  else if e = unit 'b' then some 8
  else if e = unit 't' then some 9
  else if e = unit 'n' then some 10
  else if e = unit 'f' then some 12
  else if e = unit 'r' then some 13
  else none

/-- The string up to its closing quote, and the rest of the text. -/
def lexString : Text → Option (Text × Text)
  | [] => none
  | c :: rest =>
    if c = quote then some ([], rest)
    else if c = backslash then
      match rest with
      | [] => none
      | e :: rest =>
        if e = unit 'u' then
          match rest with
          | w :: x :: y :: z :: rest =>
            (hexUnit w x y z).bind fun u => (lexString rest).map fun r => (u :: r.1, r.2)
          | _ => none
        else (escaped e).bind fun u => (lexString rest).map fun r => (u :: r.1, r.2)
    else if c < 0x20 then none
    else (lexString rest).map fun r => (c :: r.1, r.2)

def isLeadSurrogate (c : UInt16) : Bool := decide (0xD800 ≤ c.toNat ∧ c.toNat < 0xDC00)
def isTrailSurrogate (c : UInt16) : Bool := decide (0xDC00 ≤ c.toNat ∧ c.toNat < 0xE000)

def escapeUnit (c : UInt16) : Text :=
  [backslash, unit 'u', hexDigit (c.toNat / 4096), hexDigit (c.toNat / 256 % 16),
    hexDigit (c.toNat / 16 % 16), hexDigit (c.toNat % 16)]

/-- A unit that is not the first of a surrogate pair. -/
def quoteUnit (c : UInt16) : Text :=
  if c = quote ∨ c = backslash then [backslash, c]
  else if c = 8 then [backslash, unit 'b']
  else if c = 9 then [backslash, unit 't']
  else if c = 10 then [backslash, unit 'n']
  else if c = 12 then [backslash, unit 'f']
  else if c = 13 then [backslash, unit 'r']
  else if c < 0x20 ∨ isTrailSurrogate c = true then escapeUnit c
  else [c]

/-- Surrogate pairs are written as they are, other surrogates are escaped. -/
def quoteUnits : Text → Text
  | [] => []
  | [c] => if isLeadSurrogate c then escapeUnit c else quoteUnit c
  | c :: d :: rest =>
    if isLeadSurrogate c then
      if isTrailSurrogate d then c :: d :: quoteUnits rest
      else escapeUnit c ++ quoteUnits (d :: rest)
    else quoteUnit c ++ quoteUnits (d :: rest)

def printString (t : Text) : Text := quote :: quoteUnits t ++ [quote]

section Strings

theorem hexDigit_toNat {d : ℕ} (h : d < 16) :
    (hexDigit d).toNat = if d < 10 then 0x30 + d else 0x57 + d := by
  unfold hexDigit
  rw [UInt16.toNat_ofNat']
  split_ifs <;> omega

theorem hexValue_hexDigit {d : ℕ} (h : d < 16) : hexValue (hexDigit d) = some d := by
  unfold hexValue isDigit
  rw [hexDigit_toNat h]
  split_ifs with h₁ h₂ h₃ h₄ <;> simp at * <;> omega

theorem lexString_quote (rest : Text) : lexString (quote :: rest) = some ([], rest) := by
  rw [lexString.eq_def]
  simp only [if_true]

theorem lexString_escapeUnit (c : UInt16) (rest : Text) :
    lexString (escapeUnit c ++ rest) = (lexString rest).map fun r => (c :: r.1, r.2) := by
  have hlt := c.toNat_lt
  have hunit : hexUnit (hexDigit (c.toNat / 4096)) (hexDigit (c.toNat / 256 % 16))
      (hexDigit (c.toNat / 16 % 16)) (hexDigit (c.toNat % 16)) = some c := by
    have hsum : c.toNat / 4096 * 4096 + c.toNat / 256 % 16 * 256 + c.toNat / 16 % 16 * 16 +
        c.toNat % 16 = c.toNat := by omega
    unfold hexUnit
    rw [hexValue_hexDigit (by omega), hexValue_hexDigit (by omega), hexValue_hexDigit (by omega),
      hexValue_hexDigit (by omega)]
    simp only [bind, Option.bind, pure, hsum, UInt16.ofNat_toNat]
  unfold escapeUnit
  simp only [List.cons_append, List.nil_append]
  rw [lexString]
  have hq : backslash ≠ quote := by decide
  simp only [if_neg hq, if_true, hunit, Option.bind_some]

theorem lexString_escaped {e u : UInt16} (rest : Text) (he : e ≠ unit 'u')
    (hu : escaped e = some u) : lexString (backslash :: e :: rest) =
      (lexString rest).map fun r => (u :: r.1, r.2) := by
  have hq : backslash ≠ quote := by decide
  rw [lexString.eq_def]
  simp only [if_neg hq, if_true, if_neg he, hu, Option.bind_some]

theorem lexString_unit {c : UInt16} (rest : Text) (hq : c ≠ quote) (hb : c ≠ backslash)
    (hc : ¬ c < 0x20) : lexString (c :: rest) = (lexString rest).map fun r => (c :: r.1, r.2) := by
  rw [lexString.eq_def]
  simp only [if_neg hq, if_neg hb, if_neg hc]

theorem lexString_quoteUnit (c : UInt16) (rest : Text) :
    lexString (quoteUnit c ++ rest) = (lexString rest).map fun r => (c :: r.1, r.2) := by
  unfold quoteUnit
  split_ifs with h₁ h₂ h₃ h₄ h₅ h₆ h₇
  · rcases h₁ with rfl | rfl
    · exact lexString_escaped rest (by decide) (by decide)
    · exact lexString_escaped rest (by decide) (by decide)
  · subst h₂
    exact lexString_escaped rest (by decide) (by decide)
  · subst h₃
    exact lexString_escaped rest (by decide) (by decide)
  · subst h₄
    exact lexString_escaped rest (by decide) (by decide)
  · subst h₅
    exact lexString_escaped rest (by decide) (by decide)
  · subst h₆
    exact lexString_escaped rest (by decide) (by decide)
  · exact lexString_escapeUnit c rest
  · rw [not_or] at h₁ h₇
    exact lexString_unit rest h₁.1 h₁.2 h₇.1

/-- A surrogate needs no escape to be read back. -/
theorem lexString_surrogate {c : UInt16} (rest : Text)
    (hc : isLeadSurrogate c = true ∨ isTrailSurrogate c = true) :
    lexString (c :: rest) = (lexString rest).map fun r => (c :: r.1, r.2) := by
  have hlow : 0xD800 ≤ c.toNat := by
    rcases hc with h | h <;> simp only [isLeadSurrogate, isTrailSurrogate, decide_eq_true_eq] at h
    · exact h.1
    · omega
  apply lexString_unit
  · rintro rfl
    exact absurd hlow (by decide)
  · rintro rfl
    exact absurd hlow (by decide)
  · intro h
    have h := UInt16.lt_iff_toNat_lt.mp h
    have h20 : (0x20 : UInt16).toNat = 32 := rfl
    omega

/-- The parser reads back what the printer quotes. -/
theorem lexString_quoteUnits (t rest : Text) :
    lexString (quoteUnits t ++ quote :: rest) = some (t, rest) := by
  fun_induction quoteUnits t with
  | case1 => exact lexString_quote rest
  | case2 c h =>
    rw [lexString_escapeUnit, lexString_quote]
    rfl
  | case3 c h =>
    rw [lexString_quoteUnit, lexString_quote]
    rfl
  | case4 c d rest' hc hd ih =>
    rw [List.cons_append, List.cons_append, lexString_surrogate _ (Or.inl hc),
      lexString_surrogate _ (Or.inr hd), ih]
    rfl
  | case5 c d rest' hc hd ih =>
    rw [List.append_assoc, lexString_escapeUnit, ih]
    rfl
  | case6 c d rest' hc ih =>
    rw [List.append_assoc, lexString_quoteUnit, ih]
    rfl

end Strings

/-! Numbers. The integer part has no leading zeros, so it is a natural number; the
digits of the fraction are kept as they are written. -/

structure Number where
  negative : Bool
  integer : ℕ
  fraction : List (Fin 10)
  exponent : Option ℤ
  deriving DecidableEq

namespace Number

def ofNat (n : ℕ) : Number := ⟨false, n, [], none⟩

def value (n : Number) : ℚ :=
  (if n.negative then -1 else 1) *
    (n.integer + n.fraction.foldr (fun d rest => ((d.val : ℚ) + rest) / 10) 0) *
    10 ^ (n.exponent.getD 0)

@[simp] theorem value_ofNat (n : ℕ) : (ofNat n).value = n := by
  simp [value, ofNat]

end Number

instance neZero_ten : NeZero (10 : ℕ) := ⟨by decide⟩

def digitOf (c : UInt16) : Fin 10 := Fin.ofNat 10 (digitValue c)

def lexSign : Text → Bool × Text
  | [] => (false, [])
  | c :: rest => if c = unit '-' then (true, rest) else (false, c :: rest)

def lexInteger : Text → Option (ℕ × Text)
  | [] => none
  | c :: rest =>
    if c = digit 0 then some (0, rest)
    else if isDigit c then
      some (decimalValue (c :: rest.takeWhile isDigit), rest.dropWhile isDigit)
    else none

def lexFraction : Text → Option (List (Fin 10) × Text)
  | [] => some ([], [])
  | c :: rest =>
    if c = unit '.' then
      if rest.takeWhile isDigit = [] then none
      else some ((rest.takeWhile isDigit).map digitOf, rest.dropWhile isDigit)
    else some ([], c :: rest)

def lexExponentSign : Text → Bool × Text
  | [] => (false, [])
  | c :: rest =>
    if c = unit '-' then (true, rest) else if c = unit '+' then (false, rest) else (false, c :: rest)

def lexExponent : Text → Option (Option ℤ × Text)
  | [] => some (none, [])
  | c :: rest =>
    if c = unit 'e' ∨ c = unit 'E' then
      let (negative, rest) := lexExponentSign rest
      if rest.takeWhile isDigit = [] then none
      else
        let magnitude : ℤ := decimalValue (rest.takeWhile isDigit)
        some (some (if negative then -magnitude else magnitude), rest.dropWhile isDigit)
    else some (none, c :: rest)

def lexNumber (input : Text) : Option (Number × Text) :=
  let (negative, input) := lexSign input
  (lexInteger input).bind fun (integer, input) =>
    (lexFraction input).bind fun (fraction, input) =>
      (lexExponent input).map fun (exponent, input) =>
        (⟨negative, integer, fraction, exponent⟩, input)

def printFraction (fraction : List (Fin 10)) : Text :=
  match fraction with
  | [] => []
  | fraction => unit '.' :: fraction.map fun d => digit d.val

def printExponent : Option ℤ → Text
  | none => []
  | some e => unit 'e' :: (if e < 0 then unit '-' else unit '+') :: decimal e.natAbs

def printNumber (n : Number) : Text :=
  (if n.negative then [unit '-'] else []) ++
    (decimal n.integer ++ (printFraction n.fraction ++ printExponent n.exponent))

/-- What can follow a number does not continue it. -/
def EndsNumber (rest : Text) : Prop :=
  ∀ c ∈ rest.head?, isDigit c = false ∧ c ≠ unit '.' ∧ c ≠ unit 'e' ∧ c ≠ unit 'E'

section Numbers

theorem takeWhile_digits {ds rest : Text} (hd : ∀ c ∈ ds, isDigit c = true)
    (hr : ∀ c ∈ rest.head?, isDigit c = false) :
    (ds ++ rest).takeWhile isDigit = ds ∧ (ds ++ rest).dropWhile isDigit = rest := by
  have hrest : rest.takeWhile isDigit = [] ∧ rest.dropWhile isDigit = rest := by
    cases rest with
    | nil => exact ⟨rfl, rfl⟩
    | cons c rest =>
      have hc := hr c rfl
      exact ⟨List.takeWhile_cons_of_neg (by simp [hc]), List.dropWhile_cons_of_neg (by simp [hc])⟩
  constructor
  · rw [List.takeWhile_append_of_pos hd, hrest.1, List.append_nil]
  · rw [List.dropWhile_append_of_pos hd, hrest.2]

theorem decimal_cons (n : ℕ) : ∃ c ds, decimal n = c :: ds ∧ isDigit c = true := by
  obtain ⟨c, ds, h⟩ := List.exists_cons_of_ne_nil (decimal_ne_nil n)
  exact ⟨c, ds, h, decimal_isDigit (by rw [h]; simp)⟩

theorem lexInteger_decimal (n : ℕ) {rest : Text} (hr : ∀ c ∈ rest.head?, isDigit c = false) :
    lexInteger (decimal n ++ rest) = some (n, rest) := by
  by_cases hn : n = 0
  · subst hn
    simp [decimal_zero, lexInteger]
  · obtain ⟨c, ds, hds, hc⟩ := decimal_cons n
    have hhead := decimal_head hn
    have hall : ∀ x ∈ ds, isDigit x = true := by
      intro x hx
      exact decimal_isDigit (n := n) (by rw [hds]; simp [hx])
    have hzero : c ≠ digit 0 := by
      rintro rfl
      exact hhead (by rw [hds]; rfl)
    obtain ⟨htake, hdrop⟩ := takeWhile_digits hall hr
    rw [hds, List.cons_append, lexInteger, if_neg hzero, if_pos hc, htake, hdrop, ← hds,
      decimalValue_decimal]

theorem lexSign_decimal (n : ℕ) (rest : Text) :
    lexSign (decimal n ++ rest) = (false, decimal n ++ rest) := by
  obtain ⟨c, ds, hds, hc⟩ := decimal_cons n
  have hminus : c ≠ unit '-' := by
    rintro rfl
    exact absurd hc (by decide)
  rw [hds, List.cons_append, lexSign, if_neg hminus]

theorem digitOf_digit (d : Fin 10) : digitOf (digit d.val) = d := by
  unfold digitOf
  rw [digitValue_digit d.isLt]
  exact Fin.ofNat_val_eq_self d

theorem lexFraction_print (fraction : List (Fin 10)) {rest : Text}
    (hr : ∀ c ∈ rest.head?, isDigit c = false ∧ c ≠ unit '.') :
    lexFraction (printFraction fraction ++ rest) = some (fraction, rest) := by
  cases fraction with
  | nil =>
    cases rest with
    | nil => rfl
    | cons c rest =>
      show lexFraction (c :: rest) = _
      rw [lexFraction, if_neg (hr c rfl).2]
  | cons d ds =>
    have hall : ∀ c ∈ (d :: ds).map (fun d => digit d.val), isDigit c = true := by
      intro c hc
      obtain ⟨d, _, rfl⟩ := List.mem_map.mp hc
      exact isDigit_digit d.isLt
    obtain ⟨htake, hdrop⟩ := takeWhile_digits hall fun c hc => (hr c hc).1
    show lexFraction (unit '.' :: ((d :: ds).map (fun d => digit d.val) ++ rest)) = _
    rw [lexFraction, if_pos rfl, htake, hdrop, if_neg (by simp), List.map_map]
    have hid : ∀ x ∈ d :: ds, (digitOf ∘ fun d => digit d.val) x = id x :=
      fun x _ => digitOf_digit x
    rw [List.map_congr_left hid, List.map_id]

theorem lexExponentSign_print (e : ℤ) (rest : Text) :
    lexExponentSign ((if e < 0 then unit '-' else unit '+') :: rest) = (decide (e < 0), rest) := by
  have hplus : unit '+' ≠ unit '-' := by decide
  by_cases he : e < 0
  · simp [he, lexExponentSign]
  · simp [he, lexExponentSign, hplus]

theorem lexExponent_print (exponent : Option ℤ) {rest : Text} (hr : EndsNumber rest) :
    lexExponent (printExponent exponent ++ rest) = some (exponent, rest) := by
  cases exponent with
  | none =>
    cases rest with
    | nil => rfl
    | cons c rest =>
      obtain ⟨_, _, he, hE⟩ := hr c rfl
      show lexExponent (c :: rest) = _
      rw [lexExponent, if_neg (by simp [he, hE])]
  | some e =>
    have hall : ∀ c ∈ decimal e.natAbs, isDigit c = true := fun c hc => decimal_isDigit hc
    obtain ⟨htake, hdrop⟩ := takeWhile_digits hall fun c hc => (hr c hc).1
    show lexExponent
      (unit 'e' :: (if e < 0 then unit '-' else unit '+') :: (decimal e.natAbs ++ rest)) = _
    rw [lexExponent, if_pos (Or.inl rfl), lexExponentSign_print]
    simp only [htake, hdrop, decimal_ne_nil, if_false, decimalValue_decimal]
    by_cases he : e < 0
    · simp only [he, decide_true, if_true, Option.some.injEq, Prod.mk.injEq, and_true]
      omega
    · simp only [he, decide_false, Bool.false_eq_true, if_false, Option.some.injEq, Prod.mk.injEq,
        and_true]
      omega

/-- The parser reads back a number that something else follows. -/
theorem lexNumber_print (n : Number) {rest : Text} (hr : EndsNumber rest) :
    lexNumber (printNumber n ++ rest) = some (n, rest) := by
  have hexp : ∀ c ∈ (printExponent n.exponent ++ rest).head?,
      isDigit c = false ∧ c ≠ unit '.' := by
    cases n.exponent with
    | none => exact fun c hc => ⟨(hr c hc).1, (hr c hc).2.1⟩
    | some e =>
      intro c hc
      obtain rfl : unit 'e' = c := Option.some.inj hc
      decide
  have hfrac : ∀ c ∈ (printFraction n.fraction ++ (printExponent n.exponent ++ rest)).head?,
      isDigit c = false := by
    cases n.fraction with
    | nil => exact fun c hc => (hexp c hc).1
    | cons d ds =>
      intro c hc
      obtain rfl : unit '.' = c := Option.some.inj hc
      decide
  have hsign : lexSign (printNumber n ++ rest) = (n.negative, decimal n.integer ++
      (printFraction n.fraction ++ (printExponent n.exponent ++ rest))) := by
    unfold printNumber
    simp only [List.append_assoc]
    cases n.negative with
    | true => rfl
    | false => exact lexSign_decimal _ _
  unfold lexNumber
  rw [hsign]
  simp only
  rw [lexInteger_decimal _ hfrac, Option.bind_some, lexFraction_print _ hexp, Option.bind_some,
    lexExponent_print _ hr]
  rfl

end Numbers

/-! The double that a number is read as. -/

def roundHalfEven (q : ℚ) : ℤ :=
  let below := ⌊q⌋
  if q - below < 1/2 then below
  else if 1/2 < q - below then below + 1
  else if below % 2 = 0 then below
  else below + 1

/-- The nearest double, and `none` for an infinity. Doubles in the binade of `q` are
the multiples of one power of two, which stops falling at the subnormal ones. -/
def nearestDouble (q : ℚ) : Option ℚ :=
  let spacing : ℚ := 2 ^ max (Int.log 2 |q| - 52) (-1074)
  let rounded : ℚ := roundHalfEven (q / spacing) * spacing
  if |rounded| < 2 ^ 1024 then some rounded else none

section Doubles

theorem roundHalfEven_natCast (n : ℕ) : roundHalfEven n = n := by
  unfold roundHalfEven
  rw [Int.floor_natCast]
  simp only [Int.cast_natCast, sub_self, one_div, inv_pos, Nat.ofNat_pos, if_true]

/-- Naturals below `2^53` are doubles. -/
theorem nearestDouble_natCast {n : ℕ} (hn : n < 2^53) : nearestDouble (n : ℚ) = some (n : ℚ) := by
  have hlog : max (Int.log 2 |(n : ℚ)| - 52) (-1074) ≤ 0 := by
    have hle : Nat.log 2 n ≤ 52 := by
      by_cases h0 : n = 0
      · simp [h0]
      · exact Nat.lt_succ_iff.mp (Nat.log_lt_of_lt_pow h0 hn)
    rw [Nat.abs_cast, Int.log_natCast]
    omega
  -- so the spacing is the inverse of a natural number
  obtain ⟨k, hk⟩ := Int.eq_ofNat_of_zero_le (neg_nonneg.mpr hlog)
  have hspacing : (2 : ℚ) ^ max (Int.log 2 |(n : ℚ)| - 52) (-1074) = ((2^k : ℕ) : ℚ)⁻¹ := by
    rw [← neg_neg (max _ _), hk, zpow_neg, zpow_natCast]
    push_cast
    rfl
  have hpos : ((2^k : ℕ) : ℚ) ≠ 0 := by positivity
  unfold nearestDouble
  have hround : roundHalfEven ((n : ℚ) / ((2^k : ℕ) : ℚ)⁻¹) = ((n * 2^k : ℕ) : ℤ) := by
    rw [div_inv_eq_mul, ← Nat.cast_mul, roundHalfEven_natCast]
  have hvalue : (((n * 2^k : ℕ) : ℤ) : ℚ) * ((2^k : ℕ) : ℚ)⁻¹ = n := by
    rw [Int.cast_natCast, Nat.cast_mul, mul_inv_cancel_right₀ hpos]
  have hbound : |(n : ℚ)| < 2 ^ 1024 := by
    have hq : (n : ℚ) < 2^53 := by exact_mod_cast hn
    rw [Nat.abs_cast]
    exact hq.trans_le (pow_le_pow_right₀ (by norm_num) (by norm_num))
  simp only [hspacing, hround, hvalue, hbound, if_true]

end Doubles

/-! Tokens. -/

inductive Token
  | openObject
  | closeObject
  | openArray
  | closeArray
  | colon
  | comma
  | null
  | bool (b : Bool)
  | number (n : Number)
  | string (t : Text)
  deriving DecidableEq

def isSpace (c : UInt16) : Bool := c == 0x20 || c == 0x09 || c == 0x0a || c == 0x0d

/-- The rest of a text after a word that it starts with. -/
def afterWord (word input : Text) : Option Text :=
  if word <+: input then some (input.drop word.length) else none

def punctuation (c : UInt16) : Option Token :=
  if c = unit '{' then some .openObject
  else if c = unit '}' then some .closeObject
  else if c = unit '[' then some .openArray
  else if c = unit ']' then some .closeArray
  else if c = unit ':' then some .colon
  else if c = unit ',' then some .comma
  else none

def lexWord (input : Text) : Option (Token × Text) :=
  match afterWord (text "null") input with
  | some rest => some (.null, rest)
  | none =>
    match afterWord (text "true") input with
    | some rest => some (.bool true, rest)
    | none => (afterWord (text "false") input).map fun rest => (.bool false, rest)

/-- The first token of a text that does not start with a space. -/
def lexToken (c : UInt16) (rest : Text) : Option (Token × Text) :=
  match punctuation c with
  | some t => some (t, rest)
  | none =>
    if c = quote then (lexString rest).map fun r => (.string r.1, r.2)
    else
      match lexWord (c :: rest) with
      | some r => some r
      | none => (lexNumber (c :: rest)).map fun r => (.number r.1, r.2)

/-- The tokens of a text. Every token takes a unit at least, so as many steps as the
text has units are enough. -/
def lexTokens : ℕ → Text → Option (List Token)
  | _, [] => some []
  | 0, _ :: _ => none
  | n+1, c :: rest =>
    if isSpace c then lexTokens n rest
    else (lexToken c rest).bind fun r => (lexTokens n r.2).map fun ts => r.1 :: ts

namespace Token

def print : Token → Text
  | .openObject => [unit '{']
  | .closeObject => [unit '}']
  | .openArray => [unit '[']
  | .closeArray => [unit ']']
  | .colon => [unit ':']
  | .comma => [unit ',']
  | .null => text "null"
  | .bool true => text "true"
  | .bool false => text "false"
  | .number n => printNumber n
  | .string t => printString t

def isNumber : Token → Bool
  | .number _ => true
  | _ => false

end Token

/-- No number stands directly before another. -/
def Separated (ts : List Token) : Prop :=
  ts.IsChain fun a b => ¬ (a.isNumber = true ∧ b.isNumber = true)

section Tokens

theorem printNumber_cons (n : Number) : ∃ c cs, printNumber n = c :: cs ∧
    (c = unit '-' ∨ isDigit c = true) := by
  obtain ⟨c, ds, hds, hc⟩ := decimal_cons n.integer
  unfold printNumber
  cases n.negative with
  | true => exact ⟨unit '-', _, rfl, Or.inl rfl⟩
  | false => exact ⟨c, _, by rw [hds]; rfl, Or.inr hc⟩

theorem Token.print_ne_nil (t : Token) : t.print ≠ [] := by
  cases t with
  | bool b => cases b <;> decide
  | number n =>
    obtain ⟨c, cs, h, _⟩ := printNumber_cons n
    rw [Token.print, h]
    simp
  | string t => simp [Token.print, printString]
  | _ => decide

/-- A token that is no number does not continue one. -/
theorem Token.endsNumber {t : Token} (ht : t.isNumber = false) (rest : Text) :
    EndsNumber (t.print ++ rest) := by
  have hone {c : UInt16} {u : Text} (hp : t.print = c :: u)
      (hc : isDigit c = false ∧ c ≠ unit '.' ∧ c ≠ unit 'e' ∧ c ≠ unit 'E') :
      EndsNumber (t.print ++ rest) := by
    intro d hd
    rw [hp] at hd
    obtain rfl : c = d := Option.some.inj hd
    exact hc
  cases t with
  | number n => cases ht
  | bool b =>
    cases b with
    | true => exact hone (c := unit 't') (u := text "rue") (by decide) (by decide)
    | false => exact hone (c := unit 'f') (u := text "alse") (by decide) (by decide)
  | null => exact hone (c := unit 'n') (u := text "ull") (by decide) (by decide)
  | string t => exact hone (c := quote) rfl (by decide)
  | openObject => exact hone (c := unit '{') rfl (by decide)
  | closeObject => exact hone (c := unit '}') rfl (by decide)
  | openArray => exact hone (c := unit '[') rfl (by decide)
  | closeArray => exact hone (c := unit ']') rfl (by decide)
  | colon => exact hone (c := unit ':') rfl (by decide)
  | comma => exact hone (c := unit ',') rfl (by decide)

theorem afterWord_append (word rest : Text) : afterWord word (word ++ rest) = some rest := by
  unfold afterWord
  rw [if_pos (List.prefix_append word rest), List.drop_left]

/-- A word is told from the others by its first unit. -/
theorem afterWord_of_head {c d : UInt16} {w rest : Text} (h : c ≠ d) :
    afterWord (c :: w) (d :: rest) = none := by
  unfold afterWord
  rw [if_neg]
  intro hp
  exact h (List.cons_prefix_cons.mp hp).1

theorem lexToken_punctuation {c : UInt16} {t : Token} (rest : Text)
    (hc : punctuation c = some t) : lexToken c rest = some (t, rest) := by
  unfold lexToken
  rw [hc]

theorem lexToken_word {c : UInt16} {cs : Text} {r : Token × Text} (hc : punctuation c = none)
    (hq : c ≠ quote) (h : lexWord (c :: cs) = some r) : lexToken c cs = some r := by
  unfold lexToken
  rw [hc]
  simp only [if_neg hq, h]

/-- The first token of what a token prints is that token. -/
theorem lexToken_print (t : Token) {rest : Text} (hr : t.isNumber = true → EndsNumber rest) :
    ∃ c cs, t.print ++ rest = c :: cs ∧ isSpace c = false ∧ lexToken c cs = some (t, rest) := by
  cases t with
  | openObject => exact ⟨unit '{', rest, rfl, by decide, lexToken_punctuation rest (by decide)⟩
  | closeObject => exact ⟨unit '}', rest, rfl, by decide, lexToken_punctuation rest (by decide)⟩
  | openArray => exact ⟨unit '[', rest, rfl, by decide, lexToken_punctuation rest (by decide)⟩
  | closeArray => exact ⟨unit ']', rest, rfl, by decide, lexToken_punctuation rest (by decide)⟩
  | colon => exact ⟨unit ':', rest, rfl, by decide, lexToken_punctuation rest (by decide)⟩
  | comma => exact ⟨unit ',', rest, rfl, by decide, lexToken_punctuation rest (by decide)⟩
  | string s =>
    refine ⟨quote, quoteUnits s ++ quote :: rest, by simp [Token.print, printString], by decide, ?_⟩
    have hp : punctuation quote = none := by decide
    unfold lexToken
    rw [hp]
    simp only [if_true, lexString_quoteUnits, Option.map_some]
  | null =>
    refine ⟨unit 'n', text "ull" ++ rest, rfl, by decide, lexToken_word (by decide) (by decide) ?_⟩
    have hword : afterWord (text "null") (unit 'n' :: (text "ull" ++ rest)) = some rest :=
      afterWord_append (text "null") rest
    unfold lexWord
    rw [hword]
  | bool b =>
    have hnull {c : UInt16} {cs : Text} (hc : unit 'n' ≠ c) :
        afterWord (text "null") (c :: cs) = none := afterWord_of_head (w := text "ull") hc
    have htrue {c : UInt16} {cs : Text} (hc : unit 't' ≠ c) :
        afterWord (text "true") (c :: cs) = none := afterWord_of_head (w := text "rue") hc
    cases b with
    | true =>
      refine ⟨unit 't', text "rue" ++ rest, rfl, by decide,
        lexToken_word (by decide) (by decide) ?_⟩
      have hword : afterWord (text "true") (unit 't' :: (text "rue" ++ rest)) = some rest :=
        afterWord_append (text "true") rest
      unfold lexWord
      rw [hnull (by decide), hword]
    | false =>
      refine ⟨unit 'f', text "alse" ++ rest, rfl, by decide,
        lexToken_word (by decide) (by decide) ?_⟩
      have hword : afterWord (text "false") (unit 'f' :: (text "alse" ++ rest)) = some rest :=
        afterWord_append (text "false") rest
      unfold lexWord
      rw [hnull (by decide), htrue (by decide), hword]
      rfl
  | number n =>
    obtain ⟨c, cs, hp, hc⟩ := printNumber_cons n
    -- neither a digit nor a minus sign starts another token
    have hne (d : UInt16) (hd : isDigit d = false) (hm : d ≠ unit '-') : d ≠ c := by
      rintro rfl
      rcases hc with h | h
      · exact hm h
      · rw [hd] at h
        cases h
    have hpunct : punctuation c = none := by
      unfold punctuation
      rw [if_neg (hne _ (by decide) (by decide)).symm, if_neg (hne _ (by decide) (by decide)).symm,
        if_neg (hne _ (by decide) (by decide)).symm, if_neg (hne _ (by decide) (by decide)).symm,
        if_neg (hne _ (by decide) (by decide)).symm, if_neg (hne _ (by decide) (by decide)).symm]
    have hwords : lexWord (c :: (cs ++ rest)) = none := by
      have hnull : afterWord (text "null") (c :: (cs ++ rest)) = none :=
        afterWord_of_head (w := text "ull") (hne (unit 'n') (by decide) (by decide))
      have htrue : afterWord (text "true") (c :: (cs ++ rest)) = none :=
        afterWord_of_head (w := text "rue") (hne (unit 't') (by decide) (by decide))
      have hfalse : afterWord (text "false") (c :: (cs ++ rest)) = none :=
        afterWord_of_head (w := text "alse") (hne (unit 'f') (by decide) (by decide))
      unfold lexWord
      rw [hnull, htrue, hfalse]
      rfl
    refine ⟨c, cs ++ rest, by rw [Token.print, hp]; rfl, ?_, ?_⟩
    · have hspace (d : UInt16) (hd : isDigit d = false) (hm : d ≠ unit '-') :
          (c == d) = false := by
        rw [beq_eq_false_iff_ne]
        exact (hne d hd hm).symm
      unfold isSpace
      rw [hspace 0x20 (by decide) (by decide), hspace 0x09 (by decide) (by decide),
        hspace 0x0a (by decide) (by decide), hspace 0x0d (by decide) (by decide)]
      rfl
    · have hlex : lexNumber (c :: (cs ++ rest)) = some (n, rest) := by
        have h := lexNumber_print n (hr rfl)
        rw [hp] at h
        exact h
      unfold lexToken
      rw [hpunct]
      simp only [if_neg (hne quote (by decide) (by decide)).symm, hwords, hlex, Option.map_some]

theorem lexTokens_spaces {spaces : Text} (hsp : ∀ c ∈ spaces, isSpace c = true) {n : ℕ}
    (hn : spaces.length ≤ n) : lexTokens n spaces = some [] := by
  induction spaces generalizing n with
  | nil => cases n <;> rfl
  | cons c cs ih =>
    rw [List.length_cons] at hn
    obtain ⟨m, rfl⟩ := Nat.exists_eq_succ_of_ne_zero (by omega : n ≠ 0)
    have hc : isSpace c = true := hsp c List.mem_cons_self
    rw [lexTokens, if_pos hc]
    exact ih (fun d hd => hsp d (List.mem_cons_of_mem c hd)) (by omega)

theorem endsNumber_spaces {spaces : Text} (hsp : ∀ c ∈ spaces, isSpace c = true) :
    EndsNumber spaces := by
  intro c hc
  have hspace := hsp c (List.mem_of_mem_head? hc)
  unfold isSpace at hspace
  simp only [Bool.or_eq_true, beq_iff_eq] at hspace
  rcases hspace with ((rfl | rfl) | rfl) | rfl <;> decide

/-- Separated tokens are read back from what they print, whatever spaces follow. -/
theorem lexTokens_print {ts : List Token} (hs : Separated ts) {spaces : Text}
    (hsp : ∀ c ∈ spaces, isSpace c = true) {n : ℕ}
    (hn : (ts.flatMap Token.print ++ spaces).length ≤ n) :
    lexTokens n (ts.flatMap Token.print ++ spaces) = some ts := by
  induction ts generalizing n with
  | nil => exact lexTokens_spaces hsp hn
  | cons t ts ih =>
    have hends : t.isNumber = true → EndsNumber (ts.flatMap Token.print ++ spaces) := by
      intro ht
      cases ts with
      | nil => exact endsNumber_spaces hsp
      | cons u us =>
        have hu := (List.isChain_cons_cons.mp hs).1
        rw [List.flatMap_cons, List.append_assoc]
        apply Token.endsNumber
        simpa [ht] using hu
    obtain ⟨c, cs, hp, hspace, hlex⟩ := lexToken_print t hends
    have hne := Token.print_ne_nil t
    rw [List.flatMap_cons, List.append_assoc] at hn ⊢
    -- every token prints something, so one step of the lexer is left over
    have hlen : (ts.flatMap Token.print ++ spaces).length < n := by
      have hpos : 0 < t.print.length := List.length_pos_iff.mpr hne
      rw [List.length_append] at hn
      omega
    obtain ⟨m, rfl⟩ := Nat.exists_eq_succ_of_ne_zero (by omega : n ≠ 0)
    have htail := ih (List.IsChain.tail hs) (Nat.lt_succ_iff.mp hlen)
    rw [hp]
    simp only [lexTokens, hspace, hlex, Bool.false_eq_true, if_false, Option.bind_some, htail,
      Option.map_some]

end Tokens

/-! Values. -/

inductive Value
  | null
  | bool (b : Bool)
  | number (n : Number)
  | string (t : Text)
  | array (elements : List Value)
  | object (fields : List (Text × Value))

/-- An array or object that is open, up to the value that comes next. -/
inductive Frame
  | array (elements : List Value)
  | object (fields : List (Text × Value)) (key : Text)

/-- What may follow, inside the open frames: a value; the first element or the end of
an array; the first key or the end of an object; a key; a colon; what follows the
value that was read last. -/
inductive State
  | value (frames : List Frame)
  | arrayStart (frames : List Frame)
  | objectStart (frames : List Frame)
  | key (fields : List (Text × Value)) (frames : List Frame)
  | colon (fields : List (Text × Value)) (key : Text) (frames : List Frame)
  | after (v : Value) (frames : List Frame)

def startValue (frames : List Frame) : Token → Option State
  | .null => some (.after .null frames)
  | .bool b => some (.after (.bool b) frames)
  | .number n => some (.after (.number n) frames)
  | .string t => some (.after (.string t) frames)
  | .openArray => some (.arrayStart frames)
  | .openObject => some (.objectStart frames)
  | _ => none

def step : State → Token → Option State
  | .value frames, t => startValue frames t
  | .arrayStart frames, .closeArray => some (.after (.array []) frames)
  | .arrayStart frames, t => startValue (.array [] :: frames) t
  | .objectStart frames, .closeObject => some (.after (.object []) frames)
  | .objectStart frames, .string k => some (.colon [] k frames)
  | .key fields frames, .string k => some (.colon fields k frames)
  | .colon fields k frames, .colon => some (.value (.object fields k :: frames))
  | .after v (.array elements :: frames), .comma =>
    some (.value (.array (elements ++ [v]) :: frames))
  | .after v (.array elements :: frames), .closeArray =>
    some (.after (.array (elements ++ [v])) frames)
  | .after v (.object fields k :: frames), .comma => some (.key (fields ++ [(k, v)]) frames)
  | .after v (.object fields k :: frames), .closeObject =>
    some (.after (.object (fields ++ [(k, v)])) frames)
  | _, _ => none

def run (s : State) (ts : List Token) : Option State := ts.foldlM step s

def parse (input : Text) : Option Value :=
  (lexTokens input.length input).bind fun ts =>
    (run (.value []) ts).bind fun s =>
      match s with
      | .after v [] => some v
      | _ => none

mutual

def Value.tokens : Value → List Token
  | .null => [.null]
  | .bool b => [.bool b]
  | .number n => [.number n]
  | .string t => [.string t]
  | .array elements => .openArray :: (elementTokens elements ++ [.closeArray])
  | .object fields => .openObject :: (fieldTokens fields ++ [.closeObject])

def elementTokens : List Value → List Token
  | [] => []
  | v :: rest => v.tokens ++ moreElements rest

def moreElements : List Value → List Token
  | [] => []
  | v :: rest => .comma :: (v.tokens ++ moreElements rest)

def fieldTokens : List (Text × Value) → List Token
  | [] => []
  | (k, v) :: rest => .string k :: .colon :: (v.tokens ++ moreFields rest)

def moreFields : List (Text × Value) → List Token
  | [] => []
  | (k, v) :: rest => .comma :: .string k :: .colon :: (v.tokens ++ moreFields rest)

end

def print (v : Value) : Text := v.tokens.flatMap Token.print

section Values

theorem run_cons (s : State) (t : Token) (ts : List Token) :
    run s (t :: ts) = (step s t).bind fun s' => run s' ts := by
  unfold run
  rw [List.foldlM_cons]
  rfl

theorem Value.tokens_cons (v : Value) : ∃ t ts, v.tokens = t :: ts ∧ t ≠ .closeArray := by
  cases v with
  | null => exact ⟨_, _, by rw [Value.tokens], by simp⟩
  | bool b => exact ⟨_, _, by rw [Value.tokens], by simp⟩
  | number n => exact ⟨_, _, by rw [Value.tokens], by simp⟩
  | string t => exact ⟨_, _, by rw [Value.tokens], by simp⟩
  | array elements => exact ⟨_, _, by rw [Value.tokens], by simp⟩
  | object fields => exact ⟨_, _, by rw [Value.tokens], by simp⟩

/-- The first element of an array is read as any other. -/
theorem run_arrayStart (v : Value) (frames : List Frame) (rest : List Token) :
    run (.arrayStart frames) (v.tokens ++ rest) =
      run (.value (.array [] :: frames)) (v.tokens ++ rest) := by
  obtain ⟨t, ts, htokens, ht⟩ := v.tokens_cons
  rw [htokens, List.cons_append, run_cons, run_cons]
  have hstep : step (.arrayStart frames) t = step (.value (.array [] :: frames)) t := by
    cases t with
    | closeArray => exact absurd rfl ht
    | _ => rfl
  rw [hstep]

mutual

/-- The tokens of a value lead from where it is expected to where it has been read. -/
theorem run_tokens (v : Value) (frames : List Frame) (rest : List Token) :
    run (.value frames) (v.tokens ++ rest) = run (.after v frames) rest := by
  cases v with
  | null => rw [Value.tokens, List.singleton_append, run_cons]; rfl
  | bool b => rw [Value.tokens, List.singleton_append, run_cons]; rfl
  | number n => rw [Value.tokens, List.singleton_append, run_cons]; rfl
  | string t => rw [Value.tokens, List.singleton_append, run_cons]; rfl
  | array elements =>
    rw [Value.tokens, List.cons_append, run_cons]
    show run (.arrayStart frames) (elementTokens elements ++ [.closeArray] ++ rest) = _
    cases elements with
    | nil => rw [elementTokens, List.nil_append, List.singleton_append, run_cons]; rfl
    | cons w ws =>
      rw [elementTokens, List.append_assoc, List.append_assoc, run_arrayStart, run_tokens w]
      exact run_moreElements ws w [] frames rest
  | object fields =>
    rw [Value.tokens, List.cons_append, run_cons]
    show run (.objectStart frames) (fieldTokens fields ++ [.closeObject] ++ rest) = _
    cases fields with
    | nil => rw [fieldTokens, List.nil_append, List.singleton_append, run_cons]; rfl
    | cons f fs =>
      obtain ⟨k, w⟩ := f
      rw [fieldTokens, List.append_assoc, List.cons_append, run_cons]
      show run (.colon [] k frames) (.colon :: (w.tokens ++ moreFields fs) ++ _) = _
      rw [List.cons_append, run_cons]
      show run (.value (.object [] k :: frames)) (w.tokens ++ moreFields fs ++ _) = _
      rw [List.append_assoc, run_tokens w]
      exact run_moreFields fs k w [] frames rest

theorem run_moreElements (vs : List Value) (v : Value) (acc : List Value) (frames : List Frame)
    (rest : List Token) :
    run (.after v (.array acc :: frames)) (moreElements vs ++ ([.closeArray] ++ rest)) =
      run (.after (.array (acc ++ v :: vs)) frames) rest := by
  cases vs with
  | nil => rw [moreElements, List.nil_append, List.singleton_append, run_cons]; rfl
  | cons w ws =>
    rw [moreElements, List.cons_append, run_cons]
    show run (.value (.array (acc ++ [v]) :: frames)) (w.tokens ++ moreElements ws ++ _) = _
    rw [List.append_assoc, run_tokens w, run_moreElements ws w (acc ++ [v]) frames rest,
      List.append_assoc]
    rfl

theorem run_moreFields (fs : List (Text × Value)) (k : Text) (v : Value)
    (acc : List (Text × Value)) (frames : List Frame) (rest : List Token) :
    run (.after v (.object acc k :: frames)) (moreFields fs ++ ([.closeObject] ++ rest)) =
      run (.after (.object (acc ++ (k, v) :: fs)) frames) rest := by
  cases fs with
  | nil => rw [moreFields, List.nil_append, List.singleton_append, run_cons]; rfl
  | cons f fs =>
    obtain ⟨l, w⟩ := f
    rw [moreFields, List.cons_append, run_cons]
    show run (.key (acc ++ [(k, v)]) frames) (.string l :: .colon :: _ ++ _) = _
    rw [List.cons_append, run_cons]
    show run (.colon (acc ++ [(k, v)]) l frames) (.colon :: _ ++ _) = _
    rw [List.cons_append, run_cons]
    show run (.value (.object (acc ++ [(k, v)]) l :: frames)) (w.tokens ++ moreFields fs ++ _) = _
    rw [List.append_assoc, run_tokens w, run_moreFields fs l w (acc ++ [(k, v)]) frames rest,
      List.append_assoc]
    rfl

end

/-- What follows does not start with a number. -/
def NoNumber (ts : List Token) : Prop := ∀ t ∈ ts.head?, t.isNumber = false

theorem separated_cons {t : Token} {ts : List Token} (ht : t.isNumber = false ∨ NoNumber ts)
    (hs : Separated ts) : Separated (t :: ts) := by
  cases ts with
  | nil => exact List.isChain_singleton t
  | cons u us =>
    refine List.isChain_cons_cons.mpr ⟨?_, hs⟩
    rintro ⟨h₁, h₂⟩
    rcases ht with h | h
    · rw [h] at h₁
      cases h₁
    · rw [h u rfl] at h₂
      cases h₂

mutual

theorem separated_tokens (v : Value) {rest : List Token} (hn : NoNumber rest)
    (hs : Separated rest) : Separated (v.tokens ++ rest) := by
  cases v with
  | null => rw [Value.tokens]; exact separated_cons (Or.inl rfl) hs
  | bool b => rw [Value.tokens]; exact separated_cons (Or.inl rfl) hs
  | number n => rw [Value.tokens]; exact separated_cons (Or.inr hn) hs
  | string t => rw [Value.tokens]; exact separated_cons (Or.inl rfl) hs
  | array elements =>
    have hclose : Separated (.closeArray :: rest) := separated_cons (Or.inl rfl) hs
    have hno : NoNumber (.closeArray :: rest) := by simp [NoNumber, Token.isNumber]
    rw [Value.tokens, List.cons_append, List.append_assoc]
    apply separated_cons (Or.inl rfl)
    cases elements with
    | nil => rw [elementTokens]; exact hclose
    | cons w ws =>
      obtain ⟨hm, hmore⟩ := separated_moreElements ws hno hclose
      rw [elementTokens, List.append_assoc]
      exact separated_tokens w hm hmore
  | object fields =>
    have hclose : Separated (.closeObject :: rest) := separated_cons (Or.inl rfl) hs
    have hno : NoNumber (.closeObject :: rest) := by simp [NoNumber, Token.isNumber]
    rw [Value.tokens, List.cons_append, List.append_assoc]
    apply separated_cons (Or.inl rfl)
    cases fields with
    | nil => rw [fieldTokens]; exact hclose
    | cons f fs =>
      obtain ⟨k, w⟩ := f
      obtain ⟨hm, hmore⟩ := separated_moreFields fs hno hclose
      rw [fieldTokens, List.cons_append, List.cons_append, List.append_assoc]
      exact separated_cons (Or.inl rfl)
        (separated_cons (Or.inl rfl) (separated_tokens w hm hmore))

theorem separated_moreElements (vs : List Value) {rest : List Token} (hn : NoNumber rest)
    (hs : Separated rest) :
    NoNumber (moreElements vs ++ rest) ∧ Separated (moreElements vs ++ rest) := by
  cases vs with
  | nil => rw [moreElements]; exact ⟨hn, hs⟩
  | cons w ws =>
    obtain ⟨hm, hmore⟩ := separated_moreElements ws hn hs
    rw [moreElements, List.cons_append, List.append_assoc]
    exact ⟨by simp [NoNumber, Token.isNumber],
      separated_cons (Or.inl rfl) (separated_tokens w hm hmore)⟩

theorem separated_moreFields (fs : List (Text × Value)) {rest : List Token} (hn : NoNumber rest)
    (hs : Separated rest) :
    NoNumber (moreFields fs ++ rest) ∧ Separated (moreFields fs ++ rest) := by
  cases fs with
  | nil => rw [moreFields]; exact ⟨hn, hs⟩
  | cons f fs =>
    obtain ⟨k, w⟩ := f
    obtain ⟨hm, hmore⟩ := separated_moreFields fs hn hs
    rw [moreFields, List.cons_append, List.cons_append, List.cons_append, List.append_assoc]
    exact ⟨by simp [NoNumber, Token.isNumber], separated_cons (Or.inl rfl)
      (separated_cons (Or.inl rfl) (separated_cons (Or.inl rfl) (separated_tokens w hm hmore)))⟩

end

theorem separated_value (v : Value) : Separated v.tokens := by
  have hnil : NoNumber [] := by simp [NoNumber]
  have h := separated_tokens v hnil List.isChain_nil
  rwa [List.append_nil] at h

theorem run_value (v : Value) : run (.value []) v.tokens = some (.after v []) := by
  have h := run_tokens v [] []
  rw [List.append_nil] at h
  rw [h]
  rfl

/-- Parsing what a value prints gives the value, whatever spaces follow. -/
theorem parse_print_append (v : Value) {spaces : Text} (hsp : ∀ c ∈ spaces, isSpace c = true) :
    parse (print v ++ spaces) = some v := by
  have hlex : lexTokens (print v ++ spaces).length (print v ++ spaces) = some v.tokens :=
    lexTokens_print (separated_value v) hsp le_rfl
  unfold parse
  rw [hlex, Option.bind_some, run_value, Option.bind_some]

end Values

/-! Fields. A key that is repeated has the value it was given last. -/

def lookup (key : Text) : List (Text × Value) → Option Value
  | [] => none
  | (k, v) :: rest =>
    match lookup key rest with
    | some w => some w
    | none => if k = key then some v else none

def Value.fields : Value → Option (List (Text × Value))
  | .object fields => some fields
  | _ => none

def Value.field (v : Value) (key : String) : Option Value := v.fields.bind (lookup (text key))

/-! Sizes. -/

/-- Bytes of a unit that stands alone; a surrogate then becomes U+FFFD. -/
def unitBytes (c : UInt16) : ℕ := if c < 0x80 then 1 else if c < 0x800 then 2 else 3

/-- Bytes of a text in UTF-8. -/
def utf8Length : Text → ℕ
  | [] => 0
  | [c] => unitBytes c
  | c :: d :: rest =>
    if isLeadSurrogate c && isTrailSurrogate d then 4 + utf8Length rest
    else unitBytes c + utf8Length (d :: rest)

mutual

/-- Units of the strings in a value, keys left out. -/
def Value.stringUnits : Value → ℕ
  | .null => 0
  | .bool _ => 0
  | .number _ => 0
  | .string t => t.length
  | .array elements => elementUnits elements
  | .object fields => fieldUnits fields

def elementUnits : List Value → ℕ
  | [] => 0
  | v :: rest => v.stringUnits + elementUnits rest

def fieldUnits : List (Text × Value) → ℕ
  | [] => 0
  | (_, v) :: rest => v.stringUnits + fieldUnits rest

end

section Sizes

theorem elementUnits_eq_sum (vs : List Value) :
    elementUnits vs = (vs.map Value.stringUnits).sum := by
  induction vs with
  | nil => rfl
  | cons v vs ih => rw [elementUnits, ih, List.map_cons, List.sum_cons]

theorem unitBytes_pos (c : UInt16) : 0 < unitBytes c := by
  unfold unitBytes
  split_ifs <;> omega

theorem length_le_utf8Length (t : Text) : t.length ≤ utf8Length t := by
  fun_induction utf8Length t with
  | case1 => exact le_rfl
  | case2 c =>
    exact unitBytes_pos c
  | case3 c d rest h ih =>
    simp only [List.length_cons]
    omega
  | case4 c d rest h ih =>
    have h := unitBytes_pos c
    simp only [List.length_cons] at ih ⊢
    omega

theorem quoteUnit_length (c : UInt16) : 1 ≤ (quoteUnit c).length := by
  unfold quoteUnit escapeUnit
  split_ifs <;> simp

theorem length_le_quoteUnits (t : Text) : t.length ≤ (quoteUnits t).length := by
  fun_induction quoteUnits t with
  | case1 => exact le_rfl
  | case2 c h => simp [escapeUnit]
  | case3 c h => exact quoteUnit_length c
  | case4 c d rest hc hd ih =>
    simp only [List.length_cons]
    omega
  | case5 c d rest hc hd ih =>
    simp only [List.length_append, List.length_cons, escapeUnit] at ih ⊢
    omega
  | case6 c d rest hc ih =>
    have h := quoteUnit_length c
    simp only [List.length_append, List.length_cons] at ih ⊢
    omega

/-- Units that a list of tokens prints. -/
def printed (ts : List Token) : ℕ := (ts.flatMap Token.print).length

@[simp] theorem printed_nil : printed [] = 0 := rfl

@[simp] theorem printed_cons (t : Token) (ts : List Token) :
    printed (t :: ts) = t.print.length + printed ts := by
  unfold printed
  rw [List.flatMap_cons, List.length_append]

@[simp] theorem printed_append (ts us : List Token) :
    printed (ts ++ us) = printed ts + printed us := by
  unfold printed
  rw [List.flatMap_append, List.length_append]

mutual

/-- A printed value holds its strings. -/
theorem stringUnits_le (v : Value) : v.stringUnits ≤ printed v.tokens := by
  cases v with
  | null => simp [Value.stringUnits]
  | bool b => simp [Value.stringUnits]
  | number n => simp [Value.stringUnits]
  | string t =>
    have h := length_le_quoteUnits t
    simp only [Value.stringUnits, Value.tokens, printed_cons, printed_nil, Token.print, printString,
      List.length_append, List.length_cons]
    omega
  | array elements =>
    simp only [Value.stringUnits, Value.tokens, printed_cons, printed_append]
    cases elements with
    | nil => simp [elementUnits]
    | cons w ws =>
      have hw := stringUnits_le w
      have hws := elementUnits_le ws
      simp only [elementUnits, elementTokens, printed_append]
      omega
  | object fields =>
    simp only [Value.stringUnits, Value.tokens, printed_cons, printed_append]
    cases fields with
    | nil => simp [fieldUnits]
    | cons f fs =>
      obtain ⟨k, w⟩ := f
      have hw := stringUnits_le w
      have hfs := fieldUnits_le fs
      simp only [fieldUnits, fieldTokens, printed_append, printed_cons]
      omega

theorem elementUnits_le (vs : List Value) : elementUnits vs ≤ printed (moreElements vs) := by
  cases vs with
  | nil => simp [elementUnits]
  | cons w ws =>
    have hw := stringUnits_le w
    have hws := elementUnits_le ws
    simp only [elementUnits, moreElements, printed_append, printed_cons]
    omega

theorem fieldUnits_le (fs : List (Text × Value)) : fieldUnits fs ≤ printed (moreFields fs) := by
  cases fs with
  | nil => simp [fieldUnits]
  | cons f fs =>
    obtain ⟨k, w⟩ := f
    have hw := stringUnits_le w
    have hfs := fieldUnits_le fs
    simp only [fieldUnits, moreFields, printed_append, printed_cons]
    omega

end

theorem stringUnits_le_utf8Length (v : Value) (rest : Text) :
    v.stringUnits ≤ utf8Length (print v ++ rest) :=
  calc v.stringUnits ≤ (print v).length := stringUnits_le v
    _ ≤ (print v ++ rest).length := by
      rw [List.length_append]
      omega
    _ ≤ utf8Length (print v ++ rest) := length_le_utf8Length _

end Sizes

end Json
