import Quicknet.Library.Json

/-! Percent encoding of UTF-16 texts. A character is escaped by the bytes of its UTF-8
form, one percent sign and two hexadecimal digits for each. -/
namespace Uri

open Json

def percent : UInt16 := unit '%'

def utf16 (c : Char) : Text :=
  if c.toNat < 0x10000 then [UInt16.ofNat c.toNat]
  else [UInt16.ofNat (0xD800 + (c.toNat - 0x10000) / 0x400),
    UInt16.ofNat (0xDC00 + (c.toNat - 0x10000) % 0x400)]

def utf8 (c : Char) : List UInt8 := String.utf8EncodeChar c

def upperHexDigit (d : ℕ) : UInt16 := UInt16.ofNat (if d < 10 then 0x30 + d else 0x37 + d)

def escape (b : UInt8) : Text :=
  [percent, upperHexDigit (b.toNat / 16), upperHexDigit (b.toNat % 16)]

/-- The byte that an escape at the head of the text stands for. -/
def escapedByte : Text → Option UInt8
  | c :: h :: l :: _ =>
    if c = percent then do
      let high ← hexValue h
      let low ← hexValue l
      return UInt8.ofNat (high*16 + low)
    else none
  | _ => none

def escapedBytes : ℕ → Text → Option (List UInt8)
  | 0, _ => some []
  | n+1, t => do
    let b ← escapedByte t
    let bs ← escapedBytes n (t.drop 3)
    return b :: bs

/-- How many bytes the character has whose first byte this is. -/
def sequenceLength (b : UInt8) : Option ℕ :=
  if b.toNat < 0x80 then some 1
  else if b.toNat < 0xC0 then none
  else if b.toNat < 0xE0 then some 2
  else if b.toNat < 0xF0 then some 3
  else if b.toNat < 0xF8 then some 4
  else none

/-- The character at the head of the text, with the number of its escapes. -/
def escapedChar (t : Text) : Option (Char × ℕ) := do
  let first ← escapedByte t
  let n ← sequenceLength first
  let bytes ← escapedBytes n t
  let c ← ByteArray.utf8DecodeChar? bytes.toByteArray 0
  return (c, n)

def decodeFrom : ℕ → Text → Option Text
  | 0, t => if t.isEmpty then some [] else none
  | _+1, [] => some []
  | fuel+1, c :: rest =>
    if c = percent then do
      let (d, n) ← escapedChar (c :: rest)
      let tail ← decodeFrom fuel ((c :: rest).drop (3*n))
      return utf16 d ++ tail
    else (decodeFrom fuel rest).map (c :: ·)

/-- `none` is a `URIError`. Each step takes at least one unit. -/
def decodeURIComponent (t : Text) : Option Text := decodeFrom t.length t

def isUnreserved (c : UInt16) : Bool :=
  decide (0x61 ≤ c.toNat ∧ c.toNat ≤ 0x7A) || decide (0x41 ≤ c.toNat ∧ c.toNat ≤ 0x5A) ||
    isDigit c || (text "-_.!~*'()").contains c

def escapeCodePoint (n : ℕ) : Text := (utf8 (Char.ofNat n)).flatMap escape

/-- A surrogate that stands alone is a `URIError`. -/
def encodeURIComponent : Text → Option Text
  | [] => some []
  | [c] =>
    if isUnreserved c then some [c]
    else if isLeadSurrogate c || isTrailSurrogate c then none
    else some (escapeCodePoint c.toNat)
  | c :: d :: rest =>
    if isUnreserved c then (encodeURIComponent (d :: rest)).map (c :: ·)
    else if isTrailSurrogate c then none
    else if isLeadSurrogate c then
      if isTrailSurrogate d then
        (encodeURIComponent rest).map
          (escapeCodePoint (0x10000 + (c.toNat - 0xD800)*0x400 + (d.toNat - 0xDC00)) ++ ·)
      else none
    else (encodeURIComponent (d :: rest)).map (escapeCodePoint c.toNat ++ ·)

/-! Escapes in either case of their digits. -/

/-- The text escapes the bytes. -/
inductive Escapes : List UInt8 → Text → Prop
  | nil : Escapes [] []
  | cons {b : UInt8} {bs : List UInt8} {h l : UInt16} {t : Text} :
      hexValue h = some (b.toNat / 16) → hexValue l = some (b.toNat % 16) → Escapes bs t →
      Escapes (b :: bs) (percent :: h :: l :: t)

/-- The text with any of its characters escaped: what stays as it is holds no percent
sign, so that reading the escapes gives the text back. -/
inductive Encodes : Text → Text → Prop
  | nil : Encodes [] []
  | literal {u : UInt16} {s t : Text} : u ≠ percent → Encodes s t → Encodes (u :: s) (u :: t)
  | escaped {c : Char} {e s t : Text} :
      Escapes (utf8 c) e → Encodes s t → Encodes (utf16 c ++ s) (e ++ t)

/-- The text with any of its characters escaped up to `n` times. -/
def EncodesTimes : ℕ → Text → Text → Prop
  | 0, s, t => t = s
  | n+1, s, t => ∃ u, EncodesTimes n s u ∧ Encodes u t

section Decoding

variable {bs : List UInt8} {t : Text}

theorem utf16_ne_nil (c : Char) : utf16 c ≠ [] := by
  unfold utf16
  split <;> simp

theorem Escapes.length (h : Escapes bs t) : t.length = 3 * bs.length := by
  induction h with
  | nil => rfl
  | cons _ _ _ ih =>
    simp only [List.length_cons]
    omega

theorem escapedByte_cons {b : UInt8} {h l : UInt16} (hh : hexValue h = some (b.toNat / 16))
    (hl : hexValue l = some (b.toNat % 16)) (rest : Text) :
    escapedByte (percent :: h :: l :: rest) = some b := by
  have hb : b.toNat / 16 * 16 + b.toNat % 16 = b.toNat := by omega
  simp only [escapedByte, if_true, hh, hl, Option.bind_eq_bind, Option.bind_some, hb,
    UInt8.ofNat_toNat]
  rfl

theorem Escapes.escapedBytes (h : Escapes bs t) (rest : Text) :
    escapedBytes bs.length (t ++ rest) = some bs := by
  induction h with
  | nil => rfl
  | cons hh hl _ ih =>
    simp only [List.length_cons, List.cons_append, Uri.escapedBytes, escapedByte_cons hh hl,
      Option.bind_eq_bind, Option.bind_some, List.drop_succ_cons, List.drop_zero, ih]
    rfl

/-- The first byte of a character tells how many there are. -/
theorem utf8_first (c : Char) : ∃ b bs, utf8 c = b :: bs ∧
    (b.toNat ≤ 0x7f ∧ bs.length = 0 ∨ 0xc2 ≤ b.toNat ∧ b.toNat ≤ 0xdf ∧ bs.length = 1 ∨
      0xe0 ≤ b.toNat ∧ b.toNat ≤ 0xef ∧ bs.length = 2 ∨
      0xf0 ≤ b.toNat ∧ b.toNat ≤ 0xf4 ∧ bs.length = 3) := by
  have hvalid : c.val.toNat < 0x110000 := by
    rcases c.valid with h | ⟨_, h⟩ <;> omega
  unfold utf8 String.utf8EncodeChar
  dsimp only
  split
  · refine ⟨_, _, rfl, Or.inl ⟨?_, rfl⟩⟩
    simp only [UInt8.toNat_ofNat']
    omega
  split
  · refine ⟨_, _, rfl, Or.inr (Or.inl ⟨?_, ?_, rfl⟩)⟩ <;>
      simp only [UInt8.toNat_ofNat'] <;> omega
  split
  · refine ⟨_, _, rfl, Or.inr (Or.inr (Or.inl ⟨?_, ?_, rfl⟩))⟩ <;>
      simp only [UInt8.toNat_ofNat'] <;> omega
  · refine ⟨_, _, rfl, Or.inr (Or.inr (Or.inr ⟨?_, ?_, rfl⟩))⟩ <;>
      simp only [UInt8.toNat_ofNat'] <;> omega

theorem sequenceLength_utf8 {c : Char} {b : UInt8} {bs : List UInt8} (h : utf8 c = b :: bs) :
    sequenceLength b = some (bs.length+1) := by
  obtain ⟨b', bs', h', hb⟩ := utf8_first c
  obtain ⟨rfl, rfl⟩ := List.cons.inj (h.symm.trans h')
  unfold sequenceLength
  split_ifs <;> (congr 1; omega)

/-- What escapes a character is read back as the character. -/
theorem escapedChar_of_escapes {c : Char} (h : Escapes (utf8 c) t) (rest : Text) :
    escapedChar (t ++ rest) = some (c, (utf8 c).length) := by
  have hbytes := h.escapedBytes rest
  have hdecode : ByteArray.utf8DecodeChar? (utf8 c).toByteArray 0 = some c := by
    have happ := @ByteArray.utf8DecodeChar?_utf8EncodeChar_append .empty c
    rwa [ByteArray.append_empty] at happ
  obtain ⟨b, bs, hc, _⟩ := utf8_first c
  have hlength := sequenceLength_utf8 hc
  have hfirst : escapedByte (t ++ rest) = some b := by
    rw [hc] at h
    cases h with
    | cons hh hl _ => exact escapedByte_cons hh hl _
  rw [hc] at hbytes hdecode ⊢
  simp only [escapedChar, hfirst, hlength, Option.bind_eq_bind, Option.bind_some]
  rw [List.length_cons] at hbytes
  simp only [hbytes, Option.bind_some, hdecode]
  rfl

theorem escapedByte_eq_none {c : UInt16} (h : c ≠ percent) (rest : Text) :
    escapedByte (c :: rest) = none := by
  match rest with
  | [] => rfl
  | [_] => rfl
  | _ :: _ :: _ => exact if_neg h

theorem escapedByte_take {n : ℕ} (h : 3 ≤ n) (t : Text) :
    escapedByte (t.take n) = escapedByte t := by
  obtain ⟨m, rfl⟩ : ∃ m, n = m+3 := ⟨n-3, by omega⟩
  match t with
  | [] => rfl
  | [_] => rfl
  | [_, _] => rfl
  | _ :: _ :: _ :: _ => rfl

theorem length_of_escapedBytes {n : ℕ} (h : Uri.escapedBytes n t = some bs) :
    3 * n ≤ t.length := by
  induction n generalizing t bs with
  | zero => omega
  | succ n ih =>
    simp only [Uri.escapedBytes, Option.bind_eq_bind, Option.bind_eq_some_iff] at h
    obtain ⟨b, hb, bs', hbs, _⟩ := h
    have hrest := ih hbs
    have hlength : 3 ≤ t.length := by
      unfold escapedByte at hb
      split at hb
      · simp only [List.length_cons]
        omega
      · cases hb
    rw [List.length_drop] at hrest
    omega

theorem length_of_escapedChar {c : Char} {n : ℕ} (h : escapedChar t = some (c, n)) :
    0 < n ∧ 3 * n ≤ t.length := by
  simp only [escapedChar, Option.bind_eq_bind, Option.bind_eq_some_iff] at h
  obtain ⟨first, _, n', hn, bytes, hbytes, c', _, hc⟩ := h
  cases hc
  refine ⟨?_, length_of_escapedBytes hbytes⟩
  unfold sequenceLength at hn
  split_ifs at hn <;> cases hn <;> omega

theorem length_utf16_le (c : Char) : (utf16 c).length ≤ 2 := by
  unfold utf16
  split <;> simp

/-- A text that starts with an escape is longer than what it is read as. -/
theorem length_of_decodeFrom {fuel : ℕ} {d : Text} (h : decodeFrom fuel t = some d) :
    d.length ≤ t.length ∧ (t.head? = some percent → d.length < t.length) := by
  induction fuel generalizing t d with
  | zero =>
    cases t with
    | nil =>
      cases h
      simp
    | cons c rest => cases h
  | succ fuel ih =>
    cases t with
    | nil =>
      cases h
      simp
    | cons c rest =>
      simp only [decodeFrom] at h
      split at h
      · simp only [Option.bind_eq_bind, Option.bind_eq_some_iff] at h
        obtain ⟨⟨e, n⟩, hchar, tail, htail, hd⟩ := h
        cases hd
        dsimp only at htail ⊢
        have hn := length_of_escapedChar hchar
        have ht := (ih htail).1
        have he := length_utf16_le e
        rw [List.length_drop] at ht
        rw [List.length_append]
        constructor
        · omega
        · intro _
          omega
      · rename_i hc
        obtain ⟨tail, htail, hd⟩ := Option.map_eq_some_iff.mp h
        cases hd
        have ht := (ih htail).1
        simp only [List.length_cons, List.head?_cons, Option.some.injEq]
        exact ⟨by omega, fun h => absurd h hc⟩

theorem eq_nil_of_decodeFrom {fuel : ℕ} (h : decodeFrom fuel t = some []) : t = [] := by
  match fuel, t with
  | 0, [] => rfl
  | 0, _ :: _ => cases h
  | _+1, [] => rfl
  | fuel+1, c :: rest =>
    simp only [decodeFrom] at h
    split at h
    · simp only [Option.bind_eq_bind, Option.bind_eq_some_iff] at h
      obtain ⟨⟨e, n⟩, _, tail, _, hd⟩ := h
      have he : utf16 e ++ tail = [] := Option.some.inj hd
      exact absurd (List.append_eq_nil_iff.mp he).1 (utf16_ne_nil e)
    · obtain ⟨tail, _, hd⟩ := Option.map_eq_some_iff.mp h
      cases hd

theorem decodeFrom_nil (fuel : ℕ) : decodeFrom fuel [] = some [] := by
  cases fuel <;> rfl

theorem decodeURIComponent_of_escapes {c : Char} (h : Escapes (utf8 c) t) :
    decodeURIComponent t = some (utf16 c) := by
  have hchar := escapedChar_of_escapes h []
  have hlength := h.length
  rw [List.append_nil] at hchar
  obtain ⟨b, bs, hc, _⟩ := utf8_first c
  cases t with
  | nil =>
    rw [hc] at hlength
    simp at hlength
  | cons x rest =>
    have hx : x = percent := by
      rw [hc] at h
      cases h
      rfl
    subst hx
    have hdrop : (percent :: rest).drop (3 * (utf8 c).length) = [] := by
      rw [← hlength]
      exact List.drop_length
    simp only [decodeURIComponent, List.length_cons, decodeFrom, if_true, hchar,
      Option.bind_eq_bind, Option.bind_some, hdrop, decodeFrom_nil]
    simp

theorem hexValue_lt {c : UInt16} {d : ℕ} (h : hexValue c = some d) : d < 16 := by
  unfold hexValue isDigit at h
  split_ifs at h with h₁ h₂ h₃ <;> cases h
  · simp only [decide_eq_true_eq] at h₁
    omega
  · omega
  · omega

theorem escapes_of_escapedBytes {n : ℕ} (h : Uri.escapedBytes n t = some bs) :
    bs.length = n ∧ Escapes bs (t.take (3*n)) := by
  induction n generalizing t bs with
  | zero =>
    cases h
    exact ⟨rfl, Escapes.nil⟩
  | succ n ih =>
    simp only [Uri.escapedBytes, Option.bind_eq_bind, Option.bind_eq_some_iff] at h
    obtain ⟨b, hb, bs', hbs, heq⟩ := h
    cases heq
    obtain ⟨hcount, hrest⟩ := ih hbs
    refine ⟨by rw [List.length_cons, hcount], ?_⟩
    match t, hb with
    | c :: x :: y :: rest, hb =>
      by_cases hc : c = percent
      swap
      · rw [escapedByte_eq_none hc] at hb
        cases hb
      simp only [escapedByte, if_pos hc, Option.bind_eq_bind, Option.bind_eq_some_iff] at hb
      obtain ⟨high, hhigh, low, hlow, hbyte⟩ := hb
      cases hbyte
      have hh := hexValue_lt hhigh
      have hl := hexValue_lt hlow
      have hvalue : (UInt8.ofNat (high*16 + low)).toNat = high*16 + low := by
        rw [UInt8.toNat_ofNat']
        omega
      subst hc
      rw [show 3*(n+1) = 3*n+1+1+1 by omega, List.take_succ_cons, List.take_succ_cons,
        List.take_succ_cons]
      apply Escapes.cons _ _ hrest
      · rw [hvalue, hhigh]
        congr 1
        omega
      · rw [hvalue, hlow]
        congr 1
        omega

/-- What is read as a character are its escapes. -/
theorem escapes_of_escapedChar {c : Char} {n : ℕ} (h : escapedChar t = some (c, n)) :
    n = (utf8 c).length ∧ Escapes (utf8 c) (t.take (3*n)) ∧ escapedByte t = (utf8 c).head? := by
  simp only [escapedChar, Option.bind_eq_bind, Option.bind_eq_some_iff] at h
  obtain ⟨first, hfirst, n', hn, bytes, hbytes, c', hc, heq⟩ := h
  cases heq
  obtain ⟨hcount, hescapes⟩ := escapes_of_escapedBytes hbytes
  obtain ⟨l, hl⟩ := ByteArray.exists_of_utf8DecodeChar?_eq_some hc
  have hsplit : bytes = utf8 c ++ l.data.toList := by
    have := congrArg (fun b => b.data.toList) hl
    simpa [utf8] using this
  obtain ⟨b, bs, hb, _⟩ := utf8_first c
  -- the first byte tells how many bytes the character has, and no more are read
  have hpos : 0 < n := (length_of_escapedChar (t := t) (c := c) (n := n) (by
    simp only [escapedChar, hfirst, hn, hbytes, hc, Option.bind_eq_bind, Option.bind_some]
    rfl)).1
  have hhead : bytes.head? = some first := by
    obtain ⟨m, rfl⟩ : ∃ m, n = m+1 := ⟨n-1, by omega⟩
    simp only [Uri.escapedBytes, hfirst, Option.bind_eq_bind, Option.bind_some,
      Option.bind_eq_some_iff] at hbytes
    obtain ⟨_, _, heq⟩ := hbytes
    cases heq
    rfl
  have hb₁ : b = first := by
    rw [hsplit, hb] at hhead
    simpa using hhead
  subst hb₁
  have hlength := sequenceLength_utf8 hb
  have hn₁ : n = (utf8 c).length := by
    rw [hb, List.length_cons]
    exact Option.some.inj (hn.symm.trans hlength)
  have hnil : l.data.toList = [] := by
    have := congrArg List.length hsplit
    rw [List.length_append, hcount, hn₁] at this
    exact List.length_eq_zero_iff.mp (by omega)
  rw [hnil, List.append_nil] at hsplit
  refine ⟨hn₁, hsplit ▸ hescapes, ?_⟩
  rw [hfirst, hb]
  rfl

end Decoding

end Uri
