import Quicknet.Library.Json

/-! Bytes of a printed value. A text that is put together takes no more bytes than its
parts, so a value is bounded by its parts, keys and punctuation. -/
namespace Json

/-- Bytes of a value as it is printed. -/
def bytes (v : Value) : ℕ := utf8Length (print v)

/-- Bytes of a field with its key, the colon and a comma. -/
def fieldBytes (f : Text × Value) : ℕ := utf8Length (printString f.1) + bytes f.2 + 2

section Texts

theorem unitBytes_le (c : UInt16) : unitBytes c ≤ 3 := by
  unfold unitBytes
  split_ifs <;> omega

theorem unitBytes_surrogate {c : UInt16}
    (h : isLeadSurrogate c = true ∨ isTrailSurrogate c = true) : unitBytes c = 3 := by
  have hlow : 0xD800 ≤ c.toNat := by
    rcases h with h | h <;> simp only [isLeadSurrogate, isTrailSurrogate, decide_eq_true_eq] at h
    · exact h.1
    · omega
  unfold unitBytes
  rw [if_neg, if_neg]
  all_goals
    intro hlt
    have hlt := UInt16.lt_iff_toNat_lt.mp hlt
    simp at hlt
    omega

/-- The first unit of a text adds at most its own bytes. -/
theorem utf8Length_cons_le (c : UInt16) (t : Text) : utf8Length (c :: t) ≤ unitBytes c + utf8Length t := by
  cases t with
  | nil => simp [utf8Length]
  | cons d rest =>
    rw [utf8Length]
    split_ifs with hpair
    · -- a pair takes fewer bytes than two surrogates that stand alone
      simp only [Bool.and_eq_true] at hpair
      have hc := unitBytes_surrogate (Or.inl hpair.1)
      have hd := unitBytes_surrogate (Or.inr hpair.2)
      have hnot : isLeadSurrogate d = false := by
        have h := hpair.2
        simp only [isTrailSurrogate, isLeadSurrogate, decide_eq_true_eq, decide_eq_false_iff_not] at h ⊢
        omega
      have hrest : 1 + utf8Length rest ≤ utf8Length (d :: rest) := by
        cases rest with
        | nil => simp [utf8Length, hd]
        | cons e rest =>
          rw [utf8Length.eq_def (d :: e :: rest)]
          simp only [hnot, Bool.false_and, Bool.false_eq_true, if_false]
          omega
      omega
    · exact le_rfl

theorem utf8Length_append_le (s t : Text) :
    utf8Length (s ++ t) ≤ utf8Length s + utf8Length t := by
  fun_induction utf8Length s with
  | case1 => simp
  | case2 c => exact utf8Length_cons_le c t
  | case3 c d rest hpair ih =>
    rw [List.cons_append, List.cons_append, utf8Length, if_pos hpair]
    omega
  | case4 c d rest hpair ih =>
    rw [List.cons_append, List.cons_append, utf8Length, if_neg hpair]
    rw [List.cons_append] at ih
    omega

/-- Units that a string can hold as they are, in one byte each. -/
def isPlain (c : UInt16) : Bool := decide (0x20 ≤ c.toNat ∧ c.toNat < 0x7f) && c != quote && c != backslash

theorem utf8Length_ascii {t : Text} (h : ∀ c ∈ t, c.toNat < 0x80) : utf8Length t = t.length := by
  induction t with
  | nil => rfl
  | cons c t ih =>
    have hc : unitBytes c = 1 := by
      have hlt : c < 0x80 := UInt16.lt_iff_toNat_lt.mpr (h c List.mem_cons_self)
      rw [unitBytes, if_pos hlt]
    have hle := utf8Length_cons_le c t
    have hge := length_le_utf8Length (c :: t)
    rw [List.length_cons] at hge ⊢
    have ht := ih fun d hd => h d (List.mem_cons_of_mem c hd)
    omega

theorem quoteUnits_plain {t : Text} (h : ∀ c ∈ t, isPlain c = true) : quoteUnits t = t := by
  have hunit {c : UInt16} (hc : isPlain c = true) : isLeadSurrogate c = false ∧ quoteUnit c = [c] := by
    simp only [isPlain, Bool.and_eq_true, decide_eq_true_eq, bne_iff_ne, ne_eq] at hc
    obtain ⟨⟨⟨hlow, hhigh⟩, hq⟩, hb⟩ := hc
    have hne (n : UInt16) (hn : n.toNat < 0x20) : c ≠ n := by
      rintro rfl
      omega
    have hlead : isLeadSurrogate c = false := by
      simp only [isLeadSurrogate, decide_eq_false_iff_not]
      omega
    have htrail : ¬ (c < 0x20 ∨ isTrailSurrogate c = true) := by
      rintro (hlt | ht)
      · have hlt := UInt16.lt_iff_toNat_lt.mp hlt
        simp at hlt
        omega
      · simp only [isTrailSurrogate, decide_eq_true_eq] at ht
        omega
    refine ⟨hlead, ?_⟩
    unfold quoteUnit
    rw [if_neg (by simp [hq, hb]), if_neg (hne 8 (by decide)), if_neg (hne 9 (by decide)),
      if_neg (hne 10 (by decide)), if_neg (hne 12 (by decide)), if_neg (hne 13 (by decide)),
      if_neg htrail]
  fun_induction quoteUnits t with
  | case1 => rfl
  | case2 c hc => exact absurd hc (by simp [(hunit (h c (by simp))).1])
  | case3 c hc => exact (hunit (h c (by simp))).2
  | case4 c d rest hc hd ih => exact absurd hc (by simp [(hunit (h c (by simp))).1])
  | case5 c d rest hc hd ih => exact absurd hc (by simp [(hunit (h c (by simp))).1])
  | case6 c d rest hc ih =>
    rw [(hunit (h c (by simp))).2, ih fun e he => h e (by simp [he])]
    rfl

/-- A string of plain units takes a byte for each, and two for the quotes. -/
theorem printString_plain {t : Text} (h : ∀ c ∈ t, isPlain c = true) :
    utf8Length (printString t) = t.length + 2 := by
  unfold printString
  rw [quoteUnits_plain h, utf8Length_ascii]
  · simp
  · intro c hc
    simp only [List.cons_append, List.mem_cons, List.mem_append, List.not_mem_nil, or_false] at hc
    rcases hc with rfl | hc | rfl
    · decide
    · have hplain := h c hc
      simp only [isPlain, Bool.and_eq_true, decide_eq_true_eq] at hplain
      omega
    · decide

end Texts

section Values

theorem bytes_string (t : Text) : bytes (.string t) = utf8Length (printString t) := by
  unfold bytes print
  rw [Value.tokens]
  simp [Token.print]

theorem printNumber_ascii (n : Number) : ∀ c ∈ printNumber n, c.toNat < 0x80 := by
  have hdigit {c : UInt16} (h : isDigit c = true) : c.toNat < 0x80 := by
    simp only [isDigit, decide_eq_true_eq] at h
    omega
  have hdecimal {m : ℕ} {c : UInt16} (h : c ∈ decimal m) : c.toNat < 0x80 := hdigit (decimal_isDigit h)
  intro c hc
  unfold printNumber at hc
  rcases List.mem_append.mp hc with hc | hc
  · split_ifs at hc
    · rw [List.mem_singleton.mp hc]
      decide
    · cases hc
  rcases List.mem_append.mp hc with hc | hc
  · exact hdecimal hc
  rcases List.mem_append.mp hc with hc | hc
  · unfold printFraction at hc
    split at hc
    · cases hc
    · rcases List.mem_cons.mp hc with rfl | hc
      · decide
      · obtain ⟨d, _, rfl⟩ := List.mem_map.mp hc
        exact hdigit (isDigit_digit d.isLt)
  · unfold printExponent at hc
    split at hc
    · cases hc
    · rcases List.mem_cons.mp hc with rfl | hc
      · decide
      rcases List.mem_cons.mp hc with rfl | hc
      · split_ifs <;> decide
      · exact hdecimal hc

theorem bytes_number (n : Number) : bytes (.number n) = (printNumber n).length := by
  unfold bytes print
  rw [Value.tokens]
  simp only [List.flatMap_cons, List.flatMap_nil, List.append_nil, Token.print]
  exact utf8Length_ascii (printNumber_ascii n)

theorem bytes_natural {n k : ℕ} (hk : 0 < k) (h : n < 10^k) : bytes (.number (.ofNat n)) ≤ k := by
  have hlength := decimal_length_le hk h
  rw [bytes_number]
  simpa [printNumber, Number.ofNat, printFraction, printExponent] using hlength

theorem bytes_null : bytes .null = 4 := by
  unfold bytes print
  rw [Value.tokens]
  decide

theorem bytes_bool (b : Bool) : bytes (.bool b) ≤ 5 := by
  unfold bytes print
  rw [Value.tokens]
  cases b <;> decide

/-- Bytes of a list of tokens. -/
def tokenBytes (ts : List Token) : ℕ := utf8Length (ts.flatMap Token.print)

theorem tokenBytes_cons (t : Token) (ts : List Token) :
    tokenBytes (t :: ts) ≤ utf8Length t.print + tokenBytes ts := by
  unfold tokenBytes
  rw [List.flatMap_cons]
  exact utf8Length_append_le _ _

theorem tokenBytes_append (ts us : List Token) :
    tokenBytes (ts ++ us) ≤ tokenBytes ts + tokenBytes us := by
  unfold tokenBytes
  rw [List.flatMap_append]
  exact utf8Length_append_le _ _

theorem moreElements_bytes (vs : List Value) :
    tokenBytes (moreElements vs) ≤ (vs.map fun v => bytes v + 1).sum := by
  induction vs with
  | nil => simp [moreElements, tokenBytes, utf8Length]
  | cons v vs ih =>
    have hcomma := tokenBytes_cons .comma (v.tokens ++ moreElements vs)
    have hrest := tokenBytes_append v.tokens (moreElements vs)
    have hunit : utf8Length Token.comma.print = 1 := by decide
    change tokenBytes (v.tokens ++ moreElements vs) ≤ bytes v + tokenBytes (moreElements vs) at hrest
    rw [moreElements, List.map_cons, List.sum_cons]
    omega

/-- An array takes its elements, a comma for each, and the brackets. -/
theorem bytes_array (vs : List Value) :
    bytes (.array vs) ≤ (vs.map fun v => bytes v + 1).sum + 2 := by
  have hopen := tokenBytes_cons .openArray (elementTokens vs ++ [.closeArray])
  have hclose := tokenBytes_append (elementTokens vs) [.closeArray]
  have hunits : utf8Length Token.openArray.print = 1 ∧ tokenBytes [.closeArray] = 1 := by decide
  have helements : tokenBytes (elementTokens vs) ≤ (vs.map fun v => bytes v + 1).sum := by
    cases vs with
    | nil => simp [elementTokens, tokenBytes, utf8Length]
    | cons v vs =>
      have hrest := tokenBytes_append v.tokens (moreElements vs)
      have hmore := moreElements_bytes vs
      change tokenBytes (v.tokens ++ moreElements vs) ≤ bytes v + tokenBytes (moreElements vs) at hrest
      rw [elementTokens, List.map_cons, List.sum_cons]
      omega
  change tokenBytes (Value.array vs).tokens ≤ _
  rw [Value.tokens]
  omega

theorem moreFields_bytes (fs : List (Text × Value)) :
    tokenBytes (moreFields fs) ≤ (fs.map fieldBytes).sum := by
  induction fs with
  | nil => simp [moreFields, tokenBytes, utf8Length]
  | cons f fs ih =>
    obtain ⟨k, v⟩ := f
    have hcomma := tokenBytes_cons .comma (.string k :: .colon :: (v.tokens ++ moreFields fs))
    have hkey := tokenBytes_cons (.string k) (.colon :: (v.tokens ++ moreFields fs))
    have hcolon := tokenBytes_cons .colon (v.tokens ++ moreFields fs)
    have hrest := tokenBytes_append v.tokens (moreFields fs)
    have hunits : utf8Length Token.comma.print = 1 ∧ utf8Length Token.colon.print = 1 := by decide
    change _ ≤ utf8Length (printString k) + _ at hkey
    change tokenBytes (v.tokens ++ moreFields fs) ≤ bytes v + tokenBytes (moreFields fs) at hrest
    have hfield : fieldBytes (k, v) = utf8Length (printString k) + bytes v + 2 := rfl
    rw [moreFields, List.map_cons, List.sum_cons, hfield]
    omega

/-- An object takes its fields and the braces. -/
theorem bytes_object (fs : List (Text × Value)) :
    bytes (.object fs) ≤ (fs.map fieldBytes).sum + 2 := by
  have hopen := tokenBytes_cons .openObject (fieldTokens fs ++ [.closeObject])
  have hclose := tokenBytes_append (fieldTokens fs) [.closeObject]
  have hunits : utf8Length Token.openObject.print = 1 ∧ tokenBytes [.closeObject] = 1 := by decide
  have hfields : tokenBytes (fieldTokens fs) ≤ (fs.map fieldBytes).sum := by
    cases fs with
    | nil => simp [fieldTokens, tokenBytes, utf8Length]
    | cons f fs =>
      obtain ⟨k, v⟩ := f
      have hkey := tokenBytes_cons (.string k) (.colon :: (v.tokens ++ moreFields fs))
      have hcolon := tokenBytes_cons .colon (v.tokens ++ moreFields fs)
      have hrest := tokenBytes_append v.tokens (moreFields fs)
      have hmore := moreFields_bytes fs
      have hunit : utf8Length Token.colon.print = 1 := by decide
      change _ ≤ utf8Length (printString k) + _ at hkey
      change tokenBytes (v.tokens ++ moreFields fs) ≤ bytes v + tokenBytes (moreFields fs) at hrest
      have hfield : fieldBytes (k, v) = utf8Length (printString k) + bytes v + 2 := rfl
      rw [fieldTokens, List.map_cons, List.sum_cons, hfield]
      omega
  change tokenBytes (Value.object fs).tokens ≤ _
  rw [Value.tokens]
  omega

/-- The keys of an object are given, so their bytes can be counted. -/
theorem bytes_object_le {fs : List (Text × Value)} {k n : ℕ}
    (hkeys : (fs.map fun f => utf8Length (printString f.1) + 2).sum = k)
    (hvalues : (fs.map fun f => bytes f.2).sum ≤ n) : bytes (.object fs) ≤ k + n + 2 := by
  have hsplit : (fs.map fieldBytes).sum =
      (fs.map fun f => utf8Length (printString f.1) + 2).sum + (fs.map fun f => bytes f.2).sum := by
    rw [← List.sum_map_add]
    congr 1
    apply List.map_congr_left
    intro f _
    unfold fieldBytes
    omega
  have hobject := bytes_object fs
  omega

/-- Every element of a list takes at most `b` bytes. -/
theorem sum_bytes_le {α : Type*} {f : α → ℕ} {l : List α} {b : ℕ} (h : ∀ a ∈ l, f a ≤ b) :
    (l.map f).sum ≤ l.length * b := by
  have hsum := List.sum_le_card_nsmul (l.map f) b (by simpa using h)
  simpa using hsum

end Values

end Json
