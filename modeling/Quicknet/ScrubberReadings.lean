import Quicknet.ScrubbedViews

/-! How a text reads: what its decodings show, and where a stretch of it is written as
another text. -/
namespace Quicknet

open Json (Text text unit)
open Uri

/-! Escapes whose digits are written in lower case. -/

/-- After a percent sign, any number of `25` and the pair of digits at this offset. -/
inductive EscapePair : Text → ℕ → Prop
  | digits {c d : UInt16} {rest : Text} : isHexDigit c = true → isHexDigit d = true →
      ¬ (c = unit '2' ∧ d = unit '5') → EscapePair (c :: d :: rest) 0
  | percent {rest : Text} {n : ℕ} : EscapePair rest n →
      EscapePair (unit '2' :: unit '5' :: rest) (n+2)

/-- The unit at the index is one of the last two digits of an escape, whose percent sign may
be escaped again and again. -/
def EscapeDigit (t : Text) (k : ℕ) : Prop :=
  ∃ before after n, t = before ++ percent :: after ∧ EscapePair after n ∧
    (k = before.length+1+n ∨ k = before.length+1+n+1)

/-- The unit at the index, in lower case where its case does not count. -/
def UnitRead (ignoreCase : Bool) (t : Text) (k : ℕ) (c : UInt16) : Prop :=
  ∃ u, t[k]? = some u ∧ ((ignoreCase = true ∨ EscapeDigit t k) ∧ c = lowercaseAsciiUnit u ∨
    ¬ (ignoreCase = true ∨ EscapeDigit t k) ∧ c = u)

/-- From the index on the text reads as `form`. -/
def ReadsAs (ignoreCase : Bool) (form t : Text) (i : ℕ) : Prop :=
  form ≠ [] ∧ ∀ q < form.length, ∃ c, UnitRead ignoreCase form q c ∧ UnitRead ignoreCase t (i+q) c

/-- The digits of the escape that a percent sign before the text begins, if one stands there,
and of those in the text. -/
def DigitAfter (escape : Bool) (t : Text) (k : ℕ) : Prop :=
  escape = true ∧ (∃ n, EscapePair t n ∧ (k = n ∨ k = n+1)) ∨ EscapeDigit t k

section Digits

variable {t : Text} {k : ℕ} {c d : UInt16}

theorem EscapePair.lt {n : ℕ} (h : EscapePair t n) : n+1 < t.length := by
  induction h with
  | digits _ _ _ =>
    simp only [List.length_cons]
    omega
  | percent _ ih =>
    simp only [List.length_cons]
    omega

theorem EscapeDigit.after_percent (h : EscapeDigit t k) : ∃ p < k, t[p]? = some percent := by
  obtain ⟨before, after, n, rfl, _, hk⟩ := h
  refine ⟨before.length, by omega, ?_⟩
  rw [List.getElem?_append_right le_rfl, Nat.sub_self]
  rfl

theorem not_escapeDigit_zero : ¬ EscapeDigit t 0 := by
  rintro ⟨_, _, _, _, _, hk⟩
  omega

theorem escapeDigit_cons : EscapeDigit (c :: t) (k+1) ↔ DigitAfter (c == percent) t k := by
  constructor
  · rintro ⟨before, after, n, hsplit, hpair, hk⟩
    cases before with
    | nil =>
      obtain ⟨rfl, rfl⟩ := List.cons.inj hsplit
      refine Or.inl ⟨beq_self_eq_true _, n, hpair, ?_⟩
      rw [List.length_nil] at hk
      omega
    | cons b before =>
      obtain ⟨rfl, rfl⟩ := List.cons.inj hsplit
      refine Or.inr ⟨before, after, n, rfl, hpair, ?_⟩
      rw [List.length_cons] at hk
      omega
  · rintro (⟨hc, n, hpair, hk⟩ | ⟨before, after, n, rfl, hpair, hk⟩)
    · rw [beq_iff_eq.mp hc]
      exact ⟨[], t, n, rfl, hpair, by rw [List.length_nil]; omega⟩
    · exact ⟨c :: before, after, n, rfl, hpair, by rw [List.length_cons]; omega⟩

theorem digitAfter_false : DigitAfter false t k ↔ EscapeDigit t k := by
  simp [DigitAfter]

theorem isHexDigit_ne_percent (h : isHexDigit c = true) : c ≠ percent := by
  rintro rfl
  exact absurd h (by decide)

/-- Past a unit that begins no escape the digits are those of the rest. -/
theorem escapeDigit_cons_of_ne (hc : c ≠ percent) :
    EscapeDigit (c :: t) (k+1) ↔ EscapeDigit t k := by
  rw [escapeDigit_cons, beq_eq_false_iff_ne.mpr hc, digitAfter_false]

/-- What normalization leaves at an index. -/
theorem get_normalizeFrom (escape : Bool) (t : Text) : ∀ k u, t[k]? = some u →
    (DigitAfter escape t k → (normalizeFrom escape t)[k]? = some (lowercaseAsciiUnit u)) ∧
      (¬ DigitAfter escape t k → (normalizeFrom escape t)[k]? = some u) := by
  induction escape, t using normalizeFrom.induct with
  | case1 escape =>
    intro k u hu
    simp at hu
  | case2 escape c =>
    intro k u hu
    refine ⟨?_, fun _ => hu⟩
    -- a unit by itself is no pair, and begins none
    rintro (⟨_, n, hpair, _⟩ | ⟨before, after, n, hsplit, hpair, _⟩)
    · have := hpair.lt
      simp at this
    · have hlt := hpair.lt
      have := congrArg List.length hsplit
      rw [List.length_append, List.length_cons] at this
      simp at this
      omega
  | case3 c d rest h ih =>
    obtain ⟨rfl, rfl⟩ := h
    intro k u hu
    rw [normalizeFrom, if_pos ⟨rfl, rfl⟩]
    rcases k with _ | _ | k
    · obtain rfl := Option.some.inj hu
      exact ⟨fun _ => rfl, fun _ => rfl⟩
    · obtain rfl := Option.some.inj hu
      exact ⟨fun _ => rfl, fun _ => rfl⟩
    · have hiff : DigitAfter true (unit '2' :: unit '5' :: rest) (k+2) ↔
          DigitAfter true rest k := by
        unfold DigitAfter
        rw [escapeDigit_cons_of_ne (by decide), escapeDigit_cons_of_ne (by decide)]
        apply or_congr_left
        apply and_congr_right
        intro _
        constructor
        · rintro ⟨n, hpair, hk⟩
          cases hpair with
          | digits _ _ hne => exact absurd ⟨rfl, rfl⟩ hne
          | percent hpair => exact ⟨_, hpair, by omega⟩
        · rintro ⟨n, hpair, hk⟩
          exact ⟨n+2, .percent hpair, by omega⟩
      rw [hiff]
      exact ih k u hu
  | case4 c d rest hne hhex ih =>
    obtain ⟨hc, hd⟩ := Bool.and_eq_true_iff.mp hhex
    have hpair : EscapePair (c :: d :: rest) 0 := .digits hc hd hne
    intro k u hu
    rw [normalizeFrom, if_neg hne, if_pos hhex]
    rcases k with _ | _ | k
    · obtain rfl := Option.some.inj hu
      exact ⟨fun _ => rfl, fun hdigit => absurd (Or.inl ⟨rfl, 0, hpair, by omega⟩) hdigit⟩
    · obtain rfl := Option.some.inj hu
      exact ⟨fun _ => rfl, fun hdigit => absurd (Or.inl ⟨rfl, 0, hpair, by omega⟩) hdigit⟩
    · have hiff : DigitAfter true (c :: d :: rest) (k+2) ↔ DigitAfter false rest k := by
        rw [digitAfter_false, DigitAfter, escapeDigit_cons_of_ne (isHexDigit_ne_percent hc),
          escapeDigit_cons_of_ne (isHexDigit_ne_percent hd)]
        apply or_iff_right
        rintro ⟨_, n, hpair, hk⟩
        cases hpair with
        | digits _ _ _ => omega
        | percent _ => exact hne ⟨rfl, rfl⟩
      rw [hiff]
      exact ih k u hu
  | case5 c d rest hne hhex ih =>
    intro k u hu
    rw [normalizeFrom, if_neg hne, if_neg hhex]
    have hnone (n : ℕ) : ¬ EscapePair (c :: d :: rest) n := by
      rintro (⟨hc, hd, _⟩ | _)
      · exact hhex (by rw [hc, hd, Bool.and_self])
      · exact hne ⟨rfl, rfl⟩
    have hiff (k : ℕ) : DigitAfter true (c :: d :: rest) k ↔ EscapeDigit (c :: d :: rest) k := by
      apply or_iff_right
      rintro ⟨_, n, hpair, _⟩
      exact hnone n hpair
    rw [hiff]
    rcases k with _ | k
    · exact ⟨fun hdigit => absurd hdigit not_escapeDigit_zero, fun _ => hu⟩
    · rw [escapeDigit_cons]
      exact ih k u hu
  | case6 c d rest ih =>
    intro k u hu
    rw [normalizeFrom, digitAfter_false]
    rcases k with _ | k
    · exact ⟨fun hdigit => absurd hdigit not_escapeDigit_zero, fun _ => hu⟩
    · rw [escapeDigit_cons]
      exact ih k u hu

theorem unitRead_normalized : UnitRead false t k c ↔ (normalizePercentEscapes t)[k]? = some c := by
  unfold UnitRead
  constructor
  · rintro ⟨u, hu, h⟩
    obtain ⟨hdigit, hother⟩ := get_normalizeFrom false t k u hu
    simp only [digitAfter_false] at hdigit hother
    simp only [Bool.false_eq_true, false_or] at h
    rcases h with ⟨hk, rfl⟩ | ⟨hk, rfl⟩
    · exact hdigit hk
    · exact hother hk
  · intro h
    have hlt : k < t.length := by
      rw [← length_normalizePercentEscapes]
      exact (List.getElem?_eq_some_iff.mp h).1
    obtain ⟨hdigit, hother⟩ := get_normalizeFrom false t k t[k] (List.getElem?_eq_getElem hlt)
    simp only [digitAfter_false] at hdigit hother
    refine ⟨t[k], List.getElem?_eq_getElem hlt, ?_⟩
    simp only [Bool.false_eq_true, false_or]
    by_cases hk : EscapeDigit t k
    · exact Or.inl ⟨hk, Option.some.inj (h.symm.trans (hdigit hk))⟩
    · exact Or.inr ⟨hk, Option.some.inj (h.symm.trans (hother hk))⟩

theorem unitRead_folded : UnitRead true t k c ↔
    (lowercaseAscii (normalizePercentEscapes t))[k]? = some c := by
  rw [lowercaseAscii_normalize, lowercaseAscii, List.getElem?_map]
  simp [UnitRead, eq_comm]

end Digits

/-! Places. -/

section Places

variable {s t form : Text} {i : ℕ} {ignoreCase : Bool}

theorem prefix_drop_iff : s <+: t.drop i ↔ ∀ q < s.length, ∃ c, s[q]? = some c ∧
    t[i+q]? = some c := by
  rw [List.prefix_iff_getElem?]
  constructor
  · intro h q hq
    refine ⟨s[q], List.getElem?_eq_getElem hq, ?_⟩
    rw [← List.getElem?_drop]
    exact h q hq
  · intro h q hq
    obtain ⟨c, hs, ht⟩ := h q hq
    rw [List.getElem?_drop, ht, ← hs, List.getElem?_eq_getElem hq]

theorem readsAs_normalized : ReadsAs false form t i ↔ form ≠ [] ∧
    normalizePercentEscapes form <+: (normalizePercentEscapes t).drop i := by
  unfold ReadsAs
  rw [prefix_drop_iff, length_normalizePercentEscapes]
  simp only [unitRead_normalized]

theorem readsAs_folded : ReadsAs true form t i ↔ form ≠ [] ∧
    lowercaseAscii (normalizePercentEscapes form) <+:
      (lowercaseAscii (normalizePercentEscapes t)).drop i := by
  unfold ReadsAs
  rw [prefix_drop_iff, length_lowercaseAscii, length_normalizePercentEscapes]
  simp only [unitRead_folded]

/-- What reads as the form still does where case is ignored. -/
theorem ReadsAs.fold (h : ReadsAs ignoreCase form t i) : ReadsAs true form t i := by
  cases ignoreCase with
  | true => exact h
  | false =>
    obtain ⟨hne, hprefix⟩ := readsAs_normalized.mp h
    refine readsAs_folded.mpr ⟨hne, ?_⟩
    rw [lowercaseAscii, lowercaseAscii, ← List.map_drop]
    exact hprefix.map lowercaseAsciiUnit

/-- The occurrences that are collected. -/
theorem mem_collectLiteralRanges {r : TextRange} : r ∈ collectLiteralRanges t s ↔
    s ≠ [] ∧ r.stop = r.start + s.length ∧ s <+: t.drop r.start := by
  rw [collectLiteralRanges]
  split
  · rename_i hnil
    simp [hnil]
  · rename_i hne
    rw [List.mem_map]
    constructor
    · rintro ⟨i, hi, rfl⟩
      obtain ⟨_, hprefix⟩ := List.mem_filter.mp hi
      exact ⟨hne, rfl, List.isPrefixOf_iff_prefix.mp hprefix⟩
    · rintro ⟨_, hstop, hprefix⟩
      have hlt : r.start < t.length := by
        have hlength := hprefix.length_le
        have hpos := List.length_pos_iff.mpr hne
        rw [List.length_drop] at hlength
        omega
      refine ⟨r.start, List.mem_filter.mpr ⟨List.mem_range.mpr hlt, ?_⟩, ?_⟩
      · exact List.isPrefixOf_iff_prefix.mpr hprefix
      · rw [← hstop]

end Places

/-! Decoded views. -/

/-- One decoding of a view: where a character is escaped its units follow, each for all of the
escapes; a unit with which no escaped character begins is left. -/
inductive Decodes : TextView → TextView → Prop
  | nil : Decodes [] []
  | character {c : Char} {escapes rest decoded : TextView} : Escapes (utf8 c) escapes.text →
      Decodes rest decoded →
      Decodes (escapes ++ rest)
        ((utf16 c).map (fun u => ⟨u, (viewRange escapes).start, (viewRange escapes).stop⟩) ++
          decoded)
  | literal {u : ViewUnit} {rest decoded : TextView} :
      (∀ c e, Escapes (utf8 c) e → ¬ e <+: TextView.text (u :: rest)) → Decodes rest decoded →
      Decodes (u :: rest) (u :: decoded)

/-- What the text shows after a number of decodings. -/
inductive DecodedView (t : Text) : ℕ → TextView → Prop
  | source : DecodedView t 0 (Scrubber.sourceView t)
  | decoded {p : ℕ} {view decoded : TextView} : DecodedView t p view → Decodes view decoded →
      DecodedView t (p+1) decoded

/-- After the decodings an escaped character still stands in the text. -/
def StillEscaped (t : Text) : Prop :=
  ∃ view c e, DecodedView t MAX_PERCENT_DECODE_PASSES view ∧ Escapes (utf8 c) e ∧ e <:+: view.text

section Decoding

variable {t : Text} {view : TextView}

theorem readPercentCharacter_eq_none_iff : readPercentCharacter t = none ↔
    ∀ c e, Escapes (utf8 c) e → ¬ e <+: t := by
  constructor
  · rintro h c e he ⟨rest, rfl⟩
    rw [readPercentCharacter_of_escapes he] at h
    cases h
  · intro h
    cases hread : readPercentCharacter t with
    | none => rfl
    | some read =>
      obtain ⟨c, hc, _⟩ := escapes_of_readPercentCharacter hread
      exact absurd (List.take_prefix _ _) (h c _ hc)

/-- Text without percent signs is left, and nothing of it is read into what follows. -/
theorem decodePercentView_of_percent_free {before : TextView} (h : percent ∉ before.text) :
    decodePercentView (before ++ view) = before ++ decodePercentView view := by
  induction before with
  | nil => rfl
  | cons u before ih =>
    rw [text_cons, List.mem_cons, not_or] at h
    rw [List.cons_append, decodePercentView_cons (readPercentCharacter_eq_none (Ne.symm h.1) _),
      ih h.2, List.cons_append]

theorem decodes_decodePercentView (view : TextView) : Decodes view (decodePercentView view) := by
  match view with
  | [] => exact .nil
  | u :: rest =>
    cases h : readPercentCharacter (TextView.text (u :: rest)) with
    | none =>
      rw [decodePercentView_cons h]
      exact .literal (readPercentCharacter_eq_none_iff.mp h) (decodes_decodePercentView rest)
    | some read =>
      obtain ⟨c, hc, _⟩ := escapes_of_readPercentCharacter h
      have htake : TextView.text ((u :: rest).take read.2) =
          (TextView.text (u :: rest)).take read.2 := List.map_take
      rw [← htake] at hc
      have hdecoded := decodePercentView_of_escapes hc ((u :: rest).drop read.2)
      rw [List.take_append_drop] at hdecoded
      rw [hdecoded]
      nth_rewrite 1 [← List.take_append_drop read.2 (u :: rest)]
      exact .character hc (decodes_decodePercentView _)
termination_by view.length
decreasing_by
  · simp
  · have := length_of_readPercentCharacter h
    simp only [List.length_drop, List.length_cons]
    omega

theorem decodes_iff {decoded : TextView} :
    Decodes view decoded ↔ decoded = decodePercentView view := by
  constructor
  · intro h
    induction h with
    | nil => rfl
    | character he _ ih => rw [decodePercentView_of_escapes he, ih]
    | literal hu _ ih => rw [decodePercentView_cons (readPercentCharacter_eq_none_iff.mpr hu), ih]
  · rintro rfl
    exact decodes_decodePercentView view

theorem decodedView_iff {p : ℕ} : DecodedView t p view ↔
    view = decodePercentView^[p] (Scrubber.sourceView t) := by
  induction p generalizing view with
  | zero =>
    constructor
    · rintro ⟨⟩
      rfl
    · rintro rfl
      exact .source
  | succ p ih =>
    rw [Function.iterate_succ_apply']
    constructor
    · rintro (_ | ⟨hview, hdecodes⟩)
      rw [← ih.mp hview]
      exact decodes_iff.mp hdecodes
    · rintro rfl
      exact .decoded (ih.mpr rfl) (decodes_decodePercentView _)

/-- A view stays as it is where no escaped character stands in it. -/
theorem decodePercentView_eq_self_iff : decodePercentView view = view ↔
    ∀ c e, Escapes (utf8 c) e → ¬ e <:+: view.text := by
  induction view with
  | nil =>
    simp only [text_nil, List.infix_nil]
    refine ⟨?_, fun _ => rfl⟩
    rintro _ c _ he rfl
    obtain ⟨b, bs, hc, _⟩ := utf8_first c
    rw [hc] at he
    cases he
  | cons u rest ih =>
    cases h : readPercentCharacter (TextView.text (u :: rest)) with
    | none =>
      rw [decodePercentView_cons h, List.cons.injEq, and_iff_right rfl, ih]
      have hhead := readPercentCharacter_eq_none_iff.mp h
      simp only [text_cons, List.infix_cons_iff] at hhead ⊢
      constructor
      · rintro hrest c e he (hbegins | hinfix)
        · exact hhead c e he hbegins
        · exact hrest c e he hinfix
      · intro hall c e he hinfix
        exact hall c e he (Or.inr hinfix)
    -- a reading makes the view shorter, so that it cannot stay as it is
    | some read =>
      obtain ⟨c, hc, _⟩ := escapes_of_readPercentCharacter h
      obtain ⟨_, hshort, hle⟩ := length_of_readPercentCharacter h
      constructor
      · intro heq
        rw [decodePercentView_read h] at heq
        have hlength := congrArg List.length heq
        have hrest : (decodePercentView ((u :: rest).drop read.2)).length ≤
            (u :: rest).length - read.2 := by
          rw [← List.length_drop]
          obtain heq | hlt := decodePercentView_eq_or_shorter ((u :: rest).drop read.2)
          · rw [heq]
          · exact hlt.le
        rw [length_text] at hle
        simp only [decodedUnits, List.length_append, List.length_map] at hlength
        omega
      · intro hall
        exact absurd (List.take_prefix _ _).isInfix (hall c _ hc)

theorem stillEscaped_iff : StillEscaped t ↔
    decodePercentView (decodePercentView^[MAX_PERCENT_DECODE_PASSES] (Scrubber.sourceView t)) ≠
      decodePercentView^[MAX_PERCENT_DECODE_PASSES] (Scrubber.sourceView t) := by
  rw [Ne, decodePercentView_eq_self_iff]
  push Not
  simp only [StillEscaped, decodedView_iff]
  constructor
  · rintro ⟨_, c, e, rfl, he, hinfix⟩
    exact ⟨c, e, he, hinfix⟩
  · rintro ⟨c, e, he, hinfix⟩
    exact ⟨_, c, e, rfl, he, hinfix⟩

end Decoding

end Quicknet
