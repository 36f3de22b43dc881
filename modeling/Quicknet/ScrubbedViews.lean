import Quicknet.TextScrubber

/-! The views of a scrubbed text. Where no escape of what stands before is read into what
stands after, the two are decoded apart, and each still stands for its own range of the
source. -/
namespace Quicknet

open Json (Text text unit)
open Uri

/-! Normalization. -/

section Normalization

@[simp] theorem length_lowercaseAscii (t : Text) : (lowercaseAscii t).length = t.length := by
  simp [lowercaseAscii]

theorem lowercaseAsciiUnit_idem (c : UInt16) :
    lowercaseAsciiUnit (lowercaseAsciiUnit c) = lowercaseAsciiUnit c := by
  unfold lowercaseAsciiUnit
  split
  · rename_i h
    have hn : (UInt16.ofNat (c.toNat+32)).toNat = c.toNat+32 := by
      rw [UInt16.toNat_ofNat']
      omega
    rw [if_neg]
    omega
  · rfl

theorem length_normalizeFrom (escape : Bool) (t : Text) :
    (normalizeFrom escape t).length = t.length := by
  induction escape, t using normalizeFrom.induct with
  | case1 => rfl
  | case2 => rfl
  | case3 c d rest h ih =>
    rw [normalizeFrom, if_pos h]
    simp only [List.length_cons, ih]
  | case4 c d rest h hhex ih =>
    rw [normalizeFrom, if_neg h, if_pos hhex]
    simp only [List.length_cons, ih]
  | case5 c d rest h hhex ih =>
    rw [normalizeFrom, if_neg h, if_neg hhex]
    simp only [List.length_cons, ih]
  | case6 c d rest ih =>
    rw [normalizeFrom]
    simp only [List.length_cons, ih]

@[simp] theorem length_normalizePercentEscapes (t : Text) :
    (normalizePercentEscapes t).length = t.length := length_normalizeFrom false t

theorem lowercaseAscii_normalizeFrom (escape : Bool) (t : Text) :
    lowercaseAscii (normalizeFrom escape t) = lowercaseAscii t := by
  induction escape, t using normalizeFrom.induct with
  | case1 => rfl
  | case2 => rfl
  | case3 c d rest h ih =>
    rw [normalizeFrom, if_pos h]
    simpa only [lowercaseAscii, List.map_cons, List.cons.injEq, true_and] using ih
  | case4 c d rest h hhex ih =>
    rw [normalizeFrom, if_neg h, if_pos hhex]
    simpa only [lowercaseAscii, List.map_cons, List.cons.injEq, lowercaseAsciiUnit_idem,
      true_and] using ih
  | case5 c d rest h hhex ih =>
    rw [normalizeFrom, if_neg h, if_neg hhex]
    simpa only [lowercaseAscii, List.map_cons, List.cons.injEq, true_and] using ih
  | case6 c d rest ih =>
    rw [normalizeFrom]
    simpa only [lowercaseAscii, List.map_cons, List.cons.injEq, true_and] using ih

/-- Up to case, normalization changes nothing. -/
theorem lowercaseAscii_normalize (t : Text) :
    lowercaseAscii (normalizePercentEscapes t) = lowercaseAscii t :=
  lowercaseAscii_normalizeFrom false t

end Normalization

/-! One character. -/

section Reading

theorem escapeBytes_of_utf8 {c : Char} {b : UInt8} {bs : List UInt8} (h : utf8 c = b :: bs) :
    escapeBytes b = some (utf8 c).length := by
  obtain ⟨b', bs', h', hb⟩ := utf8_first c
  obtain ⟨rfl, rfl⟩ := List.cons.inj (h.symm.trans h')
  rw [h, List.length_cons]
  unfold escapeBytes
  split_ifs <;> (congr 1; omega)

/-- The escapes of a character are read as the character. -/
theorem readPercentCharacter_of_escapes {c : Char} {e : Text} (h : Escapes (utf8 c) e)
    (rest : Text) : readPercentCharacter (e ++ rest) = some (utf16 c, e.length) := by
  obtain ⟨b, bs, hc, _⟩ := utf8_first c
  have hlength := h.length
  have hbytes := h.escapedBytes rest
  have hcount := escapeBytes_of_utf8 hc
  have hfirst : escapedByte (e ++ rest) = some b := by
    rw [hc] at h
    cases h with
    | cons hh hl _ => exact escapedByte_cons hh hl _
  have htake : (e ++ rest).take ((utf8 c).length * 3) = e := by
    rw [Nat.mul_comm, ← hlength]
    exact List.take_left
  simp only [readPercentCharacter, hfirst, hcount, hbytes, htake, Option.bind_eq_bind,
    Option.bind_some, decodeURIComponent_of_escapes h]
  rw [hlength, Nat.mul_comm]
  rfl

/-- What is read is an escaped character. -/
theorem escapes_of_readPercentCharacter {t character : Text} {length : ℕ}
    (h : readPercentCharacter t = some (character, length)) :
    ∃ c, Escapes (utf8 c) (t.take length) ∧ character = utf16 c := by
  simp only [readPercentCharacter, Option.bind_eq_bind, Option.bind_eq_some_iff] at h
  obtain ⟨first, hfirst, bytes, hbytes, bs, hbs, d, hd, heq⟩ := h
  cases heq
  have hlength := length_of_escapedBytes hbs
  have htake : (t.take (bytes*3)).length = bytes*3 := List.length_take_of_le (by omega)
  have hpos : 0 < bytes := by
    unfold escapeBytes at hbytes
    split_ifs at hbytes <;> cases hbytes <;> omega
  have hbyte : escapedByte (t.take (bytes*3)) = some first := by
    rw [escapedByte_take (by omega), hfirst]
  rw [decodeURIComponent, htake] at hd
  cases hescapes : t.take (bytes*3) with
  | nil =>
    rw [hescapes] at hbyte
    cases hbyte
  | cons u rest =>
    have hu : u = percent := by
      by_contra hu
      rw [hescapes, escapedByte_eq_none hu] at hbyte
      cases hbyte
    obtain ⟨m, hm⟩ : ∃ m, bytes*3 = m+1 := ⟨bytes*3-1, by omega⟩
    rw [hescapes, hm] at hd
    simp only [decodeFrom, if_pos hu, Option.bind_eq_bind, Option.bind_eq_some_iff] at hd
    obtain ⟨⟨c, n⟩, hchar, tail, htail, hd⟩ := hd
    cases hd
    obtain ⟨hn, hwritten, hhead⟩ := escapes_of_escapedChar hchar
    -- the first byte tells how many escapes there are, so that nothing follows the character
    obtain ⟨b, others, hb, _⟩ := utf8_first c
    have hfirst : b = first := by
      rw [hescapes] at hbyte
      rw [hbyte, hb] at hhead
      exact (Option.some.inj hhead).symm
    have hcount : n = bytes := by
      rw [hn]
      exact Option.some.inj ((escapeBytes_of_utf8 hb).symm.trans (hfirst ▸ hbytes))
    have hall : (u :: rest).length = 3*n := by
      rw [← hescapes, htake, hcount, Nat.mul_comm]
    dsimp only at htail
    rw [List.drop_eq_nil_of_le hall.le, decodeFrom_nil] at htail
    cases htail
    rw [List.take_of_length_le hall.le] at hwritten
    exact ⟨c, hwritten, List.append_nil _⟩

theorem readPercentCharacter_eq_none {c : UInt16} (h : c ≠ percent) (rest : Text) :
    readPercentCharacter (c :: rest) = none := by
  rw [readPercentCharacter, escapedByte_eq_none h]
  rfl

/-- What is read is shorter than its escapes, which the text holds in full. -/
theorem length_of_readPercentCharacter {t character : Text} {length : ℕ}
    (h : readPercentCharacter t = some (character, length)) :
    0 < character.length ∧ character.length < length ∧ length ≤ t.length := by
  simp only [readPercentCharacter, Option.bind_eq_bind, Option.bind_eq_some_iff] at h
  obtain ⟨first, hfirst, bytes, hbytes, bs, hbs, _, hd, hc⟩ := h
  cases hc
  have hlength := length_of_escapedBytes hbs
  have hpos : 0 < bytes := by
    unfold escapeBytes at hbytes
    split_ifs at hbytes <;> cases hbytes <;> omega
  have hhead : t.head? = some percent := by
    unfold escapedByte at hfirst
    split at hfirst
    · split at hfirst
      · rename_i hc
        rw [hc]
        rfl
      · cases hfirst
    · cases hfirst
  have hne : character ≠ [] := by
    intro hnil
    rw [hnil] at hd
    have htake := eq_nil_of_decodeFrom hd
    rw [← List.length_eq_zero_iff, List.length_take] at htake
    omega
  have hshort := (length_of_decodeFrom hd).2
  rw [List.head?_take, if_neg (by omega), List.length_take] at hshort
  have := hshort hhead
  exact ⟨List.length_pos_iff.mpr hne, by omega, by omega⟩

end Reading

/-! A decoded view. -/

section Decoding

@[simp] theorem text_nil : TextView.text [] = [] := rfl

@[simp] theorem text_cons (c : ViewUnit) (view : TextView) :
    TextView.text (c :: view) = c.unit :: TextView.text view := rfl

@[simp] theorem text_append (before after : TextView) :
    TextView.text (before ++ after) = before.text ++ after.text := List.map_append

@[simp] theorem length_text (view : TextView) : view.text.length = view.length :=
  List.length_map _

theorem decodePercentFrom_eq_drop (skip : ℕ) (view : TextView) :
    decodePercentFrom skip view = decodePercentView (view.drop skip) := by
  induction view generalizing skip with
  | nil => cases skip <;> rfl
  | cons c rest ih =>
    cases skip with
    | zero => rfl
    | succ skip => exact ih skip

theorem decodePercentView_cons {c : ViewUnit} {rest : TextView}
    (h : readPercentCharacter (TextView.text (c :: rest)) = none) :
    decodePercentView (c :: rest) = c :: decodePercentView rest := by
  simp only [decodePercentView, decodePercentFrom, h]

/-- What a character is decoded to: each unit maps to the complete encoded character. -/
def decodedUnits (character : Text) (c : ViewUnit) (view : TextView) (length : ℕ) : TextView :=
  character.map fun u => ⟨u, c.start, ((view[length-1]?).getD c).stop⟩

theorem decodePercentView_read {c : ViewUnit} {rest : TextView} {character : Text} {length : ℕ}
    (h : readPercentCharacter (TextView.text (c :: rest)) = some (character, length)) :
    decodePercentView (c :: rest) = decodedUnits character c (c :: rest) length ++
      decodePercentView ((c :: rest).drop length) := by
  have hlength := (length_of_readPercentCharacter h).2.1
  have hdrop : (c :: rest).drop length = rest.drop (length-1) := by
    cases length with
    | zero => omega
    | succ n => rfl
  simp only [decodePercentView, decodePercentFrom, h, hdrop]
  rw [decodePercentFrom_eq_drop]
  rfl

theorem getLast?_decodedUnits {character : Text} (h : 0 < character.length) (c : ViewUnit)
    (view : TextView) (length : ℕ) :
    (decodedUnits character c view length).getLast?.map (·.stop) =
      some ((view[length-1]?).getD c).stop := by
  have hlast := List.getLast?_eq_some_getLast (List.ne_nil_of_length_pos h)
  rw [decodedUnits, List.getLast?_map, hlast]
  rfl

/-- Nothing is decoded, or the view gets shorter. -/
theorem decodePercentView_eq_or_shorter (view : TextView) :
    decodePercentView view = view ∨ (decodePercentView view).length < view.length := by
  match view with
  | [] => exact Or.inl rfl
  | c :: rest =>
    cases h : readPercentCharacter (TextView.text (c :: rest)) with
    | none =>
      rw [decodePercentView_cons h]
      obtain heq | hlt := decodePercentView_eq_or_shorter rest
      · exact Or.inl (by rw [heq])
      · exact Or.inr (by simpa using hlt)
    | some read =>
      obtain ⟨hpos, hshort, hle⟩ := length_of_readPercentCharacter h
      rw [decodePercentView_read h]
      rw [length_text] at hle
      -- what follows the escapes does not get longer either
      have hrest : (decodePercentView ((c :: rest).drop read.2)).length ≤
          (c :: rest).length - read.2 := by
        rw [← List.length_drop]
        obtain heq | hlt := decodePercentView_eq_or_shorter ((c :: rest).drop read.2)
        · rw [heq]
        · exact hlt.le
      refine Or.inr ?_
      simp only [decodedUnits, List.length_append, List.length_map]
      omega
termination_by view.length
decreasing_by
  · simp
  · have := length_of_readPercentCharacter h
    simp only [List.length_drop, List.length_cons]
    omega

/-- A view that shows the same text is the same view. -/
theorem decodePercentView_of_text {view : TextView}
    (h : (decodePercentView view).text = view.text) : decodePercentView view = view := by
  obtain heq | hlt := decodePercentView_eq_or_shorter view
  · exact heq
  · have hlength := congrArg List.length h
    rw [length_text, length_text] at hlength
    omega

/-- A decoded view stands for the same range of the source. -/
theorem ends_decodePercentView (view : TextView) :
    (decodePercentView view).head?.map (·.start) = view.head?.map (·.start) ∧
      (decodePercentView view).getLast?.map (·.stop) = view.getLast?.map (·.stop) := by
  match view with
  | [] => exact ⟨rfl, rfl⟩
  | c :: rest =>
    cases h : readPercentCharacter (TextView.text (c :: rest)) with
    | none =>
      rw [decodePercentView_cons h]
      refine ⟨rfl, ?_⟩
      have hlast := (ends_decodePercentView rest).2
      rw [List.getLast?_cons, List.getLast?_cons]
      cases hd : (decodePercentView rest).getLast? <;> cases hr : rest.getLast? <;>
        rw [hd, hr] at hlast <;> simp_all
    | some read =>
      obtain ⟨hpos, _, hle⟩ := length_of_readPercentCharacter h
      have hrest := (ends_decodePercentView ((c :: rest).drop read.2)).2
      have hunits := getLast?_decodedUnits hpos c (c :: rest) read.2
      rw [length_text] at hle
      rw [decodePercentView_read h]
      constructor
      · obtain ⟨u, units, hcons⟩ := List.exists_cons_of_length_pos hpos
        rw [decodedUnits, hcons]
        rfl
      -- the last unit is decoded with the character, or after it
      cases hdrop : (c :: rest).drop read.2 with
      | nil =>
        have hn : read.2 = (c :: rest).length := by
          have := List.drop_eq_nil_iff.mp hdrop
          omega
        rw [show decodePercentView [] = [] from rfl, List.append_nil, hunits, hn,
          List.getLast?_eq_getElem?]
        simp
      | cons d after =>
        have hlast : (c :: rest).getLast? = (d :: after).getLast? := by
          rw [← List.take_append_drop read.2 (c :: rest), hdrop, List.getLast?_append]
          simp [List.getLast?_cons]
        rw [hdrop] at hrest
        rw [hlast, ← hrest, List.getLast?_append]
        cases hd : (decodePercentView (d :: after)).getLast? with
        | none =>
          rw [hd, List.getLast?_cons] at hrest
          cases hrest
        | some last => rfl
termination_by view.length
decreasing_by
  · simp
  · have := length_of_readPercentCharacter h
    simp only [List.length_drop, List.length_cons]
    omega

/-- The range of the source that a part of a view stands for. -/
def viewRange (here : TextView) : TextRange :=
  ⟨(here.head?.map (·.start)).getD 0, (here.getLast?.map (·.stop)).getD 0⟩

/-- The escapes of a character are decoded together, and each unit stands for all of them. -/
theorem decodePercentView_of_escapes {c : Char} {escapes : TextView}
    (h : Escapes (utf8 c) escapes.text) (rest : TextView) :
    decodePercentView (escapes ++ rest) =
      (utf16 c).map (fun u => ⟨u, (viewRange escapes).start, (viewRange escapes).stop⟩) ++
        decodePercentView rest := by
  have hlength := h.length
  have hpos : 0 < escapes.length := by
    obtain ⟨b, bs, hc, _⟩ := utf8_first c
    rw [length_text, hc, List.length_cons] at hlength
    omega
  obtain ⟨first, others, rfl⟩ := List.exists_cons_of_length_pos hpos
  have hread := readPercentCharacter_of_escapes h (TextView.text rest)
  rw [← text_append, length_text, List.cons_append] at hread
  have hget : ((first :: others) ++ rest)[(first :: others).length-1]? =
      (first :: others).getLast? := by
    rw [List.getElem?_append_left (by omega), List.getLast?_eq_getElem?]
  have hlast := List.getLast?_eq_some_getLast (List.cons_ne_nil first others)
  rw [List.cons_append, decodePercentView_read hread, ← List.cons_append, List.drop_left,
    decodedUnits, hget, viewRange, hlast]
  rfl

/-- A text that encodes another is decoded to it, whatever follows. -/
theorem decodePercentView_of_encodes {s t : Text} (h : Encodes s t) :
    ∀ view : TextView, view.text = t → (decodePercentView view).text = s ∧
      ∀ rest : TextView, decodePercentView (view ++ rest) =
        decodePercentView view ++ decodePercentView rest := by
  induction h with
  | nil =>
    intro view hview
    rw [List.map_eq_nil_iff.mp hview]
    exact ⟨rfl, fun rest => rfl⟩
  | literal hu hs ih =>
    intro view hview
    obtain ⟨c, view, rfl, rfl, hrest⟩ := List.map_eq_cons_iff.mp hview
    obtain ⟨htext, happend⟩ := ih view hrest
    have hread (rest : TextView) :
        readPercentCharacter (TextView.text (c :: rest)) = none :=
      readPercentCharacter_eq_none hu _
    constructor
    · rw [decodePercentView_cons (hread view), text_cons, htext]
    · intro rest
      rw [List.cons_append, decodePercentView_cons (hread _), happend,
        decodePercentView_cons (hread view), List.cons_append]
  | @escaped c e s t he hs ih =>
    intro view hview
    obtain ⟨escapes, view, rfl, htexte, htextt⟩ := List.map_eq_append_iff.mp hview
    obtain ⟨htext, happend⟩ := ih view htextt
    subst htexte
    constructor
    · rw [decodePercentView_of_escapes he, text_append, htext]
      simp [TextView.text, Function.comp_def]
    · intro rest
      rw [List.append_assoc, decodePercentView_of_escapes he, happend,
        decodePercentView_of_escapes he, List.append_assoc]

end Decoding

end Quicknet
