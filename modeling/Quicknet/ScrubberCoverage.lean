import Quicknet.ScrubberForms
import Quicknet.ScrubberReadings

/-! What the scrubber hides: the units of the text that lie in the source of what it looks
for, in the text as it stands or after a decoding. A secret is found in the view in which it
stands literally, and its range there maps back to the whole of what writes it. -/
namespace Quicknet

open Json (Text text unit)
open Uri

/-! Merged ranges. -/

section Merging

/-- The merged ranges hold the same units as those that they are made of. -/
theorem mergeInto_covers (previous : TextRange) (rest : List TextRange)
    (hsorted : (previous :: rest).Pairwise fun left right => left.start ≤ right.start) (k : ℕ) :
    (∃ m ∈ mergeInto previous rest, m.start ≤ k ∧ k < m.stop) ↔
      ∃ r ∈ previous :: rest, r.start ≤ k ∧ k < r.stop := by
  induction rest generalizing previous with
  | nil => rfl
  | cons next rest ih =>
    obtain ⟨hprevious, hnext⟩ := List.pairwise_cons.mp hsorted
    have hle := hprevious next List.mem_cons_self
    rw [mergeInto]
    split
    · rename_i htouches
      have hjoined : ((⟨previous.start, max previous.stop next.stop⟩ : TextRange) ::
          rest).Pairwise fun left right => left.start ≤ right.start := by
        apply List.pairwise_cons.mpr
        exact ⟨fun r hr => hprevious r (List.mem_cons_of_mem _ hr),
          (List.pairwise_cons.mp hnext).2⟩
      rw [ih _ hjoined]
      simp only [List.exists_mem_cons_iff]
      -- the two touch, so that the joined range holds no unit between them
      rw [← or_assoc]
      apply or_congr_left
      omega
    · rw [List.exists_mem_cons_iff, List.exists_mem_cons_iff, ih next hnext]

theorem sorted_ranges (ranges : List TextRange) :
    (ranges.mergeSort fun left right => decide (left.start ≤ right.start)).Pairwise
      fun left right => left.start ≤ right.start := by
  let le (left right : TextRange) : Bool := decide (left.start ≤ right.start)
  have htrans (a b c : TextRange) (hab : le a b = true) (hbc : le b c = true) :
      le a c = true := by
    rw [decide_eq_true_eq] at hab hbc ⊢
    omega
  have htotal (a b : TextRange) : (le a b || le b a) = true := by
    rw [Bool.or_eq_true, decide_eq_true_eq, decide_eq_true_eq]
    omega
  exact (List.pairwise_mergeSort htrans htotal ranges).imp fun h => of_decide_eq_true h

theorem mergeRanges_covers (ranges : List TextRange) (k : ℕ) :
    (∃ m ∈ mergeRanges ranges, m.start ≤ k ∧ k < m.stop) ↔
      ∃ r ∈ ranges, r.start ≤ k ∧ k < r.stop := by
  have hsorted := sorted_ranges ranges
  have hmem (r : TextRange) :
      r ∈ ranges.mergeSort (fun left right => decide (left.start ≤ right.start)) ↔ r ∈ ranges :=
    List.mem_mergeSort
  rw [mergeRanges]
  split
  · rename_i hnil
    rw [hnil] at hmem
    simp only [← hmem]
  · rename_i range rest hcons
    rw [hcons] at hsorted hmem
    rw [mergeInto_covers range rest hsorted]
    simp only [hmem]

theorem mergeInto_ne_nil (previous : TextRange) (rest : List TextRange) :
    mergeInto previous rest ≠ [] := by
  induction rest generalizing previous with
  | nil => exact List.cons_ne_nil _ _
  | cons next rest ih =>
    rw [mergeInto]
    split
    · exact ih _
    · exact List.cons_ne_nil _ _

theorem mergeRanges_ne_nil {ranges : List TextRange} (h : ranges ≠ []) :
    mergeRanges ranges ≠ [] := by
  rw [mergeRanges]
  split
  · rename_i hnil
    have hlength := congrArg List.length hnil
    rw [List.length_mergeSort] at hlength
    exact absurd (List.length_eq_zero_iff.mp hlength) h
  · exact mergeInto_ne_nil _ _

end Merging

/-! What a pass finds. -/

/-- The secrets that must not be shown, with whether their case is ignored. -/
inductive Configured (lib : UrlLibrary) (options : CreateScrubberOptions) : Text → Bool → Prop
  | secrets {secret : Text} : secret ∈ options.secrets → Configured lib options secret false
  | username {value secret : Text} {url : Url} : value ∈ options.rpcUrls →
      lib.parse value = some url → secret ∈ urlValueForms url.username →
      Configured lib options secret false
  | password {value secret : Text} {url : Url} : value ∈ options.rpcUrls →
      lib.parse value = some url → secret ∈ urlValueForms url.password →
      Configured lib options secret false
  | privateKey {key : Text} : options.privateKey = some key →
      Configured lib options (privateKeyDigits key) true

/-- The ranges of a text that the scrubber looks for: the places that read as a form of a
secret, and what the text shows of URLs, authorization headers and tokens. -/
inductive Sensitive (lib : UrlLibrary) (options : CreateScrubberOptions) (t : Text) :
    TextRange → Prop
  | form {form : Text} {ignoreCase : Bool} {i : ℕ} : Sought lib options form ignoreCase →
      ReadsAs ignoreCase form t i → Sensitive lib options t ⟨i, i + form.length⟩
  | url {r : TextRange} : r ∈ collectUrlRanges lib t (configuredUrls lib options.rpcUrls) →
      Sensitive lib options t r
  | authorization {r : TextRange} : r ∈ collectAuthorizationRanges t → Sensitive lib options t r
  | token {r : TextRange} : r ∈ matchAll authTokenPattern t → Sensitive lib options t r

/-- The unit belongs to the source of a range that the scrubber looks for, in the text or
after at most two decodings. -/
def Detected (lib : UrlLibrary) (options : CreateScrubberOptions) (t : Text) (k : ℕ) : Prop :=
  ∃ p ≤ MAX_PERCENT_DECODE_PASSES, ∃ view r, DecodedView t p view ∧
    Sensitive lib options view.text r ∧ (Scrubber.sourceRange view r).start ≤ k ∧
      k < (Scrubber.sourceRange view r).stop

section Passes

variable {lib : UrlLibrary} {options : CreateScrubberOptions} {scrubber : Scrubber}
variable {before here after : TextView} {secret : Text} {ignoreCase : Bool}

/-- A secret is one of its own forms. -/
theorem Configured.sought (h : Configured lib options secret ignoreCase) (hne : secret ≠ []) :
    Sought lib options secret ignoreCase := by
  refine ⟨secret, ?_, hne, 0, by omega, secret, rfl, Or.inl rfl⟩
  cases h with
  | secrets hmem => exact .secrets hmem
  | @username _ _ url hmem hparse hform =>
    have hcomponent : (url.username, true) ∈ url.components := by simp [Url.components]
    exact .url hmem (.component hparse hcomponent (Or.inl rfl) hform)
  | @password _ _ url hmem hparse hform =>
    have hcomponent : (url.password, true) ∈ url.components := by simp [Url.components]
    exact .url hmem (.component hparse hcomponent (Or.inl rfl) hform)
  | privateKey hkey => exact .privateKey hkey

/-- A pass collects the ranges that the scrubber looks for, and no others. -/
theorem mem_collectSensitiveRanges (hscrubber : createScrubber lib options = .ok scrubber)
    {t : Text} {r : TextRange} :
    r ∈ scrubber.collectSensitiveRanges lib t ↔ Sensitive lib options t r := by
  obtain ⟨hurls, secrets, hheld, hexact, hfolded⟩ := createScrubber_holds hscrubber
  have hnormal (form : Text) (h : normalizePercentEscapes form ≠ []) : form ≠ [] := by
    rintro rfl
    exact h rfl
  simp only [Scrubber.collectSensitiveRanges, hurls, List.mem_append, List.mem_flatMap, hexact,
    hfolded]
  constructor
  · rintro ((((⟨_, ⟨form, hmem, rfl⟩, hr⟩ | ⟨_, ⟨form, hmem, rfl⟩, hr⟩) | hr) | hr) | hr)
    · obtain ⟨hne, hstop, hprefix⟩ := mem_collectLiteralRanges.mp hr
      have hreads : ReadsAs false form t r.start :=
        readsAs_normalized.mpr ⟨hnormal form hne, hprefix⟩
      obtain ⟨flag, hsought, _⟩ := (hheld form false).mp ⟨false, hmem, by simp⟩
      have hfound : ReadsAs flag form t r.start := by
        cases flag with
        | false => exact hreads
        | true => exact hreads.fold
      have hrange : r = ⟨r.start, r.start + form.length⟩ := by
        rw [length_normalizePercentEscapes] at hstop
        rw [← hstop]
      rw [hrange]
      exact .form hsought hfound
    · obtain ⟨hne, hstop, hprefix⟩ := mem_collectLiteralRanges.mp hr
      have hform : form ≠ [] := by
        rintro rfl
        exact hne rfl
      obtain ⟨flag, hsought, hflag⟩ := (hheld form true).mp ⟨true, hmem, by simp⟩
      rw [hflag rfl] at hsought
      have hrange : r = ⟨r.start, r.start + form.length⟩ := by
        rw [length_lowercaseAscii, length_normalizePercentEscapes] at hstop
        rw [← hstop]
      rw [hrange]
      exact .form hsought (readsAs_folded.mpr ⟨hform, hprefix⟩)
    · exact .url hr
    · exact .authorization hr
    · exact .token hr
  · rintro (⟨hsought, hreads⟩ | hr | hr | hr)
    · rename_i form ignoreCase i
      obtain ⟨flag, hmem, hflag⟩ := (hheld form ignoreCase).mpr ⟨_, hsought, id⟩
      refine Or.inl (Or.inl (Or.inl ?_))
      cases flag with
      | false =>
        -- a form whose case counts is looked for as it is
        have hcase : ignoreCase = false := by simpa using hflag
        subst hcase
        obtain ⟨hne, hprefix⟩ := readsAs_normalized.mp hreads
        refine Or.inl ⟨_, ⟨form, hmem, rfl⟩, mem_collectLiteralRanges.mpr ⟨?_, ?_, hprefix⟩⟩
        · rw [← List.length_pos_iff, length_normalizePercentEscapes]
          exact List.length_pos_iff.mpr hne
        · rw [length_normalizePercentEscapes]
      | true =>
        obtain ⟨hne, hprefix⟩ := readsAs_folded.mp hreads.fold
        refine Or.inr ⟨_, ⟨form, hmem, rfl⟩, mem_collectLiteralRanges.mpr ⟨?_, ?_, hprefix⟩⟩
        · rw [← List.length_pos_iff, length_lowercaseAscii, length_normalizePercentEscapes]
          exact List.length_pos_iff.mpr hne
        · rw [length_lowercaseAscii, length_normalizePercentEscapes]
    · exact Or.inl (Or.inl (Or.inr hr))
    · exact Or.inl (Or.inr hr)
    · exact Or.inr hr

/-- The passes give up where the last of them leaves something to decode. -/
theorem collectPasses_eq_none_iff {left : ℕ} {view : TextView} :
    scrubber.collectPasses lib left view = none ↔
      decodePercentView (decodePercentView^[left] view) ≠ decodePercentView^[left] view := by
  induction left generalizing view with
  | zero =>
    simp only [Scrubber.collectPasses, Function.iterate_zero, id]
    split
    · rename_i heq
      simp [decodePercentView_of_text heq]
    · rename_i hne
      refine iff_of_true rfl ?_
      intro heq
      exact hne (by rw [heq])
  | succ left ih =>
    simp only [Scrubber.collectPasses]
    split
    · rename_i heq
      rw [Function.iterate_fixed (decodePercentView_of_text heq), decodePercentView_of_text heq]
      simp
    · rw [Option.map_eq_none_iff, ih, Function.iterate_succ_apply]

/-- A view that is left as it is shows the same in every pass. -/
theorem mem_passes_of_fixed {left : ℕ} {view : TextView} (heq : decodePercentView view = view)
    {s : TextRange} :
    (∃ p ≤ left, ∃ r ∈ scrubber.collectSensitiveRanges lib
        (TextView.text (decodePercentView^[p] view)),
      Scrubber.sourceRange (decodePercentView^[p] view) r = s) ↔
    s ∈ (scrubber.collectSensitiveRanges lib view.text).map (Scrubber.sourceRange view) := by
  simp only [Function.iterate_fixed heq, List.mem_map]
  constructor
  · rintro ⟨_, _, hr⟩
    exact hr
  · intro hr
    exact ⟨0, by omega, hr⟩

/-- The passes find what each view shows, mapped to the source. -/
theorem mem_collectPasses {left : ℕ} {view : TextView} {ranges : List TextRange}
    (h : scrubber.collectPasses lib left view = some ranges) {s : TextRange} :
    (∃ p ≤ left, ∃ r ∈ scrubber.collectSensitiveRanges lib
        (TextView.text (decodePercentView^[p] view)),
      Scrubber.sourceRange (decodePercentView^[p] view) r = s) ↔ s ∈ ranges := by
  induction left generalizing view ranges with
  | zero =>
    simp only [Scrubber.collectPasses] at h
    split at h
    · rename_i heq
      cases h
      exact mem_passes_of_fixed (decodePercentView_of_text heq)
    · cases h
  | succ left ih =>
    simp only [Scrubber.collectPasses] at h
    split at h
    · rename_i heq
      cases h
      exact mem_passes_of_fixed (decodePercentView_of_text heq)
    · obtain ⟨rest, hrest, rfl⟩ := Option.map_eq_some_iff.mp h
      rw [List.mem_append, List.mem_map, ← ih hrest]
      constructor
      · rintro ⟨p, hp, hr⟩
        cases p with
        | zero => exact Or.inl hr
        | succ p => exact Or.inr ⟨p, by omega, hr⟩
      · rintro (hr | ⟨p, hp, hr⟩)
        · exact ⟨0, by omega, hr⟩
        · exact ⟨p+1, by omega, hr⟩

theorem sourceRange_append (hne : here ≠ []) :
    Scrubber.sourceRange (before ++ here ++ after)
      ⟨before.length, before.length + here.length⟩ = viewRange here := by
  have hpos := List.length_pos_iff.mpr hne
  have hfirst : (before ++ here ++ after)[before.length]? = here.head? := by
    rw [List.append_assoc, List.getElem?_append_right le_rfl, Nat.sub_self,
      List.getElem?_append_left hpos, List.head?_eq_getElem?]
  have hlast : (before ++ here ++ after)[before.length + here.length - 1]? =
      here.getLast? := by
    rw [List.append_assoc, List.getElem?_append_right (by omega),
      List.getElem?_append_left (by omega), List.getLast?_eq_getElem?]
    congr 1
    omega
  simp only [Scrubber.sourceRange, viewRange, hfirst, hlast]

theorem viewRange_decodePercentView (here : TextView) :
    viewRange (decodePercentView here) = viewRange here := by
  obtain ⟨hfirst, hlast⟩ := ends_decodePercentView here
  rw [viewRange, hfirst, hlast, viewRange]

/-- A secret without percent signs reads as itself where none stands before it. -/
theorem readsAs_of_percent_free {s shown t : Text} (hne : secret ≠ [])
    (hfold : lowercaseAscii shown = lowercaseAscii secret)
    (hshown : ignoreCase = false → shown = secret) (hsecret : percent ∉ secret)
    (hs : percent ∉ s) : ReadsAs ignoreCase secret (s ++ shown ++ t) s.length := by
  have hlength : shown.length = secret.length := by
    simpa only [length_lowercaseAscii] using congrArg List.length hfold
  refine ⟨hne, fun q hq => ?_⟩
  have hget : (s ++ shown ++ t)[s.length+q]? = shown[q]? := by
    rw [List.append_assoc, List.getElem?_append_right (by omega), Nat.add_sub_cancel_left,
      List.getElem?_append_left (by omega)]
  have hsome : shown[q]? = some shown[q] := List.getElem?_eq_getElem _
  cases ignoreCase with
  | true =>
    refine ⟨lowercaseAsciiUnit secret[q],
      ⟨secret[q], List.getElem?_eq_getElem hq, Or.inl ⟨Or.inl rfl, rfl⟩⟩,
      shown[q], hget.trans hsome, Or.inl ⟨Or.inl rfl, ?_⟩⟩
    have hq' := congrArg (·[q]?) hfold
    simp only [lowercaseAscii, List.getElem?_map, hsome, List.getElem?_eq_getElem hq,
      Option.map_some, Option.some.injEq] at hq'
    exact hq'.symm
  | false =>
    obtain rfl := hshown rfl
    -- the digits of an escape come after its percent sign
    refine ⟨shown[q], ⟨shown[q], hsome, Or.inr ⟨?_, rfl⟩⟩, shown[q], hget.trans hsome,
      Or.inr ⟨?_, rfl⟩⟩
    · simp only [Bool.false_eq_true, false_or]
      intro hdigit
      obtain ⟨p, _, hp⟩ := hdigit.after_percent
      exact hsecret (List.mem_of_getElem? hp)
    · simp only [Bool.false_eq_true, false_or]
      intro hdigit
      obtain ⟨p, hlt, hp⟩ := hdigit.after_percent
      rw [List.getElem?_append_left (by rw [List.length_append]; omega)] at hp
      rcases List.mem_append.mp (List.mem_of_getElem? hp) with hmem | hmem
      · exact hs hmem
      · exact hsecret hmem

/-- Where no percent sign stands before it, a secret without one is found in the view in which
it stands literally, and its source is the whole of what writes it. -/
theorem sensitive_of_encodes {n : ℕ} {shown : Text} (hsought : Sought lib options secret ignoreCase)
    (hne : secret ≠ []) (hfold : lowercaseAscii shown = lowercaseAscii secret)
    (hshown : ignoreCase = false → shown = secret) (hsecret : percent ∉ secret)
    (hbefore : percent ∉ before.text) (hencodes : EncodesTimes n shown here.text) :
    ∃ r, Sensitive lib options
        (TextView.text (decodePercentView^[n] (before ++ here ++ after))) r ∧
      Scrubber.sourceRange (decodePercentView^[n] (before ++ here ++ after)) r =
        viewRange here := by
  induction n generalizing here after with
  | zero =>
    have htext : here.text = shown := hencodes
    have hlength : here.length = secret.length := by
      have := congrArg List.length hfold
      rwa [length_lowercaseAscii, length_lowercaseAscii, ← htext, length_text] at this
    have hhere : here ≠ [] := by
      apply List.ne_nil_of_length_pos
      rw [hlength]
      exact List.length_pos_iff.mpr hne
    refine ⟨⟨before.length, before.length + secret.length⟩, .form hsought ?_, ?_⟩
    · have hreads := readsAs_of_percent_free (t := after.text) hne hfold hshown hsecret hbefore
      rwa [← htext, length_text, ← text_append, ← text_append] at hreads
    · rw [← hlength]
      exact sourceRange_append hhere
  | succ n ih =>
    obtain ⟨u, hu, hencode⟩ := hencodes
    obtain ⟨htext, happend⟩ := decodePercentView_of_encodes hencode here rfl
    have hparts : decodePercentView (before ++ here ++ after) =
        before ++ decodePercentView here ++ decodePercentView after := by
      rw [List.append_assoc, decodePercentView_of_percent_free hbefore, happend,
        List.append_assoc]
    rw [Function.iterate_succ_apply, hparts, ← viewRange_decodePercentView]
    exact ih (htext ▸ hu)

end Passes

/-! Occurrences. -/

/-- The text writes the secret with its characters escaped up to `n` times, and literally
where the secret holds a percent sign. -/
def Occurs (secret : Text) (ignoreCase : Bool) (n : ℕ) (w : Text) : Prop :=
  n ≤ MAX_PERCENT_DECODE_PASSES ∧ (percent ∈ secret → n = 0) ∧
    ∃ shown, lowercaseAscii shown = lowercaseAscii secret ∧
      (ignoreCase = false → shown = secret) ∧ EncodesTimes n shown w

/-- Nothing is published of the text from `i` up to `j`. -/
def Hidden (lib : UrlLibrary) (scrubber : Scrubber) (t : Text) (i j : ℕ) : Prop :=
  scrubber.scrub lib t = Scrubber.omitted "input limit" ∨
    scrubber.scrub lib t = Scrubber.omitted "encoding limit" ∨
    ∃ ranges, scrubber.collectPasses lib MAX_PERCENT_DECODE_PASSES (Scrubber.sourceView t) =
        some ranges ∧
      scrubber.scrub lib t = Scrubber.publish t ranges ∧
      ∀ k, i ≤ k → k < j → ∃ m ∈ mergeRanges ranges, m.start ≤ k ∧ k < m.stop

section Occurrences

variable {lib : UrlLibrary} {options : CreateScrubberOptions} {scrubber : Scrubber}
variable {secret w t : Text} {ignoreCase : Bool} {n i : ℕ}

theorem encodesTimes_ne_nil {s : Text} (h : EncodesTimes n s t) (hne : t ≠ []) : s ≠ [] := by
  induction n generalizing t with
  | zero =>
    cases h
    exact hne
  | succ n ih =>
    obtain ⟨u, hu, hencode⟩ := h
    apply ih hu
    cases hencode with
    | nil => exact absurd rfl hne
    | literal => exact List.cons_ne_nil _ _
    | escaped => exact List.append_ne_nil_of_left_ne_nil (utf16_ne_nil _) _

theorem text_sourceView (t : Text) : (Scrubber.sourceView t).text = t := by
  apply List.ext_getElem
  · simp [Scrubber.sourceView, TextView.text]
  · intro k hk hk'
    simp [Scrubber.sourceView, TextView.text]

/-- The part of the source view at an occurrence stands for the occurrence. -/
theorem viewRange_sourceView (hne : w ≠ []) (h : w <+: t.drop i) :
    viewRange (((Scrubber.sourceView t).drop i).take w.length) = ⟨i, i + w.length⟩ := by
  have hlength := h.length_le
  have hpos := List.length_pos_iff.mpr hne
  rw [List.length_drop] at hlength
  have hget (k : ℕ) (hk : k < w.length) : ∃ c,
      (((Scrubber.sourceView t).drop i).take w.length)[k]? = some ⟨c, i+k, i+k+1⟩ := by
    have hik : i+k < t.length := by omega
    refine ⟨t[i+k], ?_⟩
    rw [List.getElem?_take, if_pos hk, List.getElem?_drop]
    simp [Scrubber.sourceView, List.getElem?_eq_getElem hik]
  have hcount : (((Scrubber.sourceView t).drop i).take w.length).length = w.length := by
    simp [Scrubber.sourceView]
    omega
  obtain ⟨_, hfirst⟩ := hget 0 hpos
  obtain ⟨_, hlast⟩ := hget (w.length-1) (by omega)
  rw [viewRange, List.head?_eq_getElem?, List.getLast?_eq_getElem?, hcount, hfirst, hlast]
  simp only [Option.map_some, Option.getD_some, TextRange.mk.injEq]
  omega

/-- What is published of a text is no notice of an omission: a range leaves its mark, and so
does a control character. -/
theorem publish_ne_omitted (t : Text) (ranges : List TextRange) {reason : String}
    (hR : unit 'R' ∉ (Scrubber.omitted reason).text)
    (hescape : Json.backslash ∉ (Scrubber.omitted reason).text)
    (hlength : (Scrubber.omitted reason).text.length < MAX_OUTPUT_LENGTH) :
    Scrubber.publish t ranges ≠ Scrubber.omitted reason := by
  intro heq
  unfold Scrubber.publish at heq
  dsimp only at heq
  split at heq
  -- a text that is cut is as long as the limit
  · rename_i hlong
    rw [← heq, List.length_append, List.length_take] at hlength
    simp only [MAX_OUTPUT_LENGTH] at hlength hlong
    have hsuffix : (text " [truncated]").length = 12 := by decide
    omega
  · rw [← heq] at hR hescape
    have hremoved : (!ranges.isEmpty ||
        Scrubber.escapeControls (redactRanges t ranges) != t) = true :=
      congrArg ScrubbedText.removed heq
    -- what was removed shows as an escape or as the mark of a range
    cases ranges with
    | nil =>
      have hredacted : redactRanges t [] = t := by simp [redactRanges, mergeRanges, redactFrom]
      rw [hredacted] at hremoved hescape
      simp only [List.isEmpty_nil, Bool.not_true, Bool.false_or, bne_iff_ne] at hremoved
      apply hremoved
      calc
        Scrubber.escapeControls t = t.flatMap fun c => [c] := by
          apply List.flatMap_congr
          intro c hc
          rw [if_neg]
          intro hcontrol
          refine hescape (List.mem_flatMap.mpr ⟨c, hc, ?_⟩)
          rw [if_pos hcontrol]
          exact List.mem_cons_self
        _ = t := List.flatMap_singleton' t
    | cons r rest =>
      obtain ⟨m, merged, hmerged⟩ :=
        List.exists_cons_of_ne_nil (mergeRanges_ne_nil (List.cons_ne_nil r rest))
      refine hR (List.mem_flatMap.mpr ⟨unit 'R', ?_, by decide⟩)
      rw [redactRanges, hmerged, redactFrom]
      exact List.mem_append_left _ (List.mem_append_right _ (by decide))

theorem hidden_iff (hscrubber : createScrubber lib options = .ok scrubber) (t : Text) (i j : ℕ) :
    Hidden lib scrubber t i j ↔ MAX_INPUT_LENGTH < t.length ∨ StillEscaped t ∨
      ∀ k, i ≤ k → k < j → Detected lib options t k := by
  unfold Hidden
  by_cases hlimit : MAX_INPUT_LENGTH < t.length
  · refine iff_of_true (Or.inl ?_) (Or.inl hlimit)
    rw [Scrubber.scrub, if_pos hlimit]
  simp only [hlimit, false_or]
  rw [stillEscaped_iff, ← @collectPasses_eq_none_iff lib scrubber]
  cases hpasses : scrubber.collectPasses lib MAX_PERCENT_DECODE_PASSES
      (Scrubber.sourceView t) with
  | none =>
    refine iff_of_true (Or.inr (Or.inl ?_)) (Or.inl rfl)
    rw [Scrubber.scrub, if_neg hlimit, hpasses]
  | some ranges =>
    have hscrub : scrubber.scrub lib t = Scrubber.publish t ranges := by
      rw [Scrubber.scrub, if_neg hlimit, hpasses]
    have hinput : Scrubber.publish t ranges ≠ Scrubber.omitted "input limit" :=
      publish_ne_omitted t ranges (by decide) (by decide) (by decide)
    have hencoding : Scrubber.publish t ranges ≠ Scrubber.omitted "encoding limit" :=
      publish_ne_omitted t ranges (by decide) (by decide) (by decide)
    have hdetected (k : ℕ) : (∃ m ∈ mergeRanges ranges, m.start ≤ k ∧ k < m.stop) ↔
        Detected lib options t k := by
      rw [mergeRanges_covers]
      simp only [← mem_collectPasses hpasses, mem_collectSensitiveRanges hscrubber, Detected,
        decodedView_iff]
      constructor
      · rintro ⟨_, ⟨p, hp, r, hr, rfl⟩, hk⟩
        exact ⟨p, hp, _, r, rfl, hr, hk⟩
      · rintro ⟨p, hp, _, r, rfl, hr, hk⟩
        exact ⟨_, ⟨p, hp, r, hr, rfl⟩, hk⟩
    simp only [hscrub, hinput, hencoding, false_or, Option.some.injEq, exists_eq_left', true_and,
      reduceCtorEq, hdetected]

/-- An occurrence without percent signs in the secret and before it is found. -/
theorem detected_of_occurs (hconfigured : Configured lib options secret ignoreCase)
    (hoccurs : Occurs secret ignoreCase n w) (hposition : w <+: t.drop i)
    (hsecret : percent ∉ secret) (hbefore : percent ∉ t.take i) {k : ℕ} (hk : i ≤ k)
    (hkw : k < i + w.length) : Detected lib options t k := by
  have hne : w ≠ [] := List.ne_nil_of_length_pos (by omega)
  obtain ⟨hn, _, shown, hfold, hshown, hencodes⟩ := hoccurs
  have hsecret_ne : secret ≠ [] := by
    have hlength := congrArg List.length hfold
    rw [length_lowercaseAscii, length_lowercaseAscii] at hlength
    have hpos := List.length_pos_iff.mpr (encodesTimes_ne_nil hencodes hne)
    exact List.ne_nil_of_length_pos (by omega)
  have hhere : TextView.text (((Scrubber.sourceView t).drop i).take w.length) = w := by
    rw [TextView.text, List.map_take, List.map_drop]
    change ((Scrubber.sourceView t).text.drop i).take w.length = w
    rw [text_sourceView]
    exact (List.prefix_iff_eq_take.mp hposition).symm
  have htake : TextView.text ((Scrubber.sourceView t).take i) = t.take i := by
    rw [TextView.text, List.map_take]
    change (Scrubber.sourceView t).text.take i = t.take i
    rw [text_sourceView]
  rw [← hhere] at hencodes
  rw [← htake] at hbefore
  obtain ⟨r, hr, hrange⟩ := @sensitive_of_encodes lib options _ _
    (((Scrubber.sourceView t).drop i).drop w.length) _ _ _ _
    (hconfigured.sought hsecret_ne) hsecret_ne hfold hshown hsecret hbefore hencodes
  rw [List.append_assoc, List.take_append_drop, List.take_append_drop] at hr hrange
  rw [viewRange_sourceView hne hposition] at hrange
  refine ⟨n, hn, _, r, decodedView_iff.mpr rfl, hr, ?_⟩
  rw [hrange]
  exact ⟨hk, hkw⟩

/-- A text is hidden from `i` up to `j` exactly where it is omitted, too long or too often
encoded, or each of its units belongs to something that the scrubber looks for. So is a secret
without a percent sign that has none before it, however its characters are escaped. -/
theorem scrub_hides_iff (hscrubber : createScrubber lib options = .ok scrubber) (t : Text) :
    (∀ i j, Hidden lib scrubber t i j ↔ MAX_INPUT_LENGTH < t.length ∨ StillEscaped t ∨
      ∀ k, i ≤ k → k < j → Detected lib options t k) ∧
    ∀ secret ignoreCase n w i, Configured lib options secret ignoreCase →
      Occurs secret ignoreCase n w → w <+: t.drop i → percent ∉ secret → percent ∉ t.take i →
      Hidden lib scrubber t i (i + w.length) := by
  have hiff (i j : ℕ) := hidden_iff hscrubber t i j
  refine ⟨hiff, ?_⟩
  intro secret ignoreCase n w i hconfigured hoccurs hposition hsecret hbefore
  refine (hiff i _).mpr (Or.inr (Or.inr ?_))
  intro k hk hkw
  exact detected_of_occurs hconfigured hoccurs hposition hsecret hbefore hk hkw

/-- The secret is encoded, and an escape before it takes its first unit: it is found as the
configuration encodes it. -/
theorem scrub_hides_encoded : ∃ scrubber,
    createScrubber ⟨fun _ => none⟩ ⟨[], none, [text "a b"]⟩ = .ok scrubber ∧
      Hidden ⟨fun _ => none⟩ scrubber (text "%4a%20b") 2 7 := by
  refine ⟨_, rfl, ?_⟩
  have hiff := (@scrub_hides_iff ⟨fun _ => none⟩ ⟨[], none, [text "a b"]⟩ _ rfl
    (text "%4a%20b")).1 2 7
  refine hiff.mpr ?_
  refine Or.inr (Or.inr fun k hk hk' => ⟨0, by decide, _, ⟨2, 7⟩, .source, ?_, ?_⟩)
  · have hform : Sought ⟨fun _ => none⟩ ⟨[], none, [text "a b"]⟩ (text "a%20b") false :=
      ⟨text "a b", .secrets List.mem_cons_self, by decide, 1, by decide, _,
        ⟨_, rfl, rfl⟩, Or.inl rfl⟩
    exact .form hform (readsAs_normalized.mpr ⟨by decide, by decide⟩)
  · exact ⟨hk, hk'⟩

/-- The percent sign before a secret makes its first two characters the digits of an
escape, which normalization writes in lower case. -/
theorem scrub_shows_after_percent : ∃ scrubber,
    createScrubber ⟨fun _ => none⟩ ⟨[], none, [text "ABcd"]⟩ = .ok scrubber ∧
      Configured ⟨fun _ => none⟩ ⟨[], none, [text "ABcd"]⟩ (text "ABcd") false ∧
      Occurs (text "ABcd") false 0 (text "ABcd") ∧ text "ABcd" <+: (text "%ABcd").drop 1 ∧
      scrubber.scrub ⟨fun _ => none⟩ (text "%ABcd") = ⟨text "%ABcd", false⟩ ∧
      ¬Hidden ⟨fun _ => none⟩ scrubber (text "%ABcd") 1 5 := by
  let scrubber : Scrubber := ⟨[], [text "ABcd"], []⟩
  refine ⟨scrubber, rfl, Configured.secrets List.mem_cons_self,
    ⟨by decide, by decide, text "ABcd", rfl, fun _ => rfl, rfl⟩, by decide, ?_⟩
  have hpasses : scrubber.collectPasses ⟨fun _ => none⟩ MAX_PERCENT_DECODE_PASSES
      (Scrubber.sourceView (text "%ABcd")) = some [] := by decide
  have hmerged : mergeRanges [] = [] := by simp [mergeRanges]
  have hscrub : scrubber.scrub ⟨fun _ => none⟩ (text "%ABcd") = ⟨text "%ABcd", false⟩ := by
    rw [Scrubber.scrub, if_neg (by decide), hpasses]
    simp only [Scrubber.publish, redactRanges, hmerged]
    decide
  refine ⟨hscrub, ?_⟩
  rintro (h | h | ⟨ranges, hranges, _, hcovered⟩)
  · rw [hscrub] at h
    exact absurd h (by decide)
  · rw [hscrub] at h
    exact absurd h (by decide)
  · rw [hpasses] at hranges
    cases hranges
    obtain ⟨m, hm, _⟩ := hcovered 1 (by decide) (by decide)
    rw [hmerged] at hm
    cases hm

end Occurrences

end Quicknet
