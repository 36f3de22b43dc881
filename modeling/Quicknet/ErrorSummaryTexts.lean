import Quicknet.ErrorSummary

/-! Where the texts of a summary come from. Nothing of an error is copied: a text is one of the
fixed ones, one of details that were checked when they were registered, or the scrubber's. -/
namespace Quicknet

open Json (Text text unit)
open ObjectGraph NodeBudget

/-- The texts that the code of the summaries has itself. -/
def FIXED_TEXTS : List Text :=
  ERROR_MESSAGES.map Prod.fst ++ ERROR_MESSAGES.map Prod.snd ++ SYSTEM_CODES ++
    [text "DEPLOYMENT_CHAIN_MISMATCH", text "CONSUMER_REGISTRY_MISMATCH",
      text "[diagnostic text unavailable]", text "[omitted]", [],
      AnchoredReadClassification.historicalStateUnavailable.label,
      AnchoredReadClassification.unknown.label]

inductive TextOrigin (g : ErrorGraph) (options : Option ScrubText) (subject : Value) : Text → Prop
  | fixed {t : Text} (h : t ∈ FIXED_TEXTS) : TextOrigin g options subject t
  | mismatch {t : Text} {o : ℕ} {details : MismatchDetails} (ho : subject = .object o)
    (hdetails : g.mismatches o = some details)
    (h : t = mismatchMessage details ∨ t ∈ details.texts) : TextOrigin g options subject t
  | anchoredRead {t : Text} {o : ℕ} {details : AnchoredReadDetails} (ho : subject = .object o)
    (hdetails : g.anchoredReads o = some details) (h : t ∈ details.texts) :
    TextOrigin g options subject t
  | scrubbed {scrubText : ScrubText} {source : Text} {result : ScrubbedText}
    (hoptions : options = some scrubText) (h : scrubText source = .ok result) :
    TextOrigin g options subject result.text

def SummaryCode.texts : SummaryCode → List Text
  | .number _ => []
  | .string t => [t]

def RevertArgument.texts : RevertArgument → List Text
  | .string t => [t]
  | _ => []

def RevertSummary.texts (revert : RevertSummary) : List Text :=
  revert.name.toList ++ revert.reason.toList ++
    (revert.args.elim [] fun args => args.flatMap RevertArgument.texts)

/-- The texts of a summary, without those of the summaries below it. -/
def ErrorSummary.texts (summary : ErrorSummary) : List Text :=
  [summary.name, summary.message] ++ summary.code.elim [] (·.texts) ++
    summary.revert.elim [] (·.texts) ++ summary.mismatch.elim [] (·.texts) ++
    summary.anchoredRead.elim [] fun read => read.2.label :: read.1.texts

variable {g : ErrorGraph} {options : Option ScrubText} {scrubText : ScrubText} {subject : Value}
  {summary : ErrorSummary}

structure TextsKnown (g : ErrorGraph) (options : Option ScrubText) (summary : ErrorSummary) :
    Prop where
  name : TextOrigin g options summary.subject summary.name
  message : TextOrigin g options summary.subject summary.message
  code : ∀ code, summary.code = some code → ∀ t ∈ code.texts,
    TextOrigin g options summary.subject t
  revert : ∀ revert, summary.revert = some revert → ∀ t ∈ revert.texts,
    TextOrigin g options summary.subject t
  mismatch : ∀ details, summary.mismatch = some details →
    ∃ o, summary.subject = .object o ∧ g.mismatches o = some details
  anchoredRead : ∀ read, summary.anchoredRead = some read →
    ∃ o, summary.subject = .object o ∧ g.anchoredReads o = some read.1

theorem label_mem_FIXED_TEXTS (classification : AnchoredReadClassification) :
    classification.label ∈ FIXED_TEXTS := by
  cases classification <;> simp [FIXED_TEXTS]

/-- The texts of a field that may be absent. -/
theorem forall_mem_elim {α : Type} {P : Text → Prop} {x : Option α} {f : α → List Text}
    (h : ∀ a, x = some a → ∀ t ∈ f a, P t) : ∀ t ∈ x.elim [] f, P t := by
  cases x with
  | none => simp
  | some a => exact h a rfl

theorem TextsKnown.texts (h : TextsKnown g options summary) :
    ∀ t ∈ summary.texts, TextOrigin g options summary.subject t := by
  simp only [ErrorSummary.texts, List.forall_mem_append]
  refine ⟨⟨⟨⟨?_, forall_mem_elim h.code⟩, forall_mem_elim h.revert⟩,
    forall_mem_elim fun details hdetails => ?_⟩, forall_mem_elim fun read hread => ?_⟩
  · intro t ht
    rcases List.mem_pair.mp ht with rfl | rfl
    · exact h.name
    · exact h.message
  · obtain ⟨o, ho, hregistered⟩ := h.mismatch details hdetails
    exact fun t ht => .mismatch ho hregistered (.inr ht)
  · obtain ⟨o, ho, hregistered⟩ := h.anchoredRead read hread
    intro t ht
    rcases List.mem_cons.mp ht with rfl | ht
    · exact .fixed (label_mem_FIXED_TEXTS read.2)
    · exact .anchoredRead ho hregistered ht

/-! Summaries before their texts are scrubbed. -/

theorem unknownError_texts (g : ErrorGraph) (options : Option ScrubText) (subject : Value) :
    TextsKnown g options (unknownError subject) where
  name := .fixed (by simp [FIXED_TEXTS, ERROR_MESSAGES, unknownError])
  message := .fixed (by simp [FIXED_TEXTS, ERROR_MESSAGES, unknownError])
  code := by simp [unknownError]
  revert := by simp [unknownError]
  mismatch := by simp [unknownError]
  anchoredRead := by simp [unknownError]

theorem readName_mem {v : Value} {known : Text × Text} (h : readName v = some known) :
    v = .string known.1 ∧ known ∈ ERROR_MESSAGES := by
  cases v with
  | string name =>
    obtain ⟨message, hlookup, rfl⟩ := Option.map_eq_some_iff.mp h
    obtain ⟨before, after, hmessages, _⟩ := List.lookup_eq_some_iff.mp hlookup
    exact ⟨rfl, hmessages ▸ List.mem_append_right before List.mem_cons_self⟩
  | _ => cases h

theorem readCode_texts {v : Value} {code : SummaryCode} (h : readCode v = some code) :
    ∀ t ∈ code.texts, t ∈ SYSTEM_CODES := by
  cases v with
  | number x =>
    obtain ⟨n, _, rfl⟩ := Option.map_eq_some_iff.mp h
    simp [SummaryCode.texts]
  | string t =>
    rw [readCode] at h
    split_ifs at h with hsystem
    obtain rfl := Option.some.inj h
    simpa [SummaryCode.texts] using hsystem
  | _ => cases h

theorem startSummary_texts (o : ℕ) : TextsKnown g options (startSummary g o) := by
  have hunknown := unknownError_texts g options (.object o)
  constructor
  · simp only [startSummary]
    cases hknown : readName (dataProperty g.toGraph "name" (prototypeChain g.toGraph o)) with
    | none => exact hunknown.name
    | some known =>
      have hmem := List.mem_map_of_mem (f := Prod.fst) (readName_mem hknown).2
      exact .fixed (by simp [FIXED_TEXTS, hmem])
  · simp only [startSummary]
    cases hknown : readName (dataProperty g.toGraph "name" (prototypeChain g.toGraph o)) with
    | none => exact hunknown.message
    | some known =>
      have hmem := List.mem_map_of_mem (f := Prod.snd) (readName_mem hknown).2
      exact .fixed (by simp [FIXED_TEXTS, hmem])
  · intro code hcode t ht
    have hmem := readCode_texts hcode t ht
    exact .fixed (by simp [FIXED_TEXTS, hmem])
  · exact hunknown.revert
  · exact hunknown.mismatch
  · intro read hread
    obtain ⟨details, hdetails, rfl⟩ := Option.map_eq_some_iff.mp hread
    exact ⟨o, rfl, hdetails⟩

/-! Scrubbed texts. -/

theorem scrubField_origin {v : Value} {result : ScrubbedText}
    (h : scrubField scrubText v = some result) :
    TextOrigin g (some scrubText) subject result.text := by
  obtain ⟨t, _, rfl⟩ := Option.map_eq_some_iff.mp h
  cases hresult : scrubText t with
  | ok result => exact .scrubbed rfl hresult
  | error _ => exact .fixed (by simp [FIXED_TEXTS])

/-- Setting a field to a known text leaves all texts known. -/
theorem TextsKnown.setScrubbed (h : TextsKnown g options summary)
    (set : ErrorSummary → Text → ErrorSummary)
    (hset : ∀ s t, TextsKnown g options s → TextOrigin g options s.subject t →
      TextsKnown g options (set s t)) {result : Option ScrubbedText}
    (hresult : ∀ r, result = some r → TextOrigin g options summary.subject r.text) :
    TextsKnown g options (summary.setScrubbed set result) := by
  cases result with
  | none => exact h
  | some r => exact hset _ _ { h with } (hresult r rfl)

theorem revertArgument_texts {v : Value} {argument : RevertArgument × Bool}
    (h : revertArgument scrubText v = some argument) :
    ∀ t ∈ argument.1.texts, TextOrigin g (some scrubText) subject t := by
  have hscrubbed {v : Value}
      (h : ((scrubField scrubText v).map fun r => (RevertArgument.string r.text, r.removed)) =
        some argument) : ∀ t ∈ argument.1.texts, TextOrigin g (some scrubText) subject t := by
    obtain ⟨result, hresult, rfl⟩ := Option.map_eq_some_iff.mp h
    intro t ht
    obtain rfl := List.mem_singleton.mp ht
    exact scrubField_origin hresult
  unfold revertArgument at h
  split at h
  · obtain rfl := Option.some.inj h
    exact fun t ht => .fixed (by simp_all [RevertArgument.texts, FIXED_TEXTS])
  · exact hscrubbed h
  · split_ifs at h
    exact hscrubbed h
  · obtain ⟨n, _, rfl⟩ := Option.map_eq_some_iff.mp h
    simp [RevertArgument.texts]
  · obtain rfl := Option.some.inj h
    simp [RevertArgument.texts]
  · obtain rfl := Option.some.inj h
    simp [RevertArgument.texts]
  · cases h

theorem summarizeArguments_texts (graph : Graph) (v : Value) :
    ∀ args, (summarizeArguments graph scrubText v).1 = some args →
      ∀ t ∈ args.flatMap RevertArgument.texts, TextOrigin g (some scrubText) subject t := by
  intro args hargs t ht
  unfold summarizeArguments at hargs
  split at hargs
  · cases hargs
  · split at hargs
    · obtain rfl := Option.some.inj hargs
      obtain ⟨argument, hmem, ht⟩ := List.mem_flatMap.mp ht
      obtain ⟨value, hvalue, rfl⟩ := List.mem_map.mp hmem
      cases hsome : value with
      | none =>
        rw [hsome] at ht
        obtain rfl := List.mem_singleton.mp ht
        exact .fixed (by simp [FIXED_TEXTS])
      | some kept =>
        rw [hsome] at ht
        obtain ⟨index, _, hindex⟩ := List.mem_map.mp hvalue
        exact revertArgument_texts (hindex.trans hsome) t ht
    · cases hargs
  · cases hargs

theorem summarizeRevert_texts (graph : Graph) (chain : List ℕ) :
    ∀ revert, (summarizeRevert graph scrubText chain).1 = some revert →
      ∀ t ∈ revert.texts, TextOrigin g (some scrubText) subject t := by
  have hfield {v : Value} : ∀ t ∈ ((scrubField scrubText v).map (·.text)).toList,
      TextOrigin g (some scrubText) subject t := by
    intro t ht
    obtain ⟨result, hresult, rfl⟩ := Option.map_eq_some_iff.mp (Option.mem_toList.mp ht)
    exact scrubField_origin hresult
  intro revert hrevert
  simp only [summarizeRevert] at hrevert
  split at hrevert
  · split_ifs at hrevert
    obtain rfl := Option.some.inj hrevert
    simp only [RevertSummary.texts, List.forall_mem_append]
    exact ⟨⟨hfield, hfield⟩, forall_mem_elim (summarizeArguments_texts graph _)⟩
  · split_ifs at hrevert
    obtain rfl := Option.some.inj hrevert
    simp only [RevertSummary.texts, List.forall_mem_append]
    exact ⟨⟨by simp, hfield⟩, by simp⟩

theorem scrubSummary_texts (graph : Graph) (chain : List ℕ)
    (h : TextsKnown g (some scrubText) summary) :
    TextsKnown g (some scrubText) (scrubSummary graph scrubText chain summary) := by
  -- a field is set to what the scrubber gives of it, if to anything
  have hname := h.setScrubbed (fun s t => { s with name := t })
    (fun s t hs ht => { hs with name := ht })
    (fun r hr => scrubField_origin (v := dataProperty graph "name" chain) hr)
  have hcode := hname.setScrubbed (fun s t => { s with code := some (.string t) })
    (fun s t hs ht => { hs with code := by simpa [SummaryCode.texts] using ht })
    (fun r hr => scrubField_origin (v := dataProperty graph "code" chain) hr)
  have hmessage := hcode.setScrubbed (fun s t => { s with message := t })
    (fun s t hs ht => { hs with message := ht })
    (fun r hr => scrubField_origin
      (v := selectErrorMessage graph chain (dataProperty graph "cause" chain)) hr)
  simp only [scrubSummary]
  split_ifs
  · exact { hmessage with revert := summarizeRevert_texts graph chain }
  · exact hmessage

theorem addMismatch_texts {o : ℕ} (h : TextsKnown g options summary)
    (ho : summary.subject = .object o) : TextsKnown g options (addMismatch g options o summary) := by
  unfold addMismatch
  cases hdetails : g.mismatches o with
  | none => exact h
  | some details =>
    refine { h with message := ?_, code := ?_, mismatch := ?_ }
    · simp only
      split_ifs
      · exact .mismatch ho hdetails (.inl rfl)
      · exact h.message
    · intro code hcode t ht
      obtain rfl := Option.some.inj hcode
      obtain rfl := List.mem_singleton.mp ht
      exact .fixed (by cases details <;> simp [FIXED_TEXTS, mismatchCode])
    · intro registered hregistered
      obtain rfl := Option.some.inj hregistered
      exact ⟨o, ho, hdetails⟩

theorem TextsKnown.classified (h : TextsKnown g options summary) :
    TextsKnown g options summary.classified := by
  refine { h with anchoredRead := ?_ }
  intro read hread
  obtain ⟨before, hbefore, rfl⟩ := Option.map_eq_some_iff.mp hread
  exact h.anchoredRead before hbefore

theorem summarizePlain_texts (error : Value) :
    TextsKnown g options (summarizePlain options error) := by
  apply (unknownError_texts g options error).setScrubbed (fun s t => { s with message := t })
    (fun s t hs ht => { hs with message := ht })
  intro r hr
  obtain ⟨scrubText, rfl, hresult⟩ := Option.bind_eq_some_iff.mp hr
  exact scrubField_origin hresult

end Quicknet
