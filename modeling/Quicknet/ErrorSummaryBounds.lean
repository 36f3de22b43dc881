import Quicknet.ErrorSummaryTree

/-! The bounds of a summary, and what it says of the values that it leaves out. One visit takes
its nodes from the budget that it shares with the visits before it; what a node lost is on the
node itself. -/
namespace Quicknet

open Json (Text text unit)
open ObjectGraph NodeBudget
open ErrorSummary (nodes)

variable {g : ErrorGraph} {options : Option ScrubText} {left : ℕ} {b b' b'' : Budget ℕ}
  {child : Visitor} {s s' s'' : ErrorSummary} {ss ts : List ErrorSummary}

/-! What visits give. -/

/-- The visits between the two budgets gave these summaries, each of at most this depth. -/
structure Grown (g : ErrorGraph) (options : Option ScrubText) (left : ℕ) (b : Budget ℕ)
    (ss : List ErrorSummary) (b' : Budget ℕ) : Prop where
  taken : Taken b (ss.flatMap nodes).length (objects (ss.flatMap nodes)) b'
  depth : ∀ s ∈ ss, s.depth ≤ left
  honest : ∀ n ∈ ss.flatMap nodes, Honest g options n

theorem Grown.nothing : Grown g options left b [] b :=
  ⟨Taken.nothing b, by simp, by simp⟩

theorem Grown.skip : Grown g options left b [] b.spend :=
  ⟨Taken.skip b, by simp, by simp⟩

theorem Grown.append (h : Grown g options left b ss b') (h' : Grown g options left b' ts b'') :
    Grown g options left b (ss ++ ts) b'' where
  taken := by
    have htaken := h.taken.append h'.taken
    simpa only [List.flatMap_append, List.length_append, objects, List.filterMap_append] using htaken
  depth := List.forall_mem_append.mpr ⟨h.depth, h'.depth⟩
  honest := by
    rw [List.flatMap_append]
    exact List.forall_mem_append.mpr ⟨h.honest, h'.honest⟩

/-- A summary over those below it. -/
theorem Grown.node (hbelow : Grown g options left b s.children b')
    (htaken : Taken b'' (1 + s.descendants.length)
      (s.subject.asObject.toList ++ objects s.descendants) b')
    (honest : Honest g options s) : Grown g options (left+1) b'' [s] b' where
  taken := by
    rw [List.flatMap_singleton, ErrorSummary.nodes_eq, List.length_cons, Nat.add_comm]
    convert htaken using 1
    rw [objects, List.filterMap_cons]
    cases s.subject.asObject <;> rfl
  depth := by
    simp only [List.forall_mem_singleton]
    exact ErrorSummary.depth_le hbelow.depth
  honest := by
    rw [List.flatMap_singleton, ErrorSummary.nodes_eq]
    exact List.forall_mem_cons.mpr ⟨honest, hbelow.honest⟩

/-- A visitor that keeps the account. -/
structure Accounts (g : ErrorGraph) (options : Option ScrubText) (left : ℕ) (child : Visitor) :
    Prop where
  grown : ∀ v b, Grown g options left b (child v b).1.toList (child v b).2
  subject : ∀ v b s, (child v b).1 = some s → s.subject = v

/-! The cause. -/

theorem visitCause_fields (child : Visitor) (cause : Value) (s : ErrorSummary) (b : Budget ℕ) :
    (visitCause child cause s b).1 =
      { s with
        cause := (visitCause child cause s b).1.cause
        causeOmitted := (visitCause child cause s b).1.causeOmitted } := by
  unfold visitCause
  split_ifs
  · cases s
    rfl
  · rfl

theorem visitCause_grown (hchild : Accounts g options left child) (hs : s.cause = none)
    (cause : Value) : Grown g options left b (visitCause child cause s b).1.cause.toList
      (visitCause child cause s b).2 := by
  unfold visitCause
  split_ifs
  · rw [hs]
    exact Grown.nothing
  · exact hchild.grown cause b

/-- The cause is below, or it is said to be omitted. -/
theorem visitCause_accounted (hchild : Accounts g options left child) {cause : Value}
    (hundefined : cause ≠ .undefined) (hnull : cause ≠ .null) :
    (∃ c, (visitCause child cause s b).1.cause = some c ∧ c.subject = cause) ∨
      (visitCause child cause s b).1.causeOmitted = true := by
  rw [visitCause, if_neg (by simp [hundefined, hnull])]
  cases hvisited : (child cause b).1 with
  | none => exact .inr (by simp [hvisited])
  | some c => exact .inl ⟨c, hvisited, hchild.subject cause b c hvisited⟩

/-! The entries of an array of errors. -/

theorem reduceOption_cons {α : Type} (x : Option α) (xs : List (Option α)) :
    (x :: xs).reduceOption = x.toList ++ xs.reduceOption := by
  cases x <;> rfl

theorem visitEntries_grown (hchild : Accounts g options left child) (array : ℕ)
    (indexes : List ℕ) : Grown g options left b
      (visitEntries g child array indexes b).1.reduceOption
      (visitEntries g child array indexes b).2 := by
  induction indexes generalizing b with
  | nil => exact Grown.nothing
  | cons index rest ih =>
    simp only [visitEntries]
    rw [reduceOption_cons]
    exact (hchild.grown _ b).append ih

/-- Each entry gives a summary, or is counted as missing. -/
theorem visitEntries_accounted (hchild : Accounts g options left child) (array : ℕ) {index : ℕ}
    {indexes : List ℕ} (hindex : index ∈ indexes) :
    (∃ c ∈ (visitEntries g child array indexes b).1.reduceOption,
      c.subject = dataProperty g.toGraph (toString index) [array]) ∨
      (visitEntries g child array indexes b).1.any Option.isNone = true := by
  induction indexes generalizing b with
  | nil => cases hindex
  | cons first rest ih =>
    simp only [visitEntries]
    rw [reduceOption_cons, List.any_cons, Bool.or_eq_true]
    rcases List.mem_cons.mp hindex with rfl | hrest
    · cases hvisited : (child (dataProperty g.toGraph (toString index) [array]) b).1 with
      | none => exact .inr (.inl rfl)
      | some c =>
        exact .inl ⟨c, List.mem_append_left _ (by simp), hchild.subject _ b c hvisited⟩
    · rcases ih hrest with ⟨c, hc, hsubject⟩ | hmissing
      · exact .inl ⟨c, List.mem_append_right _ hc, hsubject⟩
      · exact .inr (.inr hmissing)

theorem visitArray_fields (child : Visitor) (array : ℕ) (s : ErrorSummary) (b : Budget ℕ) :
    (visitArray g child array s b).1 =
      { s with
        errors := (visitArray g child array s b).1.errors
        errorsOmitted := (visitArray g child array s b).1.errorsOmitted } := by
  unfold visitArray
  split
  · cases s
    rfl
  · rfl
  · split <;> rfl

theorem visitArray_grown (hchild : Accounts g options left child) (hs : s.errors = [])
    (array : ℕ) : Grown g options left b (visitArray g child array s b).1.errors
      (visitArray g child array s b).2 := by
  unfold visitArray
  split
  · rw [hs]
    exact Grown.nothing
  · rw [hs]
    exact Grown.nothing
  · split
    · rw [hs]
      exact Grown.nothing
    · exact visitEntries_grown hchild array _

/-- A length that is read is one that the array holds. -/
theorem holdsWithin_of_readLength {array length : ℕ}
    (h : readLength (dataProperty g.toGraph "length" (prototypeChain g.toGraph array)) =
      some length) :
    HoldsWithin g.toGraph MAX_PROTOTYPE_NODES array "length" (.number (some (length : ℚ))) := by
  rw [← dataProperty_prototypeChain (by simp)]
  cases hread : dataProperty g.toGraph "length" (prototypeChain g.toGraph array) with
  | number x =>
    rw [hread] at h
    obtain ⟨n, hn, hlength⟩ := Option.bind_eq_some_iff.mp h
    obtain ⟨rfl, _⟩ := safeInteger_eq_some hn
    split_ifs at hlength with hpos
    obtain rfl := Option.some.inj hlength
    have hcast : ((n.toNat : ℤ) : ℚ) = n := by rw [Int.toNat_of_nonneg hpos]
    rw [← hcast]
    rfl
  | _ =>
    rw [hread] at h
    cases h

/-- An entry is among the summaries, or some are said to be omitted: where the array or its length
cannot be read, where the entry was not visited, and where its visit gave nothing. -/
theorem visitArray_accounted (hchild : Accounts g options left child) {o array index : ℕ}
    {v : Value} (hentry : AggregateEntry g.toGraph o array index v) :
    (∃ c ∈ (visitArray g child array s b).1.errors, c.subject = v) ∨
      (visitArray g child array s b).1.errorsOmitted = true := by
  have hvalue : dataProperty g.toGraph (toString index) [array] = v := by
    rw [dataProperty_own, hentry.value]
  unfold visitArray
  split
  · next harray => exact absurd harray hentry.isArray
  · exact .inr rfl
  · split
    · exact .inr rfl
    · next length hlength =>
      have hlt : index < length := by
        exact_mod_cast hentry.index_lt length (holdsWithin_of_readLength hlength)
      -- an entry beyond the limit is not visited, but then the limit cuts the length
      by_cases hlimit : index < min length MAX_AGGREGATE_ENTRIES
      · rcases visitEntries_accounted (b := b) hchild array
          (List.mem_range.mpr hlimit) with ⟨c, hc, hsubject⟩ | hmissing
        · exact .inl ⟨c, hc, hsubject.trans hvalue⟩
        · exact .inr (by simp [hmissing])
      · have hover : min length MAX_AGGREGATE_ENTRIES < length := by omega
        exact .inr (by simp [hover])

/-! The errors of an object. -/

theorem visitErrors_fields (child : Visitor) (chain : List ℕ) (s : ErrorSummary) (b : Budget ℕ) :
    (visitErrors g child chain s b).1 =
      { s with
        errors := (visitErrors g child chain s b).1.errors
        errorsOmitted := (visitErrors g child chain s b).1.errorsOmitted } := by
  unfold visitErrors
  split_ifs
  · cases s
    rfl
  · simp only
    split
    · rw [visitArray_fields]
    · rfl

theorem visitErrors_grown (hchild : Accounts g options left child) (hs : s.errors = [])
    (chain : List ℕ) : Grown g options left b (visitErrors g child chain s b).1.errors
      (visitErrors g child chain s b).2 := by
  unfold visitErrors
  split_ifs
  · rw [hs]
    exact Grown.nothing
  · simp only
    split
    · apply visitArray_grown hchild
      exact hs
    · rw [hs]
      exact Grown.nothing

theorem visitErrors_accounted (hchild : Accounts g options left child) {o array index : ℕ}
    {v : Value} (hname : s.name = text "AggregateError")
    (hentry : AggregateEntry g.toGraph o array index v) :
    (∃ c ∈ (visitErrors g child (prototypeChain g.toGraph o) s b).1.errors, c.subject = v) ∨
      (visitErrors g child (prototypeChain g.toGraph o) s b).1.errorsOmitted = true := by
  have herrors := (dataProperty_prototypeChain (by simp)).mpr hentry.errors
  simp only [visitErrors, ne_eq, hname, not_true_eq_false, if_false, herrors]
  exact visitArray_accounted hchild hentry

theorem readName_aggregate : readName (.string (text "AggregateError")) =
    some (text "AggregateError", text "Multiple operations failed.") := by
  decide

/-- An object that is named `AggregateError` starts with that name. -/
theorem startSummary_name {o : ℕ} (h : HoldsWithin g.toGraph MAX_PROTOTYPE_NODES o "name"
    (.string (text "AggregateError"))) : (startSummary g o).name = text "AggregateError" := by
  have hname := (dataProperty_prototypeChain (by simp)).mpr h
  simp only [startSummary, hname, readName_aggregate, Option.elim_some]

/-! What is done to a summary after its visits. -/

/-- The two differ in what they say, not in what is below them. -/
structure SameLinks (s s' : ErrorSummary) : Prop where
  subject : s'.subject = s.subject
  cause : s'.cause = s.cause
  causeOmitted : s'.causeOmitted = s.causeOmitted
  errors : s'.errors = s.errors
  errorsOmitted : s'.errorsOmitted = s.errorsOmitted

theorem SameLinks.refl (s : ErrorSummary) : SameLinks s s := ⟨rfl, rfl, rfl, rfl, rfl⟩

theorem SameLinks.trans (h : SameLinks s s') (h' : SameLinks s' s'') : SameLinks s s'' where
  subject := h'.subject.trans h.subject
  cause := h'.cause.trans h.cause
  causeOmitted := h'.causeOmitted.trans h.causeOmitted
  errors := h'.errors.trans h.errors
  errorsOmitted := h'.errorsOmitted.trans h.errorsOmitted

theorem SameLinks.children (h : SameLinks s s') : s'.children = s.children := by
  rw [ErrorSummary.children, ErrorSummary.children, h.cause, h.errors]

theorem setScrubbed_sameLinks (set : ErrorSummary → Text → ErrorSummary)
    (hset : ∀ s t, SameLinks s (set s t)) (s : ErrorSummary) (result : Option ScrubbedText) :
    SameLinks s (s.setScrubbed set result) := by
  cases result with
  | none => exact SameLinks.refl s
  | some r =>
    have hmodified : SameLinks s { s with textModified := s.textModified || r.removed } :=
      ⟨rfl, rfl, rfl, rfl, rfl⟩
    exact hmodified.trans (hset _ r.text)

theorem scrubSummary_sameLinks (graph : Graph) (scrubText : ScrubText) (chain : List ℕ)
    (s : ErrorSummary) : SameLinks s (scrubSummary graph scrubText chain s) := by
  have hname := setScrubbed_sameLinks (fun s t => { s with name := t })
    (fun _ _ => ⟨rfl, rfl, rfl, rfl, rfl⟩) s (scrubField scrubText (dataProperty graph "name" chain))
  have hcode := hname.trans (setScrubbed_sameLinks (fun s t => { s with code := some (.string t) })
    (fun _ _ => ⟨rfl, rfl, rfl, rfl, rfl⟩) _
    (scrubField scrubText (dataProperty graph "code" chain)))
  have hfields := hcode.trans (setScrubbed_sameLinks (fun s t => { s with message := t })
    (fun _ _ => ⟨rfl, rfl, rfl, rfl, rfl⟩) _ (scrubField scrubText
      (selectErrorMessage graph chain (dataProperty graph "cause" chain))))
  simp only [scrubSummary]
  split_ifs
  · exact hfields.trans ⟨rfl, rfl, rfl, rfl, rfl⟩
  · exact hfields

theorem addMismatch_sameLinks (o : ℕ) (s : ErrorSummary) :
    SameLinks s (addMismatch g options o s) := by
  unfold addMismatch
  split
  · exact SameLinks.refl s
  · exact ⟨rfl, rfl, rfl, rfl, rfl⟩

theorem classified_sameLinks (s : ErrorSummary) : SameLinks s s.classified :=
  ⟨rfl, rfl, rfl, rfl, rfl⟩

theorem finishSummary_sameLinks (g : ErrorGraph) (options : Option ScrubText) (o : ℕ)
    (s : ErrorSummary) :
    SameLinks s (finishSummary g options o s) := by
  have hscrubbed : SameLinks s (options.elim s fun scrubText =>
      scrubSummary g.toGraph scrubText (prototypeChain g.toGraph o) s) := by
    cases options with
    | none => exact SameLinks.refl s
    | some scrubText => exact scrubSummary_sameLinks g.toGraph scrubText _ s
  exact (hscrubbed.trans (addMismatch_sameLinks o _)).trans (classified_sameLinks _)

theorem finishSummary_texts {o : ℕ} (h : TextsKnown g options s) (ho : s.subject = .object o) :
    TextsKnown g options (finishSummary g options o s) := by
  rw [finishSummary]
  cases options with
  | none => exact (addMismatch_texts h ho).classified
  | some scrubText =>
    have hsubject := (scrubSummary_sameLinks g.toGraph scrubText
      (prototypeChain g.toGraph o) s).subject.trans ho
    exact (addMismatch_texts (scrubSummary_texts g.toGraph _ h) hsubject).classified

/-- What a summary owes is not changed by what is done to it after its visits. -/
theorem Honest.finish {o : ℕ} (h : Honest g options s) (ho : s.subject = .object o) :
    Honest g options (finishSummary g options o s) := by
  have hlinks := finishSummary_sameLinks g options o s
  refine ⟨finishSummary_texts h.texts ho, ?_, ?_⟩
  · rw [hlinks.subject, hlinks.children, hlinks.causeOmitted]
    exact h.cause
  · rw [hlinks.subject, hlinks.children, hlinks.errorsOmitted]
    exact h.errors

/-! Visits. -/

section Links

variable (b) (child) (o : ℕ)

theorem visitLinks_fields :
    (visitLinks g child o b).1 =
      { startSummary g o with
        cause := (visitLinks g child o b).1.cause
        causeOmitted := (visitLinks g child o b).1.causeOmitted
        errors := (visitLinks g child o b).1.errors
        errorsOmitted := (visitLinks g child o b).1.errorsOmitted } := by
  rw [visitLinks, visitErrors_fields, visitCause_fields]

/-- The errors are visited after the cause and leave it alone. -/
theorem visitLinks_cause : (visitLinks g child o b).1.cause = (visitCause child
    (dataProperty g.toGraph "cause" (prototypeChain g.toGraph o)) (startSummary g o) b).1.cause := by
  rw [visitLinks, visitErrors_fields]

theorem visitLinks_causeOmitted : (visitLinks g child o b).1.causeOmitted = (visitCause child
    (dataProperty g.toGraph "cause" (prototypeChain g.toGraph o)) (startSummary g o)
    b).1.causeOmitted := by
  rw [visitLinks, visitErrors_fields]

theorem visitLinks_subject : (visitLinks g child o b).1.subject = .object o := by
  rw [visitLinks_fields]
  rfl

end Links

theorem visitObject_subject {o : ℕ} :
    (visitObject g options child o b).1.subject = .object o :=
  (finishSummary_sameLinks g options o _).subject.trans (visitLinks_subject b child o)

theorem visitLinks_grown (hchild : Accounts g options left child) (o : ℕ) :
    Grown g options left b (visitLinks g child o b).1.children (visitLinks g child o b).2 := by
  have hcause := visitCause_grown (b := b) (s := startSummary g o) hchild rfl
    (dataProperty g.toGraph "cause" (prototypeChain g.toGraph o))
  rw [ErrorSummary.children, visitLinks_cause]
  apply hcause.append
  apply visitErrors_grown hchild
  rw [visitCause_fields]
  rfl

theorem visitLinks_honest (hchild : Accounts g options left child) (o : ℕ) :
    Honest g options (visitLinks g child o b).1 := by
  have hsubject : (visitLinks g child o b).1.subject = .object o := visitLinks_subject b child o
  refine ⟨?_, fun p v hp hheld hundefined hnull => ?_, fun p array index v hp hentry => ?_⟩
  · rw [visitLinks_fields]
    exact { startSummary_texts o with }
  · obtain rfl := Value.object.inj (hsubject.symm.trans hp)
    have hread := (dataProperty_prototypeChain hundefined).mpr hheld
    rw [ErrorSummary.children, visitLinks_cause, visitLinks_causeOmitted, hread]
    rcases visitCause_accounted hchild hundefined hnull with ⟨c, hc, hcause⟩ | homitted
    · exact .inl ⟨c, List.mem_append_left _ (by rw [hc]; exact List.mem_singleton_self c), hcause⟩
    · exact .inr homitted
  · obtain rfl := Value.object.inj (hsubject.symm.trans hp)
    have hname : (visitCause child (dataProperty g.toGraph "cause" (prototypeChain g.toGraph o))
        (startSummary g o) b).1.name = text "AggregateError" := by
      -- the visit of the cause keeps the name
      rw [visitCause_fields]
      exact startSummary_name hentry.name
    rw [ErrorSummary.children, visitLinks]
    rcases visitErrors_accounted hchild hname hentry with ⟨c, hc, herror⟩ | homitted
    · exact .inl ⟨c, List.mem_append_right _ hc, herror⟩
    · exact .inr homitted

theorem summarizePlain_sameLinks (options : Option ScrubText) (error : Value) :
    SameLinks (unknownError error) (summarizePlain options error) :=
  setScrubbed_sameLinks (fun s t => { s with message := t }) (fun _ _ => ⟨rfl, rfl, rfl, rfl, rfl⟩)
    _ _

theorem summarizePlain_grown {error : Value} (herror : ∀ o, error ≠ .object o)
    (hb : b.remaining ≠ 0) :
    Grown g options (left+1) b [summarizePlain options error] b.spend := by
  have hlinks := summarizePlain_sameLinks options error
  have hsubject : (summarizePlain options error).subject = error := hlinks.subject
  have hchildren : (summarizePlain options error).children = [] := hlinks.children
  apply Grown.node
  · rw [hchildren]
    exact Grown.nothing
  · have hobject : error.asObject = none := by
      cases error with
      | object o => exact absurd rfl (herror o)
      | _ => rfl
    rw [hsubject, hobject, ErrorSummary.descendants, hchildren]
    exact Taken.plain hb
  · refine ⟨summarizePlain_texts error, fun o v ho => ?_, fun o array index v ho => ?_⟩
    · exact absurd (hsubject.symm.trans ho) (herror o)
    · exact absurd (hsubject.symm.trans ho) (herror o)

theorem visitObject_grown (hchild : Accounts g options left child) {o : ℕ} (hb : b.remaining ≠ 0)
    (ho : o ∉ b.seen) : Grown g options (left+1) b
      [(visitObject g options child o (b.spend.mark o)).1]
      (visitObject g options child o (b.spend.mark o)).2 := by
  have hlinks := finishSummary_sameLinks g options o
    (visitLinks g child o (b.spend.mark o)).1
  have hsubject := visitLinks_subject (g := g) (b.spend.mark o) child o
  have hbelow := visitLinks_grown (b := b.spend.mark o) hchild o
  simp only [visitObject]
  apply Grown.node
  · rw [hlinks.children]
    exact hbelow
  · rw [hlinks.subject, hsubject, ErrorSummary.descendants, hlinks.children]
    exact Taken.object hb ho hbelow.taken
  · exact (visitLinks_honest hchild o).finish hsubject

theorem visit_spent (v : Value) (hb : b.remaining = 0) :
    visit g options (left+1) v b = (none, b) := by
  unfold visit
  exact if_pos hb

theorem visit_seen {o : ℕ} (hb : b.remaining ≠ 0) (ho : o ∈ b.seen) :
    visit g options (left+1) (.object o) b = (none, b.spend) := by
  rw [visit, if_neg hb]
  exact if_pos ho

theorem visit_object {o : ℕ} (hb : b.remaining ≠ 0) (ho : o ∉ b.seen) :
    visit g options (left+1) (.object o) b =
      (some (visitObject g options (visit g options left) o (b.spend.mark o)).1,
        (visitObject g options (visit g options left) o (b.spend.mark o)).2) := by
  rw [visit, if_neg hb]
  exact if_neg ho

theorem visit_plain {v : Value} (hb : b.remaining ≠ 0) (hv : ∀ o, v ≠ .object o) :
    visit g options (left+1) v b = (some (summarizePlain options v), b.spend) := by
  rw [visit, if_neg hb]
  exact hv

/-- By induction on the depth that is left: each level accounts for the visits of the next. -/
theorem visit_accounts (g : ErrorGraph) (options : Option ScrubText) (left : ℕ) :
    Accounts g options left (visit g options left) := by
  induction left with
  | zero => exact ⟨fun _ _ => Grown.nothing, fun _ _ _ h => by cases h⟩
  | succ left ih =>
    refine ⟨fun v b => ?_, fun v b s hs => ?_⟩
    · by_cases hb : b.remaining = 0
      · rw [visit_spent v hb]
        exact Grown.nothing
      by_cases hv : ∃ o, v = .object o
      · obtain ⟨o, rfl⟩ := hv
        by_cases ho : o ∈ b.seen
        · rw [visit_seen hb ho]
          exact Grown.skip
        · rw [visit_object hb ho]
          exact visitObject_grown ih hb ho
      · rw [not_exists] at hv
        rw [visit_plain hb hv]
        exact summarizePlain_grown hv hb
    · by_cases hb : b.remaining = 0
      · rw [visit_spent v hb] at hs
        cases hs
      by_cases hv : ∃ o, v = .object o
      · obtain ⟨o, rfl⟩ := hv
        by_cases ho : o ∈ b.seen
        · rw [visit_seen hb ho] at hs
          cases hs
        · rw [visit_object hb ho] at hs
          obtain rfl := Option.some.inj hs
          exact visitObject_subject
      · rw [not_exists] at hv
        rw [visit_plain hb hv] at hs
        obtain rfl := Option.some.inj hs
        exact (summarizePlain_sameLinks options v).subject

/-- The first visit has its whole budget, so that it gives a summary. -/
theorem visit_first (g : ErrorGraph) (options : Option ScrubText) (error : Value) :
    (visit g options MAX_ERROR_DEPTH error ⟨MAX_ERROR_NODES, []⟩).1 =
      some (summarizeError g options error) := by
  have hb : (⟨MAX_ERROR_NODES, []⟩ : Budget ℕ).remaining ≠ 0 := by decide
  rw [summarizeError, MAX_ERROR_DEPTH]
  by_cases hv : ∃ o, error = .object o
  · obtain ⟨o, rfl⟩ := hv
    rw [visit_object hb List.not_mem_nil]
    rfl
  · rw [not_exists] at hv
    rw [visit_plain hb hv]
    rfl

/-- Every summary is a tree of the error with at most 12 nodes and a depth of at most 4. No object
has two nodes, all texts are known, and a cause or an entry of an `AggregateError` that is not
among the nodes below its own is said to be omitted there. -/
theorem summarizeError_bounded (g : ErrorGraph) (options : Option ScrubText) (error : Value) :
    (summarizeError g options error).subject = error ∧
      (summarizeError g options error).nodes.length ≤ 12 ∧
      (summarizeError g options error).depth ≤ 4 ∧
      (objects (summarizeError g options error).nodes).Nodup ∧
      ∀ n ∈ (summarizeError g options error).nodes,
        (∀ t ∈ n.texts, TextOrigin g options n.subject t) ∧
        (∀ o v, n.subject = .object o → HoldsWithin g.toGraph 5 o "cause" v →
          v ≠ .undefined → v ≠ .null →
          (∀ m ∈ n.descendants, m.subject ≠ v) → n.causeOmitted = true) ∧
        (∀ o array index v, n.subject = .object o → AggregateEntry g.toGraph o array index v →
          (∀ m ∈ n.descendants, m.subject ≠ v) → n.errorsOmitted = true) := by
  -- the root has the whole budget, so that what it took is the tree
  have haccounts := visit_accounts g options MAX_ERROR_DEPTH
  have hgrown := haccounts.grown error ⟨MAX_ERROR_NODES, []⟩
  rw [visit_first, Option.toList_some] at hgrown
  have htaken := hgrown.taken
  rw [List.flatMap_singleton] at htaken
  refine ⟨haccounts.subject error _ _ (visit_first g options error), ?_, ?_, htaken.nodup, ?_⟩
  · have hspent := htaken.spent
    simp only [MAX_ERROR_NODES] at hspent
    omega
  · exact hgrown.depth _ (List.mem_singleton_self _)
  · intro n hn
    have hhonest := hgrown.honest n (by rwa [List.flatMap_singleton])
    refine ⟨hhonest.texts.texts, ?_, ?_⟩
    · intro o v ho hheld hundefined hnull hmissing
      rcases hhonest.cause o v ho hheld hundefined hnull with ⟨c, hc, hsubject⟩ | homitted
      · exact absurd hsubject (hmissing c (ErrorSummary.mem_descendants_of_child hc))
      · exact homitted
    · intro o array index v ho hentry hmissing
      rcases hhonest.errors o array index v ho hentry with ⟨c, hc, hsubject⟩ | homitted
      · exact absurd hsubject (hmissing c (ErrorSummary.mem_descendants_of_child hc))
      · exact homitted

/-- An error that is its own cause. -/
def selfCaused : ErrorGraph where
  ownProperty o key := if o = 1 ∧ key = "cause" then .data (.object 1) else .absent
  prototypeOf o := if o = 0 then .null else .object 0
  isArray _ := some false
  objectPrototype := 0
  prototypeOf_objectPrototype := rfl
  mismatches _ := none
  anchoredReads _ := none

example : (summarizeError selfCaused none (.object 1)).causeOmitted = true := by decide

end Quicknet
