import Mathlib.Tactic

/-! A loop over words in which an option may take the next word as its value. What the loop
accepts is a sequence of items, each a word with its value or a word alone. -/
namespace ArgumentScan

variable {τ σ ε : Type}

/-- One pass over the words. The step is given the word and the one after it, and says
whether it took that one as well. -/
def scan (step : σ → τ → Option τ → Except ε (σ × Bool)) : σ → List τ → Except ε σ
  | s, [] => .ok s
  | s, word :: rest =>
    match step s word rest.head? with
    | .error e => .error e
    | .ok (t, false) => scan step t rest
    | .ok (t, true) =>
      match rest with
      | [] => .ok t
      | _ :: rest => scan step t rest

structure Item (τ : Type) where
  word : τ
  value : Option τ

def Item.words (i : Item τ) : List τ := i.word :: i.value.toList

def spelled (items : List (Item τ)) : List τ := items.flatMap Item.words

/-- What the step has to respect: a value is taken only where there is one, and a word that
takes none does not look at the next one. -/
structure Regular (step : σ → τ → Option τ → Except ε (σ × Bool)) : Prop where
  taken : ∀ s word t, step s word none ≠ .ok (t, true)
  alone : ∀ s word next next' t, step s word next = .ok (t, false) →
    step s word next' = .ok (t, false)

/-- The states that the items lead through. -/
inductive Accepts (step : σ → τ → Option τ → Except ε (σ × Bool)) : σ → List (Item τ) → σ → Prop
  | nil (s : σ) : Accepts step s [] s
  | cons {s t u : σ} {i : Item τ} {items : List (Item τ)}
      (head : step s i.word i.value = .ok (t, i.value.isSome)) (tail : Accepts step t items u) :
      Accepts step s (i :: items) u

variable {step : σ → τ → Option τ → Except ε (σ × Bool)}

theorem accepts_nil_iff {s t : σ} : Accepts step s [] t ↔ s = t := by
  constructor
  · intro h
    cases h
    rfl
  · rintro rfl
    exact .nil s

/-- After the words of accepted items the loop goes on from where they lead. -/
theorem Accepts.scan_append (hstep : Regular step) {s t : σ} {items : List (Item τ)}
    (h : Accepts step s items t) (rest : List τ) :
    scan step s (spelled items ++ rest) = scan step t rest := by
  induction h with
  | nil s => rfl
  | @cons s t u i items head tail ih =>
    obtain ⟨word, value⟩ := i
    cases value with
    | none =>
      have hnext := hstep.alone s word none (spelled items ++ rest).head? t head
      change scan step s (word :: (spelled items ++ rest)) = _
      rw [scan, hnext]
      exact ih
    | some v =>
      change scan step s (word :: v :: (spelled items ++ rest)) = _
      have hhead : step s word (v :: (spelled items ++ rest)).head? = .ok (t, true) := head
      rw [scan, hhead]
      exact ih

theorem Accepts.scan (hstep : Regular step) {s t : σ} {items : List (Item τ)}
    (h : Accepts step s items t) : scan step s (spelled items) = .ok t := by
  have happend := h.scan_append hstep []
  rw [List.append_nil] at happend
  exact happend

/-- The loop accepts exactly the words that items spell. -/
theorem scan_ok_iff (hstep : Regular step) {s t : σ} {words : List τ} :
    scan step s words = .ok t ↔ ∃ items, words = spelled items ∧ Accepts step s items t := by
  constructor
  · intro h
    induction words using List.twoStepInduction generalizing s with
    | nil => exact ⟨[], rfl, accepts_nil_iff.mpr (Except.ok.inj h)⟩
    | singleton word =>
      -- there is no next word, so none is taken
      rw [scan] at h
      cases hs : step s word none with
      | error e => simp only [List.head?_nil, hs, reduceCtorEq] at h
      | ok r =>
        obtain ⟨u, consumed⟩ := r
        cases consumed with
        | true => exact absurd hs (hstep.taken s word u)
        | false =>
          simp only [List.head?_nil, hs, scan, Except.ok.injEq] at h
          refine ⟨[⟨word, none⟩], rfl, .cons ?_ (accepts_nil_iff.mpr h)⟩
          exact hs
    | cons_cons word next rest ih ih' =>
      rw [scan] at h
      cases hs : step s word (some next) with
      | error e => simp only [List.head?_cons, hs, reduceCtorEq] at h
      | ok r =>
        obtain ⟨u, consumed⟩ := r
        simp only [List.head?_cons, hs] at h
        cases consumed with
        | true =>
          obtain ⟨items, hwords, hitems⟩ := ih h
          refine ⟨⟨word, some next⟩ :: items, ?_, .cons hs hitems⟩
          rw [hwords]
          rfl
        | false =>
          obtain ⟨items, hwords, hitems⟩ := ih' next h
          refine ⟨⟨word, none⟩ :: items, ?_, .cons (hstep.alone s word _ none u hs) hitems⟩
          rw [hwords]
          rfl
  · rintro ⟨items, rfl, h⟩
    exact h.scan hstep

/-- An error of the loop is one of the step, at one of the words. -/
theorem scan_error {s : σ} {words : List τ} {e : ε} (h : scan step s words = .error e) :
    ∃ t word next, word ∈ words ∧ step t word next = .error e := by
  induction words using List.twoStepInduction generalizing s with
  | nil => cases h
  | singleton word =>
    rw [scan] at h
    cases hs : step s word none with
    | error e' =>
      simp only [List.head?_nil, hs, Except.error.injEq] at h
      exact ⟨s, word, none, List.mem_cons_self, h ▸ hs⟩
    | ok r =>
      obtain ⟨u, consumed⟩ := r
      cases consumed <;> simp only [List.head?_nil, hs, scan, reduceCtorEq] at h
  | cons_cons word next rest ih ih' =>
    rw [scan] at h
    cases hs : step s word (some next) with
    | error e' =>
      simp only [List.head?_cons, hs, Except.error.injEq] at h
      exact ⟨s, word, some next, List.mem_cons_self, h ▸ hs⟩
    | ok r =>
      obtain ⟨u, consumed⟩ := r
      simp only [List.head?_cons, hs] at h
      cases consumed with
      | true =>
        obtain ⟨t, w, n, hmem, ht⟩ := ih h
        exact ⟨t, w, n, List.mem_cons_of_mem _ (List.mem_cons_of_mem _ hmem), ht⟩
      | false =>
        obtain ⟨t, w, n, hmem, ht⟩ := ih' next h
        exact ⟨t, w, n, List.mem_cons_of_mem _ hmem, ht⟩

end ArgumentScan
