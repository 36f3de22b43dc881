import Mathlib.Tactic

/-! Queues whose items carry consecutive numbers. Items are added at the back,
released at the front, and an empty queue may skip numbers. A number that was
given to an item is never given to another one. -/

structure NumberedQueue (ρ : Type*) where
  /-- The number of the first item, or of the next one when there is none. -/
  first : ℕ
  items : List ρ

namespace NumberedQueue

variable {ρ : Type*} {q q' q'' : NumberedQueue ρ}

def next (q : NumberedQueue ρ) : ℕ := q.first + q.items.length

def item? (q : NumberedQueue ρ) (n : ℕ) : Option ρ :=
  if q.first ≤ n then q.items[n - q.first]? else none

inductive Step : NumberedQueue ρ → NumberedQueue ρ → Prop
  | keep (q : NumberedQueue ρ) : Step q q
  | enqueue (first : ℕ) (items : List ρ) (r : ρ) : Step ⟨first, items⟩ ⟨first, items ++ [r]⟩
  | dequeue (first : ℕ) (r : ρ) (rest : List ρ) : Step ⟨first, r :: rest⟩ ⟨first+1, rest⟩
  | skip (first n : ℕ) : first ≤ n → Step ⟨first, []⟩ ⟨n, []⟩

/-- No number goes back, and what both queues hold under a number is the same. -/
structure Evolves (q q' : NumberedQueue ρ) : Prop where
  first_le : q.first ≤ q'.first
  next_le : q.next ≤ q'.next
  item_eq : ∀ n, q'.first ≤ n → n < q.next → q'.item? n = q.item? n

theorem item?_eq_some_bounds {n : ℕ} {r : ρ} (h : q.item? n = some r) :
    q.first ≤ n ∧ n < q.next := by
  unfold item? at h
  split_ifs at h with hle
  obtain ⟨hlt, _⟩ := List.getElem?_eq_some_iff.mp h
  exact ⟨hle, by unfold next; omega⟩

theorem Evolves.refl (q : NumberedQueue ρ) : Evolves q q := ⟨le_rfl, le_rfl, fun _ _ _ => rfl⟩

theorem Evolves.trans (h : Evolves q q') (h' : Evolves q' q'') : Evolves q q'' := by
  refine ⟨h.first_le.trans h'.first_le, h.next_le.trans h'.next_le, ?_⟩
  intro n hn hlt
  rw [h'.item_eq n hn (lt_of_lt_of_le hlt h.next_le)]
  exact h.item_eq n (h'.first_le.trans hn) hlt

theorem Step.evolves (h : Step q q') : Evolves q q' := by
  cases h with
  | keep => exact Evolves.refl _
  | enqueue first items r =>
    refine ⟨le_rfl, by simp only [next, List.length_append]; omega, ?_⟩
    intro n hn hlt
    simp only [next, item?] at hn hlt ⊢
    rw [if_pos hn, if_pos hn, List.getElem?_append_left (by omega)]
  | dequeue first r rest =>
    refine ⟨by simp, by simp only [next, List.length_cons]; omega, ?_⟩
    intro n hn hlt
    simp only [item?] at hn ⊢
    obtain ⟨k, rfl⟩ : ∃ k, n = first+1+k := ⟨n-(first+1), by omega⟩
    rw [if_pos hn, if_pos (by omega)]
    have h₁ : first+1+k-(first+1) = k := by omega
    have h₂ : first+1+k-first = k+1 := by omega
    rw [h₁, h₂, List.getElem?_cons_succ]
  | skip first n hle =>
    refine ⟨hle, by simpa [next] using hle, ?_⟩
    intro m hm hlt
    simp only [next, List.length_nil] at hm hlt
    omega

/-- A number names one item for ever: what it named once, it names in every
later queue that still holds it. -/
theorem Evolves.item_unique (h : Evolves q q') {n : ℕ} {r r' : ρ} (hr : q.item? n = some r)
    (hr' : q'.item? n = some r') : r = r' := by
  have hb := item?_eq_some_bounds hr
  have hb' := item?_eq_some_bounds hr'
  rw [h.item_eq n hb'.1 hb.2, hr] at hr'
  exact Option.some.inj hr'

end NumberedQueue
