import Mathlib.Tactic

/-! How a queue can change when entries leave it only at the front, join it only at
the back, and are otherwise replaced one for one by related entries. -/
namespace QueueFrame

variable {α : Type*} {R : α → α → Prop}

/-- The first `k` entries of `l` have left, the others are in `m` in their order,
each replaced by a related one, and what `m` has after them is new. -/
def Framed (R : α → α → Prop) (k : ℕ) (l m : List α) : Prop :=
  ∃ removed kept kept' added, l = removed ++ kept ∧ removed.length = k ∧
    List.Forall₂ R kept kept' ∧ m = kept' ++ added

theorem Framed.refl (hR : ∀ a, R a a) (l : List α) : Framed R 0 l l :=
  ⟨[], l, l, [], rfl, rfl, List.forall₂_same.mpr fun a _ => hR a, (List.append_nil l).symm⟩

/-- Related entries split where the list they are related to splits. -/
theorem forall₂_append_right {kept front back : List α}
    (h : List.Forall₂ R kept (front ++ back)) :
    ∃ front' back', kept = front' ++ back' ∧ List.Forall₂ R front' front ∧
      List.Forall₂ R back' back := by
  refine ⟨kept.take front.length, kept.drop front.length, (List.take_append_drop _ _).symm, ?_, ?_⟩
  · have htake := List.forall₂_take front.length h
    rwa [List.take_left] at htake
  · have hdrop := List.forall₂_drop front.length h
    rwa [List.drop_left] at hdrop

theorem forall₂_trans (hR : ∀ a b c, R a b → R b c → R a c) {l m n : List α}
    (h₁ : List.Forall₂ R l m) (h₂ : List.Forall₂ R m n) : List.Forall₂ R l n := by
  induction h₁ generalizing n with
  | nil => exact h₂
  | cons hab _ ih =>
    cases h₂ with
    | cons hbc hrest => exact .cons (hR _ _ _ hab hbc) (ih hrest)

/-- One change after another: what the second removes from the entries that the
first kept has left the original queue as well. -/
theorem Framed.trans (hR : ∀ a b c, R a b → R b c → R a c) {j k : ℕ} {l m n : List α}
    (h₁ : Framed R j l m) (h₂ : Framed R k m n) : ∃ i, Framed R i l n := by
  obtain ⟨r₁, k₁, k₁', a₁, rfl, rfl, hk₁, rfl⟩ := h₁
  obtain ⟨r₂, k₂, k₂', a₂, hsplit, rfl, hk₂, rfl⟩ := h₂
  rcases List.append_eq_append_iff.mp hsplit with ⟨z, hr₂, ha₁⟩ | ⟨z, hk₁', hk₂'⟩
  · -- everything that the first change kept is gone
    refine ⟨_, r₁ ++ k₁, [], [], k₂' ++ a₂, (List.append_nil _).symm, rfl, .nil, rfl⟩
  · subst hk₁' hk₂'
    obtain ⟨front, back, rfl, _, hback⟩ := forall₂_append_right hk₁
    have hflip : List.Forall₂ (flip R) k₂' (z ++ a₁) := hk₂.flip
    obtain ⟨z', a₁', rfl, hz, _⟩ := forall₂_append_right hflip
    refine ⟨_, r₁ ++ front, back, z', a₁' ++ a₂, by simp, rfl, ?_, by simp⟩
    exact forall₂_trans hR hback hz.flip

/-- What left and what stayed, entry by entry. -/
theorem Framed.mem {k : ℕ} {l m : List α} (h : Framed R k l m) {a : α} (ha : a ∈ l) :
    a ∈ l.take k ∨ ∃ b ∈ m, R a b := by
  obtain ⟨removed, kept, kept', added, rfl, rfl, hk, rfl⟩ := h
  rcases List.mem_append.mp ha with ha | ha
  · left
    rwa [List.take_left]
  · right
    obtain ⟨i, hi, hget⟩ := List.mem_iff_getElem.mp ha
    have hi' : i < kept'.length := by
      have hlen := hk.length_eq
      omega
    refine ⟨kept'[i], List.mem_append_left _ (List.getElem_mem hi'), ?_⟩
    have hrel := (List.forall₂_iff_get.mp hk).2 i hi hi'
    simpa [hget] using hrel

end QueueFrame
