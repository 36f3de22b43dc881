import Mathlib.Data.List.ReduceOption
import Mathlib.Tactic

/-! The account of a traversal that may take a number of nodes, and the objects among them only
once. What one part of it took is added to what the next part takes. -/
namespace NodeBudget

variable {ο : Type*}

structure Budget (ο : Type*) where
  remaining : ℕ
  seen : List ο

def Budget.spend (b : Budget ο) : Budget ο := { b with remaining := b.remaining - 1 }

def Budget.mark (b : Budget ο) (o : ο) : Budget ο := { b with seen := o :: b.seen }

/-- Between the two budgets, so many nodes were taken, with these objects among them. -/
structure Taken (b : Budget ο) (nodes : ℕ) (objects : List ο) (b' : Budget ο) : Prop where
  spent : nodes + b'.remaining ≤ b.remaining
  seen : b.seen ⊆ b'.seen
  nodup : objects.Nodup
  fresh : ∀ o ∈ objects, o ∉ b.seen
  marked : ∀ o ∈ objects, o ∈ b'.seen

variable {b b' b'' : Budget ο} {n m : ℕ} {os ps : List ο}

theorem Taken.nothing (b : Budget ο) : Taken b 0 [] b :=
  ⟨by omega, List.Subset.refl _, List.nodup_nil, by simp, by simp⟩

/-- A node that was skipped has used up what it cost. -/
theorem Taken.skip (b : Budget ο) : Taken b 0 [] b.spend :=
  ⟨by simp [Budget.spend], List.Subset.refl _, List.nodup_nil, by simp, by simp⟩

theorem Taken.append (h : Taken b n os b') (h' : Taken b' m ps b'') :
    Taken b (n + m) (os ++ ps) b'' where
  spent := by
    have hspent := h.spent
    have hspent' := h'.spent
    omega
  seen := List.Subset.trans h.seen h'.seen
  nodup := by
    -- the second part has taken none of those that the first part marked
    apply List.Nodup.append h.nodup h'.nodup
    intro o ho ho'
    exact h'.fresh o ho' (h.marked o ho)
  fresh o ho := by
    rcases List.mem_append.mp ho with ho | ho
    · exact h.fresh o ho
    · exact fun hseen => h'.fresh o ho (h.seen hseen)
  marked o ho := by
    rcases List.mem_append.mp ho with ho | ho
    · exact h'.seen (h.marked o ho)
    · exact h'.marked o ho

/-- A node that is no object. -/
theorem Taken.plain (h : b.remaining ≠ 0) : Taken b 1 [] b.spend := by
  refine ⟨?_, List.Subset.refl _, List.nodup_nil, by simp, by simp⟩
  simp only [Budget.spend]
  omega

/-- An object, with what is taken below it once it is marked. -/
theorem Taken.object {o : ο} (h : b.remaining ≠ 0) (ho : o ∉ b.seen)
    (hbelow : Taken (b.spend.mark o) n os b') : Taken b (1 + n) (o :: os) b' where
  spent := by
    have hspent := hbelow.spent
    simp only [Budget.mark, Budget.spend] at hspent
    omega
  seen := List.Subset.trans (List.subset_cons_self o b.seen) hbelow.seen
  nodup := by
    rw [List.nodup_cons]
    refine ⟨fun hmem => ?_, hbelow.nodup⟩
    exact hbelow.fresh o hmem List.mem_cons_self
  fresh p hp := by
    rcases List.mem_cons.mp hp with rfl | hp
    · exact ho
    · exact fun hseen => hbelow.fresh p hp (List.mem_cons_of_mem o hseen)
  marked p hp := by
    rcases List.mem_cons.mp hp with rfl | hp
    · exact hbelow.seen List.mem_cons_self
    · exact hbelow.marked p hp

/-! Nodes that the budget allows, each with its object where it is one. -/

structure Fits (b : Budget ο) (nodes : List (Option ο)) : Prop where
  length_le : nodes.length ≤ b.remaining
  nodup : nodes.reduceOption.Nodup
  fresh : ∀ o ∈ nodes.reduceOption, o ∉ b.seen

/-- Exactly these nodes were taken between the two budgets. -/
structure Spent (b : Budget ο) (nodes : List (Option ο)) (b' : Budget ο) : Prop where
  remaining : nodes.length + b'.remaining = b.remaining
  seen : ∀ o, o ∈ b'.seen ↔ o ∈ b.seen ∨ o ∈ nodes.reduceOption

section Sequence

variable {ns ms : List (Option ο)} {o : ο}

theorem Spent.nothing (b : Budget ο) : Spent b [] b :=
  ⟨by simp, by simp [List.reduceOption]⟩

theorem Spent.append (h : Spent b ns b') (h' : Spent b' ms b'') : Spent b (ns ++ ms) b'' where
  remaining := by
    have hfirst := h.remaining
    have hsecond := h'.remaining
    rw [List.length_append]
    omega
  seen p := by
    rw [h'.seen, h.seen, List.reduceOption_append, List.mem_append, or_assoc]

theorem Fits.left (h : Fits b (ns ++ ms)) : Fits b ns where
  length_le := by
    have hlength := h.length_le
    rw [List.length_append] at hlength
    omega
  nodup := by
    have hnodup := h.nodup
    rw [List.reduceOption_append] at hnodup
    exact (List.nodup_append'.mp hnodup).1
  fresh o ho := h.fresh o (by
    rw [List.reduceOption_append]
    exact List.mem_append_left _ ho)

/-- What fits after other nodes fits once these were taken. -/
theorem Fits.right (h : Fits b (ns ++ ms)) (hspent : Spent b ns b') : Fits b' ms where
  length_le := by
    have hlength := h.length_le
    have hremaining := hspent.remaining
    rw [List.length_append] at hlength
    omega
  nodup := by
    have hnodup := h.nodup
    rw [List.reduceOption_append] at hnodup
    exact (List.nodup_append'.mp hnodup).2.1
  fresh o ho := by
    have hnodup := h.nodup
    rw [List.reduceOption_append] at hnodup
    rw [hspent.seen, not_or]
    refine ⟨h.fresh o ?_, fun hbefore => (List.nodup_append'.mp hnodup).2.2 hbefore ho⟩
    rw [List.reduceOption_append]
    exact List.mem_append_right _ ho

theorem Fits.pos {n : Option ο} (h : Fits b (n :: ns)) : b.remaining ≠ 0 := by
  have hlength := h.length_le
  rw [List.length_cons] at hlength
  omega

theorem Fits.object (h : Fits b (some o :: ns)) :
    o ∉ b.seen ∧ Fits (b.spend.mark o) ns := by
  have hnodup := h.nodup
  rw [List.reduceOption_cons_of_some, List.nodup_cons] at hnodup
  have hfresh := h.fresh
  simp only [List.reduceOption_cons_of_some, List.forall_mem_cons] at hfresh
  refine ⟨hfresh.1, ⟨?_, hnodup.2, fun p hp => ?_⟩⟩
  · have hlength := h.length_le
    rw [List.length_cons] at hlength
    simp only [Budget.mark, Budget.spend]
    omega
  · simp only [Budget.mark, Budget.spend, List.mem_cons, not_or]
    exact ⟨fun heq => hnodup.1 (heq ▸ hp), hfresh.2 p hp⟩

theorem Spent.object (h : b.remaining ≠ 0) (hspent : Spent (b.spend.mark o) ns b') :
    Spent b (some o :: ns) b' where
  remaining := by
    have hremaining := hspent.remaining
    simp only [Budget.mark, Budget.spend] at hremaining
    rw [List.length_cons]
    omega
  seen p := by
    rw [hspent.seen, List.reduceOption_cons_of_some]
    simp only [Budget.mark, Budget.spend, List.mem_cons]
    tauto

theorem Spent.plain (h : b.remaining ≠ 0) : Spent b [none] b.spend where
  remaining := by
    simp only [Budget.spend, List.length_singleton]
    omega
  seen p := by simp [Budget.spend, List.reduceOption]

end Sequence

end NodeBudget
