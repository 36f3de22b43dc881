import Mathlib.Tactic

/-! Lists of blocks in which each block extends the position before it. A block
of type `β` has a position `pos b`; `ext p b` says that `b` directly extends `p`. -/
namespace ParentChain

variable {β π : Type*}

/-- The blocks extend `p` one after the other. -/
def Linked (ext : π → β → Prop) (pos : β → π) : π → List β → Prop
  | _, [] => True
  | p, b :: rest => ext p b ∧ Linked ext pos (pos b) rest

/-- The position after the last block. -/
def tip (pos : β → π) : π → List β → π
  | p, [] => p
  | _, b :: rest => tip pos (pos b) rest

@[simp] theorem linked_nil (ext : π → β → Prop) (pos : β → π) (p : π) : Linked ext pos p [] :=
  trivial

@[simp] theorem linked_cons {ext : π → β → Prop} {pos : β → π} {p : π} {b : β} {l : List β} :
    Linked ext pos p (b :: l) ↔ ext p b ∧ Linked ext pos (pos b) l := Iff.rfl

@[simp] theorem tip_nil (pos : β → π) (p : π) : tip pos p [] = p := rfl

@[simp] theorem tip_cons (pos : β → π) (p : π) (b : β) (l : List β) :
    tip pos p (b :: l) = tip pos (pos b) l := rfl

@[simp] theorem tip_append_singleton (pos : β → π) (p : π) (l : List β) (b : β) :
    tip pos p (l ++ [b]) = pos b := by
  induction l generalizing p with
  | nil => rfl
  | cons c l ih => exact ih (pos c)

@[simp] theorem linked_append {ext : π → β → Prop} {pos : β → π} {p : π} {l m : List β} :
    Linked ext pos p (l ++ m) ↔ Linked ext pos p l ∧ Linked ext pos (tip pos p l) m := by
  induction l generalizing p with
  | nil => simp
  | cons b l ih => simp [ih, and_assoc]

/-- If extending raises a height by one, the tip is one higher for each block. -/
theorem height_tip {ext : π → β → Prop} {pos : β → π} (height : π → ℕ)
    (hext : ∀ p b, ext p b → height (pos b) = height p + 1) {p : π} {l : List β}
    (h : Linked ext pos p l) : height (tip pos p l) = height p + l.length := by
  induction l generalizing p with
  | nil => rfl
  | cons b l ih =>
    rw [tip_cons, ih h.2, hext p b h.1, List.length_cons]
    omega

theorem height_mem {ext : π → β → Prop} {pos : β → π} (height : π → ℕ)
    (hext : ∀ p b, ext p b → height (pos b) = height p + 1) {p : π} {l : List β}
    (h : Linked ext pos p l) {b : β} (hb : b ∈ l) :
    height p < height (pos b) ∧ height (pos b) ≤ height p + l.length := by
  induction l generalizing p with
  | nil => simp at hb
  | cons c l ih =>
    have hc := hext p c h.1
    rcases List.mem_cons.mp hb with rfl | hb
    · simp only [List.length_cons]
      omega
    · have := ih h.2 hb
      simp only [List.length_cons]
      omega

/-- Every height from the start up to the tip is that of a block. -/
theorem Linked.exists_height {ext : π → β → Prop} {pos : β → π} (height : π → ℕ)
    (hext : ∀ p b, ext p b → height (pos b) = height p + 1) {p : π} {l : List β}
    (h : Linked ext pos p l) {n : ℕ} (hlo : height p < n) (hhi : n ≤ height p + l.length) :
    ∃ b ∈ l, height (pos b) = n := by
  induction l generalizing p with
  | nil =>
    rw [List.length_nil] at hhi
    omega
  | cons b l ih =>
    have hb := hext p b h.1
    rw [List.length_cons] at hhi
    by_cases hn : height (pos b) = n
    · exact ⟨b, by simp, hn⟩
    · obtain ⟨c, hc, hcn⟩ := ih h.2 (by omega) (by omega)
      exact ⟨c, by simp [hc], hcn⟩

/-- The blocks of a sequence, when each extends the one before it. -/
theorem linked_range' {ext : π → β → Prop} {pos : β → π} {block : ℕ → β}
    (hext : ∀ n, ext (pos (block n)) (block (n+1))) (n len : ℕ) :
    Linked ext pos (pos (block n)) ((List.range' (n+1) len).map block) := by
  induction len generalizing n with
  | zero => exact trivial
  | succ len ih =>
    rw [List.range'_succ, List.map_cons]
    exact ⟨hext n, ih (n+1)⟩

/-- A property that passes from a block to the one it extends holds of the first
block as soon as it holds of any. -/
theorem Linked.head_of_mem {ext : π → β → Prop} {pos : β → π} {P : β → Prop} {p : π} {b : β}
    {l : List β} (h : Linked ext pos p (b :: l))
    (hback : ∀ c ∈ b :: l, ∀ d ∈ b :: l, ext (pos c) d → P d → P c) {d : β}
    (hd : d ∈ b :: l) (hg : P d) : P b := by
  induction l generalizing p b with
  | nil => rwa [List.mem_singleton.mp hd] at hg
  | cons c l ih =>
    rcases List.mem_cons.mp hd with rfl | hd
    · exact hg
    have hc : P c := ih h.2
      (fun x hx y hy => hback x (List.mem_cons_of_mem b hx) y (List.mem_cons_of_mem b hy)) hd
    exact hback b (by simp) c (by simp) h.2.1 hc

/-- Such a property holds of the blocks up to some point and of none after it. -/
theorem Linked.split {ext : π → β → Prop} {pos : β → π} {P : β → Prop} {p : π} {l : List β}
    (h : Linked ext pos p l)
    (hback : ∀ c ∈ l, ∀ d ∈ l, ext (pos c) d → P d → P c) :
    ∃ front back, l = front ++ back ∧ (∀ b ∈ front, P b) ∧ ∀ b ∈ back, ¬ P b := by
  induction l generalizing p with
  | nil => exact ⟨[], [], rfl, by simp, by simp⟩
  | cons b l ih =>
    by_cases hb : P b
    · obtain ⟨front, back, rfl, hf, hn⟩ := ih h.2
        (fun x hx y hy => hback x (List.mem_cons_of_mem b hx) y (List.mem_cons_of_mem b hy))
      refine ⟨b :: front, back, rfl, ?_, hn⟩
      intro c hc
      rcases List.mem_cons.mp hc with rfl | hc
      · exact hb
      · exact hf c hc
    · exact ⟨[], b :: l, rfl, by simp, fun c hc hg => hb (h.head_of_mem hback hc hg)⟩

end ParentChain
