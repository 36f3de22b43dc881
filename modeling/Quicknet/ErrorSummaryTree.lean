import Quicknet.ErrorSummaryTexts

/-! The summaries of a tree, with what each of them owes to the object that it is of. What an
object holds is read along its prototype chain. -/
namespace Quicknet

open Json (Text text unit)
open ObjectGraph NodeBudget

/-! Properties along the prototype chain. -/

section Lookup

variable {g : Graph} {key : String}

theorem dataProperty_append {chain : List ℕ}
    (habsent : ∀ o ∈ chain, g.ownProperty o key = .absent) (rest : List ℕ) :
    dataProperty g key (chain ++ rest) = dataProperty g key rest := by
  induction chain with
  | nil => rfl
  | cons o chain ih =>
    rw [List.cons_append, dataProperty, habsent o List.mem_cons_self]
    exact ih fun p hp => habsent p (List.mem_cons_of_mem o hp)

theorem dataProperty_absent {chain : List ℕ}
    (habsent : ∀ o ∈ chain, g.ownProperty o key = .absent) :
    dataProperty g key chain = .undefined := by
  rw [← List.append_nil chain, dataProperty_append habsent]
  rfl

/-- The first object that has the property decides. -/
theorem dataProperty_present {o : ℕ} (ho : g.ownProperty o key ≠ .absent) (rest : List ℕ) {v : Value}
    (hv : v ≠ .undefined) :
    dataProperty g key (o :: rest) = v ↔ g.ownProperty o key = .data v := by
  rw [dataProperty]
  cases hreply : g.ownProperty o key with
  | absent => exact absurd hreply ho
  | data w => simp
  | accessor => simpa using hv.symm
  | throws => simpa using hv.symm

theorem dataProperty_own (o : ℕ) : dataProperty g key [o] = (g.ownProperty o key).value := by
  rw [dataProperty]
  cases g.ownProperty o key <;> rfl

theorem prototypeChainFrom_eq_append (n : ℕ) (chain : List ℕ) (o : ℕ) (ho : o ∉ chain) :
    ∃ rest, prototypeChainFrom g (n+1) chain o = chain ++ o :: rest := by
  induction n generalizing chain o with
  | zero =>
    refine ⟨[], ?_⟩
    rw [prototypeChainFrom, if_neg ho]
    split_ifs
    · rfl
    · split <;> rfl
  | succ n ih =>
    rw [prototypeChainFrom, if_neg ho]
    split_ifs
    · exact ⟨[], rfl⟩
    · split
      · next p hp =>
        by_cases hmem : p ∈ chain ++ [o]
        · refine ⟨[], ?_⟩
          rw [prototypeChainFrom, if_pos hmem]
        · obtain ⟨rest, hrest⟩ := ih (chain ++ [o]) p hmem
          exact ⟨p :: rest, by rw [hrest]; simp⟩
      · exact ⟨[], rfl⟩

/-- The objects of `chain` have passed the property on to `o`, which comes next. -/
theorem dataProperty_prototypeChainFrom (n : ℕ) (chain : List ℕ) (o : ℕ)
    (habsent : ∀ p ∈ chain, g.ownProperty p key = .absent)
    (hclosed : ∀ p ∈ chain, ∀ q, g.prototypeOf p = .object q → q ∈ chain ∨ q = o) {v : Value}
    (hv : v ≠ .undefined) :
    dataProperty g key (prototypeChainFrom g n chain o) = v ↔ HoldsWithin g n o key v := by
  induction n generalizing chain o with
  | zero =>
    rw [prototypeChainFrom, dataProperty_absent habsent]
    exact ⟨fun h => absurd h.symm hv, fun ⟨i, hi, _⟩ => absurd hi (by omega)⟩
  | succ n ih =>
    by_cases hmem : o ∈ chain
    · -- the chain has come back to an object of its own, and none of these has the property
      rw [prototypeChainFrom, if_pos hmem, dataProperty_absent habsent]
      have hback : ∀ p ∈ chain, ∀ q, g.prototypeOf p = .object q → q ∈ chain := by
        intro p hp q hq
        rcases hclosed p hp q hq with h | rfl
        · exact h
        · exact hmem
      exact ⟨fun h => absurd h.symm hv,
        fun h => absurd h (not_holdsWithin_of_closed habsent hback hmem)⟩
    -- `o` decides where it has the property, and passes it on where it has not
    by_cases ho : g.ownProperty o key = .absent
    · have habsent' : ∀ p ∈ chain ++ [o], g.ownProperty p key = .absent := by
        simp only [List.forall_mem_append, List.forall_mem_singleton]
        exact ⟨habsent, ho⟩
      rw [prototypeChainFrom, if_neg hmem, holdsWithin_succ ho]
      split_ifs with hroot
      · rw [dataProperty_absent habsent', hroot, g.prototypeOf_objectPrototype]
        simpa using hv.symm
      · split
        · next q hq =>
          rw [ih (chain ++ [o]) q habsent' ?_]
          · constructor
            · exact fun h => ⟨q, hq, h⟩
            · rintro ⟨q', hq', h⟩
              obtain rfl := PrototypeReply.object.inj (hq.symm.trans hq')
              exact h
          · intro p hp r hr
            rcases List.mem_append.mp hp with hp | hp
            · rcases hclosed p hp r hr with h | rfl
              · exact .inl (List.mem_append_left [o] h)
              · exact .inl (List.mem_append_right chain (List.mem_singleton_self r))
            · obtain rfl := List.mem_singleton.mp hp
              exact .inr (PrototypeReply.object.inj (hr.symm.trans hq))
        · next hnone =>
          rw [dataProperty_absent habsent']
          exact ⟨fun h => absurd h.symm hv, fun ⟨q, hq, _⟩ => absurd hq (hnone q)⟩
    · obtain ⟨rest, hrest⟩ := prototypeChainFrom_eq_append (g := g) n chain o hmem
      rw [hrest, dataProperty_append habsent, dataProperty_present ho rest hv]
      exact ⟨HoldsWithin.own, fun h => h.of_present ho⟩

/-- `dataProperty` finds what is held within the first objects of the chain. -/
theorem dataProperty_prototypeChain {o : ℕ} {v : Value} (hv : v ≠ .undefined) :
    dataProperty g key (prototypeChain g o) = v ↔ HoldsWithin g MAX_PROTOTYPE_NODES o key v :=
  dataProperty_prototypeChainFrom MAX_PROTOTYPE_NODES [] o (by simp) (by simp) hv

end Lookup

/-! The tree of a summary. -/

namespace ErrorSummary

def children (s : ErrorSummary) : List ErrorSummary := s.cause.toList ++ s.errors

theorem sizeOf_lt {s c : ErrorSummary} (h : c ∈ s.children) : sizeOf c < sizeOf s := by
  obtain ⟨subject, name, message, code, status, cause, causeOmitted, errors⟩ := s
  simp only [children, List.mem_append, Option.mem_toList] at h
  rw [mk.sizeOf_spec]
  rcases h with rfl | h
  · have hsize := Option.some.sizeOf_spec c
    omega
  · have hsize := List.sizeOf_lt_of_mem h
    omega

def nodes (s : ErrorSummary) : List ErrorSummary :=
  s :: s.children.attach.flatMap fun c => nodes c.val
termination_by sizeOf s
decreasing_by exact sizeOf_lt c.property

/-- The summaries below it. -/
def descendants (s : ErrorSummary) : List ErrorSummary := s.children.flatMap nodes

def depth (s : ErrorSummary) : ℕ := (s.children.attach.map fun c => depth c.val).foldr max 0 + 1
termination_by sizeOf s
decreasing_by exact sizeOf_lt c.property

theorem nodes_eq (s : ErrorSummary) : s.nodes = s :: s.descendants := by
  rw [nodes, List.flatMap_subtype (g := nodes) (fun _ _ => rfl), List.unattach_attach, descendants]

theorem depth_eq (s : ErrorSummary) : s.depth = (s.children.map depth).foldr max 0 + 1 := by
  rw [depth, List.map_subtype (g := depth) (fun _ _ => rfl), List.unattach_attach]

theorem depth_le {s : ErrorSummary} {n : ℕ} (h : ∀ c ∈ s.children, c.depth ≤ n) :
    s.depth ≤ n+1 := by
  rw [depth_eq]
  have hmax : (s.children.map depth).foldr max 0 ≤ n := by
    generalize s.children = cs at h
    induction cs with
    | nil => exact Nat.zero_le n
    | cons c cs ih =>
      rw [List.map_cons, List.foldr_cons]
      exact max_le (h c List.mem_cons_self) (ih fun d hd => h d (List.mem_cons_of_mem c hd))
  omega

theorem mem_descendants_of_child {s c : ErrorSummary} (h : c ∈ s.children) : c ∈ s.descendants :=
  List.mem_flatMap.mpr ⟨c, h, by rw [nodes_eq]; exact List.mem_cons_self⟩

end ErrorSummary

/-- The objects that the summaries are of. -/
def objects (summaries : List ErrorSummary) : List ℕ :=
  summaries.filterMap fun s => s.subject.asObject

/-! What a summary owes to the value that it is of. -/

/-- The array of errors of an object named `AggregateError` has an entry at the index. An entry that
cannot be read as data stands for `undefined`. -/
structure AggregateEntry (g : Graph) (o array index : ℕ) (v : Value) : Prop where
  name : HoldsWithin g MAX_PROTOTYPE_NODES o "name" (.string (text "AggregateError"))
  errors : HoldsWithin g MAX_PROTOTYPE_NODES o "errors" (.object array)
  isArray : g.isArray array ≠ some false
  /-- The index is below the length, if the array holds one. -/
  index_lt : ∀ length : ℚ,
    HoldsWithin g MAX_PROTOTYPE_NODES array "length" (.number (some length)) → index < length
  value : (g.ownProperty array (toString index)).value = v

structure Honest (g : ErrorGraph) (options : Option ScrubText) (s : ErrorSummary) : Prop where
  texts : TextsKnown g options s
  cause : ∀ o v, s.subject = .object o → HoldsWithin g.toGraph MAX_PROTOTYPE_NODES o "cause" v →
    v ≠ .undefined → v ≠ .null → (∃ c ∈ s.children, c.subject = v) ∨ s.causeOmitted = true
  errors : ∀ o array index v, s.subject = .object o →
    AggregateEntry g.toGraph o array index v →
      (∃ c ∈ s.children, c.subject = v) ∨ s.errorsOmitted = true

end Quicknet
