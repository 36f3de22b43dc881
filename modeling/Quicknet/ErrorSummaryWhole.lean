import Quicknet.ErrorSummaryFlags

/-! Errors that are summarized as a whole. The values that an error links to are laid out in the
order in which they are visited; where they fit into the bounds, each of them has its node. -/
namespace Quicknet

open Json (Text text)
open ObjectGraph NodeBudget
open ErrorSummary (nodes)

/-! What an error links to, as the code reads it. -/

section Linked

variable (g : Graph)

/-- The cause, where there is one. -/
def causes (o : ℕ) : List Value :=
  [dataProperty g "cause" (prototypeChain g o)].filter fun v => v ≠ .undefined ∧ v ≠ .null

/-- What an object named `AggregateError` has under `errors`. -/
def errorsArray (o : ℕ) : Option ℕ :=
  if dataProperty g "name" (prototypeChain g o) = .string (text "AggregateError") then
    (dataProperty g "errors" (prototypeChain g o)).asObject
  else none

def arrayLength (array : ℕ) : Option ℕ :=
  if g.isArray array = some true then
    readLength (dataProperty g "length" (prototypeChain g array))
  else none

def entriesOf (array : ℕ) : List Value :=
  (List.range ((arrayLength g array).getD 0)).map fun index =>
    dataProperty g (toString index) [array]

def aggregated (o : ℕ) : List Value := (errorsArray g o).elim [] (entriesOf g)

def links : Value → List Value
  | .object o => causes g o ++ aggregated g o
  | _ => []

/-- The value and what it links to within so many levels, in the order of the visits. -/
def linked : ℕ → Value → List Value
  | 0, _ => []
  | left+1, v => v :: (links g v).flatMap (linked left)

/-- The links end within so many levels. -/
def isShallow : ℕ → Value → Bool
  | 0, _ => false
  | left+1, v => (links g v).all (isShallow left)

/-- The errors are no array at all, or an array that is not too long. -/
def hasFewErrors : Value → Bool
  | .object o => (errorsArray g o).all fun array => g.isArray array == some false ||
      (arrayLength g array).any fun length => length ≤ MAX_AGGREGATE_ENTRIES
  | _ => true

end Linked

variable {g : ErrorGraph} {options : Option ScrubText} {left : ℕ} {b b' b'' : Budget ℕ}
  {child : Visitor} {s : ErrorSummary} {ss ts : List ErrorSummary} {vs ws : List Value}

/-- The values fit into the budget and the depth. -/
structure Small (g : Graph) (left : ℕ) (b : Budget ℕ) (vs : List Value) : Prop where
  shallow : ∀ v ∈ vs, isShallow g left v = true
  fits : Fits b ((vs.flatMap (linked g left)).map Value.asObject)
  few : ∀ v ∈ vs.flatMap (linked g left), hasFewErrors g v = true

theorem Small.first {graph : Graph} (h : Small graph left b (vs ++ ws)) :
    Small graph left b vs := by
  have hfits := h.fits
  have hfew := h.few
  rw [List.flatMap_append, List.map_append] at hfits
  rw [List.flatMap_append, List.forall_mem_append] at hfew
  exact ⟨(List.forall_mem_append.mp h.shallow).1, hfits.left, hfew.1⟩

/-- The summary has under it what its object links to. -/
structure Whole (g : Graph) (n : ErrorSummary) : Prop where
  cause : ∀ o, n.subject = .object o → n.cause.toList.map (·.subject) = causes g o
  errors : ∀ o, n.subject = .object o → n.errors.map (·.subject) = aggregated g o

/-- Between the two budgets, the values were visited with everything that they link to. -/
structure Visited (g : Graph) (left : ℕ) (b : Budget ℕ) (vs : List Value) (ss : List ErrorSummary)
    (b' : Budget ℕ) : Prop where
  subjects : ss.map (·.subject) = vs
  subtrees : (ss.flatMap nodes).map (·.subject) = vs.flatMap (linked g left)
  whole : ∀ n ∈ ss.flatMap nodes, Whole g n
  spent : Spent b ((vs.flatMap (linked g left)).map Value.asObject) b'

theorem Small.rest {graph : Graph} (h : Small graph left b (vs ++ ws))
    (hvisited : Visited graph left b vs ss b') : Small graph left b' ws := by
  have hfits := h.fits
  have hfew := h.few
  rw [List.flatMap_append, List.map_append] at hfits
  rw [List.flatMap_append, List.forall_mem_append] at hfew
  exact ⟨(List.forall_mem_append.mp h.shallow).2, hfits.right hvisited.spent, hfew.2⟩

theorem Visited.nothing {graph : Graph} : Visited graph left b [] [] b :=
  ⟨rfl, rfl, by simp, Spent.nothing b⟩

theorem Visited.append {graph : Graph} (h : Visited graph left b vs ss b')
    (h' : Visited graph left b' ws ts b'') : Visited graph left b (vs ++ ws) (ss ++ ts) b'' where
  subjects := by rw [List.map_append, h.subjects, h'.subjects]
  subtrees := by
    rw [List.flatMap_append, List.map_append, h.subtrees, h'.subtrees, List.flatMap_append]
  whole := by
    rw [List.flatMap_append]
    exact List.forall_mem_append.mpr ⟨h.whole, h'.whole⟩
  spent := by
    rw [List.flatMap_append, List.map_append]
    exact h.spent.append h'.spent

theorem Whole.congr {graph : Graph} {n n' : ErrorSummary} (h : Whole graph n)
    (hlinks : SameLinks n n') : Whole graph n' := by
  constructor
  · rw [hlinks.subject, hlinks.cause]
    exact h.cause
  · rw [hlinks.subject, hlinks.errors]
    exact h.errors

/-- A summary over the visits of what its value links to. -/
theorem Visited.node {graph : Graph} {v : Value}
    (hbelow : Visited graph left b (links graph v) s.children b') (hv : s.subject = v)
    (hwhole : Whole graph s)
    (hspent : Spent b'' ((linked graph (left+1) v).map Value.asObject) b') :
    Visited graph (left+1) b'' [v] [s] b' where
  subjects := by rw [List.map_singleton, hv]
  subtrees := by
    rw [List.flatMap_singleton, List.flatMap_singleton, ErrorSummary.nodes_eq, List.map_cons,
      ErrorSummary.descendants, hbelow.subtrees, hv]
    rfl
  whole := by
    rw [List.flatMap_singleton, ErrorSummary.nodes_eq]
    exact List.forall_mem_cons.mpr ⟨hwhole, hbelow.whole⟩
  spent := by
    rw [List.flatMap_singleton]
    exact hspent

end Quicknet
