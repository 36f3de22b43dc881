import Quicknet.ErrorSummaryBounds

/-! What the flags of a summary say. A flag is set where a value is missing below the node, or
where the object sets it itself, and nowhere else. -/
namespace Quicknet

open Json (Text text)
open ObjectGraph NodeBudget
open ErrorSummary (nodes)

/-! What an object links to. -/

structure HoldsCause (g : Graph) (o : ℕ) (v : Value) : Prop where
  held : HoldsWithin g MAX_PROTOTYPE_NODES o "cause" v
  ne_undefined : v ≠ .undefined
  ne_null : v ≠ .null

/-- The object is named `AggregateError`, and this is what it has under `errors`. -/
structure HoldsErrors (g : Graph) (o array : ℕ) : Prop where
  name : HoldsWithin g MAX_PROTOTYPE_NODES o "name" (.string (text "AggregateError"))
  errors : HoldsWithin g MAX_PROTOTYPE_NODES o "errors" (.object array)

/-- The array can be read, and its length is this. -/
structure HasLength (g : Graph) (array length : ℕ) : Prop where
  isArray : g.isArray array = some true
  length : HoldsWithin g MAX_PROTOTYPE_NODES array "length" (.number (some (length : ℚ)))

/-- The summary is of the object. What is below it is what the object links to, and a flag is set
by the object itself or stands for what is missing. -/
structure FlagsExact (g : Graph) (o : ℕ) (n : ErrorSummary) : Prop where
  cause : ∀ c, n.cause = some c → HoldsCause g o c.subject
  causeOmitted : n.causeOmitted = true ↔
    HoldsWithin g MAX_PROTOTYPE_NODES o "causeOmitted" (.boolean true) ∨
      n.cause = none ∧ ∃ v, HoldsCause g o v
  errors : ∀ c ∈ n.errors, ∃ array index, HoldsErrors g o array ∧
    (g.ownProperty array (toString (index : ℕ))).value = c.subject
  errorsOmitted : n.errorsOmitted = true ↔
    HoldsWithin g MAX_PROTOTYPE_NODES o "name" (.string (text "AggregateError")) ∧
        HoldsWithin g MAX_PROTOTYPE_NODES o "errorsOmitted" (.boolean true) ∨
      ∃ array, HoldsErrors g o array ∧ g.isArray array ≠ some false ∧
        ¬ HasLength g array n.errors.length

variable {g : ErrorGraph} {options : Option ScrubText} {left : ℕ} {b : Budget ℕ}
  {child : Visitor} {s c : ErrorSummary}

/-! The cause. -/

theorem FlagsExact.congr {graph : Graph} {o : ℕ} {n n' : ErrorSummary} (h : FlagsExact graph o n)
    (hlinks : SameLinks n n') : FlagsExact graph o n' := by
  refine ⟨?_, ?_, ?_, ?_⟩
  · rw [hlinks.cause]
    exact h.cause
  · rw [hlinks.cause, hlinks.causeOmitted]
    exact h.causeOmitted
  · rw [hlinks.errors]
    exact h.errors
  · rw [hlinks.errors, hlinks.errorsOmitted]
    exact h.errorsOmitted

end Quicknet
