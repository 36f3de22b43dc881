import Mathlib.Tactic
import Quicknet.Library.Json

/-! The objects of a JavaScript program as reflection shows them: proxies among them, which may
throw, and links of any shape. -/
namespace ObjectGraph

open Json (Text)

/-- A value, by what `typeof` calls it. Functions are numbered among the objects. -/
inductive Value
  | undefined
  | null
  | boolean (b : Bool)
  /-- `none` is `NaN` or an infinity. -/
  | number (x : Option ℚ)
  | bigint (n : ℤ)
  | string (t : Text)
  | symbol
  | function (o : ℕ)
  | object (o : ℕ)
  deriving DecidableEq

def Value.asObject : Value → Option ℕ
  | .object o => some o
  | _ => none

/-- `Object.getOwnPropertyDescriptor` -/
inductive PropertyReply
  | absent
  | data (v : Value)
  | accessor
  | throws
  deriving DecidableEq

/-- The value of a data property, and `undefined` without one. -/
def PropertyReply.value : PropertyReply → Value
  | .data v => v
  | _ => .undefined

/-- `Object.getPrototypeOf` -/
inductive PrototypeReply
  | null
  | object (o : ℕ)
  | throws
  deriving DecidableEq

structure Graph where
  ownProperty : ℕ → String → PropertyReply
  prototypeOf : ℕ → PrototypeReply
  /-- `Array.isArray`; `none` when it throws, on a proxy that was revoked. -/
  isArray : ℕ → Option Bool
  /-- `Object.prototype`, whose prototype cannot be changed. -/
  objectPrototype : ℕ
  prototypeOf_objectPrototype : prototypeOf objectPrototype = .null

/-- A number that `Number.isSafeInteger` accepts. -/
def safeInteger (x : Option ℚ) : Option ℤ :=
  x.bind fun q => if q.den = 1 ∧ q.num.natAbs ≤ 2^53-1 then some q.num else none

theorem safeInteger_eq_some {x : Option ℚ} {n : ℤ} (h : safeInteger x = some n) :
    x = some (n : ℚ) ∧ n.natAbs ≤ 2^53-1 := by
  simp only [safeInteger, Option.bind_eq_some_iff] at h
  obtain ⟨q, rfl, hq⟩ := h
  split_ifs at hq with hsafe
  obtain rfl := Option.some.inj hq
  exact ⟨congrArg some (Rat.den_eq_one_iff q |>.mp hsafe.1).symm, hsafe.2⟩

variable (g : Graph)

/-- The object so many steps up the prototype chain. -/
def prototypeAt (o : ℕ) : ℕ → Option ℕ
  | 0 => some o
  | i+1 =>
    match g.prototypeOf o with
    | .object p => prototypeAt p i
    | _ => none

/-- Within the first `n` objects of the prototype chain of `o`, the first one that has the
property holds it as data. -/
def HoldsWithin (n : ℕ) (o : ℕ) (key : String) (v : Value) : Prop :=
  ∃ i < n, (∃ p, prototypeAt g o i = some p ∧ g.ownProperty p key = .data v) ∧
    ∀ j < i, ∀ q, prototypeAt g o j = some q → g.ownProperty q key = .absent

variable {g}

theorem prototypeAt_succ {o p : ℕ} (h : g.prototypeOf o = .object p) (i : ℕ) :
    prototypeAt g o (i+1) = prototypeAt g p i := by
  rw [prototypeAt, h]

theorem prototypeAt_succ_eq_none {o : ℕ} (h : ∀ p, g.prototypeOf o ≠ .object p) (i : ℕ) :
    prototypeAt g o (i+1) = none := by
  rw [prototypeAt]
  split
  · next p hp => exact absurd hp (h p)
  · rfl

/-- What an object holds itself. -/
theorem HoldsWithin.own {n o : ℕ} {key : String} {v : Value} (h : g.ownProperty o key = .data v) :
    HoldsWithin g (n+1) o key v :=
  ⟨0, by omega, ⟨o, rfl, h⟩, by simp⟩

/-- What an object does not have itself, it has from its prototype. -/
theorem holdsWithin_succ {n o : ℕ} {key : String} {v : Value} (ho : g.ownProperty o key = .absent) :
    HoldsWithin g (n+1) o key v ↔ ∃ p, g.prototypeOf o = .object p ∧ HoldsWithin g n p key v := by
  constructor
  · intro ⟨i, hi, ⟨p, hp, hdata⟩, hbefore⟩
    cases i with
    | zero =>
      obtain rfl := Option.some.inj hp
      rw [ho] at hdata
      cases hdata
    | succ i =>
      cases hproto : g.prototypeOf o with
      | object q =>
        rw [prototypeAt_succ hproto] at hp
        refine ⟨q, rfl, i, by omega, ⟨p, hp, hdata⟩, fun j hj r hr => ?_⟩
        exact hbefore (j+1) (by omega) r (by rw [prototypeAt_succ hproto]; exact hr)
      | _ =>
        rw [prototypeAt_succ_eq_none (by simp [hproto])] at hp
        cases hp
  · intro ⟨q, hproto, i, hi, ⟨p, hp, hdata⟩, hbefore⟩
    refine ⟨i+1, by omega, ⟨p, by rw [prototypeAt_succ hproto]; exact hp, hdata⟩, fun j hj r hr => ?_⟩
    cases j with
    | zero =>
      obtain rfl := Option.some.inj hr
      exact ho
    | succ j =>
      rw [prototypeAt_succ hproto] at hr
      exact hbefore j (by omega) r hr

/-- An object that has the property itself holds nothing else under it. -/
theorem HoldsWithin.of_present {n o : ℕ} {key : String} {v : Value} (h : HoldsWithin g n o key v)
    (ho : g.ownProperty o key ≠ .absent) : g.ownProperty o key = .data v := by
  obtain ⟨i, _, ⟨p, hp, hdata⟩, hbefore⟩ := h
  cases i with
  | zero =>
    obtain rfl := Option.some.inj hp
    exact hdata
  | succ i => exact absurd (hbefore 0 (by omega) o rfl) ho

/-- Prototypes that stay within some objects without the property do not hold it. -/
theorem not_holdsWithin_of_closed {os : List ℕ} {key : String}
    (habsent : ∀ o ∈ os, g.ownProperty o key = .absent)
    (hclosed : ∀ o ∈ os, ∀ p, g.prototypeOf o = .object p → p ∈ os) {n o : ℕ} (ho : o ∈ os)
    {v : Value} : ¬HoldsWithin g n o key v := by
  induction n generalizing o with
  | zero => exact fun ⟨i, hi, _⟩ => absurd hi (by omega)
  | succ n ih =>
    rw [holdsWithin_succ (habsent o ho)]
    intro ⟨p, hp, h⟩
    exact ih (hclosed o ho p hp) h

end ObjectGraph
