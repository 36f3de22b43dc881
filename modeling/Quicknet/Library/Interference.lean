import Quicknet.Library.Attempt

/-! Computations of processes that take turns on a shared world. What the others may do to
the world between two calls of a computation is a relation that it relies on. -/
namespace Interaction.Prog

variable {W Q : Type} {R : Q → Type} {ε ε' α β : Type}

/-- Where the computation ends, `post` holds, whatever the others did within `rely` before
each of its calls and whatever the calls answered. -/
def Secure (rely : W → W → Prop) (answers : (q : Q) → W → R q → W → Prop)
    (post : Except ε α → W → Prop) : Prog R ε α → W → Prop
  | .ret a, w => post (.ok a) w
  | .throw e, w => post (.error e) w
  | .read q k, w => ∀ w₁, rely w w₁ → ∀ r w₂, answers q w₁ r w₂ →
      Secure rely answers post (k r) w₂

variable {rely : W → W → Prop} {answers : (q : Q) → W → R q → W → Prop}
  {post post' : Except ε α → W → Prop} {w w' : W}

/-- A predicate that the others leave true. -/
def Stable (rely : W → W → Prop) (P : W → Prop) : Prop := ∀ w w', rely w w' → P w → P w'

theorem Secure.mono {p : Prog R ε α} (h : p.Secure rely answers post w)
    (himp : ∀ out w, post out w → post' out w) : p.Secure rely answers post' w := by
  induction p generalizing w with
  | ret a => exact himp _ _ h
  | throw e => exact himp _ _ h
  | read q k ih => exact fun w₁ hw r w₂ hr => ih r (h w₁ hw r w₂ hr)

/-- What the others do keeps a computation secure, where it has not ended, or where the end
is stable. -/
theorem Secure.interfered {p : Prog R ε α} (h : p.Secure rely answers post w)
    (htrans : ∀ w₁ w₂ w₃, rely w₁ w₂ → rely w₂ w₃ → rely w₁ w₃)
    (hpost : ∀ out, Stable rely (post out)) (hrely : rely w w') :
    p.Secure rely answers post w' := by
  cases p with
  | ret a => exact hpost _ w w' hrely h
  | throw e => exact hpost _ w w' hrely h
  | read q k => exact fun w₁ hw => h w₁ (htrans w w' w₁ hrely hw)

theorem Secure.bind {p : Prog R ε α} {f : α → Prog R ε β} {post₂ : Except ε β → W → Prop}
    (hp : p.Secure rely answers post w)
    (hok : ∀ a w, post (.ok a) w → (f a).Secure rely answers post₂ w)
    (herror : ∀ e w, post (.error e) w → post₂ (.error e) w) :
    (p.bind f).Secure rely answers post₂ w := by
  induction p generalizing w with
  | ret a => exact hok a w hp
  | throw e => exact herror e w hp
  | read q k ih => exact fun w₁ hw r w₂ hr => ih r (hp w₁ hw r w₂ hr)

theorem Secure.attempt {p : Prog R ε α} {post₂ : Except ε' (Except ε α) → W → Prop}
    (hp : p.Secure rely answers post w) (himp : ∀ out w, post out w → post₂ (.ok out) w) :
    (p.attempt : Prog R ε' (Except ε α)).Secure rely answers post₂ w := by
  induction p generalizing w with
  | ret a => exact himp _ _ hp
  | throw e => exact himp _ _ hp
  | read q k ih => exact fun w₁ hw r w₂ hr => ih r (hp w₁ hw r w₂ hr)

/-- One call, in a world that satisfies what is stable. -/
theorem secure_ask {P : W → Prop} {q : Q} {post : Except ε (R q) → W → Prop}
    (hstable : Stable rely P) (hw : P w)
    (h : ∀ w r w', P w → answers q w r w' → post (.ok r) w') :
    (ask q : Prog R ε (R q)).Secure rely answers post w :=
  fun w₁ hrely r w₂ hr => h w₁ r w₂ (hstable w w₁ hrely hw) hr

/-- An execution of a computation in the world, with what the others did before each call. -/
inductive Runs (rely : W → W → Prop) (answers : (q : Q) → W → R q → W → Prop) :
    Prog R ε α → W → Except ε α → W → Prop
  | ret (a : α) (w : W) : Runs rely answers (.ret a) w (.ok a) w
  | throw (e : ε) (w : W) : Runs rely answers (.throw e) w (.error e) w
  | read {q : Q} {k : R q → Prog R ε α} {w w₁ w₂ w' : W} {r : R q} {out : Except ε α}
      (hrely : rely w w₁) (hr : answers q w₁ r w₂) (rest : Runs rely answers (k r) w₂ out w') :
      Runs rely answers (.read q k) w out w'

theorem Runs.bind {p : Prog R ε α} {f : α → Prog R ε β} {a : α} {out : Except ε β} {w₁ : W}
    (hp : p.Runs rely answers w (.ok a) w₁) (hf : (f a).Runs rely answers w₁ out w') :
    (p.bind f).Runs rely answers w out w' := by
  generalize hout : Except.ok a = result at hp
  induction hp with
  | ret b w =>
    obtain rfl := Except.ok.inj hout
    exact hf
  | throw e w => cases hout
  | read hrely hr rest ih => exact Runs.read hrely hr (ih hf hout)

/-- A secure computation ends as it should, in every execution. -/
theorem Secure.runs {p : Prog R ε α} {out : Except ε α} (h : p.Secure rely answers post w)
    (hrun : p.Runs rely answers w out w') : post out w' := by
  induction hrun with
  | ret a w => exact h
  | throw e w => exact h
  | read hrely hr rest ih => exact ih (h _ hrely _ _ hr)

end Interaction.Prog
