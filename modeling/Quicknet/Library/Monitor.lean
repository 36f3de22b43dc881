import Quicknet.Library.Attempt

/-! Monitors of a computation. A monitor reads the log of a computation exchange by exchange
and refuses what is not allowed in its state, so what it accepts of every execution is a
protocol that the computation follows. -/
namespace Interaction

variable {Q σ : Type} {R : Q → Type} {ε α β : Type}

/-- The state after a log, if every exchange of it is allowed. -/
def follow (allow : σ → Exchange R ε → Option σ) : σ → List (Exchange R ε) → Option σ
  | s, [] => some s
  | s, x :: log => (allow s x).bind fun t => follow allow t log

section Follow

variable {allow : σ → Exchange R ε → Option σ} {s t : σ} {log more : List (Exchange R ε)}

theorem follow_append :
    follow allow s (log ++ more) = (follow allow s log).bind fun t => follow allow t more := by
  induction log generalizing s with
  | nil => rfl
  | cons x log ih =>
    rw [List.cons_append, follow, follow]
    cases allow s x with
    | none => rfl
    | some t => exact ih

/-- What every allowed exchange keeps, with the log so far, holds after a log. -/
theorem follow_invariant (P : List (Exchange R ε) → σ → Prop)
    (hstep : ∀ log s x t, P log s → allow s x = some t → P (log ++ [x]) t) (hs : P [] s)
    (h : follow allow s log = some t) : P log t := by
  have hfrom : ∀ (before : List (Exchange R ε)) (s : σ), P before s → follow allow s log = some t →
      P (before ++ log) t := by
    clear h hs
    induction log with
    | nil =>
      intro before s hs h
      rw [List.append_nil, ← Option.some.inj h]
      exact hs
    | cons x log ih =>
      intro before s hs h
      obtain ⟨u, hu, hrest⟩ := Option.bind_eq_some_iff.mp h
      have hnext := ih (before ++ [x]) u (hstep before s x u hs hu) hrest
      rwa [List.append_assoc] at hnext
  exact hfrom [] s hs h

/-- In an accepted log, each exchange was allowed in the state that the ones before it led to. -/
theorem follow_split {x : Exchange R ε} (h : follow allow s (log ++ x :: more) = some t) :
    ∃ u v, follow allow s log = some u ∧ allow u x = some v := by
  rw [follow_append] at h
  obtain ⟨u, hu, hrest⟩ := Option.bind_eq_some_iff.mp h
  obtain ⟨v, hv, _⟩ := Option.bind_eq_some_iff.mp hrest
  exact ⟨u, v, hu, hv⟩

end Follow

namespace Prog

variable [DecidableEq Q]

/-- The monitor accepts every execution, and `post` holds where it ends. -/
def Monitored (allow : σ → Exchange R ε → Option σ) (post : Except ε α → σ → Prop)
    (p : Prog R ε α) (s : σ) : Prop :=
  ∀ log out, p.replay log = some out → ∃ t, follow allow s log = some t ∧ post out t

/-- An attempt that was ended from outside; so was the computation, by the last reply. -/
theorem replay_attempt_error {p : Prog R ε α} {log : List (Exchange R ε)} {e : ε}
    (h : (p.attempt : Prog R ε (Except ε α)).replay log = some (.error e)) :
    p.replay log = some (.error e) ∧ ∃ before q, log = before ++ [⟨q, .error e⟩] := by
  induction p generalizing log with
  | ret a => cases (replay_ret_iff.mp h).2
  | throw e' => cases (replay_ret_iff.mp h).2
  | read q k ih =>
    rcases replay_read_iff.mp h with ⟨e', rfl, hout⟩ | ⟨r, rest, rfl, hrest⟩
    · obtain rfl := Except.error.inj hout
      exact ⟨replay_read_iff.mpr (Or.inl ⟨e, rfl, rfl⟩), [], q, rfl⟩
    · obtain ⟨hfail, before, q', rfl⟩ := ih r hrest
      exact ⟨replay_read_iff.mpr (Or.inr ⟨r, _, rfl, hfail⟩), ⟨q, .ok r⟩ :: before, q', rfl⟩

variable {allow : σ → Exchange R ε → Option σ} {post post' : Except ε α → σ → Prop} {s : σ}

theorem monitored_ret {a : α} (h : post (.ok a) s) :
    Monitored allow post (.ret a : Prog R ε α) s := by
  intro log out hlog
  obtain ⟨rfl, rfl⟩ := replay_ret_iff.mp hlog
  exact ⟨s, rfl, h⟩

theorem monitored_throw {e : ε} (h : post (.error e) s) :
    Monitored allow post (.throw e : Prog R ε α) s := by
  intro log out hlog
  obtain ⟨rfl, rfl⟩ := replay_throw_iff.mp hlog
  exact ⟨s, rfl, h⟩

/-- A query is allowed with every reply, and with the end of the computation by none. -/
theorem monitored_read {q : Q} {k : R q → Prog R ε α}
    (hend : ∀ e, ∃ t, allow s ⟨q, .error e⟩ = some t ∧ post (.error e) t)
    (hk : ∀ r, ∃ t, allow s ⟨q, .ok r⟩ = some t ∧ Monitored allow post (k r) t) :
    Monitored allow post (.read q k) s := by
  intro log out hlog
  rcases replay_read_iff.mp hlog with ⟨e, rfl, rfl⟩ | ⟨r, rest, rfl, hrest⟩
  · obtain ⟨t, ht, hpost⟩ := hend e
    exact ⟨t, by rw [follow, ht]; rfl, hpost⟩
  · obtain ⟨t, ht, hmonitored⟩ := hk r
    obtain ⟨u, hu, hpost⟩ := hmonitored rest out hrest
    exact ⟨u, by rw [follow, ht]; exact hu, hpost⟩

theorem Monitored.bind {p : Prog R ε α} {f : α → Prog R ε β} {post₂ : Except ε β → σ → Prop}
    (hp : p.Monitored allow post s)
    (hok : ∀ a t, post (.ok a) t → (f a).Monitored allow post₂ t)
    (herror : ∀ e t, post (.error e) t → post₂ (.error e) t) :
    (p.bind f).Monitored allow post₂ s := by
  intro log out hlog
  rcases replay_bind_iff.mp hlog with ⟨e, rfl, hfail⟩ | ⟨a, l₁, l₂, rfl, h₁, h₂⟩
  · obtain ⟨t, ht, hpost⟩ := hp log _ hfail
    exact ⟨t, ht, herror e t hpost⟩
  · obtain ⟨t, ht, hpost⟩ := hp l₁ _ h₁
    obtain ⟨u, hu, hpost₂⟩ := hok a t hpost l₂ out h₂
    refine ⟨u, ?_, hpost₂⟩
    rw [follow_append, ht]
    exact hu

/-- A computation that is tried. A reply that ends it from outside ends the attempt as well, in
a state that this reply led to. -/
theorem Monitored.attempt {p : Prog R ε α} {post₂ : Except ε (Except ε α) → σ → Prop}
    (hp : p.Monitored allow post s) (hout : ∀ out t, post out t → post₂ (.ok out) t)
    (hend : ∀ u q e t, allow u ⟨q, .error e⟩ = some t → post₂ (.error e) t) :
    (p.attempt : Prog R ε (Except ε α)).Monitored allow post₂ s := by
  intro log out hlog
  cases out with
  | ok out =>
    obtain ⟨t, ht, hpost⟩ := hp log out (replay_attempt hlog)
    exact ⟨t, ht, hout out t hpost⟩
  | error e =>
    obtain ⟨hfail, before, q, rfl⟩ := replay_attempt_error hlog
    obtain ⟨t, ht, _⟩ := hp _ _ hfail
    obtain ⟨u, v, hu, hv⟩ := follow_split ht
    refine ⟨v, ?_, hend u q e v hv⟩
    rw [follow_append, hu, Option.bind_some, follow, hv]
    rfl

theorem Monitored.mono {p : Prog R ε α} (hp : p.Monitored allow post s)
    (himp : ∀ out t, post out t → post' out t) : p.Monitored allow post' s := by
  intro log out hlog
  obtain ⟨t, ht, hpost⟩ := hp log out hlog
  exact ⟨t, ht, himp out t hpost⟩

end Prog

end Interaction
