import Mathlib.Tactic

/-! Systems that react to inputs one at a time, with the list of events they
have emitted. An input that a state refuses changes nothing, so a run is a
function of its inputs and no run has to be assumed to exist. -/
namespace Transition

variable {σ ι ε : Type*}

structure System (σ ι ε : Type*) where
  init : σ
  /-- `none` refuses the input; a step emits at most one event. -/
  step : ι → σ → Option (σ × Option ε)

namespace System

def next (sys : System σ ι ε) (s : σ × List ε) (i : ι) : σ × List ε :=
  match sys.step i s.1 with
  | none => s
  | some (t, e) => (t, s.2 ++ e.toList)

def run (sys : System σ ι ε) (is : List ι) : σ × List ε :=
  is.foldl sys.next (sys.init, [])

@[simp] theorem run_nil (sys : System σ ι ε) : sys.run [] = (sys.init, []) := rfl

theorem run_append_singleton (sys : System σ ι ε) (is : List ι) (i : ι) :
    sys.run (is ++ [i]) = sys.next (sys.run is) i := by
  simp only [run, List.foldl_append, List.foldl_cons, List.foldl_nil]

theorem run_append_of_some {sys : System σ ι ε} {is : List ι} {i : ι} {t : σ} {e : Option ε}
    (h : sys.step i (sys.run is).1 = some (t, e)) :
    sys.run (is ++ [i]) = (t, (sys.run is).2 ++ e.toList) := by
  rw [run_append_singleton, next]
  simp only [h]

theorem run_append_of_none {sys : System σ ι ε} {is : List ι} {i : ι}
    (h : sys.step i (sys.run is).1 = none) : sys.run (is ++ [i]) = sys.run is := by
  rw [run_append_singleton, next]
  simp only [h]

/-- The trace of a longer run goes on from that of a shorter one. -/
theorem run_extends (sys : System σ ι ε) (is js : List ι) :
    ∃ mid, (sys.run (is ++ js)).2 = (sys.run is).2 ++ mid := by
  induction js using List.reverseRecOn with
  | nil => exact ⟨[], by simp⟩
  | append_singleton js i ih =>
    obtain ⟨mid, hmid⟩ := ih
    rw [← List.append_assoc, run_append_singleton]
    unfold next
    split
    · exact ⟨mid, hmid⟩
    · exact ⟨mid ++ _, by rw [← List.append_assoc, ← hmid]⟩

/-- What holds at the start and is kept by every accepted input that meets a condition holds
after every run of such inputs, with the trace of events emitted so far. -/
theorem run_invariant_of (sys : System σ ι ε) (A : ι → Prop) (P : σ → List ε → Prop)
    (hinit : P sys.init [])
    (hstep : ∀ i s tr t e, A i → P s tr → sys.step i s = some (t, e) → P t (tr ++ e.toList))
    {is : List ι} (his : ∀ i ∈ is, A i) : P (sys.run is).1 (sys.run is).2 := by
  induction is using List.reverseRecOn with
  | nil => exact hinit
  | append_singleton is i ih =>
    have hkept := ih fun j hj => his j (List.mem_append_left _ hj)
    have hi : A i := his i (List.mem_append_right _ (List.mem_singleton_self i))
    rw [run_append_singleton]
    unfold next
    split
    · exact hkept
    · rename_i t e he
      exact hstep i _ _ t e hi hkept he

theorem run_invariant (sys : System σ ι ε) (P : σ → List ε → Prop) (hinit : P sys.init [])
    (hstep : ∀ i s tr t e, P s tr → sys.step i s = some (t, e) → P t (tr ++ e.toList))
    (is : List ι) : P (sys.run is).1 (sys.run is).2 :=
  sys.run_invariant_of (fun _ => True) P hinit (fun i s tr t e _ => hstep i s tr t e)
    fun _ _ => trivial

/-- Two systems that refuse the same inputs and emit the same events from related states
run alike. -/
theorem run_simulates {τ : Type*} (sys : System σ ι ε) (sys' : System τ ι ε) (R : σ → τ → Prop)
    (hinit : R sys.init sys'.init)
    (hstep : ∀ i s t, R s t → (sys.step i s = none ∧ sys'.step i t = none) ∨
      ∃ s' t' e, sys.step i s = some (s', e) ∧ sys'.step i t = some (t', e) ∧ R s' t')
    (is : List ι) : (sys.run is).2 = (sys'.run is).2 ∧ R (sys.run is).1 (sys'.run is).1 := by
  induction is using List.reverseRecOn with
  | nil => exact ⟨rfl, hinit⟩
  | append_singleton is i ih =>
    obtain ⟨hevents, hrel⟩ := ih
    rw [run_append_singleton, run_append_singleton]
    unfold next
    rcases hstep i _ _ hrel with ⟨hnone, hnone'⟩ | ⟨s', t', e, hs, ht, hnext⟩
    · rw [hnone, hnone']
      exact ⟨hevents, hrel⟩
    · rw [hs, ht]
      exact ⟨congrArg (· ++ e.toList) hevents, hnext⟩

end System

/-! Facts about a trace: what stood before each event, and what happened since
the last event of a kind. -/

/-- Every event of the trace stands in the relation `P` to the events before it. -/
def EachEvent (P : List ε → ε → Prop) (tr : List ε) : Prop :=
  ∀ pre e post, tr = pre ++ e :: post → P pre e

theorem eachEvent_nil (P : List ε → ε → Prop) : EachEvent P [] := by
  intro pre e post h
  simp at h

/-- Appending one event splits the longer trace at that event or earlier. -/
theorem append_singleton_split {tr : List ε} {x e : ε} {pre post : List ε}
    (h : tr ++ [x] = pre ++ e :: post) :
    (tr = pre ∧ x = e ∧ post = []) ∨ ∃ post', post = post' ++ [x] ∧ tr = pre ++ e :: post' := by
  rcases List.eq_nil_or_concat post with rfl | ⟨post', y, rfl⟩
  · have hh := List.append_inj' h rfl
    exact Or.inl ⟨hh.1, by simpa using hh.2, rfl⟩
  · rw [List.concat_eq_append] at h ⊢
    have hassoc : pre ++ e :: (post' ++ [y]) = (pre ++ e :: post') ++ [y] := by simp
    rw [hassoc] at h
    have hh := List.append_inj' h rfl
    have hy : x = y := by simpa using hh.2
    exact Or.inr ⟨post', by rw [hy], hh.1⟩

theorem EachEvent.append_singleton {P : List ε → ε → Prop} {tr : List ε} {x : ε}
    (h : EachEvent P tr) (hx : P tr x) : EachEvent P (tr ++ [x]) := by
  intro pre e post heq
  rcases append_singleton_split heq with ⟨rfl, rfl, _⟩ | ⟨post', _, hpre⟩
  · exact hx
  · exact h pre e post' hpre

theorem EachEvent.append_option {P : List ε → ε → Prop} {tr : List ε} {x : Option ε}
    (h : EachEvent P tr) (hx : ∀ e, x = some e → P tr e) : EachEvent P (tr ++ x.toList) := by
  cases x with
  | none => simpa using h
  | some e => exact h.append_singleton (hx e rfl)

/-- Some event satisfies `P`, and every event after it satisfies `Q`. -/
def Since (P Q : ε → Prop) (tr : List ε) : Prop :=
  ∃ pre e post, tr = pre ++ e :: post ∧ P e ∧ ∀ x ∈ post, Q x

theorem since_here {P Q : ε → Prop} (tr : List ε) {e : ε} (h : P e) : Since P Q (tr ++ [e]) :=
  ⟨tr, e, [], rfl, h, by simp⟩

theorem Since.append_singleton {P Q : ε → Prop} {tr : List ε} {x : ε} (h : Since P Q tr)
    (hx : Q x) : Since P Q (tr ++ [x]) := by
  obtain ⟨pre, e, post, rfl, he, hpost⟩ := h
  refine ⟨pre, e, post ++ [x], by simp, he, ?_⟩
  intro y hy
  rcases List.mem_append.mp hy with hy | hy
  · exact hpost y hy
  · rw [List.mem_singleton.mp hy]
    exact hx

theorem since_append_singleton_iff {P Q : ε → Prop} {tr : List ε} {x : ε} :
    Since P Q (tr ++ [x]) ↔ P x ∨ Since P Q tr ∧ Q x := by
  constructor
  · rintro ⟨pre, e, post, heq, he, hpost⟩
    rcases append_singleton_split heq with ⟨rfl, rfl, _⟩ | ⟨post', rfl, rfl⟩
    · exact Or.inl he
    · have hx : Q x := hpost x (by simp)
      exact Or.inr ⟨⟨pre, e, post', rfl, he, fun y hy => hpost y (by simp [hy])⟩, hx⟩
  · rintro (hx | ⟨h, hx⟩)
    · exact since_here tr hx
    · exact h.append_singleton hx

theorem Since.append_option {P Q : ε → Prop} {tr : List ε} {x : Option ε} (h : Since P Q tr)
    (hx : ∀ e, x = some e → Q e) : Since P Q (tr ++ x.toList) := by
  cases x with
  | none => simpa using h
  | some e => exact h.append_singleton (hx e rfl)

theorem Since.mono {P P' Q Q' : ε → Prop} {tr : List ε} (h : Since P Q tr)
    (hp : ∀ e, P e → P' e) (hq : ∀ e, Q e → Q' e) : Since P' Q' tr := by
  obtain ⟨pre, e, post, rfl, he, hpost⟩ := h
  exact ⟨pre, e, post, rfl, hp e he, fun x hx => hq x (hpost x hx)⟩

/-- The event before which nothing of kind `Q` fails is the last of its kind:
in a trace split at a failure of `Q`, the `P` event comes later. -/
theorem Since.after {P Q : ε → Prop} {pre post : List ε} {x : ε}
    (h : Since P Q (pre ++ x :: post)) (hp : ¬ P x) (hq : ¬ Q x) : ∃ e ∈ post, P e := by
  obtain ⟨pre', e, post', heq, he, hpost⟩ := h
  rcases List.append_eq_append_iff.mp heq with ⟨a, rfl, ha⟩ | ⟨a, rfl, ha⟩
  · cases a with
    | nil =>
      have hxe : x = e := (List.cons.inj ha).1
      exact absurd (hxe ▸ he) hp
    | cons y a =>
      obtain ⟨rfl, rfl⟩ := List.cons.inj ha
      exact ⟨e, by simp, he⟩
  · cases a with
    | nil =>
      have hxe : e = x := (List.cons.inj ha).1
      exact absurd (hxe ▸ he) hp
    | cons y a =>
      have hx := (List.cons.inj ha).2
      exact absurd (hpost x (by rw [hx]; simp)) hq

theorem EachEvent.of_append {P : List ε → ε → Prop} {pre post : List ε}
    (h : EachEvent P (pre ++ post)) : EachEvent P pre := by
  intro a e b hab
  exact h a e (b ++ post) (by simp [hab])

/-- What relates the traces before and after each event relates any two points
of the trace, if it is a preorder. -/
theorem EachEvent.chain {R : List ε → List ε → Prop} (hrefl : ∀ tr, R tr tr)
    (htrans : ∀ a b c, R a b → R b c → R a c) {pre post : List ε}
    (h : EachEvent (fun tr e => R tr (tr ++ [e])) (pre ++ post)) : R pre (pre ++ post) := by
  induction post using List.reverseRecOn with
  | nil => simpa using hrefl pre
  | append_singleton post e ih =>
    rw [← List.append_assoc] at h ⊢
    exact htrans _ _ _ (ih h.of_append) (h _ e [] (by simp))

/-- What each event keeps or ends, and held once, still holds or was ended by
an event since. -/
theorem EachEvent.stays {P : List ε → Prop} {Q : List ε → ε → Prop} {pre post : List ε}
    (h : EachEvent (fun tr e => P tr → P (tr ++ [e]) ∨ Q tr e) (pre ++ post)) (hp : P pre) :
    P (pre ++ post) ∨ ∃ a e b, post = a ++ e :: b ∧ Q (pre ++ a) e := by
  induction post using List.reverseRecOn with
  | nil => exact Or.inl (by simpa using hp)
  | append_singleton post e ih =>
    rw [← List.append_assoc] at h ⊢
    rcases ih h.of_append with hpost | ⟨a, x, b, rfl, hx⟩
    · rcases h _ e [] (by simp) hpost with hk | hq
      · exact Or.inl hk
      · exact Or.inr ⟨post, e, [], rfl, hq⟩
    · exact Or.inr ⟨a, x, b ++ [e], by simp, hx⟩

end Transition
