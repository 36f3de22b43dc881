import Mathlib.Tactic

/-! Computations that read from an environment they do not control. A read is
answered or fails, answers to equal queries need not agree, and a failed read
ends the computation with its error. What the environment did is a log of
exchanges, and replaying a computation on a log is a function. -/
namespace Interaction

inductive Prog {Q : Type} (R : Q → Type) (ε α : Type) : Type
  | ret (a : α)
  | throw (e : ε)
  | read (q : Q) (k : R q → Prog R ε α)

structure Exchange {Q : Type} (R : Q → Type) (ε : Type) where
  query : Q
  reply : Except ε (R query)

namespace Prog

variable {Q : Type} {R : Q → Type} {ε α β : Type}

def bind : Prog R ε α → (α → Prog R ε β) → Prog R ε β
  | .ret a, f => f a
  | .throw e, _ => .throw e
  | .read q k, f => .read q (fun r => (k r).bind f)

instance : Monad (Prog R ε) where
  pure := .ret
  bind := bind

/-- One read of the environment. -/
def ask (q : Q) : Prog R ε (R q) := .read q .ret

/-- A computation of the surrounding code that may fail, without reads. -/
def lift : Except ε α → Prog R ε α
  | .ok a => .ret a
  | .error e => .throw e

@[simp] theorem pure_eq (a : α) : (pure a : Prog R ε α) = .ret a := rfl

@[simp] theorem bind_eq (p : Prog R ε α) (f : α → Prog R ε β) : (p >>= f) = p.bind f := rfl

@[simp] theorem ret_bind (a : α) (f : α → Prog R ε β) : (ret a : Prog R ε α).bind f = f a := rfl

@[simp] theorem throw_bind (e : ε) (f : α → Prog R ε β) :
    (throw e : Prog R ε α).bind f = .throw e := rfl

@[simp] theorem read_bind (q : Q) (k : R q → Prog R ε α) (f : α → Prog R ε β) :
    (read q k).bind f = .read q (fun r => (k r).bind f) := rfl

variable [DecidableEq Q]

/-- The outcome of a computation answered by exactly the exchanges of the log;
`none` when the log does not belong to the computation. -/
def replay : Prog R ε α → List (Exchange R ε) → Option (Except ε α)
  | .ret a, [] => some (.ok a)
  | .throw e, [] => some (.error e)
  | .read q k, x :: log =>
    if h : x.query = q then
      match (h ▸ x.reply : Except ε (R q)), log with
      | .ok r, log => (k r).replay log
      | .error e, [] => some (.error e)
      | .error _, _ :: _ => none
    else none
  | .ret _, _ :: _ => none
  | .throw _, _ :: _ => none
  | .read _ _, [] => none

theorem replay_ret_iff {a : α} {log : List (Exchange R ε)} {out : Except ε α} :
    (ret a : Prog R ε α).replay log = some out ↔ log = [] ∧ out = .ok a := by
  cases log <;> simp [replay, eq_comm]

theorem replay_throw_iff {e : ε} {log : List (Exchange R ε)} {out : Except ε α} :
    (throw e : Prog R ε α).replay log = some out ↔ log = [] ∧ out = .error e := by
  cases log <;> simp [replay, eq_comm]

/-- A read either fails, which ends the log, or is answered and the rest of the
log belongs to the continuation. -/
theorem replay_read_iff {q : Q} {k : R q → Prog R ε α} {log : List (Exchange R ε)}
    {out : Except ε α} :
    (read q k).replay log = some out ↔
      (∃ e, log = [⟨q, .error e⟩] ∧ out = .error e) ∨
      ∃ r rest, log = ⟨q, .ok r⟩ :: rest ∧ (k r).replay rest = some out := by
  cases log with
  | nil => simp [replay]
  | cons x rest =>
    obtain ⟨q', reply⟩ := x
    by_cases h : q' = q
    · subst h
      cases reply with
      | ok r => simp [replay]
      | error e => cases rest <;> simp [replay, eq_comm]
    · simp only [replay, h, dite_false, reduceCtorEq, List.cons.injEq, Exchange.mk.injEq,
        false_and, exists_false, or_self]

theorem replay_ask_ok_iff {q : Q} {log : List (Exchange R ε)} {r : R q} :
    (ask q : Prog R ε (R q)).replay log = some (.ok r) ↔ log = [⟨q, .ok r⟩] := by
  unfold ask
  rw [replay_read_iff]
  simp only [replay_ret_iff]
  constructor
  · rintro (⟨e, _, h⟩ | ⟨r', rest, rfl, rfl, h⟩)
    · cases h
    · rw [Except.ok.inj h]
  · rintro rfl
    exact Or.inr ⟨r, [], rfl, rfl, rfl⟩

theorem replay_lift_ok_iff {x : Except ε α} {log : List (Exchange R ε)} {a : α} :
    (lift x : Prog R ε α).replay log = some (.ok a) ↔ log = [] ∧ x = .ok a := by
  cases x with
  | ok b => rw [lift, replay_ret_iff, eq_comm (a := Except.ok a)]
  | error e => simp [lift, replay_throw_iff]

/-- The log of a sequence splits at the point where its first part returned. -/
theorem replay_bind_ok_iff {p : Prog R ε α} {f : α → Prog R ε β} {log : List (Exchange R ε)}
    {b : β} : (p.bind f).replay log = some (.ok b) ↔
      ∃ a l₁ l₂, log = l₁ ++ l₂ ∧ p.replay l₁ = some (.ok a) ∧ (f a).replay l₂ = some (.ok b) := by
  induction p generalizing log with
  | ret a =>
    simp only [ret_bind, replay_ret_iff]
    constructor
    · intro h
      exact ⟨a, [], log, rfl, ⟨rfl, rfl⟩, h⟩
    · rintro ⟨a', l₁, l₂, rfl, ⟨rfl, ha⟩, h⟩
      rw [Except.ok.inj ha] at h
      exact h
  | throw e => simp [replay_throw_iff]
  | read q k ih =>
    rw [read_bind, replay_read_iff]
    constructor
    · rintro (⟨e, _, h⟩ | ⟨r, rest, rfl, h⟩)
      · cases h
      · obtain ⟨a, l₁, l₂, rfl, hp, hf⟩ := (ih r).mp h
        exact ⟨a, ⟨q, .ok r⟩ :: l₁, l₂, rfl, replay_read_iff.mpr (Or.inr ⟨r, l₁, rfl, hp⟩), hf⟩
    · rintro ⟨a, l₁, l₂, rfl, hp, hf⟩
      rcases replay_read_iff.mp hp with ⟨e, _, h⟩ | ⟨r, rest, rfl, h⟩
      · cases h
      · exact Or.inr ⟨r, rest ++ l₂, rfl, (ih r).mpr ⟨a, rest, l₂, rfl, h, hf⟩⟩

/-- A sequence fails in its first part, or its log splits where that part returned. -/
theorem replay_bind_iff {p : Prog R ε α} {f : α → Prog R ε β} {log : List (Exchange R ε)}
    {out : Except ε β} : (p.bind f).replay log = some out ↔
      (∃ e, out = .error e ∧ p.replay log = some (.error e)) ∨
      ∃ a l₁ l₂, log = l₁ ++ l₂ ∧ p.replay l₁ = some (.ok a) ∧ (f a).replay l₂ = some out := by
  induction p generalizing log with
  | ret a =>
    simp only [ret_bind, replay_ret_iff]
    constructor
    · intro h
      exact Or.inr ⟨a, [], log, rfl, ⟨rfl, rfl⟩, h⟩
    · rintro (⟨e, _, _, h⟩ | ⟨a', l₁, l₂, rfl, ⟨rfl, ha⟩, h⟩)
      · cases h
      · rw [Except.ok.inj ha] at h
        exact h
  | throw e =>
    simp only [throw_bind, replay_throw_iff]
    constructor
    · rintro ⟨rfl, rfl⟩
      exact Or.inl ⟨e, rfl, rfl, rfl⟩
    · rintro (⟨e', rfl, rfl, he⟩ | ⟨a, l₁, l₂, _, ⟨_, ha⟩, _⟩)
      · exact ⟨rfl, congrArg Except.error (Except.error.inj he)⟩
      · cases ha
  | read q k ih =>
    rw [read_bind, replay_read_iff]
    constructor
    · rintro (⟨e, rfl, rfl⟩ | ⟨r, rest, rfl, h⟩)
      · exact Or.inl ⟨e, rfl, replay_read_iff.mpr (Or.inl ⟨e, rfl, rfl⟩)⟩
      · rcases (ih r).mp h with ⟨e, rfl, hp⟩ | ⟨a, l₁, l₂, rfl, hp, hf⟩
        · exact Or.inl ⟨e, rfl, replay_read_iff.mpr (Or.inr ⟨r, rest, rfl, hp⟩)⟩
        · exact Or.inr ⟨a, ⟨q, .ok r⟩ :: l₁, l₂, rfl,
            replay_read_iff.mpr (Or.inr ⟨r, l₁, rfl, hp⟩), hf⟩
    · rintro (⟨e, rfl, hp⟩ | ⟨a, l₁, l₂, rfl, hp, hf⟩)
      · rcases replay_read_iff.mp hp with ⟨e', rfl, he⟩ | ⟨r, rest, rfl, h⟩
        · exact Or.inl ⟨e', rfl, congrArg Except.error (Except.error.inj he)⟩
        · exact Or.inr ⟨r, rest, rfl, (ih r).mpr (Or.inl ⟨e, rfl, h⟩)⟩
      · rcases replay_read_iff.mp hp with ⟨e, _, h⟩ | ⟨r, rest, rfl, h⟩
        · cases h
        · exact Or.inr ⟨r, rest ++ l₂, rfl, (ih r).mpr (Or.inr ⟨a, rest, l₂, rfl, h, hf⟩)⟩

/-! Computations that ask only queries of a kind. -/

def Only (S : Q → Prop) : Prog R ε α → Prop
  | .ret _ => True
  | .throw _ => True
  | .read q k => S q ∧ ∀ r, (k r).Only S

omit [DecidableEq Q] in
theorem Only.bind {S : Q → Prop} {p : Prog R ε α} {f : α → Prog R ε β} (hp : p.Only S)
    (hf : ∀ a, (f a).Only S) : (p.bind f).Only S := by
  induction p with
  | ret a => exact hf a
  | throw e => exact trivial
  | read q k ih => exact ⟨hp.1, fun r => ih r (hp.2 r)⟩

omit [DecidableEq Q] in
theorem Only.mono {S T : Q → Prop} {p : Prog R ε α} (hp : p.Only S) (h : ∀ q, S q → T q) :
    p.Only T := by
  induction p with
  | ret a => exact trivial
  | throw e => exact trivial
  | read q k ih => exact ⟨h q hp.1, fun r => ih r (hp.2 r)⟩

omit [DecidableEq Q] in
theorem only_ask {S : Q → Prop} {q : Q} (h : S q) : (ask q : Prog R ε (R q)).Only S :=
  ⟨h, fun _ => trivial⟩

omit [DecidableEq Q] in
theorem only_lift {S : Q → Prop} (x : Except ε α) : (lift x : Prog R ε α).Only S := by
  cases x <;> exact trivial

/-- Every query of a log belongs to the computation. -/
theorem Only.log {S : Q → Prop} {p : Prog R ε α} (hp : p.Only S) {log : List (Exchange R ε)}
    {out : Except ε α} (h : p.replay log = some out) : ∀ x ∈ log, S x.query := by
  induction p generalizing log with
  | ret a =>
    rw [(replay_ret_iff.mp h).1]
    simp
  | throw e =>
    rw [(replay_throw_iff.mp h).1]
    simp
  | read q k ih =>
    rcases replay_read_iff.mp h with ⟨e, rfl, _⟩ | ⟨r, rest, rfl, hrest⟩
    · intro x hx
      rw [List.mem_singleton.mp hx]
      exact hp.1
    · intro x hx
      rcases List.mem_cons.mp hx with rfl | hx
      · exact hp.1
      · exact ih r (hp.2 r) hrest x hx

/-! Computations that do not look at the replies to queries of a kind. -/

def Ignores (S : Q → Prop) : Prog R ε α → Prop
  | .ret _ => True
  | .throw _ => True
  | .read q k => (S q → ∀ r r', k r = k r') ∧ ∀ r, (k r).Ignores S

/-- The same exchange, up to what the reply to a query of the kind says. -/
def AlikeUpTo (S : Q → Prop) (x y : Exchange R ε) : Prop :=
  x = y ∨ ∃ q r r', S q ∧ x = ⟨q, .ok r⟩ ∧ y = ⟨q, .ok r'⟩

omit [DecidableEq Q] in
theorem Ignores.bind {S : Q → Prop} {p : Prog R ε α} {f : α → Prog R ε β} (hp : p.Ignores S)
    (hf : ∀ a, (f a).Ignores S) : (p.bind f).Ignores S := by
  induction p with
  | ret a => exact hf a
  | throw e => exact trivial
  | read q k ih =>
    refine ⟨?_, fun r => ih r (hp.2 r)⟩
    intro hS r r'
    change (k r).bind f = (k r').bind f
    rw [hp.1 hS r r']

omit [DecidableEq Q] in
theorem ignores_ask {S : Q → Prop} {q : Q} (h : ¬ S q) :
    (ask q : Prog R ε (R q)).Ignores S :=
  ⟨fun hS => absurd hS h, fun _ => trivial⟩

/-! A computation whose reads are all answered by one function. -/

def eval (answer : (q : Q) → R q) : Prog R ε α → Except ε α
  | .ret a => .ok a
  | .throw e => .error e
  | .read q k => (k (answer q)).eval answer

/-- Every exchange of the log is the answer of `answer`. -/
def AnsweredBy (answer : (q : Q) → R q) (log : List (Exchange R ε)) : Prop :=
  ∀ x ∈ log, x.reply = .ok (answer x.query)

omit [DecidableEq Q] in
theorem eval_bind (answer : (q : Q) → R q) (p : Prog R ε α) (f : α → Prog R ε β) :
    (p.bind f).eval answer = (p.eval answer).bind (fun a => (f a).eval answer) := by
  induction p with
  | ret a => rfl
  | throw e => rfl
  | read q k ih => exact ih (answer q)

omit [DecidableEq Q] in
@[simp] theorem eval_ret (answer : (q : Q) → R q) (a : α) :
    (ret a : Prog R ε α).eval answer = .ok a := rfl

omit [DecidableEq Q] in
@[simp] theorem eval_throw (answer : (q : Q) → R q) (e : ε) :
    (throw e : Prog R ε α).eval answer = .error e := rfl

omit [DecidableEq Q] in
@[simp] theorem eval_ask (answer : (q : Q) → R q) (q : Q) :
    (ask q : Prog R ε (R q)).eval answer = .ok (answer q) := rfl

omit [DecidableEq Q] in
@[simp] theorem eval_lift (answer : (q : Q) → R q) (x : Except ε α) :
    (lift x : Prog R ε α).eval answer = x := by
  cases x <;> rfl

/-- The log of an evaluation. -/
def transcript (answer : (q : Q) → R q) : Prog R ε α → List (Exchange R ε)
  | .ret _ => []
  | .throw _ => []
  | .read q k => ⟨q, .ok (answer q)⟩ :: (k (answer q)).transcript answer

omit [DecidableEq Q] in
theorem answeredBy_transcript (answer : (q : Q) → R q) (p : Prog R ε α) :
    AnsweredBy answer (p.transcript answer) := by
  induction p with
  | ret a => intro x hx; simp [transcript] at hx
  | throw e => intro x hx; simp [transcript] at hx
  | read q k ih =>
    intro x hx
    rcases List.mem_cons.mp hx with rfl | hx
    · rfl
    · exact ih (answer q) x hx

theorem replay_transcript (answer : (q : Q) → R q) (p : Prog R ε α) :
    p.replay (p.transcript answer) = some (p.eval answer) := by
  induction p with
  | ret a => rfl
  | throw e => rfl
  | read q k ih =>
    refine (replay_read_iff (k := k)).mpr (Or.inr ⟨answer q, _, rfl, ih (answer q)⟩)

/-! A computation in an environment whose replies may depend on what was asked
before. -/

/-- The reply to a query after the exchanges so far. -/
abbrev Environment {Q : Type} (R : Q → Type) (ε : Type) : Type :=
  List (Exchange R ε) → (q : Q) → Except ε (R q)

/-- The exchanges after a computation that starts after `past`, and its outcome. -/
def runIn (env : Environment R ε) :
    Prog R ε α → List (Exchange R ε) → List (Exchange R ε) × Except ε α
  | .ret a, past => (past, .ok a)
  | .throw e, past => (past, .error e)
  | .read q k, past =>
    match env past q with
    | .ok r => (k r).runIn env (past ++ [⟨q, .ok r⟩])
    | .error e => (past ++ [⟨q, .error e⟩], .error e)

omit [DecidableEq Q] in
theorem runIn_bind (env : Environment R ε) (p : Prog R ε α) (f : α → Prog R ε β)
    (past : List (Exchange R ε)) : (p.bind f).runIn env past =
      match p.runIn env past with
      | (past', .ok a) => (f a).runIn env past'
      | (past', .error e) => (past', .error e) := by
  induction p generalizing past with
  | ret a => rfl
  | throw e => rfl
  | read q k ih =>
    simp only [read_bind, runIn]
    cases env past q with
    | ok r => exact ih r _
    | error e => rfl

omit [DecidableEq Q] in
theorem runIn_bind_ok {env : Environment R ε} {p : Prog R ε α} {past past' : List (Exchange R ε)}
    {a : α} (h : p.runIn env past = (past', .ok a)) (f : α → Prog R ε β) :
    (p.bind f).runIn env past = (f a).runIn env past' := by
  rw [runIn_bind, h]

omit [DecidableEq Q] in
theorem runIn_bind_error {env : Environment R ε} {p : Prog R ε α}
    {past past' : List (Exchange R ε)} {e : ε} (h : p.runIn env past = (past', .error e))
    (f : α → Prog R ε β) : (p.bind f).runIn env past = (past', .error e) := by
  rw [runIn_bind, h]

omit [DecidableEq Q] in
/-- A sequence that returned went through its first part. -/
theorem runIn_bind_returned {env : Environment R ε} {p : Prog R ε α} {f : α → Prog R ε β}
    {past : List (Exchange R ε)} {b : β} (h : ((p.bind f).runIn env past).2 = .ok b) :
    ∃ a, (p.runIn env past).2 = .ok a ∧
      (p.bind f).runIn env past = (f a).runIn env (p.runIn env past).1 := by
  rw [runIn_bind] at h ⊢
  rcases hp : p.runIn env past with ⟨past', out⟩
  rw [hp] at h
  cases out with
  | ok a => exact ⟨a, rfl, rfl⟩
  | error e => cases h

omit [DecidableEq Q] in
theorem runIn_ask (env : Environment R ε) (q : Q) (past : List (Exchange R ε)) :
    (ask q : Prog R ε (R q)).runIn env past = (past ++ [⟨q, env past q⟩], env past q) := by
  unfold ask runIn
  cases env past q <;> rfl

omit [DecidableEq Q] in
@[simp] theorem runIn_lift (env : Environment R ε) (x : Except ε α) (past : List (Exchange R ε)) :
    (lift x : Prog R ε α).runIn env past = (past, x) := by
  cases x <;> rfl

/-- What a computation asked in an environment replays to its outcome. -/
theorem runIn_replay (env : Environment R ε) (p : Prog R ε α) (past : List (Exchange R ε)) :
    ∃ log, (p.runIn env past).1 = past ++ log ∧ p.replay log = some (p.runIn env past).2 := by
  induction p generalizing past with
  | ret a => exact ⟨[], by simp [runIn], rfl⟩
  | throw e => exact ⟨[], by simp [runIn], rfl⟩
  | read q k ih =>
    simp only [runIn]
    cases env past q with
    | ok r =>
      obtain ⟨log, hlog, hrep⟩ := ih r (past ++ [⟨q, .ok r⟩])
      refine ⟨⟨q, .ok r⟩ :: log, by simp [hlog], ?_⟩
      exact replay_read_iff.mpr (Or.inr ⟨r, log, rfl, hrep⟩)
    | error e =>
      exact ⟨[⟨q, .error e⟩], rfl, replay_read_iff.mpr (Or.inl ⟨e, rfl, rfl⟩)⟩

/-! Environments that differ in replies which a computation ignores. -/

/-- After alike exchanges the environments answer alike. -/
def AgreeUpTo (S : Q → Prop) (env env' : Environment R ε) : Prop :=
  ∀ past past' q, List.Forall₂ (AlikeUpTo S) past past' →
    AlikeUpTo S (⟨q, env past q⟩ : Exchange R ε) ⟨q, env' past' q⟩

omit [DecidableEq Q] in
theorem Ignores.runIn {S : Q → Prop} {p : Prog R ε α} (hp : p.Ignores S)
    {env env' : Environment R ε} (henv : AgreeUpTo S env env') {past past' : List (Exchange R ε)}
    (hpast : List.Forall₂ (AlikeUpTo S) past past') :
    List.Forall₂ (AlikeUpTo S) (p.runIn env past).1 (p.runIn env' past').1 ∧
      (p.runIn env past).2 = (p.runIn env' past').2 := by
  induction p generalizing past past' with
  | ret a => exact ⟨hpast, rfl⟩
  | throw e => exact ⟨hpast, rfl⟩
  | read q k ih =>
    have hreply := henv past past' q hpast
    have hlog : List.Forall₂ (AlikeUpTo S) (past ++ [⟨q, env past q⟩])
        (past' ++ [⟨q, env' past' q⟩]) :=
      List.rel_append hpast (List.Forall₂.cons hreply List.Forall₂.nil)
    simp only [Prog.runIn]
    rcases hreply with heq | ⟨q', r, r', hS, hx, hy⟩
    · rw [eq_of_heq (Exchange.mk.inj heq).2] at hlog ⊢
      cases hr : env' past' q with
      | ok r =>
        rw [hr] at hlog
        exact ih r (hp.2 r) hlog
      | error e =>
        rw [hr] at hlog
        exact ⟨hlog, rfl⟩
    · cases congrArg Exchange.query hx
      rw [eq_of_heq (Exchange.mk.inj hx).2, eq_of_heq (Exchange.mk.inj hy).2] at hlog ⊢
      dsimp only
      rw [hp.1 hS r' r]
      exact ih r (hp.2 r) hlog

end Prog

end Interaction
