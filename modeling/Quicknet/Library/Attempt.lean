import Quicknet.Library.Interaction

/-! Computations that catch what another one throws. A reply that ends a computation from
outside is not caught. -/
namespace Interaction

namespace Prog

variable {Q : Type} {R : Q → Type} {ε ε' α β : Type}

def attempt : Prog R ε α → Prog R ε' (Except ε α)
  | .ret a => .ret (.ok a)
  | .throw e => .ret (.error e)
  | .read q k => .read q fun r => (k r).attempt

theorem Only.attempt {S : Q → Prop} {p : Prog R ε α} (hp : p.Only S) :
    (p.attempt : Prog R ε' (Except ε α)).Only S := by
  induction p with
  | ret a => exact trivial
  | throw e => exact trivial
  | read q k ih => exact ⟨hp.1, fun r => ih r (hp.2 r)⟩

variable [DecidableEq Q]

/-- What the attempt returned is how the computation ended. -/
theorem replay_attempt {p : Prog R ε α} {log : List (Exchange R ε)} {out : Except ε α}
    (h : p.attempt.replay log = some (.ok out)) : p.replay log = some out := by
  induction p generalizing log with
  | ret a =>
    obtain ⟨hlog, hout⟩ := replay_ret_iff.mp h
    rw [Except.ok.inj hout]
    exact replay_ret_iff.mpr ⟨hlog, rfl⟩
  | throw e =>
    obtain ⟨hlog, hout⟩ := replay_ret_iff.mp h
    rw [Except.ok.inj hout]
    exact replay_throw_iff.mpr ⟨hlog, rfl⟩
  | read q k ih =>
    apply replay_read_iff.mpr
    rcases replay_read_iff.mp h with ⟨e, _, hout⟩ | ⟨r, rest, hlog, hrest⟩
    · cases hout
    · right
      exact ⟨r, rest, hlog, ih r hrest⟩

/-- A read and what the computation makes of the reply. -/
def readThen (q : Q) (f : R q → Except ε α) : Prog R ε α :=
  (ask q).bind fun r => lift (f r)

omit [DecidableEq Q] in
theorem only_readThen {S : Q → Prop} {q : Q} {f : R q → Except ε α} (h : S q) :
    (readThen q f).Only S :=
  (only_ask h).bind fun r => only_lift (f r)

theorem replay_readThen_ok_iff {q : Q} {f : R q → Except ε α} {log : List (Exchange R ε)} {a : α} :
    (readThen q f).replay log = some (.ok a) ↔ ∃ r, log = [⟨q, .ok r⟩] ∧ f r = .ok a := by
  unfold readThen
  rw [replay_bind_ok_iff]
  constructor
  · intro h
    obtain ⟨r, l₁, l₂, hlog, hask, hlift⟩ := h
    obtain ⟨hl₂, hf⟩ := replay_lift_ok_iff.mp hlift
    refine ⟨r, ?_, hf⟩
    rw [hlog, hl₂, replay_ask_ok_iff.mp hask]
    rfl
  · intro h
    obtain ⟨r, hlog, hf⟩ := h
    refine ⟨r, log, [], (List.append_nil log).symm, ?_, replay_lift_ok_iff.mpr ⟨rfl, hf⟩⟩
    rw [hlog]
    exact replay_ask_ok_iff.mpr rfl

end Prog

end Interaction
