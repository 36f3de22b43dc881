import Quicknet.ServiceEntries
import Quicknet.StatusSelection

/-! What a relayer's process owns once it has verified the lock, whatever the other processes
of the host do between its calls. -/
namespace Quicknet.Service
open Json (Text text)
open Interaction (Prog)
open Interaction.Prog (Secure Stable)
open FileLock (Kernel LockMode Description)
open Quicknet.Cli

/-- What the others leave of a host to process `p`: its table, the descriptions that it has to
itself, and the name of the lock file in its directory once there is one. -/
structure Spared (p : ℕ) (directory : Option Text) (h h' : Host) : Prop where
  alive : p < h.kernel.tables.length → p < h'.kernel.tables.length
  table : p < h.kernel.tables.length → h'.kernel.table p = h.kernel.table p
  inode : ∀ (d : ℕ) (x : Description FileIdentity), h.kernel.descriptions[d]? = some x →
    ∃ y : Description FileIdentity, h'.kernel.descriptions[d]? = some y ∧ y.inode = x.inode
  own : ∀ (d : ℕ) (x : Description FileIdentity), h.kernel.Private p d → h.kernel.descriptions[d]? = some x →
    h'.kernel.Private p d ∧ h'.kernel.descriptions[d]? = some x
  entry : ∀ dir e, directory = some dir → h.entry dir = some e → h'.entry dir = some e

section Spared

variable {p q : ℕ} {directory : Option Text} {h h' h'' : Host}

theorem Spared.refl (p : ℕ) (directory : Option Text) (h : Host) : Spared p directory h h where
  alive := id
  table := fun _ => rfl
  inode := fun _ x hx => ⟨x, hx, rfl⟩
  own := fun _ _ hp hx => ⟨hp, hx⟩
  entry := fun _ _ _ he => he

theorem Spared.trans (h₁ : Spared p directory h h') (h₂ : Spared p directory h' h'') :
    Spared p directory h h'' where
  alive := fun hp => h₂.alive (h₁.alive hp)
  table := fun hp => (h₂.table (h₁.alive hp)).trans (h₁.table hp)
  inode := fun d x hx => by
    obtain ⟨y, hy, hyx⟩ := h₁.inode d x hx
    obtain ⟨z, hz, hzy⟩ := h₂.inode d y hy
    exact ⟨z, hz, hzy.trans hyx⟩
  own := fun d x hp hx => by
    obtain ⟨hp', hx'⟩ := h₁.own d x hp hx
    exact h₂.own d x hp' hx'
  entry := fun dir e hdir he => h₂.entry dir e hdir (h₁.entry dir e hdir he)

/-- A call of another process spares what is left to `p`. -/
theorem spared_perform (hne : q ≠ p) (c : FileLock.Call FileIdentity) :
    Spared p directory h (h.perform q c) where
  alive := fun hp => hp.trans_le (Kernel.perform_running c)
  table := fun hp => Kernel.perform_table c hp (Ne.symm hne)
  inode := fun _ _ hx => Kernel.perform_inode c hx
  own := fun _ _ hp hx =>
    ⟨hp.perform hne (List.getElem?_eq_some_iff.mp hx).1 c, Kernel.perform_description c (hp q hne) hx⟩
  entry := fun _ _ _ he => he

theorem entry_created {dir dir' : Text} {e e' : LockEntry} (hnew : h.entry dir = none)
    (he : h.entry dir' = some e') : List.lookup dir' ((dir, e) :: h.entries) = some e' := by
  have hne : dir' ≠ dir := by
    rintro rfl
    rw [hnew] at he
    cases he
  rw [List.lookup_cons, beq_eq_false_iff_ne.mpr hne]
  exact he

end Spared

/-! What the calls answer. -/

section Answers

variable {paths : Paths} {p q : ℕ} {directory : Option Text} {h h' : Host}

/-- The calls of the launcher that change the host. -/
def SystemCall.Changes : SystemCall → Prop
  | .openLock _ _ => True
  | .requestLock => True
  | .closeLock => True
  | _ => False

theorem answer_readOnly {call : SystemCall} (hc : ¬ call.Changes) {r : call.Reply}
    (ha : Answers paths p call h r h') : h' = h := by
  obtain ⟨o, ho⟩ := ha
  cases call with
  | openLock dir create => exact absurd trivial hc
  | requestLock => exact absurd trivial hc
  | closeLock => exact absurd trivial hc
  | fdinfo fd =>
    change (if o.kernelEntry.Valid then some (_, h) else none) = some (r, h') at ho
    by_cases hv : o.kernelEntry.Valid
    · rw [if_pos hv] at ho
      exact (Prod.mk.inj (Option.some.inj ho)).2.symm
    · rw [if_neg hv] at ho
      cases ho
  | _ => exact (Prod.mk.inj (Option.some.inj ho)).2.symm

theorem answer_openLock {dir : Text} {create r : Bool}
    (ha : Answers paths p (.openLock dir create) h r h') :
    (r = false ∧ h' = h) ∨ ∃ created, (r, h') = h.openLock p dir create created := by
  obtain ⟨o, ho⟩ := ha
  change some (if o.fails then (false, h) else h.openLock p dir create o.created) = some (r, h') at ho
  split_ifs at ho
  · exact Or.inl ⟨(Prod.mk.inj (Option.some.inj ho)).1.symm, (Prod.mk.inj (Option.some.inj ho)).2.symm⟩
  · exact Or.inr ⟨o.created, (Option.some.inj ho).symm⟩

theorem answer_requestLock {r : ℕ} (ha : Answers paths p .requestLock h r h') :
    (r ≠ 0 ∧ (h' = h ∨ h' = (h.requestLock p).2)) ∨
      r = 0 ∧ (h.requestLock p).1 = true ∧ h' = (h.requestLock p).2 := by
  obtain ⟨o, ho⟩ := ha
  change (if o.fails then some (o.exitStatus + 1, if o.disturbs then (h.requestLock p).2 else h)
    else some ((if (h.requestLock p).1 then 0 else LOCK_CONFLICT : ℕ), (h.requestLock p).2)) =
      some (r, h') at ho
  split_ifs at ho with hfails hdisturbs hlocked
  · obtain ⟨hr, hh⟩ := Prod.mk.inj (Option.some.inj ho)
    exact Or.inl ⟨by omega, Or.inr hh.symm⟩
  · obtain ⟨hr, hh⟩ := Prod.mk.inj (Option.some.inj ho)
    exact Or.inl ⟨by omega, Or.inl hh.symm⟩
  · obtain ⟨hr, hh⟩ := Prod.mk.inj (Option.some.inj ho)
    exact Or.inr ⟨hr.symm, hlocked, hh.symm⟩
  · obtain ⟨hr, hh⟩ := Prod.mk.inj (Option.some.inj ho)
    refine Or.inl ⟨?_, Or.inr hh.symm⟩
    rw [← hr]
    decide

/-- What a call does to the host: nothing, or one call of the kernel, after a missing lock file
has been created where it is to be opened. -/
theorem answer_performs {call : SystemCall} {r : call.Reply} (ha : Answers paths q call h r h') :
    h' = h ∨ (∃ c, h' = h.perform q c) ∨
      ∃ dir created c, h.entry dir = none ∧
        h' = { h with entries := (dir, .regular created 1) :: h.entries }.perform q c := by
  by_cases hc : call.Changes
  · cases call with
    | openLock dir create =>
      rcases answer_openLock ha with ⟨_, rfl⟩ | ⟨created, heq⟩
      · exact Or.inl rfl
      · have hh : h' = (h.openLock q dir create created).2 := congrArg Prod.snd heq
        rw [hh]
        unfold Host.openLock
        split
        · exact Or.inr (Or.inl ⟨.openFile _ _, rfl⟩)
        · exact Or.inr (Or.inl ⟨.openFile _ _, rfl⟩)
        · exact Or.inl rfl
        · rename_i hnew
          split_ifs
          · exact Or.inr (Or.inr ⟨dir, created, .openFile _ _, hnew, rfl⟩)
          · exact Or.inl rfl
    | requestLock =>
      rcases answer_requestLock ha with ⟨_, rfl | rfl⟩ | ⟨_, _, rfl⟩
      · exact Or.inl rfl
      · exact Or.inr (Or.inl ⟨.flock _ _, rfl⟩)
      · exact Or.inr (Or.inl ⟨.flock _ _, rfl⟩)
    | closeLock =>
      obtain ⟨o, ho⟩ := ha
      exact Or.inr (Or.inl ⟨.close _, (Prod.mk.inj (Option.some.inj ho)).2.symm⟩)
    | _ => exact hc.elim
  · exact Or.inl (answer_readOnly hc ha)

/-- A call of another process spares what is left to `p`. -/
theorem spared_answer (hne : q ≠ p) {call : SystemCall} {r : call.Reply}
    (ha : Answers paths q call h r h') : Spared p directory h h' := by
  rcases answer_performs ha with rfl | ⟨c, rfl⟩ | ⟨dir, created, c, hnew, rfl⟩
  · exact Spared.refl p directory _
  · exact spared_perform hne c
  · have hmade : Spared p directory h { h with entries := (dir, .regular created 1) :: h.entries } :=
      ⟨id, fun _ => rfl, fun _ x hx => ⟨x, hx, rfl⟩, fun _ _ hp hx => ⟨hp, hx⟩,
        fun _ _ _ he => entry_created hnew he⟩
    exact hmade.trans (spared_perform hne c)

/-- No process ends by a call. -/
theorem answer_running {call : SystemCall} {r : call.Reply} (ha : Answers paths q call h r h') :
    h.kernel.tables.length ≤ h'.kernel.tables.length := by
  rcases answer_performs ha with rfl | ⟨c, rfl⟩ | ⟨dir, created, c, _, rfl⟩
  · exact le_rfl
  · exact Kernel.perform_running c
  · exact Kernel.perform_running c

end Answers

end Quicknet.Service
