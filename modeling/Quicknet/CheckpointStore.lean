import Quicknet.Journal

/-! The checkpoint file of the daemon. A replacement of the file succeeds durably,
or fails with the old or the new content visible; the store reloads after a
failure, and rewrites what it loads before it trusts it. -/
namespace Quicknet.Daemon

/-- `Map<Address, bigint>`, in insertion order. -/
abbrev Checkpoints := List (Address × ℕ)

def setCheckpoint (consumers : Checkpoints) (consumer : Address) (nextBlock : ℕ) : Checkpoints :=
  match consumers with
  | [] => [(consumer, nextBlock)]
  | (c, n) :: rest =>
    if c = consumer then (c, nextBlock) :: rest else (c, n) :: setCheckpoint rest consumer nextBlock

/-- What became of a call of `durableReplace`. -/
inductive Replacement
  | durable
  | unchanged
  | visible
  deriving DecidableEq, Repr

/-- What became of the steps of `initializeState` on a store without state. -/
structure Opening where
  readable : Bool
  cleaned : Bool
  rewritten : Replacement
  deriving DecidableEq, Repr

/-- `disk` is what a read of the file finds, `durable` what a loss of power cannot
take back, `state` the snapshot in memory. -/
structure FileCheckpointStore where
  disk : Checkpoints
  durable : Checkpoints
  state : Option Checkpoints
  deriving DecidableEq, Repr

namespace FileCheckpointStore

def persistenceError : Failure :=
  .error ("Checkpoint persistence did not complete. " ++
    "The on-disk outcome may be uncertain.")

def writeState (s : FileCheckpointStore) (next : Checkpoints) :
    Replacement → Except Failure Unit × FileCheckpointStore
  | .durable => (.ok (), { s with disk := next, durable := next })
  | .unchanged => (.error persistenceError, s)
  | .visible => (.error persistenceError, { s with disk := next })

def initializeState (s : FileCheckpointStore) (o : Opening) :
    Except Failure Checkpoints × FileCheckpointStore :=
  match s.state with
  | some state => (.ok state, s)
  | none =>
    if !o.readable then (.error (.error "Failed to read checkpoint file."), s)
    else if !o.cleaned then (.error (.error "Failed to remove temporary files."), s)
    else
      match s.writeState s.disk o.rewritten with
      | (.ok (), s') => (.ok s.disk, { s' with state := some s.disk })
      | (.error e, s') => (.error e, s')

def load (s : FileCheckpointStore) (consumer : Address) (o : Opening) :
    Except Failure (Option ℕ) × FileCheckpointStore :=
  match s.initializeState o with
  | (.ok state, s') => (.ok (state.lookup consumer), s')
  | (.error e, s') => (.error e, s')

/-- The guard of `save` against a checkpoint that moves backwards. -/
def movesBackwards (state : Checkpoints) (consumer : Address) (nextBlock : ℕ) :
    Option Failure :=
  match state.lookup consumer with
  | some current =>
    if nextBlock < current then
      some (.error (s!"Checkpoint for consumer {consumer} " ++
        s!"cannot move backwards from {current} to {nextBlock}."))
    else none
  | none => none

def save (s : FileCheckpointStore) (consumer : Address) (nextBlock : ℕ) (o : Opening)
    (w : Replacement) : Except Failure Unit × FileCheckpointStore :=
  match s.initializeState o with
  | (.error e, s') => (.error e, s')
  | (.ok state, s') =>
    match movesBackwards state consumer nextBlock with
    | some e => (.error e, s')
    | none =>
      let next := setCheckpoint state consumer nextBlock
      match s'.writeState next w with
      | (.ok (), s'') => (.ok (), { s'' with state := some next })
      | (.error e, s'') => (.error e, { s'' with state := none })

/-- A new process; after a loss of power the file may be the last durable one. -/
def restart (s : FileCheckpointStore) (powerLost : Bool) : FileCheckpointStore :=
  { s with disk := if powerLost then s.durable else s.disk, state := none }

/-- The checkpoint that the next successful load returns. -/
def saved (s : FileCheckpointStore) (consumer : Address) : Option ℕ :=
  (s.state.getD s.disk).lookup consumer

/-- Every checkpoint that the store holds, anywhere, has a property. -/
def All (P : Address → ℕ → Prop) (s : FileCheckpointStore) : Prop :=
  ∀ consumer n,
    s.disk.lookup consumer = some n ∨ s.durable.lookup consumer = some n ∨
      (∃ state, s.state = some state ∧ state.lookup consumer = some n) → P consumer n

end FileCheckpointStore

@[simp] theorem lookup_setCheckpoint_self (consumers : Checkpoints) (consumer : Address)
    (nextBlock : ℕ) : (setCheckpoint consumers consumer nextBlock).lookup consumer = some nextBlock := by
  induction consumers with
  | nil => simp [setCheckpoint]
  | cons entry rest ih =>
    obtain ⟨c, n⟩ := entry
    unfold setCheckpoint
    split
    · rename_i hc
      rw [hc, List.lookup_cons_self]
    · rename_i hc
      have hne : (consumer == c) = false := by simpa using Ne.symm hc
      rw [List.lookup_cons, hne]
      exact ih

theorem lookup_setCheckpoint_of_ne {consumers : Checkpoints} {consumer other : Address}
    (nextBlock : ℕ) (h : other ≠ consumer) :
    (setCheckpoint consumers consumer nextBlock).lookup other = consumers.lookup other := by
  induction consumers with
  | nil =>
    have hne : (other == consumer) = false := by simpa using h
    simp [setCheckpoint, List.lookup_cons, hne]
  | cons entry rest ih =>
    obtain ⟨c, n⟩ := entry
    unfold setCheckpoint
    split
    · rename_i hc
      subst hc
      have hne : (other == c) = false := by simpa using h
      rw [List.lookup_cons, List.lookup_cons, hne]
    · rw [List.lookup_cons, List.lookup_cons, ih]

namespace FileCheckpointStore

variable {P : Address → ℕ → Prop}

theorem All.lookup {s : FileCheckpointStore} (h : s.All P) {m : Checkpoints}
    (hm : m = s.disk ∨ m = s.durable ∨ s.state = some m) {consumer : Address} {n : ℕ}
    (hn : m.lookup consumer = some n) : P consumer n := by
  apply h
  rcases hm with rfl | rfl | hstate
  · exact Or.inl hn
  · exact Or.inr (Or.inl hn)
  · exact Or.inr (Or.inr ⟨m, hstate, hn⟩)

/-- A store all of whose maps are good has only good checkpoints. -/
theorem all_of_maps {s : FileCheckpointStore}
    (hdisk : ∀ c n, s.disk.lookup c = some n → P c n)
    (hdurable : ∀ c n, s.durable.lookup c = some n → P c n)
    (hstate : ∀ m, s.state = some m → ∀ c n, m.lookup c = some n → P c n) : s.All P := by
  rintro c n (h | h | ⟨m, hm, h⟩)
  · exact hdisk c n h
  · exact hdurable c n h
  · exact hstate m hm c n h

theorem All.writeState {s : FileCheckpointStore} (h : s.All P) {next : Checkpoints}
    (hnext : ∀ c n, next.lookup c = some n → P c n) (w : Replacement) :
    (s.writeState next w).2.All P := by
  cases w with
  | durable => exact all_of_maps hnext hnext fun m hm c n hn => h.lookup (Or.inr (Or.inr hm)) hn
  | unchanged => exact h
  | visible =>
    exact all_of_maps hnext (fun c n hn => h.lookup (Or.inr (Or.inl rfl)) hn)
      fun m hm c n hn => h.lookup (Or.inr (Or.inr hm)) hn

theorem All.withState {s : FileCheckpointStore} (h : s.All P) {state : Option Checkpoints}
    (hstate : ∀ m, state = some m → ∀ c n, m.lookup c = some n → P c n) :
    All P { s with state := state } :=
  all_of_maps (fun _ _ hn => h.lookup (Or.inl rfl) hn)
    (fun _ _ hn => h.lookup (Or.inr (Or.inl rfl)) hn) hstate

theorem All.initializeState {s : FileCheckpointStore} (h : s.All P) (o : Opening) :
    (s.initializeState o).2.All P ∧
      ∀ m, (s.initializeState o).1 = .ok m → ∀ c n, m.lookup c = some n → P c n := by
  unfold FileCheckpointStore.initializeState
  cases hstate : s.state with
  | some state =>
    refine ⟨h, ?_⟩
    intro m hm c n hn
    rw [← Except.ok.inj hm] at hn
    exact h.lookup (Or.inr (Or.inr hstate)) hn
  | none =>
    have hdisk : ∀ c n, s.disk.lookup c = some n → P c n := fun c n hn => h.lookup (Or.inl rfl) hn
    have hwritten := h.writeState hdisk o.rewritten
    dsimp only
    split
    · exact ⟨h, fun m hm => by cases hm⟩
    · split
      · exact ⟨h, fun m hm => by cases hm⟩
      · split
        · rename_i s' hs'
          rw [hs'] at hwritten
          refine ⟨hwritten.withState fun m hm => ?_, fun m hm => ?_⟩
          · rw [← Option.some.inj hm]
            exact hdisk
          · rw [← Except.ok.inj hm]
            exact hdisk
        · rename_i e s' hs'
          rw [hs'] at hwritten
          exact ⟨hwritten, fun m hm => by cases hm⟩

theorem All.load {s : FileCheckpointStore} (h : s.All P) (consumer : Address) (o : Opening) :
    (s.load consumer o).2.All P := by
  have hinit := (h.initializeState o).1
  unfold FileCheckpointStore.load
  split
  · rename_i state s' hs'
    rw [hs'] at hinit
    exact hinit
  · rename_i e s' hs'
    rw [hs'] at hinit
    exact hinit

theorem All.save {s : FileCheckpointStore} (h : s.All P) {consumer : Address} {nextBlock : ℕ}
    (hnew : P consumer nextBlock) (o : Opening) (w : Replacement) :
    (s.save consumer nextBlock o w).2.All P := by
  obtain ⟨hinit, hmap⟩ := h.initializeState o
  unfold FileCheckpointStore.save
  split
  · rename_i e s' hs'
    rw [hs'] at hinit
    exact hinit
  · rename_i state s' hs'
    rw [hs'] at hinit
    have hstate := hmap state (by rw [hs'])
    have hset : ∀ c n, (setCheckpoint state consumer nextBlock).lookup c = some n → P c n := by
      intro c n hn
      by_cases hc : c = consumer
      · rw [hc, lookup_setCheckpoint_self] at hn
        rw [hc, ← Option.some.inj hn]
        exact hnew
      · rw [lookup_setCheckpoint_of_ne nextBlock hc] at hn
        exact hstate c n hn
    split
    · exact hinit
    · have hwritten := hinit.writeState hset w
      dsimp only
      split
      · rename_i s'' hs''
        rw [hs''] at hwritten
        refine hwritten.withState fun m hm => ?_
        rw [← Option.some.inj hm]
        exact hset
      · rename_i e s'' hs''
        rw [hs''] at hwritten
        exact hwritten.withState fun m hm => by cases hm

theorem All.restart {s : FileCheckpointStore} (h : s.All P) (powerLost : Bool) :
    (s.restart powerLost).All P := by
  apply all_of_maps
  · intro c n hn
    cases powerLost
    · exact h.lookup (Or.inl rfl) hn
    · exact h.lookup (Or.inr (Or.inl rfl)) hn
  · exact fun c n hn => h.lookup (Or.inr (Or.inl rfl)) hn
  · intro m hm
    cases hm

/-- A load returns the checkpoint that the store holds. -/
theorem load_ok {s : FileCheckpointStore} {consumer : Address} {o : Opening} {v : Option ℕ}
    (h : (s.load consumer o).1 = .ok v) : v = s.saved consumer := by
  unfold load initializeState at h
  unfold saved
  cases hstate : s.state with
  | some state =>
    rw [hstate] at h
    exact (Except.ok.inj h).symm
  | none =>
    rw [hstate] at h
    dsimp only at h
    split at h
    · rename_i state s' hs'
      split at hs'
      · cases hs'
      · split at hs'
        · cases hs'
        · split at hs'
          · cases hs'
            exact (Except.ok.inj h).symm
          · cases hs'
    · cases h

/-- An acknowledged save is what the next load returns. -/
theorem saved_save_ok {s : FileCheckpointStore} {consumer : Address} {nextBlock : ℕ} {o : Opening}
    {w : Replacement} (h : (s.save consumer nextBlock o w).1 = .ok ()) :
    (s.save consumer nextBlock o w).2.saved consumer = some nextBlock := by
  unfold save at h ⊢
  split
  · rename_i hs'
    rw [hs'] at h
    cases h
  · rename_i state s' hs'
    rw [hs'] at h
    dsimp only at h ⊢
    cases hback : movesBackwards state consumer nextBlock with
    | some e =>
      rw [hback] at h
      cases h
    | none =>
      rw [hback] at h
      cases w with
      | durable => exact lookup_setCheckpoint_self state consumer nextBlock
      | unchanged => cases h
      | visible => cases h

end FileCheckpointStore

end Quicknet.Daemon
