import Quicknet.CheckpointMonotonicity

/-! The store over maps, on which the daemon's iterations run, is the store over the text of
the file: read through the parser, every run of the one is a run of the other. -/
namespace Quicknet.Daemon

open Json (Text text)

/-- An operation on the maps; as over the file, a save returns no value. -/
def FileCheckpointStore.perform (s : FileCheckpointStore) (o : Opening) (w : Replacement) :
    CheckpointOperation → Except Failure (Option ℕ) × FileCheckpointStore
  | .load consumer => s.load consumer o
  | .save consumer nextBlock =>
    ((s.save consumer nextBlock o w).1.map fun _ => none, (s.save consumer nextBlock o w).2)

/-- A process that owns the maps. -/
structure StoreProcess where
  store : FileCheckpointStore
  opened : Bool
  operations : List CheckpointOperation

def StoreProcess.step (lib : AddressLibrary) (input : CheckpointInput) (p : StoreProcess) :
    Option (StoreProcess × Option CheckpointEvent) :=
  match input with
  | .opening o =>
    if p.opened then none
    else
      match p.store.initializeState o with
      | (.ok _, s) => some (⟨s, true, []⟩, some (.opened (.ok ())))
      | (.error e, s) => some (⟨s, false, []⟩, some (.opened (.error e)))
  | .call c =>
    if !p.opened then none
    else
      match c.admitted lib with
      | .error e => some (p, some (.refused c e))
      | .ok op => some ({ p with operations := p.operations ++ [op] }, none)
  | .settle o w =>
    match p.operations with
    | [] => none
    | op :: rest =>
      let (result, s) := p.store.perform o w op
      some ({ p with store := s, operations := rest }, some (.settled op result))
  | .restart during powerLost =>
    match during, p.operations with
    | some (o, w), op :: _ =>
      some (⟨(p.store.perform o w op).2.restart powerLost, false, []⟩, some (.died op))
    | _, _ => some (⟨p.store.restart powerLost, false, []⟩, none)

def storeSystem (lib : AddressLibrary) (disk durable : Checkpoints) :
    Transition.System StoreProcess CheckpointInput CheckpointEvent where
  init := ⟨⟨disk, durable, none⟩, false, []⟩
  step := StoreProcess.step lib

section Refinement

open CheckpointFile

variable {lib : AddressLibrary} {deployment : RegistryDeployment lib}

/-- The maps of a store are what the texts of a file read as. -/
structure Denotes (deployment : RegistryDeployment lib) (f : CheckpointFile)
    (s : FileCheckpointStore) : Prop where
  disk : readState lib deployment f.disk = .ok s.disk
  durable : readState lib deployment f.durable = .ok s.durable
  state : f.state = s.state

theorem Denotes.writeState (hlib : lib.Documented) {f : CheckpointFile} {s : FileCheckpointStore}
    (h : Denotes deployment f s) {m : Checkpoints} (hm : Normalized lib m) (w : Replacement) :
    (f.writeState deployment m w).1 = (s.writeState m w).1 ∧
      Denotes deployment (f.writeState deployment m w).2 (s.writeState m w).2 := by
  have hread := readState_stateText hlib deployment hm
  cases w with
  | durable => exact ⟨rfl, hread, hread, h.state⟩
  | unchanged => exact ⟨rfl, h⟩
  | visible => exact ⟨rfl, hread, h.durable, h.state⟩

theorem Denotes.initializeState (hlib : lib.Documented) {f : CheckpointFile}
    {s : FileCheckpointStore} (h : Denotes deployment f s) (o : Opening) :
    (f.initializeState deployment o).1 = (s.initializeState o).1 ∧
      Denotes deployment (f.initializeState deployment o).2 (s.initializeState o).2 := by
  unfold CheckpointFile.initializeState FileCheckpointStore.initializeState
  rw [h.state, h.disk]
  cases s.state with
  | some m => exact ⟨rfl, h⟩
  | none =>
    cases o.readable with
    | false => exact ⟨rfl, h⟩
    | true =>
      cases o.cleaned with
      | false => exact ⟨rfl, h⟩
      | true =>
        obtain ⟨hresult, hw⟩ := h.writeState hlib (readState_normalized h.disk) o.rewritten
        simp only [Bool.not_true, Bool.false_eq_true, if_false]
        generalize f.writeState deployment s.disk o.rewritten = r at hresult hw ⊢
        generalize s.writeState s.disk o.rewritten = r' at hresult hw ⊢
        obtain ⟨result, f'⟩ := r
        obtain ⟨result', s'⟩ := r'
        obtain rfl : result = result' := hresult
        cases result with
        | error e => exact ⟨rfl, hw⟩
        | ok u => exact ⟨rfl, hw.disk, hw.durable, rfl⟩

theorem Denotes.load (hlib : lib.Documented) {f : CheckpointFile} {s : FileCheckpointStore}
    (h : Denotes deployment f s) (o : Opening) (w : Replacement) (consumer : Address) :
    (f.perform deployment o w (.load consumer)).1 = (s.load consumer o).1 ∧
      Denotes deployment (f.perform deployment o w (.load consumer)).2 (s.load consumer o).2 := by
  obtain ⟨hresult, hinit⟩ := h.initializeState hlib o
  unfold perform FileCheckpointStore.load
  simp only
  generalize f.initializeState deployment o = r at hresult hinit ⊢
  generalize s.initializeState o = r' at hresult hinit ⊢
  obtain ⟨result, f'⟩ := r
  obtain ⟨result', s'⟩ := r'
  obtain rfl : result = result' := hresult
  cases result with
  | error e => exact ⟨rfl, hinit⟩
  | ok m => exact ⟨rfl, hinit⟩

theorem Denotes.restart {f : CheckpointFile} {s : FileCheckpointStore}
    (h : Denotes deployment f s) (powerLost : Bool) :
    Denotes deployment (f.restart powerLost) (s.restart powerLost) := by
  cases powerLost with
  | false => exact ⟨h.disk, h.durable, rfl⟩
  | true => exact ⟨h.durable, h.durable, rfl⟩

/-- A save answers alike, with a value that nobody reads in place of the unit. -/
theorem Denotes.save (hlib : lib.Documented) {f : CheckpointFile} {s : FileCheckpointStore}
    (h : Denotes deployment f s) (o : Opening) (w : Replacement) {consumer : Address}
    (hconsumer : ∃ t, lib.getAddress t = some consumer) (n : ℕ)
    (hf : f.Coherent deployment) :
    (f.perform deployment o w (.save consumer n)).1 =
        (s.save consumer n o w).1.map (fun _ => none) ∧
      Denotes deployment (f.perform deployment o w (.save consumer n)).2
        (s.save consumer n o w).2 := by
  obtain ⟨hresult, hinit⟩ := h.initializeState hlib o
  have hspec := initializeState_spec hlib hf o
  unfold perform FileCheckpointStore.save
  simp only
  generalize f.initializeState deployment o = r at hresult hinit hspec ⊢
  generalize s.initializeState o = r' at hresult hinit ⊢
  obtain ⟨result, f'⟩ := r
  obtain ⟨result', s'⟩ := r'
  obtain rfl : result = result' := hresult
  cases result with
  | error e => exact ⟨rfl, hinit⟩
  | ok m =>
    simp only
    cases FileCheckpointStore.movesBackwards m consumer n with
    | some e => exact ⟨rfl, hinit⟩
    | none =>
      have hnorm := (readState_normalized (hspec.success m rfl).2).set hconsumer n
      obtain ⟨hwrote, hw⟩ := hinit.writeState hlib hnorm w
      simp only
      generalize f'.writeState deployment (setCheckpoint m consumer n) w = r₂ at hwrote hw ⊢
      generalize s'.writeState (setCheckpoint m consumer n) w = r₂' at hwrote hw ⊢
      obtain ⟨result, f₂⟩ := r₂
      obtain ⟨result', s₂⟩ := r₂'
      obtain rfl : result = result' := hwrote
      cases result with
      | error e => exact ⟨rfl, hw.disk, hw.durable, rfl⟩
      | ok u => exact ⟨rfl, hw.disk, hw.durable, rfl⟩

theorem Denotes.perform (hlib : lib.Documented) {f : CheckpointFile} {s : FileCheckpointStore}
    (h : Denotes deployment f s) (hf : f.Coherent deployment) (o : Opening) (w : Replacement)
    {op : CheckpointOperation} (hop : Accepted lib op) :
    (f.perform deployment o w op).1 = (s.perform o w op).1 ∧
      Denotes deployment (f.perform deployment o w op).2 (s.perform o w op).2 := by
  cases op with
  | load consumer => exact h.load hlib o w consumer
  | save consumer n => exact h.save hlib o w hop n hf

/-- The processes have the same calls in progress, over a file and the maps that it holds. -/
structure ReadsAsMaps (deployment : RegistryDeployment lib) (p : CheckpointProcess)
    (q : StoreProcess) : Prop where
  denotes : Denotes deployment p.file q.store
  coherent : p.file.Coherent deployment
  opened : p.opened = q.opened
  operations : p.operations = q.operations
  accepted : ∀ op ∈ p.operations, Accepted lib op

/-- The step lemma: one input takes both processes on, with the same event. -/
theorem ReadsAsMaps.step (hlib : lib.Documented) {p : CheckpointProcess} {q : StoreProcess}
    (h : ReadsAsMaps deployment p q) (input : CheckpointInput) :
    (p.step deployment input = none ∧ q.step lib input = none) ∨
      ∃ p' q' e, p.step deployment input = some (p', e) ∧ q.step lib input = some (q', e) ∧
        ReadsAsMaps deployment p' q' := by
  obtain ⟨file, opened, operations⟩ := p
  obtain ⟨store, opened', operations'⟩ := q
  obtain ⟨hdenotes, hcoherent, rfl, rfl, haccepted⟩ := h
  cases input with
  | opening o =>
    cases opened with
    | true => exact Or.inl ⟨rfl, rfl⟩
    | false =>
      obtain ⟨hresult, hinit⟩ := hdenotes.initializeState hlib o
      have hspec := (initializeState_spec hlib hcoherent o).coherent
      simp only [CheckpointProcess.step, StoreProcess.step, Bool.false_eq_true, if_false]
      generalize file.initializeState deployment o = r at hresult hinit hspec ⊢
      generalize store.initializeState o = r' at hresult hinit ⊢
      obtain ⟨result, f⟩ := r
      obtain ⟨result', s⟩ := r'
      obtain rfl : result = result' := hresult
      right
      cases result with
      | error e => exact ⟨_, _, _, rfl, rfl, hinit, hspec, rfl, rfl, by simp⟩
      | ok m => exact ⟨_, _, _, rfl, rfl, hinit, hspec, rfl, rfl, by simp⟩
  | call c =>
    cases opened with
    | false => exact Or.inl ⟨rfl, rfl⟩
    | true =>
      right
      simp only [CheckpointProcess.step, StoreProcess.step, Bool.not_true, Bool.false_eq_true,
        if_false]
      cases hc : c.admitted lib with
      | error e => exact ⟨_, _, _, rfl, rfl, hdenotes, hcoherent, rfl, rfl, haccepted⟩
      | ok op =>
        refine ⟨_, _, _, rfl, rfl, hdenotes, hcoherent, rfl, rfl, ?_⟩
        intro op' hop'
        rcases List.mem_append.mp hop' with hop' | hop'
        · exact haccepted op' hop'
        · rw [List.mem_singleton.mp hop']
          exact admitted_accepted hc
  | settle o w =>
    cases operations with
    | nil => exact Or.inl ⟨rfl, rfl⟩
    | cons op rest =>
      have hop := haccepted op List.mem_cons_self
      have hspec := (perform_spec hlib hcoherent o w hop).coherent
      obtain ⟨hresult, hnext⟩ := hdenotes.perform hlib hcoherent o w hop
      simp only [CheckpointProcess.step, StoreProcess.step]
      generalize file.perform deployment o w op = r at hresult hnext hspec ⊢
      generalize store.perform o w op = r' at hresult hnext ⊢
      obtain ⟨result, f⟩ := r
      obtain ⟨result', s⟩ := r'
      obtain rfl : result = result' := hresult
      exact Or.inr ⟨_, _, _, rfl, rfl, hnext, hspec, rfl, rfl,
        fun op' hop' => haccepted op' (List.mem_cons_of_mem op hop')⟩
  | restart during powerLost =>
    right
    have hquiet : ReadsAsMaps deployment ⟨file.restart powerLost, false, []⟩
        ⟨store.restart powerLost, false, []⟩ :=
      ⟨hdenotes.restart powerLost, restart_coherent file powerLost, rfl, rfl, by simp⟩
    cases during with
    | none => exact ⟨_, _, _, rfl, rfl, hquiet⟩
    | some outcome =>
      cases operations with
      | nil => exact ⟨_, _, _, rfl, rfl, hquiet⟩
      | cons op rest =>
        -- the operation that was under way is cut off in both
        obtain ⟨-, hnext⟩ := hdenotes.perform hlib hcoherent outcome.1 outcome.2
          (haccepted op List.mem_cons_self)
        exact ⟨_, _, _, rfl, rfl, hnext.restart powerLost, restart_coherent _ powerLost, rfl, rfl,
          by simp⟩

/-- From a file that can be read, every run over its text emits the events of the run over its
maps, and ends with a file that reads as them. -/
theorem checkpoint_file_refines (hlib : lib.Documented) {disk durable : Option Text}
    {m m' : Checkpoints} (hdisk : readState lib deployment disk = .ok m)
    (hdurable : readState lib deployment durable = .ok m') (inputs : List CheckpointInput) :
    ((checkpointSystem deployment disk durable).run inputs).2 =
        ((storeSystem lib m m').run inputs).2 ∧
      ReadsAsMaps deployment ((checkpointSystem deployment disk durable).run inputs).1
        ((storeSystem lib m m').run inputs).1 := by
  apply Transition.System.run_simulates
  · exact ⟨⟨hdisk, hdurable, rfl⟩, Coherent.of_none rfl, rfl, rfl, by simp [checkpointSystem]⟩
  · intro input p q h
    exact h.step hlib input

/-- A missing file reads as no checkpoints, and the queued calls settle alike. -/
theorem queuedCalls_refined :
    ((checkpointSystem sampleRegistry none none).run queuedCalls).2 =
      ((storeSystem digitAddresses [] []).run queuedCalls).2 :=
  (@checkpoint_file_refines _ sampleRegistry digitAddresses_documented none none [] [] rfl rfl
    queuedCalls).1

end Refinement

end Quicknet.Daemon
