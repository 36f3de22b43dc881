import Quicknet.CheckpointText
import Quicknet.Library.Transition

/-! Every run of `FileCheckpointStore` over the text of its file: calls that are queued
while others run, processes that die at any point, and replacements that fail on either
side of the rename. The checkpoints that a consumer is shown never move backwards. -/
namespace Quicknet.Daemon

open Json (Text text)

/-- The file and the snapshot in memory. `disk` is what a read of the name finds, and
`durable` what a loss of power cannot take back; `none` is a missing file. -/
structure CheckpointFile where
  disk : Option Text
  durable : Option Text
  state : Option Checkpoints
  deriving DecidableEq

/-- A call, before `getAddress` has normalised its consumer. -/
inductive CheckpointCall
  | load (consumer : Text)
  | save (consumer : Text) (nextBlock : ℤ)
  deriving DecidableEq

/-- What `exclusive` queues for a call. -/
inductive CheckpointOperation
  | load (consumer : Address)
  | save (consumer : Address) (nextBlock : ℕ)
  deriving DecidableEq

namespace CheckpointFile

section Operations

variable {lib : AddressLibrary} (deployment : RegistryDeployment lib)

def writeState (f : CheckpointFile) (state : Checkpoints) :
    Replacement → Except Failure Unit × CheckpointFile
  | .durable =>
    (.ok (), { f with disk := some (stateText lib deployment state)
                      durable := some (stateText lib deployment state) })
  | .unchanged => (.error FileCheckpointStore.persistenceError, f)
  | .visible =>
    (.error FileCheckpointStore.persistenceError,
      { f with disk := some (stateText lib deployment state) })

def initializeState (f : CheckpointFile) (o : Opening) :
    Except Failure Checkpoints × CheckpointFile :=
  match f.state with
  | some state => (.ok state, f)
  | none =>
    if !o.readable then (.error (.error "Failed to read checkpoint file."), f)
    else
      match readState lib deployment f.disk with
      | .error e => (.error e, f)
      | .ok state =>
        if !o.cleaned then (.error (.error "Failed to remove temporary files."), f)
        else
          match f.writeState deployment state o.rewritten with
          | (.ok (), f') => (.ok state, { f' with state := some state })
          | (.error e, f') => (.error e, f')

/-- One queued operation, from its start to its end. A save returns no value. -/
def perform (f : CheckpointFile) (o : Opening) (w : Replacement) :
    CheckpointOperation → Except Failure (Option ℕ) × CheckpointFile
  | .load consumer =>
    match f.initializeState deployment o with
    | (.ok state, f') => (.ok (state.lookup consumer), f')
    | (.error e, f') => (.error e, f')
  | .save consumer nextBlock =>
    match f.initializeState deployment o with
    | (.error e, f') => (.error e, f')
    | (.ok state, f') =>
      match FileCheckpointStore.movesBackwards state consumer nextBlock with
      | some e => (.error e, f')
      | none =>
        -- the snapshot in memory is not changed before the file is durable
        let next := setCheckpoint state consumer nextBlock
        match f'.writeState deployment next w with
        | (.ok (), f'') => (.ok none, { f'' with state := some next })
        | (.error e, f'') => (.error e, { f'' with state := none })

/-- A new process finds the file, or after a loss of power the last durable one. -/
def restart (f : CheckpointFile) (powerLost : Bool) : CheckpointFile :=
  { f with disk := if powerLost then f.durable else f.disk, state := none }

end Operations

end CheckpointFile

/-- A call is refused before it is queued when its arguments are. -/
def CheckpointCall.admitted (lib : AddressLibrary) : CheckpointCall → Except Failure CheckpointOperation
  | .load consumer =>
    match lib.getAddress consumer with
    | some c => .ok (.load c)
    | none => .error (.error "Invalid address.")
  | .save consumer nextBlock =>
    if nextBlock < 0 then .error (.error "Checkpoint nextBlock must not be negative.")
    else
      match lib.getAddress consumer with
      | some c => .ok (.save c nextBlock.toNat)
      | none => .error (.error "Invalid address.")

/-- A process that owns the file. `operations` is the queue behind `exclusive`. -/
structure CheckpointProcess where
  file : CheckpointFile
  opened : Bool
  operations : List CheckpointOperation
  deriving DecidableEq

/-- What happens next. A process can die while its first operation has done as much of its
work as the outcomes say. -/
inductive CheckpointInput
  | opening (o : Opening)
  | call (c : CheckpointCall)
  | settle (o : Opening) (w : Replacement)
  | restart (during : Option (Opening × Replacement)) (powerLost : Bool)
  deriving DecidableEq

inductive CheckpointEvent
  | opened (result : Except Failure Unit)
  | refused (c : CheckpointCall) (e : Failure)
  | settled (op : CheckpointOperation) (result : Except Failure (Option ℕ))
  | died (op : CheckpointOperation)
  deriving DecidableEq

section System

variable {lib : AddressLibrary} (deployment : RegistryDeployment lib)

def CheckpointProcess.step (input : CheckpointInput) (p : CheckpointProcess) :
    Option (CheckpointProcess × Option CheckpointEvent) :=
  match input with
  | .opening o =>
    if p.opened then none
    else
      match p.file.initializeState deployment o with
      | (.ok _, f) => some (⟨f, true, []⟩, some (.opened (.ok ())))
      | (.error e, f) => some (⟨f, false, []⟩, some (.opened (.error e)))
  | .call c =>
    if !p.opened then none
    else
      match c.admitted lib with
      | .error e => some (p, some (.refused c e))
      | .ok op => some ({ p with operations := p.operations ++ [op] }, none)
  | .settle o w =>
    match p.operations with
    | [] => none
    | op :: rest =>
      let (result, f) := p.file.perform deployment o w op
      some ({ p with file := f, operations := rest }, some (.settled op result))
  | .restart during powerLost =>
    match during, p.operations with
    | some (o, w), op :: _ =>
      some (⟨(p.file.perform deployment o w op).2.restart powerLost, false, []⟩, some (.died op))
    | _, _ => some (⟨p.file.restart powerLost, false, []⟩, none)

/-- The file may hold anything when the first process starts. -/
def checkpointSystem (disk durable : Option Text) :
    Transition.System CheckpointProcess CheckpointInput CheckpointEvent where
  init := ⟨⟨disk, durable, none⟩, false, []⟩
  step := CheckpointProcess.step deployment

end System

/-! What one operation does to the maps that the file can show. -/

namespace CheckpointFile

section Steps

variable {lib : AddressLibrary} (deployment : RegistryDeployment lib)

/-- A fresh process can read this map, before or after a loss of power. -/
def Shows (f : CheckpointFile) (m : Checkpoints) : Prop :=
  readState lib deployment f.disk = .ok m ∨ readState lib deployment f.durable = .ok m

/-- A snapshot in memory is what the file holds, durably. -/
def Coherent (f : CheckpointFile) : Prop :=
  ∀ m, f.state = some m → Normalized lib m ∧
    f.disk = some (stateText lib deployment m) ∧ f.durable = some (stateText lib deployment m)

/-- An operation leaves a map alone, or is a save that moves one entry of it forward. -/
def Moves (op : CheckpointOperation) (m m' : Checkpoints) : Prop :=
  m' = m ∨ ∃ consumer n, op = .save consumer n ∧ m' = setCheckpoint m consumer n ∧
    ∀ k, m.lookup consumer = some k → k ≤ n

/-- A content is left alone, or becomes the text of a map that an operation made of the
one that was read. -/
def Stored (op : CheckpointOperation) (disk contents contents' : Option Text) : Prop :=
  contents' = contents ∨ ∃ m m', readState lib deployment disk = .ok m ∧ Moves op m m' ∧
    Normalized lib m' ∧ contents' = some (stateText lib deployment m')

/-- Consumers of the calls in progress were accepted by `getAddress`. -/
def Accepted (lib : AddressLibrary) : CheckpointOperation → Prop
  | .load consumer => ∃ t, lib.getAddress t = some consumer
  | .save consumer _ => ∃ t, lib.getAddress t = some consumer

variable {deployment}

theorem Coherent.of_none {f : CheckpointFile} (h : f.state = none) : f.Coherent deployment := by
  intro m hm
  rw [h] at hm
  cases hm

theorem restart_coherent (f : CheckpointFile) (powerLost : Bool) :
    (f.restart powerLost).Coherent deployment := Coherent.of_none rfl

theorem restart_shows {f : CheckpointFile} {powerLost : Bool} {m : Checkpoints}
    (h : (f.restart powerLost).Shows deployment m) : f.Shows deployment m := by
  cases powerLost with
  | false => exact h
  | true =>
    rcases h with h | h
    · exact Or.inr h
    · exact Or.inr h

/-- A replacement succeeds durably, or fails and leaves what was durable before. -/
theorem writeState_cases (f : CheckpointFile) (m : Checkpoints) (w : Replacement) :
    (f.writeState deployment m w).2.state = f.state ∧
      (((f.writeState deployment m w).1 = .ok () ∧
          (f.writeState deployment m w).2.disk = some (stateText lib deployment m) ∧
          (f.writeState deployment m w).2.durable = some (stateText lib deployment m)) ∨
        ((f.writeState deployment m w).1 = .error FileCheckpointStore.persistenceError ∧
          (f.writeState deployment m w).2.durable = f.durable ∧
          ((f.writeState deployment m w).2.disk = f.disk ∨
            (f.writeState deployment m w).2.disk = some (stateText lib deployment m)))) := by
  cases w with
  | durable => exact ⟨rfl, Or.inl ⟨rfl, rfl, rfl⟩⟩
  | unchanged => exact ⟨rfl, Or.inr ⟨rfl, rfl, Or.inl rfl⟩⟩
  | visible => exact ⟨rfl, Or.inr ⟨rfl, rfl, Or.inr rfl⟩⟩

/-- What initialising leaves, as part of an operation that reads the same file. -/
structure Initialized (deployment : RegistryDeployment lib) (f f' : CheckpointFile) (result : Except Failure Checkpoints) : Prop where
  coherent : f'.Coherent deployment
  disk : ∀ op, Stored deployment op f.disk f.disk f'.disk
  durable : ∀ op, Stored deployment op f.disk f.durable f'.durable
  success : ∀ m, result = .ok m → f'.state = some m ∧ readState lib deployment f.disk = .ok m

theorem initializeState_spec (hlib : lib.Documented) {f : CheckpointFile}
    (hf : f.Coherent deployment) (o : Opening) :
    Initialized deployment f (f.initializeState deployment o).2
      (f.initializeState deployment o).1 := by
  unfold initializeState
  cases hstate : f.state with
  | some state =>
    refine ⟨hf, fun op => Or.inl rfl, fun op => Or.inl rfl, ?_⟩
    intro m hm
    obtain rfl : state = m := Except.ok.inj hm
    obtain ⟨hnorm, hdisk, -⟩ := hf state hstate
    refine ⟨hstate, ?_⟩
    rw [hdisk]
    exact readState_stateText hlib deployment hnorm
  | none =>
    -- every failure before the replacement leaves the file alone
    have hfailed (e : Failure) : Initialized deployment f f (.error e) :=
      ⟨Coherent.of_none hstate, fun op => Or.inl rfl, fun op => Or.inl rfl,
        fun m hm => by cases hm⟩
    cases hreadable : o.readable with
    | false => exact hfailed _
    | true =>
      cases hread : readState lib deployment f.disk with
      | error e => exact hfailed e
      | ok state =>
        cases hcleaned : o.cleaned with
        | false => exact hfailed _
        | true =>
          have hnorm := readState_normalized hread
          have hstored {op : CheckpointOperation} {contents contents' : Option Text}
              (h : contents' = some (stateText lib deployment state)) :
              Stored deployment op f.disk contents contents' :=
            Or.inr ⟨state, state, hread, Or.inl rfl, hnorm, h⟩
          have hw := @writeState_cases lib deployment f state o.rewritten
          simp only [Bool.not_true, Bool.false_eq_true, if_false]
          generalize f.writeState deployment state o.rewritten = r at hw ⊢
          obtain ⟨result, f'⟩ := r
          obtain ⟨hkeeps, ⟨rfl, hdisk, hdurable⟩ | ⟨rfl, hdurable, hdisk⟩⟩ := hw
          · refine ⟨?_, fun op => hstored hdisk, fun op => hstored hdurable, ?_⟩
            · intro m hm
              obtain rfl : state = m := Option.some.inj hm
              exact ⟨hnorm, hdisk, hdurable⟩
            · intro m hm
              obtain rfl : state = m := Except.ok.inj hm
              exact ⟨rfl, hread⟩
          · refine ⟨Coherent.of_none (hkeeps.trans hstate), ?_, fun op => Or.inl hdurable,
              fun m hm => by cases hm⟩
            intro op
            rcases hdisk with hdisk | hdisk
            · exact Or.inl hdisk
            · exact hstored hdisk

/-- A save that is not refused moves its consumer forward. -/
theorem movesBackwards_none {state : Checkpoints} {consumer : Address} {n : ℕ}
    (h : FileCheckpointStore.movesBackwards state consumer n = none) :
    ∀ k, state.lookup consumer = some k → k ≤ n := by
  intro k hk
  unfold FileCheckpointStore.movesBackwards at h
  rw [hk] at h
  by_contra hlt
  rw [not_le] at hlt
  simp [hlt] at h

/-- What an operation leaves for the next read, and what its success says about it. -/
structure Performed (deployment : RegistryDeployment lib) (f f' : CheckpointFile) (op : CheckpointOperation)
    (result : Except Failure (Option ℕ)) : Prop where
  coherent : f'.Coherent deployment
  disk : Stored deployment op f.disk f.disk f'.disk
  durable : Stored deployment op f.disk f.durable f'.durable
  success : ∀ v, result = .ok v → ∃ m, f'.state = some m ∧
    (∀ c, op = .load c → v = m.lookup c) ∧ ∀ c n, op = .save c n → m.lookup c = some n

theorem Initialized.failed {f f' : CheckpointFile} {result : Except Failure Checkpoints}
    (h : Initialized deployment f f' result) (op : CheckpointOperation) (e : Failure) :
    Performed deployment f f' op (.error e) :=
  ⟨h.coherent, h.disk op, h.durable op, fun v hv => by cases hv⟩

theorem perform_spec (hlib : lib.Documented) {f : CheckpointFile} (hf : f.Coherent deployment)
    (o : Opening) (w : Replacement) {op : CheckpointOperation} (hop : Accepted lib op) :
    Performed deployment f (f.perform deployment o w op).2 op (f.perform deployment o w op).1 := by
  have hinit := initializeState_spec hlib hf o
  generalize hr : f.initializeState deployment o = r at hinit
  obtain ⟨result, f₁⟩ := r
  cases op with
  | load consumer =>
    unfold perform
    simp only [hr]
    cases result with
    | error e => exact hinit.failed _ e
    | ok state =>
      refine ⟨hinit.coherent, hinit.disk _, hinit.durable _, ?_⟩
      intro v hv
      refine ⟨state, (hinit.success state rfl).1, ?_, fun c n hop => by cases hop⟩
      rintro c ⟨⟩
      exact (Except.ok.inj hv).symm
  | save consumer n =>
    unfold perform
    simp only [hr]
    cases result with
    | error e => exact hinit.failed _ e
    | ok state =>
      obtain ⟨hstate, hread⟩ := hinit.success state rfl
      cases hback : FileCheckpointStore.movesBackwards state consumer n with
      | some e =>
        simp only [hback]
        exact hinit.failed _ e
      | none =>
        have hnorm : Normalized lib (setCheckpoint state consumer n) :=
          (readState_normalized hread).set hop n
        -- the new state goes forward from the one that was read
        have hstored {contents contents' : Option Text}
            (h : contents' = some (stateText lib deployment (setCheckpoint state consumer n))) :
            Stored deployment (.save consumer n) f.disk contents contents' :=
          Or.inr ⟨state, _, hread,
            Or.inr ⟨consumer, n, rfl, rfl, movesBackwards_none hback⟩, hnorm, h⟩
        have hw := @writeState_cases lib deployment f₁ (setCheckpoint state consumer n) w
        simp only [hback]
        generalize f₁.writeState deployment (setCheckpoint state consumer n) w = r₂ at hw ⊢
        obtain ⟨result₂, f₂⟩ := r₂
        obtain ⟨-, ⟨rfl, hdisk, hdurable⟩ | ⟨rfl, hdurable, hdisk⟩⟩ := hw
        · refine ⟨?_, hstored hdisk, hstored hdurable, ?_⟩
          · intro m hm
            rw [← Option.some.inj hm]
            exact ⟨hnorm, hdisk, hdurable⟩
          · intro v hv
            refine ⟨_, rfl, fun c hc => (by cases hc), ?_⟩
            rintro c k ⟨⟩
            exact lookup_setCheckpoint_self state consumer n
        · refine ⟨Coherent.of_none rfl, ?_, ?_, fun v hv => by cases hv⟩
          · rcases hdisk with hdisk | hdisk
            · rw [hdisk]
              exact hinit.disk _
            · exact hstored hdisk
          · rw [hdurable]
            exact hinit.durable _

end Steps

end CheckpointFile

/-! Runs. -/

/-- The event shows that the consumer's checkpoint had reached a block: a load returned
it, or a save of it succeeded. -/
def CheckpointEvent.attests (consumer : Address) (n : ℕ) : CheckpointEvent → Prop
  | .settled (.load c) (.ok (some k)) => c = consumer ∧ k = n
  | .settled (.save c k) (.ok _) => c = consumer ∧ k = n
  | _ => False

/-- The event is a load of the consumer with this value. -/
def CheckpointEvent.loads (consumer : Address) (v : Option ℕ) (e : CheckpointEvent) : Prop :=
  e = .settled (.load consumer) (.ok v)

/-- The event ends a save for the consumer, whatever became of it. -/
def CheckpointEvent.saves (consumer : Address) : CheckpointEvent → Prop
  | .settled (.save c _) _ => c = consumer
  | .died (.save c _) => c = consumer
  | _ => False

def AtLeast (n : ℕ) (v : Option ℕ) : Prop := ∃ k, v = some k ∧ n ≤ k

/-- The map agrees with everything that the events told about checkpoints. -/
structure Remembers (tr : List CheckpointEvent) (m : Checkpoints) : Prop where
  attested : ∀ e ∈ tr, ∀ consumer n, e.attests consumer n → AtLeast n (m.lookup consumer)
  unchanged : ∀ consumer v, Transition.Since (·.loads consumer v) (fun e => ¬ e.saves consumer) tr →
    m.lookup consumer = v

/-- A load returns no less than the events before it attested, and exactly what the last
load of the consumer returned, when no save for the consumer came between. -/
def LoadOk (pre : List CheckpointEvent) (e : CheckpointEvent) : Prop :=
  ∀ consumer v, e.loads consumer v →
    (∀ e' ∈ pre, ∀ n, e'.attests consumer n → AtLeast n v) ∧
      ∀ v', Transition.Since (·.loads consumer v') (fun e => ¬ e.saves consumer) pre → v = v'

/-- The contents were there before the first process, or the store wrote them. -/
def Written {lib : AddressLibrary} (deployment : RegistryDeployment lib)
    (initial : Option Text → Prop) (contents : Option Text) : Prop :=
  initial contents ∨
    ∃ m, Normalized lib m ∧ contents = some (stateText lib deployment m)

/-- Neither of the contents that a process may find came from elsewhere. -/
def FileWritten {lib : AddressLibrary} (deployment : RegistryDeployment lib)
    (initial : Option Text → Prop) (f : CheckpointFile) : Prop :=
  Written deployment initial f.disk ∧ Written deployment initial f.durable

structure RunInv {lib : AddressLibrary} (deployment : RegistryDeployment lib)
    (initial : Option Text → Prop) (p : CheckpointProcess) (tr : List CheckpointEvent) : Prop where
  coherent : p.file.Coherent deployment
  written : FileWritten deployment initial p.file
  remembers : ∀ m, p.file.Shows deployment m → Remembers tr m
  accepted : ∀ op ∈ p.operations, CheckpointFile.Accepted lib op
  loads : Transition.EachEvent LoadOk tr

section Runs

variable {lib : AddressLibrary} {deployment : RegistryDeployment lib}
  {initial : Option Text → Prop}

open CheckpointFile

theorem moves_lookup {op : CheckpointOperation} {m m' : Checkpoints} (h : Moves op m m')
    {consumer : Address} {n : ℕ} (hm : AtLeast n (m.lookup consumer)) :
    AtLeast n (m'.lookup consumer) := by
  rcases h with rfl | ⟨c, k, -, rfl, hle⟩
  · exact hm
  · by_cases hc : consumer = c
    · subst hc
      obtain ⟨j, hj, hnj⟩ := hm
      exact ⟨k, lookup_setCheckpoint_self m consumer k, hnj.trans (hle j hj)⟩
    · rw [lookup_setCheckpoint_of_ne k hc]
      exact hm

theorem moves_other {op : CheckpointOperation} {m m' : Checkpoints} (h : Moves op m m')
    {consumer : Address} (hop : ∀ n, op ≠ .save consumer n) :
    m'.lookup consumer = m.lookup consumer := by
  rcases h with rfl | ⟨c, k, hsave, rfl, -⟩
  · rfl
  · apply lookup_setCheckpoint_of_ne
    rintro rfl
    exact hop k hsave

/-- An event of an operation that is no load by itself adds nothing to remember. -/
theorem Remembers.append {tr : List CheckpointEvent} {m m' : Checkpoints} (h : Remembers tr m)
    {op : CheckpointOperation} (hmoves : Moves op m m') {e : CheckpointEvent}
    (hattests : ∀ consumer n, e.attests consumer n → AtLeast n (m'.lookup consumer))
    (hloads : ∀ consumer v, e.loads consumer v → m'.lookup consumer = v)
    (hsaves : ∀ consumer n, op = .save consumer n → e.saves consumer) :
    Remembers (tr ++ [e]) m' := by
  refine ⟨?_, ?_⟩
  · intro e' he' consumer n hn
    rcases List.mem_append.mp he' with he' | he'
    · exact moves_lookup hmoves (h.attested e' he' consumer n hn)
    · rw [List.mem_singleton.mp he'] at hn
      exact hattests consumer n hn
  · intro consumer v hv
    rcases Transition.since_append_singleton_iff.mp hv with he | ⟨hv, hnot⟩
    · exact hloads consumer v he
    · rw [moves_other hmoves fun n hop => hnot (hsaves consumer n hop)]
      exact h.unchanged consumer v hv

/-- An event of no operation leaves a map as it was. -/
theorem Remembers.quiet {tr : List CheckpointEvent} {m : Checkpoints} (h : Remembers tr m)
    {e : CheckpointEvent} (hattests : ∀ consumer n, ¬ e.attests consumer n)
    (hloads : ∀ consumer v, ¬ e.loads consumer v) : Remembers (tr ++ [e]) m := by
  have hmoves : Moves (.load 0) m m := Or.inl rfl
  apply h.append hmoves
  · exact fun consumer n hn => absurd hn (hattests consumer n)
  · exact fun consumer v hv => absurd hv (hloads consumer v)
  · exact fun consumer n hop => by cases hop

theorem LoadOk.quiet {pre : List CheckpointEvent} {e : CheckpointEvent}
    (hloads : ∀ consumer v, ¬ e.loads consumer v) : LoadOk pre e :=
  fun consumer v hv => absurd hv (hloads consumer v)

theorem CheckpointFile.Stored.shows (hlib : lib.Documented) {f : CheckpointFile}
    {op : CheckpointOperation} {contents contents' : Option Text}
    (h : Stored deployment op f.disk contents contents')
    (hf : contents = f.disk ∨ contents = f.durable) {m' : Checkpoints}
    (hm : readState lib deployment contents' = .ok m') :
    ∃ m, f.Shows deployment m ∧ Moves op m m' := by
  rcases h with rfl | ⟨m, m₁, hread, hmoves, hnorm, rfl⟩
  · refine ⟨m', ?_, Or.inl rfl⟩
    rcases hf with rfl | rfl
    · exact Or.inl hm
    · exact Or.inr hm
  · have hm₁ : m₁ = m' :=
      Except.ok.inj ((readState_stateText hlib deployment hnorm).symm.trans hm)
    exact ⟨m, Or.inl hread, hm₁ ▸ hmoves⟩

/-- Every map that the file shows after an operation comes from one that it showed before. -/
theorem CheckpointFile.Performed.shows (hlib : lib.Documented) {f f' : CheckpointFile}
    {op : CheckpointOperation} {result : Except Failure (Option ℕ)}
    (h : Performed deployment f f' op result) {m' : Checkpoints}
    (hm : f'.Shows deployment m') : ∃ m, f.Shows deployment m ∧ Moves op m m' := by
  rcases hm with hm | hm
  · exact h.disk.shows hlib (Or.inl rfl) hm
  · exact h.durable.shows hlib (Or.inr rfl) hm

/-- A snapshot in memory is the one map that the file can show. -/
theorem CheckpointFile.Coherent.shown (hlib : lib.Documented) {f : CheckpointFile}
    (hf : f.Coherent deployment) {m : Checkpoints} (hstate : f.state = some m)
    {m' : Checkpoints} (hm : f.Shows deployment m') : m = m' := by
  obtain ⟨hnorm, hdisk, hdurable⟩ := hf m hstate
  have hread := readState_stateText hlib deployment hnorm
  unfold Shows at hm
  rw [hdisk, hdurable, or_self, hread] at hm
  exact Except.ok.inj hm

/-- A successful operation leaves one map that the file can show. -/
theorem CheckpointFile.Performed.shown (hlib : lib.Documented) {f f' : CheckpointFile}
    {op : CheckpointOperation} {v : Option ℕ} (h : Performed deployment f f' op (.ok v))
    {m : Checkpoints} (hm : f'.Shows deployment m) :
    (∀ c, op = .load c → v = m.lookup c) ∧ ∀ c n, op = .save c n → m.lookup c = some n := by
  obtain ⟨m', hstate, hload, hsave⟩ := h.success v rfl
  obtain rfl := h.coherent.shown hlib hstate hm
  exact ⟨hload, hsave⟩

theorem CheckpointFile.Performed.remembers (hlib : lib.Documented) {f f' : CheckpointFile} {op : CheckpointOperation}
    {result : Except Failure (Option ℕ)} (h : Performed deployment f f' op result)
    {tr : List CheckpointEvent} (hf : ∀ m, f.Shows deployment m → Remembers tr m)
    {m' : Checkpoints} (hm : f'.Shows deployment m') :
    Remembers (tr ++ [.settled op result]) m' := by
  obtain ⟨m, hshows, hmoves⟩ := h.shows hlib hm
  apply (hf m hshows).append hmoves
  · intro consumer n hn
    cases result with
    | error e => cases op <;> exact absurd hn id
    | ok v =>
      obtain ⟨hload, hsave⟩ := h.shown hlib hm
      cases op with
      | load c =>
        cases v with
        | none => exact absurd hn id
        | some k =>
          obtain ⟨rfl, rfl⟩ := hn
          exact ⟨k, (hload c rfl).symm, le_rfl⟩
      | save c k =>
        obtain ⟨rfl, rfl⟩ := hn
        exact ⟨k, hsave c k rfl, le_rfl⟩
  · intro consumer v hv
    cases hv
    exact ((h.shown hlib hm).1 consumer rfl).symm
  · rintro consumer n rfl
    exact rfl

theorem CheckpointFile.Performed.loadOk (hlib : lib.Documented) {f f' : CheckpointFile} {op : CheckpointOperation}
    {result : Except Failure (Option ℕ)} (h : Performed deployment f f' op result)
    {tr : List CheckpointEvent} (hf : ∀ m, f.Shows deployment m → Remembers tr m) :
    LoadOk tr (.settled op result) := by
  intro consumer v hv
  cases hv
  obtain ⟨m', hstate, hload, -⟩ := h.success v rfl
  obtain ⟨hnorm, hdisk, -⟩ := h.coherent m' hstate
  have hread : readState lib deployment f'.disk = .ok m' := by
    rw [hdisk]
    exact readState_stateText hlib deployment hnorm
  obtain ⟨m, hshows, hmoves⟩ := h.shows hlib (Or.inl hread)
  have hm : v = m.lookup consumer :=
    (hload consumer rfl).trans (moves_other hmoves fun n hop => by cases hop)
  refine ⟨?_, ?_⟩
  · intro e' he' n hn
    rw [hm]
    exact (hf m hshows).attested e' he' consumer n hn
  · intro v' hv'
    rw [hm]
    exact (hf m hshows).unchanged consumer v' hv'

theorem CheckpointFile.Stored.written {op : CheckpointOperation}
    {disk contents contents' : Option Text} (h : Stored deployment op disk contents contents')
    (hc : Written deployment initial contents) : Written deployment initial contents' := by
  rcases h with rfl | ⟨m, m', -, -, hnorm, rfl⟩
  · exact hc
  · exact Or.inr ⟨m', hnorm, rfl⟩

theorem CheckpointFile.Performed.written {f f' : CheckpointFile} {op : CheckpointOperation}
    {result : Except Failure (Option ℕ)} (h : Performed deployment f f' op result)
    (hf : FileWritten deployment initial f) : FileWritten deployment initial f' :=
  ⟨h.disk.written hf.1, h.durable.written hf.2⟩

theorem FileWritten.restart {f : CheckpointFile} (h : FileWritten deployment initial f)
    (powerLost : Bool) : FileWritten deployment initial (f.restart powerLost) := by
  cases powerLost with
  | false => exact h
  | true => exact ⟨h.2, h.2⟩

theorem admitted_accepted {c : CheckpointCall} {op : CheckpointOperation} (h : c.admitted lib = .ok op) :
    Accepted lib op := by
  cases c with
  | load consumer =>
    cases hc : lib.getAddress consumer with
    | none => simp [CheckpointCall.admitted, hc] at h
    | some a =>
      simp only [CheckpointCall.admitted, hc, Except.ok.injEq] at h
      rw [← h]
      exact ⟨consumer, hc⟩
  | save consumer n =>
    cases hc : lib.getAddress consumer with
    | none =>
      simp only [CheckpointCall.admitted, hc] at h
      split_ifs at h
    | some a =>
      simp only [CheckpointCall.admitted, hc] at h
      split_ifs at h
      rw [← Except.ok.inj h]
      exact ⟨consumer, hc⟩

/-- The invariant of a run, through an event that no operation belongs to. -/
theorem RunInv.quiet {p p' : CheckpointProcess} {tr : List CheckpointEvent}
    (h : RunInv deployment initial p tr) (hcoherent : p'.file.Coherent deployment)
    (hwritten : FileWritten deployment initial p'.file)
    (hshows : ∀ m, p'.file.Shows deployment m → p.file.Shows deployment m)
    (haccepted : ∀ op ∈ p'.operations, Accepted lib op) {e : CheckpointEvent}
    (hattests : ∀ consumer n, ¬ e.attests consumer n)
    (hloads : ∀ consumer v, ¬ e.loads consumer v) : RunInv deployment initial p' (tr ++ [e]) :=
  ⟨hcoherent, hwritten, fun m hm => (h.remembers m (hshows m hm)).quiet hattests hloads, haccepted,
    h.loads.append_singleton (LoadOk.quiet hloads)⟩

theorem RunInv.step (hlib : lib.Documented) {p p' : CheckpointProcess}
    {tr : List CheckpointEvent} (h : RunInv deployment initial p tr) {input : CheckpointInput}
    {e : Option CheckpointEvent} (hstep : p.step deployment input = some (p', e)) :
    RunInv deployment initial p' (tr ++ e.toList) := by
  cases input with
  | opening o =>
    -- what the opened file shows was shown before it
    have hinit := initializeState_spec hlib h.coherent o
    have hcoherent := hinit.coherent
    have hwritten := (hinit.failed (.load 0) .rpc).written h.written
    have hshows : ∀ m, (p.file.initializeState deployment o).2.Shows deployment m →
        p.file.Shows deployment m := by
      intro m hm
      obtain ⟨m', hm', rfl | ⟨c, n, hop, -⟩⟩ := (hinit.failed (.load 0) .rpc).shows hlib hm
      · exact hm'
      · cases hop
    simp only [CheckpointProcess.step] at hstep
    generalize p.file.initializeState deployment o = r at hstep hcoherent hwritten hshows
    obtain ⟨result, f⟩ := r
    split_ifs at hstep
    cases result with
    | error e =>
      cases hstep
      exact h.quiet hcoherent hwritten hshows (by simp) (fun _ _ h => h) (fun _ _ h => by cases h)
    | ok m =>
      cases hstep
      exact h.quiet hcoherent hwritten hshows (by simp) (fun _ _ h => h) (fun _ _ h => by cases h)
  | call c =>
    simp only [CheckpointProcess.step] at hstep
    split_ifs at hstep
    -- a call only joins the queue, if its arguments are admitted
    cases hc : c.admitted lib with
    | error e =>
      rw [hc] at hstep
      cases hstep
      exact h.quiet h.coherent h.written (fun _ hm => hm) h.accepted (fun _ _ h => h)
        (fun _ _ h => by cases h)
    | ok op =>
      rw [hc] at hstep
      cases hstep
      rw [Option.toList_none, List.append_nil]
      refine ⟨h.coherent, h.written, h.remembers, ?_, h.loads⟩
      intro op' hop'
      rcases List.mem_append.mp hop' with hop' | hop'
      · exact h.accepted op' hop'
      · rw [List.mem_singleton.mp hop']
        exact admitted_accepted hc
  | settle o w =>
    cases hops : p.operations with
    | nil =>
      simp only [CheckpointProcess.step, hops] at hstep
      cases hstep
    | cons op rest =>
      simp only [CheckpointProcess.step, hops] at hstep
      cases hstep
      have haccepted := h.accepted
      rw [hops] at haccepted
      have hperform := perform_spec hlib h.coherent o w (haccepted op List.mem_cons_self)
      exact ⟨hperform.coherent, hperform.written h.written, fun m hm => hperform.remembers hlib h.remembers hm,
        fun op' hop' => haccepted op' (List.mem_cons_of_mem op hop'),
        h.loads.append_singleton (hperform.loadOk hlib h.remembers)⟩
  | restart during powerLost =>
    -- the restart may cut off an operation, whose state shows without its event
    have hrestart : RunInv deployment initial ⟨p.file.restart powerLost, false, []⟩ tr :=
      ⟨restart_coherent p.file powerLost, h.written.restart powerLost, fun m hm => h.remembers m (restart_shows hm), by simp,
        h.loads⟩
    simp only [CheckpointProcess.step] at hstep
    split at hstep
    · rename_i o w op rest hops
      cases hstep
      have hop := h.accepted op (by rw [hops]; exact List.mem_cons_self)
      have hperform := perform_spec hlib h.coherent o w hop
      refine ⟨restart_coherent _ powerLost, (hperform.written h.written).restart powerLost, ?_, by simp,
        h.loads.append_singleton (LoadOk.quiet fun _ _ h => by cases h)⟩
      intro m' hm
      obtain ⟨m, hshows, hmoves⟩ := hperform.shows hlib (restart_shows hm)
      apply (h.remembers m hshows).append hmoves
      · exact fun _ _ h => absurd h id
      · exact fun _ _ h => by cases h
      · rintro consumer n rfl
        exact rfl
    · cases hstep
      simpa using hrestart

theorem runCheckpoints_inv (hlib : lib.Documented) (deployment : RegistryDeployment lib)
    (disk durable : Option Text) (inputs : List CheckpointInput) :
    RunInv deployment (fun contents => contents = disk ∨ contents = durable)
      ((checkpointSystem deployment disk durable).run inputs).1
      ((checkpointSystem deployment disk durable).run inputs).2 := by
  apply Transition.System.run_invariant
  · refine ⟨Coherent.of_none rfl, ⟨Or.inl (Or.inl rfl), Or.inl (Or.inr rfl)⟩, ?_, ?_,
      Transition.eachEvent_nil _⟩
    · intro m _
      refine ⟨by simp, ?_⟩
      rintro consumer v ⟨pre, e, post, h, -⟩
      simp at h
    · intro op hop
      cases hop
  · intro input p tr p' e h hstep
    exact h.step hlib hstep

/-- What a load returns when nothing fails on its way. -/
def CheckpointFile.loaded (deployment : RegistryDeployment lib) (f : CheckpointFile)
    (consumer : Address) : Except Failure (Option ℕ) :=
  (f.perform deployment ⟨true, true, .durable⟩ .durable (.load consumer)).1

theorem loaded_eq (hlib : lib.Documented) {f : CheckpointFile} (hf : f.Coherent deployment)
    (consumer : Address) : f.loaded deployment consumer =
      (readState lib deployment f.disk).map (List.lookup consumer) := by
  unfold loaded perform initializeState
  cases hstate : f.state with
  | some m =>
    obtain ⟨hnorm, hdisk, -⟩ := hf m hstate
    rw [hdisk, readState_stateText hlib deployment hnorm]
    rfl
  | none =>
    simp only [Bool.not_true, Bool.false_eq_true, if_false]
    cases readState lib deployment f.disk with
    | error e => rfl
    | ok m => rfl

/-- A save of one consumer is invisible to every other. -/
theorem loaded_after_save (hlib : lib.Documented) {f : CheckpointFile}
    (hf : f.Coherent deployment) {consumer other : Address} (hne : other ≠ consumer)
    (hconsumer : ∃ t, lib.getAddress t = some consumer) (n : ℕ) (o : Opening) (w : Replacement) :
    (f.perform deployment o w (.save consumer n)).2.loaded deployment other =
      f.loaded deployment other := by
  have haccepted : Accepted lib (.save consumer n) := hconsumer
  have hperform := perform_spec hlib hf o w haccepted
  rw [loaded_eq hlib hf, loaded_eq hlib hperform.coherent]
  rcases hperform.disk with hdisk | ⟨m, m', hread, hmoves, hnorm, hdisk⟩
  · rw [hdisk]
  · rw [hdisk, hread, readState_stateText hlib deployment hnorm]
    have hother : m'.lookup other = m.lookup other := by
      apply moves_other hmoves
      rintro k ⟨⟩
      exact hne rfl
    exact congrArg Except.ok hother

end Runs

/-! The claim about the store, over every run. -/

section Monotonicity

/-- In every run, whatever the file held before and whatever becomes of every replacement:
each load returns at least what earlier loads returned and earlier saves acknowledged, and
just what the last one returned unless a save for its consumer came between; a save changes
no other consumer's checkpoint; and what the store wrote is read back as it was. -/
theorem checkpoint_store_monotone {lib : AddressLibrary} (hlib : lib.Documented)
    (deployment : RegistryDeployment lib) (disk durable : Option Text)
    (inputs : List CheckpointInput) :
    let run := (checkpointSystem deployment disk durable).run inputs
    Transition.EachEvent LoadOk run.2 ∧
      (∀ consumer other n o w, other ≠ consumer → (∃ t, lib.getAddress t = some consumer) →
        (run.1.file.perform deployment o w (.save consumer n)).2.loaded deployment other =
          run.1.file.loaded deployment other) ∧
      (∀ contents, contents = run.1.file.disk ∨ contents = run.1.file.durable →
        contents = disk ∨ contents = durable ∨
          ∃ m, contents = some (stateText lib deployment m) ∧
            readState lib deployment contents = .ok m) ∧
      ∀ m, run.1.file.state = some m →
        run.1.file.disk = some (stateText lib deployment m) ∧
          readState lib deployment run.1.file.disk = .ok m := by
  intro run
  have hinv := runCheckpoints_inv hlib deployment disk durable inputs
  refine ⟨hinv.loads, ?_, ?_, ?_⟩
  · intro consumer other n o w hne hconsumer
    exact loaded_after_save hlib hinv.coherent hne hconsumer n o w
  · intro contents hcontents
    have hwritten : Written deployment (fun c => c = disk ∨ c = durable) contents := by
      rcases hcontents with rfl | rfl
      · exact hinv.written.1
      · exact hinv.written.2
    rcases hwritten with (h | h) | ⟨m, hnorm, h⟩
    · exact Or.inl h
    · exact Or.inr (Or.inl h)
    · refine Or.inr (Or.inr ⟨m, h, ?_⟩)
      rw [h]
      exact readState_stateText hlib deployment hnorm
  · intro m hstate
    obtain ⟨hnorm, hdisk, -⟩ := hinv.coherent m hstate
    refine ⟨hdisk, ?_⟩
    rw [hdisk]
    exact readState_stateText hlib deployment hnorm

def firstConsumer : Text := text "0x0000000000000000000000000000000000000001"
def secondConsumer : Text := text "0x0000000000000000000000000000000000000002"

/-- The library on two addresses without letters, which are their own checksummed texts. -/
def digitAddresses : AddressLibrary where
  getAddress t := if t = firstConsumer then some 1 else if t = secondConsumer then some 2 else none
  checksum a := if a = 1 then firstConsumer else secondConsumer

theorem digitAddresses_documented : digitAddresses.Documented := by
  have hread {t : Text} {a : Address} (h : digitAddresses.getAddress t = some a) :
      a = 1 ∨ a = 2 := by
    unfold digitAddresses at h
    simp only at h
    split_ifs at h
    · exact Or.inl (Option.some.inj h).symm
    · exact Or.inr (Option.some.inj h).symm
  refine ⟨?_, ?_⟩
  · intro t a h
    rcases hread h with rfl | rfl <;> decide
  · intro t a h
    rcases hread h with rfl | rfl <;> decide

def sampleRegistry : RegistryDeployment digitAddresses where
  chainId := 1
  registry := 2
  chainId_positive := by decide
  chainId_safe := by decide
  registry_normalized := ⟨secondConsumer, by decide⟩

/-- Three calls that are queued at once; the second save would move backwards. -/
def queuedCalls : List CheckpointInput :=
  [.opening ⟨true, true, .durable⟩, .call (.save firstConsumer 5), .call (.load firstConsumer),
    .call (.save firstConsumer 3), .settle ⟨true, true, .durable⟩ .durable,
    .settle ⟨true, true, .durable⟩ .durable, .settle ⟨true, true, .durable⟩ .durable]

theorem queuedCalls_monotone :
    ((checkpointSystem sampleRegistry none none).run queuedCalls).2 =
        [.opened (.ok ()), .settled (.save 1 5) (.ok none), .settled (.load 1) (.ok (some 5)),
          .settled (.save 1 3) (.error (.error ("Checkpoint for consumer 1 " ++
            "cannot move backwards from 5 to 3.")))] ∧
      Transition.EachEvent LoadOk
        ((checkpointSystem sampleRegistry none none).run queuedCalls).2 :=
  ⟨by rfl,
    (checkpoint_store_monotone digitAddresses_documented sampleRegistry none none queuedCalls).1⟩

end Monotonicity

end Quicknet.Daemon
