import Quicknet.ServiceVerification

/-! What a process that the launcher has started holds when it runs a command: a descriptor of
its own that is locked exclusively on the file that has the lock file's name. -/
namespace Quicknet.Service
open Json (Text text)
open Interaction (Prog)
open Interaction.Prog (Secure Stable)
open FileLock (Kernel LockMode Description)
open Quicknet.Cli

/-- The file that is opened by the name. -/
def LockEntry.target : LockEntry → Option FileIdentity
  | .regular file _ => some file
  | .symlink file => some file
  | .other => none

/-- The launcher's descriptor refers to a description of its own. -/
structure OpenedAt (p d : ℕ) (directory : Text) (entry : LockEntry) (file : FileIdentity)
    (lock : Option LockMode) (h : Host) : Prop where
  alive : p < h.kernel.tables.length
  descriptor : h.kernel.description? p LOCK_DESCRIPTOR = some d
  own : h.kernel.Private p d
  description : h.kernel.descriptions[d]? = some ⟨file, lock⟩
  named : h.entry directory = some entry
  target : entry.target = some file

/-- A launched process that runs a command under the lock. -/
structure Holding (paths : Paths) (p : ℕ) (directory : Option Text) (lock : VerifiedServiceLock)
    (checkpointFile : Option Text) (h : Host) : Prop where
  directory : directory = some lock.stateDirectory
  opened : ∃ d, OpenedAt p d lock.stateDirectory (.regular lock.identity 1) lock.identity
    (some .exclusive) h
  placed : ∀ file, checkpointFile = some file → Placed paths file lock.stateDirectory

section Opened

variable {paths : Paths} {p d : ℕ} {directory : Option Text} {dir : Text} {entry : LockEntry}
  {file : FileIdentity} {lock : Option LockMode} {h h' : Host}

theorem stable_openedAt (hdir : directory = some dir) :
    Stable (Spared p directory) (OpenedAt p d dir entry file lock) := by
  intro h h' hs ho
  obtain ⟨hprivate, hdescription⟩ := hs.own d _ ho.own ho.description
  refine ⟨hs.alive ho.alive, ?_, hprivate, hdescription, hs.entry dir entry hdir ho.named,
    ho.target⟩
  unfold Kernel.description?
  rw [hs.table ho.alive]
  exact ho.descriptor

theorem stable_alive : Stable (Spared p directory) fun h => p < h.kernel.tables.length :=
  fun _ _ hs => hs.alive

theorem stable_holding {v : VerifiedServiceLock} {checkpointFile : Option Text} :
    Stable (Spared p directory) (Holding paths p directory v checkpointFile) := by
  rintro h h' hs ⟨hdir, ⟨d, ho⟩, hplaced⟩
  exact ⟨hdir, ⟨d, stable_openedAt hdir h h' hs ho⟩, hplaced⟩

/-- The description that is opened has no other descriptor. -/
theorem openedAt_openEntry (hp : p < h.kernel.tables.length) (hentry : h.entry dir = some entry)
    (htarget : entry.target = some file) :
    OpenedAt p h.kernel.descriptions.length dir entry file none (h.openEntry p file) where
  alive := by
    change p < (h.kernel.tables.set p _).length
    rw [List.length_set]
    exact hp
  descriptor := by
    unfold Kernel.description? Kernel.table
    change ((h.kernel.tables.set p _).getD p []).lookup _ = _
    rw [Kernel.set_table_self _ hp]
    unfold Kernel.openTable
    rw [List.lookup_cons, beq_self_eq_true]
  own := by
    rintro q hq ⟨e, he, hd⟩
    unfold Kernel.table at he
    change e ∈ (h.kernel.tables.set p _).getD q [] at he
    rw [Kernel.set_table_of_ne _ _ hq] at he
    -- a descriptor that was there refers to an older description
    have hbound := h.kernel.bounded e.2 (h.kernel.table_refers q e he)
    omega
  description := List.getElem?_concat_length
  named := hentry
  target := htarget

theorem openedAt_openLock {create : Bool} {created : FileIdentity}
    (hp : p < h.kernel.tables.length) (ho : (true, h') = h.openLock p dir create created) :
    ∃ d entry file, OpenedAt p d dir entry file none h' := by
  unfold Host.openLock at ho
  split at ho
  · rename_i file links hentry
    obtain ⟨-, rfl⟩ := Prod.mk.inj ho
    exact ⟨_, _, file, openedAt_openEntry hp hentry rfl⟩
  · rename_i target hentry
    obtain ⟨-, rfl⟩ := Prod.mk.inj ho
    exact ⟨_, _, target, openedAt_openEntry hp hentry rfl⟩
  · cases (Prod.mk.inj ho).1
  · split_ifs at ho
    · obtain ⟨-, rfl⟩ := Prod.mk.inj ho
      refine ⟨_, .regular created 1, created, openedAt_openEntry hp ?_ rfl⟩
      unfold Host.entry
      rw [List.lookup_cons, beq_self_eq_true]
    · cases (Prod.mk.inj ho).1

/-- What `flock` does to the description of the descriptor. -/
theorem requestLock_eq (hd : h.kernel.description? p LOCK_DESCRIPTOR = some d) :
    h.requestLock p = ((h.kernel.flock d .exclusive).1,
      { h with kernel := (h.kernel.flock d .exclusive).2 }) := by
  have hperform : h.kernel.perform p (.flock LOCK_DESCRIPTOR .exclusive) =
      h.kernel.flock d .exclusive := by
    change h.kernel.onDescription p LOCK_DESCRIPTOR _ = _
    unfold Kernel.onDescription
    rw [hd]
    rfl
  unfold Host.requestLock
  rw [hperform]

/-- A lock that is granted is the process's own. -/
theorem openedAt_requestLock (ho : OpenedAt p d dir entry file lock h)
    (hlock : (h.requestLock p).1 = true) :
    OpenedAt p d dir entry file (some .exclusive) (h.requestLock p).2 := by
  rw [requestLock_eq ho.descriptor] at hlock ⊢
  have htables := h.kernel.flock_tables d .exclusive
  have hholds (q : ℕ) : (h.kernel.flock d .exclusive).2.table q = h.kernel.table q := by
    unfold Kernel.table
    rw [htables]
  refine ⟨?_, ?_, ?_, ?_, ho.named, ho.target⟩
  · change p < (h.kernel.flock d .exclusive).2.tables.length
    rw [htables]
    exact ho.alive
  · unfold Kernel.description?
    rw [hholds]
    exact ho.descriptor
  · rintro q hq ⟨e, he, hed⟩
    rw [hholds] at he
    exact ho.own q hq ⟨e, he, hed⟩
  · dsimp only
    unfold Kernel.flock at hlock ⊢
    split_ifs at hlock ⊢ with hheld hgrants
    · -- the description is locked already
      rw [ho.description] at hheld ⊢
      have hexclusive : lock = some .exclusive := hheld
      rw [hexclusive]
    · change (FileLock.Kernel.relocked _ d _)[d]? = _
      unfold FileLock.Kernel.relocked
      rw [List.getElem?_modify, ho.description]
      simp

end Opened

section Commands

variable {paths : Paths} {p : ℕ} {directory : Option Text} {K : Host → Prop} {h : Host}

/-- A command that holds the lock has checked it. -/
theorem secure_verifyLock (hK : Stable (Spared p directory) K)
    (halive : ∀ h, K h → p < h.kernel.tables.length) (env : LaunchEnvironment)
    (checkpointFile : Option Text) (hh : K h) :
    (verifyLock paths env checkpointFile).Secure (Spared p directory) (Answers paths p)
      (fun out h => K h ∧ ∀ lock, out = .ok lock →
        Checked paths p directory ⟨env.stateDir, checkpointFile⟩ lock h) h := by
  unfold verifyLock
  simp only [Prog.bind_eq]
  have hattempt : Prog.Secure (ε := ProcessExit) (Spared p directory) (Answers paths p)
      (fun out h => K h ∧ ∃ checked, out = .ok checked ∧ ∀ lock, checked = .ok lock →
        Checked paths p directory ⟨env.stateDir, checkpointFile⟩ lock h)
      (assertServiceLockHeld paths env.linux ⟨env.stateDir, checkpointFile⟩).attempt h :=
    (secure_assertServiceLockHeld hK halive env.linux ⟨env.stateDir, checkpointFile⟩ hh).attempt
      fun out h hout => ⟨hout.1, out, rfl, hout.2⟩
  refine Secure.bind hattempt ?_ ?_
  · rintro checked h ⟨hh, _, heq, hchecked⟩
    obtain rfl := Except.ok.inj heq
    cases checked with
    | ok lock => exact ⟨hh, fun _ hout => hchecked _ (congrArg Except.ok (Except.ok.inj hout))⟩
    | error reason => exact ⟨hh, fun _ hout => (by cases hout)⟩
  · rintro e h ⟨_, _, heq, _⟩
    cases heq

/-- What is known of a program that has started a command under the lock. -/
def Verified (paths : Paths) (p : ℕ) (directory stateDir : Option Text) (K : Host → Prop)
    (out : Except ProcessExit Running) (h : Host) : Prop :=
  K h ∧ ∀ command lock checkpointFile, out = .ok (.holding command lock checkpointFile) →
    Checked paths p directory ⟨stateDir, checkpointFile⟩ lock h

theorem secure_nodeMain (hK : Stable (Spared p directory) K)
    (halive : ∀ h, K h → p < h.kernel.tables.length) (args : List Text) (env : LaunchEnvironment)
    (hh : K h) :
    (nodeMain paths args env).Secure (Spared p directory) (Answers paths p)
      (Verified paths p directory env.stateDir K) h := by
  -- a process that fails holds nothing
  have herror (e : ProcessExit) (h : Host) (hh : K h) :
      Verified paths p directory env.stateDir K (.error e) h := ⟨hh, fun _ _ _ hout => (by cases hout)⟩
  have hverified (command : CommandArguments) (checkpointFile : Option Text) (h : Host) (hh : K h) :
      ((verifyLock paths env checkpointFile).bind fun lock =>
        .ret (.holding command lock checkpointFile)).Secure (Spared p directory) (Answers paths p)
          (Verified paths p directory env.stateDir K) h := by
    refine (secure_verifyLock hK halive env checkpointFile hh).bind ?_
      fun e h hpost => herror e h hpost.1
    rintro lock h ⟨hh, hchecked⟩
    refine ⟨hh, fun command' lock' checkpointFile' hout => ?_⟩
    cases hout
    exact hchecked lock rfl
  -- a command with a checkpoint verifies the lock before it names the file and after
  have hwriting (command : CommandArguments) :
      ((verifyLock paths env none).bind fun _ =>
        (Prog.lift (commandCheckpoint paths command env)).bind fun checkpointFile =>
          (verifyLock paths env checkpointFile).bind fun lock =>
            .ret (.holding command lock checkpointFile)).Secure (Spared p directory)
              (Answers paths p) (Verified paths p directory env.stateDir K) h := by
    refine (secure_verifyLock hK halive env none hh).bind ?_ fun e h hpost => herror e h hpost.1
    rintro _ h ⟨hh, _⟩
    cases commandCheckpoint paths command env with
    | ok checkpointFile => exact hverified command checkpointFile h hh
    | error e => exact herror e h hh
  unfold nodeMain
  split
  · exact herror _ h hh
  · rename_i command _
    split
    · exact ⟨hh, fun _ _ _ hout => (by cases hout)⟩
    · exact ⟨hh, fun _ _ _ hout => (by cases hout)⟩
    · exact ⟨hh, fun _ _ _ hout => (by cases hout)⟩
    · exact hverified _ none h hh
    · exact hverified _ none h hh
    · exact hwriting _
    · exact hwriting _
    · exact hwriting _

end Commands

end Quicknet.Service
