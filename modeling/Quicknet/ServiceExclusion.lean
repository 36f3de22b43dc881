import Quicknet.ServiceStart

/-! Runs of a host. No two relayers hold one state directory or one checkpoint file at once, as
long as nobody takes the lock file away from a directory in which a relayer runs. -/
namespace Quicknet.Service
open Json (Text text)
open Interaction (Prog)
open Interaction.Prog (Secure Stable)
open FileLock (Kernel LockMode Description Refers)
open Quicknet.Cli

/-! What each process keeps. -/

/-- A process that starts to work under the lock. -/
structure Begun (paths : Paths) (p : ℕ) (directory : Option Text) (lock : VerifiedServiceLock)
    (checkpointFile : Option Text) (h : Host) : Prop where
  within : directory = some lock.stateDirectory
  named : h.entry lock.stateDirectory = some (.regular lock.identity 1)
  shows : Shows p lock h
  placed : ∀ file, checkpointFile = some file → Placed paths file lock.stateDirectory

/-- What a process has where it starts to work, and what it owns if the launcher has started
it. -/
def ServiceProcess.Post (paths : Paths) (p : ℕ) (s : ServiceProcess)
    (out : Except ProcessExit Running) (h : Host) : Prop :=
  ∀ command lock checkpointFile, out = .ok (.holding command lock checkpointFile) →
    Begun paths p s.directory lock checkpointFile h ∧
      (s.launched = true → Holding paths p s.directory lock checkpointFile h)

/-- The process is secure in the host. The lock of one that the launcher has not started may be
lost again once it works. -/
def ServiceProcess.Safe (paths : Paths) (p : ℕ) (s : ServiceProcess) (h : Host) : Prop :=
  s.program.Secure (Spared p s.directory) (Answers paths p) (s.Post paths p) h

structure Machine.Invariant (paths : Paths) (m : Machine) : Prop where
  alive : ∀ p s, m.service p = some s → p < m.host.kernel.tables.length
  safe : ∀ p s, m.service p = some s → s.launched = true ∨ (∀ r, s.program ≠ .ret r) →
    s.Safe paths p m.host

def MachineInput.isRelink : MachineInput → Bool
  | .relink _ _ => true
  | _ => false

/-- The input takes no lock file away from a directory in which a relayer runs. -/
def MachineInput.Spares (m : Machine) : MachineInput → Prop
  | .relink directory _ => ∀ p s, m.service p = some s → s.directory ≠ some directory
  | _ => True

def Machine.launched (m : Machine) (p : ℕ) : Bool := (m.service p).any ServiceProcess.launched

/-- Every input of the run leaves the lock files that are in use. -/
def Undisturbed (paths : Paths) (is : List MachineInput) : Prop :=
  ∀ before i after, is = before ++ i :: after → i.Spares (runMachine paths before)

section Process

variable {paths : Paths} {p q : ℕ} {directory : Option Text} {h h' : Host}
  {lock : VerifiedServiceLock} {checkpointFile : Option Text} {s : ServiceProcess}

theorem Holding.begun (hh : Holding paths p directory lock checkpointFile h) :
    Begun paths p directory lock checkpointFile h := by
  obtain ⟨d, ho⟩ := hh.opened
  exact ⟨hh.directory, ho.named, ⟨LOCK_DESCRIPTOR, d, ho.descriptor, ho.description⟩, hh.placed⟩

/-- The lock of one that owns it is shown by no other process. -/
theorem Holding.exclusive {lock' : VerifiedServiceLock} (hne : p ≠ q)
    (hp : Holding paths p directory lock checkpointFile h) (hq : Shows q lock' h) :
    lock.identity ≠ lock'.identity := by
  obtain ⟨d, ho⟩ := hp.opened
  obtain ⟨fd, d', hd', hx'⟩ := hq
  have hholds := Kernel.description_holds hd'
  have hdd : d ≠ d' := by
    rintro rfl
    exact ho.own q (Ne.symm hne) hholds
  intro heq
  -- one of two locks on one file is not exclusive
  have hnone := h.kernel.exclusive d d' _ _ (Kernel.description_holds ho.descriptor).refers
    hholds.refers ho.description hx' hdd heq rfl
  cases hnone

/-- Two of them work in different directories, on different files. -/
theorem Holding.apart {directory' : Option Text} {lock' : VerifiedServiceLock}
    {checkpointFile' : Option Text} (hne : p ≠ q)
    (hp : Holding paths p directory lock checkpointFile h)
    (hq : Begun paths q directory' lock' checkpointFile' h) :
    lock.stateDirectory ≠ lock'.stateDirectory ∧ lock.identity ≠ lock'.identity ∧
      ∀ file file', checkpointFile = some file → checkpointFile' = some file' →
        paths.resolve file ≠ paths.resolve file' := by
  have hidentity := hp.exclusive hne hq.shows
  have hdirectory : lock.stateDirectory ≠ lock'.stateDirectory := by
    intro heq
    have hnamed := hp.begun.named
    rw [heq, hq.named] at hnamed
    injection hnamed with hentry
    injection hentry with hfile
    exact hidentity hfile.symm
  refine ⟨hdirectory, hidentity, fun file file' hfile hfile' heq => hdirectory ?_⟩
  have hplace := (hp.placed file hfile).directory
  rw [heq, (hq.placed file' hfile').directory] at hplace
  exact (Option.some.inj hplace).symm

theorem stable_post (hlaunched : s.launched = true) (out : Except ProcessExit Running) :
    Stable (Spared p s.directory) (s.Post paths p out) := by
  intro h h' hs hpost command lock checkpointFile hout
  have hholding := stable_holding h h' hs
    ((hpost command lock checkpointFile hout).2 hlaunched)
  exact ⟨hholding.begun, fun _ => hholding⟩

/-- What others do leaves a process secure, unless it works without the launcher. -/
theorem ServiceProcess.Safe.spared (hsafe : s.Safe paths p h)
    (hcase : s.launched = true ∨ ∀ r, s.program ≠ .ret r) (hs : Spared p s.directory h h') :
    s.Safe paths p h' := by
  rcases hcase with hlaunched | hunfinished
  · exact Secure.interfered hsafe (fun _ _ _ h₁ h₂ => h₁.trans h₂) (stable_post hlaunched) hs
  · unfold ServiceProcess.Safe at hsafe ⊢
    cases hprogram : s.program with
    | ret r => exact absurd hprogram (hunfinished r)
    | throw e => exact fun _ _ _ hout => (by cases hout)
    | read call k =>
      rw [hprogram] at hsafe
      exact fun w hw => hsafe w (hs.trans hw)

theorem safe_launched (arguments : List Text) (env : LaunchEnvironment)
    (hp : p < h.kernel.tables.length) :
    (ServiceProcess.mk true (stateDirectoryOf paths env) (relayer paths arguments env)).Safe
      paths p h := by
  refine (secure_relayer arguments rfl hp).mono fun out h hstarted => ?_
  intro command lock checkpointFile hout
  have hholding := hstarted command lock checkpointFile hout
  exact ⟨hholding.begun, fun _ => hholding⟩

theorem safe_bare (arguments : List Text) (env : LaunchEnvironment)
    (hp : p < h.kernel.tables.length) :
    (ServiceProcess.mk false (stateDirectoryOf paths env) (nodeMain paths arguments env)).Safe
      paths p h := by
  refine (secure_nodeMain stable_alive (fun _ hp => hp) arguments env hp).mono fun out h hout => ?_
  intro command lock checkpointFile hholding
  have hchecked := hout.2 command lock checkpointFile hholding
  have hwithin : stateDirectoryOf paths env = some lock.stateDirectory := hchecked.resolved
  exact ⟨⟨hwithin, hchecked.named hwithin, hchecked.shows, hchecked.placed⟩,
    fun hfalse => (by cases hfalse)⟩

theorem safe_started (launched : Bool) (arguments : List Text) (env : LaunchEnvironment)
    (hp : p < h.kernel.tables.length) :
    (ServiceProcess.mk launched (stateDirectoryOf paths env)
      (if launched then relayer paths arguments env else nodeMain paths arguments env)).Safe
        paths p h := by
  cases launched with
  | true => exact safe_launched arguments env hp
  | false => exact safe_bare arguments env hp

end Process

/-! Requests of other processes. -/

section Requests

variable {paths : Paths} {p q d : ℕ} {directory : Option Text} {h : Host} {dir : Text}
  {entry : LockEntry} {file : FileIdentity} {lock : VerifiedServiceLock}
  {checkpointFile : Option Text}

/-- A description that is not locked gets the lock if no other lock is in the way. -/
theorem requestLock_grants (ho : OpenedAt q d dir entry file none h) :
    (h.requestLock q).1 = h.kernel.grants d .exclusive := by
  rw [requestLock_eq ho.descriptor]
  have hfree : ¬ (h.kernel.descriptions[d]?).bind Description.lock = some .exclusive := by
    rw [ho.description]
    exact fun hnone => (by cases hnone)
  unfold Kernel.flock
  rw [if_neg hfree]
  split_ifs with hgrants
  · exact hgrants.symm
  · exact (Bool.eq_false_of_not_eq_true hgrants).symm

/-- While a process owns the lock, a request of another one is refused. -/
theorem Holding.refuses (hp : Holding paths p directory lock checkpointFile h) (hne : q ≠ p)
    (hq : q < h.kernel.tables.length) (create : Bool) (created : FileIdentity) :
    ((h.openLock q lock.stateDirectory create created).2.requestLock q).1 = false := by
  have hentry := hp.begun.named
  have hopen : (h.openLock q lock.stateDirectory create created).2 = h.openEntry q lock.identity := by
    unfold Host.openLock
    rw [hentry]
  rw [hopen, requestLock_grants (openedAt_openEntry hq hentry rfl), Bool.eq_false_iff]
  intro hgrants
  obtain ⟨d, ho⟩ := hp.opened
  -- the owner's description is still there
  have ho' : OpenedAt p d lock.stateDirectory (.regular lock.identity 1) lock.identity
      (some .exclusive) (h.openEntry q lock.identity) :=
    stable_openedAt hp.directory h _ (spared_perform hne (.openFile LOCK_DESCRIPTOR lock.identity)) ho
  have hlen : d ≠ h.kernel.descriptions.length :=
    (List.getElem?_eq_some_iff.mp ho.description).1.ne
  have hshared := Kernel.grants_iff.mp hgrants d _ _
    (Kernel.description_holds ho'.descriptor).refers (openedAt_openEntry hq hentry rfl).description
    ho'.description hlen rfl .exclusive rfl
  cases hshared.1

/-- Once the process has ended, whatever the others still have open, a request is granted. -/
theorem Holding.releases (hp : Holding paths p directory lock checkpointFile h) (hne : q ≠ p)
    (hq : q < h.kernel.tables.length) (create : Bool) (created : FileIdentity) :
    (((h.perform p .exit).openLock q lock.stateDirectory create created).2.requestLock q).1 =
      true := by
  have hentry : (h.perform p .exit).entry lock.stateDirectory = some (.regular lock.identity 1) :=
    hp.begun.named
  have hq' : q < (h.perform p .exit).kernel.tables.length :=
    hq.trans_le (Kernel.perform_running .exit)
  have hopen : ((h.perform p .exit).openLock q lock.stateDirectory create created).2 =
      (h.perform p .exit).openEntry q lock.identity := by
    unfold Host.openLock
    rw [hentry]
  rw [hopen, requestLock_grants (openedAt_openEntry hq' hentry rfl), Kernel.grants_iff]
  intro d' x x' hd' hx hx' hne' hinode held hheld
  rw [(openedAt_openEntry hq' hentry rfl).description] at hx
  obtain rfl := Option.some.inj hx
  obtain ⟨d, ho⟩ := hp.opened
  -- another description of the file was there before, beside the owner's
  have hold : Refers (h.perform p .exit).kernel.tables d' ∧ h.kernel.descriptions[d']? = some x' := by
    rcases Kernel.open_description hd' hx' with hold | ⟨heq, _⟩
    · exact hold
    · exact absurd heq hne'
  obtain ⟨r, e, he, hed⟩ := Kernel.refers_holds hold.1
  have hr : r ≠ p := by
    rintro rfl
    change e ∈ (h.kernel.tables.set r []).getD r [] at he
    have hlen : r < h.kernel.tables.length := ho.alive
    rw [Kernel.set_table_self [] hlen] at he
    cases he
  have hholds : h.kernel.Holds r d' := by
    refine ⟨e, ?_, hed⟩
    change e ∈ (h.kernel.tables.set p []).getD r [] at he
    rw [Kernel.set_table_of_ne _ _ hr] at he
    exact he
  have hdd : d ≠ d' := by
    rintro rfl
    exact ho.own r hr hholds
  have hnone := h.kernel.exclusive d d' _ _ (Kernel.description_holds ho.descriptor).refers
    hholds.refers ho.description hold.2 hdd hinode rfl
  rw [hnone] at hheld
  cases hheld

end Requests

/-! Steps. -/

section Steps

variable {paths : Paths} {p q : ℕ} {m m' : Machine} {s : ServiceProcess}

theorem lookup_without {κ ν : Type} [BEq κ] [LawfulBEq κ] (rows : List (κ × ν)) (k k' : κ)
    (h : k ≠ k') : (rows.filter fun row => row.1 != k').lookup k = rows.lookup k := by
  induction rows with
  | nil => rfl
  | cons row rows ih =>
    by_cases hrow : row.1 = k'
    · have hne : (k == row.1) = false := beq_false_of_ne (hrow ▸ h)
      rw [List.filter_cons_of_neg (by simp [hrow]), ih, List.lookup_cons, hne]
    · rw [List.filter_cons_of_pos (by simp [hrow]), List.lookup_cons, List.lookup_cons, ih]

theorem lookup_removed {κ ν : Type} [BEq κ] [LawfulBEq κ] (rows : List (κ × ν)) (k : κ) :
    (rows.filter fun row => row.1 != k).lookup k = none := by
  rw [List.lookup_eq_none_iff]
  rintro row hrow
  have hne : (row.1 != k) = true := (List.mem_filter.mp hrow).2
  rw [bne_iff_ne] at hne ⊢
  exact Ne.symm hne

theorem service_exit (m : Machine) (h : (m.exit p).service q = some s) :
    q ≠ p ∧ m.service q = some s := by
  change (dropService m.services p).lookup q = some s at h
  unfold dropService at h
  by_cases hq : q = p
  · rw [hq, lookup_removed] at h
    cases h
  · rw [lookup_without _ _ _ hq] at h
    exact ⟨hq, h⟩

theorem entry_setEntry {entries : List (Text × LockEntry)} {dir dir' : Text}
    (entry : Option LockEntry) (h : dir' ≠ dir) :
    (setEntry entries dir entry).lookup dir' = entries.lookup dir' := by
  unfold setEntry
  cases entry with
  | none => exact lookup_without _ _ _ h
  | some e =>
    change List.lookup dir' ((dir, e) :: _) = _
    rw [List.lookup_cons, beq_false_of_ne h]
    exact lookup_without _ _ _ h

/-- After a step a process is as it was, in a host that has been spared to it, or it has just
made a call or started, and is secure. -/
theorem step_service {i : MachineInput} (hm : m.Invariant paths) (hi : i.Spares m)
    (hstep : m.step paths i = some m') (hs : m'.service q = some s) :
    q < m'.host.kernel.tables.length ∧
      ((m.service q = some s ∧ Spared q s.directory m.host m'.host) ∨ s.Safe paths q m'.host) := by
  have hspared (hq : m.service q = some s) (hsp : Spared q s.directory m.host m'.host) :
      q < m'.host.kernel.tables.length ∧
        ((m.service q = some s ∧ Spared q s.directory m.host m'.host) ∨ s.Safe paths q m'.host) :=
    ⟨hsp.alive (hm.alive q s hq), Or.inl ⟨hq, hsp⟩⟩
  cases i with
  | start parent launched args env =>
    dsimp only [Machine.step] at hstep
    by_cases hparent : (m.service parent).isSome = true
    · rw [if_pos hparent] at hstep
      cases hstep
    · rw [if_neg hparent] at hstep
      obtain rfl := Option.some.inj hstep
      change List.lookup q ((m.host.kernel.tables.length, _) :: m.services) = some s at hs
      have hrunning : m.host.kernel.tables.length <
          (m.host.perform parent .fork).kernel.tables.length := by
        change _ < (m.host.kernel.tables ++ [_]).length
        rw [List.length_append]
        exact Nat.lt_succ_self _
      rw [List.lookup_cons] at hs
      split at hs
      · rename_i hq
        obtain rfl := eq_of_beq hq
        obtain rfl := Option.some.inj hs
        exact ⟨hrunning, Or.inr (safe_started launched args env hrunning)⟩
      · refine hspared hs (spared_perform ?_ .fork)
        rintro rfl
        exact hparent (Option.isSome_iff_exists.mpr ⟨s, hs⟩)
  | call p o =>
    obtain ⟨sp, hp, hadvance⟩ := Option.bind_eq_some_iff.mp hstep
    unfold Machine.advance at hadvance
    split at hadvance
    · cases hadvance
    · obtain rfl := Option.some.inj hadvance
      obtain ⟨hne, hq⟩ := service_exit m hs
      exact hspared hq (spared_perform (Ne.symm hne) .exit)
    · rename_i call k hprogram
      obtain ⟨r, hr, rfl⟩ := Option.map_eq_some_iff.mp hadvance
      have hanswer : Answers paths p call m.host r.1 r.2 := ⟨o, hr⟩
      change List.lookup q ((p, _) :: dropService m.services p) = some s at hs
      rw [List.lookup_cons] at hs
      split at hs
      · -- the process of the call
        rename_i hq
        obtain rfl := eq_of_beq hq
        obtain rfl := Option.some.inj hs
        have hsafe := hm.safe q sp hp (Or.inr fun r hret => (by rw [hprogram] at hret; cases hret))
        unfold ServiceProcess.Safe at hsafe
        rw [hprogram] at hsafe
        exact ⟨(hm.alive q sp hp).trans_le (answer_running hanswer),
          Or.inr (hsafe m.host (Spared.refl q sp.directory m.host) r.1 r.2 hanswer)⟩
      · rename_i hq
        have hne : q ≠ p := by simpa using hq
        unfold dropService at hs
        rw [lookup_without _ _ _ hne] at hs
        exact hspared hs (spared_answer (Ne.symm hne) hanswer)
  | foreign p c =>
    dsimp only [Machine.step] at hstep
    split_ifs at hstep with hp
    · obtain rfl := Option.some.inj hstep
      refine hspared hs (spared_perform ?_ c)
      rintro rfl
      exact hp (Option.isSome_iff_exists.mpr ⟨s, hs⟩)
  | kill p =>
    obtain rfl := Option.some.inj hstep
    obtain ⟨hne, hq⟩ := service_exit m hs
    exact hspared hq (spared_perform (Ne.symm hne) .exit)
  | relink dir entry =>
    obtain rfl := Option.some.inj hstep
    refine hspared hs ⟨id, fun _ => rfl, fun _ x hx => ⟨x, hx, rfl⟩, fun _ _ hp hx => ⟨hp, hx⟩, ?_⟩
    intro dir' e hdir' he
    have hne : dir' ≠ dir := by
      rintro rfl
      exact hi q s hs hdir'
    exact (entry_setEntry entry hne).trans he

theorem Machine.Invariant.next {i : MachineInput} (hm : m.Invariant paths) (hi : i.Spares m) :
    (m.next paths i).Invariant paths := by
  unfold Machine.next
  cases hstep : m.step paths i with
  | none => exact hm
  | some m' =>
    refine ⟨fun q s hs => (step_service hm hi hstep hs).1, fun q s hs hcase => ?_⟩
    rcases (step_service hm hi hstep hs).2 with ⟨hq, hspared⟩ | hsafe
    · exact (hm.safe q s hq hcase).spared hcase hspared
    · exact hsafe

end Steps

/-! Runs. -/

section Runs

variable {paths : Paths}

theorem runMachine_append (is : List MachineInput) (i : MachineInput) :
    runMachine paths (is ++ [i]) = (runMachine paths is).next paths i := by
  unfold runMachine
  rw [List.foldl_append]
  rfl

theorem Undisturbed.before {is : List MachineInput} {i : MachineInput}
    (h : Undisturbed paths (is ++ [i])) :
    Undisturbed paths is ∧ i.Spares (runMachine paths is) := by
  refine ⟨fun before j after hjs => h before j (after ++ [i]) ?_, h is i [] rfl⟩
  rw [hjs]
  simp

theorem invariant_runMachine {is : List MachineInput} (h : Undisturbed paths is) :
    (runMachine paths is).Invariant paths := by
  induction is using List.reverseRecOn with
  | nil => exact ⟨fun p s hs => (by cases hs), fun p s hs => (by cases hs)⟩
  | append_singleton is i ih =>
    rw [runMachine_append]
    exact (ih h.before.1).next h.before.2

variable {is : List MachineInput} {p q : ℕ} {command command' : CommandArguments}
  {lock lock' : VerifiedServiceLock} {checkpointFile checkpointFile' : Option Text}

theorem running_program {m : Machine} {r : Running} (h : m.running p = some r) :
    ∃ s, m.service p = some s ∧ s.program = .ret r := by
  obtain ⟨s, hs, hprogram⟩ := Option.bind_eq_some_iff.mp h
  split at hprogram
  · rename_i r' hret
    rw [Option.some.inj hprogram] at hret
    exact ⟨s, hs, hret⟩
  · cases hprogram

/-- What a launched process of a run holds. -/
theorem holding_runMachine (hundisturbed : Undisturbed paths is)
    (hlaunched : (runMachine paths is).launched p = true)
    (hrunning : (runMachine paths is).running p = some (.holding command lock checkpointFile)) :
    ∃ directory, Holding paths p directory lock checkpointFile (runMachine paths is).host := by
  obtain ⟨s, hs, hprogram⟩ := running_program hrunning
  have hl : s.launched = true := by
    unfold Machine.launched at hlaunched
    rw [hs] at hlaunched
    exact hlaunched
  have hsafe := (invariant_runMachine hundisturbed).safe p s hs (Or.inl hl)
  unfold ServiceProcess.Safe at hsafe
  rw [hprogram] at hsafe
  exact ⟨s.directory, (hsafe command lock checkpointFile rfl).2 hl⟩

/-- A run without changes of lock files by others. -/
theorem undisturbed_of_all (h : is.all (fun i => !i.isRelink) = true) : Undisturbed paths is := by
  rintro before i after rfl
  have hi : (!i.isRelink) = true := List.all_eq_true.mp h i (by simp)
  cases i with
  | relink dir entry => cases hi
  | _ => exact trivial

/-- In every run, two processes that the launcher has started and that work under the lock work
in different state directories, under locks of different files, on different checkpoints. -/
theorem service_exclusion (hundisturbed : Undisturbed paths is) (hne : p ≠ q)
    (hp : (runMachine paths is).launched p = true) (hq : (runMachine paths is).launched q = true)
    (hpr : (runMachine paths is).running p = some (.holding command lock checkpointFile))
    (hqr : (runMachine paths is).running q = some (.holding command' lock' checkpointFile')) :
    lock.stateDirectory ≠ lock'.stateDirectory ∧ lock.identity ≠ lock'.identity ∧
      ∀ file file', checkpointFile = some file → checkpointFile' = some file' →
        paths.resolve file ≠ paths.resolve file' := by
  obtain ⟨_, hholdp⟩ := holding_runMachine hundisturbed hp hpr
  obtain ⟨_, hholdq⟩ := holding_runMachine hundisturbed hq hqr
  exact hholdp.apart hne hholdq.begun

def plainPaths : Paths where
  resolve := id
  dirname := fun path => path.take 2
  basename := fun path => path.drop 3
  realpath := some
  realpath_idem := fun _ _ _ => rfl

def quietOracle (ino : ℕ) : Oracle where
  fails := false
  disturbs := false
  version := text "util-linux"
  exitStatus := 0
  directory := ⟨true, 0⟩
  file := none
  created := ⟨1, ino⟩
  names := []
  kernelEntry := ⟨[], 1, 1, text "00:1", []⟩

/-- A daemon that the launcher starts as process `p`, up to its work. -/
def launchInputs (p : ℕ) (stateDir checkpointFile : Text) : List MachineInput :=
  .start 0 true [text "daemon", text "--network-config", text "n"]
      ⟨true, some stateDir, some checkpointFile⟩ :: List.replicate 19 (.call p (quietOracle p))

def twoDaemons : List MachineInput :=
  launchInputs 1 (text "/a") (text "/a/c") ++ launchInputs 2 (text "/b") (text "/b/c")

theorem undisturbed_twoDaemons : Undisturbed plainPaths twoDaemons :=
  undisturbed_of_all (by decide)

theorem service_exclusion_two_daemons :
    text "/a" ≠ text "/b" ∧ (⟨1, 1⟩ : FileIdentity) ≠ ⟨1, 2⟩ ∧
      ∀ file file', some (text "/a/c") = some file → some (text "/b/c") = some file' →
        plainPaths.resolve file ≠ plainPaths.resolve file' := by
  have hfirst : (runMachine plainPaths twoDaemons).running 1 = some (.holding
      (.daemon (.custom (text "n"))) ⟨text "/a", ⟨1, 1⟩⟩ (some (text "/a/c"))) := by
    decide +kernel
  have hsecond : (runMachine plainPaths twoDaemons).running 2 = some (.holding
      (.daemon (.custom (text "n"))) ⟨text "/b", ⟨1, 2⟩⟩ (some (text "/b/c"))) := by
    decide +kernel
  exact service_exclusion undisturbed_twoDaemons (by decide) (by decide +kernel)
    (by decide +kernel) hfirst hsecond

/-- The lock lasts as long as the process: while it works, no other process gets the lock on the
lock file, and when it has been killed, any other process gets it. -/
theorem lock_lasts (hundisturbed : Undisturbed paths is)
    (hp : (runMachine paths is).launched p = true)
    (hpr : (runMachine paths is).running p = some (.holding command lock checkpointFile))
    (hne : q ≠ p) (hq : q < (runMachine paths is).host.kernel.tables.length) (create : Bool)
    (created : FileIdentity) :
    (((runMachine paths is).host.openLock q lock.stateDirectory create created).2.requestLock q).1 =
        false ∧
      (((runMachine paths (is ++ [.kill p])).host.openLock q lock.stateDirectory create
        created).2.requestLock q).1 = true := by
  obtain ⟨_, hholding⟩ := holding_runMachine hundisturbed hp hpr
  rw [runMachine_append]
  exact ⟨hholding.refuses hne hq create created, hholding.releases hne hq create created⟩

theorem lock_lasts_daemon :
    (((runMachine plainPaths twoDaemons).host.openLock 0 (text "/a") true ⟨1, 3⟩).2.requestLock
        0).1 = false ∧
      (((runMachine plainPaths (twoDaemons ++ [.kill 1])).host.openLock 0 (text "/a") true
        ⟨1, 3⟩).2.requestLock 0).1 = true := by
  have hrunning : (runMachine plainPaths twoDaemons).running 1 = some (.holding
      (.daemon (.custom (text "n"))) ⟨text "/a", ⟨1, 1⟩⟩ (some (text "/a/c"))) := by
    decide +kernel
  exact lock_lasts undisturbed_twoDaemons (by decide +kernel) hrunning (by decide)
    (by decide +kernel) true ⟨1, 3⟩

end Runs

end Quicknet.Service
