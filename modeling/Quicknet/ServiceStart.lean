import Quicknet.ServiceHolding

/-! What the launcher starts. The program that it becomes runs a command of the journal only
under the lock that the launcher has taken; its other commands need none. -/
namespace Quicknet.Service
open Json (Text text)
open Interaction (Prog)
open Interaction.Prog (Secure Stable)
open FileLock (Kernel LockMode Description)
open Quicknet.Cli

/-- The commands that run without the lock. -/
def Lockless (args : List Text) : Prop :=
  ∀ command, parseCommandArguments (normalizeArguments args) = .ok command →
    command = .help ∨ command = .daemonHelp ∨
      ∃ identity maxAgeMs, command = .status (.daemonSnapshot identity maxAgeMs)

/-- What is known of a process of the launcher where it has started. -/
def Started (paths : Paths) (p : ℕ) (directory : Option Text) (out : Except ProcessExit Running)
    (h : Host) : Prop :=
  ∀ command lock checkpointFile, out = .ok (.holding command lock checkpointFile) →
    Holding paths p directory lock checkpointFile h

section Start

variable {paths : Paths} {p : ℕ} {directory : Option Text} {h : Host}

theorem started_error (e : ProcessExit) : Started paths p directory (.error e) h :=
  fun _ _ _ hout => (by cases hout)

theorem secure_lockless {args : List Text} (hargs : Lockless args) (env : LaunchEnvironment) :
    (nodeMain paths args env).Secure (Spared p directory) (Answers paths p)
      (Started paths p directory) h := by
  unfold nodeMain
  split
  · exact started_error _
  · rename_i command hparse
    rcases hargs command hparse with rfl | rfl | ⟨identity, maxAgeMs, rfl⟩
    · exact fun _ _ _ hout => (by cases hout)
    · exact fun _ _ _ hout => (by cases hout)
    · exact fun _ _ _ hout => (by cases hout)

/-- The program under a lock that the launcher has taken in its state directory. -/
theorem secure_locked {path dir : Text} {d : ℕ} {entry : LockEntry} {file : FileIdentity}
    (hreal : paths.realpath path = some dir) (hdir : directory = some dir) (args : List Text)
    (env : LaunchEnvironment) (ho : OpenedAt p d dir entry file (some .exclusive) h) :
    (nodeMain paths args { env with stateDir := some dir }).Secure (Spared p directory)
      (Answers paths p) (Started paths p directory) h := by
  refine (secure_nodeMain (stable_openedAt hdir) (fun _ ho => ho.alive) args _ ho).mono ?_
  rintro out h ⟨ho, hverified⟩ command lock checkpointFile hout
  have hchecked := hverified command lock checkpointFile hout
  have hsame : lock.stateDirectory = dir := by
    have heq := hchecked.resolved.symm.trans (paths.realpath_idem path dir hreal)
    exact Option.some.inj heq
  -- the name refers to the file that the launcher has opened
  have hentry : entry = .regular lock.identity 1 := by
    have hnamed := hchecked.named (by rw [hdir, hsame])
    rw [hsame] at hnamed
    exact Option.some.inj (ho.named.symm.trans hnamed)
  have hfile : file = lock.identity := by
    have htarget := ho.target
    rw [hentry] at htarget
    exact (Option.some.inj htarget).symm
  subst hfile
  subst hentry
  rw [← hsame] at ho hdir
  exact ⟨hdir, ⟨d, ho⟩, hchecked.placed⟩

/-! The steps of the launcher, in a process that keeps running. -/

theorem secure_query (call : SystemCall) (hc : ¬ call.Changes) (hp : p < h.kernel.tables.length) :
    (Prog.ask call : Calls ProcessExit call.Reply).Secure (Spared p directory) (Answers paths p)
      (fun out h => p < h.kernel.tables.length ∧ ∀ r, out = .ok r → Answers paths p call h r h) h := by
  refine Prog.secure_ask stable_alive hp fun h r h' hp ha => ?_
  obtain rfl := answer_readOnly hc ha
  exact ⟨hp, fun r' hr => Except.ok.inj hr ▸ ha⟩

theorem secure_require (holds : Bool) (hp : p < h.kernel.tables.length) :
    (require holds).Secure (Spared p directory) (Answers paths p)
      (fun _ h => p < h.kernel.tables.length) h := by
  unfold require
  split_ifs
  · exact hp
  · exact hp

theorem secure_requireFlock (hp : p < h.kernel.tables.length) :
    requireFlock.Secure (Spared p directory) (Answers paths p)
      (fun _ h => p < h.kernel.tables.length) h := by
  unfold requireFlock
  refine (secure_query .flockVersion id hp).bind (fun version h hpost => ?_)
    fun _ _ hpost => hpost.1
  split_ifs
  · exact hpost.1
  · exact hpost.1

/-- The directory that is entered is the one of the environment. -/
theorem secure_enterDirectory {env : LaunchEnvironment} {path : Text}
    (hpath : configuredDirectory env = .ok path) (hp : p < h.kernel.tables.length) :
    (enterDirectory path).Secure (Spared p directory) (Answers paths p)
      (fun out h => p < h.kernel.tables.length ∧
        ∀ dir, out = .ok dir → stateDirectoryOf paths env = some dir) h := by
  unfold enterDirectory
  refine (secure_query (.enterDirectory path) id hp).bind (fun entered h hpost => ?_)
    fun _ _ hpost => ⟨hpost.1, fun _ hout => (by cases hout)⟩
  cases entered with
  | none => exact ⟨hpost.1, fun _ hout => (by cases hout)⟩
  | some dir =>
    refine ⟨hpost.1, fun dir' hout => ?_⟩
    obtain rfl := Except.ok.inj hout
    obtain ⟨o, ho⟩ := hpost.2 _ rfl
    have hfound : (if o.fails then none else paths.realpath (paths.resolve path)) = some dir :=
      (Prod.mk.inj (Option.some.inj ho)).1
    unfold configuredDirectory at hpath
    dsimp only at hpath
    split_ifs at hpath hfound
    unfold stateDirectoryOf
    rw [Except.ok.inj hpath]
    exact hfound

theorem secure_makeDirectory (path : Text) (hp : p < h.kernel.tables.length) :
    (makeDirectory path).Secure (Spared p directory) (Answers paths p)
      (fun _ h => p < h.kernel.tables.length) h :=
  (secure_query (.makeDirectory path) id hp).bind (fun made _ hpost => secure_require made hpost.1)
    fun _ _ hpost => hpost.1

theorem secure_checkLockFile (dir : Text) (hp : p < h.kernel.tables.length) :
    (checkLockFile dir).Secure (Spared p directory) (Answers paths p)
      (fun _ h => p < h.kernel.tables.length) h := by
  unfold checkLockFile
  refine (secure_query (.isSymlink dir) id hp).bind (fun symlink h hpost => ?_)
    fun _ _ hpost => hpost.1
  refine (secure_require (!symlink) hpost.1).bind (fun _ h hp => ?_) fun _ _ hp => hp
  refine (secure_query (.isRegular dir) id hp).bind (fun regular h hpost => ?_)
    fun _ _ hpost => hpost.1
  refine (secure_require regular hpost.1).bind (fun _ h hp => ?_) fun _ _ hp => hp
  exact (secure_query (.linkCount dir) id hp).bind
    (fun (links : Option ℕ) _ hpost => secure_require (links == some 1) hpost.1)
      fun _ _ hpost => hpost.1

theorem secure_openLock (dir : Text) (create : Bool) (hp : p < h.kernel.tables.length) :
    (openLock dir create).Secure (Spared p directory) (Answers paths p)
      (fun out h => out = .ok () → ∃ d entry file, OpenedAt p d dir entry file none h) h := by
  unfold openLock
  intro h₁ hs opened h₂ hopened
  have hp₁ := hs.alive hp
  cases opened with
  | false => exact fun hout => (by cases hout)
  | true =>
    intro _
    rcases answer_openLock hopened with ⟨hfalse, _⟩ | ⟨created, ho⟩
    · cases hfalse
    · exact openedAt_openLock hp₁ ho

/-- The lock is the process's own where the request has succeeded. -/
theorem secure_requestLock {dir : Text} {d : ℕ} {entry : LockEntry} {file : FileIdentity}
    (hdir : directory = some dir) (ho : OpenedAt p d dir entry file none h) :
    requestLock.Secure (Spared p directory) (Answers paths p)
      (fun out h => out = .ok 0 → OpenedAt p d dir entry file (some .exclusive) h) h := by
  refine Prog.secure_ask (stable_openedAt hdir) ho fun h code h' ho ha hcode => ?_
  rcases answer_requestLock ha with ⟨hne, _⟩ | ⟨_, hlock, rfl⟩
  · exact absurd (Except.ok.inj hcode) hne
  · exact openedAt_requestLock ho hlock

/-! The branches of the launcher. -/

theorem lockless_help {args : List Text} (hhelp : helpRequested (normalizeArguments args) = true) :
    Lockless args := by
  intro command hparse
  unfold parseCommandArguments at hparse
  rw [if_pos hhelp] at hparse
  have heq := (Except.ok.inj hparse).symm
  split_ifs at heq
  · exact Or.inr (Or.inl heq)
  · exact Or.inl heq

theorem lockless_command {name : Text} (rest : List Text) (h : name = [] ∨ name = text "help") :
    Lockless (name :: rest) := by
  have hplain : normalizeArguments (name :: rest) = name :: rest := by
    unfold normalizeArguments
    rw [if_neg]
    rw [List.head?_cons, Option.some.injEq]
    rcases h with rfl | rfl <;> decide
  by_cases hhelp : helpRequested (normalizeArguments (name :: rest)) = true
  · exact lockless_help hhelp
  · intro command hparse
    unfold parseCommandArguments at hparse
    rw [if_neg hhelp, hplain] at hparse
    dsimp only at hparse
    rcases h with rfl | rfl
    · rw [if_neg (by decide), if_neg (by decide), if_neg (by decide), if_neg (by decide),
        if_neg (by decide), if_neg (by decide)] at hparse
      cases hparse
    · rw [if_pos rfl] at hparse
      exact Or.inl (Except.ok.inj hparse).symm

theorem helpRequested_normalize {args : List Text} (h : helpRequested args = true) :
    helpRequested (normalizeArguments args) = true := by
  unfold normalizeArguments
  split_ifs with hhead
  · obtain ⟨rest, rfl⟩ : ∃ rest, args = text "--" :: rest := by
      cases args with
      | nil => cases hhead
      | cons word rest => exact ⟨rest, by rw [Option.some.inj hhead]⟩
    simp only [helpRequested, Bool.or_eq_true, List.contains_cons, List.drop_one, List.tail_cons,
      beq_iff_eq, (by decide : text "--help" ≠ text "--"), (by decide : text "-h" ≠ text "--"),
      false_or] at h ⊢
    exact h
  · exact h

theorem lockless_status {args : List Text}
    (hhelp : helpRequested (text "status" :: args) = false)
    (hsource : ∀ config, parseStatusArguments args = .ok (.status config) →
      statusSource config = .daemonSnapshot) : Lockless (text "status" :: args) := by
  intro command hparse
  rw [normalize_status] at hparse
  have hstatus := parse_status hparse hhelp
  obtain ⟨config, rfl, _⟩ := parseStatusArguments_ok_iff.mp hstatus
  have hsnapshot := hsource config hstatus
  cases config with
  | journal identity => cases hsnapshot
  | daemonSnapshot identity maxAgeMs => exact Or.inr (Or.inr ⟨identity, maxAgeMs, rfl⟩)

/-- Where the inspection refuses the arguments, so does the program. -/
theorem lockless_refused {args : List Text} (hhelp : helpRequested (text "status" :: args) = false)
    (h : inspectStatusArguments args = none) : Lockless (text "status" :: args) :=
  lockless_status hhelp fun config hconfig => by
    rw [inspect_of_parse hconfig] at h
    cases h

theorem lockless_snapshot {args : List Text} (hhelp : helpRequested (text "status" :: args) = false)
    (h : inspectStatusArguments args = some (some .daemonSnapshot)) :
    Lockless (text "status" :: args) :=
  lockless_status hhelp fun config hconfig => by
    rw [inspect_of_parse hconfig] at h
    exact Option.some.inj (Option.some.inj h)

theorem secure_launchStatus {args : List Text} {source : Option StatusSource}
    {env : LaunchEnvironment} (hdirectory : directory = stateDirectoryOf paths env)
    (hhelp : helpRequested (text "status" :: args) = false)
    (hsource : inspectStatusArguments args = some source) (hp : p < h.kernel.tables.length) :
    (launchStatus paths (text "status" :: args) source env).Secure (Spared p directory)
      (Answers paths p) (Started paths p directory) h := by
  unfold launchStatus
  simp only [Prog.bind_eq]
  refine (secure_requireFlock hp).bind (fun _ h hp => ?_) fun e _ _ => started_error e
  cases hpath : configuredDirectory env with
  | error e => exact started_error e
  | ok path =>
    change ((enterDirectory path).bind _).Secure _ _ _ h
    refine (secure_enterDirectory hpath hp).bind (fun dir h hpost => ?_)
      fun e _ _ => started_error e
    have hdir : directory = some dir := hdirectory.trans (hpost.2 dir rfl)
    have hreal := hpost.2 dir rfl
    refine (secure_checkLockFile dir hpost.1).bind (fun _ h hp => ?_) fun e _ _ => started_error e
    refine (secure_openLock dir false hp).bind (fun _ h hopen => ?_) fun e _ _ => started_error e
    obtain ⟨d, entry, file, ho⟩ := hopen rfl
    refine (secure_requestLock hdir ho).bind (fun code h hlock => ?_) fun e _ _ => started_error e
    split_ifs with hcode hsource' hauto
    · exact secure_locked hreal hdir _ env (hlock (congrArg Except.ok hcode))
    · exact secure_locked hreal hdir _ env (hlock (congrArg Except.ok hcode))
    · -- without the lock, the snapshot of the daemon is read
      intro h₁ _ _ h₂ _
      rw [hauto.1] at hsource
      have hargs : Lockless (text "status" :: (args ++ sourceArguments .daemonSnapshot)) :=
        lockless_snapshot (help_append hhelp) (inspect_append hsource)
      exact secure_lockless hargs _
    · exact fun h₁ _ _ h₂ _ => started_error _

theorem secure_launchService {env : LaunchEnvironment}
    (hdirectory : directory = stateDirectoryOf paths env) (args : List Text)
    (hp : p < h.kernel.tables.length) :
    (launchService paths args env).Secure (Spared p directory) (Answers paths p)
      (Started paths p directory) h := by
  unfold launchService
  simp only [Prog.bind_eq]
  refine (secure_requireFlock hp).bind (fun _ h hp => ?_) fun e _ _ => started_error e
  cases hpath : configuredDirectory env with
  | error e => exact started_error e
  | ok path =>
    change ((makeDirectory path).bind _).Secure _ _ _ h
    refine (secure_makeDirectory path hp).bind (fun _ h hp => ?_) fun e _ _ => started_error e
    refine (secure_enterDirectory hpath hp).bind (fun dir h hpost => ?_)
      fun e _ _ => started_error e
    have hdir : directory = some dir := hdirectory.trans (hpost.2 dir rfl)
    have hreal := hpost.2 dir rfl
    refine (secure_openLock dir true hpost.1).bind (fun _ h hopen => ?_)
      fun e _ _ => started_error e
    obtain ⟨d, entry, file, ho⟩ := hopen rfl
    refine (secure_requestLock hdir ho).bind (fun code h hlock => ?_) fun e _ _ => started_error e
    split_ifs with hcode
    · exact secure_locked hreal hdir args env (hlock (congrArg Except.ok hcode))
    · exact started_error _

theorem secure_relayer (arguments : List Text) {env : LaunchEnvironment}
    (hdirectory : directory = stateDirectoryOf paths env) (hp : p < h.kernel.tables.length) :
    (relayer paths arguments env).Secure (Spared p directory) (Answers paths p)
      (Started paths p directory) h := by
  unfold relayer
  dsimp only
  split
  · rename_i hargs
    rw [hargs]
    refine secure_lockless (fun command hparse => ?_) env
    have hhelp : Except.ok .help = Except.ok command := hparse
    exact Or.inl (Except.ok.inj hhelp).symm
  · rename_i command rest hargs
    split_ifs with hplain hstatus
    · rw [hargs]
      refine secure_lockless ?_ env
      rcases hplain with hempty | hhelp | hrequested
      · exact lockless_command rest (Or.inl (List.isEmpty_iff.mp hempty))
      · exact lockless_command rest (Or.inr hhelp)
      · exact lockless_help (helpRequested_normalize (hargs ▸ hrequested))
    · rw [hargs] at hplain ⊢
      subst hstatus
      have hhelp : helpRequested (text "status" :: rest) = false := by
        rw [← Bool.not_eq_true]
        exact fun h => hplain (Or.inr (Or.inr h))
      split
      · rename_i hnone
        exact secure_lockless (lockless_refused hhelp hnone) env
      · rename_i hsnapshot
        exact secure_lockless (lockless_snapshot hhelp hsnapshot) env
      · rename_i source _ _ hsource
        exact secure_launchStatus hdirectory hhelp hsource hp
    · exact secure_launchService hdirectory _ hp

end Start

end Quicknet.Service
