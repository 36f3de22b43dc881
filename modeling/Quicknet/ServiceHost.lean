import Quicknet.Library.FileLock
import Quicknet.Library.Interference
import Quicknet.ServiceLauncher

/-! A host on which relayers and other processes run side by side. Each step is one call of
one process, and what the environment decides about it is part of the step. -/
namespace Quicknet.Service
open Json (Text text)
open Interaction (Prog)
open FileLock (Kernel LockMode Description)

/-! Kernel entries of descriptors. -/

/-- A line about anything but the locks of the `flock` call. -/
def isOtherLine (line : Text) : Bool :=
  !line.contains (Json.unit '\n') &&
    (!decide (text "lock:" <+: line) || (splitFields line)[2]? != some (text "FLOCK"))

/-- What the kernel writes beside the mode of a lock. -/
structure KernelEntry where
  before : List Text
  ordinal : ℕ
  pid : ℕ
  device : Text
  after : List Text

def KernelEntry.Valid (e : KernelEntry) : Prop :=
  e.before.all isOtherLine = true ∧ e.after.all isOtherLine = true ∧ e.device.isEmpty = false ∧
    e.device.all (fun c => !isBlank c && c != Json.unit '\n') = true

instance (e : KernelEntry) : Decidable e.Valid :=
  inferInstanceAs (Decidable (_ = true ∧ _ = true ∧ _ = false ∧ _ = true))

def modeName : LockMode → Text
  | .exclusive => text "WRITE"
  | .shared => text "READ"

def KernelEntry.lockLine (e : KernelEntry) (mode : LockMode) : Text :=
  text "lock:\t" ++ Json.decimal e.ordinal ++ text ": FLOCK  ADVISORY  " ++ modeName mode ++
    text " " ++ Json.decimal e.pid ++ text " " ++ e.device ++ text " 0 EOF"

def KernelEntry.lines (e : KernelEntry) (lock : Option LockMode) : List Text :=
  e.before ++ (lock.map e.lockLine).toList ++ e.after

/-- Each line ends in a line feed. -/
def KernelEntry.render (e : KernelEntry) (lock : Option LockMode) : Text :=
  (e.lines lock).flatMap fun line => line ++ [Json.unit '\n']

/-! The host. -/

/-- What the name of the lock file refers to in a state directory. -/
inductive LockEntry
  | regular (file : FileIdentity) (links : ℕ)
  | symlink (target : FileIdentity)
  | other
  deriving DecidableEq

structure Host where
  kernel : Kernel FileIdentity
  entries : List (Text × LockEntry)

def Host.entry (h : Host) (directory : Text) : Option LockEntry := h.entries.lookup directory

/-- What the environment decides about a call. -/
structure Oracle where
  fails : Bool
  disturbs : Bool
  version : Text
  exitStatus : ℕ
  directory : DirectoryStatus
  file : Option FileStatus
  created : FileIdentity
  names : List Text
  kernelEntry : KernelEntry

/-- The descriptor on which the launcher opens the lock file. -/
def LOCK_DESCRIPTOR : ℕ := 9

def Host.openEntry (h : Host) (p : ℕ) (file : FileIdentity) : Host :=
  { h with kernel := h.kernel.opened p LOCK_DESCRIPTOR file }

/-- Opening the lock file by its name. -/
def Host.openLock (h : Host) (p : ℕ) (directory : Text) (create : Bool) (created : FileIdentity) :
    Bool × Host :=
  match h.entry directory with
  | some (.regular file _) => (true, h.openEntry p file)
  | some (.symlink target) => (true, h.openEntry p target)
  | some .other => (false, h)
  | none =>
    if create then
      (true, { h with entries := (directory, .regular created 1) :: h.entries }.openEntry p created)
    else (false, h)

def Host.requestLock (h : Host) (p : ℕ) : Bool × Host :=
  let r := h.kernel.perform p (.flock LOCK_DESCRIPTOR .exclusive)
  (r.1, { h with kernel := r.2 })

/-- The description that a descriptor of the process refers to. -/
def Host.description? (h : Host) (p fd : ℕ) : Option (Description FileIdentity) :=
  (h.kernel.description? p fd).bind fun d => h.kernel.descriptions[d]?

def LockEntry.status : LockEntry → FileIdentity → FileStatus
  | .regular file links, _ => ⟨true, links, file⟩
  | .symlink _, own => ⟨false, 1, own⟩
  | .other, own => ⟨false, 1, own⟩

/-- A call that fails, or finds nothing, answers with an error. -/
def systemReply {α : Type} (fails : Bool) (absent : Errno) (found : Option α) : Except Errno α :=
  if fails then .error .other else found.elim (.error absent) .ok

theorem systemReply_ok {α : Type} {fails : Bool} {absent : Errno} {found : Option α} {a : α}
    (h : systemReply fails absent found = .ok a) : found = some a := by
  unfold systemReply at h
  split_ifs at h
  cases found with
  | none => cases h
  | some b => exact congrArg some (Except.ok.inj h)

section Answers

variable (paths : Paths)

/-- The answer to a call of process `p` and the host after it. A kernel entry has to be one
that the kernel could write. -/
def Host.answer (h : Host) (p : ℕ) (o : Oracle) : (q : SystemCall) → Option (q.Reply × Host)
  | .flockVersion => some (if o.fails then none else some o.version, h)
  | .makeDirectory _ => some (!o.fails, h)
  | .enterDirectory path =>
    some (if o.fails then none else paths.realpath (paths.resolve path), h)
  | .isSymlink directory =>
    some (match h.entry directory with | some (.symlink _) => true | _ => false, h)
  | .isRegular directory =>
    some (match h.entry directory with
      | some (.regular _ _) => true
      | some (.symlink _) => !o.fails
      | _ => false, h)
  | .linkCount directory =>
    some (if o.fails then none
      else (h.entry directory).map fun entry => (entry.status o.created).nlink, h)
  | .openLock directory create =>
    some (if o.fails then (false, h) else h.openLock p directory create o.created)
  | .requestLock =>
    -- the command may end in an error after it has taken the lock
    if o.fails then
      some ((o.exitStatus + 1 : ℕ), if o.disturbs then (h.requestLock p).2 else h)
    else
      let r := h.requestLock p
      some ((if r.1 then 0 else LOCK_CONFLICT : ℕ), r.2)
  | .closeLock => some ((), { h with kernel := (h.kernel.perform p (.close LOCK_DESCRIPTOR)).2 })
  | .realpath path => some (systemReply o.fails .missing (paths.realpath path), h)
  | .stat _ => some (systemReply o.fails .other (some o.directory), h)
  | .lstat directory name =>
    some (systemReply o.fails .missing
      (if name = LOCK_FILENAME then (h.entry directory).map fun entry => entry.status o.created
        else o.file), h)
  | .readDescriptors =>
    some (systemReply o.fails .other
      (some ((h.kernel.table p).map (fun e => Json.decimal e.1) ++ o.names)), h)
  | .fstat fd =>
    some (systemReply o.fails .other ((h.description? p fd).map Description.inode), h)
  | .fdinfo fd =>
    if o.kernelEntry.Valid then
      some (systemReply o.fails .missing
        ((h.description? p fd).map fun x => o.kernelEntry.render x.lock), h)
    else none

/-- The answers that a call of process `p` may be given. -/
def Answers (p : ℕ) (q : SystemCall) (h : Host) (r : q.Reply) (h' : Host) : Prop :=
  ∃ o, h.answer paths p o q = some (r, h')

/-! Steps. -/

/-- A relayer's process. One that is not started by the launcher is the bare program. -/
structure ServiceProcess where
  launched : Bool
  directory : Option Text
  program : Calls ProcessExit Running

structure Machine where
  host : Host
  services : List (ℕ × ServiceProcess)

inductive MachineInput
  | start (parent : ℕ) (launched : Bool) (args : List Text) (env : LaunchEnvironment)
  | call (p : ℕ) (o : Oracle)
  | foreign (p : ℕ) (c : FileLock.Call FileIdentity)
  | kill (p : ℕ)
  | relink (directory : Text) (entry : Option LockEntry)

def Host.perform (h : Host) (p : ℕ) (c : FileLock.Call FileIdentity) : Host :=
  { h with kernel := (h.kernel.perform p c).2 }

def setEntry (entries : List (Text × LockEntry)) (directory : Text) (entry : Option LockEntry) :
    List (Text × LockEntry) :=
  (entry.map fun e => (directory, e)).toList ++ entries.filter fun e => e.1 != directory

def Machine.service (m : Machine) (p : ℕ) : Option ServiceProcess := m.services.lookup p

def Machine.running (m : Machine) (p : ℕ) : Option Running :=
  (m.service p).bind fun s => match s.program with | .ret r => some r | _ => none

def dropService (services : List (ℕ × ServiceProcess)) (p : ℕ) : List (ℕ × ServiceProcess) :=
  services.filter fun s => s.1 != p

/-- The state directory of a process, by its environment. -/
def stateDirectoryOf (env : LaunchEnvironment) : Option Text :=
  paths.realpath (paths.resolve (env.stateDir.getD (text "./state")))

def Machine.exit (m : Machine) (p : ℕ) : Machine :=
  ⟨m.host.perform p .exit, dropService m.services p⟩

/-- The next call of a relayer's process. Where it throws, the process exits. -/
def Machine.advance (m : Machine) (p : ℕ) (s : ServiceProcess) (o : Oracle) : Option Machine :=
  match s.program with
  | .ret _ => none
  | .throw _ => some (m.exit p)
  | .read q k => (m.host.answer paths p o q).map fun r =>
      ⟨r.2, (p, { s with program := k r.1 }) :: dropService m.services p⟩

def Machine.step (m : Machine) : MachineInput → Option Machine
  | .start parent launched args env =>
    if (m.service parent).isSome then none
    else
      let program := if launched then relayer paths args env else nodeMain paths args env
      some ⟨m.host.perform parent .fork,
        (m.host.kernel.tables.length, ⟨launched, stateDirectoryOf paths env, program⟩) :: m.services⟩
  | .call p o => (m.service p).bind fun s => m.advance paths p s o
  | .foreign p c =>
    if (m.service p).isSome then none else some { m with host := m.host.perform p c }
  | .kill p => some (m.exit p)
  | .relink directory entry =>
    some { m with host := { m.host with entries := setEntry m.host.entries directory entry } }

theorem not_refers_empty (d : ℕ) : ¬ FileLock.Refers [[]] d := by
  rintro ⟨t, ht, e, he, _⟩
  rw [List.mem_singleton] at ht
  subst ht
  cases he

def emptyKernel : Kernel FileIdentity where
  descriptions := []
  tables := [[]]
  bounded := fun d hd => absurd hd (not_refers_empty d)
  exclusive := fun d _ _ _ hd => absurd hd (not_refers_empty d)

/-- A host with one process and no lock file, whose relayers start later. -/
def Machine.init : Machine := ⟨⟨emptyKernel, []⟩, []⟩

def Machine.next (m : Machine) (i : MachineInput) : Machine := (m.step paths i).getD m

def runMachine (is : List MachineInput) : Machine := is.foldl (Machine.next paths) Machine.init

end Answers

end Quicknet.Service
