import Quicknet.Library.Attempt
import Quicknet.CheckpointText
import Quicknet.TextScrubber

/-! The check that a process owns the service lock. It reads the descriptors of the process
one by one and accepts the first that refers to the lock file and shows an exclusive lock in
the text of its kernel entry. -/
namespace Quicknet.Service
open Json (Text text unit)
open Interaction (Prog)
open Quicknet.Daemon (isDecimalInteger)

def LOCK_FILENAME : Text := text "relayer.flock"
def DAEMON_STATUS_FILENAME : Text := text "daemon-status.json"

inductive ServiceLockReason
  | platform
  | stateDirectory
  | lockFile
  | descriptor
  deriving DecidableEq

structure FileIdentity where
  dev : ℕ
  ino : ℕ
  deriving DecidableEq

structure VerifiedServiceLock where
  stateDirectory : Text
  identity : FileIdentity
  deriving DecidableEq

/-! The text of a descriptor's kernel entry. -/

def isBlank (c : UInt16) : Bool := c == unit ' ' || c == 0x09

/-- `splitFields`, with the field that is being read. -/
def splitFieldsFrom (current : Text) : Text → List Text
  | [] => if current.isEmpty then [] else [current]
  | c :: rest =>
    if isBlank c then
      if current.isEmpty then splitFieldsFrom [] rest else current :: splitFieldsFrom [] rest
    else splitFieldsFrom (current ++ [c]) rest

def splitFields (line : Text) : List Text := splitFieldsFrom [] line

def isExclusiveFlock (line : Text) : Bool :=
  decide (text "lock:" <+: line) &&
    let fields := splitFields line
    fields.length == 9 && fields[0]? == some (text "lock:") && fields[2]? == some (text "FLOCK") &&
      fields[3]? == some (text "ADVISORY") && fields[4]? == some (text "WRITE") &&
      fields[7]? == some (text "0") && fields[8]? == some (text "EOF")

def hasExclusiveFlock (fdinfo : Text) : Bool :=
  (fdinfo.splitOn (unit '\n')).any isExclusiveFlock

/-- A decimal name with a safe value; the value of a longer one is not safe after rounding. -/
def descriptorNumber (name : Text) : Option ℕ :=
  if isDecimalInteger name ∧ Json.decimalValue name ≤ MAX_SAFE_INTEGER then
    some (Json.decimalValue name)
  else none

/-! Calls of the operating system, of the launcher and of the program. -/

inductive Errno
  | missing
  | other
  deriving DecidableEq

structure FileStatus where
  isFile : Bool
  nlink : ℕ
  identity : FileIdentity

structure DirectoryStatus where
  isDirectory : Bool
  mode : ℕ

inductive SystemCall
  /- The launcher. -/
  | flockVersion
  | makeDirectory (path : Text)
  | enterDirectory (path : Text)
  | isSymlink (directory : Text)
  | isRegular (directory : Text)
  | linkCount (directory : Text)
  | openLock (directory : Text) (create : Bool)
  | requestLock
  | closeLock
  /- The program. -/
  | realpath (path : Text)
  | stat (path : Text)
  | lstat (directory name : Text)
  | readDescriptors
  | fstat (fd : ℕ)
  | fdinfo (fd : ℕ)
  deriving DecidableEq

/-- What a call answers; the launcher sees exit statuses, the program errors. -/
def SystemCall.Reply : SystemCall → Type
  | .flockVersion => Option Text
  | .makeDirectory _ => Bool
  | .enterDirectory _ => Option Text
  | .isSymlink _ => Bool
  | .isRegular _ => Bool
  | .linkCount _ => Option ℕ
  | .openLock _ _ => Bool
  | .requestLock => ℕ
  | .closeLock => Unit
  | .realpath _ => Except Errno Text
  | .stat _ => Except Errno DirectoryStatus
  | .lstat _ _ => Except Errno FileStatus
  | .readDescriptors => Except Errno (List Text)
  | .fstat _ => Except Errno FileIdentity
  | .fdinfo _ => Except Errno Text

abbrev Calls (ε α : Type) := Prog SystemCall.Reply ε α

section Calls

variable {ε : Type}

def realpathSync (path : Text) : Calls ε (Except Errno Text) := Prog.ask (SystemCall.realpath path)

def statSync (path : Text) : Calls ε (Except Errno DirectoryStatus) := Prog.ask (SystemCall.stat path)

def lstatSync (directory name : Text) : Calls ε (Except Errno FileStatus) :=
  Prog.ask (SystemCall.lstat directory name)

def readdirDescriptors : Calls ε (Except Errno (List Text)) := Prog.ask SystemCall.readDescriptors

end Calls

/-- The paths of the file system. Names of directories are trusted not to change. -/
structure Paths where
  resolve : Text → Text
  dirname : Text → Text
  basename : Text → Text
  realpath : Text → Option Text
  realpath_idem : ∀ path real, realpath path = some real → realpath (resolve real) = some real

section Verification

variable (paths : Paths)

/-- A failed call stops the check at the stage it has reached. -/
def orRefuse {α : Type} (reason : ServiceLockReason) (reply : Except Errno α) :
    Calls ServiceLockReason α :=
  match reply with
  | .ok a => .ret a
  | .error _ => .throw reason

def assertCheckpointPlacement (value stateDirectory : Text) : Calls ServiceLockReason Unit := do
  if value.all isWhitespace then .throw .stateDirectory
  else
    let checkpointFile := paths.resolve value
    let filename := paths.basename checkpointFile
    let directory ← orRefuse .stateDirectory (← realpathSync (paths.dirname checkpointFile))
    if directory ≠ stateDirectory ∨ filename = LOCK_FILENAME ∨ filename = DAEMON_STATUS_FILENAME then
      .throw .stateDirectory
    else
      match ← lstatSync directory filename with
      | .ok file => if file.isFile ∧ file.nlink = 1 then .ret () else .throw .stateDirectory
      | .error .missing => .ret ()
      | .error .other => .throw .stateDirectory

/-- The loop over the descriptors. One that disappears while it is read is passed over. -/
def findOwnedDescriptor (stateDirectory : Text) (expected : FileIdentity) :
    List Text → Calls ServiceLockReason VerifiedServiceLock
  | [] => .throw .descriptor
  | name :: rest =>
    match descriptorNumber name with
    | none => findOwnedDescriptor stateDirectory expected rest
    | some fd =>
      Prog.read (.fstat fd) fun
        | .error _ => findOwnedDescriptor stateDirectory expected rest
        | .ok actual =>
          if actual ≠ expected then findOwnedDescriptor stateDirectory expected rest
          else Prog.read (.fdinfo fd) fun
            | .error _ => findOwnedDescriptor stateDirectory expected rest
            | .ok info =>
              if hasExclusiveFlock info then .ret ⟨stateDirectory, actual⟩
              else findOwnedDescriptor stateDirectory expected rest

structure AssertServiceLockHeldOptions where
  stateDir : Option Text
  checkpointFile : Option Text

def assertServiceLockHeld (linux : Bool) (options : AssertServiceLockHeldOptions) :
    Calls ServiceLockReason VerifiedServiceLock := do
  if !linux then .throw .platform
  else
    let configuredDirectory := options.stateDir.getD (text "./state")
    if configuredDirectory.all isWhitespace then .throw .stateDirectory
    else
      let stateDirectory ← orRefuse .stateDirectory
        (← realpathSync (paths.resolve configuredDirectory))
      let directory ← orRefuse .stateDirectory (← statSync stateDirectory)
      if directory.isDirectory = false ∨ directory.mode &&& 2 ≠ 0 then .throw .stateDirectory
      else
        match options.checkpointFile with
        | none => .ret ()
        | some checkpointFile => assertCheckpointPlacement paths checkpointFile stateDirectory
        let expected ← orRefuse .lockFile (← lstatSync stateDirectory LOCK_FILENAME)
        if expected.isFile = false ∨ expected.nlink ≠ 1 then .throw .lockFile
        else
          let names ← orRefuse .descriptor (← readdirDescriptors)
          findOwnedDescriptor stateDirectory expected.identity names

end Verification

end Quicknet.Service
