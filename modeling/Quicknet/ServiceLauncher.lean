import Quicknet.CommandArguments
import Quicknet.ServiceLock

/-! The launcher of the relayer and the start of the program under it. The launcher opens the
lock file on a descriptor of its own, asks for the lock and becomes the program. -/
namespace Quicknet.Service
open Json (Text text)
open Interaction (Prog)
open Quicknet.Cli

inductive StatusSource
  | journal
  | daemonSnapshot
  deriving DecidableEq

def StatusSource.name : StatusSource → Text
  | .journal => text "journal"
  | .daemonSnapshot => text "daemon-snapshot"

/-- The body of the loop of `inspect_status_arguments`; the state is the source seen. -/
def inspectStep (seen : Option StatusSource) (argument : Text) (value : Option Text) :
    Except Unit (Option StatusSource × Bool) :=
  match statusOption argument, value with
  | none, _ => .error ()
  | some _, none => .error ()
  | some option, some value =>
    if startsWithDashes value then .error ()
    else if option = .source then
      if seen.isSome then .error ()
      else if value = StatusSource.name .journal then .ok (some .journal, true)
      else if value = StatusSource.name .daemonSnapshot then .ok (some .daemonSnapshot, true)
      else .error ()
    else .ok (seen, true)

/-- The source that the arguments select, if they are options with values; no source leaves
the choice to the launcher. -/
def inspectStatusArguments (args : List Text) : Option (Option StatusSource) :=
  (ArgumentScan.scan inspectStep none args).toOption

structure LaunchEnvironment where
  linux : Bool
  stateDir : Option Text
  checkpointFile : Option Text

inductive ProcessExit
  | status (code : ℕ)
  | usage (code : UsageCode)
  | refused (reason : ServiceLockReason)
  | configuration
  deriving DecidableEq

/-- What a process does once it has started. -/
inductive Running
  | help (command : CommandArguments)
  | unlocked (command : CommandArguments)
  | holding (command : CommandArguments) (lock : VerifiedServiceLock) (checkpointFile : Option Text)
  deriving DecidableEq

/-- The checkpoint file of the command, which the daemon has to be given. -/
def commandCheckpoint (paths : Paths) (command : CommandArguments) (env : LaunchEnvironment) :
    Except ProcessExit (Option Text) :=
  match command, env.checkpointFile with
  | .daemon _, none => .error .configuration
  | .daemon _, some file | .importRound _ _, some file | .importWhenAvailable _ _, some file =>
    if file.all isWhitespace then .error .configuration else .ok (some (paths.resolve file))
  | _, _ => .ok none

section Program

variable (paths : Paths)

def verifyLock (env : LaunchEnvironment) (checkpointFile : Option Text) :
    Calls ProcessExit VerifiedServiceLock := do
  match ← (assertServiceLockHeld paths env.linux ⟨env.stateDir, checkpointFile⟩).attempt with
  | .ok lock => return lock
  | .error reason => Prog.throw (.refused reason)

/-- `main`, up to the work of the command. Commands that open the journal for writing verify
the lock before they load their configuration and again with the checkpoint file. -/
def nodeMain (args : List Text) (env : LaunchEnvironment) : Calls ProcessExit Running :=
  match parseCommandArguments (normalizeArguments args) with
  | .error code => .throw (.usage code)
  | .ok command =>
    match command with
    | .help | .daemonHelp => .ret (.help command)
    | .status (.daemonSnapshot _ _) => .ret (.unlocked command)
    | .status (.journal _) | .syncNonce _ _ => do
      let lock ← verifyLock paths env none
      return .holding command lock none
    | .importRound _ _ | .importWhenAvailable _ _ | .daemon _ => do
      let _ ← verifyLock paths env none
      let checkpointFile ← Prog.lift (commandCheckpoint paths command env)
      let lock ← verifyLock paths env checkpointFile
      return .holding command lock checkpointFile

end Program

section Launcher

variable (paths : Paths)

def requireFlock : Calls ProcessExit Unit := do
  let version : Option Text ← Prog.ask SystemCall.flockVersion
  if (version.any fun v => decide (text "util-linux" <:+: v)) then return ()
  else Prog.throw (.status 1)

/-- The state directory, where it is set or by default; an empty one is refused. -/
def configuredDirectory (env : LaunchEnvironment) : Except ProcessExit Text :=
  let directory := env.stateDir.getD (text "./state")
  if directory.isEmpty then .error (.status 1) else .ok directory

def enterDirectory (path : Text) : Calls ProcessExit Text := do
  let directory : Option Text ← Prog.ask (SystemCall.enterDirectory path)
  match directory with
  | some directory => return directory
  | none => Prog.throw (.status 1)

def require (holds : Bool) : Calls ProcessExit Unit :=
  if holds then .ret () else .throw (.status 1)

/-- The lock file exists, is no link and has one name. -/
def checkLockFile (directory : Text) : Calls ProcessExit Unit := do
  let symlink : Bool ← Prog.ask (SystemCall.isSymlink directory)
  require !symlink
  let regular : Bool ← Prog.ask (SystemCall.isRegular directory)
  require regular
  let links : Option ℕ ← Prog.ask (SystemCall.linkCount directory)
  require (links == some 1)

def openLock (directory : Text) (create : Bool) : Calls ProcessExit Unit := do
  let opened : Bool ← Prog.ask (SystemCall.openLock directory create)
  require opened

/-- The exit status of `flock` on the lock file's descriptor; 75 where it is locked. -/
def requestLock : Calls ProcessExit ℕ := Prog.ask SystemCall.requestLock

def closeLock : Calls ProcessExit Unit := Prog.ask SystemCall.closeLock

def LOCK_CONFLICT : ℕ := 75

def sourceArguments (source : StatusSource) : List Text := [text "--source", source.name]

/-- The launcher's branch for the status command, for a source of the journal or none. -/
def launchStatus (args : List Text) (source : Option StatusSource) (env : LaunchEnvironment) :
    Calls ProcessExit Running := do
  requireFlock
  let directory ← enterDirectory (← Prog.lift (configuredDirectory env))
  checkLockFile directory
  openLock directory false
  let code ← requestLock
  let env := { env with stateDir := some directory }
  if code = 0 then
    nodeMain paths (if source = none then args ++ sourceArguments .journal else args) env
  else do
    -- the snapshot does not inherit the descriptor on which the lock was refused
    closeLock
    if source = none ∧ code = LOCK_CONFLICT then
      nodeMain paths (args ++ sourceArguments .daemonSnapshot) env
    else Prog.throw (.status code)

def makeDirectory (path : Text) : Calls ProcessExit Unit := do
  let made : Bool ← Prog.ask (SystemCall.makeDirectory path)
  require made

/-- The launcher's branch for the commands that own the service. -/
def launchService (args : List Text) (env : LaunchEnvironment) : Calls ProcessExit Running := do
  requireFlock
  let path ← Prog.lift (configuredDirectory env)
  makeDirectory path
  let directory ← enterDirectory path
  openLock directory true
  let code ← requestLock
  if code = 0 then nodeMain paths args { env with stateDir := some directory }
  else Prog.throw (.status code)

def relayer (arguments : List Text) (env : LaunchEnvironment) : Calls ProcessExit Running :=
  let args := normalizeArguments arguments
  match args with
  | [] => nodeMain paths args env
  | command :: rest =>
    if command.isEmpty ∨ command = text "help" ∨ helpRequested args = true then nodeMain paths args env
    else if command = text "status" then
      match inspectStatusArguments rest with
      | none | some (some .daemonSnapshot) => nodeMain paths args env
      | some source => launchStatus paths args source env
    else launchService paths args env

end Launcher

end Quicknet.Service
