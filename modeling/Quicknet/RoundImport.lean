import Quicknet.RetainedWork

/-! Imports of rounds over one manager. Each import is an asynchronous call that looks for
retained work, reads the registry, fetches and simulates the beacon, submits it, and waits
for its receipt; any number of them run at once, with other submissions and the recovery
in between. -/
namespace Quicknet

open Interaction Transition SignerCoordinator
open Json (Text)

/-- How `simulateBeaconSubmission` chose to have the signature verified. -/
inductive SubmissionPath
  | witness
  | compressed
  deriving DecidableEq, Repr

inductive PendingReason
  | broadcastNotAcknowledged
  | receiptTimeout
  deriving DecidableEq, Repr

inductive ImportQuicknetRoundResult
  | alreadyStored
  | imported (submission : SubmissionPath)
  | pending (attemptId : AttemptId) (reason : PendingReason)
  | signerUnavailable (blocker : SignerBlocker)
  | alreadyRetained (retained : AttemptIdentity)
  deriving DecidableEq, Repr

/-- What an import awaits. The deployment and the registry are read twice, the second
time with the beacon in hand. `settled` is the moment between the end of its submission
and its resumption; `none` is a rejection there. -/
inductive ImportStage
  | verifyingDeployment (beacon : Option ℕ)
  | checkingStored (beacon : Option ℕ)
  | readingStored
  | waiting
  | fetching
  | simulating
  | submitting (path : SubmissionPath)
  | settled (path : SubmissionPath) (result : Option SubmitTransactionWorkResult)
  | awaitingReceipt (path : SubmissionPath) (attemptId : AttemptId)
  | readingBeacon (path : SubmissionPath)  (attemptId : AttemptId)
  | ended
  deriving DecidableEq, Repr

structure RoundImport where
  workId : WorkId
  round : ℤ
  stage : ImportStage
  deriving DecidableEq, Repr

/-- How an await ends. Answers that do not fit the stage settle nothing. -/
inductive ImportAnswer
  | rejected
  | done
  | stored (isStored : Bool)
  | beacon (round : ℕ)
  | simulated (path : SubmissionPath) (encoded : Bool)
  | resumed (acknowledged : Bool)
  | receipt (success : Bool)
  | receiptTimeout
  | randomness (isMatch : Bool)
  deriving DecidableEq, Repr

/-- Where an import goes from an await. -/
inductive ImportMove
  | waits (stage : ImportStage)
  | submits (path : SubmissionPath)
  | ends (result : Option ImportQuicknetRoundResult)
  deriving DecidableEq, Repr

def ImportMove.unlessAborted (aborted : Bool) (move : ImportMove) : ImportMove :=
  if aborted then .ends none else move

/-- `importQuicknetRoundWhenAvailable` and `importQuicknetRound`, from one await to the
next. -/
def importMove (round : ℤ) (stage : ImportStage) (aborted : Bool) (answer : ImportAnswer) :
    Option ImportMove :=
  match stage, answer with
  | .submitting _, _ | .ended, _ => none
  | .settled path result, .resumed acknowledged =>
    match result with
    | none => some (.ends none)
    | some (.alreadyRetained retained) => some (.ends (some (.alreadyRetained retained)))
    | some (.deferred primaryReason _) => some (.ends (some (.signerUnavailable primaryReason)))
    | some (.submitted broadcast) =>
      if acknowledged then some (.waits (.awaitingReceipt path broadcast.attemptId))
      else some (.ends (some (.pending broadcast.attemptId .broadcastNotAcknowledged)))
  | .settled _ _, _ => none
  | _, .rejected => some (.ends none)
  | .verifyingDeployment beacon, .done =>
    some ((ImportMove.waits (.checkingStored beacon)).unlessAborted aborted)
  | .checkingStored beacon, .stored isStored =>
    some <| ImportMove.unlessAborted aborted <|
      if isStored then .waits .readingStored
      else
        match beacon with
        | none => .waits .waiting
        -- the beacon that was fetched has to be the one of this round
        | some r => if (r : ℤ) ≠ round then .ends none else .waits .simulating
  | .readingStored, .done => some (.ends (some .alreadyStored))
  | .waiting, .done => some ((ImportMove.waits .fetching).unlessAborted aborted)
  | .fetching, .beacon r =>
    some ((ImportMove.waits (.verifyingDeployment (some r))).unlessAborted aborted)
  | .simulating, .simulated path encoded =>
    some (if encoded then (ImportMove.submits path).unlessAborted aborted else .ends none)
  | .awaitingReceipt _ attemptId, .receiptTimeout =>
    some (.ends (some (.pending attemptId .receiptTimeout)))
  | .awaitingReceipt path attemptId, .receipt success =>
    some (if success then .waits (.readingBeacon path attemptId) else .ends none)
  | .readingBeacon path _, .randomness isMatch =>
    some (.ends (if isMatch then some (.imported path) else none))
  | _, _ => none

/-- The manager with the imports that have begun. `submitting` is the import that the
manager's submission belongs to. -/
structure Importers where
  managed : Managed
  imports : List RoundImport
  submitting : Option ℕ

inductive ImporterInput
  | manager (i : ManagerInput)
  | importRound (round : ℤ) (aborted : Bool)
  | settle (k : ℕ) (now : Timestamp) (aborted : Bool) (answer : ImportAnswer)

inductive ImporterEvent
  | manager (e : ManagerEvent)
  | started (k : ℕ) (workId : WorkId)
  | ended (k : ℕ) (workId : WorkId) (result : Option ImportQuicknetRoundResult)

def ImporterEvent.manager? : ImporterEvent → Option ManagerEvent
  | .manager e => some e
  | _ => none

namespace Importers

def setStage (s : Importers) (k : ℕ) (stage : ImportStage) : Importers :=
  { s with imports := s.imports.modify k fun r => { r with stage := stage } }

/-- A submission that ended goes to the import that awaits it. -/
def settleSubmission (s : Importers) (result : Option SubmitTransactionWorkResult) : Importers :=
  match s.submitting with
  | none => s
  | some k =>
    { s with
      imports := s.imports.modify k fun r =>
        { r with stage := match r.stage with
          | .submitting path => .settled path result
          | stage => stage }
      submitting := none }

/-- What a step of the manager means for the imports. They end with their process. -/
def afterManager (s : Importers) (m : Managed) (e : Option ManagerEvent) : Importers :=
  match m.world with
  | .running _ =>
    match e with
    | some (.entered _) => { s with managed := m, submitting := none }
    | some (.returned _ result) => { s with managed := m }.settleSubmission (some result)
    | some (.thrown _ _) => { s with managed := m }.settleSubmission none
    | _ => { s with managed := m }
  | _ =>
    { managed := m
      imports := s.imports.map fun r => { r with stage := .ended }
      submitting := none }

end Importers

section Importer

variable (lib : TransactionLibrary) (identity : JournalIdentity) (address : Text)

/-- `importRound`, up to its first await. Refusals before the identity is known leave
nothing behind. -/
def importRound (round : ℤ) (aborted : Bool) (s : Importers) :
    Option (Importers × Option ImporterEvent) :=
  match s.managed.world with
  | .running c =>
    if round ≤ 0 ∨ aborted = true then some (s, none)
    else
      match createBeaconWorkId identity.chainId address round with
      | .error _ => some (s, none)
      | .ok workId =>
        match c.attemptOf workId with
        | some retained =>
          some ({ s with imports := s.imports ++ [⟨workId, round, .ended⟩] },
            some (.ended s.imports.length workId
              (some (.alreadyRetained retained.attemptIdentity))))
        | none =>
          some ({ s with
              imports := s.imports ++ [⟨workId, round, .verifyingDeployment none⟩] },
            some (.started s.imports.length workId))
  | _ => none

/-- `submitter.submit`. The manager refuses it while it is busy. -/
def submitImport (now : Timestamp) (k : ℕ) (r : RoundImport) (path : SubmissionPath)
    (s : Importers) : Option (Importers × Option ImporterEvent) :=
  match managerStep lib identity ⟨now, false, .submit r.workId⟩ s.managed with
  | some (m, e) =>
    some ({ s with managed := m, submitting := some k }.setStage k (.submitting path),
      e.map .manager)
  | none => some (s.setStage k .ended, some (.ended k r.workId none))

def importerStep (input : ImporterInput) (s : Importers) :
    Option (Importers × Option ImporterEvent) :=
  match input with
  | .manager i =>
    (managerStep lib identity i s.managed).map fun r =>
      (s.afterManager r.1 r.2, r.2.map .manager)
  | .importRound round aborted => importRound identity address round aborted s
  | .settle k now aborted answer =>
    (s.imports[k]?).bind fun r =>
      (importMove r.round r.stage aborted answer).bind fun
        | .waits stage => some (s.setStage k stage, none)
        | .submits path => submitImport lib identity now k r path s
        | .ends result => some (s.setStage k .ended, some (.ended k r.workId result))

def importerSystem : System Importers ImporterInput ImporterEvent where
  init := ⟨⟨.stopped none none, none⟩, [], none⟩
  step := importerStep lib identity address

abbrev runImporters (is : List ImporterInput) : Importers × List ImporterEvent :=
  (importerSystem lib identity address).run is

end Importer

end Quicknet
