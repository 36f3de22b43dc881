import Quicknet.DaemonIteration

/-! The loop of the daemon. A cycle recovers the signer and runs one iteration for each
consumer; the cursors of the soft scans outlive the cycles. -/
namespace Quicknet.Daemon
open Interaction

structure DaemonIncompleteRound where
  scanType : ScanType
  outcome : QuicknetRoundOutcome
  deriving DecidableEq, Repr

structure DaemonCompletedRound where
  scanType : ScanType
  round : ℕ
  result : CompletedImportResult
  deriving DecidableEq, Repr

/-- What the observers of a cycle have recorded of an iteration. -/
structure IterationRecords where
  completed : List DaemonCompletedRound
  incomplete : List DaemonIncompleteRound
  reconciled : Bool
  deriving DecidableEq, Repr

inductive DaemonConsumerCycleResult
  | success (consumer : Address) (iteration : RunDaemonIterationResult)
      (incomplete : List DaemonIncompleteRound) (reconciled : Bool)
  | failed (consumer : Address) (error : Failure) (records : IterationRecords)
  deriving DecidableEq, Repr

def DaemonConsumerCycleResult.consumer : DaemonConsumerCycleResult → Address
  | .success consumer _ _ _ => consumer
  | .failed consumer _ _ => consumer

abbrev RunDaemonCycleResult := List DaemonConsumerCycleResult

structure RunDaemonOptions where
  consumers : List Address
  startBlock : ℕ
  maxBlockRange : ℕ
  pollIntervalMs : ℕ

/-- What the loop awaits. A submission within an iteration carries the cycle. -/
inductive LoopQuery
  | signal
  | recover (cycle : ℕ)
  | iteration (cycle : ℕ) (q : DaemonQuery)
  /-- `isOperationCancelled` of a caught error. -/
  | cancelled (error : Failure)
  | onCycle (cycle : ℕ) (result : RunDaemonCycleResult)
  | sleep (milliseconds : ℕ)
  deriving DecidableEq, Repr

def LoopQuery.Reply : LoopQuery → Type
  | .signal => Option Failure
  | .recover _ => Except Failure Unit
  | .iteration _ q => q.Reply
  | .cancelled _ => Bool
  | .onCycle _ _ => Except Failure Unit
  | .sleep _ => Except Failure Unit

abbrev Loop (α : Type) := Prog LoopQuery.Reply Failure α
abbrev LoopLog := List (Exchange LoopQuery.Reply Failure)

/-! One iteration, under a cycle that observes it. -/

def noRecords : IterationRecords := ⟨[], [], false⟩

/-- The iteration with the cycle's observers in it, and its error caught. -/
def observed {α : Type} (cycle : ℕ) : Async α → IterationRecords →
    Loop (Except Failure α × IterationRecords)
  | .ret a, records => .ret (.ok a, records)
  | .throw e, records => .ret (.error e, records)
  | .read (.onCompleted scanType round result) k, records =>
    observed cycle (k (.ok ()))
      { records with completed := records.completed ++ [⟨scanType, round, result⟩] }
  | .read (.onIncomplete scanType outcome) k, records =>
    observed cycle (k (.ok ()))
      { records with incomplete := records.incomplete ++ [⟨scanType, outcome⟩] }
  | .read .onReconciliation k, records =>
    observed cycle (k (.ok ())) { records with reconciled := true }
  | .read q k, records => .read (.iteration cycle q) fun r => observed cycle (k r) records

def iterationOptions (options : RunDaemonOptions) (softCursors : Checkpoints)
    (consumer : Address) : IterationOptions where
  consumer := consumer
  startBlock := options.startBlock
  maxBlockRange := options.maxBlockRange
  softCursor := softCursors.lookup consumer

section Cycle

variable (options : RunDaemonOptions) (cycle : ℕ)

/-- The loop over the consumers, with the cursors that it leaves. -/
def runConsumers : List Address → Checkpoints → Loop (RunDaemonCycleResult × Checkpoints)
  | [], softCursors => .ret ([], softCursors)
  | consumer :: rest, softCursors => do
    let aborted : Option Failure ← Prog.ask LoopQuery.signal
    if aborted.isSome then .ret ([], softCursors)
    else
      let (out, records) ← observed cycle
        (runDaemonIteration (iterationOptions options softCursors consumer)) noRecords
      match out with
      | .ok iteration =>
        let (results, cursors) ← runConsumers rest
          (setCheckpoint softCursors consumer iteration.softCursor)
        return (.success consumer iteration records.incomplete records.reconciled :: results,
          cursors)
      | .error error =>
        let cancelled : Bool ← Prog.ask (LoopQuery.cancelled error)
        if cancelled then .throw error
        else
          let (results, cursors) ← runConsumers rest softCursors
          return (.failed consumer error records :: results, cursors)

def runDaemonCycle (softCursors : Checkpoints) : Loop (RunDaemonCycleResult × Checkpoints) := do
  let aborted : Option Failure ← Prog.ask LoopQuery.signal
  match aborted with
  | some reason => .throw reason
  | none =>
    let recovered : Except Failure Unit ← Prog.ask (LoopQuery.recover cycle)
    match recovered with
    | .error error =>
      let cancelled : Bool ← Prog.ask (LoopQuery.cancelled error)
      if cancelled then .throw error
      else return (options.consumers.map fun consumer => .failed consumer error noRecords, softCursors)
    | .ok () => runConsumers options cycle options.consumers softCursors

end Cycle

/-! The loop. -/

def await (q : LoopQuery) (reply : q.Reply → Except Failure Unit) : Loop Unit := do
  Prog.lift (reply (← Prog.ask q))

/-- The cycles that are left are counted down to the last safe number. -/
def runCycles (options : RunDaemonOptions) : ℕ → Checkpoints → Loop Unit
  | remaining, softCursors => do
    let aborted : Option Failure ← Prog.ask LoopQuery.signal
    if aborted.isSome then .ret ()
    else
      match remaining with
      | 0 => .throw (.error "Daemon cycle counter exhausted.")
      | remaining + 1 =>
        let cycle := MAX_SAFE_INTEGER - remaining
        let (result, softCursors) ← runDaemonCycle options cycle softCursors
        await (.onCycle cycle result) id
        let aborted : Option Failure ← Prog.ask LoopQuery.signal
        if aborted.isSome then .ret ()
        else
          await (.sleep options.pollIntervalMs) id
          runCycles options remaining softCursors

def runDaemon (options : RunDaemonOptions) : Loop Unit :=
  if 0 < options.pollIntervalMs ∧ options.pollIntervalMs ≤ MAX_SAFE_INTEGER then
    runCycles options MAX_SAFE_INTEGER []
  else .throw (.error "pollIntervalMs must be a positive safe integer.")

end Quicknet.Daemon
