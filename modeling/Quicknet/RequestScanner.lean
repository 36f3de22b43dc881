import Quicknet.BlockAnchor
import Quicknet.SignerGate

/-! What a daemon iteration awaits, and the scan of a consumer's request events.
A rejected promise is a reply here, because the daemon catches most of them; a
reply that never comes ends the process. -/
namespace Quicknet.Daemon
open Interaction

inductive ScanType
  | durable
  | soft
  deriving DecidableEq, Repr

inductive PendingReason
  | broadcastNotAcknowledged
  | receiptTimeout
  deriving DecidableEq, Repr

inductive CompletedImportResult
  | imported (randomness transactionHash : Hash)
  | alreadyStored (randomness : Hash)
  deriving DecidableEq, Repr

structure PendingImportResult where
  attemptId : AttemptId
  transactionHash : Hash
  reason : PendingReason
  deriving DecidableEq, Repr

inductive ImportResult
  | completed (result : CompletedImportResult)
  | pending (result : PendingImportResult)
  | signerUnavailable (blocker : SignerBlocker)
  | alreadyRetained (attemptId : AttemptId) (workId : WorkId)
  deriving DecidableEq, Repr

/-- A rejected import; `cancelled` is what `isOperationCancelled` says of it. -/
structure ImportFailure where
  error : Failure
  cancelled : Bool
  deriving DecidableEq, Repr

inductive RoundStatus
  | completed (result : CompletedImportResult)
  | pending (result : PendingImportResult)
  | failed (error : Failure)
  | earlierImportFailed
  | signerUnavailable (blocker : SignerBlocker)
  | alreadyRetained (attemptId : AttemptId) (workId : WorkId)
  deriving DecidableEq, Repr

structure QuicknetRoundOutcome where
  round : ℕ
  firstRequestBlock : ℕ
  status : RoundStatus
  deriving DecidableEq, Repr

/-- A log of the request event, as the client returns it. -/
structure RequestLog where
  address : Address
  round : ℕ
  blockNumber : Option ℕ
  transactionHash : Option Hash
  logIndex : Option ℕ
  deriving DecidableEq, Repr

structure QuicknetRandomnessRequest where
  consumer : Address
  round : ℕ
  blockNumber : ℕ
  transactionHash : Hash
  logIndex : ℕ
  deriving DecidableEq, Repr

structure ChainHeads where
  latestBlock : ℕ
  durableBlock : ℕ
  deriving DecidableEq, Repr

inductive DaemonQuery
  /-- `signal.throwIfAborted`; answered by the reason once aborted. -/
  | signal
  | loadCheckpoint (consumer : Address)
  | saveCheckpoint (consumer : Address) (nextBlock : ℕ)
  | chainHeads
  | block (blockNumber : ℕ)
  | logs (consumers : List Address) (fromBlock toBlock : ℕ)
  | isStored (round blockNumber : ℕ)
  | importRound (scan : ScanType) (round : ℕ)
  | onCompleted (scan : ScanType) (round : ℕ) (result : CompletedImportResult)
  | onIncomplete (scan : ScanType) (outcome : QuicknetRoundOutcome)
  | onReconciliation
  deriving DecidableEq, Repr

/-- A value that a response has no right to hold is `none`. -/
def DaemonQuery.Reply : DaemonQuery → Type
  | .signal => Option Failure
  | .loadCheckpoint _ => Except Failure (Option ℕ)
  | .saveCheckpoint _ _ => Except Failure Unit
  | .chainHeads => Except Failure ChainHeads
  | .block _ => Except Failure BlockReply
  | .logs _ _ _ => Except Failure (List RequestLog)
  | .isStored _ _ => Except Failure (Option Bool)
  | .importRound _ _ => Except ImportFailure ImportResult
  | .onCompleted _ _ _ => Except Failure Unit
  | .onIncomplete _ _ => Except Failure Unit
  | .onReconciliation => Except Failure Unit

abbrev Async (α : Type) := Prog DaemonQuery.Reply Failure α
abbrev DaemonLog := List (Exchange DaemonQuery.Reply Failure)

def throwIfAborted : Async Unit := do
  match (← Prog.ask DaemonQuery.signal : Option Failure) with
  | some reason => .throw reason
  | none => return ()

/-- An await outside every `try`: a rejection is thrown on. -/
def awaitOrThrow {α : Type} (reply : Async (Except Failure α)) : Async α := do
  match ← reply with
  | .ok a => return a
  | .error e => .throw e

/-- A call of an observer, whose errors are swallowed. -/
def observe (q : DaemonQuery) : Async Unit := do
  let _ ← Prog.ask q
  return ()

def requestOfLog (log : RequestLog) : Except Failure QuicknetRandomnessRequest :=
  match log.blockNumber, log.transactionHash, log.logIndex with
  | some blockNumber, some transactionHash, some logIndex =>
    .ok ⟨log.address, log.round, blockNumber, transactionHash, logIndex⟩
  | _, _, _ =>
    .error (.error "Quicknet randomness request log is missing canonical log metadata.")

def getQuicknetRandomnessRequests (consumers : List Address) (fromBlock toBlock : ℕ) :
    Async (List QuicknetRandomnessRequest) := do
  if fromBlock > toBlock then
    .throw (.error "fromBlock must not be greater than toBlock.")
  else if consumers.isEmpty then
    return []
  else
    let logs ← awaitOrThrow (Prog.ask (DaemonQuery.logs consumers fromBlock toBlock))
    Prog.lift (logs.mapM requestOfLog)

inductive ScanQuicknetRequestsResult
  | caughtUp (throughBlock nextBlock : ℕ)
  | scanned (throughBlock fromBlock toBlock nextBlock : ℕ)
      (requests : List QuicknetRandomnessRequest)
  deriving DecidableEq, Repr

def scanQuicknetRequests (consumers : List Address) (nextBlock throughBlock maxBlockRange : ℕ) :
    Async ScanQuicknetRequestsResult := do
  if maxBlockRange = 0 then
    .throw (.error "maxBlockRange must be greater than zero.")
  else if nextBlock > throughBlock then
    return .caughtUp throughBlock nextBlock
  else
    let maximumToBlock := nextBlock + maxBlockRange - 1
    let toBlock := if maximumToBlock < throughBlock then maximumToBlock else throughBlock
    let requests ← getQuicknetRandomnessRequests consumers nextBlock toBlock
    return .scanned throughBlock nextBlock toBlock (toBlock + 1) requests

/-! The exchanges of a scan that returned. -/

theorem awaitOrThrow_ok_iff {α : Type} {p : Async (Except Failure α)} {log : DaemonLog} {a : α} :
    (awaitOrThrow p).replay log = some (.ok a) ↔ p.replay log = some (.ok (.ok a)) := by
  unfold awaitOrThrow
  rw [Prog.bind_eq, Prog.replay_bind_ok_iff]
  constructor
  · rintro ⟨reply, l₁, l₂, rfl, h₁, h₂⟩
    cases reply with
    | ok b =>
      obtain ⟨rfl, hb⟩ := Prog.replay_ret_iff.mp h₂
      rw [List.append_nil, h₁, ← Except.ok.inj hb]
    | error e => exact absurd (Prog.replay_throw_iff.mp h₂).2 (by simp)
  · intro h
    exact ⟨.ok a, log, [], by simp, h, Prog.replay_ret_iff.mpr ⟨rfl, rfl⟩⟩

theorem throwIfAborted_ok {log : DaemonLog} (h : throwIfAborted.replay log = some (.ok ())) :
    log = [⟨.signal, .ok (none : Option Failure)⟩] := by
  unfold throwIfAborted at h
  rw [Prog.bind_eq, Prog.replay_bind_ok_iff] at h
  obtain ⟨reply, l₁, l₂, rfl, h₁, h₂⟩ := h
  cases reply with
  | none =>
    obtain ⟨rfl, _⟩ := Prog.replay_ret_iff.mp h₂
    rw [List.append_nil]
    exact Prog.replay_ask_ok_iff.mp h₁
  | some reason => exact absurd (Prog.replay_throw_iff.mp h₂).2 (by simp)

def logsRead (consumers : List Address) (fromBlock toBlock : ℕ) (logs : List RequestLog) :
    Exchange DaemonQuery.Reply Failure :=
  ⟨.logs consumers fromBlock toBlock, .ok (.ok logs : Except Failure (List RequestLog))⟩

/-- The requests of a log are its entries, with their metadata present. -/
theorem mapM_requestOfLog {logs : List RequestLog} {requests : List QuicknetRandomnessRequest}
    (h : logs.mapM requestOfLog = .ok requests) :
    ∀ log ∈ logs, ∃ request ∈ requests,
      request.consumer = log.address ∧ request.round = log.round ∧
        log.blockNumber = some request.blockNumber := by
  induction logs generalizing requests with
  | nil => simp
  | cons log logs ih =>
    rw [List.mapM_cons] at h
    cases hlog : requestOfLog log with
    | error e =>
      rw [hlog] at h
      cases h
    | ok request =>
      cases hlogs : logs.mapM requestOfLog with
      | error e =>
        rw [hlog, hlogs] at h
        cases h
      | ok rest =>
        rw [hlog, hlogs] at h
        cases h
        intro log' hmem
        rcases List.mem_cons.mp hmem with rfl | hmem
        · refine ⟨request, by simp, ?_⟩
          unfold requestOfLog at hlog
          split at hlog
          · rename_i hblock _ _
            cases hlog
            exact ⟨rfl, rfl, hblock⟩
          · cases hlog
        · obtain ⟨r, hr, hfields⟩ := ih hlogs log' hmem
          exact ⟨r, by simp [hr], hfields⟩

theorem getQuicknetRandomnessRequests_ok {consumer : Address} {fromBlock toBlock : ℕ}
    {log : DaemonLog} {requests : List QuicknetRandomnessRequest}
    (h : (getQuicknetRandomnessRequests [consumer] fromBlock toBlock).replay log =
      some (.ok requests)) :
    ∃ logs, log = [logsRead [consumer] fromBlock toBlock logs] ∧
      logs.mapM requestOfLog = .ok requests := by
  unfold getQuicknetRandomnessRequests at h
  split at h
  · exact absurd (Prog.replay_throw_iff.mp h).2 (by simp)
  · rw [if_neg (by simp), Prog.bind_eq, Prog.replay_bind_ok_iff] at h
    obtain ⟨logs, l₁, l₂, rfl, h₁, h₂⟩ := h
    obtain ⟨rfl, hrequests⟩ := Prog.replay_lift_ok_iff.mp h₂
    refine ⟨logs, ?_, hrequests⟩
    rw [List.append_nil]
    exact Prog.replay_ask_ok_iff.mp (awaitOrThrow_ok_iff.mp h₁)

/-- A scan that was not caught up read the events of exactly one range. -/
theorem scanQuicknetRequests_scanned {consumer : Address}
    {nextBlock throughBlock maxBlockRange throughBlock' fromBlock toBlock nextBlock' : ℕ}
    {log : DaemonLog} {requests : List QuicknetRandomnessRequest}
    (h : (scanQuicknetRequests [consumer] nextBlock throughBlock maxBlockRange).replay log =
      some (.ok (.scanned throughBlock' fromBlock toBlock nextBlock' requests))) :
    fromBlock = nextBlock ∧ nextBlock' = toBlock + 1 ∧ nextBlock ≤ toBlock ∧
      toBlock ≤ throughBlock ∧
      ∃ logs, log = [logsRead [consumer] nextBlock toBlock logs] ∧
        logs.mapM requestOfLog = .ok requests := by
  unfold scanQuicknetRequests at h
  split at h
  · exact absurd (Prog.replay_throw_iff.mp h).2 (by simp)
  · split at h
    · have hout := (Prog.replay_ret_iff.mp h).2
      simp at hout
    · rename_i hrange hnext
      rw [Prog.bind_eq, Prog.replay_bind_ok_iff] at h
      obtain ⟨rs, l₁, l₂, rfl, h₁, h₂⟩ := h
      obtain ⟨rfl, hout⟩ := Prog.replay_ret_iff.mp h₂
      rw [List.append_nil]
      simp only [Except.ok.injEq, ScanQuicknetRequestsResult.scanned.injEq] at hout
      obtain ⟨rfl, rfl, rfl, rfl, rfl⟩ := hout
      refine ⟨rfl, rfl, ?_, ?_, getQuicknetRandomnessRequests_ok h₁⟩
      · split <;> omega
      · split <;> omega

end Quicknet.Daemon
