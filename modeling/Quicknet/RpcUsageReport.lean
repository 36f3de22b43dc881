import Quicknet.RpcMetricsRuns

/-! Usage reports: what a collector has counted up to a snapshot, and between two of them. -/
namespace Quicknet

open Json (Text text)
open RpcUsage (RpcClientRole RpcMethod compareLabels)
open scoped BigOperators

namespace RpcMetrics

structure RpcUsageCounters where
  started : ℤ
  inFlight : ℤ
  durationMs : ℚ
  /-- `null` before the first call is complete. -/
  averageDurationMs : Option ℚ
  deriving DecidableEq

structure RpcLogicalUsageRow extends RpcUsageCounters where
  client : RpcClientRole
  method : RpcMethod
  completed : ℤ
  failed : ℤ
  deriving DecidableEq

structure RpcHttpUsageRow extends RpcUsageCounters where
  client : RpcClientRole
  responses : ℤ
  transportFailures : ℤ
  statuses : StatusClass → ℤ
  deriving DecidableEq

structure RpcUsageView where
  logical : List RpcLogicalUsageRow
  http : List RpcHttpUsageRow
  deriving DecidableEq

inductive UnavailableReason
  | noBaseline
  | collectorChanged
  | invalidElapsedTime
  | countersRegressed
  deriving DecidableEq, Repr

inductive RpcUsageInterval
  | available (elapsedMs : ℚ) (view : RpcUsageView)
  | unavailable (reason : UnavailableReason)
  deriving DecidableEq

structure RpcUsageReport where
  collectorId : Text
  startedAt : Text
  cumulative : RpcUsageView
  interval : RpcUsageInterval
  deriving DecidableEq

def averageDuration (durationMs : ℚ) (completed : ℤ) : Option ℚ :=
  if completed = 0 then none else some (durationMs / completed)

def logicalUsageRow (row : LogicalCounters) : RpcLogicalUsageRow where
  client := row.client
  method := row.method
  started := row.started
  completed := row.completed
  failed := row.failed
  inFlight := row.inFlight
  durationMs := row.durationMs
  averageDurationMs := averageDuration row.durationMs row.completed

def httpUsageRow (row : HttpCounters) : RpcHttpUsageRow where
  client := row.client
  started := row.started
  responses := row.succeeded
  transportFailures := row.failed
  inFlight := row.inFlight
  statuses := row.statuses
  durationMs := row.durationMs
  averageDurationMs := averageDuration row.durationMs row.completed

def compareLogicalRows (left right : RpcLogicalUsageRow) : Ordering :=
  (compareLabels left.client.label right.client.label).then
    (compareLabels left.method.label right.method.label)

def compareHttpRows (left right : RpcHttpUsageRow) : Ordering :=
  compareLabels left.client.label right.client.label

def sortLogicalRows (rows : List RpcLogicalUsageRow) : List RpcLogicalUsageRow :=
  rows.mergeSort fun a b => (compareLogicalRows a b).isLE

def sortHttpRows (rows : List RpcHttpUsageRow) : List RpcHttpUsageRow :=
  rows.mergeSort fun a b => (compareHttpRows a b).isLE

def cumulativeUsage (snapshot : RpcMetricsSnapshot) : RpcUsageView where
  logical := sortLogicalRows (snapshot.logical.map logicalUsageRow)
  http := sortHttpRows (snapshot.http.map httpUsageRow)

def countersRegressed (current previous : Counters) : Bool :=
  decide (current.started < previous.started) || decide (current.succeeded < previous.succeeded) ||
    decide (current.failed < previous.failed) || decide (current.durationMs < previous.durationMs)

def snapshotCountersRegressed (current previous : RpcMetricsSnapshot) : Bool :=
  previous.logical.any (fun earlier =>
    (KeyedRows.get LogicalCounters.key current.logical earlier.key).elim true fun row =>
      countersRegressed row.toCounters earlier.toCounters) ||
  previous.http.any fun earlier =>
    (KeyedRows.get HttpCounters.client current.http earlier.client).elim true fun row =>
      countersRegressed row.toCounters earlier.toCounters ||
        STATUS_CLASSES.any fun category => row.statuses category < earlier.statuses category

/-- The counters of a row, less those that it had earlier. -/
def Counters.since (row : Counters) (earlier : Option Counters) : Counters where
  started := row.started - earlier.elim 0 Counters.started
  succeeded := row.succeeded - earlier.elim 0 Counters.succeeded
  failed := row.failed - earlier.elim 0 Counters.failed
  inFlight := row.inFlight
  durationMs := row.durationMs - earlier.elim 0 Counters.durationMs

def LogicalCounters.since (row : LogicalCounters) (earlier : Option LogicalCounters) :
    LogicalCounters :=
  { row with toCounters := row.toCounters.since (earlier.map LogicalCounters.toCounters) }

def HttpCounters.since (row : HttpCounters) (earlier : Option HttpCounters) : HttpCounters :=
  { row with
    toCounters := row.toCounters.since (earlier.map HttpCounters.toCounters)
    statuses := fun category =>
      row.statuses category - earlier.elim 0 fun earlier => earlier.statuses category }

/-- The rows between two snapshots. -/
def intervalSnapshot (current previous : RpcMetricsSnapshot) : RpcMetricsSnapshot :=
  { current with
    logical := current.logical.map fun row =>
      row.since (KeyedRows.get LogicalCounters.key previous.logical row.key)
    http := current.http.map fun row =>
      row.since (KeyedRows.get HttpCounters.client previous.http row.client) }

def intervalUsage (current previous : RpcMetricsSnapshot) : RpcUsageView :=
  cumulativeUsage (intervalSnapshot current previous)

def usageInterval (current : RpcMetricsObservation) :
    Option RpcMetricsObservation → RpcUsageInterval
  | none => .unavailable .noBaseline
  | some previous =>
    if current.snapshot.collectorId ≠ previous.snapshot.collectorId then
      .unavailable .collectorChanged
    else
      -- a difference of finite times is finite
      match current.observedAtMs, previous.observedAtMs with
      | some currentMs, some previousMs =>
        if currentMs - previousMs ≤ 0 then .unavailable .invalidElapsedTime
        else if snapshotCountersRegressed current.snapshot previous.snapshot then
          .unavailable .countersRegressed
        else
          .available (currentMs - previousMs) (intervalUsage current.snapshot previous.snapshot)
      | _, _ => .unavailable .invalidElapsedTime

def createRpcUsageReport (current : RpcMetricsObservation)
    (previous : Option RpcMetricsObservation) : RpcUsageReport where
  collectorId := current.snapshot.collectorId
  startedAt := current.snapshot.startedAt
  cumulative := cumulativeUsage current.snapshot
  interval := usageInterval current previous

end RpcMetrics

end Quicknet
