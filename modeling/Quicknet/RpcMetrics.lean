import Quicknet.RpcUsage
import Quicknet.Library.KeyedRows
import Quicknet.Library.Transition

/-! The collector of RPC metrics. A measured call counts in its row before its action begins,
and again when the action has thrown or its promise has settled. Between the two come any
other calls and snapshots, those that the action itself makes among them. -/
namespace Quicknet

open Json (Text text)
open RpcUsage (RpcClientRole RpcMethod)

namespace RpcMetrics

def METHODS : List RpcMethod :=
  [.ethBlockNumber, .ethCall, .ethChainId, .ethEstimateGas, .ethFeeHistory, .ethGasPrice,
    .ethGetBalance, .ethGetBlockByHash, .ethGetBlockByNumber, .ethGetCode, .ethGetLogs,
    .ethGetTransactionByHash, .ethGetTransactionCount, .ethGetTransactionReceipt,
    .ethMaxPriorityFeePerGas, .ethSendRawTransaction]

example : RpcUsage.RPC_METHOD_LABELS = METHODS ++ [.other] := rfl

def methodLabel (method : Text) : RpcMethod :=
  (METHODS.find? fun known => text known.label == method).getD .other

inductive StatusClass
  | class2xx
  | class3xx
  | class4xx
  | class5xx
  deriving DecidableEq, Repr

def STATUS_CLASSES : List StatusClass := [.class2xx, .class3xx, .class4xx, .class5xx]

theorem mem_STATUS_CLASSES (category : StatusClass) : category ∈ STATUS_CLASSES := by
  cases category <;> decide

theorem nodup_STATUS_CLASSES : STATUS_CLASSES.Nodup := by decide

instance : Fintype StatusClass where
  elems := ⟨STATUS_CLASSES, nodup_STATUS_CLASSES⟩
  complete := mem_STATUS_CLASSES

/-- `none` is a status that is no finite number, or one that cannot be read. -/
def statusClass : Option ℚ → Option StatusClass
  | none => none
  | some status =>
    if status.den ≠ 1 then none
    else if 200 ≤ status ∧ status < 300 then some .class2xx
    else if 300 ≤ status ∧ status < 400 then some .class3xx
    else if 400 ≤ status ∧ status < 500 then some .class4xx
    else if 500 ≤ status ∧ status < 600 then some .class5xx
    else none

structure Counters where
  started : ℤ
  succeeded : ℤ
  failed : ℤ
  inFlight : ℤ
  durationMs : ℚ
  deriving DecidableEq

def counters : Counters := ⟨0, 0, 0, 0, 0⟩

structure LogicalCounters extends Counters where
  client : RpcClientRole
  method : RpcMethod
  deriving DecidableEq

structure HttpCounters extends Counters where
  client : RpcClientRole
  statuses : StatusClass → ℤ
  deriving DecidableEq

/-- How an action ended. Only the response to an HTTP call has a status. -/
inductive Outcome
  | resolved (status : Option ℚ)
  | rejected
  deriving DecidableEq

/-! The two halves of `measure`. -/

def Counters.begin (c : Counters) : Counters :=
  { c with started := c.started + 1, inFlight := c.inFlight + 1 }

def Counters.settle (c : Counters) (outcome : Outcome) (startedAt now : ℚ) : Counters :=
  let counted := match outcome with
    | .resolved _ => { c with succeeded := c.succeeded + 1 }
    | .rejected => { c with failed := c.failed + 1 }
  { counted with
    inFlight := counted.inFlight - 1
    durationMs := counted.durationMs + max 0 (now - startedAt) }

/-- The `onSuccess` of an HTTP call. To read the status of a response runs no other code, so
nothing comes between this and the rest of the end of `measure`. -/
def classify (outcome : Outcome) (statuses : StatusClass → ℤ) : StatusClass → ℤ :=
  match outcome with
  | .rejected => statuses
  | .resolved status =>
    match statusClass status with
    | none => statuses
    | some category => Function.update statuses category (statuses category + 1)

/-- `client:method`; no client's name has a colon. -/
def LogicalCounters.key (row : LogicalCounters) : RpcClientRole × RpcMethod :=
  (row.client, row.method)

def LogicalCounters.begin (row : LogicalCounters) : LogicalCounters :=
  { row with toCounters := row.toCounters.begin }

def LogicalCounters.settle (outcome : Outcome) (startedAt now : ℚ) (row : LogicalCounters) :
    LogicalCounters :=
  { row with toCounters := row.toCounters.settle outcome startedAt now }

def HttpCounters.begin (row : HttpCounters) : HttpCounters :=
  { row with toCounters := row.toCounters.begin }

def HttpCounters.settle (outcome : Outcome) (startedAt now : ℚ) (row : HttpCounters) :
    HttpCounters :=
  { row with
    toCounters := row.toCounters.settle outcome startedAt now
    statuses := classify outcome row.statuses }

/-- A kind of row and how a call counts in it. -/
structure RowKind (ρ κ : Type) where
  key : ρ → κ
  counters : ρ → Counters
  /-- Those of its calls that were classified. -/
  statuses : ρ → StatusClass → ℤ
  fresh : κ → ρ
  begin : ρ → ρ
  settle : Outcome → ℚ → ℚ → ρ → ρ
  key_fresh : ∀ k, key (fresh k) = k
  counters_fresh : ∀ k, counters (fresh k) = RpcMetrics.counters
  statuses_fresh : ∀ k, statuses (fresh k) = 0
  key_begin : ∀ r, key (begin r) = key r
  counters_begin : ∀ r, counters (begin r) = (counters r).begin
  statuses_begin : ∀ r, statuses (begin r) = statuses r
  key_settle : ∀ o a b r, key (settle o a b r) = key r
  counters_settle : ∀ o a b r, counters (settle o a b r) = (counters r).settle o a b
  statuses_settle : ∀ o a b r, statuses (settle o a b r) = statuses r ∨
    statuses (settle o a b r) = classify o (statuses r)

def logicalRows : RowKind LogicalCounters (RpcClientRole × RpcMethod) where
  key := LogicalCounters.key
  counters := LogicalCounters.toCounters
  statuses _ := 0
  fresh k := { counters with client := k.1, method := k.2 }
  begin := LogicalCounters.begin
  settle := LogicalCounters.settle
  key_fresh _ := rfl
  counters_fresh _ := rfl
  statuses_fresh _ := rfl
  key_begin _ := rfl
  counters_begin _ := rfl
  statuses_begin _ := rfl
  key_settle _ _ _ _ := rfl
  counters_settle _ _ _ _ := rfl
  statuses_settle _ _ _ _ := Or.inl rfl

def httpRows : RowKind HttpCounters RpcClientRole where
  key := HttpCounters.client
  counters := HttpCounters.toCounters
  statuses := HttpCounters.statuses
  fresh k := { counters with client := k, statuses := 0 }
  begin := HttpCounters.begin
  settle := HttpCounters.settle
  key_fresh _ := rfl
  counters_fresh _ := rfl
  statuses_fresh _ := rfl
  key_begin _ := rfl
  counters_begin _ := rfl
  statuses_begin _ := rfl
  key_settle _ _ _ _ := rfl
  counters_settle _ _ _ _ := rfl
  statuses_settle _ _ _ _ := Or.inr rfl

/-- The rows of one kind, with the calls in flight: the row that each counts in, and when it
was started. -/
structure Measured (ρ κ : Type) where
  rows : List ρ
  calls : List (κ × ℚ)

namespace Measured

variable {ρ κ : Type} [DecidableEq κ] (kind : RowKind ρ κ)

def start (k : κ) (now : ℚ) (m : Measured ρ κ) : Measured ρ κ where
  rows := KeyedRows.update kind.key (KeyedRows.getOrInsert kind.key m.rows (kind.fresh k)) k
    kind.begin
  calls := m.calls ++ [(k, now)]

/-- One of the calls in flight, whichever it is, goes on after its `await`. -/
def settle (i : ℕ) (outcome : Outcome) (now : ℚ) (m : Measured ρ κ) : Option (Measured ρ κ) :=
  m.calls[i]?.map fun call =>
    ⟨KeyedRows.update kind.key m.rows call.1 (kind.settle outcome call.2 now), m.calls.eraseIdx i⟩

end Measured

structure Collector where
  collectorId : Text
  startedAt : Text
  logical : Measured LogicalCounters (RpcClientRole × RpcMethod)
  http : Measured HttpCounters RpcClientRole

structure RpcMetricsSnapshot where
  collectorId : Text
  startedAt : Text
  logical : List LogicalCounters
  http : List HttpCounters
  deriving DecidableEq

structure RpcMetricsObservation where
  snapshot : RpcMetricsSnapshot
  /-- `none` when it is not finite. -/
  observedAtMs : Option ℚ
  deriving DecidableEq

def createRpcMetrics (collectorId startedAt : Text) : Collector :=
  ⟨collectorId, startedAt, ⟨[], []⟩, ⟨[], []⟩⟩

def Collector.snapshot (s : Collector) : RpcMetricsSnapshot :=
  ⟨s.collectorId, s.startedAt, s.logical.rows, s.http.rows⟩

/-- What happens to a collector, with what `performance.now()` says then. -/
inductive Input
  | logical (client : RpcClientRole) (method : Text) (now : ℚ)
  | http (client : RpcClientRole) (now : ℚ)
  | settleLogical (i : ℕ) (outcome : Outcome) (now : ℚ)
  | settleHttp (i : ℕ) (outcome : Outcome) (now : ℚ)
  | observe (observedAtMs : Option ℚ)

def step : Input → Collector → Option (Collector × Option RpcMetricsObservation)
  | .logical client method now, s =>
    some ({ s with logical := s.logical.start logicalRows (client, methodLabel method) now }, none)
  | .http client now, s => some ({ s with http := s.http.start httpRows client now }, none)
  | .settleLogical i outcome now, s =>
    (s.logical.settle logicalRows i outcome now).map fun m => ({ s with logical := m }, none)
  | .settleHttp i outcome now, s =>
    (s.http.settle httpRows i outcome now).map fun m => ({ s with http := m }, none)
  | .observe observedAtMs, s => some (s, some ⟨s.snapshot, observedAtMs⟩)

def system (collectorId startedAt : Text) :
    Transition.System Collector Input RpcMetricsObservation where
  init := createRpcMetrics collectorId startedAt
  step := step

end RpcMetrics

end Quicknet
