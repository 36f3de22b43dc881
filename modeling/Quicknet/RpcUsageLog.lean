import Quicknet.RpcUsageIntervals

/-! The readers through which a usage report goes on its way to the log. They take it as a
value of unknown type. A reader throws one error wherever it finds something else, which is
`none` here. -/
namespace Quicknet

open Json (Text text)
open RpcUsage (RpcClientRole RpcMethod RPC_METHOD_LABELS compareLabels)
open scoped BigOperators

namespace RpcMetrics

/-- What the readers tell apart of a JavaScript value. A property or an element that is
`none` is an accessor, or a hole. -/
inductive Untyped
  | undefined
  | null
  | boolean (b : Bool)
  /-- `none` is `NaN` or an infinity. -/
  | number (x : Option ℚ)
  | string (t : Text)
  | array (elements : List (Option Untyped))
  | object (properties : List (Text × Option Untyped))

inductive ViewKind
  | cumulative
  | interval
  deriving DecidableEq, Repr

def own (input : Untyped) (key : String) : Option Untyped :=
  match input with
  | .object properties => (properties.find? fun p => p.1 = text key).bind (·.2)
  | _ => none

def rows (input : Untyped) (maximum : ℕ) : Option (List Untyped) :=
  match input with
  | .array elements => if maximum < elements.length then none else elements.mapM id
  | _ => none

def count : Untyped → Option ℤ
  | .number (some x) =>
    if x.den = 1 ∧ 0 ≤ x.num ∧ x.num ≤ MAX_SAFE_INTEGER then some x.num else none
  | _ => none

def duration : Untyped → Option ℚ
  | .number (some x) => if x < 0 then none else some x
  | _ => none

def client : Untyped → Option RpcClientRole
  | .string t => [RpcClientRole.publicClient, .wallet].find? fun c => text c.label == t
  | _ => none

def method : Untyped → Option RpcMethod
  | .string t => RPC_METHOD_LABELS.find? fun m => text m.label == t
  | _ => none

def average (input : Untyped) (durationMs : ℚ) (completed : ℤ) : Option (Option ℚ) :=
  if completed = 0 then
    match input with
    | .null => if durationMs ≠ 0 then none else some none
    | _ => none
  else
    match input with
    | .number (some x) => if x ≠ durationMs / completed then none else some (some x)
    | _ => none

/-- In a cumulative view, calls that are not complete are in flight. -/
def Consistent (kind : ViewKind) (started completed inFlight : ℤ) : Prop :=
  kind = .cumulative → completed ≤ started ∧ inFlight = started - completed

instance (kind started completed inFlight) :
    Decidable (Consistent kind started completed inFlight) := by
  unfold Consistent
  infer_instance

def logicalRow (kind : ViewKind) (input : Untyped) : Option RpcLogicalUsageRow := do
  let role ← (own input "client").bind client
  let label ← (own input "method").bind method
  let started ← (own input "started").bind count
  let completed ← (own input "completed").bind count
  let failed ← (own input "failed").bind count
  let inFlight ← (own input "inFlight").bind count
  let durationMs ← (own input "durationMs").bind duration
  guard (failed ≤ completed)
  guard (Consistent kind started completed inFlight)
  let averageDurationMs ← (own input "averageDurationMs").bind fun input =>
    average input durationMs completed
  return ⟨⟨started, inFlight, durationMs, averageDurationMs⟩, role, label, completed, failed⟩

def StatusClass.label : StatusClass → String
  | .class2xx => "2xx"
  | .class3xx => "3xx"
  | .class4xx => "4xx"
  | .class5xx => "5xx"

def statusCounts (class2xx class3xx class4xx class5xx : ℤ) : StatusClass → ℤ
  | .class2xx => class2xx
  | .class3xx => class3xx
  | .class4xx => class4xx
  | .class5xx => class5xx

def statusRow (rawStatuses : Untyped) : Option (StatusClass → ℤ) := do
  let class2xx ← (own rawStatuses "2xx").bind count
  let class3xx ← (own rawStatuses "3xx").bind count
  let class4xx ← (own rawStatuses "4xx").bind count
  let class5xx ← (own rawStatuses "5xx").bind count
  return statusCounts class2xx class3xx class4xx class5xx

/-- The loop over the classes, which stops at a count that is more than is left. -/
def remainingResponses (responses : ℤ) (statuses : StatusClass → ℤ) : Option ℤ :=
  STATUS_CLASSES.foldlM (fun remaining category =>
    if remaining < statuses category then none else some (remaining - statuses category)) responses

def httpRow (kind : ViewKind) (input : Untyped) : Option RpcHttpUsageRow := do
  let role ← (own input "client").bind client
  let started ← (own input "started").bind count
  let responses ← (own input "responses").bind count
  let transportFailures ← (own input "transportFailures").bind count
  let inFlight ← (own input "inFlight").bind count
  let durationMs ← (own input "durationMs").bind duration
  guard (transportFailures ≤ MAX_SAFE_INTEGER - responses)
  guard (Consistent kind started (responses + transportFailures) inFlight)
  let statuses ← (own input "statuses").bind statusRow
  let _ ← remainingResponses responses statuses
  let averageDurationMs ← (own input "averageDurationMs").bind fun input =>
    average input durationMs (responses + transportFailures)
  return ⟨⟨started, inFlight, durationMs, averageDurationMs⟩, role, responses, transportFailures,
    statuses⟩

/-- Rows of an array that is not too long, with distinct keys. -/
def distinctRows {ρ κ : Type} [DecidableEq κ] (maximum : ℕ) (row : Untyped → Option ρ) (key : ρ → κ)
    (input : Untyped) : Option (List ρ) := do
  let read ← (← rows input maximum).mapM row
  guard (read.map key).Nodup
  return read

namespace View

def INVALID : String := "Invalid RPC usage log view."

end View

def projectRpcUsageLogView (kind : ViewKind) (input : Untyped) : Except Failure RpcUsageView :=
  orThrow View.INVALID do
    let logical ← (own input "logical").bind
      (distinctRows (RPC_METHOD_LABELS.length*2) (logicalRow kind) RpcLogicalUsageRow.key)
    let http ← (own input "http").bind (distinctRows 2 (httpRow kind) RpcHttpUsageRow.client)
    return ⟨sortLogicalRows logical, sortHttpRows http⟩

structure RpcUsageLogContext where
  observedAt : Text
  report : RpcUsageReport
  deriving DecidableEq

namespace Context

def INVALID : String := "Invalid RPC usage log context."

def own (input : Untyped) (key : String) : Except Failure Untyped :=
  orThrow INVALID (RpcMetrics.own input key)

def timestamp (input : Untyped) : Except Failure Text :=
  orThrow INVALID do
    match input with
    | .string t =>
      guard (t.length ≤ 27 ∧ IsTimestamp t)
      return t
    | _ => none

def collectorId (input : Untyped) : Except Failure Text :=
  orThrow INVALID do
    match input with
    | .string t =>
      guard (isUuidV4 t = true)
      return t
    | _ => none

end Context

def UNAVAILABLE_REASONS : List UnavailableReason :=
  [.noBaseline, .collectorChanged, .invalidElapsedTime, .countersRegressed]

def UnavailableReason.label : UnavailableReason → String
  | .noBaseline => "no-baseline"
  | .collectorChanged => "collector-changed"
  | .invalidElapsedTime => "invalid-elapsed-time"
  | .countersRegressed => "counters-regressed"

def unavailableReason : Untyped → Option UnavailableReason
  | .string t => UNAVAILABLE_REASONS.find? fun reason => text reason.label == t
  | _ => none

def elapsed : Untyped → Option ℚ
  | .number (some x) => if x ≤ 0 then none else some x
  | _ => none

def projectInterval (input : Untyped) : Except Failure RpcUsageInterval := do
  match ← Context.own input "available" with
  | .boolean false =>
    let reason ← Context.own input "reason"
    let reason ← orThrow Context.INVALID (unavailableReason reason)
    return .unavailable reason
  | .boolean true =>
    let elapsedMs ← Context.own input "elapsedMs"
    let elapsedMs ← orThrow Context.INVALID (elapsed elapsedMs)
    let view ← projectRpcUsageLogView .interval input
    return .available elapsedMs view
  | _ => .error (.typeError Context.INVALID)

/-- The rows of an interval are those of the snapshot that it ends at. -/
def Matches (cumulative : RpcUsageView) : RpcUsageInterval → Prop
  | .unavailable _ => True
  | .available _ interval =>
    interval.logical.length = cumulative.logical.length ∧
      interval.http.length = cumulative.http.length ∧
      (∀ p ∈ cumulative.logical.zip interval.logical, p.2.client = p.1.client ∧
        p.2.method = p.1.method ∧ p.2.inFlight = p.1.inFlight) ∧
      ∀ p ∈ cumulative.http.zip interval.http, p.2.client = p.1.client ∧ p.2.inFlight = p.1.inFlight

instance (cumulative interval) : Decidable (Matches cumulative interval) := by
  cases interval <;> (unfold Matches; infer_instance)

def projectRpcUsageLogContext (input : Untyped) : Except Failure RpcUsageLogContext := do
  let observedAt ← Context.timestamp (← Context.own input "observedAt")
  let rawReport ← Context.own input "report"
  let collectorId ← Context.collectorId (← Context.own rawReport "collectorId")
  let startedAt ← Context.timestamp (← Context.own rawReport "startedAt")
  let cumulative ← projectRpcUsageLogView .cumulative (← Context.own rawReport "cumulative")
  let interval ← projectInterval (← Context.own rawReport "interval")
  requireThat Context.INVALID (Matches cumulative interval)
  return ⟨observedAt, collectorId, startedAt, cumulative, interval⟩

end RpcMetrics

end Quicknet
