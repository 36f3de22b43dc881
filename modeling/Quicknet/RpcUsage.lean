import Quicknet.JournalRoundTrip
import Quicknet.Library.DoubleText

/-! Cumulative RPC usage as the daemon persists it, and the readers that it shares with the
snapshot around it. A JSON value stands for the JavaScript value that it is parsed to, so its
numbers are the doubles nearest to them. A reader throws one error wherever it finds something
else, which is `none` here; a property of what is no object is `none` as well. -/
namespace Quicknet

open Json (Text text Value Magnitude)

def orThrow {α : Type} (message : String) : Option α → Except Failure α
  | some a => .ok a
  | none => .error (.typeError message)

/-- The member of an enumeration that a string is the label of. -/
def readLabel {α : Type} (label : α → String) (members : List α) : Value → Option α
  | .string t => members.find? fun a => text (label a) == t
  | _ => none

def encodeLabel {α : Type} (label : α → String) (a : α) : Value := .string (text (label a))

/-- `isNonNegativeSafeInteger`, with the integer. -/
def readNonNegativeSafeInteger (v : Value) : Option ℕ := do
  let n ← decodeNumber v
  guard (n ≤ MAX_SAFE_INTEGER)
  return n

/-- `isPositiveSafeInteger`, with the integer. -/
def readPositiveSafeInteger (v : Value) : Option ℕ := do
  let n ← readNonNegativeSafeInteger v
  guard (0 < n)
  return n

def encodeInteger (n : ℕ) : Value := .number (.ofNat n)

def IsTimestamp (t : Text) : Prop := (readTimestamp t).isSome = true

instance (t : Text) : Decidable (IsTimestamp t) := by unfold IsTimestamp; infer_instance

/-- `readTimestamp`, which returns the string that it was given. -/
def readTimestampText (v : Value) : Option Text := do
  let t ← decodeString v
  guard (IsTimestamp t)
  return t

def readUuidText (v : Value) : Option Text := do
  let t ← decodeString v
  guard (isUuidV4 t = true)
  return t

section Readers

theorem orThrow_ok {α : Type} {message : String} {x : Option α} {a : α}
    (h : orThrow message x = .ok a) : x = some a := by
  cases x with
  | none => cases h
  | some b => rw [Except.ok.inj h]

theorem guard_bind_some_iff {α : Type} {p : Prop} [Decidable p] {x : Option α} {a : α} :
    ((guard p : Option Unit).bind fun _ => x) = some a ↔ p ∧ x = some a := by
  by_cases hp : p <;> simp [guard, hp]

theorem readNonNegativeSafeInteger_some {v : Value} {n : ℕ}
    (h : readNonNegativeSafeInteger v = some n) : n ≤ MAX_SAFE_INTEGER := by
  unfold readNonNegativeSafeInteger at h
  obtain ⟨m, _, h⟩ := Option.bind_eq_some_iff.mp h
  obtain ⟨hm, h⟩ := guard_bind_some_iff.mp h
  obtain rfl := Option.some.inj h
  exact hm

theorem readNonNegativeSafeInteger_encode {n : ℕ} (h : n ≤ MAX_SAFE_INTEGER) :
    readNonNegativeSafeInteger (encodeInteger n) = some n := by
  have hnumber : decodeNumber (encodeInteger n) = some n := decodeNumber_ofNat h
  unfold readNonNegativeSafeInteger
  rw [hnumber]
  exact guard_bind_some_iff.mpr ⟨h, rfl⟩

theorem readPositiveSafeInteger_encode {n : ℕ} (h : n ≤ MAX_SAFE_INTEGER) (hpos : 0 < n) :
    readPositiveSafeInteger (encodeInteger n) = some n := by
  unfold readPositiveSafeInteger
  rw [readNonNegativeSafeInteger_encode h]
  exact guard_bind_some_iff.mpr ⟨hpos, rfl⟩

theorem readTimestampText_some {v : Value} {t : Text} (h : readTimestampText v = some t) :
    IsTimestamp t := by
  unfold readTimestampText at h
  obtain ⟨u, _, h⟩ := Option.bind_eq_some_iff.mp h
  obtain ⟨hu, h⟩ := guard_bind_some_iff.mp h
  obtain rfl := Option.some.inj h
  exact hu

theorem readTimestampText_string {t : Text} (h : IsTimestamp t) :
    readTimestampText (.string t) = some t := guard_bind_some_iff.mpr ⟨h, rfl⟩

theorem readUuidText_some {v : Value} {t : Text} (h : readUuidText v = some t) :
    isUuidV4 t = true := by
  unfold readUuidText at h
  obtain ⟨u, _, h⟩ := Option.bind_eq_some_iff.mp h
  obtain ⟨hu, h⟩ := guard_bind_some_iff.mp h
  obtain rfl := Option.some.inj h
  exact hu

theorem readUuidText_string {t : Text} (h : isUuidV4 t = true) :
    readUuidText (.string t) = some t := guard_bind_some_iff.mpr ⟨h, rfl⟩

theorem mapM_some_forall {α : Type} {decode : Value → Option α} {P : α → Prop}
    (h : ∀ v a, decode v = some a → P a) {vs : List Value} {l : List α}
    (hl : vs.mapM decode = some l) : ∀ a ∈ l, P a := by
  induction vs generalizing l with
  | nil =>
    obtain rfl := Option.some.inj hl
    simp
  | cons v vs ih =>
    rw [List.mapM_cons] at hl
    obtain ⟨b, hb, hl⟩ := Option.bind_eq_some_iff.mp hl
    obtain ⟨m, hm, hl⟩ := Option.bind_eq_some_iff.mp hl
    obtain rfl := Option.some.inj hl
    intro a ha
    rcases List.mem_cons.mp ha with rfl | ha
    · exact h v a hb
    · exact ih hm a ha

end Readers

namespace RpcUsage

def INVALID : String := "Invalid RPC usage snapshot."

inductive RpcClientRole
  | publicClient
  | wallet
  deriving DecidableEq, Repr

inductive RpcMethod
  | ethBlockNumber
  | ethCall
  | ethChainId
  | ethEstimateGas
  | ethFeeHistory
  | ethGasPrice
  | ethGetBalance
  | ethGetBlockByHash
  | ethGetBlockByNumber
  | ethGetCode
  | ethGetLogs
  | ethGetTransactionByHash
  | ethGetTransactionCount
  | ethGetTransactionReceipt
  | ethMaxPriorityFeePerGas
  | ethSendRawTransaction
  | other
  deriving DecidableEq, Repr

def RpcClientRole.label : RpcClientRole → String
  | .publicClient => "public"
  | .wallet => "wallet"

def RpcMethod.label : RpcMethod → String
  | .ethBlockNumber => "eth_blockNumber"
  | .ethCall => "eth_call"
  | .ethChainId => "eth_chainId"
  | .ethEstimateGas => "eth_estimateGas"
  | .ethFeeHistory => "eth_feeHistory"
  | .ethGasPrice => "eth_gasPrice"
  | .ethGetBalance => "eth_getBalance"
  | .ethGetBlockByHash => "eth_getBlockByHash"
  | .ethGetBlockByNumber => "eth_getBlockByNumber"
  | .ethGetCode => "eth_getCode"
  | .ethGetLogs => "eth_getLogs"
  | .ethGetTransactionByHash => "eth_getTransactionByHash"
  | .ethGetTransactionCount => "eth_getTransactionCount"
  | .ethGetTransactionReceipt => "eth_getTransactionReceipt"
  | .ethMaxPriorityFeePerGas => "eth_maxPriorityFeePerGas"
  | .ethSendRawTransaction => "eth_sendRawTransaction"
  | .other => "other"

def RPC_METHOD_LABELS : List RpcMethod :=
  [.ethBlockNumber, .ethCall, .ethChainId, .ethEstimateGas, .ethFeeHistory, .ethGasPrice,
    .ethGetBalance, .ethGetBlockByHash, .ethGetBlockByNumber, .ethGetCode, .ethGetLogs,
    .ethGetTransactionByHash, .ethGetTransactionCount, .ethGetTransactionReceipt,
    .ethMaxPriorityFeePerGas, .ethSendRawTransaction, .other]

structure RpcStatusCounts where
  /-- `2xx`, and so on. -/
  class2xx : ℕ
  class3xx : ℕ
  class4xx : ℕ
  class5xx : ℕ
  deriving DecidableEq, Repr

structure RpcLogicalUsageSnapshotRow where
  client : RpcClientRole
  method : RpcMethod
  started : ℕ
  completed : ℕ
  failed : ℕ
  inFlight : ℕ
  durationMs : Magnitude
  deriving DecidableEq

structure RpcHttpUsageSnapshotRow where
  client : RpcClientRole
  started : ℕ
  responses : ℕ
  transportFailures : ℕ
  inFlight : ℕ
  statuses : RpcStatusCounts
  durationMs : Magnitude
  deriving DecidableEq

structure RpcUsageSnapshot where
  collectorId : Text
  startedAt : Text
  observedAt : Text
  logical : List RpcLogicalUsageSnapshotRow
  http : List RpcHttpUsageSnapshotRow
  deriving DecidableEq

/-! Readers. -/

def readCount (v : Value) : Option ℕ := readNonNegativeSafeInteger v

def readDuration : Value → Option Magnitude
  | .number n => Json.readMagnitude n
  | _ => none

def readClient (v : Value) : Option RpcClientRole :=
  readLabel RpcClientRole.label [.publicClient, .wallet] v

def readMethod (v : Value) : Option RpcMethod := readLabel RpcMethod.label RPC_METHOD_LABELS v

/-- The relations between the counts of a row. -/
def LogicalRowConsistent (r : RpcLogicalUsageSnapshotRow) : Prop :=
  r.completed ≤ r.started ∧ r.failed ≤ r.completed ∧ r.inFlight = r.started - r.completed ∧
    (r.completed = 0 → r.durationMs.value = 0)

instance (r) : Decidable (LogicalRowConsistent r) := by unfold LogicalRowConsistent; infer_instance

def readLogicalRow (row : Value) : Option RpcLogicalUsageSnapshotRow := do
  let client ← (row.field "client").bind readClient
  let method ← (row.field "method").bind readMethod
  let started ← (row.field "started").bind readCount
  let completed ← (row.field "completed").bind readCount
  let failed ← (row.field "failed").bind readCount
  let inFlight ← (row.field "inFlight").bind readCount
  let durationMs ← (row.field "durationMs").bind readDuration
  guard (LogicalRowConsistent ⟨client, method, started, completed, failed, inFlight, durationMs⟩)
  return ⟨client, method, started, completed, failed, inFlight, durationMs⟩

/-- The loop over the classified responses, which stops at a count that is more than is left. -/
def unclassifiedResponses (responses : ℕ) (counts : List ℕ) : Option ℕ :=
  counts.foldlM (fun left count => if count ≤ left then some (left - count) else none) responses

def HttpRowConsistent (r : RpcHttpUsageSnapshotRow) : Prop :=
  r.responses ≤ r.started ∧ r.transportFailures ≤ r.started - r.responses ∧
    r.inFlight = r.started - (r.responses + r.transportFailures) ∧
    (r.responses + r.transportFailures = 0 → r.durationMs.value = 0) ∧
    (unclassifiedResponses r.responses [r.statuses.class2xx, r.statuses.class3xx,
      r.statuses.class4xx, r.statuses.class5xx]).isSome = true

instance (r) : Decidable (HttpRowConsistent r) := by unfold HttpRowConsistent; infer_instance

def readStatuses (rawStatuses : Value) : Option RpcStatusCounts := do
  let class2xx ← (rawStatuses.field "2xx").bind readCount
  let class3xx ← (rawStatuses.field "3xx").bind readCount
  let class4xx ← (rawStatuses.field "4xx").bind readCount
  let class5xx ← (rawStatuses.field "5xx").bind readCount
  return ⟨class2xx, class3xx, class4xx, class5xx⟩

def readHttpRow (row : Value) : Option RpcHttpUsageSnapshotRow := do
  let client ← (row.field "client").bind readClient
  let started ← (row.field "started").bind readCount
  let responses ← (row.field "responses").bind readCount
  let transportFailures ← (row.field "transportFailures").bind readCount
  let inFlight ← (row.field "inFlight").bind readCount
  let durationMs ← (row.field "durationMs").bind readDuration
  let statuses ← (row.field "statuses").bind readStatuses
  guard (HttpRowConsistent
    ⟨client, started, responses, transportFailures, inFlight, statuses, durationMs⟩)
  return ⟨client, started, responses, transportFailures, inFlight, statuses, durationMs⟩

/-- Strings are compared unit by unit. -/
def stringUnits (s : String) : List ℕ := (text s).map UInt16.toNat

def compareLabels (left right : String) : Ordering :=
  if stringUnits left < stringUnits right then .lt
  else if stringUnits right < stringUnits left then .gt
  else .eq

def compareLogicalRows (left right : RpcLogicalUsageSnapshotRow) : Ordering :=
  (compareLabels left.client.label right.client.label).then
    (compareLabels left.method.label right.method.label)

def compareHttpRows (left right : RpcHttpUsageSnapshotRow) : Ordering :=
  compareLabels left.client.label right.client.label

def sortLogicalRows (rows : List RpcLogicalUsageSnapshotRow) : List RpcLogicalUsageSnapshotRow :=
  rows.mergeSort fun a b => (compareLogicalRows a b).isLE

def sortHttpRows (rows : List RpcHttpUsageSnapshotRow) : List RpcHttpUsageSnapshotRow :=
  rows.mergeSort fun a b => (compareHttpRows a b).isLE

/-- Rows of an array that is not too long, with distinct keys. -/
def readRows {α κ : Type} [DecidableEq κ] (maximum : ℕ) (readRow : Value → Option α) (key : α → κ)
    (v : Value) : Option (List α) := do
  let rows ← decodeArray readRow v
  guard (rows.length ≤ maximum ∧ (rows.map key).Nodup)
  return rows

def readLogicalRows (v : Value) : Option (List RpcLogicalUsageSnapshotRow) :=
  (readRows (RPC_METHOD_LABELS.length*2) readLogicalRow (fun r => (r.client, r.method)) v).map
    sortLogicalRows

def readHttpRows (v : Value) : Option (List RpcHttpUsageSnapshotRow) :=
  (readRows 2 readHttpRow (·.client) v).map sortHttpRows

def readRpcUsageSnapshot (root : Value) : Except Failure RpcUsageSnapshot :=
  orThrow INVALID do
    let collectorId ← (root.field "collectorId").bind readUuidText
    let startedAt ← (root.field "startedAt").bind readTimestampText
    let observedAt ← (root.field "observedAt").bind readTimestampText
    let logical ← (root.field "logical").bind readLogicalRows
    let http ← (root.field "http").bind readHttpRows
    return ⟨collectorId, startedAt, observedAt, logical, http⟩

/-! The object that the reader returns, as it is printed. -/

def encodeLogicalRow (r : RpcLogicalUsageSnapshotRow) : Value :=
  .object [(text "client", encodeLabel RpcClientRole.label r.client),
    (text "method", encodeLabel RpcMethod.label r.method),
    (text "started", encodeInteger r.started), (text "completed", encodeInteger r.completed),
    (text "failed", encodeInteger r.failed), (text "inFlight", encodeInteger r.inFlight),
    (text "durationMs", .number r.durationMs.toNumber)]

def encodeStatuses (s : RpcStatusCounts) : Value :=
  .object [(text "2xx", encodeInteger s.class2xx), (text "3xx", encodeInteger s.class3xx),
    (text "4xx", encodeInteger s.class4xx), (text "5xx", encodeInteger s.class5xx)]

def encodeHttpRow (r : RpcHttpUsageSnapshotRow) : Value :=
  .object [(text "client", encodeLabel RpcClientRole.label r.client),
    (text "started", encodeInteger r.started), (text "responses", encodeInteger r.responses),
    (text "transportFailures", encodeInteger r.transportFailures),
    (text "inFlight", encodeInteger r.inFlight), (text "statuses", encodeStatuses r.statuses),
    (text "durationMs", .number r.durationMs.toNumber)]

def encodeRpcUsageSnapshot (u : RpcUsageSnapshot) : Value :=
  .object [(text "collectorId", .string u.collectorId), (text "startedAt", .string u.startedAt),
    (text "observedAt", .string u.observedAt),
    (text "logical", .array (u.logical.map encodeLogicalRow)),
    (text "http", .array (u.http.map encodeHttpRow))]

/-! What a reader returned satisfies its checks, and is read again from its encoding. -/

section RoundTrip

theorem readClient_encode (c : RpcClientRole) :
    readClient (encodeLabel RpcClientRole.label c) = some c := by
  cases c <;> rfl

theorem readMethod_encode (m : RpcMethod) :
    readMethod (encodeLabel RpcMethod.label m) = some m := by
  cases m <;> rfl

def LogicalRowValid (r : RpcLogicalUsageSnapshotRow) : Prop :=
  r.started ≤ MAX_SAFE_INTEGER ∧ LogicalRowConsistent r

def HttpRowValid (r : RpcHttpUsageSnapshotRow) : Prop :=
  r.started ≤ MAX_SAFE_INTEGER ∧ (r.statuses.class2xx ≤ MAX_SAFE_INTEGER ∧
    r.statuses.class3xx ≤ MAX_SAFE_INTEGER ∧ r.statuses.class4xx ≤ MAX_SAFE_INTEGER ∧
    r.statuses.class5xx ≤ MAX_SAFE_INTEGER) ∧ HttpRowConsistent r

theorem readLogicalRow_some {row : Value} {r : RpcLogicalUsageSnapshotRow}
    (h : readLogicalRow row = some r) : LogicalRowValid r := by
  unfold readLogicalRow at h
  obtain ⟨client, _, h⟩ := Option.bind_eq_some_iff.mp h
  obtain ⟨method, _, h⟩ := Option.bind_eq_some_iff.mp h
  obtain ⟨started, hstarted, h⟩ := Option.bind_eq_some_iff.mp h
  obtain ⟨completed, _, h⟩ := Option.bind_eq_some_iff.mp h
  obtain ⟨failed, _, h⟩ := Option.bind_eq_some_iff.mp h
  obtain ⟨inFlight, _, h⟩ := Option.bind_eq_some_iff.mp h
  obtain ⟨durationMs, _, h⟩ := Option.bind_eq_some_iff.mp h
  obtain ⟨hconsistent, h⟩ := guard_bind_some_iff.mp h
  obtain rfl := Option.some.inj h
  obtain ⟨v, _, hcount⟩ := Option.bind_eq_some_iff.mp hstarted
  exact ⟨readNonNegativeSafeInteger_some hcount, hconsistent⟩

theorem readLogicalRow_encode {r : RpcLogicalUsageSnapshotRow} (h : LogicalRowValid r) :
    readLogicalRow (encodeLogicalRow r) = some r := by
  obtain ⟨hmax, hconsistent⟩ := h
  obtain ⟨hcompleted, hfailed, hinFlight, hduration⟩ := hconsistent
  have hcount {n : ℕ} (hn : n ≤ r.started) : readCount (encodeInteger n) = some n :=
    readNonNegativeSafeInteger_encode (hn.trans hmax)
  have hclient : ((encodeLogicalRow r).field "client").bind readClient = some r.client :=
    readClient_encode r.client
  have hmethod : ((encodeLogicalRow r).field "method").bind readMethod = some r.method :=
    readMethod_encode r.method
  have hs : ((encodeLogicalRow r).field "started").bind readCount = some r.started :=
    hcount le_rfl
  have hc : ((encodeLogicalRow r).field "completed").bind readCount = some r.completed :=
    hcount hcompleted
  have hf : ((encodeLogicalRow r).field "failed").bind readCount = some r.failed :=
    hcount (hfailed.trans hcompleted)
  have hi : ((encodeLogicalRow r).field "inFlight").bind readCount = some r.inFlight :=
    hcount (by omega)
  have hd : ((encodeLogicalRow r).field "durationMs").bind readDuration = some r.durationMs :=
    Json.readMagnitude_toNumber r.durationMs
  unfold readLogicalRow
  rw [hclient, hmethod, hs, hc, hf, hi, hd]
  exact guard_bind_some_iff.mpr ⟨⟨hcompleted, hfailed, hinFlight, hduration⟩, rfl⟩

theorem readStatuses_some {v : Value} {s : RpcStatusCounts} (h : readStatuses v = some s) :
    s.class2xx ≤ MAX_SAFE_INTEGER ∧ s.class3xx ≤ MAX_SAFE_INTEGER ∧
      s.class4xx ≤ MAX_SAFE_INTEGER ∧ s.class5xx ≤ MAX_SAFE_INTEGER := by
  have hcount {key : String} {n : ℕ} (hn : (v.field key).bind readCount = some n) :
      n ≤ MAX_SAFE_INTEGER := by
    obtain ⟨w, _, hw⟩ := Option.bind_eq_some_iff.mp hn
    exact readNonNegativeSafeInteger_some hw
  unfold readStatuses at h
  obtain ⟨a, ha, h⟩ := Option.bind_eq_some_iff.mp h
  obtain ⟨b, hb, h⟩ := Option.bind_eq_some_iff.mp h
  obtain ⟨c, hc, h⟩ := Option.bind_eq_some_iff.mp h
  obtain ⟨d, hd, h⟩ := Option.bind_eq_some_iff.mp h
  obtain rfl := Option.some.inj h
  exact ⟨hcount ha, hcount hb, hcount hc, hcount hd⟩

theorem readStatuses_encode {s : RpcStatusCounts}
    (h : s.class2xx ≤ MAX_SAFE_INTEGER ∧ s.class3xx ≤ MAX_SAFE_INTEGER ∧
      s.class4xx ≤ MAX_SAFE_INTEGER ∧ s.class5xx ≤ MAX_SAFE_INTEGER) :
    readStatuses (encodeStatuses s) = some s := by
  obtain ⟨h2, h3, h4, h5⟩ := h
  have h2' : ((encodeStatuses s).field "2xx").bind readCount = some s.class2xx :=
    readNonNegativeSafeInteger_encode h2
  have h3' : ((encodeStatuses s).field "3xx").bind readCount = some s.class3xx :=
    readNonNegativeSafeInteger_encode h3
  have h4' : ((encodeStatuses s).field "4xx").bind readCount = some s.class4xx :=
    readNonNegativeSafeInteger_encode h4
  have h5' : ((encodeStatuses s).field "5xx").bind readCount = some s.class5xx :=
    readNonNegativeSafeInteger_encode h5
  unfold readStatuses
  rw [h2', h3', h4', h5']
  rfl

theorem readHttpRow_some {row : Value} {r : RpcHttpUsageSnapshotRow}
    (h : readHttpRow row = some r) : HttpRowValid r := by
  unfold readHttpRow at h
  obtain ⟨client, _, h⟩ := Option.bind_eq_some_iff.mp h
  obtain ⟨started, hstarted, h⟩ := Option.bind_eq_some_iff.mp h
  obtain ⟨responses, _, h⟩ := Option.bind_eq_some_iff.mp h
  obtain ⟨transportFailures, _, h⟩ := Option.bind_eq_some_iff.mp h
  obtain ⟨inFlight, _, h⟩ := Option.bind_eq_some_iff.mp h
  obtain ⟨durationMs, _, h⟩ := Option.bind_eq_some_iff.mp h
  obtain ⟨statuses, hstatuses, h⟩ := Option.bind_eq_some_iff.mp h
  obtain ⟨hconsistent, h⟩ := guard_bind_some_iff.mp h
  obtain rfl := Option.some.inj h
  obtain ⟨v, _, hcount⟩ := Option.bind_eq_some_iff.mp hstarted
  obtain ⟨w, _, hread⟩ := Option.bind_eq_some_iff.mp hstatuses
  exact ⟨readNonNegativeSafeInteger_some hcount, readStatuses_some hread, hconsistent⟩

theorem readHttpRow_encode {r : RpcHttpUsageSnapshotRow} (h : HttpRowValid r) :
    readHttpRow (encodeHttpRow r) = some r := by
  obtain ⟨hmax, hclasses, hconsistent⟩ := h
  have hall := hconsistent
  obtain ⟨hresponses, hfailures, hinFlight, _, _⟩ := hall
  have hcount {n : ℕ} (hn : n ≤ r.started) : readCount (encodeInteger n) = some n :=
    readNonNegativeSafeInteger_encode (hn.trans hmax)
  have hclient : ((encodeHttpRow r).field "client").bind readClient = some r.client :=
    readClient_encode r.client
  have hs : ((encodeHttpRow r).field "started").bind readCount = some r.started := hcount le_rfl
  have hr : ((encodeHttpRow r).field "responses").bind readCount = some r.responses :=
    hcount hresponses
  have ht : ((encodeHttpRow r).field "transportFailures").bind readCount =
      some r.transportFailures := hcount (by omega)
  have hi : ((encodeHttpRow r).field "inFlight").bind readCount = some r.inFlight :=
    hcount (by omega)
  have hd : ((encodeHttpRow r).field "durationMs").bind readDuration = some r.durationMs :=
    Json.readMagnitude_toNumber r.durationMs
  have hst : ((encodeHttpRow r).field "statuses").bind readStatuses = some r.statuses :=
    readStatuses_encode hclasses
  unfold readHttpRow
  rw [hclient, hs, hr, ht, hi, hd, hst]
  exact guard_bind_some_iff.mpr ⟨hconsistent, rfl⟩

/-! The order of the rows. -/

theorem compareLabels_lt {left right : String} :
    compareLabels left right = .lt ↔ stringUnits left < stringUnits right := by
  unfold compareLabels
  split_ifs with h₁ h₂
  · simp [h₁]
  · simp [h₁]
  · simp [h₁]

theorem compareLabels_eq {left right : String} :
    compareLabels left right = .eq ↔ stringUnits left = stringUnits right := by
  unfold compareLabels
  split_ifs with h₁ h₂
  · simp [h₁.ne]
  · simp [h₂.ne']
  · simp [le_antisymm (not_lt.mp h₂) (not_lt.mp h₁)]

theorem compareLabels_isLE {left right : String} :
    (compareLabels left right).isLE = true ↔ stringUnits left ≤ stringUnits right := by
  rw [Ordering.isLE_iff_eq_lt_or_eq_eq, compareLabels_lt, compareLabels_eq, le_iff_lt_or_eq]

def logicalKey (r : RpcLogicalUsageSnapshotRow) : List ℕ ×ₗ List ℕ :=
  toLex (stringUnits r.client.label, stringUnits r.method.label)

theorem compareLogicalRows_isLE {a b : RpcLogicalUsageSnapshotRow} :
    (compareLogicalRows a b).isLE = true ↔ logicalKey a ≤ logicalKey b := by
  unfold compareLogicalRows logicalKey
  rw [Ordering.isLE_then_iff_or, compareLabels_lt, compareLabels_eq, compareLabels_isLE,
    Prod.Lex.toLex_le_toLex]

theorem compareHttpRows_isLE {a b : RpcHttpUsageSnapshotRow} :
    (compareHttpRows a b).isLE = true ↔
      stringUnits a.client.label ≤ stringUnits b.client.label := compareLabels_isLE

theorem sortLogicalRows_sorted (rows : List RpcLogicalUsageSnapshotRow) :
    (sortLogicalRows rows).Pairwise fun a b => (compareLogicalRows a b).isLE = true := by
  apply List.pairwise_mergeSort
  · intro a b c hab hbc
    rw [compareLogicalRows_isLE] at hab hbc ⊢
    exact hab.trans hbc
  · intro a b
    rw [Bool.or_eq_true, compareLogicalRows_isLE, compareLogicalRows_isLE]
    exact le_total _ _

theorem sortHttpRows_sorted (rows : List RpcHttpUsageSnapshotRow) :
    (sortHttpRows rows).Pairwise fun a b => (compareHttpRows a b).isLE = true := by
  apply List.pairwise_mergeSort
  · intro a b c hab hbc
    rw [compareHttpRows_isLE] at hab hbc ⊢
    exact hab.trans hbc
  · intro a b
    rw [Bool.or_eq_true, compareHttpRows_isLE, compareHttpRows_isLE]
    exact le_total _ _

/-- The rows of an array that `readRows` returned, in whatever order they are put. -/
structure RowsValid {α κ : Type} (maximum : ℕ) (valid : α → Prop) (key : α → κ) (rows : List α) :
    Prop where
  length : rows.length ≤ maximum
  valid : ∀ r ∈ rows, valid r
  distinct : (rows.map key).Nodup

theorem RowsValid.perm {α κ : Type} {maximum : ℕ} {valid : α → Prop} {key : α → κ}
    {rows sorted : List α} (h : RowsValid maximum valid key rows) (hp : sorted.Perm rows) :
    RowsValid maximum valid key sorted :=
  ⟨hp.length_eq ▸ h.length, fun r hr => h.valid r (hp.mem_iff.mp hr),
    (hp.map key).nodup_iff.mpr h.distinct⟩

section Rows

variable {α κ : Type} [DecidableEq κ] {maximum : ℕ} {readRow : Value → Option α} {key : α → κ}
  {valid : α → Prop} {rows : List α}

theorem readRows_some (hvalid : ∀ v r, readRow v = some r → valid r) {v : Value}
    (h : readRows maximum readRow key v = some rows) : RowsValid maximum valid key rows := by
  unfold readRows at h
  obtain ⟨l, hl, h⟩ := Option.bind_eq_some_iff.mp h
  obtain ⟨⟨hlength, hdistinct⟩, h⟩ := guard_bind_some_iff.mp h
  obtain rfl := Option.some.inj h
  cases v with
  | array elements => exact ⟨hlength, mapM_some_forall hvalid hl, hdistinct⟩
  | _ => cases hl

theorem readRows_encode {encode : α → Value} (hread : ∀ r, valid r → readRow (encode r) = some r)
    (h : RowsValid maximum valid key rows) :
    readRows maximum readRow key (.array (rows.map encode)) = some rows := by
  have hmap : decodeArray readRow (.array (rows.map encode)) = some rows :=
    mapM_decode fun r hr => hread r (h.valid r hr)
  unfold readRows
  rw [hmap]
  exact guard_bind_some_iff.mpr ⟨⟨h.length, h.distinct⟩, rfl⟩

end Rows

/-- What `readRpcUsageSnapshot` returns. -/
structure RpcUsageSnapshot.Valid (u : RpcUsageSnapshot) : Prop where
  collectorId : isUuidV4 u.collectorId = true
  startedAt : IsTimestamp u.startedAt
  observedAt : IsTimestamp u.observedAt
  logical : RowsValid (RPC_METHOD_LABELS.length*2) LogicalRowValid (fun r => (r.client, r.method))
    u.logical
  logical_sorted : u.logical.Pairwise fun a b => (compareLogicalRows a b).isLE = true
  http : RowsValid 2 HttpRowValid (·.client) u.http
  http_sorted : u.http.Pairwise fun a b => (compareHttpRows a b).isLE = true

theorem readRpcUsageSnapshot_valid {root : Value} {u : RpcUsageSnapshot}
    (h : readRpcUsageSnapshot root = .ok u) : u.Valid := by
  have h := orThrow_ok h
  obtain ⟨collectorId, hid, h⟩ := Option.bind_eq_some_iff.mp h
  obtain ⟨startedAt, hstarted, h⟩ := Option.bind_eq_some_iff.mp h
  obtain ⟨observedAt, hobserved, h⟩ := Option.bind_eq_some_iff.mp h
  obtain ⟨logical, hlogical, h⟩ := Option.bind_eq_some_iff.mp h
  obtain ⟨http, hhttp, h⟩ := Option.bind_eq_some_iff.mp h
  obtain rfl := Option.some.inj h
  obtain ⟨_, _, hid⟩ := Option.bind_eq_some_iff.mp hid
  obtain ⟨_, _, hstarted⟩ := Option.bind_eq_some_iff.mp hstarted
  obtain ⟨_, _, hobserved⟩ := Option.bind_eq_some_iff.mp hobserved
  obtain ⟨_, _, hlogical⟩ := Option.bind_eq_some_iff.mp hlogical
  obtain ⟨_, _, hhttp⟩ := Option.bind_eq_some_iff.mp hhttp
  obtain ⟨rows, hrows, rfl⟩ := Option.map_eq_some_iff.mp hlogical
  obtain ⟨rows', hrows', rfl⟩ := Option.map_eq_some_iff.mp hhttp
  exact
    { collectorId := readUuidText_some hid
      startedAt := readTimestampText_some hstarted
      observedAt := readTimestampText_some hobserved
      logical := (readRows_some (fun _ _ => readLogicalRow_some) hrows).perm (List.mergeSort_perm _ _)
      logical_sorted := sortLogicalRows_sorted rows
      http := (readRows_some (fun _ _ => readHttpRow_some) hrows').perm (List.mergeSort_perm _ _)
      http_sorted := sortHttpRows_sorted rows' }

theorem readRpcUsageSnapshot_encode {u : RpcUsageSnapshot} (h : u.Valid) :
    readRpcUsageSnapshot (encodeRpcUsageSnapshot u) = .ok u := by
  have hid : ((encodeRpcUsageSnapshot u).field "collectorId").bind readUuidText =
      some u.collectorId := readUuidText_string h.collectorId
  have hstarted : ((encodeRpcUsageSnapshot u).field "startedAt").bind readTimestampText =
      some u.startedAt := readTimestampText_string h.startedAt
  have hobserved : ((encodeRpcUsageSnapshot u).field "observedAt").bind readTimestampText =
      some u.observedAt := readTimestampText_string h.observedAt
  have hlogical : ((encodeRpcUsageSnapshot u).field "logical").bind readLogicalRows =
      some u.logical := by
    change readLogicalRows (.array (u.logical.map encodeLogicalRow)) = _
    unfold readLogicalRows
    rw [readRows_encode (fun _ => readLogicalRow_encode) h.logical, Option.map_some]
    exact congrArg some (List.mergeSort_of_pairwise h.logical_sorted)
  have hhttp : ((encodeRpcUsageSnapshot u).field "http").bind readHttpRows = some u.http := by
    change readHttpRows (.array (u.http.map encodeHttpRow)) = _
    unfold readHttpRows
    rw [readRows_encode (fun _ => readHttpRow_encode) h.http, Option.map_some]
    exact congrArg some (List.mergeSort_of_pairwise h.http_sorted)
  unfold readRpcUsageSnapshot
  rw [hid, hstarted, hobserved, hlogical, hhttp]
  rfl

end RoundTrip

end RpcUsage

end Quicknet
