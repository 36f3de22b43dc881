import Quicknet.DaemonStatusSize
import Quicknet.RpcUsageLog
import Quicknet.TimestampText

/-! Every report of a collector goes through the readers of the log unchanged. -/
namespace Quicknet

open Json (Text text)
open RpcUsage (RpcClientRole RpcMethod RPC_METHOD_LABELS compareLabels RowsValid)
open scoped BigOperators

namespace RpcMetrics

/-! A report as the object that the log is given. -/

def Untyped.record (properties : List (Text × Untyped)) : Untyped :=
  .object (properties.map fun p => (p.1, some p.2))

def Untyped.list (elements : List Untyped) : Untyped := .array (elements.map some)

def Untyped.integer (n : ℤ) : Untyped := .number (some n)

def Untyped.nullable (x : Option ℚ) : Untyped := x.elim .null fun x => .number (some x)

def RpcLogicalUsageRow.untyped (r : RpcLogicalUsageRow) : Untyped :=
  .record [(text "client", .string (text r.client.label)), (text "method", .string (text r.method.label)),
    (text "started", .integer r.started), (text "completed", .integer r.completed),
    (text "failed", .integer r.failed), (text "inFlight", .integer r.inFlight),
    (text "durationMs", .number (some r.durationMs)), (text "averageDurationMs", .nullable r.averageDurationMs)]

def RpcHttpUsageRow.untyped (r : RpcHttpUsageRow) : Untyped :=
  .record [(text "client", .string (text r.client.label)), (text "started", .integer r.started),
    (text "responses", .integer r.responses), (text "transportFailures", .integer r.transportFailures),
    (text "inFlight", .integer r.inFlight),
    (text "statuses", .record (STATUS_CLASSES.map fun c => (text c.label, .integer (r.statuses c)))),
    (text "durationMs", .number (some r.durationMs)), (text "averageDurationMs", .nullable r.averageDurationMs)]

def RpcUsageView.fields (v : RpcUsageView) : List (Text × Untyped) :=
  [(text "logical", .list (v.logical.map RpcLogicalUsageRow.untyped)),
    (text "http", .list (v.http.map RpcHttpUsageRow.untyped))]

def RpcUsageInterval.untyped : RpcUsageInterval → Untyped
  | .available elapsedMs view =>
    .record ([(text "available", .boolean true), (text "elapsedMs", .number (some elapsedMs))] ++ view.fields)
  | .unavailable reason =>
    .record [(text "available", .boolean false), (text "reason", .string (text reason.label))]

def RpcUsageReport.untyped (r : RpcUsageReport) : Untyped :=
  .record [(text "collectorId", .string r.collectorId), (text "startedAt", .string r.startedAt),
    (text "cumulative", .record r.cumulative.fields), (text "interval", r.interval.untyped)]

def RpcUsageLogContext.untyped (c : RpcUsageLogContext) : Untyped :=
  .record [(text "observedAt", .string c.observedAt), (text "report", c.report.untyped)]

section Readers

theorem bind_own {α : Type} {input value : Untyped} {key : String} {read : Untyped → Option α}
    {a : Option α} (h : own input key = some value) (hread : read value = a) :
    (own input key).bind read = a := by
  rw [h, Option.bind_some, hread]

theorem count_integer {n : ℤ} (h₀ : 0 ≤ n) (h₁ : n ≤ MAX_SAFE_INTEGER) :
    count (.integer n) = some n := by
  simp [Untyped.integer, count, h₀, h₁]

theorem duration_number {x : ℚ} (h : 0 ≤ x) : duration (.number (some x)) = some x := by
  simp [duration, not_lt.mpr h]

theorem client_label (c : RpcClientRole) : client (.string (text c.label)) = some c := by
  cases c <;> rfl

theorem method_label (m : RpcMethod) : method (.string (text m.label)) = some m := by
  cases m <;> rfl

theorem unavailableReason_label (reason : UnavailableReason) :
    unavailableReason (.string (text reason.label)) = some reason := by
  cases reason <;> rfl

theorem average_averageDuration {durationMs : ℚ} {completed : ℤ}
    (h : completed = 0 → durationMs = 0) :
    average (.nullable (averageDuration durationMs completed)) durationMs completed =
      some (averageDuration durationMs completed) := by
  unfold average averageDuration
  by_cases hc : completed = 0
  · simp [hc, h hc, Untyped.nullable]
  · simp [hc, Untyped.nullable]

theorem rows_list {maximum : ℕ} {elements : List Untyped} (h : elements.length ≤ maximum) :
    rows (.list elements) maximum = some elements := by
  have hmap : (elements.map some).mapM id = some elements := mapM_decode fun _ _ => rfl
  simp [rows, Untyped.list, not_lt.mpr h, hmap]

theorem distinctRows_list {ρ κ : Type} [DecidableEq κ] {maximum : ℕ} {row : Untyped → Option ρ}
    {key : ρ → κ} {untyped : ρ → Untyped} {valid : ρ → Prop} {rs : List ρ}
    (hrow : ∀ r, valid r → row (untyped r) = some r) (h : RowsValid maximum valid key rs) :
    distinctRows maximum row key (.list (rs.map untyped)) = some rs := by
  have hmap : (rs.map untyped).mapM row = some rs := mapM_decode fun r hr => hrow r (h.valid r hr)
  have hrows : rows (.list (rs.map untyped)) maximum = some (rs.map untyped) := by
    apply rows_list
    rw [List.length_map]
    exact h.length
  unfold distinctRows
  rw [hrows, Option.bind_eq_bind, Option.bind_some, hmap]
  exact guard_bind_some_iff.mpr ⟨h.distinct, rfl⟩

end Readers

section Rows

def IsCount (n : ℤ) : Prop := 0 ≤ n ∧ n ≤ MAX_SAFE_INTEGER

/-- What a row has to be for the readers. -/
structure RpcUsageCounters.Accepted (kind : ViewKind) (completed : ℤ) (c : RpcUsageCounters) : Prop where
  started : IsCount c.started
  inFlight : IsCount c.inFlight
  durationMs : 0 ≤ c.durationMs
  consistent : Consistent kind c.started completed c.inFlight
  idle : completed = 0 → c.durationMs = 0
  average : c.averageDurationMs = averageDuration c.durationMs completed

structure RpcLogicalUsageRow.Accepted (kind : ViewKind) (r : RpcLogicalUsageRow) : Prop where
  counters : r.toRpcUsageCounters.Accepted kind r.completed
  completed : IsCount r.completed
  failed : 0 ≤ r.failed ∧ r.failed ≤ r.completed

structure RpcHttpUsageRow.Accepted (kind : ViewKind) (r : RpcHttpUsageRow) : Prop where
  counters : r.toRpcUsageCounters.Accepted kind (r.responses + r.transportFailures)
  responses : 0 ≤ r.responses
  transportFailures : 0 ≤ r.transportFailures
  completed : r.responses + r.transportFailures ≤ MAX_SAFE_INTEGER
  statuses : ∀ category, 0 ≤ r.statuses category
  classified : ∑ category, r.statuses category ≤ r.responses

theorem logicalRow_untyped {kind : ViewKind} {r : RpcLogicalUsageRow} (h : r.Accepted kind) :
    logicalRow kind r.untyped = some r := by
  obtain ⟨hcounters, hcompleted, hfailed⟩ := h
  have hclient : (own r.untyped "client").bind client = some r.client := bind_own rfl (client_label r.client)
  have hmethod : (own r.untyped "method").bind method = some r.method := bind_own rfl (method_label r.method)
  have hs : (own r.untyped "started").bind count = some r.started :=
    bind_own rfl (count_integer hcounters.started.1 hcounters.started.2)
  have hc : (own r.untyped "completed").bind count = some r.completed :=
    bind_own rfl (count_integer hcompleted.1 hcompleted.2)
  have hf : (own r.untyped "failed").bind count = some r.failed :=
    bind_own rfl (count_integer hfailed.1 (hfailed.2.trans hcompleted.2))
  have hi : (own r.untyped "inFlight").bind count = some r.inFlight :=
    bind_own rfl (count_integer hcounters.inFlight.1 hcounters.inFlight.2)
  have hd : (own r.untyped "durationMs").bind duration = some r.durationMs :=
    bind_own rfl (duration_number hcounters.durationMs)
  have ha : ((own r.untyped "averageDurationMs").bind fun input =>
      average input r.durationMs r.completed) = some r.averageDurationMs := by
    have hread := average_averageDuration hcounters.idle
    rw [← hcounters.average] at hread
    exact bind_own rfl hread
  unfold logicalRow
  rw [hclient, hmethod, hs, hc, hf, hi, hd]
  refine guard_bind_some_iff.mpr ⟨hfailed.2, guard_bind_some_iff.mpr ⟨hcounters.consistent, ?_⟩⟩
  rw [ha]
  rfl

theorem sum_statuses (s : StatusClass → ℤ) :
    ∑ category, s category = s .class2xx + (s .class3xx + (s .class4xx + s .class5xx)) := by
  show ((STATUS_CLASSES.map s : List ℤ) : Multiset ℤ).sum = _
  simp [STATUS_CLASSES]

/-- The classes are taken one after another from what is left of the responses. -/
theorem remainingResponses_some {responses : ℤ} {s : StatusClass → ℤ}
    (hs : ∀ category, 0 ≤ s category) (h : ∑ category, s category ≤ responses) :
    ∃ remaining, remainingResponses responses s = some remaining := by
  rw [sum_statuses] at h
  have h2 := hs .class2xx
  have h3 := hs .class3xx
  have h4 := hs .class4xx
  have h5 := hs .class5xx
  refine ⟨responses - s .class2xx - s .class3xx - s .class4xx - s .class5xx, ?_⟩
  unfold remainingResponses STATUS_CLASSES
  simp only [List.foldlM_cons, List.foldlM_nil]
  rw [if_neg (by omega), Option.bind_eq_bind, Option.bind_some, if_neg (by omega),
    Option.bind_some, if_neg (by omega), Option.bind_some, if_neg (by omega)]
  rfl

theorem statusRow_untyped {s : StatusClass → ℤ} (h : ∀ category, IsCount (s category)) :
    statusRow (.record (STATUS_CLASSES.map fun c => (text c.label, .integer (s c)))) = some s := by
  have hread (category : StatusClass) : count (.integer (s category)) = some (s category) :=
    count_integer (h category).1 (h category).2
  have h2 : (own (.record (STATUS_CLASSES.map fun c => (text c.label, .integer (s c)))) "2xx").bind count =
      some (s .class2xx) := bind_own rfl (hread _)
  have h3 : (own (.record (STATUS_CLASSES.map fun c => (text c.label, .integer (s c)))) "3xx").bind count =
      some (s .class3xx) := bind_own rfl (hread _)
  have h4 : (own (.record (STATUS_CLASSES.map fun c => (text c.label, .integer (s c)))) "4xx").bind count =
      some (s .class4xx) := bind_own rfl (hread _)
  have h5 : (own (.record (STATUS_CLASSES.map fun c => (text c.label, .integer (s c)))) "5xx").bind count =
      some (s .class5xx) := bind_own rfl (hread _)
  unfold statusRow
  rw [h2, h3, h4, h5]
  show some (statusCounts _ _ _ _) = some s
  congr 1
  funext category
  cases category <;> rfl

theorem httpRow_untyped {kind : ViewKind} {r : RpcHttpUsageRow} (h : r.Accepted kind) :
    httpRow kind r.untyped = some r := by
  obtain ⟨hcounters, hresponses, hfailures, hcompleted, hstatuses, hclassified⟩ := h
  have hclass (category : StatusClass) : IsCount (r.statuses category) := by
    refine ⟨hstatuses category, ?_⟩
    have hone : r.statuses category ≤ ∑ d, r.statuses d :=
      Finset.single_le_sum (fun d _ => hstatuses d) (Finset.mem_univ category)
    omega
  have hclient : (own r.untyped "client").bind client = some r.client := bind_own rfl (client_label r.client)
  have hs : (own r.untyped "started").bind count = some r.started :=
    bind_own rfl (count_integer hcounters.started.1 hcounters.started.2)
  have hr : (own r.untyped "responses").bind count = some r.responses :=
    bind_own rfl (count_integer hresponses (by omega))
  have ht : (own r.untyped "transportFailures").bind count = some r.transportFailures :=
    bind_own rfl (count_integer hfailures (by omega))
  have hi : (own r.untyped "inFlight").bind count = some r.inFlight :=
    bind_own rfl (count_integer hcounters.inFlight.1 hcounters.inFlight.2)
  have hd : (own r.untyped "durationMs").bind duration = some r.durationMs :=
    bind_own rfl (duration_number hcounters.durationMs)
  have hst : (own r.untyped "statuses").bind statusRow = some r.statuses := bind_own rfl (statusRow_untyped hclass)
  have ha : ((own r.untyped "averageDurationMs").bind fun input =>
      average input r.durationMs (r.responses + r.transportFailures)) = some r.averageDurationMs := by
    have hread := average_averageDuration hcounters.idle
    rw [← hcounters.average] at hread
    exact bind_own rfl hread
  obtain ⟨remaining, hremaining⟩ := remainingResponses_some hstatuses hclassified
  have hbound : r.transportFailures ≤ MAX_SAFE_INTEGER - r.responses := by omega
  unfold httpRow
  rw [hclient, hs, hr, ht, hi, hd, hst]
  refine guard_bind_some_iff.mpr ⟨hbound, guard_bind_some_iff.mpr ⟨hcounters.consistent, ?_⟩⟩
  rw [Option.bind_eq_bind, Option.bind_some, hremaining, Option.bind_eq_bind, Option.bind_some, ha]
  rfl

end Rows

section Sorting

/-- A sort by an order of the rows leaves a sorted list as it is. -/
theorem mergeSort_mergeSort {α β : Type} [LinearOrder β] {le : α → α → Bool} {order : α → β}
    (h : ∀ a b, le a b = true ↔ order a ≤ order b) (l : List α) :
    (l.mergeSort le).mergeSort le = l.mergeSort le := by
  apply List.mergeSort_of_pairwise
  apply List.pairwise_mergeSort
  · intro a b c hab hbc
    rw [h] at hab hbc ⊢
    exact hab.trans hbc
  · intro a b
    rw [Bool.or_eq_true, h, h]
    exact le_total _ _

def logicalOrder (r : RpcLogicalUsageRow) : List ℕ ×ₗ List ℕ :=
  toLex (RpcUsage.stringUnits r.client.label, RpcUsage.stringUnits r.method.label)

theorem sortLogicalRows_sort (l : List RpcLogicalUsageRow) :
    sortLogicalRows (sortLogicalRows l) = sortLogicalRows l := by
  apply mergeSort_mergeSort (β := List ℕ ×ₗ List ℕ)
  intro a b
  show _ ↔ logicalOrder a ≤ logicalOrder b
  unfold compareLogicalRows logicalOrder
  rw [Ordering.isLE_then_iff_or, RpcUsage.compareLabels_lt, RpcUsage.compareLabels_eq,
    RpcUsage.compareLabels_isLE, Prod.Lex.toLex_le_toLex]

theorem sortHttpRows_sort (l : List RpcHttpUsageRow) :
    sortHttpRows (sortHttpRows l) = sortHttpRows l := by
  apply mergeSort_mergeSort (β := List ℕ)
  intro a b
  show _ ↔ RpcUsage.stringUnits a.client.label ≤ RpcUsage.stringUnits b.client.label
  exact RpcUsage.compareLabels_isLE

/-- The order into which the rows of a snapshot are put. -/
def orderLogical (l : List LogicalCounters) : List LogicalCounters :=
  l.mergeSort fun a b => (compareLogicalRows (logicalUsageRow a) (logicalUsageRow b)).isLE

def orderHttp (l : List HttpCounters) : List HttpCounters :=
  l.mergeSort fun a b => (compareHttpRows (httpUsageRow a) (httpUsageRow b)).isLE

theorem sortLogicalRows_map {l : List LogicalCounters} {f : LogicalCounters → RpcLogicalUsageRow}
    (hf : ∀ r, (f r).client = r.client ∧ (f r).method = r.method) :
    sortLogicalRows (l.map f) = (orderLogical l).map f := by
  unfold sortLogicalRows orderLogical
  rw [List.map_mergeSort]
  intro a _ b _
  simp only [compareLogicalRows, logicalUsageRow, (hf a).1, (hf a).2, (hf b).1, (hf b).2]

theorem sortHttpRows_map {l : List HttpCounters} {f : HttpCounters → RpcHttpUsageRow}
    (hf : ∀ r, (f r).client = r.client) : sortHttpRows (l.map f) = (orderHttp l).map f := by
  unfold sortHttpRows orderHttp
  rw [List.map_mergeSort]
  intro a _ b _
  simp only [compareHttpRows, httpUsageRow, hf a, hf b]

theorem mem_zip_map {α β γ : Type} {f : α → β} {g : α → γ} {l : List α} {p : β × γ}
    (h : p ∈ (l.map f).zip (l.map g)) : ∃ a ∈ l, p = (f a, g a) := by
  rw [List.zip_map'] at h
  obtain ⟨a, ha, rfl⟩ := List.mem_map.mp h
  exact ⟨a, ha, rfl⟩

/-- An interval has the rows of the snapshot that it ends at, with their calls in flight. -/
theorem matches_intervalUsage (current previous : RpcMetricsSnapshot) (elapsedMs : ℚ) :
    Matches (cumulativeUsage current) (.available elapsedMs (intervalUsage current previous)) := by
  have hlogical : (intervalUsage current previous).logical = (orderLogical current.logical).map
      fun r => logicalUsageRow (r.since (KeyedRows.get LogicalCounters.key previous.logical r.key)) := by
    rw [intervalUsage_logical]
    exact sortLogicalRows_map fun _ => ⟨rfl, rfl⟩
  have hhttp : (intervalUsage current previous).http = (orderHttp current.http).map
      fun r => httpUsageRow (r.since (KeyedRows.get HttpCounters.client previous.http r.client)) := by
    rw [intervalUsage_http]
    apply sortHttpRows_map
    exact fun _ => rfl
  have hlogical' : (cumulativeUsage current).logical =
      (orderLogical current.logical).map logicalUsageRow := sortLogicalRows_map fun _ => ⟨rfl, rfl⟩
  have hhttp' : (cumulativeUsage current).http = (orderHttp current.http).map httpUsageRow :=
    sortHttpRows_map (f := httpUsageRow) fun _ => rfl
  simp only [Matches]
  rw [hlogical, hhttp, hlogical', hhttp']
  refine ⟨by simp only [List.length_map], by simp only [List.length_map], fun p hp => ?_,
    fun p hp => ?_⟩
  · obtain ⟨r, _, rfl⟩ := mem_zip_map hp
    exact ⟨rfl, rfl, rfl⟩
  · obtain ⟨r, _, rfl⟩ := mem_zip_map hp
    exact ⟨rfl, rfl⟩

end Sorting

section Snapshots

/-- The counters of an earlier row of the key, where a row without one has gone on from nothing. -/
theorem LogicalCounters.since_none (r : LogicalCounters) :
    r.since none = r.since (some (logicalRows.fresh r.key)) := by
  simp [LogicalCounters.since, Counters.since, logicalRows, RpcMetrics.counters]

theorem HttpCounters.since_none (r : HttpCounters) :
    r.since none = r.since (some (httpRows.fresh r.client)) := by
  simp [HttpCounters.since, Counters.since, httpRows, RpcMetrics.counters]

theorem LogicalCounters.since_getD (r : LogicalCounters) (e : Option LogicalCounters) :
    r.since e = r.since (some (e.getD (logicalRows.fresh r.key))) := by
  cases e with
  | none => exact r.since_none
  | some e => rfl

theorem HttpCounters.since_getD (r : HttpCounters) (e : Option HttpCounters) :
    r.since e = r.since (some (e.getD (httpRows.fresh r.client))) := by
  cases e with
  | none => exact r.since_none
  | some e => rfl

theorem LogicalCounters.since_fresh (r : LogicalCounters) :
    r.since (some (logicalRows.fresh r.key)) = r := by
  rw [← LogicalCounters.since_none]
  simp [LogicalCounters.since, Counters.since]

theorem HttpCounters.since_fresh (r : HttpCounters) :
    r.since (some (httpRows.fresh r.client)) = r := by
  rw [← HttpCounters.since_none]
  simp [HttpCounters.since, Counters.since]

variable {ρ κ : Type} {kind : RowKind ρ κ}

theorem RowKind.balanced_fresh (k : κ) : kind.Balanced (kind.fresh k) := by
  have hzero : kind.counters (kind.fresh k) = ⟨0, 0, 0, 0, 0⟩ := kind.counters_fresh k
  refine ⟨by simp [hzero], by simp [hzero], ?_⟩
  rw [kind.key_fresh]
  exact .refl _

/-- The counters of a row since an earlier one, as a usage row shows them. -/
theorem counters_accepted {view : ViewKind} {r e : ρ} (hr : kind.Balanced r) (he : kind.Balanced e)
    (hgrown : kind.Grown r e) (hmax : (kind.counters r).started ≤ MAX_SAFE_INTEGER)
    {c : Counters} (hc : c = (kind.counters r).since (some (kind.counters e)))
    (hconsistent : Consistent view c.started c.completed c.inFlight) :
    (RpcUsageCounters.mk c.started c.inFlight c.durationMs
      (averageDuration c.durationMs c.completed)).Accepted view c.completed ∧
      0 ≤ c.succeeded ∧ 0 ≤ c.failed ∧ IsCount c.completed := by
  obtain ⟨hs, hf, hd⟩ := hr.counts_nonneg
  obtain ⟨hs', hf', hd'⟩ := he.counts_nonneg
  have heq := hr.started_eq
  have heq' := he.started_eq
  have hi := hr.inFlight_nonneg
  have hi' := he.inFlight_nonneg
  have hcompleted := (kind.counters r).completed_since (some (kind.counters e))
  rw [← hc] at hcompleted
  obtain ⟨hstarted, hsucceeded, hfailed, hduration, hidle⟩ := hgrown.counters
  simp only [Option.elim_some, Counters.completed] at hcompleted hidle
  subst hc
  simp only [Counters.since, Counters.completed, Option.elim_some] at hcompleted hconsistent ⊢
  refine ⟨⟨⟨?_, ?_⟩, ⟨hi, ?_⟩, ?_, hconsistent, fun hnone => ?_, rfl⟩, ?_, ?_, ?_, ?_⟩
  · show 0 ≤ _ - _
    omega
  · show _ - _ ≤ _
    omega
  · show (kind.counters r).inFlight ≤ _
    omega
  · show 0 ≤ _ - _
    linarith
  · show _ - _ = _
    rw [hidle (by omega), sub_self]
  all_goals omega

theorem logicalUsageRow_accepted {view : ViewKind} {r e : LogicalCounters}
    (hr : logicalRows.Balanced r) (he : logicalRows.Balanced e) (hgrown : logicalRows.Grown r e)
    (hmax : r.started ≤ MAX_SAFE_INTEGER)
    (hconsistent : Consistent view (r.since (some e)).started (r.since (some e)).completed
      (r.since (some e)).inFlight) : (logicalUsageRow (r.since (some e))).Accepted view := by
  obtain ⟨hcounters, hs, hf, hcompleted⟩ := counters_accepted hr he hgrown hmax rfl hconsistent
  refine ⟨hcounters, hcompleted, hf, ?_⟩
  show (r.since (some e)).failed ≤ (r.since (some e)).completed
  unfold Counters.completed
  exact le_add_of_nonneg_left hs

theorem httpUsageRow_accepted {view : ViewKind} {r e : HttpCounters}
    (hr : httpRows.Balanced r) (he : httpRows.Balanced e) (hgrown : httpRows.Grown r e)
    (hmax : r.started ≤ MAX_SAFE_INTEGER)
    (hconsistent : Consistent view (r.since (some e)).started (r.since (some e)).completed
      (r.since (some e)).inFlight) : (httpUsageRow (r.since (some e))).Accepted view := by
  obtain ⟨hcounters, hs, hf, hcompleted⟩ := counters_accepted hr he hgrown hmax rfl hconsistent
  refine ⟨hcounters, hs, hf, hcompleted.2, fun category => ?_, ?_⟩
  · exact sub_nonneg.mpr (hgrown.statuses category)
  · have hclassified := hgrown.classified
    show ∑ category, (r.statuses category - e.statuses category) ≤ r.succeeded - e.succeeded
    rw [Finset.sum_sub_distrib]
    exact hclassified

theorem consistent_of_balanced {c : Counters} (view : ViewKind)
    (h : c.started = c.succeeded + c.failed + c.inFlight) (hi : 0 ≤ c.inFlight) :
    Consistent view c.started c.completed c.inFlight := by
  unfold Consistent Counters.completed
  omega

theorem consistent_interval (started completed inFlight : ℤ) :
    Consistent .interval started completed inFlight := fun h => (by cases h)

section Following

variable {current previous : RpcMetricsSnapshot}

/-- What the interval subtracts from a row: the earlier row of its key, or a fresh one. -/
theorem earlier_grown [DecidableEq κ] {rows earlier : List ρ} (h : kind.Follows rows earlier)
    (hnodup : (rows.map kind.key).Nodup) (hrows : ∀ r ∈ rows, kind.Balanced r)
    (hearlier : ∀ e ∈ earlier, kind.Balanced e) {r : ρ} (hr : r ∈ rows) :
    kind.Balanced ((KeyedRows.get kind.key earlier (kind.key r)).getD (kind.fresh (kind.key r))) ∧
      kind.Grown r
        ((KeyedRows.get kind.key earlier (kind.key r)).getD (kind.fresh (kind.key r))) := by
  cases hget : KeyedRows.get kind.key earlier (kind.key r) with
  | none => exact ⟨RowKind.balanced_fresh _, (hrows r hr).grown⟩
  | some e =>
    obtain ⟨he, hkey⟩ := KeyedRows.get_some hget
    obtain ⟨r', hr', hkey', hgrown⟩ := h e he
    have hsame : r' = r := KeyedRows.eq_of_key_eq hnodup hr' hr (hkey'.trans hkey)
    exact ⟨hearlier e he, hsame ▸ hgrown⟩

theorem exists_logical_since (h : current.Follows previous) (hcurrent : current.Balanced)
    (hprevious : previous.Balanced) {r : LogicalCounters} (hr : r ∈ current.logical) :
    ∃ e, logicalRows.Balanced e ∧ logicalRows.Grown r e ∧
      r.since (KeyedRows.get LogicalCounters.key previous.logical r.key) = r.since (some e) := by
  obtain ⟨hbalanced, hgrown⟩ := earlier_grown h.logical hcurrent.logical_nodup hcurrent.logical
    hprevious.logical hr
  exact ⟨_, hbalanced, hgrown, r.since_getD _⟩

theorem exists_http_since (h : current.Follows previous) (hcurrent : current.Balanced)
    (hprevious : previous.Balanced) {r : HttpCounters} (hr : r ∈ current.http) :
    ∃ e, httpRows.Balanced e ∧ httpRows.Grown r e ∧
      r.since (KeyedRows.get HttpCounters.client previous.http r.client) = r.since (some e) := by
  obtain ⟨hbalanced, hgrown⟩ := earlier_grown h.http hcurrent.http_nodup hcurrent.http
    hprevious.http hr
  exact ⟨_, hbalanced, hgrown, r.since_getD _⟩

/-- There are no more rows than keys. -/
theorem length_le_of_keys {α κ : Type} {key : α → κ} {l : List α} (keys : List κ)
    (h : (l.map key).Nodup) (hall : ∀ k, k ∈ keys) : l.length ≤ keys.length := by
  rw [← List.length_map key]
  exact (h.subperm fun k _ => hall k).length_le

theorem logical_length_le {l : List LogicalCounters} (h : (l.map logicalRows.key).Nodup) :
    l.length ≤ RPC_METHOD_LABELS.length*2 := by
  apply (length_le_of_keys ([.publicClient, .wallet].product RPC_METHOD_LABELS) h fun k => ?_).trans_eq
  · rfl
  · obtain ⟨c, m⟩ := k
    apply List.pair_mem_product.mpr
    constructor
    · cases c <;> simp
    · cases m <;> simp [RPC_METHOD_LABELS]

theorem http_length_le {l : List HttpCounters} (h : (l.map httpRows.key).Nodup) :
    l.length ≤ 2 := by
  apply length_le_of_keys [.publicClient, .wallet] h
  intro c
  cases c <;> simp

/-- What the readers of a view require of it. -/
structure RpcUsageView.Accepted (kind : ViewKind) (v : RpcUsageView) : Prop where
  logical : RowsValid (RPC_METHOD_LABELS.length*2) (RpcLogicalUsageRow.Accepted kind)
    RpcLogicalUsageRow.key v.logical
  http : RowsValid 2 (RpcHttpUsageRow.Accepted kind) RpcHttpUsageRow.client v.http
  logical_sorted : sortLogicalRows v.logical = v.logical
  http_sorted : sortHttpRows v.http = v.http

theorem cumulativeUsage_accepted {kind : ViewKind} {s : RpcMetricsSnapshot}
    (hlogical : (s.logical.map logicalRows.key).Nodup) (hhttp : (s.http.map httpRows.key).Nodup)
    (hl : ∀ r ∈ s.logical, (logicalUsageRow r).Accepted kind)
    (hh : ∀ r ∈ s.http, (httpUsageRow r).Accepted kind) : (cumulativeUsage s).Accepted kind where
  logical := by
    apply RowsValid.perm _ (List.mergeSort_perm _ _)
    refine ⟨?_, fun r hr => ?_, ?_⟩
    · rw [List.length_map]
      exact logical_length_le hlogical
    · obtain ⟨r₀, hr₀, rfl⟩ := List.mem_map.mp hr
      exact hl r₀ hr₀
    · rw [List.map_map]
      exact hlogical
  http := by
    apply RowsValid.perm _ (List.mergeSort_perm _ _)
    refine ⟨?_, fun r hr => ?_, ?_⟩
    · rw [List.length_map]
      exact http_length_le hhttp
    · obtain ⟨r₀, hr₀, rfl⟩ := List.mem_map.mp hr
      exact hh r₀ hr₀
    · rw [List.map_map]
      exact hhttp
  logical_sorted := sortLogicalRows_sort _
  http_sorted := sortHttpRows_sort _

/-- No more calls were started in any row than the counters can hold. -/
def RpcMetricsSnapshot.Countable (s : RpcMetricsSnapshot) : Prop :=
  (∀ r ∈ s.logical, r.started < 2^53) ∧ ∀ r ∈ s.http, r.started < 2^53

theorem RpcMetricsSnapshot.Countable.le {s : RpcMetricsSnapshot} (h : s.Countable) :
    (∀ r ∈ s.logical, r.started ≤ MAX_SAFE_INTEGER) ∧
      ∀ r ∈ s.http, r.started ≤ MAX_SAFE_INTEGER := by
  have hle {n : ℤ} (hn : n < 2^53) : n ≤ MAX_SAFE_INTEGER := by
    simp only [MAX_SAFE_INTEGER]
    omega
  exact ⟨fun r hr => hle (h.1 r hr), fun r hr => hle (h.2 r hr)⟩

theorem cumulative_accepted (hcurrent : current.Balanced) (hmax : current.Countable) :
    (cumulativeUsage current).Accepted .cumulative := by
  apply cumulativeUsage_accepted hcurrent.logical_nodup hcurrent.http_nodup
  · intro r hr
    have hbalanced := hcurrent.logical r hr
    have hrow := logicalUsageRow_accepted hbalanced (RowKind.balanced_fresh r.key) hbalanced.grown
      (hmax.le.1 r hr)
      (by rw [r.since_fresh]; exact consistent_of_balanced .cumulative hbalanced.started_eq
            hbalanced.inFlight_nonneg)
    rwa [r.since_fresh] at hrow
  · intro r hr
    have hbalanced := hcurrent.http r hr
    have hrow := httpUsageRow_accepted hbalanced (RowKind.balanced_fresh r.client) hbalanced.grown
      (hmax.le.2 r hr)
      (by rw [r.since_fresh]; exact consistent_of_balanced .cumulative hbalanced.started_eq
            hbalanced.inFlight_nonneg)
    rwa [r.since_fresh] at hrow

theorem interval_accepted (h : current.Follows previous) (hcurrent : current.Balanced)
    (hprevious : previous.Balanced) (hmax : current.Countable) :
    (intervalUsage current previous).Accepted .interval := by
  apply cumulativeUsage_accepted
  · rw [intervalSnapshot, List.map_map]
    exact hcurrent.logical_nodup
  · rw [intervalSnapshot, List.map_map]
    exact hcurrent.http_nodup
  · intro r hr
    obtain ⟨r₀, hr₀, rfl⟩ := List.mem_map.mp hr
    obtain ⟨e, he, hgrown, hsince⟩ := exists_logical_since h hcurrent hprevious hr₀
    rw [hsince]
    exact logicalUsageRow_accepted (hcurrent.logical r₀ hr₀) he hgrown (hmax.le.1 r₀ hr₀)
      (consistent_interval _ _ _)
  · intro r hr
    obtain ⟨r₀, hr₀, rfl⟩ := List.mem_map.mp hr
    obtain ⟨e, he, hgrown, hsince⟩ := exists_http_since h hcurrent hprevious hr₀
    rw [hsince]
    exact httpUsageRow_accepted (hcurrent.http r₀ hr₀) he hgrown (hmax.le.2 r₀ hr₀)
      (consistent_interval _ _ _)

end Following

end Snapshots

section Context

theorem ok_bind {α β : Type} (a : α) (f : α → Except Failure β) :
    ((Except.ok a : Except Failure α) >>= f) = f a := rfl

theorem projectRpcUsageLogView_ok {kind : ViewKind} {v : RpcUsageView} {input : Untyped}
    (h : v.Accepted kind)
    (hlogical : own input "logical" = some (.list (v.logical.map RpcLogicalUsageRow.untyped)))
    (hhttp : own input "http" = some (.list (v.http.map RpcHttpUsageRow.untyped))) :
    projectRpcUsageLogView kind input = .ok v := by
  have hl : (own input "logical").bind (distinctRows (RPC_METHOD_LABELS.length*2) (logicalRow kind)
      RpcLogicalUsageRow.key) = some v.logical :=
    bind_own hlogical (distinctRows_list (fun _ => logicalRow_untyped) h.logical)
  have hh : (own input "http").bind (distinctRows 2 (httpRow kind) RpcHttpUsageRow.client) =
      some v.http := bind_own hhttp (distinctRows_list (fun _ => httpRow_untyped) h.http)
  unfold projectRpcUsageLogView
  rw [hl, hh]
  show Except.ok (RpcUsageView.mk (sortLogicalRows v.logical) (sortHttpRows v.http)) = _
  rw [h.logical_sorted, h.http_sorted]

theorem projectInterval_ok {interval : RpcUsageInterval}
    (h : ∀ elapsedMs view, interval = .available elapsedMs view →
      0 < elapsedMs ∧ view.Accepted .interval) : projectInterval interval.untyped = .ok interval := by
  cases interval with
  | unavailable reason =>
    have havailable : Context.own (RpcUsageInterval.unavailable reason).untyped "available" =
        .ok (.boolean false) := rfl
    have hreason : Context.own (RpcUsageInterval.unavailable reason).untyped "reason" =
        .ok (.string (text reason.label)) := rfl
    have hlabel : orThrow Context.INVALID (unavailableReason (.string (text reason.label))) =
        .ok reason := by rw [unavailableReason_label, orThrow]
    unfold projectInterval
    simp only [havailable, ok_bind, hreason, hlabel]
    rfl
  | available elapsedMs view =>
    obtain ⟨hpositive, haccepted⟩ := h elapsedMs view rfl
    have havailable : Context.own (RpcUsageInterval.available elapsedMs view).untyped "available" =
        .ok (.boolean true) := rfl
    have helapsedMs : Context.own (RpcUsageInterval.available elapsedMs view).untyped "elapsedMs" =
        .ok (.number (some elapsedMs)) := rfl
    have helapsed : orThrow Context.INVALID (elapsed (.number (some elapsedMs))) =
        .ok elapsedMs := by simp [orThrow, elapsed, not_le.mpr hpositive]
    have hview : projectRpcUsageLogView .interval (RpcUsageInterval.available elapsedMs view).untyped =
        .ok view := projectRpcUsageLogView_ok haccepted rfl rfl
    unfold projectInterval
    simp only [havailable, ok_bind, helapsedMs, helapsed, hview]
    rfl

theorem timestamp_toISOString {time : ℤ} (h : |time| ≤ MAX_TIME_VALUE) :
    Context.timestamp (.string (toISOString time)) = .ok (toISOString time) := by
  have htimestamp : IsTimestamp (toISOString time) := by
    rw [IsTimestamp, readTimestamp_toISOString h]
    rfl
  have hlength := (DaemonStatus.timestamp_plain htimestamp).1
  have hread : (do
      guard ((toISOString time).length ≤ 27 ∧ IsTimestamp (toISOString time))
      return toISOString time : Option Text) = some (toISOString time) :=
    guard_bind_some_iff.mpr ⟨⟨hlength, htimestamp⟩, rfl⟩
  simp only [Context.timestamp, hread, orThrow]

theorem collectorId_uuid {t : Text} (h : isUuidV4 t = true) :
    Context.collectorId (.string t) = .ok t := by
  have hread : (do
      guard (isUuidV4 t = true)
      return t : Option Text) = some t := guard_bind_some_iff.mpr ⟨h, rfl⟩
  simp only [Context.collectorId, hread, orThrow]

/-- A report whose parts are accepted goes through as it is. -/
theorem projectRpcUsageLogContext_ok {createdAt observedAt : ℤ} {report : RpcUsageReport}
    (hobserved : |observedAt| ≤ MAX_TIME_VALUE) (hcreated : |createdAt| ≤ MAX_TIME_VALUE)
    (hid : isUuidV4 report.collectorId = true) (hstarted : report.startedAt = toISOString createdAt)
    (hcumulative : report.cumulative.Accepted .cumulative)
    (hinterval : ∀ elapsedMs view, report.interval = .available elapsedMs view →
      0 < elapsedMs ∧ view.Accepted .interval)
    (hmatches : Matches report.cumulative report.interval) :
    projectRpcUsageLogContext (RpcUsageLogContext.mk (toISOString observedAt) report).untyped =
      .ok ⟨toISOString observedAt, report⟩ := by
  obtain ⟨collectorId, startedAt, cumulative, interval⟩ := report
  simp only at hid hstarted hcumulative hinterval hmatches
  subst hstarted
  have hreport : Context.own (RpcUsageLogContext.mk (toISOString observedAt)
      ⟨collectorId, toISOString createdAt, cumulative, interval⟩).untyped "report" =
      .ok (RpcUsageReport.untyped ⟨collectorId, toISOString createdAt, cumulative, interval⟩) := rfl
  have hobservedAt : Context.own (RpcUsageLogContext.mk (toISOString observedAt)
      ⟨collectorId, toISOString createdAt, cumulative, interval⟩).untyped "observedAt" =
      .ok (.string (toISOString observedAt)) := rfl
  have hfield (key : String) (v : Untyped)
      (h : own (RpcUsageReport.untyped ⟨collectorId, toISOString createdAt, cumulative, interval⟩) key =
        some v) :
      Context.own (RpcUsageReport.untyped ⟨collectorId, toISOString createdAt, cumulative, interval⟩) key =
        .ok v := by rw [Context.own, h, orThrow]
  have hview : projectRpcUsageLogView .cumulative (.record cumulative.fields) = .ok cumulative :=
    projectRpcUsageLogView_ok hcumulative rfl rfl
  have hrequire : requireThat Context.INVALID (Matches cumulative interval) = .ok () := by
    simp [requireThat, hmatches]
  unfold projectRpcUsageLogContext
  simp only [hobservedAt, ok_bind, timestamp_toISOString hobserved, hreport,
    hfield "collectorId" _ rfl, collectorId_uuid hid, hfield "startedAt" _ rfl,
    timestamp_toISOString hcreated, hfield "cumulative" _ rfl, hview, hfield "interval" _ rfl,
    projectInterval_ok hinterval, hrequire]
  rfl

end Context

/-- What a collector reports by its snapshots, in the order in which they were taken. -/
structure UsageAccounted (observations : List RpcMetricsObservation) : Prop where
  logical_balanced : ∀ o ∈ observations, ∀ r ∈ o.snapshot.logical,
    r.started = r.succeeded + r.failed + r.inFlight
  http_balanced : ∀ o ∈ observations, ∀ r ∈ o.snapshot.http,
    r.started = r.succeeded + r.failed + r.inFlight ∧
      ∑ category, r.statuses category ≤ r.succeeded
  not_regressed : observations.Pairwise fun previous current =>
    snapshotCountersRegressed current.snapshot previous.snapshot = false
  available : observations.Pairwise fun previous current =>
    ∀ a b, previous.observedAtMs = some a → current.observedAtMs = some b → a < b →
      usageInterval current (some previous) =
        .available (b - a) (intervalUsage current.snapshot previous.snapshot)
  /-- Snapshots that were taken one after another, from the first of them to the last. -/
  added : ∀ first rest, first :: rest <:+: observations → (first :: rest).IsChain Elapsed →
    (∀ k, (((first :: rest).zip rest).map fun p =>
        (usageInterval p.2 (some p.1)).logicalAmounts k).sum =
      (usageInterval (rest.getLastD first) (some first)).logicalAmounts k) ∧
    ∀ k, (((first :: rest).zip rest).map fun p =>
        (usageInterval p.2 (some p.1)).httpAmounts k).sum =
      (usageInterval (rest.getLastD first) (some first)).httpAmounts k
  accepted : ∀ current ∈ observations, current.snapshot.Countable →
    ∀ previous : Option RpcMetricsObservation, (∀ p ∈ previous, [p, current].Sublist observations) →
    ∀ observedAt, |observedAt| ≤ MAX_TIME_VALUE →
      projectRpcUsageLogContext
          (RpcUsageLogContext.mk (toISOString observedAt) (createRpcUsageReport current previous)).untyped =
        .ok ⟨toISOString observedAt, createRpcUsageReport current previous⟩

/-- An interval is only ever available with time between its snapshots. -/
theorem usageInterval_eq_available {current : RpcMetricsObservation}
    {previous : Option RpcMetricsObservation} {elapsedMs : ℚ} {view : RpcUsageView}
    (h : usageInterval current previous = .available elapsedMs view) :
    0 < elapsedMs ∧ ∃ p ∈ previous, view = intervalUsage current.snapshot p.snapshot := by
  cases previous with
  | none => cases h
  | some p =>
    unfold usageInterval at h
    dsimp only at h
    split at h
    · cases h
    · split at h
      · split_ifs at h with helapsed
        obtain ⟨rfl, rfl⟩ := RpcUsageInterval.available.inj h
        exact ⟨not_le.mp helapsed, p, rfl, rfl⟩
      · cases h

theorem usage_accounted {collectorId : Text} {createdAt : ℤ} (hid : isUuidV4 collectorId = true)
    (hcreated : |createdAt| ≤ MAX_TIME_VALUE) (inputs : List Input) :
    UsageAccounted ((system collectorId (toISOString createdAt)).run inputs).2 := by
  have hobserved := observed_run collectorId (toISOString createdAt) inputs
  have hbalanced := hobserved.balanced
  have hordered := hobserved.ordered
  refine ⟨fun o ho r hr => ((hbalanced o ho).logical r hr).started_eq, fun o ho r hr => ?_, ?_, ?_,
    fun first rest hwindow helapsed => ?_, fun current hcurrent hmax previous hprevious => ?_⟩
  · exact ⟨((hbalanced o ho).http r hr).started_eq, ((hbalanced o ho).http r hr).classified⟩
  · apply List.Pairwise.imp_of_mem _ hordered
    intro previous current _ hcurrent hfollows
    exact not_regressed hfollows (hbalanced current hcurrent)
  · apply List.Pairwise.imp_of_mem _ hordered
    intro previous current _ hcurrent hfollows a b ha hb hab
    exact usageInterval_available hfollows (hbalanced current hcurrent) ha hb hab
  -- the intervals of a window telescope over its snapshots
  · have hwindowed := hordered.sublist hwindow.sublist
    have hall : ∀ o ∈ first :: rest, o.snapshot.Balanced :=
      fun o ho => hbalanced o (hwindow.subset ho)
    refine ⟨fun k => ?_, fun k => ?_⟩
    · exact sum_intervals (fun _ => rfl)
        (fun hfollows hcurrent => logicalAmounts_intervalUsage hfollows hcurrent k) hall hwindowed
        helapsed
    · exact sum_intervals (fun _ => rfl)
        (fun hfollows hcurrent => httpAmounts_intervalUsage hfollows hcurrent k) hall hwindowed
        helapsed
  · intro observedAt hrange
    -- every part of the report passes its reader: the identity, the dates, the rows and their match
    have hfollowed := hobserved.followed current hcurrent
    have hcollector : current.snapshot.collectorId = collectorId :=
      hfollowed.collectorId.symm.trans hobserved.identity.1
    have hstarted : current.snapshot.startedAt = toISOString createdAt :=
      hfollowed.startedAt.symm.trans hobserved.identity.2
    apply projectRpcUsageLogContext_ok hrange hcreated
    · rw [createRpcUsageReport, hcollector]
      exact hid
    · exact hstarted
    · exact cumulative_accepted (hbalanced current hcurrent) hmax
    · intro elapsedMs view hview
      obtain ⟨hpositive, p, hp, rfl⟩ := usageInterval_eq_available hview
      have hpair := hprevious p hp
      have hfollows := List.pairwise_iff_forall_sublist.mp hordered hpair
      have hp' : p ∈ ((system collectorId (toISOString createdAt)).run inputs).2 :=
        hpair.subset List.mem_cons_self
      exact ⟨hpositive, interval_accepted hfollows (hbalanced current hcurrent) (hbalanced p hp') hmax⟩
    · simp only [createRpcUsageReport]
      cases hinterval : usageInterval current previous with
      | unavailable reason => trivial
      | available elapsedMs view =>
        obtain ⟨_, p, _, rfl⟩ := usageInterval_eq_available hinterval
        exact matches_intervalUsage _ _ _

/-- A call to the wallet's node goes on over the first snapshot, and one to the public node over
the second. -/
def sampleInputs : List Input :=
  [.http .wallet 0, .observe (some 10), .logical .publicClient (text "eth_call") 12,
    .settleHttp 0 (.resolved (some 200)) 15, .observe (some 20), .settleLogical 0 .rejected 25,
    .observe (some 30)]

theorem sampleInputs_accounted :
    UsageAccounted ((system (text "01234567-89ab-4cde-8f01-23456789abcd") (toISOString 0)).run
      sampleInputs).2 ∧
      ((system (text "01234567-89ab-4cde-8f01-23456789abcd") (toISOString 0)).run
        sampleInputs).2.length = 3 :=
  ⟨usage_accounted (by decide) (by decide) sampleInputs, by decide⟩

end RpcMetrics

end Quicknet
