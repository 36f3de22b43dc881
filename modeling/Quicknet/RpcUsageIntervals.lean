import Quicknet.RpcUsageReport

/-! The interval between two snapshots of a collector is available, and intervals that follow
one another add up. -/
namespace Quicknet

open RpcUsage (RpcClientRole RpcMethod)
open scoped BigOperators

namespace RpcMetrics

/-! What adds up of a row: its calls and their time, and the responses of each class. -/

abbrev LogicalAmounts := ℤ × ℤ × ℤ × ℚ

abbrev HttpAmounts := ℤ × ℤ × ℤ × (StatusClass → ℤ) × ℚ

def RpcLogicalUsageRow.key (r : RpcLogicalUsageRow) : RpcClientRole × RpcMethod :=
  (r.client, r.method)

def RpcLogicalUsageRow.amounts (r : RpcLogicalUsageRow) : LogicalAmounts :=
  (r.started, r.completed, r.failed, r.durationMs)

def RpcHttpUsageRow.amounts (r : RpcHttpUsageRow) : HttpAmounts :=
  (r.started, r.responses, r.transportFailures, r.statuses, r.durationMs)

/-- A row that a view does not have counts nothing. -/
def RpcUsageView.logicalAmounts (v : RpcUsageView) (k : RpcClientRole × RpcMethod) :
    LogicalAmounts := KeyedRows.total RpcLogicalUsageRow.key RpcLogicalUsageRow.amounts v.logical k

def RpcUsageView.httpAmounts (v : RpcUsageView) (k : RpcClientRole) : HttpAmounts :=
  KeyedRows.total RpcHttpUsageRow.client RpcHttpUsageRow.amounts v.http k

/-- Nor does an interval that is not available. -/
def RpcUsageInterval.logicalAmounts (k : RpcClientRole × RpcMethod) :
    RpcUsageInterval → LogicalAmounts
  | .available _ view => view.logicalAmounts k
  | .unavailable _ => 0

def RpcUsageInterval.httpAmounts (k : RpcClientRole) : RpcUsageInterval → HttpAmounts
  | .available _ view => view.httpAmounts k
  | .unavailable _ => 0

/-- The first snapshot was taken before the second, by its time of observation. -/
def Elapsed (previous current : RpcMetricsObservation) : Prop :=
  ∃ a b, previous.observedAtMs = some a ∧ current.observedAtMs = some b ∧ a < b

theorem Elapsed.trans {a b c : RpcMetricsObservation} (h₁ : Elapsed a b) (h₂ : Elapsed b c) :
    Elapsed a c := by
  obtain ⟨x, y, hx, hy, hxy⟩ := h₁
  obtain ⟨y', z, hy', hz, hyz⟩ := h₂
  obtain rfl : y = y' := Option.some.inj (hy.symm.trans hy')
  exact ⟨x, z, hx, hz, hxy.trans hyz⟩

instance : IsTrans RpcMetricsObservation Elapsed := ⟨fun _ _ _ => Elapsed.trans⟩

section Interval

variable {current previous : RpcMetricsSnapshot}

theorem countersRegressed_eq_false {later earlier : Counters} (h : later.Grown earlier) :
    countersRegressed later earlier = false := by
  have hstarted := not_lt.mpr h.started
  have hsucceeded := not_lt.mpr h.succeeded
  have hfailed := not_lt.mpr h.failed
  have hduration := not_lt.mpr h.durationMs
  simp [countersRegressed, hstarted, hsucceeded, hfailed, hduration]

theorem not_regressed (h : current.Follows previous) (hcurrent : current.Balanced) :
    snapshotCountersRegressed current previous = false := by
  unfold snapshotCountersRegressed
  rw [Bool.or_eq_false_iff, List.any_eq_false, List.any_eq_false]
  refine ⟨fun earlier hearlier => ?_, fun earlier hearlier => ?_⟩
  · obtain ⟨row, hrow, hkey, hgrown⟩ := h.logical earlier hearlier
    have hget : KeyedRows.get LogicalCounters.key current.logical earlier.key = some row :=
      (KeyedRows.get_eq_some_iff hcurrent.logical_nodup).mpr ⟨hrow, hkey⟩
    have hcounters : countersRegressed row.toCounters earlier.toCounters = false :=
      countersRegressed_eq_false hgrown.counters
    simp [hget, hcounters]
  · obtain ⟨row, hrow, hkey, hgrown⟩ := h.http earlier hearlier
    have hget : KeyedRows.get HttpCounters.client current.http earlier.client = some row :=
      (KeyedRows.get_eq_some_iff hcurrent.http_nodup).mpr ⟨hrow, hkey⟩
    have hcounters : countersRegressed row.toCounters earlier.toCounters = false :=
      countersRegressed_eq_false hgrown.counters
    have hstatuses (category : StatusClass) :
        earlier.statuses category ≤ row.statuses category := hgrown.statuses category
    simp [hget, hcounters, hstatuses]

/-- With time between them, the interval between two snapshots in order is available. -/
theorem usageInterval_available {current previous : RpcMetricsObservation} {a b : ℚ}
    (h : current.snapshot.Follows previous.snapshot) (hcurrent : current.snapshot.Balanced)
    (ha : previous.observedAtMs = some a) (hb : current.observedAtMs = some b) (hab : a < b) :
    usageInterval current (some previous) =
      .available (b - a) (intervalUsage current.snapshot previous.snapshot) := by
  have helapsed : ¬b - a ≤ 0 := by linarith
  simp only [usageInterval, h.collectorId, ne_eq, not_true_eq_false, if_false, ha, hb, helapsed,
    not_regressed h hcurrent, Bool.false_eq_true]

end Interval

section Sums

def LogicalCounters.amounts (r : LogicalCounters) : LogicalAmounts :=
  (r.started, r.completed, r.failed, r.durationMs)

def HttpCounters.amounts (r : HttpCounters) : HttpAmounts :=
  (r.started, r.succeeded, r.failed, r.statuses, r.durationMs)

/-- The completed calls of a difference are the difference of the completed calls. -/
theorem Counters.completed_since (r : Counters) (e : Option Counters) :
    (r.since e).completed = r.completed - e.elim 0 Counters.completed := by
  cases e with
  | none => simp [Counters.since, Counters.completed]
  | some e =>
    simp only [Counters.since, Counters.completed, Option.elim_some]
    omega

theorem LogicalCounters.amounts_since (r : LogicalCounters) (e : Option LogicalCounters) :
    (logicalUsageRow (r.since e)).amounts = r.amounts - e.elim 0 LogicalCounters.amounts := by
  have hcompleted := r.toCounters.completed_since (e.map LogicalCounters.toCounters)
  simp only [RpcLogicalUsageRow.amounts, logicalUsageRow, LogicalCounters.since, hcompleted]
  cases e <;> simp [Counters.since, LogicalCounters.amounts]

theorem HttpCounters.amounts_since (r : HttpCounters) (e : Option HttpCounters) :
    (httpUsageRow (r.since e)).amounts = r.amounts - e.elim 0 HttpCounters.amounts := by
  simp only [RpcHttpUsageRow.amounts, httpUsageRow, HttpCounters.since]
  cases e with
  | none => simp [Counters.since, HttpCounters.amounts]
  | some e =>
    simp only [Counters.since, HttpCounters.amounts, Option.map_some, Option.elim_some,
      Prod.mk_sub_mk]
    rfl

variable {current previous : RpcMetricsSnapshot}

theorem intervalUsage_logical (current previous : RpcMetricsSnapshot) :
    (intervalUsage current previous).logical = sortLogicalRows (current.logical.map fun r =>
      logicalUsageRow (r.since (KeyedRows.get LogicalCounters.key previous.logical r.key))) := by
  simp only [intervalUsage, cumulativeUsage, intervalSnapshot, List.map_map, Function.comp_def]

theorem intervalUsage_http (current previous : RpcMetricsSnapshot) :
    (intervalUsage current previous).http = sortHttpRows (current.http.map fun r =>
      httpUsageRow (r.since (KeyedRows.get HttpCounters.client previous.http r.client))) := by
  simp only [intervalUsage, cumulativeUsage, intervalSnapshot, List.map_map, Function.comp_def]

theorem logicalAmounts_intervalUsage (h : current.Follows previous) (hcurrent : current.Balanced)
    (k : RpcClientRole × RpcMethod) : (intervalUsage current previous).logicalAmounts k =
      KeyedRows.total LogicalCounters.key LogicalCounters.amounts current.logical k -
        KeyedRows.total LogicalCounters.key LogicalCounters.amounts previous.logical k := by
  have hrows : (intervalUsage current previous).logical.Perm (current.logical.map fun r =>
      logicalUsageRow (r.since (KeyedRows.get LogicalCounters.key previous.logical r.key))) := by
    rw [intervalUsage_logical]
    exact List.mergeSort_perm _ _
  apply KeyedRows.total_since _ LogicalCounters.amounts_since hrows hcurrent.logical_nodup
  · intro r hr
    obtain ⟨r', hr', hkey, _⟩ := h.logical r hr
    exact ⟨r', hr', hkey⟩
  · exact fun _ _ => rfl

theorem httpAmounts_intervalUsage (h : current.Follows previous) (hcurrent : current.Balanced)
    (k : RpcClientRole) : (intervalUsage current previous).httpAmounts k =
      KeyedRows.total HttpCounters.client HttpCounters.amounts current.http k -
        KeyedRows.total HttpCounters.client HttpCounters.amounts previous.http k := by
  have hrows : (intervalUsage current previous).http.Perm (current.http.map fun r =>
      httpUsageRow (r.since (KeyedRows.get HttpCounters.client previous.http r.client))) := by
    rw [intervalUsage_http]
    exact List.mergeSort_perm _ _
  apply KeyedRows.total_since _ HttpCounters.amounts_since hrows hcurrent.http_nodup
  · intro r hr
    obtain ⟨r', hr', hkey, _⟩ := h.http r hr
    exact ⟨r', hr', hkey⟩
  · exact fun _ _ => rfl

end Sums

section Windows

theorem zip_tail_of_pairwise {α : Type} {R : α → α → Prop} {a : α} {l : List α}
    (h : (a :: l).Pairwise R) : ∀ p ∈ (a :: l).zip l, R p.1 p.2 := by
  induction l generalizing a with
  | nil => simp
  | cons b l ih =>
    intro p hp
    rw [List.zip_cons_cons, List.mem_cons] at hp
    rcases hp with rfl | hp
    · exact List.rel_of_pairwise_cons h List.mem_cons_self
    · exact ih h.of_cons p hp

theorem usageInterval_self (o : RpcMetricsObservation) :
    ∃ reason, usageInterval o (some o) = .unavailable reason := by
  refine ⟨.invalidElapsedTime, ?_⟩
  cases ho : o.observedAtMs <;> simp [usageInterval, ho]

variable {first : RpcMetricsObservation} {rest : List RpcMetricsObservation}

/-- The intervals of snapshots that follow one another, with time between them. -/
theorem sum_intervals {G : Type} [AddCommGroup G] {amounts : RpcUsageInterval → G}
    {f : RpcMetricsObservation → G} (hnone : ∀ reason, amounts (.unavailable reason) = 0)
    (hamounts : ∀ {current previous : RpcMetricsObservation} {elapsedMs : ℚ},
      current.snapshot.Follows previous.snapshot → current.snapshot.Balanced →
      amounts (.available elapsedMs (intervalUsage current.snapshot previous.snapshot)) =
        f current - f previous)
    (hbalanced : ∀ o ∈ first :: rest, o.snapshot.Balanced)
    (hordered : (first :: rest).Pairwise fun earlier later =>
      later.snapshot.Follows earlier.snapshot)
    (helapsed : (first :: rest).IsChain Elapsed) :
    (((first :: rest).zip rest).map fun p => amounts (usageInterval p.2 (some p.1))).sum =
      amounts (usageInterval (rest.getLastD first) (some first)) := by
  have hpair {previous current : RpcMetricsObservation} (hbefore : Elapsed previous current)
      (hfollows : current.snapshot.Follows previous.snapshot) (hcurrent : current.snapshot.Balanced) :
      amounts (usageInterval current (some previous)) = f current - f previous := by
    obtain ⟨a, b, ha, hb, hab⟩ := hbefore
    rw [usageInterval_available hfollows hcurrent ha hb hab]
    exact hamounts hfollows hcurrent
  have hbefore : (first :: rest).Pairwise Elapsed := List.isChain_iff_pairwise.mp helapsed
  have hneighbours := zip_tail_of_pairwise (hordered.and hbefore)
  have hdifferences : ((first :: rest).zip rest).map
      (fun p => amounts (usageInterval p.2 (some p.1))) =
      ((first :: rest).zip rest).map fun p => f p.2 - f p.1 := by
    apply List.map_congr_left
    intro p hp
    have hnext : p.2 ∈ first :: rest := List.mem_cons_of_mem _ (List.of_mem_zip hp).2
    exact hpair (hneighbours p hp).2 (hneighbours p hp).1 (hbalanced _ hnext)
  rw [hdifferences, KeyedRows.sum_differences]
  rcases List.eq_nil_or_concat rest with rfl | ⟨init, last, rfl⟩
  · -- a snapshot alone has no interval to itself, and nothing to add up
    obtain ⟨reason, hreason⟩ := usageInterval_self first
    rw [List.getLastD_nil, hreason, hnone, sub_self]
  · rw [List.concat_eq_append] at hordered hbefore hbalanced ⊢
    have hlast : last ∈ init ++ [last] := by simp
    rw [show (init ++ [last]).getLastD first = last by simp]
    exact (hpair (List.rel_of_pairwise_cons hbefore hlast)
      (List.rel_of_pairwise_cons hordered hlast)
      (hbalanced last (List.mem_cons_of_mem _ hlast))).symm

end Windows

end RpcMetrics

end Quicknet
