import Quicknet.RpcMetrics

/-! What holds of the rows of a collector, and between its snapshots, in every order of the
calls' starts, their ends and the snapshots. -/
namespace Quicknet

open Json (Text text)
open RpcUsage (RpcClientRole RpcMethod)
open scoped BigOperators

namespace RpcMetrics

def Counters.completed (c : Counters) : ℤ := c.succeeded + c.failed

/-- What the counters of a row can have become. -/
structure Counters.Grown (later earlier : Counters) : Prop where
  started : earlier.started ≤ later.started
  succeeded : earlier.succeeded ≤ later.succeeded
  failed : earlier.failed ≤ later.failed
  durationMs : earlier.durationMs ≤ later.durationMs
  /-- Time is added with a completed call only. -/
  idle : later.completed = earlier.completed → later.durationMs = earlier.durationMs

namespace Counters.Grown

theorem refl (c : Counters) : c.Grown c := ⟨le_rfl, le_rfl, le_rfl, le_rfl, fun _ => rfl⟩

theorem trans {a b c : Counters} (h₁ : a.Grown b) (h₂ : b.Grown c) : a.Grown c where
  started := h₂.started.trans h₁.started
  succeeded := h₂.succeeded.trans h₁.succeeded
  failed := h₂.failed.trans h₁.failed
  durationMs := h₂.durationMs.trans h₁.durationMs
  idle h := by
    -- what is between two equal numbers of completed calls is equal to them
    have hs₁ := h₁.succeeded
    have hf₁ := h₁.failed
    have hs₂ := h₂.succeeded
    have hf₂ := h₂.failed
    unfold completed at h
    have hab : a.completed = b.completed := by unfold completed; omega
    have hbc : b.completed = c.completed := by unfold completed; omega
    rw [h₁.idle hab, h₂.idle hbc]

theorem begin (c : Counters) : c.begin.Grown c :=
  ⟨by simp [Counters.begin], le_rfl, le_rfl, le_rfl, fun _ => rfl⟩

theorem settle (c : Counters) (o : Outcome) (a b : ℚ) : (c.settle o a b).Grown c := by
  have hnonneg : 0 ≤ max 0 (b - a) := le_max_left _ _
  cases o with
  | resolved status =>
    refine ⟨le_rfl, ?_, le_rfl, by simp [Counters.settle], fun h => ?_⟩
    · simp [Counters.settle]
    · simp only [Counters.settle, completed] at h
      omega
  | rejected =>
    refine ⟨le_rfl, le_rfl, ?_, by simp [Counters.settle], fun h => ?_⟩
    · simp [Counters.settle]
    · simp only [Counters.settle, completed] at h
      omega

end Counters.Grown

/-- A response is classified at most once, and no rejection is. -/
theorem classify_cases (o : Outcome) (s : StatusClass → ℤ) : classify o s = s ∨
    (∃ status, o = .resolved status) ∧ ∃ category,
      classify o s = Function.update s category (s category + 1) := by
  cases o with
  | rejected => exact Or.inl rfl
  | resolved status =>
    unfold classify
    cases hclass : statusClass status with
    | none => exact Or.inl (by simp [hclass])
    | some category => exact Or.inr ⟨⟨status, rfl⟩, category, by simp [hclass]⟩

theorem sum_update_succ (s : StatusClass → ℤ) (category : StatusClass) :
    ∑ d, Function.update s category (s category + 1) d = ∑ d, s d + 1 := by
  have hrest : ∑ d, (Function.update s category (s category + 1) d - s d) = 1 := by
    rw [Finset.sum_eq_single category]
    · simp
    · intro d _ hd
      simp [hd]
    · simp
  rw [Finset.sum_sub_distrib] at hrest
  omega

section Rows

variable {ρ κ : Type} {kind : RowKind ρ κ}

/-- What a row can have become: its unclassified responses have not grown fewer either. -/
structure RowKind.Grown (kind : RowKind ρ κ) (later earlier : ρ) : Prop where
  counters : (kind.counters later).Grown (kind.counters earlier)
  statuses : ∀ category, kind.statuses earlier category ≤ kind.statuses later category
  classified : ∑ category, kind.statuses later category - ∑ category, kind.statuses earlier category ≤
    (kind.counters later).succeeded - (kind.counters earlier).succeeded

namespace RowKind.Grown

theorem refl (r : ρ) : kind.Grown r r := ⟨.refl _, fun _ => le_rfl, by simp⟩

theorem trans {a b c : ρ} (h₁ : kind.Grown a b) (h₂ : kind.Grown b c) : kind.Grown a c where
  counters := h₁.counters.trans h₂.counters
  statuses category := (h₂.statuses category).trans (h₁.statuses category)
  classified := by
    have hab := h₁.classified
    have hbc := h₂.classified
    omega

theorem begin (r : ρ) : kind.Grown (kind.begin r) r := by
  refine ⟨?_, ?_, ?_⟩
  · rw [kind.counters_begin]
    exact .begin _
  · simp [kind.statuses_begin]
  · simp [kind.statuses_begin, kind.counters_begin, Counters.begin]

theorem settle (o : Outcome) (a b : ℚ) (r : ρ) : kind.Grown (kind.settle o a b r) r := by
  have hcounters : (kind.counters (kind.settle o a b r)).Grown (kind.counters r) := by
    rw [kind.counters_settle]
    exact .settle _ _ _ _
  have hsame (h : kind.statuses (kind.settle o a b r) = kind.statuses r) :
      kind.Grown (kind.settle o a b r) r := by
    have hsucceeded := hcounters.succeeded
    exact ⟨hcounters, by simp [h], by rw [h]; omega⟩
  rcases kind.statuses_settle o a b r with h | h
  · exact hsame h
  · rcases classify_cases o (kind.statuses r) with hc | ⟨⟨status, rfl⟩, category, hc⟩
    · exact hsame (h.trans hc)
    · -- the response that is classified has just been counted as a success
      refine ⟨hcounters, fun d => ?_, ?_⟩
      · rw [h, hc]
        by_cases hd : d = category <;> simp [hd]
      · rw [h, hc, sum_update_succ, kind.counters_settle]
        simp [Counters.settle]

end RowKind.Grown

/-- What holds of a row in every snapshot. -/
structure RowKind.Balanced (kind : RowKind ρ κ) (r : ρ) : Prop where
  started_eq : (kind.counters r).started =
    (kind.counters r).succeeded + (kind.counters r).failed + (kind.counters r).inFlight
  inFlight_nonneg : 0 ≤ (kind.counters r).inFlight
  grown : kind.Grown r (kind.fresh (kind.key r))

namespace RowKind.Balanced

variable {r : ρ}

theorem counts_nonneg (h : kind.Balanced r) : 0 ≤ (kind.counters r).succeeded ∧
    0 ≤ (kind.counters r).failed ∧ 0 ≤ (kind.counters r).durationMs := by
  have hgrown := h.grown.counters
  rw [kind.counters_fresh] at hgrown
  exact ⟨hgrown.succeeded, hgrown.failed, hgrown.durationMs⟩

theorem classified (h : kind.Balanced r) :
    ∑ category, kind.statuses r category ≤ (kind.counters r).succeeded := by
  have hgrown := h.grown.classified
  rw [kind.statuses_fresh, kind.counters_fresh] at hgrown
  simpa [RpcMetrics.counters] using hgrown

end RowKind.Balanced

/-- Each row counts the calls in flight that have its key, and each of these has its row. -/
structure Tracked [DecidableEq κ] (kind : RowKind ρ κ) (m : Measured ρ κ) : Prop where
  nodup : (m.rows.map kind.key).Nodup
  present : ∀ call ∈ m.calls, ∃ r ∈ m.rows, kind.key r = call.1
  started_eq : ∀ r ∈ m.rows, (kind.counters r).started =
    (kind.counters r).succeeded + (kind.counters r).failed + (kind.counters r).inFlight
  inFlight : ∀ r ∈ m.rows, (kind.counters r).inFlight = m.calls.countP fun call => call.1 = kind.key r
  grown : ∀ r ∈ m.rows, kind.Grown r (kind.fresh (kind.key r))

namespace Tracked

variable [DecidableEq κ] {m m' : Measured ρ κ}

theorem balanced (h : Tracked kind m) {r : ρ} (hr : r ∈ m.rows) : kind.Balanced r :=
  ⟨h.started_eq r hr, by rw [h.inFlight r hr]; omega, h.grown r hr⟩

theorem nil : Tracked kind ⟨[], []⟩ := by
  refine ⟨List.nodup_nil, ?_, ?_, ?_, ?_⟩ <;> simp

/-- No call in flight has a key without a row, so the new row counts none. -/
theorem getOrInsert (h : Tracked kind m) (k : κ) :
    Tracked kind ⟨KeyedRows.getOrInsert kind.key m.rows (kind.fresh k), m.calls⟩ := by
  refine ⟨KeyedRows.nodup_getOrInsert h.nodup, fun call hcall => ?_, fun r hr => ?_, fun r hr => ?_,
    fun r hr => ?_⟩
  · obtain ⟨r, hr, hk⟩ := h.present call hcall
    exact ⟨r, KeyedRows.subset_getOrInsert _ hr, hk⟩
  · rcases KeyedRows.mem_getOrInsert hr with hr | ⟨rfl, _⟩
    · exact h.started_eq r hr
    · simp [kind.counters_fresh, counters]
  · rcases KeyedRows.mem_getOrInsert hr with hr | ⟨rfl, hfree⟩
    · exact h.inFlight r hr
    · rw [kind.counters_fresh, List.countP_eq_zero.mpr]
      · rfl
      · intro call hcall
        obtain ⟨r', hr', hk⟩ := h.present call hcall
        simpa [hk] using hfree r' hr'
  · rcases KeyedRows.mem_getOrInsert hr with hr | ⟨rfl, _⟩
    · exact h.grown r hr
    · rw [kind.key_fresh]
      exact .refl _

/-- A change of one row, where it has grown and counts the calls in flight again. -/
theorem update (h : Tracked kind m) {k : κ} {f : ρ → ρ} {calls : List (κ × ℚ)}
    (hcalls : ∀ call ∈ calls, call ∈ m.calls ∨ call.1 = k) (hrow : ∃ r ∈ m.rows, kind.key r = k)
    (hf : ∀ r, kind.key (f r) = kind.key r ∧ kind.Grown (f r) r)
    (hstarted : ∀ r, (kind.counters (f r)).started - (kind.counters (f r)).completed -
      (kind.counters (f r)).inFlight = (kind.counters r).started - (kind.counters r).completed -
      (kind.counters r).inFlight)
    (hinFlight : ∀ r, (kind.counters (f r)).inFlight - (kind.counters r).inFlight =
      (calls.countP fun call => call.1 = k : ℕ) - (m.calls.countP fun call => call.1 = k : ℕ))
    (hothers : ∀ k', k' ≠ k → (calls.countP fun call => call.1 = k') =
      m.calls.countP fun call => call.1 = k') :
    Tracked kind ⟨KeyedRows.update kind.key m.rows k f, calls⟩ := by
  have hkeys : (KeyedRows.update kind.key m.rows k f).map kind.key = m.rows.map kind.key :=
    KeyedRows.map_key_update fun r => (hf r).1
  refine ⟨by rw [hkeys]; exact h.nodup, fun call hcall => ?_, fun r hr => ?_, fun r hr => ?_,
    fun r hr => ?_⟩
  · have hmem : call.1 ∈ m.rows.map kind.key := by
      rw [List.mem_map]
      rcases hcalls call hcall with hold | hk
      · exact h.present call hold
      · rw [hk]
        exact hrow
    rw [← hkeys] at hmem
    exact List.mem_map.mp hmem
  -- the row of the key counts the call, and the other rows are as they were
  · obtain ⟨r₀, hr₀, rfl⟩ := KeyedRows.mem_update.mp hr
    have hold := h.started_eq r₀ hr₀
    split_ifs with hk
    · have hnew := hstarted r₀
      unfold Counters.completed at hnew
      omega
    · exact hold
  · obtain ⟨r₀, hr₀, rfl⟩ := KeyedRows.mem_update.mp hr
    have hold := h.inFlight r₀ hr₀
    split_ifs with hk
    · have hnew := hinFlight r₀
      rw [hk] at hold
      show _ = ((calls.countP fun call => call.1 = kind.key (f r₀) : ℕ) : ℤ)
      rw [(hf r₀).1, hk]
      omega
    · rw [hothers _ hk]
      exact hold
  · obtain ⟨r₀, hr₀, rfl⟩ := KeyedRows.mem_update.mp hr
    split_ifs with hk
    · rw [(hf r₀).1]
      exact (hf r₀).2.trans (h.grown r₀ hr₀)
    · exact h.grown r₀ hr₀

theorem start (h : Tracked kind m) (k : κ) (now : ℚ) : Tracked kind (m.start kind k now) := by
  apply (h.getOrInsert k).update
  · intro call hcall
    rcases List.mem_append.mp hcall with hcall | hcall
    · exact Or.inl hcall
    · exact Or.inr (by rw [List.mem_singleton.mp hcall])
  · obtain ⟨r, hr, hk⟩ : ∃ r ∈ KeyedRows.getOrInsert kind.key m.rows (kind.fresh k),
        kind.key r = kind.key (kind.fresh k) := KeyedRows.exists_mem_getOrInsert _
    exact ⟨r, hr, hk.trans (kind.key_fresh k)⟩
  · exact fun r => ⟨kind.key_begin r, .begin r⟩
  · intro r
    simp only [kind.counters_begin, Counters.begin, Counters.completed]
    omega
  · intro r
    simp [kind.counters_begin, Counters.begin]
  · intro k' hk'
    simp [Ne.symm hk']

/-- The calls in flight are one more than those that are left when one of them goes on. -/
theorem countP_eraseIdx {calls : List (κ × ℚ)} {i : ℕ} {call : κ × ℚ} (hi : calls[i]? = some call)
    (k : κ) : (calls.countP fun c => c.1 = k) =
      ((calls.eraseIdx i).countP fun c => c.1 = k) + if call.1 = k then 1 else 0 := by
  obtain ⟨hlt, rfl⟩ := List.getElem?_eq_some_iff.mp hi
  rw [← (List.getElem_cons_eraseIdx_perm hlt).countP_eq, List.countP_cons]
  simp

theorem settle (h : Tracked kind m) {i : ℕ} {o : Outcome} {now : ℚ}
    (hs : m.settle kind i o now = some m') : Tracked kind m' := by
  obtain ⟨call, hi, rfl⟩ := Option.map_eq_some_iff.mp hs
  have hcount := countP_eraseIdx hi
  apply h.update
  · intro c hc
    exact Or.inl (List.mem_of_mem_eraseIdx hc)
  · exact h.present call (List.mem_of_getElem? hi)
  · exact fun r => ⟨kind.key_settle _ _ _ r, .settle _ _ _ r⟩
  · intro r
    cases o <;> simp only [kind.counters_settle, Counters.settle, Counters.completed] <;> omega
  · intro r
    have hone := hcount call.1
    rw [if_pos rfl] at hone
    cases o <;> simp only [kind.counters_settle, Counters.settle] <;> omega
  · intro k' hk'
    have hnone := hcount k'
    rw [if_neg (Ne.symm hk')] at hnone
    omega

end Tracked

section Growth

/-- The rows of the kind that have gone on from earlier ones. -/
def RowKind.Follows (kind : RowKind ρ κ) (later earlier : List ρ) : Prop :=
  KeyedRows.Follows kind.key kind.Grown later earlier

theorem RowKind.Follows.refl (rows : List ρ) : kind.Follows rows rows :=
  KeyedRows.Follows.refl Grown.refl rows

theorem RowKind.Follows.trans {a b c : List ρ} (h₁ : kind.Follows a b) (h₂ : kind.Follows b c) :
    kind.Follows a c := KeyedRows.Follows.trans Grown.trans h₁ h₂

variable [DecidableEq κ] {m m' : Measured ρ κ}

theorem start_follows (k : κ) (now : ℚ) : kind.Follows (m.start kind k now).rows m.rows := by
  have hinserted : kind.Follows (KeyedRows.getOrInsert kind.key m.rows (kind.fresh k)) m.rows :=
    KeyedRows.follows_getOrInsert RowKind.Grown.refl _
  have hbegun : kind.Follows (m.start kind k now).rows
      (KeyedRows.getOrInsert kind.key m.rows (kind.fresh k)) :=
    KeyedRows.follows_update RowKind.Grown.refl
      fun r => ⟨kind.key_begin r, RowKind.Grown.begin r⟩
  exact RowKind.Follows.trans hbegun hinserted

theorem settle_follows {i : ℕ} {o : Outcome} {now : ℚ} (hs : m.settle kind i o now = some m') :
    kind.Follows m'.rows m.rows := by
  obtain ⟨call, _, rfl⟩ := Option.map_eq_some_iff.mp hs
  exact KeyedRows.follows_update RowKind.Grown.refl
    fun r => ⟨kind.key_settle _ _ _ r, RowKind.Grown.settle _ _ _ r⟩

end Growth

end Rows

/-- What a snapshot shows, however the calls are interleaved. -/
structure RpcMetricsSnapshot.Balanced (s : RpcMetricsSnapshot) : Prop where
  logical_nodup : (s.logical.map logicalRows.key).Nodup
  http_nodup : (s.http.map httpRows.key).Nodup
  logical : ∀ r ∈ s.logical, logicalRows.Balanced r
  http : ∀ r ∈ s.http, httpRows.Balanced r

/-- What a snapshot shows of an earlier one. -/
structure RpcMetricsSnapshot.Follows (later earlier : RpcMetricsSnapshot) : Prop where
  collectorId : later.collectorId = earlier.collectorId
  startedAt : later.startedAt = earlier.startedAt
  logical : logicalRows.Follows later.logical earlier.logical
  http : httpRows.Follows later.http earlier.http

namespace RpcMetricsSnapshot.Follows

theorem refl (s : RpcMetricsSnapshot) : s.Follows s := ⟨rfl, rfl, .refl _, .refl _⟩

theorem trans {a b c : RpcMetricsSnapshot} (h₁ : a.Follows b) (h₂ : b.Follows c) : a.Follows c :=
  ⟨h₁.collectorId.trans h₂.collectorId, h₁.startedAt.trans h₂.startedAt,
    h₁.logical.trans h₂.logical, h₁.http.trans h₂.http⟩

end RpcMetricsSnapshot.Follows

section Runs

variable {s s' : Collector} {i : Input} {e : Option RpcMetricsObservation}

structure Collector.Tracked (s : Collector) : Prop where
  logical : RpcMetrics.Tracked logicalRows s.logical
  http : RpcMetrics.Tracked httpRows s.http

theorem Collector.Tracked.snapshot (h : s.Tracked) : s.snapshot.Balanced :=
  ⟨h.logical.nodup, h.http.nodup, fun _ hr => h.logical.balanced hr, fun _ hr => h.http.balanced hr⟩

/-- The step lemma: the rows go on, and a snapshot is of them as they are. -/
theorem step_ok (h : s.Tracked) (hs : step i s = some (s', e)) :
    s'.Tracked ∧ s'.snapshot.Follows s.snapshot ∧
      ∀ o ∈ e, s' = s ∧ o.snapshot = s.snapshot := by
  cases i with
  | logical client method now =>
    obtain ⟨rfl, rfl⟩ := Prod.mk.inj (Option.some.inj hs)
    exact ⟨⟨h.logical.start _ now, h.http⟩, ⟨rfl, rfl, start_follows _ now, .refl _⟩, by simp⟩
  | http client now =>
    obtain ⟨rfl, rfl⟩ := Prod.mk.inj (Option.some.inj hs)
    exact ⟨⟨h.logical, h.http.start _ now⟩, ⟨rfl, rfl, .refl _, start_follows _ now⟩, by simp⟩
  | settleLogical i o now =>
    obtain ⟨m, hm, heq⟩ := Option.map_eq_some_iff.mp hs
    obtain ⟨rfl, rfl⟩ := Prod.mk.inj heq
    exact ⟨⟨h.logical.settle hm, h.http⟩, ⟨rfl, rfl, settle_follows hm, .refl _⟩, by simp⟩
  | settleHttp i o now =>
    obtain ⟨m, hm, heq⟩ := Option.map_eq_some_iff.mp hs
    obtain ⟨rfl, rfl⟩ := Prod.mk.inj heq
    exact ⟨⟨h.logical, h.http.settle hm⟩, ⟨rfl, rfl, .refl _, settle_follows hm⟩, by simp⟩
  | observe observedAtMs =>
    obtain ⟨rfl, rfl⟩ := Prod.mk.inj (Option.some.inj hs)
    exact ⟨h, .refl _, by simp⟩

/-- What holds of the snapshots that a run has taken. -/
structure Observed (collectorId startedAt : Text) (s : Collector)
    (observations : List RpcMetricsObservation) : Prop where
  tracked : s.Tracked
  identity : s.collectorId = collectorId ∧ s.startedAt = startedAt
  balanced : ∀ o ∈ observations, o.snapshot.Balanced
  followed : ∀ o ∈ observations, s.snapshot.Follows o.snapshot
  ordered : observations.Pairwise fun earlier later => later.snapshot.Follows earlier.snapshot

theorem observed_run (collectorId startedAt : Text) (is : List Input) :
    Observed collectorId startedAt ((system collectorId startedAt).run is).1
      ((system collectorId startedAt).run is).2 := by
  apply Transition.System.run_invariant
  · exact ⟨⟨.nil, .nil⟩, ⟨rfl, rfl⟩, by simp, by simp, List.Pairwise.nil⟩
  · intro i s observations s' e h hs
    obtain ⟨htracked, hfollows, htaken⟩ := step_ok h.tracked hs
    have hidentity : s'.collectorId = collectorId ∧ s'.startedAt = startedAt :=
      ⟨hfollows.collectorId.trans h.identity.1, hfollows.startedAt.trans h.identity.2⟩
    have hold (o) (ho : o ∈ observations) : s'.snapshot.Follows o.snapshot :=
      hfollows.trans (h.followed o ho)
    cases e with
    | none =>
      rw [Option.toList_none, List.append_nil]
      exact ⟨htracked, hidentity, h.balanced, hold, h.ordered⟩
    | some taken =>
      obtain ⟨rfl, hsnapshot⟩ := htaken taken rfl
      refine ⟨htracked, hidentity, fun o ho => ?_, fun o ho => ?_, ?_⟩
      · rcases List.mem_append.mp ho with ho | ho
        · exact h.balanced o ho
        · rw [List.mem_singleton.mp ho, hsnapshot]
          exact htracked.snapshot
      · rcases List.mem_append.mp ho with ho | ho
        · exact hold o ho
        · rw [List.mem_singleton.mp ho, hsnapshot]
          exact .refl _
      · rw [Option.toList_some, List.pairwise_append]
        refine ⟨h.ordered, List.pairwise_singleton _ _, fun o ho o' ho' => ?_⟩
        rw [List.mem_singleton.mp ho', hsnapshot]
        exact hold o ho

end Runs

end RpcMetrics

end Quicknet
