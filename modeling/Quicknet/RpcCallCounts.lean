import Quicknet.RpcMetricsRuns

/-! The rows of a collector as an account of its calls. The calls are followed by themselves,
without any rows; each row then counts what has become of the calls of its key. -/
namespace Quicknet

open Json (Text)
open RpcUsage (RpcClientRole RpcMethod)

namespace RpcMetrics

/-! The calls. -/

inductive CallEvent (κ : Type)
  | began (key : κ)
  | ended (key : κ) (startedAt : ℚ) (outcome : Outcome) (now : ℚ)

namespace CallEvent

variable {κ : Type}

def key : CallEvent κ → κ
  | began key => key
  | ended key _ _ _ => key

def isFailed : CallEvent κ → Bool
  | ended _ _ .rejected _ => true
  | _ => false

/-- The class of the response's status, where it has one. -/
def statusClass : CallEvent κ → Option StatusClass
  | ended _ _ (.resolved status) _ => RpcMetrics.statusClass status
  | _ => none

/-- A clock that goes back counts no time. -/
def durationMs : CallEvent κ → ℚ
  | began _ => 0
  | ended _ startedAt _ now => max 0 (now - startedAt)

end CallEvent

/-- A call that begins, or one in flight that ends. -/
inductive CallInput (κ : Type)
  | start (key : κ) (now : ℚ)
  | settle (i : ℕ) (outcome : Outcome) (now : ℚ)

structure CallLog (κ : Type) where
  /-- The calls in flight. -/
  calls : List (κ × ℚ)
  events : List (CallEvent κ)

def CallLog.next {κ : Type} (log : CallLog κ) : CallInput κ → CallLog κ
  | .start key now => ⟨log.calls ++ [(key, now)], log.events ++ [.began key]⟩
  | .settle i outcome now =>
    log.calls[i]?.elim log fun call =>
      ⟨log.calls.eraseIdx i, log.events ++ [.ended call.1 call.2 outcome now]⟩

section Rows

variable {ρ κ : Type} (kind : RowKind ρ κ)

/-! What the events of a key make of its row. -/

def RowKind.count (r : ρ) : CallEvent κ → ρ
  | .began _ => kind.begin r
  | .ended _ startedAt outcome now => kind.settle outcome startedAt now r

/-- The row of a key after these events of it, the first of which has added it. -/
def RowKind.rowOf (k : κ) (events : List (CallEvent κ)) : Option ρ :=
  if events.isEmpty then none else some (events.foldl kind.count (kind.fresh k))

variable {kind}

theorem rowOf_getD (k : κ) (events : List (CallEvent κ)) :
    (kind.rowOf k events).getD (kind.fresh k) = events.foldl kind.count (kind.fresh k) := by
  cases events <;> rfl

theorem rowOf_append (k : κ) (events : List (CallEvent κ)) (e : CallEvent κ) :
    kind.rowOf k (events ++ [e]) =
      some (kind.count ((kind.rowOf k events).getD (kind.fresh k)) e) := by
  rw [rowOf_getD, RowKind.rowOf, if_neg (by simp), List.foldl_append]
  rfl

variable [DecidableEq κ]

/-- What has happened to the calls of a key. -/
def CallLog.of (log : CallLog κ) (k : κ) : List (CallEvent κ) :=
  log.events.filter fun e => e.key = k

/-- The rows are what the events have made of them. -/
structure Recorded (kind : RowKind ρ κ) (m : Measured ρ κ) (log : CallLog κ) : Prop where
  calls : m.calls = log.calls
  rows : ∀ k, KeyedRows.get kind.key m.rows k = kind.rowOf k (log.of k)
  /-- A call in flight has begun. -/
  present : ∀ call ∈ log.calls, log.of call.1 ≠ []

/-- An end that no call in flight has changes nothing. -/
def Measured.next (kind : RowKind ρ κ) (m : Measured ρ κ) : CallInput κ → Measured ρ κ
  | .start k now => m.start kind k now
  | .settle i outcome now => (m.settle kind i outcome now).getD m

namespace Recorded

variable {m m' : Measured ρ κ} {log : CallLog κ}

theorem of_append (calls : List (κ × ℚ)) (e : CallEvent κ) (k : κ) :
    CallLog.of ⟨calls, log.events ++ [e]⟩ k =
      log.of k ++ if e.key = k then [e] else [] := by
  rw [CallLog.of, List.filter_append, List.filter_singleton, CallLog.of]
  simp

theorem nil : Recorded kind ⟨[], []⟩ ⟨[], []⟩ := by
  refine ⟨rfl, fun k => rfl, ?_⟩
  simp

/-- One event, which changes the row of its key only. -/
theorem append (h : Recorded kind m log) {calls : List (κ × ℚ)} {e : CallEvent κ}
    (hcalls : ∀ call ∈ calls, call ∈ log.calls ∨ call.1 = e.key)
    {rows : List ρ} (hrow : KeyedRows.get kind.key rows e.key =
      some (kind.count ((kind.rowOf e.key (log.of e.key)).getD (kind.fresh e.key)) e))
    (hothers : ∀ k, k ≠ e.key →
      KeyedRows.get kind.key rows k = KeyedRows.get kind.key m.rows k) :
    Recorded kind ⟨rows, calls⟩ ⟨calls, log.events ++ [e]⟩ := by
  refine ⟨rfl, fun k => ?_, fun call hcall => ?_⟩
  · rw [of_append]
    by_cases hk : e.key = k
    · subst hk
      rw [if_pos rfl, rowOf_append]
      exact hrow
    · rw [if_neg hk, List.append_nil, ← h.rows]
      exact hothers k (Ne.symm hk)
  · rw [of_append]
    rcases hcalls call hcall with hold | hkey
    · exact List.append_ne_nil_of_left_ne_nil (h.present call hold) _
    · rw [if_pos hkey.symm]
      exact List.append_ne_nil_of_right_ne_nil _ (by simp)

theorem start (h : Recorded kind m log) (k : κ) (now : ℚ) :
    Recorded kind (m.start kind k now) (log.next (.start k now)) := by
  rw [Measured.start, CallLog.next, h.calls]
  apply h.append
  · intro call hcall
    rcases List.mem_append.mp hcall with hold | hnew
    · exact Or.inl hold
    · exact Or.inr (by rw [List.mem_singleton.mp hnew]; rfl)
  · -- where the key is new, its row begins as a fresh one
    show KeyedRows.get kind.key _ k = some (kind.begin ((kind.rowOf k (log.of k)).getD _))
    rw [KeyedRows.get_update kind.key_begin, if_pos rfl, KeyedRows.get_getOrInsert, kind.key_fresh,
      if_pos rfl, h.rows]
    rfl
  · intro k' (hk' : k' ≠ k)
    rw [KeyedRows.get_update kind.key_begin, if_neg hk', KeyedRows.get_getOrInsert, kind.key_fresh,
      if_neg hk']

/-- The row of a call in flight is there, since its first event has added it. -/
theorem settle (h : Recorded kind m log) {i : ℕ} {outcome : Outcome} {now : ℚ}
    (hs : m.settle kind i outcome now = some m') :
    Recorded kind m' (log.next (.settle i outcome now)) := by
  obtain ⟨call, hi, rfl⟩ := Option.map_eq_some_iff.mp hs
  rw [h.calls] at hi ⊢
  rw [CallLog.next, hi, Option.elim_some]
  apply h.append
  · exact fun c hc => Or.inl (List.mem_of_mem_eraseIdx hc)
  · have hpresent := h.present call (List.mem_of_getElem? hi)
    show KeyedRows.get kind.key _ call.1 =
      some (kind.settle outcome call.2 now
        ((kind.rowOf call.1 (log.of call.1)).getD (kind.fresh call.1)))
    rw [KeyedRows.get_update (kind.key_settle outcome call.2 now), if_pos rfl, h.rows, rowOf_getD,
      RowKind.rowOf, if_neg (by simpa using hpresent)]
    rfl
  · intro k (hk : k ≠ call.1)
    rw [KeyedRows.get_update (kind.key_settle outcome call.2 now), if_neg hk]

theorem next (h : Recorded kind m log) (c : CallInput κ) :
    Recorded kind (m.next kind c) (log.next c) := by
  cases c with
  | start k now => exact h.start k now
  | settle i outcome now =>
    rw [Measured.next]
    cases hs : m.settle kind i outcome now with
    | some m' => exact h.settle hs
    | none =>
      have hi := Option.map_eq_none_iff.mp hs
      rw [h.calls] at hi
      rw [CallLog.next, hi]
      exact h

theorem elim (h : Recorded kind m log) (c : Option (CallInput κ)) :
    Recorded kind (c.elim m (m.next kind)) (c.elim log log.next) := by
  cases c with
  | none => exact h
  | some c => exact h.next c

end Recorded

variable {m : Measured ρ κ} {log : CallLog κ}

/-- A row is what the events of its key have made of a fresh one. -/
theorem Recorded.row (h : Recorded kind m log) (ht : Tracked kind m) {r : ρ} (hr : r ∈ m.rows) :
    r = (log.of (kind.key r)).foldl kind.count (kind.fresh (kind.key r)) := by
  have hget := (KeyedRows.get_eq_some_iff ht.nodup).mpr ⟨hr, rfl⟩
  rw [h.rows, RowKind.rowOf] at hget
  split_ifs at hget
  exact (Option.some.inj hget).symm

end Rows

/-! Runs. -/

end RpcMetrics

end Quicknet
