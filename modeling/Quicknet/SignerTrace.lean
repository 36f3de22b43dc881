import Quicknet.JournalWrites
import Quicknet.Library.Transition

/-! What a trace of events says about the journal: the committed snapshot, a
write that is not acknowledged, and an acknowledged write that its operation has
not applied to the gate yet. -/
namespace Quicknet

open Interaction Transition

structure JournalView where
  journal : Option TransactionJournalSnapshot
  pending : Option (JournalWrite × TransactionJournalSnapshot)
  unapplied : Option JournalWrite
  /-- The committed journal when a write was applied last. -/
  applied : Option TransactionJournalSnapshot
  /-- Whether the running process committed the journal itself. -/
  confirmed : Bool

namespace JournalView

def empty : JournalView := ⟨none, none, none, none, false⟩

def advance (v : JournalView) : Event → JournalView
  | .write w next => { v with pending := some (w, next) }
  | .acked s =>
    { v with
      journal := some s
      pending := none
      unapplied := v.pending.map (·.1)
      confirmed := true }
  | .loaded read => ⟨read, none, none, read, false⟩
  | .completed _ _ | .retried | .sent _ _ _ => { v with unapplied := none, applied := v.journal }
  | .begun _ | .finished _ | .abandoned _ | .headFailed _ => v

end JournalView

def view (tr : List Event) : JournalView := tr.foldl JournalView.advance .empty

@[simp] theorem view_nil : view [] = .empty := rfl

@[simp] theorem view_append_singleton (tr : List Event) (e : Event) :
    view (tr ++ [e]) = (view tr).advance e := by
  simp [view]

/-- Search progress belongs to the oldest attempt. -/
def ProgressOldest (s : TransactionJournalSnapshot) : Prop :=
  ∀ a ∈ s.attempts.tail, a.progress = none

section Specs

variable (lib : TransactionLibrary) (identity : JournalIdentity)

/-- What every committed or saved snapshot satisfies. -/
structure JournalOk (s : TransactionJournalSnapshot) : Prop
    extends SnapshotVerified lib identity s where
  progress_oldest : ProgressOldest s

/-- A payload is sent for the oldest unresolved attempt, marked in the committed
journal, at the nonce that was observed last, while nothing blocks. -/
def SendOk (s : TransactionJournalSnapshot) (a : JournalAttempt) (payload : Bytes)
    (blockers : CoordinatorBlockers) : Prop :=
  ∃ b, s.firstUnresolved = some b ∧ b.record = a.record ∧ b.phase = .broadcastMayHaveOccurred ∧
    payload = b.signedTransactions.latest.signedTransaction ∧ s.lastObservation.nonce = b.nonce ∧
    blockers.isEmpty = true

/-- What an event shows about the journal it finds. -/
def EventOk (v : JournalView) : Event → Prop
  | .write w next => v.pending = none ∧ v.unapplied = none ∧ Writes identity v.journal w next ∧
      SnapshotVerified lib identity next
  | .acked s => ∃ w, v.pending = some (w, s)
  | .loaded read => read = v.journal ∨ ∃ w s, v.pending = some (w, s) ∧ read = some s
  | .completed w _ => v.pending = none ∧ v.unapplied = some w
  | .retried => v.pending = none ∧ v.unapplied ≠ none
  | .sent a payload blockers => v.pending = none ∧
      (v.unapplied = none ∨ v.unapplied = some (.broadcast a)) ∧ v.confirmed = true ∧
      ∃ s, v.journal = some s ∧ SendOk s a payload blockers
  | _ => True

structure ViewOk (v : JournalView) : Prop where
  journal : ∀ s, v.journal = some s → JournalOk lib identity s
  pending : ∀ w t, v.pending = some (w, t) → v.unapplied = none ∧
    Writes identity v.journal w t ∧ JournalOk lib identity t
  unapplied : ∀ w, v.unapplied = some w → v.confirmed = true ∧
    ∃ t, v.journal = some t ∧ Writes identity v.applied w t
  applied : v.unapplied = none → v.applied = v.journal

end Specs

section Progress

variable {identity : JournalIdentity} {base : Option TransactionJournalSnapshot} {w : JournalWrite}
  {next : TransactionJournalSnapshot}

theorem InclusionUpdate.progress_none {a b : JournalAttempt} (h : InclusionUpdate a b)
    (ha : a.progress = none) : b.progress = none := by
  cases h with
  | demoted i hi =>
    unfold JournalAttempt.progress demote
    cases a.replacementSearch <;> rfl
  | _ => exact ha

theorem forall₂_tail {α β : Type*} {R : α → β → Prop} {l : List α} {m : List β}
    (h : List.Forall₂ R l m) : List.Forall₂ R l.tail m.tail := by
  cases h with
  | nil => exact .nil
  | cons _ h => exact h

/-- Every write keeps the progress where it belongs. -/
theorem Writes.progress_oldest (h : Writes identity base w next)
    (hb : ∀ s, base = some s → ProgressOldest s) : ProgressOldest next := by
  cases h with
  | @prepared s attemptId workId createdAt signed _ _ =>
    intro a ha
    simp only [preparedSnapshot] at ha
    -- the new attempt joins at the end, without any progress
    cases hs : s.attempts with
    | nil => simp [hs] at ha
    | cons b rest =>
      simp only [hs, List.cons_append, List.tail_cons, List.mem_append, List.mem_singleton] at ha
      rcases ha with ha | rfl
      · exact hb s rfl a (by simpa [hs] using ha)
      · rfl
  | @broadcast s a hf _ _ =>
    obtain ⟨front, back, hs, _, hm⟩ := markBroadcast_split hf
    intro b hmem
    simp only [hm] at hmem
    have hprog : ∀ c ∈ s.attempts.tail, c.progress = none := hb s rfl
    rw [hs] at hprog
    cases front with
    | nil =>
      simp only [List.nil_append, List.tail_cons] at hmem hprog
      exact hprog b hmem
    | cons c front =>
      simp only [List.cons_append, List.tail_cons, List.mem_append, List.mem_cons] at hmem hprog
      rcases hmem with hmem | rfl | hmem
      · exact hprog b (Or.inl hmem)
      · exact hprog a (Or.inr (Or.inl rfl))
      · exact hprog b (Or.inr (Or.inr hmem))
  | bootstrap _ => simp [ProgressOldest, bootstrapSnapshot]
  | @recovery s _ generation anchor range log result _ _ hr =>
    have hp := hb s rfl
    generalize recoveryKind s result = kind at hr
    unfold ProgressOldest at hp
    cases hr with
    | resolved hs _ _ =>
      intro a ha
      rw [hs, List.tail_cons] at hp
      exact hp a (List.mem_of_mem_tail ha)
    | emptied _ hs _ => exact hp
    | observed _ hs _ _ =>
      rw [hs] at hp
      exact hp
    | searched _ hs _ _ _ =>
      rw [hs] at hp
      exact hp
  | @inclusions s _ _ _ _ _ _ _ _ _ hp =>
    intro a ha
    obtain ⟨b, hbm, hu⟩ := forall₂_mem_right (forall₂_tail hp.updates) ha
    exact hu.progress_none (hb s rfl b hbm)
  | repair hp =>
    obtain ⟨_, hempty, _, _, rfl, _⟩ := planNonceSync_repair hp
    simp [ProgressOldest, repairedSnapshot, hempty]

end Progress

section Advance

variable {lib : TransactionLibrary} {identity : JournalIdentity}

theorem viewOk_empty : ViewOk lib identity .empty :=
  ⟨by simp [JournalView.empty], by simp [JournalView.empty], by simp [JournalView.empty],
    fun _ => rfl⟩

theorem ViewOk.applyJournal {v : JournalView} (h : ViewOk lib identity v) (hp : v.pending = none) :
    ViewOk lib identity { v with unapplied := none, applied := v.journal } :=
  ⟨h.journal, by simp [hp], by simp, fun _ => rfl⟩

/-- The view stays consistent as long as each event is. -/
theorem ViewOk.advance {v : JournalView} {e : Event} (h : ViewOk lib identity v)
    (he : EventOk lib identity v e) : ViewOk lib identity (v.advance e) := by
  cases e with
  | write w next =>
    obtain ⟨_, hu, hw, hv⟩ := he
    refine ⟨h.journal, ?_, h.unapplied, h.applied⟩
    intro w' t ht
    obtain ⟨rfl, rfl⟩ := Prod.mk.inj (Option.some.inj ht)
    exact ⟨hu, hw, hv, hw.progress_oldest fun s hs => (h.journal s hs).progress_oldest⟩
  | acked s =>
    obtain ⟨w, hp⟩ := he
    obtain ⟨hu, hw, hok⟩ := h.pending w s hp
    refine ⟨?_, by simp [JournalView.advance], ?_, ?_⟩
    · intro t ht
      obtain rfl := Option.some.inj ht
      exact hok
    · intro w' hw'
      simp only [JournalView.advance, hp, Option.map_some, Option.some.injEq] at hw'
      subst hw'
      refine ⟨rfl, s, rfl, ?_⟩
      simp only [JournalView.advance]
      rw [h.applied hu]
      exact hw
    · intro hn
      simp [JournalView.advance, hp] at hn
  | loaded read =>
    refine ⟨?_, by simp [JournalView.advance], by simp [JournalView.advance], fun _ => rfl⟩
    intro s hs
    simp only [JournalView.advance] at hs
    rcases he with rfl | ⟨w, t, hp, rfl⟩
    · exact h.journal s hs
    · obtain rfl := Option.some.inj hs
      exact (h.pending w t hp).2.2
  | completed w permit => exact h.applyJournal he.1
  | retried => exact h.applyJournal he.1
  | sent a payload blockers => exact h.applyJournal he.1
  | _ => exact h

variable (lib identity)

/-- Every event of the trace is what it should be where it stands. -/
abbrev TraceOk (tr : List Event) : Prop := EachEvent (fun pre e => EventOk lib identity (view pre) e) tr

variable {lib identity}

theorem TraceOk.viewOk {tr : List Event} (h : TraceOk lib identity tr) :
    ViewOk lib identity (view tr) := by
  induction tr using List.reverseRecOn with
  | nil => exact viewOk_empty
  | append_singleton tr e ih =>
    rw [view_append_singleton]
    exact (ih h.of_append).advance (h tr e [] (by simp))

/-- A journal that the process committed itself was acknowledged. -/
theorem confirmed_acked {tr : List Event} (h : (view tr).confirmed = true) :
    ∃ s, (view tr).journal = some s ∧ .acked s ∈ tr := by
  induction tr using List.reverseRecOn with
  | nil => cases h
  | append_singleton tr e ih =>
    rw [view_append_singleton] at h ⊢
    cases e with
    | acked s => exact ⟨s, rfl, by simp⟩
    | loaded read => cases h
    | _ =>
      obtain ⟨s, hs, hm⟩ := ih h
      exact ⟨s, hs, by simp [hm]⟩

/-- Every event moves the committed queue of nonces by one step at most. -/
theorem TraceOk.queueStep {pre post : List Event} {e : Event}
    (h : TraceOk lib identity (pre ++ e :: post)) :
    NumberedQueue.Step (nonceQueue (view pre).journal) (nonceQueue (view (pre ++ [e])).journal) := by
  have hv : ViewOk lib identity (view pre) := TraceOk.viewOk h.of_append
  have he := h pre e post rfl
  have hpending {w : JournalWrite} {t : TransactionJournalSnapshot}
      (hp : (view pre).pending = some (w, t)) :
      NumberedQueue.Step (nonceQueue (view pre).journal) (nonceQueue (some t)) :=
    (hv.pending w t hp).2.1.queueStep fun s hs => (hv.journal s hs).toSnapshotValid
  rw [view_append_singleton]
  cases e with
  | acked s =>
    obtain ⟨w, hp⟩ := he
    exact hpending hp
  | loaded read =>
    rcases he with rfl | ⟨w, t, hp, rfl⟩
    · exact .keep _
    · exact hpending hp
  | _ => exact .keep _

theorem TraceOk.queueEvolves {pre post : List Event} (h : TraceOk lib identity (pre ++ post)) :
    NumberedQueue.Evolves (nonceQueue (view pre).journal) (nonceQueue (view (pre ++ post)).journal) := by
  refine EachEvent.chain (R := fun a b => NumberedQueue.Evolves (nonceQueue (view a).journal)
    (nonceQueue (view b).journal)) (fun _ => .refl _) (fun _ _ _ => .trans) ?_
  intro a e b hab
  rw [hab] at h
  exact h.queueStep.evolves

end Advance

end Quicknet
