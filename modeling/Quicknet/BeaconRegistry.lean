import Quicknet.Library.Interaction
import Quicknet.Library.Transition

/-! The registry contract: a write-once store of one value for each round, fed
by two submission functions that call the configured verifier statically. -/
namespace Quicknet.Contracts
open Interaction Transition

abbrev Address := BitVec 160
abbrev Bytes32 := BitVec 256
abbrev Bytes := List (BitVec 8)
abbrev Round := BitVec 64

/-- The external calls of the registry. -/
inductive VerifierCall
  | verifyBeacon (round : Round) (signature : Bytes)
  | verifyBeaconWithWitness (round : Round) (signature : Bytes) (yHi : BitVec 128)
      (yLo : BitVec 256)
  deriving DecidableEq

/-- A static call reverts with some data, or returns `verified` and `randomness`. -/
abbrev VerifierReply (_ : VerifierCall) : Type := Except Bytes (Bool × Bytes32)

inductive RegistryError
  | invalidRound
  | invalidBeacon
  | beaconUnavailable (round : Round)
  /-- A revert of the verifier, propagated with its data. -/
  | reverted (data : Bytes)
  deriving DecidableEq

structure BeaconStored where
  round : Round
  randomness : Bytes32
  submitter : Address
  deriving DecidableEq

/-- The storage of the registry; a zero value stands for an unstored round. -/
structure Registry where
  beacons : Round → Bytes32

/-- What a submission that did not revert leaves behind. -/
structure Submitted where
  registry : Registry
  randomness : Bytes32
  emitted : Option BeaconStored

def storeVerifiedBeacon (s : Registry) (sender : Address) (round : Round) (verified : Bool)
    (randomness : Bytes32) : Except RegistryError (Registry × BeaconStored) :=
  if !verified || randomness == 0 then .error .invalidBeacon
  else .ok ({ s with beacons := Function.update s.beacons round randomness },
    ⟨round, randomness, sender⟩)

/-- The body that both submission functions share, with the verifier call they make. -/
def submitWith (s : Registry) (sender : Address) (round : Round) (call : VerifierCall) :
    Prog VerifierReply RegistryError Submitted := do
  if round = 0 then
    .throw .invalidRound
  else if s.beacons round ≠ 0 then
    return ⟨s, s.beacons round, none⟩
  else
    let reply ← Prog.ask call
    let (verified, randomness) ← Prog.lift (reply.mapError .reverted)
    let (s', event) ← Prog.lift (storeVerifiedBeacon s sender round verified randomness)
    return ⟨s', randomness, some event⟩

def submitBeacon (s : Registry) (sender : Address) (round : Round) (signature : Bytes) :
    Prog VerifierReply RegistryError Submitted :=
  submitWith s sender round (.verifyBeacon round signature)

def submitBeaconWithWitness (s : Registry) (sender : Address) (round : Round)
    (signature : Bytes) (yHi : BitVec 128) (yLo : BitVec 256) :
    Prog VerifierReply RegistryError Submitted :=
  submitWith s sender round (.verifyBeaconWithWitness round signature yHi yLo)

def getBeacon (s : Registry) (round : Round) : Except RegistryError Bytes32 :=
  if round = 0 then .error .invalidRound
  else if s.beacons round = 0 then .error (.beaconUnavailable round)
  else .ok (s.beacons round)

def isStored (s : Registry) (round : Round) : Bool :=
  if round = 0 then false else s.beacons round != 0

/-! Runs of the registry: each transaction calls one of the two submission
functions and meets its own behaviour of the verifier. -/

inductive Submission
  | submitBeacon (round : Round) (signature : Bytes)
  | submitBeaconWithWitness (round : Round) (signature : Bytes) (yHi : BitVec 128)
      (yLo : BitVec 256)
  deriving DecidableEq

def Submission.round : Submission → Round
  | .submitBeacon round _ => round
  | .submitBeaconWithWitness round _ _ _ => round

def Submission.call : Submission → VerifierCall
  | .submitBeacon round signature => .verifyBeacon round signature
  | .submitBeaconWithWitness round signature yHi yLo =>
    .verifyBeaconWithWitness round signature yHi yLo

def submit (s : Registry) (sender : Address) : Submission →
    Prog VerifierReply RegistryError Submitted
  | .submitBeacon round signature => Contracts.submitBeacon s sender round signature
  | .submitBeaconWithWitness round signature yHi yLo =>
    Contracts.submitBeaconWithWitness s sender round signature yHi yLo

theorem submit_eq (s : Registry) (sender : Address) (sub : Submission) :
    submit s sender sub = submitWith s sender sub.round sub.call := by
  cases sub <;> rfl

structure Transaction where
  sender : Address
  submission : Submission
  verifier : (call : VerifierCall) → VerifierReply call

def Transaction.submit (t : Transaction) (s : Registry) : Except RegistryError Submitted :=
  (Contracts.submit s t.sender t.submission).eval t.verifier

/-- The deployed registry. A transaction that reverts changes nothing. -/
def registry : System Registry Transaction BeaconStored where
  init := ⟨fun _ => 0⟩
  step t s :=
    match t.submit s with
    | .ok r => some (r.registry, r.emitted)
    | .error _ => none

/-- A stored round is answered from storage: no call is made. -/
theorem submit_stored {s : Registry} {sub : Submission} (sender : Address)
    (hround : sub.round ≠ 0) (hstored : s.beacons sub.round ≠ 0) :
    submit s sender sub = .ret ⟨s, s.beacons sub.round, none⟩ := by
  rw [submit_eq, submitWith, if_neg hround, if_pos hstored]
  rfl

/-- A submission that does not revert either finds the round stored, or stores
the nonzero value that the verifier has just returned as verified. -/
theorem submit_cases {t : Transaction} {s : Registry} {r : Submitted} (h : t.submit s = .ok r) :
    t.submission.round ≠ 0 ∧
      ((s.beacons t.submission.round ≠ 0 ∧ r = ⟨s, s.beacons t.submission.round, none⟩) ∨
        (s.beacons t.submission.round = 0 ∧ ∃ v, v ≠ 0 ∧
          t.verifier t.submission.call = .ok (true, v) ∧
          r = ⟨⟨Function.update s.beacons t.submission.round v⟩, v,
            some ⟨t.submission.round, v, t.sender⟩⟩)) := by
  rw [Transaction.submit, submit_eq] at h
  unfold submitWith at h
  split at h
  · cases h
  · rename_i hround
    refine ⟨hround, ?_⟩
    split at h
    · rename_i hstored
      exact Or.inl ⟨hstored, (Except.ok.inj h).symm⟩
    · rename_i hempty
      refine Or.inr ⟨not_not.mp hempty, ?_⟩
      simp only [Prog.bind_eq, Prog.eval_bind, Prog.eval_ask, Except.bind] at h
      cases hreply : t.verifier t.submission.call with
      | error data =>
        rw [hreply] at h
        cases h
      | ok reply =>
        obtain ⟨verified, v⟩ := reply
        rw [hreply] at h
        simp only [Except.mapError, Prog.eval_lift, storeVerifiedBeacon] at h
        split at h
        · cases h
        · rename_i heq
          split at heq
          · cases heq
          · rename_i hguard
            obtain ⟨hverified, hv⟩ : verified = true ∧ v ≠ 0 := by simpa using hguard
            cases heq
            exact ⟨v, hv, by rw [hverified], (Except.ok.inj h).symm⟩

/-- A verified nonzero value for an unstored round is stored. -/
theorem submit_fresh {t : Transaction} {s : Registry} {v : Bytes32}
    (hround : t.submission.round ≠ 0) (hempty : s.beacons t.submission.round = 0)
    (hreply : t.verifier t.submission.call = .ok (true, v)) (hv : v ≠ 0) :
    t.submit s = .ok ⟨⟨Function.update s.beacons t.submission.round v⟩, v,
      some ⟨t.submission.round, v, t.sender⟩⟩ := by
  have hguard : (!true || v == 0) = false := by simpa using hv
  rw [Transaction.submit, submit_eq, submitWith, if_neg hround, if_neg (not_not.mpr hempty)]
  simp only [Prog.bind_eq, Prog.eval_bind, Prog.eval_ask, Except.bind, hreply, Except.mapError,
    Prog.eval_lift, storeVerifiedBeacon, hguard, Bool.false_eq_true, if_false]
  rfl

theorem registry_step_iff {t : Transaction} {s s' : Registry} {e : Option BeaconStored} :
    registry.step t s = some (s', e) ↔ ∃ v, t.submit s = .ok ⟨s', v, e⟩ := by
  change (match t.submit s with
    | .ok r => some (r.registry, r.emitted)
    | .error _ => none) = some (s', e) ↔ _
  cases t.submit s with
  | error err => simp
  | ok r =>
    obtain ⟨a, v, b⟩ := r
    simp

/-! Invariant of every run. -/

/-- The events of a round, as the values they carry. -/
def storedValues (log : List BeaconStored) (round : Round) : List Bytes32 :=
  (log.filter fun e => e.round = round).map (·.randomness)

theorem storedValues_append (log log' : List BeaconStored) (round : Round) :
    storedValues (log ++ log') round = storedValues log round ++ storedValues log' round := by
  simp [storedValues]

/-- Storage and log agree: no event for an unstored round, and one for a stored
round, carrying its value. -/
structure LogMatches (s : Registry) (log : List BeaconStored) : Prop where
  zero : s.beacons 0 = 0
  values : ∀ round, storedValues log round =
    if s.beacons round = 0 then [] else [s.beacons round]

theorem logMatches_init : LogMatches registry.init [] :=
  ⟨rfl, fun _ => rfl⟩

theorem LogMatches.store {s : Registry} {log : List BeaconStored} (h : LogMatches s log)
    {round : Round} {v : Bytes32} (sender : Address) (hround : round ≠ 0)
    (hempty : s.beacons round = 0) (hv : v ≠ 0) :
    LogMatches ⟨Function.update s.beacons round v⟩ (log ++ [⟨round, v, sender⟩]) := by
  constructor
  · change Function.update s.beacons round v 0 = 0
    rw [Function.update_of_ne (Ne.symm hround)]
    exact h.zero
  · intro r
    rw [storedValues_append, h.values r]
    by_cases hr : r = round
    · subst hr
      have hnew : Function.update s.beacons r v r = v := by rw [Function.update_self]
      rw [if_pos hempty]
      change _ = if Function.update s.beacons r v r = 0 then [] else _
      rw [hnew, if_neg hv]
      simp [storedValues]
    · have hne : round ≠ r := fun h => hr h.symm
      simp [storedValues, hr, hne]

theorem run_logMatches (ts : List Transaction) :
    LogMatches (registry.run ts).1 (registry.run ts).2 := by
  apply registry.run_invariant LogMatches logMatches_init
  intro t s log s' e h hstep
  obtain ⟨v, hsubmit⟩ := registry_step_iff.mp hstep
  obtain ⟨hround, ⟨_, hr⟩ | ⟨hempty, v', hv', _, hr⟩⟩ := submit_cases hsubmit
  · cases hr
    simpa using h
  · cases hr
    exact h.store t.sender hround hempty hv'

/-- No transaction overwrites a stored round. -/
theorem next_stored {t : Transaction} {s : Registry × List BeaconStored} {round : Round}
    (h : s.1.beacons round ≠ 0) : (registry.next s t).1.beacons round = s.1.beacons round := by
  unfold System.next
  split
  · rfl
  · rename_i s' e hstep
    obtain ⟨v, hsubmit⟩ := registry_step_iff.mp hstep
    obtain ⟨_, ⟨_, hr⟩ | ⟨hempty, v', _, _, hr⟩⟩ := submit_cases hsubmit
    · cases hr
      rfl
    · cases hr
      have hne : round ≠ t.submission.round := by
        rintro rfl
        exact h hempty
      exact Function.update_of_ne hne _ _

theorem run_stored (ts us : List Transaction) {round : Round}
    (h : (registry.run ts).1.beacons round ≠ 0) :
    (registry.run (ts ++ us)).1.beacons round = (registry.run ts).1.beacons round := by
  induction us using List.reverseRecOn with
  | nil => rw [List.append_nil]
  | append_singleton us u ih =>
    have hkept : (registry.run (ts ++ us)).1.beacons round ≠ 0 := by
      rw [ih]
      exact h
    rw [← List.append_assoc, System.run_append_singleton, next_stored hkept, ih]

theorem getBeacon_ok_iff {s : Registry} {round : Round} {v : Bytes32} :
    getBeacon s round = .ok v ↔ round ≠ 0 ∧ s.beacons round ≠ 0 ∧ v = s.beacons round := by
  unfold getBeacon
  split
  · rename_i hzero
    exact ⟨fun h => (nomatch h), fun h => absurd hzero h.1⟩
  · rename_i hround
    split
    · rename_i hempty
      exact ⟨fun h => (nomatch h), fun h => absurd hempty h.2.1⟩
    · rename_i hstored
      constructor
      · intro h
        exact ⟨hround, hstored, (Except.ok.inj h).symm⟩
      · intro h
        rw [h.2.2]

theorem isStored_iff {s : Registry} {round : Round} :
    isStored s round = true ↔ round ≠ 0 ∧ s.beacons round ≠ 0 := by
  unfold isStored
  by_cases hzero : round = 0 <;> simp [hzero]

/-- After a verified submission for an unstored round the round is stored, with its event. -/
theorem run_fresh (ts : List Transaction) {t : Transaction} {v : Bytes32}
    (hround : t.submission.round ≠ 0)
    (hempty : (registry.run ts).1.beacons t.submission.round = 0)
    (hreply : t.verifier t.submission.call = .ok (true, v)) (hv : v ≠ 0) :
    registry.run (ts ++ [t]) =
      (⟨Function.update (registry.run ts).1.beacons t.submission.round v⟩,
        (registry.run ts).2 ++ [⟨t.submission.round, v, t.sender⟩]) := by
  have hstep := registry_step_iff.mpr ⟨v, submit_fresh hround hempty hreply hv⟩
  rw [System.run_append_singleton, System.next, hstep]
  rfl

/-- The registry is a write-once store, whatever the verifier answers. -/
theorem registry_write_once (ts us : List Transaction) :
    (∀ round, (registry.run ts).1.beacons round ≠ 0 →
      (registry.run (ts ++ us)).1.beacons round = (registry.run ts).1.beacons round) ∧
    (∀ round, storedValues (registry.run ts).2 round =
      if (registry.run ts).1.beacons round = 0 then [] else [(registry.run ts).1.beacons round]) ∧
    (∀ sender sub, (registry.run ts).1.beacons sub.round ≠ 0 →
      submit (registry.run ts).1 sender sub =
        .ret ⟨(registry.run ts).1, (registry.run ts).1.beacons sub.round, none⟩) ∧
    (∀ t e, t.submit (registry.run ts).1 = .error e →
      registry.run (ts ++ [t]) = registry.run ts) ∧
    (registry.run ts).1.beacons 0 = 0 ∧
    (∀ round, isStored (registry.run ts).1 round = true ↔
      ∃ v, getBeacon (registry.run ts).1 round = .ok v) ∧
    (∀ round v, getBeacon (registry.run ts).1 round = .ok v →
      v = (registry.run ts).1.beacons round ∧ v ≠ 0) ∧
    (∀ t v, t.submission.round ≠ 0 → (registry.run ts).1.beacons t.submission.round = 0 →
      t.verifier t.submission.call = .ok (true, v) → v ≠ 0 →
      registry.run (ts ++ [t]) =
        (⟨Function.update (registry.run ts).1.beacons t.submission.round v⟩,
          (registry.run ts).2 ++ [⟨t.submission.round, v, t.sender⟩])) := by
  have hinv := run_logMatches ts
  refine ⟨fun round => run_stored ts us, hinv.values, ?_, ?_, hinv.zero, ?_, ?_,
    fun t v => run_fresh ts⟩
  · intro sender sub hstored
    -- round 0 is refused before the lookup, and no run stores it
    have hround : sub.round ≠ 0 := by
      intro hzero
      rw [hzero] at hstored
      exact hstored hinv.zero
    exact submit_stored sender hround hstored
  · intro t e herr
    -- a transaction that reverts is no step
    rw [System.run_append_singleton, System.next]
    have hstep : registry.step t (registry.run ts).1 = none := by
      change (match t.submit (registry.run ts).1 with
        | .ok r => some (r.registry, r.emitted)
        | .error _ => none) = none
      rw [herr]
    rw [hstep]
  · intro round
    rw [isStored_iff]
    constructor
    · rintro ⟨hround, hstored⟩
      exact ⟨_, getBeacon_ok_iff.mpr ⟨hround, hstored, rfl⟩⟩
    · rintro ⟨v, hv⟩
      obtain ⟨hround, hstored, _⟩ := getBeacon_ok_iff.mp hv
      exact ⟨hround, hstored⟩
  · intro round v hv
    obtain ⟨_, hstored, rfl⟩ := getBeacon_ok_iff.mp hv
    exact ⟨rfl, hstored⟩

end Quicknet.Contracts
