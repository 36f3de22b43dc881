import Quicknet.Journal

/-! `validateJournalSnapshotStructure`: the checks in the source's order. The
reader copies the declared fields, so an accepted snapshot is returned as it is. -/
namespace Quicknet

def MAX_WORK_ID_LENGTH : ℕ := 256

/-- `isWellFormed`: no surrogate without its partner. -/
def isWellFormed : List UInt16 → Bool
  | [] => true
  | [c] => c < 0xD800 || c > 0xDFFF
  | c :: d :: rest =>
    if c < 0xD800 || c > 0xDFFF then isWellFormed (d :: rest)
    else c ≤ 0xDBFF && 0xDC00 ≤ d && d ≤ 0xDFFF && isWellFormed rest

def isWorkId (value : WorkId) : Bool :=
  value.length != 0 && value.length ≤ MAX_WORK_ID_LENGTH && isWellFormed value &&
    value.all (fun c => !(c < 0x20 || (0x7f ≤ c && c ≤ 0x9f)))

def requireThat (message : String) (condition : Prop) [Decidable condition] :
    Except Failure Unit :=
  if condition then .ok () else .error (.typeError message)

theorem requireThat_bind_ok_iff {α : Type} {m : String} {c : Prop} [Decidable c]
    {x : Except Failure α} {a : α} :
    (requireThat m c).bind (fun _ => x) = .ok a ↔ c ∧ x = .ok a := by
  unfold requireThat
  split_ifs with h <;> simp [Except.bind, h]

abbrev requireValid (condition : Prop) [Decidable condition] : Except Failure Unit :=
  requireThat "Invalid transaction journal snapshot." condition

abbrev requireValidRepair (condition : Prop) [Decidable condition] : Except Failure Unit :=
  requireThat "Invalid transaction journal repairs." condition

def IdentityValid (i : JournalIdentity) : Prop := 0 < i.chainId ∧ i.chainId ≤ MAX_SAFE_INTEGER

def ObservationValid (o : AnchoredNonceObservation) : Prop :=
  o.anchor.blockNumber ≤ MAX_UINT256 ∧ o.nonce ≤ MAX_UINT256

def SearchValid (attemptNonce : ℕ) (search : ReplacementSearch) : Prop :=
  ObservationValid search.lowerBound ∧ search.lowerBound.nonce ≤ attemptNonce ∧
    ∀ t ∈ search.searchedThrough, t.blockNumber ≤ MAX_UINT256 ∧
      search.lowerBound.anchor.blockNumber < t.blockNumber

def OutcomeValid (attemptNonce : ℕ) (t : SignedTransactions) : InclusionOutcome → Prop
  | .success h => h ∈ t.hashes
  | .reverted h => h ∈ t.hashes
  | .replaced h nonceAtAnchor =>
    nonceAtAnchor ≤ MAX_UINT256 ∧ h ∉ t.hashes ∧ attemptNonce < nonceAtAnchor

def InclusionValid (attemptNonce : ℕ) (t : SignedTransactions)
    (i : JournalInclusionObservation) : Prop :=
  i.inclusion.blockNumber ≤ MAX_UINT256 ∧ i.observedAt.blockNumber ≤ MAX_UINT256 ∧
    i.inclusion.blockNumber ≤ i.observedAt.blockNumber ∧
    (i.inclusion.blockNumber = i.observedAt.blockNumber →
      i.inclusion.blockHash = i.observedAt.blockHash) ∧
    OutcomeValid attemptNonce t i.outcome

def PhaseValid (attemptNonce : ℕ) (t : SignedTransactions) : JournalPhase → Prop
  | .signed => True
  | .broadcastMayHaveOccurred => True
  | .included i => InclusionValid attemptNonce t i

/-- A signed transaction of at least 66 hex characters has at least 32 bytes. -/
def AttemptValid (a : JournalAttempt) : Prop :=
  a.nonce ≤ MAX_UINT256 ∧ isWorkId a.workId = true ∧
    (∀ t ∈ a.signedTransactions.toList, 32 ≤ t.signedTransaction.length) ∧
    (∀ s ∈ a.replacementSearch, SearchValid a.nonce s) ∧
    PhaseValid a.nonce a.signedTransactions a.phase

def RepairValid (r : JournalNonceRepair) : Prop :=
  r.previousNextNonce ≤ MAX_UINT256 ∧ r.nextNonce ≤ MAX_UINT256 ∧
    ObservationValid r.observation ∧ r.previousNextNonce < r.nextNonce ∧
    r.observation.nonce = r.nextNonce

/-- Each repair starts at or after the nonce the one before it adopted. -/
def RepairsChained : List JournalNonceRepair → Prop
  | [] => True
  | [_] => True
  | a :: b :: rest => a.nextNonce ≤ b.previousNextNonce ∧ RepairsChained (b :: rest)

def RepairsValid (s : TransactionJournalSnapshot) : Prop :=
  s.repairs.length ≤ MAX_RETAINED_NONCE_REPAIRS ∧ (∀ r ∈ s.repairs, RepairValid r) ∧
    RepairsChained s.repairs ∧ ∀ r ∈ s.repairs.getLast?, r.nextNonce ≤ s.durableNextNonce

def HeaderValid (expected : JournalIdentity) (s : TransactionJournalSnapshot) : Prop :=
  IdentityValid expected ∧ IdentityValid s.identity ∧ s.identity = expected ∧
    ObservationValid s.baseline ∧ ObservationValid s.lastObservation ∧
    s.nextNonce ≤ MAX_UINT256 ∧ s.durableNextNonce ≤ MAX_UINT256 ∧
    s.baseline.nonce ≤ s.durableNextNonce ∧ s.durableNextNonce ≤ s.nextNonce

/-- The attempts carry consecutive nonces from `n` on. -/
def ContiguousFrom : ℕ → List JournalAttempt → Prop
  | _, [] => True
  | n, a :: rest => a.nonce = n ∧ ContiguousFrom (n+1) rest

def AttemptsValid (s : TransactionJournalSnapshot) : Prop :=
  (∀ a ∈ s.attempts, AttemptValid a) ∧
    s.attempts.length = s.nextNonce - s.durableNextNonce ∧
    ContiguousFrom s.durableNextNonce s.attempts ∧
    (s.attempts.map (·.attemptId)).Nodup ∧ (s.attempts.map (·.workId)).Nodup ∧
    (s.attempts.flatMap (·.signedTransactions.hashes)).Nodup

instance (i) : Decidable (IdentityValid i) := by unfold IdentityValid; infer_instance
instance (o) : Decidable (ObservationValid o) := by unfold ObservationValid; infer_instance
instance (n s) : Decidable (SearchValid n s) := by unfold SearchValid; infer_instance
instance (n t o) : Decidable (OutcomeValid n t o) := by cases o <;> unfold OutcomeValid <;> infer_instance
instance (n t i) : Decidable (InclusionValid n t i) := by unfold InclusionValid; infer_instance
instance (n t p) : Decidable (PhaseValid n t p) := by cases p <;> unfold PhaseValid <;> infer_instance
instance (a) : Decidable (AttemptValid a) := by unfold AttemptValid; infer_instance
instance (r) : Decidable (RepairValid r) := by unfold RepairValid; infer_instance

def decideRepairsChained : (l : List JournalNonceRepair) → Decidable (RepairsChained l)
  | [] => isTrue trivial
  | [_] => isTrue trivial
  | a :: b :: rest =>
    @instDecidableAnd _ _ (Nat.decLe a.nextNonce b.previousNextNonce) (decideRepairsChained (b :: rest))

def decideContiguousFrom : (n : ℕ) → (l : List JournalAttempt) → Decidable (ContiguousFrom n l)
  | _, [] => isTrue trivial
  | n, a :: rest => @instDecidableAnd _ _ (Nat.decEq a.nonce n) (decideContiguousFrom (n+1) rest)

instance (l) : Decidable (RepairsChained l) := decideRepairsChained l
instance (n l) : Decidable (ContiguousFrom n l) := decideContiguousFrom n l
instance (s) : Decidable (RepairsValid s) := by unfold RepairsValid; infer_instance
instance (e s) : Decidable (HeaderValid e s) := by unfold HeaderValid; infer_instance
instance (s) : Decidable (AttemptsValid s) := by unfold AttemptsValid; infer_instance

def validateJournalSnapshotStructure (input : TransactionJournalSnapshot)
    (expected : JournalIdentity) : Except Failure TransactionJournalSnapshot := do
  requireValid (HeaderValid expected input)
  requireValidRepair (RepairsValid input)
  requireValid (AttemptsValid input)
  return input

/-- What an accepted snapshot satisfies. -/
structure SnapshotValid (expected : JournalIdentity) (s : TransactionJournalSnapshot) : Prop where
  header : HeaderValid expected s
  repairs : RepairsValid s
  attempts : AttemptsValid s

theorem validate_ok_iff {s t : TransactionJournalSnapshot} {expected : JournalIdentity} :
    validateJournalSnapshotStructure s expected = .ok t ↔ t = s ∧ SnapshotValid expected s := by
  unfold validateJournalSnapshotStructure
  simp only [bind, pure, requireThat_bind_ok_iff, Except.pure, Except.ok.injEq]
  constructor
  · rintro ⟨hh, hr, ha, rfl⟩
    exact ⟨rfl, hh, hr, ha⟩
  · rintro ⟨rfl, hh, hr, ha⟩
    exact ⟨hh, hr, ha, rfl⟩

/-! Consecutive nonces name the attempts of a queue. -/

theorem ContiguousFrom.bounds {n : ℕ} {l : List JournalAttempt} (h : ContiguousFrom n l)
    {a : JournalAttempt} (ha : a ∈ l) : n ≤ a.nonce ∧ a.nonce < n + l.length := by
  induction l generalizing n with
  | nil => simp at ha
  | cons b l ih =>
    rcases List.mem_cons.mp ha with rfl | ha
    · have := h.1
      simp only [List.length_cons]
      omega
    · have := ih h.2 ha
      simp only [List.length_cons]
      omega

namespace SnapshotValid

variable {e : JournalIdentity} {s : TransactionJournalSnapshot}

theorem durable_le_next (h : SnapshotValid e s) : s.durableNextNonce ≤ s.nextNonce :=
  h.header.2.2.2.2.2.2.2.2

theorem contiguous (h : SnapshotValid e s) : ContiguousFrom s.durableNextNonce s.attempts :=
  h.attempts.2.2.1

theorem length_attempts (h : SnapshotValid e s) :
    s.durableNextNonce + s.attempts.length = s.nextNonce := by
  have hl := h.attempts.2.1
  have := h.durable_le_next
  omega

theorem nonce_bounds (h : SnapshotValid e s) {a : JournalAttempt} (ha : a ∈ s.attempts) :
    s.durableNextNonce ≤ a.nonce ∧ a.nonce < s.nextNonce := by
  have hb := h.contiguous.bounds ha
  have hl := h.length_attempts
  omega

theorem attempt_of_id (h : SnapshotValid e s) {a b : JournalAttempt} (ha : a ∈ s.attempts)
    (hb : b ∈ s.attempts) (hi : a.attemptId = b.attemptId) : a = b :=
  List.inj_on_of_nodup_map h.attempts.2.2.2.1 ha hb hi

end SnapshotValid

end Quicknet
