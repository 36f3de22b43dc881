import Quicknet.BlockAnchor
import Quicknet.JournalValidation

/-! The plan of a manual forward nonce repair of a present, empty journal. -/
namespace Quicknet

inductive NonceSyncRefusal
  | retainedAttempts
  | nonceRegression
  | anchorRegression
  | anchorConflict
  deriving DecidableEq, Repr

inductive NonceSyncPlan
  | alreadySynchronized
  | deferred
  | refused (reason : NonceSyncRefusal)
  | repairAvailable (repair : JournalNonceRepair) (snapshot : TransactionJournalSnapshot)
  deriving DecidableEq, Repr

/-- `slice(-MAX_RETAINED_NONCE_REPAIRS)`. -/
def retainRepairs (repairs : List JournalNonceRepair) : List JournalNonceRepair :=
  repairs.drop (repairs.length - MAX_RETAINED_NONCE_REPAIRS)

def repairedSnapshot (current : TransactionJournalSnapshot) (observation : AnchoredNonceObservation)
    (at' : Timestamp) : TransactionJournalSnapshot :=
  { current with
    lastObservation := observation
    nextNonce := observation.nonce
    durableNextNonce := observation.nonce
    repairs := retainRepairs
      (current.repairs ++ [⟨at', current.nextNonce, observation.nonce, observation⟩]) }

def planNonceSync (input : TransactionJournalSnapshot) (identity : JournalIdentity)
    (observation : AnchoredNonceObservation) (latestNonce pendingNonce : ℕ) (at' : Timestamp) :
    Except Failure NonceSyncPlan := do
  let current ← validateJournalSnapshotStructure input identity
  requireThat "Invalid transaction journal snapshot." (ObservationValid observation)
  requireThat "Invalid nonce sync count."
    (latestNonce ≤ MAX_UINT256 ∧ pendingNonce ≤ MAX_UINT256)
  let previous := current.lastObservation
  if current.attempts ≠ [] then return .refused .retainedAttempts
  else if observation.anchor.blockNumber < previous.anchor.blockNumber then
    return .refused .anchorRegression
  else if observation.anchor.blockNumber = previous.anchor.blockNumber ∧
      observation.anchor.blockHash ≠ previous.anchor.blockHash then
    return .refused .anchorConflict
  else if observation.nonce < current.nextNonce ∨ observation.nonce < previous.nonce then
    return .refused .nonceRegression
  else if observation.nonce ≠ latestNonce ∨ observation.nonce ≠ pendingNonce then
    return .deferred
  else if observation.nonce = current.nextNonce then return .alreadySynchronized
  else
    let snapshot ← validateJournalSnapshotStructure
      (repairedSnapshot current observation at') identity
    return .repairAvailable ⟨at', current.nextNonce, observation.nonce, observation⟩ snapshot

/-- A repair is planned for an empty queue only, and moves the nonce forward. -/
theorem planNonceSync_repair {s t : TransactionJournalSnapshot} {identity : JournalIdentity}
    {o : AnchoredNonceObservation} {l p : ℕ} {at' : Timestamp} {r : JournalNonceRepair}
    (h : planNonceSync s identity o l p at' = .ok (.repairAvailable r t)) :
    SnapshotValid identity s ∧ s.attempts = [] ∧ s.nextNonce < o.nonce ∧
      s.lastObservation.nonce ≤ o.nonce ∧ t = repairedSnapshot s o at' ∧
      SnapshotValid identity t := by
  unfold planNonceSync at h
  cases hv : validateJournalSnapshotStructure s identity with
  | error e =>
    rw [hv] at h
    cases h
  | ok s' =>
    obtain ⟨rfl, hs⟩ := validate_ok_iff.mp hv
    rw [hv] at h
    simp only [bind, pure, Except.bind, Except.pure, requireThat] at h
    split_ifs at h with h₁ h₂ h₃ h₄ h₅ h₆ h₇ h₈
    all_goals try cases h
    cases hw : validateJournalSnapshotStructure (repairedSnapshot s' o at') identity with
    | error e =>
      rw [hw] at h
      cases h
    | ok t' =>
      rw [hw] at h
      obtain ⟨_, rfl⟩ := NonceSyncPlan.repairAvailable.inj (Except.ok.inj h)
      obtain ⟨rfl, ht⟩ := validate_ok_iff.mp hw
      refine ⟨hs, not_not.mp h₃, ?_, ?_, rfl, ht⟩ <;> omega

end Quicknet
