import Quicknet.DaemonStatus

/-! A snapshot that meets the rules of the reader is read from every object that has its
properties, in whatever order: from the one that the publisher puts together, and from the
one that was printed and parsed. -/
namespace Quicknet

open Json (Text text Value)

namespace DaemonStatus

def AttemptAccepted (a : DaemonStatusAttempt) : Prop :=
  isUuidV4 a.attemptId = true ∧ isWorkId a.workId = true ∧ a.nonce ≤ MAX_UINT256 ∧
    HashesAccepted a.transactionHashes

def CycleAccepted (c : DaemonStatusCompletedCycle) : Prop :=
  0 < c.cycle ∧ c.cycle ≤ MAX_SAFE_INTEGER ∧ IsTimestamp c.completedAt

def RetryAccepted (r : DaemonStatusRetryObservation) : Prop :=
  IsTimestamp r.observedAt ∧ ∀ n ∈ r.retryDelayMs, n ≤ MAX_SAFE_INTEGER

/-- What a reader checks about the gate by itself. -/
def ReportAccepted (g : LastObservedGate) : Prop :=
  BlockersAccepted g.blockers ∧ g.primaryReason = g.blockers.head? ∧ ∀ t ∈ g.blockedSince, IsTimestamp t

end DaemonStatus

open DaemonStatus

/-- The rules of `readDaemonStatusSnapshot`. -/
structure DaemonStatusSnapshot.Accepted (s : DaemonStatusSnapshot) (expected : IdentityText) :
    Prop where
  captured : captureJournalIdentity expected = true
  identity : s.identity = expected
  runId : isUuidV4 s.runId = true
  observedAt : IsTimestamp s.observedAt
  lastCompletedCycle : ∀ c ∈ s.lastCompletedCycle, CycleAccepted c
  lastRetryObservation : ∀ r ∈ s.lastRetryObservation, RetryAccepted r
  gate : GateAccepted s.journalInitialized s.lastObservedGate
  report : ReportAccepted s.lastObservedGate
  attempt : ∀ a ∈ s.attempts, AttemptAccepted a
  attempts : AttemptsAccepted MAX_DAEMON_STATUS_ATTEMPT_DETAILS s.attempts
  summary : SummaryAccepted s.attemptSummary s.attempts
  lowest : ∀ n ∈ s.attemptSummary.lowestNonce, n ≤ MAX_UINT256
  highest : ∀ n ∈ s.attemptSummary.highestNonce, n ≤ MAX_UINT256
  initialized : s.journalInitialized = false → s.attemptSummary.retainedCount = 0
  rpcUsage : ∀ u ∈ s.rpcUsage, u.Valid

namespace DaemonStatus

/-- An object with the properties of the snapshot. -/
structure Shows (root : Value) (s : DaemonStatusSnapshot) : Prop where
  version : root.field "version" = some (encodeInteger 1)
  identity : root.field "identity" = some (encodeIdentity s.identity)
  runId : root.field "runId" = some (.string s.runId)
  observedAt : root.field "observedAt" = some (.string s.observedAt)
  lastCompletedCycle : root.field "lastCompletedCycle" =
    some (encodeNullable encodeCompletedCycle s.lastCompletedCycle)
  lastRetryObservation : root.field "lastRetryObservation" =
    some (encodeNullable encodeRetryObservation s.lastRetryObservation)
  journalInitialized : root.field "journalInitialized" = some (.bool s.journalInitialized)
  attemptSummary : root.field "attemptSummary" = some (encodeAttemptSummary s.attemptSummary)
  attempts : root.field "attempts" = some (.array (s.attempts.map encodeAttempt))
  lastObservedGate : root.field "lastObservedGate" = some (encodeLastObservedGate s.lastObservedGate)
  rpcUsage : root.field "rpcUsage" = s.rpcUsage.map RpcUsage.encodeRpcUsageSnapshot

section Readers

theorem readBlocker_encode (b : SignerBlocker) :
    readBlocker (encodeLabel SignerBlocker.label b) = some b := by
  cases b <;> rfl

theorem readAttemptPhase_encode (p : AttemptPhase) :
    readAttemptPhase (encodeLabel AttemptPhase.label p) = some p := by
  cases p <;> rfl

theorem readPersistenceState_encode (p : JournalPersistenceState) :
    readPersistenceState (encodeLabel JournalPersistenceState.label p) = some p := by
  cases p <;> rfl

theorem readNonce_encode {n : ℕ} (h : n ≤ MAX_UINT256) : readNonce (encodeBigint n) = some n := by
  unfold readNonce
  rw [decodeDecimal_encode h]
  exact guard_bind_some_iff.mpr ⟨h, rfl⟩

theorem readTransactionHashes_encode {hashes : List Text} (h : HashesAccepted hashes) :
    readTransactionHashes (.array (hashes.map .string)) = some hashes := by
  have hstrings : decodeArray decodeString (.array (hashes.map .string)) = some hashes :=
    mapM_decode fun _ _ => rfl
  unfold readTransactionHashes
  rw [hstrings]
  exact guard_bind_some_iff.mpr ⟨h, rfl⟩

theorem readAttempt_encode {a : DaemonStatusAttempt} (h : AttemptAccepted a) :
    readAttempt (encodeAttempt a) = some a := by
  obtain ⟨huuid, hwork, hnonce, hhashes⟩ := h
  have hid : ((encodeAttempt a).field "attemptId").bind readUuidText = some a.attemptId :=
    readUuidText_string huuid
  have hworkId : ((encodeAttempt a).field "workId").bind readWorkId = some a.workId :=
    guard_bind_some_iff.mpr ⟨hwork, rfl⟩
  have hn : ((encodeAttempt a).field "nonce").bind readNonce = some a.nonce := readNonce_encode hnonce
  have hphase : ((encodeAttempt a).field "phase").bind readAttemptPhase = some a.phase :=
    readAttemptPhase_encode a.phase
  have hlist : ((encodeAttempt a).field "transactionHashes").bind readTransactionHashes =
      some a.transactionHashes := readTransactionHashes_encode hhashes
  unfold readAttempt
  rw [hid, hworkId, hn, hphase, hlist]
  rfl

theorem readAttempts_encode {maximumCount : ℕ} {attempts : List DaemonStatusAttempt}
    (h : ∀ a ∈ attempts, AttemptAccepted a) (hall : AttemptsAccepted maximumCount attempts) :
    readAttempts maximumCount (.array (attempts.map encodeAttempt)) = some attempts := by
  have hmap : decodeArray readAttempt (.array (attempts.map encodeAttempt)) = some attempts :=
    mapM_decode fun a ha => readAttempt_encode (h a ha)
  unfold readAttempts
  rw [hmap]
  exact guard_bind_some_iff.mpr ⟨hall, rfl⟩

theorem readAttemptSummary_encode {s : DaemonStatusAttemptSummary}
    {details : List DaemonStatusAttempt} (h : SummaryAccepted s details)
    (hlowest : ∀ n ∈ s.lowestNonce, n ≤ MAX_UINT256)
    (hhighest : ∀ n ∈ s.highestNonce, n ≤ MAX_UINT256) :
    readAttemptSummary details (encodeAttemptSummary s) = some s := by
  obtain ⟨hmax, hi, hu, hd, ho, _⟩ := h.1
  have hcount {n : ℕ} (hn : n ≤ s.retainedCount) :
      readNonNegativeSafeInteger (encodeInteger n) = some n :=
    readNonNegativeSafeInteger_encode (hn.trans (hmax.trans (by decide)))
  have hnullable {a : Option ℕ} (ha : ∀ n ∈ a, n ≤ MAX_UINT256) :
      decodeNullable readNonce (encodeNullable encodeBigint a) = some a :=
    decodeNullable_encode (fun _ hnull => (by cases hnull)) fun n hn => readNonce_encode (ha n hn)
  have h₁ : ((encodeAttemptSummary s).field "retainedCount").bind readNonNegativeSafeInteger =
      some s.retainedCount := hcount le_rfl
  have h₂ : ((encodeAttemptSummary s).field "includedCount").bind readNonNegativeSafeInteger =
      some s.includedCount := hcount hi
  have h₃ : ((encodeAttemptSummary s).field "unresolvedCount").bind readNonNegativeSafeInteger =
      some s.unresolvedCount := hcount hu
  have h₄ : ((encodeAttemptSummary s).field "detailedCount").bind readNonNegativeSafeInteger =
      some s.detailedCount := hcount hd
  have h₅ : ((encodeAttemptSummary s).field "omittedCount").bind readNonNegativeSafeInteger =
      some s.omittedCount := hcount ho
  have h₆ : ((encodeAttemptSummary s).field "lowestNonce").bind (decodeNullable readNonce) =
      some s.lowestNonce := hnullable hlowest
  have h₇ : ((encodeAttemptSummary s).field "highestNonce").bind (decodeNullable readNonce) =
      some s.highestNonce := hnullable hhighest
  unfold readAttemptSummary
  rw [h₁, h₂, h₃, h₄, h₅, h₆, h₇]
  exact guard_bind_some_iff.mpr ⟨h, rfl⟩

theorem readCompletedCycle_encode {c : DaemonStatusCompletedCycle} (h : CycleAccepted c) :
    readCompletedCycle (encodeCompletedCycle c) = some c := by
  obtain ⟨hpos, hmax, hat⟩ := h
  have hcycle : ((encodeCompletedCycle c).field "cycle").bind readPositiveSafeInteger =
      some c.cycle := readPositiveSafeInteger_encode hmax hpos
  have hcompleted : ((encodeCompletedCycle c).field "completedAt").bind readTimestampText =
      some c.completedAt := readTimestampText_string hat
  unfold readCompletedCycle
  rw [hcycle, hcompleted]
  rfl

theorem readRetryObservation_encode {r : DaemonStatusRetryObservation} (h : RetryAccepted r) :
    readRetryObservation (encodeRetryObservation r) = some r := by
  obtain ⟨hat, hdelay⟩ := h
  have hobserved : ((encodeRetryObservation r).field "observedAt").bind readTimestampText =
      some r.observedAt := readTimestampText_string hat
  have hretry : ((encodeRetryObservation r).field "retryDelayMs").bind
      (decodeNullable readNonNegativeSafeInteger) = some r.retryDelayMs :=
    decodeNullable_encode (fun _ hnull => (by cases hnull))
      fun n hn => readNonNegativeSafeInteger_encode (hdelay n hn)
  unfold readRetryObservation
  rw [hobserved, hretry]
  rfl

theorem readLastObservedGate_encode {g : LastObservedGate} (h : ReportAccepted g) :
    readLastObservedGate (encodeLastObservedGate g) = some g := by
  obtain ⟨hblockers, hprimary, hsince⟩ := h
  have hopen : ((encodeLastObservedGate g).field "open").bind readBoolean = some g.isOpen := rfl
  have hrecovery : ((encodeLastObservedGate g).field "recoveryComplete").bind readBoolean =
      some g.recoveryComplete := rfl
  have hinclusion : ((encodeLastObservedGate g).field "inclusionChecksComplete").bind readBoolean =
      some g.inclusionChecksComplete := rfl
  have hpersistence : ((encodeLastObservedGate g).field "persistenceState").bind
      readPersistenceState = some g.persistenceState := readPersistenceState_encode _
  have hblocked : ((encodeLastObservedGate g).field "blockedSince").bind
      (decodeNullable readTimestampText) = some g.blockedSince :=
    decodeNullable_encode (fun _ hnull => (by cases hnull))
      fun t ht => readTimestampText_string (hsince t ht)
  have hlist : ((encodeLastObservedGate g).field "blockers").bind readBlockers = some g.blockers := by
    have hmap : decodeArray readBlocker
        (.array (g.blockers.map (encodeLabel SignerBlocker.label))) = some g.blockers :=
      mapM_decode fun b _ => readBlocker_encode b
    change readBlockers (.array (g.blockers.map (encodeLabel SignerBlocker.label))) = _
    unfold readBlockers
    rw [hmap]
    exact guard_bind_some_iff.mpr ⟨hblockers, rfl⟩
  have hreason : ((encodeLastObservedGate g).field "primaryReason").bind
      (decodeNullable readBlocker) = some g.primaryReason :=
    decodeNullable_encode (fun _ hnull => (by cases hnull)) fun b _ => readBlocker_encode b
  unfold readLastObservedGate
  rw [hopen, hrecovery, hinclusion, hpersistence, hblocked, hlist, hreason]
  exact guard_bind_some_iff.mpr ⟨hprimary, rfl⟩

theorem captured_iff {t : IdentityText} : captureJournalIdentity t = true ↔
    ∃ signer, readIdentity t = some ⟨t.chainId, signer⟩ ∧
      readFixedHex 20 t.signer = some signer ∧ IdentityValid ⟨t.chainId, signer⟩ := by
  unfold captureJournalIdentity readIdentity
  cases hs : readFixedHex 20 t.signer with
  | none => simp
  | some signer =>
    simp only [bind, Option.bind, pure, Option.any_some, decide_eq_true_eq, Option.some.injEq,
      JournalIdentity.mk.injEq, true_and]
    constructor
    · exact fun h => ⟨signer, rfl, rfl, h⟩
    · rintro ⟨_, rfl, _, h⟩
      exact h

theorem checkIdentity_encode {expected : IdentityText} (h : captureJournalIdentity expected = true) :
    checkIdentity expected (encodeIdentity expected) = some () := by
  obtain ⟨_, _, _, _, hchain⟩ := captured_iff.mp h
  have hnumber : ((encodeIdentity expected).field "chainId").bind decodeNumber =
      some expected.chainId := decodeNumber_ofNat hchain
  have hsigner : ((encodeIdentity expected).field "signer").bind decodeString =
      some expected.signer := rfl
  unfold checkIdentity
  rw [hnumber, hsigner]
  simp only [bind, Option.bind_some, guard, and_self, if_true]
  rfl

end Readers

section Snapshot

variable {s : DaemonStatusSnapshot} {expected : IdentityText} {root : Value}

/-- Every object with the properties of an accepted snapshot is read as that snapshot. -/
theorem readDaemonStatusSnapshot_shows (h : s.Accepted expected) (hroot : Shows root s) :
    readDaemonStatusSnapshot root expected = .ok s := by
  have hversion : (root.field "version").bind readVersion = some () := by
    have hone : decodeNumber (encodeInteger 1) = some 1 := decodeNumber_ofNat (by decide)
    rw [hroot.version, Option.bind_some]
    unfold readVersion
    rw [hone]
    rfl
  have hidentity : (root.field "identity").bind (checkIdentity expected) = some () := by
    rw [hroot.identity, h.identity, Option.bind_some, checkIdentity_encode h.captured]
  have hcycle : (root.field "lastCompletedCycle").bind (decodeNullable readCompletedCycle) =
      some s.lastCompletedCycle := by
    rw [hroot.lastCompletedCycle, Option.bind_some]
    exact decodeNullable_encode (fun _ hnull => (by cases hnull))
      fun c hc => readCompletedCycle_encode (h.lastCompletedCycle c hc)
  have hretry : (root.field "lastRetryObservation").bind (decodeNullable readRetryObservation) =
      some s.lastRetryObservation := by
    rw [hroot.lastRetryObservation, Option.bind_some]
    exact decodeNullable_encode (fun _ hnull => (by cases hnull))
      fun r hr => readRetryObservation_encode (h.lastRetryObservation r hr)
  -- the fields that are always there, read in the order of the code
  have hrequired : readRequiredFields root expected = some { s with rpcUsage := none } := by
    unfold readRequiredFields
    rw [hversion, hidentity, hroot.runId, hroot.journalInitialized, hroot.observedAt, hcycle,
      hretry, hroot.lastObservedGate, hroot.attempts, hroot.attemptSummary]
    simp only [Option.bind_eq_bind, Option.bind_some, readUuidText_string h.runId,
      readTimestampText_string h.observedAt, readLastObservedGate_encode h.report,
      readAttempts_encode h.attempt h.attempts,
      readAttemptSummary_encode h.summary h.lowest h.highest, readBoolean]
    refine guard_bind_some_iff.mpr ⟨h.gate, guard_bind_some_iff.mpr ⟨h.initialized, ?_⟩⟩
    rw [← h.identity]
    rfl
  unfold readDaemonStatusSnapshot
  rw [hrequired, hroot.rpcUsage]
  simp only [bind, requireThat_bind_ok_iff]
  refine ⟨h.captured, ?_⟩
  cases hu : s.rpcUsage with
  | none =>
    simp only [Option.map_none, orThrow, Except.bind, pure, Except.pure]
    rw [← hu]
  | some u =>
    simp only [Option.map_some, orThrow, Except.bind, pure, Except.pure,
      RpcUsage.readRpcUsageSnapshot_encode (h.rpcUsage u hu)]
    rw [← hu]

theorem encode_shows (s : DaemonStatusSnapshot) : Shows (encodeDaemonStatusSnapshot s) s := by
  obtain ⟨identity, runId, observedAt, cycle, retry, initialized, summary, attempts, gate, usage⟩ := s
  cases usage with
  | none => exact ⟨rfl, rfl, rfl, rfl, rfl, rfl, rfl, rfl, rfl, rfl, rfl⟩
  | some u => exact ⟨rfl, rfl, rfl, rfl, rfl, rfl, rfl, rfl, rfl, rfl, rfl⟩

/-- The text of a snapshot is parsed to the object that was printed. -/
theorem parse_daemonStatusText (s : DaemonStatusSnapshot) :
    Json.parse (daemonStatusText s) = some (encodeDaemonStatusSnapshot s) :=
  Json.parse_print_append _ (List.all_eq_true.mp (by decide))

end Snapshot

end DaemonStatus

end Quicknet
