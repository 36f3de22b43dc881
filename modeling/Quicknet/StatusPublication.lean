import Quicknet.DaemonStatusPublisher
import Quicknet.DaemonStatusSize
import Quicknet.RuntimeBounds
import Quicknet.SecurityProfile
import Quicknet.TimestampText

/-! Every snapshot that a publisher builds from what a running coordinator shows is one
that the reader accepts, is the same after it was printed and parsed, and fits the file. -/
namespace Quicknet

open Json (Text text Value)
open DaemonStatus DurableFile SignerCoordinator

/-! The projection of a population. -/

section Projection

/-- An increasing list is no longer than the range from its first to its last element. -/
theorem increasing_range {l : List ℕ} (h : l.Pairwise (· < ·)) {a b : ℕ} (ha : l.head? = some a)
    (hb : l.getLast? = some b) : a + l.length ≤ b + 1 ∧ ∀ x ∈ l, a ≤ x ∧ x ≤ b := by
  induction l generalizing a with
  | nil => cases ha
  | cons c l ih =>
    obtain rfl := Option.some.inj ha
    rw [List.pairwise_cons] at h
    cases hl : l.head? with
    | none =>
      obtain rfl := List.head?_eq_none_iff.mp hl
      obtain rfl := Option.some.inj hb
      simp
    | some d =>
      have hne : l ≠ [] := by
        rintro rfl
        cases hl
      rw [List.getLast?_cons_of_ne_nil hne] at hb
      obtain ⟨hlength, hall⟩ := ih h.2 hl hb
      have hcd : c < d := h.1 d (List.mem_of_head? hl)
      have hdb : d ≤ b := (hall d (List.mem_of_head? hl)).2
      refine ⟨?_, ?_⟩
      · rw [List.length_cons]
        omega
      · intro x hx
        rcases List.mem_cons.mp hx with rfl | hx
        · omega
        · have := hall x hx
          omega

variable {attempts : List DaemonStatusAttempt}

/-- The attempt that is selected is the first unresolved one, or the first of all. -/
theorem selectedAttempts_cases (attempts : List DaemonStatusAttempt) :
    (attempts.filter (!·.isIncluded) = [] ∧ selectedAttempts attempts = attempts.take 1) ∨
      ∃ a, (attempts.filter (!·.isIncluded)).head? = some a ∧ selectedAttempts attempts = [a] := by
  unfold selectedAttempts MAX_DAEMON_STATUS_ATTEMPT_DETAILS
  cases hu : attempts.filter (!·.isIncluded) with
  | nil =>
    have hall : attempts.filter (·.isIncluded) = attempts := by
      rw [List.filter_eq_self]
      intro a ha
      simpa using List.filter_eq_nil_iff.mp hu a ha
    exact Or.inl ⟨rfl, by simp [hall]⟩
  | cons a rest => exact Or.inr ⟨a, rfl, by simp⟩

theorem selectedAttempts_subset {a : DaemonStatusAttempt} (ha : a ∈ selectedAttempts attempts) :
    a ∈ attempts := by
  rcases selectedAttempts_cases attempts with ⟨_, hs⟩ | ⟨b, hb, hs⟩
  · rw [hs] at ha
    exact List.mem_of_mem_take ha
  · rw [hs, List.mem_singleton] at ha
    subst ha
    exact List.mem_of_mem_filter (List.mem_of_head? hb)

theorem selectedAttempts_length (attempts : List DaemonStatusAttempt) :
    (selectedAttempts attempts).length = min attempts.length MAX_DAEMON_STATUS_ATTEMPT_DETAILS := by
  unfold MAX_DAEMON_STATUS_ATTEMPT_DETAILS
  rcases selectedAttempts_cases attempts with ⟨_, hs⟩ | ⟨b, hb, hs⟩
  · rw [hs, List.length_take, min_comm]
  · have hmem : b ∈ attempts := List.mem_of_mem_filter (List.mem_of_head? hb)
    have hpos := List.length_pos_of_mem hmem
    rw [hs, List.length_singleton]
    omega

/-- At most one attempt is detailed, so there is nothing to sort. -/
theorem projected_details (attempts : List DaemonStatusAttempt) :
    (projectDaemonStatusAttempts attempts).details = selectedAttempts attempts := by
  have hlength := selectedAttempts_length attempts
  unfold projectDaemonStatusAttempts
  dsimp only
  cases hs : selectedAttempts attempts with
  | nil => exact List.mergeSort_nil
  | cons a rest =>
    cases rest with
    | nil => exact List.mergeSort_singleton a
    | cons b rest =>
      rw [hs, List.length_cons, List.length_cons] at hlength
      unfold MAX_DAEMON_STATUS_ATTEMPT_DETAILS at hlength
      omega

theorem unresolved_count (attempts : List DaemonStatusAttempt) :
    attempts.length - attempts.countP (·.isIncluded) = attempts.countP (!·.isIncluded) := by
  have h := List.length_eq_countP_add_countP (fun a : DaemonStatusAttempt => a.isIncluded)
    (l := attempts)
  simp only [decide_not, Bool.decide_eq_true] at h
  omega

theorem projected_counts (hmax : attempts.length ≤ MAX_RETAINED_ATTEMPTS) :
    CountsAccepted (projectDaemonStatusAttempts attempts).summary
      (projectDaemonStatusAttempts attempts).details := by
  have hdetails := projected_details attempts
  have hlength := selectedAttempts_length attempts
  have hle := List.countP_le_length (p := fun a : DaemonStatusAttempt => a.isIncluded) (l := attempts)
  have hsorted : (projectDaemonStatusAttempts attempts).summary.detailedCount =
      (selectedAttempts attempts).length := by
    rw [← hdetails]
    rfl
  have homitted : (projectDaemonStatusAttempts attempts).summary.omittedCount =
      attempts.length - (selectedAttempts attempts).length := by
    rw [← hdetails]
    rfl
  unfold CountsAccepted
  rw [hsorted, homitted, hdetails]
  change attempts.length ≤ _ ∧ attempts.countP (·.isIncluded) ≤ attempts.length ∧
    attempts.length - attempts.countP (·.isIncluded) ≤ attempts.length ∧ _ ≤ attempts.length ∧
    _ ≤ attempts.length ∧ attempts.countP (·.isIncluded) =
      attempts.length - (attempts.length - attempts.countP (·.isIncluded)) ∧ _ ∧
    _ = min attempts.length _ ∧ _ = attempts.length - _
  omega

theorem projected_range (h : (attempts.map (·.nonce)).Pairwise (· < ·)) :
    RangeAccepted attempts.length (selectedAttempts attempts) (attempts.head?.map (·.nonce))
      (attempts.getLast?.map (·.nonce)) := by
  cases hhead : attempts.head? with
  | none =>
    obtain rfl := List.head?_eq_none_iff.mp hhead
    exact rfl
  | some first =>
    have hne : attempts ≠ [] := by
      rintro rfl
      cases hhead
    obtain ⟨last, hlast⟩ : ∃ last, attempts.getLast? = some last :=
      ⟨_, List.getLast?_eq_some_getLast hne⟩
    rw [hlast]
    obtain ⟨hlength, hall⟩ := increasing_range h (a := first.nonce) (b := last.nonce)
      (by rw [List.head?_map, hhead]; rfl) (by rw [List.getLast?_map, hlast]; rfl)
    rw [List.length_map] at hlength
    have hpos := List.length_pos_iff.mpr hne
    have hbetween (a : DaemonStatusAttempt) (ha : a ∈ attempts) :
        first.nonce ≤ a.nonce ∧ a.nonce ≤ last.nonce := hall _ (List.mem_map_of_mem ha)
    have hends := hbetween first (List.mem_of_head? hhead)
    change attempts.length ≠ 0 ∧ first.nonce ≤ last.nonce ∧
      attempts.length ≤ last.nonce - first.nonce + 1 ∧ (attempts.length = 1 → _) ∧ _
    refine ⟨by omega, hends.2, by omega, ?_, fun d hd => hbetween d (selectedAttempts_subset hd)⟩
    intro hone
    obtain ⟨a, rfl⟩ := List.length_eq_one_iff.mp hone
    obtain rfl := Option.some.inj hhead
    obtain rfl := Option.some.inj hlast
    rfl

theorem projected_shown :
    DetailsAccepted (projectDaemonStatusAttempts attempts).summary (selectedAttempts attempts) := by
  have hlength := selectedAttempts_length attempts
  have hunresolved := unresolved_count attempts
  have hle := List.countP_le_length (p := fun a : DaemonStatusAttempt => a.isIncluded) (l := attempts)
  have hsorted : (projectDaemonStatusAttempts attempts).summary.detailedCount =
      (selectedAttempts attempts).length := congrArg List.length (projected_details attempts)
  have homitted : (projectDaemonStatusAttempts attempts).summary.omittedCount =
      attempts.length - (selectedAttempts attempts).length := by
    rw [← projected_details]
    rfl
  unfold DetailsAccepted
  rw [hsorted, homitted]
  change _ = min (attempts.length - attempts.countP (·.isIncluded)) _ ∧
    _ ≤ attempts.countP (·.isIncluded) ∧ (0 < attempts.length ∧ (_ ∨
      attempts.length - attempts.countP (·.isIncluded) = 0 ∨ attempts.countP (·.isIncluded) = 0) →
        _ = attempts.head?.map (·.nonce)) ∧ (0 < attempts.length ∧ _ →
        _ = attempts.getLast?.map (·.nonce))
  rw [hunresolved]
  unfold MAX_DAEMON_STATUS_ATTEMPT_DETAILS at hlength
  have hwhole : 0 < attempts.length ∧ attempts.length - (selectedAttempts attempts).length = 0 →
      attempts.length = 1 := by omega
  rcases selectedAttempts_cases attempts with ⟨hnone, hs⟩ | ⟨a, ha, hs⟩
  · have hzero : attempts.countP (!·.isIncluded) = 0 := by
      rw [List.countP_eq_length_filter, hnone, List.length_nil]
    have hnoneShown : (selectedAttempts attempts).countP (!·.isIncluded) = 0 := by
      have hsub : (selectedAttempts attempts).Sublist attempts := hs ▸ List.take_sublist 1 attempts
      have := hsub.countP_le (p := fun a : DaemonStatusAttempt => !a.isIncluded)
      omega
    rw [hnoneShown, hzero]
    refine ⟨by omega, by omega, ?_, ?_⟩
    · intro _
      rw [hs, List.head?_take, if_neg (by norm_num)]
    · intro hall
      rw [hs, List.take_of_length_le (hwhole hall).le]
  · have hmem : a ∈ attempts.filter (!·.isIncluded) := List.mem_of_head? ha
    have hpos : 0 < attempts.countP (!·.isIncluded) := by
      rw [List.countP_eq_length_filter]
      exact List.length_pos_of_mem hmem
    have hshown : (selectedAttempts attempts).countP (!·.isIncluded) = 1 := by
      rw [hs, List.countP_singleton, if_pos (List.mem_filter.mp hmem).2]
    have hone : (selectedAttempts attempts).length = 1 := by rw [hs, List.length_singleton]
    -- one attempt that stands for all, or unresolved ones only
    have hsingle (hlen : attempts.length = 1) : attempts = [a] := by
      obtain ⟨b, rfl⟩ := List.length_eq_one_iff.mp hlen
      rw [List.mem_singleton.mp (List.mem_of_mem_filter hmem)]
    rw [hshown]
    refine ⟨by omega, by omega, ?_, ?_⟩
    · rintro ⟨hlen, homit | hnone | hincluded⟩
      · rw [hs, hsingle (hwhole ⟨hlen, homit⟩)]
      · omega
      · have hall : attempts.filter (!·.isIncluded) = attempts := by
          rw [List.filter_eq_self]
          intro b hb
          simpa using List.countP_eq_zero.mp hincluded b hb
        rw [hall] at ha
        rw [hs, ha]
        rfl
    · intro hall
      rw [hs, hsingle (hwhole hall)]

theorem projected_summary (h : AttemptsAccepted MAX_RETAINED_ATTEMPTS attempts) :
    SummaryAccepted (projectDaemonStatusAttempts attempts).summary
      (projectDaemonStatusAttempts attempts).details := by
  obtain ⟨hmax, _, _, hnonces⟩ := h
  refine ⟨projected_counts hmax, ?_, ?_⟩
  · rw [projected_details]
    exact projected_range hnonces
  · rw [projected_details]
    exact projected_shown

end Projection

/-! The runtime that a publication reads. -/

section Runtime

variable {lib : TransactionLibrary} {identity : JournalIdentity} {c : SignerCoordinator}
  {s : TransactionJournalSnapshot}

theorem captured_gate {busy : Bool} (spelled : SpelledStatus (c.captureStatus identity busy)) :
    ReportAccepted (readSignerRuntimeObservation _ spelled).status ∧
      GateAccepted (readSignerRuntimeObservation _ spelled).journalInitialized
        (readSignerRuntimeObservation _ spelled).status := by
  refine ⟨⟨⟨List.length_filter_le _ _, ?_⟩, rfl, ?_⟩, ?_⟩
  · exact List.Nodup.filter _ (by decide : BLOCKER_PRECEDENCE.Nodup)
  · intro t ht
    have hread := spelled.since_read
    rw [show spelled.blockedSince = some t from ht, Option.map_some] at hread
    obtain ⟨n, _, hn⟩ := Option.map_eq_some_iff.mp hread.symm
    rw [IsTimestamp, ← hn]
    rfl
  · intro hopen
    have hopen : (c.status.isOpen && !busy) = true := hopen
    have hstatus := (Bool.and_eq_true _ _ ▸ hopen).1
    obtain ⟨t, ht⟩ := gateOpen_of_status hstatus
    have hblockers : c.status.blockers = [] := by
      simp only [SignerCoordinator.status, Bool.and_eq_true] at hstatus
      have hgate := hstatus.1.1
      unfold evaluateSignerGate at hgate
      rw [Bool.and_eq_true, List.isEmpty_iff] at hgate
      exact hgate.2
    refine ⟨hblockers, ?_, ht.recovered, ht.checked, ht.idle⟩
    change c.persistence.current.isSome = true
    rw [ht.current]
    rfl

theorem summarized_attempt {t : AttemptText} {a : JournalAttempt} (h : readAttempt t = some a)
    (hv : AttemptValid a) (hlength : a.signedTransactions.toList.length ≤
      MAX_SIGNED_TRANSACTIONS_PER_ATTEMPT) (hnodup : a.signedTransactions.hashes.Nodup) :
    AttemptAccepted (summarizeAttempt t) := by
  obtain ⟨hid, hwork, hnonce, hsigned, _⟩ := readAttempt_some h
  have huuid : isUuidV4 t.attemptId = true := by
    unfold readUuid at hid
    split_ifs at hid with hu
    exact hu
  have hhashes : List.Forall₂ (fun x y => readFixedHex 32 x = some y)
      (t.signedTransactions.map (·.transactionHash)) a.signedTransactions.hashes := by
    unfold SignedTransactions.hashes
    rw [List.forall₂_map_left_iff, List.forall₂_map_right_iff]
    apply hsigned.imp
    intro x y hxy
    obtain ⟨_, hx, hxy⟩ := Option.bind_eq_some_iff.mp hxy
    obtain ⟨_, _, hxy⟩ := Option.bind_eq_some_iff.mp hxy
    obtain rfl := Option.some.inj hxy
    exact hx
  have hworkId : isWorkId t.workId = true := by
    rw [← hwork]
    exact hv.2.1
  have hsmall : t.nonce ≤ MAX_UINT256 := by
    rw [← hnonce]
    exact hv.1
  refine ⟨huuid, hworkId, hsmall, ?_, ?_, _, mapM_some_iff.mpr hhashes, hnodup⟩
  · intro hnil
    change t.signedTransactions.map (·.transactionHash) = [] at hnil
    rw [hnil] at hhashes
    exact a.signedTransactions.hashes_ne_nil (List.forall₂_nil_left_iff.mp hhashes)
  · change (t.signedTransactions.map (·.transactionHash)).length ≤ _
    rw [List.length_map, hsigned.length_eq]
    exact hlength

/-- Texts that are read as distinct values are distinct. -/
theorem nodup_of_read {α β : Type} {f : α → Option β} {l : List α} {m : List β}
    (h : List.Forall₂ (fun a b => f a = some b) l m) (hm : m.Nodup) : l.Nodup := by
  have hmap : l.map f = m.map some := by
    induction h with
    | nil => rfl
    | cons hab _ ih => rw [List.map_cons, List.map_cons, hab, ih (List.nodup_cons.mp hm).2]
  apply List.Nodup.of_map f
  rw [hmap]
  exact hm.map (Option.some_injective β)

theorem contiguous_increasing {n : ℕ} {l : List JournalAttempt} (h : ContiguousFrom n l) :
    (l.map (·.nonce)).Pairwise (· < ·) := by
  induction l generalizing n with
  | nil => exact .nil
  | cons a l ih =>
    rw [List.map_cons, List.pairwise_cons]
    refine ⟨?_, ih h.2⟩
    intro m hm
    obtain ⟨b, hb, rfl⟩ := List.mem_map.mp hm
    have hlow := (h.2.bounds hb).1
    have hn := h.1
    omega

/-- The attempts of a journal within the bounds are a population that is accepted. -/
theorem population_accepted (h : JournalWithin lib identity DEFAULT_JOURNAL_BOUNDS s)
    {texts : List AttemptText}
    (hread : List.Forall₂ (fun t a => readAttempt t = some a) texts s.attempts) :
    (∀ a ∈ texts.map summarizeAttempt, AttemptAccepted a) ∧
      AttemptsAccepted MAX_RETAINED_ATTEMPTS (texts.map summarizeAttempt) := by
  have hattempts := h.attempts
  obtain ⟨hvalid, _, hcontiguous, hids, hworks, _⟩ := hattempts
  refine ⟨?_, ?_, ?_, ?_, ?_⟩
  · intro a ha
    obtain ⟨t, ht, rfl⟩ := List.mem_map.mp ha
    obtain ⟨b, hb, htb⟩ := forall₂_mem_right (R := fun a t => readAttempt t = some a)
      hread.flip ht
    have hverified := h.verified b hb
    unfold verifyJournalAttempt at hverified
    rw [Bool.and_eq_true, decide_eq_true_eq] at hverified
    exact summarized_attempt htb (hvalid b hb) (h.variants b hb) hverified.1
  · rw [List.length_map, hread.length_eq]
    exact h.retained
  · rw [List.map_map]
    refine nodup_of_read (f := readUuid) ?_ hids
    rw [List.forall₂_map_left_iff, List.forall₂_map_right_iff]
    exact hread.imp fun _ _ hta => (readAttempt_some hta).1
  · have hsame : (texts.map summarizeAttempt).map (·.workId) = s.attempts.map (·.workId) := by
      rw [List.map_map, ← List.forall₂_eq_eq_eq, List.forall₂_map_left_iff,
        List.forall₂_map_right_iff]
      exact hread.imp fun _ _ hta => (readAttempt_some hta).2.1.symm
    rw [hsame]
    exact hworks
  · have hsame : (texts.map summarizeAttempt).map (·.nonce) = s.attempts.map (·.nonce) := by
      rw [List.map_map, ← List.forall₂_eq_eq_eq, List.forall₂_map_left_iff,
        List.forall₂_map_right_iff]
      exact hread.imp fun _ _ hta => (readAttempt_some hta).2.2.1.symm
    rw [hsame]
    exact contiguous_increasing hcontiguous

end Runtime

/-! The publisher. -/

/-- What every call of the daemon leaves of its publisher. -/
structure PublisherOk (identity : IdentityText) (runId : Text) (p : DaemonStatusPublisher) : Prop where
  identity : p.identity = identity
  runId : p.runId = runId
  lastCompletedCycle : ∀ c ∈ p.lastCompletedCycle, CycleAccepted c
  lastRetryObservation : ∀ r ∈ p.lastRetryObservation, RetryAccepted r

section Publisher

open DaemonStatusPublisher

variable {identity : IdentityText} {runId : Text} {p p' : DaemonStatusPublisher}

theorem readSafeInteger_some {value : Option ℚ} {n : ℤ} (h : readSafeInteger value = some n) :
    |n| ≤ MAX_SAFE_INTEGER := by
  obtain ⟨q, _, h⟩ := Option.bind_eq_some_iff.mp h
  split_ifs at h with hq
  obtain rfl := Option.some.inj h
  exact hq.2

theorem timestamp_ok {now : Option ℚ} {t : Text} (h : timestamp now = .ok t) : IsTimestamp t := by
  unfold timestamp at h
  split at h
  · cases h
  · split_ifs at h with hrange
    obtain rfl := Except.ok.inj h
    rw [IsTimestamp, readTimestamp_toISOString hrange]
    rfl

theorem checkCycle_ok {value : Option ℚ} {n : ℕ} (h : checkCycle value = .ok n) :
    0 < n ∧ n ≤ MAX_SAFE_INTEGER := by
  unfold checkCycle at h
  split at h
  · cases h
  · rename_i m hm
    have hmax := abs_le.mp (readSafeInteger_some hm)
    split_ifs at h with hpos
    obtain rfl := Except.ok.inj h
    omega

theorem checkRetryDelay_ok {value : Option (Option ℚ)} {delay : Option ℕ}
    (h : checkRetryDelay value = .ok delay) : ∀ n ∈ delay, n ≤ MAX_SAFE_INTEGER := by
  intro n hn
  unfold checkRetryDelay at h
  split at h
  · obtain rfl := Except.ok.inj h
    cases hn
  · split at h
    · cases h
    · rename_i m hm
      have hmax := abs_le.mp (readSafeInteger_some hm)
      split_ifs at h
      obtain rfl := Except.ok.inj h
      obtain rfl := Option.some.inj hn
      omega

theorem PublisherOk.called {call : Call} (h : PublisherOk identity runId p)
    (hcall : called call p = .ok p') : PublisherOk identity runId p' := by
  cases call with
  | onInitialized =>
    obtain rfl := Except.ok.inj hcall
    exact ⟨h.identity, h.runId, h.lastCompletedCycle, h.lastRetryObservation⟩
  | onRecoveryCompleted value now =>
    obtain ⟨delay, hdelay, hcall⟩ := Security.except_bind_ok_iff.mp hcall
    obtain ⟨observedAt, hobserved, hcall⟩ := Security.except_bind_ok_iff.mp hcall
    obtain rfl := Except.ok.inj hcall
    refine ⟨h.identity, h.runId, h.lastCompletedCycle, ?_⟩
    intro r hr
    obtain rfl := Option.some.inj hr
    exact ⟨timestamp_ok hobserved, checkRetryDelay_ok hdelay⟩
  | onCycleCompleted value now =>
    obtain ⟨cycle, hcycle, hcall⟩ := Security.except_bind_ok_iff.mp hcall
    obtain ⟨completedAt, hcompleted, hcall⟩ := Security.except_bind_ok_iff.mp hcall
    obtain rfl := Except.ok.inj hcall
    refine ⟨h.identity, h.runId, ?_, h.lastRetryObservation⟩
    intro c hc
    obtain rfl := Option.some.inj hc
    have hn := checkCycle_ok hcycle
    exact ⟨hn.1, hn.2, timestamp_ok hcompleted⟩

theorem publisher_run (identity : IdentityText) (runId : Text) (calls : List Call) :
    PublisherOk identity runId ((system identity runId).run calls).1 := by
  refine (system identity runId).run_invariant (fun p _ => PublisherOk identity runId p) ?_ ?_ calls
  · exact ⟨rfl, rfl, fun c hc => (by cases hc), fun r hr => (by cases hr)⟩
  · intro call p tr p' e hp hstep
    unfold system at hstep
    dsimp only at hstep
    split at hstep
    · rename_i next hcall
      obtain ⟨rfl, _⟩ := Prod.mk.inj (Option.some.inj hstep)
      exact hp.called hcall
    · obtain ⟨rfl, _⟩ := Prod.mk.inj (Option.some.inj hstep)
      exact hp

theorem captureRpcUsage_ok {observedAt : Text} {source : RpcUsageSource}
    {u : RpcUsage.RpcUsageSnapshot} (h : captureRpcUsage observedAt source = .ok u) : u.Valid := by
  obtain ⟨v, _, h⟩ := Security.except_bind_ok_iff.mp h
  obtain ⟨w, hw, h⟩ := Security.except_bind_ok_iff.mp h
  obtain ⟨_, _, h⟩ := Security.except_bind_ok_iff.mp h
  obtain rfl := Except.ok.inj h
  exact RpcUsage.readRpcUsageSnapshot_valid hw

theorem rpcFields_valid {observedAt : Text} {source : Option RpcUsageSource} :
    ∀ u ∈ (rpcFields observedAt source).1, u.Valid := by
  intro u hu
  unfold rpcFields at hu
  split at hu
  · cases hu
  · split at hu
    · rename_i w hw
      obtain rfl := Option.some.inj hu
      exact captureRpcUsage_ok hw
    · cases hu

end Publisher

section Publication

open DaemonStatusPublisher

variable {lib : TransactionLibrary} {identity : JournalIdentity} {c : SignerCoordinator}
  {expected : IdentityText} {runId observedAt : Text} {p : DaemonStatusPublisher}
  {runtime : SignerRuntimeObservation} {rpcUsage : Option RpcUsage.RpcUsageSnapshot}

/-- The snapshot that the object of a publication is read as. -/
def publishedSnapshot (runtime : SignerRuntimeObservation) (observedAt : Text)
    (rpcUsage : Option RpcUsage.RpcUsageSnapshot) (p : DaemonStatusPublisher) :
    DaemonStatusSnapshot where
  identity := p.identity
  runId := p.runId
  observedAt := observedAt
  lastCompletedCycle := p.lastCompletedCycle
  lastRetryObservation := p.lastRetryObservation
  journalInitialized := runtime.journalInitialized
  attemptSummary := (projectDaemonStatusAttempts runtime.attempts).summary
  attempts := (projectDaemonStatusAttempts runtime.attempts).details
  lastObservedGate := runtime.status
  rpcUsage := rpcUsage

theorem publishedObject_shows :
    Shows (p.publishedObject runtime observedAt (projectDaemonStatusAttempts runtime.attempts)
      rpcUsage) (publishedSnapshot runtime observedAt rpcUsage p) := by
  cases rpcUsage with
  | none => exact ⟨rfl, rfl, rfl, rfl, rfl, rfl, rfl, rfl, rfl, rfl, rfl⟩
  | some u => exact ⟨rfl, rfl, rfl, rfl, rfl, rfl, rfl, rfl, rfl, rfl, rfl⟩

/-- What a reading of the runtime offers to a publication. -/
structure ObservationOk (runtime : SignerRuntimeObservation) : Prop where
  report : ReportAccepted runtime.status
  gate : GateAccepted runtime.journalInitialized runtime.status
  attempt : ∀ a ∈ runtime.attempts, AttemptAccepted a
  attempts : AttemptsAccepted MAX_RETAINED_ATTEMPTS runtime.attempts

theorem observed_ok {busy : Bool} (h : RuntimeWithin lib identity DEFAULT_JOURNAL_BOUNDS c)
    (spelled : SpelledStatus (c.captureStatus identity busy)) :
    ObservationOk (readSignerRuntimeObservation _ spelled) := by
  obtain ⟨hreport, hgate⟩ := captured_gate spelled
  have hread : List.Forall₂ (fun t a => readAttempt t = some a) spelled.attempts c.attempts :=
    mapM_some_iff.mp spelled.attempts_read
  have hpopulation : (∀ a ∈ spelled.attempts.map summarizeAttempt, AttemptAccepted a) ∧
      AttemptsAccepted MAX_RETAINED_ATTEMPTS (spelled.attempts.map summarizeAttempt) := by
    cases hc : c.persistence.current with
    | some s =>
      apply population_accepted (h.current s hc)
      unfold SignerCoordinator.attempts at hread
      rw [hc] at hread
      exact hread
    | none =>
      unfold SignerCoordinator.attempts at hread
      rw [hc] at hread
      rw [List.forall₂_nil_right_iff.mp hread]
      exact ⟨fun a ha => (by cases ha), by decide⟩
  exact ⟨hreport, hgate, hpopulation.1, hpopulation.2⟩

theorem published_accepted (h : ObservationOk runtime) (hp : PublisherOk expected runId p)
    (hcaptured : captureJournalIdentity expected = true) (hrun : isUuidV4 runId = true)
    (hat : IsTimestamp observedAt) (hinit : runtime.journalInitialized = true)
    (husage : ∀ u ∈ rpcUsage, u.Valid) :
    (publishedSnapshot runtime observedAt rpcUsage p).Accepted expected := by
  have hdetails := projected_details runtime.attempts
  have hdetailed : (selectedAttempts runtime.attempts).length ≤ 1 :=
    (selectedAttempts_length _).trans_le (min_le_right _ _)
  have hrunId : isUuidV4 p.runId = true := by
    rw [hp.runId]
    exact hrun
  have hbound (a : Option DaemonStatusAttempt) (ha : ∀ x ∈ a, x ∈ runtime.attempts) :
      ∀ n ∈ a.map (·.nonce), n ≤ MAX_UINT256 := by
    intro n hn
    obtain ⟨x, hx, rfl⟩ := Option.map_eq_some_iff.mp hn
    exact (h.attempt x (ha x hx)).2.2.1
  refine
    { captured := hcaptured
      identity := hp.identity
      runId := hrunId
      observedAt := hat
      lastCompletedCycle := hp.lastCompletedCycle
      lastRetryObservation := hp.lastRetryObservation
      gate := h.gate
      report := h.report
      attempt := ?_
      attempts := ?_
      summary := projected_summary h.attempts
      lowest := hbound _ fun x hx => List.mem_of_head? hx
      highest := hbound _ fun x hx => List.mem_of_getLast? hx
      initialized := fun hno => absurd (hinit.symm.trans hno) (by simp)
      rpcUsage := husage }
  · change ∀ a ∈ (projectDaemonStatusAttempts runtime.attempts).details, AttemptAccepted a
    rw [hdetails]
    exact fun a ha => h.attempt a (selectedAttempts_subset ha)
  · change AttemptsAccepted _ (projectDaemonStatusAttempts runtime.attempts).details
    rw [hdetails]
    -- nothing is compared in a list of one attempt
    cases hs : selectedAttempts runtime.attempts with
    | nil => decide
    | cons a rest =>
      rw [hs, List.length_cons] at hdetailed
      obtain rfl : rest = [] := List.length_eq_zero_iff.mp (by omega)
      exact ⟨le_rfl, List.nodup_singleton _, List.nodup_singleton _, List.pairwise_singleton _ _⟩

theorem buildSnapshot_eq (h : ObservationOk runtime) (hp : PublisherOk expected runId p)
    (haccepted : (publishedSnapshot runtime observedAt rpcUsage p).Accepted expected) :
    p.buildSnapshot runtime observedAt rpcUsage =
      .ok (publishedSnapshot runtime observedAt rpcUsage p) := by
  have hpopulation : readDaemonStatusAttemptPopulation
      (.array (runtime.attempts.map DaemonStatus.encodeAttempt)) = .ok runtime.attempts := by
    unfold readDaemonStatusAttemptPopulation
    rw [readAttempts_encode h.attempt h.attempts]
    rfl
  unfold buildSnapshot
  rw [hpopulation, hp.identity]
  exact readDaemonStatusSnapshot_shows haccepted publishedObject_shows

theorem contents_eq {s : DaemonStatusSnapshot} (h : s.Accepted expected) :
    daemonStatusContents (encodeDaemonStatusSnapshot s) expected = .ok (daemonStatusText s) := by
  unfold daemonStatusContents
  rw [readDaemonStatusSnapshot_shows h (encode_shows s)]
  simp only [bind, Except.bind, if_neg (not_lt.mpr (daemonStatusText_fits h))]
  rfl

theorem read_contents {s : DaemonStatusSnapshot} (h : s.Accepted expected) :
    readDaemonStatusContents (daemonStatusText s) expected = .ok s := by
  unfold readDaemonStatusContents
  simp only [bind, requireThat_bind_ok_iff]
  refine ⟨h.captured, ?_⟩
  simp only [if_neg (not_lt.mpr (daemonStatusText_fits h)), parse_daemonStatusText,
    readDaemonStatusSnapshot_shows h (encode_shows s)]
  rfl

/-- Of what a publication reads, only the RPC usage is left out when it is refused. -/
theorem publishCurrent_eq (h : ObservationOk runtime) (hp : PublisherOk expected runId p)
    {now : Option ℚ} {source : Option RpcUsageSource} (hnow : timestamp now = .ok observedAt)
    (hstarted : p.initialized = true) (hinit : runtime.journalInitialized = true)
    (haccepted : (publishedSnapshot runtime observedAt (rpcFields observedAt source).1 p).Accepted
      expected) :
    p.publishCurrent runtime now source =
      ⟨(rpcFields observedAt source).2, some (daemonStatusText
        (publishedSnapshot runtime observedAt (rpcFields observedAt source).1 p))⟩ := by
  unfold publishCurrent
  rw [if_neg (by simp [hstarted, hinit])]
  simp only [hnow, buildSnapshot_eq h hp haccepted, bind, Except.bind, hp.identity,
    contents_eq haccepted]

end Publication

open DaemonStatusPublisher

/-- In every state that a runtime reaches from the journal it was opened with, whatever the
daemon has reported to its publisher, a publication at a valid time of the clock builds the
snapshot of that runtime and its attempts, which the reader accepts; printing and parsing it
changes nothing, its text fits the file and is what is written, and the only failure that is
reported is one to read the usage. -/
theorem published_status_accepted (lib : TransactionLibrary) {expected : IdentityText}
    {runId : Text} {name : TempName} {start : Timestamp} {script script' : List (Outcome FileContents)}
    {disk disk' : JournalDisk} {c : SignerCoordinator}
    (hopen : openSignerRuntime lib expected name start script disk = (.ok c, script', disk'))
    (hrun : isUuidV4 runId = true) :
    ∃ identity, readIdentity expected = some identity ∧
      ∀ (is : List Input) (busy : Bool) (spelled : SpelledStatus
          (((runtimeSystem lib identity c).run is).1.captureStatus identity busy))
        (calls : List Call) (source : Option RpcUsageSource) (now : Option ℚ),
        let runtime := readSignerRuntimeObservation _ spelled
        let publisher := ((system expected runId).run calls).1
        (publisher.initialized = false ∨ runtime.journalInitialized = false →
          publisher.publishCurrent runtime now source = ⟨[], none⟩) ∧
        ∀ observedAt, timestamp now = .ok observedAt → runtime.journalInitialized = true →
          ∃ snapshot,
            snapshot = publishedSnapshot runtime observedAt (rpcFields observedAt source).1
              publisher ∧
            publisher.buildSnapshot runtime observedAt (rpcFields observedAt source).1 =
              .ok snapshot ∧
            readDaemonStatusSnapshot (encodeDaemonStatusSnapshot snapshot) expected =
              .ok snapshot ∧
            Json.parse (daemonStatusText snapshot) = some (encodeDaemonStatusSnapshot snapshot) ∧
            readDaemonStatusContents (daemonStatusText snapshot) expected = .ok snapshot ∧
            Json.utf8Length (daemonStatusText snapshot) ≤ MAX_DAEMON_STATUS_BYTES ∧
            (publisher.initialized = true → publisher.publishCurrent runtime now source =
              ⟨(rpcFields observedAt source).2, some (daemonStatusText snapshot)⟩) := by
  have hopened := openSignerRuntime_triple lib expected name start script disk trivial
  rw [hopen] at hopened
  obtain ⟨hcaptured, identity, hidentity, hwithin⟩ := hopened
  refine ⟨identity, hidentity, ?_⟩
  intro is busy spelled calls source now runtime publisher
  constructor
  · intro hno
    unfold publishCurrent
    rw [if_pos hno]
  intro observedAt hnow hinit
  -- what is observed of a runtime within its bounds can be published
  have hobserved : ObservationOk runtime := observed_ok (runtime_within hwithin is) spelled
  have hpublisher : PublisherOk expected runId publisher := publisher_run expected runId calls
  have haccepted : (publishedSnapshot runtime observedAt (rpcFields observedAt source).1
      publisher).Accepted expected :=
    published_accepted hobserved hpublisher hcaptured hrun (timestamp_ok hnow) hinit rpcFields_valid
  exact ⟨_, rfl, buildSnapshot_eq hobserved hpublisher haccepted,
    readDaemonStatusSnapshot_shows haccepted (encode_shows _), parse_daemonStatusText _,
    read_contents haccepted, daemonStatusText_fits haccepted,
    fun hstarted => publishCurrent_eq hobserved hpublisher hnow hstarted hinit haccepted⟩

section Sample

/-- A runtime opened without a journal. -/
def sampleRuntime : SignerCoordinator where
  persistence := ⟨.idle, none, none⟩
  maxRetainedAttempts := 16
  recoveryComplete := false
  inclusionChecksComplete := false
  reconciliationObservationActive := false
  busy := false
  broadcastPermit := none
  inspectionGeneration := 0
  inspectionOwner := none
  blockedSince := some 1
  pendingWrite := none
  committedDurableRecoveryRevision := .missing ⟨false, false⟩
  blockers := ⟨false, false⟩
  task := none

def sampleUuid : Text := text "00000000-0000-4000-8000-000000000001"

def hexText (zeros : ℕ) (digits : String) : Text := text "0x" ++ repeated zeros '0' ++ text digits

/-- Bootstrap, an inclusion pass, and a transfer that is prepared and being broadcast. -/
def sampleInputs : List Input :=
  ([.beginInspection, .callOwned 1 (.recover sampleAnchor 100), .startOperation,
    .answered (nonceReads sampleAnchor ++ [nonceRead 7 .latest (some 0),
      nonceRead 7 .pending (some 0), anchorSeen sampleAnchor]),
    .stored, .resume, .settleOperation,
    .callOwned 1 (.checkInclusions 0 sampleHead none), .startOperation,
    .answered (nonceReads sampleHead), .stored, .resume, .settleOperation, .finishInspection 1,
    .prepareAttempt [65] 0x40008000000000000001 7 ⟨9, [], 0, 21000, .legacy 1⟩,
    .signed (some signedBytes) true, .stored, .resume,
    .broadcastAttempt 0x40008000000000000001, .stored, .resume] : List Action).map (⟨1, ·⟩)

def sampleAttemptText : AttemptText where
  attemptId := sampleUuid
  workId := [65]
  nonce := 0
  createdAt := text "1970-01-01T00:00:00.001Z"
  signedTransactions :=
    [⟨hexText 61 "410", text "0x" ++ (List.replicate 40 (text "01")).flatten⟩]
  replacementSearch := some ⟨⟨⟨6, hexText 62 "3c"⟩, 0⟩, none⟩
  phase := .broadcastMayHaveOccurred

def sampleSpelled : SpelledStatus
    (((runtimeSystem sampleLibrary sampleIdentity sampleRuntime).run sampleInputs).1.captureStatus
      sampleIdentity false) where
  blockedSince := some (text "1970-01-01T00:00:00.001Z")
  attempts := [sampleAttemptText]
  since_read := by rfl
  attempts_read := by rfl

theorem sampleRuntime_opens : openSignerRuntime sampleLibrary sampleIdentityText 0 1
    (List.replicate 3 .done) ⟨none, [], []⟩ = (.ok sampleRuntime, [], ⟨none, [], []⟩) := by
  rfl

theorem sampleRuntime_published : ∃ snapshot,
    (((system sampleIdentityText sampleUuid).run
      [.onInitialized, .onCycleCompleted (some 1) (some 2)]).1.buildSnapshot
        (readSignerRuntimeObservation _ sampleSpelled) (text "1970-01-01T00:00:00.002Z") none) =
      .ok snapshot ∧
    snapshot.attempts.length = 1 ∧
    Json.utf8Length (daemonStatusText snapshot) ≤ MAX_DAEMON_STATUS_BYTES := by
  obtain ⟨identity, hidentity, h⟩ :=
    published_status_accepted sampleLibrary sampleRuntime_opens (show isUuidV4 sampleUuid = true by decide)
  obtain rfl : sampleIdentity = identity := Option.some.inj ((by rfl :
    readIdentity sampleIdentityText = some sampleIdentity).symm.trans hidentity)
  obtain ⟨snapshot, hsnapshot, hbuilt, _, _, _, hfits, _⟩ := (h sampleInputs false sampleSpelled
    [.onInitialized, .onCycleCompleted (some 1) (some 2)] none (some 2)).2
      (text "1970-01-01T00:00:00.002Z") (by rfl) (by rfl)
  refine ⟨snapshot, hbuilt, ?_, hfits⟩
  rw [hsnapshot]
  decide +kernel

end Sample

end Quicknet
