import Quicknet.JournalCodec
import Quicknet.SignedVariants

/-! What is written can be read. Numbers of a valid snapshot are at most `MAX_UINT256`,
which has the 78 digits that the decoder allows, so every part of a snapshot survives. -/
namespace Quicknet

open Json (Text text unit Value)

def ObservationText.Bounded (t : ObservationText) : Prop :=
  t.anchor.blockNumber ≤ MAX_UINT256 ∧ t.nonce ≤ MAX_UINT256

def RepairText.Bounded (t : RepairText) : Prop :=
  t.previousNextNonce ≤ MAX_UINT256 ∧ t.nextNonce ≤ MAX_UINT256 ∧ t.observation.Bounded

def SearchText.Bounded (t : SearchText) : Prop :=
  t.lowerBound.Bounded ∧ ∀ a ∈ t.searchedThrough, a.blockNumber ≤ MAX_UINT256

def OutcomeText.Bounded : OutcomeText → Prop
  | .replaced _ nonceAtAnchor => nonceAtAnchor ≤ MAX_UINT256
  | _ => True

def InclusionText.Bounded (t : InclusionText) : Prop :=
  t.inclusion.blockNumber ≤ MAX_UINT256 ∧ t.observedAt.blockNumber ≤ MAX_UINT256 ∧
    t.outcome.Bounded

def PhaseText.Bounded : PhaseText → Prop
  | .included i => i.Bounded
  | _ => True

def AttemptText.Bounded (t : AttemptText) : Prop :=
  t.nonce ≤ MAX_UINT256 ∧ (∀ s ∈ t.replacementSearch, s.Bounded) ∧ t.phase.Bounded

structure SnapshotText.Bounded (t : SnapshotText) : Prop where
  chainId : t.identity.chainId ≤ MAX_SAFE_INTEGER
  baseline : t.baseline.Bounded
  lastObservation : t.lastObservation.Bounded
  nextNonce : t.nextNonce ≤ MAX_UINT256
  durableNextNonce : t.durableNextNonce ≤ MAX_UINT256
  repairs_length : t.repairs.length ≤ MAX_RETAINED_NONCE_REPAIRS
  repairs : ∀ r ∈ t.repairs, r.Bounded
  attempts : ∀ a ∈ t.attempts, a.Bounded

/-! Each decoder undoes its encoder. -/

section Decoders

theorem decodeDecimal_encode {n : ℕ} (hn : n ≤ MAX_UINT256) :
    decodeDecimal (encodeBigint n) = some n := by
  have hlength : (Json.decimal n).length ≤ 78 := by
    apply Json.decimal_length_le (by norm_num)
    calc n ≤ MAX_UINT256 := hn
      _ < 10^78 := by norm_num [MAX_UINT256]
  have hdigits : (Json.decimal n).all Json.isDigit = true :=
    List.all_eq_true.mpr fun c hc => Json.decimal_isDigit hc
  have hzero : ¬ (1 < (Json.decimal n).length ∧
      (Json.decimal n).head? = some (Json.digit 0)) := by
    rintro ⟨hlong, hhead⟩
    by_cases h : n = 0
    · subst h
      rw [Json.decimal_zero] at hlong
      exact absurd hlong (by decide)
    · exact Json.decimal_head h hhead
  unfold encodeBigint decodeDecimal
  simp only
  rw [if_pos ⟨Json.decimal_ne_nil n, hlength, hdigits, hzero⟩, Json.decimalValue_decimal]

theorem decodeNumber_ofNat {n : ℕ} (hn : n ≤ MAX_SAFE_INTEGER) :
    decodeNumber (.number (.ofNat n)) = some n := by
  have hlt : n < 2^53 := by
    unfold MAX_SAFE_INTEGER at hn
    omega
  unfold decodeNumber
  simp only [Json.Number.value_ofNat, Json.nearestDouble_natCast hlt, Option.bind_some,
    Rat.den_natCast, Rat.num_natCast, Int.natCast_nonneg, and_self, if_true, Int.toNat_natCast]

theorem mapM_decode {α β : Type} {decode : β → Option α} {encode : α → β} {l : List α}
    (h : ∀ a ∈ l, decode (encode a) = some a) : (l.map encode).mapM decode = some l := by
  induction l with
  | nil => rfl
  | cons a l ih =>
    have ha := h a List.mem_cons_self
    have hl := ih fun b hb => h b (List.mem_cons_of_mem a hb)
    rw [List.map_cons, List.mapM_cons, ha, hl]
    rfl

theorem decodeNullable_of_ne {α : Type} (decode : Value → Option α) {v : Value} (hv : v ≠ .null) :
    decodeNullable decode v = (decode v).map some := by
  cases v with
  | null => exact absurd rfl hv
  | _ => rfl

theorem decodeNullable_encode {α : Type} {decode : Value → Option α} {encode : α → Value}
    {a : Option α} (hnull : ∀ a, encode a ≠ .null) (h : ∀ x ∈ a, decode (encode x) = some x) :
    decodeNullable decode (encodeNullable encode a) = some a := by
  cases a with
  | none => rfl
  | some a =>
    show decodeNullable decode (encode a) = _
    rw [decodeNullable_of_ne decode (hnull a), h a rfl]
    rfl

theorem decodeIdentity_encode {t : IdentityText} (h : t.chainId ≤ MAX_SAFE_INTEGER) :
    decodeIdentity (encodeIdentity t) = some t := by
  have hchain : (encodeIdentity t).field "chainId" = some (.number (.ofNat t.chainId)) := rfl
  have hsigner : (encodeIdentity t).field "signer" = some (.string t.signer) := rfl
  unfold decodeIdentity
  rw [hchain, hsigner, Option.bind_some, decodeNumber_ofNat h]
  rfl

theorem decodeAnchor_encode {t : AnchorText} (h : t.blockNumber ≤ MAX_UINT256) :
    decodeAnchor (encodeAnchor t) = some t := by
  have hnumber : (encodeAnchor t).field "blockNumber" = some (encodeBigint t.blockNumber) := rfl
  have hhash : (encodeAnchor t).field "blockHash" = some (.string t.blockHash) := rfl
  unfold decodeAnchor
  rw [hnumber, hhash, Option.bind_some, decodeDecimal_encode h]
  rfl

theorem decodeObservation_encode {t : ObservationText} (h : t.Bounded) :
    decodeObservation (encodeObservation t) = some t := by
  have hanchor : (encodeObservation t).field "anchor" = some (encodeAnchor t.anchor) := rfl
  have hnonce : (encodeObservation t).field "nonce" = some (encodeBigint t.nonce) := rfl
  unfold decodeObservation
  rw [hanchor, hnonce, Option.bind_some, Option.bind_some, decodeAnchor_encode h.1,
    decodeDecimal_encode h.2]
  rfl

theorem decodeRepair_encode {t : RepairText} (h : t.Bounded) :
    decodeRepair (encodeRepair t) = some t := by
  obtain ⟨hprevious, hnext, hobs⟩ := h
  have hkind : (encodeRepair t).field "kind" = some (.string t.kind) := rfl
  have hat : (encodeRepair t).field "at" = some (.string t.at') := rfl
  have hp : (encodeRepair t).field "previousNextNonce" =
      some (encodeBigint t.previousNextNonce) := rfl
  have hn : (encodeRepair t).field "nextNonce" = some (encodeBigint t.nextNonce) := rfl
  have ho : (encodeRepair t).field "observation" = some (encodeObservation t.observation) := rfl
  unfold decodeRepair
  rw [hkind, hat, hp, hn, ho]
  simp only [Option.bind_some, decodeDecimal_encode hprevious, decodeDecimal_encode hnext,
    decodeObservation_encode hobs]
  rfl

theorem decodeSearch_encode {t : SearchText} (h : t.Bounded) :
    decodeSearch (encodeSearch t) = some t := by
  have hlower : (encodeSearch t).field "lowerBound" = some (encodeObservation t.lowerBound) := rfl
  have hthrough : (encodeSearch t).field "searchedThrough" =
      some (encodeNullable encodeAnchor t.searchedThrough) := rfl
  have hnull : ∀ a, encodeAnchor a ≠ .null := fun a => by simp [encodeAnchor]
  unfold decodeSearch
  rw [hlower, hthrough]
  simp only [Option.bind_some, decodeObservation_encode h.1,
    decodeNullable_encode hnull fun a ha => decodeAnchor_encode (h.2 a ha)]
  rfl

theorem decodeSignedTransaction_encode (t : SignedTransactionText) :
    decodeSignedTransaction (encodeSignedTransaction t) = some t := rfl

theorem decodeInclusion_encode {t : InclusionText} (h : t.Bounded) :
    decodeInclusion (encodeInclusion t) = some t := by
  obtain ⟨inclusion, observedAt, outcome⟩ := t
  obtain ⟨hinc, hobs, hout⟩ := h
  have hi : (encodeInclusion ⟨inclusion, observedAt, outcome⟩).field "inclusion" =
      some (encodeAnchor inclusion) := by
    cases outcome <;> rfl
  have ho : (encodeInclusion ⟨inclusion, observedAt, outcome⟩).field "observedAt" =
      some (encodeAnchor observedAt) := by
    cases outcome <;> rfl
  unfold decodeInclusion
  rw [hi, ho, Option.bind_some, Option.bind_some, decodeAnchor_encode hinc,
    decodeAnchor_encode hobs]
  cases outcome with
  | success hash => rfl
  | reverted hash => rfl
  | replaced hash nonceAtAnchor =>
    have hnonce : (encodeInclusion ⟨inclusion, observedAt, .replaced hash nonceAtAnchor⟩).field
        "nonceAtAnchor" = some (encodeBigint nonceAtAnchor) := rfl
    have houtcome : (encodeInclusion ⟨inclusion, observedAt, .replaced hash nonceAtAnchor⟩).field
        "outcome" = some (.string (text "replaced")) := rfl
    have hhash : (encodeInclusion ⟨inclusion, observedAt, .replaced hash nonceAtAnchor⟩).field
        "replacementTransactionHash" = some (.string hash) := rfl
    have hs : text "replaced" ≠ text "success" := by decide
    have hr : text "replaced" ≠ text "reverted" := by decide
    rw [hnonce, houtcome, hhash]
    simp only [decodeString, decodeDecimal_encode hout, bind, Option.bind,
      if_neg hs, if_neg hr, if_true]
    rfl

/-- The phase of an attempt and its inclusion are read back together. -/
theorem decodePhase_encode {t : PhaseText} (h : t.Bounded) :
    ∃ phase inclusion, (encodePhase t).1 = .string phase ∧
      decodeNullable decodeInclusion (encodePhase t).2 = some inclusion ∧
      decodePhase phase inclusion = some t := by
  cases t with
  | signed => exact ⟨text "signed", none, rfl, rfl, rfl⟩
  | broadcastMayHaveOccurred =>
    exact ⟨text "broadcast-may-have-occurred", none, rfl, rfl, rfl⟩
  | included i =>
    have hi := decodeInclusion_encode (t := i) h
    have hnull : ∀ i, encodeInclusion i ≠ .null := by
      intro i
      unfold encodeInclusion
      cases i.outcome <;> simp
    refine ⟨text "included", some i, rfl, ?_, rfl⟩
    exact decodeNullable_encode (a := some i) hnull fun x hx => by
      obtain rfl := Option.some.inj hx
      exact hi

theorem decodeAttempt_encode {t : AttemptText} (h : t.Bounded) :
    decodeAttempt (encodeAttempt t) = some t := by
  obtain ⟨hnonce, hsearch, hphase⟩ := h
  obtain ⟨phase, inclusion, hp, hi, hboth⟩ := decodePhase_encode hphase
  have hid : (encodeAttempt t).field "attemptId" = some (.string t.attemptId) := rfl
  have hwork : (encodeAttempt t).field "workId" = some (.string t.workId) := rfl
  have hn : (encodeAttempt t).field "nonce" = some (encodeBigint t.nonce) := rfl
  have hcreated : (encodeAttempt t).field "createdAt" = some (.string t.createdAt) := rfl
  have hsigned : (encodeAttempt t).field "signedTransactions" =
      some (.array (t.signedTransactions.map encodeSignedTransaction)) := rfl
  have hs : (encodeAttempt t).field "replacementSearch" =
      some (encodeNullable encodeSearch t.replacementSearch) := rfl
  have hph : (encodeAttempt t).field "phase" = some (encodePhase t.phase).1 := rfl
  have hin : (encodeAttempt t).field "inclusion" = some (encodePhase t.phase).2 := rfl
  have hnull : ∀ s, encodeSearch s ≠ .null := fun s => by simp [encodeSearch]
  have htransactions : decodeArray decodeSignedTransaction
      (.array (t.signedTransactions.map encodeSignedTransaction)) = some t.signedTransactions :=
    mapM_decode fun x _ => decodeSignedTransaction_encode x
  unfold decodeAttempt
  rw [hid, hwork, hn, hcreated, hsigned, hs, hph, hin]
  simp only [Option.bind_some, decodeDecimal_encode hnonce, htransactions, hp, hi, hboth,
    decodeNullable_encode hnull fun s hs => decodeSearch_encode (hsearch s hs), decodeString,
    bind, pure]

theorem decodeRepairs_encode {l : List RepairText} (hl : l.length ≤ MAX_RETAINED_NONCE_REPAIRS)
    (h : ∀ r ∈ l, r.Bounded) : decodeRepairs (.array (l.map encodeRepair)) = some l := by
  unfold decodeRepairs
  simp only
  rw [if_pos (by rw [List.length_map]; exact hl)]
  exact mapM_decode fun r hr => decodeRepair_encode (h r hr)

theorem decodeSnapshot_encode {t : SnapshotText} (h : t.Bounded) :
    decodeSnapshot (encodeSnapshot t) = some t := by
  have hversion : (encodeSnapshot t).field "version" = some (.number (.ofNat 1)) := rfl
  have hidentity : (encodeSnapshot t).field "identity" = some (encodeIdentity t.identity) := rfl
  have hbaseline : (encodeSnapshot t).field "baseline" = some (encodeObservation t.baseline) := rfl
  have hlast : (encodeSnapshot t).field "lastObservation" =
      some (encodeObservation t.lastObservation) := rfl
  have hnext : (encodeSnapshot t).field "nextNonce" = some (encodeBigint t.nextNonce) := rfl
  have hdurable : (encodeSnapshot t).field "durableNextNonce" =
      some (encodeBigint t.durableNextNonce) := rfl
  have hrepairs : (encodeSnapshot t).field "repairs" =
      some (.array (t.repairs.map encodeRepair)) := rfl
  have hattempts : (encodeSnapshot t).field "attempts" =
      some (.array (t.attempts.map encodeAttempt)) := rfl
  have hone : decodeNumber (.number (.ofNat 1)) = some 1 :=
    decodeNumber_ofNat (by norm_num [MAX_SAFE_INTEGER])
  have hall : decodeArray decodeAttempt (.array (t.attempts.map encodeAttempt)) =
      some t.attempts := mapM_decode fun a ha => decodeAttempt_encode (h.attempts a ha)
  unfold decodeSnapshot
  rw [hversion, hidentity, hbaseline, hlast, hnext, hdurable, hrepairs, hattempts]
  simp only [Option.bind_some, hone, decodeIdentity_encode h.chainId,
    decodeObservation_encode h.baseline, decodeObservation_encode h.lastObservation,
    decodeDecimal_encode h.nextNonce, decodeDecimal_encode h.durableNextNonce,
    decodeRepairs_encode h.repairs_length h.repairs, hall, bind, pure]
  rfl

end Decoders

/-! The numbers of a valid snapshot are bounded. -/

section Readers

theorem readAnchor_some {t : AnchorText} {a : BlockAnchor} (h : readAnchor t = some a) :
    a.blockNumber = t.blockNumber := by
  obtain ⟨hash, _, hr⟩ := Option.bind_eq_some_iff.mp h
  obtain rfl := Option.some.inj hr
  rfl

theorem readObservation_some {t : ObservationText} {o : AnchoredNonceObservation}
    (h : readObservation t = some o) :
    o.anchor.blockNumber = t.anchor.blockNumber ∧ o.nonce = t.nonce := by
  obtain ⟨a, ha, hr⟩ := Option.bind_eq_some_iff.mp h
  obtain rfl := Option.some.inj hr
  exact ⟨readAnchor_some ha, rfl⟩

theorem readObservation_bounded {t : ObservationText} {o : AnchoredNonceObservation}
    (h : readObservation t = some o) (hv : ObservationValid o) : t.Bounded := by
  obtain ⟨hblock, hnonce⟩ := readObservation_some h
  unfold ObservationValid at hv
  rwa [hblock, hnonce] at hv

theorem readRepair_bounded {t : RepairText} {r : JournalNonceRepair} (h : readRepair t = some r)
    (hv : RepairValid r) : t.Bounded := by
  obtain ⟨_, _, h⟩ := Option.bind_eq_some_iff.mp h
  obtain ⟨_, _, h⟩ := Option.bind_eq_some_iff.mp h
  obtain ⟨o, ho, h⟩ := Option.bind_eq_some_iff.mp h
  obtain rfl := Option.some.inj h
  exact ⟨hv.1, hv.2.1, readObservation_bounded ho hv.2.2.1⟩

theorem readReplacementSearch_bounded {t : SearchText} {search : Option ReplacementSearch} {n : ℕ}
    (h : readReplacementSearch (some t) = some search) (hv : ∀ s ∈ search, SearchValid n s) :
    t.Bounded := by
  obtain ⟨o, ho, h⟩ := Option.bind_eq_some_iff.mp h
  obtain ⟨through, ht, h⟩ := Option.bind_eq_some_iff.mp h
  obtain rfl := Option.some.inj h
  obtain ⟨hlower, _, hthrough⟩ := hv _ rfl
  refine ⟨readObservation_bounded ho hlower, fun a ha => ?_⟩
  rw [Option.mem_def.mp ha] at ht
  obtain ⟨b, hb, hsome⟩ := Option.map_eq_some_iff.mp ht
  rw [← readAnchor_some hb]
  exact (hthrough b hsome.symm).1

theorem readOutcome_bounded {t : OutcomeText} {o : InclusionOutcome} {n : ℕ}
    {signed : SignedTransactions} (h : readOutcome t = some o) (hv : OutcomeValid n signed o) :
    t.Bounded := by
  cases t with
  | success hash => trivial
  | reverted hash => trivial
  | replaced hash nonceAtAnchor =>
    obtain ⟨b, _, rfl⟩ := Option.map_eq_some_iff.mp h
    exact hv.1

theorem readPhase_bounded {t : PhaseText} {p : JournalPhase} {n : ℕ} {signed : SignedTransactions}
    (h : readPhase t = some p) (hv : PhaseValid n signed p) : t.Bounded := by
  cases t with
  | signed => trivial
  | broadcastMayHaveOccurred => trivial
  | included i =>
    obtain ⟨inclusion, hi, rfl⟩ := Option.map_eq_some_iff.mp h
    obtain ⟨a, ha, hi⟩ := Option.bind_eq_some_iff.mp hi
    obtain ⟨b, hb, hi⟩ := Option.bind_eq_some_iff.mp hi
    obtain ⟨o, ho, hi⟩ := Option.bind_eq_some_iff.mp hi
    obtain rfl := Option.some.inj hi
    obtain ⟨hinc, hobs, _, _, hout⟩ := hv
    exact ⟨by rw [← readAnchor_some ha]; exact hinc, by rw [← readAnchor_some hb]; exact hobs,
      readOutcome_bounded ho hout⟩

theorem readAttempt_bounded {t : AttemptText} {a : JournalAttempt} (h : readAttempt t = some a)
    (hv : AttemptValid a) : t.Bounded := by
  obtain ⟨_, _, h⟩ := Option.bind_eq_some_iff.mp h
  obtain ⟨_, _, h⟩ := Option.bind_eq_some_iff.mp h
  obtain ⟨_, _, h⟩ := Option.bind_eq_some_iff.mp h
  obtain ⟨search, hs, h⟩ := Option.bind_eq_some_iff.mp h
  obtain ⟨phase, hp, h⟩ := Option.bind_eq_some_iff.mp h
  obtain rfl := Option.some.inj h
  obtain ⟨hnonce, _, _, hsearch, hphase⟩ := hv
  refine ⟨hnonce, fun s hs' => ?_, readPhase_bounded hp hphase⟩
  rw [Option.mem_def.mp hs'] at hs
  exact readReplacementSearch_bounded hs hsearch

/-- Every item of a list that was read comes from one of the texts. -/
theorem mapM_forall {α β : Type} {read : α → Option β} {l : List α} {m : List β} {P : β → Prop}
    {Q : α → Prop} (h : l.mapM read = some m) (hread : ∀ a b, read a = some b → P b → Q a)
    (hm : ∀ b ∈ m, P b) : (∀ a ∈ l, Q a) ∧ m.length = l.length := by
  induction l generalizing m with
  | nil =>
    obtain rfl : [] = m := Option.some.inj h
    simp
  | cons a l ih =>
    rw [List.mapM_cons] at h
    obtain ⟨b, hb, h⟩ := Option.bind_eq_some_iff.mp h
    obtain ⟨bs, hbs, h⟩ := Option.bind_eq_some_iff.mp h
    obtain rfl := Option.some.inj h
    obtain ⟨hall, hlength⟩ := ih hbs fun x hx => hm x (List.mem_cons_of_mem b hx)
    constructor
    · intro x hx
      rcases List.mem_cons.mp hx with rfl | hx
      · exact hread x b hb (hm b List.mem_cons_self)
      · exact hall x hx
    · rw [List.length_cons, List.length_cons, hlength]

end Readers

/-- A text that stands for a structurally valid snapshot. -/
def TextValid (expected : IdentityText) (t : SnapshotText) : Prop :=
  ∃ identity snapshot, readIdentity expected = some identity ∧ readSnapshot t = some snapshot ∧
    SnapshotValid identity snapshot

/-- A text that stands for a valid snapshot whose signed transactions verify. -/
def TextVerified (lib : TransactionLibrary) (expected : IdentityText) (t : SnapshotText) : Prop :=
  ∃ identity snapshot, readIdentity expected = some identity ∧ readSnapshot t = some snapshot ∧
    SnapshotVerified lib identity snapshot

section Codec

variable {lib : TransactionLibrary} {expected : IdentityText} {t u : SnapshotText}

theorem TextVerified.valid (h : TextVerified lib expected t) : TextValid expected t := by
  obtain ⟨identity, snapshot, hi, hs, hv⟩ := h
  exact ⟨identity, snapshot, hi, hs, hv.toSnapshotValid⟩

theorem TextValid.bounded (h : TextValid expected t) : t.Bounded := by
  obtain ⟨identity, snapshot, hi, hs, hv⟩ := h
  obtain ⟨id, hid, hs⟩ := Option.bind_eq_some_iff.mp hs
  obtain ⟨baseline, hbaseline, hs⟩ := Option.bind_eq_some_iff.mp hs
  obtain ⟨last, hlast, hs⟩ := Option.bind_eq_some_iff.mp hs
  obtain ⟨repairs, hrepairs, hs⟩ := Option.bind_eq_some_iff.mp hs
  obtain ⟨attempts, hattempts, hs⟩ := Option.bind_eq_some_iff.mp hs
  obtain rfl := Option.some.inj hs
  obtain ⟨_, hchain, _, hb, hl, hnext, hdurable, _, _⟩ := hv.header
  obtain ⟨hlength, hall, _, _⟩ := hv.repairs
  have hr := mapM_forall hrepairs (fun _ _ => readRepair_bounded) hall
  have ha := mapM_forall hattempts (fun _ _ => readAttempt_bounded) hv.attempts.1
  have hidentity : id.chainId = t.identity.chainId := by
    obtain ⟨signer, _, hid⟩ := Option.bind_eq_some_iff.mp hid
    obtain rfl := Option.some.inj hid
    rfl
  exact {
    chainId := hidentity ▸ hchain.2
    baseline := readObservation_bounded hbaseline hb
    lastObservation := readObservation_bounded hlast hl
    nextNonce := hnext
    durableNextNonce := hdurable
    repairs_length := hr.2 ▸ hlength
    repairs := hr.1
    attempts := ha.1 }

theorem validateJournalText_some_iff :
    validateJournalText t expected = some u ↔ u = t ∧ TextValid expected t := by
  unfold validateJournalText TextValid
  cases hi : readIdentity expected with
  | none => simp
  | some identity =>
    cases hs : readSnapshot t with
    | none => simp
    | some snapshot =>
      simp only [bind, Option.bind_some, Option.some.injEq, exists_eq_left', exists_and_left]
      cases hv : validateJournalSnapshotStructure snapshot identity with
      | error e =>
        have hno : ¬ SnapshotValid identity snapshot := by
          intro h
          rw [(validate_ok_iff (t := snapshot)).mpr ⟨rfl, h⟩] at hv
          cases hv
        simp [hno]
      | ok v =>
        have hyes : SnapshotValid identity snapshot := (validate_ok_iff.mp hv).2
        simp [hyes, eq_comm]

theorem verifyJournalText_some_iff :
    verifyJournalText lib t expected = some u ↔ u = t ∧ TextVerified lib expected t := by
  unfold verifyJournalText TextVerified
  cases hi : readIdentity expected with
  | none => simp
  | some identity =>
    cases hs : readSnapshot t with
    | none => simp
    | some snapshot =>
      simp only [bind, Option.bind_some, Option.some.injEq, exists_eq_left', exists_and_left]
      cases hv : verifyJournalSnapshot lib snapshot identity with
      | error e =>
        have hno : ¬ SnapshotVerified lib identity snapshot := by
          intro h
          rw [(verifyJournalSnapshot_ok_iff (t := snapshot)).mpr ⟨rfl, h⟩] at hv
          cases hv
        simp [hno]
      | ok v =>
        have hyes : SnapshotVerified lib identity snapshot := (verifyJournalSnapshot_ok_iff.mp hv).2
        simp [hyes, eq_comm]

theorem journalText_ne_nil (t : SnapshotText) : journalText t ≠ [] := by
  simp [journalText, text]

/-- Only the line break follows the printed value. -/
theorem parse_journalText (t : SnapshotText) :
    Json.parse (journalText t) = some (encodeSnapshot t) := by
  apply Json.parse_print_append
  intro c hc
  obtain rfl : c = 0x0a := by simpa [text, unit] using hc
  rfl

theorem attemptUnits_le (t : AttemptText) :
    (t.signedTransactions.map (·.signedTransaction.length)).sum ≤
      (encodeAttempt t).stringUnits := by
  have hmap : (t.signedTransactions.map (·.signedTransaction.length)).sum ≤
      Json.elementUnits (t.signedTransactions.map encodeSignedTransaction) := by
    rw [Json.elementUnits_eq_sum, List.map_map]
    apply List.sum_le_sum
    intro x _
    show x.signedTransaction.length ≤ x.transactionHash.length + (x.signedTransaction.length + 0)
    omega
  simp only [encodeAttempt, Json.Value.stringUnits, Json.fieldUnits]
  omega

/-- The check on the signed bytes refuses no text that the limit allows. -/
theorem signedTransactionUnits_le (t : SnapshotText) :
    signedTransactionUnits t ≤ Json.utf8Length (journalText t) := by
  have hattempts : signedTransactionUnits t ≤
      Json.elementUnits (t.attempts.map encodeAttempt) := by
    unfold signedTransactionUnits
    rw [Json.elementUnits_eq_sum, List.map_map]
    apply List.sum_le_sum
    intro a _
    exact attemptUnits_le a
  calc signedTransactionUnits t ≤ Json.elementUnits (t.attempts.map encodeAttempt) := hattempts
    _ ≤ (encodeSnapshot t).stringUnits := by
      simp only [encodeSnapshot, Json.Value.stringUnits, Json.fieldUnits]
      omega
    _ ≤ Json.utf8Length (journalText t) := Json.stringUnits_le_utf8Length _ _

/-- The encoder accepts exactly the valid snapshots that verify and whose text fits. -/
theorem encodeJournalSnapshot_ok_iff {contents : Text} :
    encodeJournalSnapshot lib t expected = .ok contents ↔
      contents = journalText t ∧ TextVerified lib expected t ∧
        Json.utf8Length (journalText t) ≤ MAX_JOURNAL_BYTES := by
  unfold encodeJournalSnapshot
  constructor
  · intro h
    cases hv : validateJournalText t expected with
    | none =>
      rw [hv] at h
      cases h
    | some u =>
      obtain ⟨rfl, _⟩ := validateJournalText_some_iff.mp hv
      rw [hv] at h
      by_cases hsize : signedTransactionUnits u ≤ MAX_JOURNAL_BYTES
      · by_cases hbound : BoundedContents (journalText u)
        · cases hver : verifyJournalText lib u expected with
          | none => simp [hsize, hbound, hver, guard, orInvalidEncoding] at h
          | some w =>
            have hverified := (verifyJournalText_some_iff.mp hver).2
            simp only [bind, guard, hsize, hbound, hver, if_true, Option.bind_some, pure,
              orInvalidEncoding, Except.ok.injEq] at h
            exact ⟨h.symm, hverified, hbound.2⟩
        · simp [hsize, hbound, guard, orInvalidEncoding] at h
      · simp [hsize, guard, orInvalidEncoding] at h
  · rintro ⟨rfl, hverified, hlimit⟩
    have hv : validateJournalText t expected = some t :=
      validateJournalText_some_iff.mpr ⟨rfl, hverified.valid⟩
    have hver : verifyJournalText lib t expected = some t :=
      verifyJournalText_some_iff.mpr ⟨rfl, hverified⟩
    have hsize : signedTransactionUnits t ≤ MAX_JOURNAL_BYTES :=
      (signedTransactionUnits_le t).trans hlimit
    have hbound : BoundedContents (journalText t) := ⟨journalText_ne_nil t, hlimit⟩
    simp only [hv, hver, hsize, hbound, bind, guard, if_true, Option.bind_some, pure,
      orInvalidEncoding]

/-- The decoder accepts exactly the bounded texts of a snapshot that verifies. -/
theorem decodeJournalSnapshot_ok_iff {contents : Text} :
    decodeJournalSnapshot lib contents expected = .ok t ↔
      BoundedContents contents ∧ (Json.parse contents).bind decodeSnapshot = some t ∧
        TextVerified lib expected t := by
  unfold decodeJournalSnapshot
  by_cases hbound : BoundedContents contents
  · cases hp : Json.parse contents with
    | none => simp [hbound, guard, orInvalidEncoding]
    | some root =>
      cases hd : decodeSnapshot root with
      | none => simp [hbound, hd, guard, orInvalidEncoding]
      | some decoded =>
        cases hver : verifyJournalText lib decoded expected with
        | none =>
          have hno : ¬ TextVerified lib expected decoded := by
            intro h
            rw [verifyJournalText_some_iff.mpr ⟨rfl, h⟩] at hver
            cases hver
          simp only [bind, guard, hbound, if_true, pure, Option.bind_some, hd, hver,
            orInvalidEncoding, reduceCtorEq, true_and, Option.some.injEq, false_iff]
          rintro ⟨rfl, h⟩
          exact hno h
        | some u =>
          obtain ⟨rfl, hyes⟩ := verifyJournalText_some_iff.mp hver
          simp only [bind, guard, hbound, if_true, pure, Option.bind_some, hd, hver,
            orInvalidEncoding, Except.ok.injEq, true_and, Option.some.injEq]
          constructor
          · rintro rfl
            exact ⟨rfl, hyes⟩
          · exact fun h => h.1
  · simp [hbound, guard, orInvalidEncoding]

/-- A journal that was written is read back as it was. -/
theorem decode_encode {contents : Text} (h : encodeJournalSnapshot lib t expected = .ok contents) :
    decodeJournalSnapshot lib contents expected = .ok t := by
  obtain ⟨rfl, hverified, hlimit⟩ := encodeJournalSnapshot_ok_iff.mp h
  apply decodeJournalSnapshot_ok_iff.mpr
  refine ⟨⟨journalText_ne_nil t, hlimit⟩, ?_, hverified⟩
  rw [parse_journalText, Option.bind_some]
  exact decodeSnapshot_encode hverified.valid.bounded

end Codec

/-- Every valid and verifiable snapshot within the limit survives encoding and decoding;
so does whatever a journal text decodes to; and the encoder rejects nothing else. -/
theorem journal_codec (lib : TransactionLibrary) (expected : IdentityText) :
    (∀ t, TextVerified lib expected t → Json.utf8Length (journalText t) ≤ MAX_JOURNAL_BYTES →
      ∃ contents, encodeJournalSnapshot lib t expected = .ok contents ∧
        decodeJournalSnapshot lib contents expected = .ok t) ∧
    (∀ contents t, decodeJournalSnapshot lib contents expected = .ok t →
      Json.utf8Length (journalText t) ≤ MAX_JOURNAL_BYTES →
      ∃ written, encodeJournalSnapshot lib t expected = .ok written ∧
        decodeJournalSnapshot lib written expected = .ok t) ∧
    (∀ t e, encodeJournalSnapshot lib t expected = .error e →
      ¬ TextValid expected t ∨ ¬ TextVerified lib expected t ∨
        MAX_JOURNAL_BYTES < Json.utf8Length (journalText t)) := by
  have hwrite {t : SnapshotText} (hv : TextVerified lib expected t)
      (hlimit : Json.utf8Length (journalText t) ≤ MAX_JOURNAL_BYTES) :
      ∃ contents, encodeJournalSnapshot lib t expected = .ok contents ∧
        decodeJournalSnapshot lib contents expected = .ok t := by
    have h : encodeJournalSnapshot lib t expected = .ok (journalText t) :=
      encodeJournalSnapshot_ok_iff.mpr ⟨rfl, hv, hlimit⟩
    exact ⟨_, h, decode_encode h⟩
  refine ⟨fun t hv hlimit => hwrite hv hlimit, fun contents t h hlimit => ?_, fun t e h => ?_⟩
  · obtain ⟨_, _, hv⟩ := decodeJournalSnapshot_ok_iff.mp h
    exact hwrite hv hlimit
  · by_contra hno
    push Not at hno
    obtain ⟨_, hv, hlimit⟩ := hno
    have hok : encodeJournalSnapshot lib t expected = .ok (journalText t) :=
      encodeJournalSnapshot_ok_iff.mpr ⟨rfl, hv, hlimit⟩
    rw [h] at hok
    cases hok

section Sample

def repeated (n : ℕ) (c : Char) : Text := List.replicate n (unit c)

def sampleIdentityText : IdentityText := ⟨1, text "0x" ++ repeated 39 '0' ++ text "7"⟩

def sampleAnchorText (n : ℕ) : AnchorText := ⟨n, text "0x" ++ repeated 64 'A'⟩

def legacyIdentityText : IdentityText :=
  ⟨1, text "0x9d8a62f656a8d1615c1294fd71e9cfb3e4855a4f"⟩

/-- The signed transaction of `originalBytes`. -/
def originalText : SignedTransactionText where
  transactionHash := text "0x33469b22e9f636356c4160a87eb19df52b7412e8eac32a4a55ffe88ea8350788"
  signedTransaction := text "0xf86c098504a817c800825208943535353535353535353535353535353535353535" ++
    text "880de0b6b3a764000080" ++
    text "25a028ef61340bd939bc2195fe537567866003e1a15d3c71ff63e1590620aa636276" ++
    text "a067cbe9d8997f761aecb703304b3800ccf555c9f3dc64214b297fb1966a3b6d83"

/-- An attempt whose nonce another transaction took, after one repair. -/
def sampleText : SnapshotText where
  identity := legacyIdentityText
  baseline := ⟨sampleAnchorText 5, 0⟩
  lastObservation := ⟨sampleAnchorText 9, 10⟩
  nextNonce := 10
  durableNextNonce := 9
  repairs := [⟨text "sync-nonce", text "2024-02-29T12:34:56.789Z", 0, 9, ⟨sampleAnchorText 6, 9⟩⟩]
  attempts :=
    [{ attemptId := text "123e4567-e89b-42d3-a456-426614174000"
       workId := text "round \"7\""
       nonce := 9
       createdAt := text "2024-02-29T12:35:00.000Z"
       signedTransactions := [originalText]
       replacementSearch := some ⟨⟨sampleAnchorText 6, 9⟩, some (sampleAnchorText 8)⟩
       phase := .included ⟨sampleAnchorText 8, sampleAnchorText 9,
         .replaced (text "0x" ++ repeated 64 'b') 10⟩ }]

def recordedAnchor (n : ℕ) : BlockAnchor :=
  ⟨n, 0xaaaaaaaaaaaaaaaaaaaaaaaaaaaaaaaaaaaaaaaaaaaaaaaaaaaaaaaaaaaaaaaa⟩

/-- What `sampleText` stands for. -/
def recordedSnapshot : TransactionJournalSnapshot where
  identity := ⟨1, legacySigner⟩
  baseline := ⟨recordedAnchor 5, 0⟩
  lastObservation := ⟨recordedAnchor 9, 10⟩
  nextNonce := 10
  durableNextNonce := 9
  repairs := [⟨1709210096789, 0, 9, ⟨recordedAnchor 6, 9⟩⟩]
  attempts :=
    [{ attemptId := 0x123e4567e89b42d3a456426614174000
       workId := text "round \"7\""
       nonce := 9
       createdAt := 1709210100000
       signedTransactions :=
        ⟨⟨0x33469b22e9f636356c4160a87eb19df52b7412e8eac32a4a55ffe88ea8350788, originalBytes⟩, []⟩
       replacementSearch := some ⟨⟨recordedAnchor 6, 9⟩, some (recordedAnchor 8)⟩
       phase := .included ⟨recordedAnchor 8, recordedAnchor 9,
        .replaced 0xbbbbbbbbbbbbbbbbbbbbbbbbbbbbbbbbbbbbbbbbbbbbbbbbbbbbbbbbbbbbbbbb 10⟩ }]

theorem sampleText_recorded : readSnapshot sampleText = some recordedSnapshot := by decide +kernel

theorem sampleText_round_trip :
    ∃ contents, encodeJournalSnapshot legacyLibrary sampleText legacyIdentityText =
        .ok contents ∧
      decodeJournalSnapshot legacyLibrary contents legacyIdentityText = .ok sampleText := by
  apply (journal_codec legacyLibrary legacyIdentityText).1 sampleText
  · refine ⟨⟨1, legacySigner⟩, recordedSnapshot, ?_, sampleText_recorded, ⟨?_, ?_, ?_⟩, ?_⟩
    · decide +kernel
    · decide +kernel
    · decide +kernel
    · decide +kernel
    · decide +kernel
  · decide +kernel

end Sample

end Quicknet
