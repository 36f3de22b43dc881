import Quicknet.DaemonStatusRoundTrip
import Quicknet.Library.JsonSize

/-! Every snapshot that the reader accepts fits in the file. Identifiers, hashes and dates are
plain and of bounded length, a work identity takes at most three bytes for a unit, and no
number prints in more than 24 characters. -/
namespace Quicknet

open Json (Text text unit Value bytes utf8Length printString isPlain)

namespace DaemonStatus

section Strings

theorem isPlain_of_range {c : UInt16} (hlow : 0x20 ≤ c.toNat) (hhigh : c.toNat < 0x7f)
    (hq : c.toNat ≠ 0x22) (hb : c.toNat ≠ 0x5c) : isPlain c = true := by
  have hquote : c ≠ Json.quote := by
    rintro rfl
    exact hq rfl
  have hbackslash : c ≠ Json.backslash := by
    rintro rfl
    exact hb rfl
  simp [isPlain, hlow, hhigh, hquote, hbackslash]

theorem isPlain_digit {c : UInt16} (h : Json.isDigit c = true) : isPlain c = true := by
  simp only [Json.isDigit, decide_eq_true_eq] at h
  exact isPlain_of_range (by omega) (by omega) (by omega) (by omega)

theorem isPlain_lowerHex {c : UInt16} (h : isLowerHex c = true) : isPlain c = true := by
  simp only [isLowerHex, Bool.or_eq_true, decide_eq_true_eq] at h
  rcases h with h | h
  · exact isPlain_digit h
  · exact isPlain_of_range (by omega) (by omega) (by omega) (by omega)

theorem isPlain_hexValue {c : UInt16} {n : ℕ} (h : Json.hexValue c = some n) : isPlain c = true := by
  unfold Json.hexValue at h
  split_ifs at h with h₁ h₂ h₃
  · exact isPlain_digit h₁
  · exact isPlain_of_range (by omega) (by omega) (by omega) (by omega)
  · exact isPlain_of_range (by omega) (by omega) (by omega) (by omega)

theorem uuid_plain {t : Text} (h : isUuidV4 t = true) :
    t.length = 36 ∧ ∀ c ∈ t, isPlain c = true := by
  simp only [isUuidV4, Bool.and_eq_true, beq_iff_eq, List.all_eq_true, List.mem_range] at h
  obtain ⟨hlength, hall⟩ := h
  refine ⟨hlength, fun c hc => ?_⟩
  obtain ⟨i, hi, rfl⟩ := List.mem_iff_getElem.mp hc
  have hposition := hall i (by omega)
  rw [List.getD_eq_getElem _ _ hi] at hposition
  split_ifs at hposition with h₁ h₂ h₃
  · rw [beq_iff_eq.mp hposition]
    decide
  · rw [beq_iff_eq.mp hposition]
    decide
  · rw [List.contains_iff_mem] at hposition
    have hvariants : ∀ c ∈ text "89ab", isPlain c = true :=
      List.all_eq_true.mp (by decide)
    exact hvariants _ hposition
  · exact isPlain_lowerHex hposition

theorem readHexDigits_plain {t : Text} {n m : ℕ}
    (h : t.foldlM (fun n c => (Json.hexValue c).map (16*n + ·)) m = some n) :
    ∀ c ∈ t, isPlain c = true := by
  induction t generalizing m with
  | nil => simp
  | cons c t ih =>
    rw [List.foldlM_cons] at h
    obtain ⟨k, hk, h⟩ := Option.bind_eq_some_iff.mp h
    obtain ⟨d, hd, _⟩ := Option.map_eq_some_iff.mp hk
    intro e he
    rcases List.mem_cons.mp he with rfl | he
    · exact isPlain_hexValue hd
    · exact ih h e he

theorem fixedHex_plain {size n : ℕ} {t : Text} (h : readFixedHex size t = some n) :
    t.length = 2 + size*2 ∧ ∀ c ∈ t, isPlain c = true := by
  unfold readFixedHex at h
  split_ifs at h with hshape
  obtain ⟨hlength, rest, rfl⟩ := hshape
  refine ⟨hlength, fun c hc => ?_⟩
  have hdigits : ∀ c ∈ rest, isPlain c = true := by
    have hdrop : (text "0x" ++ rest).drop 2 = rest := rfl
    rw [hdrop] at h
    exact readHexDigits_plain h
  have hprefix : ∀ c ∈ text "0x", isPlain c = true :=
    List.all_eq_true.mp (by decide)
  rcases List.mem_append.mp hc with hc | hc
  · exact hprefix c hc
  · exact hdigits c hc

/-- At most `n` plain units of `t` stand before `rest`. -/
def PlainBefore (t rest : Text) (n : ℕ) : Prop :=
  ∃ front, t = front ++ rest ∧ front.length ≤ n ∧ ∀ c ∈ front, isPlain c = true

theorem PlainBefore.trans {t u v : Text} {n m : ℕ} (h₁ : PlainBefore t u n)
    (h₂ : PlainBefore u v m) : PlainBefore t v (n + m) := by
  obtain ⟨f, rfl, hf, hfp⟩ := h₁
  obtain ⟨g, rfl, hg, hgp⟩ := h₂
  refine ⟨f ++ g, (List.append_assoc _ _ _).symm, ?_, fun c hc => ?_⟩
  · rw [List.length_append]
    omega
  · rcases List.mem_append.mp hc with hc | hc
    · exact hfp c hc
    · exact hgp c hc

theorem afterWord_plain {word t rest : Text} (h : Json.afterWord word t = some rest)
    (hword : ∀ c ∈ word, isPlain c = true) : PlainBefore t rest word.length := by
  unfold Json.afterWord at h
  split_ifs at h with hprefix
  obtain ⟨tail, rfl⟩ := hprefix
  obtain rfl := Option.some.inj h
  exact ⟨word, by rw [List.drop_left], le_rfl, hword⟩

theorem readDigits_plain {width : ℕ} {t rest : Text} {n : ℤ}
    (h : readDigits width t = some (n, rest)) : PlainBefore t rest width := by
  unfold readDigits at h
  split_ifs at h with hdigits
  obtain ⟨_, rfl⟩ := Prod.mk.inj (Option.some.inj h)
  refine ⟨t.take width, (List.take_append_drop _ _).symm, by simp, fun c hc => ?_⟩
  exact isPlain_digit (List.all_eq_true.mp hdigits.2 c hc)

theorem readYear_plain {t rest : Text} {n : ℤ} (h : readYear t = some (n, rest)) :
    PlainBefore t rest 7 := by
  have hplus : ∀ c ∈ text "+", isPlain c = true :=
    List.all_eq_true.mp (by decide)
  have hminus : ∀ c ∈ text "-", isPlain c = true :=
    List.all_eq_true.mp (by decide)
  unfold readYear at h
  split at h
  · next tail hsign => exact (afterWord_plain hsign hplus).trans (readDigits_plain h)
  · split at h
    · next tail hsign =>
      obtain ⟨⟨m, r⟩, hr, hpair⟩ := Option.map_eq_some_iff.mp h
      obtain ⟨_, rfl⟩ := Prod.mk.inj hpair
      exact (afterWord_plain hsign hminus).trans (readDigits_plain hr)
    · obtain ⟨front, ht, hlength, hplain⟩ := readDigits_plain h
      exact ⟨front, ht, by omega, hplain⟩

theorem timestamp_plain {t : Text} (h : IsTimestamp t) :
    t.length ≤ 27 ∧ ∀ c ∈ t, isPlain c = true := by
  have hpart {word t rest : Text} {n : ℤ} {width : ℕ}
      (hread : (Json.afterWord word t).bind (readDigits width) = some (n, rest))
      (hword : ∀ c ∈ word, isPlain c = true) : PlainBefore t rest (word.length + width) := by
    obtain ⟨u, hu, hdigits⟩ := Option.bind_eq_some_iff.mp hread
    exact (afterWord_plain hu hword).trans (readDigits_plain hdigits)
  obtain ⟨value, hvalue⟩ := Option.isSome_iff_exists.mp h
  unfold readTimestamp at hvalue
  obtain ⟨time, hparse, _⟩ := Option.bind_eq_some_iff.mp hvalue
  unfold dateParse at hparse
  obtain ⟨⟨year, t₁⟩, h₁, hparse⟩ := Option.bind_eq_some_iff.mp hparse
  obtain ⟨⟨month, t₂⟩, h₂, hparse⟩ := Option.bind_eq_some_iff.mp hparse
  obtain ⟨⟨day, t₃⟩, h₃, hparse⟩ := Option.bind_eq_some_iff.mp hparse
  obtain ⟨⟨hour, t₄⟩, h₄, hparse⟩ := Option.bind_eq_some_iff.mp hparse
  obtain ⟨⟨minute, t₅⟩, h₅, hparse⟩ := Option.bind_eq_some_iff.mp hparse
  obtain ⟨⟨second, t₆⟩, h₆, hparse⟩ := Option.bind_eq_some_iff.mp hparse
  obtain ⟨⟨ms, t₇⟩, h₇, hparse⟩ := Option.bind_eq_some_iff.mp hparse
  simp only at h₂ h₃ h₄ h₅ h₆ h₇ hparse
  have hend : t₇ = text "Z" := by
    split_ifs at hparse with hz
    exact hz.1
  have hplain {word : Text} (h : word.all isPlain = true) : ∀ c ∈ word, isPlain c = true :=
    List.all_eq_true.mp h
  have hbefore := ((((((readYear_plain h₁).trans (hpart h₂ (hplain (by decide)))).trans
    (hpart h₃ (hplain (by decide)))).trans (hpart h₄ (hplain (by decide)))).trans
    (hpart h₅ (hplain (by decide)))).trans (hpart h₆ (hplain (by decide)))).trans
    (hpart h₇ (hplain (by decide)))
  obtain ⟨front, rfl, hlength, hplain⟩ := hbefore
  have hz : ∀ c ∈ text "Z", isPlain c = true :=
    List.all_eq_true.mp (by decide)
  rw [hend]
  refine ⟨?_, fun c hc => ?_⟩
  · rw [List.length_append]
    exact Nat.add_le_add_right hlength 1
  · rcases List.mem_append.mp hc with hc | hc
    · exact hplain c hc
    · exact hz c hc

/-- A unit of a well-formed string without control characters takes three bytes at most. -/
theorem quoteUnits_bytes {t : Text} (hformed : isWellFormed t = true)
    (hcontrol : ∀ c ∈ t, ¬ c < 0x20) : utf8Length (Json.quoteUnits t) ≤ 3 * t.length := by
  have hunit {c : UInt16} (hc : ¬ c < 0x20) (ht : Json.isTrailSurrogate c = false) :
      utf8Length (Json.quoteUnit c) ≤ 3 := by
    have hne (n : UInt16) (hn : n < 0x20) : c ≠ n := by
      rintro rfl
      exact hc hn
    unfold Json.quoteUnit
    split_ifs with h₁ h₂ h₃ h₄ h₅ h₆ h₇
    · rcases h₁ with rfl | rfl <;> decide
    · exact absurd h₂ (hne 8 (by decide))
    · exact absurd h₃ (hne 9 (by decide))
    · exact absurd h₄ (hne 10 (by decide))
    · exact absurd h₅ (hne 12 (by decide))
    · exact absurd h₆ (hne 13 (by decide))
    · rcases h₇ with h₇ | h₇
      · exact absurd h₇ hc
      · rw [ht] at h₇
        cases h₇
    · exact Json.unitBytes_le c
  -- what `isWellFormed` says of the first unit
  have houtside {c : UInt16} (h : (c < 0xD800 || c > 0xDFFF) = true) :
      Json.isLeadSurrogate c = false ∧ Json.isTrailSurrogate c = false := by
    simp only [Bool.or_eq_true, decide_eq_true_eq, UInt16.lt_iff_toNat_lt, gt_iff_lt] at h
    simp only [Json.isLeadSurrogate, Json.isTrailSurrogate, decide_eq_false_iff_not]
    have h₁ : (0xD800 : UInt16).toNat = 0xD800 := rfl
    have h₂ : (0xDFFF : UInt16).toNat = 0xDFFF := rfl
    omega
  fun_induction Json.quoteUnits t with
  | case1 => simp [utf8Length]
  | case2 c hc =>
    rw [(houtside hformed).1] at hc
    cases hc
  | case3 c hc => exact hunit (hcontrol c (by simp)) (houtside hformed).2
  | case4 c d rest hc hd ih =>
    have hrest : isWellFormed rest = true := by
      rw [isWellFormed] at hformed
      split_ifs at hformed with hout
      · rw [(houtside hout).1] at hc
        cases hc
      · exact (Bool.and_eq_true_iff.mp hformed).2
    have hle := ih hrest fun e he => hcontrol e (by simp [he])
    rw [utf8Length, if_pos (by simp [hc, hd])]
    simp only [List.length_cons]
    omega
  | case5 c d rest hc hd ih =>
    exfalso
    rw [isWellFormed] at hformed
    split_ifs at hformed with hout
    · rw [(houtside hout).1] at hc
      cases hc
    · apply hd
      simp only [Bool.and_eq_true, decide_eq_true_eq, UInt16.le_iff_toNat_le] at hformed
      have h₁ : (0xDC00 : UInt16).toNat = 0xDC00 := rfl
      have h₂ : (0xDFFF : UInt16).toNat = 0xDFFF := rfl
      simp only [Json.isTrailSurrogate, decide_eq_true_eq]
      omega
  | case6 c d rest hc ih =>
    rw [isWellFormed] at hformed
    split_ifs at hformed with hout
    · have hle := ih hformed fun e he => hcontrol e (by simp [List.mem_cons.mp he])
      have happend := Json.utf8Length_append_le (Json.quoteUnit c) (Json.quoteUnits (d :: rest))
      have hc := hunit (hcontrol c (by simp)) (houtside hout).2
      simp only [List.length_cons] at hle ⊢
      omega
    · exfalso
      apply hc
      simp only [Bool.and_eq_true, decide_eq_true_eq, UInt16.le_iff_toNat_le] at hformed
      simp only [Bool.or_eq_true, decide_eq_true_eq, UInt16.lt_iff_toNat_lt, gt_iff_lt, not_or,
        not_lt] at hout
      have h₁ : (0xD800 : UInt16).toNat = 0xD800 := rfl
      have h₂ : (0xDBFF : UInt16).toNat = 0xDBFF := rfl
      simp only [Json.isLeadSurrogate, decide_eq_true_eq]
      omega

theorem workId_bytes {t : Text} (h : isWorkId t = true) : bytes (.string t) ≤ 770 := by
  simp only [isWorkId, Bool.and_eq_true, decide_eq_true_eq, List.all_eq_true,
    Bool.not_eq_true', Bool.or_eq_false_iff, decide_eq_false_iff_not] at h
  obtain ⟨⟨⟨_, hlength⟩, hformed⟩, hunits⟩ := h
  have hquoted := quoteUnits_bytes hformed fun c hc => (hunits c hc).1
  have hopen := Json.utf8Length_cons_le Json.quote (Json.quoteUnits t ++ [Json.quote])
  have hclose := Json.utf8Length_append_le (Json.quoteUnits t) [Json.quote]
  have hquote : Json.unitBytes Json.quote = 1 ∧ utf8Length [Json.quote] = 1 := by decide
  rw [Json.bytes_string]
  change utf8Length (Json.quote :: (Json.quoteUnits t ++ [Json.quote])) ≤ _
  unfold MAX_WORK_ID_LENGTH at hlength
  omega

end Strings

section Parts

theorem plain_bytes {t : Text} {n : ℕ} (h : t.length ≤ n ∧ ∀ c ∈ t, isPlain c = true) :
    bytes (.string t) ≤ n + 2 := by
  rw [Json.bytes_string, Json.printString_plain h.2]
  omega

theorem uuid_bytes {t : Text} (h : isUuidV4 t = true) : bytes (.string t) ≤ 38 :=
  plain_bytes ⟨(uuid_plain h).1.le, (uuid_plain h).2⟩

theorem timestamp_bytes {t : Text} (h : IsTimestamp t) : bytes (.string t) ≤ 29 :=
  plain_bytes (timestamp_plain h)

theorem integer_bytes {n : ℕ} (h : n ≤ MAX_SAFE_INTEGER) : bytes (encodeInteger n) ≤ 16 := by
  apply Json.bytes_natural (by norm_num)
  calc n ≤ MAX_SAFE_INTEGER := h
    _ < 10^16 := by norm_num [MAX_SAFE_INTEGER]

theorem nonce_bytes {n : ℕ} (h : n ≤ MAX_UINT256) : bytes (encodeBigint n) ≤ 80 := by
  apply plain_bytes
  refine ⟨?_, fun c hc => isPlain_digit (Json.decimal_isDigit hc)⟩
  apply Json.decimal_length_le (by norm_num)
  calc n ≤ MAX_UINT256 := h
    _ < 10^78 := by norm_num [MAX_UINT256]

theorem duration_bytes (d : Json.Magnitude) : bytes (.number d.toNumber) ≤ 24 := by
  rw [Json.bytes_number]
  exact Json.toNumber_length d

theorem nullable_bytes {α : Type} {encode : α → Value} {a : Option α} {n : ℕ} (hn : 4 ≤ n)
    (h : ∀ x ∈ a, bytes (encode x) ≤ n) : bytes (encodeNullable encode a) ≤ n := by
  cases a with
  | none => exact Json.bytes_null.le.trans hn
  | some x => exact h x rfl

/-- The elements of an array, each with a comma. -/
theorem array_bytes {α : Type} {encode : α → Value} {l : List α} {n m : ℕ} (hl : l.length ≤ m)
    (h : ∀ a ∈ l, bytes (encode a) ≤ n) : bytes (.array (l.map encode)) ≤ m * (n + 1) + 2 := by
  have harray := Json.bytes_array (l.map encode)
  rw [List.map_map] at harray
  have hsum : (l.map ((fun v => bytes v + 1) ∘ encode)).sum ≤ l.length * (n + 1) :=
    Json.sum_bytes_le fun a ha => Nat.add_le_add_right (h a ha) 1
  have hlength : l.length * (n + 1) ≤ m * (n + 1) := Nat.mul_le_mul_right _ hl
  omega

theorem client_bytes (c : RpcUsage.RpcClientRole) :
    bytes (encodeLabel RpcUsage.RpcClientRole.label c) ≤ 8 := by
  unfold encodeLabel
  rw [Json.bytes_string]
  cases c <;> decide

theorem method_bytes (m : RpcUsage.RpcMethod) :
    bytes (encodeLabel RpcUsage.RpcMethod.label m) ≤ 27 := by
  unfold encodeLabel
  rw [Json.bytes_string]
  cases m <;> decide

theorem blocker_bytes (b : SignerBlocker) : bytes (encodeLabel SignerBlocker.label b) ≤ 30 := by
  unfold encodeLabel
  rw [Json.bytes_string]
  cases b <;> decide

theorem phase_bytes (p : AttemptPhase) : bytes (encodeLabel AttemptPhase.label p) ≤ 29 := by
  unfold encodeLabel
  rw [Json.bytes_string]
  cases p <;> decide

theorem persistence_bytes (p : JournalPersistenceState) :
    bytes (encodeLabel JournalPersistenceState.label p) ≤ 9 := by
  unfold encodeLabel
  rw [Json.bytes_string]
  cases p <;> decide

theorem logicalRow_bytes {r : RpcUsage.RpcLogicalUsageSnapshotRow} (h : RpcUsage.LogicalRowValid r) :
    bytes (RpcUsage.encodeLogicalRow r) ≤ 205 := by
  obtain ⟨hmax, hc, hf, hi, _⟩ := h
  have hclient := client_bytes r.client
  have hmethod := method_bytes r.method
  have hstarted := integer_bytes hmax
  have hcompleted := integer_bytes (hc.trans hmax)
  have hfailed := integer_bytes ((hf.trans hc).trans hmax)
  have hinFlight : bytes (encodeInteger r.inFlight) ≤ 16 := integer_bytes (by omega)
  have hduration := duration_bytes r.durationMs
  refine Json.bytes_object_le (k := 80) (n := 123) rfl ?_
  simp only [List.map_cons, List.map_nil, List.sum_cons, List.sum_nil]
  omega

theorem statuses_bytes {s : RpcUsage.RpcStatusCounts}
    (h : s.class2xx ≤ MAX_SAFE_INTEGER ∧ s.class3xx ≤ MAX_SAFE_INTEGER ∧
      s.class4xx ≤ MAX_SAFE_INTEGER ∧ s.class5xx ≤ MAX_SAFE_INTEGER) :
    bytes (RpcUsage.encodeStatuses s) ≤ 94 := by
  obtain ⟨h2, h3, h4, h5⟩ := h
  have h2 := integer_bytes h2
  have h3 := integer_bytes h3
  have h4 := integer_bytes h4
  have h5 := integer_bytes h5
  refine Json.bytes_object_le (k := 28) (n := 64) rfl ?_
  simp only [List.map_cons, List.map_nil, List.sum_cons, List.sum_nil]
  omega

theorem httpRow_bytes {r : RpcUsage.RpcHttpUsageSnapshotRow} (h : RpcUsage.HttpRowValid r) :
    bytes (RpcUsage.encodeHttpRow r) ≤ 285 := by
  obtain ⟨hmax, hclasses, hr, ht, hi, _⟩ := h
  have hclient := client_bytes r.client
  have hstarted := integer_bytes hmax
  have hresponses := integer_bytes (hr.trans hmax)
  have hfailures : bytes (encodeInteger r.transportFailures) ≤ 16 := integer_bytes (by omega)
  have hinFlight : bytes (encodeInteger r.inFlight) ≤ 16 := integer_bytes (by omega)
  have hstatuses := statuses_bytes hclasses
  have hduration := duration_bytes r.durationMs
  refine Json.bytes_object_le (k := 93) (n := 190) rfl ?_
  simp only [List.map_cons, List.map_nil, List.sum_cons, List.sum_nil]
  omega

theorem rpcUsage_bytes {u : RpcUsage.RpcUsageSnapshot} (h : u.Valid) :
    bytes (RpcUsage.encodeRpcUsageSnapshot u) ≤ 7739 := by
  have hid := uuid_bytes h.collectorId
  have hstarted := timestamp_bytes h.startedAt
  have hobserved := timestamp_bytes h.observedAt
  have hlogical : bytes (.array (u.logical.map RpcUsage.encodeLogicalRow)) ≤ 34*206 + 2 :=
    array_bytes h.logical.length fun r hr => logicalRow_bytes (h.logical.valid r hr)
  have hhttp : bytes (.array (u.http.map RpcUsage.encodeHttpRow)) ≤ 2*286 + 2 :=
    array_bytes h.http.length fun r hr => httpRow_bytes (h.http.valid r hr)
  refine Json.bytes_object_le (k := 61) (n := 7676) rfl ?_
  simp only [List.map_cons, List.map_nil, List.sum_cons, List.sum_nil]
  omega

theorem hashes_bytes {hashes : List Text} (h : HashesAccepted hashes) :
    bytes (.array (hashes.map .string)) ≤ 1106 := by
  obtain ⟨_, hlength, values, hvalues, _⟩ := h
  apply array_bytes (n := 68) hlength
  intro t ht
  have hread : ∃ n, readFixedHex 32 t = some n :=
    (mapM_forall (P := fun _ => True) (Q := fun t => ∃ n, readFixedHex 32 t = some n) hvalues
      (fun _ n hn _ => ⟨n, hn⟩) fun _ _ => trivial).1 t ht
  obtain ⟨n, hn⟩ := hread
  exact plain_bytes ⟨(fixedHex_plain hn).1.le, (fixedHex_plain hn).2⟩

theorem attempt_bytes {a : DaemonStatusAttempt} (h : AttemptAccepted a) :
    bytes (encodeAttempt a) ≤ 2087 := by
  obtain ⟨huuid, hwork, hnonce, hhashes⟩ := h
  have hid := uuid_bytes huuid
  have hworkId := workId_bytes hwork
  have hn := nonce_bytes hnonce
  have hphase := phase_bytes a.phase
  have hlist := hashes_bytes hhashes
  refine Json.bytes_object_le (k := 62) (n := 2023) rfl ?_
  simp only [List.map_cons, List.map_nil, List.sum_cons, List.sum_nil]
  omega

theorem summary_bytes {s : DaemonStatusAttemptSummary} {details : List DaemonStatusAttempt}
    (h : SummaryAccepted s details) (hlowest : ∀ n ∈ s.lowestNonce, n ≤ MAX_UINT256)
    (hhighest : ∀ n ∈ s.highestNonce, n ≤ MAX_UINT256) :
    bytes (encodeAttemptSummary s) ≤ 359 := by
  obtain ⟨hmax, hi, hu, hd, ho, _⟩ := h.1
  have hsafe : s.retainedCount ≤ MAX_SAFE_INTEGER := hmax.trans (by decide)
  have hretained := integer_bytes hsafe
  have hincluded := integer_bytes (hi.trans hsafe)
  have hunresolved := integer_bytes (hu.trans hsafe)
  have hdetailed := integer_bytes (hd.trans hsafe)
  have homitted := integer_bytes (ho.trans hsafe)
  have hlow : bytes (encodeNullable encodeBigint s.lowestNonce) ≤ 80 :=
    nullable_bytes (by norm_num) fun n hn => nonce_bytes (hlowest n hn)
  have hhigh : bytes (encodeNullable encodeBigint s.highestNonce) ≤ 80 :=
    nullable_bytes (by norm_num) fun n hn => nonce_bytes (hhighest n hn)
  refine Json.bytes_object_le (k := 117) (n := 240) rfl ?_
  simp only [List.map_cons, List.map_nil, List.sum_cons, List.sum_nil]
  omega

theorem cycle_bytes {c : DaemonStatusCompletedCycle} (h : CycleAccepted c) :
    bytes (encodeCompletedCycle c) ≤ 71 := by
  have hcycle := integer_bytes h.2.1
  have hat := timestamp_bytes h.2.2
  refine Json.bytes_object_le (k := 24) (n := 45) rfl ?_
  simp only [List.map_cons, List.map_nil, List.sum_cons, List.sum_nil]
  omega

theorem retry_bytes {r : DaemonStatusRetryObservation} (h : RetryAccepted r) :
    bytes (encodeRetryObservation r) ≤ 77 := by
  have hat := timestamp_bytes h.1
  have hdelay : bytes (encodeNullable encodeInteger r.retryDelayMs) ≤ 16 :=
    nullable_bytes (by norm_num) fun n hn => integer_bytes (h.2 n hn)
  refine Json.bytes_object_le (k := 30) (n := 45) rfl ?_
  simp only [List.map_cons, List.map_nil, List.sum_cons, List.sum_nil]
  omega

theorem gate_bytes {g : LastObservedGate} (h : ReportAccepted g) :
    bytes (encodeLastObservedGate g) ≤ 393 := by
  obtain ⟨⟨hlength, _⟩, _, hsince⟩ := h
  have hprimary : bytes (encodeNullable (encodeLabel SignerBlocker.label) g.primaryReason) ≤ 30 :=
    nullable_bytes (by norm_num) fun b _ => blocker_bytes b
  have hblockers : bytes (.array (g.blockers.map (encodeLabel SignerBlocker.label))) ≤ 6*31 + 2 :=
    array_bytes hlength fun b _ => blocker_bytes b
  have hopen := Json.bytes_bool g.isOpen
  have hrecovery := Json.bytes_bool g.recoveryComplete
  have hinclusion := Json.bytes_bool g.inclusionChecksComplete
  have hpersistence := persistence_bytes g.persistenceState
  have hblocked : bytes (encodeNullable .string g.blockedSince) ≤ 29 :=
    nullable_bytes (by norm_num) fun t ht => timestamp_bytes (hsince t ht)
  refine Json.bytes_object_le (k := 120) (n := 271) rfl ?_
  simp only [List.map_cons, List.map_nil, List.sum_cons, List.sum_nil]
  omega

theorem identity_bytes {identity : IdentityText} (h : captureJournalIdentity identity = true) :
    bytes (encodeIdentity identity) ≤ 83 := by
  obtain ⟨signer, _, hsigner, _, hmax⟩ := captured_iff.mp h
  have hchain : bytes (.number (.ofNat identity.chainId)) ≤ 16 := integer_bytes hmax
  have hhex : bytes (.string identity.signer) ≤ 44 :=
    plain_bytes ⟨(fixedHex_plain hsigner).1.le, (fixedHex_plain hsigner).2⟩
  refine Json.bytes_object_le (k := 21) (n := 60) rfl ?_
  simp only [List.map_cons, List.map_nil, List.sum_cons, List.sum_nil]
  omega

end Parts

section Total

variable {s : DaemonStatusSnapshot} {expected : IdentityText}

theorem snapshot_bytes (h : s.Accepted expected) :
    bytes (encodeDaemonStatusSnapshot s) ≤ 11078 := by
  have hversion : bytes (encodeInteger 1) ≤ 16 := integer_bytes (by decide)
  have hidentity := identity_bytes h.captured
  have hrun := uuid_bytes h.runId
  have hobserved := timestamp_bytes h.observedAt
  have hcycle : bytes (encodeNullable encodeCompletedCycle s.lastCompletedCycle) ≤ 71 :=
    nullable_bytes (by norm_num) fun c hc => cycle_bytes (h.lastCompletedCycle c hc)
  have hretry : bytes (encodeNullable encodeRetryObservation s.lastRetryObservation) ≤ 77 :=
    nullable_bytes (by norm_num) fun r hr => retry_bytes (h.lastRetryObservation r hr)
  have hinitialized := Json.bytes_bool s.journalInitialized
  have hsummary := summary_bytes h.summary h.lowest h.highest
  have hattempts : bytes (.array (s.attempts.map encodeAttempt)) ≤ 1*2088 + 2 :=
    array_bytes h.attempts.1 fun a ha => attempt_bytes (h.attempt a ha)
  have hgate := gate_bytes h.report
  rw [← h.identity] at hidentity
  unfold encodeDaemonStatusSnapshot encodeRpcFields
  cases hu : s.rpcUsage with
  | none =>
    refine (Json.bytes_object_le (k := 164) (n := 3161) rfl ?_).trans (by norm_num)
    simp only [Option.toList_none, List.map_nil, List.append_nil, List.map_cons, List.sum_cons,
      List.sum_nil]
    omega
  | some u =>
    have husage := rpcUsage_bytes (h.rpcUsage u hu)
    refine (Json.bytes_object_le (k := 176) (n := 10900) rfl ?_).trans (by norm_num)
    simp only [Option.toList_some, List.map_cons, List.map_nil, List.cons_append, List.nil_append,
      List.sum_cons, List.sum_nil]
    omega

/-- The writer never refuses the size of a snapshot. -/
theorem daemonStatusText_fits (h : s.Accepted expected) :
    utf8Length (daemonStatusText s) ≤ MAX_DAEMON_STATUS_BYTES := by
  have hbytes := snapshot_bytes h
  have happend := Json.utf8Length_append_le (Json.print (encodeDaemonStatusSnapshot s)) (text "\n")
  have hnewline : utf8Length (text "\n") = 1 := by decide
  have hlimit : MAX_DAEMON_STATUS_BYTES = 16384 := rfl
  change utf8Length (daemonStatusText s) ≤ bytes (encodeDaemonStatusSnapshot s) + _ at happend
  omega

end Total

end DaemonStatus

end Quicknet
