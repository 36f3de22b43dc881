import Quicknet.SecurityProfile
import Quicknet.RandomnessConsumer

/-! The timing of a security profile, against the lead that the deployed contracts give. -/
namespace Quicknet.Security

open Json (Text text)
open Contracts
open Contracts.RandomnessConsumer
open PeriodicSchedule

/-- The least time from a request to its round, over every consumer of a registry with this
minimum and over every timestamp. -/
def GuaranteedLead (minimumLeadRounds : ℕ) (seconds : ℤ) : Prop :=
  IsLeast {d : ℤ | ∃ (account : RegistryAccount) (expectedCodehash : Bytes32) (leadRounds : Round)
    (consumer : RandomnessConsumer) (registry : Registry) (now : Uint256) (round : Round)
    (time : Uint256), account.minimumLeadRounds.toNat = minimumLeadRounds ∧
      create account expectedCodehash leadRounds = .ok consumer ∧
      consumer.requestQuicknetRandomness registry now = .ok round ∧
      roundScheduledTime round = .ok time ∧ d = (time.toNat : ℤ) - now.toNat} seconds

/-- The committed round lies the lead after the latest one. -/
theorem committed_time {account : RegistryAccount} {expected : Bytes32} {lead : Round}
    {consumer : RandomnessConsumer} {registry : Registry} {now : Uint256} {round : Round}
    {time : Uint256} (hcreate : create account expected lead = .ok consumer)
    (hround : consumer.requestQuicknetRandomness registry now = .ok round)
    (htime : roundScheduledTime round = .ok time) :
    time.toNat = scheduled GENESIS PERIOD (latest GENESIS PERIOD now.toNat + lead.toNat) := by
  obtain ⟨hlead, _, _⟩ := create_ok hcreate
  obtain ⟨_, _, hscheduled⟩ := roundScheduledTime_eq htime
  rw [hscheduled, request_ok_iff.mp hround, hlead]

/-- Three seconds a round, less two: a request can come at the end of its slot. -/
theorem guaranteedLead_isLeast {n : ℕ} (hn : 0 < n) (hmax : n ≤ MAX_SAFE_INTEGER) :
    GuaranteedLead n (3 * n - 2) := by
  have hfits : n < 2^64 := by
    unfold MAX_SAFE_INTEGER at hmax
    omega
  have hlead : (BitVec.ofNat 64 n).toNat = n := by
    rw [BitVec.toNat_ofNat, Nat.mod_eq_of_lt hfits]
  constructor
  · -- The last second of the first slot, and a consumer at the minimum.
    have hnow : (BitVec.ofNat 256 (GENESIS + 2)).toNat = GENESIS + 2 := by decide
    have hlatest : latest GENESIS PERIOD (GENESIS + 2) = 1 := by decide
    have hnonzero : BitVec.ofNat 64 n ≠ 0 := by
      intro h
      have hzero := congrArg BitVec.toNat h
      rw [hlead] at hzero
      exact hn.ne' hzero
    have hcreate : create ⟨1, 1, BitVec.ofNat 64 n⟩ 1 (BitVec.ofNat 64 n) =
        .ok ⟨1, BitVec.ofNat 64 n⟩ := by
      simpa [create] using hnonzero
    have hroundval : (BitVec.ofNat 64 (1 + n)).toNat = 1 + n := by
      rw [BitVec.toNat_ofNat]
      apply Nat.mod_eq_of_lt
      unfold MAX_SAFE_INTEGER at hmax
      omega
    have hround : requestQuicknetRandomness ⟨1, BitVec.ofNat 64 n⟩ ⟨fun _ => 0⟩
        (BitVec.ofNat 256 (GENESIS + 2)) = .ok (BitVec.ofNat 64 (1 + n)) := by
      apply request_ok_iff.mpr
      rw [hroundval, hnow, hlatest, hlead]
    have hroundne : BitVec.ofNat 64 (1 + n) ≠ 0 := by
      intro h
      have hzero := congrArg BitVec.toNat h
      rw [hroundval] at hzero
      exact absurd hzero (by simp)
    obtain ⟨time, htime, htimeval⟩ := roundScheduledTime_ok hroundne
    refine ⟨_, _, _, _, _, _, _, time, hlead, hcreate, hround, htime, ?_⟩
    rw [htimeval, hroundval, hnow]
    unfold scheduled PERIOD
    push_cast
    omega
  · intro d hd
    obtain ⟨account, expected, lead, consumer, registry, now, round, time, hminimum, hcreate,
      hround, htime, hd⟩ := hd
    obtain ⟨_, hle, hpos⟩ := create_ok hcreate
    have hlower : now.toNat + lead.toNat * PERIOD + 1 ≤ scheduled GENESIS PERIOD
        (latest GENESIS PERIOD now.toNat + lead.toNat) + PERIOD :=
      lead_le_scheduled period_pos hpos now.toNat
    have hminimum' : n ≤ lead.toNat := by
      rw [← hminimum]
      exact BitVec.le_def.mp hle
    rw [← committed_time hcreate hround htime] at hlower
    unfold PERIOD at hlower
    omega

theorem guaranteedLead_iff {n : PositiveSafeInteger} {seconds : ℤ} :
    GuaranteedLead n.1 seconds ↔ seconds = 3 * n.1 - 2 := by
  have hleast := guaranteedLead_isLeast n.2.1 n.2.2
  constructor
  · intro h
    exact h.unique hleast
  · intro h
    rw [h]
    exact hleast

/-- The derived lead is the one that the contracts give, and every threshold of the profile
lies within it. -/
structure TimingAgrees (parsed : ParsedChainProfile) : Prop where
  lead : GuaranteedLead parsed.profile.timing.minimumLeadRounds.1
    parsed.derivedTiming.minimumChainClockLeadSeconds
  violation : ∀ seconds, GuaranteedLead parsed.profile.timing.minimumLeadRounds.1 seconds →
    parsed.derivedTiming.timestampSkewViolationSeconds =
      seconds - parsed.profile.timing.timestampFreshnessReserveSeconds.1
  reserve : ∀ seconds, GuaranteedLead parsed.profile.timing.minimumLeadRounds.1 seconds →
    (parsed.profile.timing.timestampFreshnessReserveSeconds.1 : ℤ) < seconds
  skew : ∀ seconds, GuaranteedLead parsed.profile.timing.minimumLeadRounds.1 seconds →
    ∀ skew ∈ parsed.profile.timestampSkewSeconds, skew.warning < skew.critical ∧
      (skew.critical : ℤ) + parsed.profile.timing.timestampFreshnessReserveSeconds.1 < seconds

/-- The thresholds follow the derived lead, so only the lead can be wrong. -/
theorem timingAgrees_iff {parsed : ParsedChainProfile}
    (h : TimingChecked parsed.profile parsed.derivedTiming) :
    TimingAgrees parsed ↔ parsed.derivedTiming.minimumChainClockLeadSeconds =
      3 * parsed.profile.timing.minimumLeadRounds.1 - 2 := by
  have hviolation := h.violation
  have hpositive := h.positive
  constructor
  · intro hagrees
    exact guaranteedLead_iff.mp hagrees.lead
  · intro hlead
    refine ⟨guaranteedLead_iff.mpr hlead, ?_, ?_, ?_⟩
    · intro seconds hseconds
      rw [hviolation, hlead, guaranteedLead_iff.mp hseconds]
    · intro seconds hseconds
      have hseconds' := guaranteedLead_iff.mp hseconds
      omega
    · intro seconds hseconds skew hskew
      have hseconds' := guaranteedLead_iff.mp hseconds
      obtain ⟨hwarning, hcritical⟩ := h.skew skew hskew
      exact ⟨hwarning, by omega⟩

/-- The period cancels out of the lead of one round. -/
theorem derived_lead_iff {p n : ℤ} : p * n - (p - 1) = 3 * n - 2 ↔ p = 3 ∨ n = 1 := by
  have hfactor : p * n - (p - 1) - (3 * n - 2) = (p - 3) * (n - 1) := by ring
  constructor
  · intro h
    have hzero : (p - 3) * (n - 1) = 0 := by
      rw [← hfactor, h, sub_self]
    rcases mul_eq_zero.mp hzero with hp | hn
    · left
      omega
    · right
      omega
  · intro h
    apply sub_eq_zero.mp
    rw [hfactor]
    rcases h with rfl | rfl <;> ring

/-- The document declares the period of the contracts, or a lead of a single round. -/
def DeclaresContractPeriod (value : ProfileValue) : Prop :=
  value.declared "randomness" "periodSeconds" = .number (some 3) ∨
    value.declared "timing" "minimumLeadRounds" = .number (some 1)

/-! The mainnet profile, with a period and a critical skew. -/

/-- The document of the profile. -/
def mainnetYaml (periodSeconds critical : String) : Text :=
  text ("\n".intercalate ["profileVersion: 1", "network: robinhood-mainnet", "chainId: 4663",
    "onboardingTier: 2", "documentation: './robinhood-mainnet.md'",
    "randomness:", "  beacon: drand-quicknet", "  periodSeconds: " ++ periodSeconds,
    "timing:", "  minimumLeadRounds: 3", "  timestampFreshnessReserveSeconds: 3",
    "securityModel:", "  timestampAuthority: sequencer",
    "  historyIntegrityAssumption: trusted-sequencer",
    "  assumptionsSection: security-assumptions",
    "monitoring:", "  timestampSkewSeconds:", "    warning: 2", "    critical: " ++ critical,
    "chainAdapter:", "  type: arbitrum-nitro", "  config:", "    parentChain:",
    "      name: ethereum-mainnet", "      chainId: 1", "      slotSeconds: 12",
    "      requireTimeVariationSlotParity: true",
    "    rollup: '0x23A19d23e89166adedbDcB432518AB01e4272D94'",
    "    expectedSequencerInbox: '0xBd0D173EEb87D57A09521c24388a12789F33ba96'",
    "    expectedMaxTimeVariation:", "      delayBlocks: 28800", "      futureBlocks: 300",
    "      delaySeconds: 345600", "      futureSeconds: 3600",
    "    approvedWasmModuleRoots:", "      - consensusRelease: consensus-v61",
    "        root: '0xc10cd7ec6acaf1c441a3f6bd0900ad20f15855ba775a96f1939118cbc629dc97'",
    "deploymentManifest: '../../../deployments/robinhood-mainnet.json'"])

def recordOf (fields : List (String × ProfileValue)) : ProfileValue :=
  .record (fields.map fun field => (text field.1, field.2))

def numberOf (n : ℕ) : ProfileValue := .number (some n)

def stringOf (s : String) : ProfileValue := .string (text s)

/-- What the document parses to. -/
def mainnetValue (periodSeconds critical : ℕ) : ProfileValue :=
  recordOf [("profileVersion", numberOf 1), ("network", stringOf "robinhood-mainnet"),
    ("chainId", numberOf 4663), ("onboardingTier", numberOf 2),
    ("documentation", stringOf "./robinhood-mainnet.md"),
    ("randomness", recordOf [("beacon", stringOf "drand-quicknet"),
      ("periodSeconds", numberOf periodSeconds)]),
    ("timing", recordOf [("minimumLeadRounds", numberOf 3),
      ("timestampFreshnessReserveSeconds", numberOf 3)]),
    ("securityModel", recordOf [("timestampAuthority", stringOf "sequencer"),
      ("historyIntegrityAssumption", stringOf "trusted-sequencer"),
      ("assumptionsSection", stringOf "security-assumptions")]),
    ("monitoring", recordOf [("timestampSkewSeconds",
      recordOf [("warning", numberOf 2), ("critical", numberOf critical)])]),
    ("chainAdapter", recordOf [("type", stringOf "arbitrum-nitro"), ("config", recordOf [
      ("parentChain", recordOf [("name", stringOf "ethereum-mainnet"), ("chainId", numberOf 1),
        ("slotSeconds", numberOf 12), ("requireTimeVariationSlotParity", .bool true)]),
      ("rollup", stringOf "0x23A19d23e89166adedbDcB432518AB01e4272D94"),
      ("expectedSequencerInbox", stringOf "0xBd0D173EEb87D57A09521c24388a12789F33ba96"),
      ("expectedMaxTimeVariation", recordOf [("delayBlocks", numberOf 28800),
        ("futureBlocks", numberOf 300), ("delaySeconds", numberOf 345600),
        ("futureSeconds", numberOf 3600)]),
      ("approvedWasmModuleRoots", .array [recordOf [("consensusRelease", stringOf "consensus-v61"),
        ("root", stringOf "0xc10cd7ec6acaf1c441a3f6bd0900ad20f15855ba775a96f1939118cbc629dc97")]])])]),
    ("deploymentManifest", stringOf "../../../deployments/robinhood-mainnet.json")]

/-- The packages on this document: its two addresses are in their checksummed form. -/
def mainnetLibrary (periodSeconds critical : ℕ) : ProfileLibrary where
  parseYaml _ := .ok (mainnetValue periodSeconds critical)
  isAddress t := t.length == 42
  getAddress t := t
  isHex t := t.take 2 == text "0x"
  size t := (t.length - 2) / 2

/-- The timing of an accepted mainnet profile. -/
def mainnetProfile (periodSeconds : PositiveSafeInteger) (critical : ℕ) : ChainProfile where
  network := text "robinhood-mainnet"
  chainId := ⟨4663, by decide⟩
  onboardingTier := .two
  documentation := text "./robinhood-mainnet.md"
  randomness := ⟨periodSeconds⟩
  timing := ⟨⟨3, by decide⟩, ⟨3, by decide⟩⟩
  securityModel := ⟨.sequencer, .trustedSequencer, text "security-assumptions"⟩
  timestampSkewSeconds := some ⟨2, critical⟩
  chainAdapter := .arbitrumNitro {
    parentChain := ⟨text "ethereum-mainnet", 1, 12, true⟩
    rollup := text "0x23A19d23e89166adedbDcB432518AB01e4272D94"
    expectedSequencerInbox := text "0xBd0D173EEb87D57A09521c24388a12789F33ba96"
    expectedMaxTimeVariation := ⟨28800, 300, 345600, 3600⟩
    approvedWasmModuleRoots := [⟨text "consensus-v61",
      text "0xc10cd7ec6acaf1c441a3f6bd0900ad20f15855ba775a96f1939118cbc629dc97"⟩] }
  deploymentManifest := text "../../../deployments/robinhood-mainnet.json"

theorem parse_mainnet :
    parseChainProfileYaml (mainnetLibrary 3 3) (mainnetYaml "3" "3") =
      .ok ⟨mainnetProfile ⟨3, by decide⟩ 3, ⟨7, 4⟩⟩ := by rfl

theorem parse_long_period :
    parseChainProfileYaml (mainnetLibrary 30 50) (mainnetYaml "30" "50") =
      .ok ⟨mainnetProfile ⟨30, by decide⟩ 50, ⟨61, 58⟩⟩ := by rfl

/-- The timing of an accepted profile agrees with the contracts exactly where the document
declares their period, or where the period does not matter. -/
theorem profile_timing_iff {lib : ProfileLibrary} {yaml : Text} {value : ProfileValue}
    {parsed : ParsedChainProfile} (hyaml : lib.parseYaml yaml = .ok value)
    (h : parseChainProfileYaml lib yaml = .ok parsed) :
    TimingAgrees parsed ↔ DeclaresContractPeriod value := by
  obtain ⟨value', hvalue, hprofile, hrelationships⟩ := parseChainProfileYaml_ok h
  obtain rfl : value' = value := Except.ok.inj (hvalue.symm.trans hyaml)
  obtain ⟨hperiod, hrounds⟩ := readProfile_timing hprofile
  have hchecked := validateGenericRelationships_ok hrelationships
  rw [timingAgrees_iff hchecked, hchecked.lead, derived_lead_iff]
  unfold DeclaresContractPeriod
  rw [hperiod, hrounds]
  simp only [ProfileValue.number.injEq, Option.some.injEq]
  constructor
  · rintro (hp | hn)
    · left
      exact_mod_cast hp
    · right
      exact_mod_cast hn
  · rintro (hp | hn)
    · left
      exact_mod_cast hp
    · right
      exact_mod_cast hn

theorem mainnet_timing_agrees : TimingAgrees ⟨mainnetProfile ⟨3, by decide⟩ 3, ⟨7, 4⟩⟩ := by
  apply (profile_timing_iff rfl parse_mainnet).mpr
  left
  rfl

/-- The mainnet profile with a period of thirty seconds is accepted: its critical skew is
fifty seconds where the contracts leave a lead of seven. -/
theorem long_period_accepted :
    ∃ parsed, parseChainProfileYaml (mainnetLibrary 30 50) (mainnetYaml "30" "50") = .ok parsed ∧
      parsed.derivedTiming = ⟨61, 58⟩ ∧ parsed.profile.timestampSkewSeconds = some ⟨2, 50⟩ ∧
      GuaranteedLead parsed.profile.timing.minimumLeadRounds.1 7 ∧ ¬TimingAgrees parsed := by
  have hlead : GuaranteedLead 3 7 := guaranteedLead_isLeast (by decide) (by decide)
  refine ⟨_, parse_long_period, rfl, rfl, hlead, ?_⟩
  intro hagrees
  have hderived := guaranteedLead_iff.mp hagrees.lead
  exact absurd hderived (by decide)

end Quicknet.Security
