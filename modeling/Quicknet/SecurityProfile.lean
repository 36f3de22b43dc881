import Quicknet.Journal
import Quicknet.Library.Json

/-! The security profile of a chain, as it is read from its YAML file. A value that was
read carries what its validation established. -/
namespace Quicknet.Security

open Json (Text text unit decimal)

/-- A value that the YAML parser returns, or a property that is missing. A number that is
not finite is `none`; a record has its own keys in their order. -/
inductive ProfileValue
  | undefined
  | null
  | bool (b : Bool)
  | number (value : Option ℚ)
  | string (t : Text)
  | array (elements : List ProfileValue)
  | record (fields : List (Text × ProfileValue))

inductive ProfileError
  | error (message : Text)
  /-- `unsupported chainAdapter.type: ` with the string of the value. -/
  | unsupportedAdapterType (type : ProfileValue)

abbrev Validated (α : Type) := Except ProfileError α

def profileError {α : Type} (message : Text) : Validated α := .error (.error message)

/-- The `if` that throws unless the condition holds. -/
def requireThat (holds : Bool) (message : Text) : Validated Unit :=
  if holds then .ok () else profileError message

/-- What the profile uses of the packages that it is read with. -/
structure ProfileLibrary where
  /-- The value, or the message of the error that is thrown. -/
  parseYaml : Text → Except Text ProfileValue
  isAddress : Text → Bool
  getAddress : Text → Text
  isHex : Text → Bool
  size : Text → ℕ

/-! `validation.ts`. -/

abbrev ProfileRecord := List (Text × ProfileValue)

def ProfileRecord.get (fields : ProfileRecord) (key : String) : ProfileValue :=
  (fields.lookup (text key)).getD .undefined

def requireRecord (value : ProfileValue) (path : Text) : Validated ProfileRecord :=
  match value with
  | .record fields => .ok fields
  | _ => profileError (path ++ text " must be an object.")

def requireString (value : ProfileValue) (path : Text) : Validated Text :=
  match value with
  | .string (c :: t) => .ok (c :: t)
  | _ => profileError (path ++ text " must be a non-empty string.")

abbrev PositiveSafeInteger := {n : ℕ // 0 < n ∧ n ≤ MAX_SAFE_INTEGER}

abbrev SafeInteger := {n : ℕ // n ≤ MAX_SAFE_INTEGER}

/-- `Number.isSafeInteger`, with the integer. -/
def safeInteger? (value : ProfileValue) : Option ℤ :=
  match value with
  | .number (some q) =>
    if q.den = 1 ∧ q.num.natAbs ≤ MAX_SAFE_INTEGER then some q.num else none
  | _ => none

def requirePositiveInteger (value : ProfileValue) (path : Text) : Validated PositiveSafeInteger :=
  match safeInteger? value with
  | some n =>
    if h : 0 < n.toNat ∧ n.toNat ≤ MAX_SAFE_INTEGER then .ok ⟨n.toNat, h⟩
    else profileError (path ++ text " must be a positive safe integer.")
  | none => profileError (path ++ text " must be a positive safe integer.")

def requireNonNegativeInteger (value : ProfileValue) (path : Text) : Validated SafeInteger :=
  match safeInteger? value with
  | some n =>
    if h : 0 ≤ n ∧ n.toNat ≤ MAX_SAFE_INTEGER then .ok ⟨n.toNat, h.2⟩
    else profileError (path ++ text " must be a non-negative safe integer.")
  | none => profileError (path ++ text " must be a non-negative safe integer.")

def requireBoolean (value : ProfileValue) (path : Text) : Validated Bool :=
  match value with
  | .bool b => .ok b
  | _ => profileError (path ++ text " must be a boolean.")

def assertOnlyKeys (fields : ProfileRecord) (allowed : List String) (path : Text) :
    Validated Unit :=
  match fields.find? fun field => !(allowed.map text).contains field.1 with
  | some (key, _) => profileError (path ++ text "." ++ key ++ text " is not supported.")
  | none => .ok ()

section Library

variable (lib : ProfileLibrary)

def requireAddress (value : ProfileValue) (path : Text) : Validated Text := do
  let address ← requireString value path
  if lib.isAddress address then return lib.getAddress address
  else profileError (path ++ text " must be an EVM address.")

/-- `toLowerCase` of a hex string, which has no other letters. -/
def toLowerHex (t : Text) : Text :=
  t.map fun c => if 0x41 ≤ c ∧ c ≤ 0x5a then c + 0x20 else c

def requireHex (value : ProfileValue) (path : Text) : Validated Text := do
  let hex ← requireString value path
  if lib.isHex hex then return toLowerHex hex
  else profileError (path ++ text " must be hex.")

def requireBytes32 (value : ProfileValue) (path : Text) : Validated Text := do
  let hex ← requireHex lib value path
  if lib.size hex = 32 then return hex
  else profileError (path ++ text " must be bytes32.")

end Library

/-! `adapters/arbitrum-nitro/profile.ts`. -/

structure MaxTimeVariation where
  delayBlocks : ℕ
  futureBlocks : ℕ
  delaySeconds : ℕ
  futureSeconds : ℕ
  deriving DecidableEq

structure ApprovedWasmModuleRoot where
  consensusRelease : Text
  root : Text
  deriving DecidableEq

structure ParentChain where
  name : Text
  chainId : ℕ
  slotSeconds : ℕ
  requireTimeVariationSlotParity : Bool
  deriving DecidableEq

structure ArbitrumNitroConfig where
  parentChain : ParentChain
  rollup : Text
  expectedSequencerInbox : Text
  expectedMaxTimeVariation : MaxTimeVariation
  approvedWasmModuleRoots : List ApprovedWasmModuleRoot
  deriving DecidableEq

def validateMaxTimeVariation (value : ProfileValue) : Validated MaxTimeVariation := do
  let path := text "chainAdapter.config.expectedMaxTimeVariation"
  let variation ← requireRecord value path
  assertOnlyKeys variation ["delayBlocks", "futureBlocks", "delaySeconds", "futureSeconds"] path
  let delayBlocks ← requireNonNegativeInteger (variation.get "delayBlocks")
    (path ++ text ".delayBlocks")
  let futureBlocks ← requireNonNegativeInteger (variation.get "futureBlocks")
    (path ++ text ".futureBlocks")
  let delaySeconds ← requireNonNegativeInteger (variation.get "delaySeconds")
    (path ++ text ".delaySeconds")
  let futureSeconds ← requireNonNegativeInteger (variation.get "futureSeconds")
    (path ++ text ".futureSeconds")
  return ⟨delayBlocks.1, futureBlocks.1, delaySeconds.1, futureSeconds.1⟩

section Library

variable (lib : ProfileLibrary)

/-- The loop over the entries, with those that it has read. -/
def validateWasmRootEntries (path : Text) (validated : List ApprovedWasmModuleRoot) :
    List ProfileValue → Validated (List ApprovedWasmModuleRoot)
  | [] => .ok validated
  | item :: rest => do
    let itemPath := path ++ text "[" ++ decimal validated.length ++ text "]"
    let entry ← requireRecord item itemPath
    assertOnlyKeys entry ["consensusRelease", "root"] itemPath
    let consensusRelease ← requireString (entry.get "consensusRelease")
      (itemPath ++ text ".consensusRelease")
    let root ← requireBytes32 lib (entry.get "root") (itemPath ++ text ".root")
    if (validated.map (·.consensusRelease)).contains consensusRelease then
      profileError (text "duplicate approved consensus release: " ++ consensusRelease)
    else if (validated.map (·.root)).contains root then
      profileError (text "duplicate approved WASM root: " ++ root)
    else validateWasmRootEntries path (validated ++ [⟨consensusRelease, root⟩]) rest

def validateApprovedWasmModuleRoots (value : ProfileValue) :
    Validated (List ApprovedWasmModuleRoot) :=
  let path := text "chainAdapter.config.approvedWasmModuleRoots"
  match value with
  | .array (item :: rest) => validateWasmRootEntries lib path [] (item :: rest)
  | _ => profileError (path ++ text " must be a non-empty array.")

/-- The two checks of the parity, of the delay and of the future bound. -/
def requireParity (kind : String) (blocks slotSeconds seconds : ℕ) : Validated Unit :=
  if blocks * slotSeconds = seconds then .ok ()
  else profileError (text kind ++ text "Blocks/" ++ text kind ++
    text "Seconds do not match parent-chain slot parity: " ++ decimal blocks ++ text " * " ++
    decimal slotSeconds ++ text " != " ++ decimal seconds)

def validateSlotParity (config : ArbitrumNitroConfig) : Validated Unit :=
  if config.parentChain.requireTimeVariationSlotParity then do
    let variation := config.expectedMaxTimeVariation
    requireParity "delay" variation.delayBlocks config.parentChain.slotSeconds
      variation.delaySeconds
    requireParity "future" variation.futureBlocks config.parentChain.slotSeconds
      variation.futureSeconds
  else .ok ()

def validateArbitrumNitroConfig (value : ProfileValue) : Validated ArbitrumNitroConfig := do
  let path := text "chainAdapter.config"
  let config ← requireRecord value path
  assertOnlyKeys config ["parentChain", "rollup", "expectedSequencerInbox",
    "expectedMaxTimeVariation", "approvedWasmModuleRoots"] path
  let parentPath := path ++ text ".parentChain"
  let parentChain ← requireRecord (config.get "parentChain") parentPath
  assertOnlyKeys parentChain ["name", "chainId", "slotSeconds", "requireTimeVariationSlotParity"]
    parentPath
  let name ← requireString (parentChain.get "name") (parentPath ++ text ".name")
  let chainId ← requirePositiveInteger (parentChain.get "chainId") (parentPath ++ text ".chainId")
  let slotSeconds ← requirePositiveInteger (parentChain.get "slotSeconds")
    (parentPath ++ text ".slotSeconds")
  let parity ← requireBoolean (parentChain.get "requireTimeVariationSlotParity")
    (parentPath ++ text ".requireTimeVariationSlotParity")
  let rollup ← requireAddress lib (config.get "rollup") (path ++ text ".rollup")
  let expectedSequencerInbox ← requireAddress lib (config.get "expectedSequencerInbox")
    (path ++ text ".expectedSequencerInbox")
  let variation ← validateMaxTimeVariation (config.get "expectedMaxTimeVariation")
  let roots ← validateApprovedWasmModuleRoots lib (config.get "approvedWasmModuleRoots")
  let validated : ArbitrumNitroConfig := {
    parentChain := ⟨name, chainId.1, slotSeconds.1, parity⟩
    rollup := rollup
    expectedSequencerInbox := expectedSequencerInbox
    expectedMaxTimeVariation := variation
    approvedWasmModuleRoots := roots }
  validateSlotParity validated
  return validated

end Library

/-! `core/profile.ts`. -/

inductive OnboardingTier
  | one
  | two
  | three
  deriving DecidableEq

inductive TimestampAuthority
  | sequencer
  | parentChainConsensus
  deriving DecidableEq

inductive HistoryIntegrityAssumption
  | trustedSequencer
  | parentChainPrecommitted
  deriving DecidableEq

inductive ChainAdapterConfig
  | arbitrumNitro (config : ArbitrumNitroConfig)
  deriving DecidableEq

structure TimestampSkewMonitoring where
  warning : ℕ
  critical : ℕ
  deriving DecidableEq

/-- `profile.randomness`, less the beacon: there is one. -/
structure ProfileRandomness where
  periodSeconds : PositiveSafeInteger
  deriving DecidableEq

structure ProfileTiming where
  minimumLeadRounds : PositiveSafeInteger
  timestampFreshnessReserveSeconds : SafeInteger
  deriving DecidableEq

structure SecurityModel where
  timestampAuthority : TimestampAuthority
  historyIntegrityAssumption : HistoryIntegrityAssumption
  assumptionsSection : Text
  deriving DecidableEq

/-- The profile, less its version, which is 1. -/
structure ChainProfile where
  network : Text
  chainId : PositiveSafeInteger
  onboardingTier : OnboardingTier
  documentation : Text
  randomness : ProfileRandomness
  timing : ProfileTiming
  securityModel : SecurityModel
  timestampSkewSeconds : Option TimestampSkewMonitoring
  chainAdapter : ChainAdapterConfig
  deploymentManifest : Text
  deriving DecidableEq

structure DerivedTiming where
  minimumChainClockLeadSeconds : ℤ
  timestampSkewViolationSeconds : ℤ
  deriving DecidableEq

structure ParsedChainProfile where
  profile : ChainProfile
  derivedTiming : DerivedTiming
  deriving DecidableEq

def ProfileValue.isNumber (value : ProfileValue) (n : ℚ) : Bool :=
  match value with
  | .number (some q) => q == n
  | _ => false

def ProfileValue.isString (value : ProfileValue) (s : String) : Bool :=
  match value with
  | .string t => t == text s
  | _ => false

def requireOnboardingTier (value : ProfileValue) : Validated OnboardingTier :=
  if value.isNumber 1 then .ok .one
  else if value.isNumber 2 then .ok .two
  else if value.isNumber 3 then .ok .three
  else profileError (text "onboardingTier must be one of 1, 2, or 3.")

/-- A string out of a set, with what it stands for. -/
def requireMember {α : Type} (members : List (String × α)) (value : ProfileValue) (path : Text) :
    Validated α := do
  let name ← requireString value path
  match (members.map fun member => (text member.1, member.2)).lookup name with
  | some member => return member
  | none => profileError (path ++ text " must be one of: " ++
      text (", ".intercalate (members.map (·.1))) ++ text ".")

def requireTimestampAuthority (value : ProfileValue) : Validated TimestampAuthority :=
  requireMember [("sequencer", .sequencer), ("parent-chain-consensus", .parentChainConsensus)]
    value (text "securityModel.timestampAuthority")

def requireHistoryIntegrityAssumption (value : ProfileValue) :
    Validated HistoryIntegrityAssumption :=
  requireMember [("trusted-sequencer", .trustedSequencer),
    ("parent-chain-precommitted", .parentChainPrecommitted)]
    value (text "securityModel.historyIntegrityAssumption")

def isAnchorCharacter (c : UInt16) : Bool :=
  (unit 'a' ≤ c && c ≤ unit 'z') || (unit '0' ≤ c && c ≤ unit '9') || c == unit '-'

def requireAnchorId (value : ProfileValue) (path : Text) : Validated Text := do
  let anchor ← requireString value path
  if anchor.all isAnchorCharacter then return anchor
  else profileError (path ++ text " must contain only lowercase letters, digits, and hyphens.")

/-- `isAbsolute` of POSIX paths. -/
def isAbsolute (filePath : Text) : Bool :=
  filePath.head? == some (unit '/')

def requireRelativePath (value : ProfileValue) (path : Text) : Validated Text := do
  let filePath ← requireString value path
  if isAbsolute filePath then profileError (path ++ text " must be a relative path.")
  else return filePath

def validateTimestampSkewMonitoring (value : ProfileValue) : Validated TimestampSkewMonitoring := do
  let path := text "monitoring.timestampSkewSeconds"
  let monitoring ← requireRecord value path
  assertOnlyKeys monitoring ["warning", "critical"] path
  let warning ← requireNonNegativeInteger (monitoring.get "warning") (path ++ text ".warning")
  let critical ← requireNonNegativeInteger (monitoring.get "critical") (path ++ text ".critical")
  return ⟨warning.1, critical.1⟩

def toSafeInteger (value : ℤ) (path : Text) : Validated ℤ :=
  if value < -MAX_SAFE_INTEGER ∨ (MAX_SAFE_INTEGER : ℤ) < value then
    profileError (path ++ text " exceeds the safe integer range.")
  else .ok value

def deriveTiming (randomness : ProfileRandomness) (timing : ProfileTiming) :
    Validated DerivedTiming := do
  let periodSeconds : ℤ := randomness.periodSeconds.1
  let minimumLeadRounds : ℤ := timing.minimumLeadRounds.1
  let reserveSeconds : ℤ := timing.timestampFreshnessReserveSeconds.1
  let minimumChainClockLeadSeconds := periodSeconds * minimumLeadRounds - (periodSeconds - 1)
  let timestampSkewViolationSeconds := minimumChainClockLeadSeconds - reserveSeconds
  let lead ← toSafeInteger minimumChainClockLeadSeconds (text "minimumChainClockLeadSeconds")
  let violation ← toSafeInteger timestampSkewViolationSeconds
    (text "timestampSkewViolationSeconds")
  return ⟨lead, violation⟩

def validateSecurityModelRelationships (model : SecurityModel) : Validated Unit :=
  match model.timestampAuthority, model.historyIntegrityAssumption with
  | .sequencer, .parentChainPrecommitted =>
    profileError (text ("securityModel.historyIntegrityAssumption must be trusted-sequencer " ++
      "when timestampAuthority is sequencer."))
  | .parentChainConsensus, .trustedSequencer =>
    profileError (text ("securityModel.historyIntegrityAssumption must be " ++
      "parent-chain-precommitted when timestampAuthority is parent-chain-consensus."))
  | _, _ => .ok ()

/-- The thresholds of the monitoring, against the derived violation. -/
def validateSkewThresholds (skew : TimestampSkewMonitoring) (violation : ℤ) : Validated Unit := do
  requireThat (skew.warning < skew.critical) (text "timestamp skew warning must be below critical.")
  requireThat (skew.critical < violation)
    (text "timestamp skew critical must be below derived violation threshold (" ++
      decimal violation.toNat ++ text "s).")

def validateSkew (profile : ChainProfile) (violation : ℤ) : Validated Unit :=
  match profile.timestampSkewSeconds with
  | none => requireThat (profile.securityModel.timestampAuthority != .sequencer)
      (text "monitoring.timestampSkewSeconds is required when timestampAuthority is sequencer.")
  | some skew => validateSkewThresholds skew violation

def validateGenericRelationships (profile : ChainProfile) : Validated DerivedTiming := do
  validateSecurityModelRelationships profile.securityModel
  let derivedTiming ← deriveTiming profile.randomness profile.timing
  requireThat (0 < derivedTiming.timestampSkewViolationSeconds)
    (text ("timing.timestampFreshnessReserveSeconds must be smaller than the minimum " ++
      "chain-clock lead."))
  validateSkew profile derivedTiming.timestampSkewViolationSeconds
  return derivedTiming

section Library

variable (lib : ProfileLibrary)

def validateChainAdapter (value : ProfileValue) : Validated ChainAdapterConfig := do
  let path := text "chainAdapter"
  let chainAdapter ← requireRecord value path
  assertOnlyKeys chainAdapter ["type", "config"] path
  if (chainAdapter.get "type").isString "arbitrum-nitro" then do
    let config ← validateArbitrumNitroConfig lib (chainAdapter.get "config")
    return .arbitrumNitro config
  else .error (.unsupportedAdapterType (chainAdapter.get "type"))

/-- The monitoring is optional. -/
def readMonitoring (value : ProfileValue) : Validated (Option TimestampSkewMonitoring) :=
  match value with
  | .undefined => .ok none
  | skew => do
    let validated ← validateTimestampSkewMonitoring skew
    return some validated

/-- `validateProfileConfig` as far as the profile it builds. -/
def readProfile (value : ProfileValue) : Validated ChainProfile := do
  let root ← requireRecord value (text "profile")
  assertOnlyKeys root ["profileVersion", "network", "chainId", "onboardingTier", "documentation",
    "randomness", "timing", "securityModel", "monitoring", "chainAdapter", "deploymentManifest"]
    (text "profile")
  requireThat ((root.get "profileVersion").isNumber 1) (text "profileVersion must be 1.")
  let randomness ← requireRecord (root.get "randomness") (text "randomness")
  assertOnlyKeys randomness ["beacon", "periodSeconds"] (text "randomness")
  requireThat ((randomness.get "beacon").isString "drand-quicknet")
    (text "randomness.beacon must be drand-quicknet.")
  let timing ← requireRecord (root.get "timing") (text "timing")
  assertOnlyKeys timing ["minimumLeadRounds", "timestampFreshnessReserveSeconds"] (text "timing")
  let securityModel ← requireRecord (root.get "securityModel") (text "securityModel")
  assertOnlyKeys securityModel ["timestampAuthority", "historyIntegrityAssumption",
    "assumptionsSection"] (text "securityModel")
  let monitoring ← requireRecord (root.get "monitoring") (text "monitoring")
  assertOnlyKeys monitoring ["timestampSkewSeconds"] (text "monitoring")
  let timestampSkewSeconds ← readMonitoring (monitoring.get "timestampSkewSeconds")
  let network ← requireString (root.get "network") (text "network")
  let chainId ← requirePositiveInteger (root.get "chainId") (text "chainId")
  let onboardingTier ← requireOnboardingTier (root.get "onboardingTier")
  let documentation ← requireRelativePath (root.get "documentation") (text "documentation")
  let periodSeconds ← requirePositiveInteger (randomness.get "periodSeconds")
    (text "randomness.periodSeconds")
  let minimumLeadRounds ← requirePositiveInteger (timing.get "minimumLeadRounds")
    (text "timing.minimumLeadRounds")
  let reserve ← requireNonNegativeInteger (timing.get "timestampFreshnessReserveSeconds")
    (text "timing.timestampFreshnessReserveSeconds")
  let timestampAuthority ← requireTimestampAuthority (securityModel.get "timestampAuthority")
  let historyIntegrityAssumption ← requireHistoryIntegrityAssumption
    (securityModel.get "historyIntegrityAssumption")
  let assumptionsSection ← requireAnchorId (securityModel.get "assumptionsSection")
    (text "securityModel.assumptionsSection")
  let chainAdapter ← validateChainAdapter lib (root.get "chainAdapter")
  let deploymentManifest ← requireRelativePath (root.get "deploymentManifest")
    (text "deploymentManifest")
  return {
    network := network
    chainId := chainId
    onboardingTier := onboardingTier
    documentation := documentation
    randomness := ⟨periodSeconds⟩
    timing := ⟨minimumLeadRounds, reserve⟩
    securityModel := ⟨timestampAuthority, historyIntegrityAssumption, assumptionsSection⟩
    timestampSkewSeconds := timestampSkewSeconds
    chainAdapter := chainAdapter
    deploymentManifest := deploymentManifest }

def validateProfileConfig (value : ProfileValue) : Validated ParsedChainProfile := do
  let profile ← readProfile lib value
  let derivedTiming ← validateGenericRelationships profile
  return ⟨profile, derivedTiming⟩

def parseChainProfileYaml (yaml : Text) : Validated ParsedChainProfile :=
  match lib.parseYaml yaml with
  | .error message => profileError (text "profile contains invalid YAML: " ++ message)
  | .ok parsed => validateProfileConfig lib parsed

end Library

/-! What an accepted profile was read from. -/

/-- A property of a section of the document. -/
def ProfileValue.declared (value : ProfileValue) (part key : String) : ProfileValue :=
  match value with
  | .record root =>
    match ProfileRecord.get root part with
    | .record fields => ProfileRecord.get fields key
    | _ => .undefined
  | _ => .undefined

theorem except_bind_ok_iff {ε α β : Type} {x : Except ε α} {f : α → Except ε β} {b : β} :
    x >>= f = .ok b ↔ ∃ a, x = .ok a ∧ f a = .ok b := by
  cases x with
  | error e => exact ⟨fun h => (by cases h), fun ⟨a, ha, _⟩ => (by cases ha)⟩
  | ok a =>
    constructor
    · intro h
      exact ⟨a, rfl, h⟩
    · intro h
      obtain ⟨a', ha, hf⟩ := h
      cases ha
      exact hf

theorem requireRecord_ok {value : ProfileValue} {path : Text} {fields : ProfileRecord}
    (h : requireRecord value path = .ok fields) : value = .record fields := by
  cases value with
  | record fields' =>
    cases h
    rfl
  | _ => cases h

/-- The number that was accepted is the one that stands there. -/
theorem requirePositiveInteger_ok {value : ProfileValue} {path : Text} {n : PositiveSafeInteger}
    (h : requirePositiveInteger value path = .ok n) : value = .number (some (n.1 : ℚ)) := by
  unfold requirePositiveInteger at h
  match value with
  | .undefined | .null | .bool _ | .string _ | .array _ | .record _ | .number none => cases h
  | .number (some q) =>
    by_cases hsafe : q.den = 1 ∧ q.num.natAbs ≤ MAX_SAFE_INTEGER
    · have hread : safeInteger? (.number (some q)) = some q.num := if_pos hsafe
      rw [hread] at h
      by_cases hpos : 0 < q.num.toNat ∧ q.num.toNat ≤ MAX_SAFE_INTEGER
      · have hn : (⟨q.num.toNat, hpos⟩ : PositiveSafeInteger) = n := by
          simp only [dif_pos hpos] at h
          exact Except.ok.inj h
        have hcast : ((q.num.toNat : ℕ) : ℤ) = q.num := by omega
        subst hn
        congr 2
        calc q = (q.num : ℚ) := (Rat.coe_int_num_of_den_eq_one hsafe.1).symm
          _ = ((q.num.toNat : ℕ) : ℚ) := by
            rw [← Int.cast_natCast, hcast]
      · simp only [dif_neg hpos] at h
        cases h
    · have hread : safeInteger? (.number (some q)) = none := if_neg hsafe
      rw [hread] at h
      cases h

/-- The timing of the profile is what the document declares. -/
theorem readProfile_timing {lib : ProfileLibrary} {value : ProfileValue} {profile : ChainProfile}
    (h : readProfile lib value = .ok profile) :
    value.declared "randomness" "periodSeconds" =
      .number (some (profile.randomness.periodSeconds.1 : ℚ)) ∧
    value.declared "timing" "minimumLeadRounds" =
      .number (some (profile.timing.minimumLeadRounds.1 : ℚ)) := by
  unfold readProfile at h
  simp only [except_bind_ok_iff] at h
  obtain ⟨root, hroot, _, _, _, _, randomness, hrandomness, _, _, _, _, timing, htiming, _, _,
    _, _, _, _, _, _, _, _, _, _, _, _, _, _, _, _, _, _, period, hperiod, lead, hlead, _, _,
    _, _, _, _, _, _, _, _, _, _, hprofile⟩ := h
  cases hprofile
  have hvalue := requireRecord_ok hroot
  subst hvalue
  have hrandomness' := requireRecord_ok hrandomness
  have htiming' := requireRecord_ok htiming
  constructor
  · simp only [ProfileValue.declared, hrandomness']
    exact requirePositiveInteger_ok hperiod
  · simp only [ProfileValue.declared, htiming']
    exact requirePositiveInteger_ok hlead

theorem parseChainProfileYaml_ok {lib : ProfileLibrary} {yaml : Text}
    {parsed : ParsedChainProfile} (h : parseChainProfileYaml lib yaml = .ok parsed) :
    ∃ value, lib.parseYaml yaml = .ok value ∧ readProfile lib value = .ok parsed.profile ∧
      validateGenericRelationships parsed.profile = .ok parsed.derivedTiming := by
  unfold parseChainProfileYaml at h
  cases hvalue : lib.parseYaml yaml with
  | error message =>
    rw [hvalue] at h
    cases h
  | ok value =>
    simp only [hvalue, validateProfileConfig, except_bind_ok_iff] at h
    obtain ⟨profile, hprofile, derivedTiming, hderived, hparsed⟩ := h
    cases hparsed
    exact ⟨value, rfl, hprofile, hderived⟩

theorem requireThat_ok {holds : Bool} {message : Text} {u : Unit}
    (h : requireThat holds message = .ok u) : holds = true := by
  cases holds with
  | true => rfl
  | false => cases h

theorem toSafeInteger_ok {value n : ℤ} {path : Text} (h : toSafeInteger value path = .ok n) :
    n = value := by
  unfold toSafeInteger profileError at h
  split_ifs at h
  exact (Except.ok.inj h).symm

/-- What holds among the thresholds of an accepted profile. -/
structure TimingChecked (profile : ChainProfile) (timing : DerivedTiming) : Prop where
  lead : timing.minimumChainClockLeadSeconds =
    profile.randomness.periodSeconds.1 * profile.timing.minimumLeadRounds.1 -
      (profile.randomness.periodSeconds.1 - 1)
  violation : timing.timestampSkewViolationSeconds =
    timing.minimumChainClockLeadSeconds - profile.timing.timestampFreshnessReserveSeconds.1
  positive : 0 < timing.timestampSkewViolationSeconds
  skew : ∀ skew ∈ profile.timestampSkewSeconds,
    skew.warning < skew.critical ∧ (skew.critical : ℤ) < timing.timestampSkewViolationSeconds

theorem validateSkewThresholds_ok {skew : TimestampSkewMonitoring} {violation : ℤ} {u : Unit}
    (h : validateSkewThresholds skew violation = .ok u) :
    skew.warning < skew.critical ∧ (skew.critical : ℤ) < violation := by
  obtain ⟨_, hwarning, hcritical⟩ := except_bind_ok_iff.mp h
  exact ⟨of_decide_eq_true (requireThat_ok hwarning),
    of_decide_eq_true (requireThat_ok hcritical)⟩

theorem deriveTiming_ok {randomness : ProfileRandomness} {timing : ProfileTiming}
    {derived : DerivedTiming} (h : deriveTiming randomness timing = .ok derived) :
    derived.minimumChainClockLeadSeconds =
      randomness.periodSeconds.1 * timing.minimumLeadRounds.1 - (randomness.periodSeconds.1 - 1) ∧
    derived.timestampSkewViolationSeconds =
      derived.minimumChainClockLeadSeconds - timing.timestampFreshnessReserveSeconds.1 := by
  unfold deriveTiming at h
  simp only [except_bind_ok_iff] at h
  obtain ⟨lead, hlead, violation, hviolation, hderived⟩ := h
  cases hderived
  have hlead' := toSafeInteger_ok hlead
  have hviolation' := toSafeInteger_ok hviolation
  exact ⟨hlead', by rw [hviolation', hlead']⟩

theorem validateGenericRelationships_ok {profile : ChainProfile} {timing : DerivedTiming}
    (h : validateGenericRelationships profile = .ok timing) : TimingChecked profile timing := by
  unfold validateGenericRelationships at h
  simp only [except_bind_ok_iff] at h
  obtain ⟨_, _, derived, hderived, _, hpositive, _, hskew, hpure⟩ := h
  cases hpure
  obtain ⟨hlead, hviolation⟩ := deriveTiming_ok hderived
  refine ⟨hlead, hviolation, of_decide_eq_true (requireThat_ok hpositive), ?_⟩
  intro skew hmem
  unfold validateSkew at hskew
  rw [Option.mem_def.mp hmem] at hskew
  exact validateSkewThresholds_ok hskew

end Quicknet.Security
