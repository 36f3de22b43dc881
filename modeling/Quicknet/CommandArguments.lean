import Quicknet.BeaconWork
import Quicknet.CheckpointText
import Quicknet.Library.ArgumentScan

/-! The command line. The parsers of the commands are one loop over the arguments with a step
of their own, and each accepts the spellings of its command in any order of the options. -/
namespace Quicknet.Cli
open Json (Text text)
open ArgumentScan (scan Item spelled Regular Accepts)
open Quicknet.Daemon (isDecimalInteger)

inductive UsageCode
  | unknownCommand
  | unknownArgument
  | duplicateApply
  | duplicateRound
  | duplicateNetwork
  | duplicateNetworkConfig
  | duplicateStatusOption
  | invalidStatusConfig
  | missingRoundValue
  | missingNetworkValue
  | missingNetworkConfigValue
  | missingNetwork
  | missingRound
  | missingStatusChainId
  | missingStatusOptionValue
  | missingStatusSigner
  | missingStatusSource
  | conflictingNetwork
  | invalidRound
  | zeroRound
  | roundOverflow
  | unsupportedNetwork
  deriving DecidableEq

inductive RelayerNetworkPreset
  | robinhoodTestnet
  deriving DecidableEq

def RelayerNetworkPreset.name : RelayerNetworkPreset → Text
  | .robinhoodTestnet => text "robinhood-testnet"

inductive NetworkSource
  | preset (network : RelayerNetworkPreset)
  | custom (configFile : Text)
  deriving DecidableEq

inductive StatusConfig
  | journal (identity : IdentityText)
  | daemonSnapshot (identity : IdentityText) (maxAgeMs : ℕ)
  deriving DecidableEq

inductive CommandArguments
  | importRound (source : NetworkSource) (round : ℕ)
  | importWhenAvailable (source : NetworkSource) (round : ℕ)
  | daemon (source : NetworkSource)
  | syncNonce (source : NetworkSource) (apply : Bool)
  | status (config : StatusConfig)
  | daemonHelp
  | help
  deriving DecidableEq

/-! Values. -/

def parseRelayerNetworkPreset (value : Text) : Except UsageCode RelayerNetworkPreset :=
  if value = RelayerNetworkPreset.name .robinhoodTestnet then .ok .robinhoodTestnet
  else .error .unsupportedNetwork

def parseRound (value : Text) : Except UsageCode ℕ :=
  if value.isEmpty || !isDecimalInteger value then .error .invalidRound
  else if Json.decimalValue value ≤ 0 then .error .zeroRound
  else if MAX_UINT64 < Json.decimalValue value then .error .roundOverflow
  else .ok (Json.decimalValue value)

/-- `Number` of a longer numeral rounds to a number that is not safe either. -/
def positiveDecimal (input : Text) (message : String) : Except String ℕ :=
  if input.isEmpty || !isDecimalInteger input then .error message
  else if 0 < Json.decimalValue input ∧ Json.decimalValue input ≤ MAX_SAFE_INTEGER then
    .ok (Json.decimalValue input)
  else .error message

/-! Options of the commands that name a network. -/

def networkFlag : Text := text "--network"
def networkConfigFlag : Text := text "--network-config"
def roundFlag : Text := text "--round"
def applyFlag : Text := text "--apply"

/-- `none` where the argument selects no network. -/
def parseNetworkSourceArgument (argument : Text) (value : Option Text)
    (currentSource : Option NetworkSource) : Except UsageCode (Option NetworkSource) :=
  if argument ≠ networkFlag ∧ argument ≠ networkConfigFlag then .ok none
  else
    match currentSource, value with
    | some (.preset _), _ =>
      if argument = networkFlag then .error .duplicateNetwork else .error .conflictingNetwork
    | some (.custom _), _ =>
      if argument = networkConfigFlag then .error .duplicateNetworkConfig
      else .error .conflictingNetwork
    | none, none =>
      if argument = networkFlag then .error .missingNetworkValue
      else .error .missingNetworkConfigValue
    | none, some value =>
      if argument = networkFlag then do
        let network ← parseRelayerNetworkPreset value
        return some (.preset network)
      else .ok (some (.custom value))

structure RoundCommandOptions where
  source : NetworkSource
  round : ℕ

/-- The body of the loop of `parseRoundCommandOptions`. -/
def roundCommandStep (s : Option NetworkSource × Option ℕ) (argument : Text) (value : Option Text) :
    Except UsageCode ((Option NetworkSource × Option ℕ) × Bool) := do
  match ← parseNetworkSourceArgument argument value s.1 with
  | some source => return ((some source, s.2), true)
  | none =>
    if argument = roundFlag then
      if s.2.isSome then throw .duplicateRound
      else
        match value with
        | none => throw .missingRoundValue
        | some value => return ((s.1, some (← parseRound value)), true)
    else throw .unknownArgument

def parseRoundCommandOptions (args : List Text) : Except UsageCode RoundCommandOptions := do
  let (source, round) ← scan roundCommandStep (none, none) args
  match source, round with
  | none, _ => throw .missingNetwork
  | some _, none => throw .missingRound
  | some source, some round => return ⟨source, round⟩

def parseImportArguments (args : List Text) : Except UsageCode CommandArguments := do
  let parsed ← parseRoundCommandOptions args
  return .importRound parsed.source parsed.round

def parseImportWhenAvailableArguments (args : List Text) : Except UsageCode CommandArguments := do
  let parsed ← parseRoundCommandOptions args
  return .importWhenAvailable parsed.source parsed.round

/-- `none` ends the loop with the help command. -/
def daemonStep (source : Option NetworkSource) (argument : Text) (value : Option Text) :
    Except (Option UsageCode) (Option NetworkSource × Bool) :=
  if argument = text "--help" ∨ argument = text "-h" then .error none
  else
    match parseNetworkSourceArgument argument value source with
    | .error code => .error (some code)
    | .ok (some source) => .ok (some source, true)
    | .ok none => .error (some .unknownArgument)

def parseDaemonArguments (args : List Text) : Except UsageCode CommandArguments :=
  match scan daemonStep none args with
  | .error none => .ok .daemonHelp
  | .error (some code) => .error code
  | .ok none => .error .missingNetwork
  | .ok (some source) => .ok (.daemon source)

def syncNonceStep (s : Option NetworkSource × Bool) (argument : Text) (value : Option Text) :
    Except UsageCode ((Option NetworkSource × Bool) × Bool) := do
  match ← parseNetworkSourceArgument argument value s.1 with
  | some source => return ((some source, s.2), true)
  | none =>
    if argument = applyFlag then
      if s.2 then throw .duplicateApply else return ((s.1, true), false)
    else throw .unknownArgument

def parseSyncNonceArguments (args : List Text) : Except UsageCode CommandArguments := do
  let (source, apply) ← scan syncNonceStep (none, false) args
  match source with
  | none => throw .missingNetwork
  | some source => return .syncNonce source apply

/-! The status command. -/

inductive StatusOption
  | chainId
  | signer
  | source
  | maxAgeMs
  deriving DecidableEq

def StatusOption.flag : StatusOption → Text
  | .chainId => text "--chain-id"
  | .signer => text "--signer"
  | .source => text "--source"
  | .maxAgeMs => text "--max-age-ms"

/-- `isStatusOption`, with the option that it is. -/
def statusOption (value : Text) : Option StatusOption :=
  [StatusOption.chainId, .signer, .source, .maxAgeMs].find? fun option => option.flag == value

/-- The text starts with the two dashes of an option. -/
def startsWithDashes (value : Text) : Bool := decide (text "--" <+: value)

structure StatusConfigInput where
  chainId : Text
  signer : Text
  source : Text
  maxAgeMs : Option Text

def DEFAULT_STATUS_MAX_AGE_MS : ℕ := 120000

def parseStatusConfig (input : StatusConfigInput) : Except String StatusConfig := do
  let chainId ← positiveDecimal input.chainId "Invalid status chain ID."
  if (readFixedHex 20 input.signer).isNone then throw "Invalid status signer."
  else
    let identity : IdentityText := ⟨chainId, input.signer⟩
    if input.source = text "journal" then
      if input.maxAgeMs.isSome then
        throw "Snapshot maximum age is not applicable to journal status."
      else return .journal identity
    else if input.source ≠ text "daemon-snapshot" then throw "Invalid status source."
    else
      match input.maxAgeMs with
      | none => return .daemonSnapshot identity DEFAULT_STATUS_MAX_AGE_MS
      | some age =>
        return .daemonSnapshot identity
          (← positiveDecimal age "Invalid daemon snapshot maximum age.")

/-- The body of the loop of `parseStatusArguments`. -/
def statusStep (values : List (StatusOption × Text)) (argument : Text) (value : Option Text) :
    Except UsageCode (List (StatusOption × Text) × Bool) :=
  match statusOption argument with
  | none => .error .unknownArgument
  | some option =>
    if (values.lookup option).isSome then .error .duplicateStatusOption
    else
      match value with
      | none => .error .missingStatusOptionValue
      | some value =>
        if startsWithDashes value then .error .missingStatusOptionValue
        else .ok (values ++ [(option, value)], true)

def statusConfigOf (values : List (StatusOption × Text)) : Except UsageCode CommandArguments :=
  match values.lookup .chainId, values.lookup .signer, values.lookup .source with
  | none, _, _ => .error .missingStatusChainId
  | some _, none, _ => .error .missingStatusSigner
  | some _, some _, none => .error .missingStatusSource
  | some chainId, some signer, some source =>
    match parseStatusConfig ⟨chainId, signer, source, values.lookup .maxAgeMs⟩ with
    | .error _ => .error .invalidStatusConfig
    | .ok config => .ok (.status config)

def parseStatusArguments (args : List Text) : Except UsageCode CommandArguments := do
  statusConfigOf (← scan statusStep [] args)

/-! Commands. -/

def helpRequested (args : List Text) : Bool := args.contains (text "--help") || args.contains (text "-h")

def parseCommandArguments (args : List Text) : Except UsageCode CommandArguments :=
  if helpRequested args then
    .ok (if args.head? = some (text "daemon") then .daemonHelp else .help)
  else
    match args with
    | [] => .ok .help
    | command :: commandArgs =>
      if command = text "help" then .ok .help
      else if command = text "import" then parseImportArguments commandArgs
      else if command = text "import-when-available" then
        parseImportWhenAvailableArguments commandArgs
      else if command = text "daemon" then parseDaemonArguments commandArgs
      else if command = text "sync-nonce" then parseSyncNonceArguments commandArgs
      else if command = text "status" then parseStatusArguments commandArgs
      else .error .unknownCommand

/-- `normalizeArguments` of the entry point. -/
def normalizeArguments (args : List Text) : List Text :=
  if args.head? = some (text "--") then args.drop 1 else args

end Quicknet.Cli
