import Quicknet.Library.Attempt
import Quicknet.SecurityReport

/-! The security check of a network: what it reads of the two chains, and the checks that
it makes of the replies. -/
namespace Quicknet.Security

open Interaction
open Json (Text text decimal)

/-- The checks of a report. Those of an execution stand for the checks that it did not
reach. -/
inductive CheckId
  | deploymentRpcContext
  | registryRuntimeCodehash
  | verifierRuntimeCodehash
  | registryMinimumLeadRounds
  | parentRpcContext
  | sequencerInbox
  | maxTimeVariation
  | timestampEnvelopeExecution
  | wasmModuleRoot
  | consensusRootExecution
  deriving DecidableEq, Repr

def CheckId.text : CheckId → Text
  | .deploymentRpcContext => Json.text "deployment.rpc-context"
  | .registryRuntimeCodehash => Json.text "deployment.registry-runtime-codehash"
  | .verifierRuntimeCodehash => Json.text "deployment.verifier-runtime-codehash"
  | .registryMinimumLeadRounds => Json.text "deployment.registry-minimum-lead-rounds"
  | .parentRpcContext => Json.text "arbitrum-nitro.parent-rpc-context"
  | .sequencerInbox => Json.text "arbitrum-nitro.sequencer-inbox"
  | .maxTimeVariation => Json.text "arbitrum-nitro.max-time-variation"
  | .timestampEnvelopeExecution => Json.text "arbitrum-nitro.timestamp-envelope-execution"
  | .wasmModuleRoot => Json.text "arbitrum-nitro.wasm-module-root"
  | .consensusRootExecution => Json.text "arbitrum-nitro.consensus-root-execution"

/-- What the check uses of an artifact of the deployment. -/
structure DeploymentArtifact where
  address : Text
  runtimeCodehash : Text

structure DeploymentManifest where
  registry : DeploymentArtifact
  verifier : DeploymentArtifact

def ChainAdapterConfig.config : ChainAdapterConfig → ArbitrumNitroConfig
  | .arbitrumNitro config => config

structure LoadedChainProfile where
  profile : ChainProfile
  manifest : DeploymentManifest

structure RepositoryState where
  revision : Text
  dirty : Bool

structure CliArguments where
  network : Text
  rpcUrl : Text
  parentRpcUrl : Option Text
  reportPath : Option Text

structure ObservedMaxTimeVariation where
  delayBlocks : ℤ
  futureBlocks : ℤ
  delaySeconds : ℤ
  futureSeconds : ℤ
  deriving DecidableEq

/-- The latest block: a pending one has no number. -/
structure RpcBlock where
  number : Option ℤ
  timestamp : ℤ

inductive RpcRequest
  | chainId
  | latestBlock
  | code (address : Text) (blockNumber : ℤ)
  | minimumLeadRounds (address : Text) (blockNumber : ℤ)
  | sequencerInbox (rollup : Text) (blockNumber : ℤ)
  | maxTimeVariation (sequencerInbox : Text) (blockNumber : ℤ)
  | wasmModuleRoot (rollup : Text) (blockNumber : ℤ)
  deriving DecidableEq

def RpcRequest.Reply : RpcRequest → Type
  | .chainId => ℕ
  | .latestBlock => RpcBlock
  | .code _ _ => Option Text
  | .minimumLeadRounds _ _ => ℤ
  | .sequencerInbox _ _ => Text
  | .maxTimeVariation _ _ => ObservedMaxTimeVariation
  | .wasmModuleRoot _ _ => Text

/-- What is read, with the check that reads it. -/
inductive SecurityRead
  | loadChainProfile (network : Text)
  | repositoryState
  | verificationTime
  | rpc (check : CheckId) (rpcUrl : Text) (request : RpcRequest)
  | writeReport (path : Text)
  deriving DecidableEq

/-- A request fails with the message of its error, a timeout among them. -/
def SecurityRead.Reply : SecurityRead → Type
  | .loadChainProfile _ => LoadedChainProfile
  | .repositoryState => RepositoryState
  | .verificationTime => ℤ
  | .rpc _ _ request => Except Text request.Reply
  | .writeReport _ => Unit

abbrev SecurityProg (α : Type) := Prog SecurityRead.Reply Text α
abbrev SecurityLog := List (Exchange SecurityRead.Reply Text)

/-- What the checks use of viem, with the messages of what it throws. -/
structure SecurityLibrary where
  keccak256 : Text → Except Text Text
  isAddressEqual : Text → Text → Except Text Bool

/-! `core/client.ts`. -/

def createSecurityPublicClient (rpcUrl : Text) : Except Text Unit :=
  if rpcUrl.all isWhitespace then .error (text "rpcUrl must not be empty.") else .ok ()

structure ChainSnapshot where
  blockNumber : ℤ
  blockTimestamp : ℤ

def expectedChainId (expected : ℕ) (reply : Except Text ℕ) : Except Text ℕ := do
  let observed ← reply
  if observed = expected then return observed
  else .error (text "RPC chainId mismatch: expected=" ++ decimal expected ++ text " observed=" ++
    decimal observed ++ text ".")

def verifyRpcChainId (check : CheckId) (rpcUrl : Text) (expected : ℕ) : SecurityProg ℕ :=
  .readThen (.rpc check rpcUrl .chainId) (expectedChainId expected)

def snapshotOf (reply : Except Text RpcBlock) : Except Text ChainSnapshot := do
  let block ← reply
  match block.number with
  | some number => return ⟨number, block.timestamp⟩
  | none => .error (text "latest block does not have a block number.")

def pinChainSnapshot (check : CheckId) (rpcUrl : Text) : SecurityProg ChainSnapshot :=
  .readThen (.rpc check rpcUrl .latestBlock) snapshotOf

/-! `core/deployment.ts`. -/

section Checks

variable (lib : SecurityLibrary)

/-- What is made of the reply to `getCode`. Hashing it is outside of the `try`. -/
def runtimeCodehashResult (expected : Text) (reply : Except Text (Option Text)) :
    Except Text (CheckResult Text (Option Text)) :=
  match reply with
  | .error error => .ok (.error expected error)
  | .ok none => .ok (.drift expected none (text "address has no runtime code."))
  | .ok (some code) =>
    if code = text "0x" then .ok (.drift expected none (text "address has no runtime code."))
    else do
      let observed ← lib.keccak256 code
      if observed ≠ expected then
        return .drift expected (some observed) (text "runtime codehash does not match.")
      else return .match expected (some observed)

def checkRuntimeCodehash (check : CheckId) (rpcUrl : Text) (artifact : DeploymentArtifact)
    (blockNumber : ℤ) : SecurityProg (CheckResult Text (Option Text)) :=
  .readThen (.rpc check rpcUrl (.code artifact.address blockNumber))
    (runtimeCodehashResult lib artifact.runtimeCodehash)

def minimumLeadRoundsResult (expected : ℤ) (reply : Except Text ℤ) :
    Except Text (CheckResult ℤ ℤ) :=
  match reply with
  | .error error => .ok (.error expected error)
  | .ok observed =>
    if observed ≠ expected then
      .ok (.drift expected observed (text "minimumLeadRounds does not match."))
    else .ok (.match expected observed)

def checkMinimumLeadRounds (rpcUrl registryAddress : Text) (expected blockNumber : ℤ) :
    SecurityProg (CheckResult ℤ ℤ) :=
  .readThen (.rpc .registryMinimumLeadRounds rpcUrl (.minimumLeadRounds registryAddress blockNumber))
    (minimumLeadRoundsResult expected)

def skippedMinimumLeadRounds (expected : ℤ) : CheckResult ℤ ℤ :=
  .skipped expected (text "registry identity was not established.")

structure DeploymentChecks where
  registryRuntimeCodehash : CheckResult Text (Option Text)
  verifierRuntimeCodehash : CheckResult Text (Option Text)
  registryMinimumLeadRounds : CheckResult ℤ ℤ

structure DeploymentCheckResult where
  status : AggregateStatus
  observedChainId : ℕ
  snapshot : ChainSnapshot
  checks : DeploymentChecks

def aggregateDeploymentStatus (checks : DeploymentChecks) : AggregateStatus :=
  aggregateCheckStatuses [checks.registryRuntimeCodehash.status,
    checks.verifierRuntimeCodehash.status, checks.registryMinimumLeadRounds.status]

/-- The read that depends on the registry's identity. -/
def minimumLeadRoundsAfter (registry : CheckResult Text (Option Text)) (rpcUrl address : Text)
    (expected blockNumber : ℤ) : SecurityProg (CheckResult ℤ ℤ) :=
  if registry.status = .match then checkMinimumLeadRounds rpcUrl address expected blockNumber
  else return skippedMinimumLeadRounds expected

def checkDeployment (rpcUrl : Text) (loaded : LoadedChainProfile) :
    SecurityProg DeploymentCheckResult := do
  Prog.lift (createSecurityPublicClient rpcUrl)
  let observedChainId ← verifyRpcChainId .deploymentRpcContext rpcUrl loaded.profile.chainId.1
  let snapshot ← pinChainSnapshot .deploymentRpcContext rpcUrl
  let registry ← checkRuntimeCodehash lib .registryRuntimeCodehash rpcUrl
    loaded.manifest.registry snapshot.blockNumber
  let verifier ← checkRuntimeCodehash lib .verifierRuntimeCodehash rpcUrl
    loaded.manifest.verifier snapshot.blockNumber
  let lead ← minimumLeadRoundsAfter registry rpcUrl loaded.manifest.registry.address
    loaded.profile.timing.minimumLeadRounds.1 snapshot.blockNumber
  let checks : DeploymentChecks := ⟨registry, verifier, lead⟩
  return ⟨aggregateDeploymentStatus checks, observedChainId, snapshot, checks⟩

/-! `adapters/arbitrum-nitro/timestamp-envelope.ts`. -/

/-- Comparing the addresses is outside of the `try`. -/
def sequencerInboxResult (expected : Text) (reply : Except Text Text) :
    Except Text (CheckResult Text Text) :=
  match reply with
  | .error error => .ok (.error expected error)
  | .ok observed => do
    if ← lib.isAddressEqual observed expected then return .match expected observed
    else return .drift expected observed (text "Rollup sequencerInbox does not match.")

def checkSequencerInbox (rpcUrl rollup expected : Text) (blockNumber : ℤ) :
    SecurityProg (CheckResult Text Text) :=
  .readThen (.rpc .sequencerInbox rpcUrl (.sequencerInbox rollup blockNumber))
    (sequencerInboxResult lib expected)

def toObservedMaxTimeVariation (value : MaxTimeVariation) : ObservedMaxTimeVariation :=
  ⟨value.delayBlocks, value.futureBlocks, value.delaySeconds, value.futureSeconds⟩

def maxTimeVariationMatches (expected observed : ObservedMaxTimeVariation) : Bool :=
  observed.delayBlocks == expected.delayBlocks && observed.futureBlocks == expected.futureBlocks &&
    observed.delaySeconds == expected.delaySeconds &&
    observed.futureSeconds == expected.futureSeconds

def maxTimeVariationResult (expected : ObservedMaxTimeVariation)
    (reply : Except Text ObservedMaxTimeVariation) :
    Except Text (CheckResult ObservedMaxTimeVariation ObservedMaxTimeVariation) :=
  match reply with
  | .error error => .ok (.error expected error)
  | .ok observed =>
    if maxTimeVariationMatches expected observed then .ok (.match expected observed)
    else .ok (.drift expected observed (text "maxTimeVariation does not match."))

def checkMaxTimeVariation (rpcUrl sequencerInbox : Text) (expected : ObservedMaxTimeVariation)
    (blockNumber : ℤ) :
    SecurityProg (CheckResult ObservedMaxTimeVariation ObservedMaxTimeVariation) :=
  .readThen (.rpc .maxTimeVariation rpcUrl (.maxTimeVariation sequencerInbox blockNumber))
    (maxTimeVariationResult expected)

def skippedMaxTimeVariation (expected : ObservedMaxTimeVariation) :
    CheckResult ObservedMaxTimeVariation ObservedMaxTimeVariation :=
  .skipped expected (text "SequencerInbox identity was not established.")

structure TimestampEnvelopeChecks where
  sequencerInbox : CheckResult Text Text
  maxTimeVariation : CheckResult ObservedMaxTimeVariation ObservedMaxTimeVariation

/-- The read that depends on the inbox, at the address that was observed. -/
def maxTimeVariationAfter (sequencerInbox : CheckResult Text Text) (rpcUrl : Text)
    (expected : ObservedMaxTimeVariation) (blockNumber : ℤ) :
    SecurityProg (CheckResult ObservedMaxTimeVariation ObservedMaxTimeVariation) :=
  match sequencerInbox with
  | .match _ observed => checkMaxTimeVariation rpcUrl observed expected blockNumber
  | _ => return skippedMaxTimeVariation expected

def checkTimestampEnvelopeAtSnapshot (rpcUrl : Text) (snapshot : ChainSnapshot)
    (config : ArbitrumNitroConfig) : SecurityProg TimestampEnvelopeChecks := do
  let sequencerInbox ← checkSequencerInbox lib rpcUrl config.rollup config.expectedSequencerInbox
    snapshot.blockNumber
  let expected := toObservedMaxTimeVariation config.expectedMaxTimeVariation
  let maxTimeVariation ← maxTimeVariationAfter sequencerInbox rpcUrl expected snapshot.blockNumber
  return ⟨sequencerInbox, maxTimeVariation⟩

end Checks

/-! `adapters/arbitrum-nitro/consensus-root.ts`. -/

/-- The check, with the approved root that it matched. -/
structure ConsensusRootCheck where
  result : CheckResult (List ApprovedWasmModuleRoot) Text
  matched : Option ApprovedWasmModuleRoot

def findApprovedRoot (approvedRoots : List ApprovedWasmModuleRoot) (observed : Text) :
    Option ApprovedWasmModuleRoot :=
  approvedRoots.find? fun approved => approved.root == toLowerHex observed

def wasmModuleRootResult (expected : List ApprovedWasmModuleRoot) (reply : Except Text Text) :
    Except Text ConsensusRootCheck :=
  match reply with
  | .error error => .ok ⟨.error expected error, none⟩
  | .ok observed =>
    match findApprovedRoot expected observed with
    | none => .ok ⟨.drift expected observed
        (text "wasmModuleRoot is not in the approved root set."), none⟩
    | some matched => .ok ⟨.match expected observed, some matched⟩

/-- `checkConsensusRootAtSnapshot` adds nothing to it that is reported. -/
def checkWasmModuleRoot (rpcUrl : Text) (config : ArbitrumNitroConfig) (blockNumber : ℤ) :
    SecurityProg ConsensusRootCheck :=
  .readThen (.rpc .wasmModuleRoot rpcUrl (.wasmModuleRoot config.rollup blockNumber))
    (wasmModuleRootResult config.approvedWasmModuleRoots)

/-! `check.ts`. -/

def nullableStringValue : Option Text → ReportValue
  | none => .null
  | some value => .string value

def timeVariationValue (value : ObservedMaxTimeVariation) : ReportValue :=
  .record [(text "delayBlocks", .bigint value.delayBlocks),
    (text "futureBlocks", .bigint value.futureBlocks),
    (text "delaySeconds", .bigint value.delaySeconds),
    (text "futureSeconds", .bigint value.futureSeconds)]

/-- The variation of the configuration, whose members are numbers. -/
def configuredTimeVariationValue (value : MaxTimeVariation) : ReportValue :=
  .record [(text "delayBlocks", .number value.delayBlocks),
    (text "futureBlocks", .number value.futureBlocks),
    (text "delaySeconds", .number value.delaySeconds),
    (text "futureSeconds", .number value.futureSeconds)]

def approvedRootsValue (value : List ApprovedWasmModuleRoot) : ReportValue :=
  .array (value.map fun approved =>
    .record [(text "consensusRelease", .string approved.consensusRelease),
      (text "root", .string approved.root)])

section Report

variable {Expected Observed : Type}

def reportResult (expectedValue : Expected → ReportValue) (observedValue : Observed → ReportValue) :
    CheckResult Expected Observed → CheckResult ReportValue ReportValue
  | .match expected observed => .match (expectedValue expected) (observedValue observed)
  | .drift expected observed reason =>
    .drift (expectedValue expected) (observedValue observed) reason
  | .error expected error => .error (expectedValue expected) error
  | .skipped expected reason => .skipped (expectedValue expected) reason

def toVerificationCheck (id : CheckId) (observationIds : List Text)
    (check : CheckResult Expected Observed) (expectedValue : Expected → ReportValue)
    (observedValue : Observed → ReportValue) (details : Option ReportValue) : VerificationCheck :=
  ⟨id.text, observationIds, reportResult expectedValue observedValue check, details⟩

end Report

def executionErrorCheck (id : CheckId) (observationIds : List Text) (expected : ReportValue)
    (error : Text) : VerificationCheck :=
  ⟨id.text, observationIds, .error expected error, none⟩

def deploymentChecksToReportChecks (checks : DeploymentChecks) : List VerificationCheck :=
  [toVerificationCheck .registryRuntimeCodehash [text "l2"] checks.registryRuntimeCodehash
      .string nullableStringValue none,
    toVerificationCheck .verifierRuntimeCodehash [text "l2"] checks.verifierRuntimeCodehash
      .string nullableStringValue none,
    toVerificationCheck .registryMinimumLeadRounds [text "l2"] checks.registryMinimumLeadRounds
      .bigint .bigint none]

def timestampEnvelopeChecksToReportChecks (checks : TimestampEnvelopeChecks) :
    List VerificationCheck :=
  [toVerificationCheck .sequencerInbox [text "parent"] checks.sequencerInbox
      .string .string none,
    toVerificationCheck .maxTimeVariation [text "parent"] checks.maxTimeVariation
      timeVariationValue timeVariationValue none]

def consensusRootCheckToReportCheck (check : ConsensusRootCheck) : VerificationCheck :=
  toVerificationCheck .wasmModuleRoot [text "parent"] check.result approvedRootsValue .string
    (check.matched.map fun matched => .record [(text "matchedApprovedRoot",
      .record [(text "consensusRelease", .string matched.consensusRelease),
        (text "root", .string matched.root)])])

/-- What a stage adds to the report. -/
abbrev Findings := List VerificationObservation × List VerificationCheck

def deploymentFindings (loaded : LoadedChainProfile) :
    Except Text DeploymentCheckResult → Findings
  | .ok deployment =>
    ([⟨text "l2", deployment.observedChainId, deployment.snapshot.blockNumber,
      deployment.snapshot.blockTimestamp⟩], deploymentChecksToReportChecks deployment.checks)
  | .error error =>
    ([], [executionErrorCheck .deploymentRpcContext []
      (.record [(text "chainId", .number loaded.profile.chainId.1)]) error])

def envelopeFindings (config : ArbitrumNitroConfig) :
    Except Text TimestampEnvelopeChecks → List VerificationCheck
  | .ok timestampEnvelope => timestampEnvelopeChecksToReportChecks timestampEnvelope
  | .error error =>
    [executionErrorCheck .timestampEnvelopeExecution [text "parent"]
      (.record [(text "expectedSequencerInbox", .string config.expectedSequencerInbox),
        (text "expectedMaxTimeVariation",
          configuredTimeVariationValue config.expectedMaxTimeVariation)]) error]

def consensusRootFindings (config : ArbitrumNitroConfig) :
    Except Text ConsensusRootCheck → List VerificationCheck
  | .ok consensusRoot => [consensusRootCheckToReportCheck consensusRoot]
  | .error error =>
    [executionErrorCheck .consensusRootExecution [text "parent"]
      (approvedRootsValue config.approvedWasmModuleRoots) error]

section Run

variable (lib : SecurityLibrary)

def parentContext (parentRpcUrl : Text) (config : ArbitrumNitroConfig) :
    SecurityProg (ℕ × ChainSnapshot) := do
  let observedChainId ← verifyRpcChainId .parentRpcContext parentRpcUrl config.parentChain.chainId
  let snapshot ← pinChainSnapshot .parentRpcContext parentRpcUrl
  return (observedChainId, snapshot)

/-- The two executions at the parent's snapshot, unless its context failed. -/
def parentFindings (parentRpcUrl : Text) (config : ArbitrumNitroConfig) :
    Except Text (ℕ × ChainSnapshot) → SecurityProg Findings
  | .error error => return ([], [executionErrorCheck .parentRpcContext []
      (.record [(text "chainId", .number config.parentChain.chainId)]) error])
  | .ok (observedChainId, snapshot) => do
    let envelope ← (checkTimestampEnvelopeAtSnapshot lib parentRpcUrl snapshot config).attempt
    let root ← (checkWasmModuleRoot parentRpcUrl config snapshot.blockNumber).attempt
    return ([⟨text "parent", observedChainId, snapshot.blockNumber, snapshot.blockTimestamp⟩],
      envelopeFindings config envelope ++ consensusRootFindings config root)

def arbitrumNitroStage (parentRpcUrl : Text) (config : ArbitrumNitroConfig) :
    SecurityProg Findings := do
  Prog.lift (createSecurityPublicClient parentRpcUrl)
  let context ← (parentContext parentRpcUrl config).attempt
  parentFindings lib parentRpcUrl config context

/-- The parent's URL, which a profile of this adapter needs. -/
def requireParentRpcUrl (args : CliArguments) : Except Text Text :=
  match args.parentRpcUrl with
  | some parentRpcUrl => .ok parentRpcUrl
  | none => .error (text "--parent-rpc-url is required for arbitrum-nitro profiles.")

def requireNetwork (args : CliArguments) (loaded : LoadedChainProfile) : Except Text Unit :=
  if loaded.profile.network = args.network then .ok ()
  else .error (text "Profile network mismatch: expected " ++ args.network ++ text ", found " ++
    loaded.profile.network ++ text ".")

def requireRevision (before after : RepositoryState) : Except Text Unit :=
  if before.revision = after.revision then .ok ()
  else .error (text "Repository revision changed during verification.")

def runSecurityCheck (args : CliArguments) : SecurityProg VerificationReport := do
  let loaded : LoadedChainProfile ← Prog.ask (SecurityRead.loadChainProfile args.network)
  Prog.lift (requireNetwork args loaded)
  let parentRpcUrl ← Prog.lift (requireParentRpcUrl args)
  let before : RepositoryState ← Prog.ask SecurityRead.repositoryState
  let verificationTime : ℤ ← Prog.ask SecurityRead.verificationTime
  let deployment ← (checkDeployment lib args.rpcUrl loaded).attempt
  let parent ← arbitrumNitroStage lib parentRpcUrl loaded.profile.chainAdapter.config
  let after : RepositoryState ← Prog.ask SecurityRead.repositoryState
  Prog.lift (requireRevision before after)
  let findings := deploymentFindings loaded deployment
  Prog.lift (createVerificationReport {
    network := loaded.profile.network
    chainId := loaded.profile.chainId.1
    verificationTime := verificationTime
    repositoryRevision := before.revision
    repositoryDirty := before.dirty || after.dirty
    observations := findings.1 ++ parent.1
    checks := findings.2 ++ parent.2 })

def aggregateExitCode (report : VerificationReport) : ℕ :=
  match report.aggregateStatus with
  | .match => 0
  | .drift => 2
  | .error => 1

def writeReport (reportPath : Option Text) : SecurityProg Unit :=
  match reportPath with
  | some path => Prog.ask (SecurityRead.writeReport path)
  | none => return ()

/-- `main`, after its arguments are parsed. -/
def main (args : CliArguments) : SecurityProg ℕ := do
  let report ← runSecurityCheck lib args
  writeReport args.reportPath
  return aggregateExitCode report

def exitCode : Except Text ℕ → ℕ
  | .ok code => code
  | .error _ => 1

/-- The exit code of the process. -/
def runCli (args : CliArguments) : SecurityProg ℕ := do
  let outcome ← (main lib args).attempt
  return exitCode outcome

end Run

end Quicknet.Security
