import Quicknet.ProfileTiming
import Quicknet.SecurityCheck

/-! A security check certifies only what it read: the aggregate of its checks is a match
only where each of them ran and matched, and nothing that failed is passed over. -/
namespace Quicknet.Security

open Interaction
open Interaction.Prog
open Json (Text text)

/-- The checks of a run in which every read is answered, in the report's order. -/
def deploymentCheckIds : List CheckId :=
  [.registryRuntimeCodehash, .verifierRuntimeCodehash, .registryMinimumLeadRounds]

def parentCheckIds : List CheckId := [.sequencerInbox, .maxTimeVariation, .wasmModuleRoot]

/-- What a check depends on: it is not reached, or skipped, unless that succeeded. -/
def dependency : CheckId → Option CheckId
  | .registryRuntimeCodehash | .verifierRuntimeCodehash => some .deploymentRpcContext
  | .registryMinimumLeadRounds => some .registryRuntimeCodehash
  | .sequencerInbox | .wasmModuleRoot => some .parentRpcContext
  | .maxTimeVariation => some .sequencerInbox
  | _ => none

inductive ReliesOn : CheckId → CheckId → Prop
  | self (check : CheckId) : ReliesOn check check
  | through {check parent other : CheckId} :
    dependency check = some parent → ReliesOn parent other → ReliesOn check other

def VerificationCheck.status (check : VerificationCheck) : CheckStatus := check.result.status

/-! A part of a report, with the checks that it has when it is complete and what has to be
established for one of them to match. -/

/-- The check was skipped for one before it, on which it depends, that did not match. -/
def SkippedFor (before : List VerificationCheck) (check : VerificationCheck) : Prop :=
  ∃ earlier ∈ before, ∃ id parent : CheckId, check.id = id.text ∧ dependency id = some parent ∧
    earlier.id = parent.text ∧ (earlier.status = .drift ∨ earlier.status = .error)

structure Closed (ids : List CheckId) (established : CheckId → ReportValue → Prop)
    (checks : List VerificationCheck) : Prop where
  complete : (∀ check ∈ checks, check.status = .match) →
    checks.map (·.id) = ids.map CheckId.text
  evidence : ∀ check ∈ checks, ∀ expected observed, check.result = .match expected observed →
    ∃ id ∈ ids, check.id = id.text ∧ established id observed
  skipped : ∀ before check after, checks = before ++ check :: after →
    check.status = .skipped → SkippedFor before check

section Closed

variable {ids ids' : List CheckId} {established : CheckId → ReportValue → Prop}
  {checks checks' : List VerificationCheck}

theorem Closed.append (h : Closed ids established checks)
    (h' : Closed ids' established checks') :
    Closed (ids ++ ids') established (checks ++ checks') := by
  refine ⟨?_, ?_, ?_⟩
  · intro hall
    rw [List.map_append, List.map_append]
    rw [h.complete fun check hmem => hall check (List.mem_append_left _ hmem)]
    rw [h'.complete fun check hmem => hall check (List.mem_append_right _ hmem)]
  · intro check hmem expected observed hresult
    rcases List.mem_append.mp hmem with hmem | hmem
    · obtain ⟨id, hid, hevidence⟩ := h.evidence check hmem expected observed hresult
      exact ⟨id, List.mem_append_left _ hid, hevidence⟩
    · obtain ⟨id, hid, hevidence⟩ := h'.evidence check hmem expected observed hresult
      exact ⟨id, List.mem_append_right _ hid, hevidence⟩
  · -- The skipped check lies in one of the parts, and so does the one it is skipped for.
    intro before check after hsplit hskipped
    rcases List.append_eq_append_iff.mp hsplit with ⟨middle, hbefore, hchecks'⟩ |
      ⟨middle, hchecks, htail⟩
    · obtain ⟨earlier, hmem, hrest⟩ := h'.skipped middle check after hchecks' hskipped
      refine ⟨earlier, ?_, hrest⟩
      rw [hbefore]
      exact List.mem_append_right _ hmem
    · cases middle with
      | nil =>
        obtain ⟨earlier, hmem, _⟩ := h'.skipped [] check after htail.symm hskipped
        cases hmem
      | cons head middle =>
        obtain ⟨hhead, _⟩ := List.cons.inj htail
        rw [← hhead] at hchecks
        exact h.skipped before check middle hchecks hskipped

/-- Where only the last check can be skipped, it is the skipped one. -/
theorem skipped_last {init before after : List VerificationCheck} {last check : VerificationCheck}
    (hinit : ∀ check ∈ init, check.status ≠ .skipped)
    (hsplit : init ++ [last] = before ++ check :: after) (hskipped : check.status = .skipped) :
    before = init ∧ check = last := by
  rcases List.append_eq_append_iff.mp hsplit with ⟨middle, hbefore, hlast⟩ |
    ⟨middle, hinit', htail⟩
  · cases middle with
    | nil => exact ⟨by rw [hbefore, List.append_nil], (List.cons.inj hlast).1.symm⟩
    | cons head middle => simp at hlast
  · cases middle with
    | nil => exact ⟨by rw [hinit', List.append_nil], (List.cons.inj htail).1⟩
    | cons head middle =>
      have hmem : check ∈ init := by
        rw [hinit', (List.cons.inj htail).1]
        simp
      exact absurd hskipped (hinit check hmem)

/-- A part that failed as a whole reports its error. -/
theorem closed_executionError {id : CheckId} {observationIds : List Text} {expected : ReportValue}
    {error : Text} :
    Closed ids established [executionErrorCheck id observationIds expected error] := by
  refine ⟨?_, ?_, ?_⟩
  · intro hall
    have herror := hall _ List.mem_cons_self
    cases herror
  · intro check hmem expected' observed hresult
    rw [List.mem_singleton.mp hmem] at hresult
    cases hresult
  · intro before check after hsplit hskipped
    have hmem : check ∈ [executionErrorCheck id observationIds expected error] := by
      rw [hsplit]
      simp
    rw [List.mem_singleton.mp hmem] at hskipped
    cases hskipped

end Closed

/-! What the results of single reads are. -/

/-- The check ran, and a match is one of a value that it may match. -/
def Concluded {Expected Observed : Type} (matched : Observed → Prop) :
    CheckResult Expected Observed → Prop
  | .match _ observed => matched observed
  | .drift _ _ _ => True
  | .error _ _ => True
  | .skipped _ _ => False

theorem Concluded.not_skipped {Expected Observed : Type} {matched : Observed → Prop}
    {result : CheckResult Expected Observed} (h : Concluded matched result) :
    result.status ≠ .skipped := by
  cases result with
  | skipped _ _ => exact absurd h id
  | _ => exact fun hstatus => (by cases hstatus)

theorem Concluded.drift_or_error {Expected Observed : Type} {matched : Observed → Prop}
    {result : CheckResult Expected Observed} (h : Concluded matched result)
    (hmatch : result.status ≠ .match) : result.status = .drift ∨ result.status = .error := by
  cases result with
  | «match» _ _ => exact absurd rfl hmatch
  | drift _ _ _ => exact .inl rfl
  | error _ _ => exact .inr rfl
  | skipped _ _ => exact absurd h id

section Results

variable {lib : SecurityLibrary}

theorem runtimeCodehashResult_ok {expected : Text} {reply : Except Text (Option Text)}
    {result : CheckResult Text (Option Text)}
    (h : runtimeCodehashResult lib expected reply = .ok result) :
    Concluded (fun observed => observed = some expected ∧ ∃ code, reply = .ok (some code) ∧
      code ≠ text "0x" ∧ lib.keccak256 code = .ok expected) result := by
  unfold runtimeCodehashResult at h
  match reply with
  | .error error | .ok none =>
    cases h
    exact trivial
  | .ok (some code) =>
    by_cases hempty : code = text "0x"
    · simp only [if_pos hempty] at h
      cases h
      exact trivial
    · simp only [if_neg hempty, except_bind_ok_iff] at h
      obtain ⟨observed, hkeccak, hresult⟩ := h
      by_cases hobserved : observed = expected
      · rw [if_neg (not_not_intro hobserved)] at hresult
        cases hresult
        subst hobserved
        exact ⟨rfl, code, rfl, hempty, hkeccak⟩
      · rw [if_pos hobserved] at hresult
        cases hresult
        exact trivial

theorem minimumLeadRoundsResult_ok {expected : ℤ} {reply : Except Text ℤ}
    {result : CheckResult ℤ ℤ} (h : minimumLeadRoundsResult expected reply = .ok result) :
    Concluded (fun observed => observed = expected ∧ reply = .ok expected) result := by
  unfold minimumLeadRoundsResult at h
  match reply with
  | .error error =>
    cases h
    exact trivial
  | .ok observed =>
    by_cases hobserved : observed = expected
    · simp only [if_neg (not_not_intro hobserved)] at h
      cases h
      subst hobserved
      exact ⟨rfl, rfl⟩
    · simp only [if_pos hobserved] at h
      cases h
      exact trivial

theorem sequencerInboxResult_ok {expected : Text} {reply : Except Text Text}
    {result : CheckResult Text Text} (h : sequencerInboxResult lib expected reply = .ok result) :
    Concluded (fun observed => reply = .ok observed ∧
      lib.isAddressEqual observed expected = .ok true) result := by
  unfold sequencerInboxResult at h
  match reply with
  | .error error =>
    cases h
    exact trivial
  | .ok observed =>
    simp only [except_bind_ok_iff] at h
    obtain ⟨equal, hequal, hresult⟩ := h
    cases equal with
    | true =>
      cases hresult
      exact ⟨rfl, hequal⟩
    | false =>
      cases hresult
      exact trivial

theorem maxTimeVariationMatches_iff {expected observed : ObservedMaxTimeVariation} :
    maxTimeVariationMatches expected observed = true ↔ observed = expected := by
  cases expected
  cases observed
  simp only [maxTimeVariationMatches, Bool.and_eq_true, beq_iff_eq,
    ObservedMaxTimeVariation.mk.injEq, and_assoc]

theorem maxTimeVariationResult_ok {expected : ObservedMaxTimeVariation}
    {reply : Except Text ObservedMaxTimeVariation}
    {result : CheckResult ObservedMaxTimeVariation ObservedMaxTimeVariation}
    (h : maxTimeVariationResult expected reply = .ok result) :
    Concluded (fun observed => observed = expected ∧ reply = .ok expected) result := by
  unfold maxTimeVariationResult at h
  match reply with
  | .error error =>
    cases h
    exact trivial
  | .ok observed =>
    by_cases hmatches : maxTimeVariationMatches expected observed = true
    · simp only [if_pos hmatches] at h
      cases h
      rw [maxTimeVariationMatches_iff.mp hmatches]
      exact ⟨rfl, rfl⟩
    · simp only [if_neg hmatches] at h
      cases h
      exact trivial

theorem wasmModuleRootResult_ok {expected : List ApprovedWasmModuleRoot}
    {reply : Except Text Text} {check : ConsensusRootCheck}
    (h : wasmModuleRootResult expected reply = .ok check) :
    Concluded (fun observed => reply = .ok observed ∧
      ∃ approved ∈ expected, approved.root = toLowerHex observed) check.result := by
  unfold wasmModuleRootResult at h
  match reply with
  | .error error =>
    cases h
    exact trivial
  | .ok observed =>
    cases hfind : findApprovedRoot expected observed with
    | none =>
      simp only [hfind] at h
      cases h
      exact trivial
    | some approved =>
      simp only [hfind] at h
      cases h
      unfold findApprovedRoot at hfind
      have hroot := List.find?_some hfind
      exact ⟨rfl, approved, List.mem_of_find?_eq_some hfind, eq_of_beq hroot⟩

end Results

/-! What was read. -/

def SecurityRead.check? : SecurityRead → Option CheckId
  | .rpc check _ _ => some check
  | _ => none

/-- The reads of a check. -/
def readsOf (check : CheckId) (log : SecurityLog) : SecurityLog :=
  log.filter fun x => x.query.check? == some check

@[simp] theorem readsOf_append (check : CheckId) (log log' : SecurityLog) :
    readsOf check (log ++ log') = readsOf check log ++ readsOf check log' :=
  List.filter_append ..

/-- A request that was answered with a value. -/
def answered (check : CheckId) (rpcUrl : Text) (request : RpcRequest) (value : request.Reply) :
    Exchange SecurityRead.Reply Text :=
  ⟨.rpc check rpcUrl request, .ok (.ok value)⟩

section Established

variable (lib : SecurityLibrary) (args : CliArguments) (loaded : LoadedChainProfile)
  (parentRpcUrl : Text) (log : SecurityLog)

/-- The context's reads: the chain is the one expected, and the block is pinned. -/
def Pinned (check : CheckId) (rpcUrl : Text) (chainId : ℕ) (blockNumber : ℤ) : Prop :=
  ∃ timestamp, readsOf check log = [answered check rpcUrl .chainId chainId,
    answered check rpcUrl .latestBlock ⟨some blockNumber, timestamp⟩]

/-- The code that was read hashes to what the manifest says. -/
def CodehashRead (check : CheckId) (artifact : DeploymentArtifact) (blockNumber : ℤ) : Prop :=
  ∃ code, code ≠ text "0x" ∧ lib.keccak256 code = .ok artifact.runtimeCodehash ∧
    readsOf check log = [answered check args.rpcUrl (.code artifact.address blockNumber) (some code)]

def InboxRead (inbox : Text) (blockNumber : ℤ) : Prop :=
  let config := loaded.profile.chainAdapter.config
  lib.isAddressEqual inbox config.expectedSequencerInbox = .ok true ∧
    readsOf .sequencerInbox log =
      [answered .sequencerInbox parentRpcUrl (.sequencerInbox config.rollup blockNumber) inbox]

/-- The reads behind a match of the check and of all that it relies on, each made once, with
the value that the check observed. -/
def Established (check : CheckId) (observed : ReportValue) : Prop :=
  let profile := loaded.profile
  let config := profile.chainAdapter.config
  let manifest := loaded.manifest
  match check with
  | .registryRuntimeCodehash => ∃ block,
    Pinned log .deploymentRpcContext args.rpcUrl profile.chainId.1 block ∧
    CodehashRead lib args log .registryRuntimeCodehash manifest.registry block ∧
    observed = .string manifest.registry.runtimeCodehash
  | .verifierRuntimeCodehash => ∃ block,
    Pinned log .deploymentRpcContext args.rpcUrl profile.chainId.1 block ∧
    CodehashRead lib args log .verifierRuntimeCodehash manifest.verifier block ∧
    observed = .string manifest.verifier.runtimeCodehash
  | .registryMinimumLeadRounds => ∃ block,
    Pinned log .deploymentRpcContext args.rpcUrl profile.chainId.1 block ∧
    CodehashRead lib args log .registryRuntimeCodehash manifest.registry block ∧
    readsOf .registryMinimumLeadRounds log = [answered .registryMinimumLeadRounds args.rpcUrl
      (.minimumLeadRounds manifest.registry.address block)
      (profile.timing.minimumLeadRounds.1 : ℤ)] ∧
    observed = .bigint profile.timing.minimumLeadRounds.1
  | .sequencerInbox => ∃ block inbox,
    Pinned log .parentRpcContext parentRpcUrl config.parentChain.chainId block ∧
    InboxRead lib loaded parentRpcUrl log inbox block ∧ observed = .string inbox
  | .maxTimeVariation => ∃ block inbox,
    Pinned log .parentRpcContext parentRpcUrl config.parentChain.chainId block ∧
    InboxRead lib loaded parentRpcUrl log inbox block ∧
    readsOf .maxTimeVariation log = [answered .maxTimeVariation parentRpcUrl
      (.maxTimeVariation inbox block)
      (toObservedMaxTimeVariation config.expectedMaxTimeVariation)] ∧
    observed = timeVariationValue (toObservedMaxTimeVariation config.expectedMaxTimeVariation)
  | .wasmModuleRoot => ∃ block root,
    Pinned log .parentRpcContext parentRpcUrl config.parentChain.chainId block ∧
    (∃ approved ∈ config.approvedWasmModuleRoots, approved.root = toLowerHex root) ∧
    readsOf .wasmModuleRoot log = [answered .wasmModuleRoot parentRpcUrl
      (.wasmModuleRoot config.rollup block) root] ∧
    observed = .string root
  | .deploymentRpcContext | .parentRpcContext | .timestampEnvelopeExecution
  | .consensusRootExecution => False

end Established

/-! The reads of the stages. -/

section Stages

variable {lib : SecurityLibrary} {rpcUrl parentRpcUrl : Text} {log : SecurityLog}

theorem verifyRpcChainId_ok {check : CheckId} {expected observed : ℕ}
    (h : (verifyRpcChainId check rpcUrl expected).replay log = some (.ok observed)) :
    log = [answered check rpcUrl .chainId expected] := by
  obtain ⟨reply, hlog, hreply⟩ := replay_readThen_ok_iff.mp h
  obtain ⟨chainId, hok, hexpected⟩ := except_bind_ok_iff.mp hreply
  split_ifs at hexpected with heq
  rw [hlog, hok, heq]
  rfl

theorem pinChainSnapshot_ok {check : CheckId} {snapshot : ChainSnapshot}
    (h : (pinChainSnapshot check rpcUrl).replay log = some (.ok snapshot)) :
    log = [answered check rpcUrl .latestBlock
      ⟨some snapshot.blockNumber, snapshot.blockTimestamp⟩] := by
  obtain ⟨reply, hlog, hreply⟩ := replay_readThen_ok_iff.mp h
  obtain ⟨block, hok, hnumber⟩ := except_bind_ok_iff.mp hreply
  obtain ⟨number, timestamp⟩ := block
  cases number with
  | none => cases hnumber
  | some number =>
    cases hnumber
    rw [hlog, hok]
    rfl

/-- The reads of a deployment check that got through, and what is made of them. -/
theorem checkDeployment_ok {loaded : LoadedChainProfile} {deployment : DeploymentCheckResult}
    (h : (checkDeployment lib rpcUrl loaded).replay log = some (.ok deployment)) :
    ∃ block timestamp registryReply verifierReply leadLog,
      log = [answered .deploymentRpcContext rpcUrl .chainId loaded.profile.chainId.1,
        answered .deploymentRpcContext rpcUrl .latestBlock ⟨some block, timestamp⟩,
        ⟨.rpc .registryRuntimeCodehash rpcUrl (.code loaded.manifest.registry.address block),
          .ok registryReply⟩,
        ⟨.rpc .verifierRuntimeCodehash rpcUrl (.code loaded.manifest.verifier.address block),
          .ok verifierReply⟩] ++ leadLog ∧
      runtimeCodehashResult lib loaded.manifest.registry.runtimeCodehash registryReply =
        .ok deployment.checks.registryRuntimeCodehash ∧
      runtimeCodehashResult lib loaded.manifest.verifier.runtimeCodehash verifierReply =
        .ok deployment.checks.verifierRuntimeCodehash ∧
      (minimumLeadRoundsAfter deployment.checks.registryRuntimeCodehash rpcUrl
        loaded.manifest.registry.address loaded.profile.timing.minimumLeadRounds.1 block).replay
          leadLog = some (.ok deployment.checks.registryMinimumLeadRounds) := by
  unfold checkDeployment at h
  simp only [bind_eq, pure_eq] at h
  obtain ⟨_, l₀, _, rfl, hclient, h⟩ := replay_bind_ok_iff.mp h
  obtain ⟨_, l₁, _, rfl, hchain, h⟩ := replay_bind_ok_iff.mp h
  obtain ⟨snapshot, l₂, _, rfl, hsnapshot, h⟩ := replay_bind_ok_iff.mp h
  obtain ⟨registry, l₃, _, rfl, hregistry, h⟩ := replay_bind_ok_iff.mp h
  obtain ⟨verifier, l₄, _, rfl, hverifier, h⟩ := replay_bind_ok_iff.mp h
  obtain ⟨lead, l₅, l₆, rfl, hlead, h⟩ := replay_bind_ok_iff.mp h
  obtain ⟨rfl, hdeployment⟩ := replay_ret_iff.mp h
  cases hdeployment
  obtain ⟨rfl, _⟩ := replay_lift_ok_iff.mp hclient
  have hchain' := verifyRpcChainId_ok hchain
  have hsnapshot' := pinChainSnapshot_ok hsnapshot
  obtain ⟨registryReply, rfl, hregistry'⟩ := replay_readThen_ok_iff.mp hregistry
  obtain ⟨verifierReply, rfl, hverifier'⟩ := replay_readThen_ok_iff.mp hverifier
  refine ⟨snapshot.blockNumber, snapshot.blockTimestamp, registryReply, verifierReply, l₅, ?_,
    hregistry', hverifier', hlead⟩
  rw [hchain', hsnapshot', List.append_nil]
  rfl

theorem minimumLeadRoundsAfter_ok {registry : CheckResult Text (Option Text)} {address : Text}
    {expected blockNumber : ℤ} {result : CheckResult ℤ ℤ}
    (h : (minimumLeadRoundsAfter registry rpcUrl address expected blockNumber).replay log =
      some (.ok result)) :
    (registry.status = .match ∧ ∃ reply, log = [⟨.rpc .registryMinimumLeadRounds rpcUrl
        (.minimumLeadRounds address blockNumber), .ok reply⟩] ∧
      minimumLeadRoundsResult expected reply = .ok result) ∨
    (registry.status ≠ .match ∧ log = [] ∧ result = skippedMinimumLeadRounds expected) := by
  unfold minimumLeadRoundsAfter at h
  split_ifs at h with hregistry
  · left
    exact ⟨hregistry, replay_readThen_ok_iff.mp h⟩
  · right
    obtain ⟨hlog, hresult⟩ := replay_ret_iff.mp h
    exact ⟨hregistry, hlog, Except.ok.inj hresult⟩

theorem maxTimeVariationAfter_ok {sequencerInbox : CheckResult Text Text}
    {expected : ObservedMaxTimeVariation} {blockNumber : ℤ}
    {result : CheckResult ObservedMaxTimeVariation ObservedMaxTimeVariation}
    (h : (maxTimeVariationAfter sequencerInbox rpcUrl expected blockNumber).replay log =
      some (.ok result)) :
    (∃ wanted inbox reply, sequencerInbox = .match wanted inbox ∧
      log = [⟨.rpc .maxTimeVariation rpcUrl (.maxTimeVariation inbox blockNumber), .ok reply⟩] ∧
      maxTimeVariationResult expected reply = .ok result) ∨
    (sequencerInbox.status ≠ .match ∧ log = [] ∧ result = skippedMaxTimeVariation expected) := by
  cases sequencerInbox with
  | «match» wanted inbox =>
    left
    obtain ⟨reply, hlog, hresult⟩ := replay_readThen_ok_iff.mp h
    exact ⟨wanted, inbox, reply, rfl, hlog, hresult⟩
  | drift _ _ _ | error _ _ | skipped _ _ =>
    right
    obtain ⟨hlog, hresult⟩ := replay_ret_iff.mp h
    exact ⟨fun hstatus => (by cases hstatus), hlog, Except.ok.inj hresult⟩

theorem checkTimestampEnvelope_ok {snapshot : ChainSnapshot} {config : ArbitrumNitroConfig}
    {checks : TimestampEnvelopeChecks}
    (h : (checkTimestampEnvelopeAtSnapshot lib parentRpcUrl snapshot config).replay log =
      some (.ok checks)) :
    ∃ inboxReply variationLog,
      log = [⟨.rpc .sequencerInbox parentRpcUrl
        (.sequencerInbox config.rollup snapshot.blockNumber), .ok inboxReply⟩] ++ variationLog ∧
      sequencerInboxResult lib config.expectedSequencerInbox inboxReply =
        .ok checks.sequencerInbox ∧
      (maxTimeVariationAfter checks.sequencerInbox parentRpcUrl
        (toObservedMaxTimeVariation config.expectedMaxTimeVariation) snapshot.blockNumber).replay
          variationLog = some (.ok checks.maxTimeVariation) := by
  unfold checkTimestampEnvelopeAtSnapshot at h
  simp only [bind_eq, pure_eq] at h
  obtain ⟨inbox, l₁, _, rfl, hinbox, h⟩ := replay_bind_ok_iff.mp h
  obtain ⟨variation, l₂, l₃, rfl, hvariation, h⟩ := replay_bind_ok_iff.mp h
  obtain ⟨rfl, hchecks⟩ := replay_ret_iff.mp h
  cases hchecks
  obtain ⟨inboxReply, rfl, hinbox'⟩ := replay_readThen_ok_iff.mp hinbox
  refine ⟨inboxReply, l₂, ?_, hinbox', hvariation⟩
  rw [List.append_nil]

end Stages

/-! Whose reads the stages make. -/

def ReadBy (checks : List CheckId) (query : SecurityRead) : Prop :=
  ∃ check ∈ checks, query.check? = some check

theorem readsOf_eq_nil {checks : List CheckId} {check : CheckId} {log : SecurityLog}
    (hlog : ∀ x ∈ log, ReadBy checks x.query) (hcheck : check ∉ checks) :
    readsOf check log = [] := by
  apply List.filter_eq_nil_iff.mpr
  intro x hx hread
  obtain ⟨other, hmem, hother⟩ := hlog x hx
  have hsame : other = check := Option.some.inj (hother.symm.trans (eq_of_beq hread))
  rw [hsame] at hmem
  exact hcheck hmem

section Only

variable {lib : SecurityLibrary}

theorem checkDeployment_only {rpcUrl : Text} {loaded : LoadedChainProfile} :
    (checkDeployment lib rpcUrl loaded).Only
      (ReadBy (.deploymentRpcContext :: deploymentCheckIds)) := by
  unfold checkDeployment
  refine (only_lift _).bind fun _ => ?_
  refine (only_readThen ⟨.deploymentRpcContext, by decide, rfl⟩).bind fun _ => ?_
  refine (only_readThen ⟨.deploymentRpcContext, by decide, rfl⟩).bind fun snapshot => ?_
  refine (only_readThen ⟨.registryRuntimeCodehash, by decide, rfl⟩).bind fun registry => ?_
  refine (only_readThen ⟨.verifierRuntimeCodehash, by decide, rfl⟩).bind fun _ => ?_
  refine Only.bind ?_ fun _ => trivial
  unfold minimumLeadRoundsAfter
  split_ifs
  · exact only_readThen ⟨.registryMinimumLeadRounds, by decide, rfl⟩
  · exact trivial

theorem checkTimestampEnvelope_only {parentRpcUrl : Text} {snapshot : ChainSnapshot}
    {config : ArbitrumNitroConfig} :
    (checkTimestampEnvelopeAtSnapshot lib parentRpcUrl snapshot config).Only
      (ReadBy [.sequencerInbox, .maxTimeVariation]) := by
  unfold checkTimestampEnvelopeAtSnapshot
  refine (only_readThen ⟨.sequencerInbox, by decide, rfl⟩).bind fun inbox => ?_
  refine Only.bind ?_ fun _ => trivial
  cases inbox with
  | «match» _ _ => exact only_readThen ⟨.maxTimeVariation, by decide, rfl⟩
  | _ => exact trivial

theorem parentContext_only {parentRpcUrl : Text} {config : ArbitrumNitroConfig} :
    (parentContext parentRpcUrl config).Only (ReadBy [.parentRpcContext]) := by
  refine (only_readThen ⟨.parentRpcContext, by decide, rfl⟩).bind fun _ => ?_
  refine (only_readThen ⟨.parentRpcContext, by decide, rfl⟩).bind fun _ => ?_
  exact trivial

theorem ReadBy.mono {checks checks' : List CheckId} (h : checks ⊆ checks') (query : SecurityRead)
    (hread : ReadBy checks query) : ReadBy checks' query := by
  obtain ⟨check, hmem, hcheck⟩ := hread
  exact ⟨check, h hmem, hcheck⟩

theorem arbitrumNitroStage_only {parentRpcUrl : Text} {config : ArbitrumNitroConfig} :
    (arbitrumNitroStage lib parentRpcUrl config).Only
      (ReadBy (.parentRpcContext :: parentCheckIds)) := by
  unfold arbitrumNitroStage
  refine (only_lift _).bind fun _ => ?_
  refine (parentContext_only.mono (ReadBy.mono (by decide))).attempt.bind fun context => ?_
  cases context with
  | error error => exact trivial
  | ok context =>
    refine (checkTimestampEnvelope_only.mono (ReadBy.mono (by decide))).attempt.bind fun _ => ?_
    refine Only.bind (Only.attempt ?_) fun _ => trivial
    exact only_readThen ⟨.wasmModuleRoot, by decide, rfl⟩

end Only

/-! What the stages find. -/

section Findings

variable {lib : SecurityLibrary} {args : CliArguments} {loaded : LoadedChainProfile}
  {parentRpcUrl : Text} {log whole : SecurityLog}

theorem reportResult_status {Expected Observed : Type} {expectedValue : Expected → ReportValue}
    {observedValue : Observed → ReportValue} {check : CheckResult Expected Observed} :
    (reportResult expectedValue observedValue check).status = check.status := by
  cases check <;> rfl

/-- A match in the report is a match of the check that was made. -/
theorem Concluded.reported {Expected Observed : Type} {matched : Observed → Prop}
    {expectedValue : Expected → ReportValue} {observedValue : Observed → ReportValue}
    {check : CheckResult Expected Observed} {expected observed : ReportValue}
    (h : Concluded matched check)
    (hmatch : reportResult expectedValue observedValue check = .match expected observed) :
    ∃ value, matched value ∧ observed = observedValue value := by
  cases check with
  | «match» e o =>
    cases hmatch
    exact ⟨o, h, rfl⟩
  | _ => cases hmatch

theorem toVerificationCheck_status {Expected Observed : Type} {id : CheckId}
    {observationIds : List Text} {check : CheckResult Expected Observed}
    {expectedValue : Expected → ReportValue} {observedValue : Observed → ReportValue}
    {details : Option ReportValue} :
    (toVerificationCheck id observationIds check expectedValue observedValue details).status =
      check.status :=
  reportResult_status

/-- The lead is skipped for the registry's code. -/
theorem deployment_skipped {checks : DeploymentChecks} {address : Text} {expected block : ℤ}
    {registryMatched verifierMatched : Option Text → Prop}
    (hregistry : Concluded registryMatched checks.registryRuntimeCodehash)
    (hverifier : Concluded verifierMatched checks.verifierRuntimeCodehash)
    (hlead : (minimumLeadRoundsAfter checks.registryRuntimeCodehash args.rpcUrl address expected
      block).replay log = some (.ok checks.registryMinimumLeadRounds))
    {before after : List VerificationCheck} {check : VerificationCheck}
    (hsplit : deploymentChecksToReportChecks checks = before ++ check :: after)
    (hskipped : check.status = .skipped) : SkippedFor before check := by
  have hinit : ∀ earlier ∈ (deploymentChecksToReportChecks checks).take 2,
      earlier.status ≠ .skipped := by
    intro earlier hmem
    rcases List.mem_cons.mp hmem with rfl | hmem
    · rw [toVerificationCheck_status]
      exact hregistry.not_skipped
    · rw [List.mem_singleton.mp hmem, toVerificationCheck_status]
      exact hverifier.not_skipped
  obtain ⟨hbefore, hcheck⟩ := skipped_last hinit hsplit hskipped
  rcases minimumLeadRoundsAfter_ok hlead with ⟨_, reply, _, hresult⟩ | ⟨hmatch, _, _⟩
  · rw [hcheck, toVerificationCheck_status] at hskipped
    exact absurd hskipped (minimumLeadRoundsResult_ok hresult).not_skipped
  · refine ⟨toVerificationCheck .registryRuntimeCodehash [text "l2"]
      checks.registryRuntimeCodehash .string nullableStringValue none, ?_,
      .registryMinimumLeadRounds, .registryRuntimeCodehash, ?_, rfl, rfl, ?_⟩
    · rw [hbefore]
      exact List.mem_cons_self
    · rw [hcheck]
      rfl
    · rw [toVerificationCheck_status]
      exact hregistry.drift_or_error hmatch

/-- The deployment's part of a report. -/
theorem deployment_closed {outcome : Except Text DeploymentCheckResult}
    (h : (checkDeployment lib args.rpcUrl loaded).attempt.replay log = some (.ok outcome))
    (hreads : ∀ check ∈ CheckId.deploymentRpcContext :: deploymentCheckIds,
      readsOf check whole = readsOf check log) :
    Closed deploymentCheckIds (Established lib args loaded parentRpcUrl whole)
      (deploymentFindings loaded outcome).2 := by
  cases outcome with
  | error error => exact closed_executionError
  | ok deployment =>
    obtain ⟨block, timestamp, registryReply, verifierReply, leadLog, hlog, hregistry, hverifier,
      hlead⟩ := checkDeployment_ok (replay_attempt h)
    have hregistry' := runtimeCodehashResult_ok hregistry
    have hverifier' := runtimeCodehashResult_ok hverifier
    have hlead' := minimumLeadRoundsAfter_ok hlead
    -- The deployment's other checks do not read what the last one does.
    have hleadReads : ∀ check, check ≠ .registryMinimumLeadRounds →
        readsOf check leadLog = [] := by
      intro check hne
      rcases hlead' with ⟨_, reply, hleadLog, _⟩ | ⟨_, hleadLog, _⟩
      · rw [hleadLog]
        simp [readsOf, SecurityRead.check?, hne.symm]
      · rw [hleadLog]
        rfl
    have hpinned : Pinned whole .deploymentRpcContext args.rpcUrl loaded.profile.chainId.1 block := by
      refine ⟨timestamp, ?_⟩
      rw [hreads _ (by decide), hlog, readsOf_append, hleadReads _ (by decide)]
      rfl
    have hregistryRead : ∀ code, registryReply = .ok (some code) → code ≠ text "0x" →
        lib.keccak256 code = .ok loaded.manifest.registry.runtimeCodehash →
        CodehashRead lib args whole .registryRuntimeCodehash loaded.manifest.registry block := by
      intro code hreply hne hkeccak
      refine ⟨code, hne, hkeccak, ?_⟩
      rw [hreads _ (by decide), hlog, readsOf_append, hleadReads _ (by decide), hreply]
      rfl
    have hverifierRead : ∀ code, verifierReply = .ok (some code) → code ≠ text "0x" →
        lib.keccak256 code = .ok loaded.manifest.verifier.runtimeCodehash →
        CodehashRead lib args whole .verifierRuntimeCodehash loaded.manifest.verifier block := by
      intro code hreply hne hkeccak
      refine ⟨code, hne, hkeccak, ?_⟩
      rw [hreads _ (by decide), hlog, readsOf_append, hleadReads _ (by decide), hreply]
      rfl
    refine ⟨fun _ => rfl, ?_, ?_⟩
    · intro check hmem expected observed hresult
      rcases List.mem_cons.mp hmem with rfl | hmem
      · obtain ⟨_, ⟨rfl, code, hreply, hne, hkeccak⟩, rfl⟩ := hregistry'.reported hresult
        exact ⟨.registryRuntimeCodehash, by decide, rfl, block, hpinned,
          hregistryRead code hreply hne hkeccak, rfl⟩
      rcases List.mem_cons.mp hmem with rfl | hmem
      · obtain ⟨_, ⟨rfl, code, hreply, hne, hkeccak⟩, rfl⟩ := hverifier'.reported hresult
        exact ⟨.verifierRuntimeCodehash, by decide, rfl, block, hpinned,
          hverifierRead code hreply hne hkeccak, rfl⟩
      rw [List.mem_singleton.mp hmem] at hresult ⊢
      rcases hlead' with ⟨hmatch, reply, hleadLog, hleadResult⟩ | ⟨_, _, hskipped⟩
      · -- The lead was read since the registry's code matched.
        obtain ⟨_, ⟨rfl, hreply⟩, rfl⟩ :=
          (minimumLeadRoundsResult_ok hleadResult).reported hresult
        cases hcheck : deployment.checks.registryRuntimeCodehash with
        | «match» e o =>
          rw [hcheck] at hregistry'
          obtain ⟨_, code, hcode, hne, hkeccak⟩ := hregistry'
          refine ⟨.registryMinimumLeadRounds, by decide, rfl, block, hpinned,
            hregistryRead code hcode hne hkeccak, ?_, rfl⟩
          rw [hreads _ (by decide), hlog, hleadLog, hreply]
          rfl
        | _ =>
          rw [hcheck] at hmatch
          cases hmatch
      · change reportResult _ _ deployment.checks.registryMinimumLeadRounds = _ at hresult
        rw [hskipped] at hresult
        cases hresult
    · intro before check after hsplit hskipped
      exact deployment_skipped hregistry' hverifier' hlead hsplit hskipped

/-- The variation is skipped for the inbox. -/
theorem envelope_skipped {checks : TimestampEnvelopeChecks} {expected : ObservedMaxTimeVariation}
    {block : ℤ} {inboxMatched : Text → Prop} (hinbox : Concluded inboxMatched checks.sequencerInbox)
    (hvariation : (maxTimeVariationAfter checks.sequencerInbox parentRpcUrl expected block).replay
      log = some (.ok checks.maxTimeVariation))
    {before after : List VerificationCheck} {check : VerificationCheck}
    (hsplit : timestampEnvelopeChecksToReportChecks checks = before ++ check :: after)
    (hskipped : check.status = .skipped) : SkippedFor before check := by
  have hinit : ∀ earlier ∈ (timestampEnvelopeChecksToReportChecks checks).take 1,
      earlier.status ≠ .skipped := by
    intro earlier hmem
    rw [List.mem_singleton.mp hmem, toVerificationCheck_status]
    exact hinbox.not_skipped
  obtain ⟨hbefore, hcheck⟩ := skipped_last hinit hsplit hskipped
  rcases maxTimeVariationAfter_ok hvariation with ⟨_, _, reply, _, _, hresult⟩ | ⟨hmatch, _, _⟩
  · rw [hcheck, toVerificationCheck_status] at hskipped
    exact absurd hskipped (maxTimeVariationResult_ok hresult).not_skipped
  · refine ⟨toVerificationCheck .sequencerInbox [text "parent"] checks.sequencerInbox
      .string .string none, ?_, .maxTimeVariation, .sequencerInbox, ?_, rfl, rfl, ?_⟩
    · rw [hbefore]
      exact List.mem_cons_self
    · rw [hcheck]
      rfl
    · rw [toVerificationCheck_status]
      exact hinbox.drift_or_error hmatch

theorem envelope_closed {snapshot : ChainSnapshot} {outcome : Except Text TimestampEnvelopeChecks}
    (h : (checkTimestampEnvelopeAtSnapshot lib parentRpcUrl snapshot
      loaded.profile.chainAdapter.config).attempt.replay log = some (.ok outcome))
    (hpinned : Pinned whole .parentRpcContext parentRpcUrl
      loaded.profile.chainAdapter.config.parentChain.chainId snapshot.blockNumber)
    (hreads : ∀ check ∈ [CheckId.sequencerInbox, .maxTimeVariation],
      readsOf check whole = readsOf check log) :
    Closed [.sequencerInbox, .maxTimeVariation] (Established lib args loaded parentRpcUrl whole)
      (envelopeFindings loaded.profile.chainAdapter.config outcome) := by
  cases outcome with
  | error error => exact closed_executionError
  | ok checks =>
    obtain ⟨inboxReply, variationLog, hlog, hinbox, hvariation⟩ :=
      checkTimestampEnvelope_ok (replay_attempt h)
    have hinbox' := sequencerInboxResult_ok hinbox
    have hvariation' := maxTimeVariationAfter_ok hvariation
    have hvariationReads : readsOf .sequencerInbox variationLog = [] := by
      rcases hvariation' with ⟨_, _, reply, _, hvariationLog, _⟩ | ⟨_, hvariationLog, _⟩
      · rw [hvariationLog]
        rfl
      · rw [hvariationLog]
        rfl
    have hinboxRead : ∀ inbox, inboxReply = .ok inbox →
        lib.isAddressEqual inbox loaded.profile.chainAdapter.config.expectedSequencerInbox =
          .ok true →
        InboxRead lib loaded parentRpcUrl whole inbox snapshot.blockNumber := by
      intro inbox hreply hequal
      refine ⟨hequal, ?_⟩
      rw [hreads _ (by decide), hlog, readsOf_append, hvariationReads, hreply]
      rfl
    refine ⟨fun _ => rfl, ?_, ?_⟩
    · intro check hmem expected observed hresult
      rcases List.mem_cons.mp hmem with rfl | hmem
      · obtain ⟨inbox, ⟨hreply, hequal⟩, rfl⟩ := hinbox'.reported hresult
        exact ⟨.sequencerInbox, by decide, rfl, snapshot.blockNumber, inbox, hpinned,
          hinboxRead inbox hreply hequal, rfl⟩
      rw [List.mem_singleton.mp hmem] at hresult ⊢
      rcases hvariation' with ⟨_, inbox, reply, hmatch, hvariationLog, hvariationResult⟩ |
        ⟨_, _, hskipped⟩
      · -- The variation was read at the inbox that matched.
        obtain ⟨_, ⟨rfl, hreply⟩, rfl⟩ :=
          (maxTimeVariationResult_ok hvariationResult).reported hresult
        rw [hmatch] at hinbox'
        refine ⟨.maxTimeVariation, by decide, rfl, snapshot.blockNumber, inbox, hpinned,
          hinboxRead inbox hinbox'.1 hinbox'.2, ?_, rfl⟩
        rw [hreads _ (by decide), hlog, hvariationLog, hreply]
        rfl
      · change reportResult _ _ checks.maxTimeVariation = _ at hresult
        rw [hskipped] at hresult
        cases hresult
    · intro before check after hsplit hskipped
      exact envelope_skipped hinbox' hvariation hsplit hskipped

theorem consensusRoot_closed {block : ℤ} {outcome : Except Text ConsensusRootCheck}
    (h : (checkWasmModuleRoot parentRpcUrl loaded.profile.chainAdapter.config
      block).attempt.replay log = some (.ok outcome))
    (hpinned : Pinned whole .parentRpcContext parentRpcUrl
      loaded.profile.chainAdapter.config.parentChain.chainId block)
    (hreads : readsOf .wasmModuleRoot whole = readsOf .wasmModuleRoot log) :
    Closed [.wasmModuleRoot] (Established lib args loaded parentRpcUrl whole)
      (consensusRootFindings loaded.profile.chainAdapter.config outcome) := by
  cases outcome with
  | error error => exact closed_executionError
  | ok check =>
    obtain ⟨reply, hlog, hcheck⟩ := replay_readThen_ok_iff.mp (replay_attempt h)
    have hresult := wasmModuleRootResult_ok hcheck
    refine ⟨fun _ => rfl, ?_, ?_⟩
    · intro reported hmem expected observed hmatch
      rw [List.mem_singleton.mp hmem] at hmatch ⊢
      obtain ⟨root, ⟨hreply, happroved⟩, rfl⟩ := hresult.reported hmatch
      refine ⟨.wasmModuleRoot, by decide, rfl, block, root, hpinned, happroved, ?_, rfl⟩
      rw [hreads, hlog, hreply]
      rfl
    · intro before reported after hsplit hskipped
      have hmem : reported ∈ [consensusRootCheckToReportCheck check] := by
        change [consensusRootCheckToReportCheck check] = _ at hsplit
        rw [hsplit]
        simp
      rw [List.mem_singleton.mp hmem] at hskipped
      exact absurd (reportResult_status.symm.trans hskipped) hresult.not_skipped

theorem parentContext_ok {config : ArbitrumNitroConfig} {context : ℕ × ChainSnapshot}
    (h : (parentContext parentRpcUrl config).replay log = some (.ok context)) :
    log = [answered .parentRpcContext parentRpcUrl .chainId config.parentChain.chainId,
      answered .parentRpcContext parentRpcUrl .latestBlock
        ⟨some context.2.blockNumber, context.2.blockTimestamp⟩] := by
  unfold parentContext at h
  simp only [bind_eq, pure_eq] at h
  obtain ⟨_, l₁, _, rfl, hchain, h⟩ := replay_bind_ok_iff.mp h
  obtain ⟨snapshot, l₂, l₃, rfl, hsnapshot, h⟩ := replay_bind_ok_iff.mp h
  obtain ⟨rfl, hcontext⟩ := replay_ret_iff.mp h
  cases hcontext
  rw [verifyRpcChainId_ok hchain, pinChainSnapshot_ok hsnapshot]
  rfl

/-- The parent chain's part of a report. -/
theorem parent_closed {findings : Findings}
    (h : (arbitrumNitroStage lib parentRpcUrl loaded.profile.chainAdapter.config).replay log =
      some (.ok findings))
    (hreads : ∀ check ∈ CheckId.parentRpcContext :: parentCheckIds,
      readsOf check whole = readsOf check log) :
    Closed parentCheckIds (Established lib args loaded parentRpcUrl whole) findings.2 := by
  unfold arbitrumNitroStage at h
  simp only [bind_eq] at h
  obtain ⟨_, l₀, rest, hlog, hclient, hstage⟩ := replay_bind_ok_iff.mp h
  obtain ⟨hl₀, _⟩ := replay_lift_ok_iff.mp hclient
  obtain ⟨context, l₁, l₂, hrest, hcontext, hfindings⟩ := replay_bind_ok_iff.mp hstage
  rw [hl₀, List.nil_append, hrest] at hlog
  cases context with
  | error error =>
    obtain ⟨_, hfindings⟩ := replay_ret_iff.mp hfindings
    cases hfindings
    exact closed_executionError
  | ok context =>
    obtain ⟨chainId, snapshot⟩ := context
    simp only [parentFindings, bind_eq, pure_eq] at hfindings
    obtain ⟨envelope, l₃, rest', hl₂, henvelope, hfindings⟩ := replay_bind_ok_iff.mp hfindings
    obtain ⟨root, l₄, l₅, hrest', hroot, hfindings⟩ := replay_bind_ok_iff.mp hfindings
    obtain ⟨hl₅, hfindings⟩ := replay_ret_iff.mp hfindings
    cases hfindings
    rw [hl₂, hrest', hl₅, List.append_nil] at hlog
    -- Each part of the log has the reads of its own checks.
    have hcontextLog := parentContext_ok (replay_attempt hcontext)
    have hcontextReads := parentContext_only.attempt.log hcontext
    have henvelopeLog := checkTimestampEnvelope_only.attempt.log henvelope
    have hrootLog : ∀ x ∈ l₄, ReadBy [.wasmModuleRoot] x.query :=
      (only_readThen ⟨.wasmModuleRoot, by decide, rfl⟩).attempt.log hroot
    have hpinned : Pinned whole .parentRpcContext parentRpcUrl
        loaded.profile.chainAdapter.config.parentChain.chainId snapshot.blockNumber := by
      refine ⟨snapshot.blockTimestamp, ?_⟩
      rw [hreads _ (by decide), hlog, hcontextLog, readsOf_append, readsOf_append]
      rw [readsOf_eq_nil henvelopeLog (by decide), readsOf_eq_nil hrootLog (by decide)]
      rfl
    change Closed ([.sequencerInbox, .maxTimeVariation] ++ [.wasmModuleRoot]) _ _
    apply Closed.append
    · apply envelope_closed henvelope hpinned
      intro check hmem
      have hcheck : check ∈ CheckId.parentRpcContext :: parentCheckIds := by
        revert hmem
        revert check
        decide
      have hother : check ∉ [CheckId.wasmModuleRoot] ∧ check ∉ [CheckId.parentRpcContext] := by
        revert hmem
        revert check
        decide
      rw [hreads check hcheck, hlog, readsOf_append, readsOf_append]
      rw [readsOf_eq_nil hrootLog hother.1, readsOf_eq_nil hcontextReads hother.2]
      rw [List.nil_append, List.append_nil]
    · apply consensusRoot_closed hroot hpinned
      rw [hreads _ (by decide), hlog, readsOf_append, readsOf_append]
      rw [readsOf_eq_nil henvelopeLog (by decide), readsOf_eq_nil hcontextReads (by decide)]
      rfl

end Findings

/-! Exceptions. -/

section Exceptions

variable (lib : SecurityLibrary) (loaded : LoadedChainProfile)

def expectedChainOf (check : CheckId) : ℕ :=
  if check = .deploymentRpcContext then loaded.profile.chainId.1
  else loaded.profile.chainAdapter.config.parentChain.chainId

/-- What is made of the value throws. -/
def ValueRaises (check : CheckId) : (request : RpcRequest) → request.Reply → Prop
  | .chainId, (chainId : ℕ) => chainId ≠ expectedChainOf loaded check
  | .latestBlock, (block : RpcBlock) => block.number = none
  | .code _ _, (code : Option Text) => ∃ c ∈ code, ∃ error, lib.keccak256 c = .error error
  | .sequencerInbox _ _, (inbox : Text) => ∃ error, lib.isAddressEqual inbox
      loaded.profile.chainAdapter.config.expectedSequencerInbox = .error error
  | .minimumLeadRounds _ _, _ | .maxTimeVariation _ _, _ | .wasmModuleRoot _ _, _ => False

def ReplyRaises (check : CheckId) (request : RpcRequest)
    (reply : Except Text (Except Text request.Reply)) : Prop :=
  match reply with
  | .ok (.ok value) => ValueRaises lib loaded check request value
  | .ok (.error _) => True
  | .error _ => True

/-- The request failed or timed out, or what is made of its reply throws. -/
def Raises (x : Exchange SecurityRead.Reply Text) : Prop :=
  match x with
  | ⟨.rpc check _ request, reply⟩ => ReplyRaises lib loaded check request reply
  | _ => False

end Exceptions

section NotRaised

variable {lib : SecurityLibrary} {args : CliArguments} {loaded : LoadedChainProfile}
  {parentRpcUrl : Text} {log : SecurityLog} {x : Exchange SecurityRead.Reply Text}

theorem Pinned.not_raises {check : CheckId} {rpcUrl : Text} {blockNumber : ℤ}
    (h : Pinned log check rpcUrl (expectedChainOf loaded check) blockNumber)
    (hmem : x ∈ readsOf check log) : ¬Raises lib loaded x := by
  obtain ⟨timestamp, hreads⟩ := h
  rw [hreads] at hmem
  rcases List.mem_cons.mp hmem with rfl | hmem
  · intro hraises
    exact hraises rfl
  · rw [List.mem_singleton.mp hmem]
    intro hraises
    cases hraises

theorem CodehashRead.not_raises {check : CheckId} {artifact : DeploymentArtifact} {blockNumber : ℤ}
    (h : CodehashRead lib args log check artifact blockNumber)
    (hmem : x ∈ readsOf check log) : ¬Raises lib loaded x := by
  obtain ⟨code, _, hkeccak, hreads⟩ := h
  rw [hreads] at hmem
  rw [List.mem_singleton.mp hmem]
  intro hraises
  obtain ⟨c, hc, error, herror⟩ := hraises
  cases hc
  rw [hkeccak] at herror
  cases herror

theorem InboxRead.not_raises {inbox : Text} {blockNumber : ℤ}
    (h : InboxRead lib loaded parentRpcUrl log inbox blockNumber)
    (hmem : x ∈ readsOf .sequencerInbox log) : ¬Raises lib loaded x := by
  obtain ⟨hequal, hreads⟩ := h
  rw [hreads] at hmem
  rw [List.mem_singleton.mp hmem]
  intro hraises
  obtain ⟨error, herror⟩ := hraises
  rw [hequal] at herror
  cases herror

theorem answered_not_raises {check : CheckId} {rpcUrl : Text} {request : RpcRequest}
    {value : request.Reply} (hvalue : ¬ValueRaises lib loaded check request value)
    (hreads : readsOf check log = [answered check rpcUrl request value])
    (hmem : x ∈ readsOf check log) : ¬Raises lib loaded x := by
  rw [hreads] at hmem
  rw [List.mem_singleton.mp hmem]
  exact hvalue

/-- Nothing that an established check relies on raised an exception. -/
theorem Established.not_raises {check failed : CheckId} {observed : ReportValue}
    (h : Established lib args loaded parentRpcUrl log check observed)
    (hrelies : ReliesOn check failed) (hmem : x ∈ readsOf failed log) :
    ¬Raises lib loaded x := by
  -- a check relies on itself and, through its parents, on everything up to the pinned block
  cases check with
  | registryRuntimeCodehash | verifierRuntimeCodehash =>
    obtain ⟨block, hpinned, hcode, _⟩ := h
    cases hrelies with
    | self => exact hcode.not_raises hmem
    | through hparent hrelies =>
      cases hparent
      cases hrelies with
      | self => exact Pinned.not_raises hpinned hmem
      | through hparent _ => cases hparent
  | registryMinimumLeadRounds =>
    obtain ⟨block, hpinned, hcode, hlead, _⟩ := h
    cases hrelies with
    | self => exact answered_not_raises id hlead hmem
    | through hparent hrelies =>
      cases hparent
      cases hrelies with
      | self => exact hcode.not_raises hmem
      | through hparent hrelies =>
        cases hparent
        cases hrelies with
        | self => exact Pinned.not_raises hpinned hmem
        | through hparent _ => cases hparent
  | sequencerInbox =>
    obtain ⟨block, inbox, hpinned, hinbox, _⟩ := h
    cases hrelies with
    | self => exact hinbox.not_raises hmem
    | through hparent hrelies =>
      cases hparent
      cases hrelies with
      | self => exact Pinned.not_raises hpinned hmem
      | through hparent _ => cases hparent
  | maxTimeVariation =>
    obtain ⟨block, inbox, hpinned, hinbox, hvariation, _⟩ := h
    cases hrelies with
    | self => exact answered_not_raises id hvariation hmem
    | through hparent hrelies =>
      cases hparent
      cases hrelies with
      | self => exact hinbox.not_raises hmem
      | through hparent hrelies =>
        cases hparent
        cases hrelies with
        | self => exact Pinned.not_raises hpinned hmem
        | through hparent _ => cases hparent
  | wasmModuleRoot =>
    obtain ⟨block, root, hpinned, _, hroot, _⟩ := h
    cases hrelies with
    | self => exact answered_not_raises id hroot hmem
    | through hparent hrelies =>
      cases hparent
      cases hrelies with
      | self => exact Pinned.not_raises hpinned hmem
      | through hparent _ => cases hparent
  | _ => exact absurd h id

end NotRaised

/-! The report. -/

section Report

variable {lib : SecurityLibrary} {args : CliArguments} {log : SecurityLog}
  {report : VerificationReport}

theorem CheckId.text_injective : Function.Injective CheckId.text := by
  intro a b h
  cases a <;> cases b <;> first | rfl | exact absurd h (by decide)

/-- The parts of a run that came to a report. -/
theorem runSecurityCheck_ok (h : (runSecurityCheck lib args).replay log = some (.ok report)) :
    ∃ loaded parentRpcUrl before deploymentLog parentLog after deployment parent,
      args.parentRpcUrl = some parentRpcUrl ∧
      log = before ++ deploymentLog ++ parentLog ++ after ∧
      (⟨.loadChainProfile args.network, .ok loaded⟩ : Exchange SecurityRead.Reply Text) ∈ log ∧
      (∀ x ∈ before ++ after, x.query.check? = none) ∧
      (checkDeployment lib args.rpcUrl loaded).attempt.replay deploymentLog =
        some (.ok deployment) ∧
      (arbitrumNitroStage lib parentRpcUrl loaded.profile.chainAdapter.config).replay parentLog =
        some (.ok parent) ∧
      report.checks = (deploymentFindings loaded deployment).2 ++ parent.2 ∧
      report.aggregateStatus = aggregateCheckStatuses (report.checks.map (·.status)) := by
  unfold runSecurityCheck at h
  simp only [bind_eq] at h
  obtain ⟨loaded, l₁, r₁, hlog, hload, h₁⟩ := replay_bind_ok_iff.mp h
  obtain ⟨_, l₂, r₂, hr₁, hnetwork, h₂⟩ := replay_bind_ok_iff.mp h₁
  obtain ⟨parentRpcUrl, l₃, r₃, hr₂, hurl, h₃⟩ := replay_bind_ok_iff.mp h₂
  obtain ⟨repository, l₄, r₄, hr₃, hrepository, h₄⟩ := replay_bind_ok_iff.mp h₃
  obtain ⟨time, l₅, r₅, hr₄, htime, h₅⟩ := replay_bind_ok_iff.mp h₄
  obtain ⟨deployment, l₆, r₆, hr₅, hdeployment, h₆⟩ := replay_bind_ok_iff.mp h₅
  obtain ⟨parent, l₇, r₇, hr₆, hparent, h₇⟩ := replay_bind_ok_iff.mp h₆
  obtain ⟨after, l₈, r₈, hr₇, hafter, h₈⟩ := replay_bind_ok_iff.mp h₇
  obtain ⟨_, l₉, l₁₀, hr₈, hrevision, hreport⟩ := replay_bind_ok_iff.mp h₈
  obtain ⟨hl₂, _⟩ := replay_lift_ok_iff.mp hnetwork
  obtain ⟨hl₃, hurl'⟩ := replay_lift_ok_iff.mp hurl
  obtain ⟨hl₉, _⟩ := replay_lift_ok_iff.mp hrevision
  obtain ⟨hl₁₀, hreport'⟩ := replay_lift_ok_iff.mp hreport
  have hl₁ := replay_ask_ok_iff.mp hload
  have hl₄ := replay_ask_ok_iff.mp hrepository
  have hl₅ := replay_ask_ok_iff.mp htime
  have hl₈ := replay_ask_ok_iff.mp hafter
  obtain ⟨hchecks, haggregate⟩ := createVerificationReport_ok hreport'
  -- the steps that read nothing have no part of the log
  have hlog' : log = l₁ ++ l₄ ++ l₅ ++ l₆ ++ l₇ ++ l₈ := by
    rw [hlog, hr₁, hr₂, hr₃, hr₄, hr₅, hr₆, hr₇, hr₈, hl₂, hl₃, hl₉, hl₁₀]
    simp only [List.nil_append, List.append_nil, List.append_assoc]
  refine ⟨loaded, parentRpcUrl, l₁ ++ l₄ ++ l₅, l₆, l₇, l₈, deployment, parent, ?_, hlog', ?_, ?_,
    hdeployment, hparent, hchecks, ?_⟩
  · unfold requireParentRpcUrl at hurl'
    cases hargs : args.parentRpcUrl with
    | none =>
      rw [hargs] at hurl'
      cases hurl'
    | some url =>
      rw [hargs] at hurl'
      cases hurl'
      rfl
  · rw [hlog', hl₁]
    simp
  · rw [hl₁, hl₄, hl₅, hl₈]
    intro x hx
    simp only [List.cons_append, List.nil_append, List.mem_cons, List.not_mem_nil, or_false] at hx
    rcases hx with rfl | rfl | rfl | rfl <;> rfl
  · rw [hchecks]
    exact haggregate

/-- What a report rests on. -/
structure FailsClosed (lib : SecurityLibrary) (args : CliArguments) (loaded : LoadedChainProfile)
    (parentRpcUrl : Text) (log : SecurityLog) (report : VerificationReport) : Prop where
  /-- The aggregate is a match only if all six checks ran and matched. -/
  aggregate : report.aggregateStatus = .match →
    report.checks.map (·.id) = (deploymentCheckIds ++ parentCheckIds).map CheckId.text ∧
      ∀ check ∈ report.checks, check.status = .match
  /-- A check matches only on the values that were read for it. -/
  evidence : ∀ check ∈ report.checks, ∀ expected observed,
    check.result = .match expected observed → ∃ id, check.id = id.text ∧
      Established lib args loaded parentRpcUrl log id observed
  /-- A check is skipped only for an earlier one that it depends on. -/
  skipped : ∀ before check after, report.checks = before ++ check :: after →
    check.status = .skipped → SkippedFor before check
  /-- What raised an exception matches neither itself nor in a check that relies on it. -/
  exceptions : ∀ x ∈ log, Raises lib loaded x → ∀ failed, x.query.check? = some failed →
    ∀ check ∈ report.checks, ∀ id : CheckId, check.id = id.text → ReliesOn id failed →
      check.status ≠ .match

theorem failsClosed_of_closed {loaded : LoadedChainProfile} {parentRpcUrl : Text}
    (hclosed : Closed (deploymentCheckIds ++ parentCheckIds)
      (Established lib args loaded parentRpcUrl log) report.checks)
    (haggregate : report.aggregateStatus =
      aggregateCheckStatuses (report.checks.map (·.status))) :
    FailsClosed lib args loaded parentRpcUrl log report := by
  refine ⟨?_, ?_, hclosed.skipped, ?_⟩
  · intro hmatch
    rw [haggregate] at hmatch
    obtain ⟨_, hstatuses⟩ := aggregateCheckStatuses_match_iff.mp hmatch
    have hall : ∀ check ∈ report.checks, check.status = .match := by
      intro check hmem
      exact hstatuses _ (List.mem_map_of_mem hmem)
    exact ⟨hclosed.complete hall, hall⟩
  · intro check hmem expected observed hresult
    obtain ⟨id, _, hevidence⟩ := hclosed.evidence check hmem expected observed hresult
    exact ⟨id, hevidence⟩
  · intro x hx hraises failed hfailed check hmem id hid hrelies hmatch
    cases hresult : check.result with
    | «match» expected observed =>
      obtain ⟨id', _, hid', hestablished⟩ :=
        hclosed.evidence check hmem expected observed hresult
      have hsame : id' = id := CheckId.text_injective (hid'.symm.trans hid)
      rw [hsame] at hestablished
      have hread : x ∈ readsOf failed log :=
        List.mem_filter.mpr ⟨hx, beq_iff_eq.mpr hfailed⟩
      exact hestablished.not_raises hrelies hread hraises
    | _ =>
      unfold VerificationCheck.status at hmatch
      rw [hresult] at hmatch
      cases hmatch

theorem aggregateExitCode_eq_zero (h : aggregateExitCode report = 0) :
    report.aggregateStatus = .match := by
  unfold aggregateExitCode at h
  cases hstatus : report.aggregateStatus with
  | «match» => rfl
  | _ =>
    rw [hstatus] at h
    cases h

/-- The process exits with zero only on a report whose aggregate is a match. -/
theorem runCli_zero (h : (runCli lib args).replay log = some (.ok 0)) :
    ∃ checkLog report, checkLog <+: log ∧
      (runSecurityCheck lib args).replay checkLog = some (.ok report) ∧
      report.aggregateStatus = .match := by
  unfold runCli at h
  simp only [bind_eq, pure_eq] at h
  obtain ⟨outcome, l₁, l₂, hlog, hmain, hcode⟩ := replay_bind_ok_iff.mp h
  have hcode' := Except.ok.inj (replay_ret_iff.mp hcode).2
  cases outcome with
  | error error => cases hcode'
  | ok code =>
    have hmain' := replay_attempt hmain
    unfold main at hmain'
    simp only [bind_eq, pure_eq] at hmain'
    obtain ⟨report, l₃, l₄, hl₁, hcheck, hrest⟩ := replay_bind_ok_iff.mp hmain'
    obtain ⟨_, l₅, l₆, _, _, hreturn⟩ := replay_bind_ok_iff.mp hrest
    have hexit := Except.ok.inj (replay_ret_iff.mp hreturn).2
    refine ⟨l₃, report, ?_, hcheck, aggregateExitCode_eq_zero ?_⟩
    · rw [hlog, hl₁, List.append_assoc]
      exact List.prefix_append _ _
    · rw [← hexit]
      exact hcode'.symm

/-- A report rests on the reads of its stages, each of which is closed. -/
theorem runSecurityCheck_closed (h : (runSecurityCheck lib args).replay log = some (.ok report)) :
    ∃ loaded parentRpcUrl, args.parentRpcUrl = some parentRpcUrl ∧
      (⟨.loadChainProfile args.network, .ok loaded⟩ : Exchange SecurityRead.Reply Text) ∈ log ∧
      FailsClosed lib args loaded parentRpcUrl log report := by
  obtain ⟨loaded, parentRpcUrl, before, deploymentLog, parentLog, after, deployment, parent, hurl,
    hlog, hloaded, hother, hdeployment, hparent, hchecks, haggregate⟩ := runSecurityCheck_ok h
  refine ⟨loaded, parentRpcUrl, hurl, hloaded, ?_⟩
  have hdeploymentReads := checkDeployment_only.attempt.log hdeployment
  have hparentReads := arbitrumNitroStage_only.log hparent
  -- The reads of a check all lie in its own stage.
  have hbefore : ∀ check, readsOf check before = [] := by
    intro check
    apply List.filter_eq_nil_iff.mpr
    intro x hx
    rw [hother x (List.mem_append_left _ hx)]
    exact Bool.false_ne_true
  have hafter : ∀ check, readsOf check after = [] := by
    intro check
    apply List.filter_eq_nil_iff.mpr
    intro x hx
    rw [hother x (List.mem_append_right _ hx)]
    exact Bool.false_ne_true
  have hsplit : ∀ check, readsOf check log =
      readsOf check deploymentLog ++ readsOf check parentLog := by
    intro check
    rw [hlog, readsOf_append, readsOf_append, readsOf_append, hbefore, hafter]
    rw [List.nil_append, List.append_nil]
  apply failsClosed_of_closed _ haggregate
  rw [hchecks]
  apply Closed.append
  · apply deployment_closed hdeployment
    intro check hmem
    have hnot : check ∉ CheckId.parentRpcContext :: parentCheckIds := by
      revert hmem
      revert check
      decide
    rw [hsplit, readsOf_eq_nil hparentReads hnot, List.append_nil]
  · apply parent_closed hparent
    intro check hmem
    have hnot : check ∉ CheckId.deploymentRpcContext :: deploymentCheckIds := by
      revert hmem
      revert check
      decide
    rw [hsplit, readsOf_eq_nil hdeploymentReads hnot, List.nil_append]

variable (lib args) in
/-- The security check fails closed, whatever is answered to its reads, and the process
exits with zero on nothing else than a match. -/
theorem security_check_fails_closed :
    (∀ log report, (runSecurityCheck lib args).replay log = some (.ok report) →
      (∃ loaded parentRpcUrl, args.parentRpcUrl = some parentRpcUrl ∧
        (⟨.loadChainProfile args.network, .ok loaded⟩ : Exchange SecurityRead.Reply Text) ∈ log ∧
        FailsClosed lib args loaded parentRpcUrl log report) ∧
      (aggregateExitCode report = 0 ↔ report.aggregateStatus = .match)) ∧
    ∀ processLog, (runCli lib args).replay processLog = some (.ok 0) →
      ∃ checkLog report, checkLog <+: processLog ∧
        (runSecurityCheck lib args).replay checkLog = some (.ok report) ∧
        report.aggregateStatus = .match := by
  refine ⟨fun log report h => ⟨runSecurityCheck_closed h, aggregateExitCode_eq_zero, ?_⟩,
    fun processLog => runCli_zero⟩
  intro hmatch
  unfold aggregateExitCode
  rw [hmatch]

end Report

/-! A run in which everything matches: both artifacts have the code of one zero byte. -/

def zeroByteHash : Text :=
  text "0xbc36789e7a1e281436464229828f817d6612f7b477d66591ff96a9e064bcc98a"

def sampleLibrary : SecurityLibrary where
  keccak256 code := if code = text "0x00" then .ok zeroByteHash else .error (text "not sampled")
  isAddressEqual a b := .ok (toLowerHex a == toLowerHex b)

def sampleRegistry : Text := text "0x25CA96ff9CAC264b801e5a0E06a9545360494A7E"

def sampleVerifier : Text := text "0xdB5156a3daC7d220bB53642434a3043abd534Acd"

theorem sampleConfirmations_bounds : 0 < 3 ∧ 3 ≤ MAX_SAFE_INTEGER := by decide

def sampleLoaded : LoadedChainProfile where
  profile := mainnetProfile ⟨3, sampleConfirmations_bounds⟩ 3
  manifest := ⟨⟨sampleRegistry, zeroByteHash⟩, ⟨sampleVerifier, zeroByteHash⟩⟩

def sampleArguments : CliArguments :=
  ⟨text "robinhood-mainnet", text "http://l2", some (text "http://parent"), none⟩

def sampleRoot : Text :=
  text "0xc10cd7ec6acaf1c441a3f6bd0900ad20f15855ba775a96f1939118cbc629dc97"

def sampleInbox : Text := text "0xBd0D173EEb87D57A09521c24388a12789F33ba96"

def sampleRollup : Text := text "0x23A19d23e89166adedbDcB432518AB01e4272D94"

def sampleLog : SecurityLog :=
  let l2 := text "http://l2"
  let parent := text "http://parent"
  [⟨.loadChainProfile (text "robinhood-mainnet"), .ok sampleLoaded⟩,
    ⟨.repositoryState, .ok (⟨text "4f2c", false⟩ : RepositoryState)⟩,
    ⟨.verificationTime, .ok (1753700000000 : ℤ)⟩,
    answered .deploymentRpcContext l2 .chainId (4663 : ℕ),
    answered .deploymentRpcContext l2 .latestBlock (⟨some 100, 1753699999⟩ : RpcBlock),
    answered .registryRuntimeCodehash l2 (.code sampleRegistry 100) (some (text "0x00")),
    answered .verifierRuntimeCodehash l2 (.code sampleVerifier 100) (some (text "0x00")),
    answered .registryMinimumLeadRounds l2 (.minimumLeadRounds sampleRegistry 100) (3 : ℤ),
    answered .parentRpcContext parent .chainId (1 : ℕ),
    answered .parentRpcContext parent .latestBlock (⟨some 7, 1753699990⟩ : RpcBlock),
    answered .sequencerInbox parent (.sequencerInbox sampleRollup 7) sampleInbox,
    answered .maxTimeVariation parent (.maxTimeVariation sampleInbox 7)
      (⟨28800, 300, 345600, 3600⟩ : ObservedMaxTimeVariation),
    answered .wasmModuleRoot parent (.wasmModuleRoot sampleRollup 7) sampleRoot,
    ⟨.repositoryState, .ok (⟨text "4f2c", false⟩ : RepositoryState)⟩]

def sampleReport : VerificationReport :=
  let approved : ApprovedWasmModuleRoot := ⟨text "consensus-v61", sampleRoot⟩
  let variation : ObservedMaxTimeVariation := ⟨28800, 300, 345600, 3600⟩
  { network := text "robinhood-mainnet"
    chainId := 4663
    verificationTimestamp := toISOString 1753700000000
    repositoryRevision := text "4f2c"
    repositoryDirty := false
    observations := [⟨text "l2", 4663, 100, 1753699999⟩, ⟨text "parent", 1, 7, 1753699990⟩]
    checks := deploymentChecksToReportChecks ⟨.match zeroByteHash (some zeroByteHash),
        .match zeroByteHash (some zeroByteHash), .match 3 3⟩ ++
      (timestampEnvelopeChecksToReportChecks ⟨.match sampleInbox sampleInbox,
        .match variation variation⟩ ++
      [consensusRootCheckToReportCheck ⟨.match [approved] sampleRoot, some approved⟩])
    aggregateStatus := .match }

theorem run_sample : (runSecurityCheck sampleLibrary sampleArguments).replay sampleLog =
    some (.ok sampleReport) := by rfl

theorem security_check_matches :
    (runSecurityCheck sampleLibrary sampleArguments).replay sampleLog = some (.ok sampleReport) ∧
      sampleReport.aggregateStatus = .match ∧
      sampleReport.checks.map (·.id) = (deploymentCheckIds ++ parentCheckIds).map CheckId.text := by
  refine ⟨run_sample, rfl, ?_⟩
  obtain ⟨⟨_, _, _, _, hclosed⟩, _⟩ := (security_check_fails_closed _ _).1 _ _ run_sample
  exact (hclosed.aggregate rfl).1

end Quicknet.Security
