import Quicknet.Library.Interference
import Quicknet.RegistryImport

/-! Imports of rounds while anyone submits to the registry. What an import returns is what the
registry holds from then on, on every chain the same, and the submission that it chooses still
succeeds when someone else has been faster. -/
namespace Quicknet.Rounds
open Interaction Transition
open Interaction.Prog (Secure Runs)
open Contracts hiding getBeacon isStored

/-! The chain of a registry with the deployed verifier. -/

/-- The submissions that the chain includes, by anyone and in any order. -/
abbrev RegistryChain := List Delivery

section Chain

variable (pre : Precompiles) (revertData : VerifierError → Contracts.Bytes)

def registryAfter (chain : RegistryChain) : Registry :=
  (registry.run (chain.map (Delivery.transaction pre revertData))).1

/-- The submissions that others make; none is taken back. -/
def Grows (chain chain' : RegistryChain) : Prop := chain <+: chain'

/-- A submission that does not run out of gas in the verifier. -/
def Funded (d : Delivery) : Prop := d.outOfGas = false ∧ SufficientGas d.gasleft

/-- What executing a submission returns, on the registry as it is then. -/
def execute (d : Delivery) (s : Registry) : Except SimulationFailure Bytes32 :=
  match (d.transaction pre revertData).submit s with
  | .ok r => .ok r.randomness
  | .error e => .error (.reverted e)

/-- Answers about the registry are those of a block of the chain, which may be an old one. The
calls that are simulated are funded. -/
def TruthfulReply (chain : RegistryChain) : (q : ImportQuery) → q.Reply → Prop
  | .isStored round, .ok stored => round < 2 ^ 64 ∧ ∃ block, block <+: chain ∧
      stored = Contracts.isStored (registryAfter pre revertData block) (BitVec.ofNat 64 round)
  | .getBeacon round _, .ok randomness => round < 2 ^ 64 ∧ ∃ block, block <+: chain ∧
      Contracts.getBeacon (registryAfter pre revertData block) (BitVec.ofNat 64 round) =
        .ok randomness
  | .simulate request, reply => (∃ id, reply = .error (.foreign id)) ∨
      ∃ block d, block <+: chain ∧ d.submission = request ∧ Funded d ∧
        reply = execute pre revertData d (registryAfter pre revertData block)
  | _, _ => True

/-- A call of an import leaves the chain as it is; what it submits is included later. -/
def ChainAnswers (q : ImportQuery) (chain : RegistryChain) (r : q.Reply) (chain' : RegistryChain) :
    Prop :=
  chain' = chain ∧ TruthfulReply pre revertData chain q r

/-- The registry holds the value. -/
def Holds (round : Round) (v : Bytes32) (chain : RegistryChain) : Prop :=
  v ≠ 0 ∧ (registryAfter pre revertData chain).beacons round = v

end Chain

section Registry

variable {pre : Precompiles} {revertData : VerifierError → Contracts.Bytes}
  {chain block : RegistryChain} {round : Round} {v w : Bytes32} {d : Delivery}

theorem Holds.grows (h : Holds pre revertData round v block) (hgrows : block <+: chain) :
    Holds pre revertData round v chain := by
  obtain ⟨more, rfl⟩ := hgrows
  obtain ⟨hv, hstored⟩ := h
  refine ⟨hv, ?_⟩
  have hkept : (registryAfter pre revertData (block ++ more)).beacons round =
      (registryAfter pre revertData block).beacons round := by
    unfold registryAfter at hstored ⊢
    rw [List.map_append]
    apply run_stored
    rw [hstored]
    exact hv
  rw [hkept, hstored]

/-- The value that any registry with this verifier holds for the round, if it holds one. -/
def AuthenticValue (pre : Precompiles) (round : Round) (v : Bytes32) : Prop :=
  ∃ signature, Authentic pre round signature ∧ v = pre.sha256 signature

theorem AuthenticValue.unique (hunique : PairingUnique pre) (hv : AuthenticValue pre round v)
    (hw : AuthenticValue pre round w) : v = w := by
  obtain ⟨a, ha, rfl⟩ := hv
  obtain ⟨b, hb, rfl⟩ := hw
  rw [ha.unique hunique hb]

theorem Holds.authentic (hdecode : DecodesSign pre) (h : Holds pre revertData round v chain) :
    AuthenticValue pre round v := by
  obtain ⟨hv, hstored⟩ := h
  rw [← hstored] at hv ⊢
  exact run_storesAuthentic hdecode chain round hv

/-- A submission that is executed returns what is stored, or else a value that has just been
verified. -/
theorem execute_ok_iff {s : Registry} : execute pre revertData d s = .ok v ↔
    d.submission.round ≠ 0 ∧ v ≠ 0 ∧ (s.beacons d.submission.round = v ∨
      s.beacons d.submission.round = 0 ∧
        (d.transaction pre revertData).verifier d.submission.call = .ok (true, v)) := by
  unfold execute
  constructor
  · intro h
    cases hsubmit : (d.transaction pre revertData).submit s with
    | error e =>
      rw [hsubmit] at h
      cases h
    | ok r =>
      rw [hsubmit] at h
      obtain rfl := Except.ok.inj h
      obtain ⟨hround, ⟨hstored, rfl⟩ | ⟨hempty, w, hw, hreply, rfl⟩⟩ := submit_cases hsubmit
      · exact ⟨hround, hstored, Or.inl rfl⟩
      · exact ⟨hround, hw, Or.inr ⟨hempty, hreply⟩⟩
  · rintro ⟨hround, hv, hstored | ⟨hempty, hreply⟩⟩
    · have hne : s.beacons d.submission.round ≠ 0 := by
        rw [hstored]
        exact hv
      have hsubmit : (d.transaction pre revertData).submit s =
          .ok ⟨s, s.beacons d.submission.round, none⟩ := by
        unfold Transaction.submit
        rw [show (d.transaction pre revertData).submission = d.submission from rfl,
          submit_stored _ hround hne]
        rfl
      rw [hsubmit, hstored]
    · have hsubmit := submit_fresh (t := d.transaction pre revertData) (s := s) hround
        hempty hreply hv
      rw [hsubmit]

theorem execute_authentic (hdecode : DecodesSign pre)
    (h : execute pre revertData d (registryAfter pre revertData block) = .ok v) :
    AuthenticValue pre d.submission.round v := by
  obtain ⟨_, hv, hstored | ⟨_, hreply⟩⟩ := execute_ok_iff.mp h
  · have hholds : Holds pre revertData d.submission.round v block := ⟨hv, hstored⟩
    exact hholds.authentic hdecode
  · exact verified_authentic hdecode hreply

end Registry

/-! One call of an import. -/

section Calls

variable {pre : Precompiles} {revertData : VerifierError → Contracts.Bytes} {α : Type}
  {chain : RegistryChain} {post : Except ImportFailure α → RegistryChain → Prop}

/-- A call, and what follows on its reply. -/
theorem secure_call {q : ImportQuery} {k : q.Reply → Import α}
    (hk : ∀ r chain, TruthfulReply pre revertData chain q r →
      (k r).Secure Grows (ChainAnswers pre revertData) post chain) :
    (Prog.read q k).Secure Grows (ChainAnswers pre revertData) post chain := by
  rintro chain _ r _ ⟨rfl, hr⟩
  exact hk r _ hr

/-- The check of the signal. -/
theorem secure_throwIfAborted {f : Unit → Import α}
    (hthrow : ∀ id chain, post (.error (.foreign id)) chain)
    (hf : ∀ chain, (f ()).Secure Grows (ChainAnswers pre revertData) post chain) :
    (throwIfAborted.bind f).Secure Grows (ChainAnswers pre revertData) post chain := by
  refine secure_call fun reason chain _ => ?_
  cases reason with
  | none => exact hf chain
  | some id => exact hthrow id chain

end Calls

/-! The choice of a submission. -/

section Submission

variable {Point : Type} {pre : Precompiles} {revertData : VerifierError → Contracts.Bytes}
  {G1 : NobleG1 Point} {InSubgroup : ℕ → ℕ → Prop} {chain : RegistryChain}

/-- The request is executed on the chain as it is, or as it becomes, and returns the result. -/
def Lasts (pre : Precompiles) (revertData : VerifierError → Contracts.Bytes) (request : Submission)
    (result : Bytes32) (chain : RegistryChain) : Prop :=
  ∀ chain', Grows chain chain' → ∀ d : Delivery, d.submission = request → Funded d →
    execute pre revertData d (registryAfter pre revertData chain') = .ok result

theorem mapError_ok_iff {ε ε' α : Type} {x : Except ε α} {f : ε → ε'} {a : α} :
    x.mapError f = .ok a ↔ x = .ok a := by
  cases x with
  | error e => exact ⟨fun h => (by cases h), fun h => (by cases h)⟩
  | ok b =>
    have hsame : (Except.ok b : Except ε α).mapError f = .ok b := rfl
    rw [hsame, Except.ok.injEq, Except.ok.injEq]

/-- What is verified with some gas is verified with enough of it. -/
theorem deployedVerifier_gas {gasleft gasleft' : ℕ} (hgas : SufficientGas gasleft')
    {call : VerifierCall} {v : Bytes32}
    (h : deployedVerifier pre revertData gasleft call = .ok (true, v)) :
    deployedVerifier pre revertData gasleft' call = .ok (true, v) := by
  cases call with
  | verifyBeacon round signature =>
    obtain ⟨hround, _, hv, hpoint⟩ := verifyBeacon_true_iff.mp (mapError_ok_iff.mp h)
    exact mapError_ok_iff.mpr (verifyBeacon_true_iff.mpr ⟨hround, hgas, hv, hpoint⟩)
  | verifyBeaconWithWitness round signature yHi yLo =>
    obtain ⟨hround, _, hv, hpoint⟩ :=
      verifyBeaconWithWitness_true_iff.mp (mapError_ok_iff.mp h)
    exact mapError_ok_iff.mpr
      (verifyBeaconWithWitness_true_iff.mpr ⟨hround, hgas, hv, hpoint⟩)

theorem verifier_funded {d : Delivery} (hd : Funded d) :
    (d.transaction pre revertData).verifier d.submission.call =
      deployedVerifier pre revertData d.gasleft d.submission.call := by
  change (if d.outOfGas then _ else _) = _
  rw [hd.1]
  rfl

/-- A funded submission that succeeds on one block succeeds on every later one, with the same
value: it is verified again, or somebody else has stored the value. -/
theorem execute_lasts (hdecode : DecodesSign pre) (hunique : PairingUnique pre)
    {block : RegistryChain} (hblock : block <+: chain) {d : Delivery} (hd : Funded d) {v : Bytes32}
    (h : execute pre revertData d (registryAfter pre revertData block) = .ok v) :
    Lasts pre revertData d.submission v chain := by
  intro chain' hgrows d' hsame hd'
  have hauthentic := execute_authentic hdecode h
  have hlater : block <+: chain' := hblock.trans hgrows
  obtain ⟨hround, hv, hvalue⟩ := execute_ok_iff.mp h
  apply execute_ok_iff.mpr
  rw [hsame]
  refine ⟨hround, hv, ?_⟩
  by_cases hempty : (registryAfter pre revertData chain').beacons d.submission.round = 0
  · right
    refine ⟨hempty, ?_⟩
    obtain hstored | ⟨_, hreply⟩ := hvalue
    · -- what the block holds is still there
      have hholds : Holds pre revertData d.submission.round v block := ⟨hv, hstored⟩
      have hkept := (hholds.grows hlater).2
      rw [hempty] at hkept
      exact absurd hkept.symm hv
    · rw [verifier_funded hd] at hreply
      rw [← hsame, verifier_funded hd', hsame]
      exact deployedVerifier_gas hd'.2 hreply
  · left
    have hholds : Holds pre revertData d.submission.round
        ((registryAfter pre revertData chain').beacons d.submission.round) chain' := ⟨hempty, rfl⟩
    exact (hholds.authentic hdecode).unique hunique hauthentic

end Submission

/-! The answers to the simulated calls. -/

section Simulated

variable {pre : Precompiles} {revertData : VerifierError → Contracts.Bytes} {chain : RegistryChain}
  {request : Submission} {round : Round} {signature : Contracts.Bytes} {v : Bytes32}

/-- The verifier accepts the signature, with enough gas. -/
def Signs (pre : Precompiles) (round : Round) (signature : Contracts.Bytes) (v : Bytes32) : Prop :=
  v ≠ 0 ∧ ∃ gasleft, verifyBeacon pre gasleft round signature = .ok (true, v)

theorem simulated_lasts (hdecode : DecodesSign pre) (hunique : PairingUnique pre)
    (h : TruthfulReply pre revertData chain (.simulate request) (.ok v)) :
    Lasts pre revertData request v chain ∧ AuthenticValue pre request.round v := by
  obtain ⟨id, hforeign⟩ | ⟨block, d, hblock, rfl, hd, hreply⟩ := h
  · cases hforeign
  · exact ⟨execute_lasts hdecode hunique hblock hd hreply.symm,
      execute_authentic hdecode hreply.symm⟩

/-- The compressed path returns what is stored, or else what the verifier accepts. -/
theorem simulated_compressed
    (h : TruthfulReply pre revertData chain (.simulate (.submitBeacon round signature)) (.ok v)) :
    Holds pre revertData round v chain ∨ Signs pre round signature v := by
  obtain ⟨id, hforeign⟩ | ⟨block, d, hblock, hsame, hd, hreply⟩ := h
  · cases hforeign
  · have hround : d.submission.round = round := by
      rw [hsame]
      rfl
    obtain ⟨_, hv, hstored | ⟨_, hverified⟩⟩ := execute_ok_iff.mp hreply.symm
    · left
      rw [hround] at hstored
      have hholds : Holds pre revertData round v block := ⟨hv, hstored⟩
      exact hholds.grows hblock
    · right
      rw [verifier_funded hd, hsame] at hverified
      exact ⟨hv, d.gasleft, mapError_ok_iff.mp hverified⟩

/-- A call that the verifier accepts fails only by an error of the client. -/
theorem simulated_verified {e : SimulationFailure}
    (h : TruthfulReply pre revertData chain (.simulate request) (.error e))
    (hround : request.round ≠ 0) (hv : v ≠ 0)
    (hverified : ∀ gasleft, SufficientGas gasleft →
      deployedVerifier pre revertData gasleft request.call = .ok (true, v)) :
    ∃ id, e = .foreign id := by
  obtain ⟨id, hforeign⟩ | ⟨block, d, _, rfl, hd, hreply⟩ := h
  · exact ⟨id, Except.error.inj hforeign⟩
  · -- the call succeeds, with the stored value or with the verified one
    have hanswer := hverified d.gasleft hd.2
    rw [← verifier_funded hd] at hanswer
    by_cases hempty : (registryAfter pre revertData block).beacons d.submission.round = 0
    · have hok : execute pre revertData d (registryAfter pre revertData block) = .ok v :=
        execute_ok_iff.mpr ⟨hround, hv, Or.inr ⟨hempty, hanswer⟩⟩
      rw [hok] at hreply
      cases hreply
    · have hok : execute pre revertData d (registryAfter pre revertData block) =
          .ok ((registryAfter pre revertData block).beacons d.submission.round) :=
        execute_ok_iff.mpr ⟨hround, hempty, Or.inl rfl⟩
      rw [hok] at hreply
      cases hreply

end Simulated

/-! The text of a signature, in either letter case. -/

theorem parseHex_toLower {text : List Char} (h : ∀ c ∈ text, c ∈ HEX_CHARACTERS) :
    parseHex (text.map Char.toLower) = parseHex text := by
  have hfold : ∀ acc, (text.map Char.toLower).foldl (fun acc c => acc * 16 + hexDigit c) acc =
      text.foldl (fun acc c => acc * 16 + hexDigit c) acc := by
    induction text with
    | nil => exact fun acc => rfl
    | cons c text ih =>
      intro acc
      rw [List.map_cons, List.foldl_cons, List.foldl_cons,
        hexDigit_toLower c (h c List.mem_cons_self)]
      exact ih (fun c hc => h c (List.mem_cons_of_mem _ hc)) _
  exact hfold 0

theorem encodeBeacon_spells {digits : List Char} {signature : Contracts.Bytes}
    (h : Spells digits signature) (hlen : signature.length = 48) (round : ℕ) :
    encodeBeacon round ('0' :: 'x' :: digits) = ⟨BitVec.ofNat 64 round, signature⟩ := by
  have hbytes : signatureBytes ('0' :: 'x' :: digits) = signature := by
    rw [← signatureBytes_spells h hlen]
    apply List.map_congr_left
    intro index _
    have hslice : ∀ text : List Char, slice ('0' :: 'x' :: text) (2 + index * 2)
        (2 + index * 2 + 2) = slice text (index * 2) (index * 2 + 2) := by
      intro text
      have hoff : 2 + index * 2 = index * 2 + 1 + 1 := by omega
      simp only [slice, hoff, List.take_succ_cons, List.drop_succ_cons]
    have hlower : slice (digits.map Char.toLower) (index * 2) (index * 2 + 2) =
        (slice digits (index * 2) (index * 2 + 2)).map Char.toLower := by
      rw [slice, slice, List.map_drop, List.map_take]
    simp only [hslice, hlower]
    rw [parseHex_toLower]
    intro c hc
    exact h.hex c (List.mem_of_mem_take (List.mem_of_mem_drop hc))
  rw [encodeBeacon, hbytes]

section Witness

variable {Point : Type} {pre : Precompiles} {G1 : NobleG1 Point} {InSubgroup : ℕ → ℕ → Prop}
  {round : Round} {signature : Contracts.Bytes} {digits : List Char} {v : Bytes32}

theorem bls2_decodesSign (hbls2 : Bls2Decodes pre) : DecodesSign pre := by
  intro signature xHi xLo signBit point hd hpoint
  obtain ⟨hxHi, hxLo, hroot⟩ := hbls2.sound _ _ _ _ _ hd hpoint
  exact ⟨hxHi, hxLo, hroot.sign⟩

/-- What the verifier accepts has a witness, which the client computes. -/
theorem Signs.witness (hbls2 : Bls2Decodes pre)
    (hnoble : NobleDecodes G1 InSubgroup) (hpairing : PairingSound pre InSubgroup)
    (hspells : Spells digits signature) (h : Signs pre round signature v) :
    signature.length = 48 ∧ ∃ yHi : BitVec 128, ∃ yLo : BitVec 256,
      createSignatureWitness G1 ('0' :: 'x' :: digits) = .ok ⟨yHi.toNat, yLo.toNat⟩ ∧
      ∀ gasleft, SufficientGas gasleft →
        verifyBeaconWithWitness pre gasleft round signature yHi yLo = .ok (true, v) := by
  obtain ⟨_, gasleft, hok⟩ := h
  obtain ⟨hround, _, hhash, xHi, xLo, signBit, point, hd, hpoint, haccepts⟩ :=
    verifyBeacon_true_iff.mp hok
  obtain ⟨hxHi, hxLo, hroot⟩ := hbls2.sound _ _ _ _ _ hd hpoint
  obtain ⟨pxHi, pxLo, pyHi, pyLo⟩ := point
  simp only at hxHi hxLo hroot
  subst hxHi hxLo
  have hsub := hpairing.subgroup _ _ haccepts
  simp only at hsub
  have hfits := hroot.witnessFits hpairing haccepts
  refine ⟨(decodeCanonicalG1Compressed_eq_some_iff.mp hd).1, pyHi, pyLo,
    createSignatureWitness_spells hnoble hd hroot hsub hspells, ?_⟩
  intro gasleft' hgas
  exact verifyBeaconWithWitness_true_iff.mpr
    ⟨hround, hgas, hhash, pxHi, pxLo, signBit, hd, hfits, haccepts⟩

end Witness


/-! The choice, over a whole execution. -/

section Selection

variable {Point : Type} {pre : Precompiles} {revertData : VerifierError → Contracts.Bytes}
  {G1 : NobleG1 Point} {InSubgroup : ℕ → ℕ → Prop} {chain chain' : RegistryChain} {round : ℕ}
  {text digits : List Char} {signature selector : Contracts.Bytes} {v : Bytes32}

/-- What is simulated for a round. The compressed path is chosen where the value is stored, or
where the verifier accepts the signature. -/
structure Simulated (pre : Precompiles) (revertData : VerifierError → Contracts.Bytes)
    (beacon : EncodedBeacon) (s : Simulation) (chain : RegistryChain) : Prop where
  round : s.request.round = beacon.round
  authentic : AuthenticValue pre beacon.round s.result
  lasts : Lasts pre revertData s.request s.result chain
  compressed : s.submission = .witness ∨ Holds pre revertData beacon.round s.result chain ∨
    Signs pre beacon.round beacon.signature s.result

/-- How the choice ends, without the facts about the curve. -/
def Chosen (pre : Precompiles) (revertData : VerifierError → Contracts.Bytes)
    (beacon : EncodedBeacon) (out : Except ImportFailure Simulation) (chain : RegistryChain) : Prop :=
  match out with
  | .ok s => Simulated pre revertData beacon s chain
  | .error e => ∀ r a b, e ≠ .randomnessMismatch r a b

theorem secure_simulateCompressed (hdecode : DecodesSign pre) (hunique : PairingUnique pre)
    (beacon : EncodedBeacon) (fallbackReason : WitnessFallbackReason) (chain : RegistryChain) :
    (simulateCompressed beacon fallbackReason).Secure Grows (ChainAnswers pre revertData)
      (Chosen pre revertData beacon) chain := by
  refine secure_call fun reply chain hreply => ?_
  cases reply with
  | error e =>
    intro r a b hmismatch
    cases hmismatch
  | ok result =>
    obtain ⟨hlasts, hauthentic⟩ := simulated_lasts hdecode hunique hreply
    exact ⟨rfl, hauthentic, hlasts, Or.inr (simulated_compressed hreply)⟩

theorem secure_simulateBeaconSubmission (hdecode : DecodesSign pre) (hunique : PairingUnique pre)
    (chain : RegistryChain) :
    (simulateBeaconSubmission G1 selector round text).Secure Grows (ChainAnswers pre revertData)
      (Chosen pre revertData (encodeBeacon round text)) chain := by
  unfold simulateBeaconSubmission
  simp only
  cases createSignatureWitness G1 text with
  | error _ => exact secure_simulateCompressed hdecode hunique _ _ chain
  | ok witness =>
    simp only
    split_ifs
    · intro r a b hmismatch
      cases hmismatch
    · refine secure_call fun reply chain hreply => ?_
      cases reply with
      | ok result =>
        obtain ⟨hlasts, hauthentic⟩ := simulated_lasts hdecode hunique hreply
        exact ⟨rfl, hauthentic, hlasts, Or.inl rfl⟩
      | error e =>
        change Secure _ _ _ (if isInvalidBeacon selector e then
          simulateCompressed (encodeBeacon round text) .witnessRejected
          else Prog.throw (.simulation e)) _
        split_ifs
        · exact secure_simulateCompressed hdecode hunique _ _ chain
        · intro r a b hmismatch
          cases hmismatch

/-- A signature that the verifier accepts is submitted with its witness, or the client fails. -/
def Witnessed (v : Bytes32) (out : Except ImportFailure Simulation) (_ : RegistryChain) : Prop :=
  (∃ s, out = .ok s ∧ s.submission = .witness ∧ s.result = v) ∨
    ∃ id, out = .error (.simulation (.foreign id))

theorem secure_witnessed (hbls2 : Bls2Decodes pre)
    (hnoble : NobleDecodes G1 InSubgroup) (hpairing : PairingSound pre InSubgroup)
    (hunique : PairingUnique pre) (hspells : Spells digits signature)
    (hsigns : Signs pre (BitVec.ofNat 64 round) signature v) (chain : RegistryChain) :
    (simulateBeaconSubmission G1 selector round ('0' :: 'x' :: digits)).Secure Grows
      (ChainAnswers pre revertData) (Witnessed v) chain := by
  obtain ⟨hlen, yHi, yLo, hwitness, hverified⟩ := hsigns.witness hbls2 hnoble hpairing hspells
  have hdecode := bls2_decodesSign hbls2
  obtain ⟨hv, gasleft, hok⟩ := hsigns
  have hround : BitVec.ofNat 64 round ≠ 0 := (verifyBeacon_true_iff.mp hok).1
  have hfits : ¬ (2 ^ 128 ≤ yHi.toNat ∨ 2 ^ 256 ≤ yLo.toNat) := by
    have hhi := yHi.isLt
    have hlo := yLo.isLt
    omega
  have hrequest : witnessRequest (encodeBeacon round ('0' :: 'x' :: digits))
      ⟨yHi.toNat, yLo.toNat⟩ = .submitBeaconWithWitness (BitVec.ofNat 64 round) signature yHi yLo := by
    rw [encodeBeacon_spells hspells hlen, witnessRequest, BitVec.ofNat_toNat, BitVec.ofNat_toNat,
      BitVec.setWidth_eq, BitVec.setWidth_eq]
  unfold simulateBeaconSubmission
  simp only [hwitness, if_neg hfits, hrequest]
  refine secure_call fun reply chain hreply => ?_
  have hcall : ∀ gasleft, SufficientGas gasleft →
      deployedVerifier pre revertData gasleft
        (.verifyBeaconWithWitness (BitVec.ofNat 64 round) signature yHi yLo) = .ok (true, v) :=
    fun gasleft hgas => mapError_ok_iff.mpr (hverified gasleft hgas)
  cases reply with
  | ok result =>
    left
    obtain ⟨_, hauthentic⟩ := simulated_lasts hdecode hunique hreply
    have hsame : AuthenticValue pre (BitVec.ofNat 64 round) v :=
      ⟨signature, verifyBeacon_authentic hdecode hok⟩
    exact ⟨_, rfl, rfl, hauthentic.unique hunique hsame⟩
  | error e =>
    have hanswer : TruthfulReply pre revertData chain
        (.simulate (.submitBeaconWithWitness (BitVec.ofNat 64 round) signature yHi yLo))
        (.error e) := by
      rw [← hrequest]
      exact hreply
    obtain ⟨id, rfl⟩ := simulated_verified hanswer hround hv hcall
    -- which is not taken for a rejection
    have hfailed : Witnessed v (.error (.simulation (.foreign id))) chain := Or.inr ⟨id, rfl⟩
    exact hfailed

end Selection


/-! The import, over a whole execution. -/

section Import

variable {Point : Type} {pre : Precompiles} {revertData : VerifierError → Contracts.Bytes}
  {chain : RegistryChain} {round : ℕ}

/-- How an import ends. -/
def Imported (pre : Precompiles) (revertData : VerifierError → Contracts.Bytes) (round : ℕ)
    (out : Except ImportFailure ImportResult) (chain : RegistryChain) : Prop :=
  match out with
  | .ok result => ∀ v, result.randomness? = some v →
      round < 2 ^ 64 ∧ Holds pre revertData (BitVec.ofNat 64 round) v chain
  | .error e => ∀ r a b, e ≠ .randomnessMismatch r a b

theorem imported_foreign (id : ℕ) (chain : RegistryChain) :
    Imported pre revertData round (.error (.foreign id)) chain := by
  intro r a b hmismatch
  cases hmismatch

theorem read_holds {blockNumber : Option ℕ} {v : Bytes32}
    (h : TruthfulReply pre revertData chain (.getBeacon round blockNumber) (.ok v)) :
    round < 2 ^ 64 ∧ Holds pre revertData (BitVec.ofNat 64 round) v chain := by
  obtain ⟨hround, block, hblock, hread⟩ := h
  obtain ⟨_, hstored, rfl⟩ := getBeacon_ok_iff.mp hread
  have hholds : Holds pre revertData (BitVec.ofNat 64 round)
    ((registryAfter pre revertData block).beacons (BitVec.ofNat 64 round)) block := ⟨hstored, rfl⟩
  exact ⟨hround, hholds.grows hblock⟩

/-- The attempts to read a stored value. -/
def StoredRead (pre : Precompiles) (revertData : VerifierError → Contracts.Bytes) (round : ℕ)
    (out : Except ImportFailure Bytes32) (chain : RegistryChain) : Prop :=
  match out with
  | .ok v => round < 2 ^ 64 ∧ Holds pre revertData (BitVec.ofNat 64 round) v chain
  | .error e => ∃ id, e = .foreign id

theorem secure_getBeacon (blockNumber : Option ℕ) (chain : RegistryChain) :
    (getBeacon round blockNumber).Secure Grows (ChainAnswers pre revertData)
      (StoredRead pre revertData round) chain := by
  refine secure_call fun reply chain hreply => ?_
  cases reply with
  | error id => exact ⟨id, rfl⟩
  | ok v => exact read_holds hreply

theorem secure_readStoredBeaconFrom (blockNumber remaining : ℕ) (chain : RegistryChain) :
    (readStoredBeaconFrom round blockNumber remaining).Secure Grows (ChainAnswers pre revertData)
      (StoredRead pre revertData round) chain := by
  induction remaining generalizing chain with
  | zero => exact secure_getBeacon _ chain
  | succ remaining ih =>
    have hattempt : ((getBeacon round (some blockNumber)).attempt :
        Prog ImportQuery.Reply ImportFailure (Except ImportFailure Bytes32)).Secure Grows
        (ChainAnswers pre revertData)
        (fun out chain => ∃ result, out = .ok result ∧ StoredRead pre revertData round result chain)
        chain :=
      (secure_getBeacon _ chain).attempt fun out chain h => ⟨out, rfl, h⟩
    refine hattempt.bind ?_ ?_
    · rintro result chain ⟨_, hresult, hread⟩
      obtain rfl := Except.ok.inj hresult
      cases result with
      | ok v => exact hread
      | error e => exact secure_call fun _ chain _ => ih chain
    · rintro e chain ⟨_, hresult, _⟩
      cases hresult

theorem secure_verifyStoredBeacon (hdecode : DecodesSign pre) (hunique : PairingUnique pre)
    {simulation : Simulation}
    (hauthentic : AuthenticValue pre (BitVec.ofNat 64 round) simulation.result) (receipt : Receipt)
    (chain : RegistryChain) :
    (verifyStoredBeacon round simulation receipt).Secure Grows (ChainAnswers pre revertData)
      (Imported pre revertData round) chain := by
  unfold verifyStoredBeacon
  split_ifs with hfailed
  · intro r a b hmismatch
    cases hmismatch
  · refine (secure_readStoredBeaconFrom _ _ chain).bind ?_ ?_
    · intro stored chain ⟨hround, hholds⟩
      -- what the block holds is authentic, as is what was simulated
      have hsame : stored = simulation.result :=
        (hholds.authentic hdecode).unique hunique hauthentic
      rw [if_neg (not_not.mpr hsame)]
      intro v hv
      obtain rfl := Option.some.inj hv
      exact ⟨hround, hholds⟩
    · rintro e chain ⟨id, rfl⟩
      exact imported_foreign id chain

theorem secure_submitSimulation (hdecode : DecodesSign pre) (hunique : PairingUnique pre)
    {simulation : Simulation}
    (hauthentic : AuthenticValue pre (BitVec.ofNat 64 round) simulation.result)
    (receiptTimeoutMs : ℕ) (chain : RegistryChain) :
    (submitSimulation round receiptTimeoutMs simulation).Secure Grows (ChainAnswers pre revertData)
      (Imported pre revertData round) chain := by
  have hnothing (result : ImportResult) (hresult : result.randomness? = none) (chain) :
      Imported pre revertData round (.ok result) chain := by
    intro v hv
    rw [hresult] at hv
    cases hv
  refine secure_throwIfAborted imported_foreign fun chain => ?_
  refine secure_call fun reply chain _ => ?_
  match reply with
  | .error id => exact imported_foreign id chain
  | .ok (.alreadyRetained retained) => exact hnothing _ rfl chain
  | .ok (.deferred primaryReason) => exact hnothing _ rfl chain
  | .ok (.notAcknowledged attemptId transactionHash) => exact hnothing _ rfl chain
  | .ok (.acknowledged attemptId transactionHash) =>
    refine secure_call fun receipt chain _ => ?_
    match receipt with
    | .error .timeout => exact hnothing _ rfl chain
    | .error (.foreign id) => exact imported_foreign id chain
    | .ok receipt => exact secure_verifyStoredBeacon hdecode hunique hauthentic receipt chain

theorem secure_providedOrFetched (timeoutMs : Option ℕ) (beacon : Option Drand.QuicknetBeacon)
    (chain : RegistryChain) :
    (providedOrFetched round timeoutMs beacon).Secure Grows (ChainAnswers pre revertData)
      (fun out _ => ∀ e, out = .error e → ∃ id, e = .foreign id) chain := by
  cases beacon with
  | some beacon =>
    intro e he
    cases he
  | none =>
    refine secure_throwIfAborted ?_ fun chain => ?_
    · rintro id chain e he
      exact ⟨id, (Except.error.inj he).symm⟩
    · refine secure_call fun reply chain _ => ?_
      cases reply with
      | error id => exact fun e he => ⟨id, (Except.error.inj he).symm⟩
      | ok beacon =>
        intro e he
        cases he

theorem secure_importUnstored (hdecode : DecodesSign pre) (hunique : PairingUnique pre)
    (options : ImportOptions Point) (receiptTimeoutMs : ℕ) (chain : RegistryChain) :
    (importUnstored options receiptTimeoutMs).Secure Grows (ChainAnswers pre revertData)
      (Imported pre revertData options.round) chain := by
  refine (secure_providedOrFetched _ _ chain).bind ?_ ?_
  · intro beacon chain _
    refine secure_throwIfAborted imported_foreign fun chain => ?_
    split_ifs
    · intro r a b hmismatch
      cases hmismatch
    · refine (secure_simulateBeaconSubmission hdecode hunique chain).bind ?_ fun e chain h => h
      intro simulation chain h
      exact secure_submitSimulation hdecode hunique h.authentic receiptTimeoutMs chain
  · intro e chain h
    obtain ⟨id, rfl⟩ := h e rfl
    exact imported_foreign id chain

/-- A value that is checked first. -/
theorem secure_checked {α : Type} {x : Except ImportFailure α} {f : α → Import ImportResult}
    (herror : ∀ e, x = .error e → ∀ r a b, e ≠ .randomnessMismatch r a b)
    (hok : ∀ a, (f a).Secure Grows (ChainAnswers pre revertData)
      (Imported pre revertData round) chain) :
    ((Prog.lift x).bind f).Secure Grows (ChainAnswers pre revertData)
      (Imported pre revertData round) chain := by
  cases x with
  | error e => exact herror e rfl
  | ok a => exact hok a

theorem secure_importQuicknetRound (hdecode : DecodesSign pre) (hunique : PairingUnique pre)
    (options : ImportOptions Point) (chain : RegistryChain) :
    (importQuicknetRound options).Secure Grows (ChainAnswers pre revertData)
      (Imported pre revertData options.round) chain := by
  unfold importQuicknetRound
  split_ifs
  · intro r a b hmismatch
    cases hmismatch
  · refine secure_checked ?_ fun receiptTimeoutMs => secure_checked ?_ fun _ => ?_
    · unfold validateReceiptTimeoutMs
      grind
    · unfold validateFetchTimeoutMs
      cases options.fetchTimeoutMs with
      | none => exact fun e he => (by cases he)
      | some value => grind [Option.elim, Except.map]
    · refine secure_throwIfAborted imported_foreign fun chain => ?_
      -- the deployment
      refine secure_call fun reply chain _ => ?_
      cases reply with
      | error id => exact imported_foreign id chain
      | ok _ =>
        refine secure_throwIfAborted imported_foreign fun chain => ?_
        refine secure_call fun reply chain _ => ?_
        cases reply with
        | error id => exact imported_foreign id chain
        | ok stored =>
          refine secure_throwIfAborted imported_foreign fun chain => ?_
          cases stored with
          | false => exact secure_importUnstored hdecode hunique options receiptTimeoutMs chain
          | true =>
            refine (secure_getBeacon none chain).bind ?_ ?_
            · intro randomness chain hread v hv
              obtain rfl := Option.some.inj hv
              exact hread
            · rintro e chain ⟨id, rfl⟩
              exact imported_foreign id chain

end Import


/-! The results. -/

/-- What is simulated for a beacon succeeds on the chain as it becomes, whoever stores the round
first, and for every funded sender; the compressed path is chosen only for a round that is
stored. A beacon that the verifier accepts is submitted with its witness. -/
theorem submission_selected {Point : Type} {pre : Precompiles}
    {revertData : VerifierError → Contracts.Bytes} {G1 : NobleG1 Point} {InSubgroup : ℕ → ℕ → Prop}
    (hbls2 : Bls2Decodes pre) (hnoble : NobleDecodes G1 InSubgroup)
    (hpairing : PairingSound pre InSubgroup) (hunique : PairingUnique pre)
    {selector signature : Contracts.Bytes} {round : ℕ} {digits : List Char}
    (hspells : Spells digits signature) (hlen : signature.length = 48)
    {chain chain' : RegistryChain} {out : Except ImportFailure Simulation}
    (hrun : (simulateBeaconSubmission G1 selector round ('0' :: 'x' :: digits)).Runs Grows
      (ChainAnswers pre revertData) chain out chain') :
    (∀ s, out = .ok s →
      s.request.round = BitVec.ofNat 64 round ∧
      Lasts pre revertData s.request s.result chain' ∧
      (s.submission = .witness ∨ Holds pre revertData (BitVec.ofNat 64 round) s.result chain')) ∧
    ∀ v, Signs pre (BitVec.ofNat 64 round) signature v →
      (∃ s, out = .ok s ∧ s.submission = .witness ∧ s.result = v) ∨
        ∃ id, out = .error (.simulation (.foreign id)) := by
  have hdecode := bls2_decodesSign hbls2
  have hwitnessed (v : Bytes32) (hsigns : Signs pre (BitVec.ofNat 64 round) signature v) :=
    (secure_witnessed hbls2 hnoble hpairing hunique hspells hsigns chain).runs hrun
  refine ⟨?_, hwitnessed⟩
  rintro s rfl
  have hs : Simulated pre revertData (encodeBeacon round ('0' :: 'x' :: digits)) s chain' :=
    (secure_simulateBeaconSubmission hdecode hunique chain).runs hrun
  rw [encodeBeacon_spells hspells hlen] at hs
  refine ⟨hs.round, hs.lasts, ?_⟩
  obtain hwitness | hholds | hsigns := hs.compressed
  · exact Or.inl hwitness
  · exact Or.inr hholds
  · -- what the verifier accepts has been simulated with its witness
    obtain ⟨s', hs', hwitness, _⟩ | ⟨id, hfailed⟩ := hwitnessed s.result hsigns
    · obtain rfl := Except.ok.inj hs'
      exact Or.inl hwitness
    · cases hfailed

/-- What an import returns is the value of the round from then on, and the only one that the
registry has announced for it; the stored value is never another than the simulated one. -/
theorem import_result_lasts {Point : Type} {pre : Precompiles}
    {revertData : VerifierError → Contracts.Bytes} (hdecode : DecodesSign pre)
    (hunique : PairingUnique pre) {options : ImportOptions Point} {chain chain' : RegistryChain}
    {out : Except ImportFailure ImportResult}
    (hrun : (importQuicknetRound options).Runs Grows (ChainAnswers pre revertData) chain out
      chain') :
    (∀ result v, out = .ok result → result.randomness? = some v → options.round < 2 ^ 64 ∧
      ∀ more, Contracts.getBeacon (registryAfter pre revertData (chain' ++ more))
          (BitVec.ofNat 64 options.round) = .ok v ∧
        storedValues (registry.run ((chain' ++ more).map (Delivery.transaction pre revertData))).2
          (BitVec.ofNat 64 options.round) = [v]) ∧
    ∀ r a b, out ≠ .error (.randomnessMismatch r a b) := by
  have himported := (secure_importQuicknetRound hdecode hunique options chain).runs hrun
  constructor
  · rintro result v rfl hv
    obtain ⟨hround, hholds⟩ := himported v hv
    refine ⟨hround, fun more => ?_⟩
    have hmatches := run_logMatches ((chain' ++ more).map (Delivery.transaction pre revertData))
    obtain ⟨hne, hlater⟩ := hholds.grows (List.prefix_append chain' more)
    have hstored : (registryAfter pre revertData (chain' ++ more)).beacons
        (BitVec.ofNat 64 options.round) ≠ 0 := by
      rw [hlater]
      exact hne
    constructor
    · refine getBeacon_ok_iff.mpr ⟨fun hzero => ?_, hstored, hlater.symm⟩
      rw [hzero] at hstored
      exact hstored hmatches.zero
    · have hvalues := hmatches.values (BitVec.ofNat 64 options.round)
      change _ = if (registryAfter pre revertData (chain' ++ more)).beacons _ = 0 then _ else
        [(registryAfter pre revertData (chain' ++ more)).beacons _] at hvalues
      rw [if_neg hstored, hlater] at hvalues
      exact hvalues
  · rintro r a b rfl
    exact himported r a b rfl

/-- Clients that import one round return one value, also from the registries of different
chains. -/
theorem imports_agree {Point Point' : Type} {pre : Precompiles}
    {revertData revertData' : VerifierError → Contracts.Bytes} (hdecode : DecodesSign pre)
    (hunique : PairingUnique pre) {options : ImportOptions Point} {options' : ImportOptions Point'}
    (hsame : options.round = options'.round) {chain chain' other other' : RegistryChain}
    {result result' : ImportResult}
    (hrun : (importQuicknetRound options).Runs Grows (ChainAnswers pre revertData) chain
      (.ok result) chain')
    (hrun' : (importQuicknetRound options').Runs Grows (ChainAnswers pre revertData') other
      (.ok result') other')
    {v w : Bytes32} (hv : result.randomness? = some v) (hw : result'.randomness? = some w) :
    v = w := by
  obtain ⟨_, hholds⟩ := (secure_importQuicknetRound hdecode hunique options chain).runs hrun v hv
  obtain ⟨_, hholds'⟩ := (secure_importQuicknetRound hdecode hunique options' other).runs hrun' w hw
  have hauthentic := hholds'.authentic hdecode
  rw [← hsame] at hauthentic
  exact (hholds.authentic hdecode).unique hunique hauthentic

/-! An import of round 1000, while someone else stores it. -/

section Sample

def sampleText : List Char := '0' :: 'x' :: hexOf SELF_TEST_SIGNATURE

def sampleOptions : ImportOptions (ℕ × ℕ) where
  G1 := squareRootNoble
  invalidBeacon := []
  round := 1000
  beacon := some ⟨1000, sampleText⟩
  receiptTimeoutMs := none
  fetchTimeoutMs := none

theorem sample_signs : verifyBeaconWithWitness squareRootBls2 600000 (BitVec.ofNat 64 1000)
    SELF_TEST_SIGNATURE SELF_TEST_Y_HI SELF_TEST_Y_LO = .ok (true, SELF_TEST_RANDOMNESS) :=
  selfTest_verifyBeaconWithWitness

theorem sample_witness : createSignatureWitness squareRootNoble sampleText =
    .ok ⟨SELF_TEST_Y_HI.toNat, SELF_TEST_Y_LO.toNat⟩ := by
  obtain ⟨_, _, _, xHi, xLo, signBit, hd, hfits, haccepts⟩ :=
    verifyBeaconWithWitness_true_iff.mp sample_signs
  have hsub := squareRootBls2_pairing.subgroup _ _ haccepts
  simp only at hsub
  exact createSignatureWitness_spells squareRootNoble_decodes hd
    (hfits.isRoot squareRootBls2_pairing haccepts) hsub (spells_hexOf _)

def sampleSimulation : Simulation where
  request := witnessDelivery.submission
  result := SELF_TEST_RANDOMNESS
  submission := .witness

abbrev SampleAnswers := ChainAnswers squareRootBls2 fun _ => []

theorem sample_unique : PairingUnique squareRootBls2 := selfTest_unique

theorem sample_executed : execute squareRootBls2 (fun _ => []) witnessDelivery
    (registryAfter squareRootBls2 (fun _ => []) []) = .ok SELF_TEST_RANDOMNESS :=
  execute_ok_iff.mpr ⟨by decide, by decide,
    Or.inr ⟨rfl, mapError_ok_iff (f := fun _ => []).mpr sample_signs⟩⟩

theorem sample_simulates : (simulateBeaconSubmission squareRootNoble [] 1000 sampleText).Runs Grows
    SampleAnswers [] (.ok sampleSimulation) [] := by
  have hlen : SELF_TEST_SIGNATURE.length = 48 := rfl
  have hfits : ¬ (2 ^ 128 ≤ SELF_TEST_Y_HI.toNat ∨ 2 ^ 256 ≤ SELF_TEST_Y_LO.toNat) := by decide
  have hrequest : witnessRequest (encodeBeacon 1000 sampleText)
      ⟨SELF_TEST_Y_HI.toNat, SELF_TEST_Y_LO.toNat⟩ = witnessDelivery.submission := by
    rw [sampleText, encodeBeacon_spells (spells_hexOf _) hlen, witnessRequest,
      BitVec.ofNat_toNat, BitVec.ofNat_toNat, BitVec.setWidth_eq, BitVec.setWidth_eq]
    rfl
  unfold simulateBeaconSubmission
  simp only [sample_witness, if_neg hfits, hrequest]
  have hfunded : Funded witnessDelivery := ⟨rfl, by unfold SufficientGas; decide⟩
  have hreply : SampleAnswers (.simulate witnessDelivery.submission) []
      (.ok SELF_TEST_RANDOMNESS) [] :=
    ⟨rfl, Or.inr ⟨[], witnessDelivery, List.prefix_rfl, rfl, hfunded, sample_executed.symm⟩⟩
  exact Runs.read List.prefix_rfl hreply (Runs.ret _ _)

theorem sample_read : Contracts.getBeacon
    (registryAfter squareRootBls2 (fun _ => []) [witnessDelivery]) (BitVec.ofNat 64 1000) = .ok SELF_TEST_RANDOMNESS := by
  have hstores : (registryAfter squareRootBls2 (fun _ => []) [witnessDelivery]).beacons
      (BitVec.ofNat 64 1000) = SELF_TEST_RANDOMNESS := by
    apply run_first
    · decide
    · exact mapError_ok_iff (f := fun _ => []).mpr sample_signs
    · decide
  refine getBeacon_ok_iff.mpr ⟨by decide, fun hzero => ?_, hstores.symm⟩
  rw [hstores] at hzero
  exact absurd hzero (by decide)

/-- Nobody has aborted. -/
theorem runs_throwIfAborted {α : Type} {f : Unit → Import α} {chain chain' : RegistryChain}
    {out : Except ImportFailure α} (h : (f ()).Runs Grows SampleAnswers chain out chain') :
    (throwIfAborted.bind f).Runs Grows SampleAnswers chain out chain' := by
  have hsignal : SampleAnswers .signal chain none chain := ⟨rfl, trivial⟩
  exact Runs.read List.prefix_rfl hsignal h

theorem sample_unstored : (importUnstored sampleOptions 30000).Runs Grows SampleAnswers []
    (.ok (.imported .witness SELF_TEST_RANDOMNESS 7)) [witnessDelivery] := by
  have hsignal : SampleAnswers .signal [] none [] := ⟨rfl, trivial⟩
  have hsubmitted : SampleAnswers (.submit witnessDelivery.submission) []
    (.ok (.acknowledged 0 7)) [] := ⟨rfl, trivial⟩
  have hreceipt : SampleAnswers (.receipt 7 30000) [witnessDelivery] (.ok ⟨7, 2, true⟩)
    [witnessDelivery] := ⟨rfl, trivial⟩
  have hstored : SampleAnswers (.getBeacon 1000 (some 2)) [witnessDelivery]
      (.ok SELF_TEST_RANDOMNESS) [witnessDelivery] :=
    ⟨rfl, by decide, _, List.prefix_rfl, sample_read⟩
  have hrest : ((simulateBeaconSubmission squareRootNoble [] 1000 sampleText).bind
      (submitSimulation 1000 30000)).Runs Grows SampleAnswers []
      (.ok (.imported .witness SELF_TEST_RANDOMNESS 7)) [witnessDelivery] := by
    apply Runs.bind sample_simulates
    refine Runs.read List.prefix_rfl hsignal ?_
    refine Runs.read List.prefix_rfl hsubmitted ?_
    -- someone else has been faster
    refine Runs.read (List.prefix_append [] [witnessDelivery]) hreceipt ?_
    exact Runs.read List.prefix_rfl hstored (Runs.ret _ _)
  unfold importUnstored
  simp only [sampleOptions, providedOrFetched, Prog.bind_eq, Prog.pure_eq, Prog.bind, ne_eq,
    not_true_eq_false, if_false]
  apply runs_throwIfAborted
  exact hrest

theorem sample_imports : (importQuicknetRound sampleOptions).Runs Grows SampleAnswers []
    (.ok (.imported .witness SELF_TEST_RANDOMNESS 7)) [witnessDelivery] := by
  have hsignal : SampleAnswers .signal [] none [] := ⟨rfl, trivial⟩
  have hdeployed : SampleAnswers .verifyDeployment [] (.ok ()) [] := ⟨rfl, trivial⟩
  have hempty : SampleAnswers (.isStored 1000) [] (.ok false) [] :=
    ⟨rfl, by decide, [], List.prefix_rfl, rfl⟩
  refine Runs.read List.prefix_rfl hsignal ?_
  refine Runs.read List.prefix_rfl hdeployed ?_
  refine Runs.read List.prefix_rfl hsignal ?_
  refine Runs.read List.prefix_rfl hempty ?_
  refine Runs.read List.prefix_rfl hsignal ?_
  exact sample_unstored

/-- Later, on the registry that holds the round. -/
theorem sample_already_stored : (importQuicknetRound sampleOptions).Runs Grows SampleAnswers
    [witnessDelivery] (.ok (.alreadyStored SELF_TEST_RANDOMNESS)) [witnessDelivery] := by
  have hsignal : SampleAnswers .signal [witnessDelivery] none [witnessDelivery] := ⟨rfl, trivial⟩
  have hdeployed : SampleAnswers .verifyDeployment [witnessDelivery] (.ok ()) [witnessDelivery] :=
    ⟨rfl, trivial⟩
  have hheld : Contracts.isStored (registryAfter squareRootBls2 (fun _ => []) [witnessDelivery])
      (BitVec.ofNat 64 1000) = true := by
    obtain ⟨hround, hne, _⟩ := getBeacon_ok_iff.mp sample_read
    exact isStored_iff.mpr ⟨hround, hne⟩
  have hisStored : SampleAnswers (.isStored 1000) [witnessDelivery] (.ok true) [witnessDelivery] :=
    ⟨rfl, by decide, _, List.prefix_rfl, hheld.symm⟩
  have hread : SampleAnswers (.getBeacon 1000 none) [witnessDelivery] (.ok SELF_TEST_RANDOMNESS)
    [witnessDelivery] := ⟨rfl, by decide, _, List.prefix_rfl, sample_read⟩
  refine Runs.read List.prefix_rfl hsignal ?_
  refine Runs.read List.prefix_rfl hdeployed ?_
  refine Runs.read List.prefix_rfl hsignal ?_
  refine Runs.read List.prefix_rfl hisStored ?_
  refine Runs.read List.prefix_rfl hsignal ?_
  exact Runs.read List.prefix_rfl hread (Runs.ret _ _)
theorem submission_selected_sample :
    Lasts squareRootBls2 (fun _ => []) witnessDelivery.submission SELF_TEST_RANDOMNESS [] :=
  ((submission_selected squareRootBls2_decodes squareRootNoble_decodes
    squareRootBls2_pairing sample_unique (spells_hexOf SELF_TEST_SIGNATURE) rfl
    sample_simulates).1 sampleSimulation rfl).2.1

theorem import_result_lasts_sample : Contracts.getBeacon
    (registryAfter squareRootBls2 (fun _ => []) [witnessDelivery, compressedDelivery])
      (BitVec.ofNat 64 1000) = .ok SELF_TEST_RANDOMNESS :=
  (((import_result_lasts (bls2_decodesSign squareRootBls2_decodes) sample_unique
    sample_imports).1 _ _ rfl rfl).2 [compressedDelivery]).1

theorem imports_agree_sample : (ImportResult.imported .witness SELF_TEST_RANDOMNESS 7).randomness? =
    (ImportResult.alreadyStored SELF_TEST_RANDOMNESS).randomness? :=
  congrArg some (imports_agree (bls2_decodesSign squareRootBls2_decodes) sample_unique rfl
    sample_imports sample_already_stored rfl rfl)

end Sample


end Quicknet.Rounds
