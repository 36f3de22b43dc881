import Quicknet.BeaconVerifier

/-! Two registries whose verifier is the contract never hold different values
for one round. -/
namespace Quicknet.Contracts
open Transition

/-- A call of the deployed verifier, with the gas left at its pairing check and
the data its errors revert with. -/
def deployedVerifier (pre : Precompiles) (revertData : VerifierError → Bytes) (gasleft : ℕ) :
    (call : VerifierCall) → VerifierReply call
  | .verifyBeacon round signature =>
    (verifyBeacon pre gasleft round signature).mapError revertData
  | .verifyBeaconWithWitness round signature yHi yLo =>
    (verifyBeaconWithWitness pre gasleft round signature yHi yLo).mapError revertData

/-- A submission by anyone, with the gas it brings; it may also run out of gas
anywhere in the verifier, which reverts without data. -/
structure Delivery where
  sender : Address
  submission : Submission
  gasleft : ℕ
  outOfGas : Bool

def Delivery.transaction (pre : Precompiles) (revertData : VerifierError → Bytes)
    (d : Delivery) : Transaction where
  sender := d.sender
  submission := d.submission
  verifier call :=
    if d.outOfGas then .error [] else deployedVerifier pre revertData d.gasleft call

/-- The library's decoding, where it returns, yields the encoded `x` and the `y`
whose sign is the encoded one. -/
def DecodesSign (pre : Precompiles) : Prop :=
  ∀ signature xHi xLo signBit point,
    decodeCanonicalG1Compressed signature = some (xHi, xLo, signBit) →
    pre.g1UnmarshalCompressed signature = some point →
    point.xHi = xHi ∧ point.xLo = xLo ∧
      signBit = decide (fieldModulus < 2 * limbs point.yHi point.yLo)

/-- At most one point passes the pairing check of a round. -/
def PairingUnique (pre : Precompiles) : Prop :=
  ∀ round point point', Accepts pre round point → Accepts pre round point' → point = point'

/-- The signature is the canonical encoding of a point that the pairing accepts. -/
def Authentic (pre : Precompiles) (round : Round) (signature : Bytes) : Prop :=
  ∃ point, Accepts pre round point ∧
    decodeCanonicalG1Compressed signature =
      some (point.xHi, point.xLo, decide (fieldModulus < 2 * limbs point.yHi point.yLo))

theorem Authentic.unique {pre : Precompiles} (hunique : PairingUnique pre) {round : Round}
    {a b : Bytes} (ha : Authentic pre round a) (hb : Authentic pre round b) : a = b := by
  obtain ⟨p, hp, ha⟩ := ha
  obtain ⟨q, hq, hb⟩ := hb
  rw [hunique round q p hq hp] at hb
  exact decodeCanonicalG1Compressed_inj ha hb

theorem verifyBeacon_authentic {pre : Precompiles} (hdecode : DecodesSign pre) {gasleft : ℕ}
    {round : Round} {signature : Bytes} {v : Bytes32}
    (h : verifyBeacon pre gasleft round signature = .ok (true, v)) :
    Authentic pre round signature ∧ v = pre.sha256 signature := by
  obtain ⟨_, _, hv, xHi, xLo, signBit, point, hd, hpoint, haccepts⟩ :=
    verifyBeacon_true_iff.mp h
  obtain ⟨hxHi, hxLo, hsign⟩ := hdecode _ _ _ _ _ hd hpoint
  refine ⟨⟨point, haccepts, ?_⟩, hv⟩
  rw [hd, hxHi, hxLo, hsign]

theorem verifyBeaconWithWitness_authentic {pre : Precompiles} {gasleft : ℕ} {round : Round}
    {signature : Bytes} {yHi : BitVec 128} {yLo : BitVec 256} {v : Bytes32}
    (h : verifyBeaconWithWitness pre gasleft round signature yHi yLo = .ok (true, v)) :
    Authentic pre round signature ∧ v = pre.sha256 signature := by
  obtain ⟨_, _, hv, xHi, xLo, signBit, hd, hfits, haccepts⟩ :=
    verifyBeaconWithWitness_true_iff.mp h
  refine ⟨⟨⟨xHi, xLo, yHi, yLo⟩, haccepts, ?_⟩, hv⟩
  rw [hd, hfits.sign]

/-- Whichever entry point answered, a verified value is the hash of an authentic
signature. -/
theorem verified_authentic {pre : Precompiles} {revertData : VerifierError → Bytes}
    (hdecode : DecodesSign pre) {d : Delivery} {v : Bytes32}
    (h : (d.transaction pre revertData).verifier d.submission.call = .ok (true, v)) :
    ∃ signature, Authentic pre d.submission.round signature ∧ v = pre.sha256 signature := by
  have hmap {x : Except VerifierError (Bool × Bytes32)} {y : Bool × Bytes32}
      (hx : x.mapError revertData = .ok y) : x = .ok y := by
    cases x with
    | error e => cases hx
    | ok a => exact congrArg Except.ok (Except.ok.inj hx)
  simp only [Delivery.transaction] at h
  split at h
  · cases h
  · cases hsub : d.submission with
    | submitBeacon round signature =>
      rw [hsub] at h
      exact ⟨signature, verifyBeacon_authentic hdecode (hmap h)⟩
    | submitBeaconWithWitness round signature yHi yLo =>
      rw [hsub] at h
      exact ⟨signature, verifyBeaconWithWitness_authentic (hmap h)⟩

/-- Every stored value is the hash of an authentic signature of its round. -/
def StoresAuthentic (pre : Precompiles) (s : Registry) : Prop :=
  ∀ round, s.beacons round ≠ 0 →
    ∃ signature, Authentic pre round signature ∧ s.beacons round = pre.sha256 signature

theorem next_storesAuthentic {pre : Precompiles} {revertData : VerifierError → Bytes}
    (hdecode : DecodesSign pre) (d : Delivery) {s : Registry × List BeaconStored}
    (h : StoresAuthentic pre s.1) :
    StoresAuthentic pre (registry.next s (d.transaction pre revertData)).1 := by
  unfold System.next
  split
  · exact h
  · rename_i s' e hstep
    obtain ⟨v, hsubmit⟩ := registry_step_iff.mp hstep
    obtain ⟨_, ⟨_, hr⟩ | ⟨_, w, _, hw, hr⟩⟩ := submit_cases hsubmit
    · cases hr
      exact h
    · cases hr
      intro round hround
      change Function.update s.1.beacons d.submission.round v round ≠ 0 at hround
      change ∃ signature, _ ∧ Function.update s.1.beacons d.submission.round v round = _
      by_cases hr : round = d.submission.round
      · subst hr
        rw [Function.update_self]
        exact verified_authentic hdecode hw
      · rw [Function.update_of_ne hr] at hround ⊢
        exact h round hround

theorem run_storesAuthentic {pre : Precompiles} {revertData : VerifierError → Bytes}
    (hdecode : DecodesSign pre) (ds : List Delivery) :
    StoresAuthentic pre (registry.run (ds.map (Delivery.transaction pre revertData))).1 := by
  induction ds using List.reverseRecOn with
  | nil =>
    intro round hround
    exact absurd rfl hround
  | append_singleton ds d ih =>
    rw [List.map_append, List.map_singleton, System.run_append_singleton]
    exact next_storesAuthentic hdecode d ih

/-- Two runs of the registry that both store a value for a round store the same
value. -/
theorem registries_agree (pre : Precompiles) (revertData : VerifierError → Bytes)
    (hunique : PairingUnique pre) (hdecode : DecodesSign pre) (ds es : List Delivery)
    (round : Round)
    (hd : (registry.run (ds.map (Delivery.transaction pre revertData))).1.beacons round ≠ 0)
    (he : (registry.run (es.map (Delivery.transaction pre revertData))).1.beacons round ≠ 0) :
    (registry.run (ds.map (Delivery.transaction pre revertData))).1.beacons round =
      (registry.run (es.map (Delivery.transaction pre revertData))).1.beacons round := by
  obtain ⟨a, ha, hav⟩ := run_storesAuthentic hdecode ds round hd
  obtain ⟨b, hb, hbv⟩ := run_storesAuthentic hdecode es round he
  rw [hav, hbv, ha.unique hunique hb]

/-! The two entry points on the known answer of round 1000, which the constructor
also checks. The parameters answer there as the library and the precompiles do. -/

def selfTestMessage : PointG1 where
  xHi := 0x0f5a32d53837b00fbc0ee31ce9966435
  xLo := 0xa41c5188a80ce9934d3c80588b6ad6f643ebda1b83ef89e44da9ced6205cdecf
  yHi := 0x04754d95146af4bd20a900b0494bcd1f
  yLo := 0xb6406778975b4a9e38e806651736ff051ba689cf130adb29d362a1ab3214e6f7

def selfTestPoint : PointG1 where
  xHi := 0x144679b9a59af2ec876b1a6b1ad52ea9
  xLo := 0xb1615fc3982b19576350f93447cb1125e342b73a8dd2bacbe47e4b6b63ed5e39
  yHi := SELF_TEST_Y_HI
  yLo := SELF_TEST_Y_LO

def selfTestRoundHash : Bytes32 :=
  0xf652498d092acd949bad74e40683bf3824fb817980504a0c7e6722cfc5a9c0a3

def selfTest : Precompiles where
  sha256 b :=
    if b = SELF_TEST_SIGNATURE then SELF_TEST_RANDOMNESS
    else if b = encodePacked 8 1000 then selfTestRoundHash
    else 0
  hashToPoint dst message :=
    if dst = DST ∧ message = encodePacked 32 selfTestRoundHash.toNat then some selfTestMessage
    else none
  g1UnmarshalCompressed b := if b = SELF_TEST_SIGNATURE then some selfTestPoint else none
  pairing input :=
    if input = pairingInput selfTestPoint selfTestMessage then ⟨true, 32, 1⟩ else ⟨true, 32, 0⟩

theorem selfTest_decode : decodeCanonicalG1Compressed SELF_TEST_SIGNATURE =
    some (selfTestPoint.xHi, selfTestPoint.xLo, true) := by
  decide +kernel

theorem selfTest_sign :
    fieldModulus < 2 * limbs selfTestPoint.yHi selfTestPoint.yLo := by
  decide +kernel

theorem selfTest_message : messagePoint selfTest SELF_TEST_ROUND = some selfTestMessage := by
  decide +kernel

theorem selfTest_accepts : Accepts selfTest SELF_TEST_ROUND selfTestPoint := by
  refine ⟨selfTestMessage, selfTest_message, ?_⟩
  simp only [selfTest, if_true]

theorem pairingInput_inj {p q m n : PointG1} (h : pairingInput p m = pairingInput q n) : p = q := by
  obtain ⟨pxHi, pxLo, pyHi, pyLo⟩ := p
  obtain ⟨qxHi, qxLo, qyHi, qyLo⟩ := q
  have hwiden {a b : BitVec 128} (hab : a.setWidth 256 = b.setWidth 256) : a = b := by
    apply BitVec.eq_of_toNat_eq
    have hnat := congrArg BitVec.toNat hab
    rw [BitVec.toNat_setWidth, BitVec.toNat_setWidth] at hnat
    omega
  simp only [pairingInput, PointG1.words, List.cons_append, List.nil_append,
    List.cons.injEq] at h
  rw [hwiden h.1, h.2.1, hwiden h.2.2.1, h.2.2.2.1]

theorem selfTest_unique : PairingUnique selfTest := by
  have honly : ∀ round point, Accepts selfTest round point → point = selfTestPoint := by
    rintro round point ⟨message, _, hpairing⟩
    simp only [selfTest] at hpairing
    split at hpairing
    · rename_i hinput
      exact pairingInput_inj hinput
    · cases hpairing
  intro round point point' h h'
  rw [honly round point h, honly round point' h']

theorem selfTest_decodes : DecodesSign selfTest := by
  intro signature xHi xLo signBit point hd hpoint
  simp only [selfTest] at hpoint
  split at hpoint
  · rename_i hsig
    cases hpoint
    rw [hsig, selfTest_decode] at hd
    cases hd
    exact ⟨rfl, rfl, (decide_eq_true selfTest_sign).symm⟩
  · cases hpoint

theorem selfTest_verifyBeacon :
    verifyBeacon selfTest 600000 SELF_TEST_ROUND SELF_TEST_SIGNATURE =
      .ok (true, SELF_TEST_RANDOMNESS) := by
  rw [verifyBeacon_true_iff]
  refine ⟨by decide, by unfold SufficientGas; decide, ?_, _, _, _, _, selfTest_decode, ?_,
    selfTest_accepts⟩
  · simp only [selfTest, if_true]
  · simp only [selfTest, if_true]

theorem selfTest_verifyBeaconWithWitness :
    verifyBeaconWithWitness selfTest 600000 SELF_TEST_ROUND SELF_TEST_SIGNATURE SELF_TEST_Y_HI
      SELF_TEST_Y_LO = .ok (true, SELF_TEST_RANDOMNESS) := by
  rw [verifyBeaconWithWitness_true_iff]
  refine ⟨by decide, by unfold SufficientGas; decide, ?_, _, _, _, selfTest_decode,
    ⟨by decide +kernel, by decide +kernel, (decide_eq_true selfTest_sign).symm⟩,
    selfTest_accepts⟩
  simp only [selfTest, if_true]

/-- The first submission of a round stores what the verifier returns. -/
theorem run_first {t : Transaction} {v : Bytes32} (hround : t.submission.round ≠ 0)
    (hreply : t.verifier t.submission.call = .ok (true, v)) (hv : v ≠ 0) :
    (registry.run [t]).1.beacons t.submission.round = v := by
  have hstep : registry.step t registry.init =
      some (⟨Function.update registry.init.beacons t.submission.round v⟩,
        some ⟨t.submission.round, v, t.sender⟩) :=
    registry_step_iff.mpr ⟨v, submit_fresh hround rfl hreply hv⟩
  change (registry.next (registry.init, []) t).1.beacons t.submission.round = v
  unfold System.next
  rw [hstep]
  exact Function.update_self _ _ _

def compressedDelivery : Delivery :=
  ⟨1, .submitBeacon SELF_TEST_ROUND SELF_TEST_SIGNATURE, 600000, false⟩

def witnessDelivery : Delivery :=
  ⟨2, .submitBeaconWithWitness SELF_TEST_ROUND SELF_TEST_SIGNATURE SELF_TEST_Y_HI
    SELF_TEST_Y_LO, 600000, false⟩

theorem compressedDelivery_stores :
    (registry.run ([compressedDelivery].map (Delivery.transaction selfTest fun _ => []))).1.beacons
      SELF_TEST_ROUND = SELF_TEST_RANDOMNESS := by
  apply run_first
  · decide
  · exact congrArg (Except.mapError fun _ => []) selfTest_verifyBeacon
  · decide

theorem witnessDelivery_stores :
    (registry.run ([witnessDelivery].map (Delivery.transaction selfTest fun _ => []))).1.beacons
      SELF_TEST_ROUND = SELF_TEST_RANDOMNESS := by
  apply run_first
  · decide
  · exact congrArg (Except.mapError fun _ => []) selfTest_verifyBeaconWithWitness
  · decide

theorem selfTest_registries_agree :
    (registry.run ([compressedDelivery].map (Delivery.transaction selfTest fun _ => []))).1.beacons
      SELF_TEST_ROUND =
    (registry.run ([witnessDelivery].map (Delivery.transaction selfTest fun _ => []))).1.beacons
      SELF_TEST_ROUND := by
  have hne : SELF_TEST_RANDOMNESS ≠ 0 := by decide
  apply registries_agree selfTest (fun _ => []) selfTest_unique selfTest_decodes
  · rw [compressedDelivery_stores]
    exact hne
  · rw [witnessDelivery_stores]
    exact hne

end Quicknet.Contracts
