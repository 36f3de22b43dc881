import Quicknet.BeaconSchedule

/-! The consumer's commitment to a future round. The registry it reads is the one that its
constructor authenticated. -/
namespace Quicknet.Contracts

open PeriodicSchedule

inductive ConsumerError
  | invalidQuicknetBeaconRegistry
  | invalidQuicknetBeaconRegistryCodehash
  | invalidQuicknetLeadRounds
  | quicknetLeadBelowRegistryMinimum (leadRounds minimumLeadRounds : Round)
  | quicknetRoundOverflow
  /-- A revert of the registry or of a checked operation. -/
  | schedule (e : ScheduleError)
  deriving DecidableEq

/-- What the consumer's constructor sees at the configured address. -/
structure RegistryAccount where
  codeLength : ℕ
  codehash : Bytes32
  minimumLeadRounds : Round

structure RandomnessConsumer where
  quicknetBeaconRegistryCodehash : Bytes32
  quicknetLeadRounds : Round

namespace RandomnessConsumer

def create (account : RegistryAccount) (expectedRegistryCodehash : Bytes32)
    (leadRounds : Round) : Except ConsumerError RandomnessConsumer :=
  if leadRounds = 0 then .error .invalidQuicknetLeadRounds
  else if account.codeLength = 0 then .error .invalidQuicknetBeaconRegistry
  else if expectedRegistryCodehash = 0 ∨ account.codehash ≠ expectedRegistryCodehash then
    .error .invalidQuicknetBeaconRegistryCodehash
  else if leadRounds < account.minimumLeadRounds then
    .error (.quicknetLeadBelowRegistryMinimum leadRounds account.minimumLeadRounds)
  else .ok ⟨expectedRegistryCodehash, leadRounds⟩

/-- `_requestQuicknetRandomness`. The round is also what the event carries. -/
def requestQuicknetRandomness (c : RandomnessConsumer) (registry : Registry)
    (blockTimestamp : Uint256) : Except ConsumerError Round := do
  let latest ← (latestScheduledRound registry blockTimestamp).mapError .schedule
  let highest ← (subChecked (BitVec.allOnes 64) c.quicknetLeadRounds).mapError .schedule
  if highest < latest then throw .quicknetRoundOverflow
  (addChecked latest c.quicknetLeadRounds).mapError .schedule

theorem create_ok {account : RegistryAccount} {expected : Bytes32} {lead : Round}
    {c : RandomnessConsumer} (h : create account expected lead = .ok c) :
    c.quicknetLeadRounds = lead ∧ account.minimumLeadRounds ≤ lead ∧ 0 < lead.toNat := by
  unfold create at h
  split_ifs at h with hzero hcode hhash hmin
  obtain rfl := Except.ok.inj h
  refine ⟨rfl, BitVec.not_lt.mp hmin, ?_⟩
  apply Nat.pos_of_ne_zero
  intro h0
  exact hzero (BitVec.eq_of_toNat_eq h0)

/-- The commitment lies the lead ahead of the latest slot, or does not fit. -/
theorem request_eq (c : RandomnessConsumer) (registry : Registry) (now : Uint256) :
    (latest GENESIS PERIOD now.toNat + c.quicknetLeadRounds.toNat < 2^64 ∧
      ∃ round, c.requestQuicknetRandomness registry now = .ok round ∧
        round.toNat = latest GENESIS PERIOD now.toNat + c.quicknetLeadRounds.toNat) ∨
    (2^64 ≤ latest GENESIS PERIOD now.toNat + c.quicknetLeadRounds.toNat ∧
      ∃ e, c.requestQuicknetRandomness registry now = .error e) := by
  have hlead := c.quicknetLeadRounds.isLt
  have hmax : (BitVec.allOnes 64).toNat = 2^64 - 1 := BitVec.toNat_allOnes
  obtain ⟨highest, hh, hhval⟩ := subChecked_ok (a := BitVec.allOnes 64)
    (b := c.quicknetLeadRounds) (by rw [hmax]; omega)
  rw [hmax] at hhval
  rcases roundAt_eq now with ⟨hfits, v, hv, hval⟩ | ⟨hbig, herr⟩
  · have hrun : c.requestQuicknetRandomness registry now =
        if highest < v then .error .quicknetRoundOverflow
        else (addChecked v c.quicknetLeadRounds).mapError .schedule := by
      unfold requestQuicknetRandomness latestScheduledRound
      rw [hv, hh]
      rfl
    by_cases hover : highest < v
    · right
      have hlt := BitVec.lt_def.mp hover
      exact ⟨by omega, _, by rw [hrun, if_pos hover]⟩
    · left
      have hle := mt BitVec.lt_def.mpr hover
      obtain ⟨round, hround, hroundval⟩ := addChecked_ok (a := v) (b := c.quicknetLeadRounds)
        (by omega)
      refine ⟨by omega, round, ?_, by rw [hroundval, hval]⟩
      rw [hrun, if_neg hover, hround]
      rfl
  · right
    refine ⟨by omega, .schedule .invalidRound, ?_⟩
    unfold requestQuicknetRandomness latestScheduledRound
    rw [herr]
    rfl

theorem request_ok_iff {c : RandomnessConsumer} {registry : Registry} {now : Uint256}
    {round : Round} : c.requestQuicknetRandomness registry now = .ok round ↔
      round.toNat = latest GENESIS PERIOD now.toNat + c.quicknetLeadRounds.toNat := by
  have hlt := round.isLt
  rcases request_eq c registry now with ⟨_, u, hu, hval⟩ | ⟨hbig, e, he⟩
  · rw [hu, Except.ok.injEq, ← hval]
    exact ⟨fun h => h ▸ rfl, fun h => BitVec.eq_of_toNat_eq h.symm⟩
  · rw [he]
    constructor
    · intro h
      cases h
    · intro h
      omega

end RandomnessConsumer

open RandomnessConsumer in
/-- A request commits to a round that is scheduled all but two seconds of the lead from
now, whatever the registry stores, and reverts exactly when that round does not fit. -/
theorem commitment_lead {account : RegistryAccount} {expected : Bytes32} {lead : Round}
    {c : RandomnessConsumer} (h : create account expected lead = .ok c) (registry : Registry)
    (now : Uint256) :
    (∀ round, c.requestQuicknetRandomness registry now = .ok round →
      (∀ r t, roundScheduledTime r = .ok t → t ≤ now → r < round) ∧
      (∃ t, roundScheduledTime round = .ok t ∧ now.toNat + 3 * lead.toNat - 2 ≤ t.toNat ∧
        (GENESIS_TIMESTAMP.toNat ≤ now.toNat → t.toNat ≤ now.toNat + 3 * lead.toNat)) ∧
      (∀ registry', c.requestQuicknetRandomness registry' now = .ok round) ∧
      ∀ registry' later round', now ≤ later →
        c.requestQuicknetRandomness registry' later = .ok round' → round ≤ round') ∧
    ((∃ e, c.requestQuicknetRandomness registry now = .error e) ↔
      2^64 - 1 < Client.roundAt now.toNat + lead.toNat) := by
  obtain ⟨hlead, _, hpos⟩ := create_ok h
  constructor
  · intro round hround
    have hval := request_ok_iff.mp hround
    rw [hlead] at hval
    refine ⟨?_, ?_, fun registry' => request_ok_iff.mpr (request_ok_iff.mp hround), ?_⟩
    · intro r t ht hle
      obtain ⟨_, hr, htval⟩ := roundScheduledTime_eq ht
      have hnow : r.toNat ≤ latest GENESIS PERIOD now.toNat := by
        apply (le_latest_iff period_pos hr).mpr
        rw [← htval]
        exact BitVec.le_def.mp hle
      rw [BitVec.lt_def]
      omega
    · have hne : round ≠ 0 := by
        rintro rfl
        have hz : (0 : Round).toNat = 0 := rfl
        omega
      obtain ⟨t, ht, htval⟩ := roundScheduledTime_ok hne
      rw [hval] at htval
      -- the lead counts rounds, and the next round is at most a period away
      have hlow : now.toNat + lead.toNat * PERIOD + 1 ≤ scheduled GENESIS PERIOD
          (latest GENESIS PERIOD now.toNat + lead.toNat) + PERIOD :=
        lead_le_scheduled period_pos hpos now.toNat
      refine ⟨t, ht, ?_, fun hgenesis => ?_⟩
      · unfold PERIOD at hlow htval
        omega
      · have hhigh : scheduled GENESIS PERIOD (latest GENESIS PERIOD now.toNat + lead.toNat) ≤
            now.toNat + lead.toNat * PERIOD := scheduled_lead_le hgenesis
        unfold PERIOD at hhigh htval
        omega
    · intro registry' later round' hle hround'
      have hval' := request_ok_iff.mp hround'
      have hmono : latest GENESIS PERIOD now.toNat ≤ latest GENESIS PERIOD later.toNat :=
        latest_mono (BitVec.le_def.mp hle)
      rw [hlead] at hval'
      rw [BitVec.le_def]
      omega
  · have hcast : (2^64 - 1 < Client.roundAt now.toNat + lead.toNat) ↔
        2^64 ≤ latest GENESIS PERIOD now.toNat + lead.toNat := by
      rw [client_roundAt_natCast]
      omega
    rw [hcast, ← hlead]
    rcases request_eq c registry now with ⟨hfits, u, hu, _⟩ | ⟨hbig, he⟩
    · constructor
      · rintro ⟨e, he⟩
        rw [hu] at he
        cases he
      · intro hbig
        omega
    · exact ⟨fun _ => hbig, fun _ => he⟩

/-- A lead of five rounds, one second after the second round. -/
theorem commitment_lead_sample :
    (∃ t, roundScheduledTime 7 = .ok t ∧ 1692803371 + 3 * 5 - 2 ≤ t.toNat) ∧
    ∀ e, RandomnessConsumer.requestQuicknetRandomness ⟨1, 5⟩ ⟨fun _ => 0⟩ 1692803371 ≠ .error e := by
  have hcreate : RandomnessConsumer.create ⟨1, 1, 2⟩ 1 5 = .ok ⟨1, 5⟩ := rfl
  obtain ⟨hround, hrevert⟩ := commitment_lead hcreate ⟨fun _ => 0⟩ 1692803371
  obtain ⟨_, ⟨t, ht, hlow, _⟩, _, _⟩ := hround 7 (by decide)
  refine ⟨⟨t, ht, hlow⟩, fun e he => ?_⟩
  have hover := hrevert.mp ⟨e, he⟩
  exact absurd hover (by decide)

end Quicknet.Contracts
