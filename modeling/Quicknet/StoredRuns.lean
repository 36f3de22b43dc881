import Quicknet.SignerReach
import Quicknet.StoredSigner

/-! Runs of the signer with its store, in which every text that is saved fits in the file.
The world is one of a run of the signer alone, the journal on disk is what that run says,
and no write fails. -/
namespace Quicknet

open DurableFile Interaction Transition SignerCoordinator

/-! What an action does in which the store has no part. -/

section Act

variable {lib : TransactionLibrary} {identity : JournalIdentity} {c c' : SignerCoordinator}
  {e : Option Event} {i : Input}

theorem startOperation_task (hbusy : c.busy = true) {now : Timestamp}
    (h : c.startOperation now = some (c', e)) : c'.task = c.task := by
  obtain ⟨owner, _, h⟩ := Option.bind_eq_some_iff.mp h
  have hrefused : c.assertInspectionWorkAllowed owner = false := by
    simp [assertInspectionWorkAllowed, hbusy]
  split at h
  · rw [if_neg (by simp [hrefused])] at h
    obtain ⟨rfl, _⟩ := Prod.mk.inj (Option.some.inj h)
    rfl
  · cases h

/-- While a save is awaited, only an answer of the store ends the operation. -/
theorem storing_waits {k : Continuation} (hk : c.task = some (.storing k)) (hbusy : c.busy = true)
    (hi : i.action.leavesStore = true) (h : coordinatorStep lib identity i c = some (c', e)) :
    c'.task = c.task := by
  obtain ⟨now, action⟩ := i
  have hfirst {d : SignerCoordinator} {x : Option Event} (hs : some (d, x) = some (c', e))
      (hd : d.task = c.task) : c'.task = c.task := by
    rw [← (Prod.mk.inj (Option.some.inj hs)).1]
    exact hd
  -- the operations that need the coordinator free are refused
  have hunavailable : c.assertAvailable = false := by simp [assertAvailable, hbusy]
  cases action with
  | beginInspection => simp [coordinatorStep, SignerCoordinator.beginInspection, hunavailable] at h
  | callOwned generation call =>
    obtain ⟨owner, _, h⟩ := Option.bind_eq_some_iff.mp h
    split_ifs at h
    exact hfirst h rfl
  | startOperation => exact startOperation_task hbusy h
  | answered log =>
    obtain ⟨owner, _, h⟩ := Option.bind_eq_some_iff.mp h
    simp [hk] at h
  | settleOperation =>
    obtain ⟨owner, _, h⟩ := Option.bind_eq_some_iff.mp h
    split at h
    · dsimp only at h
      split_ifs at h <;> exact hfirst h rfl
    · cases h
  | finishInspection generation =>
    obtain ⟨owner, _, h⟩ := Option.bind_eq_some_iff.mp h
    split_ifs at h
    exact hfirst h rfl
  | abandonInspection generation =>
    obtain ⟨owner, _, h⟩ := Option.bind_eq_some_iff.mp h
    split_ifs at h
    exact hfirst h rfl
  | completeAbandonment =>
    obtain ⟨owner, _, h⟩ := Option.bind_eq_some_iff.mp h
    split_ifs at h
    exact hfirst h rfl
  | prepareAttempt workId attemptId address transaction =>
    simp [coordinatorStep, SignerCoordinator.prepareAttempt, hunavailable] at h
  | signed answer summaryCreated => simp [coordinatorStep, SignerCoordinator.signed, hk] at h
  | broadcastAttempt attemptId =>
    simp [coordinatorStep, SignerCoordinator.broadcastAttempt, hunavailable] at h
  | sendSettled => simp [coordinatorStep, SignerCoordinator.sendSettled, hk] at h
  | retryPersistence =>
    simp [coordinatorStep, SignerCoordinator.retryPersistence, hunavailable] at h
  | resume => simp [coordinatorStep, SignerCoordinator.resume, hk] at h
  | beginObservation =>
    simp [coordinatorStep, SignerCoordinator.beginObservation, hunavailable] at h
  | endObservation =>
    simp only [coordinatorStep, SignerCoordinator.endObservation] at h
    split_ifs at h
    exact hfirst h rfl
  | crash => cases h
  | syncNonce _ _ _ => cases h
  | _ => cases hi

/-- The committed journal changes by an answer of the store only, and no other action makes a
write fail. -/
theorem act_persistence {v : JournalView} (hj : JournalInv v c) (hi : i.action.leavesStore = true)
    (h : coordinatorStep lib identity i c = some (c', e)) (hstate : c.persistence.state ≠ .failed) :
    c'.persistence.current = c.persistence.current ∧ c'.persistence.state ≠ .failed := by
  have hwaits {k : Continuation} (hk : c.task = some (.storing k)) :
      c'.task = some (.storing k) := by
    have hphase := hj.phase
    rw [hk] at hphase
    rw [storing_waits hk hphase.1 hi h, hk]
  cases coordinatorStep_cases h with
  | wrote _ _ _ => exact ⟨rfl, by simp⟩
  | retrying _ _ _ hfailed _ => exact absurd hfailed hstate
  | acked hk _ => cases hwaits hk
  | storeFailed hk _ _ _ _ => cases hwaits hk
  | storeFailedOwned hk _ _ _ _ => cases hwaits hk
  | resumed _ hr =>
    rw [hr.persistence]
    exact ⟨rfl, hstate⟩
  | _ => exact ⟨rfl, hstate⟩

end Act

/-! What holds of the world and of the disk. -/

namespace World

/-- What the journal on disk may be read as. -/
def MayHold (w : World) (r : Option TransactionJournalSnapshot) : Prop :=
  match w with
  | .running c => r = c.persistence.current
  | .stopped stored uncertain => r = stored ∨ uncertain.isSome = true ∧ r = uncertain
  | .opened read => r = read
  | .repairing stored _ => r = some stored

/-- No write has failed, and what is written is within the bounds. -/
def Settles (lib : TransactionLibrary) (identity : JournalIdentity) (bounds : JournalBounds)
    (w : World) : Prop :=
  match w with
  | .running c => RuntimeWithin lib identity bounds c ∧ c.persistence.state ≠ .failed
  | .repairing _ repair => JournalWithin lib identity bounds repair
  | _ => True

end World

/-- The snapshots that the store would save and load and that the world knows of. -/
def StoredAs (lib : TransactionLibrary) (store : JournalStore) (w : World)
    (r : Option SnapshotText) : Prop :=
  Kept lib store r ∧ w.MayHold (readLoaded r)

/-- The world is that of a run without the store, and the disk holds its journal. -/
structure StoredOk (lib : TransactionLibrary) (expected : IdentityText) (bounds : JournalBounds)
    (identity : JournalIdentity) (st : StoredWorld) (tr : List Event) : Prop where
  simulated : ∃ is, runSigner lib identity is = (st.world, tr)
  disk : HoldsJournal lib (boundedStore expected bounds)
    (StoredAs lib (boundedStore expected bounds) st.world) st.disk
  settles : st.world.Settles lib identity bounds

section Worlds

variable {lib : TransactionLibrary} {identity : JournalIdentity} {bounds : JournalBounds}
  {w w' : World} {e : Option Event} {i : Input} {is : List Input} {tr : List Event}
  {s : TransactionJournalSnapshot}

/-- Without the store the disk stays, and goes on holding what the world knows of. -/
theorem act_world (h : runSigner lib identity is = (w, tr)) (hi : i.action.leavesStore = true)
    (hs : worldStep lib identity i w = some (w', e)) (hw : w.Settles lib identity bounds) :
    (∀ r, w.MayHold r → w'.MayHold r) ∧ w'.Settles lib identity bounds := by
  cases w with
  | running c =>
    obtain ⟨hwithin, hstate⟩ := hw
    have hj : JournalInv (view tr) c := by
      have hreached := runSigner_reached lib identity is (c := c) (by rw [h])
      rw [h] at hreached
      exact hreached.journal
    simp only [worldStep] at hs
    split at hs
    · obtain ⟨rfl, rfl⟩ := Prod.mk.inj (Option.some.inj hs)
      exact ⟨fun r hr => Or.inl hr, trivial⟩
    · obtain ⟨⟨c', x⟩, hc, heq⟩ := Option.map_eq_some_iff.mp hs
      obtain ⟨rfl, rfl⟩ := Prod.mk.inj heq
      -- an act leaves the stored journal alone
      obtain ⟨hcurrent, hstate'⟩ := act_persistence hj hi hc hstate
      refine ⟨fun r hr => hr.trans hcurrent.symm, ?_, hstate'⟩
      exact hwithin.step (coordinatorStep_capacity hc) (coordinatorStep_cases hc)
  | stopped stored uncertain =>
    simp only [worldStep, stoppedStep] at hs
    split at hs
    · rename_i heq
      rw [heq] at hi
      cases hi
    · rename_i heq
      rw [heq] at hi
      cases hi
    · cases hs
  | opened read =>
    cases worldStep_cases hs with
    | repairing hplan =>
      obtain ⟨_, hempty, _, _, hrepaired, hvalid⟩ := planNonceSync_repair hplan
      refine ⟨fun r hr => hr, ⟨⟨hvalid, ?_⟩, ?_, ?_⟩⟩ <;> rw [hrepaired] <;>
        simp [repairedSnapshot, hempty]
    | closed => exact ⟨fun r hr => Or.inl hr, trivial⟩
  | repairing stored repair =>
    simp only [worldStep] at hs
    split at hs
    · rename_i heq
      rw [heq] at hi
      cases hi
    · rename_i heq
      rw [heq] at hi
      cases hi
    · obtain ⟨rfl, rfl⟩ := Prod.mk.inj (Option.some.inj hs)
      exact ⟨fun r hr => Or.inl hr, trivial⟩
    · cases hs

/-- What is being saved is within the bounds. -/
theorem World.Settles.saving (hw : w.Settles lib identity bounds) (hs : w.saving = some s) :
    JournalWithin lib identity bounds s := by
  cases w with
  | running c =>
    simp only [World.saving] at hs
    split at hs
    · exact hw.1.pending s hs
    · cases hs
  | repairing stored repair =>
    obtain rfl := Option.some.inj hs
    exact hw
  | stopped _ _ => cases hs
  | opened _ => cases hs

/-- The store acknowledged the save. -/
theorem stored_world {now : Timestamp} (hsaving : w.saving = some s)
    (hs : worldStep lib identity ⟨now, .stored⟩ w = some (w', e))
    (hw : w.Settles lib identity bounds) :
    e = some (.acked s) ∧ w'.MayHold (some s) ∧ w'.Settles lib identity bounds := by
  cases w with
  | running c =>
    simp only [World.saving] at hsaving
    split at hsaving
    · rename_i k hk
      obtain ⟨⟨c', x⟩, hc, heq⟩ := Option.map_eq_some_iff.mp hs
      obtain ⟨rfl, rfl⟩ := Prod.mk.inj heq
      have hwithin := hw.1.step (coordinatorStep_capacity hc) (coordinatorStep_cases hc)
      simp only [coordinatorStep, SignerCoordinator.stored, hk, hsaving] at hc
      obtain ⟨rfl, rfl⟩ := Prod.mk.inj (Option.some.inj hc)
      refine ⟨rfl, ?_, hwithin, by simp [JournalPersistence.acknowledged]⟩
      simp [World.MayHold, JournalPersistence.acknowledged, hsaving]
    · cases hsaving
  | repairing stored repair =>
    obtain rfl := Option.some.inj hsaving
    obtain ⟨rfl, rfl⟩ := Prod.mk.inj (Option.some.inj hs)
    exact ⟨rfl, Or.inl rfl, trivial⟩
  | stopped _ _ => cases hsaving
  | opened _ => cases hsaving

/-- The process was killed during the save. -/
theorem crash_world {now : Timestamp} (hsaving : w.saving = some s)
    (hs : worldStep lib identity ⟨now, .crash⟩ w = some (w', e)) :
    w'.MayHold (some s) := by
  cases w with
  | running c =>
    simp only [World.saving] at hsaving
    split at hsaving
    · obtain ⟨rfl, rfl⟩ := Prod.mk.inj (Option.some.inj hs)
      rw [World.MayHold, hsaving]
      exact Or.inr ⟨rfl, rfl⟩
    · cases hsaving
  | repairing stored repair =>
    obtain rfl := Option.some.inj hsaving
    obtain ⟨rfl, rfl⟩ := Prod.mk.inj (Option.some.inj hs)
    exact Or.inr ⟨rfl, rfl⟩
  | stopped _ _ => cases hsaving
  | opened _ => cases hsaving

/-- A start finds one of the two snapshots. -/
theorem chooseRead_of_mayHold {stored uncertain r : Option TransactionJournalSnapshot}
    (h : (World.stopped stored uncertain).MayHold r) :
    ∃ u, chooseRead u stored uncertain = r := by
  rcases h with rfl | ⟨hsome, rfl⟩
  · exact ⟨false, rfl⟩
  · obtain ⟨p, rfl⟩ := Option.isSome_iff_exists.mp hsome
    exact ⟨true, rfl⟩

end Worlds

/-! Steps of the whole. -/

section Steps

variable {lib : TransactionLibrary} {expected : IdentityText} {bounds : JournalBounds}
  {identity : JournalIdentity} {st st' : StoredWorld} {tr : List Event} {e : Option Event}
  {s : TransactionJournalSnapshot} {t : SnapshotText}

/-- The bounds of the values are those of the strings. -/
theorem JournalWithin.text (h : JournalWithin lib identity bounds s)
    (hs : readSnapshot t = some s) : WithinBounds (some bounds) t := by
  have hattempts := readSnapshot_attempts hs
  intro b hb
  obtain rfl := Option.some.inj hb
  constructor
  · rw [hattempts.length_eq]
    exact h.retained
  · intro a ha
    obtain ⟨a', ha', hread⟩ := forall₂_mem_right hattempts.flip ha
    have hattempt : readAttempt a = some a' := hread
    rw [(readAttempt_some hattempt).2.2.2.1.length_eq]
    exact h.variants a' ha'

/-- The store saves a text that fits, and loads it again. -/
theorem JournalWithin.kept (h : JournalWithin lib identity bounds s)
    (hidentity : readIdentity expected = some identity) (hs : readSnapshot t = some s)
    (hfits : Json.utf8Length (journalText t) ≤ MAX_JOURNAL_BYTES) :
    Kept lib (boundedStore expected bounds) (some t) := by
  intro u hu
  obtain rfl := Option.some.inj hu
  refine ⟨⟨journalText t, encodeJournalSnapshot_ok_iff.mpr ⟨rfl, ?_, hfits⟩⟩, h.text hs⟩
  exact ⟨identity, s, hidentity, hs, h.toSnapshotVerified⟩

theorem HoldsJournal.mono {store : JournalStore} {R R' : Option SnapshotText → Prop}
    {d : JournalDisk} (h : HoldsJournal lib store R d) (hR : ∀ r, R r → R' r) :
    HoldsJournal lib store R' d :=
  Disk.Holds.mono h fun _ ⟨r, hr, hRr⟩ => ⟨r, hr, hR r hRr⟩

theorem StoredAs.mono {store : JournalStore} {w w' : World} {r : Option SnapshotText}
    (h : StoredAs lib store w r) (hw : ∀ r, w.MayHold r → w'.MayHold r) : StoredAs lib store w' r :=
  ⟨h.1, hw _ h.2⟩

theorem actStep_ok (h : StoredOk lib expected bounds identity st tr) {i : Input}
    (hs : actStep lib identity i st = some (st', e)) :
    StoredOk lib expected bounds identity st' (tr ++ e.toList) := by
  unfold actStep at hs
  split_ifs at hs with hi
  obtain ⟨⟨w', x⟩, hw, heq⟩ := Option.map_eq_some_iff.mp hs
  obtain ⟨rfl, rfl⟩ := Prod.mk.inj heq
  obtain ⟨is, hrun⟩ := h.simulated
  obtain ⟨hhold, hsettles⟩ := act_world hrun hi hw h.settles
  exact ⟨⟨is ++ [i], runSigner_append hrun hw⟩, h.disk.mono fun r hr => hr.mono hhold, hsettles⟩

theorem powerLossStep_ok (h : StoredOk lib expected bounds identity st tr) {now : Timestamp}
    {choice : ℕ} {torn : FileContents} {temps : List (TempName × Inode FileContents)}
    (hs : powerLossStep lib identity now (st.disk.powerLoss choice torn temps) st.world =
      (st', e)) :
    StoredOk lib expected bounds identity st' (tr ++ e.toList) := by
  unfold powerLossStep answerStep at hs
  obtain ⟨is, hrun⟩ := h.simulated
  cases hw : worldStep lib identity ⟨now, .crash⟩ st.world with
  | none =>
    rw [hw] at hs
    obtain ⟨rfl, rfl⟩ := Prod.mk.inj hs
    refine ⟨⟨is, by simpa using hrun⟩, h.disk.powerLoss choice torn temps, h.settles⟩
  | some r =>
    obtain ⟨w', x⟩ := r
    rw [hw] at hs
    obtain ⟨rfl, rfl⟩ := Prod.mk.inj hs
    obtain ⟨hhold, hsettles⟩ := act_world hrun rfl hw h.settles
    have hdisk := h.disk.mono fun r (hr : StoredAs _ _ _ r) => hr.mono hhold
    exact ⟨⟨_, runSigner_append hrun hw⟩, hdisk.powerLoss choice torn temps, hsettles⟩

/-- What the save of a text that fits comes to: with enough operations it returns, and the
snapshot is durable; with fewer the process is killed, and the disk holds one of the two. -/
theorem save_outcome (h : StoredOk lib expected bounds identity st tr)
    (hidentity : readIdentity expected = some identity) (hsaving : st.world.saving = some s)
    (ht : readSnapshot t = some s) (hfits : Json.utf8Length (journalText t) ≤ MAX_JOURNAL_BYTES)
    {name : TempName} (hname : st.disk.temp name = none) :
    Succeeds (· = st.disk) ((boundedStore expected bounds).save lib name t)
      (fun _ d => HoldsJournal lib (boundedStore expected bounds)
        (fun r => Kept lib (boundedStore expected bounds) r ∧ readLoaded r = some s) d) ∧
    Triple (· = st.disk) ((boundedStore expected bounds).save lib name t) (fun _ _ => True)
      (fun _ => True) (HoldsJournal lib (boundedStore expected bounds) fun r =>
        StoredAs lib (boundedStore expected bounds) st.world r ∨
          Kept lib (boundedStore expected bounds) r ∧ readLoaded r = some s) := by
  have hkept := (h.settles.saving hsaving).kept hidentity ht hfits
  have hread : readLoaded (some t) = some s := ht
  obtain ⟨contents, hencode⟩ := (hkept t rfl).1
  -- the disk holds what it held, or the snapshot
  have htriple := save_triple lib (boundedStore expected bounds) name t
    (P := fun c => ∃ r, Denotes lib expected c r ∧
      (StoredAs lib (boundedStore expected bounds) st.world r ∨
        Kept lib (boundedStore expected bounds) r ∧ readLoaded r = some s))
    fun contents hc => ⟨some t, denotes_encoded hc, Or.inr ⟨hkept, hread⟩⟩
  have hbefore (d : JournalDisk) (hd : d = st.disk) : d.Holds fun c => ∃ r,
      Denotes lib expected c r ∧ (StoredAs lib (boundedStore expected bounds) st.world r ∨
        Kept lib (boundedStore expected bounds) r ∧ readLoaded r = some s) := by
    rw [hd]
    exact h.disk.mono fun r hr => Or.inl hr
  constructor
  · have hsave : Succeeds (· = st.disk) ((boundedStore expected bounds).save lib name t)
        fun _ _ => True :=
      (save_succeeds hencode).weaken (fun d hd => hd ▸ hname) fun _ _ hd => hd
    exact (hsave.of_triple (htriple.weaken hbefore (fun _ _ hd => hd) (fun _ hd => hd)
      fun _ hd => hd)).weaken (fun _ hd => hd) fun _ d hd =>
        hd.2.mono fun c hc => ⟨some t, hc, hkept, hread⟩
  · exact htriple.weaken hbefore (fun _ _ _ => trivial) (fun _ _ => trivial) fun _ hd => hd

/-- A save that is answered is acknowledged, unless the process is killed. -/
theorem persistAnswer_cases (h : StoredOk lib expected bounds identity st tr)
    (hidentity : readIdentity expected = some identity) {now : Timestamp} {name : TempName}
    {operations : ℕ} (hfits : Json.utf8Length (journalText t) ≤ MAX_JOURNAL_BYTES)
    (hs : persistAnswer lib expected bounds identity now name t operations st = some (st', e)) :
    ∃ s disk, st.world.saving = some s ∧
      (answerStep lib identity now .stored st.world disk = some (st', e) ∧
        HoldsJournal lib (boundedStore expected bounds)
          (fun r => Kept lib (boundedStore expected bounds) r ∧ readLoaded r = some s) disk ∨
      answerStep lib identity now .crash st.world disk = some (st', e) ∧
        HoldsJournal lib (boundedStore expected bounds) (fun r =>
          StoredAs lib (boundedStore expected bounds) st.world r ∨
            Kept lib (boundedStore expected bounds) r ∧ readLoaded r = some s) disk) := by
  unfold persistAnswer at hs
  split_ifs at hs with hcond
  push Not at hcond
  obtain ⟨hsaving, ht, hname⟩ := hcond
  obtain ⟨s, hsome⟩ := Option.ne_none_iff_exists'.mp hsaving
  rw [hsome] at ht
  obtain ⟨hsucceeds, htriple⟩ := save_outcome h hidentity hsome ht hfits hname
  obtain ⟨needed, u, d', hpost, hok, hcrash⟩ := hsucceeds st.disk rfl
  by_cases hn : operations < needed
  · have hdied := hcrash operations hn
    have hdisk := htriple (succeeding operations) st.disk rfl
    unfold succeeding at hs hdisk
    rcases hsave : (boundedStore expected bounds).save lib name t
      (List.replicate operations .done) st.disk with ⟨result, rest, d''⟩
    rw [hsave] at hs hdied hdisk
    obtain rfl : result = .crashed := hdied
    exact ⟨s, d'', hsome, Or.inr ⟨hs, hdisk⟩⟩
  · obtain ⟨n, rfl⟩ := Nat.exists_eq_add_of_le' (not_lt.mp hn)
    unfold succeeding at hs
    rw [hok n] at hs
    exact ⟨s, d', hsome, Or.inl ⟨hs, hpost⟩⟩

theorem persistAnswer_ok (h : StoredOk lib expected bounds identity st tr)
    (hidentity : readIdentity expected = some identity) {now : Timestamp} {name : TempName}
    {operations : ℕ} (hfits : Json.utf8Length (journalText t) ≤ MAX_JOURNAL_BYTES)
    (hs : persistAnswer lib expected bounds identity now name t operations st = some (st', e)) :
    StoredOk lib expected bounds identity st' (tr ++ e.toList) := by
  obtain ⟨is, hrun⟩ := h.simulated
  obtain ⟨s, disk, hsaving, ⟨hanswer, hdisk⟩ | ⟨hanswer, hdisk⟩⟩ :=
    persistAnswer_cases h hidentity hfits hs
  · obtain ⟨⟨w', x⟩, hw, heq⟩ := Option.map_eq_some_iff.mp hanswer
    obtain ⟨rfl, rfl⟩ := Prod.mk.inj heq
    obtain ⟨_, hhold, hsettles⟩ := stored_world hsaving hw h.settles
    refine ⟨⟨_, runSigner_append hrun hw⟩, hdisk.mono fun r hr => ⟨hr.1, ?_⟩, hsettles⟩
    rw [hr.2]
    exact hhold
  · obtain ⟨⟨w', x⟩, hw, heq⟩ := Option.map_eq_some_iff.mp hanswer
    obtain ⟨rfl, rfl⟩ := Prod.mk.inj heq
    obtain ⟨hhold, hsettles⟩ := act_world hrun rfl hw h.settles
    refine ⟨⟨_, runSigner_append hrun hw⟩, hdisk.mono fun r hr => ?_, hsettles⟩
    rcases hr with hr | ⟨hkept, hread⟩
    · exact hr.mono hhold
    · refine ⟨hkept, ?_⟩
      rw [hread]
      exact crash_world hsaving hw

theorem validateJournalBounds_ok (h : validateJournalBounds bounds = .ok ()) :
    1 ≤ bounds.maxSignedTransactionsPerAttempt := by
  by_contra hno
  have hrefused : ¬ (1 ≤ bounds.maxSignedTransactionsPerAttempt ∧
      bounds.maxSignedTransactionsPerAttempt ≤ MAX_SIGNED_TRANSACTIONS_PER_ATTEMPT) :=
    fun hvariants => hno hvariants.1
  unfold validateJournalBounds requireThat at h
  rw [if_neg hrefused] at h
  split_ifs at h <;> cases h

/-- The process that starts has what the disk holds. -/
theorem startWith_ok (h : StoredOk lib expected bounds identity st tr) {now : Timestamp}
    {repair : Bool} {disk : JournalDisk} {read : Option SnapshotText}
    {stored uncertain : Option TransactionJournalSnapshot}
    (hw : st.world = .stopped stored uncertain)
    (hbounds : validateJournalBounds bounds = .ok ())
    (hread : StoredAs lib (boundedStore expected bounds) st.world read)
    (hdisk : HoldsJournal lib (boundedStore expected bounds) (· = read) disk)
    (hs : startWith lib bounds identity now repair (readLoaded read) st.world disk = (st', e)) :
    StoredOk lib expected bounds identity st' (tr ++ e.toList) := by
  obtain ⟨is, hrun⟩ := h.simulated
  obtain ⟨hkept, hhold⟩ := hread
  obtain ⟨u, hu⟩ : ∃ u, chooseRead u stored uncertain = readLoaded read := by
    rw [hw] at hhold
    exact chooseRead_of_mayHold hhold
  have hholds (w' : World) (hw' : w'.MayHold (readLoaded read)) :
      HoldsJournal lib (boundedStore expected bounds)
        (StoredAs lib (boundedStore expected bounds) w') disk := by
    refine hdisk.mono fun r hr => ?_
    rw [hr]
    exact ⟨hkept, hw'⟩
  unfold startWith at hs
  split_ifs at hs with hrepair
  · -- a nonce repair opens the journal
    obtain ⟨rfl, rfl⟩ := Prod.mk.inj hs
    have hopened : worldStep lib identity ⟨now, .openJournal u⟩ st.world =
        some (.opened (readLoaded read), some (.loaded (readLoaded read))) := by
      rw [hw, ← hu]
      rfl
    exact ⟨⟨_, runSigner_append hrun hopened⟩, hholds _ rfl, trivial⟩
  · split at hs
    · rename_i c hcreate
      obtain ⟨rfl, rfl⟩ := Prod.mk.inj hs
      have hrestarted : worldStep lib identity ⟨now, .restart u bounds.maxRetainedAttempts⟩
          st.world = some (.running c, some (.loaded (readLoaded read))) := by
        rw [hw]
        simp only [worldStep, stoppedStep, hu, hcreate]
      have hcreated := (create_ok hcreate).persistence
      refine ⟨⟨_, runSigner_append hrun hrestarted⟩, hholds _ ?_, ?_, ?_⟩
      · rw [World.MayHold, hcreated]
      · apply create_within hcreate le_rfl (validateJournalBounds_ok hbounds)
        intro s hs
        obtain ⟨t, ht, hts⟩ := Option.bind_eq_some_iff.mp hs
        exact (hkept t ht).2.read hts
      · rw [hcreated]
        simp
    · obtain ⟨rfl, rfl⟩ := Prod.mk.inj hs
      exact ⟨⟨is, by simpa using hrun⟩, hholds _ hhold, h.settles⟩

theorem startStep_ok (h : StoredOk lib expected bounds identity st tr) {now : Timestamp}
    {name : TempName} {repair : Bool} {operations : ℕ}
    (hs : startStep lib expected bounds identity now name repair operations st = some (st', e)) :
    StoredOk lib expected bounds identity st' (tr ++ e.toList) := by
  obtain ⟨is, hrun⟩ := h.simulated
  unfold startStep at hs
  split at hs
  · rename_i stored uncertain hw hbounds
    split_ifs at hs with hname
    have hload := openAndLoad_triple lib (boundedStore expected bounds) name
      (succeeding operations) st.disk h.disk
    have hstays (d : JournalDisk) (hd : HoldsJournal lib (boundedStore expected bounds)
        (StoredAs lib (boundedStore expected bounds) st.world) d) :
        StoredOk lib expected bounds identity ⟨st.world, d⟩ (tr ++ (none : Option Event).toList) :=
      ⟨⟨is, by simpa using hrun⟩, hd, h.settles⟩
    rcases hopen : openAndLoad lib (boundedStore expected bounds) name (succeeding operations)
      st.disk with ⟨result, rest, d⟩
    rw [hopen] at hs hload
    cases result with
    | ok read => exact startWith_ok h hw hbounds hload.1 hload.2 (Option.some.inj hs)
    | threw failure =>
      obtain ⟨rfl, rfl⟩ := Prod.mk.inj (Option.some.inj hs)
      exact hstays d hload
    | crashed =>
      obtain ⟨rfl, rfl⟩ := Prod.mk.inj (Option.some.inj hs)
      exact hstays d hload
  · cases hs

theorem storedStep_ok (hidentity : readIdentity expected = some identity) {action : StoredAction}
    (hfits : action.Fits) (h : StoredOk lib expected bounds identity st tr)
    (hs : storedStep lib expected bounds action st = some (st', e)) :
    StoredOk lib expected bounds identity st' (tr ++ e.toList) := by
  unfold storedStep at hs
  rw [hidentity, Option.bind_some] at hs
  cases action with
  | act i => exact actStep_ok h hs
  | persist now name t operations => exact persistAnswer_ok h hidentity hfits hs
  | start now name repair operations => exact startStep_ok h hs
  | powerLoss now choice torn temps => exact powerLossStep_ok h (Option.some.inj hs)

theorem storedOk_init (lib : TransactionLibrary) (expected : IdentityText) (bounds : JournalBounds)
    (identity : JournalIdentity) :
    StoredOk lib expected bounds identity (storedSystem lib expected bounds).init [] := by
  refine ⟨⟨[], rfl⟩, ⟨?_, fun _ entry he => (by cases he)⟩, trivial⟩
  intro entry he
  obtain rfl : entry = none := List.mem_singleton.mp he
  have hkept : Kept lib (boundedStore expected bounds) none := fun s hs => by cases hs
  exact ⟨fun i hi => (by cases hi), none, Or.inl ⟨rfl, rfl⟩, hkept, Or.inl rfl⟩

theorem runStored_ok (hidentity : readIdentity expected = some identity) {as : List StoredAction}
    (hfits : ∀ a ∈ as, a.Fits) :
    StoredOk lib expected bounds identity (runStored lib expected bounds as).1
      (runStored lib expected bounds as).2 :=
  System.run_invariant_of _ StoredAction.Fits (StoredOk lib expected bounds identity)
    (storedOk_init lib expected bounds identity)
    (fun _ _ _ _ _ hfit h hs => storedStep_ok hidentity hfit h hs) hfits

end Steps

end Quicknet
