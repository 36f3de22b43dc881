import Quicknet.AttemptFrame
import Quicknet.JournalCrash
import Quicknet.SubmissionRecording

/-! The runtime of a signer, opened from its journal, and the bounds that every run of it
keeps: on the retained attempts, by the capacity that the gate compares, and on the signed
variants of an attempt, which no operation adds to. -/
namespace Quicknet

open DurableFile Interaction Transition SignerCoordinator

/-- A process that starts opens the store and loads the journal. -/
def openAndLoad (lib : TransactionLibrary) (store : JournalStore) (name : TempName) :
    JournalFiles (Option SnapshotText) := do
  let _ ← store.openStore lib name
  store.load lib

/-- What the strings that were loaded stand for. -/
def readLoaded : Option SnapshotText → Option TransactionJournalSnapshot :=
  fun read => read.bind readSnapshot

/-- The store and the coordinator are given one bound on the retained attempts. -/
def boundedStore (expected : IdentityText) (bounds : JournalBounds) : JournalStore :=
  ⟨expected, some bounds⟩

/-- `openSignerRuntime`, from the capture of the identity on. -/
def openSignerRuntime (lib : TransactionLibrary) (identity : IdentityText) (name : TempName)
    (now : Timestamp) : JournalFiles SignerCoordinator := do
  match validateJournalBounds DEFAULT_JOURNAL_BOUNDS with
  | .error e => Files.throw e
  | .ok () =>
    match readIdentity identity with
    | none => Files.throw (.typeError "Invalid journal identity.")
    | some captured =>
      if captureJournalIdentity identity = false then
        Files.throw (.typeError "Invalid journal identity.")
      else
        let initial ← openAndLoad lib (boundedStore identity DEFAULT_JOURNAL_BOUNDS) name
        match SignerCoordinator.create lib captured DEFAULT_JOURNAL_BOUNDS.maxRetainedAttempts
            (readLoaded initial) now with
        | .error e => Files.throw e
        | .ok c => return c

/-- What the runtime does from `c` on. -/
def runtimeSystem (lib : TransactionLibrary) (identity : JournalIdentity) (c : SignerCoordinator) :
    Transition.System SignerCoordinator Input Event where
  init := c
  step := coordinatorStep lib identity

/-! No operation changes the capacity. -/

section Capacity

variable {lib : TransactionLibrary} {identity : JournalIdentity} {c c' : SignerCoordinator}
  {e : Option Event} {now : Timestamp}

theorem beginWrite_capacity {c₀ : SignerCoordinator} {w : JournalWrite} {kind : PendingWrite}
    {next : TransactionJournalSnapshot} {failed : SignerCoordinator × Option Event}
    (hc : c.maxRetainedAttempts = c₀.maxRetainedAttempts)
    (hf : failed.1.maxRetainedAttempts = c₀.maxRetainedAttempts)
    (h : (c.beginWrite lib identity w kind next).getD failed = (c', e)) :
    c'.maxRetainedAttempts = c₀.maxRetainedAttempts := by
  rcases beginWrite_getD h with hfail | hw
  · rw [hfail] at hf
    exact hf
  · unfold beginWrite at hw
    split at hw
    · obtain ⟨rfl, rfl⟩ := Prod.mk.inj (Option.some.inj hw)
      exact hc
    · cases hw

theorem answered_capacity {log : RpcLog} (h : c.answered lib identity now log = some (c', e)) :
    c'.maxRetainedAttempts = c.maxRetainedAttempts := by
  obtain ⟨owner, _, h⟩ := Option.bind_eq_some_iff.mp h
  split at h
  · obtain ⟨out, _, h⟩ := Option.map_eq_some_iff.mp h
    unfold headAnswered at h
    dsimp only at h
    split at h <;> (obtain ⟨rfl, rfl⟩ := Prod.mk.inj h; rfl)
  · split at h
    · obtain ⟨out, _, h⟩ := Option.map_eq_some_iff.mp h
      unfold recoverMissing at h
      split at h
      · obtain ⟨rfl, rfl⟩ := Prod.mk.inj h
        rfl
      · exact beginWrite_capacity rfl rfl h
      · obtain ⟨rfl, rfl⟩ := Prod.mk.inj h
        rfl
    · obtain ⟨out, _, h⟩ := Option.map_eq_some_iff.mp h
      unfold recoverPresent at h
      split at h
      · obtain ⟨rfl, rfl⟩ := Prod.mk.inj h
        rfl
      · split at h
        · obtain ⟨rfl, rfl⟩ := Prod.mk.inj h
          rfl
        · obtain ⟨rfl, rfl⟩ := Prod.mk.inj h
          rfl
        · exact beginWrite_capacity rfl rfl h
  · obtain ⟨current, _, h⟩ := Option.bind_eq_some_iff.mp h
    obtain ⟨out, _, h⟩ := Option.map_eq_some_iff.mp h
    unfold inclusionsAnswered at h
    split at h
    · obtain ⟨rfl, rfl⟩ := Prod.mk.inj h
      rfl
    · split at h
      · obtain ⟨rfl, rfl⟩ := Prod.mk.inj h
        rfl
      · exact beginWrite_capacity rfl rfl h
    · unfold inclusionsNotInspected at h
      dsimp only at h
      split_ifs at h <;> (obtain ⟨rfl, rfl⟩ := Prod.mk.inj h; rfl)
  · cases h

theorem startOperation_capacity (h : c.startOperation now = some (c', e)) :
    c'.maxRetainedAttempts = c.maxRetainedAttempts := by
  obtain ⟨owner, _, h⟩ := Option.bind_eq_some_iff.mp h
  split at h
  · split_ifs at h
    · split at h
      · unfold startOpenHead at h
        dsimp only at h
        split_ifs at h <;> (obtain ⟨rfl, rfl⟩ := Prod.mk.inj (Option.some.inj h); rfl)
      · obtain ⟨rfl, rfl⟩ := Prod.mk.inj (Option.some.inj h)
        unfold startRecover
        dsimp only
        split_ifs <;> rfl
      · obtain ⟨rfl, rfl⟩ := Prod.mk.inj (Option.some.inj h)
        unfold startCheckInclusions
        dsimp only
        split_ifs
        · split
          · split_ifs <;> rfl
          · rfl
        · rfl
    · obtain ⟨rfl, rfl⟩ := Prod.mk.inj (Option.some.inj h)
      rfl
  · cases h

theorem signed_capacity {answer : Option Bytes} {summaryCreated : Bool}
    (h : c.signed lib identity now answer summaryCreated = some (c', e)) :
    c'.maxRetainedAttempts = c.maxRetainedAttempts := by
  unfold SignerCoordinator.signed at h
  split at h
  · dsimp only at h
    have hfailed {since : Option Timestamp} {checked : Bool}
        (hf : some (c.prepareFailed now since checked) = some (c', e)) :
        c'.maxRetainedAttempts = c.maxRetainedAttempts := by
      obtain ⟨rfl, rfl⟩ := Prod.mk.inj (Option.some.inj hf)
      rfl
    split at h
    · exact hfailed h
    · split at h
      · exact hfailed h
      · split_ifs at h
        · refine beginWrite_capacity ?_ ?_ (Option.some.inj h)
          · rfl
          · rfl
        · exact hfailed h
  · cases h

theorem broadcastAttempt_capacity {attemptId : AttemptId}
    (h : c.broadcastAttempt lib identity now attemptId = some (c', e)) :
    c'.maxRetainedAttempts = c.maxRetainedAttempts := by
  unfold broadcastAttempt at h
  split_ifs at h
  obtain ⟨s, _, h⟩ := Option.bind_eq_some_iff.mp h
  obtain ⟨a, _, h⟩ := Option.bind_eq_some_iff.mp h
  split_ifs at h
  dsimp only at h
  split at h
  · refine beginWrite_capacity ?_ ?_ (Option.some.inj h)
    · rfl
    · rfl
  · obtain ⟨rfl, rfl⟩ := Prod.mk.inj (Option.some.inj h)
    rfl

theorem resume_capacity (h : c.resume now = some (c', e)) :
    c'.maxRetainedAttempts = c.maxRetainedAttempts := by
  unfold SignerCoordinator.resume at h
  split at h
  · unfold resumeOwn at h
    split at h
    · obtain ⟨rfl, rfl⟩ := Prod.mk.inj (Option.some.inj h)
      rfl
    · obtain ⟨rfl, rfl⟩ := Prod.mk.inj (Option.some.inj h)
      rfl
    · obtain ⟨rfl, rfl⟩ := Prod.mk.inj (Option.some.inj h)
      rfl
    · obtain ⟨rfl, rfl⟩ := Prod.mk.inj (Option.some.inj h)
      rfl
    · dsimp only at h
      split_ifs at h <;> (obtain ⟨rfl, rfl⟩ := Prod.mk.inj (Option.some.inj h); rfl)
    · cases h
  · obtain ⟨rfl, rfl⟩ := Prod.mk.inj (Option.some.inj h)
    rfl
  · cases h

theorem coordinatorStep_capacity {i : Input}
    (h : coordinatorStep lib identity i c = some (c', e)) :
    c'.maxRetainedAttempts = c.maxRetainedAttempts := by
  have hinj {d : SignerCoordinator} {x : Option Event} (hs : some (d, x) = some (c', e)) : d = c' :=
    (Prod.mk.inj (Option.some.inj hs)).1
  -- no action writes the capacity, as each branch shows by its own function
  unfold coordinatorStep at h
  split at h
  · unfold beginInspection at h
    split_ifs at h
    rw [← hinj h]
    rfl
  · obtain ⟨owner, _, h⟩ := Option.bind_eq_some_iff.mp h
    split_ifs at h
    rw [← hinj h]
    rfl
  · exact startOperation_capacity h
  · exact answered_capacity h
  · obtain ⟨owner, _, h⟩ := Option.bind_eq_some_iff.mp h
    split at h
    · dsimp only at h
      split_ifs at h <;> (rw [← hinj h]; rfl)
    · cases h
  · obtain ⟨owner, _, h⟩ := Option.bind_eq_some_iff.mp h
    split_ifs at h
    rw [← hinj h]
    rfl
  · obtain ⟨owner, _, h⟩ := Option.bind_eq_some_iff.mp h
    split_ifs at h
    rw [← hinj h]
    rfl
  · obtain ⟨owner, _, h⟩ := Option.bind_eq_some_iff.mp h
    split_ifs at h
    rw [← hinj h]
    rfl
  · unfold prepareAttempt at h
    split_ifs at h
    obtain ⟨s, _, h⟩ := Option.bind_eq_some_iff.mp h
    split_ifs at h
    rw [← hinj h]
  · exact signed_capacity h
  · exact broadcastAttempt_capacity h
  · unfold sendSettled at h
    split at h
    · rw [← hinj h]
      rfl
    · cases h
  · unfold retryPersistence at h
    split_ifs at h
    split at h
    · rw [← hinj h]
    · cases h
  · unfold SignerCoordinator.stored at h
    split at h
    · rw [← hinj h]
    · cases h
  · unfold SignerCoordinator.storeFailed at h
    dsimp only at h
    split at h
    all_goals first
      | cases h; done
      | (rw [← hinj h]; rfl)
  · exact resume_capacity h
  · unfold beginObservation at h
    split_ifs at h
    rw [← hinj h]
  · unfold endObservation at h
    split_ifs at h
    rw [← hinj h]
    rfl
  all_goals cases h

end Capacity

/-- A verified snapshot that is within the bounds. -/
structure JournalWithin (lib : TransactionLibrary) (identity : JournalIdentity)
    (bounds : JournalBounds) (s : TransactionJournalSnapshot) : Prop
    extends SnapshotVerified lib identity s where
  retained : s.attempts.length ≤ bounds.maxRetainedAttempts
  variants : ∀ a ∈ s.attempts,
    a.signedTransactions.toList.length ≤ bounds.maxSignedTransactionsPerAttempt

/-- A preparation that has not planned its write. -/
def AwaitsSignature : Option Task → Prop
  | some (.signing _ _ _ _ _ _ _) => True
  | _ => False

/-- What every state of the runtime satisfies. While a signature is awaited, the gate that
was open has left room for one more attempt. -/
structure RuntimeWithin (lib : TransactionLibrary) (identity : JournalIdentity)
    (bounds : JournalBounds) (c : SignerCoordinator) : Prop where
  capacity : c.maxRetainedAttempts ≤ bounds.maxRetainedAttempts
  variant : 1 ≤ bounds.maxSignedTransactionsPerAttempt
  current : ∀ s ∈ c.persistence.current, JournalWithin lib identity bounds s
  pending : ∀ s ∈ c.persistence.pending, JournalWithin lib identity bounds s
  room : AwaitsSignature c.task →
    ∀ s ∈ c.persistence.current, s.attempts.length < c.maxRetainedAttempts

section Within

variable {lib : TransactionLibrary} {identity : JournalIdentity} {bounds : JournalBounds}
  {c c' c₀ : SignerCoordinator}
  {e : Option Event} {s next : TransactionJournalSnapshot}

/-- The variants are part of the record, so a write that keeps records adds none. -/
theorem JournalWithin.of_records (h : JournalWithin lib identity bounds s)
    (hv : SnapshotVerified lib identity next)
    (hrecords : next.attempts.map JournalAttempt.record <:+ s.attempts.map JournalAttempt.record) :
    JournalWithin lib identity bounds next := by
  have hlength : next.attempts.length ≤ s.attempts.length := by
    calc next.attempts.length = (next.attempts.map JournalAttempt.record).length :=
          (List.length_map _).symm
      _ ≤ (s.attempts.map JournalAttempt.record).length := hrecords.length_le
      _ = s.attempts.length := List.length_map _
  refine ⟨hv, hlength.trans h.retained, ?_⟩
  intro b hb
  obtain ⟨a, ha, heq⟩ := List.mem_map.mp (hrecords.subset (List.mem_map_of_mem hb))
  have hsigned : b.signedTransactions = a.signedTransactions :=
    congrArg JournalAttempt.Record.signedTransactions heq.symm
  rw [hsigned]
  exact h.variants a ha

theorem Recorded.records_suffix {u : Bool} {kind : PendingWrite}
    {result : SignerRecoveryInspection} (h : Recorded s u result kind next) :
    next.attempts.map JournalAttempt.record <:+ s.attempts.map JournalAttempt.record := by
  cases h with
  | resolved hs _ _ =>
    rw [hs, List.map_cons]
    exact List.suffix_cons _ _
  | emptied _ hs _ => exact List.suffix_rfl
  | observed _ hs _ _ => rw [hs]; exact List.suffix_rfl
  | searched _ hs _ _ _ => rw [hs]; exact List.suffix_rfl

/-- The write of a runtime within its bounds is within them. -/
theorem RuntimeWithin.planned {w : JournalWrite} {kind : PendingWrite}
    (h : RuntimeWithin lib identity bounds c) (hplan : Planned lib identity c w kind next c₀)
    (hv : SnapshotVerified lib identity next) : JournalWithin lib identity bounds next := by
  cases hplan with
  | @prepared workId attemptId createdAt _ _ _ _ current _ signed _ ht hs _ =>
    have hawaits : AwaitsSignature c.task := by
      rw [ht]
      trivial
    have hroom := h.room hawaits current hs
    have hcapacity := h.capacity
    refine ⟨hv, ?_, ?_⟩
    · simp only [preparedSnapshot, List.length_append, List.length_singleton]
      omega
    · intro a ha
      rcases List.mem_append.mp ha with ha | ha
      · exact (h.current current hs).variants a ha
      · -- a prepared attempt has one variant
        rw [List.mem_singleton.mp ha]
        exact h.variant
  | @broadcast s a hsend _ =>
    apply (h.current s hsend.current).of_records hv
    rw [markBroadcast_records]
  | bootstrap _ _ _ _ => exact ⟨hv, Nat.zero_le _, fun a ha => (by cases ha)⟩
  | @recovery _ _ _ _ current _ _ _ _ _ hs _ hp =>
    exact (h.current current hs).of_records hv (planRecovery_some hp).2.records_suffix
  | @inclusions _ head range bracketed log current _ o attempts complete broadcast _ _ hs hr hp =>
    obtain ⟨rfl, _⟩ := validate_ok_iff.mp hp
    apply (h.current current hs).of_records hv
    rw [InclusionUpdate.forall₂_records (inspectInclusionsOwned_ok hr).updates]

/-- A step that leaves persistence alone and awaits no new signature. -/
theorem RuntimeWithin.frame (h : RuntimeWithin lib identity bounds c)
    (hcap : c'.maxRetainedAttempts = c.maxRetainedAttempts)
    (hcurrent : c'.persistence.current = c.persistence.current)
    (hpending : c'.persistence.pending = c.persistence.pending)
    (ht : AwaitsSignature c'.task → AwaitsSignature c.task) :
    RuntimeWithin lib identity bounds c' := by
  refine ⟨hcap ▸ h.capacity, h.variant, hcurrent ▸ h.current, hpending ▸ h.pending, ?_⟩
  rw [hcap, hcurrent]
  exact fun hawaits => h.room (ht hawaits)

theorem RuntimeWithin.step (h : RuntimeWithin lib identity bounds c)
    (hcap : c'.maxRetainedAttempts = c.maxRetainedAttempts)
    (hstep : CoordinatorStep lib identity c e c') : RuntimeWithin lib identity bounds c' := by
  have hnone {p : Prop} : AwaitsSignature none → p := fun hawaits => hawaits.elim
  -- only signing, a write and its acknowledgement touch what is bounded
  cases hstep with
  | begun _ _ _ _ => exact h.frame rfl rfl rfl id
  | owner _ _ => exact h.frame rfl rfl rfl id
  | finished _ _ _ _ _ _ _ _ => exact h.frame rfl rfl rfl id
  | abandonmentCompleted _ _ _ => exact h.frame rfl rfl rfl id
  | headOpening _ _ _ _ _ _ => exact h.frame rfl rfl rfl hnone
  | headAnswered _ _ _ => exact h.frame rfl rfl rfl hnone
  | recovering _ _ _ _ _ _ _ _ => exact h.frame rfl rfl rfl hnone
  | inspecting _ _ _ _ _ _ _ _ _ _ => exact h.frame rfl rfl rfl hnone
  | inspectionRefused _ _ _ _ _ => exact h.frame rfl rfl rfl hnone
  | recoverEnded _ _ _ _ => exact h.frame rfl rfl rfl hnone
  | inclusionsEnded _ _ _ _ _ => exact h.frame rfl rfl rfl hnone
  | inclusionsFailed _ _ _ => exact h.frame rfl rfl rfl hnone
  | signing _ _ _ hs hopen _ _ =>
    obtain ⟨s, hgate⟩ := gateOpen_of_status hopen
    refine ⟨h.capacity, h.variant, h.current, h.pending, ?_⟩
    intro _ t ht
    obtain rfl := Option.some.inj (hgate.current.symm.trans ht)
    exact hgate.capacity
  | prepareEnded _ => exact h.frame rfl rfl rfl hnone
  | wrote hplan _ hv =>
    refine ⟨hcap ▸ h.capacity, h.variant, h.current, ?_, hnone⟩
    intro s hs
    obtain rfl := Option.some.inj hs
    exact h.planned hplan hv
  | broadcastEnded _ => exact h.frame rfl rfl rfl hnone
  | sentAgain _ _ => exact h.frame rfl rfl rfl hnone
  | retrying _ _ _ _ _ => exact h.frame rfl rfl rfl hnone
  | acked _ hp =>
    refine ⟨h.capacity, h.variant, ?_, fun t ht => (by cases ht), hnone⟩
    intro t ht
    obtain rfl := Option.some.inj ht
    exact h.pending _ hp
  | storeFailed _ _ _ _ _ => exact h.frame rfl rfl rfl hnone
  | storeFailedOwned _ _ _ _ _ => exact h.frame rfl rfl rfl hnone
  | resumed _ hr =>
    refine h.frame hcap (by rw [hr.persistence]) (by rw [hr.persistence]) ?_
    rw [hr.task]
    exact hnone
  | sentMarked _ => exact h.frame rfl rfl rfl hnone
  | retried _ => exact h.frame rfl rfl rfl hnone
  | sendSettled _ => exact h.frame rfl rfl rfl hnone
  | observing _ => exact h.frame rfl rfl rfl id

/-! The start. -/

theorem mapM_some_iff {α β : Type} {f : α → Option β} {l : List α} {m : List β} :
    l.mapM f = some m ↔ List.Forall₂ (fun a b => f a = some b) l m := by
  induction l generalizing m with
  | nil =>
    rw [List.forall₂_nil_left_iff]
    simp [eq_comm]
  | cons a l ih =>
    rw [List.mapM_cons, List.forall₂_cons_left_iff]
    simp only [bind, Option.bind_eq_some_iff, pure, Option.some.injEq, ih]
    constructor
    · rintro ⟨b, hb, bs, hbs, rfl⟩
      exact ⟨b, bs, hb, hbs, rfl⟩
    · rintro ⟨b, bs, hb, hbs, rfl⟩
      exact ⟨b, hb, bs, hbs, rfl⟩

theorem readSnapshot_attempts {t : SnapshotText} (h : readSnapshot t = some s) :
    List.Forall₂ (fun a b => readAttempt a = some b) t.attempts s.attempts := by
  obtain ⟨_, _, h⟩ := Option.bind_eq_some_iff.mp h
  obtain ⟨_, _, h⟩ := Option.bind_eq_some_iff.mp h
  obtain ⟨_, _, h⟩ := Option.bind_eq_some_iff.mp h
  obtain ⟨_, _, h⟩ := Option.bind_eq_some_iff.mp h
  obtain ⟨_, hattempts, h⟩ := Option.bind_eq_some_iff.mp h
  obtain rfl := Option.some.inj h
  exact mapM_some_iff.mp hattempts

theorem readSignedTransactions_some {ts : List SignedTransactionText} {u : SignedTransactions}
    (h : readSignedTransactions ts = some u) :
    List.Forall₂ (fun a b => readSignedTransaction a = some b) ts u.toList := by
  obtain ⟨l, hl, h⟩ := Option.bind_eq_some_iff.mp h
  cases l with
  | nil => cases h
  | cons original replacements =>
    obtain rfl := Option.some.inj h
    exact mapM_some_iff.mp hl

/-- What an attempt that was read keeps of its text. -/
theorem readAttempt_some {t : AttemptText} {a : JournalAttempt} (h : readAttempt t = some a) :
    readUuid t.attemptId = some a.attemptId ∧ a.workId = t.workId ∧ a.nonce = t.nonce ∧
      List.Forall₂ (fun x y => readSignedTransaction x = some y) t.signedTransactions
        a.signedTransactions.toList ∧ readPhase t.phase = some a.phase := by
  obtain ⟨_, hid, h⟩ := Option.bind_eq_some_iff.mp h
  obtain ⟨_, _, h⟩ := Option.bind_eq_some_iff.mp h
  obtain ⟨_, hsigned, h⟩ := Option.bind_eq_some_iff.mp h
  obtain ⟨_, _, h⟩ := Option.bind_eq_some_iff.mp h
  obtain ⟨_, hphase, h⟩ := Option.bind_eq_some_iff.mp h
  obtain rfl := Option.some.inj h
  exact ⟨hid, rfl, rfl, readSignedTransactions_some hsigned, hphase⟩

/-- The bounds that the store checks are those of the values that were read. -/
theorem WithinBounds.read {t : SnapshotText} (h : WithinBounds (some bounds) t)
    (hs : readSnapshot t = some s) :
    s.attempts.length ≤ bounds.maxRetainedAttempts ∧ ∀ a ∈ s.attempts,
      a.signedTransactions.toList.length ≤ bounds.maxSignedTransactionsPerAttempt := by
  obtain ⟨hretained, hvariants⟩ := h bounds rfl
  have hattempts := readSnapshot_attempts hs
  constructor
  · rw [← hattempts.length_eq]
    exact hretained
  · intro b hb
    obtain ⟨a, ha, hab⟩ := forall₂_mem_right hattempts hb
    rw [← (readAttempt_some hab).2.2.2.1.length_eq]
    exact hvariants a ha

/-- A coordinator starts from the journal that was loaded, once it is verified. -/
theorem create_within {n : ℕ} {read : Option TransactionJournalSnapshot} {now : Timestamp}
    (h : SignerCoordinator.create lib identity n read now = .ok c)
    (hn : n ≤ bounds.maxRetainedAttempts) (hvariant : 1 ≤ bounds.maxSignedTransactionsPerAttempt)
    (hread : ∀ s ∈ read, s.attempts.length ≤ bounds.maxRetainedAttempts ∧ ∀ a ∈ s.attempts,
      a.signedTransactions.toList.length ≤ bounds.maxSignedTransactionsPerAttempt) :
    RuntimeWithin lib identity bounds c := by
  have hcreated := create_ok h
  have hverified : c.maxRetainedAttempts = n ∧ ∀ s ∈ read, SnapshotVerified lib identity s := by
    unfold SignerCoordinator.create at h
    split_ifs at h
    unfold JournalPersistence.create at h
    cases read with
    | none =>
      obtain rfl := Except.ok.inj h
      exact ⟨rfl, fun s hs => (by cases hs)⟩
    | some s =>
      cases hv : verifyJournalSnapshot lib s identity with
      | error e => simp [hv, bind, Except.bind] at h
      | ok t =>
        obtain ⟨rfl, hs⟩ := verifyJournalSnapshot_ok_iff.mp hv
        simp only [hv, bind, Except.bind, pure, Except.pure] at h
        obtain rfl := Except.ok.inj h
        refine ⟨rfl, fun u hu => ?_⟩
        obtain rfl := Option.some.inj hu
        exact hs
  refine ⟨hverified.1 ▸ hn, hvariant, ?_, ?_, ?_⟩
  · rw [hcreated.persistence]
    exact fun s hs => ⟨hverified.2 s hs, (hread s hs).1, (hread s hs).2⟩
  · rw [hcreated.persistence]
    exact fun s hs => (by cases hs)
  · rw [hcreated.task]
    exact fun hawaits => hawaits.elim

theorem triple_unknown {ε α : Type} (pre : JournalDisk → Prop)
    (x : Files TempName FileContents ε α) :
    Triple pre x (fun _ _ => True) (fun _ => True) fun _ => True := by
  intro script d _
  split <;> trivial

/-- A runtime that opens has its identity captured, and is within the bounds. -/
theorem openSignerRuntime_triple (lib : TransactionLibrary) (text : IdentityText) (name : TempName)
    (now : Timestamp) :
    Triple (fun _ => True) (openSignerRuntime lib text name now)
      (fun c _ => captureJournalIdentity text = true ∧
        ∃ captured, readIdentity text = some captured ∧
          RuntimeWithin lib captured DEFAULT_JOURNAL_BOUNDS c)
      (fun _ => True) fun _ => True := by
  unfold openSignerRuntime
  split
  · exact Triple.throw fun _ _ => trivial
  split
  · exact Triple.throw fun _ _ => trivial
  rename_i captured hcaptured
  split_ifs with hvalid
  · exact Triple.throw fun _ _ => trivial
  have hload : Triple (fun _ : JournalDisk => True)
      (openAndLoad lib (boundedStore text DEFAULT_JOURNAL_BOUNDS) name)
      (fun read _ => ∀ s ∈ read, WithinBounds (some DEFAULT_JOURNAL_BOUNDS) s) (fun _ => True)
      fun _ => True := by
    apply Triple.bind (triple_unknown _ _)
    intro _
    exact (load_triple lib (boundedStore text DEFAULT_JOURNAL_BOUNDS) fun _ => True).weaken
      (fun _ hd => hd) (fun _ _ hd => hd.2.2) (fun _ hd => hd) fun _ hd => hd
  apply Triple.bind hload
  intro read
  split
  · exact Triple.throw fun _ _ => trivial
  rename_i c hc
  refine Triple.pure fun d hd => ⟨by simpa using hvalid, captured, hcaptured, ?_⟩
  apply create_within hc le_rfl (by decide)
  intro s hs
  obtain ⟨t, ht, hts⟩ := Option.bind_eq_some_iff.mp hs
  exact (hd t ht).read hts

theorem runtime_within (h : RuntimeWithin lib identity bounds c) (is : List Input) :
    RuntimeWithin lib identity bounds ((runtimeSystem lib identity c).run is).1 := by
  refine (runtimeSystem lib identity c).run_invariant
    (fun d _ => RuntimeWithin lib identity bounds d) h ?_ is
  intro i d tr d' x hd hstep
  exact hd.step (coordinatorStep_capacity hstep) (coordinatorStep_cases hstep)

end Within

end Quicknet
