import Quicknet.StoredPreparation

/-! Where a save is held up for good. The persistence takes a snapshot as pending before its text
is measured, so one whose text is larger than a journal file may be is saved by no retry, as
long as the process lives; where every text fits, nothing is ever held up. -/
namespace Quicknet

open DurableFile Interaction Transition SignerCoordinator
open Json (Text text)

/-- An action that ends the process. -/
def StoredAction.kills : StoredAction → Prop
  | .act i => i.action = .crash
  | .powerLoss _ _ _ _ => True
  | _ => False

/-- No text of the snapshot is one that the encoder takes. -/
def Oversized (s : TransactionJournalSnapshot) : Prop :=
  ∀ t, readSnapshot t = some s → MAX_JOURNAL_BYTES < Json.utf8Length (journalText t)

/-- The pending snapshot was not saved, and the committed one is still `current`. -/
structure Wedged (current : Option TransactionJournalSnapshot) (s : TransactionJournalSnapshot)
    (c : SignerCoordinator) : Prop where
  current : c.persistence.current = current
  pending : c.persistence.pending = some s
  notIdle : c.persistence.state ≠ .idle
  busy : ∀ k, c.task = some (.storing k) → c.busy = true

section Wedge

variable {lib : TransactionLibrary} {expected : IdentityText} {bounds : JournalBounds}
  {identity : JournalIdentity} {c c' : SignerCoordinator} {e : Option Event} {i : Input}
  {current : Option TransactionJournalSnapshot} {s : TransactionJournalSnapshot}
  {st st' : StoredWorld} {disk : JournalDisk}

theorem readBytes_length {t : Text} :
    ∀ {b : Bytes}, readBytes t = some b → t.length = 2 * b.length := by
  induction t using readBytes.induct with
  | case1 =>
    intro b h
    obtain rfl := Option.some.inj h
    rfl
  | case2 c =>
    intro b h
    cases h
  | case3 high low rest ih =>
    intro b h
    obtain ⟨_, _, h⟩ := Option.bind_eq_some_iff.mp h
    obtain ⟨_, _, h⟩ := Option.bind_eq_some_iff.mp h
    obtain ⟨bytes, hbytes, h⟩ := Option.bind_eq_some_iff.mp h
    obtain rfl := Option.some.inj h
    have hlength := ih hbytes
    simp only [List.length_cons, hlength]
    omega

/-- Each signed byte takes two characters of the text. -/
theorem Oversized.of_signed {a : JournalAttempt} {x : JournalSignedTransaction}
    (ha : a ∈ s.attempts) (hx : x ∈ a.signedTransactions.toList)
    (hsize : MAX_JOURNAL_BYTES < 2 * x.signedTransaction.length) : Oversized s := by
  intro t ht
  obtain ⟨a', ha', hattempt⟩ := forall₂_mem_right (readSnapshot_attempts ht) ha
  obtain ⟨_, _, _, hsigned, _⟩ := readAttempt_some hattempt
  obtain ⟨x', hx', hread⟩ := forall₂_mem_right hsigned hx
  obtain ⟨_, _, hread⟩ := Option.bind_eq_some_iff.mp hread
  obtain ⟨bytes, hbytes, hread⟩ := Option.bind_eq_some_iff.mp hread
  obtain rfl := Option.some.inj hread
  unfold readSignedBytes at hbytes
  split_ifs at hbytes
  have hlength := readBytes_length hbytes
  rw [List.length_drop] at hlength
  calc MAX_JOURNAL_BYTES < 2 * bytes.length := hsize
    _ ≤ x'.signedTransaction.length := by omega
    _ ≤ (a'.signedTransactions.map (·.signedTransaction.length)).sum :=
      List.le_sum_of_mem (List.mem_map_of_mem hx')
    _ ≤ signedTransactionUnits t := List.le_sum_of_mem (List.mem_map_of_mem ha')
    _ ≤ Json.utf8Length (journalText t) := signedTransactionUnits_le t

/-- Without the store, a write that is held up stays so. -/
theorem Wedged.act (h : Wedged current s c) (hi : i.action.leavesStore = true)
    (hs : coordinatorStep lib identity i c = some (c', e)) : Wedged current s c' := by
  have hwaits {k : Continuation} (hk : c.task = some (.storing k)) : c'.task = some (.storing k) :=
    (storing_waits hk (h.busy k hk) hi hs).trans hk
  have hframe (hp : c'.persistence = c.persistence)
      (hb : ∀ k, c'.task = some (.storing k) → c'.busy = true) : Wedged current s c' := by
    refine ⟨?_, ?_, ?_, hb⟩
    · rw [hp]
      exact h.current
    · rw [hp]
      exact h.pending
    · rw [hp]
      exact h.notIdle
  cases coordinatorStep_cases hs with
  | begun _ _ _ hidle => exact absurd hidle h.notIdle
  | owner _ _ => exact hframe rfl h.busy
  | finished _ _ _ _ _ _ _ hidle => exact absurd hidle h.notIdle
  | abandonmentCompleted _ _ _ => exact hframe rfl h.busy
  | recovering _ _ _ _ _ _ _ hidle => exact absurd hidle h.notIdle
  | inspecting _ _ _ _ _ _ _ hidle _ _ => exact absurd hidle h.notIdle
  | inspectionRefused _ _ _ _ hidle => exact absurd hidle h.notIdle
  | signing _ _ _ _ hopen _ _ =>
    obtain ⟨_, hgate⟩ := gateOpen_of_status hopen
    exact absurd hgate.idle h.notIdle
  | wrote _ hidle _ => exact absurd hidle h.notIdle
  | retrying _ _ _ _ _ => exact ⟨h.current, h.pending, by simp, fun _ _ => rfl⟩
  | acked hk _ => cases hwaits hk
  | storeFailed hk _ _ _ _ => cases hwaits hk
  | storeFailedOwned hk _ _ _ _ => cases hwaits hk
  | resumed _ hr =>
    apply hframe hr.persistence
    intro k hk
    cases hr.task.symm.trans hk
  | observing _ => exact hframe rfl h.busy
  | _ => exact hframe rfl fun k hk => (by cases hk)

/-- The store refuses the text before it touches the disk. -/
theorem save_refused {t : SnapshotText} {store : JournalStore} {name : TempName}
    {script : List (Outcome FileContents)}
    (hsize : MAX_JOURNAL_BYTES < Json.utf8Length (journalText t)) :
    store.save lib name t script disk = (.threw JournalStore.saveFailed, script, disk) := by
  unfold JournalStore.save
  cases hvalid : validateJournalText t store.identity with
  | none => rfl
  | some captured =>
    obtain rfl := (validateJournalText_some_iff.mp hvalid).1
    cases hencode : encodeJournalSnapshot lib captured store.identity with
    | error failure => simp only [hencode, Files.throw]
    | ok contents => exact absurd (encodeJournalSnapshot_ok_iff.mp hencode).2.2 (not_le.mpr hsize)

/-- The save of an oversized snapshot is refused, and the disk stays. -/
theorem persistAnswer_refused {now : Timestamp} {name : TempName} {t : SnapshotText} {n : ℕ}
    (hover : Oversized s) (hsaving : st.world.saving = some s)
    (hs : persistAnswer lib expected bounds identity now name t n st = some (st', e)) :
    answerStep lib identity now .storeFailed st.world st.disk = some (st', e) := by
  unfold persistAnswer at hs
  split_ifs at hs with hcond
  push Not at hcond
  have ht : readSnapshot t = some s := hcond.2.1.trans hsaving
  rwa [save_refused (hover t ht)] at hs

/-- A refused save leaves the process with its pending snapshot. -/
theorem storeFailed_wedged {now : Timestamp} (hpending : c.persistence.pending = some s)
    (hs : c.storeFailed now = some (c', e)) : Wedged c.persistence.current s c' := by
  have hfailed (hp : c'.persistence = c.persistence.failed) (ht : c'.task = none) :
      Wedged c.persistence.current s c' := by
    refine ⟨?_, ?_, ?_, fun k hk => ?_⟩
    · rw [hp, JournalPersistence.failed]
    · rw [hp, JournalPersistence.failed]
      exact hpending
    · rw [hp, JournalPersistence.failed]
      simp
    · rw [ht] at hk
      cases hk
  unfold SignerCoordinator.storeFailed at hs
  dsimp only at hs
  split at hs
  all_goals first
    | cases hs; done
    | (obtain ⟨rfl, _⟩ := Prod.mk.inj (Option.some.inj hs); exact hfailed rfl rfl)

theorem persist_wedged {now : Timestamp} {name : TempName} {t : SnapshotText} {n : ℕ}
    (hover : Oversized s) (hc : st.world = .running c) (hpending : c.persistence.pending = some s)
    (hs : persistAnswer lib expected bounds identity now name t n st = some (st', e)) :
    ∃ c', st'.world = .running c' ∧ Wedged c.persistence.current s c' := by
  have hsaving : st.world.saving = some s := by
    have hne : st.world.saving ≠ none := by
      intro hnone
      rw [persistAnswer, if_pos (Or.inl hnone)] at hs
      cases hs
    rw [hc, World.saving] at hne ⊢
    split at hne
    · exact hpending
    · exact absurd rfl hne
  have hanswer := persistAnswer_refused hover hsaving hs
  rw [hc] at hanswer
  obtain ⟨⟨w, x⟩, hw, heq⟩ := Option.map_eq_some_iff.mp hanswer
  obtain ⟨rfl, rfl⟩ := Prod.mk.inj heq
  obtain ⟨⟨d, y⟩, hd, heq'⟩ := Option.map_eq_some_iff.mp hw
  obtain ⟨rfl, rfl⟩ := Prod.mk.inj heq'
  exact ⟨d, rfl, storeFailed_wedged hpending hd⟩

/-- The step lemma: an action that does not end the process leaves it held up. -/
theorem Wedged.step {action : StoredAction} (h : Wedged current s c) (hover : Oversized s)
    (hc : st.world = .running c) (hkills : ¬ action.kills)
    (hs : storedStep lib expected bounds action st = some (st', e)) :
    ∃ c', st'.world = .running c' ∧ Wedged current s c' := by
  obtain ⟨identity, _, hs⟩ := Option.bind_eq_some_iff.mp hs
  cases action with
  | act i =>
    simp only [actStep] at hs
    split_ifs at hs with hi
    obtain ⟨⟨w, x⟩, hw, heq⟩ := Option.map_eq_some_iff.mp hs
    obtain ⟨rfl, rfl⟩ := Prod.mk.inj heq
    rw [hc] at hw
    simp only [worldStep] at hw
    split at hw
    · rename_i hcrash
      exact absurd hcrash hkills
    · obtain ⟨⟨d, y⟩, hd, heq'⟩ := Option.map_eq_some_iff.mp hw
      obtain ⟨rfl, rfl⟩ := Prod.mk.inj heq'
      exact ⟨d, rfl, h.act hi hd⟩
  | persist now name t operations =>
    obtain ⟨c', hc', hwedged⟩ := persist_wedged hover hc h.pending hs
    rw [h.current] at hwedged
    exact ⟨c', hc', hwedged⟩
  | start now name repair operations =>
    simp only [startStep, hc] at hs
    cases hs
  | powerLoss now choice torn temps => exact absurd trivial hkills

/-- The run lemma: until the process ends, an oversized snapshot stays pending, and no retry
commits it. -/
theorem Wedged.run {front bs : List StoredAction} (h : Wedged current s c) (hover : Oversized s)
    (hc : (runStored lib expected bounds front).1.world = .running c)
    (hkills : ∀ b ∈ bs, ¬ b.kills) :
    ∃ c', (runStored lib expected bounds (front ++ bs)).1.world = .running c' ∧
      Wedged current s c' := by
  induction bs using List.reverseRecOn with
  | nil =>
    rw [List.append_nil]
    exact ⟨c, hc, h⟩
  | append_singleton bs b ih =>
    obtain ⟨d, hd, hwedged⟩ := ih fun a ha => hkills a (List.mem_append_left _ ha)
    have hb : ¬ b.kills := hkills b (List.mem_append_right _ (List.mem_singleton_self b))
    rw [← List.append_assoc]
    cases hstep : storedStep lib expected bounds b
        (runStored lib expected bounds (front ++ bs)).1 with
    | none =>
      rw [runStored_refused hstep]
      exact ⟨d, hd, hwedged⟩
    | some r =>
      obtain ⟨st', x⟩ := r
      rw [runStored_accepted hstep]
      exact hwedged.step hover hd hb hstep

end Wedge

/-- Where every text that is saved fits in the file, no write is ever held up: a preparation
commits its attempt or changes nothing, and what is committed is loaded again. -/
theorem no_persistence_wedge (lib : TransactionLibrary) {expected : IdentityText}
    {identity : JournalIdentity} (hidentity : readIdentity expected = some identity)
    (bounds : JournalBounds) {as : List StoredAction} (hfits : ∀ a ∈ as, a.Fits) :
    Unwedged lib expected bounds (runStored lib expected bounds as).1 ∧
      PreparationsEnd lib expected bounds as :=
  ⟨(runStored_ok hidentity hfits).unwedged hidentity, runStored_preparationsEnd hidentity hfits⟩

/-! A run that opens the gate, on any library: no attempt is verified yet. -/

section Opening

variable {lib : TransactionLibrary} {expected : IdentityText} {bounds : JournalBounds}
  {identity : JournalIdentity} {c c' : SignerCoordinator} {e : Option Event}
  {s : TransactionJournalSnapshot} {t : SnapshotText} {disk disk' : JournalDisk}
  {front : List StoredAction}

/-- What the coordinator makes of actions that it takes one after another. -/
def acted (lib : TransactionLibrary) (identity : JournalIdentity) (is : List Input)
    (c : SignerCoordinator) : Option SignerCoordinator :=
  is.foldlM (fun c i => (coordinatorStep lib identity i c).map Prod.fst) c

theorem runStored_acted (hidentity : readIdentity expected = some identity) (is : List Input)
    (his : ∀ i ∈ is, i.action.leavesStore = true)
    (hfront : (runStored lib expected bounds front).1 = ⟨.running c, disk⟩)
    (h : acted lib identity is c = some c') :
    (runStored lib expected bounds (front ++ is.map .act)).1 = ⟨.running c', disk⟩ := by
  induction is generalizing front c with
  | nil =>
    obtain rfl := Option.some.inj h
    simpa using hfront
  | cons i is ih =>
    obtain ⟨d, hd, hacted⟩ := Option.bind_eq_some_iff.mp h
    obtain ⟨⟨d', x⟩, hstep, rfl⟩ := Option.map_eq_some_iff.mp hd
    have hnext : (runStored lib expected bounds (front ++ [.act i])).1 = ⟨.running d', disk⟩ := by
      apply runStored_accepted (e := x)
      rw [storedStep, hidentity, Option.bind_some, hfront]
      simp only [actStep, his i List.mem_cons_self, if_true, worldStep_of_running hstep,
        Option.map_some]
    have hrun := ih (fun j hj => his j (List.mem_cons_of_mem _ hj)) hnext hacted
    simpa using hrun

/-- The store's answer to a save that it takes. -/
theorem runStored_persisted (hidentity : readIdentity expected = some identity)
    (now : Timestamp) {name : TempName} {n : ℕ} {script : List (Outcome FileContents)}
    (hfront : (runStored lib expected bounds front).1 = ⟨.running c, disk⟩)
    (hsaving : (World.running c).saving = some s) (ht : readSnapshot t = some s)
    (hname : disk.temp name = none)
    (hsave : (boundedStore expected bounds).save lib name t (succeeding n) disk =
      (.ok (), script, disk'))
    (hstored : c.stored = some (c', e)) :
    (runStored lib expected bounds (front ++ [.persist now name t n])).1 =
      ⟨.running c', disk'⟩ := by
  have hstep : coordinatorStep lib identity ⟨now, .stored⟩ c = some (c', e) := hstored
  apply runStored_accepted (e := e)
  unfold storedStep persistAnswer
  rw [hidentity, Option.bind_some, hfront]
  dsimp only
  rw [if_neg (by simp [hsaving, ht, hname]), hsave]
  simp only [answerStep, worldStep_of_running hstep, Option.map_some]

/-- What a save leaves that is not disturbed. -/
theorem save_done {target : Option (Inode FileContents)} {contents : Text} {store : JournalStore}
    (h : encodeJournalSnapshot lib t store.identity = .ok contents) :
    store.save lib 0 t (succeeding 20) ⟨target, [], []⟩ =
      (.ok (), succeeding 10, ⟨some ⟨some contents, true⟩, [], []⟩) := by
  have hvalid : validateJournalText t store.identity = some t :=
    validateJournalText_some_iff.mpr ⟨rfl, (encodeJournalSnapshot_ok_iff.mp h).2.1.valid⟩
  unfold JournalStore.save
  simp only [hvalid, h]
  rfl

def transferReads (a : BlockAnchor) : RpcLog :=
  [anchorSeen a, nonceRead legacySigner (.at a.blockNumber) (some 9), anchorSeen a]

/-- The journal after the bootstrap, with what was observed last. -/
def anchoredText (n : ℕ) : SnapshotText where
  identity := legacyIdentityText
  baseline := ⟨sampleAnchorText 5, 9⟩
  lastObservation := ⟨sampleAnchorText n, 9⟩
  nextNonce := 9
  durableNextNonce := 9
  repairs := []
  attempts := []

def anchoredSnapshot (n : ℕ) : TransactionJournalSnapshot where
  identity := ⟨1, legacySigner⟩
  baseline := ⟨recordedAnchor 5, 9⟩
  lastObservation := ⟨recordedAnchor n, 9⟩
  nextNonce := 9
  durableNextNonce := 9
  repairs := []
  attempts := []

def acting (as : List Action) : List Input := as.map fun a => ⟨1, a⟩

def bootstrapActions : List Input :=
  acting [.beginInspection, .callOwned 1 (.recover (recordedAnchor 5) 100), .startOperation,
    .answered (transferReads (recordedAnchor 5) ++ [nonceRead legacySigner .latest (some 9),
      nonceRead legacySigner .pending (some 9), anchorSeen (recordedAnchor 5)])]

def inclusionActions : List Input :=
  acting [.resume, .settleOperation, .callOwned 1 (.checkInclusions 0 (recordedAnchor 6) none),
    .startOperation, .answered (transferReads (recordedAnchor 6))]

def finishActions : List Input := acting [.resume, .settleOperation, .finishInspection 1]

/-- A start, the bootstrap and an inclusion pass, which opens the gate. -/
def openingRun : List StoredAction :=
  [.start 1 0 false 10] ++ bootstrapActions.map .act ++ [.persist 1 0 (anchoredText 5) 20] ++
    inclusionActions.map .act ++ [.persist 1 0 (anchoredText 6) 20] ++ finishActions.map .act

def openedSigner : SignerCoordinator where
  persistence := ⟨.idle, some (anchoredSnapshot 6), none⟩
  maxRetainedAttempts := 16
  recoveryComplete := true
  inclusionChecksComplete := true
  reconciliationObservationActive := false
  busy := false
  broadcastPermit := none
  inspectionGeneration := 1
  inspectionOwner := none
  blockedSince := none
  pendingWrite := none
  committedDurableRecoveryRevision := .present 9 9 [] ⟨false, false⟩
  blockers := ⟨false, false⟩
  task := none

def openedDisk : JournalDisk :=
  ⟨some ⟨some (journalText (anchoredText 6)), true⟩, [], []⟩

theorem readIdentity_legacy : readIdentity legacyIdentityText = some ⟨1, legacySigner⟩ := by
  decide +kernel

theorem sampleAnchorText_read (n : ℕ) :
    readAnchor (sampleAnchorText n) = some (recordedAnchor n) := by
  have hhash : readFixedHex 32 (sampleAnchorText 0).blockHash =
      some (recordedAnchor 0).blockHash := by
    decide +kernel
  have hsame : (sampleAnchorText n).blockHash = (sampleAnchorText 0).blockHash := rfl
  rw [readAnchor, hsame, hhash]
  rfl

theorem anchoredText_read (n : ℕ) : readSnapshot (anchoredText n) = some (anchoredSnapshot n) := by
  simp only [readSnapshot, anchoredText, readObservation, sampleAnchorText_read,
    readIdentity_legacy]
  rfl

theorem encode_anchored (lib : TransactionLibrary) {n : ℕ} (hn : n = 5 ∨ n = 6) :
    encodeJournalSnapshot lib (anchoredText n) legacyIdentityText =
      .ok (journalText (anchoredText n)) := by
  have hvalid : SnapshotValid ⟨1, legacySigner⟩ (anchoredSnapshot n) := by
    rcases hn with rfl | rfl
    · exact ⟨by decide, by decide, by decide⟩
    · exact ⟨by decide, by decide, by decide⟩
  have hfits : Json.utf8Length (journalText (anchoredText n)) ≤ MAX_JOURNAL_BYTES := by
    rcases hn with rfl | rfl
    · decide +kernel
    · decide +kernel
  have hverified : SnapshotVerified lib ⟨1, legacySigner⟩ (anchoredSnapshot n) :=
    ⟨hvalid, fun a ha => absurd ha List.not_mem_nil⟩
  exact encodeJournalSnapshot_ok_iff.mpr
    ⟨rfl, ⟨_, _, readIdentity_legacy, anchoredText_read n, hverified⟩, hfits⟩

theorem openingRun_opens (lib : TransactionLibrary) :
    (runStored lib legacyIdentityText DEFAULT_JOURNAL_BOUNDS openingRun).1 =
      ⟨.running openedSigner, openedDisk⟩ := by
  have hstart : (runStored lib legacyIdentityText DEFAULT_JOURNAL_BOUNDS
      [.start 1 0 false 10]).1 = ⟨.running _, ⟨none, [], []⟩⟩ := rfl
  -- each stretch without the store is evaluated by itself, from the state before it
  have hbootstrap := runStored_acted readIdentity_legacy bootstrapActions (by decide)
    hstart rfl
  have hbootstrapped := runStored_persisted readIdentity_legacy 1 hbootstrap rfl
    (anchoredText_read 5) rfl (save_done (encode_anchored lib (Or.inl rfl))) rfl
  have hinclusions := runStored_acted readIdentity_legacy inclusionActions (by decide)
    hbootstrapped rfl
  have hincluded := runStored_persisted readIdentity_legacy 1 hinclusions rfl
    (anchoredText_read 6) rfl (save_done (encode_anchored lib (Or.inr rfl))) rfl
  have hfinish := runStored_acted readIdentity_legacy finishActions (by decide)
    hincluded rfl
  exact hfinish

end Opening

/-! A preparation at the open gate, up to the store's answer. -/

section Preparing

def sampleAttemptId : AttemptId := 0x123e4567e89b42d3a456426614174000

def writtenAttempt (signed : JournalSignedTransaction) : JournalAttempt :=
  preparedAttempt (anchoredSnapshot 6) sampleAttemptId (text "work") 1 signed

def preparedRecord (signed : JournalSignedTransaction) : TransactionJournalSnapshot :=
  preparation (anchoredSnapshot 6) (text "work") sampleAttemptId 1 signed

def preparedText (signed : SignedTransactionText) : SnapshotText :=
  { anchoredText 6 with
    nextNonce := 10
    attempts :=
      [{ attemptId := text "123e4567-e89b-42d3-a456-426614174000"
         workId := text "work"
         nonce := 9
         createdAt := text "1970-01-01T00:00:00.001Z"
         signedTransactions := [signed]
         replacementSearch := some ⟨⟨sampleAnchorText 6, 9⟩, none⟩
         phase := .signed }] }

/-- The account signs the request, with these bytes and this text. -/
structure SignsRequest (lib : TransactionLibrary) (request : PreparedRelayerTransaction)
    (signed : JournalSignedTransaction) (t : SignedTransactionText) : Prop where
  sign : signPreparedTransaction lib ⟨1, legacySigner⟩ 9 legacySigner request
    (some signed.signedTransaction) = .ok signed
  length : 32 ≤ signed.signedTransaction.length
  read : readSignedTransaction t = some signed

def preparingActions (request : PreparedRelayerTransaction) (answer : Bytes) : List Input :=
  acting [.prepareAttempt (text "work") sampleAttemptId legacySigner request,
    .signed (some answer) true]

def preparedRun (request : PreparedRelayerTransaction) (signed : JournalSignedTransaction)
    (t : SignedTransactionText) : List StoredAction :=
  openingRun ++ (preparingActions request signed.signedTransaction).map .act ++
    [.persist 1 0 (preparedText t) 20]

def signingSigner (request : PreparedRelayerTransaction) : SignerCoordinator :=
  { openedSigner with
    busy := true
    task := some (.signing (text "work") sampleAttemptId 1 legacySigner request none true) }

def savingSigner (signed : JournalSignedTransaction) : SignerCoordinator :=
  { openedSigner with
    persistence := ⟨.writing, some (anchoredSnapshot 6), some (preparedRecord signed)⟩
    inclusionChecksComplete := false
    busy := true
    blockedSince := some 1
    pendingWrite := some .prepared
    task := some (.storing (.own (.prepared (writtenAttempt signed)))) }

def savedSigner (signed : JournalSignedTransaction) : SignerCoordinator :=
  { savingSigner signed with
    persistence := ⟨.idle, some (preparedRecord signed), none⟩
    task := some (.saved (.own (.prepared (writtenAttempt signed)))) }

variable {lib : TransactionLibrary} {request : PreparedRelayerTransaction}
  {signed : JournalSignedTransaction} {t : SignedTransactionText}

theorem preparedText_read (h : readSignedTransaction t = some signed) :
    readSnapshot (preparedText t) = some (preparedRecord signed) := by
  have hid : readUuid (text "123e4567-e89b-42d3-a456-426614174000") = some sampleAttemptId := by
    decide +kernel
  have hcreated : readTimestamp (text "1970-01-01T00:00:00.001Z") = some 1 := by decide +kernel
  simp only [readSnapshot, preparedText, anchoredText, readObservation, sampleAnchorText_read,
    readIdentity_legacy, readAttempt, hid, hcreated, readSignedTransactions, h, List.mapM_cons,
    List.mapM_nil, readReplacementSearch, readPhase, readSearchedThrough]
  rfl

theorem SignsRequest.valid (h : SignsRequest lib request signed t) :
    SnapshotValid ⟨1, legacySigner⟩ (preparedRecord signed) := by
  have hheader : HeaderValid ⟨1, legacySigner⟩ { anchoredSnapshot 6 with nextNonce := 10 } := by
    decide
  have hrepairs : RepairsValid (anchoredSnapshot 6) := by decide
  have hnonce : 9 ≤ MAX_UINT256 := by decide
  have hwork : isWorkId (text "work") = true := by decide
  have hsearch : SearchValid 9 ⟨(anchoredSnapshot 6).lastObservation, none⟩ := by decide
  refine ⟨hheader, hrepairs, ?_, rfl, ⟨rfl, trivial⟩, List.nodup_singleton _,
    List.nodup_singleton _, List.nodup_singleton _⟩
  intro a ha
  rw [List.mem_singleton.mp ha]
  refine ⟨hnonce, hwork, ?_, ?_, trivial⟩
  · intro x hx
    rw [List.mem_singleton.mp hx]
    exact h.length
  · intro x hx
    obtain rfl := Option.some.inj hx
    exact hsearch

theorem SignsRequest.verified (h : SignsRequest lib request signed t) :
    SnapshotVerified lib ⟨1, legacySigner⟩ (preparedRecord signed) := by
  obtain ⟨_, _, _, hverify, _⟩ := signPreparedTransaction_ok h.sign
  refine ⟨h.valid, fun a ha => ?_⟩
  rw [List.mem_singleton.mp ha]
  exact hverify

theorem prepareAttempt_opened (lib : TransactionLibrary) (request : PreparedRelayerTransaction) :
    coordinatorStep lib ⟨1, legacySigner⟩ ⟨1, .prepareAttempt (text "work") sampleAttemptId
      legacySigner request⟩ openedSigner = some (signingSigner request, none) := rfl

theorem SignsRequest.answered (h : SignsRequest lib request signed t) :
    coordinatorStep lib ⟨1, legacySigner⟩ ⟨1, .signed (some signed.signedTransaction) true⟩
      (signingSigner request) = some (savingSigner signed,
        some (.write (.prepared (writtenAttempt signed)) (preparedRecord signed))) := by
  have hvalidated : validateJournalSnapshotStructure (preparedRecord signed) ⟨1, legacySigner⟩ =
      .ok (preparedRecord signed) := validate_ok_iff.mpr ⟨rfl, h.valid⟩
  have hsave : openedSigner.persistence.save lib ⟨1, legacySigner⟩ (preparedRecord signed) =
      .ok ⟨.writing, some (anchoredSnapshot 6), some (preparedRecord signed)⟩ :=
    save_ok_iff.mpr ⟨rfl, h.verified, rfl⟩
  have hcurrent : (signingSigner request).persistence.current = some (anchoredSnapshot 6) := rfl
  have hnonce : (anchoredSnapshot 6).nextNonce = 9 := rfl
  have hrecord : preparedSnapshot (anchoredSnapshot 6) (preparedAttempt (anchoredSnapshot 6)
      sampleAttemptId (text "work") 1 signed) = preparedRecord signed := rfl
  simp only [coordinatorStep, SignerCoordinator.signed, hcurrent]
  simp only [signingSigner, hnonce, h.sign, hrecord, hvalidated, if_true, beginWrite, hsave]
  rfl

theorem SignsRequest.saving (h : SignsRequest lib request signed t) :
    (runStored lib legacyIdentityText DEFAULT_JOURNAL_BOUNDS
      (openingRun ++ (preparingActions request signed.signedTransaction).map .act)).1 =
      ⟨.running (savingSigner signed), openedDisk⟩ := by
  apply runStored_acted readIdentity_legacy _ _ (openingRun_opens lib)
  · simp only [preparingActions, acting, List.map_cons, List.map_nil, acted, List.foldlM_cons,
      List.foldlM_nil, prepareAttempt_opened, h.answered, Option.map_some, Option.bind_eq_bind,
      Option.bind_some]
    rfl
  · intro i hi
    simp only [preparingActions, acting, List.map_cons, List.map_nil, List.mem_cons,
      List.not_mem_nil, or_false] at hi
    rcases hi with rfl | rfl
    · rfl
    · rfl

/-- Where the text fits, the attempt is committed. -/
theorem SignsRequest.commits (h : SignsRequest lib request signed t)
    (hfits : Json.utf8Length (journalText (preparedText t)) ≤ MAX_JOURNAL_BYTES) :
    ∃ c, (runStored lib legacyIdentityText DEFAULT_JOURNAL_BOUNDS
      (preparedRun request signed t ++ [.act ⟨1, .resume⟩])).1.world = .running c ∧
        c.task = none ∧ c.persistence = ⟨.idle, some (preparedRecord signed), none⟩ := by
  have hread := preparedText_read h.read
  have hencode : encodeJournalSnapshot lib (preparedText t) legacyIdentityText =
      .ok (journalText (preparedText t)) :=
    encodeJournalSnapshot_ok_iff.mpr ⟨rfl, ⟨_, _, readIdentity_legacy, hread, h.verified⟩, hfits⟩
  have hsave : (boundedStore legacyIdentityText DEFAULT_JOURNAL_BOUNDS).save lib 0 (preparedText t)
      (succeeding 20) openedDisk =
        (.ok (), succeeding 10, ⟨some ⟨some (journalText (preparedText t)), true⟩, [], []⟩) :=
    save_done hencode
  have hstored : (savingSigner signed).stored =
      some (savedSigner signed, some (.acked (preparedRecord signed))) := rfl
  have hsaved := runStored_persisted readIdentity_legacy 1 h.saving rfl hread rfl hsave hstored
  have hresume : acted lib ⟨1, legacySigner⟩ [⟨1, .resume⟩] (savedSigner signed) =
      some ((((savedSigner signed).finishWrite 1).permit (some sampleAttemptId)).release 1) := rfl
  have hresumed := runStored_acted readIdentity_legacy [⟨1, .resume⟩] (by decide) hsaved hresume
  rw [List.map_singleton] at hresumed
  rw [preparedRun, hresumed]
  exact ⟨_, rfl, rfl, rfl⟩

/-- Where no text fits, the write is held up. -/
theorem SignsRequest.wedges (h : SignsRequest lib request signed t)
    (hover : Oversized (preparedRecord signed)) :
    ∃ c, (runStored lib legacyIdentityText DEFAULT_JOURNAL_BOUNDS
      (preparedRun request signed t)).1.world = .running c ∧ c.task = none ∧
        Wedged (some (anchoredSnapshot 6)) (preparedRecord signed) c := by
  have hsaving : (World.running (savingSigner signed)).saving = some (preparedRecord signed) := rfl
  have hread := preparedText_read h.read
  have hname : openedDisk.temp 0 = none := rfl
  obtain ⟨c, hfailed, htask⟩ :
      ∃ c, (savingSigner signed).storeFailed 1 = some (c, none) ∧ c.task = none := ⟨_, rfl, rfl⟩
  have hanswer : coordinatorStep lib ⟨1, legacySigner⟩ ⟨1, .storeFailed⟩ (savingSigner signed) =
      some (c, none) := hfailed
  have hstep : storedStep lib legacyIdentityText DEFAULT_JOURNAL_BOUNDS
      (.persist 1 0 (preparedText t) 20) ⟨.running (savingSigner signed), openedDisk⟩ =
        some (⟨.running c, openedDisk⟩, none) := by
    unfold storedStep persistAnswer
    rw [readIdentity_legacy, Option.bind_some]
    dsimp only
    rw [if_neg (by simp [hsaving, hread, hname]), save_refused (hover _ hread)]
    simp only [answerStep, worldStep_of_running hanswer, Option.map_some]
  rw [← h.saving] at hstep
  refine ⟨c, ?_, htask, storeFailed_wedged rfl hfailed⟩
  rw [preparedRun, runStored_accepted hstep]

/-- There the preparation has neither committed its attempt nor left the state as it was. -/
theorem SignsRequest.unended (h : SignsRequest lib request signed t)
    (hover : Oversized (preparedRecord signed)) :
    ¬ PreparationsEnd lib legacyIdentityText DEFAULT_JOURNAL_BOUNDS
      (preparedRun request signed t) := by
  intro hends
  obtain ⟨c, hc, htask, hwedged⟩ := h.wedges hover
  have hopened : (runStored lib legacyIdentityText DEFAULT_JOURNAL_BOUNDS openingRun).1.world =
      .running openedSigner := by
    rw [openingRun_opens]
  have hstep : storedStep lib legacyIdentityText DEFAULT_JOURNAL_BOUNDS
      (preparing 1 (text "work") sampleAttemptId legacySigner request)
      (runStored lib legacyIdentityText DEFAULT_JOURNAL_BOUNDS openingRun).1 =
        some (⟨.running (signingSigner request), openedDisk⟩, none) := by
    rw [openingRun_opens, storedStep, readIdentity_legacy, Option.bind_some]
    simp only [preparing, actStep, Action.leavesStore, if_true,
      worldStep_of_running (prepareAttempt_opened lib request), Option.map_some]
  have hsuspended : StoredSuspended lib legacyIdentityText DEFAULT_JOURNAL_BOUNDS openingRun
      [preparing 1 (text "work") sampleAttemptId legacySigner request,
        .act ⟨1, .signed (some signed.signedTransaction) true⟩] := by
    have hsaving := h.saving
    simp only [preparingActions, acting, List.map_cons, List.map_nil] at hsaving
    intro ks hks hne
    rw [List.prefix_cons_iff] at hks
    rcases hks with rfl | ⟨ks, rfl, hks⟩
    · exact absurd rfl hne
    · rw [List.prefix_cons_iff] at hks
      rcases hks with rfl | ⟨ks, rfl, hks⟩
      · rw [runStored_accepted hstep]
        exact ⟨_, rfl, by simp [signingSigner]⟩
      · obtain rfl := List.prefix_nil.mp hks
        rw [preparing, hsaving]
        exact ⟨_, rfl, by simp [savingSigner]⟩
  have hsplit : preparedRun request signed t = openingRun ++
      preparing 1 (text "work") sampleAttemptId legacySigner request ::
        [.act ⟨1, .signed (some signed.signedTransaction) true⟩] ++
          [.persist 1 0 (preparedText t) 20] := rfl
  have hend := hends openingRun _ _ 1 (text "work") sampleAttemptId legacySigner request _ _ _ c
    hsplit hopened hstep hsuspended hc htask
  exact hwedged.notIdle hend.idle

end Preparing

/-! A transaction that fits, and one with so much data that the journal with it does not. -/

section Signed

def originalSigned : JournalSignedTransaction :=
  ⟨0x33469b22e9f636356c4160a87eb19df52b7412e8eac32a4a55ffe88ea8350788, originalBytes⟩

def committedRun : List StoredAction :=
  preparedRun legacyRequest originalSigned originalText ++ [.act ⟨1, .resume⟩]

theorem committedRun_unwedged :
    (∃ c, (runStored legacyLibrary legacyIdentityText DEFAULT_JOURNAL_BOUNDS
      committedRun).1.world = .running c ∧ c.task = none ∧
        c.persistence = ⟨.idle, some (preparedRecord originalSigned), none⟩) ∧
    Unwedged legacyLibrary legacyIdentityText DEFAULT_JOURNAL_BOUNDS
      (runStored legacyLibrary legacyIdentityText DEFAULT_JOURNAL_BOUNDS committedRun).1 ∧
    PreparationsEnd legacyLibrary legacyIdentityText DEFAULT_JOURNAL_BOUNDS committedRun := by
  have hsigns : SignsRequest legacyLibrary legacyRequest originalSigned originalText :=
    ⟨rfl, by decide, by decide +kernel⟩
  have htext : Json.utf8Length (journalText (preparedText originalText)) ≤ MAX_JOURNAL_BYTES := by
    decide +kernel
  have hfits : ∀ a ∈ committedRun, a.Fits := by decide +kernel
  refine ⟨?_, no_persistence_wedge legacyLibrary readIdentity_legacy DEFAULT_JOURNAL_BOUNDS hfits⟩
  rw [committedRun]
  exact hsigns.commits htext

def oversizedUnsigned (n gasPrice : ℕ) : ParsedTransaction :=
  { legacyUnsigned (some gasPrice) with value := 0, data := List.replicate n 0, gas := 6000000 }

def oversizedR : ℕ := 0x97fc15d0cafa6a5af3d3c23e029270f491b6581b9101fb47c4f90cbb8e7a8d38
def oversizedS : ℕ := 0x4bbaf9ff6feae3a19de3e3714ebdc08c18bff19eee3a5e53ec44ea406c9f58ee

def oversizedTransaction (n : ℕ) : ParsedTransaction :=
  { oversizedUnsigned n 20000000000 with
    r := some oversizedR
    s := some oversizedS
    v := some 37
    yParity := some 0 }

def oversizedFront : Bytes :=
  bytesOf 41 0xfa0816b8098504a817c800835b8d8094353535353535353535353535353535353535353580ba081650

def oversizedBack : Bytes :=
  [0x25, 0xa0] ++ bytesOf 32 oversizedR ++ [0xa0] ++ bytesOf 32 oversizedS

/-- The bytes are those of the transaction where `n` is 530000. -/
def oversizedBytes (n : ℕ) : Bytes := oversizedFront ++ (List.replicate n 0 ++ oversizedBack)

def oversizedUnsignedBytes (n : ℕ) : Bytes :=
  bytesOf 41 0xfa081678098504a817c800835b8d8094353535353535353535353535353535353535353580ba081650 ++
    (List.replicate n 0 ++ [0x01, 0x80, 0x80])

def oversizedIntentBytes (n : ℕ) : Bytes :=
  bytesOf 36 0xfa0816730980835b8d8094353535353535353535353535353535353535353580ba081650 ++
    (List.replicate n 0 ++ [0x01, 0x80, 0x80])

def oversizedSigned (n : ℕ) : JournalSignedTransaction :=
  ⟨0x8a9f29a8b70278d47eee2677fb6d42bf389fdb267ec9b40d21e95d32e0b6dd77, oversizedBytes n⟩

def oversizedFrontText : Text :=
  text "fa0816b8098504a817c800835b8d8094353535353535353535353535353535353535353580ba081650"

def oversizedBackText : Text :=
  text "25a097fc15d0cafa6a5af3d3c23e029270f491b6581b9101fb47c4f90cbb8e7a8d38" ++
    text "a04bbaf9ff6feae3a19de3e3714ebdc08c18bff19eee3a5e53ec44ea406c9f58ee"

def oversizedText (n : ℕ) : SignedTransactionText where
  transactionHash := text "0x8a9f29a8b70278d47eee2677fb6d42bf389fdb267ec9b40d21e95d32e0b6dd77"
  signedTransaction :=
    text "0x" ++ (oversizedFrontText ++ (repeated (2 * n) '0' ++ oversizedBackText))

def oversizedRequest (n : ℕ) : PreparedRelayerTransaction :=
  ⟨0x3535353535353535353535353535353535353535, List.replicate n 0, 0, 6000000,
    .legacy 20000000000⟩

def oversizedLibrary (n : ℕ) : TransactionLibrary where
  keccak256 bytes :=
    if bytes = oversizedBytes n then (oversizedSigned n).transactionHash else 0
  parseTransaction bytes :=
    if bytes = oversizedBytes n then some (oversizedTransaction n) else none
  serializeTransaction t :=
    if t = oversizedTransaction n then some (oversizedBytes n)
    else if t = oversizedUnsigned n 20000000000 then some (oversizedUnsignedBytes n)
    else if t = oversizedUnsigned n 0 then some (oversizedIntentBytes n)
    else none
  recoverTransactionAddress bytes := if bytes = oversizedBytes n then some legacySigner else none

theorem readBytes_append {t u : Text} : ∀ {b : Bytes}, readBytes t = some b →
    readBytes (t ++ u) = (readBytes u).map (b ++ ·) := by
  induction t using readBytes.induct with
  | case1 =>
    intro b h
    obtain rfl := Option.some.inj h
    simp
  | case2 c =>
    intro b h
    cases h
  | case3 high low rest ih =>
    intro b h
    obtain ⟨_, hhigh, h⟩ := Option.bind_eq_some_iff.mp h
    obtain ⟨_, hlow, h⟩ := Option.bind_eq_some_iff.mp h
    obtain ⟨bytes, hbytes, h⟩ := Option.bind_eq_some_iff.mp h
    obtain rfl := Option.some.inj h
    simp only [List.cons_append, readBytes, hhigh, hlow, ih hbytes]
    cases readBytes u with
    | none => rfl
    | some _ => rfl

theorem readBytes_zeros (n : ℕ) :
    readBytes (repeated (2 * n) '0') = some (List.replicate n 0) := by
  induction n with
  | zero => rfl
  | succ n ih =>
    have hsplit : repeated (2 * (n + 1)) '0' = repeated 2 '0' ++ repeated (2 * n) '0' := by
      rw [repeated, repeated, repeated, ← List.replicate_add]
      congr 1
      omega
    have hzero : readBytes (repeated 2 '0') = some [0] := by decide
    rw [hsplit, readBytes_append hzero, ih, Option.map_some]
    rfl

theorem readSignedBytes_of {t : Text} {b : Bytes} (hb : readBytes t = some b)
    (hlength : 32 ≤ b.length) (hlower : t.all isLowerHex = true) :
    readSignedBytes (text "0x" ++ t) = some b := by
  have hdrop : (text "0x" ++ t).drop 2 = t := rfl
  have hprefix : text "0x" <+: text "0x" ++ t := List.prefix_append _ _
  have hsize : (text "0x" ++ t).length = 2 + t.length := by
    rw [List.length_append]
    rfl
  have heven := readBytes_length hb
  rw [readSignedBytes, hdrop, hsize, if_pos ⟨by omega, by omega, hprefix, hlower⟩, hb]

theorem oversizedBytes_length (n : ℕ) : (oversizedBytes n).length = n + 108 := by
  simp only [oversizedBytes, oversizedFront, oversizedBack, bytesOf, List.length_append,
    List.length_map, List.length_range, List.length_replicate, List.length_cons, List.length_nil]
  omega

theorem oversizedText_read (n : ℕ) :
    readSignedTransaction (oversizedText n) = some (oversizedSigned n) := by
  have hclosed : readFixedHex 32 (oversizedText 0).transactionHash =
      some (oversizedSigned 0).transactionHash := by
    decide +kernel
  have hhash : readFixedHex 32 (oversizedText n).transactionHash =
      some (oversizedSigned n).transactionHash := hclosed
  have hfront : readBytes oversizedFrontText = some oversizedFront := by decide +kernel
  have hback : readBytes oversizedBackText = some oversizedBack := by decide +kernel
  have hbytes : readSignedBytes (oversizedText n).signedTransaction = some (oversizedBytes n) := by
    apply readSignedBytes_of
    · rw [readBytes_append hfront, readBytes_append (readBytes_zeros n), hback]
      rfl
    · rw [oversizedBytes_length]
      omega
    · have hzero : isLowerHex (Json.unit '0') = true := by decide
      have hdigits : (repeated (2 * n) '0').all isLowerHex = true := by
        rw [repeated, List.all_replicate, hzero, ite_self]
      rw [List.all_append, List.all_append, hdigits]
      decide +kernel
  rw [readSignedTransaction, hhash, hbytes]
  rfl

theorem oversized_verified (n : ℕ) :
    verifySignedTransaction (oversizedLibrary n) ⟨1, legacySigner⟩ 9 (oversizedSigned n) =
      some (oversizedIntentBytes n) := by
  have hunsigned : oversizedUnsigned n 0 ≠ oversizedTransaction n := by
    intro h
    cases congrArg ParsedTransaction.r h
  have hprice : oversizedUnsigned n 0 ≠ oversizedUnsigned n 20000000000 := by
    intro h
    cases congrArg ParsedTransaction.gasPrice h
  have hbytes : (oversizedSigned n).signedTransaction = oversizedBytes n := rfl
  have hhash : (oversizedLibrary n).keccak256 (oversizedBytes n) =
      (oversizedSigned n).transactionHash := if_pos rfl
  have hparse : (oversizedLibrary n).parseTransaction (oversizedBytes n) =
      some (oversizedTransaction n) := if_pos rfl
  have hrecover : (oversizedLibrary n).recoverTransactionAddress (oversizedBytes n) =
      some legacySigner := if_pos rfl
  have hserialize : (oversizedLibrary n).serializeTransaction (oversizedTransaction n) =
      some (oversizedBytes n) := if_pos rfl
  have hintent : (oversizedLibrary n).serializeTransaction (oversizedUnsigned n 0) =
      some (oversizedIntentBytes n) :=
    (if_neg hunsigned).trans ((if_neg hprice).trans (if_pos rfl))
  have htype : TransactionType.legacy ≠ .other := by decide
  have hclosed : SignatureValid (oversizedTransaction 0) := by decide +kernel
  have hsignature : SignatureValid (oversizedTransaction n) := hclosed
  rw [verifySignedTransaction, hbytes, if_pos hhash, hparse, Option.bind_some,
    if_pos ⟨htype, rfl, rfl, by decide, hsignature, hserialize, hrecover⟩]
  exact hintent

theorem oversized_sign (n : ℕ) :
    signPreparedTransaction (oversizedLibrary n) ⟨1, legacySigner⟩ 9 legacySigner
      (oversizedRequest n) (some (oversizedBytes n)) = .ok (oversizedSigned n) := by
  have hunsigned : oversizedUnsigned n 20000000000 ≠ oversizedTransaction n := by
    intro h
    cases congrArg ParsedTransaction.r h
  have hhash : (oversizedLibrary n).keccak256 (oversizedBytes n) =
      (oversizedSigned n).transactionHash := if_pos rfl
  have hparse : (oversizedLibrary n).parseTransaction (oversizedBytes n) =
      some (oversizedTransaction n) := if_pos rfl
  have hserialize : (oversizedLibrary n).serializeTransaction (oversizedUnsigned n 20000000000) =
      some (oversizedUnsignedBytes n) := (if_neg hunsigned).trans (if_pos rfl)
  have hattempt : verifyJournalAttempt (oversizedLibrary n) ⟨1, legacySigner⟩ 9
      ⟨oversizedSigned n, []⟩ = true := by
    rw [verifyJournalAttempt, oversized_verified]
    rfl
  have hrequest : (oversizedRequest n).unsigned ⟨1, legacySigner⟩ 9 =
      oversizedUnsigned n 20000000000 := rfl
  have hparsed : ((oversizedLibrary n).parseTransaction (oversizedBytes n)).bind
      (fun parsed => (oversizedLibrary n).serializeTransaction parsed.withoutSignature) =
        some (oversizedUnsignedBytes n) := by
    rw [hparse, Option.bind_some]
    exact hserialize
  have hgas : 0 < 6000000 := by decide
  have hguard : IdentityValid ⟨1, legacySigner⟩ ∧ legacySigner = legacySigner ∧
      9 ≤ MAX_SAFE_INTEGER ∧ 0 < (oversizedRequest n).gas ∧ (oversizedRequest n).FeesValid :=
    ⟨by decide, rfl, by decide, hgas, trivial⟩
  unfold signPreparedTransaction
  rw [if_pos hguard, hrequest, hserialize]
  simp only [hhash]
  exact if_pos ⟨hattempt, hparsed⟩

/-- From so many bytes of data on, the write is held up until the process ends. -/
theorem oversized_wedges {n : ℕ} (hn : 524288 ≤ n) :
    ¬ PreparationsEnd (oversizedLibrary n) legacyIdentityText DEFAULT_JOURNAL_BOUNDS
      (preparedRun (oversizedRequest n) (oversizedSigned n) (oversizedText n)) ∧
    ∀ bs : List StoredAction, (∀ b ∈ bs, ¬ b.kills) →
      ∃ c, (runStored (oversizedLibrary n) legacyIdentityText DEFAULT_JOURNAL_BOUNDS
        (preparedRun (oversizedRequest n) (oversizedSigned n) (oversizedText n) ++ bs)).1.world =
          .running c ∧
        Wedged (some (anchoredSnapshot 6)) (preparedRecord (oversizedSigned n)) c := by
  have hbytes : (oversizedSigned n).signedTransaction.length = n + 108 := oversizedBytes_length n
  have hsigns : SignsRequest (oversizedLibrary n) (oversizedRequest n) (oversizedSigned n)
      (oversizedText n) := ⟨oversized_sign n, by omega, oversizedText_read n⟩
  have hsize : MAX_JOURNAL_BYTES < 2 * (oversizedSigned n).signedTransaction.length := by
    rw [hbytes, MAX_JOURNAL_BYTES]
    omega
  have hover : Oversized (preparedRecord (oversizedSigned n)) :=
    Oversized.of_signed (List.mem_singleton_self _) List.mem_cons_self hsize
  refine ⟨hsigns.unended hover, fun bs hbs => ?_⟩
  obtain ⟨c, hc, _, hwedged⟩ := hsigns.wedges hover
  exact hwedged.run hover hc hbs

/-- The transaction itself, which the account signs and the gate lets through. -/
theorem oversized_preparation_wedged :
    ¬ PreparationsEnd (oversizedLibrary 530000) legacyIdentityText DEFAULT_JOURNAL_BOUNDS
      (preparedRun (oversizedRequest 530000) (oversizedSigned 530000) (oversizedText 530000)) ∧
    ∀ bs : List StoredAction, (∀ b ∈ bs, ¬ b.kills) →
      ∃ c, (runStored (oversizedLibrary 530000) legacyIdentityText DEFAULT_JOURNAL_BOUNDS
        (preparedRun (oversizedRequest 530000) (oversizedSigned 530000) (oversizedText 530000) ++
          bs)).1.world = .running c ∧
        Wedged (some (anchoredSnapshot 6)) (preparedRecord (oversizedSigned 530000)) c :=
  oversized_wedges (by decide)

end Signed

end Quicknet
