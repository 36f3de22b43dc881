import Quicknet.StoredRuns

/-! What a preparation comes to where every text that is saved fits in the file: the attempt
is committed, or nothing has changed. -/
namespace Quicknet

open DurableFile Interaction Transition SignerCoordinator

/-! A preparation, from the state in which it is called. -/

/-- The snapshot that `prepareAttempt` saves. -/
def preparation (s : TransactionJournalSnapshot) (workId : WorkId) (attemptId : AttemptId)
    (createdAt : Timestamp) (signed : JournalSignedTransaction) : TransactionJournalSnapshot :=
  preparedSnapshot s (preparedAttempt s attemptId workId createdAt signed)

/-- What the suspended preparation has made of the state `c₀` and of the disk. -/
inductive PreparationHeld (c₀ : SignerCoordinator) (disk₀ : JournalDisk) (workId : WorkId)
    (attemptId : AttemptId) (createdAt : Timestamp) : SignerCoordinator → JournalDisk → Prop
  | signing {c : SignerCoordinator} {accountAddress : Address}
      {transaction : PreparedRelayerTransaction} {since : Option Timestamp} {checked : Bool} :
      c.task = some (.signing workId attemptId createdAt accountAddress transaction since checked) →
      c.persistence = c₀.persistence →
      PreparationHeld c₀ disk₀ workId attemptId createdAt c disk₀
  | storing {c : SignerCoordinator} {s : TransactionJournalSnapshot}
      {signed : JournalSignedTransaction} : c₀.persistence.current = some s →
      c.task = some (.storing (.own (.prepared
        (preparedAttempt s attemptId workId createdAt signed)))) →
      c.persistence = ⟨.writing, some s, some (preparation s workId attemptId createdAt signed)⟩ →
      PreparationHeld c₀ disk₀ workId attemptId createdAt c disk₀
  | saved {c : SignerCoordinator} {disk : JournalDisk} {s : TransactionJournalSnapshot}
      {signed : JournalSignedTransaction} : c₀.persistence.current = some s →
      c.task = some (.saved (.own (.prepared
        (preparedAttempt s attemptId workId createdAt signed)))) →
      c.persistence = ⟨.idle, some (preparation s workId attemptId createdAt signed), none⟩ →
      PreparationHeld c₀ disk₀ workId attemptId createdAt c disk

/-- What it comes to. -/
inductive PreparationEnd (c₀ : SignerCoordinator) (disk₀ : JournalDisk) (workId : WorkId)
    (attemptId : AttemptId) (createdAt : Timestamp) : SignerCoordinator → JournalDisk → Prop
  | rejected {c : SignerCoordinator} : c₀.persistence.state = .idle →
      c.persistence = c₀.persistence → PreparationEnd c₀ disk₀ workId attemptId createdAt c disk₀
  | committed {c : SignerCoordinator} {disk : JournalDisk} {s : TransactionJournalSnapshot}
      {signed : JournalSignedTransaction} : c₀.persistence.current = some s →
      c.persistence = ⟨.idle, some (preparation s workId attemptId createdAt signed), none⟩ →
      PreparationEnd c₀ disk₀ workId attemptId createdAt c disk

theorem PreparationEnd.idle {c₀ c : SignerCoordinator} {disk₀ disk : JournalDisk} {workId : WorkId}
    {attemptId : AttemptId} {createdAt : Timestamp}
    (h : PreparationEnd c₀ disk₀ workId attemptId createdAt c disk) :
    c.persistence.state = .idle := by
  cases h with
  | rejected hidle hsame =>
    rw [hsame]
    exact hidle
  | committed _ hsame => rw [hsame]

section Steps

variable {lib : TransactionLibrary} {expected : IdentityText} {bounds : JournalBounds}
  {identity : JournalIdentity} {c₀ c c' : SignerCoordinator} {disk₀ disk : JournalDisk}
  {workId : WorkId} {attemptId : AttemptId} {createdAt : Timestamp} {e : Option Event}
  {st st' : StoredWorld} {tr : List Event}

/-- What can happen while an operation holds the coordinator: something beside it, its end
without a write, its write, an answer of the store, or the request of a broadcast. -/
theorem CoordinatorStep.of_busy (hbusy : c.busy = true) (h : CoordinatorStep lib identity c e c') :
    (c'.task = c.task ∧ c'.persistence = c.persistence) ∨
    (c'.task = none ∧ c'.persistence = c.persistence) ∨
    (∃ w kind next d, Planned lib identity c w kind next d ∧
      c'.task = some (.storing (.own w)) ∧
      c'.persistence = ⟨.writing, c.persistence.current, some next⟩) ∨
    (∃ k, c.task = some (.storing k) ∧ c'.task ≠ c.task) ∨
    ∃ a, c.task = some (.saved (.own (.broadcast a))) := by
  have hfree {p : Prop} (hb : c.busy = false) : p := absurd (hbusy.symm.trans hb) (by simp)
  -- a step that needs the coordinator free is impossible here
  cases h with
  | begun _ hb _ _ => exact hfree hb
  | owner _ _ => exact Or.inl ⟨rfl, rfl⟩
  | finished _ _ _ hb _ _ _ _ => exact hfree hb
  | abandonmentCompleted _ _ _ => exact Or.inl ⟨rfl, rfl⟩
  | headOpening _ _ _ hb _ _ => exact hfree hb
  | recovering _ _ _ hb _ _ _ _ => exact hfree hb
  | inspecting _ _ _ hb _ _ _ _ _ _ => exact hfree hb
  | inspectionRefused _ _ hb _ _ => exact hfree hb
  | signing _ hb _ _ _ _ _ => exact hfree hb
  | wrote hplan _ _ =>
    refine Or.inr (Or.inr (Or.inl ⟨_, _, _, _, hplan, rfl, rfl⟩))
  | broadcastEnded hsend => exact hfree hsend.busy
  | sentAgain hsend _ => exact hfree hsend.busy
  | retrying _ hb _ _ _ => exact hfree hb
  | acked hk _ =>
    refine Or.inr (Or.inr (Or.inr (Or.inl ⟨_, hk, ?_⟩)))
    rw [hk]
    simp
  | storeFailed hk _ _ _ _ =>
    refine Or.inr (Or.inr (Or.inr (Or.inl ⟨_, hk, ?_⟩)))
    rw [hk]
    simp
  | storeFailedOwned hk _ _ _ _ =>
    refine Or.inr (Or.inr (Or.inr (Or.inl ⟨_, hk, ?_⟩)))
    rw [hk]
    simp
  | resumed _ hr => exact Or.inr (Or.inl ⟨hr.task, hr.persistence⟩)
  | sentMarked hk => exact Or.inr (Or.inr (Or.inr (Or.inr ⟨_, hk⟩)))
  | observing _ => exact Or.inl ⟨rfl, rfl⟩
  | _ => exact Or.inr (Or.inl ⟨rfl, rfl⟩)

/-- An operation that holds the coordinator plans its write before any write. -/
theorem Planned.not_writing {w : JournalWrite} {kind : PendingWrite}
    {next : TransactionJournalSnapshot} {d : SignerCoordinator} {k : Continuation}
    (hbusy : c.busy = true) (h : Planned lib identity c w kind next d) :
    c.task ≠ some (.storing k) ∧ c.task ≠ some (.saved k) := by
  cases h with
  | prepared htask _ _ => simp [htask]
  | broadcast hsend _ => exact absurd (hbusy.symm.trans hsend.busy) (by simp)
  | bootstrap _ htask _ _ => simp [htask]
  | recovery _ htask _ _ _ => simp [htask]
  | inclusions _ htask _ _ _ => simp [htask]

theorem PreparationHeld.busy {v : JournalView} (hj : JournalInv v c)
    (h : PreparationHeld c₀ disk₀ workId attemptId createdAt c disk) : c.busy = true := by
  have hphase := hj.phase
  cases h with
  | signing ht _ =>
    rw [ht] at hphase
    exact hphase.1.1
  | storing _ ht _ =>
    rw [ht] at hphase
    exact hphase.1
  | saved _ ht _ =>
    rw [ht] at hphase
    exact hphase.1

theorem PreparationHeld.task_ne (h : PreparationHeld c₀ disk₀ workId attemptId createdAt c disk) :
    c.task ≠ none := by
  cases h with
  | signing ht _ => simp [ht]
  | storing _ ht _ => simp [ht]
  | saved _ ht _ => simp [ht]

/-- Something beside the preparation. -/
theorem PreparationHeld.frame (h : PreparationHeld c₀ disk₀ workId attemptId createdAt c disk)
    (ht : c'.task = c.task) (hp : c'.persistence = c.persistence) :
    PreparationHeld c₀ disk₀ workId attemptId createdAt c' disk := by
  cases h with
  | signing hk hsame => exact .signing (ht.trans hk) (hp.trans hsame)
  | storing hs hk hsame => exact .storing hs (ht.trans hk) (hp.trans hsame)
  | saved hs hk hsame => exact .saved hs (ht.trans hk) (hp.trans hsame)

/-- Without the store, a preparation goes on or ends. -/
theorem PreparationHeld.act {v : JournalView} (hidle : c₀.persistence.state = .idle)
    (hj : JournalInv v c) {i : Input} (hi : i.action.leavesStore = true)
    (hs : coordinatorStep lib identity i c = some (c', e))
    (h : PreparationHeld c₀ disk₀ workId attemptId createdAt c disk) :
    PreparationHeld c₀ disk₀ workId attemptId createdAt c' disk ∨
      c'.task = none ∧ PreparationEnd c₀ disk₀ workId attemptId createdAt c' disk := by
  have hbusy := h.busy hj
  rcases (coordinatorStep_cases hs).of_busy hbusy with
    ⟨ht, hp⟩ | ⟨ht, hp⟩ | ⟨w, kind, next, d, hplan, ht, hp⟩ | ⟨k, hk, hne⟩ | ⟨a, hk⟩
  · exact Or.inl (h.frame ht hp)
  · cases h with
    | signing _ hsame => exact Or.inr ⟨ht, .rejected hidle (hp.trans hsame)⟩
    | storing _ hk _ =>
      rw [storing_waits hk hbusy hi hs, hk] at ht
      cases ht
    | saved hcurrent _ hsame => exact Or.inr ⟨ht, .committed hcurrent (hp.trans hsame)⟩
  · -- only the preparation itself has a write to plan
    cases h with
    | signing hk hsame =>
      cases hplan with
      | prepared htask hcurrent hsigned =>
        obtain ⟨rfl, rfl, rfl, rfl, rfl, rfl, rfl⟩ := Task.signing.inj
          (Option.some.inj (hk.symm.trans htask))
        refine Or.inl (.storing (hsame ▸ hcurrent) ht ?_)
        rw [hp, hcurrent]
        rfl
      | broadcast hsend _ => exact absurd (hbusy.symm.trans hsend.busy) (by simp)
      | bootstrap _ htask _ _ => cases hk.symm.trans htask
      | recovery _ htask _ _ _ => cases hk.symm.trans htask
      | inclusions _ htask _ _ _ => cases hk.symm.trans htask
    | storing _ hk _ => exact absurd hk (hplan.not_writing hbusy).1
    | saved _ hk _ => exact absurd hk (hplan.not_writing hbusy).2
  · exact absurd (storing_waits hk hbusy hi hs) hne
  · cases h with
    | signing ht _ => cases ht.symm.trans hk
    | storing _ ht _ => cases ht.symm.trans hk
    | saved _ ht _ => cases ht.symm.trans hk

/-- The store's answer to the save of a preparation. -/
theorem PreparationHeld.persist (h : PreparationHeld c₀ disk₀ workId attemptId createdAt c st.disk)
    (hok : StoredOk lib expected bounds identity st tr) (hc : st.world = .running c)
    (hidentity : readIdentity expected = some identity) {now : Timestamp} {name : TempName}
    {t : SnapshotText} {operations : ℕ}
    (hfits : Json.utf8Length (journalText t) ≤ MAX_JOURNAL_BYTES)
    (hs : persistAnswer lib expected bounds identity now name t operations st = some (st', e))
    (hc' : st'.world = .running c') :
    PreparationHeld c₀ disk₀ workId attemptId createdAt c' st'.disk := by
  obtain ⟨s, disk, hsaving, ⟨hanswer, _⟩ | ⟨hanswer, _⟩⟩ :=
    persistAnswer_cases hok hidentity hfits hs
  · obtain ⟨⟨w', x⟩, hw, heq⟩ := Option.map_eq_some_iff.mp hanswer
    obtain ⟨rfl, rfl⟩ := Prod.mk.inj heq
    obtain rfl : w' = .running c' := hc'
    rw [hc] at hsaving hw
    simp only [World.saving] at hsaving
    split at hsaving
    · rename_i k hk
      obtain ⟨⟨d, y⟩, hd, heq'⟩ := Option.map_eq_some_iff.mp hw
      obtain ⟨hworld, _⟩ := Prod.mk.inj heq'
      obtain rfl := World.running.inj hworld
      simp only [coordinatorStep, SignerCoordinator.stored, hk, hsaving] at hd
      obtain ⟨rfl, _⟩ := Prod.mk.inj (Option.some.inj hd)
      cases h with
      | signing ht _ => cases ht.symm.trans hk
      | storing hcurrent ht hsame =>
        obtain rfl := Task.storing.inj (Option.some.inj (ht.symm.trans hk))
        refine .saved hcurrent rfl ?_
        rw [JournalPersistence.acknowledged, hsame]
      | saved _ ht _ => cases ht.symm.trans hk
    · cases hsaving
  · obtain ⟨⟨w', x⟩, hw, heq⟩ := Option.map_eq_some_iff.mp hanswer
    obtain ⟨rfl, rfl⟩ := Prod.mk.inj heq
    rw [hc] at hw
    obtain ⟨rfl, _⟩ := Prod.mk.inj (Option.some.inj hw)
    cases hc'

theorem PreparationHeld.step (h : PreparationHeld c₀ disk₀ workId attemptId createdAt c st.disk)
    (hidle : c₀.persistence.state = .idle) (hok : StoredOk lib expected bounds identity st tr)
    (hc : st.world = .running c) (hidentity : readIdentity expected = some identity)
    {action : StoredAction} (hfits : action.Fits)
    (hs : storedStep lib expected bounds action st = some (st', e))
    (hc' : st'.world = .running c') :
    PreparationHeld c₀ disk₀ workId attemptId createdAt c' st'.disk ∨
      c'.task = none ∧ PreparationEnd c₀ disk₀ workId attemptId createdAt c' st'.disk := by
  obtain ⟨is, hrun⟩ := hok.simulated
  have hj : JournalInv (view tr) c := by
    have hreached := runSigner_reached lib identity is (c := c) (by rw [hrun, hc])
    rw [hrun] at hreached
    exact hreached.journal
  unfold storedStep at hs
  rw [hidentity, Option.bind_some] at hs
  cases action with
  | act i =>
    simp only [actStep] at hs
    split_ifs at hs with hi
    obtain ⟨⟨w', x⟩, hw, heq⟩ := Option.map_eq_some_iff.mp hs
    obtain ⟨rfl, rfl⟩ := Prod.mk.inj heq
    obtain rfl : w' = .running c' := hc'
    rw [hc] at hw
    simp only [worldStep] at hw
    split at hw
    · cases (Prod.mk.inj (Option.some.inj hw)).1
    · obtain ⟨⟨d, y⟩, hd, heq'⟩ := Option.map_eq_some_iff.mp hw
      obtain ⟨hworld, _⟩ := Prod.mk.inj heq'
      obtain rfl := World.running.inj hworld
      exact h.act hidle hj hi hd
  | persist now name t operations => exact Or.inl (h.persist hok hc hidentity hfits hs hc')
  | start now name repair operations =>
    simp only [startStep, hc] at hs
    cases hs
  | powerLoss now choice torn temps =>
    simp only [powerLossStep, answerStep, hc, worldStep] at hs
    obtain ⟨rfl, _⟩ := Prod.mk.inj (Option.some.inj hs)
    cases hc'

end Steps

/-! Along a run. -/

section Runs

variable (lib : TransactionLibrary) (expected : IdentityText) (bounds : JournalBounds)

/-- After each of these actions an operation is suspended. -/
def StoredSuspended (front js : List StoredAction) : Prop :=
  ∀ ks, ks <+: js → ks ≠ [] →
    ∃ c, (runStored lib expected bounds (front ++ ks)).1.world = .running c ∧ c.task ≠ none

/-- The call of `prepareAttempt`. -/
def preparing (now : Timestamp) (workId : WorkId) (attemptId : AttemptId)
    (accountAddress : Address) (transaction : PreparedRelayerTransaction) : StoredAction :=
  .act ⟨now, .prepareAttempt workId attemptId accountAddress transaction⟩

variable {lib expected bounds} {identity : JournalIdentity} {front js : List StoredAction}
  {c₀ : SignerCoordinator} {disk₀ : JournalDisk} {now : Timestamp} {workId : WorkId}
  {attemptId : AttemptId} {action : StoredAction} {accountAddress : Address}
  {transaction : PreparedRelayerTransaction} {st₁ : StoredWorld} {e : Option Event}

/-- A call that is accepted suspends the preparation. -/
theorem preparing_started {st : StoredWorld} (hc₀ : st.world = .running c₀)
    (hs : storedStep lib expected bounds (preparing now workId attemptId accountAddress transaction)
      st = some (st₁, e)) :
    c₀.persistence.state = .idle ∧ ∃ c, st₁.world = .running c ∧
      PreparationHeld c₀ st.disk workId attemptId now c st₁.disk := by
  obtain ⟨identity, _, hs⟩ := Option.bind_eq_some_iff.mp hs
  simp only [preparing, actStep, Action.leavesStore, if_true, hc₀, worldStep] at hs
  obtain ⟨⟨w, x⟩, hw, heq⟩ := Option.map_eq_some_iff.mp hs
  obtain ⟨rfl, rfl⟩ := Prod.mk.inj heq
  obtain ⟨⟨c, y⟩, hc, heq'⟩ := Option.map_eq_some_iff.mp hw
  obtain ⟨rfl, rfl⟩ := Prod.mk.inj heq'
  simp only [coordinatorStep, SignerCoordinator.prepareAttempt] at hc
  split_ifs at hc with hguard
  obtain ⟨s, hcurrent, hc⟩ := Option.bind_eq_some_iff.mp hc
  split_ifs at hc
  obtain ⟨rfl, _⟩ := Prod.mk.inj (Option.some.inj hc)
  have hidle : c₀.persistence.state = .idle := by
    simp only [Bool.and_eq_true, noPendingWrite_iff] at hguard
    exact hguard.1.1.2.2
  exact ⟨hidle, _, rfl, .signing rfl rfl⟩

theorem runStored_accepted
    (hs : storedStep lib expected bounds action (runStored lib expected bounds front).1 =
      some (st₁, e)) : (runStored lib expected bounds (front ++ [action])).1 = st₁ := by
  have hstep : (storedSystem lib expected bounds).step action
      (runStored lib expected bounds front).1 = some (st₁, e) := hs
  rw [runStored, System.run_append_of_some hstep]

theorem runStored_refused
    (hs : storedStep lib expected bounds action (runStored lib expected bounds front).1 = none) :
    runStored lib expected bounds (front ++ [action]) = runStored lib expected bounds front := by
  have hstep : (storedSystem lib expected bounds).step action
      (runStored lib expected bounds front).1 = none := hs
  rw [runStored, System.run_append_of_none hstep]

/-- One action more, after which the coordinator runs. -/
theorem PreparationHeld.next {as : List StoredAction} {c c' : SignerCoordinator}
    (hidentity : readIdentity expected = some identity) (hfits : ∀ b ∈ as ++ [action], b.Fits)
    (hidle : c₀.persistence.state = .idle)
    (hc : (runStored lib expected bounds as).1.world = .running c)
    (h : PreparationHeld c₀ disk₀ workId attemptId now c (runStored lib expected bounds as).1.disk)
    (hc' : (runStored lib expected bounds (as ++ [action])).1.world = .running c') :
    PreparationHeld c₀ disk₀ workId attemptId now c'
        (runStored lib expected bounds (as ++ [action])).1.disk ∨
      c'.task = none ∧ PreparationEnd c₀ disk₀ workId attemptId now c'
        (runStored lib expected bounds (as ++ [action])).1.disk := by
  have hok : StoredOk lib expected bounds identity (runStored lib expected bounds as).1
      (runStored lib expected bounds as).2 :=
    runStored_ok hidentity fun b hb => hfits b (List.mem_append_left _ hb)
  have hfit : action.Fits := hfits action (List.mem_append_right _ (List.mem_singleton_self _))
  cases hstep : storedStep lib expected bounds action (runStored lib expected bounds as).1 with
  | none =>
    rw [runStored_refused hstep] at hc' ⊢
    obtain rfl := World.running.inj (hc.symm.trans hc')
    exact Or.inl h
  | some r =>
    obtain ⟨st', x⟩ := r
    rw [runStored_accepted hstep] at hc' ⊢
    exact h.step hidle hok hc hidentity hfit hstep hc'

/-- While the preparation is suspended, it has made of the state what it should. -/
theorem StoredSuspended.held (hidentity : readIdentity expected = some identity)
    (hfits : ∀ a ∈ front ++ action :: js, a.Fits) (hidle : c₀.persistence.state = .idle)
    (hstart : ∃ c, (runStored lib expected bounds (front ++ [action])).1.world = .running c ∧
      PreparationHeld c₀ disk₀ workId attemptId now c
        (runStored lib expected bounds (front ++ [action])).1.disk)
    (hsuspended : StoredSuspended lib expected bounds front (action :: js)) :
    ∃ c, (runStored lib expected bounds (front ++ action :: js)).1.world = .running c ∧
      PreparationHeld c₀ disk₀ workId attemptId now c
        (runStored lib expected bounds (front ++ action :: js)).1.disk := by
  -- by induction on the actions since the call
  induction js using List.reverseRecOn with
  | nil => exact hstart
  | append_singleton js j ih =>
    have hassoc : front ++ action :: (js ++ [j]) = front ++ action :: js ++ [j] := by simp
    obtain ⟨d, hd, hdtask⟩ := hsuspended _ (List.prefix_refl _) (by simp)
    rw [hassoc] at hfits hd ⊢
    obtain ⟨c, hc, hheld⟩ := ih (fun a ha => hfits a (List.mem_append_left _ ha))
      fun ks hks hne => hsuspended ks (hks.trans (List.prefix_append (action :: js) [j])) hne
    rcases hheld.next hidentity hfits hidle hc hd with hheld' | ⟨hnone, _⟩
    · exact ⟨d, hd, hheld'⟩
    · exact absurd hnone hdtask

variable (lib expected bounds)

/-- Every preparation that the run ends with is committed, or has changed nothing. -/
def PreparationsEnd (as : List StoredAction) : Prop :=
  ∀ front js last now workId attemptId accountAddress transaction st₁ e c₀ c,
    as = front ++ preparing now workId attemptId accountAddress transaction :: js ++ [last] →
    (runStored lib expected bounds front).1.world = .running c₀ →
    storedStep lib expected bounds (preparing now workId attemptId accountAddress transaction)
      (runStored lib expected bounds front).1 = some (st₁, e) →
    StoredSuspended lib expected bounds front
      (preparing now workId attemptId accountAddress transaction :: js) →
    (runStored lib expected bounds as).1.world = .running c → c.task = none →
    PreparationEnd c₀ (runStored lib expected bounds front).1.disk workId attemptId now c
      (runStored lib expected bounds as).1.disk

/-- Nothing is held up: no write has failed, a start loads the journal, and a save whose text fits
is acknowledged. -/
structure Unwedged (st : StoredWorld) : Prop where
  unfailed : ∀ c, st.world = .running c → c.persistence.state ≠ .failed
  loads : ∀ name, st.disk.temp name = none →
    Succeeds (· = st.disk) (openAndLoad lib (boundedStore expected bounds) name) fun read _ =>
      st.world.MayHold (readLoaded read) ∧ ∀ t ∈ read, WithinBounds (some bounds) t
  saves : ∀ s now name t, st.world.saving = some s → readSnapshot t = some s →
    Json.utf8Length (journalText t) ≤ MAX_JOURNAL_BYTES → st.disk.temp name = none →
    ∃ needed, ∀ n, ∃ st', storedStep lib expected bounds (.persist now name t (n + needed)) st =
      some (st', some (.acked s)) ∧ st'.world.MayHold (some s)

variable {lib expected bounds} {st : StoredWorld} {tr : List Event}

/-- The world takes an acknowledgement of what it saves. -/
theorem World.acknowledges {w : World} {s : TransactionJournalSnapshot}
    (hsaving : w.saving = some s) (lib : TransactionLibrary) (identity : JournalIdentity)
    (now : Timestamp) :
    ∃ w', worldStep lib identity ⟨now, .stored⟩ w = some (w', some (.acked s)) := by
  cases w with
  | running c =>
    simp only [World.saving] at hsaving
    split at hsaving
    · rename_i k hk
      simp [worldStep, coordinatorStep, SignerCoordinator.stored, hk, hsaving]
    · cases hsaving
  | repairing stored repair =>
    obtain rfl := Option.some.inj hsaving
    exact ⟨_, rfl⟩
  | stopped _ _ => cases hsaving
  | opened _ => cases hsaving

theorem StoredOk.unwedged (hidentity : readIdentity expected = some identity)
    (h : StoredOk lib expected bounds identity st tr) : Unwedged lib expected bounds st := by
  refine ⟨?_, ?_, ?_⟩
  · intro c hc
    have hsettles := h.settles
    rw [hc] at hsettles
    exact hsettles.2
  · intro name hname
    have hkept (r : Option SnapshotText)
        (hr : StoredAs lib (boundedStore expected bounds) st.world r) :
        Kept lib (boundedStore expected bounds) r := hr.1
    refine (openAndLoad_succeeds hkept).weaken (fun d hd => ?_) fun read d hd => ?_
    · rw [hd]
      exact ⟨hname, h.disk⟩
    · exact ⟨hd.1.2, fun t ht => (hd.1.1 t ht).2⟩
  · intro s now name t hsaving ht hfits hname
    obtain ⟨hsucceeds, _⟩ := save_outcome h hidentity hsaving ht hfits hname
    obtain ⟨needed, u, d, _, hok, _⟩ := hsucceeds st.disk rfl
    obtain ⟨w', hw⟩ := World.acknowledges hsaving lib identity now
    refine ⟨needed, fun n => ⟨⟨w', d⟩, ?_, (stored_world hsaving hw h.settles).2.1⟩⟩
    unfold storedStep persistAnswer succeeding
    rw [hidentity, Option.bind_some]
    dsimp only
    rw [if_neg (by simp [hsaving, ht, hname]), hok n]
    simp only [answerStep, hw, Option.map_some]

/-- The preparation that a run ends with is committed, or has changed nothing. -/
theorem runStored_preparationsEnd (hidentity : readIdentity expected = some identity)
    {as : List StoredAction} (hfits : ∀ a ∈ as, a.Fits) :
    PreparationsEnd lib expected bounds as := by
  intro front js last now workId attemptId accountAddress transaction st₁ e c₀ c has hc₀ hs
    hsuspended hc hnone
  obtain ⟨hidle, c₁, hc₁, hstarted⟩ := preparing_started hc₀ hs
  subst has
  have hstart : ∃ c, (runStored lib expected bounds (front ++ [preparing now workId attemptId
        accountAddress transaction])).1.world = .running c ∧
      PreparationHeld c₀ (runStored lib expected bounds front).1.disk workId attemptId now c
        (runStored lib expected bounds (front ++ [preparing now workId attemptId
          accountAddress transaction])).1.disk := by
    rw [runStored_accepted hs]
    exact ⟨c₁, hc₁, hstarted⟩
  obtain ⟨d, hd, hheld⟩ := hsuspended.held hidentity
    (fun a ha => hfits a (List.mem_append_left _ ha)) hidle hstart
  rcases hheld.next hidentity hfits hidle hd hc with hheld' | ⟨_, hend⟩
  · exact absurd hnone hheld'.task_ne
  · exact hend

end Runs

end Quicknet
