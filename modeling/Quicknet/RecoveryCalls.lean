import Quicknet.AttemptFrame
import Quicknet.ChainSearch

/-! One call of `recover`, from the moment it is made until its promise settles: with a result
that is saved, and with one that is held back. -/
namespace Quicknet

open Interaction Transition SignerCoordinator

/-! What a recovery on the chain saves is a journal again. -/

section Saved

variable {lib : TransactionLibrary} {identity : JournalIdentity} {s : TransactionJournalSnapshot}
  {a : JournalAttempt} {rest : List JournalAttempt} {o : AnchoredNonceObservation}

theorem retainObservation_valid {u : Bool} {recorded : AnchoredNonceObservation}
    (hr : ObservationValid recorded) (ho : ObservationValid o) :
    ObservationValid (retainObservation u recorded o) := by
  unfold retainObservation
  split_ifs
  · exact hr
  · exact ho

theorem SnapshotVerified.dequeue (h : SnapshotVerified lib identity s)
    (hs : s.attempts = a :: rest) (ho : ObservationValid o) :
    SnapshotVerified lib identity { s with
      lastObservation := o, durableNextNonce := a.nonce+1, attempts := rest } := by
  have hmem : a ∈ s.attempts := by simp [hs]
  have hbounds := h.nonce_bounds hmem
  obtain ⟨hexp, hid, heq, hbase, _, hnext, hdurable, hle, _⟩ := h.header
  obtain ⟨hlen, hrep, hchain, hlast⟩ := h.repairs
  obtain ⟨hvalid, hcount, hcont, hids, hwork, hhashes⟩ := h.attempts
  rw [hs] at hvalid hcount hcont hids hwork hhashes
  rw [List.map_cons, List.nodup_cons] at hids hwork
  rw [List.flatMap_cons] at hhashes
  have hlength := h.length_attempts
  rw [hs, List.length_cons] at hlength
  have hnonce : a.nonce = s.durableNextNonce := hcont.1
  refine ⟨⟨⟨hexp, hid, heq, hbase, ho, hnext, ?_, ?_, ?_⟩, ⟨hlen, hrep, hchain, ?_⟩,
    ⟨fun b hb => hvalid b (List.mem_cons_of_mem a hb), ?_, ?_, hids.2, hwork.2,
      hhashes.of_append_right⟩⟩, fun b hb => h.verified b (by simp [hs, hb])⟩
  · show a.nonce+1 ≤ MAX_UINT256
    omega
  · show s.baseline.nonce ≤ a.nonce+1
    omega
  · show a.nonce+1 ≤ s.nextNonce
    omega
  · intro r hr
    have := hlast r hr
    show r.nextNonce ≤ a.nonce+1
    omega
  · show rest.length = s.nextNonce - (a.nonce+1)
    omega
  · show ContiguousFrom (a.nonce+1) rest
    rw [hnonce]
    exact hcont.2

theorem SnapshotVerified.observed (h : SnapshotVerified lib identity s)
    (hs : s.attempts = a :: rest) (ho : ObservationValid o) {search : Option ReplacementSearch}
    (hsearch : ∀ t ∈ search, SearchValid a.nonce t) :
    SnapshotVerified lib identity (observedSnapshot s o a rest search) := by
  obtain ⟨hexp, hid, heq, hbase, _, hnext, hdurable, hle, hlt⟩ := h.header
  obtain ⟨hvalid, hcount, hcont, hids, hwork, hhashes⟩ := h.attempts
  rw [hs] at hvalid hcount hcont hids hwork hhashes
  refine ⟨⟨⟨hexp, hid, heq, hbase, ho, hnext, hdurable, hle, hlt⟩, h.repairs,
    ⟨?_, hcount, hcont, hids, hwork, hhashes⟩⟩, ?_⟩
  · intro b hb
    rcases List.mem_cons.mp hb with rfl | hb
    · obtain ⟨hn, hw, ht, _, hp⟩ := hvalid a (by simp)
      exact ⟨hn, hw, ht, hsearch, hp⟩
    · exact hvalid b (by simp [hb])
  · intro b hb
    rcases List.mem_cons.mp hb with rfl | hb
    · exact h.verified a (by simp [hs])
    · exact h.verified b (by simp [hs, hb])

/-- A recovery on the chain plans a write that passes every check of the save, unless it is
held back for the sake of recorded activity. -/
theorem planRecovery_onChain {chain : SignerChain identity.signer} {search : ReplacementSearch}
    {n : ℕ} {h : Hash} {u : Bool} {r : SignerRecoveryInspection}
    (hv : SnapshotVerified lib identity s) (hs : s.attempts = a :: rest)
    (hsearch : a.replacementSearch = some search) (ho : ObservationValid o)
    (hn : n ≤ o.anchor.blockNumber)
    (hskip : ¬ (u = true ∧ o.nonce < s.lastObservation.nonce))
    (hr : RecoveredOnChain chain a o search.boundary.blockNumber n h r) :
    ∃ kind next, planRecovery identity u s r = .ok (some (kind, next)) ∧
      SnapshotVerified lib identity next := by
  have hmem : a ∈ s.attempts := by simp [hs]
  have hvalid := (hv.attempts.1 a hmem).2.2.2.1 search hsearch
  have hrecovered := recoveredSearch_of_some (s := s) (o := o) hsearch
  have hcheck {t : TransactionJournalSnapshot} (ht : SnapshotVerified lib identity t) :
      validateJournalSnapshotStructure t identity = .ok t :=
    validate_ok_iff.mpr ⟨rfl, ht.toSnapshotValid⟩
  cases hr with
  -- the attempt is resolved and leaves the journal
  | resolved he hm _ _ _ =>
    have hnext := hv.dequeue hs (retainObservation_valid (u := u) hv.header.2.2.2.2.1 ho)
    refine ⟨.resolution, _, ?_, hnext⟩
    simp only [planRecovery, SignerRecoveryInspection.isInconclusive, Bool.false_eq_true, if_false,
      planResolution, hs, snapshotResolutionEvidence, if_pos he, assertResolutionTransaction,
      if_pos hm, bind, Except.bind, pure, Except.pure, hcheck hnext]
  -- one of its own transactions was found, which leaves the search where it is
  | recorded hmem' =>
    have hsame : ∀ t ∈ some search, SearchValid a.nonce t := by
      intro t ht
      rwa [Option.some.inj ht] at hvalid
    have hnext := hv.observed hs ho hsame
    refine ⟨.observation, _, ?_, hnext⟩
    simp only [planRecovery, SignerRecoveryInspection.isInconclusive, Bool.false_eq_true, if_false,
      if_neg hskip, planObservation, hs, searchedBlocks, hrecovered, bind, Except.bind, pure,
      Except.pure]
    have hok := hcheck hnext
    unfold observedSnapshot at hok ⊢
    rw [hok]
  -- the search moves by the blocks that it read
  | @advanced receipt k m hk hlt =>
    have hmoved : ∀ t ∈ some { search with
        searchedThrough := some (chain.block (search.boundary.blockNumber+k)).anchor },
        SearchValid a.nonce t := by
      intro t ht
      obtain rfl := Option.some.inj ht
      have hmax := ho.1
      apply hvalid.advance <;>
        · rw [chain.blockNumber]
          omega
    have hnext := hv.observed hs ho hmoved
    refine ⟨.searchProgress (m = 0), _, ?_, hnext⟩
    simp only [planRecovery, SignerRecoveryInspection.isInconclusive, Bool.false_eq_true, if_false,
      if_neg hskip, planObservation, hs, searchedBlocks, if_pos hk, hrecovered, bind, Except.bind,
      pure, Except.pure]
    have hok := hcheck hnext
    unfold observedSnapshot at hok ⊢
    rw [hok]

end Saved

/-! The call and its inputs. -/

/-- A call of `recover` on the handle of an inspection. -/
structure RecoverCall where
  now : Timestamp
  generation : ℕ
  anchor : BlockAnchor
  maxBlockRange : ℕ

/-- The call is made and entered, its reads are answered, its save is acknowledged, and its
caller resumes. -/
def RecoverCall.inputs (call : RecoverCall) (log : RpcLog) : List Input :=
  [.callOwned call.generation (.recover call.anchor call.maxBlockRange), .startOperation,
    .answered log, .stored, .resume, .settleOperation].map (⟨call.now, ·⟩)

/-- The coordinator accepts a call on the handle of this inspection. -/
structure AcceptsCall (c : SignerCoordinator) (generation : ℕ) (o : InspectionOwner) : Prop where
  owned : c.owned generation = some o
  allowed : c.assertInspectionWorkAllowed o = true
  free : o.activeOperation = none
  rested : c.noPendingWrite = true

section Call

variable {lib : TransactionLibrary} {identity : JournalIdentity} {is : List Input}
  {c : SignerCoordinator} {o : InspectionOwner} {tr : List Event} {call : RecoverCall}
  {s next : TransactionJournalSnapshot} {log : RpcLog} {r : SignerRecoveryInspection}
  {kind : PendingWrite}

/-- The state in which the reads of the call are awaited. -/
def SignerCoordinator.calling (c : SignerCoordinator) (o : InspectionOwner) (call : RecoverCall) :
    SignerCoordinator :=
  { c with
    broadcastPermit := none
    busy := true
    recoveryComplete := false
    inclusionChecksComplete := false
    task := some (.recovering call.anchor call.maxBlockRange)
    inspectionOwner := some { o with hasRunOperation := true, activeOperation := some .running } }

theorem AcceptsCall.started (h : AcceptsCall c call.generation o)
    (hrange : 0 < call.maxBlockRange ∧ call.maxBlockRange ≤ MAX_UINT256)
    (hc : runSigner lib identity is = (.running c, tr)) :
    runSigner lib identity (is ++ [⟨call.now, .callOwned call.generation
      (.recover call.anchor call.maxBlockRange)⟩] ++ [⟨call.now, .startOperation⟩]) =
        (.running (c.calling o call), tr) := by
  have ho : c.inspectionOwner = some o := (owned_eq_some h.owned).1
  have hcalled : coordinatorStep lib identity ⟨call.now, .callOwned call.generation
      (.recover call.anchor call.maxBlockRange)⟩ c =
        some (c.setActive (some (.queued (.recover call.anchor call.maxBlockRange))), none) := by
    simp only [coordinatorStep, callOwned, h.owned, Option.bind_some, h.allowed, h.free,
      Option.isNone_none, Bool.and_self, if_true]
  have hentered : coordinatorStep lib identity ⟨call.now, .startOperation⟩
      (c.setActive (some (.queued (.recover call.anchor call.maxBlockRange)))) =
        some (c.calling o call, none) := by
    have hallowed : (c.setActive (some (.queued (.recover call.anchor
        call.maxBlockRange)))).assertInspectionWorkAllowed { o with
          activeOperation := some (.queued (.recover call.anchor call.maxBlockRange)) } = true :=
      h.allowed
    have hrested := h.rested
    unfold noPendingWrite at hrested
    simp only [coordinatorStep, startOperation, setActive, updateOwner, ho, Option.map_some,
      Option.bind_some, startRecover, noPendingWrite, hrange, hrested, and_self, if_true, calling]
    simp only [setActive, updateOwner, ho, Option.map_some] at hallowed
    rw [if_pos hallowed]
  have hrun := runSigner_acts (runSigner_acts hc hcalled) hentered
  simpa using hrun

/-- The save of a recovery is acknowledged, and its caller resumes. -/
theorem recovery_saved {generation range : ℕ} {base : TransactionJournalSnapshot}
    {anchor : BlockAnchor} (now : Timestamp)
    (hc : runSigner lib identity is = (.running c, tr))
    (ht : c.task = some (.storing (.own (.recovery generation base anchor range log r))))
    (hp : c.persistence.pending = some next) (ho : c.inspectionOwner = some o) :
    ∃ c' permit, runSigner lib identity
        (is ++ [⟨now, .stored⟩] ++ [⟨now, .resume⟩] ++ [⟨now, .settleOperation⟩]) =
      (.running c', tr ++ [.acked next] ++
        [.completed (.recovery generation base anchor range log r) permit]) := by
  have hstored : coordinatorStep lib identity ⟨now, .stored⟩ c =
      some ({ c with
        persistence := c.persistence.acknowledged
        task := some (.saved (.own (.recovery generation base anchor range log r))) },
        some (.acked next)) := by
    simp only [coordinatorStep, stored, ht, hp]
  have hrun := runSigner_acts hc hstored
  obtain ⟨d, permit, hresumed, hsettled⟩ : ∃ d permit, coordinatorStep lib identity ⟨now, .resume⟩
      { c with
        persistence := c.persistence.acknowledged
        task := some (.saved (.own (.recovery generation base anchor range log r))) } =
      some (d, some (.completed (.recovery generation base anchor range log r) permit)) ∧
        d.inspectionOwner = some { o with activeOperation := some (.settled false) } := by
    refine ⟨_, _, rfl, ?_⟩
    simp [ho]
  have hrun' := runSigner_acts hrun hresumed
  have hleft : coordinatorStep lib identity ⟨now, .settleOperation⟩ d =
      some (d.setActive none, none) := by
    simp only [coordinatorStep, settleOperation, hsettled, Option.bind_some, Bool.false_and,
      Bool.false_eq_true, if_false]
  have hrun'' := runSigner_acts hrun' hleft
  exact ⟨_, permit, by simpa using hrun''⟩

/-- Each step of the call, with the write that its result plans. -/
theorem AcceptsCall.run (h : AcceptsCall c call.generation o)
    (hrange : 0 < call.maxBlockRange ∧ call.maxBlockRange ≤ MAX_UINT256)
    (hc : runSigner lib identity is = (.running c, tr)) (hs : c.persistence.current = some s)
    (hrep : (inspectSignerRecovery s call.anchor call.maxBlockRange).replay log = some (.ok r))
    (hplan : planRecovery identity c.blockers.unattributedSignerActivity s r =
      .ok (some (kind, next))) (hv : SnapshotVerified lib identity next) :
    ∃ c' permit, runSigner lib identity (is ++ call.inputs log) = (.running c', tr ++
      [.write (.recovery o.generation s call.anchor call.maxBlockRange log r) next, .acked next,
        .completed (.recovery o.generation s call.anchor call.maxBlockRange log r) permit]) := by
  have hidle := (noPendingWrite_iff.mp h.rested).2
  have hverify := verifyJournalSnapshot_ok_iff.mpr ⟨rfl, hv⟩
  obtain ⟨d, hanswered, ht, hp, ho⟩ : ∃ d,
      coordinatorStep lib identity ⟨call.now, .answered log⟩ (c.calling o call) = some (d, some
        (.write (.recovery o.generation s call.anchor call.maxBlockRange log r) next)) ∧
      d.task = some (.storing (.own (.recovery o.generation s call.anchor call.maxBlockRange log
        r))) ∧ d.persistence.pending = some next ∧
      d.inspectionOwner = (c.calling o call).inspectionOwner := by
    simp only [coordinatorStep, answered, calling, Option.bind_some, hs, hrep, Option.map_some,
      recoverPresent, hplan, beginWrite, JournalPersistence.save, hidle, if_true, hverify,
      Option.getD_some]
    exact ⟨_, rfl, rfl, rfl, rfl⟩
  have hrun := runSigner_acts (h.started hrange hc) hanswered
  obtain ⟨c', permit, hsaved⟩ := recovery_saved call.now hrun ht hp ho
  refine ⟨c', permit, ?_⟩
  simpa [RecoverCall.inputs] using hsaved

/-- A call whose result is held back saves nothing, and can be made again. -/
theorem AcceptsCall.held (h : AcceptsCall c call.generation o)
    (hrange : 0 < call.maxBlockRange ∧ call.maxBlockRange ≤ MAX_UINT256)
    (hc : runSigner lib identity is = (.running c, tr)) (hs : c.persistence.current = some s)
    (hrep : (inspectSignerRecovery s call.anchor call.maxBlockRange).replay log = some (.ok r))
    (hplan : planRecovery identity c.blockers.unattributedSignerActivity s r = .ok none) :
    ∃ c' o', runSigner lib identity (is ++ call.inputs log) = (.running c', tr) ∧
      AcceptsCall c' call.generation o' ∧ c'.persistence = c.persistence ∧
      c'.blockers = c.blockers := by
  have ho := (owned_eq_some h.owned).1
  have hanswered : coordinatorStep lib identity ⟨call.now, .answered log⟩ (c.calling o call) =
      some ((c.calling o call).settle call.now false, none) := by
    simp only [coordinatorStep, answered, calling, Option.bind_some, hs, hrep, Option.map_some,
      recoverPresent, hplan]
  have hrun := runSigner_acts (h.started hrange hc) hanswered
  -- the settled call awaits no save
  have hrun' := runSigner_refuses (i := ⟨call.now, .stored⟩) hrun (by simp) rfl
  have hrun'' := runSigner_refuses (i := ⟨call.now, .resume⟩) hrun' (by simp) rfl
  have hleft : coordinatorStep lib identity ⟨call.now, .settleOperation⟩
      ((c.calling o call).settle call.now false) =
        some (((c.calling o call).settle call.now false).setActive none, none) := rfl
  have hend := runSigner_acts hrun'' hleft
  refine ⟨((c.calling o call).settle call.now false).setActive none,
    { o with hasRunOperation := true, activeOperation := none },
    by simpa [RecoverCall.inputs] using hend, ⟨?_, ?_, rfl, h.rested⟩, rfl, rfl⟩
  · have howned := h.owned
    unfold SignerCoordinator.owned at howned
    rw [ho, Option.filter_eq_some_iff] at howned
    exact Option.filter_eq_some_iff.mpr ⟨rfl, howned.2⟩
  · have hallowed := h.allowed
    simp only [assertInspectionWorkAllowed, Bool.and_eq_true, Bool.not_eq_true', bne_iff_ne,
      ne_eq] at hallowed ⊢
    exact ⟨⟨⟨hallowed.1.1.1, rfl⟩, hallowed.1.2⟩, hallowed.2⟩

/-- However often it is made, such a call saves nothing. -/
theorem AcceptsCall.held_repeated (h : AcceptsCall c call.generation o)
    (hrange : 0 < call.maxBlockRange ∧ call.maxBlockRange ≤ MAX_UINT256)
    (hc : runSigner lib identity is = (.running c, tr)) (hs : c.persistence.current = some s)
    (hrep : (inspectSignerRecovery s call.anchor call.maxBlockRange).replay log = some (.ok r))
    (hplan : planRecovery identity c.blockers.unattributedSignerActivity s r = .ok none) (k : ℕ) :
    ∃ c' o', runSigner lib identity (is ++ (List.replicate k (call.inputs log)).flatten) =
        (.running c', tr) ∧
      AcceptsCall c' call.generation o' ∧ c'.persistence = c.persistence ∧
      c'.blockers = c.blockers := by
  induction k with
  | zero => exact ⟨c, o, by simpa using hc, h, rfl, rfl⟩
  | succ k ih =>
    obtain ⟨d, o', hrun, hd, hp, hb⟩ := ih
    rw [← hp] at hs
    rw [← hb] at hplan
    obtain ⟨c', o'', hrun', hc', hp', hb'⟩ := hd.held hrange hrun hs hrep hplan
    rw [List.replicate_succ', List.flatten_append, List.flatten_singleton, ← List.append_assoc]
    exact ⟨c', o'', hrun', hc', hp'.trans hp, hb'.trans hb⟩

end Call

end Quicknet
