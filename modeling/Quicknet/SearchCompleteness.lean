import Quicknet.RecoveryCalls
import Quicknet.SearchProgress

/-! The replacement search over whole runs on one chain: what it has persisted, and that calls
which nothing interrupts come to the transaction that used the nonce. -/
namespace Quicknet

open Interaction Transition SignerCoordinator

/-! Calls that nothing interrupts, anywhere in a run. -/

/-- A call for the attempt that the coordinator accepts, answered by a node of the chain at an
anchor that is not below block `n`. -/
structure AnsweredCall {signer : Address} (chain : SignerChain signer) (a : JournalAttempt)
    (n : ℕ) (c : SignerCoordinator) (call : RecoverCall) (x : NodeAnswers)
    (s : TransactionJournalSnapshot) : Prop where
  accepted : ∃ o, AcceptsCall c call.generation o
  current : c.persistence.current = some s
  oldest : ∃ b, s.attempts.head? = some b ∧ b.record = a.record
  node : ChainNode chain a.nonce a.signedTransactions.hashes x
  contained : chain.Contains call.anchor
  past : n ≤ call.anchor.blockNumber
  height : call.anchor.blockNumber ≤ MAX_UINT256
  range : 0 < call.maxBlockRange ∧ call.maxBlockRange ≤ MAX_UINT256

/-- Such a call whose result is not held back. While unattributed activity is recorded, a result
observed at a lower nonce is reported and not saved. -/
structure UninterruptedCall {signer : Address} (chain : SignerChain signer) (a : JournalAttempt)
    (n : ℕ) (c : SignerCoordinator) (call : RecoverCall) (x : NodeAnswers)
    (s : TransactionJournalSnapshot) : Prop extends AnsweredCall chain a n c call x s where
  unheld : ¬ (c.blockers.unattributedSignerActivity = true ∧
    chain.nonceAt call.anchor.blockNumber < s.lastObservation.nonce)

/-- The reads of a call, as the node answers them. -/
def RecoverCall.log {signer : Address} (chain : SignerChain signer) (call : RecoverCall)
    (x : NodeAnswers) (s : TransactionJournalSnapshot) : RpcLog :=
  (inspectSignerRecovery s call.anchor call.maxBlockRange).transcript (chain.answer x)

/-- The inputs after `is` contain this many uninterrupted calls, among any others. -/
inductive UninterruptedCalls (lib : TransactionLibrary) (identity : JournalIdentity)
    (chain : SignerChain identity.signer) (a : JournalAttempt) (n : ℕ) (is : List Input) :
    ℕ → List Input → Prop
  | start : UninterruptedCalls lib identity chain a n is 0 []
  | other {k : ℕ} {js : List Input} {i : Input} :
      UninterruptedCalls lib identity chain a n is k js →
      UninterruptedCalls lib identity chain a n is k (js ++ [i])
  | call {k : ℕ} {js : List Input} {c : SignerCoordinator} {call : RecoverCall} {x : NodeAnswers}
      {s : TransactionJournalSnapshot} : UninterruptedCalls lib identity chain a n is k js →
      (runSigner lib identity (is ++ js)).1 = .running c → UninterruptedCall chain a n c call x s →
      UninterruptedCalls lib identity chain a n is (k+1) (js ++ call.inputs (call.log chain x s))

/-- An inclusion pass that takes a recorded inclusion back starts the search again. -/
def JournalWrite.KeepsSearch (a : JournalAttempt) : JournalWrite → Prop
  | .inclusions _ base _ _ _ _ _ attempts _ _ => ∀ b ∈ base.attempts, ∀ b' ∈ attempts,
      b.record = a.record → b'.record = a.record → b'.replacementSearch = b.replacementSearch
  | _ => True

/-- No write that is saved in `mid` starts the search of the attempt again. -/
def NoRestart (a : JournalAttempt) (pre mid : List Event) : Prop :=
  ∀ w t, (view pre).pending = some (w, t) ∨ .write w t ∈ mid → w.KeepsSearch a

/-- The search of the attempt has come to this height. -/
def SearchedTo (a : JournalAttempt) (height : ℕ) (tr : List Event) : Prop :=
  ∀ t b search, (view tr).journal = some t → b ∈ t.attempts → b.record = a.record →
    b.replacementSearch = some search → height ≤ search.boundary.blockNumber

section Advance

variable {lib : TransactionLibrary} {identity : JournalIdentity}
  {chain : SignerChain identity.signer} {a : JournalAttempt} {lower : AnchoredNonceObservation}
  {pre mid : List Event} {e : Event} {s : TransactionJournalSnapshot} {height n : ℕ} {h : Hash}

theorem NoRestart.of_append {l : List Event} (hno : NoRestart a pre (mid ++ l)) :
    NoRestart a pre mid := by
  intro w t hw
  refine hno w t ?_
  rcases hw with hw | hw
  · exact Or.inl hw
  · exact Or.inr (List.mem_append_left l hw)

/-- Without a restart no write takes the search back. -/
theorem SearchedTo.append_singleton (htrace : TraceOk lib identity (pre ++ mid ++ [e]))
    (hs : (view pre).journal = some s) (hbegin : SearchBegins chain s a lower)
    (hon : RecoversOnChain chain a pre mid) (hno : NoRestart a pre mid)
    (hto : SearchedTo a height (pre ++ mid)) : SearchedTo a height (pre ++ mid ++ [e]) := by
  intro t b search ht hb hrec hsearch
  have hpre : TraceOk lib identity (pre ++ mid) := htrace.of_append
  rcases htrace.journal_step with hkeep | ⟨w, next, hcommit, hw, hnext⟩
  · rw [hkeep] at ht
    exact hto t b search ht hb hrec hsearch
  obtain rfl : next = t := Option.some.inj (hnext.symm.trans ht)
  obtain ⟨u, hu⟩ := hpre.journal_stays hs
  rw [hu] at hw
  -- an attempt that is new has a nonce of its own
  rcases hw.searchKept hb with hnew | ⟨c, hc, hcr, hstep⟩
  · have hbound : a.nonce < u.nextNonce := hpre.nonce_lt hs hu hbegin.mem
    have hn : b.nonce = a.nonce := congrArg JournalAttempt.Record.nonce hrec
    omega
  obtain ⟨search', hsearch', hprefix⟩ :=
    hpre.searchedPrefix hs hbegin hon hu hc (hcr.trans hrec)
  have hle := hto u c search' hu hc (hcr.trans hrec) hsearch'
  have hwrite := hstep search' hsearch'
  have hkeeps := hno _ _ (pending_after hcommit.1)
  rw [hsearch] at hwrite
  -- the write kept the search, started it again or moved it forward
  cases hwrite with
  | kept => exact hle
  | restarted =>
    cases hw with
    | inclusions hp =>
      have hsame := hkeeps c hc b hb (hcr.trans hrec) hrec
      rw [hsearch, hsearch', Option.some.injEq] at hsame
      rw [hsame]
      exact hle
  | @searched generation range k m anchor through log o receipt hhead hk hrep =>
    obtain ⟨x, hx, hlog⟩ := hon.pending hcommit.1
    have hn : c.nonce = a.nonce := congrArg JournalAttempt.Record.nonce (hcr.trans hrec)
    have hh : c.signedTransactions = a.signedTransactions :=
      congrArg JournalAttempt.Record.signedTransactions (hcr.trans hrec)
    rw [← hn, ← hh] at hx
    have hid : u.identity = identity := (hpre.viewOk.journal u hu).header.2.2.1
    obtain ⟨_, hnumber, _⟩ :=
      notFound_onChain hid hhead hsearch' hprefix.contained hx hrep hlog
    show height ≤ through.blockNumber
    omega

theorem Recorded.searched_eq {u : Bool} {kind : PendingWrite} {b : JournalAttempt}
    {rest : List JournalAttempt} {next : TransactionJournalSnapshot} {search : ReplacementSearch}
    {o : AnchoredNonceObservation} {receipt : AttemptReceiptResult} {through : BlockAnchor}
    {k m : ℕ}
    (hr : Recorded s u (.unresolved o receipt (some (.notFound through k m))) kind next)
    (hk : 0 < k) (hs : s.attempts = b :: rest) (hsearch : b.replacementSearch = some search) :
    next = observedSnapshot s o b rest (some { search with searchedThrough := some through }) := by
  have hblocks : searchedBlocks (some (.notFound through k m)) = some (through, m) := if_pos hk
  cases hr with
  | emptied _ hempty _ =>
    rw [hs] at hempty
    cases hempty
  | observed ho _ _ hnone =>
    obtain ⟨_, rfl⟩ := Prod.mk.inj (Option.some.inj ho)
    rw [hblocks] at hnone
    cases hnone
  | searched ho hs' _ hsome hlower =>
    obtain ⟨rfl, rfl⟩ := Prod.mk.inj (Option.some.inj ho)
    obtain ⟨rfl, _⟩ := Prod.mk.inj (Option.some.inj (hblocks.symm.trans hsome))
    obtain ⟨rfl, rfl⟩ := List.cons.inj (hs.symm.trans hs')
    rw [recoveredSearch_of_some hsearch] at hlower
    rw [Option.some.inj hlower]

/-- What is saved for the oldest attempt is the only search with its record. -/
theorem searchedTo_observed {b : JournalAttempt} {rest : List JournalAttempt}
    {o : AnchoredNonceObservation} {search : ReplacementSearch} {tr : List Event}
    (hv : SnapshotValid identity (observedSnapshot s o b rest (some search)))
    (ht : (view tr).journal = some (observedSnapshot s o b rest (some search)))
    (hrec : b.record = a.record) (hle : height ≤ search.boundary.blockNumber) :
    SearchedTo a height tr := by
  intro t c search' hj hc hcr hsearch'
  obtain rfl := Option.some.inj (ht.symm.trans hj)
  have hhead : { b with replacementSearch := some search } ∈
      (observedSnapshot s o b rest (some search)).attempts := List.mem_cons_self
  have hone := List.inj_on_of_nodup_map hv.attempts.2.2.2.1 hc hhead
    (congrArg JournalAttempt.Record.attemptId (hcr.trans hrec.symm))
  rw [hone] at hsearch'
  rwa [← Option.some.inj hsearch']

/-- A call that nothing interrupts finds the transaction or moves the search forward. -/
theorem UninterruptedCall.advances {is : List Input} {c : SignerCoordinator} {call : RecoverCall}
    {x : NodeAnswers} {t : TransactionJournalSnapshot}
    (hcall : UninterruptedCall chain a n c call x t)
    (hc : runSigner lib identity is = (.running c, pre ++ mid))
    (hs : (view pre).journal = some s) (hbegin : SearchBegins chain s a lower)
    (hon : RecoversOnChain chain a pre mid) (hi : chain.Includes a.nonce n h)
    (hto : SearchedTo a height (pre ++ mid)) :
    ∃ events, (runSigner lib identity (is ++ call.inputs (call.log chain x t))).2 =
        pre ++ mid ++ events ∧
      ((∃ l e r, events = l ++ e :: r ∧ CommitsFind chain a n h (pre ++ mid ++ l) e) ∨
        SearchedTo a (height+1) (pre ++ mid ++ events)) := by
  have hreached := runSigner_reached lib identity is (congrArg Prod.fst hc)
  rw [hc] at hreached
  have htrace : TraceOk lib identity (pre ++ mid) := hreached.trace
  have hj : (view (pre ++ mid)).journal = some t :=
    hreached.journal.current.symm.trans hcall.current
  have hok := htrace.viewOk.journal t hj
  obtain ⟨o, ho⟩ := hcall.accepted
  obtain ⟨b, hb, hrec⟩ := hcall.oldest
  obtain ⟨search, hsearch, hprefix⟩ :=
    htrace.searchedPrefix hs hbegin hon hj (List.mem_of_mem_head? hb) hrec
  obtain ⟨rest, hrest⟩ : ∃ rest, t.attempts = b :: rest := by
    obtain ⟨rest, hrest⟩ := List.head?_eq_some_iff.mp hb
    exact ⟨rest, hrest⟩
  have hn : b.nonce = a.nonce := congrArg JournalAttempt.Record.nonce hrec
  have hh : b.signedTransactions = a.signedTransactions :=
    congrArg JournalAttempt.Record.signedTransactions hrec
  have hx := hcall.node
  rw [← hn, ← hh] at hx
  have hlo : search.boundary.blockNumber < n := hprefix.boundary_lt hi (hbegin.lower_lt hi)
  rw [← hn] at hi
  obtain ⟨r, heval, hr⟩ := inspectSignerRecovery_onChain hok.toSnapshotValid hb hsearch
    hprefix.contained hx hcall.contained hcall.height hcall.range.1 hcall.range.2 hi hlo hcall.past
  have hobs : ObservationValid ⟨call.anchor, chain.nonceAt call.anchor.blockNumber⟩ :=
    ⟨hcall.height, (hx.safe _).trans (by decide)⟩
  obtain ⟨kind, next, hplan, hverified⟩ := planRecovery_onChain
    (u := c.blockers.unattributedSignerActivity) hok.toSnapshotVerified hrest hsearch hobs
    hcall.past hcall.unheld hr
  have hreplay : (inspectSignerRecovery t call.anchor call.maxBlockRange).replay
      (call.log chain x t) = some (.ok r) := by
    rw [← heval]
    exact Prog.replay_transcript _ _
  obtain ⟨c', permit, hrun⟩ := ho.run hcall.range hc hcall.current hreplay hplan hverified
  refine ⟨_, congrArg Prod.snd hrun, ?_⟩
  rcases hr.names with hnames | ⟨receipt, k, m, hk, _, rfl⟩
  · -- the save of the result is what finds the transaction
    refine Or.inl ⟨[_], _, _, rfl, call.anchor, call.log chain x t, r, ?_, ?_⟩
    · refine ⟨o.generation, call.maxBlockRange, t, next, b, ?_, hb, hrec, ?_⟩
      · rw [view_append_singleton]
        exact hj
      · refine ⟨?_, Or.inl rfl⟩
        rw [view_append_singleton]
        rfl
    · rw [hnames, hh]
  · right
    obtain rfl := (planRecovery_some hplan).2.searched_eq hk hrest hsearch
    refine searchedTo_observed hverified.toSnapshotValid ?_ hrec ?_
    · rw [view, List.foldl_append]
      rfl
    · have hle := hto t b search hj (List.mem_of_mem_head? hb) hrec hsearch
      show height+1 ≤ (chain.block (search.boundary.blockNumber+k)).anchor.blockNumber
      rw [chain.blockNumber]
      omega

/-- After each uninterrupted call the transaction is found, or the search is one block further. -/
theorem UninterruptedCalls.searchedTo {is js : List Input} {k : ℕ}
    (hcalls : UninterruptedCalls lib identity chain a n is k js)
    (hs : (view (runSigner lib identity is).2).journal = some s)
    (hbegin : SearchBegins chain s a lower) (hi : chain.Includes a.nonce n h) {mid : List Event}
    (hmid : (runSigner lib identity (is ++ js)).2 = (runSigner lib identity is).2 ++ mid)
    (hon : RecoversOnChain chain a (runSigner lib identity is).2 mid)
    (hno : NoRestart a (runSigner lib identity is).2 mid) :
    (∃ l e r, mid = l ++ e :: r ∧ CommitsFind chain a n h ((runSigner lib identity is).2 ++ l) e) ∨
      SearchedTo a (lower.anchor.blockNumber + k) ((runSigner lib identity is).2 ++ mid) := by
  induction hcalls generalizing mid with
  | start =>
    rw [List.append_nil] at hmid
    obtain rfl : mid = [] := by simpa using hmid
    right
    intro t b search ht hb hrec hsearch
    have htrace : TraceOk lib identity ((runSigner lib identity is).2 ++ []) := by
      rw [List.append_nil]
      exact (runSigner_follows lib identity is).1
    obtain ⟨search', hsearch', hprefix⟩ :=
      htrace.searchedPrefix hs hbegin hon ht hb hrec
    obtain rfl := Option.some.inj (hsearch.symm.trans hsearch')
    exact hprefix.lower_le
  -- any other input adds one event at most, which does not take the search back
  | @other k js i hcalls ih =>
    obtain ⟨mid₀, hmid₀⟩ := (signerSystem lib identity).run_extends is js
    have htrace := (runSigner_follows lib identity (is ++ (js ++ [i]))).1
    rw [hmid] at htrace
    rw [← List.append_assoc, runSigner, System.run_append_singleton] at hmid
    obtain ⟨e, rfl⟩ : ∃ e : Option Event, mid = mid₀ ++ e.toList := by
      unfold System.next at hmid
      split at hmid
      · exact ⟨none, List.append_cancel_left (hmid.symm.trans (by simpa using hmid₀))⟩
      · rename_i w e _
        refine ⟨e, List.append_cancel_left (hmid.symm.trans ?_)⟩
        rw [← List.append_assoc, ← hmid₀]
    rcases ih hmid₀ hon.of_append hno.of_append with ⟨l, x, r, rfl, hfind⟩ | hto
    · exact Or.inl ⟨l, x, r ++ e.toList, by simp, hfind⟩
    · right
      cases e with
      | none => simpa using hto
      | some e =>
        have hone : mid₀ ++ (some e).toList = mid₀ ++ [e] := rfl
        rw [hone, ← List.append_assoc] at htrace ⊢
        exact hto.append_singleton htrace hs hbegin hon.of_append hno.of_append
  -- the call adds the events of its save, which move the search
  | @call k js c call x t hcalls hc hcall ih =>
    obtain ⟨mid₀, hmid₀⟩ := (signerSystem lib identity).run_extends is js
    have hrun : runSigner lib identity (is ++ js) =
        (.running c, (runSigner lib identity is).2 ++ mid₀) := Prod.ext hc hmid₀
    have hkept : ∃ l, mid = mid₀ ++ l := by
      obtain ⟨l, hl⟩ := (signerSystem lib identity).run_extends (is ++ js)
        (call.inputs (call.log chain x t))
      rw [List.append_assoc, hmid, hmid₀, List.append_assoc] at hl
      exact ⟨l, List.append_cancel_left hl⟩
    obtain ⟨l, rfl⟩ := hkept
    rcases ih hmid₀ hon.of_append hno.of_append with ⟨l', y, r, rfl, hfind⟩ | hto
    · exact Or.inl ⟨l', y, r ++ l, by simp, hfind⟩
    obtain ⟨events, hevents, hout⟩ :=
      hcall.advances hrun hs hbegin hon.of_append hi hto
    obtain rfl : l = events := by
      rw [List.append_assoc, hmid, ← List.append_assoc] at hevents
      exact List.append_cancel_left hevents
    rcases hout with ⟨l', e, r, rfl, hfind⟩ | hout
    · refine Or.inl ⟨mid₀ ++ l', e, r, by simp, ?_⟩
      rw [← List.append_assoc]
      exact hfind
    · right
      rw [← List.append_assoc]
      exact hout

/-- As many uninterrupted calls as there are blocks up to the transaction find it. -/
theorem UninterruptedCalls.found {is js : List Input} {k : ℕ}
    (hcalls : UninterruptedCalls lib identity chain a n is k js)
    (hs : (view (runSigner lib identity is).2).journal = some s)
    (hbegin : SearchBegins chain s a lower) (hi : chain.Includes a.nonce n h)
    (hk : n ≤ lower.anchor.blockNumber + k) {mid : List Event}
    (hmid : (runSigner lib identity (is ++ js)).2 = (runSigner lib identity is).2 ++ mid)
    (hon : RecoversOnChain chain a (runSigner lib identity is).2 mid)
    (hno : NoRestart a (runSigner lib identity is).2 mid) :
    ∃ l e r, mid = l ++ e :: r ∧
      CommitsFind chain a n h ((runSigner lib identity is).2 ++ l) e := by
  rcases hcalls.searchedTo hs hbegin hi hmid hon hno with hfind | hto
  · exact hfind
  have htrace := (runSigner_follows lib identity (is ++ js)).1
  rw [hmid] at htrace
  rcases htrace.retained_or_found hs hbegin hon hi with ⟨t, b, ht, hb, hrec⟩ | hfind
  · -- the search has come to the block, which it could not pass
    obtain ⟨search, hsearch, hprefix⟩ := htrace.searchedPrefix hs hbegin hon ht hb hrec
    have hlt := hprefix.boundary_lt hi (hbegin.lower_lt hi)
    have hle := hto t b search ht hb hrec hsearch
    omega
  · exact hfind

end Advance

/-- What holds of the search of an attempt after a stretch of a run on the chain. -/
structure SearchSound {signer : Address} (chain : SignerChain signer) (a : JournalAttempt)
    (lower : AnchoredNonceObservation) (pre mid : List Event) : Prop where
  progress : ∀ t b, (view (pre ++ mid)).journal = some t → b ∈ t.attempts → b.record = a.record →
    ∃ search, b.replacementSearch = some search ∧ SearchedPrefix chain a lower pre mid search
  exhausted : ∀ t, (view (pre ++ mid)).journal = some t → ReachedAnchor t a.record →
    chain.Unused a.nonce lower.anchor.blockNumber t.lastObservation.anchor.blockNumber
  reported : ∀ t b x anchor range log o receipt through k,
    (view (pre ++ mid)).journal = some t → t.attempts.head? = some b → b.record = a.record →
    ChainNode chain a.nonce a.signedTransactions.hashes x →
    Prog.AnsweredBy (chain.answer x) log →
    (inspectSignerRecovery t anchor range).replay log =
      some (.ok (.unresolved o receipt (some (.notFound through k 0)))) →
    chain.Unused a.nonce lower.anchor.blockNumber anchor.blockNumber
  classified : ∀ t b x anchor range log result inclusion hash recorded,
    (view (pre ++ mid)).journal = some t → t.attempts.head? = some b → b.record = a.record →
    ChainNode chain a.nonce a.signedTransactions.hashes x →
    Prog.AnsweredBy (chain.answer x) log →
    (inspectSignerRecovery t anchor range).replay log = some (.ok result) →
    result.names = some (inclusion, hash, recorded) →
    ∃ n, lower.anchor.blockNumber < n ∧ n ≤ anchor.blockNumber ∧
      inclusion = (chain.block n).anchor ∧ chain.Includes a.nonce n hash ∧
      recorded = decide (hash ∈ a.signedTransactions.hashes)

section Complete

variable {lib : TransactionLibrary} {identity : JournalIdentity}
  {chain : SignerChain identity.signer} {a : JournalAttempt} {lower : AnchoredNonceObservation}
  {pre mid : List Event} {s : TransactionJournalSnapshot}

theorem TraceOk.searchSound (h : TraceOk lib identity (pre ++ mid))
    (hs : (view pre).journal = some s) (hbegin : SearchBegins chain s a lower)
    (hon : RecoversOnChain chain a pre mid) : SearchSound chain a lower pre mid where
  progress := fun _ _ ht hb hrec => h.searchedPrefix hs hbegin hon ht hb hrec
  exhausted := fun _ ht hr => h.reached_unused hs hbegin hon ht hr
  reported := fun _ _ _ _ _ _ _ _ _ _ ht hb hrec hx hlog hrep =>
    h.reported_exhausted hs hbegin hon ht hb hrec hx hlog hrep
  classified := by
    intro t b x anchor range log result inclusion hash recorded ht hb hrec hx hlog hrep hnames
    have hid : t.identity = identity := (h.viewOk.journal t ht).header.2.2.1
    obtain ⟨n, hle, hblock, hi, hclass⟩ := names_transaction hid hb hrec hx hrep hlog hnames
    exact ⟨n, hbegin.lower_lt hi, hle, hblock, hi, hclass⟩

/-- The blocker stands for a search that had reached an observed block, below which there is
nothing to find. -/
theorem blocker_unused {is : List Input} {c : SignerCoordinator}
    (hc : (runSigner lib identity is).1 = .running c)
    (hsplit : (runSigner lib identity is).2 = pre ++ mid)
    (hs : (view pre).journal = some s) (hbegin : SearchBegins chain s a lower)
    (hon : RecoversOnChain chain a pre mid) (hl : c.blockers.conflictSearchExhausted = true)
    {u : TransactionJournalSnapshot} {b : JournalAttempt}
    (hu : (view (pre ++ mid)).applied = some u) (hb : u.attempts.head? = some b)
    (hrec : b.record = a.record) :
    ExhaustedSearch pre a.record ∨ ∃ l rest t, mid = l ++ rest ∧
      (view (pre ++ l)).journal = some t ∧ ReachedAnchor t a.record ∧
      chain.Unused a.nonce lower.anchor.blockNumber t.lastObservation.anchor.blockNumber := by
  have htrace := (runSigner_follows lib identity is).1
  obtain ⟨u', b', hu', hb', hex⟩ := runSigner_attributed lib identity is hc hl
  rw [hsplit] at htrace hu' hex
  obtain rfl := Option.some.inj (hu.symm.trans hu')
  obtain rfl := Option.some.inj (hb.symm.trans hb')
  rw [hrec] at hex
  rcases htrace.exhausted_reached hex with hstart | ⟨l, rest, t, rfl, ht, hr⟩
  · exact Or.inl hstart
  · rw [← List.append_assoc] at htrace
    have hpre : TraceOk lib identity (pre ++ l) := htrace.of_append
    exact Or.inr ⟨l, rest, t, rfl, ht, hr, hpre.reached_unused hs hbegin hon.of_append ht hr⟩

variable (lib identity)

/-- On one chain the journal's progress is a prefix of read blocks without the nonce, nothing is
taken to be exhausted that is not, and calls which nothing interrupts come to the transaction
that used the nonce. Whatever answers, a save of progress has met no mismatch. -/
theorem replacement_search_complete (is js : List Input) :
    EachEvent (fun _ e => ∀ generation base anchor range log result next a b,
      e = .write (.recovery generation base anchor range log result) next →
      base.attempts.head? = some a → next.attempts.head? = some b → b.record = a.record →
      b.progress ≠ a.progress → ∃ search blocks, SearchMatched base a anchor search blocks log ∧
        b.progress = some (tipAfter search.boundary blocks))
      (runSigner lib identity (is ++ js)).2 ∧
    ∀ (chain : SignerChain identity.signer) s a lower mid,
      (view (runSigner lib identity is).2).journal = some s → SearchBegins chain s a lower →
      (runSigner lib identity (is ++ js)).2 = (runSigner lib identity is).2 ++ mid →
      RecoversOnChain chain a (runSigner lib identity is).2 mid →
      SearchSound chain a lower (runSigner lib identity is).2 mid ∧
      (∀ c u b, (runSigner lib identity (is ++ js)).1 = .running c →
        c.blockers.conflictSearchExhausted = true →
        (view (runSigner lib identity (is ++ js)).2).applied = some u →
        u.attempts.head? = some b → b.record = a.record →
        ExhaustedSearch (runSigner lib identity is).2 a.record ∨ ∃ l rest t, mid = l ++ rest ∧
          (view ((runSigner lib identity is).2 ++ l)).journal = some t ∧
          ReachedAnchor t a.record ∧
          chain.Unused a.nonce lower.anchor.blockNumber t.lastObservation.anchor.blockNumber) ∧
      ∀ n h k, chain.Includes a.nonce n h →
        UninterruptedCalls lib identity chain a n is k js → n ≤ lower.anchor.blockNumber + k →
        NoRestart a (runSigner lib identity is).2 mid →
        ∃ l e r, mid = l ++ e :: r ∧
          CommitsFind chain a n h ((runSigner lib identity is).2 ++ l) e := by
  have htrace := (runSigner_follows lib identity (is ++ js)).1
  refine ⟨?_, ?_⟩
  · intro pre e post hsplit generation base anchor range log result next a b he ha hb hrec hne
    subst he
    rw [hsplit] at htrace
    have hv : ViewOk lib identity (view pre) := TraceOk.viewOk htrace.of_append
    -- the save of a recovery fixes the reads that it rests on
    obtain ⟨_, _, hw, _⟩ := htrace pre _ post rfl
    obtain ⟨s, hs⟩ : ∃ s, (view pre).journal = some s := by
      generalize (view pre).journal = j at hw
      cases hw with
      | recovery _ _ _ => exact ⟨_, rfl⟩
    rw [hs] at hw
    obtain ⟨rfl, _⟩ := hw.recovery_replay
    exact hw.progress_matched (hv.journal _ hs).toSnapshotValid ha hb hrec hne
  · intro chain s a lower mid hs hbegin hmid hon
    have hwhole := htrace
    rw [hmid] at hwhole
    refine ⟨hwhole.searchSound hs hbegin hon, ?_, ?_⟩
    · intro c u b hc hl hu hb hrec
      rw [hmid] at hu
      exact blocker_unused hc hmid hs hbegin hon hl hu hb hrec
    · intro n h k hi hcalls hk hno
      exact hcalls.found hs hbegin hi hk hmid hon hno

end Complete

section Sample

/-- Account 7 sends its transactions with the nonces 0 and 1 in the blocks 8 and 10. -/
def replacedBlock (n : ℕ) : ChainBlock :=
  ⟨⟨n, 10*n⟩, 10*(n-1), if n = 8 then [⟨some 5000, some 7, some 0⟩]
    else if n = 10 then [⟨some 5001, some 7, some 1⟩] else []⟩

def replacedNonceAt (n : ℕ) : ℕ := if n < 8 then 0 else if n < 10 then 1 else 2

theorem signerHashes_replacedBlock {nonce n : ℕ}
    (h : signerHashes 7 nonce (replacedBlock n).transactions ≠ []) :
    n = 8 ∧ nonce = 0 ∨ n = 10 ∧ nonce = 1 := by
  unfold replacedBlock at h
  by_cases h8 : n = 8
  · refine Or.inl ⟨h8, ?_⟩
    by_contra hne
    simp [h8, signerHashes, Ne.symm hne] at h
  by_cases h10 : n = 10
  · refine Or.inr ⟨h10, ?_⟩
    by_contra hne
    simp [h10, signerHashes, Ne.symm hne] at h
  · simp [h8, h10, signerHashes] at h

theorem wellFormed_replacedBlock (n : ℕ) : BlockWellFormed 7 (replacedBlock n) := by
  refine ⟨?_, fun nonce => ?_⟩
  · intro t ht
    simp only [replacedBlock] at ht
    split_ifs at ht
    · rw [List.mem_singleton.mp ht]
      exact ⟨rfl, rfl, 0, by decide, rfl⟩
    · rw [List.mem_singleton.mp ht]
      exact ⟨rfl, rfl, 1, by decide, rfl⟩
    · simp at ht
  · simp only [replacedBlock]
    split_ifs
    · exact List.length_filterMap_le _ _
    · exact List.length_filterMap_le _ _
    · simp [signerHashes]

theorem replacedNonceAt_mono : Monotone replacedNonceAt := by
  intro m n hmn
  unfold replacedNonceAt
  split_ifs <;> omega

theorem consumed_replacedBlock (n nonce : ℕ)
    (h : signerHashes 7 nonce (replacedBlock (n+1)).transactions ≠ []) :
    replacedNonceAt n ≤ nonce ∧ nonce < replacedNonceAt (n+1) := by
  rcases signerHashes_replacedBlock h with ⟨hn, rfl⟩ | ⟨hn, rfl⟩
  · obtain rfl : n = 7 := by omega
    decide
  · obtain rfl : n = 9 := by omega
    decide

def replacedChain : SignerChain 7 where
  block := replacedBlock
  blockNumber := fun _ => rfl
  parentHash := fun _ => rfl
  nonceAt := replacedNonceAt
  wellFormed := wellFormed_replacedBlock
  nonceAt_mono := replacedNonceAt_mono
  consumed := consumed_replacedBlock
  genesis := fun _ => rfl

/-- A node of the chain that has no receipt. -/
def replacedNode : NodeAnswers where
  header n := 10*n
  fullBlock := replacedBlock
  transactionCount _ t := match t with
    | .at n => some (replacedNonceAt n)
    | _ => some 2
  transactionReceipt _ := none

theorem replacedNode_answers : ChainNode replacedChain 0 [1040] replacedNode where
  header := fun _ => rfl
  fullBlock := fun _ => rfl
  transactionCount := fun _ => rfl
  safe := by
    intro n
    show replacedNonceAt n ≤ MAX_SAFE_INTEGER
    have hle : replacedNonceAt n ≤ 2 := by
      unfold replacedNonceAt
      split_ifs <;> omega
    exact hle.trans (by decide)
  receipt := by
    intro h _ r hr
    cases hr

/-- The attempt was sent, and an inspection has begun. -/
def searchingRun : List Input :=
  (sampleActions ++ [Action.sendSettled, Action.beginInspection]).map (⟨1, ·⟩)

def searchedAttempt (through : Option BlockAnchor) : JournalAttempt :=
  { sampleAttempt with
    replacementSearch := some ⟨⟨sampleHead, 0⟩, through⟩
    phase := .broadcastMayHaveOccurred }

def searchedJournal (o : AnchoredNonceObservation) (through : Option BlockAnchor) :
    TransactionJournalSnapshot :=
  { identity := sampleIdentity
    baseline := ⟨sampleAnchor, 0⟩
    lastObservation := o
    nextNonce := 1
    durableNextNonce := 0
    repairs := []
    attempts := [searchedAttempt through] }

/-- A call that scans one block. -/
def shortCall : RecoverCall := ⟨1, 2, ⟨9, 90⟩, 1⟩

def shortInputs (s : TransactionJournalSnapshot) : List Input :=
  shortCall.inputs (shortCall.log replacedChain replacedNode s)

theorem shortCall_answered {c : SignerCoordinator} {o : InspectionOwner}
    {observed : AnchoredNonceObservation} {through : Option BlockAnchor}
    (h : AcceptsCall c 2 o) (hs : c.persistence.current = some (searchedJournal observed through)) :
    AnsweredCall replacedChain (searchedAttempt none) 8 c shortCall replacedNode
      (searchedJournal observed through) :=
  ⟨⟨o, h⟩, hs, ⟨_, rfl, rfl⟩, replacedNode_answers, rfl, by decide, by decide, by decide⟩

/-- The events of a call that saves its result. -/
def shortEvents (x : NodeAnswers) (s next : TransactionJournalSnapshot)
    (r : SignerRecoveryInspection) (permit : Option AttemptId) : List Event :=
  [.write (.recovery 2 s ⟨9, 90⟩ 1 (shortCall.log replacedChain x s) r) next, .acked next,
    .completed (.recovery 2 s ⟨9, 90⟩ 1 (shortCall.log replacedChain x s) r) permit]

/-- The state in which a call is made. -/
structure Searching (is : List Input) (s : TransactionJournalSnapshot) (c : SignerCoordinator) :
    Prop where
  running : (runSigner sampleLibrary sampleIdentity is).1 = .running c
  accepted : ∃ o, AcceptsCall c 2 o
  current : c.persistence.current = some s
  unattributed : c.blockers.unattributedSignerActivity = false

theorem Searching.run {is : List Input} {c : SignerCoordinator} {s : TransactionJournalSnapshot}
    {kind : PendingWrite} (h : Searching is s c) (x : NodeAnswers)
    (next : TransactionJournalSnapshot) (r : SignerRecoveryInspection)
    (hr : (inspectSignerRecovery s ⟨9, 90⟩ 1).eval (replacedChain.answer x) = .ok r)
    (hplan : planRecovery sampleIdentity false s r = .ok (some (kind, next)))
    (hv : verifyJournalSnapshot sampleLibrary next sampleIdentity = .ok next) :
    ∃ permit, (runSigner sampleLibrary sampleIdentity
        (is ++ shortCall.inputs (shortCall.log replacedChain x s))).2 =
      (runSigner sampleLibrary sampleIdentity is).2 ++ shortEvents x s next r permit := by
  have hreplay : (inspectSignerRecovery s ⟨9, 90⟩ 1).replay
      (shortCall.log replacedChain x s) = some (.ok r) := by
    rw [← hr]
    exact Prog.replay_transcript _ _
  obtain ⟨o, hacc⟩ := h.accepted
  have ho : AcceptsCall c shortCall.generation o := hacc
  rw [← h.unattributed] at hplan
  have hrun : runSigner sampleLibrary sampleIdentity is =
      (.running c, (runSigner sampleLibrary sampleIdentity is).2) := Prod.ext h.running rfl
  obtain ⟨_, permit, hcalled⟩ := ho.run (by decide) hrun h.current hreplay hplan
    (verifyJournalSnapshot_ok_iff.mp hv).2
  refine ⟨permit, (congrArg Prod.snd hcalled).trans ?_⟩
  rw [(owned_eq_some ho.owned).2]
  rfl

theorem Searching.uninterrupted {is : List Input} {c : SignerCoordinator}
    {observed : AnchoredNonceObservation} {through : Option BlockAnchor}
    (h : Searching is (searchedJournal observed through) c) :
    UninterruptedCall replacedChain (searchedAttempt none) 8 c shortCall replacedNode
      (searchedJournal observed through) := by
  obtain ⟨o, ho⟩ := h.accepted
  refine ⟨shortCall_answered ho h.current, fun hheld => ?_⟩
  rw [h.unattributed] at hheld
  cases hheld.1

theorem searching_first : ∃ c, Searching searchingRun (searchedJournal ⟨sampleHead, 0⟩ none) c :=
  ⟨_, rfl, ⟨_, rfl, rfl, rfl, rfl⟩, rfl, rfl⟩

theorem searching_second : ∃ c, Searching
    (searchingRun ++ shortInputs (searchedJournal ⟨sampleHead, 0⟩ none))
    (searchedJournal ⟨⟨9, 90⟩, 1⟩ (some ⟨7, 70⟩)) c :=
  ⟨_, rfl, ⟨_, rfl, rfl, rfl, rfl⟩, rfl, rfl⟩

/-- Both calls, which read blocks 7 and 8. -/
def searchingCalls : List Input :=
  shortInputs (searchedJournal ⟨sampleHead, 0⟩ none) ++
    shortInputs (searchedJournal ⟨⟨9, 90⟩, 1⟩ (some ⟨7, 70⟩))

theorem searchingCalls_uninterrupted : UninterruptedCalls sampleLibrary sampleIdentity
    replacedChain (searchedAttempt none) 8 searchingRun 2 searchingCalls := by
  obtain ⟨c, hc⟩ := searching_first
  obtain ⟨d, hd⟩ := searching_second
  have hrunning : (runSigner sampleLibrary sampleIdentity (searchingRun ++ [])).1 = .running c := by
    rw [List.append_nil]
    exact hc.running
  exact .call (.call .start hrunning hc.uninterrupted) hd.running hd.uninterrupted

/-- The first call saves that block 7 was searched, and the second resolves the attempt. -/
theorem searchingCalls_events : ∃ p q,
    (runSigner sampleLibrary sampleIdentity (searchingRun ++ searchingCalls)).2 =
      (runSigner sampleLibrary sampleIdentity searchingRun).2 ++
        (shortEvents replacedNode (searchedJournal ⟨sampleHead, 0⟩ none)
            (searchedJournal ⟨⟨9, 90⟩, 1⟩ (some ⟨7, 70⟩))
            (.unresolved ⟨⟨9, 90⟩, 1⟩ .receiptNotFound (some (.notFound ⟨7, 70⟩ 1 2))) p ++
          shortEvents replacedNode (searchedJournal ⟨⟨9, 90⟩, 1⟩ (some ⟨7, 70⟩))
            { searchedJournal ⟨⟨9, 90⟩, 1⟩ none with durableNextNonce := 1, attempts := [] }
            (.resolutionAvailable ⟨⟨9, 90⟩, 1⟩ ⟨⟨9, 90⟩, ⟨8, 80⟩, .replaced 5000 1⟩) q) := by
  obtain ⟨c, hc⟩ := searching_first
  obtain ⟨d, hd⟩ := searching_second
  obtain ⟨p, hp⟩ := hc.run replacedNode (searchedJournal ⟨⟨9, 90⟩, 1⟩ (some ⟨7, 70⟩))
    (.unresolved ⟨⟨9, 90⟩, 1⟩ .receiptNotFound (some (.notFound ⟨7, 70⟩ 1 2))) rfl rfl rfl
  obtain ⟨q, hq⟩ := hd.run replacedNode
    { searchedJournal ⟨⟨9, 90⟩, 1⟩ none with durableNextNonce := 1, attempts := [] }
    (.resolutionAvailable ⟨⟨9, 90⟩, 1⟩ ⟨⟨9, 90⟩, ⟨8, 80⟩, .replaced 5000 1⟩) rfl rfl rfl
  refine ⟨p, q, ?_⟩
  simp only [shortInputs] at hq
  rw [searchingCalls, ← List.append_assoc, shortInputs, shortInputs, hq, hp, List.append_assoc]

theorem shortEvents_write {x : NodeAnswers} {s next t : TransactionJournalSnapshot}
    {r : SignerRecoveryInspection} {permit : Option AttemptId} {w : JournalWrite}
    (h : .write w t ∈ shortEvents x s next r permit) :
    w = .recovery 2 s ⟨9, 90⟩ 1 (shortCall.log replacedChain x s) r := by
  simp only [shortEvents, List.mem_cons, Event.write.injEq, reduceCtorEq, List.not_mem_nil,
    or_false] at h
  exact h.1

/-- Two calls of one block each come to the transaction of block 8. -/
theorem replaced_transaction_found : ∃ l e r,
    (runSigner sampleLibrary sampleIdentity (searchingRun ++ searchingCalls)).2 =
      (runSigner sampleLibrary sampleIdentity searchingRun).2 ++ (l ++ e :: r) ∧
    CommitsFind replacedChain (searchedAttempt none) 8 5000
      ((runSigner sampleLibrary sampleIdentity searchingRun).2 ++ l) e := by
  obtain ⟨p, q, hmid⟩ := searchingCalls_events
  generalize hm : shortEvents _ _ _ _ p ++ shortEvents _ _ _ _ q = mid at hmid
  have hwrites (w : JournalWrite) (t : TransactionJournalSnapshot)
      (hw : (view (runSigner sampleLibrary sampleIdentity searchingRun).2).pending = some (w, t) ∨
        .write w t ∈ mid) : ∃ s r, w =
          .recovery 2 s ⟨9, 90⟩ 1 (shortCall.log replacedChain replacedNode s) r := by
    rcases hw with hw | hw
    · cases hw
    · rw [← hm] at hw
      rcases List.mem_append.mp hw with hw | hw
      · exact ⟨_, _, shortEvents_write hw⟩
      · exact ⟨_, _, shortEvents_write hw⟩
  have hon : RecoversOnChain replacedChain (searchedAttempt none)
      (runSigner sampleLibrary sampleIdentity searchingRun).2 mid := by
    intro w t hw
    obtain ⟨s, r, rfl⟩ := hwrites w t hw
    exact ⟨replacedNode, replacedNode_answers, Prog.answeredBy_transcript _ _⟩
  have hkeeps : NoRestart (searchedAttempt none)
      (runSigner sampleLibrary sampleIdentity searchingRun).2 mid := by
    intro w t hw
    obtain ⟨s, r, rfl⟩ := hwrites w t hw
    exact trivial
  have hbegin : SearchBegins replacedChain (searchedJournal ⟨sampleHead, 0⟩ none)
      (searchedAttempt none) ⟨sampleHead, 0⟩ :=
    ⟨List.mem_singleton_self _, rfl, rfl, by decide⟩
  have hjournal : (view (runSigner sampleLibrary sampleIdentity searchingRun).2).journal =
      some (searchedJournal ⟨sampleHead, 0⟩ none) := rfl
  obtain ⟨l, e, r, rfl, hfind⟩ := ((replacement_search_complete sampleLibrary sampleIdentity
    searchingRun searchingCalls).2 replacedChain _ (searchedAttempt none) ⟨sampleHead, 0⟩ mid
    hjournal hbegin hmid hon).2.2 8 5000 2 rfl searchingCalls_uninterrupted (by decide) hkeeps
  exact ⟨l, e, r, hmid, hfind⟩

/-- An inclusion pass at block 10 observes the second transaction. -/
def latchedRun : List Input := searchingRun ++
  [Action.callOwned 2 (.checkInclusions 0 ⟨10, 100⟩ none), Action.startOperation,
    Action.answered ((inspectInclusionsOwned (searchedJournal ⟨sampleHead, 0⟩ none) ⟨10, 100⟩ none
      false).transcript (replacedChain.answer replacedNode)),
    Action.stored, Action.resume, Action.settleOperation].map (⟨1, ·⟩)

theorem latched_state : ∃ c, (runSigner sampleLibrary sampleIdentity latchedRun).1 = .running c ∧
    (∃ o, AcceptsCall c 2 o) ∧
    c.persistence.current = some (searchedJournal ⟨⟨10, 100⟩, 2⟩ none) ∧
    c.blockers.unattributedSignerActivity = true :=
  ⟨_, rfl, ⟨_, rfl, rfl, rfl, rfl⟩, rfl, rfl⟩

/-- The node serves a receipt of a block 8 that is not on the chain. -/
def forkReceiptNode : NodeAnswers :=
  { replacedNode with
    transactionReceipt := fun _ => some ⟨some 1040, some 8, some 81, some .success⟩ }

/-- With that activity recorded, each call at block 9 scans block 7 and saves nothing, so that no
number of calls comes to block 8. Without it, a call that sees the block of a receipt differ from
the chain's saves its progress. -/
theorem latched_search_stalls :
    (view (runSigner sampleLibrary sampleIdentity latchedRun).2).journal =
        some (searchedJournal ⟨⟨10, 100⟩, 2⟩ none) ∧
      SearchBegins replacedChain (searchedJournal ⟨⟨10, 100⟩, 2⟩ none) (searchedAttempt none)
        ⟨sampleHead, 0⟩ ∧
      replacedChain.Includes 0 8 5000 ∧
      (inspectSignerRecovery (searchedJournal ⟨⟨10, 100⟩, 2⟩ none) ⟨9, 90⟩ 1).eval
          (replacedChain.answer replacedNode) = .ok (.unresolved ⟨⟨9, 90⟩, 1⟩ .receiptNotFound
            (some (.notFound ⟨7, 70⟩ 1 2))) ∧
    (∀ k, (∃ c, (runSigner sampleLibrary sampleIdentity (latchedRun ++ (List.replicate k
          (shortInputs (searchedJournal ⟨⟨10, 100⟩, 2⟩ none))).flatten)).1 = .running c ∧
        AnsweredCall replacedChain (searchedAttempt none) 8 c shortCall replacedNode
          (searchedJournal ⟨⟨10, 100⟩, 2⟩ none)) ∧
      (runSigner sampleLibrary sampleIdentity (latchedRun ++ (List.replicate k
          (shortInputs (searchedJournal ⟨⟨10, 100⟩, 2⟩ none))).flatten)).2 =
        (runSigner sampleLibrary sampleIdentity latchedRun).2) ∧
    ∃ permit, (runSigner sampleLibrary sampleIdentity (searchingRun ++ shortCall.inputs
        (shortCall.log replacedChain forkReceiptNode (searchedJournal ⟨sampleHead, 0⟩ none)))).2 =
      (runSigner sampleLibrary sampleIdentity searchingRun).2 ++
        shortEvents forkReceiptNode (searchedJournal ⟨sampleHead, 0⟩ none)
          (searchedJournal ⟨⟨9, 90⟩, 1⟩ (some ⟨7, 70⟩))
          (.unresolved ⟨⟨9, 90⟩, 1⟩ (.forkServedReceipt ⟨8, 81⟩ ⟨8, 80⟩)
            (some (.notFound ⟨7, 70⟩ 1 2))) permit := by
  refine ⟨rfl, ⟨List.mem_singleton_self _, rfl, rfl, by decide⟩, rfl, rfl, fun k => ?_, ?_⟩
  · obtain ⟨c, hc, ⟨o, hacc⟩, hs, hlatched⟩ := latched_state
    have ho : AcceptsCall c shortCall.generation o := hacc
    have hreplay : (inspectSignerRecovery (searchedJournal ⟨⟨10, 100⟩, 2⟩ none) ⟨9, 90⟩ 1).replay
        (shortCall.log replacedChain replacedNode (searchedJournal ⟨⟨10, 100⟩, 2⟩ none)) =
          some (.ok (.unresolved ⟨⟨9, 90⟩, 1⟩ .receiptNotFound (some (.notFound ⟨7, 70⟩ 1 2)))) :=
      Prog.replay_transcript _ _
    have hplan : planRecovery sampleIdentity c.blockers.unattributedSignerActivity
        (searchedJournal ⟨⟨10, 100⟩, 2⟩ none)
        (.unresolved ⟨⟨9, 90⟩, 1⟩ .receiptNotFound (some (.notFound ⟨7, 70⟩ 1 2))) = .ok none := by
      rw [hlatched]
      rfl
    have hrun : runSigner sampleLibrary sampleIdentity latchedRun =
        (.running c, (runSigner sampleLibrary sampleIdentity latchedRun).2) := Prod.ext hc rfl
    obtain ⟨d, o', hcalls, hd, hp, _⟩ := ho.held_repeated (by decide) hrun hs hreplay hplan k
    change runSigner sampleLibrary sampleIdentity (latchedRun ++ (List.replicate k
      (shortInputs (searchedJournal ⟨⟨10, 100⟩, 2⟩ none))).flatten) = _ at hcalls
    rw [hcalls]
    refine ⟨⟨d, rfl, shortCall_answered hd ?_⟩, rfl⟩
    rw [hp]
    exact hs
  · -- the receipt is looked up before the search, which goes on without it
    obtain ⟨c, hc⟩ := searching_first
    exact hc.run forkReceiptNode _ _ rfl rfl rfl

end Sample

end Quicknet
