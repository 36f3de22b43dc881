import Quicknet.AttemptFrame
import Quicknet.ChainSearch
import Quicknet.LatchedBlockers

/-! What the journal keeps of a replacement search over whole runs whose recoveries are
answered from one chain: the position it has reached, and that each block on the way was read. -/
namespace Quicknet

open Interaction Transition

/-- What a write makes of the search of an attempt that it retains. -/
inductive SearchWrite (s : TransactionJournalSnapshot) (a : JournalAttempt)
    (search : ReplacementSearch) : JournalWrite → Option ReplacementSearch → Prop
  | kept {w : JournalWrite} : SearchWrite s a search w (some search)
  | restarted {generation : ℕ} {head : BlockAnchor} {range : Option ℕ} {bracketed : Bool}
      {log : RpcLog} {o : AnchoredNonceObservation} {attempts : List JournalAttempt}
      {complete : Bool} {broadcast : Option AttemptId} :
      SearchWrite s a search
        (.inclusions generation s head range bracketed log o attempts complete broadcast)
        (some ⟨search.lowerBound, none⟩)
  | searched {generation range k m : ℕ} {anchor through : BlockAnchor} {log : RpcLog}
      {o : AnchoredNonceObservation} {receipt : AttemptReceiptResult} :
      s.attempts.head? = some a → 0 < k →
      (inspectSignerRecovery s anchor range).replay log =
        some (.ok (.unresolved o receipt (some (.notFound through k m)))) →
      SearchWrite s a search (.recovery generation s anchor range log
        (.unresolved o receipt (some (.notFound through k m))))
        (some { search with searchedThrough := some through })

section Step

variable {identity : JournalIdentity} {s next : TransactionJournalSnapshot} {w : JournalWrite}
  {b : JournalAttempt}

/-- An attempt of the next journal that was not there before has the next nonce. -/
def SearchKept (s : TransactionJournalSnapshot) (w : JournalWrite) (b : JournalAttempt) : Prop :=
  b.nonce = s.nextNonce ∨ ∃ a ∈ s.attempts, a.record = b.record ∧
    ∀ search, a.replacementSearch = some search → SearchWrite s a search w b.replacementSearch

theorem searchKept_of_mem (hb : b ∈ s.attempts) : SearchKept s w b := by
  refine Or.inr ⟨b, hb, rfl, ?_⟩
  intro search hs
  rw [hs]
  exact .kept

theorem markBroadcast_searchKept {a : JournalAttempt} (hf : s.firstUnresolved = some a)
    (hb : b ∈ markBroadcast s.attempts) : SearchKept s w b := by
  obtain ⟨front, back, hs, _, hm⟩ := markBroadcast_split hf
  have hmem {c : JournalAttempt} (hc : c ∈ front ++ a :: back) : c ∈ s.attempts := by rwa [hs]
  rw [hm, List.mem_append, List.mem_cons] at hb
  rcases hb with hb | rfl | hb
  · exact searchKept_of_mem (hmem (by simp [hb]))
  · refine Or.inr ⟨a, hmem (by simp), rfl, fun search ha => ?_⟩
    rw [ha]
    exact .kept
  · exact searchKept_of_mem (hmem (by simp [hb]))

theorem InclusionUpdate.searchKept {a : JournalAttempt} {generation : ℕ} {head : BlockAnchor}
    {range : Option ℕ} {bracketed : Bool} {log : RpcLog} {o : AnchoredNonceObservation}
    {attempts : List JournalAttempt} {complete : Bool} {broadcast : Option AttemptId}
    (h : InclusionUpdate a b) (ha : a ∈ s.attempts) : SearchKept s
      (.inclusions generation s head range bracketed log o attempts complete broadcast) b := by
  refine Or.inr ⟨a, ha, h.record_eq.symm, fun search hs => ?_⟩
  cases h with
  | demoted i _ =>
    -- the withdrawn inclusion starts the search again from its lower bound
    simp only [demote, hs, Option.map_some]
    exact .restarted
  | same =>
    rw [hs]
    exact .kept
  | refreshed _ _ _ =>
    rw [show JournalAttempt.replacementSearch _ = _ from hs]
    exact .kept
  | included _ _ =>
    rw [show JournalAttempt.replacementSearch _ = _ from hs]
    exact .kept

/-- The search of a retained attempt after each kind of write. -/
theorem Writes.searchKept (h : Writes identity (some s) w next) (hb : b ∈ next.attempts) :
    SearchKept s w b := by
  cases h with
  | prepared _ _ =>
    rcases List.mem_append.mp hb with hb | hb
    · exact searchKept_of_mem hb
    · rw [List.mem_singleton.mp hb]
      exact Or.inl rfl
  | broadcast hf _ _ => exact markBroadcast_searchKept hf hb
  | inclusions hp =>
    obtain ⟨a, ha, hu⟩ := forall₂_mem_right hp.updates hb
    exact hu.searchKept ha
  | repair hp =>
    obtain ⟨_, _, _, _, rfl, _⟩ := planNonceSync_repair hp
    exact searchKept_of_mem hb
  | @recovery _ _ generation anchor range log result hr _ hrec =>
    generalize recoveryKind s result = kind at hrec
    cases hrec with
    | resolved hs _ _ => exact searchKept_of_mem (by rw [hs]; exact List.mem_cons_of_mem _ hb)
    | emptied _ _ _ => exact searchKept_of_mem hb
    | @observed _ o search oldest rest _ hs _ _ =>
      rcases List.mem_cons.mp hb with rfl | hb
      · refine Or.inr ⟨oldest, by simp [hs], rfl, fun search ha => ?_⟩
        simp only [recoveredSearch_of_some ha]
        exact .kept
      · exact searchKept_of_mem (by simp [hs, hb])
    | @searched _ o search oldest rest lower through remaining ho hs _ hsb hl =>
      rcases List.mem_cons.mp hb with rfl | hb
      · refine Or.inr ⟨oldest, by simp [hs], rfl, fun search' ha => ?_⟩
        rw [recoveredSearch_of_some ha] at hl
        obtain rfl := Option.some.inj hl
        obtain ⟨receipt, k, hk, rfl⟩ := SignerRecoveryInspection.observed_searched ho hsb
        exact .searched (by rw [hs]; rfl) hk hr
      · exact searchKept_of_mem (by simp [hs, hb])

end Step

/-! What a save of new progress has read, whatever answered. -/

/-- Every read of a call whose search met no mismatch: the receipts, the nonce at the anchor, and
between two checks that found the anchor unchanged the recorded blocks, unchanged, and blocks
that each name the one before as their parent. -/
structure SearchMatched (s : TransactionJournalSnapshot) (a : JournalAttempt)
    (anchor : BlockAnchor) (search : ReplacementSearch) (blocks : List ChainBlock) (log : RpcLog) :
    Prop where
  resumed : resolveReplacementSearch a.nonce a.replacementSearch s.lastObservation = some search
  reads : ∃ receipt receiptLog nonce,
    (reconcileAttemptReceipt a.signedTransactions.hashes anchor).replay receiptLog =
      some (.ok receipt) ∧
    log = receiptLog ++ [anchorSeen anchor, nonceRead s.identity.signer (.at anchor.blockNumber)
      (some nonce), anchorSeen anchor] ++ (anchorSeen anchor ::
        (boundaryReads search ++ blocks.map ChainBlock.read) ++ [anchorSeen anchor])
  linked : LinkedAfter search.boundary blocks
  atAnchor : ∀ b ∈ blocks, b.anchor.blockNumber = anchor.blockNumber → b.anchor = anchor

section Matched

variable {identity : JournalIdentity} {base s next : TransactionJournalSnapshot}
  {generation range : ℕ} {anchor : BlockAnchor} {log : RpcLog} {result : SignerRecoveryInspection}

theorem Writes.recovery_replay
    (h : Writes identity (some s) (.recovery generation base anchor range log result) next) :
    base = s ∧ (inspectSignerRecovery s anchor range).replay log = some (.ok result) := by
  cases h with
  | recovery hr _ _ => exact ⟨rfl, hr⟩

theorem searchMatched_of_notFound {o : AnchoredNonceObservation} {receipt : AttemptReceiptResult}
    {through : BlockAnchor} {k m : ℕ} {a : JournalAttempt} (ha : s.attempts.head? = some a)
    (h : (inspectSignerRecovery s anchor range).replay log =
      some (.ok (.unresolved o receipt (some (.notFound through k m))))) :
    ∃ search blocks, SearchMatched s a anchor search blocks log ∧
      through = tipAfter search.boundary blocks := by
  obtain ⟨b, search, blocks, l₁, l₂, hs, hold, hrun⟩ := recovery_searchRun h
  obtain rfl : a = b := Option.some.inj (ha.symm.trans hold.oldest)
  obtain rfl := hold.anchor_eq
  obtain ⟨rfl, _, _⟩ := ReplacementSearchResult.notFound.inj hrun.result_eq
  have hlog := hold.log_eq
  rw [hrun.log_eq] at hlog
  exact ⟨search, blocks, ⟨hs, ⟨receipt, l₁, o.nonce, hold.receipt_ok, hlog⟩, hrun.scan.linked,
    hrun.scan.atAnchor⟩, rfl⟩

/-- A recovery that moves the progress of its attempt has met no mismatch. -/
theorem Writes.progress_matched {a b : JournalAttempt} (hs : SnapshotValid identity s)
    (h : Writes identity (some s) (.recovery generation base anchor range log result) next)
    (ha : s.attempts.head? = some a) (hb : next.attempts.head? = some b)
    (hrec : b.record = a.record) (hne : b.progress ≠ a.progress) :
    ∃ search blocks, SearchMatched s a anchor search blocks log ∧
      b.progress = some (tipAfter search.boundary blocks) := by
  have hid : a.attemptId = b.attemptId :=
    (congrArg JournalAttempt.Record.attemptId hrec).symm
  cases h with
  | recovery hr _ hrecorded =>
    obtain ⟨o, receipt, through, k, m, _, rfl, hprogress⟩ :=
      hrecorded.progress_notFound ha hb hid hs.attempts.2.2.2.1 hne
    obtain ⟨search, blocks, hmatched, rfl⟩ := searchMatched_of_notFound ha hr
    exact ⟨search, blocks, hmatched, hprogress⟩

end Matched

/-! One chain, and one attempt of the journal. -/

/-- The attempt's lower bound is a block of the chain up to which its nonce is not used, and no
block after it has been searched yet. -/
structure SearchBegins {signer : Address} (chain : SignerChain signer)
    (s : TransactionJournalSnapshot) (a : JournalAttempt) (lower : AnchoredNonceObservation) :
    Prop where
  mem : a ∈ s.attempts
  search : a.replacementSearch = some ⟨lower, none⟩
  contains : chain.Contains lower.anchor
  unconsumed : chain.nonceAt lower.anchor.blockNumber ≤ a.nonce

/-- The reads of a recovery were answered from the chain. A recovery with a failed read saves
nothing, and any other write may rest on any reads. -/
def JournalWrite.OnChain {signer : Address} (chain : SignerChain signer) (a : JournalAttempt) :
    JournalWrite → Prop
  | .recovery _ _ _ _ log _ => ∃ x, ChainNode chain a.nonce a.signedTransactions.hashes x ∧
      Prog.AnsweredBy (chain.answer x) log
  | _ => True

/-- Every recovery saved in `mid`, or being saved before it, is answered from the chain. -/
def RecoversOnChain {signer : Address} (chain : SignerChain signer) (a : JournalAttempt)
    (pre mid : List Event) : Prop :=
  ∀ w t, (view pre).pending = some (w, t) ∨ .write w t ∈ mid → w.OnChain chain a

/-- `e` commits a recovery of the attempt, with these reads and this result. -/
def CommitsRecovery (r : JournalAttempt.Record) (pre : List Event) (anchor : BlockAnchor)
    (log : RpcLog) (result : SignerRecoveryInspection) (e : Event) : Prop :=
  ∃ generation range base next b, (view pre).journal = some base ∧
    base.attempts.head? = some b ∧ b.record = r ∧
    Commits pre (.recovery generation base anchor range log result) next e

/-- A committed recovery of the attempt has read the block. -/
def CommittedRead (r : JournalAttempt.Record) (pre mid : List Event) (block : ChainBlock) : Prop :=
  ∃ l e rest anchor log result, mid = l ++ e :: rest ∧
    CommitsRecovery r (pre ++ l) anchor log result e ∧ block.read ∈ log

/-- The recorded position is a block of the chain, and every block from the lower bound up to
it was read and is without the nonce. -/
structure SearchedPrefix {signer : Address} (chain : SignerChain signer) (a : JournalAttempt)
    (lower : AnchoredNonceObservation) (pre mid : List Event) (search : ReplacementSearch) :
    Prop where
  lowerBound : search.lowerBound = lower
  contained : SearchContained chain search
  above : ∀ p ∈ search.searchedThrough, lower.anchor.blockNumber < p.blockNumber
  unused : chain.Unused a.nonce lower.anchor.blockNumber search.boundary.blockNumber
  read : ∀ n, lower.anchor.blockNumber < n → n ≤ search.boundary.blockNumber →
    CommittedRead a.record pre mid (chain.block n)

/-- `e` commits a recovery of the attempt that names the transaction `h` of block `n` as the one
that used the nonce, and takes it for a recorded one exactly when its hash is recorded. -/
def CommitsFind {signer : Address} (chain : SignerChain signer) (a : JournalAttempt) (n : ℕ)
    (h : Hash) (pre : List Event) (e : Event) : Prop :=
  ∃ anchor log result, CommitsRecovery a.record pre anchor log result e ∧
    result.names = some ((chain.block n).anchor, h, decide (h ∈ a.signedTransactions.hashes))

section Prefix

variable {signer : Address} {chain : SignerChain signer} {a : JournalAttempt}
  {lower : AnchoredNonceObservation} {pre mid : List Event} {e : Event}
  {search : ReplacementSearch}

theorem CommittedRead.append {r : JournalAttempt.Record} {block : ChainBlock}
    (h : CommittedRead r pre mid block) : CommittedRead r pre (mid ++ [e]) block := by
  obtain ⟨l, x, rest, anchor, log, result, rfl, hcommit, hread⟩ := h
  exact ⟨l, x, rest ++ [e], anchor, log, result, by simp, hcommit, hread⟩

theorem SearchedPrefix.append (h : SearchedPrefix chain a lower pre mid search) :
    SearchedPrefix chain a lower pre (mid ++ [e]) search :=
  ⟨h.lowerBound, h.contained, h.above, h.unused, fun n hlo hhi => (h.read n hlo hhi).append⟩

theorem searchedPrefix_start (hl : chain.Contains lower.anchor) :
    SearchedPrefix chain a lower pre mid ⟨lower, none⟩ := by
  have hboundary : (ReplacementSearch.mk lower none).boundary = lower.anchor := rfl
  refine ⟨rfl, ⟨hl, by simp⟩, by simp, fun n hlo hhi => ?_, fun n hlo hhi => ?_⟩ <;>
    · rw [hboundary] at hhi
      omega

theorem SearchedPrefix.lower_le (h : SearchedPrefix chain a lower pre mid search) :
    lower.anchor.blockNumber ≤ search.boundary.blockNumber := by
  unfold ReplacementSearch.boundary
  cases hp : search.searchedThrough with
  | none =>
    rw [h.lowerBound]
    exact le_rfl
  | some p => exact (h.above p hp).le

/-- A transaction with the nonce is above the position. -/
theorem SearchedPrefix.boundary_lt (h : SearchedPrefix chain a lower pre mid search) {n : ℕ}
    {hash : Hash} (hi : chain.Includes a.nonce n hash) (hlo : lower.anchor.blockNumber < n) :
    search.boundary.blockNumber < n := by
  by_contra hle
  exact hi.not_unused hlo (by omega) h.unused

theorem SearchBegins.lower_lt {s : TransactionJournalSnapshot} {n : ℕ} {hash : Hash}
    (h : SearchBegins chain s a lower) (hi : chain.Includes a.nonce n hash) :
    lower.anchor.blockNumber < n := by
  obtain ⟨m, rfl, _, hlt⟩ := hi.consumed
  by_contra hle
  have hmono := chain.nonceAt_mono (Nat.not_lt.mp hle)
  have := h.unconsumed
  omega

theorem pending_after {w : JournalWrite} {t : TransactionJournalSnapshot} {l : List Event}
    (h : (view (pre ++ l)).pending = some (w, t)) :
    (view pre).pending = some (w, t) ∨ .write w t ∈ l := by
  induction l using List.reverseRecOn with
  | nil => exact Or.inl (by simpa using h)
  | append_singleton l e ih =>
    rw [← List.append_assoc, view_append_singleton] at h
    have hkeep (hp : (view (pre ++ l)).pending = some (w, t)) :
        (view pre).pending = some (w, t) ∨ .write w t ∈ l ++ [e] := by
      rcases ih hp with hp | hp
      · exact Or.inl hp
      · exact Or.inr (by simp [hp])
    cases e with
    | write w' t' =>
      obtain ⟨rfl, rfl⟩ := Prod.mk.inj (Option.some.inj h)
      exact Or.inr (by simp)
    | acked _ => cases h
    | loaded _ => cases h
    | _ => exact hkeep h

theorem RecoversOnChain.of_append {l : List Event}
    (h : RecoversOnChain chain a pre (mid ++ l)) : RecoversOnChain chain a pre mid := by
  intro w t hw
  refine h w t ?_
  rcases hw with hw | hw
  · exact Or.inl hw
  · exact Or.inr (List.mem_append_left l hw)

theorem RecoversOnChain.pending {w : JournalWrite} {t : TransactionJournalSnapshot}
    (h : RecoversOnChain chain a pre mid) (hp : (view (pre ++ mid)).pending = some (w, t)) :
    w.OnChain chain a :=
  h w t (pending_after hp)

end Prefix

section Run

variable {lib : TransactionLibrary} {identity : JournalIdentity}
  {chain : SignerChain identity.signer} {a b : JournalAttempt} {lower : AnchoredNonceObservation}
  {pre mid : List Event} {s t : TransactionJournalSnapshot}

theorem SearchBegins.unique (h : SearchBegins chain s a lower) (hs : SnapshotValid identity s)
    (hb : b ∈ s.attempts) (hrec : b.record = a.record) : b = a :=
  List.inj_on_of_nodup_map hs.attempts.2.2.2.1 hb h.mem
    (congrArg JournalAttempt.Record.attemptId hrec)

/-- The nonces of an earlier journal stay below the next one. -/
theorem TraceOk.nonce_lt (h : TraceOk lib identity (pre ++ mid)) (hs : (view pre).journal = some s)
    (ht : (view (pre ++ mid)).journal = some t) (ha : a ∈ s.attempts) : a.nonce < t.nextNonce := by
  have hv : ViewOk lib identity (view pre) := TraceOk.viewOk h.of_append
  have hsv := (hv.journal s hs).toSnapshotValid
  have htv := (h.viewOk.journal t ht).toSnapshotValid
  have hle := h.queueEvolves.next_le
  rw [hs, ht, hsv.nonceQueue_next, htv.nonceQueue_next] at hle
  exact lt_of_lt_of_le (hsv.nonce_bounds ha).2 hle

/-- A step of the search goes on with the prefix. -/
theorem SearchedPrefix.write {w : JournalWrite} {next : TransactionJournalSnapshot}
    {search : ReplacementSearch} {r : Option ReplacementSearch} {e : Event}
    (h : SearchedPrefix chain a lower pre mid search) (hid : s.identity = identity)
    (hs : (view (pre ++ mid)).journal = some s) (hrec : b.record = a.record)
    (hsearch : b.replacementSearch = some search) (hw : SearchWrite s b search w r)
    (hon : w.OnChain chain a) (hcommit : Commits (pre ++ mid) w next e) :
    ∃ search', r = some search' ∧ SearchedPrefix chain a lower pre (mid ++ [e]) search' := by
  cases hw with
  | kept => exact ⟨search, rfl, h.append⟩
  | restarted =>
    refine ⟨_, rfl, ?_⟩
    rw [h.lowerBound]
    refine searchedPrefix_start ?_
    rw [← h.lowerBound]
    exact h.contained.1
  -- the search moves on from the recorded position, by blocks of the chain
  | @searched generation range k m anchor through log o receipt hhead hk hrep =>
    obtain ⟨x, hx, hlog⟩ := hon
    have hn : b.nonce = a.nonce := congrArg JournalAttempt.Record.nonce hrec
    have hh : b.signedTransactions = a.signedTransactions :=
      congrArg JournalAttempt.Record.signedTransactions hrec
    rw [← hn, ← hh] at hx
    obtain ⟨hc, hnumber, _, _, hunused, hread⟩ :=
      notFound_onChain hid hhead hsearch h.contained hx hrep hlog
    have hlower := h.lower_le
    refine ⟨_, rfl, h.lowerBound, ⟨h.contained.1, ?_⟩, ?_, ?_, ?_⟩
    · intro p hp
      obtain rfl := Option.some.inj hp
      exact hc
    · intro p hp
      obtain rfl := Option.some.inj hp
      omega
    · rw [hn] at hunused
      exact h.unused.trans hunused
    · intro n hlo hhi
      -- the blocks above that position were read by this call, the others before it
      rcases Nat.lt_or_ge search.boundary.blockNumber n with hgt | hle
      · have hcommits : CommitsRecovery a.record (pre ++ mid) anchor log
            (.unresolved o receipt (some (.notFound through k m))) e :=
          ⟨generation, range, s, next, b, hs, hhead, hrec, hcommit⟩
        exact ⟨mid, e, [], anchor, log, _, rfl, hcommits, hread n hgt hhi⟩
      · exact (h.read n hlo hle).append

/-- The recorded search is a prefix in every state that follows. -/
theorem TraceOk.searchedPrefix (h : TraceOk lib identity (pre ++ mid))
    (hs : (view pre).journal = some s) (hbegin : SearchBegins chain s a lower)
    (hon : RecoversOnChain chain a pre mid) (ht : (view (pre ++ mid)).journal = some t)
    (hb : b ∈ t.attempts) (hrec : b.record = a.record) :
    ∃ search, b.replacementSearch = some search ∧
      SearchedPrefix chain a lower pre mid search := by
  induction mid using List.reverseRecOn generalizing t b with
  | nil =>
    have hv : ViewOk lib identity (view pre) := TraceOk.viewOk h.of_append
    rw [List.append_nil, hs] at ht
    obtain rfl := Option.some.inj ht
    obtain rfl := hbegin.unique (hv.journal s hs).toSnapshotValid hb hrec
    exact ⟨_, hbegin.search, searchedPrefix_start hbegin.contains⟩
  | append_singleton mid e ih =>
    rw [← List.append_assoc] at h ht
    have hpre : TraceOk lib identity (pre ++ mid) := h.of_append
    have hv : ViewOk lib identity (view (pre ++ mid)) := hpre.viewOk
    have honpre : RecoversOnChain chain a pre mid := hon.of_append
    rcases h.journal_step with hkeep | ⟨w, next, hcommit, hw, hnext⟩
    · rw [hkeep] at ht
      obtain ⟨search, hsearch, hp⟩ := ih hpre honpre ht hb hrec
      exact ⟨search, hsearch, hp.append⟩
    obtain rfl : next = t := Option.some.inj (hnext.symm.trans ht)
    obtain ⟨u, hu⟩ := hpre.journal_stays hs
    rw [hu] at hw
    have hvalid := (hv.journal u hu).toSnapshotValid
    rcases hw.searchKept hb with hnew | ⟨c, hc, hcr, hstep⟩
    · -- the nonce of the attempt was taken long ago
      have hbound : a.nonce < u.nextNonce := hpre.nonce_lt hs hu hbegin.mem
      have hn : b.nonce = a.nonce := congrArg JournalAttempt.Record.nonce hrec
      omega
    · obtain ⟨search, hsearch, hp⟩ := ih hpre honpre hu hc (hcr.trans hrec)
      have honw := honpre.pending hcommit.1
      exact hp.write hvalid.header.2.2.1 hu (hcr.trans hrec) hsearch (hstep search hsearch) honw
        hcommit

/-- A search that is reported to have reached the anchor has passed over every block after the
lower bound. -/
theorem TraceOk.reported_exhausted (h : TraceOk lib identity (pre ++ mid))
    (hs : (view pre).journal = some s) (hbegin : SearchBegins chain s a lower)
    (hon : RecoversOnChain chain a pre mid) (ht : (view (pre ++ mid)).journal = some t)
    (hb : t.attempts.head? = some b) (hrec : b.record = a.record) {x : NodeAnswers}
    {anchor through : BlockAnchor} {range k : ℕ} {log : RpcLog} {o : AnchoredNonceObservation}
    {receipt : AttemptReceiptResult}
    (hx : ChainNode chain a.nonce a.signedTransactions.hashes x)
    (hlog : Prog.AnsweredBy (chain.answer x) log)
    (hrep : (inspectSignerRecovery t anchor range).replay log =
      some (.ok (.unresolved o receipt (some (.notFound through k 0))))) :
    chain.Unused a.nonce lower.anchor.blockNumber anchor.blockNumber := by
  obtain ⟨search, hsearch, hp⟩ :=
    h.searchedPrefix hs hbegin hon ht (List.mem_of_mem_head? hb) hrec
  have hid : t.identity = identity := (h.viewOk.journal t ht).header.2.2.1
  have hn : b.nonce = a.nonce := congrArg JournalAttempt.Record.nonce hrec
  have hh : b.signedTransactions = a.signedTransactions :=
    congrArg JournalAttempt.Record.signedTransactions hrec
  rw [← hn, ← hh] at hx
  obtain ⟨_, _, hle, hzero, hunused, _⟩ :=
    notFound_onChain hid hb hsearch hp.contained hx hrep hlog
  have hreached : through.blockNumber = anchor.blockNumber := by omega
  rw [hn, hreached] at hunused
  exact hp.unused.trans hunused

/-! The blocker of an exhausted search. -/

/-- The search of the oldest attempt has reached the block that was observed last. -/
def ReachedAnchor (t : TransactionJournalSnapshot) (r : JournalAttempt.Record) : Prop :=
  ∃ b, t.attempts.head? = some b ∧ b.record = r ∧ b.progress = some t.lastObservation.anchor

theorem SearchRun.reached {signer : Address} {nonce : ℕ} {hashes : List Hash}
    {search : ReplacementSearch} {o : AnchoredNonceObservation} {range k : ℕ} {log : RpcLog}
    {blocks : List ChainBlock} {through : BlockAnchor}
    (h : SearchRun signer nonce hashes search o range log blocks none (.notFound through k 0))
    (hk : 0 < k) : through = o.anchor := by
  obtain ⟨rfl, rfl, hzero⟩ := ReplacementSearchResult.notFound.inj h.result_eq
  rcases List.eq_nil_or_concat blocks with rfl | ⟨front, last, rfl⟩
  · simp at hk
  rw [List.concat_eq_append] at hzero h ⊢
  have htip : tipAfter search.boundary (front ++ [last]) = last.anchor :=
    ParentChain.tip_append_singleton _ _ _ _
  have hle := h.length_le
  rw [← tipAfter_blockNumber h.scan.linked] at hle
  rw [htip] at hzero hle ⊢
  exact h.scan.atAnchor last (by simp) (by omega)

/-- A write that finds the search exhausted leaves it at the observed block. -/
theorem Writes.reachedAnchor {base : Option TransactionJournalSnapshot}
    {next : TransactionJournalSnapshot} {w : JournalWrite} (h : Writes identity base w next)
    (hw : w.kind = .searchProgress true) : ∃ r, ReachedAnchor next r := by
  cases h with
  | @recovery s _ generation anchor range log result hr _ hrec =>
    obtain ⟨hne, o, receipt, through, k, m, rfl, hk, hm⟩ := recoveryKind_progress hw
    obtain rfl : m = 0 := of_decide_eq_true hm.symm
    obtain ⟨_, search, blocks, _, _, _, _, hrun⟩ := recovery_searchRun hr
    have hreached : through = o.anchor := hrun.reached hk
    generalize recoveryKind s _ = kind at hrec
    cases hrec with
    | emptied _ hs _ => exact absurd hs hne
    | observed ho _ _ hb =>
      obtain ⟨_, rfl⟩ := Prod.mk.inj (Option.some.inj ho)
      simp only [searchedBlocks, if_pos hk, reduceCtorEq] at hb
    | searched ho _ _ hb _ =>
      obtain ⟨rfl, rfl⟩ := Prod.mk.inj (Option.some.inj ho)
      simp only [searchedBlocks, if_pos hk, Option.some.injEq, Prod.mk.injEq] at hb
      obtain ⟨rfl, _⟩ := hb
      exact ⟨_, _, rfl, rfl, congrArg some hreached⟩
  | _ => cases hw

/-- The search that a journal shows exhausted has reached the observed block. -/
theorem ViewOk.reachedAnchor {v : JournalView} (hv : ViewOk lib identity v)
    (hs : v.journal = some s) (hshow : s.showsExhaustedSearch = true) :
    ∃ r, ReachedAnchor s r := by
  unfold TransactionJournalSnapshot.showsExhaustedSearch at hshow
  obtain ⟨b, hb, hsearch⟩ := (Option.any_eq_true _ _).mp hshow
  obtain ⟨hprogress, _⟩ := of_decide_eq_true hsearch
  have hmem := (firstUnresolved_mem hb).1
  have hold := (hv.journal s hs).progress_oldest
  unfold ProgressOldest at hold
  cases ha : s.attempts with
  | nil =>
    rw [ha] at hmem
    cases hmem
  | cons c rest =>
    rw [ha] at hmem hold
    rcases List.mem_cons.mp hmem with rfl | hmem
    · exact ⟨b.record, b, by rw [ha]; rfl, rfl, hprogress⟩
    · rw [hold b hmem] at hprogress
      cases hprogress

/-- What is taken to be exhausted had reached the block observed at some point since. -/
theorem TraceOk.exhausted_reached {r : JournalAttempt.Record}
    (h : TraceOk lib identity (pre ++ mid)) (hex : ExhaustedSearch (pre ++ mid) r) :
    ExhaustedSearch pre r ∨ ∃ l rest t, mid = l ++ rest ∧
      (view (pre ++ l)).journal = some t ∧ ReachedAnchor t r := by
  induction mid using List.reverseRecOn with
  | nil => exact Or.inl (by simpa using hex)
  | append_singleton mid e ih =>
    rw [← List.append_assoc] at h hex
    have hpre : TraceOk lib identity (pre ++ mid) := h.of_append
    have hv : ViewOk lib identity (view (pre ++ mid)) := hpre.viewOk
    generalize htr : pre ++ mid ++ [e] = tr at hex
    cases hex with
    | @found tr' e' s a happ hj ha hcause =>
      obtain ⟨rfl, he⟩ := List.append_inj' htr rfl
      obtain rfl : e = e' := by simpa using he
      -- the head of the journal is the attempt that the cause is about
      have hreached : ∃ r, ReachedAnchor s r := by
        rcases hcause with hshow | ⟨w, hu, hk⟩
        · exact h.viewOk.reachedAnchor hj hshow
        · obtain ⟨_, u, hju, hw⟩ := hv.unapplied w hu
          have hsame : (view (pre ++ mid ++ [e])).journal = (view (pre ++ mid)).journal := by
            rcases h.journal_step with hkeep | ⟨w', next, hcommit, _, _⟩
            · exact hkeep
            · rw [(hv.pending w' next hcommit.1).1] at hu
              cases hu
          rw [hsame, hju] at hj
          obtain rfl := Option.some.inj hj
          exact hw.reachedAnchor hk
      obtain ⟨r, b, hb, _, hp⟩ := hreached
      obtain rfl : a = b := Option.some.inj (ha.symm.trans hb)
      exact Or.inr ⟨mid ++ [e], [], s, by simp, by rw [← List.append_assoc]; exact hj,
        a, ha, rfl, hp⟩
    | @kept tr' e' r hkept _ _ =>
      obtain ⟨rfl, _⟩ := List.append_inj' htr rfl
      rcases ih hpre hkept with hstart | ⟨l, rest, t, rfl, ht, hr⟩
      · exact Or.inl hstart
      · exact Or.inr ⟨l, rest ++ [e], t, by simp, ht, hr⟩

/-- Up to there no block after the lower bound has the nonce. -/
theorem TraceOk.reached_unused (h : TraceOk lib identity (pre ++ mid))
    (hs : (view pre).journal = some s) (hbegin : SearchBegins chain s a lower)
    (hon : RecoversOnChain chain a pre mid) (ht : (view (pre ++ mid)).journal = some t)
    (hr : ReachedAnchor t a.record) :
    chain.Unused a.nonce lower.anchor.blockNumber t.lastObservation.anchor.blockNumber := by
  obtain ⟨b, hb, hrec, hp⟩ := hr
  obtain ⟨search, hsearch, hprefix⟩ :=
    h.searchedPrefix hs hbegin hon ht (List.mem_of_mem_head? hb) hrec
  have hunused := hprefix.unused
  unfold JournalAttempt.progress at hp
  rw [hsearch] at hp
  have hboundary : search.boundary = t.lastObservation.anchor := by
    unfold ReplacementSearch.boundary
    rw [show search.searchedThrough = some t.lastObservation.anchor from hp]
    rfl
  rwa [hboundary] at hunused

/-! The attempt leaves the journal only by a commit that names its transaction. -/

/-- What a recovery of the attempt names is the transaction that used its nonce. -/
theorem names_transaction (hid : s.identity = identity) (hb : s.attempts.head? = some b)
    (hrec : b.record = a.record) {x : NodeAnswers}
    (hx : ChainNode chain a.nonce a.signedTransactions.hashes x) {anchor inclusion : BlockAnchor}
    {range : ℕ} {log : RpcLog} {result : SignerRecoveryInspection} {h : Hash} {recorded : Bool}
    (hrep : (inspectSignerRecovery s anchor range).replay log = some (.ok result))
    (hlog : Prog.AnsweredBy (chain.answer x) log)
    (hnames : result.names = some (inclusion, h, recorded)) :
    ∃ n ≤ anchor.blockNumber, inclusion = (chain.block n).anchor ∧ chain.Includes a.nonce n h ∧
      recorded = decide (h ∈ a.signedTransactions.hashes) := by
  have hn : b.nonce = a.nonce := congrArg JournalAttempt.Record.nonce hrec
  have hh : b.signedTransactions = a.signedTransactions :=
    congrArg JournalAttempt.Record.signedTransactions hrec
  rw [← hn, ← hh] at hx
  obtain ⟨hblock, hi, hle, hr⟩ := names_onChain hid hb hx hrep hlog hnames
  rw [hn] at hi
  rw [hh] at hr
  exact ⟨inclusion.blockNumber, hle, hblock, hi, hr⟩

theorem CommitsResolution.find {e : Event} {n : ℕ} {h : Hash}
    (htrace : TraceOk lib identity (pre ++ mid)) (hon : RecoversOnChain chain a pre mid)
    (hi : chain.Includes a.nonce n h) (hc : CommitsResolution a.record (pre ++ mid) e) :
    CommitsFind chain a n h (pre ++ mid) e := by
  obtain ⟨generation, base, anchor, range, log, o, evidence, next, b, hj, hrec, hres, hcommit, _⟩ :=
    hc
  have hv := htrace.viewOk
  have hw := (hv.pending _ _ hcommit.1).2.1
  rw [hj] at hw
  have hid : base.identity = identity := (hv.journal base hj).header.2.2.1
  have hhead : base.attempts.head? = some b := by rw [hres.oldest]; rfl
  obtain ⟨x, hx, hlog⟩ := hon.pending hcommit.1
  obtain ⟨m, _, hblock, hm, hclass⟩ :=
    names_transaction hid hhead hrec hx hw.recovery_replay.2 hlog rfl
  obtain ⟨rfl, rfl⟩ := hm.unique hi
  refine ⟨anchor, log, _, ⟨generation, range, base, next, b, hj, hhead, hrec, hcommit⟩, ?_⟩
  rw [SignerRecoveryInspection.names, hblock, hclass]

/-- Until such a commit the attempt is retained. -/
theorem TraceOk.retained_or_found {n : ℕ} {h : Hash} (htrace : TraceOk lib identity (pre ++ mid))
    (hs : (view pre).journal = some s) (hbegin : SearchBegins chain s a lower)
    (hon : RecoversOnChain chain a pre mid) (hi : chain.Includes a.nonce n h) :
    Retains (pre ++ mid) a.record ∨
      ∃ l e r, mid = l ++ e :: r ∧ CommitsFind chain a n h (pre ++ l) e := by
  rcases htrace.retains ⟨s, a, hs, hbegin.mem, rfl⟩ with hr | ⟨l, e, r, rfl, hc⟩
  · exact Or.inl hr
  · right
    rw [← List.append_assoc] at htrace
    have hpre : TraceOk lib identity (pre ++ l) := htrace.of_append
    exact ⟨l, e, r, rfl, hc.find hpre hon.of_append hi⟩

end Run

end Quicknet
