import Quicknet.SignerReach

/-! What the journal guarantees over whole runs: payloads are recorded before
they leave, a nonce names one attempt for ever, and an attempt leaves the journal
only when a recovery proves what consumed its nonce. -/
namespace Quicknet

open Interaction Transition

/-- `e` makes the pending write the committed journal: its save is acknowledged,
or a start finds its snapshot on disk. -/
def Commits (pre : List Event) (w : JournalWrite) (next : TransactionJournalSnapshot)
    (e : Event) : Prop :=
  (view pre).pending = some (w, next) ∧ (e = .acked next ∨ e = .loaded (some next))

/-- The event does not change the journal or what is being written to it. -/
def Event.isQuiet : Event → Bool
  | .write _ _ | .acked _ | .loaded _ => false
  | _ => true

/-- The committed journal retains the attempt with this record. -/
def Retains (tr : List Event) (r : JournalAttempt.Record) : Prop :=
  ∃ s b, (view tr).journal = some s ∧ b ∈ s.attempts ∧ b.record = r

/-- The recovery's result, the attempt it resolves and the evidence for it. -/
structure ResolvesOldest (base : TransactionJournalSnapshot) (anchor : BlockAnchor) (log : RpcLog)
    (o : AnchoredNonceObservation) (e : AttemptResolutionEvidence) (a : JournalAttempt)
    (next : TransactionJournalSnapshot) : Prop where
  oldest : base.attempts = a :: next.attempts
  observed : o.anchor = anchor ∧ NonceSeen log base.identity.signer o
  consumed : a.nonce < o.nonce
  anchor_eq : e.anchor = anchor
  evidence : ReceiptResolution log a e ∨
    ScanResolution log base.identity.signer a base.lastObservation e
  next_eq : next = { base with
    lastObservation := next.lastObservation
    durableNextNonce := a.nonce+1
    attempts := next.attempts }
  lastObservation : next.lastObservation = o ∨
    base.nextNonce < base.lastObservation.nonce ∧ o.nonce < base.lastObservation.nonce ∧
      next.lastObservation = base.lastObservation

/-- `e` commits a recovery of the committed journal that resolves the attempt
with record `r`, and whose write is the last event that touched the journal. -/
def CommitsResolution (r : JournalAttempt.Record) (pre : List Event) (e : Event) : Prop :=
  ∃ generation base anchor range log o evidence next a,
    (view pre).journal = some base ∧ a.record = r ∧
    ResolvesOldest base anchor log o evidence a next ∧
    Commits pre (.recovery generation base anchor range log (.resolutionAvailable o evidence))
      next e ∧
    Since (· = .write (.recovery generation base anchor range log
      (.resolutionAvailable o evidence)) next) (fun x => x.isQuiet = true) pre

section Commit

variable {lib : TransactionLibrary} {identity : JournalIdentity}

theorem pending_written {tr : List Event} {w : JournalWrite} {t : TransactionJournalSnapshot}
    (h : (view tr).pending = some (w, t)) :
    Since (· = .write w t) (fun x => x.isQuiet = true) tr := by
  induction tr using List.reverseRecOn with
  | nil => cases h
  | append_singleton tr e ih =>
    rw [view_append_singleton] at h
    cases e with
    | write w' t' =>
      obtain ⟨rfl, rfl⟩ := Prod.mk.inj (Option.some.inj h)
      exact since_here tr rfl
    | acked _ => cases h
    | loaded _ => cases h
    | _ => exact (ih h).append_singleton rfl

/-- Each event keeps the journal or commits the pending write. -/
theorem TraceOk.journal_step {pre post : List Event} {e : Event}
    (h : TraceOk lib identity (pre ++ e :: post)) :
    (view (pre ++ [e])).journal = (view pre).journal ∨
    ∃ w next, Commits pre w next e ∧ Writes identity (view pre).journal w next ∧
      (view (pre ++ [e])).journal = some next := by
  have hv : ViewOk lib identity (view pre) := TraceOk.viewOk h.of_append
  have he := h pre e post rfl
  rw [view_append_singleton]
  cases e with
  | acked s =>
    obtain ⟨w, hp⟩ := he
    exact Or.inr ⟨w, s, ⟨hp, Or.inl rfl⟩, (hv.pending w s hp).2.1, rfl⟩
  | loaded read =>
    rcases he with rfl | ⟨w, t, hp, rfl⟩
    · exact Or.inl rfl
    · exact Or.inr ⟨w, t, ⟨hp, Or.inr rfl⟩, (hv.pending w t hp).2.1, rfl⟩
  | _ => exact Or.inl rfl

/-- Every write but a resolving recovery keeps the records in their order. -/
theorem Writes.records {base next : TransactionJournalSnapshot} {w : JournalWrite}
    (h : Writes identity (some base) w next) :
    (∃ generation anchor range log o evidence a,
      w = .recovery generation base anchor range log (.resolutionAvailable o evidence) ∧
        ResolvesOldest base anchor log o evidence a next) ∨
    ∃ added, next.attempts.map JournalAttempt.record =
      base.attempts.map JournalAttempt.record ++ added := by
  cases h with
  | prepared _ _ => exact Or.inr ⟨_, List.map_append⟩
  | broadcast _ _ _ => exact Or.inr ⟨[], by simp [markBroadcast_records]⟩
  | inclusions hp => exact Or.inr ⟨[], by simp [InclusionUpdate.forall₂_records hp.updates]⟩
  | repair hp =>
    obtain ⟨_, hempty, _, _, rfl, _⟩ := planNonceSync_repair hp
    exact Or.inr ⟨[], by simp [repairedSnapshot]⟩
  | @recovery _ _ generation anchor range log result hr _ hrec =>
    generalize recoveryKind base result = kind at hrec
    cases hrec with
    | emptied _ _ _ => exact Or.inr ⟨[], by simp⟩
    | observed _ hs _ _ => exact Or.inr ⟨[], by simp [observedSnapshot, hs, JournalAttempt.record]⟩
    | searched _ hs _ _ _ =>
      exact Or.inr ⟨[], by simp [observedSnapshot, hs, JournalAttempt.record]⟩
    | @resolved o evidence oldest rest hs _ _ =>
      refine Or.inl ⟨generation, anchor, range, log, o, evidence, oldest, rfl, ?_⟩
      rcases inspectSignerRecovery_ok hr with ⟨_, h'⟩ | ⟨_, h', _⟩ | ⟨_, h', _⟩ |
        ⟨attempt, receipt, o', l₁, l₂, hold⟩
      · cases h'
      · cases h'
      · cases h'
      obtain ⟨rfl, hc, ha, hev⟩ := hold.resolution rfl
      have hhead : attempt = oldest := by
        have hh := hold.oldest
        rw [hs] at hh
        exact (Option.some.inj hh).symm
      subst hhead
      refine ⟨hs, ⟨hold.anchor_eq, hold.nonceSeen⟩, hc, ha, hev, rfl, ?_⟩
      unfold retainObservation
      split_ifs with hk
      · have hshow := of_decide_eq_true hk.1
        exact Or.inr ⟨hshow, hk.2, rfl⟩
      · exact Or.inl rfl

/-- A sent payload is the recorded bytes of the attempt that the queue holds
under the payload's nonce. -/
theorem TraceOk.sent_item {pre post : List Event} {a : JournalAttempt} {payload : Bytes}
    {blockers : CoordinatorBlockers}
    (h : TraceOk lib identity (pre ++ .sent a payload blockers :: post)) :
    (nonceQueue (view pre).journal).item? a.nonce = some a.record ∧
      payload = a.signedTransactions.latest.signedTransaction ∧
      (lib.parseTransaction payload).bind (·.nonce) = some a.nonce := by
  have hv : ViewOk lib identity (view pre) := TraceOk.viewOk h.of_append
  obtain ⟨_, _, _, s, hs, b, hf, hrec, _, hpay, _, _⟩ := h pre _ post rfl
  have hb := (firstUnresolved_mem hf).1
  have hok := hv.journal s hs
  have hn : b.nonce = a.nonce := congrArg JournalAttempt.Record.nonce hrec
  have ht : b.signedTransactions = a.signedTransactions :=
    congrArg JournalAttempt.Record.signedTransactions hrec
  refine ⟨?_, by rw [hpay, ht], ?_⟩
  · rw [hs, ← hrec, ← hn]
    exact hok.nonceQueue_item hb
  · rw [hpay, ← hn]
    exact verifyJournalAttempt_nonce (hok.verified b hb) b.signedTransactions.latest_mem

/-- Of two payloads with one nonce, the later is the earlier. -/
theorem TraceOk.sent_unique {pre mid post : List Event} {a b : JournalAttempt} {p q : Bytes}
    {ba bb : CoordinatorBlockers} {n : ℕ}
    (h : TraceOk lib identity (pre ++ .sent a p ba :: (mid ++ .sent b q bb :: post)))
    (hp : (lib.parseTransaction p).bind (·.nonce) = some n)
    (hq : (lib.parseTransaction q).bind (·.nonce) = some n) : p = q ∧ a.record = b.record := by
  obtain ⟨hia, hpa, hna⟩ := h.sent_item
  have hsplit : pre ++ .sent a p ba :: (mid ++ .sent b q bb :: post) =
      (pre ++ (.sent a p ba :: mid)) ++ .sent b q bb :: post := by simp
  rw [hsplit] at h
  obtain ⟨hib, hqb, hnb⟩ := h.sent_item
  have hnonce : a.nonce = b.nonce :=
    Option.some.inj (hna.symm.trans (hp.trans (hq.symm.trans hnb)))
  rw [hnonce] at hia
  have hevolves : NumberedQueue.Evolves (nonceQueue (view pre).journal)
      (nonceQueue (view (pre ++ .sent a p ba :: mid)).journal) := TraceOk.queueEvolves h.of_append
  have hrec := hevolves.item_unique hia hib
  have ht : a.signedTransactions = b.signedTransactions :=
    congrArg JournalAttempt.Record.signedTransactions hrec
  exact ⟨by rw [hpa, hqb, ht], hrec⟩

/-- The counters of the committed journal never go back. -/
theorem TraceOk.acked_counters {pre mid post : List Event} {s t : TransactionJournalSnapshot}
    (h : TraceOk lib identity (pre ++ .acked s :: (mid ++ .acked t :: post))) :
    s.nextNonce ≤ t.nextNonce ∧ s.durableNextNonce ≤ t.durableNextNonce := by
  have hs₁ : pre ++ .acked s :: (mid ++ .acked t :: post) =
      (pre ++ [.acked s]) ++ (mid ++ .acked t :: post) := by simp
  have hs₂ : pre ++ .acked s :: (mid ++ .acked t :: post) =
      ((pre ++ [.acked s]) ++ (mid ++ [.acked t])) ++ post := by simp
  have h₁ : TraceOk lib identity (pre ++ [.acked s]) := by
    rw [hs₁] at h
    exact h.of_append
  have h₂ : TraceOk lib identity ((pre ++ [.acked s]) ++ (mid ++ [.acked t])) := by
    rw [hs₂] at h
    exact h.of_append
  have hevolves := h₂.queueEvolves
  have hj₁ : (view (pre ++ [.acked s])).journal = some s := by simp [JournalView.advance]
  have hj₂ : (view ((pre ++ [.acked s]) ++ (mid ++ [.acked t]))).journal = some t := by
    rw [← List.append_assoc, view_append_singleton]
    rfl
  have hn₁ := (h₁.viewOk.journal s hj₁).nonceQueue_next
  have hn₂ := (h₂.viewOk.journal t hj₂).nonceQueue_next
  rw [hj₁, hj₂] at hevolves
  exact ⟨by rw [← hn₁, ← hn₂]; exact hevolves.next_le, hevolves.first_le⟩

/-- An attempt stays in the committed journal until a recovery resolves it. -/
theorem TraceOk.retains_step {pre post : List Event} {e : Event} {r : JournalAttempt.Record}
    (h : TraceOk lib identity (pre ++ e :: post)) (hr : Retains pre r) :
    Retains (pre ++ [e]) r ∨ CommitsResolution r pre e := by
  obtain ⟨s, b, hs, hb, rfl⟩ := hr
  rcases h.journal_step with hkeep | ⟨w, next, hcommit, hw, hnext⟩
  · exact Or.inl ⟨s, b, by rw [hkeep, hs], hb, rfl⟩
  rw [hs] at hw
  have hmem : b.record ∈ s.attempts.map JournalAttempt.record := List.mem_map_of_mem hb
  have hkeep {l : List JournalAttempt.Record} (hl : b.record ∈ l)
      (hsub : l ⊆ next.attempts.map JournalAttempt.record) : Retains (pre ++ [e]) b.record := by
    obtain ⟨c, hc, hrec⟩ := List.mem_map.mp (hsub hl)
    exact ⟨next, c, hnext, hc, hrec⟩
  rcases hw.records with ⟨g, anchor, range, log, o, ev, a, rfl, hres⟩ | ⟨added, hadd⟩
  · rw [hres.oldest, List.mem_cons] at hb
    rcases hb with rfl | hb
    · exact Or.inr ⟨g, s, anchor, range, log, o, ev, next, b, hs, rfl, hres, hcommit,
        pending_written hcommit.1⟩
    · exact Or.inl ⟨next, b, hnext, hb, rfl⟩
  · exact Or.inl (hkeep hmem (by rw [hadd]; exact List.subset_append_left _ _))

theorem TraceOk.retains {pre post : List Event} {r : JournalAttempt.Record}
    (h : TraceOk lib identity (pre ++ post)) (hr : Retains pre r) :
    Retains (pre ++ post) r ∨
      ∃ a e b, post = a ++ e :: b ∧ CommitsResolution r (pre ++ a) e := by
  refine EachEvent.stays (P := fun tr => Retains tr r) ?_ hr
  intro a e b hab
  rw [hab] at h
  exact h.retains_step

end Commit

section Records

variable (lib : TransactionLibrary) (identity : JournalIdentity)

/-- Write-ahead: what is sent was acknowledged before, marked as possibly sent,
and stays in the committed journal until a recovery resolves it. -/
theorem sent_recorded (is : List Input) {pre post : List Event} {a : JournalAttempt}
    {payload : Bytes} {blockers : CoordinatorBlockers}
    (h : (runSigner lib identity is).2 = pre ++ .sent a payload blockers :: post) :
    ∃ s b, .acked s ∈ pre ∧ (view pre).journal = some s ∧ b ∈ s.attempts ∧ b.record = a.record ∧
      b.phase = .broadcastMayHaveOccurred ∧
      payload = b.signedTransactions.latest.signedTransaction ∧
      ∀ mid rest s', post = mid ++ .acked s' :: rest →
        (∃ b' ∈ s'.attempts, b'.record = b.record) ∨
        ∃ l e r, mid ++ [.acked s'] = l ++ e :: r ∧
          CommitsResolution b.record (pre ++ .sent a payload blockers :: l) e := by
  have htrace := (runSigner_follows lib identity is).1
  rw [h] at htrace
  obtain ⟨_, _, hconf, s, hs, b, hf, hrec, hphase, hpay, _, _⟩ :=
    htrace pre (.sent a payload blockers) post rfl
  obtain ⟨s', hs', hacked⟩ := confirmed_acked hconf
  obtain rfl := Option.some.inj (hs.symm.trans hs')
  have hb := (firstUnresolved_mem hf).1
  refine ⟨s, b, hacked, hs, hb, hrec, hphase, hpay, ?_⟩
  rintro mid rest s' rfl
  have hretains : Retains (pre ++ [.sent a payload blockers]) b.record :=
    ⟨s, b, by rw [view_append_singleton]; exact hs, hb, rfl⟩
  have hsplit : pre ++ .sent a payload blockers :: (mid ++ .acked s' :: rest) =
      ((pre ++ [.sent a payload blockers]) ++ (mid ++ [.acked s'])) ++ rest := by simp
  rw [hsplit] at htrace
  rcases TraceOk.retains htrace.of_append hretains with ⟨t, c, ht, hc, hcr⟩ | ⟨l, e, r, hl, hres⟩
  · left
    rw [← List.append_assoc, view_append_singleton] at ht
    obtain rfl : s' = t := Option.some.inj ht
    exact ⟨c, hc, hcr⟩
  · exact Or.inr ⟨l, e, r, hl, by simpa using hres⟩

section Sample

/-- A legacy transfer of account 7 with nonce 0. -/
def plainTransfer (signature : Option ℕ) : ParsedTransaction :=
  { type := .legacy, chainId := some 1, nonce := some 0, recipient := some 9, value := 0, data := [],
    gas := 21000, accessList := none, gasPrice := some 1, maxFeePerGas := none,
    maxPriorityFeePerGas := none, r := signature, s := signature, v := none, yParity := signature }

def signedBytes : Bytes := List.replicate 40 1

/-- A library that knows the transfer and its signed form. -/
def sampleLibrary : TransactionLibrary where
  keccak256 b := 1000 + b.length
  parseTransaction b := if b = signedBytes then some (plainTransfer (some 1)) else none
  serializeTransaction t := if t.r.isSome then some signedBytes else some (List.replicate 36 1)
  recoverTransactionAddress b := if b = signedBytes then some 7 else none

def sampleIdentity : JournalIdentity := ⟨1, 7⟩
def sampleAnchor : BlockAnchor := ⟨5, 50⟩
def sampleHead : BlockAnchor := ⟨6, 60⟩

def nonceReads (a : BlockAnchor) : RpcLog :=
  [anchorSeen a, nonceRead 7 (.at a.blockNumber) (some 0), anchorSeen a]

/-- Bootstrap, an inclusion pass, a preparation and its first broadcast. -/
def sampleActions : List Action :=
  [.restart false 10, .beginInspection, .callOwned 1 (.recover sampleAnchor 100), .startOperation,
    .answered (nonceReads sampleAnchor ++ [nonceRead 7 .latest (some 0),
      nonceRead 7 .pending (some 0), anchorSeen sampleAnchor]),
    .stored, .resume, .settleOperation,
    .callOwned 1 (.checkInclusions 0 sampleHead none), .startOperation,
    .answered (nonceReads sampleHead), .stored, .resume, .settleOperation, .finishInspection 1,
    .prepareAttempt [65] 77 7 ⟨9, [], 0, 21000, .legacy 1⟩, .signed (some signedBytes) true,
    .stored, .resume, .broadcastAttempt 77, .stored, .resume]

def sampleRun : List Input := sampleActions.map (⟨1, ·⟩)

def sampleAttempt : JournalAttempt :=
  { attemptId := 77
    workId := [65]
    nonce := 0
    createdAt := 1
    signedTransactions := ⟨⟨1040, signedBytes⟩, []⟩
    replacementSearch := some ⟨⟨sampleHead, 0⟩, none⟩
    phase := .signed }

theorem sampleRun_sent : (runSigner sampleLibrary sampleIdentity sampleRun).2 =
    (runSigner sampleLibrary sampleIdentity sampleRun).2.take 14 ++
      .sent sampleAttempt signedBytes ⟨false, false⟩ :: [] := rfl

theorem sampleRun_recorded : ∃ s b,
    .acked s ∈ (runSigner sampleLibrary sampleIdentity sampleRun).2.take 14 ∧
    b ∈ s.attempts ∧ b.phase = .broadcastMayHaveOccurred ∧
    signedBytes = b.signedTransactions.latest.signedTransaction := by
  obtain ⟨s, b, hacked, _, hb, _, hphase, hpay, _⟩ :=
    sent_recorded sampleLibrary sampleIdentity sampleRun sampleRun_sent
  exact ⟨s, b, hacked, hb, hphase, hpay⟩

end Sample

/-- Payloads with one nonce are one payload of one attempt, and the nonce counters
of acknowledged snapshots never decrease. -/
theorem sent_nonce_unique (is : List Input) :
    (∀ a b p q ba bb n, .sent a p ba ∈ (runSigner lib identity is).2 →
      .sent b q bb ∈ (runSigner lib identity is).2 →
      (lib.parseTransaction p).bind (·.nonce) = some n →
      (lib.parseTransaction q).bind (·.nonce) = some n →
      p = q ∧ a.attemptId = b.attemptId ∧ a.workId = b.workId ∧ a.record = b.record) ∧
    ∀ pre mid post s t,
      (runSigner lib identity is).2 = pre ++ .acked s :: (mid ++ .acked t :: post) →
      s.nextNonce ≤ t.nextNonce ∧ s.durableNextNonce ≤ t.durableNextNonce := by
  have htrace := (runSigner_follows lib identity is).1
  refine ⟨?_, ?_⟩
  · intro a b p q ba bb n ha hb hp hq
    have hrec : p = q ∧ a.record = b.record := by
      obtain ⟨pre, post, hsplit⟩ := List.append_of_mem ha
      rw [hsplit] at htrace hb
      rcases List.mem_append.mp hb with hb | hb
      · obtain ⟨pre', mid, rfl⟩ := List.append_of_mem hb
        rw [List.append_assoc, List.cons_append] at htrace
        obtain ⟨hpq, hr⟩ := htrace.sent_unique hq hp
        exact ⟨hpq.symm, hr.symm⟩
      rcases List.mem_cons.mp hb with hb | hb
      · obtain ⟨rfl, rfl, _⟩ := Event.sent.inj hb
        exact ⟨rfl, rfl⟩
      · obtain ⟨mid, post', rfl⟩ := List.append_of_mem hb
        exact htrace.sent_unique hp hq
    exact ⟨hrec.1, congrArg JournalAttempt.Record.attemptId hrec.2,
      congrArg JournalAttempt.Record.workId hrec.2, hrec.2⟩
  · intro pre mid post s t hsplit
    rw [hsplit] at htrace
    exact htrace.acked_counters

/-- An attempt leaves the committed journal only by the commit of a recovery that
read the anchor's nonce past it, and a canonical receipt or a linked scan. -/
theorem resolution_sound (is : List Input) :
    EachEvent (fun pre e => ∀ r, Retains pre r → Retains (pre ++ [e]) r ∨
      CommitsResolution r pre e) (runSigner lib identity is).2 := by
  have htrace := (runSigner_follows lib identity is).1
  intro pre e post h r hr
  rw [h] at htrace
  exact htrace.retains_step hr

end Records

end Quicknet
