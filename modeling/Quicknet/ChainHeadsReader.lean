import Quicknet.Library.Attempt
import Quicknet.Library.Transition
import Quicknet.RequestScanner

/-! The heads of the chain, and the reader that asks for the durable one at most once in an
interval as long as no read fails. -/
namespace Quicknet.Daemon
open Interaction

inductive BlockTag
  | safe
  | finalized
  deriving DecidableEq, Repr

inductive FinalityPolicy
  | tagged (tag : BlockTag)
  | confirmations (confirmations : ℤ)
  deriving DecidableEq, Repr

/-- The clock counts milliseconds and fractions of them. -/
inductive HeadsQuery
  | now
  | taggedBlock (tag : BlockTag)
  | blockNumber
  deriving DecidableEq, Repr

def HeadsQuery.Reply : HeadsQuery → Type
  | .now => ℚ
  | .taggedBlock _ => Except Failure ℕ
  | .blockNumber => Except Failure ℕ

abbrev Heads (α : Type) := Prog HeadsQuery.Reply Failure α
abbrev HeadsLog := List (Exchange HeadsQuery.Reply Failure)

/-- The number of a block, where a rejection is thrown. -/
def readNumber (q : HeadsQuery) (reply : q.Reply → Except Failure ℕ) : Heads ℕ :=
  Prog.readThen q reply

def getBlockNumber : Heads ℕ := readNumber .blockNumber id

def getDurableBlockNumber : FinalityPolicy → Heads ℕ
  | .tagged tag => readNumber (.taggedBlock tag) id
  | .confirmations confirmations =>
    if confirmations < 0 then .throw (.error "Finality confirmations must not be negative.")
    else do
      let latestBlock ← getBlockNumber
      if (latestBlock : ℤ) ≤ confirmations then return 0
      else return ((latestBlock : ℤ) - confirmations).toNat

def durableAhead (durableBlock latestBlock : ℕ) : Failure :=
  .error s!"Durable block {durableBlock} is ahead of latest block {latestBlock}."

/-- The heads, if the durable one is not ahead. -/
def headsFrom (durableBlock latestBlock : ℕ) : Except Failure ChainHeads :=
  if durableBlock > latestBlock then .error (durableAhead durableBlock latestBlock)
  else .ok ⟨latestBlock, durableBlock⟩

def getChainHeads (finality : FinalityPolicy) : Heads ChainHeads := do
  let durableBlock ← getDurableBlockNumber finality
  let latestBlock ← getBlockNumber
  Prog.lift (headsFrom durableBlock latestBlock)

structure CachedDurableHead where
  blockNumber : ℕ
  readStartedAt : ℚ
  deriving DecidableEq, Repr

/-- What a read with a tag returns, and what it leaves in the cache; a read that fails leaves
nothing. -/
def keepRead (readStartedAt : ℚ) : Except Failure ChainHeads →
    Except Failure ChainHeads × Option CachedDurableHead
  | .ok heads => (.ok heads, some ⟨heads.durableBlock, readStartedAt⟩)
  | .error e => (.error e, none)

def keepCached (previous : CachedDurableHead) : Except Failure ChainHeads →
    Except Failure ChainHeads × Option CachedDurableHead
  | .ok heads => (.ok heads, some previous)
  | .error e => (.error e, none)

/-- The cached head that is too young to be read again. -/
def usable (intervalMs : ℕ) (readStartedAt : ℚ) (cached : Option CachedDurableHead) :
    Option CachedDurableHead :=
  cached.filter fun previous => decide (readStartedAt - previous.readStartedAt < intervalMs)

/-- One call of the reader, with the cache before it and after it. -/
def readChainHeads (finality : FinalityPolicy) (intervalMs : ℕ)
    (cached : Option CachedDurableHead) :
    Heads (Except Failure ChainHeads × Option CachedDurableHead) :=
  match finality with
  | .confirmations confirmations => do
    let out ← (getChainHeads (.confirmations confirmations)).attempt
    return (out, cached)
  | .tagged tag => do
    let readStartedAt : ℚ ← Prog.ask HeadsQuery.now
    match usable intervalMs readStartedAt cached with
    | none =>
      let out ← (getChainHeads (.tagged tag)).attempt
      return keepRead readStartedAt out
    | some previous =>
      let latest ← getBlockNumber.attempt
      return keepCached previous (latest.bind (headsFrom previous.blockNumber))

/-! What one call does. -/

def startedRead (t : ℚ) : Exchange HeadsQuery.Reply Failure := ⟨.now, .ok t⟩

def taggedRead (tag : BlockTag) (n : ℕ) : Exchange HeadsQuery.Reply Failure :=
  ⟨.taggedBlock tag, .ok (.ok n : Except Failure ℕ)⟩

def numberRead (n : ℕ) : Exchange HeadsQuery.Reply Failure :=
  ⟨.blockNumber, .ok (.ok n : Except Failure ℕ)⟩

def isTagged : HeadsQuery → Bool
  | .taggedBlock _ => true
  | _ => false

section Calls

variable {log : HeadsLog} {heads : ChainHeads} {tag : BlockTag} {intervalMs : ℕ}
  {cached after : Option CachedDurableHead} {out : Except Failure ChainHeads}

theorem headsFrom_ok {durableBlock latestBlock : ℕ}
    (h : headsFrom durableBlock latestBlock = .ok heads) :
    heads = ⟨latestBlock, durableBlock⟩ ∧ durableBlock ≤ latestBlock := by
  unfold headsFrom at h
  split_ifs at h with hahead
  exact ⟨(Except.ok.inj h).symm, not_lt.mp hahead⟩

theorem getBlockNumber_ok {n : ℕ} :
    getBlockNumber.replay log = some (.ok n) ↔ log = [numberRead n] := by
  refine Prog.replay_readThen_ok_iff.trans ?_
  constructor
  · rintro ⟨r, rfl, hr⟩
    rw [show r = .ok n from hr]
    rfl
  · rintro rfl
    exact ⟨.ok n, rfl, rfl⟩

theorem getBlockNumber_only : getBlockNumber.Only (· = .blockNumber) := Prog.only_readThen rfl

/-- Heads that were returned, with the reads that they come from. -/
theorem getChainHeads_ok
    (h : (getChainHeads (.tagged tag)).replay log = some (.ok heads)) :
    heads.durableBlock ≤ heads.latestBlock ∧
      log = [taggedRead tag heads.durableBlock, numberRead heads.latestBlock] := by
  unfold getChainHeads at h
  obtain ⟨durableBlock, l₁, l₂, rfl, hdurable, h⟩ := Prog.replay_bind_ok_iff.mp h
  obtain ⟨latestBlock, l₃, l₄, rfl, hlatest, h⟩ := Prog.replay_bind_ok_iff.mp h
  obtain ⟨rfl, hheads⟩ := Prog.replay_lift_ok_iff.mp h
  obtain ⟨rfl, hle⟩ := headsFrom_ok hheads
  obtain ⟨r, rfl, hr⟩ := Prog.replay_readThen_ok_iff.mp hdurable
  rw [getBlockNumber_ok.mp hlatest, show r = .ok durableBlock from hr]
  exact ⟨hle, rfl⟩

theorem getChainHeads_confirmations_ok {confirmations : ℤ}
    (h : (getChainHeads (.confirmations confirmations)).replay log = some (.ok heads)) :
    heads.durableBlock ≤ heads.latestBlock ∧ 0 ≤ confirmations ∧
      ∃ n, log = [numberRead n, numberRead heads.latestBlock] ∧
        (heads.durableBlock : ℤ) = max 0 (n - confirmations) := by
  unfold getChainHeads getDurableBlockNumber at h
  obtain ⟨durableBlock, l₁, l₂, rfl, hdurable, h⟩ := Prog.replay_bind_ok_iff.mp h
  obtain ⟨latestBlock, l₃, l₄, rfl, hlatest, h⟩ := Prog.replay_bind_ok_iff.mp h
  obtain ⟨rfl, hheads⟩ := Prog.replay_lift_ok_iff.mp h
  obtain ⟨rfl, hle⟩ := headsFrom_ok hheads
  dsimp only at hdurable
  split_ifs at hdurable with hnegative
  · cases (Prog.replay_throw_iff.mp hdurable).2
  · obtain ⟨n, l₅, l₆, rfl, hn, hdurable⟩ := Prog.replay_bind_ok_iff.mp hdurable
    rw [getBlockNumber_ok.mp hn, getBlockNumber_ok.mp hlatest]
    have hreturned : l₆ = [] ∧ (durableBlock : ℤ) = max 0 (n - confirmations) := by
      split_ifs at hdurable with hle
      · obtain ⟨rfl, hout⟩ := Prog.replay_ret_iff.mp hdurable
        rw [Except.ok.inj hout]
        exact ⟨rfl, by omega⟩
      · obtain ⟨rfl, hout⟩ := Prog.replay_ret_iff.mp hdurable
        rw [Except.ok.inj hout]
        exact ⟨rfl, by omega⟩
    rw [hreturned.1]
    exact ⟨hle, not_lt.mp hnegative, n, rfl, hreturned.2⟩

/-- What a call with a tag does: it starts at a time of the clock and reads the tag, if there
is no cached head that is young enough, or only the latest block. -/
inductive TaggedCall (tag : BlockTag) (intervalMs : ℕ) (cached : Option CachedDurableHead)
    (log : HeadsLog) (out : Except Failure ChainHeads) (after : Option CachedDurableHead) : Prop
  | failed (t : ℚ) (rest : HeadsLog) (e : Failure) (hlog : log = startedRead t :: rest)
      (hold : (rest.any fun x => isTagged x.query) = true → usable intervalMs t cached = none)
      (hout : out = .error e) (hafter : after = none)
  | read (t : ℚ) (heads : ChainHeads) (hold : usable intervalMs t cached = none)
      (hlog : log = [startedRead t, taggedRead tag heads.durableBlock, numberRead heads.latestBlock])
      (hout : out = .ok heads) (hle : heads.durableBlock ≤ heads.latestBlock)
      (hafter : after = some ⟨heads.durableBlock, t⟩)
  | reused (t : ℚ) (previous : CachedDurableHead) (n : ℕ) (hcached : cached = some previous)
      (hyoung : t - previous.readStartedAt < intervalMs)
      (hlog : log = [startedRead t, numberRead n]) (hout : out = .ok ⟨n, previous.blockNumber⟩)
      (hle : previous.blockNumber ≤ n) (hafter : after = some previous)

theorem readChainHeads_tagged
    (h : (readChainHeads (.tagged tag) intervalMs cached).replay log = some (.ok (out, after))) :
    TaggedCall tag intervalMs cached log out after := by
  unfold readChainHeads at h
  obtain ⟨t, l₁, l₂, rfl, ht, h⟩ := Prog.replay_bind_ok_iff.mp h
  rw [Prog.replay_ask_ok_iff.mp ht]
  cases husable : usable intervalMs t cached with
  | none =>
    rw [husable] at h
    obtain ⟨read, l₃, l₄, rfl, hread, h⟩ := Prog.replay_bind_ok_iff.mp h
    obtain ⟨rfl, hout⟩ := Prog.replay_ret_iff.mp h
    have hread := Prog.replay_attempt hread
    cases read with
    | error e =>
      obtain ⟨rfl, rfl⟩ := Prod.mk.inj (Except.ok.inj hout)
      exact .failed t _ e rfl (fun _ => husable) rfl rfl
    | ok heads =>
      obtain ⟨rfl, rfl⟩ := Prod.mk.inj (Except.ok.inj hout)
      obtain ⟨hle, rfl⟩ := getChainHeads_ok hread
      exact .read t heads husable rfl rfl hle rfl
  | some previous =>
    rw [husable] at h
    obtain ⟨latest, l₃, l₄, rfl, hlatest, h⟩ := Prog.replay_bind_ok_iff.mp h
    obtain ⟨rfl, hout⟩ := Prog.replay_ret_iff.mp h
    obtain ⟨hcached, hyoung⟩ := Option.filter_eq_some_iff.mp husable
    cases hheads : latest.bind (headsFrom previous.blockNumber) with
    | error e =>
      rw [hheads] at hout
      obtain ⟨rfl, rfl⟩ := Prod.mk.inj (Except.ok.inj hout)
      refine .failed t _ e rfl (fun htag => ?_) rfl rfl
      -- only the latest block was asked for
      obtain ⟨x, hx, hxtag⟩ := List.any_eq_true.mp htag
      rw [List.append_nil] at hx
      have hquery : x.query = .blockNumber := getBlockNumber_only.attempt.log hlatest x hx
      rw [hquery] at hxtag
      cases hxtag
    | ok heads =>
      rw [hheads] at hout
      obtain ⟨rfl, rfl⟩ := Prod.mk.inj (Except.ok.inj hout)
      cases latest with
      | error e => cases hheads
      | ok n =>
        obtain ⟨rfl, hle⟩ := headsFrom_ok hheads
        rw [getBlockNumber_ok.mp (Prog.replay_attempt hlatest)]
        exact .reused t previous n hcached (of_decide_eq_true hyoung) rfl rfl hle rfl

end Calls

/-! Calls one after the other. -/

structure HeadsCall where
  log : HeadsLog
  out : Except Failure ChainHeads

def startOf : Exchange HeadsQuery.Reply Failure → Option ℚ
  | ⟨.now, .ok t⟩ => some t
  | _ => none

def HeadsCall.startedAt (call : HeadsCall) : Option ℚ := call.log.head?.bind startOf

def HeadsCall.succeeded (call : HeadsCall) : Bool := call.out.toOption.isSome

def HeadsCall.readsTag (call : HeadsCall) : Bool := call.log.any fun x => isTagged x.query

/-- The calls of one reader, which are made one at a time, and the cache after them. -/
inductive Reads (finality : FinalityPolicy) (intervalMs : ℕ) :
    Option CachedDurableHead → List HeadsCall → Prop
  | start : Reads finality intervalMs none []
  | call {cached after : Option CachedDurableHead} {history : List HeadsCall} {log : HeadsLog}
      {out : Except Failure ChainHeads} (before : Reads finality intervalMs cached history)
      (hlog : (readChainHeads finality intervalMs cached).replay log = some (.ok (out, after))) :
      Reads finality intervalMs after (history ++ [⟨log, out⟩])

/-- The calls from one on, none of which failed. -/
def Unbroken (history : List HeadsCall) (source : HeadsCall) (between : List HeadsCall) : Prop :=
  ∃ before, history = before ++ source :: between ∧ ∀ c ∈ source :: between, c.succeeded = true

/-- A call that reads the durable head starts an interval after every earlier one that did, if
no call has failed since. -/
def Spaced (intervalMs : ℕ) (history : List HeadsCall) (call : HeadsCall) : Prop :=
  call.readsTag = true → ∀ source between, Unbroken history source between →
    source.readsTag = true →
      ∃ t t', source.startedAt = some t ∧ call.startedAt = some t' ∧ (intervalMs : ℚ) ≤ t' - t

/-- What the cache says of the calls before. -/
structure CacheInv (tag : BlockTag) (cached : Option CachedDurableHead)
    (history : List HeadsCall) : Prop where
  source : ∀ c, cached = some c → ∃ source between, Unbroken history source between ∧
    source.startedAt = some c.readStartedAt ∧ taggedRead tag c.blockNumber ∈ source.log
  last : ∀ c, cached = some c → ∀ source between, Unbroken history source between →
    source.readsTag = true → ∃ t, source.startedAt = some t ∧ t ≤ c.readStartedAt
  broken : cached = none → ∀ source between, ¬ Unbroken history source between

section Runs

variable {tag : BlockTag} {intervalMs : ℕ} {cached after : Option CachedDurableHead}
  {history between : List HeadsCall} {call source : HeadsCall}

theorem Unbroken.append (h : Unbroken history source between) (hcall : call.succeeded = true) :
    Unbroken (history ++ [call]) source (between ++ [call]) := by
  obtain ⟨before, rfl, hall⟩ := h
  refine ⟨before, by simp, ?_⟩
  intro c hc
  rw [← List.cons_append] at hc
  rcases List.mem_append.mp hc with hc | hc
  · exact hall c hc
  · rw [List.mem_singleton.mp hc]
    exact hcall

theorem unbroken_single (hcall : call.succeeded = true) : Unbroken (history ++ [call]) call [] :=
  ⟨history, rfl, fun _ hc => List.mem_singleton.mp hc ▸ hcall⟩

/-- A call that follows either is where the unbroken calls start, or has not failed after them. -/
theorem Unbroken.split (h : Unbroken (history ++ [call]) source between) :
    call.succeeded = true ∧ ((source = call ∧ between = []) ∨
      ∃ rest, between = rest ++ [call] ∧ Unbroken history source rest) := by
  obtain ⟨before, hsplit, hall⟩ := h
  rcases Transition.append_singleton_split hsplit with ⟨_, rfl, rfl⟩ | ⟨rest, rfl, hhistory⟩
  · exact ⟨hall call List.mem_cons_self, Or.inl ⟨rfl, rfl⟩⟩
  · refine ⟨hall call (by simp), Or.inr ⟨rest, rfl, before, hhistory, fun c hc => hall c ?_⟩⟩
    rw [← List.cons_append]
    exact List.mem_append_left _ hc

theorem cacheInv_start : CacheInv tag none [] where
  source c hc := by cases hc
  last c hc := by cases hc
  broken _ source between := by
    rintro ⟨before, hsplit, _⟩
    simp at hsplit

/-- What one call keeps. -/
theorem CacheInv.step {log : HeadsLog} {out : Except Failure ChainHeads}
    (h : CacheInv tag cached history)
    (hcall : TaggedCall tag intervalMs cached log out after) :
    CacheInv tag after (history ++ [⟨log, out⟩]) := by
  cases hcall with
  | failed t rest e hlog hold hout hafter =>
    subst hout hafter
    refine ⟨fun c hc => (by cases hc), fun c hc => (by cases hc), fun _ source between hun => ?_⟩
    cases hun.split.1
  | read t heads hold hlog hout hle hafter =>
    subst hlog hout hafter
    refine ⟨?_, ?_, fun hnone => (by cases hnone)⟩
    · intro c hc
      obtain rfl := Option.some.inj hc
      exact ⟨_, [], unbroken_single rfl, rfl, by simp⟩
    · intro c hc source between hun htag
      obtain rfl := Option.some.inj hc
      rcases hun.split.2 with ⟨rfl, _⟩ | ⟨rest, _, hun⟩
      · exact ⟨t, rfl, le_rfl⟩
      · -- the calls before, where the cached head was too old
        cases hcached : cached with
        | none => exact absurd hun (h.broken hcached source rest)
        | some c =>
          obtain ⟨t₀, ht₀, hle₀⟩ := h.last c hcached source rest hun htag
          refine ⟨t₀, ht₀, hle₀.trans ?_⟩
          rw [hcached] at hold
          have hyoung : ¬ t - c.readStartedAt < intervalMs := by simpa [usable] using hold
          have hnonneg : (0 : ℚ) ≤ intervalMs := Nat.cast_nonneg _
          linarith
  | reused t previous n hcached hyoung hlog hout hle hafter =>
    subst hlog hout hafter
    refine ⟨?_, ?_, fun hnone => (by cases hnone)⟩
    · intro c hc
      obtain rfl := Option.some.inj hc
      obtain ⟨source, between, hun, hstart, htag⟩ := h.source previous hcached
      exact ⟨source, _, hun.append rfl, hstart, htag⟩
    · intro c hc source between hun htag
      obtain rfl := Option.some.inj hc
      rcases hun.split.2 with ⟨rfl, _⟩ | ⟨rest, _, hun⟩
      · cases htag
      · exact h.last previous hcached source rest hun htag

theorem spaced_call {log : HeadsLog} {out : Except Failure ChainHeads}
    (h : CacheInv tag cached history) (hcall : TaggedCall tag intervalMs cached log out after) :
    Spaced intervalMs history ⟨log, out⟩ := by
  intro hreads source between hun htag
  -- the cached head was too old, and it is of the last call that read the tag
  have hspaced (t : ℚ) (rest : HeadsLog) (hold : usable intervalMs t cached = none)
      (hlog : log = startedRead t :: rest) :
      ∃ t₀ t', source.startedAt = some t₀ ∧ HeadsCall.startedAt ⟨log, out⟩ = some t' ∧
        (intervalMs : ℚ) ≤ t' - t₀ := by
    subst hlog
    cases hcached : cached with
    | none => exact absurd hun (h.broken hcached source between)
    | some c =>
      obtain ⟨t₀, ht₀, hle₀⟩ := h.last c hcached source between hun htag
      rw [hcached] at hold
      have hage : ¬ t - c.readStartedAt < intervalMs := by simpa [usable] using hold
      exact ⟨t₀, t, ht₀, rfl, by linarith⟩
  cases hcall with
  | failed t rest e hlog hold hout hafter =>
    subst hlog
    exact hspaced t rest (hold hreads) rfl
  | read t heads hold hlog hout hle hafter => exact hspaced t _ hold hlog
  | reused t previous n hcached hyoung hlog hout hle hafter =>
    subst hlog
    cases hreads

theorem Reads.cacheInv (h : Reads (.tagged tag) intervalMs cached history) :
    CacheInv tag cached history := by
  induction h with
  | start => exact cacheInv_start
  | call before hlog ih => exact ih.step (readChainHeads_tagged hlog)

/-- Three calls: the second reuses the head of the first, the third reads it again. -/
def threeCalls : List HeadsCall :=
  [⟨[startedRead 0, taggedRead .safe 7, numberRead 9], .ok ⟨9, 7⟩⟩,
    ⟨[startedRead 10000, numberRead 10], .ok ⟨10, 7⟩⟩,
    ⟨[startedRead 30000, taggedRead .safe 8, numberRead 12], .ok ⟨12, 8⟩⟩]

theorem threeCalls_reads : Reads (.tagged .safe) 30000 (some ⟨8, 30000⟩) threeCalls := by
  have hyoung : usable 30000 10000 (some ⟨7, 0⟩) = some ⟨7, 0⟩ := by norm_num [usable]
  have hold : usable 30000 30000 (some ⟨7, 0⟩) = none := by norm_num [usable]
  have hfirst : Reads (.tagged .safe) 30000 (some ⟨7, 0⟩) (threeCalls.take 1) :=
    Reads.call Reads.start (by rfl)
  have hsecond : Reads (.tagged .safe) 30000 (some ⟨7, 0⟩) (threeCalls.take 2) := by
    refine Reads.call hfirst (Prog.replay_bind_ok_iff.mpr
      ⟨10000, [startedRead 10000], [numberRead 10], rfl, Prog.replay_ask_ok_iff.mpr rfl, ?_⟩)
    rw [hyoung]
    rfl
  refine Reads.call hsecond (Prog.replay_bind_ok_iff.mpr
    ⟨30000, [startedRead 30000], [taggedRead .safe 8, numberRead 12], rfl,
      Prog.replay_ask_ok_iff.mpr rfl, ?_⟩)
  rw [hold]
  rfl

/-- In every run of a reader with a tag, the calls that ask for the durable head are an interval
apart as long as no call fails. -/
theorem tag_reads_spaced (h : Reads (.tagged tag) intervalMs cached history) :
    Transition.EachEvent (Spaced intervalMs) history := by
  induction h with
  | start => exact Transition.eachEvent_nil _
  | call before hlog ih =>
    exact ih.append_singleton (spaced_call before.cacheInv (readChainHeads_tagged hlog))

theorem threeCalls_spaced : Transition.EachEvent (Spaced 30000) threeCalls :=
  tag_reads_spaced threeCalls_reads

/-- Under confirmations nothing is cached: each call computes the durable head from a block
number of its own. -/
theorem heads_confirmations {confirmations : ℤ}
    (h : Reads (.confirmations confirmations) intervalMs cached history) :
    ∀ call ∈ history, ∀ heads, call.out = .ok heads →
      heads.durableBlock ≤ heads.latestBlock ∧
        ∃ n, call.log = [numberRead n, numberRead heads.latestBlock] ∧
          (heads.durableBlock : ℤ) = max 0 (n - confirmations) := by
  induction h with
  | start => exact fun call hcall => absurd hcall List.not_mem_nil
  | call before hlog ih =>
    intro call hcall heads hheads
    rcases List.mem_append.mp hcall with hcall | hcall
    · exact ih call hcall heads hheads
    · rw [List.mem_singleton.mp hcall] at hheads ⊢
      unfold readChainHeads at hlog
      obtain ⟨read, l₁, l₂, rfl, hread, hlog⟩ := Prog.replay_bind_ok_iff.mp hlog
      obtain ⟨rfl, hout⟩ := Prog.replay_ret_iff.mp hlog
      obtain ⟨rfl, _⟩ := Prod.mk.inj (Except.ok.inj hout)
      dsimp only at hheads
      rw [hheads] at hread
      obtain ⟨hle, _, n, hlog, hdurable⟩ :=
        getChainHeads_confirmations_ok (Prog.replay_attempt hread)
      rw [List.append_nil]
      exact ⟨hle, n, hlog, hdurable⟩

end Runs

end Quicknet.Daemon
