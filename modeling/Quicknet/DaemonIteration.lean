import Quicknet.DurableRequests
import Quicknet.CheckpointStore

/-! One iteration of the daemon for one consumer: the durable pass from the saved
checkpoint, the save of what it verified, and the soft scan above it. -/
namespace Quicknet.Daemon
open Interaction

/-- The options that decide what an iteration does; `softCursor` is its `nextBlock`. -/
structure IterationOptions where
  consumer : Address
  startBlock : ℕ
  maxBlockRange : ℕ
  softCursor : Option ℕ
  deriving DecidableEq, Repr

structure ProcessedDaemonScan where
  fromBlock : ℕ
  toBlock : ℕ
  nextBlock : ℕ
  rounds : List (ℕ × CompletedImportResult)
  reconciliation : Option DurableRequestResult
  deriving DecidableEq, Repr

inductive IterationStatus
  | caughtUp
  | processed
  | deferred
  deriving DecidableEq, Repr

structure RunDaemonIterationResult where
  status : IterationStatus
  latestBlock : ℕ
  durableBlock : ℕ
  durableNextBlock : ℕ
  durableHeadRegressed : Bool
  softCursor : ℕ
  durableScan : Option ProcessedDaemonScan
  softScan : Option ProcessedDaemonScan
  deriving DecidableEq, Repr

def aggregateError : Failure :=
  .error "Checkpoint persistence failed after a round import failed."

/-- What follows the save of a checkpoint. -/
def afterSave (imports : List QuicknetRoundOutcome) (nextBlock : ℕ) :
    Except Failure Unit → Except Failure ℕ
  | .ok () => .ok nextBlock
  | .error saveError =>
    if (imports.findSome? QuicknetRoundOutcome.failure?).isSome then .error aggregateError
    else .error saveError

/-- The save of a verified checkpoint that moves forward, and the next durable
block after it. -/
def saveVerified (consumer : Address) (durableNextBlock : ℕ) (result : DurableRequestResult) :
    Async ℕ := do
  match result.checkpoint with
  | .verified nextBlock =>
    if nextBlock > durableNextBlock then
      let saved ← Prog.ask (DaemonQuery.saveCheckpoint consumer nextBlock)
      Prog.lift (afterSave result.imports nextBlock saved)
    else return durableNextBlock
  | _ => return durableNextBlock

def durableScanOf (durableNextBlock : ℕ) : DurableRequestResult → Option ProcessedDaemonScan
  | .scanned fromBlock toBlock anchor imports fulfillment checkpoint =>
    some ⟨fromBlock, toBlock, durableNextBlock,
      imports.filterMap QuicknetRoundOutcome.completed?,
      some (.scanned fromBlock toBlock anchor imports fulfillment checkpoint)⟩
  | _ => none

/-- The durable half, from a saved checkpoint at or below the durable head. -/
def durablePhase (options : IterationOptions) (durableNextBlock : ℕ) (heads : ChainHeads) :
    Async (ℕ × Option ProcessedDaemonScan) := do
  if durableNextBlock ≤ heads.durableBlock then
    let result ← reconcileDurableRequests options.consumer durableNextBlock heads.durableBlock
      options.maxBlockRange
    observe .onReconciliation
    let next ← saveVerified options.consumer durableNextBlock result
    match result.imports.findSome? QuicknetRoundOutcome.failure? with
    | some e => .throw e
    | none => return (next, durableScanOf next result)
  else
    return (durableNextBlock, none)

def getSoftNextBlock (softCursor : Option ℕ) (durableNextBlock durableBlock : ℕ) : ℕ :=
  let firstNonDurableBlock := durableBlock + 1
  let minimumSoftBlock :=
    if firstNonDurableBlock > durableNextBlock then firstNonDurableBlock else durableNextBlock
  match softCursor with
  | none => minimumSoftBlock
  | some nextBlock => if nextBlock < minimumSoftBlock then minimumSoftBlock else nextBlock

/-- The soft half; its cursor moves only after the whole range was processed. -/
def softPhase (options : IterationOptions) (softNextBlock : ℕ) (heads : ChainHeads) :
    Async (ℕ × Option ProcessedDaemonScan) := do
  throwIfAborted
  let scan ← scanQuicknetRequests [options.consumer] softNextBlock heads.latestBlock
    options.maxBlockRange
  throwIfAborted
  match scan with
  | .caughtUp _ _ => return (softNextBlock, none)
  | .scanned _ fromBlock toBlock nextBlock requests =>
    let rounds ← processQuicknetRequests .soft requests
    throwIfAborted
    return (nextBlock, some ⟨fromBlock, toBlock, nextBlock, rounds, none⟩)

def iterationStatus (durableScan softScan : Option ProcessedDaemonScan)
    (durableNextBlock durableBlock : ℕ) : IterationStatus :=
  if durableScan.isSome || softScan.isSome then .processed
  else if durableNextBlock ≤ durableBlock then .deferred
  else .caughtUp

/-- The half of an iteration after its checkpoint and heads are known. -/
def scanPhases (options : IterationOptions) (checkpoint : Option ℕ) (heads : ChainHeads) :
    Async RunDaemonIterationResult := do
  let durableHeadRegressed :=
    match checkpoint with
    | some c => decide (0 < c) && decide (heads.durableBlock < c - 1)
    | none => false
  let (durableNextBlock, durableScan) ←
    durablePhase options (checkpoint.getD options.startBlock) heads
  let softNextBlock := getSoftNextBlock options.softCursor durableNextBlock heads.durableBlock
  let (softCursor, softScan) ← softPhase options softNextBlock heads
  return {
    status := iterationStatus durableScan softScan durableNextBlock heads.durableBlock
    latestBlock := heads.latestBlock
    durableBlock := heads.durableBlock
    durableNextBlock := durableNextBlock
    durableHeadRegressed := durableHeadRegressed
    softCursor := softCursor
    durableScan := durableScan
    softScan := softScan }

def runDaemonIteration (options : IterationOptions) : Async RunDaemonIterationResult := do
  if options.maxBlockRange = 0 then
    .throw (.error "maxBlockRange must be greater than zero.")
  else
    throwIfAborted
    let checkpoint ← awaitOrThrow (Prog.ask (DaemonQuery.loadCheckpoint options.consumer))
    throwIfAborted
    let heads ← awaitOrThrow (Prog.ask DaemonQuery.chainHeads)
    throwIfAborted
    scanPhases options checkpoint heads

/-! The checkpoint reads and writes of an iteration: one load, and at most one
save, which ends the durable half. -/

def loadRead (consumer : Address) (checkpoint : Option ℕ) : Exchange DaemonQuery.Reply Failure :=
  ⟨.loadCheckpoint consumer, .ok (.ok checkpoint : Except Failure (Option ℕ))⟩

def headsRead (heads : ChainHeads) : Exchange DaemonQuery.Reply Failure :=
  ⟨.chainHeads, .ok (.ok heads : Except Failure ChainHeads)⟩

/-- Not an access to the checkpoint store. -/
def OffStore : DaemonQuery → Prop
  | .loadCheckpoint _ => False
  | .saveCheckpoint _ _ => False
  | _ => True

/-- What a pass over the events from `fromBlock` asks. -/
def ScansFrom (consumer : Address) (fromBlock : ℕ) : DaemonQuery → Prop
  | .loadCheckpoint _ => False
  | .saveCheckpoint _ _ => False
  | .chainHeads => False
  | .logs consumers start _ => consumers = [consumer] ∧ start = fromBlock
  | _ => True

theorem ScansFrom.offStore {consumer : Address} {fromBlock : ℕ} {q : DaemonQuery}
    (h : ScansFrom consumer fromBlock q) : OffStore q := by
  cases q <;> first | exact trivial | exact h

theorem ProcessQuery.scansFrom {consumer : Address} {fromBlock : ℕ} {q : DaemonQuery}
    (h : ProcessQuery q) : ScansFrom consumer fromBlock q := by
  cases q <;> first | exact trivial | exact h.elim

theorem awaitOrThrow_only {α : Type} {S : DaemonQuery → Prop} {p : Async (Except Failure α)}
    (h : p.Only S) : (awaitOrThrow p).Only S := by
  apply Prog.Only.bind h
  intro reply
  cases reply <;> exact trivial

/-- The load is one exchange, whatever its reply. -/
theorem awaitLoad_log {consumer : Address} {log : DaemonLog} {out : Except Failure (Option ℕ)}
    (h : (awaitOrThrow (Prog.ask (DaemonQuery.loadCheckpoint consumer))).replay log = some out) :
    ∃ reply, log = [⟨.loadCheckpoint consumer, reply⟩] := by
  rcases Prog.replay_read_iff.mp h with ⟨e, rfl, _⟩ | ⟨r, rest, rfl, hrest⟩
  · exact ⟨_, rfl⟩
  · have hnil : rest = [] := by
      cases r with
      | ok a => exact (Prog.replay_ret_iff.mp hrest).1
      | error e => exact (Prog.replay_throw_iff.mp hrest).1
    rw [hnil]
    exact ⟨_, rfl⟩

section Scans
variable {consumer : Address} {fromBlock : ℕ}

theorem scan_scansFrom (throughBlock maxBlockRange : ℕ) :
    (scanQuicknetRequests [consumer] fromBlock throughBlock maxBlockRange).Only
      (ScansFrom consumer fromBlock) := by
  have hrequests (toBlock : ℕ) :
      (getQuicknetRandomnessRequests [consumer] fromBlock toBlock).Only
        (ScansFrom consumer fromBlock) := by
    unfold getQuicknetRandomnessRequests
    split
    · exact trivial
    · rw [if_neg (by simp)]
      apply Prog.Only.bind
      · apply awaitOrThrow_only
        apply Prog.only_ask
        show [consumer] = [consumer] ∧ fromBlock = fromBlock
        exact ⟨rfl, rfl⟩
      · exact fun _ => Prog.only_lift _
  unfold scanQuicknetRequests
  split
  · exact trivial
  · split
    · exact trivial
    · exact (hrequests _).bind fun _ => trivial

theorem tryBlockAnchor_scansFrom (n : ℕ) :
    (tryBlockAnchor n).Only (ScansFrom consumer fromBlock) := by
  apply Prog.Only.bind (Prog.only_ask trivial)
  intro reply
  cases reply with
  | error e => exact trivial
  | ok block =>
    dsimp only
    split
    · split <;> exact trivial
    · exact trivial

theorem readFulfillments_scansFrom (anchor : BlockAnchor) (outcomes : List QuicknetRoundOutcome)
    (nextBlock : ℕ) :
    (readFulfillments anchor nextBlock outcomes).Only (ScansFrom consumer fromBlock) := by
  induction outcomes generalizing nextBlock with
  | nil => exact trivial
  | cons outcome rest ih =>
    have hread : (readFulfillment outcome.round anchor).Only (ScansFrom consumer fromBlock) := by
      apply Prog.Only.bind (Prog.only_ask trivial)
      intro reply
      split <;> exact trivial
    apply hread.bind
    intro _
    apply (throwIfAborted_only trivial).bind
    intro _
    exact (ih _).bind fun _ => trivial

theorem decideCheckpoint_scansFrom (anchor : BlockAnchor) (nextBlock : ℕ) :
    (decideCheckpoint anchor nextBlock).Only (ScansFrom consumer fromBlock) := by
  apply (tryBlockAnchor_scansFrom _).bind
  intro reply
  cases reply with
  | error e => exact trivial
  | ok after =>
    dsimp only
    split <;> exact trivial

theorem process_scansFrom (scan : ScanType) (requests : List QuicknetRandomnessRequest) :
    (processQuicknetRequestsWithOutcomes scan requests).Only (ScansFrom consumer fromBlock) :=
  (process_only scan requests).mono fun _ => ProcessQuery.scansFrom

/-- The events are read from the block that the pass was given, and from no other. -/
theorem reconcile_scansFrom (durableBlock maxBlockRange : ℕ) :
    (reconcileDurableRequests consumer fromBlock durableBlock maxBlockRange).Only
      (ScansFrom consumer fromBlock) := by
  unfold reconcileDurableRequests
  split
  · exact trivial
  · apply (throwIfAborted_only trivial).bind
    intro _
    split
    · exact trivial
    · apply (tryBlockAnchor_scansFrom _).bind
      intro reply
      cases reply with
      | error e => exact (throwIfAborted_only trivial).bind fun _ => trivial
      | ok anchor =>
        apply (throwIfAborted_only trivial).bind
        intro _
        apply (scan_scansFrom _ _).bind
        intro scan
        cases scan with
        | caughtUp _ _ => exact trivial
        | scanned _ start toBlock next requests =>
          dsimp only
          split
          · exact trivial
          · apply (process_scansFrom _ _).bind
            intro _
            apply (throwIfAborted_only trivial).bind
            intro _
            apply (readFulfillments_scansFrom _ _ _).bind
            intro _
            apply (decideCheckpoint_scansFrom _ _).bind
            intro _
            exact (throwIfAborted_only trivial).bind fun _ => trivial

end Scans

theorem reconcile_offStore (consumer : Address) (nextBlock durableBlock maxBlockRange : ℕ) :
    (reconcileDurableRequests consumer nextBlock durableBlock maxBlockRange).Only OffStore :=
  (reconcile_scansFrom _ _).mono fun _ => ScansFrom.offStore

theorem softPhase_scansFrom (options : IterationOptions) (softNextBlock : ℕ) (heads : ChainHeads) :
    (softPhase options softNextBlock heads).Only (ScansFrom options.consumer softNextBlock) := by
  apply (throwIfAborted_only trivial).bind
  intro _
  apply (scan_scansFrom _ _).bind
  intro scan
  apply (throwIfAborted_only trivial).bind
  intro _
  cases scan with
  | caughtUp _ _ => exact trivial
  | scanned _ fromBlock toBlock next requests =>
    apply Prog.Only.bind
    · apply (process_scansFrom _ _).bind
      intro outcomes
      split <;> exact trivial
    · intro _
      exact (throwIfAborted_only trivial).bind fun _ => trivial

theorem softPhase_offStore (options : IterationOptions) (softNextBlock : ℕ) (heads : ChainHeads) :
    (softPhase options softNextBlock heads).Only OffStore :=
  (softPhase_scansFrom _ _ _).mono fun _ => ScansFrom.offStore

/-- The soft half starts above the durable head. -/
theorem lt_getSoftNextBlock (softCursor : Option ℕ) (durableNextBlock durableBlock : ℕ) :
    durableBlock < getSoftNextBlock softCursor durableNextBlock durableBlock := by
  unfold getSoftNextBlock
  cases softCursor <;> dsimp only <;> split <;> try split
  all_goals omega

/-- The heads are not asked again, and events at and below the durable head are
read from the block `start`. -/
def ScansDurable (consumer : Address) (start durableBlock : ℕ) : DaemonQuery → Prop
  | .chainHeads => False
  | .logs consumers fromBlock _ =>
    consumers = [consumer] ∧ (fromBlock = start ∨ durableBlock < fromBlock)
  | _ => True

theorem ScansFrom.durable {consumer : Address} {fromBlock start durableBlock : ℕ} {q : DaemonQuery}
    (h : ScansFrom consumer fromBlock q) (hfrom : fromBlock = start ∨ durableBlock < fromBlock) :
    ScansDurable consumer start durableBlock q := by
  cases q with
  | logs consumers f toBlock =>
    obtain ⟨hconsumers, rfl⟩ := h
    exact ⟨hconsumers, hfrom⟩
  | chainHeads => exact h
  | _ => exact trivial

theorem scanPhases_scansDurable (options : IterationOptions) (checkpoint : Option ℕ)
    (heads : ChainHeads) :
    (scanPhases options checkpoint heads).Only
      (ScansDurable options.consumer (checkpoint.getD options.startBlock) heads.durableBlock) := by
  have hdurable : (durablePhase options (checkpoint.getD options.startBlock) heads).Only
      (ScansDurable options.consumer (checkpoint.getD options.startBlock) heads.durableBlock) := by
    unfold durablePhase
    split
    · apply ((reconcile_scansFrom _ _).mono fun q h => h.durable (Or.inl rfl)).bind
      intro result
      apply (observe_only trivial).bind
      intro _
      apply Prog.Only.bind
      · unfold saveVerified
        split
        · split
          · exact (Prog.only_ask trivial).bind fun _ => Prog.only_lift _
          · exact trivial
        · exact trivial
      · intro next
        split <;> exact trivial
    · exact trivial
  unfold scanPhases
  apply hdurable.bind
  rintro ⟨next, scan⟩
  apply Prog.Only.bind
  · apply (softPhase_scansFrom _ _ _).mono
    intro q h
    exact h.durable (Or.inr (lt_getSoftNextBlock _ _ _))
  · exact fun _ => trivial

theorem replay_lift_log {α : Type} {x : Except Failure α} {log : DaemonLog}
    {out : Except Failure α} (h : (Prog.lift x : Async α).replay log = some out) : log = [] := by
  cases x with
  | ok a => exact (Prog.replay_ret_iff.mp h).1
  | error e => exact (Prog.replay_throw_iff.mp h).1

/-- Every save of a log is of this checkpoint, and rests on a durable pass before it. -/
def SavesPass (options : IterationOptions) (fromBlock durableBlock : ℕ) (log : DaemonLog) : Prop :=
  ∀ x ∈ log, (∀ c, x.query ≠ .loadCheckpoint c) ∧
    ∀ c n, x.query = .saveCheckpoint c n → c = options.consumer ∧ fromBlock < n ∧
      ∃ anchor toBlock logs, anchor.blockNumber = durableBlock ∧
        DurablePass log options.consumer fromBlock n anchor toBlock logs

theorem OffStore.ne {q : DaemonQuery} (h : OffStore q) :
    (∀ c, q ≠ .loadCheckpoint c) ∧ ∀ c n, q ≠ .saveCheckpoint c n := by
  constructor
  · rintro c rfl
    exact h
  · rintro c n rfl
    exact h

theorem savesPass_of_offStore {options : IterationOptions} {fromBlock durableBlock : ℕ}
    {log : DaemonLog} (h : ∀ x ∈ log, OffStore x.query) :
    SavesPass options fromBlock durableBlock log :=
  fun x hx => ⟨(h x hx).ne.1, fun c n hn => absurd hn ((h x hx).ne.2 c n)⟩

/-- Exchanges away from the store may stand around. -/
theorem SavesPass.append {options : IterationOptions} {fromBlock durableBlock : ℕ}
    {a log b : DaemonLog} (h : SavesPass options fromBlock durableBlock log)
    (ha : ∀ x ∈ a, OffStore x.query) (hb : ∀ x ∈ b, OffStore x.query) :
    SavesPass options fromBlock durableBlock (a ++ log ++ b) := by
  intro x hx
  rcases List.mem_append.mp hx with hx | hx
  · rcases List.mem_append.mp hx with hx | hx
    · exact ⟨(ha x hx).ne.1, fun c n hn => absurd hn ((ha x hx).ne.2 c n)⟩
    · refine ⟨(h x hx).1, fun c n hn => ?_⟩
      obtain ⟨hc, hlt, anchor, toBlock, logs, hanchor, hpass⟩ := (h x hx).2 c n hn
      exact ⟨hc, hlt, anchor, toBlock, logs, hanchor, hpass.append a b⟩
  · exact ⟨(hb x hx).ne.1, fun c n hn => absurd hn ((hb x hx).ne.2 c n)⟩

/-- The durable half saves nothing but what its pass verified. -/
theorem durablePhase_savesPass {options : IterationOptions} {durableNextBlock : ℕ}
    {heads : ChainHeads} {log : DaemonLog} {out : Except Failure (ℕ × Option ProcessedDaemonScan)}
    (h : (durablePhase options durableNextBlock heads).replay log = some out) :
    SavesPass options durableNextBlock heads.durableBlock log := by
  unfold durablePhase at h
  split at h
  · simp only [Prog.bind_eq] at h
    rcases Prog.replay_bind_iff.mp h with ⟨e, _, h⟩ | ⟨result, l₁, l₂, rfl, hreconcile, h⟩
    · exact savesPass_of_offStore ((reconcile_offStore _ _ _ _).log h)
    have hoff₁ := (reconcile_offStore _ _ _ _).log hreconcile
    rcases Prog.replay_bind_iff.mp h with ⟨e, _, h⟩ | ⟨⟨⟩, l₃, l₄, rfl, hobserve, h⟩
    · have hoff := (observe_only (S := OffStore) (q := .onReconciliation) trivial).log h
      exact savesPass_of_offStore fun x hx => (List.mem_append.mp hx).elim (hoff₁ x) (hoff x)
    have hoff₃ := (observe_only (S := OffStore) (q := .onReconciliation) trivial).log hobserve
    have hoff : ∀ x ∈ l₁ ++ l₃, OffStore x.query :=
      fun x hx => (List.mem_append.mp hx).elim (hoff₁ x) (hoff₃ x)
    -- the log of the save itself, whatever came of it
    have hsave {log : DaemonLog} {out : Except Failure ℕ}
        (h : (saveVerified options.consumer durableNextBlock result).replay log = some out) :
        SavesPass options durableNextBlock heads.durableBlock (l₁ ++ l₃ ++ log) := by
      unfold saveVerified at h
      cases hcheckpoint : result.checkpoint with
      | anchorChanged observed =>
        rw [hcheckpoint] at h
        rw [(Prog.replay_ret_iff.mp h).1, List.append_nil]
        exact savesPass_of_offStore hoff
      | anchorUnavailable e =>
        rw [hcheckpoint] at h
        rw [(Prog.replay_ret_iff.mp h).1, List.append_nil]
        exact savesPass_of_offStore hoff
      | verified n =>
        rw [hcheckpoint] at h
        dsimp only at h
        split at h
        · rename_i hn
          obtain ⟨anchor, toBlock, logs, hanchor, hpass⟩ :=
            reconcile_verified hreconcile hcheckpoint hn
          have hlog : ∃ r, log = [⟨.saveCheckpoint options.consumer n, r⟩] := by
            rcases Prog.replay_read_iff.mp h with ⟨e, rfl, _⟩ | ⟨r, rest, rfl, hrest⟩
            · exact ⟨_, rfl⟩
            · have hnil : rest = [] := replay_lift_log hrest
              rw [hnil]
              exact ⟨_, rfl⟩
          obtain ⟨r, rfl⟩ := hlog
          intro x hx
          rcases List.mem_append.mp hx with hx | hx
          · exact ⟨(hoff x hx).ne.1, fun c m hm => absurd hm ((hoff x hx).ne.2 c m)⟩
          · rw [List.mem_singleton.mp hx]
            refine ⟨fun c hc => (by cases hc), fun c m hm => ?_⟩
            cases hm
            refine ⟨rfl, hn, anchor, toBlock, logs, hanchor, ?_⟩
            have happend := hpass.append [] (l₃ ++ [⟨.saveCheckpoint options.consumer n, r⟩])
            simpa using happend
        · rw [(Prog.replay_ret_iff.mp h).1, List.append_nil]
          exact savesPass_of_offStore hoff
    rcases Prog.replay_bind_iff.mp h with ⟨e, _, h⟩ | ⟨next, l₅, l₆, rfl, h₅, h⟩
    · rw [← List.append_assoc]
      exact hsave h
    · have hnil : l₆ = [] := by
        cases hfail : result.imports.findSome? QuicknetRoundOutcome.failure? with
        | some e =>
          rw [hfail] at h
          exact (Prog.replay_throw_iff.mp h).1
        | none =>
          rw [hfail] at h
          exact (Prog.replay_ret_iff.mp h).1
      rw [hnil, List.append_nil, ← List.append_assoc]
      exact hsave h₅
  · rw [(Prog.replay_ret_iff.mp h).1]
    exact savesPass_of_offStore (by simp)

theorem scanPhases_savesPass {options : IterationOptions} {checkpoint : Option ℕ}
    {heads : ChainHeads} {log : DaemonLog} {out : Except Failure RunDaemonIterationResult}
    (h : (scanPhases options checkpoint heads).replay log = some out) :
    SavesPass options (checkpoint.getD options.startBlock) heads.durableBlock log := by
  unfold scanPhases at h
  simp only [Prog.bind_eq] at h
  rcases Prog.replay_bind_iff.mp h with ⟨e, _, h⟩ | ⟨⟨next, scan⟩, l₁, l₂, rfl, hdurable, h⟩
  · exact durablePhase_savesPass h
  · have hsoft : ∀ x ∈ l₂, OffStore x.query := by
      rcases Prog.replay_bind_iff.mp h with ⟨e, _, h⟩ | ⟨⟨cursor, soft⟩, l₃, l₄, rfl, h₃, h⟩
      · exact (softPhase_offStore _ _ _).log h
      · rw [(Prog.replay_ret_iff.mp h).1, List.append_nil]
        exact (softPhase_offStore _ _ _).log h₃
    have := (durablePhase_savesPass hdurable).append (a := []) (by simp) hsoft
    simpa using this

/-- An iteration loads the checkpoint, reads the heads, and scans with both; it may
end anywhere on the way. -/
theorem runDaemonIteration_log {options : IterationOptions} {log : DaemonLog}
    {out : Except Failure RunDaemonIterationResult}
    (h : (runDaemonIteration options).replay log = some out) :
    (∀ x ∈ log, x.query = .signal) ∨
    ∃ pre post reply, log = pre ++ ⟨.loadCheckpoint options.consumer, reply⟩ :: post ∧
      (∀ x ∈ pre, x.query = .signal) ∧
      ((∀ x ∈ post, x.query = .signal ∨ x.query = .chainHeads) ∨
        ∃ checkpoint heads mid scans, reply = .ok (.ok checkpoint : Except Failure (Option ℕ)) ∧
          post = mid ++ scans ∧ (∀ x ∈ mid, x.query = .signal ∨ x = headsRead heads) ∧
          headsRead heads ∈ mid ∧
          (scanPhases options checkpoint heads).replay scans = some out) := by
  unfold runDaemonIteration at h
  split at h
  · rw [(Prog.replay_throw_iff.mp h).1]
    exact Or.inl (by simp)
  · simp only [Prog.bind_eq] at h
    have habort {log : DaemonLog} {out : Except Failure Unit}
        (h : throwIfAborted.replay log = some out) : ∀ x ∈ log, x.query = .signal :=
      (throwIfAborted_only (S := (· = .signal)) rfl).log h
    rcases Prog.replay_bind_iff.mp h with ⟨e, _, h⟩ | ⟨⟨⟩, l₁, l₂, rfl, h₁, h⟩
    · exact Or.inl (habort h)
    right
    rcases Prog.replay_bind_iff.mp h with ⟨e, _, h⟩ | ⟨checkpoint, l₃, l₄, rfl, h₃, h⟩
    · -- the load was rejected, or never answered
      obtain ⟨reply, rfl⟩ := awaitLoad_log h
      exact ⟨l₁, [], reply, rfl, habort h₁, Or.inl (by simp)⟩
    · rw [Prog.replay_ask_ok_iff.mp (awaitOrThrow_ok_iff.mp h₃)]
      refine ⟨l₁, l₄, .ok (.ok checkpoint : Except Failure (Option ℕ)), rfl, habort h₁, ?_⟩
      rcases Prog.replay_bind_iff.mp h with ⟨e, _, h⟩ | ⟨⟨⟩, l₅, l₆, rfl, h₅, h⟩
      · exact Or.inl fun x hx => Or.inl (habort h x hx)
      rcases Prog.replay_bind_iff.mp h with ⟨e, _, h⟩ | ⟨heads, l₇, l₈, rfl, h₇, h⟩
      · have hheads : ∀ x ∈ l₆, x.query = .chainHeads :=
          (awaitOrThrow_only (Prog.only_ask (S := (· = .chainHeads)) rfl)).log h
        exact Or.inl fun x hx => (List.mem_append.mp hx).imp (habort h₅ x) (hheads x)
      have hheads := Prog.replay_ask_ok_iff.mp (awaitOrThrow_ok_iff.mp h₇)
      rcases Prog.replay_bind_iff.mp h with ⟨e, _, h⟩ | ⟨⟨⟩, l₉, l₁₀, rfl, h₉, h⟩
      · refine Or.inl fun x hx => ?_
        rcases List.mem_append.mp hx with hx | hx
        · exact Or.inl (habort h₅ x hx)
        · rcases List.mem_append.mp hx with hx | hx
          · rw [hheads, List.mem_singleton] at hx
            exact Or.inr (congrArg Exchange.query hx)
          · exact Or.inl (habort h x hx)
      have hmid : ∀ x ∈ l₅ ++ l₇ ++ l₉, x.query = .signal ∨ x = headsRead heads := by
        intro x hx
        rcases List.mem_append.mp hx with hx | hx
        · rcases List.mem_append.mp hx with hx | hx
          · exact Or.inl (habort h₅ x hx)
          · rw [hheads, List.mem_singleton] at hx
            exact Or.inr hx
        · exact Or.inl (habort h₉ x hx)
      refine Or.inr ⟨checkpoint, heads, l₅ ++ l₇ ++ l₉, l₁₀, rfl, by simp, hmid, ?_, h⟩
      rw [hheads]
      simp [headsRead]

end Quicknet.Daemon
