import Quicknet.CheckpointSoundness
import Quicknet.RequestBatch
import Quicknet.Library.Transition

/-! The soft cursors of one daemon process. Between the first soft cursor of a consumer
and the highest block that was scanned for it, a block that no soft scan covered belongs
to the durable scan. -/
namespace Quicknet.Daemon
open Interaction

/-! What the store holds for a consumer only grows. -/

namespace FileCheckpointStore

/-- The snapshot in memory is the one that a read of the file finds. -/
def InStep (s : FileCheckpointStore) : Prop := ∀ m, s.state = some m → s.disk = m

/-- The later store holds for each consumer at least what the earlier one held. -/
def Grows (s t : FileCheckpointStore) : Prop :=
  ∀ consumer n, s.saved consumer = some n → ∃ m, t.saved consumer = some m ∧ n ≤ m

theorem Grows.refl (s : FileCheckpointStore) : s.Grows s := fun _ n h => ⟨n, h, le_rfl⟩

theorem Grows.trans {s t u : FileCheckpointStore} (hst : s.Grows t) (htu : t.Grows u) :
    s.Grows u := by
  intro consumer n hn
  obtain ⟨m, hm, hnm⟩ := hst consumer n hn
  obtain ⟨k, hk, hmk⟩ := htu consumer m hm
  exact ⟨k, hk, hnm.trans hmk⟩

theorem Grows.of_saved {s t : FileCheckpointStore} (h : t.saved = s.saved) : s.Grows t := by
  intro consumer n hn
  exact ⟨n, by rw [h, hn], le_rfl⟩

theorem initializeState_inStep {s : FileCheckpointStore} (h : s.InStep) (o : Opening) :
    (s.initializeState o).2.InStep ∧ (s.initializeState o).2.saved = s.saved ∧
      ∀ m, (s.initializeState o).1 = .ok m → (s.initializeState o).2.state = some m := by
  obtain ⟨disk, durable, state⟩ := s
  obtain ⟨readable, cleaned, rewritten⟩ := o
  cases state with
  | some m =>
    refine ⟨h, rfl, ?_⟩
    intro m' hm'
    rw [← Except.ok.inj hm']
    rfl
  | none =>
    have hnone : ∀ m, (none : Option Checkpoints) = some m → disk = m := fun m hm => by cases hm
    cases readable with
    | false => exact ⟨hnone, rfl, fun m hm => by cases hm⟩
    | true =>
      cases cleaned with
      | false => exact ⟨hnone, rfl, fun m hm => by cases hm⟩
      | true =>
        cases rewritten with
        | durable =>
          refine ⟨fun m hm => Option.some.inj hm, rfl, ?_⟩
          intro m hm
          rw [← Except.ok.inj hm]
          rfl
        | unchanged => exact ⟨hnone, rfl, fun m hm => by cases hm⟩
        | visible => exact ⟨hnone, rfl, fun m hm => by cases hm⟩

theorem load_inStep {s : FileCheckpointStore} (h : s.InStep) (consumer : Address) (o : Opening) :
    (s.load consumer o).2.InStep ∧ (s.load consumer o).2.saved = s.saved := by
  obtain ⟨hstep, hsaved, _⟩ := initializeState_inStep h o
  unfold load
  split
  · rename_i m s' hs'
    rw [hs'] at hstep hsaved
    exact ⟨hstep, hsaved⟩
  · rename_i e s' hs'
    rw [hs'] at hstep hsaved
    exact ⟨hstep, hsaved⟩

/-- A checkpoint that does not move backwards is at least the one before it. -/
theorem lookup_setCheckpoint_grows {m : Checkpoints} {consumer : Address} {nextBlock : ℕ}
    (h : movesBackwards m consumer nextBlock = none) {c : Address} {n : ℕ}
    (hn : m.lookup c = some n) :
    ∃ k, (setCheckpoint m consumer nextBlock).lookup c = some k ∧ n ≤ k := by
  by_cases hc : c = consumer
  · refine ⟨nextBlock, by rw [hc, lookup_setCheckpoint_self], ?_⟩
    unfold movesBackwards at h
    rw [← hc, hn] at h
    dsimp only at h
    split at h
    · cases h
    · omega
  · exact ⟨n, by rw [lookup_setCheckpoint_of_ne nextBlock hc, hn], le_rfl⟩

theorem save_inStep {s : FileCheckpointStore} (h : s.InStep) (consumer : Address) (nextBlock : ℕ)
    (o : Opening) (w : Replacement) :
    (s.save consumer nextBlock o w).2.InStep ∧ s.Grows (s.save consumer nextBlock o w).2 := by
  obtain ⟨hstep, hsaved, hstate⟩ := initializeState_inStep h o
  unfold save
  split
  · rename_i e s' hs'
    rw [hs'] at hstep hsaved
    exact ⟨hstep, Grows.of_saved hsaved⟩
  · rename_i m s' hs'
    rw [hs'] at hstep hsaved hstate
    have hm : s'.state = some m := hstate m rfl
    have hdisk : s'.disk = m := hstep m hm
    cases hback : movesBackwards m consumer nextBlock with
    | some e => exact ⟨hstep, Grows.of_saved hsaved⟩
    | none =>
      have hgrows (t : FileCheckpointStore) (ht : t.state.getD t.disk = setCheckpoint m consumer nextBlock) :
          s.Grows t := by
        intro c n hn
        rw [← hsaved] at hn
        unfold saved at hn ⊢
        rw [hm, Option.getD_some] at hn
        rw [ht]
        exact lookup_setCheckpoint_grows hback hn
      cases w with
      | durable => exact ⟨fun m' hm' => Option.some.inj hm', hgrows _ rfl⟩
      | unchanged =>
        refine ⟨fun m' hm' => (by cases hm'), ?_⟩
        apply Grows.of_saved
        rw [← hsaved]
        unfold saved
        rw [hm]
        funext c
        change s'.disk.lookup c = m.lookup c
        rw [hdisk]
      | visible =>
        refine ⟨fun m' hm' => (by cases hm'), hgrows _ ?_⟩
        rfl

end FileCheckpointStore

theorem StoreStep.grows {s t : FileCheckpointStore} {x : Exchange DaemonQuery.Reply Failure}
    (h : StoreStep s x t) (hs : s.InStep) : t.InStep ∧ s.Grows t := by
  cases h with
  | load consumer o =>
    obtain ⟨hstep, hsaved⟩ := FileCheckpointStore.load_inStep hs consumer o
    exact ⟨hstep, FileCheckpointStore.Grows.of_saved hsaved⟩
  | loadCut consumer o e =>
    obtain ⟨hstep, hsaved⟩ := FileCheckpointStore.load_inStep hs consumer o
    exact ⟨hstep, FileCheckpointStore.Grows.of_saved hsaved⟩
  | save consumer n o w => exact FileCheckpointStore.save_inStep hs consumer n o w
  | saveCut consumer n o w e => exact FileCheckpointStore.save_inStep hs consumer n o w
  | other _ => exact ⟨hs, FileCheckpointStore.Grows.refl s⟩

theorem Threads.grows {s t : FileCheckpointStore} {log : DaemonLog} (h : Threads s log t)
    (hs : s.InStep) : t.InStep ∧ s.Grows t := by
  induction h with
  | nil s => exact ⟨hs, FileCheckpointStore.Grows.refl s⟩
  | cons step rest ih =>
    obtain ⟨hmid, hgrows⟩ := step.grows hs
    obtain ⟨hend, hmore⟩ := ih hmid
    exact ⟨hend, hgrows.trans hmore⟩

/-- An acknowledged save is still held at the end of its log. -/
theorem Threads.saved_of_mem {s t : FileCheckpointStore} {log : DaemonLog} (h : Threads s log t)
    (hs : s.InStep) {consumer : Address} {nextBlock : ℕ}
    (hmem : (⟨.saveCheckpoint consumer nextBlock, .ok (.ok () : Except Failure Unit)⟩ :
      Exchange DaemonQuery.Reply Failure) ∈ log) :
    ∃ m, t.saved consumer = some m ∧ nextBlock ≤ m := by
  induction h with
  | nil s => cases hmem
  | @cons s mid t x log step rest ih =>
    have hmid := (step.grows hs).1
    rcases List.mem_cons.mp hmem with rfl | hmem
    · apply (rest.grows hmid).2
      generalize hx : (⟨.saveCheckpoint consumer nextBlock, .ok (.ok () : Except Failure Unit)⟩ :
        Exchange DaemonQuery.Reply Failure) = x at step
      cases step with
      | save c n o w =>
        injection hx with hq hr
        injection hq with hc hn
        subst hc hn
        exact FileCheckpointStore.saved_save_ok (Except.ok.inj hr).symm
      | load c o => cases congrArg Exchange.query hx
      | loadCut c o e => cases congrArg Exchange.query hx
      | saveCut c n o w e =>
        injection hx with hq hr
        injection hq with hc hn
        subst hc hn
        cases hr
      | other hoff =>
        rw [← hx] at hoff
        exact hoff.elim
    · exact ih hmid hmem

/-! What an iteration that returned did. -/

def savedRead (consumer : Address) (nextBlock : ℕ) : Exchange DaemonQuery.Reply Failure :=
  ⟨.saveCheckpoint consumer nextBlock, .ok (.ok () : Except Failure Unit)⟩

/-- The durable half ends where it began, or at the checkpoint that it saved. -/
theorem durablePhase_ok {options : IterationOptions} {durableNextBlock next : ℕ}
    {heads : ChainHeads} {scan : Option ProcessedDaemonScan} {log : DaemonLog}
    (h : (durablePhase options durableNextBlock heads).replay log = some (.ok (next, scan))) :
    next = durableNextBlock ∨ durableNextBlock < next ∧ savedRead options.consumer next ∈ log := by
  unfold durablePhase at h
  split at h
  · simp only [Prog.bind_eq, Prog.replay_bind_ok_iff] at h
    obtain ⟨result, l₁, l₂, rfl, _, ⟨⟩, l₃, l₄, rfl, _, next', l₅, l₆, rfl, hsave, hrest⟩ := h
    have hnext : next' = next := by
      split at hrest
      · cases (Prog.replay_throw_iff.mp hrest).2
      · exact (Prod.mk.inj (Except.ok.inj (Prog.replay_ret_iff.mp hrest).2)).1.symm
    subst hnext
    unfold saveVerified at hsave
    split at hsave
    · rename_i n hn
      split at hsave
      · rename_i hlt
        rw [Prog.bind_eq, Prog.replay_bind_ok_iff] at hsave
        obtain ⟨reply, l₇, l₈, rfl, hask, hlift⟩ := hsave
        obtain ⟨rfl, hafter⟩ := Prog.replay_lift_ok_iff.mp hlift
        cases reply with
        | error e =>
          unfold afterSave at hafter
          dsimp only at hafter
          split at hafter <;> cases hafter
        | ok u =>
          cases Except.ok.inj hafter
          right
          refine ⟨hlt, ?_⟩
          rw [Prog.replay_ask_ok_iff.mp hask]
          simp [savedRead]
      · left
        exact Except.ok.inj (Prog.replay_ret_iff.mp hsave).2
    · left
      exact Except.ok.inj (Prog.replay_ret_iff.mp hsave).2
  · left
    exact (Prod.mk.inj (Except.ok.inj (Prog.replay_ret_iff.mp h).2)).1

/-- The events of a range were read, and no import for them failed. -/
structure SoftScanned (consumer : Address) (log : DaemonLog) (scan : ProcessedDaemonScan) :
    Prop where
  le : scan.fromBlock ≤ scan.toBlock
  next : scan.nextBlock = scan.toBlock + 1
  read : ∃ logs, logsRead [consumer] scan.fromBlock scan.toBlock logs ∈ log
  imported : ∀ reply ∈ importReplies log, ∀ failure, reply.2 ≠ .error failure

/-- Requests that were processed without an error had no import that failed. -/
theorem processQuicknetRequests_ok {scan : ScanType} {requests : List QuicknetRandomnessRequest}
    {rounds : List (ℕ × CompletedImportResult)} {log : DaemonLog}
    (h : (processQuicknetRequests scan requests).replay log = some (.ok rounds)) :
    ∀ reply ∈ importReplies log, ∀ failure, reply.2 ≠ .error failure := by
  unfold processQuicknetRequests at h
  rw [Prog.bind_eq, Prog.replay_bind_ok_iff] at h
  obtain ⟨outcomes, l₁, l₂, rfl, hprocess, hrest⟩ := h
  split at hrest
  · cases (Prog.replay_throw_iff.mp hrest).2
  · rename_i hfailure
    rw [(Prog.replay_ret_iff.mp hrest).1, List.append_nil]
    intro reply hreply failure hfailed
    obtain ⟨called, deferred, rfl, houtcomes⟩ :=
      (processQuicknetRequests_imported hprocess).outcomes outcomes rfl
    -- the failed reply would have made a failed outcome
    have hmem : (reply.1, statusOf reply.2) ∈ called.map fun o => (o.round, o.status) := by
      rw [houtcomes.replied]
      exact List.mem_map_of_mem hreply
    obtain ⟨o, ho, heq⟩ := List.mem_map.mp hmem
    have hstatus : o.status = .failed failure.error := by
      rw [(Prod.mk.inj heq).2, hfailed]
      rfl
    have hnone := List.findSome?_eq_none_iff.mp hfailure o (List.mem_append_left _ ho)
    unfold QuicknetRoundOutcome.failure? at hnone
    rw [hstatus] at hnone
    cases hnone

theorem importReplies_signal {log : DaemonLog} (h : throwIfAborted.replay log = some (.ok ())) :
    importReplies log = [] := by
  rw [throwIfAborted_ok h]
  rfl

theorem softPhase_ok {options : IterationOptions} {softNextBlock cursor : ℕ} {heads : ChainHeads}
    {scan : Option ProcessedDaemonScan} {log : DaemonLog}
    (h : (softPhase options softNextBlock heads).replay log = some (.ok (cursor, scan))) :
    scan = none ∧ cursor = softNextBlock ∨
      ∃ scanned, scan = some scanned ∧ scanned.fromBlock = softNextBlock ∧
        scanned.nextBlock = cursor ∧ SoftScanned options.consumer log scanned := by
  unfold softPhase at h
  simp only [Prog.bind_eq, Prog.replay_bind_ok_iff] at h
  obtain ⟨⟨⟩, l₁, l₂, rfl, h₁, result, l₃, l₄, rfl, hscan, ⟨⟩, l₅, l₆, rfl, h₅, hrest⟩ := h
  cases result with
  | caughtUp through next =>
    left
    obtain ⟨hcursor, hnone⟩ := Prod.mk.inj (Except.ok.inj (Prog.replay_ret_iff.mp hrest).2)
    exact ⟨hnone, hcursor⟩
  | scanned through fromBlock toBlock next requests =>
    right
    dsimp only at hrest
    simp only [Prog.replay_bind_ok_iff] at hrest
    obtain ⟨rounds, l₇, l₈, rfl, hprocess, ⟨⟩, l₉, l₁₀, rfl, h₉, hret⟩ := hrest
    obtain ⟨rfl, hresult⟩ := Prog.replay_ret_iff.mp hret
    obtain ⟨rfl, rfl⟩ := Prod.mk.inj (Except.ok.inj hresult)
    obtain ⟨rfl, rfl, hle, _, logs, rfl, _⟩ := scanQuicknetRequests_scanned hscan
    refine ⟨_, rfl, rfl, rfl, hle, rfl, ⟨logs, by simp⟩, ?_⟩
    have hreplies : importReplies (l₁ ++ ([logsRead [options.consumer] fromBlock toBlock logs] ++
        (l₅ ++ (l₇ ++ (l₉ ++ []))))) = importReplies l₇ := by
      simp only [importReplies_append, importReplies_signal h₁, importReplies_signal h₅,
        importReplies_signal h₉]
      simp [importReplies, logsRead]
    rw [hreplies]
    exact processQuicknetRequests_ok hprocess

/-- What an iteration that returned did: from which checkpoint and heads its soft half
began, and how far it came. -/
structure IterationReturned (options : IterationOptions) (log : DaemonLog)
    (result : RunDaemonIterationResult) (checkpoint : Option ℕ) (heads : ChainHeads)
    (durableNextBlock : ℕ) : Prop where
  loaded : ∃ pre post, log = pre ++ loadRead options.consumer checkpoint :: post ∧
    ∀ x ∈ pre, OffStore x.query
  seen : headsRead heads ∈ log
  durable : durableNextBlock = checkpoint.getD options.startBlock ∨
    checkpoint.getD options.startBlock < durableNextBlock ∧
      savedRead options.consumer durableNextBlock ∈ log
  soft : result.softScan = none ∧
      result.softCursor = getSoftNextBlock options.softCursor durableNextBlock heads.durableBlock ∨
    ∃ scan before soft, result.softScan = some scan ∧
      scan.fromBlock = getSoftNextBlock options.softCursor durableNextBlock heads.durableBlock ∧
      scan.nextBlock = result.softCursor ∧ log = before ++ soft ∧
      SoftScanned options.consumer soft scan

theorem runDaemonIteration_ok {options : IterationOptions} {log : DaemonLog}
    {result : RunDaemonIterationResult}
    (h : (runDaemonIteration options).replay log = some (.ok result)) :
    ∃ checkpoint heads durableNextBlock,
      IterationReturned options log result checkpoint heads durableNextBlock := by
  unfold runDaemonIteration at h
  split at h
  · cases (Prog.replay_throw_iff.mp h).2
  · simp only [Prog.bind_eq, Prog.replay_bind_ok_iff] at h
    obtain ⟨⟨⟩, l₁, l₂, rfl, h₁, checkpoint, l₃, l₄, rfl, hload, ⟨⟩, l₅, l₆, rfl, h₅, heads, l₇,
      l₈, rfl, hheads, ⟨⟩, l₉, l₁₀, rfl, h₉, hscans⟩ := h
    have hloadLog := Prog.replay_ask_ok_iff.mp (awaitOrThrow_ok_iff.mp hload)
    have hheadsLog := Prog.replay_ask_ok_iff.mp (awaitOrThrow_ok_iff.mp hheads)
    subst hloadLog hheadsLog
    unfold scanPhases at hscans
    simp only [Prog.bind_eq, Prog.replay_bind_ok_iff] at hscans
    obtain ⟨⟨next, durableScan⟩, l₁₁, l₁₂, rfl, hdurable, ⟨cursor, softScan⟩, l₁₃, l₁₄, rfl, hsoft,
      hret⟩ := hscans
    obtain ⟨rfl, hresult⟩ := Prog.replay_ret_iff.mp hret
    cases Except.ok.inj hresult
    refine ⟨checkpoint, heads, next, ⟨?_, by simp [headsRead], ?_, ?_⟩⟩
    · refine ⟨l₁, _, rfl, ?_⟩
      rw [throwIfAborted_ok h₁]
      intro x hx
      rw [List.mem_singleton.mp hx]
      exact trivial
    · rcases durablePhase_ok hdurable with hsame | ⟨hlt, hsaved⟩
      · exact Or.inl hsame
      · exact Or.inr ⟨hlt, by simp [hsaved]⟩
    · rcases softPhase_ok hsoft with hnone | ⟨scan, hscan, hfrom, hnext, hscanned⟩
      · exact Or.inl hnone
      · refine Or.inr ⟨scan, l₁ ++ ([loadRead options.consumer checkpoint] ++ (l₅ ++
          ([headsRead heads] ++ (l₉ ++ l₁₁)))), l₁₃, hscan, hfrom, hnext, ?_, hscanned⟩
        simp [loadRead, headsRead]

/-- The soft half never begins below the cursor, the durable scan or its head. -/
theorem getSoftNextBlock_bounds (softCursor : Option ℕ) (durableNextBlock durableBlock : ℕ) :
    durableNextBlock ≤ getSoftNextBlock softCursor durableNextBlock durableBlock ∧
      ∀ n, softCursor = some n →
        n ≤ getSoftNextBlock softCursor durableNextBlock durableBlock ∧
        ∀ b, n ≤ b → b < getSoftNextBlock softCursor durableNextBlock durableBlock →
          b ≤ durableBlock ∨ b < durableNextBlock := by
  unfold getSoftNextBlock
  constructor
  · cases softCursor <;> dsimp only <;> split <;> try split
    all_goals omega
  · intro n hn
    rw [hn]
    dsimp only
    constructor
    · split <;> split <;> omega
    · intro b hb hlt
      split at hlt <;> split at hlt <;> omega

/-! The iterations of one process, with the cursors that it keeps in memory. -/

/-- An iteration, how it ended, and the checkpoint that the store then held. -/
structure SoftIteration where
  options : IterationOptions
  log : DaemonLog
  out : Except Failure RunDaemonIterationResult
  saved : Option ℕ

/-- The block at which the soft half of an iteration that returned began. -/
def SoftIteration.softStart (it : SoftIteration) : Option ℕ :=
  match it.out with
  | .ok result =>
    match result.softScan with
    | some scan => some scan.fromBlock
    | none => some result.softCursor
  | .error _ => none

/-- `softCursors.set`, which an iteration that failed does not reach. -/
def setSoftCursor (cursors : Checkpoints) (it : SoftIteration) : Checkpoints :=
  match it.out with
  | .ok result => setCheckpoint cursors it.options.consumer result.softCursor
  | .error _ => cursors

def softCursors (history : List SoftIteration) : Checkpoints :=
  history.foldl setSoftCursor []

theorem softCursors_append (history : List SoftIteration) (it : SoftIteration) :
    softCursors (history ++ [it]) = setSoftCursor (softCursors history) it := by
  rw [softCursors, List.foldl_append, List.foldl_cons, List.foldl_nil]
  rfl

/-- The iterations of a process, for any of its consumers, over the files that it found. -/
inductive SoftRuns (startBlock : ℕ) : FileCheckpointStore → List SoftIteration → Prop
  | start (disk durable : Checkpoints) : SoftRuns startBlock ⟨disk, durable, none⟩ []
  | iterate {s t : FileCheckpointStore} {history : List SoftIteration}
      {options : IterationOptions} {log : DaemonLog}
      {out : Except Failure RunDaemonIterationResult} (run : SoftRuns startBlock s history)
      (hstart : options.startBlock = startBlock)
      (hcursor : options.softCursor = (softCursors history).lookup options.consumer)
      (hlog : (runDaemonIteration options).replay log = some out) (store : Threads s log t) :
      SoftRuns startBlock t (history ++ [⟨options, log, out, t.saved options.consumer⟩])

/-- Some iteration that returned scanned the block for the consumer. -/
def ScannedSoftly (history : List SoftIteration) (consumer : Address) (block : ℕ) : Prop :=
  ∃ it ∈ history, it.options.consumer = consumer ∧ ∃ result scan before soft,
    it.out = .ok result ∧ result.softScan = some scan ∧ it.log = before ++ soft ∧
      SoftScanned consumer soft scan ∧ scan.fromBlock ≤ block ∧ block ≤ scan.toBlock

/-- The block is the durable scan's: it is not above a durable head that an iteration for
the consumer saw, or it is below the checkpoint. -/
def OwnedDurably (history : List SoftIteration) (consumer : Address) (saved : Option ℕ)
    (block : ℕ) : Prop :=
  (∃ it ∈ history, it.options.consumer = consumer ∧
    ∃ heads, headsRead heads ∈ it.log ∧ block ≤ heads.durableBlock) ∨
    ∃ n, saved = some n ∧ block < n

theorem ScannedSoftly.mono {history more : List SoftIteration} {consumer : Address} {block : ℕ}
    (h : ScannedSoftly history consumer block) (hsub : history ⊆ more) :
    ScannedSoftly more consumer block := by
  obtain ⟨it, hit, hrest⟩ := h
  exact ⟨it, hsub hit, hrest⟩

theorem OwnedDurably.mono {history more : List SoftIteration} {consumer : Address} {block : ℕ}
    {s t : FileCheckpointStore} (h : OwnedDurably history consumer (s.saved consumer) block)
    (hsub : history ⊆ more) (hgrows : s.Grows t) :
    OwnedDurably more consumer (t.saved consumer) block := by
  rcases h with ⟨it, hit, hrest⟩ | ⟨n, hn, hlt⟩
  · exact Or.inl ⟨it, hsub hit, hrest⟩
  · obtain ⟨m, hm, hle⟩ := hgrows consumer n hn
    exact Or.inr ⟨m, hm, hlt.trans_le hle⟩

/-- A block that no soft scan has to cover any more. -/
def Covered (history : List SoftIteration) (consumer : Address) (saved : Option ℕ)
    (block : ℕ) : Prop :=
  ScannedSoftly history consumer block ∨ OwnedDurably history consumer saved block

theorem Covered.mono {history more : List SoftIteration} {consumer : Address} {block : ℕ}
    {s t : FileCheckpointStore} (h : Covered history consumer (s.saved consumer) block)
    (hsub : history ⊆ more) (hgrows : s.Grows t) : Covered more consumer (t.saved consumer) block :=
  h.imp (fun h => h.mono hsub) (fun h => h.mono hsub hgrows)

/-- One iteration that returned: it scanned from its start to its cursor, and the blocks
that it left out below its start belong to the durable scan. -/
theorem iteration_passes {startBlock : ℕ} {s t : FileCheckpointStore} {options : IterationOptions}
    {log : DaemonLog} {result : RunDaemonIterationResult} (hs : s.InStep)
    (hstart : options.startBlock = startBlock)
    (hlog : (runDaemonIteration options).replay log = some (.ok result))
    (store : Threads s log t)
    (hfloor : ∀ n, options.softCursor = some n → s.saved options.consumer = none →
      startBlock ≤ n) :
    let it : SoftIteration := ⟨options, log, .ok result, t.saved options.consumer⟩
    ∃ start, it.softStart = some start ∧ start ≤ result.softCursor ∧
      (t.saved options.consumer = none → startBlock ≤ start) ∧
      (∀ b, start ≤ b → b < result.softCursor → ScannedSoftly [it] options.consumer b) ∧
      (∀ scan, result.softScan = some scan → scan.toBlock < result.softCursor) ∧
      ∀ n, options.softCursor = some n → n ≤ start ∧ ∀ b, n ≤ b → b < start →
        OwnedDurably [it] options.consumer (t.saved options.consumer) b := by
  intro it
  obtain ⟨checkpoint, heads, next, hit⟩ := runDaemonIteration_ok hlog
  obtain ⟨pre, post, rfl, hpre⟩ := hit.loaded
  -- the checkpoint that was loaded is the one that the store held
  have hsaved : checkpoint = s.saved options.consumer := by
    obtain ⟨u, hu, hrest⟩ := store.append
    cases hrest with
    | cons step _ =>
      rw [hu.off hpre] at step
      exact step.load_saved
  have hgrows := (store.grows hs).2
  have hnext : (∃ m, t.saved options.consumer = some m ∧ next ≤ m) ∨
      s.saved options.consumer = none ∧ next = startBlock := by
    rcases hit.durable with heq | ⟨_, hack⟩
    · cases hcheckpoint : checkpoint with
      | none =>
        right
        rw [hcheckpoint] at heq hsaved
        exact ⟨hsaved.symm, heq.trans hstart⟩
      | some c =>
        left
        rw [hcheckpoint] at heq hsaved
        obtain ⟨m, hm, hle⟩ := hgrows _ c hsaved.symm
        exact ⟨m, hm, heq.le.trans hle⟩
    · exact Or.inl (store.saved_of_mem hs hack)
  obtain ⟨hdurable, hbounds⟩ :=
    getSoftNextBlock_bounds options.softCursor next heads.durableBlock
  have hfirst : t.saved options.consumer = none →
      startBlock ≤ getSoftNextBlock options.softCursor next heads.durableBlock := by
    intro hnone
    rcases hnext with ⟨m, hm, _⟩ | ⟨_, heq⟩
    · rw [hnone] at hm
      cases hm
    · rw [← heq]
      exact hdurable
  have hpassed : ∀ n, options.softCursor = some n →
      n ≤ getSoftNextBlock options.softCursor next heads.durableBlock ∧
        ∀ b, n ≤ b → b < getSoftNextBlock options.softCursor next heads.durableBlock →
          OwnedDurably [it] options.consumer (t.saved options.consumer) b := by
    intro n hn
    obtain ⟨hle, hblocks⟩ := hbounds n hn
    refine ⟨hle, ?_⟩
    intro b hb hlt
    rcases hblocks b hb hlt with hhead | hbelow
    · exact Or.inl ⟨it, List.mem_singleton.mpr rfl, rfl, heads, hit.seen, hhead⟩
    · rcases hnext with ⟨m, hm, hmle⟩ | ⟨hnone, heq⟩
      · exact Or.inr ⟨m, hm, hbelow.trans_le hmle⟩
      · -- without a checkpoint the cursor is not below the start
        have := hfloor n hn hnone
        omega
  rcases hit.soft with ⟨hnone, hcursor⟩ | ⟨scan, before, soft, hscan, hfrom, hto, hsplit, hscanned⟩
  · refine ⟨result.softCursor, ?_, le_rfl, ?_, ?_, ?_, ?_⟩
    · simp only [it, SoftIteration.softStart, hnone]
    · rw [hcursor]
      exact hfirst
    · intro b hb hlt
      omega
    · intro scan hscan
      rw [hnone] at hscan
      cases hscan
    · rw [hcursor]
      exact hpassed
  · have hend := hscanned.next
    have hle := hscanned.le
    refine ⟨scan.fromBlock, ?_, by omega, ?_, ?_, ?_, ?_⟩
    · simp only [it, SoftIteration.softStart, hscan]
    · rw [hfrom]
      exact hfirst
    · intro b hb hlt
      exact ⟨it, List.mem_singleton.mpr rfl, rfl, result, scan, before, soft, rfl, hscan, hsplit,
        hscanned, hb, by omega⟩
    · intro scan' hscan'
      rw [hscan] at hscan'
      cases hscan'
      omega
    · rw [hfrom]
      exact hpassed

/-- What holds of a consumer between two iterations. -/
structure SoftInv (startBlock : ℕ) (s : FileCheckpointStore) (history : List SoftIteration)
    (consumer : Address) : Prop where
  inStep : s.InStep
  covered : ∀ it ∈ history, it.options.consumer = consumer → ∀ start, it.softStart = some start →
    ∃ n, (softCursors history).lookup consumer = some n ∧ start ≤ n ∧
      ∀ b, start ≤ b → b < n → Covered history consumer (s.saved consumer) b
  scanned : ∀ it ∈ history, it.options.consumer = consumer → ∀ result scan,
    it.out = .ok result → result.softScan = some scan →
      ∃ n, (softCursors history).lookup consumer = some n ∧ scan.toBlock < n
  floor : ∀ n, (softCursors history).lookup consumer = some n → s.saved consumer = none →
    startBlock ≤ n

/-- A store that holds nothing at the end held nothing before. -/
theorem FileCheckpointStore.Grows.none {s t : FileCheckpointStore} (h : s.Grows t)
    {consumer : Address} (ht : t.saved consumer = none) : s.saved consumer = none := by
  cases hs : s.saved consumer with
  | none => rfl
  | some n =>
    obtain ⟨m, hm, _⟩ := h consumer n hs
    rw [ht] at hm
    cases hm

/-- An iteration for another consumer, or one that failed, moves no cursor. -/
theorem SoftInv.keep {startBlock : ℕ} {s t : FileCheckpointStore} {history : List SoftIteration}
    {consumer : Address} (h : SoftInv startBlock s history consumer) {it : SoftIteration}
    (ht : t.InStep) (hgrows : s.Grows t)
    (hcursor : (softCursors (history ++ [it])).lookup consumer =
      (softCursors history).lookup consumer)
    (hfailed : it.options.consumer = consumer → ∃ e, it.out = .error e) :
    SoftInv startBlock t (history ++ [it]) consumer where
  inStep := ht
  covered it' hit' hconsumer start hstart := by
    rw [hcursor]
    rcases List.mem_append.mp hit' with hold | hnew
    · obtain ⟨n, hn, hle, hblocks⟩ := h.covered it' hold hconsumer start hstart
      refine ⟨n, hn, hle, ?_⟩
      intro b hb hlt
      exact (hblocks b hb hlt).mono (List.subset_append_left _ _) hgrows
    · rw [List.mem_singleton.mp hnew] at hconsumer hstart
      obtain ⟨e, he⟩ := hfailed hconsumer
      unfold SoftIteration.softStart at hstart
      rw [he] at hstart
      cases hstart
  scanned it' hit' hconsumer result scan hout hscan := by
    rw [hcursor]
    rcases List.mem_append.mp hit' with hold | hnew
    · exact h.scanned it' hold hconsumer result scan hout hscan
    · rw [List.mem_singleton.mp hnew] at hconsumer hout
      obtain ⟨e, he⟩ := hfailed hconsumer
      rw [he] at hout
      cases hout
  floor n hn hnone := by
    rw [hcursor] at hn
    exact h.floor n hn (hgrows.none hnone)

/-- An iteration that returned moves the cursor of its consumer over what it covered. -/
theorem SoftInv.pass {startBlock : ℕ} {s t : FileCheckpointStore} {history : List SoftIteration}
    {options : IterationOptions} {log : DaemonLog} {result : RunDaemonIterationResult}
    (h : SoftInv startBlock s history options.consumer)
    (hstart : options.startBlock = startBlock)
    (hcursor : options.softCursor = (softCursors history).lookup options.consumer)
    (hlog : (runDaemonIteration options).replay log = some (.ok result))
    (store : Threads s log t) :
    SoftInv startBlock t (history ++ [⟨options, log, .ok result, t.saved options.consumer⟩])
      options.consumer := by
  obtain ⟨ht, hgrows⟩ := store.grows h.inStep
  obtain ⟨start, hsoft, hle, hfirst, hscanned, hbelow, hpassed⟩ :=
    iteration_passes h.inStep hstart hlog store fun n hn => h.floor n (hcursor ▸ hn)
  have hset : (softCursors (history ++ [⟨options, log, .ok result,
      t.saved options.consumer⟩])).lookup options.consumer = some result.softCursor := by
    rw [softCursors_append]
    exact lookup_setCheckpoint_self _ _ _
  have hlast : [⟨options, log, .ok result, t.saved options.consumer⟩] ⊆
      history ++ [(⟨options, log, .ok result, t.saved options.consumer⟩ : SoftIteration)] :=
    List.subset_append_right _ _
  constructor
  · exact ht
  · intro it hit hconsumer start' hstart'
    refine ⟨result.softCursor, hset, ?_⟩
    rcases List.mem_append.mp hit with hold | hnew
    · obtain ⟨n, hn, hge, hblocks⟩ := h.covered it hold hconsumer start' hstart'
      obtain ⟨hmono, howned⟩ := hpassed n (hcursor.trans hn)
      refine ⟨by omega, ?_⟩
      intro b hb hlt
      -- below the old cursor, below the start of this scan, or in it
      by_cases hbefore : b < n
      · exact (hblocks b hb hbefore).mono (List.subset_append_left _ _) hgrows
      · by_cases hskipped : b < start
        · exact Or.inr ((howned b (not_lt.mp hbefore) hskipped).mono hlast
            (FileCheckpointStore.Grows.refl t))
        · exact Or.inl ((hscanned b (not_lt.mp hskipped) hlt).mono hlast)
    · rw [List.mem_singleton.mp hnew] at hstart'
      have heq : start' = start := Option.some.inj (hstart'.symm.trans hsoft)
      rw [heq]
      exact ⟨hle, fun b hb hlt => Or.inl ((hscanned b hb hlt).mono hlast)⟩
  · intro it hit hconsumer result' scan hout hscan
    refine ⟨result.softCursor, hset, ?_⟩
    rcases List.mem_append.mp hit with hold | hnew
    · obtain ⟨n, hn, hlt⟩ := h.scanned it hold hconsumer result' scan hout hscan
      have hmono := (hpassed n (hcursor.trans hn)).1
      omega
    · rw [List.mem_singleton.mp hnew] at hout
      cases Except.ok.inj hout
      exact hbelow scan hscan
  · intro n hn hnone
    rw [hset] at hn
    rw [← Option.some.inj hn]
    exact (hfirst hnone).trans hle

theorem SoftRuns.inv {startBlock : ℕ} {s : FileCheckpointStore} {history : List SoftIteration}
    (run : SoftRuns startBlock s history) (consumer : Address) :
    SoftInv startBlock s history consumer := by
  induction run with
  | start disk durable =>
    refine ⟨fun m hm => (by cases hm), ?_, ?_, fun n hn => (by cases hn)⟩
    · exact fun it hit => absurd hit List.not_mem_nil
    · exact fun it hit => absurd hit List.not_mem_nil
  | @iterate s t history options log out run hstart hcursor hlog store ih =>
    obtain ⟨ht, hgrows⟩ := store.grows ih.inStep
    cases out with
    | error e => exact ih.keep ht hgrows (by rw [softCursors_append]; rfl) fun _ => ⟨e, rfl⟩
    | ok result =>
      by_cases hconsumer : options.consumer = consumer
      · rw [← hconsumer] at ih ⊢
        exact ih.pass hstart hcursor hlog store
      · refine ih.keep ht hgrows ?_ fun h => absurd h hconsumer
        rw [softCursors_append]
        exact lookup_setCheckpoint_of_ne _ (Ne.symm hconsumer)

/-- The cursor of a consumer moves forwards, and only over blocks that this very iteration
scanned for it or that belong to the durable scan. -/
def MovesOverCovered (consumer : Address) (pre : List SoftIteration) (it : SoftIteration) : Prop :=
  ∀ n, (softCursors pre).lookup consumer = some n →
    ∃ m, (softCursors (pre ++ [it])).lookup consumer = some m ∧ n ≤ m ∧
      ∀ b, n ≤ b → b < m → it.options.consumer = consumer ∧ Covered [it] consumer it.saved b

theorem SoftRuns.moves {startBlock : ℕ} {s : FileCheckpointStore} {history : List SoftIteration}
    (run : SoftRuns startBlock s history) (consumer : Address) :
    Transition.EachEvent (MovesOverCovered consumer) history := by
  induction run with
  | start disk durable => exact Transition.eachEvent_nil _
  | @iterate s t history options log out run hstart hcursor hlog store ih =>
    apply ih.append_singleton
    intro n hn
    have hinv := run.inv options.consumer
    rw [softCursors_append]
    cases out with
    | error e => exact ⟨n, hn, le_rfl, fun b hb hlt => absurd hb (not_le.mpr hlt)⟩
    | ok result =>
      by_cases hconsumer : options.consumer = consumer
      · subst hconsumer
        obtain ⟨start, _, hle, _, hscanned, _, hpassed⟩ :=
          iteration_passes hinv.inStep hstart hlog store fun n hn => hinv.floor n (hcursor ▸ hn)
        obtain ⟨hmono, howned⟩ := hpassed n (hcursor.trans hn)
        refine ⟨result.softCursor, lookup_setCheckpoint_self _ _ _, hmono.trans hle, ?_⟩
        intro b hb hlt
        refine ⟨rfl, ?_⟩
        by_cases hskipped : b < start
        · exact Or.inr (howned b hb hskipped)
        · exact Or.inl (hscanned b (not_lt.mp hskipped) hlt)
      · refine ⟨n, ?_, le_rfl, fun b hb hlt => absurd hb (not_le.mpr hlt)⟩
        exact (lookup_setCheckpoint_of_ne _ (Ne.symm hconsumer)).trans hn

/-- In every run of iterations: from the block at which a soft half first began up to the
highest one that was scanned, and up to the cursor, each block was scanned or belongs to
the durable scan; and each single move of the cursor is over such blocks. -/
theorem soft_scans_cover {startBlock : ℕ} {s : FileCheckpointStore} {history : List SoftIteration}
    (run : SoftRuns startBlock s history) (consumer : Address) :
    (∀ first ∈ history, first.options.consumer = consumer → ∀ start,
      first.softStart = some start →
        (∀ top ∈ history, top.options.consumer = consumer → ∀ result scan,
          top.out = .ok result → result.softScan = some scan → ∀ b, start ≤ b → b ≤ scan.toBlock →
            Covered history consumer (s.saved consumer) b) ∧
        ∃ cursor, (softCursors history).lookup consumer = some cursor ∧
          ∀ b, start ≤ b → b < cursor → Covered history consumer (s.saved consumer) b) ∧
      Transition.EachEvent (MovesOverCovered consumer) history := by
  refine ⟨?_, run.moves consumer⟩
  have hinv := run.inv consumer
  intro first hfirst hconsumer start hstart
  obtain ⟨n, hn, _, hblocks⟩ := hinv.covered first hfirst hconsumer start hstart
  refine ⟨?_, n, hn, hblocks⟩
  intro top htop htopConsumer result scan hout hscan b hb hle
  obtain ⟨m, hm, hlt⟩ := hinv.scanned top htop htopConsumer result scan hout hscan
  rw [hn] at hm
  cases hm
  exact hblocks b hb (hle.trans_lt hlt)

/-! A process that scans softly before the head is durable. Its second import fails, and the
next iteration scans the same blocks again. -/

/-- The durable head is at 9 and the checkpoint at 10. -/
def softReads (fromBlock toBlock round block : ℕ) : DaemonLog :=
  [⟨.signal, .ok (none : Option Failure)⟩,
    loadRead 1 (some 10),
    ⟨.signal, .ok (none : Option Failure)⟩,
    headsRead ⟨toBlock, 9⟩,
    ⟨.signal, .ok (none : Option Failure)⟩,
    ⟨.signal, .ok (none : Option Failure)⟩,
    logsRead [1] fromBlock toBlock [⟨1, round, some block, some 9, some 0⟩],
    ⟨.signal, .ok (none : Option Failure)⟩,
    ⟨.signal, .ok (none : Option Failure)⟩]

def softImport (round : ℕ) : DaemonLog :=
  [⟨.importRound .soft round, .ok (.ok (.completed (.alreadyStored 3)) :
      Except ImportFailure ImportResult)⟩,
    ⟨.onCompleted .soft round (.alreadyStored 3), .ok (.ok () : Except Failure Unit)⟩,
    ⟨.signal, .ok (none : Option Failure)⟩]

def failedImport (round : ℕ) : DaemonLog :=
  [⟨.importRound .soft round, .ok (.error ⟨.rpc, false⟩ : Except ImportFailure ImportResult)⟩]

def softScanResult (fromBlock toBlock round : ℕ) : RunDaemonIterationResult where
  status := .processed
  latestBlock := toBlock
  durableBlock := 9
  durableNextBlock := 10
  durableHeadRegressed := false
  softCursor := toBlock + 1
  durableScan := none
  softScan := some ⟨fromBlock, toBlock, toBlock + 1, [(round, .alreadyStored 3)], none⟩

def softScanIterations : List SoftIteration :=
  [⟨⟨1, 10, 100, none⟩, softReads 10 12 5 11 ++ softImport 5, .ok (softScanResult 10 12 5),
      some 10⟩,
    ⟨⟨1, 10, 100, some 13⟩, softReads 13 15 6 14 ++ failedImport 6, .error .rpc, some 10⟩,
    ⟨⟨1, 10, 100, some 13⟩, softReads 13 15 6 14 ++ softImport 6, .ok (softScanResult 13 15 6),
      some 10⟩]

/-- The file holds the checkpoint, and it has been read or not. -/
theorem softReads_threads {cached : Option Checkpoints} (hcached : ∀ c ∈ cached, c = [(1, 10)])
    (fromBlock toBlock round block : ℕ) {rest : DaemonLog} (hrest : ∀ x ∈ rest, OffStore x.query) :
    Threads ⟨[(1, 10)], [(1, 10)], cached⟩ (softReads fromBlock toBlock round block ++ rest)
      ⟨[(1, 10)], [(1, 10)], some [(1, 10)]⟩ := by
  have hother : ∀ {log : DaemonLog}, (∀ x ∈ log, OffStore x.query) →
      Threads ⟨[(1, 10)], [(1, 10)], some [(1, 10)]⟩ log
        ⟨[(1, 10)], [(1, 10)], some [(1, 10)]⟩ := by
    intro log hlog
    induction log with
    | nil => exact Threads.nil _
    | cons x log ih =>
      exact Threads.cons (StoreStep.other (hlog x List.mem_cons_self))
        (ih fun y hy => hlog y (List.mem_cons_of_mem _ hy))
  refine Threads.cons (StoreStep.other (by exact trivial)) ?_
  have hload : StoreStep ⟨[(1, 10)], [(1, 10)], cached⟩ (loadRead 1 (some 10))
      ⟨[(1, 10)], [(1, 10)], some [(1, 10)]⟩ := by
    cases cached with
    | none => exact StoreStep.load 1 storedRequestOpening
    | some c =>
      obtain rfl := hcached c rfl
      exact StoreStep.load 1 storedRequestOpening
  have hreads : ∀ x ∈ (softReads fromBlock toBlock round block).drop 2, OffStore x.query := by
    simp [softReads, OffStore, headsRead, logsRead]
  refine Threads.cons hload (hother fun x hx => ?_)
  rcases List.mem_append.mp hx with hx | hx
  · exact hreads x hx
  · exact hrest x hx

theorem softScan_run :
    SoftRuns 10 ⟨[(1, 10)], [(1, 10)], some [(1, 10)]⟩ softScanIterations := by
  have himport (round : ℕ) : ∀ x ∈ softImport round, OffStore x.query := by
    simp [softImport, OffStore]
  have hfailed (round : ℕ) : ∀ x ∈ failedImport round, OffStore x.query := by
    simp [failedImport, OffStore]
  have hfirst : SoftRuns 10 ⟨[(1, 10)], [(1, 10)], some [(1, 10)]⟩ (softScanIterations.take 1) :=
    SoftRuns.iterate (SoftRuns.start [(1, 10)] [(1, 10)]) rfl rfl rfl
      (softReads_threads (by simp) 10 12 5 11 (himport 5))
  have hsecond : SoftRuns 10 ⟨[(1, 10)], [(1, 10)], some [(1, 10)]⟩ (softScanIterations.take 2) :=
    SoftRuns.iterate hfirst rfl rfl rfl (softReads_threads (by simp) 13 15 6 14 (hfailed 6))
  exact SoftRuns.iterate hsecond rfl rfl rfl (softReads_threads (by simp) 13 15 6 14 (himport 6))

/-- All blocks from the first one to the latest are covered, those of the failure too. -/
theorem softScan_covers :
    Covered softScanIterations 1 (some 10) 10 ∧ Covered softScanIterations 1 (some 10) 12 ∧
      Covered softScanIterations 1 (some 10) 13 ∧ Covered softScanIterations 1 (some 10) 15 := by
  have hcovered := ((soft_scans_cover softScan_run 1).1 _ List.mem_cons_self rfl 10 rfl).1 _
    (List.mem_cons_of_mem _ (List.mem_cons_of_mem _ List.mem_cons_self)) rfl (softScanResult 13 15 6)
    _ rfl rfl
  refine ⟨?_, ?_, ?_, ?_⟩
  · exact hcovered 10 (by decide) (by decide)
  · exact hcovered 12 (by decide) (by decide)
  · exact hcovered 13 (by decide) (by decide)
  · exact hcovered 15 (by decide) (by decide)

end Quicknet.Daemon
