import Quicknet.DaemonIteration

/-! Runs of daemon iterations over one checkpoint store: below a saved checkpoint
every request was scanned, and is stored at an anchor that did not change. -/
namespace Quicknet.Daemon
open Interaction

/-- The effect of an exchange on the store. A process may end inside a call, whose
effect is then that of any of its outcomes. -/
inductive StoreStep (s : FileCheckpointStore) :
    Exchange DaemonQuery.Reply Failure → FileCheckpointStore → Prop
  | load (consumer : Address) (o : Opening) :
      StoreStep s ⟨.loadCheckpoint consumer, .ok (s.load consumer o).1⟩ (s.load consumer o).2
  | loadCut (consumer : Address) (o : Opening) (e : Failure) :
      StoreStep s ⟨.loadCheckpoint consumer, .error e⟩ (s.load consumer o).2
  | save (consumer : Address) (nextBlock : ℕ) (o : Opening) (w : Replacement) :
      StoreStep s ⟨.saveCheckpoint consumer nextBlock, .ok (s.save consumer nextBlock o w).1⟩
        (s.save consumer nextBlock o w).2
  | saveCut (consumer : Address) (nextBlock : ℕ) (o : Opening) (w : Replacement) (e : Failure) :
      StoreStep s ⟨.saveCheckpoint consumer nextBlock, .error e⟩
        (s.save consumer nextBlock o w).2
  | other {x : Exchange DaemonQuery.Reply Failure} (h : OffStore x.query) : StoreStep s x s

/-- The store before and after the exchanges of a log. -/
inductive Threads : FileCheckpointStore → DaemonLog → FileCheckpointStore → Prop
  | nil (s : FileCheckpointStore) : Threads s [] s
  | cons {s t u : FileCheckpointStore} {x : Exchange DaemonQuery.Reply Failure} {log : DaemonLog}
      (step : StoreStep s x t) (rest : Threads t log u) : Threads s (x :: log) u

/-- An iteration of a run, with the checkpoint that the store held when it began. -/
structure Iteration where
  options : IterationOptions
  log : DaemonLog
  saved : Option ℕ

/-- The iterations of one daemon and its restarts, all with one `startBlock`. -/
inductive Runs (startBlock : ℕ) : FileCheckpointStore → List Iteration → Prop
  | start : Runs startBlock ⟨[], [], none⟩ []
  | iterate {s t : FileCheckpointStore} {history : List Iteration} {options : IterationOptions}
      {log : DaemonLog} {out : Except Failure RunDaemonIterationResult}
      (run : Runs startBlock s history) (hstart : options.startBlock = startBlock)
      (hlog : (runDaemonIteration options).replay log = some out) (store : Threads s log t) :
      Runs startBlock t (history ++ [⟨options, log, s.saved options.consumer⟩])
  | restart {s : FileCheckpointStore} {history : List Iteration}
      (run : Runs startBlock s history) (powerLost : Bool) :
      Runs startBlock (s.restart powerLost) history

/-- The part of the chain that no longer changes: the rounds that a consumer
requested in a block, and whether the registry has a round stored at a block. -/
structure DurableChain where
  requests : Address → ℕ → List ℕ
  isStored : ℕ → ℕ → Bool

/-- Events and storage at and below the durable head are answered as they are. -/
def Truthful (chain : DurableChain) (log : DaemonLog) : Prop :=
  ∀ heads, headsRead heads ∈ log →
    (∀ consumer fromBlock toBlock logs, logsRead [consumer] fromBlock toBlock logs ∈ log →
      toBlock ≤ heads.durableBlock → ∀ block round, fromBlock ≤ block → block ≤ toBlock →
        (round ∈ chain.requests consumer block ↔
          ∃ l ∈ logs, l.address = consumer ∧ l.round = round ∧ l.blockNumber = some block)) ∧
    (∀ round block stored,
      (⟨.isStored round block, .ok (.ok (some stored) : Except Failure (Option Bool))⟩ :
        Exchange DaemonQuery.Reply Failure) ∈ log →
      block ≤ heads.durableBlock → stored = chain.isStored round block)

/-- Some pass of the history scanned the block of the consumer, and found every
round requested there stored at the pass's anchor, which it read unchanged. -/
def Served (chain : DurableChain) (startBlock : ℕ) (history : List Iteration) (consumer : Address)
    (block : ℕ) : Prop :=
  ∃ it ∈ history, it.options.consumer = consumer ∧ ∃ anchor toBlock nextBlock logs,
    DurablePass it.log consumer (it.saved.getD startBlock) nextBlock anchor toBlock logs ∧
    it.saved.getD startBlock ≤ block ∧ block < nextBlock ∧
    ∀ round ∈ chain.requests consumer block,
      storedRead round anchor.blockNumber ∈ it.log ∧
        chain.isStored round anchor.blockNumber = true

theorem Served.append {chain : DurableChain} {startBlock : ℕ} {history : List Iteration}
    {consumer : Address} {block : ℕ} (h : Served chain startBlock history consumer block)
    (more : List Iteration) : Served chain startBlock (history ++ more) consumer block := by
  obtain ⟨it, hit, hrest⟩ := h
  exact ⟨it, List.mem_append_left _ hit, hrest⟩

/-- A truthful pass serves the blocks below its checkpoint. -/
theorem DurablePass.served {chain : DurableChain} {log : DaemonLog} {consumer : Address}
    {fromBlock nextBlock toBlock : ℕ} {anchor : BlockAnchor} {logs : List RequestLog}
    {heads : ChainHeads}
    (h : DurablePass log consumer fromBlock nextBlock anchor toBlock logs)
    (htruth : Truthful chain log) (hheads : headsRead heads ∈ log)
    (hanchor : anchor.blockNumber = heads.durableBlock) {block : ℕ} (hfrom : fromBlock ≤ block)
    (hnext : block < nextBlock) :
    ∀ round ∈ chain.requests consumer block,
      storedRead round anchor.blockNumber ∈ log ∧
        chain.isStored round anchor.blockNumber = true := by
  intro round hround
  obtain ⟨pre, mid, post, rfl, hlogs, hstored⟩ := h.bracketed
  obtain ⟨hevents, hreads⟩ := htruth heads hheads
  have hto := h.to_le
  have hle := h.next_le
  have hmid {x : Exchange DaemonQuery.Reply Failure} (hx : x ∈ mid) :
      x ∈ pre ++ anchorRead anchor :: (mid ++ anchorRead anchor :: post) := by
    simp [hx]
  obtain ⟨l, hl, _, hlround, hlblock⟩ :=
    (hevents consumer fromBlock toBlock logs (hmid hlogs) (by omega) block round hfrom
      (by omega)).mp hround
  have hread := hmid (hstored l hl block hlblock hnext)
  rw [hlround] at hread
  exact ⟨hread, (hreads round anchor.blockNumber true hread (by omega)).symm⟩

/-! The store holds only checkpoints below which everything is served. -/

theorem Threads.append {s u : FileCheckpointStore} {a b : DaemonLog} (h : Threads s (a ++ b) u) :
    ∃ t, Threads s a t ∧ Threads t b u := by
  induction a generalizing s with
  | nil => exact ⟨s, Threads.nil s, h⟩
  | cons x a ih =>
    cases h with
    | cons step rest =>
      obtain ⟨t, ha, hb⟩ := ih rest
      exact ⟨t, Threads.cons step ha, hb⟩

theorem Threads.off {s t : FileCheckpointStore} {log : DaemonLog} (h : Threads s log t)
    (hoff : ∀ x ∈ log, OffStore x.query) : t = s := by
  induction h with
  | nil s => rfl
  | cons step rest ih =>
    rw [ih fun x hx => hoff x (List.mem_cons_of_mem _ hx)]
    have hhead := hoff _ List.mem_cons_self
    cases step with
    | load consumer o => exact hhead.elim
    | loadCut consumer o e => exact hhead.elim
    | save consumer n o w => exact hhead.elim
    | saveCut consumer n o w e => exact hhead.elim
    | other h => rfl

/-- A log keeps a property of checkpoints that all its saves have. -/
theorem Threads.all {P : Address → ℕ → Prop} {s t : FileCheckpointStore} {log : DaemonLog}
    (h : Threads s log t) (hs : s.All P)
    (hsaves : ∀ x ∈ log, ∀ c n, x.query = .saveCheckpoint c n → P c n) : t.All P := by
  induction h with
  | nil s => exact hs
  | cons step rest ih =>
    apply ih
    · cases step with
      | load consumer o => exact hs.load consumer o
      | loadCut consumer o e => exact hs.load consumer o
      | save consumer n o w => exact hs.save (hsaves _ List.mem_cons_self _ _ rfl) o w
      | saveCut consumer n o w e => exact hs.save (hsaves _ List.mem_cons_self _ _ rfl) o w
      | other h => exact hs
    · exact fun x hx => hsaves x (List.mem_cons_of_mem _ hx)

/-- Everything between `startBlock` and the checkpoint is served. -/
def ServedBelow (chain : DurableChain) (startBlock : ℕ) (history : List Iteration)
    (consumer : Address) (n : ℕ) : Prop :=
  ∀ block, startBlock ≤ block → block < n → Served chain startBlock history consumer block

/-- What a load answers is what the store holds. -/
theorem StoreStep.load_saved {s t : FileCheckpointStore} {consumer : Address}
    {checkpoint : Option ℕ} (h : StoreStep s (loadRead consumer checkpoint) t) :
    checkpoint = s.saved consumer := by
  generalize hx : loadRead consumer checkpoint = x at h
  cases h with
  | load c o =>
    unfold loadRead at hx
    injection hx with hq hr
    injection hq with hc
    subst hc
    have hload : (s.load consumer o).1 = .ok checkpoint := (Except.ok.inj hr).symm
    exact FileCheckpointStore.load_ok hload
  | loadCut c o e =>
    unfold loadRead at hx
    injection hx with hq hr
    injection hq with hc
    subst hc
    cases hr
  | save c n o w => cases congrArg Exchange.query hx
  | saveCut c n o w e => cases congrArg Exchange.query hx
  | other hoff =>
    rw [← hx] at hoff
    exact hoff.elim

theorem offStore_of_signal {log : DaemonLog} (h : ∀ x ∈ log, x.query = .signal) :
    ∀ x ∈ log, OffStore x.query := by
  intro x hx
  rw [h x hx]
  exact trivial

/-- The saves of one iteration are of checkpoints below which everything is served. -/
theorem iteration_saves {chain : DurableChain} {startBlock : ℕ} {s t : FileCheckpointStore}
    {history : List Iteration} {options : IterationOptions} {log : DaemonLog}
    {out : Except Failure RunDaemonIterationResult}
    (hinv : s.All (ServedBelow chain startBlock history))
    (hstart : options.startBlock = startBlock)
    (hlog : (runDaemonIteration options).replay log = some out) (store : Threads s log t)
    (htruth : Truthful chain log) :
    ∀ x ∈ log, ∀ c n, x.query = .saveCheckpoint c n →
      ServedBelow chain startBlock (history ++ [⟨options, log, s.saved options.consumer⟩]) c n := by
  intro x hx c n hn
  rcases runDaemonIteration_log hlog with hsignal | ⟨pre, post, reply, rfl, hpre, hpost⟩
  · exact absurd hn ((offStore_of_signal hsignal x hx).ne.2 c n)
  · replace hpre := offStore_of_signal hpre
    rcases List.mem_append.mp hx with hx | hx
    · exact absurd hn ((hpre x hx).ne.2 c n)
    rcases List.mem_cons.mp hx with rfl | hxpost
    · cases hn
    rcases hpost with hquiet | ⟨checkpoint, heads, mid, scans, rfl, rfl, hmid, hheads, hscans⟩
    · rcases hquiet x hxpost with hq | hq
      · cases hq.symm.trans hn
      · cases hq.symm.trans hn
    have hmidOff : ∀ x ∈ mid, OffStore x.query := by
      intro x hx
      rcases hmid x hx with hq | rfl
      · rw [hq]
        exact trivial
      · exact trivial
    have hsaves := (scanPhases_savesPass hscans).append (b := []) hmidOff (by simp)
    rw [List.append_nil] at hsaves
    obtain ⟨rfl, hlt, anchor, toBlock, logs, hanchor, hpass⟩ := (hsaves x hxpost).2 c n hn
    -- the durable pass began at the checkpoint that the store held
    have hsaved : checkpoint = s.saved options.consumer := by
      obtain ⟨u, hu, hrest⟩ := store.append
      cases hrest with
      | cons step _ =>
        rw [hu.off hpre] at step
        exact step.load_saved
    rw [hstart] at hpass
    intro block hge hblock
    by_cases hfrom : (s.saved options.consumer).getD startBlock ≤ block
    · refine ⟨_, List.mem_append_right _ (List.mem_singleton.mpr rfl), rfl, anchor, toBlock, n,
        logs, ?_, hfrom, hblock, ?_⟩
      · have happend := hpass.append (pre ++ [loadRead options.consumer checkpoint]) []
        rw [← hsaved]
        simpa [loadRead] using happend
      · have happend := hpass.append (pre ++ [loadRead options.consumer checkpoint]) []
        have hlog : pre ++ [loadRead options.consumer checkpoint] ++ (mid ++ scans) ++ [] =
            pre ++ loadRead options.consumer checkpoint :: (mid ++ scans) := by simp
        rw [hlog] at happend
        rw [← hsaved] at hfrom
        exact happend.served htruth (by simp [hheads]) hanchor hfrom hblock
    · -- a block below the checkpoint that was loaded
      cases hold : s.saved options.consumer with
      | none =>
        rw [hold] at hfrom
        exact absurd hge hfrom
      | some m =>
        rw [hold] at hfrom
        have hlookup : ServedBelow chain startBlock history options.consumer m := by
          unfold FileCheckpointStore.saved at hold
          cases hstate : s.state with
          | none =>
            rw [hstate] at hold
            exact hinv.lookup (Or.inl rfl) hold
          | some state =>
            rw [hstate] at hold
            exact hinv.lookup (Or.inr (Or.inr hstate)) hold
        rw [← hold]
        exact (hlookup block hge (not_le.mp hfrom)).append _

/-- At and below the durable head of its iteration, events are read from the
checkpoint on. -/
def DurableScans (startBlock : ℕ) (it : Iteration) : Prop :=
  ∀ heads, headsRead heads ∈ it.log → ∀ x ∈ it.log, ∀ consumers fromBlock toBlock,
    x.query = .logs consumers fromBlock toBlock → fromBlock ≤ heads.durableBlock →
      consumers = [it.options.consumer] ∧ fromBlock = it.saved.getD startBlock

theorem iteration_scans {startBlock : ℕ} {s t : FileCheckpointStore} {options : IterationOptions}
    {log : DaemonLog} {out : Except Failure RunDaemonIterationResult}
    (hstart : options.startBlock = startBlock)
    (hlog : (runDaemonIteration options).replay log = some out) (store : Threads s log t) :
    DurableScans startBlock ⟨options, log, s.saved options.consumer⟩ := by
  intro heads hheads x hx consumers fromBlock toBlock hq hle
  rcases runDaemonIteration_log hlog with hsignal | ⟨pre, post, reply, rfl, hpre, hpost⟩
  · cases (hsignal x hx).symm.trans hq
  have hsaved {checkpoint : Option ℕ}
      (hreply : reply = .ok (.ok checkpoint : Except Failure (Option ℕ))) :
      checkpoint = s.saved options.consumer := by
    obtain ⟨u, hu, hrest⟩ := store.append
    cases hrest with
    | cons step _ =>
      rw [hu.off (offStore_of_signal hpre), hreply] at step
      exact step.load_saved
  -- neither the heads nor the events are read before the load
  have hafter {y : Exchange DaemonQuery.Reply Failure}
      (hy : y ∈ pre ++ ⟨.loadCheckpoint options.consumer, reply⟩ :: post)
      (hsig : y.query ≠ .signal) (hload : ∀ c, y.query ≠ .loadCheckpoint c) : y ∈ post := by
    rcases List.mem_append.mp hy with hy | hy
    · exact absurd (hpre y hy) hsig
    · rcases List.mem_cons.mp hy with rfl | hy
      · exact absurd rfl (hload _)
      · exact hy
  have hxpost := hafter hx (by simp [hq]) (by simp [hq])
  have hhpost := hafter hheads (by simp [headsRead]) (by simp [headsRead])
  rcases hpost with hquiet | ⟨checkpoint, heads', mid, scans, hreply, rfl, hmid, _, hscans⟩
  · rcases hquiet x hxpost with h | h
    · cases h.symm.trans hq
    · cases h.symm.trans hq
  · have hdurable := (scanPhases_scansDurable options checkpoint heads').log hscans
    have heads_eq : heads = heads' := by
      rcases List.mem_append.mp hhpost with h | h
      · rcases hmid _ h with h | h
        · cases h
        · cases h
          rfl
      · exact (hdurable _ h).elim
    have hxscans : x ∈ scans := by
      rcases List.mem_append.mp hxpost with h | h
      · rcases hmid _ h with h | rfl
        · cases h.symm.trans hq
        · cases hq
      · exact h
    have hfrom := hdurable x hxscans
    rw [hq, hsaved hreply, hstart] at hfrom
    obtain ⟨hconsumers, hfrom | hfrom⟩ := hfrom
    · exact ⟨hconsumers, hfrom⟩
    · rw [heads_eq] at hle
      exact absurd hfrom (not_lt.mpr hle)

theorem ServedBelow.append {chain : DurableChain} {startBlock : ℕ} {history : List Iteration}
    {consumer : Address} {n : ℕ} (h : ServedBelow chain startBlock history consumer n)
    (more : List Iteration) : ServedBelow chain startBlock (history ++ more) consumer n :=
  fun block hge hlt => (h block hge hlt).append more

/-- The invariant of a run, and what it says of each save. -/
theorem Runs.served {chain : DurableChain} {startBlock : ℕ} {s : FileCheckpointStore}
    {history : List Iteration} (h : Runs startBlock s history)
    (htruth : ∀ it ∈ history, Truthful chain it.log) :
    s.All (ServedBelow chain startBlock history) ∧
      ∀ it ∈ history, ∀ x ∈ it.log, ∀ c n, x.query = .saveCheckpoint c n →
        ServedBelow chain startBlock history c n := by
  -- by induction on the run; a later iteration adds scans and never takes one back
  induction h with
  | start =>
    refine ⟨?_, by simp⟩
    rintro c n (h | h | ⟨m, hm, _⟩)
    · cases h
    · cases h
    · cases hm
  | @iterate s t history options log out run hstart hlog store ih =>
    obtain ⟨hinv, hsaves⟩ := ih fun it hit => htruth it (List.mem_append_left _ hit)
    have hnew := iteration_saves hinv hstart hlog store
      (htruth _ (List.mem_append_right _ (List.mem_singleton.mpr rfl)))
    have hold : s.All (ServedBelow chain startBlock
        (history ++ [⟨options, log, s.saved options.consumer⟩])) :=
      fun c n hn => (hinv c n hn).append _
    refine ⟨store.all hold hnew, ?_⟩
    intro it hit x hx c n hn
    rcases List.mem_append.mp hit with hit | hit
    · exact (hsaves it hit x hx c n hn).append _
    · rw [List.mem_singleton.mp hit] at hx
      exact hnew x hx c n hn
  | restart run powerLost ih =>
    obtain ⟨hinv, hsaves⟩ := ih htruth
    exact ⟨hinv.restart powerLost, hsaves⟩

theorem Runs.scans {startBlock : ℕ} {s : FileCheckpointStore} {history : List Iteration}
    (h : Runs startBlock s history) : ∀ it ∈ history, DurableScans startBlock it := by
  induction h with
  | start => simp
  | iterate run hstart hlog store ih =>
    intro it hit
    rcases List.mem_append.mp hit with hit | hit
    · exact ih it hit
    · rw [List.mem_singleton.mp hit]
      exact iteration_scans hstart hlog store
  | restart run powerLost ih => exact ih

/-- Below every checkpoint that the daemon saves, and below every one that its store
holds in memory or on disk, each request from `startBlock` on has its round stored at
an unchanged durable anchor; and each durable scan begins at the saved checkpoint. -/
theorem checkpoints_served (chain : DurableChain) {startBlock : ℕ} {s : FileCheckpointStore}
    {history : List Iteration} (hrun : Runs startBlock s history)
    (htruth : ∀ it ∈ history, Truthful chain it.log) :
    (∀ it ∈ history, ∀ consumer n reply,
      (⟨.saveCheckpoint consumer n, reply⟩ : Exchange DaemonQuery.Reply Failure) ∈ it.log →
        ServedBelow chain startBlock history consumer n) ∧
    s.All (ServedBelow chain startBlock history) ∧
    ∀ it ∈ history, DurableScans startBlock it := by
  obtain ⟨hall, hsaves⟩ := hrun.served htruth
  refine ⟨?_, hall, hrun.scans⟩
  intro it hit consumer n reply hsave
  exact hsaves it hit _ hsave consumer n rfl

/-- One iteration over a request in block 10, whose round was stored before. -/
def storedRequestLog : DaemonLog :=
  [⟨.signal, .ok (none : Option Failure)⟩,
    loadRead 1 none,
    ⟨.signal, .ok (none : Option Failure)⟩,
    headsRead ⟨11, 11⟩,
    ⟨.signal, .ok (none : Option Failure)⟩,
    -- the durable pass
    ⟨.signal, .ok (none : Option Failure)⟩,
    anchorRead ⟨11, 7⟩,
    ⟨.signal, .ok (none : Option Failure)⟩,
    logsRead [1] 10 11 [⟨1, 5, some 10, some 9, some 0⟩],
    ⟨.signal, .ok (none : Option Failure)⟩,
    ⟨.importRound .durable 5, .ok (.ok (.completed (.alreadyStored 3)) :
      Except ImportFailure ImportResult)⟩,
    ⟨.onCompleted .durable 5 (.alreadyStored 3), .ok (.ok () : Except Failure Unit)⟩,
    ⟨.signal, .ok (none : Option Failure)⟩,
    storedRead 5 11,
    ⟨.signal, .ok (none : Option Failure)⟩,
    anchorRead ⟨11, 7⟩,
    ⟨.signal, .ok (none : Option Failure)⟩,
    ⟨.onReconciliation, .ok (.ok () : Except Failure Unit)⟩,
    ⟨.saveCheckpoint 1 12, .ok (.ok () : Except Failure Unit)⟩,
    -- nothing is above the durable head
    ⟨.signal, .ok (none : Option Failure)⟩,
    ⟨.signal, .ok (none : Option Failure)⟩]

def storedRequestChain : DurableChain where
  requests consumer block := if consumer = 1 ∧ block = 10 then [5] else []
  isStored round block := round = 5 ∧ block = 11

theorem storedRequestLog_truthful : Truthful storedRequestChain storedRequestLog := by
  intro heads _
  constructor
  · intro consumer fromBlock toBlock logs hlogs _ block round _ _
    simp [storedRequestLog, logsRead, loadRead, headsRead, anchorRead, storedRead] at hlogs
    obtain ⟨⟨rfl, rfl, rfl⟩, hreply⟩ := hlogs
    cases hreply
    by_cases hblock : block = 10 <;> simp [storedRequestChain, hblock, eq_comm]
  · intro round block stored hread _
    simp [storedRequestLog, logsRead, loadRead, headsRead, anchorRead, storedRead] at hread
    obtain ⟨⟨rfl, rfl⟩, hreply⟩ := hread
    cases hreply
    rfl

def storedRequestOpening : Opening := ⟨true, true, .durable⟩

theorem storedRequest_threads :
    Threads ⟨[], [], none⟩ storedRequestLog
      ((FileCheckpointStore.load ⟨[], [], none⟩ 1 storedRequestOpening).2.save 1 12
        storedRequestOpening .durable).2 := by
  refine Threads.cons (StoreStep.other (by exact trivial)) ?_
  refine Threads.cons (StoreStep.load 1 storedRequestOpening) ?_
  iterate 16 refine Threads.cons (StoreStep.other (by exact trivial)) ?_
  refine Threads.cons (StoreStep.save 1 12 storedRequestOpening .durable) ?_
  iterate 2 refine Threads.cons (StoreStep.other (by exact trivial)) ?_
  exact Threads.nil _

theorem storedRequest_served :
    ServedBelow storedRequestChain 10
      [⟨⟨1, 10, 100, none⟩, storedRequestLog, none⟩] 1 12 := by
  obtain ⟨out, hout⟩ : ∃ out, (runDaemonIteration ⟨1, 10, 100, none⟩).replay storedRequestLog =
      some out := ⟨_, rfl⟩
  have hrun := Runs.iterate Runs.start rfl hout storedRequest_threads
  refine (checkpoints_served storedRequestChain hrun ?_).1 _ List.mem_cons_self 1 12
    (.ok (.ok () : Except Failure Unit)) (by simp [storedRequestLog])
  intro it hit
  rw [List.mem_singleton.mp hit]
  exact storedRequestLog_truthful

end Quicknet.Daemon
