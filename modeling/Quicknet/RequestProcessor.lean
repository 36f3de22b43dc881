import Quicknet.RequestScanner

/-! One import for each requested round, with the first block that requests it. -/
namespace Quicknet.Daemon
open Interaction

/-- `Map.set` of a smaller block; a round keeps the place of its first request. -/
def recordFirstBlock (firstBlocks : List (ℕ × ℕ)) (request : QuicknetRandomnessRequest) :
    List (ℕ × ℕ) :=
  match firstBlocks with
  | [] => [(request.round, request.blockNumber)]
  | (round, block) :: rest =>
    if round = request.round then
      (round, if request.blockNumber < block then request.blockNumber else block) :: rest
    else (round, block) :: recordFirstBlock rest request

def firstBlocks (requests : List QuicknetRandomnessRequest) : List (ℕ × ℕ) :=
  requests.foldl recordFirstBlock []

/-- The loop over `firstBlocks`. After a failure, or without a signer, it calls no
further import. -/
def processRounds (scan : ScanType) (failed : Bool) (signerUnavailable : Option SignerBlocker) :
    List (ℕ × ℕ) → Async (List QuicknetRoundOutcome)
  | [] => return []
  | (round, firstRequestBlock) :: rest => do
    let record (status : RoundStatus) : QuicknetRoundOutcome :=
      ⟨round, firstRequestBlock, status⟩
    -- `recordIncomplete`: the observer cannot disturb the loop
    let recordIncomplete (status : RoundStatus) (signer : Option SignerBlocker) :
        Async (List QuicknetRoundOutcome) := do
      observe (.onIncomplete scan (record status))
      return record status :: (← processRounds scan false signer rest)
    match failed, signerUnavailable with
    | true, signer =>
      return record .earlierImportFailed :: (← processRounds scan true signer rest)
    | false, some blocker =>
      recordIncomplete (.signerUnavailable blocker) (some blocker)
    | false, none =>
      match (← Prog.ask (DaemonQuery.importRound scan round) :
          Except ImportFailure ImportResult) with
      | .ok (.pending result) => recordIncomplete (.pending result) none
      | .ok (.signerUnavailable blocker) =>
        recordIncomplete (.signerUnavailable blocker) (some blocker)
      | .ok (.alreadyRetained attemptId workId) =>
        recordIncomplete (.alreadyRetained attemptId workId) none
      | .ok (.completed result) =>
        observe (.onCompleted scan round result)
        return record (.completed result) :: (← processRounds scan false none rest)
      | .error failure =>
        if failure.cancelled then
          .throw failure.error
        else
          return record (.failed failure.error) :: (← processRounds scan true none rest)

def processQuicknetRequestsWithOutcomes (scan : ScanType)
    (requests : List QuicknetRandomnessRequest) : Async (List QuicknetRoundOutcome) := do
  throwIfAborted
  processRounds scan false none (firstBlocks requests)

def QuicknetRoundOutcome.failure? (outcome : QuicknetRoundOutcome) : Option Failure :=
  match outcome.status with
  | .failed e => some e
  | _ => none

def QuicknetRoundOutcome.completed? (outcome : QuicknetRoundOutcome) :
    Option (ℕ × CompletedImportResult) :=
  match outcome.status with
  | .completed result => some (outcome.round, result)
  | _ => none

/-- The first failed outcome is thrown on; else the completed rounds. -/
def processQuicknetRequests (scan : ScanType) (requests : List QuicknetRandomnessRequest) :
    Async (List (ℕ × CompletedImportResult)) := do
  let outcomes ← processQuicknetRequestsWithOutcomes scan requests
  match outcomes.findSome? QuicknetRoundOutcome.failure? with
  | some e => .throw e
  | none => return outcomes.filterMap QuicknetRoundOutcome.completed?

/-! Every request has an entry for its round, at its block or an earlier one. -/

/-- Some entry of the round is at most the block. -/
def Covers (firsts : List (ℕ × ℕ)) (round block : ℕ) : Prop :=
  ∃ first, (round, first) ∈ firsts ∧ first ≤ block

theorem covers_recordFirstBlock {firsts : List (ℕ × ℕ)} {request : QuicknetRandomnessRequest} :
    Covers (recordFirstBlock firsts request) request.round request.blockNumber := by
  induction firsts with
  | nil => exact ⟨request.blockNumber, by simp [recordFirstBlock], le_refl _⟩
  | cons entry rest ih =>
    obtain ⟨round, block⟩ := entry
    unfold recordFirstBlock
    split
    · rename_i hround
      refine ⟨_, List.mem_cons.mpr (Or.inl (by rw [hround])), ?_⟩
      split <;> omega
    · obtain ⟨first, hmem, hle⟩ := ih
      exact ⟨first, List.mem_cons_of_mem _ hmem, hle⟩

theorem Covers.recordFirstBlock {firsts : List (ℕ × ℕ)} {round block : ℕ}
    (h : Covers firsts round block) (request : QuicknetRandomnessRequest) :
    Covers (recordFirstBlock firsts request) round block := by
  induction firsts with
  | nil =>
    obtain ⟨first, hmem, _⟩ := h
    cases hmem
  | cons entry rest ih =>
    obtain ⟨r, b⟩ := entry
    obtain ⟨first, hmem, hle⟩ := h
    unfold Daemon.recordFirstBlock
    rcases List.mem_cons.mp hmem with heq | hmem
    · obtain ⟨rfl, rfl⟩ := Prod.mk.inj heq
      split
      · refine ⟨_, List.mem_cons.mpr (Or.inl rfl), ?_⟩
        split <;> omega
      · exact ⟨_, List.mem_cons.mpr (Or.inl rfl), hle⟩
    · split
      · exact ⟨first, List.mem_cons_of_mem _ hmem, hle⟩
      · obtain ⟨first', hmem', hle'⟩ := ih ⟨first, hmem, hle⟩
        exact ⟨first', List.mem_cons_of_mem _ hmem', hle'⟩

theorem firstBlocks_covers {requests : List QuicknetRandomnessRequest}
    {request : QuicknetRandomnessRequest} (h : request ∈ requests) :
    Covers (firstBlocks requests) request.round request.blockNumber := by
  induction requests using List.reverseRecOn with
  | nil => cases h
  | append_singleton requests last ih =>
    rw [firstBlocks, List.foldl_append, List.foldl_cons, List.foldl_nil]
    rcases List.mem_append.mp h with h | h
    · exact (ih h).recordFirstBlock last
    · rw [List.mem_singleton.mp h]
      exact covers_recordFirstBlock

/-! One outcome for each entry, and no other awaits than imports and observers. -/

def ProcessQuery : DaemonQuery → Prop
  | .signal => True
  | .importRound _ _ => True
  | .onCompleted _ _ _ => True
  | .onIncomplete _ _ => True
  | _ => False

theorem throwIfAborted_only {S : DaemonQuery → Prop} (h : S .signal) : throwIfAborted.Only S := by
  apply Prog.Only.bind (Prog.only_ask h)
  intro reply
  cases reply <;> exact trivial

theorem observe_only {S : DaemonQuery → Prop} {q : DaemonQuery} (h : S q) : (observe q).Only S :=
  Prog.Only.bind (Prog.only_ask h) fun _ => trivial

theorem processRounds_only (scan : ScanType) (firsts : List (ℕ × ℕ)) (failed : Bool)
    (signer : Option SignerBlocker) : (processRounds scan failed signer firsts).Only ProcessQuery := by
  induction firsts generalizing failed signer with
  | nil => exact trivial
  | cons entry rest ih =>
    obtain ⟨round, first⟩ := entry
    have hincomplete (status : RoundStatus) (s : Option SignerBlocker) :
        Prog.Only ProcessQuery (do
          observe (.onIncomplete scan ⟨round, first, status⟩)
          return ⟨round, first, status⟩ :: (← processRounds scan false s rest)) :=
      (observe_only trivial).bind fun _ => (ih false s).bind fun _ => trivial
    unfold processRounds
    cases failed with
    | true => exact (ih true signer).bind fun _ => trivial
    | false =>
      cases signer with
      | some blocker => exact hincomplete _ _
      | none =>
        apply Prog.Only.bind (Prog.only_ask trivial)
        intro reply
        cases reply with
        | ok result =>
          cases result with
          | completed result =>
            exact (observe_only trivial).bind fun _ => (ih false none).bind fun _ => trivial
          | pending result => exact hincomplete _ _
          | signerUnavailable blocker => exact hincomplete _ _
          | alreadyRetained attemptId workId => exact hincomplete _ _
        | error failure =>
          dsimp only
          split
          · exact trivial
          · exact (ih true none).bind fun _ => trivial

/-- The outcomes are those of the entries, in their order. -/
theorem processRounds_ok {scan : ScanType} {firsts : List (ℕ × ℕ)} {failed : Bool}
    {signer : Option SignerBlocker} {log : DaemonLog} {outcomes : List QuicknetRoundOutcome}
    (h : (processRounds scan failed signer firsts).replay log = some (.ok outcomes)) :
    outcomes.map (fun o => (o.round, o.firstRequestBlock)) = firsts := by
  induction firsts generalizing failed signer log outcomes with
  | nil => rw [Except.ok.inj (Prog.replay_ret_iff.mp h).2, List.map_nil]
  | cons entry rest ih =>
    obtain ⟨round, first⟩ := entry
    -- in every branch that continues, one outcome is put before those of the rest
    have hrest {status : RoundStatus} {f : Bool} {s : Option SignerBlocker} {log : DaemonLog}
        (h : (do
          return (⟨round, first, status⟩ : QuicknetRoundOutcome) ::
            (← processRounds scan f s rest) : Async _).replay log = some (.ok outcomes)) :
        outcomes.map (fun o => (o.round, o.firstRequestBlock)) = (round, first) :: rest := by
      rw [Prog.bind_eq, Prog.replay_bind_ok_iff] at h
      obtain ⟨tail, l₁, l₂, rfl, h₁, h₂⟩ := h
      rw [Except.ok.inj (Prog.replay_ret_iff.mp h₂).2, List.map_cons, ih h₁]
    have hobserved {q : DaemonQuery} {status : RoundStatus} {s : Option SignerBlocker}
        {log : DaemonLog}
        (h : (do
          observe q
          return (⟨round, first, status⟩ : QuicknetRoundOutcome) ::
            (← processRounds scan false s rest) : Async _).replay log = some (.ok outcomes)) :
        outcomes.map (fun o => (o.round, o.firstRequestBlock)) = (round, first) :: rest := by
      rw [Prog.bind_eq, Prog.replay_bind_ok_iff] at h
      obtain ⟨_, l₁, l₂, rfl, _, h₂⟩ := h
      exact hrest h₂
    unfold processRounds at h
    cases failed with
    | true => exact hrest h
    | false =>
      cases signer with
      | some blocker => exact hobserved h
      | none =>
        simp only [Prog.bind_eq] at h
        rw [Prog.replay_bind_ok_iff] at h
        obtain ⟨reply, l₁, l₂, rfl, _, h₂⟩ := h
        cases reply with
        | ok result =>
          cases result with
          | completed result => exact hobserved h₂
          | pending result => exact hobserved h₂
          | signerUnavailable blocker => exact hobserved h₂
          | alreadyRetained attemptId workId => exact hobserved h₂
        | error failure =>
          dsimp only at h₂
          split at h₂
          · exact absurd (Prog.replay_throw_iff.mp h₂).2 (by simp)
          · exact hrest h₂

/-- Every request is covered by an outcome of its round. -/
theorem process_covers {scan : ScanType} {requests : List QuicknetRandomnessRequest}
    {log : DaemonLog} {outcomes : List QuicknetRoundOutcome}
    (h : (processQuicknetRequestsWithOutcomes scan requests).replay log = some (.ok outcomes))
    {request : QuicknetRandomnessRequest} (hmem : request ∈ requests) :
    ∃ outcome ∈ outcomes, outcome.round = request.round ∧
      outcome.firstRequestBlock ≤ request.blockNumber := by
  unfold processQuicknetRequestsWithOutcomes at h
  rw [Prog.bind_eq, Prog.replay_bind_ok_iff] at h
  obtain ⟨_, l₁, l₂, rfl, _, h₂⟩ := h
  obtain ⟨first, hfirst, hle⟩ := firstBlocks_covers hmem
  rw [← processRounds_ok h₂] at hfirst
  obtain ⟨outcome, houtcome, heq⟩ := List.mem_map.mp hfirst
  obtain ⟨hround, rfl⟩ := Prod.mk.inj heq
  exact ⟨outcome, houtcome, hround, hle⟩

theorem process_only (scan : ScanType) (requests : List QuicknetRandomnessRequest) :
    (processQuicknetRequestsWithOutcomes scan requests).Only ProcessQuery :=
  (throwIfAborted_only trivial).bind fun _ => processRounds_only _ _ _ _

end Quicknet.Daemon
