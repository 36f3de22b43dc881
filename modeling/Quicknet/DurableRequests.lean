import Quicknet.RequestProcessor

/-! One durable pass over a consumer's requests: the log scan, the imports and the
reads of the registry's storage at one anchor, between two reads of that anchor. -/
namespace Quicknet.Daemon
open Interaction

inductive DurableFulfillment
  | stored
  | notStored
  | unavailable (error : Failure)
  deriving DecidableEq, Repr

structure DurableRoundOutcome where
  round : ℕ
  firstRequestBlock : ℕ
  fulfillment : DurableFulfillment
  deriving DecidableEq, Repr

inductive DurableCheckpointDecision
  | verified (nextBlock : ℕ)
  | anchorChanged (observedAnchor : BlockAnchor)
  | anchorUnavailable (error : Failure)
  deriving DecidableEq, Repr

inductive DurableRequestResult
  | caughtUp (nextBlock : ℕ)
  | anchorUnavailable (durableBlock : ℕ) (error : Failure)
  | scanned (fromBlock toBlock : ℕ) (anchor : BlockAnchor) (imports : List QuicknetRoundOutcome)
      (fulfillment : List DurableRoundOutcome) (checkpoint : DurableCheckpointDecision)
  deriving DecidableEq, Repr

def DurableRequestResult.imports : DurableRequestResult → List QuicknetRoundOutcome
  | .scanned _ _ _ imports _ _ => imports
  | _ => []

def DurableRequestResult.checkpoint : DurableRequestResult → DurableCheckpointDecision
  | .caughtUp nextBlock => .verified nextBlock
  | .anchorUnavailable _ error => .anchorUnavailable error
  | .scanned _ _ _ _ _ checkpoint => checkpoint

/-- The anchor of a block, inside a `try`. -/
def tryBlockAnchor (blockNumber : ℕ) : Async (Except Failure BlockAnchor) := do
  match (← Prog.ask (DaemonQuery.block blockNumber) : Except Failure BlockReply) with
  | .error e => return .error e
  | .ok block =>
    match block.hash with
    | some hash =>
      if block.number = some blockNumber then return .ok ⟨blockNumber, hash⟩
      else return .error (.error "Invalid block anchor response.")
    | none => return .error (.error "Invalid block anchor response.")

def readFulfillment (round : ℕ) (anchor : BlockAnchor) : Async DurableFulfillment := do
  match (← Prog.ask (DaemonQuery.isStored round anchor.blockNumber) :
      Except Failure (Option Bool)) with
  | .ok (some true) => return .stored
  | .ok (some false) => return .notStored
  | .ok none => return .unavailable (.typeError "Invalid durable storage response.")
  | .error e => return .unavailable e

/-- The loop over the imports, which lowers `nextBlock` to the first block of
every round that is not stored. -/
def readFulfillments (anchor : BlockAnchor) (nextBlock : ℕ) :
    List QuicknetRoundOutcome → Async (List DurableRoundOutcome × ℕ)
  | [] => return ([], nextBlock)
  | outcome :: rest => do
    let state ← readFulfillment outcome.round anchor
    throwIfAborted
    let lowered :=
      if state ≠ .stored ∧ outcome.firstRequestBlock < nextBlock then outcome.firstRequestBlock
      else nextBlock
    let (fulfillment, next) ← readFulfillments anchor lowered rest
    return (⟨outcome.round, outcome.firstRequestBlock, state⟩ :: fulfillment, next)

/-- Whether the second read of the anchor confirms the first. -/
def decideCheckpoint (anchor : BlockAnchor) (nextBlock : ℕ) : Async DurableCheckpointDecision := do
  match ← tryBlockAnchor anchor.blockNumber with
  | .ok after =>
    if blockAnchorsMatch anchor after then return .verified nextBlock
    else return .anchorChanged after
  | .error e => return .anchorUnavailable e

/-- A request outside the scan that reported it. -/
def isOutside (consumer : Address) (fromBlock toBlock : ℕ)
    (request : QuicknetRandomnessRequest) : Bool :=
  request.consumer ≠ consumer || decide (request.blockNumber < fromBlock) ||
    decide (request.blockNumber > toBlock)

def reconcileDurableRequests (consumer : Address) (nextBlock durableBlock maxBlockRange : ℕ) :
    Async DurableRequestResult := do
  if maxBlockRange = 0 then
    .throw (.error "Invalid durable scan bounds.")
  else
    throwIfAborted
    if nextBlock > durableBlock then
      return .caughtUp nextBlock
    else
      match ← tryBlockAnchor durableBlock with
      | .error e =>
        throwIfAborted
        return .anchorUnavailable durableBlock e
      | .ok anchor =>
        throwIfAborted
        match ← scanQuicknetRequests [consumer] nextBlock anchor.blockNumber maxBlockRange with
        | .caughtUp _ _ => return .caughtUp nextBlock
        | .scanned _ fromBlock toBlock scanNextBlock requests =>
          -- reject inconsistent metadata before deriving a prefix
          if requests.any (isOutside consumer fromBlock toBlock) then
            .throw (.error "Request log is outside the durable scan.")
          else
            let imports ← processQuicknetRequestsWithOutcomes .durable requests
            throwIfAborted
            let (fulfillment, next) ← readFulfillments anchor scanNextBlock imports
            let checkpoint ← decideCheckpoint anchor next
            throwIfAborted
            return .scanned fromBlock toBlock anchor imports fulfillment checkpoint

/-! What a verified checkpoint rests on. -/

def anchorRead (a : BlockAnchor) : Exchange DaemonQuery.Reply Failure :=
  ⟨.block a.blockNumber, .ok (.ok ⟨some a.blockNumber, some a.blockHash⟩ :
    Except Failure BlockReply)⟩

def storedRead (round blockNumber : ℕ) : Exchange DaemonQuery.Reply Failure :=
  ⟨.isStored round blockNumber, .ok (.ok (some true) : Except Failure (Option Bool))⟩

theorem tryBlockAnchor_ok {n : ℕ} {log : DaemonLog} {anchor : BlockAnchor}
    (h : (tryBlockAnchor n).replay log = some (.ok (.ok anchor))) :
    anchor.blockNumber = n ∧ log = [anchorRead anchor] := by
  unfold tryBlockAnchor at h
  rw [Prog.bind_eq, Prog.replay_bind_ok_iff] at h
  obtain ⟨reply, l₁, l₂, rfl, h₁, h₂⟩ := h
  have hread := Prog.replay_ask_ok_iff.mp h₁
  cases reply with
  | error e => exact absurd (Prog.replay_ret_iff.mp h₂).2 (by simp)
  | ok block =>
    obtain ⟨number, hash⟩ := block
    cases hash with
    | none => exact absurd (Prog.replay_ret_iff.mp h₂).2 (by simp)
    | some hash =>
      dsimp only at h₂
      split at h₂
      · rename_i hnumber
        obtain ⟨rfl, hout⟩ := Prog.replay_ret_iff.mp h₂
        have hanchor : anchor = ⟨n, hash⟩ := Except.ok.inj (Except.ok.inj hout)
        subst hnumber hanchor
        rw [List.append_nil, hread]
        exact ⟨rfl, rfl⟩
      · exact absurd (Prog.replay_ret_iff.mp h₂).2 (by simp)

theorem readFulfillment_stored {round : ℕ} {anchor : BlockAnchor} {log : DaemonLog}
    (h : (readFulfillment round anchor).replay log = some (.ok .stored)) :
    log = [storedRead round anchor.blockNumber] := by
  unfold readFulfillment at h
  rw [Prog.bind_eq, Prog.replay_bind_ok_iff] at h
  obtain ⟨reply, l₁, l₂, rfl, h₁, h₂⟩ := h
  rw [Prog.replay_ask_ok_iff.mp h₁]
  split at h₂
  · obtain ⟨rfl, _⟩ := Prog.replay_ret_iff.mp h₂
    rfl
  · exact absurd (Prog.replay_ret_iff.mp h₂).2 (by simp)
  · exact absurd (Prog.replay_ret_iff.mp h₂).2 (by simp)
  · exact absurd (Prog.replay_ret_iff.mp h₂).2 (by simp)

/-- The loop only lowers `nextBlock`, and below its result every round was read as
stored. -/
theorem readFulfillments_ok {anchor : BlockAnchor} {outcomes : List QuicknetRoundOutcome}
    {nextBlock next : ℕ} {log : DaemonLog} {fulfillment : List DurableRoundOutcome}
    (h : (readFulfillments anchor nextBlock outcomes).replay log =
      some (.ok (fulfillment, next))) :
    next ≤ nextBlock ∧ ∀ outcome ∈ outcomes, outcome.firstRequestBlock < next →
      storedRead outcome.round anchor.blockNumber ∈ log := by
  induction outcomes generalizing nextBlock log fulfillment with
  | nil =>
    have hout := (Prog.replay_ret_iff.mp h).2
    simp only [Except.ok.injEq, Prod.mk.injEq] at hout
    exact ⟨hout.2.le, by simp⟩
  | cons outcome rest ih =>
    unfold readFulfillments at h
    simp only [Prog.bind_eq, Prog.replay_bind_ok_iff] at h
    obtain ⟨state, l₁, l₂, rfl, hstate, ⟨⟩, l₃, l₄, rfl, _, ⟨tail, next'⟩, l₅, l₆, rfl, htail, hret⟩ := h
    have hout := (Prog.replay_ret_iff.mp hret).2
    simp only [Except.ok.injEq, Prod.mk.injEq] at hout
    obtain ⟨rfl, rfl⟩ := hout
    obtain ⟨hle, hrest⟩ := ih htail
    constructor
    · split at hle
      · rename_i hlow
        omega
      · exact hle
    · intro o ho hlt
      rcases List.mem_cons.mp ho with rfl | ho
      · have hstored : state = .stored := by
          by_contra hne
          split at hle
          · omega
          · rename_i hnot
            exact hnot ⟨hne, by omega⟩
        rw [hstored] at hstate
        rw [readFulfillment_stored hstate]
        simp
      · have := hrest o ho hlt
        simp [this]

theorem decideCheckpoint_verified {anchor : BlockAnchor} {nextBlock n : ℕ} {log : DaemonLog}
    (h : (decideCheckpoint anchor nextBlock).replay log = some (.ok (.verified n))) :
    n = nextBlock ∧ log = [anchorRead anchor] := by
  unfold decideCheckpoint at h
  rw [Prog.bind_eq, Prog.replay_bind_ok_iff] at h
  obtain ⟨reply, l₁, l₂, rfl, h₁, h₂⟩ := h
  cases reply with
  | error e => exact absurd (Prog.replay_ret_iff.mp h₂).2 (by simp)
  | ok after =>
    dsimp only at h₂
    split at h₂
    · rename_i hmatch
      obtain ⟨rfl, hout⟩ := Prog.replay_ret_iff.mp h₂
      have hn : n = nextBlock := by simpa using hout
      rw [List.append_nil, (tryBlockAnchor_ok h₁).2, blockAnchorsMatch_iff.mp hmatch]
      exact ⟨hn, rfl⟩
    · exact absurd (Prog.replay_ret_iff.mp h₂).2 (by simp)

/-- A log that scans the blocks from `fromBlock` to `toBlock` and reads every
request below `nextBlock` as stored, all between two equal reads of the anchor. -/
structure DurablePass (log : DaemonLog) (consumer : Address) (fromBlock nextBlock : ℕ)
    (anchor : BlockAnchor) (toBlock : ℕ) (logs : List RequestLog) : Prop where
  bracketed : ∃ pre mid post, log = pre ++ anchorRead anchor :: (mid ++ anchorRead anchor :: post) ∧
    logsRead [consumer] fromBlock toBlock logs ∈ mid ∧
    ∀ l ∈ logs, ∀ block, l.blockNumber = some block → block < nextBlock →
      storedRead l.round anchor.blockNumber ∈ mid
  from_le : fromBlock ≤ toBlock
  to_le : toBlock ≤ anchor.blockNumber
  next_le : nextBlock ≤ toBlock + 1

theorem DurablePass.append {log : DaemonLog} {consumer : Address} {fromBlock nextBlock : ℕ}
    {anchor : BlockAnchor} {toBlock : ℕ} {logs : List RequestLog}
    (h : DurablePass log consumer fromBlock nextBlock anchor toBlock logs) (before after : DaemonLog) :
    DurablePass (before ++ log ++ after) consumer fromBlock nextBlock anchor toBlock logs := by
  obtain ⟨pre, mid, post, rfl, hmid⟩ := h.bracketed
  exact ⟨⟨before ++ pre, mid, post ++ after, by simp, hmid⟩, h.from_le, h.to_le, h.next_le⟩

/-- A verified checkpoint that moves forward comes from a durable pass. -/
theorem reconcile_verified {consumer : Address} {nextBlock durableBlock maxBlockRange n : ℕ}
    {log : DaemonLog} {result : DurableRequestResult}
    (h : (reconcileDurableRequests consumer nextBlock durableBlock maxBlockRange).replay log =
      some (.ok result)) (hverified : result.checkpoint = .verified n) (hn : nextBlock < n) :
    ∃ anchor toBlock logs, anchor.blockNumber = durableBlock ∧
      DurablePass log consumer nextBlock n anchor toBlock logs := by
  have hstuck {m : ℕ} (hcheckpoint : DurableCheckpointDecision.verified m = .verified n)
      (hm : m = nextBlock) : False := by
    cases hcheckpoint
    omega
  unfold reconcileDurableRequests at h
  split at h
  · exact absurd (Prog.replay_throw_iff.mp h).2 (by simp)
  · simp only [Prog.bind_eq] at h
    rw [Prog.replay_bind_ok_iff] at h
    obtain ⟨⟨⟩, l₁, l₂, rfl, _, h⟩ := h
    split at h
    · rw [Except.ok.inj (Prog.replay_ret_iff.mp h).2] at hverified
      exact (hstuck hverified rfl).elim
    · rw [Prog.replay_bind_ok_iff] at h
      obtain ⟨reply, l₃, l₄, rfl, hanchor, h⟩ := h
      cases reply with
      | error e =>
        rw [Prog.replay_bind_ok_iff] at h
        obtain ⟨⟨⟩, l₅, l₆, rfl, _, h⟩ := h
        rw [Except.ok.inj (Prog.replay_ret_iff.mp h).2] at hverified
        cases hverified
      | ok anchor =>
        obtain ⟨hnumber, rfl⟩ := tryBlockAnchor_ok hanchor
        dsimp only at h
        rw [Prog.replay_bind_ok_iff] at h
        obtain ⟨⟨⟩, l₅, l₆, rfl, _, h⟩ := h
        rw [Prog.replay_bind_ok_iff] at h
        obtain ⟨scan, l₇, l₈, rfl, hscan, h⟩ := h
        cases scan with
        | caughtUp _ _ =>
          rw [Except.ok.inj (Prog.replay_ret_iff.mp h).2] at hverified
          exact (hstuck hverified rfl).elim
        | scanned throughBlock fromBlock toBlock scanNextBlock requests =>
          obtain ⟨rfl, rfl, hfrom, hto, logs, rfl, hlogs⟩ := scanQuicknetRequests_scanned hscan
          dsimp only at h
          split at h
          · exact absurd (Prog.replay_throw_iff.mp h).2 (by simp)
          · simp only [Prog.replay_bind_ok_iff] at h
            obtain ⟨imports, l₉, l₁₀, rfl, himports, ⟨⟩, l₁₁, l₁₂, rfl, _,
              ⟨fulfillment, next⟩, l₁₃, l₁₄, rfl, hread, checkpoint, l₁₅, l₁₆, rfl, hdecide,
              ⟨⟩, l₁₇, l₁₈, rfl, _, hret⟩ := h
            rw [Except.ok.inj (Prog.replay_ret_iff.mp hret).2] at hverified
            change checkpoint = .verified n at hverified
            subst hverified
            obtain ⟨rfl, rfl⟩ := decideCheckpoint_verified hdecide
            obtain ⟨hnext, hstored⟩ := readFulfillments_ok hread
            refine ⟨anchor, toBlock, logs, hnumber, ?_, hfrom, hto, hnext⟩
            refine ⟨l₁, l₅ ++ ([logsRead [consumer] fromBlock toBlock logs] ++
              (l₉ ++ (l₁₁ ++ l₁₃))), l₁₇ ++ l₁₈, by simp, by simp, ?_⟩
            intro l hl block hblock hlt
            -- the outcome of the round starts no later than this request
            obtain ⟨request, hrequest, _, hround, hrblock⟩ := mapM_requestOfLog hlogs l hl
            obtain ⟨outcome, houtcome, horound, hle⟩ := process_covers himports hrequest
            have hsame : request.blockNumber = block := by
              rw [hblock] at hrblock
              exact (Option.some.inj hrblock).symm
            have hmem := hstored outcome houtcome (by omega)
            rw [horound, hround] at hmem
            simp [hmem]

end Quicknet.Daemon
