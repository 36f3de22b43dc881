import Quicknet.NonceSync
import Quicknet.SignerCoordinator
import Quicknet.Library.Transition

/-! Runs of one journal: a coordinator process, its crashes and restarts, and
nonce repairs while no coordinator runs. -/
namespace Quicknet

open Interaction

/-- `stored` is the snapshot whose save was acknowledged last; `uncertain` is a
snapshot whose save was not acknowledged and may be on disk all the same. The
last two are the nonce repair, which opens the journal before it writes. -/
inductive World
  | running (c : SignerCoordinator)
  | stopped (stored uncertain : Option TransactionJournalSnapshot)
  | opened (read : Option TransactionJournalSnapshot)
  | repairing (stored repair : TransactionJournalSnapshot)

inductive Action
  | beginInspection
  | callOwned (generation : ℕ) (call : OwnedCall)
  | startOperation
  | answered (log : RpcLog)
  | settleOperation
  | finishInspection (generation : ℕ)
  | abandonInspection (generation : ℕ)
  | completeAbandonment
  | prepareAttempt (workId : WorkId) (attemptId : AttemptId) (accountAddress : Address)
      (transaction : PreparedRelayerTransaction)
  | signed (answer : Option Bytes) (summaryCreated : Bool)
  | broadcastAttempt (attemptId : AttemptId)
  | sendSettled
  | retryPersistence
  | stored
  | storeFailed
  | resume
  | beginObservation
  | endObservation
  | crash
  /-- Opens the journal, from the uncertain snapshot when `uncertain` is set,
  and makes what it loaded durable again. -/
  | openJournal (uncertain : Bool)
  | restart (uncertain : Bool) (maxRetainedAttempts : ℕ)
  | syncNonce (observation : AnchoredNonceObservation) (latestNonce pendingNonce : ℕ)

structure Input where
  now : Timestamp
  action : Action

section Step

variable (lib : TransactionLibrary) (identity : JournalIdentity)

/-- What an action of the running process does. -/
def coordinatorStep (i : Input) (c : SignerCoordinator) :
    Option (SignerCoordinator × Option Event) :=
  match i.action with
  | .beginInspection => c.beginInspection
  | .callOwned generation call => c.callOwned generation call
  | .startOperation => c.startOperation i.now
  | .answered log => c.answered lib identity i.now log
  | .settleOperation => c.settleOperation
  | .finishInspection generation => c.finishInspection i.now generation
  | .abandonInspection generation => c.abandonInspection generation
  | .completeAbandonment => c.completeAbandonment i.now
  | .prepareAttempt workId attemptId accountAddress transaction =>
    c.prepareAttempt i.now workId attemptId accountAddress transaction
  | .signed answer summaryCreated => c.signed lib identity i.now answer summaryCreated
  | .broadcastAttempt attemptId => c.broadcastAttempt lib identity i.now attemptId
  | .sendSettled => c.sendSettled i.now
  | .retryPersistence => c.retryPersistence
  | .stored => c.stored
  | .storeFailed => c.storeFailed i.now
  | .resume => c.resume i.now
  | .beginObservation => c.beginObservation
  | .endObservation => c.endObservation i.now
  | .crash | .openJournal _ | .restart _ _ | .syncNonce _ _ _ => none

/-- The snapshot that a start finds on disk. -/
def chooseRead (uncertain : Bool) (stored pending : Option TransactionJournalSnapshot) :
    Option TransactionJournalSnapshot :=
  if uncertain then pending.orElse fun _ => stored else stored

/-- What happens while no coordinator runs. -/
def stoppedStep (i : Input) (stored uncertain : Option TransactionJournalSnapshot) :
    Option (World × Option Event) :=
  match i.action with
  | .openJournal u =>
    let read := chooseRead u stored uncertain
    some (.opened read, some (.loaded read))
  | .restart u maxRetainedAttempts =>
    let read := chooseRead u stored uncertain
    match SignerCoordinator.create lib identity maxRetainedAttempts read i.now with
    | .ok c => some (.running c, some (.loaded read))
    | .error _ => none
  | _ => none

/-- The nonce repair of the journal that was opened. -/
def openedStep (i : Input) (read : Option TransactionJournalSnapshot) :
    Option (World × Option Event) :=
  match i.action, read with
  | .syncNonce observation latestNonce pendingNonce, some current =>
    match planNonceSync current identity observation latestNonce pendingNonce i.now with
    | .ok (.repairAvailable _ snapshot) =>
      some (.repairing current snapshot, some (.write (.repair observation) snapshot))
    | _ => none
  | .crash, _ => some (.stopped read none, none)
  | _, _ => none

def worldStep (i : Input) (w : World) : Option (World × Option Event) :=
  match w with
  | .running c =>
    match i.action with
    | .crash => some (.stopped c.persistence.current c.persistence.pending, none)
    | _ => (coordinatorStep lib identity i c).map fun r => (.running r.1, r.2)
  | .stopped stored uncertain => stoppedStep lib identity i stored uncertain
  | .opened read => openedStep identity i read
  | .repairing stored repair =>
    match i.action with
    | .stored => some (.stopped (some repair) none, some (.acked repair))
    | .storeFailed | .crash => some (.stopped (some stored) (some repair), none)
    | _ => none

/-- The signer of one journal, from a missing journal on. -/
def signerSystem : Transition.System World Input Event where
  init := .stopped none none
  step := worldStep lib identity

abbrev runSigner (is : List Input) : World × List Event := (signerSystem lib identity).run is

end Step

section Extend

variable {lib : TransactionLibrary} {identity : JournalIdentity} {is : List Input} {i : Input}
  {tr : List Event} {e : Option Event}

theorem worldStep_of_running {c c' : SignerCoordinator}
    (h : coordinatorStep lib identity i c = some (c', e)) :
    worldStep lib identity i (.running c) = some (.running c', e) := by
  simp only [worldStep]
  split
  · rename_i hcrash
    rw [coordinatorStep, hcrash] at h
    cases h
  · rw [h, Option.map_some]

theorem runSigner_append {w w' : World} (h : runSigner lib identity is = (w, tr))
    (hs : worldStep lib identity i w = some (w', e)) :
    runSigner lib identity (is ++ [i]) = (w', tr ++ e.toList) := by
  have hstep : (signerSystem lib identity).step i (runSigner lib identity is).1 = some (w', e) := by
    rw [h]
    exact hs
  rw [runSigner, Transition.System.run_append_of_some hstep, ← runSigner, h]

/-- An input that the coordinator accepts extends its run. -/
theorem runSigner_acts {c c' : SignerCoordinator} (h : runSigner lib identity is = (.running c, tr))
    (hs : coordinatorStep lib identity i c = some (c', e)) :
    runSigner lib identity (is ++ [i]) = (.running c', tr ++ e.toList) :=
  runSigner_append h (worldStep_of_running hs)

/-- An input that the coordinator refuses changes nothing. -/
theorem runSigner_refuses {c : SignerCoordinator} (h : runSigner lib identity is = (.running c, tr))
    (hi : i.action ≠ .crash) (hs : coordinatorStep lib identity i c = none) :
    runSigner lib identity (is ++ [i]) = (.running c, tr) := by
  have hstep : (signerSystem lib identity).step i (runSigner lib identity is).1 = none := by
    rw [h]
    simp only [signerSystem, worldStep, hs, Option.map_none]
  rw [runSigner, Transition.System.run_append_of_none hstep, ← runSigner, h]

end Extend

end Quicknet
