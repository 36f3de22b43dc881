import Quicknet.BeaconFetch
import Quicknet.RegistryAgreement
import Quicknet.RoundImport

/-! The import of a round with the data that it exchanges with the registry: what it reads
there, the submission that it chooses, and the randomness that it returns. The deployment, the
transaction manager and the beacon's endpoints are answered by the environment. -/
namespace Quicknet.Rounds
open Interaction
open Contracts (Bytes32 Round Submission RegistryError NobleG1 SignatureWitness)
open Drand (QuicknetBeacon)

/-! Errors. Those of the code outside are numbered. -/

/-- What a simulated call throws: the revert of the registry, or another error of the client. -/
inductive SimulationFailure
  | reverted (e : RegistryError)
  | foreign (id : ℕ)
  deriving DecidableEq

inductive ImportFailure
  | invalidRound
  | invalidReceiptTimeout
  | invalidFetchTimeout
  | roundMismatch (requested received : ℕ)
  /-- A witness that does not fit the types of the registry's function. -/
  | encoding
  | simulation (e : SimulationFailure)
  | submissionReverted (transactionHash : Hash)
  | randomnessMismatch (round : ℕ) (simulated stored : Bytes32)
  | foreign (id : ℕ)
  deriving DecidableEq

def ImportFailure.message : ImportFailure → String
  | .invalidRound => "Quicknet round must be greater than zero."
  | .invalidReceiptTimeout => "Invalid receipt timeout."
  | .invalidFetchTimeout => "timeoutMs must be a positive safe integer no greater than 60000."
  | .roundMismatch requested received =>
    s!"Quicknet round mismatch: requested {requested}, received {received}."
  | .submissionReverted transactionHash => s!"Registry submission reverted: {transactionHash}"
  | .randomnessMismatch round simulated stored =>
    s!"Stored randomness mismatch for Quicknet round {round}: simulated {simulated}, " ++
      s!"stored {stored}."
  | .encoding | .simulation _ | .foreign _ => ""

/-! What an import awaits. -/

/-- How the transaction manager answers a submission. -/
inductive BeaconSubmitted
  | deferred (primaryReason : SignerBlocker)
  | alreadyRetained (retained : AttemptIdentity)
  | notAcknowledged (attemptId : AttemptId) (transactionHash : Hash)
  | acknowledged (attemptId : AttemptId) (transactionHash : Hash)

inductive ReceiptFailure
  | timeout
  | foreign (id : ℕ)

structure Receipt where
  transactionHash : Hash
  blockNumber : ℕ
  success : Bool

/-- The reads of the registry name the round, and the block where one is given. -/
inductive ImportQuery
  | signal
  | verifyDeployment
  | isStored (round : ℕ)
  | getBeacon (round : ℕ) (blockNumber : Option ℕ)
  | fetchBeacon (round : ℕ) (timeoutMs : Option ℕ)
  | simulate (request : Submission)
  | submit (request : Submission)
  | receipt (transactionHash : Hash) (timeoutMs : ℕ)
  | pause (milliseconds : ℕ)
  deriving DecidableEq

def ImportQuery.Reply : ImportQuery → Type
  | .signal => Option ℕ
  | .verifyDeployment => Except ℕ Unit
  | .isStored _ => Except ℕ Bool
  | .getBeacon _ _ => Except ℕ Bytes32
  | .fetchBeacon _ _ => Except ℕ QuicknetBeacon
  | .simulate _ => Except SimulationFailure Bytes32
  | .submit _ => Except ℕ BeaconSubmitted
  | .receipt _ _ => Except ReceiptFailure Receipt
  | .pause _ => Unit

abbrev Import (α : Type) := Prog ImportQuery.Reply ImportFailure α

def throwIfAborted : Import Unit := do
  let reason : Option ℕ ← Prog.ask ImportQuery.signal
  match reason with
  | some id => .throw (.foreign id)
  | none => return ()

def verifyDeployment : Import Unit := do
  let reply : Except ℕ Unit ← Prog.ask ImportQuery.verifyDeployment
  Prog.lift (reply.mapError .foreign)

def isStored (round : ℕ) : Import Bool := do
  let reply : Except ℕ Bool ← Prog.ask (ImportQuery.isStored round)
  Prog.lift (reply.mapError .foreign)

def getBeacon (round : ℕ) (blockNumber : Option ℕ) : Import Bytes32 := do
  let reply : Except ℕ Bytes32 ← Prog.ask (ImportQuery.getBeacon round blockNumber)
  Prog.lift (reply.mapError .foreign)

def fetchBeacon (round : ℕ) (timeoutMs : Option ℕ) : Import QuicknetBeacon := do
  let reply : Except ℕ QuicknetBeacon ← Prog.ask (ImportQuery.fetchBeacon round timeoutMs)
  Prog.lift (reply.mapError .foreign)

/-! The choice of the submission. -/

inductive WitnessFallbackReason
  | witnessRejected
  | witnessDecodeFailed
  deriving DecidableEq, Repr

inductive BeaconSubmissionDetails
  | witness
  | compressed (fallbackReason : WitnessFallbackReason)
  deriving DecidableEq, Repr

structure Simulation where
  request : Submission
  result : Bytes32
  submission : BeaconSubmissionDetails

/-- The round and the bytes of the signature as they are encoded for the registry. -/
structure EncodedBeacon where
  round : Round
  signature : Contracts.Bytes

def encodeBeacon (round : ℕ) (signature : List Char) : EncodedBeacon :=
  ⟨BitVec.ofNat 64 round, Contracts.signatureBytes signature⟩

def simulateSubmitBeacon (beacon : EncodedBeacon) : Import (Except SimulationFailure Bytes32) :=
  Prog.ask (ImportQuery.simulate (.submitBeacon beacon.round beacon.signature))

def witnessRequest (beacon : EncodedBeacon) (witness : SignatureWitness) : Submission :=
  .submitBeaconWithWitness beacon.round beacon.signature (BitVec.ofNat 128 witness.yHi)
    (BitVec.ofNat 256 witness.yLo)

def simulateCompressed (beacon : EncodedBeacon) (fallbackReason : WitnessFallbackReason) :
    Import Simulation := do
  let reply ← simulateSubmitBeacon beacon
  match reply with
  | .ok result =>
    return ⟨.submitBeacon beacon.round beacon.signature, result, .compressed fallbackReason⟩
  | .error e => .throw (.simulation e)

/-- The error's name as it is decoded from the data of the revert; `selector` is that of
`InvalidBeacon`. -/
def isInvalidBeacon (selector : Contracts.Bytes) : SimulationFailure → Bool
  | .reverted .invalidBeacon => true
  | .reverted (.reverted data) => data.take 4 == selector
  | _ => false

def simulateBeaconSubmission {Point : Type} (G1 : NobleG1 Point) (selector : Contracts.Bytes)
    (round : ℕ) (signature : List Char) : Import Simulation :=
  let beacon := encodeBeacon round signature
  match Contracts.createSignatureWitness G1 signature with
  | .error _ => simulateCompressed beacon .witnessDecodeFailed
  | .ok witness =>
    if 2 ^ 128 ≤ witness.yHi ∨ 2 ^ 256 ≤ witness.yLo then .throw .encoding
    else do
      let reply : Except SimulationFailure Bytes32 ←
        Prog.ask (ImportQuery.simulate (witnessRequest beacon witness))
      match reply with
      | .ok result => return ⟨witnessRequest beacon witness, result, .witness⟩
      | .error e =>
        if isInvalidBeacon selector e then simulateCompressed beacon .witnessRejected
        else .throw (.simulation e)

/-! The import. -/

def DEFAULT_RECEIPT_TIMEOUT_MS : ℕ := 30000
def MAX_RECEIPT_TIMEOUT_MS : ℕ := 2147483647

def validateReceiptTimeoutMs (value : ℕ) : Except ImportFailure ℕ :=
  if 0 < value ∧ value ≤ MAX_RECEIPT_TIMEOUT_MS then .ok value else .error .invalidReceiptTimeout

def validateFetchTimeoutMs (value : ℕ) : Except ImportFailure ℕ :=
  if 0 < value ∧ value ≤ Drand.MAX_FETCH_TIMEOUT_MS then .ok value
  else .error .invalidFetchTimeout

structure ImportOptions (Point : Type) where
  G1 : NobleG1 Point
  invalidBeacon : Contracts.Bytes
  round : ℕ
  beacon : Option QuicknetBeacon
  receiptTimeoutMs : Option ℕ
  fetchTimeoutMs : Option ℕ

inductive ImportResult
  | alreadyStored (randomness : Bytes32)
  | imported (submission : BeaconSubmissionDetails) (randomness : Bytes32)
      (transactionHash : Hash)
  | pending (attemptId : AttemptId) (transactionHash : Hash) (reason : PendingReason)
  | signerUnavailable (blocker : SignerBlocker)
  | alreadyRetained (retained : AttemptIdentity)

def ImportResult.randomness? : ImportResult → Option Bytes32
  | .alreadyStored randomness => some randomness
  | .imported _ randomness _ => some randomness
  | _ => none

def STORED_BEACON_ATTEMPTS : ℕ := 5
def STORED_BEACON_DELAY_MS : ℕ := 500

/-- The attempts, with the number of those that may follow; the error of the last is thrown. -/
def readStoredBeaconFrom (round blockNumber : ℕ) : ℕ → Import Bytes32
  | 0 => getBeacon round (some blockNumber)
  | remaining + 1 => do
    match ← (getBeacon round (some blockNumber)).attempt with
    | .ok randomness => return randomness
    | .error _ =>
      let _ ← Prog.ask (ImportQuery.pause STORED_BEACON_DELAY_MS)
      readStoredBeaconFrom round blockNumber remaining

def readStoredBeaconAtBlock (round blockNumber : ℕ) : Import Bytes32 :=
  readStoredBeaconFrom round blockNumber (STORED_BEACON_ATTEMPTS - 1)

/-- After the receipt of a successful transaction. -/
def verifyStoredBeacon (round : ℕ) (simulation : Simulation) (receipt : Receipt) :
    Import ImportResult := do
  if !receipt.success then .throw (.submissionReverted receipt.transactionHash)
  else
    let stored ← readStoredBeaconAtBlock round receipt.blockNumber
    if stored ≠ simulation.result then
      .throw (.randomnessMismatch round simulation.result stored)
    else return .imported simulation.submission stored receipt.transactionHash

/-- From the submission on. -/
def submitSimulation (round receiptTimeoutMs : ℕ) (simulation : Simulation) :
    Import ImportResult := do
  throwIfAborted
  let reply : Except ℕ BeaconSubmitted ← Prog.ask (ImportQuery.submit simulation.request)
  match reply with
  | .error id => .throw (.foreign id)
  | .ok (.alreadyRetained retained) => return .alreadyRetained retained
  | .ok (.deferred primaryReason) => return .signerUnavailable primaryReason
  | .ok (.notAcknowledged attemptId transactionHash) =>
    return .pending attemptId transactionHash .broadcastNotAcknowledged
  | .ok (.acknowledged attemptId transactionHash) => do
    let receipt : Except ReceiptFailure Receipt ←
      Prog.ask (ImportQuery.receipt transactionHash receiptTimeoutMs)
    match receipt with
    | .error .timeout => return .pending attemptId transactionHash .receiptTimeout
    | .error (.foreign id) => .throw (.foreign id)
    | .ok receipt => verifyStoredBeacon round simulation receipt

def providedOrFetched (round : ℕ) (timeoutMs : Option ℕ) :
    Option QuicknetBeacon → Import QuicknetBeacon
  | some beacon => return beacon
  | none => do
    throwIfAborted
    fetchBeacon round timeoutMs

/-- For a round that is not stored. -/
def importUnstored {Point : Type} (options : ImportOptions Point) (receiptTimeoutMs : ℕ) :
    Import ImportResult := do
  let beacon ← providedOrFetched options.round options.fetchTimeoutMs options.beacon
  throwIfAborted
  if beacon.round ≠ options.round then .throw (.roundMismatch options.round beacon.round)
  else
    let simulation ← simulateBeaconSubmission options.G1 options.invalidBeacon options.round
      beacon.signature
    submitSimulation options.round receiptTimeoutMs simulation

def importQuicknetRound {Point : Type} (options : ImportOptions Point) : Import ImportResult :=
  if options.round = 0 then .throw .invalidRound
  else do
    let receiptTimeoutMs ← Prog.lift
      (validateReceiptTimeoutMs (options.receiptTimeoutMs.getD DEFAULT_RECEIPT_TIMEOUT_MS))
    Prog.lift (options.fetchTimeoutMs.elim (.ok ()) fun value =>
      (validateFetchTimeoutMs value).map fun _ => ())
    throwIfAborted
    verifyDeployment
    throwIfAborted
    let stored ← isStored options.round
    throwIfAborted
    if stored then
      let randomness ← getBeacon options.round none
      return .alreadyStored randomness
    else importUnstored options receiptTimeoutMs

end Quicknet.Rounds
