import Quicknet.JournalVerification
import Quicknet.Library.Json

/-! The journal with its strings as they are written. The other modules compare what
hex strings, identifiers and dates stand for; the readers here give those values, and
refuse the strings that the source refuses. -/
namespace Quicknet

open Json (Text text unit)

structure IdentityText where
  chainId : ℕ
  signer : Text
  deriving DecidableEq

structure AnchorText where
  blockNumber : ℕ
  blockHash : Text
  deriving DecidableEq

structure ObservationText where
  anchor : AnchorText
  nonce : ℕ
  deriving DecidableEq

structure RepairText where
  kind : Text
  at' : Text
  previousNextNonce : ℕ
  nextNonce : ℕ
  observation : ObservationText
  deriving DecidableEq

structure SearchText where
  lowerBound : ObservationText
  searchedThrough : Option AnchorText
  deriving DecidableEq

structure SignedTransactionText where
  transactionHash : Text
  signedTransaction : Text
  deriving DecidableEq

inductive OutcomeText
  | success (transactionHash : Text)
  | reverted (transactionHash : Text)
  | replaced (replacementTransactionHash : Text) (nonceAtAnchor : ℕ)
  deriving DecidableEq

structure InclusionText where
  inclusion : AnchorText
  observedAt : AnchorText
  outcome : OutcomeText
  deriving DecidableEq

inductive PhaseText
  | signed
  | broadcastMayHaveOccurred
  | included (inclusion : InclusionText)
  deriving DecidableEq

structure AttemptText where
  attemptId : Text
  workId : Text
  nonce : ℕ
  createdAt : Text
  signedTransactions : List SignedTransactionText
  replacementSearch : Option SearchText
  phase : PhaseText
  deriving DecidableEq

structure SnapshotText where
  identity : IdentityText
  baseline : ObservationText
  lastObservation : ObservationText
  nextNonce : ℕ
  durableNextNonce : ℕ
  repairs : List RepairText
  attempts : List AttemptText
  deriving DecidableEq

/-! Hex strings. -/

def readHexDigits (t : Text) : Option ℕ :=
  t.foldlM (fun n c => (Json.hexValue c).map (16*n + ·)) 0

/-- `isFixedHex`, with the number that the digits write. -/
def readFixedHex (bytes : ℕ) (t : Text) : Option ℕ :=
  if t.length = 2 + bytes*2 ∧ text "0x" <+: t then readHexDigits (t.drop 2) else none

def isLowerHex (c : UInt16) : Bool :=
  Json.isDigit c || decide (0x61 ≤ c.toNat ∧ c.toNat ≤ 0x66)

def readBytes : Text → Option Bytes
  | [] => some []
  | [_] => none
  | h :: l :: rest => do
    let high ← Json.hexValue h
    let low ← Json.hexValue l
    let bytes ← readBytes rest
    return UInt8.ofNat (16*high + low) :: bytes

def readSignedBytes (t : Text) : Option Bytes :=
  if 66 ≤ t.length ∧ t.length % 2 = 0 ∧ text "0x" <+: t ∧ (t.drop 2).all isLowerHex = true then
    readBytes (t.drop 2)
  else none

/-- The pattern `UUID_V4`, position by position. -/
def isUuidV4 (t : Text) : Bool :=
  t.length == 36 && (List.range 36).all fun i =>
    let c := t.getD i 0
    if i = 8 ∨ i = 13 ∨ i = 18 ∨ i = 23 then c == unit '-'
    else if i = 14 then c == unit '4'
    else if i = 19 then (text "89ab").contains c
    else isLowerHex c

def readUuid (t : Text) : Option AttemptId :=
  if isUuidV4 t then readHexDigits (t.filter (· != unit '-')) else none

/-! Dates, by the proleptic Gregorian calendar in cycles of 400 years from 1 March. -/

def daysFromCivil (year month day : ℤ) : ℤ :=
  let y := if month ≤ 2 then year - 1 else year
  let yearOfEra := y % 400
  let dayOfYear := (153*(if 2 < month then month - 3 else month + 9) + 2)/5 + day - 1
  y/400*146097 + (yearOfEra*365 + yearOfEra/4 - yearOfEra/100 + dayOfYear) - 719468

def civilFromDays (days : ℤ) : ℤ × ℤ × ℤ :=
  let z := days + 719468
  let dayOfEra := z % 146097
  let yearOfEra := (dayOfEra - dayOfEra/1460 + dayOfEra/36524 - dayOfEra/146096)/365
  let dayOfYear := dayOfEra - (365*yearOfEra + yearOfEra/4 - yearOfEra/100)
  let m := (5*dayOfYear + 2)/153
  let month := if m < 10 then m + 3 else m - 9
  let year := yearOfEra + z/146097*400
  (if month ≤ 2 then year + 1 else year, month, dayOfYear - (153*m + 2)/5 + 1)

def padded (width n : ℕ) : Text :=
  List.replicate (width - (Json.decimal n).length) (Json.digit 0) ++ Json.decimal n

def yearText (year : ℤ) : Text :=
  if 0 ≤ year ∧ year ≤ 9999 then padded 4 year.toNat
  else (if year < 0 then unit '-' else unit '+') :: padded 6 year.natAbs

def MILLISECONDS_PER_DAY : ℤ := 86400000

def toISOString (time : ℤ) : Text :=
  let (year, month, day) := civilFromDays (time / MILLISECONDS_PER_DAY)
  let ms := (time % MILLISECONDS_PER_DAY).toNat
  yearText year ++ unit '-' :: padded 2 month.toNat ++ unit '-' :: padded 2 day.toNat ++
    unit 'T' :: padded 2 (ms/3600000) ++ unit ':' :: padded 2 (ms/60000 % 60) ++
    unit ':' :: padded 2 (ms/1000 % 60) ++ unit '.' :: padded 3 (ms % 1000) ++ [unit 'Z']

def readDigits (width : ℕ) (t : Text) : Option (ℤ × Text) :=
  if width ≤ t.length ∧ (t.take width).all Json.isDigit = true then
    some (Json.decimalValue (t.take width), t.drop width)
  else none

def readYear (t : Text) : Option (ℤ × Text) :=
  match Json.afterWord (text "+") t with
  | some rest => readDigits 6 rest
  | none =>
    match Json.afterWord (text "-") t with
    | some rest => (readDigits 6 rest).map fun r => (-r.1, r.2)
    | none => readDigits 4 t

/-- The largest distance of a time value from the epoch. -/
def MAX_TIME_VALUE : ℤ := 8640000000000000

/-- `Date.parse` on the one format that `toISOString` writes. What it makes of other
formats does not matter, since the result is written in this one again. -/
def dateParse (t : Text) : Option ℤ := do
  let (year, t) ← readYear t
  let (month, t) ← (Json.afterWord (text "-") t).bind (readDigits 2)
  let (day, t) ← (Json.afterWord (text "-") t).bind (readDigits 2)
  let (hour, t) ← (Json.afterWord (text "T") t).bind (readDigits 2)
  let (minute, t) ← (Json.afterWord (text ":") t).bind (readDigits 2)
  let (second, t) ← (Json.afterWord (text ":") t).bind (readDigits 2)
  let (ms, t) ← (Json.afterWord (text ".") t).bind (readDigits 3)
  let time := daysFromCivil year month day * MILLISECONDS_PER_DAY +
    hour*3600000 + minute*60000 + second*1000 + ms
  if t = text "Z" ∧ |time| ≤ MAX_TIME_VALUE then some time else none

/-- Dates are only compared as the strings they are, so those before the epoch need no
value of their own. -/
def readTimestamp (t : Text) : Option Timestamp :=
  (dateParse t).bind fun time => if toISOString time = t then some time.toNat else none

/-! The readers of the source, with the checks on strings. The checks on numbers and
the comparisons between fields follow in `validateJournalSnapshotStructure`. -/

def readIdentity (t : IdentityText) : Option JournalIdentity := do
  return ⟨t.chainId, ← readFixedHex 20 t.signer⟩

/-- Whether an identity is captured; what is not is refused with an error. -/
def captureJournalIdentity (identity : IdentityText) : Bool :=
  (readIdentity identity).any fun i => decide (IdentityValid i)

def readAnchor (t : AnchorText) : Option BlockAnchor := do
  return ⟨t.blockNumber, ← readFixedHex 32 t.blockHash⟩

def readObservation (t : ObservationText) : Option AnchoredNonceObservation := do
  return ⟨← readAnchor t.anchor, t.nonce⟩

def readRepair (t : RepairText) : Option JournalNonceRepair := do
  guard (t.kind = text "sync-nonce")
  return ⟨← readTimestamp t.at', t.previousNextNonce, t.nextNonce, ← readObservation t.observation⟩

def readSearchedThrough : Option AnchorText → Option (Option BlockAnchor)
  | none => some none
  | some t => (readAnchor t).map some

def readReplacementSearch : Option SearchText → Option (Option ReplacementSearch)
  | none => some none
  | some t => do
    return some ⟨← readObservation t.lowerBound, ← readSearchedThrough t.searchedThrough⟩

def readSignedTransaction (t : SignedTransactionText) : Option JournalSignedTransaction := do
  return ⟨← readFixedHex 32 t.transactionHash, ← readSignedBytes t.signedTransaction⟩

def readSignedTransactions (ts : List SignedTransactionText) : Option SignedTransactions := do
  match ← ts.mapM readSignedTransaction with
  | [] => none
  | original :: replacements => some ⟨original, replacements⟩

def readOutcome : OutcomeText → Option InclusionOutcome
  | .success h => (readFixedHex 32 h).map .success
  | .reverted h => (readFixedHex 32 h).map .reverted
  | .replaced h nonceAtAnchor => (readFixedHex 32 h).map (.replaced · nonceAtAnchor)

def readInclusion (t : InclusionText) : Option JournalInclusionObservation := do
  return ⟨← readAnchor t.inclusion, ← readAnchor t.observedAt, ← readOutcome t.outcome⟩

def readPhase : PhaseText → Option JournalPhase
  | .signed => some .signed
  | .broadcastMayHaveOccurred => some .broadcastMayHaveOccurred
  | .included i => (readInclusion i).map .included

def readAttempt (t : AttemptText) : Option JournalAttempt := do
  let attemptId ← readUuid t.attemptId
  let createdAt ← readTimestamp t.createdAt
  let signedTransactions ← readSignedTransactions t.signedTransactions
  let replacementSearch ← readReplacementSearch t.replacementSearch
  let phase ← readPhase t.phase
  return ⟨attemptId, t.workId, t.nonce, createdAt, signedTransactions, replacementSearch, phase⟩

def readSnapshot (t : SnapshotText) : Option TransactionJournalSnapshot := do
  let identity ← readIdentity t.identity
  let baseline ← readObservation t.baseline
  let lastObservation ← readObservation t.lastObservation
  let repairs ← t.repairs.mapM readRepair
  let attempts ← t.attempts.mapM readAttempt
  return ⟨identity, baseline, lastObservation, t.nextNonce, t.durableNextNonce, repairs, attempts⟩

end Quicknet
