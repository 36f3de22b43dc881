import Quicknet.DaemonStatusPublisher
import Quicknet.Library.Attempt
import Quicknet.SignatureWitness

/-! Fetching a beacon. The body of a response is read chunk by chunk into a buffer of a fixed
size, the endpoints are asked in their order, and the whole is tried again after a delay. -/
namespace Quicknet.Drand
open Interaction
open Json (Text text)

inductive FetchFailure
  | range (message : String)
  | typeError (message : String)
  | error (message : String)
  | syntaxError
  /-- The reason of a signal, or an error of the platform. -/
  | foreign (id : ℕ)
  | aggregate (errors : List FetchFailure) (message : String)
  | exhausted (message : String) (cause : Option FetchFailure)

structure QuicknetBeacon where
  round : ℕ
  signature : List Char
  deriving DecidableEq, Repr

/-! The body of a response. -/

def MAX_RESPONSE_BYTES : ℕ := 16 * 1024

/-- What reading the body met: the reasons of the signal before and after each read, and what
was read. The deadline ends the reads of a body that does not end. -/
inductive BodyReads
  | chunk (before after : Option FetchFailure) (bytes : Bytes) (rest : BodyReads)
  | done (before after : Option FetchFailure)
  | failed (before : Option FetchFailure) (e : FetchFailure)

structure BodyTrace where
  start : Option FetchFailure
  reads : BodyReads
  /-- The reason of the signal once the reading has failed. -/
  late : Option FetchFailure

/-- The bytes that have been read; they fit the buffer. -/
structure ResponseBuffer where
  bytes : Bytes
  fits : bytes.length ≤ MAX_RESPONSE_BYTES

def ResponseBuffer.empty : ResponseBuffer := ⟨[], Nat.zero_le _⟩

theorem ResponseBuffer.append_fits (buffer : ResponseBuffer) {bytes : Bytes}
    (h : bytes.length ≤ MAX_RESPONSE_BYTES - buffer.bytes.length) :
    (buffer.bytes ++ bytes).length ≤ MAX_RESPONSE_BYTES := by
  rw [List.length_append]
  have := buffer.fits
  omega

/-- `buffer.set`, which is not called for a chunk that does not fit. -/
def ResponseBuffer.set (buffer : ResponseBuffer) (bytes : Bytes)
    (h : bytes.length ≤ MAX_RESPONSE_BYTES - buffer.bytes.length) : ResponseBuffer :=
  ⟨buffer.bytes ++ bytes, buffer.append_fits h⟩

def throwIf : Option FetchFailure → Except FetchFailure Unit
  | some reason => .error reason
  | none => .ok ()

def exceeds : FetchFailure :=
  .error "Invalid Quicknet response: body exceeds 16384 bytes"

/-- The loop over the chunks. -/
def readLoop (buffer : ResponseBuffer) : BodyReads → Except FetchFailure ResponseBuffer
  | .chunk before after bytes rest => do
    throwIf before
    throwIf after
    if h : bytes.length ≤ MAX_RESPONSE_BYTES - buffer.bytes.length then
      readLoop (buffer.set bytes h) rest
    else .error exceeds
  | .done before after => do
    throwIf before
    throwIf after
    return buffer
  | .failed before e => do
    throwIf before
    .error e

/-- The units of a character in UTF-16. -/
def charUnits (c : Char) : Text :=
  if c.toNat < 0x10000 then [UInt16.ofNat c.toNat]
  else
    [UInt16.ofNat (0xD800 + (c.toNat - 0x10000) / 0x400),
      UInt16.ofNat (0xDC00 + (c.toNat - 0x10000) % 0x400)]

/-- Without the mark of the byte order. -/
def dropMark : List Char → List Char
  | c :: rest => if c.toNat = 0xFEFF then rest else c :: rest
  | [] => []

/-- A fatal `TextDecoder` for UTF-8. -/
def decodeText (bytes : Bytes) : Option Text :=
  (ByteArray.mk bytes.toArray).utf8Decode?.map fun chars => (dropMark chars.toList).flatMap charUnits

def parseBody (bytes : Bytes) : Except FetchFailure Json.Value :=
  match decodeText bytes with
  | none => .error (.typeError "The encoded data was not valid for encoding utf-8")
  | some t =>
    match Json.parse t with
    | none => .error .syntaxError
    | some v => .ok v

/-- The part of `readBeaconResponse` that its handler encloses. -/
def readBody (trace : BodyTrace) : Except FetchFailure Json.Value := do
  throwIf trace.start
  let buffer ← readLoop .empty trace.reads
  parseBody buffer.bytes

def readBeaconResponse (hasBody : Bool) (trace : BodyTrace) : Except FetchFailure Json.Value :=
  if !hasBody then do
    throwIf trace.start
    .error (.error "Invalid Quicknet response: missing body")
  else
    match readBody trace with
    | .ok v => .ok v
    | .error e => do
      throwIf trace.late
      .error e

/-! What the body has to say. -/

def invalidRound : FetchFailure := .error "Invalid Quicknet response: invalid round"

def readRound : Option Json.Value → Option ℤ
  | some (.number n) => readSafeInteger (Json.nearestDouble n.value)
  | _ => none

/-- A unit of a surrogate pair becomes a character that is not hexadecimal either. -/
def charOfUnit (c : UInt16) : Char := Char.ofNat c.toNat

def parseSignature : Option Json.Value → Except FetchFailure (List Char)
  | some (.string t) =>
    match Contracts.parseCompressedSignature (t.map charOfUnit) with
    | .ok signature => .ok signature
    | .error message => .error (.error message)
  | _ => .error (.typeError "Invalid compressed Quicknet signature: expected a string")

def parseBeacon (round : ℕ) (value : Json.Value) : Except FetchFailure QuicknetBeacon :=
  match value with
  | .object fields =>
    match readRound (Json.lookup (text "round") fields) with
    | none => .error invalidRound
    | some returnedRound =>
      if returnedRound ≠ round then
        .error (.error s!"Quicknet round mismatch: requested {round}, received {returnedRound}")
      else do
        let signature ← parseSignature (Json.lookup (text "signature") fields)
        return ⟨round, signature⟩
  | _ => .error invalidRound

/-! One endpoint. -/

structure ResponseHead where
  ok : Bool
  status : ℕ
  hasBody : Bool

/-- What a fetch awaits; `signal` is the caller's, `combined` also has the deadline. -/
inductive FetchQuery
  | signal
  | combined
  | request (url : Text)
  | body (url : Text)
  | cancelBody
  | sleep (milliseconds : ℕ)
  deriving DecidableEq

def FetchQuery.Reply : FetchQuery → Type
  | .signal => Option FetchFailure
  | .combined => Option FetchFailure
  | .request _ => Except FetchFailure ResponseHead
  | .body _ => BodyTrace
  | .cancelBody => Unit
  | .sleep _ => Except FetchFailure Unit

abbrev Fetch (α : Type) := Prog FetchQuery.Reply FetchFailure α
abbrev FetchLog := List (Exchange FetchQuery.Reply FetchFailure)

def throwIfAborted : Fetch Unit := do
  let reason : Option FetchFailure ← Prog.ask FetchQuery.signal
  Prog.lift (throwIf reason)

def throwIfCombined : Fetch Unit := do
  let reason : Option FetchFailure ← Prog.ask FetchQuery.combined
  Prog.lift (throwIf reason)

def MAX_FETCH_TIMEOUT_MS : ℕ := 60000
def DEFAULT_TIMEOUT_MS : ℕ := 5000

def validateTimeout (value : ℕ) : Except FetchFailure Unit :=
  if 0 < value ∧ value ≤ MAX_FETCH_TIMEOUT_MS then .ok ()
  else .error (.range "timeoutMs must be a positive safe integer no greater than 60000.")

def removeTrailingSlashes (value : Text) : Text :=
  (value.reverse.dropWhile fun c => c == Json.unit '/').reverse

def beaconUrl (endpoint : Text) (round : ℕ) : Text :=
  removeTrailingSlashes endpoint ++ text "/beacons/quicknet/rounds/" ++ Json.decimal round

/-- The part of `fetchBeaconFromEndpoint` that its handler encloses, after the response. -/
def readBeacon (url : Text) (round : ℕ) (head : ResponseHead) : Fetch QuicknetBeacon := do
  throwIfCombined
  if !head.ok then
    .throw (.error s!"Failed to fetch Quicknet round {round}: HTTP {head.status}")
  else
    let trace : BodyTrace ← Prog.ask (FetchQuery.body url)
    let value ← Prog.lift (readBeaconResponse head.hasBody trace)
    throwIfCombined
    Prog.lift (parseBeacon round value)

/-- The handler: a reason of a signal goes before the error. -/
def releaseAndThrow (hasBody : Bool) (error : FetchFailure) : Fetch QuicknetBeacon := do
  if hasBody then
    let _ ← Prog.ask FetchQuery.cancelBody
  throwIfAborted
  throwIfCombined
  .throw error

def fetchBeaconFromEndpoint (endpoint : Text) (round timeoutMs : ℕ) : Fetch QuicknetBeacon := do
  throwIfAborted
  Prog.lift (validateTimeout timeoutMs)
  if round = 0 then .throw (.range "Quicknet round must be greater than zero.")
  else
    let url := beaconUrl endpoint round
    let response : Except FetchFailure ResponseHead ← Prog.ask (FetchQuery.request url)
    match response with
    | .error e => releaseAndThrow false e
    | .ok head =>
      match ← (readBeacon url round head).attempt with
      | .ok beacon => return beacon
      | .error e => releaseAndThrow head.hasBody e

/-! The endpoints and the attempts. -/

/-- The loop over the endpoints, with the errors so far. -/
def fetchFrom (round timeoutMs : ℕ) (errors : List FetchFailure) :
    List Text → Fetch QuicknetBeacon
  | [] => .throw (.aggregate errors s!"Failed to fetch Quicknet round {round} from all endpoints.")
  | endpoint :: rest => do
    match ← (fetchBeaconFromEndpoint endpoint round timeoutMs).attempt with
    | .ok beacon => return beacon
    | .error e => do
      throwIfAborted
      fetchFrom round timeoutMs (errors ++ [e]) rest

def fetchBeacon (round : ℕ) (endpoints : List Text) (timeoutMs : ℕ) : Fetch QuicknetBeacon := do
  throwIfAborted
  Prog.lift (validateTimeout timeoutMs)
  if endpoints.isEmpty then .throw (.error "At least one Quicknet endpoint is required.")
  else fetchFrom round timeoutMs [] endpoints

def QUICKNET_ENDPOINTS : List Text :=
  [text "https://api.drand.sh/v2", text "https://api2.drand.sh/v2", text "https://api3.drand.sh/v2"]

structure FetchWithRetryOptions where
  round : ℕ
  maxAttempts : ℕ
  retryDelayMs : ℕ
  timeoutMs : Option ℕ

/-- The enclosed part of an attempt. -/
def fetchOnce (options : FetchWithRetryOptions) : Fetch QuicknetBeacon := do
  let beacon ← fetchBeacon options.round QUICKNET_ENDPOINTS
    (options.timeoutMs.getD DEFAULT_TIMEOUT_MS)
  throwIfAborted
  if beacon.round ≠ options.round then
    .throw (.error
      s!"Quicknet round mismatch: requested {options.round}, received {beacon.round}.")
  else return beacon

def sleepFor (milliseconds : ℕ) : Fetch Unit := do
  let slept : Except FetchFailure Unit ← Prog.ask (FetchQuery.sleep milliseconds)
  Prog.lift slept

/-- The attempts that are left, after the first one failed with `lastError`. -/
def fetchAttempts (options : FetchWithRetryOptions) (lastError : Option FetchFailure) :
    ℕ → Fetch QuicknetBeacon
  | 0 =>
    .throw (.exhausted
      s!"Failed to fetch Quicknet round {options.round} after {options.maxAttempts} attempts."
      lastError)
  | remaining + 1 => do
    throwIfAborted
    match ← (fetchOnce options).attempt with
    | .ok beacon => return beacon
    | .error e => do
      throwIfAborted
      if remaining = 0 then fetchAttempts options (some e) 0
      else
        sleepFor options.retryDelayMs
        fetchAttempts options (some e) remaining

def validateAttempts (options : FetchWithRetryOptions) : Except FetchFailure Unit :=
  if ¬ (0 < options.maxAttempts ∧ options.maxAttempts ≤ MAX_SAFE_INTEGER) then
    .error (.range "maxAttempts must be a positive safe integer.")
  else if MAX_SAFE_INTEGER < options.retryDelayMs then
    .error (.range "retryDelayMs must be a non-negative safe integer.")
  else
    match options.timeoutMs with
    | some timeoutMs => validateTimeout timeoutMs
    | none => .ok ()

def fetchQuicknetBeaconWithRetry (options : FetchWithRetryOptions) : Fetch QuicknetBeacon :=
  if options.round = 0 then .throw (.range "Quicknet round must be greater than zero.")
  else do
    Prog.lift (validateAttempts options)
    fetchAttempts options none options.maxAttempts

end Quicknet.Drand
