import Quicknet.Journal
import Quicknet.Library.UriComponent

/-! Scrubbing of diagnostic texts. Texts are lists of UTF-16 code units, and regular
expressions are functions that give the length of the match at an index. -/
namespace Quicknet

open Json (Text text unit)
open Uri

def MAX_INPUT_LENGTH : ℕ := 65536
def MAX_OUTPUT_LENGTH : ℕ := 4096
def MAX_PERCENT_DECODE_PASSES : ℕ := 2
def MIN_INFERRED_SECRET_LENGTH : ℕ := 16
def REDACTED : Text := text "[REDACTED]"

/-- A parsed `URL`, with the query as its name and value pairs. -/
structure Url where
  protocol : Text
  href : Text
  username : Text
  password : Text
  pathname : Text
  searchParams : List (Text × Text)
  hash : Text

/-- `new URL`; `none` when it throws. -/
structure UrlLibrary where
  parse : Text → Option Url

structure CreateScrubberOptions where
  rpcUrls : List Text
  privateKey : Option Text
  secrets : List Text

structure ScrubbedText where
  text : Text
  removed : Bool
  deriving DecidableEq, Repr

structure TextRange where
  start : ℕ
  stop : ℕ
  deriving DecidableEq, Repr

/-- A unit of a view, with the range of the source text that it stands for. -/
structure ViewUnit where
  unit : UInt16
  start : ℕ
  stop : ℕ
  deriving DecidableEq, Repr

abbrev TextView := List ViewUnit

def TextView.text (view : TextView) : Text := view.map (·.unit)

/-! Characters. -/

def isHexDigit (c : UInt16) : Bool := (Json.hexValue c).isSome

def lowercaseAsciiUnit (c : UInt16) : UInt16 :=
  if 65 ≤ c.toNat ∧ c.toNat ≤ 90 then UInt16.ofNat (c.toNat+32) else c

def lowercaseAscii (t : Text) : Text := t.map lowercaseAsciiUnit

def isWordUnit (c : UInt16) : Bool :=
  Json.isDigit c || c == unit '_' || decide (65 ≤ c.toNat ∧ c.toNat ≤ 90) ||
    decide (97 ≤ c.toNat ∧ c.toNat ≤ 122)

/-- `\s`. -/
def isWhitespace (c : UInt16) : Bool :=
  decide (9 ≤ c.toNat ∧ c.toNat ≤ 13) || decide (0x2000 ≤ c.toNat ∧ c.toNat ≤ 0x200a) ||
    [0x20, 0xa0, 0x1680, 0x2028, 0x2029, 0x202f, 0x205f, 0x3000, 0xfeff].contains c.toNat

def isUnsafeControl (c : UInt16) : Bool :=
  let n := c.toNat
  decide (n ≤ 8) || decide (0xb ≤ n ∧ n ≤ 0x1f) || decide (0x7f ≤ n ∧ n ≤ 0x9f) ||
    decide (0x2028 ≤ n ∧ n ≤ 0x2029) || decide (0x202a ≤ n ∧ n ≤ 0x202e) ||
    decide (0x2066 ≤ n ∧ n ≤ 0x2069)

def isHorizontalWhitespace (c : UInt16) : Bool := c == unit ' ' || c == unit '\t'

def isQuoteUnit (c : UInt16) : Bool := c == unit '"' || c == unit '\''

def isLineEnd (c : UInt16) : Bool := c == unit '\r' || c == unit '\n'

/-- What an `i` flag compares with a lower-case ASCII word. -/
def startsWithFolded (word t : Text) : Bool := word.isPrefixOf (lowercaseAscii t)

/-! Percent escapes. -/

/-- `escape` is whether a percent sign stands before, with any number of `25` between. -/
def normalizeFrom : Bool → Text → Text
  | _, [] => []
  | _, [c] => [c]
  | true, c :: d :: rest =>
    if c = unit '2' ∧ d = unit '5' then c :: d :: normalizeFrom true rest
    else if isHexDigit c && isHexDigit d then
      lowercaseAsciiUnit c :: lowercaseAsciiUnit d :: normalizeFrom false rest
    else c :: normalizeFrom (c == percent) (d :: rest)
  | false, c :: d :: rest => c :: normalizeFrom (c == percent) (d :: rest)

/-- The final pair of digits of each escape in lower case. -/
def normalizePercentEscapes (t : Text) : Text := normalizeFrom false t

/-- The number of bytes whose first is `first`. -/
def escapeBytes (first : UInt8) : Option ℕ :=
  if first.toNat ≤ 0x7f then some 1
  else if 0xc2 ≤ first.toNat ∧ first.toNat ≤ 0xdf then some 2
  else if 0xe0 ≤ first.toNat ∧ first.toNat ≤ 0xef then some 3
  else if 0xf0 ≤ first.toNat ∧ first.toNat ≤ 0xf4 then some 4
  else none

/-- The character that is escaped at the head of the text, and the length of its escapes. -/
def readPercentCharacter (t : Text) : Option (Text × ℕ) := do
  let first ← escapedByte t
  let bytes ← escapeBytes first
  let _ ← escapedBytes bytes t
  let length := bytes*3
  let character ← decodeURIComponent (t.take length)
  return (character, length)

/-- The view from `view` on, past its first `skip` units. -/
def decodePercentFrom : ℕ → TextView → TextView
  | _, [] => []
  | skip+1, _ :: rest => decodePercentFrom skip rest
  | 0, c :: rest =>
    match readPercentCharacter (TextView.text (c :: rest)) with
    | none => c :: decodePercentFrom 0 rest
    | some (character, length) =>
      -- each unit maps to the complete encoded character
      let stop := (((c :: rest)[length-1]?).getD c).stop
      character.map (fun u => ⟨u, c.start, stop⟩) ++ decodePercentFrom (length-1) rest

def decodePercentView (view : TextView) : TextView := decodePercentFrom 0 view

/-! Ranges. -/

/-- Every occurrence, also those that overlap. -/
def collectLiteralRanges (t secret : Text) : List TextRange :=
  if secret = [] then []
  else ((List.range t.length).filter fun i => secret.isPrefixOf (t.drop i)).map fun i =>
    ⟨i, i + secret.length⟩

/-- The matches of a pattern that never matches the empty text, from the index `next` on. -/
def matchesFrom (pattern : ℕ → Option ℕ) : ℕ → List ℕ → List TextRange
  | _, [] => []
  | next, i :: is =>
    if i < next then matchesFrom pattern next is
    else
      match pattern i with
      | none => matchesFrom pattern next is
      | some length => ⟨i, i + length⟩ :: matchesFrom pattern (i + length) is

def matchAll (pattern : Text → ℕ → Option ℕ) (t : Text) : List TextRange :=
  matchesFrom (pattern t) 0 (List.range t.length)

/-- `\b`. -/
def isWordBoundary (t : Text) (i : ℕ) : Bool :=
  let before := decide (0 < i) && (t[i-1]?).any isWordUnit
  before != (t[i]?).any isWordUnit

/-- One of the words at the index, in any case: the first that fits. -/
def matchWord (words : List Text) (t : Text) (i : ℕ) : Option ℕ :=
  (words.find? fun word => startsWithFolded word (t.drop i)).map (·.length)

def isUrlUnit (c : UInt16) : Bool :=
  !(isWhitespace c || isQuoteUnit c || c == unit '<' || c == unit '>' || c == Json.backslash)

def urlPattern (t : Text) (i : ℕ) : Option ℕ := do
  let scheme ← matchWord [text "https://", text "http://", text "wss://", text "ws://"] t i
  let body := ((t.drop (i + scheme)).takeWhile isUrlUnit).length
  if body = 0 then none else some (scheme + body)

def authHeaderPattern (t : Text) (i : ℕ) : Option ℕ := do
  let word ← matchWord [text "proxy-authorization", text "authorization"] t i
  if isWordBoundary t i && isWordBoundary t (i + word) then some word else none

def isTokenUnit (c : UInt16) : Bool :=
  Json.isDigit c || decide (65 ≤ c.toNat ∧ c.toNat ≤ 90) || decide (97 ≤ c.toNat ∧ c.toNat ≤ 122) ||
    (text "._~+/=-").contains c

def authTokenPattern (t : Text) (i : ℕ) : Option ℕ := do
  let word ← matchWord [text "bearer", text "basic"] t i
  let blanks := ((t.drop (i + word)).takeWhile isHorizontalWhitespace).length
  let token := ((t.drop (i + word + blanks)).takeWhile isTokenUnit).length
  if isWordBoundary t i && decide (0 < blanks) && decide (0 < token) then
    some (word + blanks + token)
  else none

/-- The text with each escaped slash as one unit, and the offset of each unit. -/
def unescapeUrlSlashesFrom : ℕ → Text → List (UInt16 × ℕ)
  | _, [] => []
  | i, [c] => [(c, i)]
  | i, c :: d :: rest =>
    if c = Json.backslash ∧ d = unit '/' then (d, i) :: unescapeUrlSlashesFrom (i+2) rest
    else (c, i) :: unescapeUrlSlashesFrom (i+1) (d :: rest)

/-- Sets the value at a key. -/
def setEntry {κ ν : Type} [DecidableEq κ] (key : κ) (value : ν) : List (κ × ν) → List (κ × ν)
  | [] => [(key, value)]
  | (k, v) :: rest => if k = key then (key, value) :: rest else (k, v) :: setEntry key value rest

/-- The URLs that the text shows; a configured one can be longer than the general match. -/
def urlCandidates (t : Text) (configuredUrls : List Text) : List (ℕ × Text) :=
  let found := (matchAll urlPattern t).foldl (fun candidates r =>
    setEntry r.start ((t.drop r.start).take (r.stop - r.start)) candidates) []
  configuredUrls.foldl (fun candidates url =>
    -- an empty text is never configured: it is no URL
    (collectLiteralRanges t url).foldl (fun candidates r =>
      match candidates.lookup r.start with
      | some existing =>
        if existing.length < url.length then setEntry r.start url candidates else candidates
      | none => setEntry r.start url candidates) candidates) found

/-- The index of the last unit `c` of `t` at or before `i`. -/
def lastIndexOf (c : UInt16) (t : Text) (i : ℕ) : Option ℕ :=
  ((List.range (i+1)).filter fun j => t[j]? == some c).getLast?

def indexOf (word t : Text) : Option ℕ :=
  (List.range (t.length+1)).find? fun i => word.isPrefixOf (t.drop i)

/-- What is hidden of a URL. -/
def urlRanges (lib : UrlLibrary) (start : ℕ) (candidate : Text) : List TextRange :=
  let whole : List TextRange := [⟨start, start + candidate.length⟩]
  match indexOf (text "://") candidate with
  | none => whole
  | some separator =>
    if candidate.contains Json.backslash then whole
    else if (lib.parse candidate).isNone then whole
    else
      let authorityStart := separator + 3
      let authorityEnd := authorityStart +
        ((candidate.drop authorityStart).takeWhile fun c => !(text "/?#").contains c).length
      let userInfo := match lastIndexOf (unit '@') candidate (authorityEnd-1) with
        | some userInfoEnd =>
          if authorityStart ≤ userInfoEnd then
            [(⟨start + authorityStart, start + userInfoEnd⟩ : TextRange)]
          else []
        | none => []
      let suffixStart := authorityEnd + 1
      let suffix :=
        if suffixStart < candidate.length then
          [(⟨start + suffixStart, start + candidate.length⟩ : TextRange)]
        else []
      userInfo ++ suffix

def collectUrlRanges (lib : UrlLibrary) (t : Text) (configuredUrls : List Text) : List TextRange :=
  let view := unescapeUrlSlashesFrom 0 t
  let offset (i : ℕ) : ℕ := ((view[i]?).map (·.2)).getD t.length
  (urlCandidates (view.map (·.1)) configuredUrls).flatMap fun (start, candidate) =>
    (urlRanges lib start candidate).map fun r => ⟨offset r.start, offset r.stop⟩

def skipHorizontalWhitespace (t : Text) (start : ℕ) : ℕ :=
  start + ((t.drop start).takeWhile isHorizontalWhitespace).length

/-- The length of the value of a header, inside `quote` where it is quoted. -/
def headerValueLength (quote : Option UInt16) : Text → ℕ
  | [] => 0
  | [c] =>
    if isLineEnd c then 0
    else match quote with
      | some q => if c = q then 0 else 1
      | none => if c = unit ',' ∨ c = unit ';' ∨ c = unit '}' then 0 else 1
  | c :: d :: rest =>
    if isLineEnd c then 0
    else match quote with
      | some q =>
        if c = q then 0
        else if c = Json.backslash ∧ isLineEnd d = false then 2 + headerValueLength quote rest
        else 1 + headerValueLength quote (d :: rest)
      | none =>
        if c = unit ',' ∨ c = unit ';' ∨ c = unit '}' then 0
        else 1 + headerValueLength quote (d :: rest)

/-- The value after the header name that ends at the index. -/
def headerValue (t : Text) (nameEnd : ℕ) : Option TextRange :=
  let cursor := if (t[nameEnd]?).any isQuoteUnit then nameEnd+1 else nameEnd
  let cursor := skipHorizontalWhitespace t cursor
  if (t[cursor]?).any fun c => c == unit ':' || c == unit '=' then
    let start := skipHorizontalWhitespace t (cursor+1)
    match t[start]? with
    | some c =>
      if isQuoteUnit c then
        some ⟨start+1, start+1 + headerValueLength (some c) (t.drop (start+1))⟩
      else some ⟨start, start + headerValueLength none (t.drop start)⟩
    | none => some ⟨start, start⟩
  else none

/-- Header-like text inside a value that is covered already is passed over. -/
def authorizationRangesFrom (t : Text) : ℕ → List TextRange → List TextRange
  | _, [] => []
  | coveredUntil, m :: rest =>
    if m.start < coveredUntil then authorizationRangesFrom t coveredUntil rest
    else
      match headerValue t m.stop with
      | none => authorizationRangesFrom t coveredUntil rest
      | some value =>
        (if value.start < value.stop then [value] else []) ++
          authorizationRangesFrom t value.stop rest

def collectAuthorizationRanges (t : Text) : List TextRange :=
  authorizationRangesFrom t 0 (matchAll authHeaderPattern t)

/-! Redaction. -/

/-- The ranges that follow `previous`, in the order of their starts, merged into it where
they touch it. -/
def mergeInto (previous : TextRange) : List TextRange → List TextRange
  | [] => [previous]
  | range :: rest =>
    if range.start ≤ previous.stop then
      mergeInto ⟨previous.start, max previous.stop range.stop⟩ rest
    else previous :: mergeInto range rest

def mergeRanges (ranges : List TextRange) : List TextRange :=
  match ranges.mergeSort fun left right => decide (left.start ≤ right.start) with
  | [] => []
  | range :: rest => mergeInto range rest

def redactFrom (t : Text) (cursor : ℕ) : List TextRange → Text
  | [] => t.drop cursor
  | range :: rest =>
    (t.drop cursor).take (range.start - cursor) ++ REDACTED ++ redactFrom t range.stop rest

def redactRanges (t : Text) (ranges : List TextRange) : Text := redactFrom t 0 (mergeRanges ranges)

/-! The scrubber. -/

structure Scrubber where
  configuredUrls : List Text
  exactSecrets : List Text
  foldedSecrets : List Text

namespace Scrubber

variable (lib : UrlLibrary) (scrubber : Scrubber)

def collectSensitiveRanges (t : Text) : List TextRange :=
  let normalized := normalizePercentEscapes t
  scrubber.exactSecrets.flatMap (collectLiteralRanges normalized) ++
    scrubber.foldedSecrets.flatMap (collectLiteralRanges (lowercaseAscii normalized)) ++
    collectUrlRanges lib t scrubber.configuredUrls ++ collectAuthorizationRanges t ++
    matchAll authTokenPattern t

/-- The range of the source text that a match in the view stands for. -/
def sourceRange (view : TextView) (r : TextRange) : TextRange :=
  ⟨((view[r.start]?).map (·.start)).getD 0, ((view[r.stop-1]?).map (·.stop)).getD 0⟩

/-- The ranges of this pass and the `left` passes that may follow; `none` when the view can
still be decoded after the last. -/
def collectPasses : ℕ → TextView → Option (List TextRange)
  | left, view =>
    let ranges := (scrubber.collectSensitiveRanges lib view.text).map (sourceRange view)
    let decoded := decodePercentView view
    if decoded.text = view.text then some ranges
    else
      match left with
      | 0 => none
      | left+1 => (collectPasses left decoded).map (ranges ++ ·)

def sourceView (t : Text) : TextView := t.mapIdx fun i c => ⟨c, i, i+1⟩

def omitted (reason : String) : ScrubbedText :=
  ⟨text ("[diagnostic text omitted: " ++ reason ++ "]"), true⟩

def escapeControls (t : Text) : Text :=
  t.flatMap fun c => if isUnsafeControl c then Json.escapeUnit c else [c]

/-- What is published of the text without its ranges. -/
def publish (t : Text) (ranges : List TextRange) : ScrubbedText :=
  let output := escapeControls (redactRanges t ranges)
  let removed := !ranges.isEmpty || output != t
  if MAX_OUTPUT_LENGTH < output.length then
    let suffix := text " [truncated]"
    ⟨output.take (MAX_OUTPUT_LENGTH - suffix.length) ++ suffix, true⟩
  else ⟨output, removed⟩

def scrub (t : Text) : ScrubbedText :=
  if MAX_INPUT_LENGTH < t.length then omitted "input limit"
  else
    match scrubber.collectPasses lib MAX_PERCENT_DECODE_PASSES (sourceView t) with
    | none => omitted "encoding limit"
    | some ranges => publish t ranges

end Scrubber

/-! Configuration. -/

def CREDENTIAL_QUERY_NAMES : List Text :=
  [text "apikey", text "api_key", text "key", text "token", text "access_token", text "auth",
    text "secret", text "password"]

/-- The lower case of a unit where it is ASCII: outside ASCII that of the Kelvin sign is. -/
def lowercaseNameUnit (c : UInt16) : UInt16 :=
  if c = 0x212a then unit 'k' else lowercaseAsciiUnit c

/-- The forms of the secrets, with whether their case is ignored. -/
abbrev SecretForms := List (Text × Bool)

def addForm (form : Text) (ignoreCase : Bool) (secrets : SecretForms) : SecretForms :=
  setEntry form (ignoreCase || secrets.lookup form == some true) secrets

/-- The literal, JSON-escaped, and once or twice URL-encoded forms. -/
def addForms : ℕ → Text → Bool → SecretForms → Except Failure SecretForms
  | 0, _, _, secrets => return secrets
  | n+1, encoded, ignoreCase, secrets => do
    let secrets := addForm (Json.quoteUnits encoded) ignoreCase (addForm encoded ignoreCase secrets)
    match encodeURIComponent encoded with
    | none => throw (.error "URI malformed")
    | some next => addForms n next ignoreCase secrets

def addSecret (value : Text) (ignoreCase : Bool) (secrets : SecretForms) :
    Except Failure SecretForms :=
  if value = [] then return secrets else addForms 3 value ignoreCase secrets

/-- What a percent-encoded value decodes to, in at most `n` steps. -/
def decodedForms : ℕ → Text → List Text
  | 0, _ => []
  | n+1, value =>
    match decodeURIComponent value with
    | none => []
    | some decoded => if decoded = value then [] else decoded :: decodedForms n decoded

/-- The value of a URL component, and what it decodes to. -/
def urlValueForms (value : Text) : List Text := value :: decodedForms 2 value

/-- Shorter values than the threshold are only secrets where they are `required`. -/
def addUrlValue (value : Text) (required : Bool) (secrets : SecretForms) :
    Except Failure SecretForms :=
  let forms := urlValueForms value
  if !required && decide ((forms.getLast?.getD value).length < MIN_INFERRED_SECRET_LENGTH) then
    return secrets
  else forms.foldlM (fun secrets form => addSecret form false secrets) secrets

def addUrl (lib : UrlLibrary) (secrets : SecretForms) (value : Text) :
    Except Failure SecretForms :=
  match lib.parse value with
  | none => throw (.typeError "Invalid RPC URL for diagnostic scrubbing.")
  | some url => do
    if [text "http:", text "https:", text "ws:", text "wss:"].contains url.protocol then
      let encode (t : Text) : Except Failure Text :=
        match encodeURIComponent t with
        | none => throw (.error "URI malformed")
        | some encoded => return encoded
      let secrets ← addSecret (← encode value) false secrets
      let secrets ← addSecret (← encode url.href) false secrets
      let secrets ← addUrlValue url.username true secrets
      let secrets ← addUrlValue url.password true secrets
      let secrets ← (url.pathname.splitOn (unit '/')).foldlM
        (fun secrets segment => addUrlValue segment false secrets) secrets
      let secrets ← url.searchParams.foldlM (fun secrets (name, queryValue) =>
        addUrlValue queryValue (CREDENTIAL_QUERY_NAMES.contains (name.map lowercaseNameUnit))
          secrets) secrets
      addUrlValue (url.hash.drop 1) false secrets
    else throw (.typeError "Unsupported RPC URL protocol for scrubbing.")

/-- The digits of a private key. -/
def privateKeyDigits (key : Text) : Text :=
  if (text "0x").isPrefixOf key || (text "0X").isPrefixOf key then key.drop 2 else key

def addPrivateKey (secrets : SecretForms) : Option Text → Except Failure SecretForms
  | none => return secrets
  | some privateKey =>
    let key := privateKeyDigits privateKey
    if key.length ≠ 64 ∨ key.all isHexDigit = false then
      throw (.typeError "Invalid private key for diagnostic scrubbing.")
    else do
      let secrets ← addSecret key true secrets
      addSecret (text "0x" ++ key) true secrets

def configuredUrls (lib : UrlLibrary) (rpcUrls : List Text) : List Text :=
  (rpcUrls.flatMap fun value => [value, ((lib.parse value).map (·.href)).getD value]).eraseDups

def createScrubber (lib : UrlLibrary) (options : CreateScrubberOptions) :
    Except Failure Scrubber := do
  let secrets ← options.rpcUrls.foldlM (addUrl lib) []
  let secrets ← options.secrets.foldlM (fun secrets secret => addSecret secret false secrets) secrets
  let secrets ← addPrivateKey secrets options.privateKey
  let exact := (secrets.filter fun (_, ignoreCase) => !ignoreCase).map fun (form, _) =>
    normalizePercentEscapes form
  let folded := (secrets.filter fun (_, ignoreCase) => ignoreCase).map fun (form, _) =>
    lowercaseAscii (normalizePercentEscapes form)
  return ⟨configuredUrls lib options.rpcUrls, exact.eraseDups, folded.eraseDups⟩

end Quicknet
