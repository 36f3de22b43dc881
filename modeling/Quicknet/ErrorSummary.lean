import Quicknet.ErrorDetails
import Quicknet.TextScrubber
import Quicknet.Library.NodeBudget

/-! Summaries of errors for logs and status files. An error may be any value: the code looks at
its properties through descriptors only, within a budget of nodes and of depth. -/
namespace Quicknet

open Json (Text text unit)
open ObjectGraph NodeBudget

def MAX_PROTOTYPE_NODES : ℕ := 5
def MAX_ERROR_DEPTH : ℕ := 4
def MAX_ERROR_NODES : ℕ := 12
def MAX_AGGREGATE_ENTRIES : ℕ := 4
def MAX_REVERT_ARGUMENTS : ℕ := 4
def MIN_REVERT_INTEGER : ℤ := -2^255
def MAX_REVERT_INTEGER : ℤ := 2^256-1

def ERROR_MESSAGES : List (Text × Text) :=
  [(text "UnknownError", text "Operation failed; details redacted."),
    (text "Error", text "Operation failed; details redacted."),
    (text "TypeError", text "Invalid value; details redacted."),
    (text "RangeError", text "Value out of range; details redacted."),
    (text "SyntaxError", text "Invalid syntax; details redacted."),
    (text "ReferenceError", text "Invalid reference; details redacted."),
    (text "URIError", text "Invalid URI encoding; details redacted."),
    (text "EvalError", text "Evaluation failed; details redacted."),
    (text "AggregateError", text "Multiple operations failed."),
    (text "HttpRequestError", text "HTTP request failed."),
    (text "WebSocketRequestError", text "WebSocket request failed."),
    (text "RpcRequestError", text "RPC request failed."),
    (text "TimeoutError", text "Request timed out."),
    (text "WaitForTransactionReceiptTimeoutError", text "Receipt wait timed out."),
    (text "NonceTooLowError", text "Transaction nonce is too low."),
    (text "NonceTooHighError", text "Transaction nonce is too high."),
    (text "InsufficientFundsError", text "Insufficient funds for transaction."),
    (text "TransactionExecutionError", text "Transaction execution failed."),
    (text "ContractFunctionExecutionError", text "Contract execution failed."),
    (text "ContractFunctionRevertedError", text "Contract execution reverted."),
    (text "EstimateGasExecutionError", text "Gas estimation failed."),
    (text "CallExecutionError", text "Call execution failed."),
    (text "AbortError", text "Operation aborted.")]

def SYSTEM_CODES : List Text :=
  [text "ABORT_ERR", text "EACCES", text "EAGAIN", text "EAI_AGAIN", text "ECONNABORTED",
    text "ECONNREFUSED", text "ECONNRESET", text "EINTR", text "EHOSTUNREACH",
    text "ENETUNREACH", text "ENOENT", text "ENOTFOUND", text "EPIPE", text "ETIMEDOUT"]

/-- What the program can reach of its errors while it summarizes one. -/
structure ErrorGraph extends Graph where
  mismatches : ℕ → Option MismatchDetails
  anchoredReads : AnchoredReads

/-- The scrubber of the options. It may throw. -/
abbrev ScrubText := Text → Except Failure ScrubbedText

inductive SummaryCode
  | number (n : ℤ)
  | string (t : Text)
  deriving DecidableEq

inductive RevertArgument
  | string (t : Text)
  | number (n : ℤ)
  | boolean (b : Bool)
  | null
  deriving DecidableEq

structure RevertSummary where
  name : Option Text
  reason : Option Text
  args : Option (List RevertArgument)
  argsOmitted : Bool
  deriving DecidableEq

inductive AnchoredReadClassification
  | historicalStateUnavailable
  | unknown
  deriving DecidableEq

def AnchoredReadClassification.label : AnchoredReadClassification → Text
  | .historicalStateUnavailable => text "historical-state-unavailable"
  | .unknown => text "unknown"

/-- A flag that is absent is `false`, and `errors` is empty where it is absent. -/
structure ErrorSummary where
  /-- The value that was summarized. The code does not keep it. -/
  subject : Value
  name : Text
  message : Text
  code : Option SummaryCode
  status : Option ℤ
  cause : Option ErrorSummary
  causeOmitted : Bool
  errors : List ErrorSummary
  errorsOmitted : Bool
  textModified : Bool
  revert : Option RevertSummary
  mismatch : Option MismatchDetails
  anchoredRead : Option (AnchoredReadDetails × AnchoredReadClassification)

def unknownError (subject : Value) : ErrorSummary where
  subject := subject
  name := text "UnknownError"
  message := text "Operation failed; details redacted."
  code := none
  status := none
  cause := none
  causeOmitted := false
  errors := []
  errorsOmitted := false
  textModified := false
  revert := none
  mismatch := none
  anchoredRead := none

/-! Properties. -/

section Properties

variable (g : Graph)

/-- At most `left` more objects after those of `chain`. -/
def prototypeChainFrom : ℕ → List ℕ → ℕ → List ℕ
  | 0, chain, _ => chain
  | left+1, chain, current =>
    if current ∈ chain then chain
    else if current = g.objectPrototype then chain ++ [current]
    else
      match g.prototypeOf current with
      | .object prototype => prototypeChainFrom left (chain ++ [current]) prototype
      -- a throwing prototype trap does not invalidate earlier nodes
      | _ => chain ++ [current]

def prototypeChain (o : ℕ) : List ℕ := prototypeChainFrom g MAX_PROTOTYPE_NODES [] o

def dataProperty (key : String) : List ℕ → Value
  | [] => .undefined
  | o :: chain =>
    match g.ownProperty o key with
    | .absent => dataProperty key chain
    | .data v => v
    -- an accessor shadows inherited properties
    | .accessor => .undefined
    | .throws => .undefined

def readLength : Value → Option ℕ
  | .number x => (safeInteger x).bind fun n => if 0 ≤ n then some n.toNat else none
  | _ => none

def nonEmptyText : Value → Option Text
  | .string t => if t = [] then none else some t
  | _ => none

end Properties

/-! Texts from outside. -/

def scrubField (scrubText : ScrubText) (value : Value) : Option ScrubbedText :=
  (nonEmptyText value).map fun t =>
    match scrubText t with
    | .ok result => result
    -- never fall back to raw text if scrubbing fails
    | .error _ => ⟨text "[diagnostic text unavailable]", true⟩

/-- The summary with a field set to the text, where there is one. -/
def ErrorSummary.setScrubbed (summary : ErrorSummary) (set : ErrorSummary → Text → ErrorSummary) :
    Option ScrubbedText → ErrorSummary
  | none => summary
  | some result =>
    set { summary with textModified := summary.textModified || result.removed } result.text

section Texts

variable (g : Graph) (scrubText : ScrubText)

def selectErrorMessage (chain : List ℕ) (cause : Value) : Value :=
  match nonEmptyText (dataProperty g "details" chain),
    nonEmptyText (dataProperty g "shortMessage" chain) with
  | some details, some shortMessage =>
    match cause with
    | .object c =>
      if dataProperty g "details" (prototypeChain g c) = .string details then
        .string shortMessage
      else .string details
    | _ => .string details
  | some details, none => .string details
  | none, some shortMessage => .string shortMessage
  | none, none => dataProperty g "message" chain

/-- The argument, with whether its text was modified. -/
def revertArgument : Value → Option (RevertArgument × Bool)
  | .string [] => some (.string [], false)
  | .string t => (scrubField scrubText (.string t)).map fun r => (.string r.text, r.removed)
  | .bigint n =>
    if n < MIN_REVERT_INTEGER ∨ MAX_REVERT_INTEGER < n then none
    else
      (scrubField scrubText (.string (text (toString n)))).map fun r => (.string r.text, r.removed)
  | .number x => (safeInteger x).map fun n => (.number n, false)
  | .boolean b => some (.boolean b, false)
  | .null => some (.null, false)
  | _ => none

/-- Whether arguments were omitted, and whether texts were modified, are the last two. -/
def summarizeArguments : Value → Option (List RevertArgument) × Bool × Bool
  | .undefined => (none, false, false)
  | .object args =>
    match g.isArray args, readLength (dataProperty g "length" [args]) with
    | some true, some length =>
      let limit := min length MAX_REVERT_ARGUMENTS
      let values := (List.range limit).map fun index =>
        revertArgument scrubText (dataProperty g (toString index) [args])
      -- argument positions are preserved when a value is omitted
      (some (values.map fun value => value.elim (.string (text "[omitted]")) Prod.fst),
        values.any Option.isNone || decide (limit < length),
        values.any fun value => value.elim false Prod.snd)
    | _, _ => (none, true, false)
  | _ => (none, true, false)

/-- The revert, with whether its texts were modified. -/
def summarizeRevert (chain : List ℕ) : Option RevertSummary × Bool :=
  let reason := scrubField scrubText (dataProperty g "reason" chain)
  let (name, args, argsOmitted, argsModified) :=
    match dataProperty g "data" chain with
    | .object data =>
      (scrubField scrubText (dataProperty g "errorName" (prototypeChain g data)),
        summarizeArguments g scrubText (dataProperty g "args" (prototypeChain g data)))
    | _ => (none, none, false, false)
  let revert : RevertSummary := ⟨name.map (·.text), reason.map (·.text), args, argsOmitted⟩
  (if revert = ⟨none, none, none, false⟩ then none else some revert,
    [name, reason].any (fun field => field.elim false (·.removed)) || argsModified)

def scrubSummary (chain : List ℕ) (summary : ErrorSummary) : ErrorSummary :=
  let name := dataProperty g "name" chain
  let summary := summary.setScrubbed (fun s t => { s with name := t }) (scrubField scrubText name)
  let summary := summary.setScrubbed (fun s t => { s with code := some (.string t) })
    (scrubField scrubText (dataProperty g "code" chain))
  let summary := summary.setScrubbed (fun s t => { s with message := t })
    (scrubField scrubText (selectErrorMessage g chain (dataProperty g "cause" chain)))
  if name = .string (text "ContractFunctionRevertedError") then
    let (revert, modified) := summarizeRevert g scrubText chain
    { summary with revert := revert, textModified := summary.textModified || modified }
  else summary

end Texts

/-! Classification of a failed anchored read, from the scrubbed summary. -/

def trimText (t : Text) : Text :=
  ((t.dropWhile isWhitespace).reverse.dropWhile isWhitespace).reverse

/-- Beyond ASCII the lower case matters to no comparison here. -/
def isHistoricalStateLine (line : Text) : Bool :=
  let t := lowercaseAscii (trimText line)
  let t := if text "." <:+ t then t.dropLast else t
  let head := text "historical state "
  let tail := text " is not available"
  let hash := (t.take (t.length - tail.length)).drop head.length
  decide (t = text "historical state is not available") ||
    (decide (head <+: t) && decide (tail <:+ t) &&
      isFixedHex 32 (if text "0x" <+: hash then hash else text "0x" ++ hash))

def hasHistoricalStateMessage (message : Text) : Bool :=
  (message.splitOn (unit '\n')).any isHistoricalStateLine

def classifyFrom : ℕ → Option ErrorSummary → AnchoredReadClassification
  | _, none => .unknown
  | 0, _ => .unknown
  | left+1, some summary =>
    if hasHistoricalStateMessage summary.message then .historicalStateUnavailable
    else classifyFrom left summary.cause

def classifyAnchoredReadFailure (summary : ErrorSummary) : AnchoredReadClassification :=
  classifyFrom 4 (some summary)

def ErrorSummary.classified (summary : ErrorSummary) : ErrorSummary :=
  { summary with
    anchoredRead := summary.anchoredRead.map fun read =>
      (read.1, classifyAnchoredReadFailure summary) }

/-! The traversal. -/

section Visit

variable (g : ErrorGraph) (options : Option ScrubText)

def mismatchCode : MismatchDetails → Text
  | .deploymentChain _ _ => text "DEPLOYMENT_CHAIN_MISMATCH"
  | .consumerRegistry _ _ _ => text "CONSUMER_REGISTRY_MISMATCH"

def addMismatch (o : ℕ) (summary : ErrorSummary) : ErrorSummary :=
  match g.mismatches o with
  | none => summary
  | some details =>
    { summary with
      mismatch := some details
      code := some (.string (mismatchCode details))
      message := if options.isNone = true then mismatchMessage details else summary.message }

def readCode : Value → Option SummaryCode
  | .number x => (safeInteger x).map .number
  | .string t => if SYSTEM_CODES.contains t = true then some (.string t) else none
  | _ => none

def readStatus : Value → Option ℤ
  | .number x => (safeInteger x).filter fun n => 100 ≤ n ∧ n ≤ 599
  | _ => none

/-- The name, where it is a known one, and its message. -/
def readName : Value → Option (Text × Text)
  | .string name => (ERROR_MESSAGES.lookup name).map (name, ·)
  | _ => none

/-- The summary of an object as it is before its cause is visited. -/
def startSummary (o : ℕ) : ErrorSummary :=
  let chain := prototypeChain g.toGraph o
  let unknown := unknownError (.object o)
  let known := readName (dataProperty g.toGraph "name" chain)
  { unknown with
    name := known.elim unknown.name Prod.fst
    message := known.elim unknown.message Prod.snd
    code := readCode (dataProperty g.toGraph "code" chain)
    status := readStatus (dataProperty g.toGraph "status" chain)
    causeOmitted := decide (dataProperty g.toGraph "causeOmitted" chain = .boolean true)
    anchoredRead := (g.anchoredReads o).map (·, .unknown) }

abbrev Visitor := Value → Budget ℕ → Option ErrorSummary × Budget ℕ

def visitCause (child : Visitor) (cause : Value) (summary : ErrorSummary) (budget : Budget ℕ) :
    ErrorSummary × Budget ℕ :=
  if cause = .undefined ∨ cause = .null then (summary, budget)
  else
    let visited := child cause budget
    ({ summary with
        cause := visited.1
        causeOmitted := summary.causeOmitted || visited.1.isNone }, visited.2)

def visitEntries (child : Visitor) (errors : ℕ) :
    List ℕ → Budget ℕ → List (Option ErrorSummary) × Budget ℕ
  | [], budget => ([], budget)
  | index :: rest, budget =>
    let visited := child (dataProperty g.toGraph (toString index) [errors]) budget
    let others := visitEntries child errors rest visited.2
    (visited.1 :: others.1, others.2)

def visitArray (child : Visitor) (errors : ℕ) (summary : ErrorSummary) (budget : Budget ℕ) :
    ErrorSummary × Budget ℕ :=
  match g.isArray errors with
  | some false => (summary, budget)
  | none => ({ summary with errorsOmitted := true }, budget)
  | some true =>
    match readLength (dataProperty g.toGraph "length" (prototypeChain g.toGraph errors)) with
    | none => ({ summary with errorsOmitted := true }, budget)
    | some length =>
      let limit := min length MAX_AGGREGATE_ENTRIES
      let visited := visitEntries g child errors (List.range limit) budget
      ({ summary with
          errors := visited.1.reduceOption
          errorsOmitted := summary.errorsOmitted || visited.1.any Option.isNone ||
            decide (limit < length) }, visited.2)

def visitErrors (child : Visitor) (chain : List ℕ) (summary : ErrorSummary) (budget : Budget ℕ) :
    ErrorSummary × Budget ℕ :=
  if summary.name ≠ text "AggregateError" then (summary, budget)
  else
    let summary := { summary with
      errorsOmitted := decide (dataProperty g.toGraph "errorsOmitted" chain = .boolean true) }
    match dataProperty g.toGraph "errors" chain with
    | .object errors => visitArray g child errors summary budget
    | _ => (summary, budget)

/-- The cause first, then the errors, with what is left of the budget. -/
def visitLinks (child : Visitor) (o : ℕ) (budget : Budget ℕ) : ErrorSummary × Budget ℕ :=
  let chain := prototypeChain g.toGraph o
  let visited := visitCause child (dataProperty g.toGraph "cause" chain) (startSummary g o) budget
  visitErrors g child chain visited.1 visited.2

def finishSummary (o : ℕ) (summary : ErrorSummary) : ErrorSummary :=
  let scrubbed := options.elim summary fun scrubText =>
    scrubSummary g.toGraph scrubText (prototypeChain g.toGraph o) summary
  (addMismatch g options o scrubbed).classified

def visitObject (child : Visitor) (o : ℕ) (budget : Budget ℕ) : ErrorSummary × Budget ℕ :=
  let visited := visitLinks g child o budget
  (finishSummary g options o visited.1, visited.2)

/-- The summary of a value that is no object. -/
def summarizePlain (error : Value) : ErrorSummary :=
  (unknownError error).setScrubbed (fun s t => { s with message := t })
    (options.bind fun scrubText => scrubField scrubText error)

/-- `left` is how far the depth is below its limit. -/
def visit : ℕ → Visitor
  | 0, _, budget => (none, budget)
  | left+1, error, budget =>
    if budget.remaining = 0 then (none, budget)
    else
      match error with
      | .object o =>
        -- an object that was seen has used up its node
        if o ∈ budget.seen then (none, budget.spend)
        else
          let visited := visitObject g options (visit left) o (budget.spend.mark o)
          (some visited.1, visited.2)
      | _ => (some (summarizePlain options error), budget.spend)

/-- It has a summary for every value: what a read, `Array.isArray` or the scrubber throws is caught
where it is called. -/
def summarizeError (error : Value) : ErrorSummary :=
  (visit g options MAX_ERROR_DEPTH error ⟨MAX_ERROR_NODES, []⟩).1.getD (unknownError error)

end Visit

end Quicknet
