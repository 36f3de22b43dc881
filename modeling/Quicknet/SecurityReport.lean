import Quicknet.JournalText
import Quicknet.SecurityProfile
import Quicknet.TextScrubber

/-! The report of a security check, and the status that its checks add up to. -/
namespace Quicknet.Security

open Json (Text text decimal)

inductive CheckStatus
  | match
  | drift
  | error
  | skipped
  deriving DecidableEq, Repr

inductive AggregateStatus
  | match
  | drift
  | error
  deriving DecidableEq, Repr

inductive CheckResult (Expected Observed : Type)
  | match (expected : Expected) (observed : Observed)
  | drift (expected : Expected) (observed : Observed) (reason : Text)
  | error (expected : Expected) (error : Text)
  | skipped (expected : Expected) (reason : Text)

namespace CheckResult

variable {Expected Observed : Type}

def status : CheckResult Expected Observed → CheckStatus
  | .match _ _ => .match
  | .drift _ _ _ => .drift
  | .error _ _ => .error
  | .skipped _ _ => .skipped

end CheckResult

def aggregateCheckStatuses (statuses : List CheckStatus) : AggregateStatus :=
  if statuses.length = 0 then .error
  else if statuses.contains .error then .error
  else if statuses.contains .drift then .drift
  else if statuses.contains .skipped then .error
  else .match

/-- The statuses add up to a match where there are some and all of them match. -/
theorem aggregateCheckStatuses_match_iff {statuses : List CheckStatus} :
    aggregateCheckStatuses statuses = .match ↔
      statuses ≠ [] ∧ ∀ status ∈ statuses, status = .match := by
  unfold aggregateCheckStatuses
  constructor
  · intro h
    split_ifs at h with hlength herror hdrift hskipped
    refine ⟨fun hnil => hlength (congrArg List.length hnil), ?_⟩
    intro status hmem
    cases status with
    | «match» => rfl
    | drift => exact absurd (List.contains_iff_mem.mpr hmem) hdrift
    | error => exact absurd (List.contains_iff_mem.mpr hmem) herror
    | skipped => exact absurd (List.contains_iff_mem.mpr hmem) hskipped
  · intro h
    obtain ⟨hne, hall⟩ := h
    have hlacks : ∀ status, status ≠ .match → ¬statuses.contains status = true := by
      intro status hstatus hmem
      exact hstatus (hall status (List.contains_iff_mem.mp hmem))
    rw [if_neg (fun hlength => hne (List.length_eq_zero_iff.mp hlength)),
      if_neg (hlacks .error (by decide)), if_neg (hlacks .drift (by decide)),
      if_neg (hlacks .skipped (by decide))]

/-- The numbers of a report are integers. -/
inductive ReportValue
  | null
  | bool (b : Bool)
  | number (n : ℕ)
  | string (t : Text)
  | bigint (n : ℤ)
  | array (items : List ReportValue)
  | record (fields : List (Text × ReportValue))

structure VerificationObservation where
  id : Text
  chainId : ℕ
  blockNumber : ℤ
  blockTimestamp : ℤ

structure VerificationCheck where
  id : Text
  observationIds : List Text
  result : CheckResult ReportValue ReportValue
  details : Option ReportValue

structure VerificationReport where
  network : Text
  chainId : ℕ
  verificationTimestamp : Text
  repositoryRevision : Text
  repositoryDirty : Bool
  observations : List VerificationObservation
  checks : List VerificationCheck
  aggregateStatus : AggregateStatus

structure CreateVerificationReportInput where
  network : Text
  chainId : ℕ
  verificationTime : ℤ
  repositoryRevision : Text
  repositoryDirty : Bool
  observations : List VerificationObservation
  checks : List VerificationCheck

/-- The message of the error that is thrown otherwise. -/
abbrev Reported (α : Type) := Except Text α

def requireNonEmptyString (value path : Text) : Reported Unit :=
  if value.all isWhitespace then .error (path ++ text " must not be empty.") else .ok ()

def requireChainId (value : ℕ) (path : Text) : Reported Unit :=
  if 0 < value ∧ value ≤ MAX_SAFE_INTEGER then .ok ()
  else .error (path ++ text " must be a positive safe integer.")

def requireNonNegativeBigInt (value : ℤ) (path : Text) : Reported Unit :=
  if value < 0 then .error (path ++ text " must be non-negative.") else .ok ()

def indexed (path : Text) (i : ℕ) : Text := path ++ text "[" ++ decimal i ++ text "]"

mutual

def validateReportValue : ReportValue → Text → Reported Unit
  | .number n, path =>
    if n ≤ MAX_SAFE_INTEGER then .ok ()
    else .error (path ++ text " must contain only safe integer numbers.")
  | .array items, path => validateReportItems items path 0
  | .record fields, path => validateReportFields fields path
  | .null, _ | .bool _, _ | .string _, _ | .bigint _, _ => .ok ()

def validateReportItems : List ReportValue → Text → ℕ → Reported Unit
  | [], _, _ => .ok ()
  | item :: rest, path, i => do
    validateReportValue item (indexed path i)
    validateReportItems rest path (i+1)

def validateReportFields : List (Text × ReportValue) → Text → Reported Unit
  | [], _ => .ok ()
  | (key, value) :: rest, path => do
    validateReportValue value (path ++ text "." ++ key)
    validateReportFields rest path

end

/-- The loop over the observations, with the ids so far. -/
def validateObservations (ids : List Text) : List VerificationObservation → Reported Unit
  | [] => .ok ()
  | observation :: rest => do
    let path := indexed (text "observations") ids.length
    requireNonEmptyString observation.id (path ++ text ".id")
    if ids.contains observation.id then
      .error (text "duplicate observation ID: " ++ observation.id ++ text ".")
    else do
      requireChainId observation.chainId (path ++ text ".chainId")
      requireNonNegativeBigInt observation.blockNumber (path ++ text ".blockNumber")
      requireNonNegativeBigInt observation.blockTimestamp (path ++ text ".blockTimestamp")
      validateObservations (ids ++ [observation.id]) rest

def validateReferences (path : Text) (observationIds referenced : List Text) :
    List Text → Reported Unit
  | [] => .ok ()
  | observationId :: rest => do
    requireNonEmptyString observationId
      (indexed (path ++ text ".observationIds") referenced.length)
    if referenced.contains observationId then
      .error (path ++ text " contains duplicate observation ID: " ++ observationId ++ text ".")
    else if !observationIds.contains observationId then
      .error (path ++ text " references unknown observation ID: " ++ observationId ++ text ".")
    else validateReferences path observationIds (referenced ++ [observationId]) rest

def validateCheckResult (path : Text) : CheckResult ReportValue ReportValue → Reported Unit
  | .match expected observed => do
    validateReportValue expected (path ++ text ".expected")
    validateReportValue observed (path ++ text ".observed")
  | .drift expected observed reason => do
    validateReportValue expected (path ++ text ".expected")
    validateReportValue observed (path ++ text ".observed")
    requireNonEmptyString reason (path ++ text ".reason")
  | .error expected error => do
    validateReportValue expected (path ++ text ".expected")
    requireNonEmptyString error (path ++ text ".error")
  | .skipped expected reason => do
    validateReportValue expected (path ++ text ".expected")
    requireNonEmptyString reason (path ++ text ".reason")

def validateDetails (path : Text) (details : Option ReportValue) : Reported Unit :=
  match details with
  | some details => validateReportValue details (path ++ text ".details")
  | none => .ok ()

def validateChecks (observationIds ids : List Text) : List VerificationCheck → Reported Unit
  | [] => .ok ()
  | check :: rest => do
    let path := indexed (text "checks") ids.length
    requireNonEmptyString check.id (path ++ text ".id")
    if ids.contains check.id then
      .error (text "duplicate check ID: " ++ check.id ++ text ".")
    else do
      validateReferences path observationIds [] check.observationIds
      validateCheckResult path check.result
      validateDetails path check.details
      validateChecks observationIds (ids ++ [check.id]) rest

/-- The observations and checks of the report are clones, equal to those of the input. -/
def createVerificationReport (input : CreateVerificationReportInput) :
    Reported VerificationReport := do
  requireNonEmptyString input.network (text "network")
  requireChainId input.chainId (text "chainId")
  requireNonEmptyString input.repositoryRevision (text "repositoryRevision")
  validateObservations [] input.observations
  validateChecks (input.observations.map (·.id)) [] input.checks
  return {
    network := input.network
    chainId := input.chainId
    verificationTimestamp := toISOString input.verificationTime
    repositoryRevision := input.repositoryRevision
    repositoryDirty := input.repositoryDirty
    observations := input.observations
    checks := input.checks
    aggregateStatus := aggregateCheckStatuses (input.checks.map (·.result.status)) }

theorem createVerificationReport_ok {input : CreateVerificationReportInput}
    {report : VerificationReport} (h : createVerificationReport input = .ok report) :
    report.checks = input.checks ∧
      report.aggregateStatus = aggregateCheckStatuses (input.checks.map (·.result.status)) := by
  unfold createVerificationReport at h
  simp only [except_bind_ok_iff] at h
  obtain ⟨_, _, _, _, _, _, _, _, _, _, hreport⟩ := h
  cases hreport
  exact ⟨rfl, rfl⟩

end Quicknet.Security
