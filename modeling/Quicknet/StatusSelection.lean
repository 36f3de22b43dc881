import Quicknet.CommandGrammar
import Quicknet.ServiceLauncher

/-! The launcher reads the arguments of the status command as the program does, so a journal
is read only under the lock that the launcher has taken. -/
namespace Quicknet.Service
open Json (Text text)
open ArgumentScan (scan Item spelled Regular Accepts scan_ok_iff)
open Quicknet.Cli

/-- The source that a configuration names. -/
def statusSource : StatusConfig → StatusSource
  | .journal _ => .journal
  | .daemonSnapshot _ _ => .daemonSnapshot

section Inspection

variable {values : List (StatusOption × Text)} {args : List Text}

theorem inspectStep_given {seen : Option StatusSource} {option : StatusOption} {value : Text}
    (hplain : startsWithDashes value = false) (hne : option ≠ .source) :
    inspectStep seen option.flag (some value) = .ok (seen, true) := by
  unfold inspectStep
  rw [statusOption_iff.mpr rfl]
  simp only [hplain, Bool.false_eq_true, if_false, hne]

theorem inspectStep_source (source : StatusSource) :
    inspectStep none StatusOption.source.flag (some source.name) = .ok (some source, true) := by
  cases source <;> decide

theorem inspectStep_regular : Regular inspectStep where
  taken := by
    intro seen argument t h
    unfold inspectStep at h
    split at h
    · cases h
    · cases h
    · rename_i hnone
      cases hnone
  alone := by
    intro seen argument next next' t h
    unfold inspectStep at h
    split at h
    · cases h
    · cases h
    · split at h
      · cases h
      · split at h
        · split at h
          · cases h
          · split at h
            · cases h
            · split at h <;> cases h
        · cases h

/-- Options with values that name a source at most once, and one that exists. -/
theorem accepts_inspect {source : StatusSource} {seen : Option StatusSource}
    (hplain : ∀ given ∈ values, startsWithDashes given.2 = false)
    (honce : (values.map Prod.fst).Nodup)
    (hsource : ∀ given ∈ values, given.1 = .source → given.2 = source.name)
    (hseen : .source ∈ values.map Prod.fst → seen = none) :
    Accepts inspectStep seen (values.map statusItem)
      (if .source ∈ values.map Prod.fst then some source else seen) := by
  induction values generalizing seen with
  | nil => exact .nil seen
  | cons given values ih =>
    obtain ⟨hnew, honce⟩ := List.nodup_cons.mp honce
    obtain ⟨hgiven, hplain⟩ := List.forall_mem_cons.mp hplain
    obtain ⟨hname, hsource⟩ := List.forall_mem_cons.mp hsource
    by_cases hkey : given.1 = .source
    · -- the source is named here, so not later
      have hlater : StatusOption.source ∉ values.map Prod.fst := hkey ▸ hnew
      have hin : StatusOption.source ∈ (given :: values).map Prod.fst := by simp [hkey]
      have htail : Accepts inspectStep (some source) (values.map statusItem)
          (if .source ∈ values.map Prod.fst then some source else some source) :=
        ih hplain honce hsource fun h => absurd h hlater
      rw [if_neg hlater] at htail
      rw [if_pos hin]
      refine .cons (t := some source) ?_ htail
      rw [hseen hin]
      change inspectStep none given.1.flag (some given.2) = _
      rw [hkey, hname hkey]
      exact inspectStep_source source
    · have hiff : StatusOption.source ∈ (given :: values).map Prod.fst ↔
          StatusOption.source ∈ values.map Prod.fst := by
        rw [List.map_cons, List.mem_cons]
        exact or_iff_right (Ne.symm hkey)
      simp only [hiff]
      refine Accepts.cons (t := seen) (inspectStep_given hgiven hkey) (ih hplain honce hsource fun h => ?_)
      exact hseen (hiff.mpr h)

theorem values_source {config : StatusConfig} (h : config.Values values) :
    .source ∈ values.map Prod.fst ∧
      ∀ given ∈ values, given.1 = .source → given.2 = (statusSource config).name := by
  have hfrom (given : List (StatusOption × Text)) (hperm : values.Perm given)
      (hin : StatusOption.source ∈ given.map Prod.fst)
      (hname : ∀ v ∈ given, v.1 = .source → v.2 = (statusSource config).name) :
      .source ∈ values.map Prod.fst ∧
        ∀ v ∈ values, v.1 = .source → v.2 = (statusSource config).name :=
    ⟨(hperm.map Prod.fst).mem_iff.mpr hin, fun v hv => hname v (hperm.mem_iff.mp hv)⟩
  cases config with
  | journal identity =>
    obtain ⟨numeral, _, hperm⟩ := h
    refine hfrom _ hperm (by simp [identityValues]) ?_
    simp [identityValues, statusSource, StatusSource.name]
  | daemonSnapshot identity maxAgeMs =>
    obtain ⟨numeral, _, ⟨_, hperm⟩ | ⟨age, _, _, _, hperm⟩⟩ := h
    · refine hfrom _ hperm (by simp [identityValues]) ?_
      simp [identityValues, statusSource, StatusSource.name]
    · refine hfrom _ hperm (by simp [identityValues]) ?_
      simp [identityValues, statusSource, StatusSource.name]

/-- What the program accepts, the launcher has inspected, with the same source. -/
theorem inspect_of_parse {config : StatusConfig}
    (h : parseStatusArguments args = .ok (.status config)) :
    inspectStatusArguments args = some (some (statusSource config)) := by
  obtain ⟨config', heq, values, rfl, hvalues⟩ := parseStatusArguments_ok_iff.mp h
  cases heq
  obtain ⟨hstatus, _⟩ := statusValues_iff.mpr hvalues
  obtain ⟨hin, hname⟩ := values_source hvalues
  have haccepts : Accepts inspectStep none (values.map statusItem)
      (if .source ∈ values.map Prod.fst then some (statusSource config) else none) :=
    accepts_inspect hstatus.plain hstatus.once hname fun _ => rfl
  rw [if_pos hin] at haccepts
  unfold inspectStatusArguments
  rw [haccepts.scan inspectStep_regular]
  rfl

theorem inspect_append {seen : StatusSource} (h : inspectStatusArguments args = some none) :
    inspectStatusArguments (args ++ sourceArguments seen) = some (some seen) := by
  unfold inspectStatusArguments at h ⊢
  cases hs : scan inspectStep none args with
  | error e =>
    rw [hs] at h
    cases h
  | ok s =>
    rw [hs] at h
    have hnone : s = none := Option.some.inj h
    subst hnone
    obtain ⟨items, rfl, haccepts⟩ := (scan_ok_iff inspectStep_regular).mp hs
    rw [haccepts.scan_append inspectStep_regular]
    cases seen <;> decide

end Inspection

section Commands

variable {args : List Text} {command : CommandArguments}

theorem normalize_status (args : List Text) :
    normalizeArguments (text "status" :: args) = text "status" :: args := by
  unfold normalizeArguments
  rw [if_neg]
  rw [List.head?_cons, Option.some.injEq]
  decide

/-- Under its name, the status command is all that is read. -/
theorem parse_status (h : parseCommandArguments (text "status" :: args) = .ok command)
    (hhelp : helpRequested (text "status" :: args) = false) :
    parseStatusArguments args = .ok command := by
  unfold parseCommandArguments at h
  rw [hhelp, if_neg Bool.false_ne_true] at h
  dsimp only at h
  rw [if_neg (by decide : text "status" ≠ text "help"),
    if_neg (by decide : text "status" ≠ text "import"),
    if_neg (by decide : text "status" ≠ text "import-when-available"),
    if_neg (by decide : text "status" ≠ text "daemon"),
    if_neg (by decide : text "status" ≠ text "sync-nonce"), if_pos rfl] at h
  exact h

theorem help_append {source : StatusSource} (h : helpRequested args = false) :
    helpRequested (args ++ sourceArguments source) = false := by
  simp only [helpRequested, Bool.or_eq_false_iff, List.contains_eq_mem, decide_eq_false_iff_not,
    List.mem_append, not_or] at h ⊢
  have hwords : text "--help" ∉ sourceArguments source ∧ text "-h" ∉ sourceArguments source := by
    cases source <;> decide
  exact ⟨⟨h.1, hwords.1⟩, h.2, hwords.2⟩

end Commands

/-- The launcher and the program agree on the source of the status: where the program accepts
the arguments, the launcher has seen the same source, and a source that the launcher adds is the
one that the program takes. -/
theorem status_source_agrees (args : List Text) (source : StatusSource) (config : StatusConfig) :
    (parseStatusArguments args = .ok (.status config) →
        inspectStatusArguments args = some (some (statusSource config))) ∧
      (inspectStatusArguments args = some none →
        parseStatusArguments (args ++ sourceArguments source) = .ok (.status config) →
          statusSource config = source) := by
  refine ⟨inspect_of_parse, fun hnone hparse => ?_⟩
  have hseen := inspect_of_parse hparse
  rw [inspect_append hnone] at hseen
  exact (Option.some.inj (Option.some.inj hseen)).symm

end Quicknet.Service
