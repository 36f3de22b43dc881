import Quicknet.ServiceHost

/-! The text of a kernel entry, read by the program, shows an exclusive lock exactly where the
description has one. -/
namespace Quicknet.Service
open Json (Text text unit)
open FileLock (LockMode)

section Fields

variable {word rest current : Text}

theorem splitFieldsFrom_word (h : word.all (fun c => !isBlank c) = true) :
    splitFieldsFrom current (word ++ rest) = splitFieldsFrom (current ++ word) rest := by
  induction word generalizing current with
  | nil => simp
  | cons c word ih =>
    rw [List.all_cons, Bool.and_eq_true, Bool.not_eq_true'] at h
    rw [List.cons_append, splitFieldsFrom, h.1, if_neg Bool.false_ne_true, ih h.2,
      List.append_assoc, List.singleton_append]

/-- A field ends at the first blank. -/
theorem splitFields_word (h : word.all (fun c => !isBlank c) = true) (hne : word.isEmpty = false)
    {blank : UInt16} (hb : isBlank blank = true) :
    splitFields (word ++ blank :: rest) = word :: splitFields rest := by
  unfold splitFields
  rw [splitFieldsFrom_word h, List.nil_append, splitFieldsFrom, hb, if_pos rfl, hne,
    if_neg Bool.false_ne_true]

theorem splitFields_blank {blank : UInt16} (hb : isBlank blank = true) :
    splitFields (blank :: rest) = splitFields rest := by
  unfold splitFields
  rw [splitFieldsFrom, hb, if_pos rfl]
  rfl

theorem splitFields_last (h : word.all (fun c => !isBlank c) = true) (hne : word.isEmpty = false) :
    splitFields word = [word] := by
  have hword : splitFieldsFrom [] (word ++ []) = splitFieldsFrom ([] ++ word) [] :=
    splitFieldsFrom_word h
  rw [List.append_nil, List.nil_append] at hword
  unfold splitFields
  rw [hword, splitFieldsFrom, hne, if_neg Bool.false_ne_true]

theorem decimal_word (n : ℕ) : (Json.decimal n).all (fun c => !isBlank c) = true := by
  apply List.all_eq_true.mpr
  intro c hc
  have hdigit := Json.decimal_isDigit hc
  rw [Bool.not_eq_true', isBlank, Bool.or_eq_false_iff, beq_eq_false_iff_ne, beq_eq_false_iff_ne]
  constructor
  · rintro rfl
    revert hdigit
    decide
  · rintro rfl
    revert hdigit
    decide

theorem decimal_nonempty (n : ℕ) : (Json.decimal n).isEmpty = false := by
  rw [List.isEmpty_eq_false_iff]
  exact Json.decimal_ne_nil n

end Fields

section Lines

variable {e : KernelEntry} {mode : LockMode}

theorem modeName_word (mode : LockMode) :
    (modeName mode).all (fun c => !isBlank c) = true ∧ (modeName mode).isEmpty = false := by
  cases mode <;> decide

theorem device_word (h : e.Valid) : e.device.all (fun c => !isBlank c) = true := by
  apply List.all_eq_true.mpr
  intro c hc
  have hboth := List.all_eq_true.mp h.2.2.2 c hc
  rw [Bool.and_eq_true] at hboth
  exact hboth.1

/-- The line of a lock has the nine fields that the check counts. -/
theorem splitFields_lockLine (h : e.Valid) : splitFields (e.lockLine mode) =
    [text "lock:", Json.decimal e.ordinal ++ text ":", text "FLOCK", text "ADVISORY",
      modeName mode, Json.decimal e.pid, e.device, text "0", text "EOF"] := by
  have hline : e.lockLine mode = text "lock:" ++ 0x09 :: ((Json.decimal e.ordinal ++ text ":") ++
      unit ' ' :: (text "FLOCK" ++ unit ' ' :: unit ' ' :: (text "ADVISORY" ++ unit ' ' ::
        unit ' ' :: (modeName mode ++ unit ' ' :: (Json.decimal e.pid ++ unit ' ' ::
          (e.device ++ unit ' ' :: (text "0" ++ unit ' ' :: text "EOF"))))))) := by
    have htab : text "lock:\t" = text "lock:" ++ [0x09] := by decide
    have hkind : text ": FLOCK  ADVISORY  " = text ":" ++ unit ' ' :: (text "FLOCK" ++ unit ' ' ::
        unit ' ' :: (text "ADVISORY" ++ unit ' ' :: unit ' ' :: [])) := by decide
    have hspace : text " " = [unit ' '] := by decide
    have hend : text " 0 EOF" = unit ' ' :: (text "0" ++ unit ' ' :: text "EOF") := by decide
    unfold KernelEntry.lockLine
    rw [htab, hkind, hspace, hend]
    simp only [List.append_assoc, List.cons_append, List.nil_append]
  have hb : isBlank (unit ' ') = true := by decide
  have ht : isBlank 0x09 = true := by decide
  have hordinal : (Json.decimal e.ordinal ++ text ":").all (fun c => !isBlank c) = true := by
    rw [List.all_append, decimal_word, Bool.true_and]
    decide
  have hordinal' : (Json.decimal e.ordinal ++ text ":").isEmpty = false := by
    rw [List.isEmpty_eq_false_iff]
    exact List.append_ne_nil_of_left_ne_nil (Json.decimal_ne_nil _) _
  rw [hline, splitFields_word (by decide) (by decide) ht, splitFields_word hordinal hordinal' hb,
    splitFields_word (by decide) (by decide) hb, splitFields_blank hb,
    splitFields_word (by decide) (by decide) hb, splitFields_blank hb,
    splitFields_word (modeName_word mode).1 (modeName_word mode).2 hb,
    splitFields_word (decimal_word _) (decimal_nonempty _) hb,
    splitFields_word (device_word h) h.2.2.1 hb, splitFields_word (by decide) (by decide) hb,
    splitFields_last (by decide) (by decide)]

theorem isExclusiveFlock_lockLine (h : e.Valid) :
    isExclusiveFlock (e.lockLine mode) = decide (mode = .exclusive) := by
  have hfirst : text "lock:" <+: e.lockLine mode := by
    have htab : text "lock:\t" = text "lock:" ++ [0x09] := by decide
    unfold KernelEntry.lockLine
    rw [htab]
    simp only [List.append_assoc]
    exact List.prefix_append _ _
  have hmode : (modeName mode == text "WRITE") = decide (mode = .exclusive) := by
    cases mode <;> decide
  unfold isExclusiveFlock
  rw [splitFields_lockLine h]
  simp only [decide_eq_true hfirst, Bool.true_and, List.length_cons, List.length_nil,
    List.getElem?_cons_zero, List.getElem?_cons_succ, beq_self_eq_true, Bool.and_true,
    Option.some_beq_some, hmode]

theorem isExclusiveFlock_other {line : Text} (h : isOtherLine line = true) :
    isExclusiveFlock line = false := by
  unfold isOtherLine at h
  rw [Bool.and_eq_true, Bool.or_eq_true] at h
  unfold isExclusiveFlock
  rcases h.2 with hfirst | hkind
  · rw [Bool.not_eq_true'] at hfirst
    rw [hfirst, Bool.false_and]
  · have hne : ((splitFields line)[2]? == some (text "FLOCK")) = false := by
      rw [bne, Bool.not_eq_true'] at hkind
      exact hkind
    simp only [hne, Bool.and_false, Bool.false_and]

/-- The lines of a text whose lines end in line feeds. -/
theorem splitOn_lines {lines : List Text} (h : ∀ line ∈ lines, unit '\n' ∉ line) :
    (lines.flatMap fun line => line ++ [unit '\n']).splitOn (unit '\n') = lines ++ [[]] := by
  induction lines with
  | nil => rfl
  | cons line lines ih =>
    have hline : ∀ c ∈ line, (c == unit '\n') = false := by
      intro c hc
      rw [beq_eq_false_iff_ne]
      rintro rfl
      exact h line List.mem_cons_self hc
    rw [List.flatMap_cons, List.append_assoc, List.singleton_append,
      List.splitOn_append_cons_of_forall_mem_beq_eq_false hline _ (beq_self_eq_true _),
      ih fun l hl => h l (List.mem_cons_of_mem _ hl)]
    rfl

theorem lines_feed (h : e.Valid) (lock : Option LockMode) : ∀ line ∈ e.lines lock, unit '\n' ∉ line := by
  have hother (line : Text) (hl : isOtherLine line = true) : unit '\n' ∉ line := by
    unfold isOtherLine at hl
    rw [Bool.and_eq_true, Bool.not_eq_true'] at hl
    simpa using hl.1
  intro line hline
  rcases List.mem_append.mp hline with hline | hline
  · rcases List.mem_append.mp hline with hline | hline
    · exact hother line (List.all_eq_true.mp h.1 line hline)
    · obtain ⟨mode, _, rfl⟩ := Option.map_eq_some_iff.mp (Option.mem_toList.mp hline)
      have hdecimal (n : ℕ) : unit '\n' ∉ Json.decimal n := by
        intro hn
        have hdigit := Json.decimal_isDigit hn
        revert hdigit
        decide
      have hdevice : unit '\n' ∉ e.device := by
        intro hd
        have hboth := List.all_eq_true.mp h.2.2.2 _ hd
        revert hboth
        decide
      have hname : unit '\n' ∉ modeName mode := by cases mode <;> decide
      have hfixed : unit '\n' ∉ text "lock:\t" ∧ unit '\n' ∉ text ": FLOCK  ADVISORY  " ∧
          unit '\n' ∉ text " " ∧ unit '\n' ∉ text " 0 EOF" := by decide
      unfold KernelEntry.lockLine
      simp only [List.mem_append, not_or]
      exact ⟨⟨⟨⟨⟨⟨⟨⟨hfixed.1, hdecimal _⟩, hfixed.2.1⟩, hname⟩, hfixed.2.2.1⟩, hdecimal _⟩,
        hfixed.2.2.1⟩, hdevice⟩, hfixed.2.2.2⟩
  · exact hother line (List.all_eq_true.mp h.2.1 line hline)

/-- The check of the text decides whether the description is locked exclusively, whatever
other lines the kernel writes. -/
theorem hasExclusiveFlock_render (h : e.Valid) (lock : Option LockMode) :
    hasExclusiveFlock (e.render lock) = decide (lock = some .exclusive) := by
  have hother (lines : List Text) (hl : lines.all isOtherLine = true) :
      lines.any isExclusiveFlock = false := by
    apply List.any_eq_false.mpr
    intro line hline
    rw [isExclusiveFlock_other (List.all_eq_true.mp hl line hline)]
    exact Bool.false_ne_true
  unfold hasExclusiveFlock KernelEntry.render
  rw [splitOn_lines (lines_feed h lock)]
  unfold KernelEntry.lines
  rw [List.any_append, List.any_append, List.any_append, hother _ h.1, hother _ h.2.1]
  cases lock with
  | none => rfl
  | some mode =>
    simp only [Option.map_some, Option.toList_some, List.any_cons, List.any_nil, Bool.or_false,
      Bool.false_or, isExclusiveFlock_lockLine h, Option.some.injEq]
    have hempty : isExclusiveFlock [] = false := by decide
    rw [hempty, Bool.or_false]

end Lines

/-- Of any entry that the kernel writes, the check sees an exclusive lock exactly where the
description has one. -/
theorem exclusive_entry_iff {e : KernelEntry} (h : e.Valid) (lock : Option LockMode) :
    hasExclusiveFlock (e.render lock) = true ↔ lock = some .exclusive := by
  rw [hasExclusiveFlock_render h, decide_eq_true_eq]

theorem exclusive_entry_sample :
    hasExclusiveFlock (KernelEntry.render ⟨[text "pos:\t0"], 1, 42, text "08:01:7", []⟩
      (some .exclusive)) = true ↔ some LockMode.exclusive = some .exclusive :=
  exclusive_entry_iff (by decide) (some .exclusive)

end Quicknet.Service
