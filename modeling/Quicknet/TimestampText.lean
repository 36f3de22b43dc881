import Quicknet.JournalText

/-! The string that `toISOString` writes for a time value is one that is read back. -/
namespace Quicknet

open Json (Text text unit)

section Calendar

/-- The years of an era start no later than the day that falls in them. -/
theorem yearOfEra_start {d y : ℤ} (h0 : 0 ≤ d) (h1 : d ≤ 146096)
    (hy : y = (d - d/1460 + d/36524 - d/146096)/365) : 365*y + y/4 - y/100 ≤ d := by
  have hleap : y/4 ≤ d/1460 := by omega
  -- by the centuries before the day
  obtain he | he | he | he | he : d/36524 = 0 ∨ d/36524 = 1 ∨ d/36524 = 2 ∨ d/36524 = 3 ∨
      d/36524 = 4 := by omega
  all_goals omega

/-- The day of an era, taken apart: what is left after the years is a day of a year. -/
theorem yearOfEra_bounds {d y : ℤ} (h0 : 0 ≤ d) (h1 : d ≤ 146096)
    (hy : y = (d - d/1460 + d/36524 - d/146096)/365) :
    0 ≤ y ∧ y ≤ 399 ∧ 0 ≤ d - (365*y + y/4 - y/100) ∧ d - (365*y + y/4 - y/100) ≤ 366 := by
  have hstart := yearOfEra_start h0 h1 hy
  refine ⟨by omega, by omega, by omega, by omega⟩

variable (days : ℤ)

/-- A date by the year of its era and the day of that year, which both start in March. -/
theorem civilFromDays_eq : ∃ era yearOfEra dayOfYear m : ℤ,
    days = era*146097 + (365*yearOfEra + yearOfEra/4 - yearOfEra/100 + dayOfYear) - 719468 ∧
    (0 ≤ yearOfEra ∧ yearOfEra ≤ 399) ∧ (0 ≤ dayOfYear ∧ dayOfYear ≤ 366) ∧
    m = (5*dayOfYear + 2)/153 ∧
    civilFromDays days =
      (if (if m < 10 then m + 3 else m - 9) ≤ 2 then yearOfEra + era*400 + 1
        else yearOfEra + era*400,
        if m < 10 then m + 3 else m - 9, dayOfYear - (153*m + 2)/5 + 1) := by
  have hera : 0 ≤ (days + 719468) % 146097 ∧ (days + 719468) % 146097 ≤ 146096 := by omega
  obtain ⟨hy0, hy1, hlow, hhigh⟩ := yearOfEra_bounds hera.1 hera.2 rfl
  refine ⟨(days + 719468)/146097, _, _, _, ?_, ⟨hy0, hy1⟩, ⟨hlow, hhigh⟩, rfl, rfl⟩
  omega

theorem civilFromDays_bounds :
    1 ≤ (civilFromDays days).2.1 ∧ (civilFromDays days).2.1 ≤ 12 ∧
      1 ≤ (civilFromDays days).2.2 ∧ (civilFromDays days).2.2 ≤ 32 := by
  obtain ⟨era, y, d, m, _, _, hd, hm, hcivil⟩ := civilFromDays_eq days
  rw [hcivil]
  dsimp only
  refine ⟨?_, ?_, by omega, by omega⟩
  · split_ifs <;> omega
  · split_ifs <;> omega

theorem daysFromCivil_civilFromDays :
    daysFromCivil (civilFromDays days).1 (civilFromDays days).2.1 (civilFromDays days).2.2 = days := by
  obtain ⟨era, y, d, m, hdays, hy, hd, hm, hcivil⟩ := civilFromDays_eq days
  rw [hcivil, daysFromCivil]
  dsimp only
  by_cases hten : m < 10
  · have hlarge : ¬ m + 3 ≤ 2 := by omega
    have hshift : 2 < m + 3 := by omega
    simp only [if_pos hten, if_neg hlarge, if_pos hshift]
    omega
  · have hsmall : m - 9 ≤ 2 := by omega
    have hshift : ¬ 2 < m - 9 := by omega
    simp only [if_neg hten, if_pos hsmall, if_neg hshift]
    omega

theorem civilFromDays_year (h : |days| ≤ 100000000) : |(civilFromDays days).1| ≤ 999999 := by
  obtain ⟨era, y, d, m, hdays, hy, hd, _, hcivil⟩ := civilFromDays_eq days
  rw [abs_le] at h ⊢
  rw [hcivil]
  dsimp only
  split_ifs <;> omega

end Calendar

section Reading

theorem padded_length {width n : ℕ} (hw : 0 < width) (h : n < 10^width) :
    (padded width n).length = width := by
  have hle : (Json.decimal n).length ≤ width := Json.decimal_length_le hw h
  unfold padded
  rw [List.length_append, List.length_replicate]
  omega

theorem padded_isDigit {width n : ℕ} {c : UInt16} (hc : c ∈ padded width n) :
    Json.isDigit c = true := by
  rcases List.mem_append.mp hc with hc | hc
  · rw [(List.mem_replicate.mp hc).2]
    exact Json.isDigit_digit (by norm_num)
  · exact Json.decimal_isDigit hc

theorem decimalValue_padded (width n : ℕ) : Json.decimalValue (padded width n) = n := by
  have hzero : Json.digitValue (Json.digit 0) = 0 := Json.digitValue_digit (by norm_num)
  calc Json.decimalValue (padded width n) =
        Nat.ofDigits 10 (((Json.decimal n).reverse.map Json.digitValue) ++
          List.replicate (width - (Json.decimal n).length) 0) := by
          unfold Json.decimalValue padded
          rw [List.reverse_append, List.reverse_replicate, List.map_append, List.map_replicate,
            hzero]
    _ = Json.decimalValue (Json.decimal n) := by
          rw [Nat.ofDigits_append, Nat.ofDigits_replicate_zero, mul_zero, add_zero]
          rfl
    _ = n := Json.decimalValue_decimal n

theorem readDigits_padded {width n : ℕ} (hw : 0 < width) (h : n < 10^width) (rest : Text) :
    readDigits width (padded width n ++ rest) = some ((n : ℤ), rest) := by
  have hlength := padded_length hw h
  have htake : (padded width n ++ rest).take width = padded width n :=
    List.take_left' hlength
  have hdrop : (padded width n ++ rest).drop width = rest := List.drop_left' hlength
  have hdigits : (padded width n).all Json.isDigit = true :=
    List.all_eq_true.mpr fun c hc => padded_isDigit hc
  unfold readDigits
  rw [htake, hdrop, decimalValue_padded, if_pos]
  refine ⟨?_, hdigits⟩
  rw [List.length_append, hlength]
  omega

/-- The units that come before a group of digits. -/
theorem readDigits_after {c : Char} {width n : ℕ} (hw : 0 < width) (h : n < 10^width)
    (rest : Text) :
    (Json.afterWord [unit c] (unit c :: padded width n ++ rest)).bind (readDigits width) =
      some ((n : ℤ), rest) := by
  have hafter : Json.afterWord [unit c] ([unit c] ++ (padded width n ++ rest)) =
      some (padded width n ++ rest) := Json.afterWord_append [unit c] _
  rw [List.cons_append]
  rw [List.singleton_append] at hafter
  rw [hafter, Option.bind_some, readDigits_padded hw h]

theorem readYear_yearText {year : ℤ} (h : |year| ≤ 999999) (rest : Text) :
    readYear (yearText year ++ rest) = some (year, rest) := by
  rw [abs_le] at h
  -- four digits without a sign, or six with one
  by_cases hfour : 0 ≤ year ∧ year ≤ 9999
  · have hsmall : year.toNat < 10^4 := by omega
    obtain ⟨c, ds, hc⟩ := List.exists_cons_of_length_pos
      (show 0 < (padded 4 year.toNat).length by rw [padded_length (by norm_num) hsmall]; norm_num)
    have hdigit : Json.isDigit c = true := padded_isDigit (by rw [hc]; simp)
    have hplus : unit '+' ≠ c := by
      rintro rfl
      revert hdigit
      decide
    have hminus : unit '-' ≠ c := by
      rintro rfl
      revert hdigit
      decide
    unfold readYear yearText
    rw [if_pos hfour]
    have hnoPlus : Json.afterWord (text "+") (padded 4 year.toNat ++ rest) = none := by
      rw [hc, List.cons_append]
      exact Json.afterWord_of_head hplus
    have hnoMinus : Json.afterWord (text "-") (padded 4 year.toNat ++ rest) = none := by
      rw [hc, List.cons_append]
      exact Json.afterWord_of_head hminus
    rw [hnoPlus, hnoMinus, readDigits_padded (by norm_num) hsmall, Int.toNat_of_nonneg hfour.1]
  · have hsix : year.natAbs < 10^6 := by omega
    unfold readYear yearText
    rw [if_neg hfour]
    by_cases hneg : year < 0
    · have hnoPlus : Json.afterWord (text "+") (unit '-' :: padded 6 year.natAbs ++ rest) = none :=
        Json.afterWord_of_head (by decide)
      have hminus : Json.afterWord (text "-") (unit '-' :: padded 6 year.natAbs ++ rest) =
          some (padded 6 year.natAbs ++ rest) := Json.afterWord_append (text "-") _
      have hvalue : -(year.natAbs : ℤ) = year := by omega
      rw [if_pos hneg, hnoPlus, hminus]
      simp only [readDigits_padded (show 0 < 6 by norm_num) hsix, Option.map_some, hvalue]
    · have hplus : Json.afterWord (text "+") (unit '+' :: padded 6 year.natAbs ++ rest) =
          some (padded 6 year.natAbs ++ rest) := Json.afterWord_append (text "+") _
      have hvalue : (year.natAbs : ℤ) = year := by omega
      rw [if_neg hneg, hplus]
      simp only [readDigits_padded (show 0 < 6 by norm_num) hsix, hvalue]

theorem dateParse_toISOString {time : ℤ} (h : |time| ≤ MAX_TIME_VALUE) :
    dateParse (toISOString time) = some time := by
  have habs := abs_le.mp h
  have hdays : |time / MILLISECONDS_PER_DAY| ≤ 100000000 := by
    unfold MILLISECONDS_PER_DAY MAX_TIME_VALUE at *
    rw [abs_le]
    omega
  obtain ⟨hm0, hm1, hd0, hd1⟩ := civilFromDays_bounds (time / MILLISECONDS_PER_DAY)
  have hyear := civilFromDays_year _ hdays
  have hback := daysFromCivil_civilFromDays (time / MILLISECONDS_PER_DAY)
  unfold toISOString
  generalize civilFromDays (time / MILLISECONDS_PER_DAY) = date at *
  obtain ⟨year, month, day⟩ := date
  dsimp only at *
  have hms : (time % MILLISECONDS_PER_DAY).toNat < 86400000 := by
    unfold MILLISECONDS_PER_DAY
    omega
  have htime : time / MILLISECONDS_PER_DAY * MILLISECONDS_PER_DAY +
      ((time % MILLISECONDS_PER_DAY).toNat : ℤ) = time := by
    unfold MILLISECONDS_PER_DAY
    omega
  generalize (time % MILLISECONDS_PER_DAY).toNat = ms at hms htime ⊢
  have hdash : text "-" = [unit '-'] := rfl
  have htee : text "T" = [unit 'T'] := rfl
  have hcolon : text ":" = [unit ':'] := rfl
  have hpoint : text "." = [unit '.'] := rfl
  have hzed : text "Z" = [unit 'Z'] := rfl
  have hmonth : month.toNat < 10^2 := by omega
  have hday : day.toNat < 10^2 := by omega
  have hhour : ms/3600000 < 10^2 := by omega
  have hminute : ms/60000 % 60 < 10^2 := by omega
  have hsecond : ms/1000 % 60 < 10^2 := by omega
  have hmilli : ms % 1000 < 10^3 := by omega
  -- the parts of the day's milliseconds add up again
  have htotal : ((ms/3600000 : ℕ) : ℤ)*3600000 + ((ms/60000 % 60 : ℕ) : ℤ)*60000 +
      ((ms/1000 % 60 : ℕ) : ℤ)*1000 + ((ms % 1000 : ℕ) : ℤ) = ms := by omega
  unfold dateParse
  simp only [List.append_assoc, readYear_yearText hyear, Option.bind_eq_bind, Option.bind_some,
    hdash, htee, hcolon, hpoint, readDigits_after (show 0 < 2 by norm_num) hmonth,
    readDigits_after (show 0 < 2 by norm_num) hday, readDigits_after (show 0 < 2 by norm_num) hhour,
    readDigits_after (show 0 < 2 by norm_num) hminute,
    readDigits_after (show 0 < 2 by norm_num) hsecond,
    readDigits_after (show 0 < 3 by norm_num) hmilli, Int.toNat_of_nonneg (show 0 ≤ month by omega),
    Int.toNat_of_nonneg (show 0 ≤ day by omega), hback]
  have hsum : time / MILLISECONDS_PER_DAY * MILLISECONDS_PER_DAY + ((ms/3600000 : ℕ) : ℤ)*3600000 +
      ((ms/60000 % 60 : ℕ) : ℤ)*60000 + ((ms/1000 % 60 : ℕ) : ℤ)*1000 + ((ms % 1000 : ℕ) : ℤ) =
        time := by
    linarith
  rw [hsum, if_pos ⟨hzed.symm, h⟩]

theorem readTimestamp_toISOString {time : ℤ} (h : |time| ≤ MAX_TIME_VALUE) :
    readTimestamp (toISOString time) = some time.toNat := by
  unfold readTimestamp
  rw [dateParse_toISOString h, Option.bind_some, if_pos rfl]

end Reading

end Quicknet
