import RtpMux.Calendar
import RtpMux.Tools.PerfArchive

/-!
# Dates of days (`tools/mandate_check/mod.rs`, `bin/perf-history.rs`)

Both tools carry a copy of `civil_from_days`, which counts years from March on in eras of 400 years.
The two are checked here against the calendar: every `i64` operation is one that may overflow, and
none does for a day count that a clock can show. What `now_stamp` takes of it is in the module of
the archive, without the checks.
-/

namespace RtpMux

open Calendar
open PerfHistory (eraDay eraDay_spec marchMonth marchMonth_le)

/-! ## The two copies -/

/-- The result of an `i64` operation, `none` where it overflows. -/
def i64 (value : Int) : Option Int := if -2 ^ 63 ≤ value ∧ value < 2 ^ 63 then some value else none

/-- `as u32`. -/
def asU32 (value : Int) : Nat := (value % 2 ^ 32).toNat

/-- The body of both copies: year, month and day. -/
def CivilDates.civilFromDays (days : Int) : Option (Int × Nat × Nat) := do
  let z ← i64 (days + 719468)
  let era ← i64 ((← (if 0 ≤ z then some z else i64 (z - 146096))).tdiv 146097)
  let doe ← i64 (z - (← i64 (era * 146097)))
  let yoe ← i64
      ((← i64 ((← i64 ((← i64 (doe - (← i64 (doe.tdiv 1460)))) + (← i64 (doe.tdiv 36524)))) -
    (← i64 (doe.tdiv 146096)))).tdiv 365)
  let year ← i64 (yoe + (← i64 (era * 400)))
  let doy ← i64 (doe -
    (← i64 ((← i64 ((← i64 (365 * yoe)) + (← i64 (yoe.tdiv 4)))) - (← i64 (yoe.tdiv 100)))))
  let mp ← i64 ((← i64 ((← i64 (5 * doy)) + 2)).tdiv 153)
  let day := asU32 (← i64 ((← i64 (doy - (← i64 ((← i64 ((← i64 (153 * mp)) + 2)).tdiv 5)))) + 1))
  let month := asU32 (← (if mp < 10 then i64 (mp + 3) else i64 (mp - 9)))
  some (← (if month ≤ 2 then i64 (year + 1) else some year), month, day)

/-- `mandate_check::civil_from_days`. -/
def MandateCheck.civilFromDays (days : Int) : Option (Int × Nat × Nat) :=
  CivilDates.civilFromDays days

/-- `civil_from_days` of `bin/perf-history.rs`, with its overflows. `PerfHistory.civilFromDays` is
the same function on integers without a width, as `now_stamp` uses it. -/
def PerfHistory.civilFromDaysI64 (days : Int) : Option (Int × Nat × Nat) :=
  CivilDates.civilFromDays days

namespace CivilDates

/-- The two copies of the function are one. -/
theorem copies_eq : PerfHistory.civilFromDaysI64 = MandateCheck.civilFromDays := rfl

/-! ## Running it -/

/-- A value of this size does not overflow. -/
theorem i64_eq {value : Int} (h : -2 ^ 62 ≤ value) (h' : value ≤ 2 ^ 62) :
    i64 value = some value := by
  rw [i64, if_pos]
  omega

theorem asU32_natCast {value : Nat} (h : value < 2 ^ 32) : asU32 value = value := by
  rw [asU32]
  omega

/-- An operation whose result is known and small goes on with it. -/
theorem bind_i64 {β : Type} {v w : Int} {f : Int → Option β} {b : Option β} (hv : v = w)
    (h : -2 ^ 62 ≤ w ∧ w ≤ 2 ^ 62) (hrest : f w = b) : (i64 v >>= f) = b := by
  rw [hv, i64_eq h.1 h.2]
  exact hrest

/-- Both branches of a choice are checked alike. -/
theorem bind_eq {β : Type} {m : Option Int} {w : Int} {f : Int → Option β} {b : Option β}
    (hm : m = some w)
    (hrest : f w = b) : (m >>= f) = b := by
  rw [hm]
  exact hrest

/-- The source's division rounds down, by the correction of its numerator. -/
theorem tdiv_eq_era {z era : Int} {doe : Nat} (h : z = era * 146097 + doe) (hdoe : doe ≤ 146096) :
    (if 0 ≤ z then z else z - 146096).tdiv 146097 = era := by
  split
  · rw [Int.tdiv_eq_ediv_of_nonneg (by omega)]
    omega
  · rw [show z - 146096 = -(146096 - z) by omega, Int.neg_tdiv,
      Int.tdiv_eq_ediv_of_nonneg (by omega)]
    omega

theorem tdiv_natCast (n d : Nat) : (n : Int).tdiv d = (n / d : Nat) := by
  rw [Int.tdiv_eq_ediv_of_nonneg (Int.natCast_nonneg n)]
  rfl

/-- The calendar turns in January. -/
def marchDate (year : Int) (month day : Nat) : Int × Nat × Nat :=
  if month < 10 then (year, month + 3, day) else (year + 1, month - 9, day)

/-- The date of a day that is given by its era and its day of the era. -/
theorem civilFromDays_era {days era : Int} {doe : Nat} (h : days + 719468 = era * 146097 + doe)
    (hdoe : doe ≤ 146096) (hera : -10 ^ 11 ≤ era) (hera' : era ≤ 10 ^ 11) :
    MandateCheck.civilFromDays days =
      some (marchDate ((eraDay doe).yearOfEra + era * 400) (marchMonth (eraDay doe).day)
      ((eraDay doe).day - (153 * marchMonth (eraDay doe).day + 2) / 5 + 1)) := by
  obtain ⟨hyear, hday, hyears, hmost⟩ := eraDay_spec hdoe
  have hmonth := marchMonth_le hmost
  have hfirst := PerfHistory.first_of_marchMonth_le (eraDay doe).day
  have hmp : (5 * (eraDay doe).day + 2) / 153 = marchMonth (eraDay doe).day := rfl
  generalize (eraDay doe).yearOfEra = yoe at *
  generalize (eraDay doe).day = doy at *
  generalize marchMonth doy = mp at *
  generalize hz : era * 146097 + (doe : Int) = z at *
  -- all intermediate values fit, so the checked operations do not fail
  have hbound : -10 ^ 17 ≤ z ∧ z ≤ 10 ^ 17 := by omega
  have hmul : era * 146097 = z - doe := by omega
  have hshift : (if 0 ≤ z then some z else i64 (z - 146096)) =
      some (if 0 ≤ z then z else z - 146096) := by
    split
    · rfl
    · exact i64_eq (by omega) (by omega)
  unfold MandateCheck.civilFromDays civilFromDays
  refine bind_i64 h ⟨by omega, by omega⟩ ?_
  refine bind_eq hshift ?_
  refine bind_i64 (tdiv_eq_era hz.symm hdoe) ⟨by omega, by omega⟩ ?_
  refine bind_i64 hmul ⟨by omega, by omega⟩ ?_
  refine bind_i64 (w := doe) (by omega) ⟨by omega, by omega⟩ ?_
  refine bind_i64 (tdiv_natCast doe 1460) ⟨by omega, by omega⟩ ?_
  refine bind_i64 (w := (doe - doe / 1460 : Nat)) (by omega) ⟨by omega, by omega⟩ ?_
  refine bind_i64 (tdiv_natCast doe 36524) ⟨by omega, by omega⟩ ?_
  refine bind_i64 (w := (doe - doe / 1460 + doe / 36524 : Nat)) (by omega) ⟨by omega, by omega⟩ ?_
  refine bind_i64 (tdiv_natCast doe 146096) ⟨by omega, by omega⟩ ?_
  refine bind_i64 (w := (doe - doe / 1460 + doe / 36524 - doe / 146096 : Nat)) (by omega)
    ⟨by omega, by omega⟩ ?_
  refine bind_i64 ((tdiv_natCast _ 365).trans (congrArg Nat.cast hyear)) ⟨by omega, by omega⟩ ?_
  refine bind_i64 rfl ⟨by omega, by omega⟩ ?_
  refine bind_i64 rfl ⟨by omega, by omega⟩ ?_
  refine bind_i64 rfl ⟨by omega, by omega⟩ ?_
  refine bind_i64 (tdiv_natCast yoe 4) ⟨by omega, by omega⟩ ?_
  refine bind_i64 rfl ⟨by omega, by omega⟩ ?_
  refine bind_i64 (tdiv_natCast yoe 100) ⟨by omega, by omega⟩ ?_
  refine bind_i64 rfl ⟨by omega, by omega⟩ ?_
  refine bind_i64 (w := doy) (by omega) ⟨by omega, by omega⟩ ?_
  refine bind_i64 rfl ⟨by omega, by omega⟩ ?_
  refine bind_i64 (w := (5 * doy + 2 : Nat)) (by omega) ⟨by omega, by omega⟩ ?_
  refine bind_i64 ((tdiv_natCast _ 153).trans (congrArg Nat.cast hmp)) ⟨by omega, by omega⟩ ?_
  refine bind_i64 rfl ⟨by omega, by omega⟩ ?_
  refine bind_i64 (w := (153 * mp + 2 : Nat)) (by omega) ⟨by omega, by omega⟩ ?_
  refine bind_i64 (tdiv_natCast _ 5) ⟨by omega, by omega⟩ ?_
  refine bind_i64 rfl ⟨by omega, by omega⟩ ?_
  refine bind_i64 (w := (doy - (153 * mp + 2) / 5 + 1 : Nat)) (by omega) ⟨by omega, by omega⟩ ?_
  rw [asU32_natCast (by omega), marchDate]
  by_cases hspring : mp < 10
  · refine bind_eq (w := (mp + 3 : Nat)) ?_ ?_
    · rw [if_pos (by omega)]
      exact i64_eq (by omega) (by omega)
    · rw [asU32_natCast (by omega), if_pos hspring]
      dsimp only
      rw [if_neg (by omega)]
      rfl
  · refine bind_eq (w := (mp - 9 : Nat)) ?_ ?_
    · have hcast : ((mp - 9 : Nat) : Int) = mp - 9 := by omega
      rw [if_neg (by omega), hcast]
      exact i64_eq (by omega) (by omega)
    · rw [asU32_natCast (by omega), if_neg hspring]
      dsimp only
      rw [if_pos (by omega)]
      exact bind_i64 rfl ⟨by omega, by omega⟩ rfl

/-! ## The calendar from March on -/

/-- The year behind one of 366 days, from March to February, is a leap year. -/
theorem isLeap_of_last_day {doe : Nat} (h : doe ≤ 146096) (hlast : (eraDay doe).day = 365)
    (era : Int) :
    IsLeap ((eraDay doe).yearOfEra + era * 400 + 1) := by
  have hnat : ((eraDay doe).yearOfEra + 1) % 4 = 0 ∧
      (((eraDay doe).yearOfEra + 1) % 100 ≠ 0 ∨ ((eraDay doe).yearOfEra + 1) % 400 = 0) := by
    simp only [PerfHistory.EraDay.yearOfEra, eraDay] at hlast ⊢
    omega
  unfold IsLeap
  omega

/-- The days before a month, from the first of March on. -/
theorem daysBeforeMonth_add_three (year : Int) {month : Nat} (h : month ≤ 9) :
    daysBeforeMonth year (month + 3) = (153 * month + 2) / 5 + if IsLeap year then 60 else 59 := by
  by_cases hleap : IsLeap year
  · interval_cases month <;> simp [daysBeforeMonth, daysInMonth, List.range', hleap]
  · interval_cases month <;> simp [daysBeforeMonth, daysInMonth, List.range', hleap]

/-- The days of a month, counted from March, are the steps of the line (153 m + 2) / 5. -/
theorem daysInMonth_add_three (year : Int) {month : Nat} (h : month ≤ 9) :
    daysInMonth year (month + 3) = (153 * (month + 1) + 2) / 5 - (153 * month + 2) / 5 := by
  interval_cases month <;> simp [daysInMonth]

theorem lt_next_marchMonth (doy : Nat) : doy < (153 * (marchMonth doy + 1) + 2) / 5 := by
  rw [marchMonth]
  omega

/-- The date of a day of a year that begins in March. -/
theorem exists_marchDate {year : Int} {doy : Nat} (hdoy : doy ≤ 365)
    (hleap : doy = 365 → IsLeap (year + 1)) :
    ∃ date : Date, (date.year, date.month, date.day) =
        marchDate year (marchMonth doy) (doy - (153 * marchMonth doy + 2) / 5 + 1) ∧
      date.dayNumber = 365 * year + year / 4 - year / 100 + year / 400 + doy - 719468 := by
  have hmonth := marchMonth_le hdoy
  have hfirst := PerfHistory.first_of_marchMonth_le doy
  have hnext := lt_next_marchMonth doy
  have hyear : daysBeforeYear (year + 1) = 365 * year + year / 4 - year / 100 + year / 400 := by
    rw [daysBeforeYear]
    omega
  have hsucc := daysBeforeYear_succ year
  generalize marchMonth doy = month at *
  by_cases hspring : month ≤ 9
  · have hdays := daysInMonth_add_three year hspring
    have hbefore := daysBeforeMonth_add_three year hspring
    refine ⟨⟨year, month + 3,
      doy - (153 * month + 2) / 5 + 1, by omega, by omega, by omega, by omega⟩, ?_, ?_⟩
    · rw [marchDate, if_pos (by omega)]
    · simp only [Date.dayNumber]
      split_ifs at hsucc hbefore <;> omega
  · -- January and February belong to the next year
    obtain rfl | rfl : month = 10 ∨ month = 11 := by omega
    · refine ⟨⟨year + 1, 1, doy - 306 + 1, by omega, by omega, by omega, ?_⟩, rfl, ?_⟩
      · rw [show daysInMonth (year + 1) 1 = 31 from rfl]
        omega
      · simp only [Date.dayNumber, hyear, daysBeforeMonth_one]
        omega
    · refine ⟨⟨year + 1, 2, doy - 337 + 1, by omega, by omega, by omega, ?_⟩, rfl, ?_⟩
      · by_cases hlast : doy = 365
        · simp only [daysInMonth, hleap hlast, if_true]
          omega
        · simp only [daysInMonth, if_true]
          split <;> omega
      · simp only [Date.dayNumber, hyear, show daysBeforeMonth (year + 1) 2 = 31 from rfl]
        omega

/-! ## Days and dates -/

/-- Every day has a date, and the date counts to the day. -/
theorem exists_date {days : Int} (h : days.natAbs ≤ 10 ^ 15 + 1) :
    ∃ date : Date, MandateCheck.civilFromDays days = some (date.year, date.month, date.day) ∧
      date.dayNumber = days := by
  obtain ⟨era, doe, hera, hdoe⟩ :
      ∃ (era : Int) (doe : Nat), days + 719468 = era * 146097 + doe ∧ doe ≤ 146096 :=
    ⟨(days + 719468) / 146097, ((days + 719468) % 146097).toNat, by omega, by omega⟩
  obtain ⟨-, hday, hyears, hmost⟩ := eraDay_spec hdoe
  obtain ⟨date, hdate, hnumber⟩ := @exists_marchDate ((eraDay doe).yearOfEra + era * 400) _ hmost
    fun hlast => isLeap_of_last_day hdoe hlast era
  refine ⟨date, ?_, ?_⟩
  · rw [civilFromDays_era hera hdoe (by omega) (by omega), hdate]
  · have hfours : ((eraDay doe).yearOfEra + era * 400) / 4 = ((eraDay doe).yearOfEra / 4 : Nat) +
        era * 100 := by omega
    have hhundreds : ((eraDay doe).yearOfEra + era * 400) / 100 =
        ((eraDay doe).yearOfEra / 100 : Nat) + era * 4 := by
      omega
    have heras : ((eraDay doe).yearOfEra + era * 400) / 400 = era := by omega
    rw [hnumber, hfours, hhundreds, heras]
    omega

/-- **Calendar conversion.** Both copies find the date of a day: the only one that many days after
the first of January 1970, and the day after it for the next day. -/
theorem civilFromDays_counts (days : Int) (h : days.natAbs ≤ 10 ^ 15) :
    ∃ date : Date, MandateCheck.civilFromDays days = some (date.year, date.month, date.day) ∧
      PerfHistory.civilFromDaysI64 days = some (date.year, date.month, date.day) ∧
      date = (tomorrow ^ days) epoch ∧ (∀ other : Date, other.dayNumber = days ↔ other = date) ∧
      MandateCheck.civilFromDays (days + 1) =
        some (date.next.year, date.next.month, date.next.day) ∧
      PerfHistory.civilFromDaysI64 (days + 1) =
        some (date.next.year, date.next.month, date.next.day) := by
  obtain ⟨date, hdate, hnumber⟩ := exists_date (h.trans (Nat.le_succ _))
  obtain ⟨after, hafter, hafterNumber⟩ := @exists_date (days + 1) (by omega)
  have hnext : after = date.next :=
    dayNumber_injective (by rw [hafterNumber, dayNumber_next, hnumber])
  rw [hnext] at hafter
  refine ⟨date, hdate, hdate, dayNumber_eq_iff.mp hnumber, fun other => ?_, hafter, hafter⟩
  rw [← hnumber]
  exact dayNumber_injective.eq_iff

/-- The day before the epoch is the last of December 1969, and the epoch is the day after it. -/
theorem civilFromDays_counts_eve : (-1 : Int).natAbs ≤ 10 ^ 15 ∧
    ∃ date : Date, (date.year, date.month, date.day) = (1969, 12, 31) ∧
      date = (tomorrow ^ (-1 : Int)) epoch ∧
      date.next = epoch ∧ ∀ other : Date, other.dayNumber = -1 ↔ other = date := by
  obtain ⟨date, hdate, -, hcount, hunique, -, -⟩ := civilFromDays_counts (-1) (by decide)
  refine ⟨by decide, date, Option.some.inj (hdate.symm.trans (by decide +kernel)), hcount, ?_,
    hunique⟩
  rw [hcount]
  exact next_prev epoch

/-- From the epoch on, the dates of the archive's stamps are these. -/
theorem civilFromDaysI64_natCast {days : Nat} (h : days ≤ 10 ^ 15) :
    PerfHistory.civilFromDaysI64 days = some (PerfHistory.civilFromDays days) := by
  obtain ⟨era, doe, hera, hdoe⟩ := PerfHistory.exists_era days
  have hcast : (days : Int) + 719468 = (era : Int) * 146097 + doe := by omega
  rw [copies_eq, civilFromDays_era hcast hdoe (by omega) (by omega),
    PerfHistory.civilFromDays_eq hera hdoe]
  simp [marchDate, PerfHistory.civil]

end CivilDates

end RtpMux
