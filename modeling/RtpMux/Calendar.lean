import Mathlib.Algebra.Group.End
import Mathlib.Tactic.IntervalCases

/-!
# The proleptic Gregorian calendar

A date is a year, a month and a day that the month has. The day after is a permutation of the dates,
so the dates are counted in both directions from any of them by its powers. `Date.dayNumber` is that
count from the first of January 1970 in closed form. Nothing here is about a particular program.
-/

namespace RtpMux.Calendar

/-! ## Dates -/

/-- A leap year of the Gregorian calendar. -/
def IsLeap (year : Int) : Prop := year % 4 = 0 ∧ (year % 100 ≠ 0 ∨ year % 400 = 0)

instance : DecidablePred IsLeap := fun year =>
  inferInstanceAs (Decidable (year % 4 = 0 ∧ (year % 100 ≠ 0 ∨ year % 400 = 0)))

/-- How many days a month has. -/
def daysInMonth (year : Int) (month : Nat) : Nat :=
  if month = 2 then if IsLeap year then 29 else 28
  else if month = 4 ∨ month = 6 ∨ month = 9 ∨ month = 11 then 30
  else 31

theorem daysInMonth_pos (year : Int) (month : Nat) : 1 ≤ daysInMonth year month := by
  unfold daysInMonth
  split_ifs <;> decide

/-- A date of the calendar. -/
@[ext] structure Date where
  year : Int
  month : Nat
  day : Nat
  month_pos : 1 ≤ month
  month_le : month ≤ 12
  day_pos : 1 ≤ day
  day_le : day ≤ daysInMonth year month

/-- The first of January 1970. -/
def epoch : Date := ⟨1970, 1, 1, by decide, by decide, by decide, by decide⟩

/-- The day after. -/
def Date.next (date : Date) : Date :=
  if h : date.day < daysInMonth date.year date.month then
    ⟨date.year, date.month, date.day + 1, date.month_pos, date.month_le, by omega, h⟩
  else if h' : date.month < 12 then
    ⟨date.year, date.month + 1, 1, by omega, h', le_rfl, daysInMonth_pos _ _⟩
  else ⟨date.year + 1, 1, 1, le_rfl, by decide, le_rfl, daysInMonth_pos _ _⟩

/-- The day before. -/
def Date.prev (date : Date) : Date :=
  if h : 1 < date.day then
    ⟨date.year, date.month, date.day - 1, date.month_pos,
      date.month_le, by omega, by have := date.day_le; omega⟩
  else if h' : 1 < date.month then
    ⟨date.year, date.month - 1,
      daysInMonth date.year (date.month - 1), by omega, by have := date.month_le; omega,
      daysInMonth_pos _ _, le_rfl⟩
  else ⟨date.year - 1, 12, daysInMonth (date.year - 1) 12, by decide, le_rfl,
    daysInMonth_pos _ _, le_rfl⟩

/-- The day before the next one. -/
theorem prev_next (date : Date) : date.next.prev = date := by
  obtain ⟨year, month, day, hmonth, hmonth', hday, hday'⟩ := date
  unfold Date.next
  dsimp only
  split_ifs with h h'
  · simp [Date.prev, show 1 < day + 1 by omega]
  · have hlast : day = daysInMonth year month := by omega
    simp [Date.prev, show 1 < month + 1 by omega, hlast]
  · obtain rfl : month = 12 := by omega
    have hlast : day = daysInMonth year 12 := by omega
    simp [Date.prev, hlast]

/-- The day after the one before. -/
theorem next_prev (date : Date) : date.prev.next = date := by
  obtain ⟨year, month, day, hmonth, hmonth', hday, hday'⟩ := date
  unfold Date.prev
  dsimp only
  split_ifs with h h'
  · have hlt : day - 1 < daysInMonth year month := by omega
    simp [Date.next, hlt, show day - 1 + 1 = day by omega]
  · have hfirst : day = 1 := by omega
    simp [Date.next, show month - 1 < 12 by omega, show month - 1 + 1 = month by omega, hfirst]
  · obtain rfl : month = 1 := by omega
    have hfirst : day = 1 := by omega
    simp [Date.next, hfirst]

/-- The day after, as a permutation: its powers count days. -/
def tomorrow : Equiv.Perm Date := ⟨Date.next, Date.prev, prev_next, next_prev⟩

/-! ## Counting days -/

/-- The days from the first of January of the year 1 to that of a year. -/
def daysBeforeYear (year : Int) : Int :=
  365 * (year - 1) + (year - 1) / 4 - (year - 1) / 100 + (year - 1) / 400

/-- The days of a year before a month. -/
def daysBeforeMonth (year : Int) (month : Nat) : Nat :=
  ((List.range' 1 (month - 1)).map (daysInMonth year)).sum

/-- The days from the first of January 1970 to a date, negative before it. -/
def Date.dayNumber (date : Date) : Int :=
  daysBeforeYear date.year + daysBeforeMonth date.year date.month + (date.day - 1) - 719162

theorem daysBeforeYear_succ (year : Int) :
    daysBeforeYear (year + 1) = daysBeforeYear year + if IsLeap year then 366 else 365 := by
  unfold daysBeforeYear IsLeap
  split_ifs with h <;> omega

theorem daysBeforeMonth_succ (year : Int) {month : Nat} (hmonth : 1 ≤ month) :
    daysBeforeMonth year (month + 1) = daysBeforeMonth year month + daysInMonth year month := by
  unfold daysBeforeMonth
  rw [show month + 1 - 1 = month - 1 + 1 by omega, List.range'_concat, List.map_append,
    List.sum_append,
    show 1 + 1 * (month - 1) = month by omega]
  simp

theorem daysBeforeMonth_one (year : Int) : daysBeforeMonth year 1 = 0 := rfl

theorem daysBeforeMonth_mono (year : Int) {month month' : Nat} (hmonth : 1 ≤ month)
    (h : month ≤ month') :
    daysBeforeMonth year month ≤ daysBeforeMonth year month' := by
  induction h with
  | refl => exact le_rfl
  | step h ih =>
    exact ih.trans (by rw [daysBeforeMonth_succ year (hmonth.trans h)]; exact Nat.le_add_right _ _)

/-- A year has as many days as its months. -/
theorem daysBeforeMonth_thirteen (year : Int) :
    daysBeforeMonth year 13 = if IsLeap year then 366 else 365 := by
  by_cases h : IsLeap year <;> simp [daysBeforeMonth, daysInMonth, List.range', h]

theorem dayNumber_epoch : epoch.dayNumber = 0 := by decide

/-- **One day later, one day more.** -/
theorem dayNumber_next (date : Date) : date.next.dayNumber = date.dayNumber + 1 := by
  obtain ⟨year, month, day, hmonth, hmonth', hday, hday'⟩ := date
  unfold Date.next
  dsimp only
  split_ifs with h h'
  · simp only [Date.dayNumber]
    omega
  · have hlast : day = daysInMonth year month := by omega
    simp only [Date.dayNumber, daysBeforeMonth_succ year hmonth, hlast]
    omega
  · obtain rfl : month = 12 := by omega
    have hlast : day = daysInMonth year 12 := by omega
    have hyear := daysBeforeMonth_thirteen year
    rw [daysBeforeMonth_succ year hmonth] at hyear
    simp only [Date.dayNumber, daysBeforeYear_succ, daysBeforeMonth_one, hlast]
    split_ifs at hyear ⊢ <;> omega

/-- The day number counts the days from the epoch, in both directions. -/
theorem dayNumber_tomorrow (n : Int) : ((tomorrow ^ n) epoch).dayNumber = n := by
  induction n with
  | zero => exact dayNumber_epoch
  | succ n ih =>
    have hnext : (tomorrow ^ ((n : Int) + 1)) epoch = ((tomorrow ^ (n : Int)) epoch).next := by
      rw [add_comm, zpow_add, zpow_one]
      rfl
    rw [hnext, dayNumber_next, ih]
  | pred n ih =>
    have hnext : (tomorrow ^ (-(n : Int))) epoch = ((tomorrow ^ (-(n : Int) - 1)) epoch).next := by
      conv_lhs => rw [show -(n : Int) = 1 + (-(n : Int) - 1) by omega, zpow_add, zpow_one]
      rfl
    have hcount := dayNumber_next ((tomorrow ^ (-(n : Int) - 1)) epoch)
    rw [← hnext, ih] at hcount
    omega

/-! ## A day has one date -/

/-- The days of a year are between its first and the first of the next. -/
theorem dayNumber_bounds (date : Date) :
    daysBeforeYear date.year ≤ date.dayNumber + 719162 ∧
      date.dayNumber + 719162 < daysBeforeYear (date.year + 1) := by
  obtain ⟨year, month, day, hmonth, hmonth', hday, hday'⟩ := date
  have hsucc := daysBeforeMonth_succ year hmonth
  have hmost := daysBeforeMonth_mono year (show 1 ≤ month + 1 by omega)
      (show month + 1 ≤ 13 by omega)
  rw [daysBeforeMonth_thirteen] at hmost
  rw [daysBeforeYear_succ]
  simp only [Date.dayNumber]
  split_ifs at hmost ⊢
  · exact ⟨by omega, by omega⟩
  · exact ⟨by omega, by omega⟩

theorem daysBeforeYear_le {year year' : Int} (h : year < year') :
    daysBeforeYear (year + 1) ≤ daysBeforeYear year' := by
  unfold daysBeforeYear
  omega

/-- No two dates have the same number. -/
theorem dayNumber_injective : Function.Injective Date.dayNumber := by
  intro a b h
  have hyear : a.year = b.year := by
    obtain ⟨ha, ha'⟩ := dayNumber_bounds a
    obtain ⟨hb, hb'⟩ := dayNumber_bounds b
    rcases lt_trichotomy a.year b.year with hlt | heq | hgt
    · have := daysBeforeYear_le hlt
      omega
    · exact heq
    · have := daysBeforeYear_le hgt
      omega
  obtain ⟨year, month, day, hmonth, hmonth', hday, hday'⟩ := a
  obtain ⟨year', month', day', hmonth₂, hmonth₂', hday₂, hday₂'⟩ := b
  obtain rfl : year = year' := hyear
  simp only [Date.dayNumber] at h
  have hsame : month = month' := by
    rcases lt_trichotomy month month' with hlt | heq | hgt
    · have hle := daysBeforeMonth_mono year (show 1 ≤ month + 1 by omega) hlt
      rw [daysBeforeMonth_succ year hmonth] at hle
      omega
    · exact heq
    · have hle := daysBeforeMonth_mono year (show 1 ≤ month' + 1 by omega) hgt
      rw [daysBeforeMonth_succ year hmonth₂] at hle
      omega
  obtain rfl := hsame
  ext
  · rfl
  · rfl
  · dsimp only
    omega

/-- **A day has one date**, the one that many days after the epoch. -/
theorem dayNumber_eq_iff {date : Date} {n : Int} : date.dayNumber = n ↔
    date = (tomorrow ^ n) epoch := by
  constructor
  · intro h
    exact dayNumber_injective (h.trans (dayNumber_tomorrow n).symm)
  · rintro rfl
    exact dayNumber_tomorrow n

end RtpMux.Calendar
