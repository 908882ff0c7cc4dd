import Mathlib.Data.List.Sort
import RtpMux.FixedWidth
import RtpMux.Tools.Text

/-!
# The archive of perf runs (`bin/perf-history.rs`)

Every run is kept in a directory of its own, whose name begins with the second it was archived in
and goes on with the revision its report names. A name that is taken is replaced by the stamp and
the first free number from two on. `archived_runs` lists the entries "oldest first" by sorting their
names, and `previous_run` takes the last of them that is not the candidate.

The stamps are in the order of the clock (`nowStamp_lt`), so the sort is right between seconds.
Within one second it goes by what stands behind the stamp, and neither revisions nor numbers are in
the order of their calls: a run without a revision is listed before all others of its second, and
`10` before `2`.

The directory of a label is its entries in the order in which they were made. Failures of the file
system are left out, and so are paths: a path is the name of its last component.
-/

namespace RtpMux.PerfHistory

/-! ## The clock -/

/-- `civil_from_days`: year, month and day. Division truncates, as it does in the source. The
integers have no width here: with the overflows of `i64` the same dates come out
(`CivilDates.civilFromDaysI64_natCast`). -/
def civilFromDays (days : Int) : Int × Nat × Nat :=
  let z := days + 719468
  let era := (if 0 ≤ z then z else z - 146096).tdiv 146097
  let doe := z - era * 146097
  let yoe := (doe - doe.tdiv 1460 + doe.tdiv 36524 - doe.tdiv 146096).tdiv 365
  let year := yoe + era * 400
  let doy := doe - (365 * yoe + yoe.tdiv 4 - yoe.tdiv 100)
  let mp := (5 * doy + 2).tdiv 153
  let day := (doy - (153 * mp + 2).tdiv 5 + 1).toNat
  let month := (if mp < 10 then mp + 3 else mp - 9).toNat
  (if month ≤ 2 then year + 1 else year, month, day)

/-- `now_stamp` at a number of seconds since the epoch. -/
def nowStamp (seconds : Nat) : List Char :=
  let (year, month, day) := civilFromDays (seconds / 86400 : Nat)
  let secsOfDay := seconds % 86400
  FixedWidth.pad 4 year.toNat ++ FixedWidth.pad 2 month ++ FixedWidth.pad 2 day ++ ['T'] ++
    FixedWidth.pad 2 (secsOfDay / 3600) ++ FixedWidth.pad 2 (secsOfDay % 3600 / 60) ++
    FixedWidth.pad 2 (secsOfDay % 60) ++ ['Z']

/-! ## Revisions -/

/-- The quoted text behind the first colon. -/
def quotedValue (rest : List Char) : Option (List Char) := do
  let (_, after) ← Text.splitOnce ':' rest
  let (_, opened) ← Text.splitOnce '"' after
  let (value, _) ← Text.splitOnce '"' opened
  pure value

/-- `revision_of`: the revision a report names. `none` is a report that is not text. -/
def revisionOf (report : Option (List Char)) : List Char :=
  match report with
  | none => []
  | some text =>
    (["\"revision\"", "\"rev\"", "\"commit\"", "\"head\""].findSome? fun key => do
      let (_, rest) ← Text.splitOnceWord key.toList text
      let value ← quotedValue rest
      let value := (value.filter Text.isAsciiAlphanumeric).take 12
      if value.isEmpty then none else some value).getD []

/-! ## Entries -/

/-- The file name of a report. -/
def reportName : List Char := "mandate-check.json".toList

/-- `Path::extension` of a file name. -/
def extension (name : List Char) : Option (List Char) :=
  if '.' ∈ name.drop 1 then some ((name.reverse.takeWhile (· ≠ '.')).reverse) else none

/-- What `archive_entry` keeps of the files of a run. -/
def keeps (name : List Char) : Bool :=
  extension name ∈ [some "json".toList, some "log".toList, some "csv".toList]

/-- A run directory: its plain files, with their text where they have one, and those of `plots`. -/
structure RunDir where
  display : String
  files : List (List Char × Option (List Char))
  plots : List (List Char)

/-- An archived run. -/
structure Entry where
  name : List Char
  files : List (List Char)
  plots : List (List Char)
deriving DecidableEq

/-- The directory of one label. -/
structure LabelDir where
  /-- the entries, in the order in which they were made -/
  entries : List Entry
  latest : Option (List Char)

/-- The names of the entries. -/
def LabelDir.names (dir : LabelDir) : List (List Char) := dir.entries.map (·.name)

/-- The name of a run that meets no other of its name. -/
def plainName (stamp revision : List Char) : List Char :=
  if revision = [] then stamp else stamp ++ '-' :: revision

/-- The name with a number instead. -/
def numberedName (stamp : List Char) (suffix : Nat) : List Char :=
  stamp ++ '-' :: Nat.toDigits 10 suffix

/-- The loop that looks for a free number. -/
def freeName (taken : List (List Char)) (stamp : List Char) : Nat → Nat → List Char
  | 0, suffix => numberedName stamp suffix
  | fuel + 1, suffix =>
    if numberedName stamp suffix ∈ taken then freeName taken stamp fuel (suffix + 1)
    else numberedName stamp suffix

/-- The name `archive_entry` settles on. One number more than there are entries is enough to find a
free one. -/
def entryName (taken : List (List Char)) (stamp revision : List Char) : List Char :=
  if plainName stamp revision ∈ taken then freeName taken stamp taken.length 2
    else plainName stamp revision

/-- `archive_entry` at a second of the clock. -/
def archiveEntry (dir : LabelDir) (seconds : Nat) (run : RunDir) : Except String LabelDir :=
  match run.files.lookup reportName with
  | none =>
    .error (run.display ++
      " has no mandate-check.json, so it is not a completed run and there is nothing to archive")
  | some report =>
    let name := entryName dir.names (nowStamp seconds) (revisionOf report)
    let files := (run.files.map (·.1)).filter keeps
    if files.length + run.plots.length = 0 then
      .error (run.display ++ " held no artifacts to archive, which means the run wrote none")
    else .ok ⟨dir.entries ++ [⟨name, files, run.plots⟩], some name⟩

/-- `archived_runs`. -/
def archivedRuns (dir : LabelDir) : List Entry :=
  (dir.entries.filter fun entry => reportName ∈ entry.files).insertionSort fun a b =>
    a.name ≤ b.name

/-- `previous_run`. -/
def previousRun (dir : LabelDir) (candidate : List Char) : Option Entry :=
  ((archivedRuns dir).filter fun entry => entry.name ≠ candidate).getLast?

/-! ## The calendar -/

/-- The year of an era that begins in March, by centuries, cycles of four years and years. -/
theorem yearOfEra_eq {c k j r doe : Nat} (hdoe : doe = 36524 * c + 1461 * k + r) (hc : c ≤ 3)
    (hk : k ≤ 24)
    (hcentury : c = 3 ∨ 1461 * k + r < 36524) (hj : j ≤ 3) (hr : 365 * j ≤ r)
    (hr' : r < 365 * (j + 1) ∨ j = 3 ∧ r ≤ 1460) :
    (doe - doe / 1460 + doe / 36524 - doe / 146096) / 365 = 100 * c + 4 * k + j := by
  have hcycle : doe / 1460 = 25 * c + k + (24 * c + k + r) / 1460 := by
    rw [show doe = 1460 * (25 * c + k) + (24 * c + k + r) by omega, Nat.mul_add_div (by decide)]
  have hcarry : (24 * c + k + r) / 1460 = 0 ∧ r < 1460 ∨ (24 * c + k + r) / 1460 = 1 ∧
      1364 ≤ r := by omega
  -- the last day of an era is the only one of its fifth century
  have hcenturies : doe / 36524 - doe / 146096 = c ∧ doe / 146096 ≤ doe / 36524 := by
    by_cases hlast : doe = 146096
    · rw [hlast]
      exact ⟨by omega, by decide⟩
    · omega
  omega

/-- The day of an era, taken apart. -/
structure EraDay where
  century : Nat
  cycle : Nat
  year : Nat
  day : Nat

/-- A day of an era by its century, its cycle of four years and its year. -/
def eraDay (doe : Nat) : EraDay :=
  let century := min (doe / 36524) 3
  let ofCentury := doe - 36524 * century
  let ofCycle := ofCentury % 1461
  let year := min (ofCycle / 365) 3
  ⟨century, ofCentury / 1461, year, ofCycle - 365 * year⟩

/-- The year of an era that a day is in, from March on. -/
def EraDay.yearOfEra (d : EraDay) : Nat := 100 * d.century + 4 * d.cycle + d.year

/-- The year of an era and the day of its year, as the code computes them. -/
theorem eraDay_spec {doe : Nat} (h : doe ≤ 146096) :
    (doe - doe / 1460 + doe / 36524 - doe / 146096) / 365 = (eraDay doe).yearOfEra ∧
      doe = 365 * (eraDay doe).yearOfEra + (eraDay doe).yearOfEra / 4 -
        (eraDay doe).yearOfEra / 100 +
        (eraDay doe).day ∧
      (eraDay doe).yearOfEra ≤ 399 ∧ (eraDay doe).day ≤ 365 := by
  simp only [EraDay.yearOfEra, eraDay]
  have hcycle : (doe - 36524 * min (doe / 36524) 3) / 1461 ≤ 24 := by omega
  have hyear : min ((doe - 36524 * min (doe / 36524) 3) % 1461 / 365) 3 ≤ 3 := Nat.min_le_right _ _
  refine ⟨?_, ?_, ?_, ?_⟩
  · refine yearOfEra_eq (r := (doe - 36524 * min (doe / 36524) 3) % 1461) ?_ ?_ ?_ ?_ ?_ ?_
      ?_ <;> omega
  · generalize hc : min (doe / 36524) 3 = c at *
    generalize hk : (doe - 36524 * c) / 1461 = k at *
    generalize hj : min ((doe - 36524 * c) % 1461 / 365) 3 = j at *
    have hfours : (100 * c + 4 * k + j) / 4 = 25 * c + k := by omega
    have hhundreds : (100 * c + 4 * k + j) / 100 = c := by omega
    rw [hfours, hhundreds]
    omega
  · omega
  · omega

/-- Later days of an era are in a later year, or later in the same one. -/
theorem eraDay_lt {doe doe' : Nat} (h : doe < doe') (h' : doe' ≤ 146096) :
    (eraDay doe).yearOfEra < (eraDay doe').yearOfEra ∨
      (eraDay doe).yearOfEra = (eraDay doe').yearOfEra ∧ (eraDay doe).day < (eraDay doe').day := by
  obtain ⟨-, hdoe, -, -⟩ := eraDay_spec (h.le.trans h')
  obtain ⟨-, hdoe', -, -⟩ := eraDay_spec h'
  by_cases hyear : (eraDay doe).yearOfEra = (eraDay doe').yearOfEra
  · rw [hyear] at hdoe
    exact .inr ⟨hyear, by omega⟩
  · refine .inl (lt_of_le_of_ne ?_ hyear)
    simp only [EraDay.yearOfEra, eraDay]
    -- centuries first, then cycles of four years, then years
    by_cases hcentury : min (doe / 36524) 3 = min (doe' / 36524) 3
    · rw [← hcentury]
      generalize hc : min (doe / 36524) 3 = c at *
      have hsub : doe - 36524 * c < doe' - 36524 * c := by omega
      generalize doe - 36524 * c = d at *
      generalize doe' - 36524 * c = d' at *
      by_cases hcycle : d / 1461 = d' / 1461 <;> omega
    · omega

/-- The months from March on that have passed before a day of the year. -/
def marchMonth (doy : Nat) : Nat := (5 * doy + 2) / 153

theorem marchMonth_le {doy : Nat} (h : doy ≤ 365) : marchMonth doy ≤ 11 := by
  rw [marchMonth]
  omega

theorem first_of_marchMonth_le (doy : Nat) : (153 * marchMonth doy + 2) / 5 ≤ doy := by
  rw [marchMonth]
  omega

-- the numbers of the source are natural from the epoch on

theorem yearOfEra_natCast (doe : Nat) :
    ((doe : Int) - (doe : Int).tdiv 1460 + (doe : Int).tdiv 36524 -
      (doe : Int).tdiv 146096).tdiv 365 =
      ((doe - doe / 1460 + doe / 36524 - doe / 146096) / 365 : Nat) := by
  have hnum : (doe : Int) - (doe : Int).tdiv 1460 + (doe : Int).tdiv 36524 -
      (doe : Int).tdiv 146096 =
      ((doe - doe / 1460 + doe / 36524 - doe / 146096 : Nat) : Int) := by
    rw [Int.tdiv_eq_ediv_of_nonneg (by omega), Int.tdiv_eq_ediv_of_nonneg (by omega),
      Int.tdiv_eq_ediv_of_nonneg (by omega)]
    omega
  rw [hnum, Int.tdiv_eq_ediv_of_nonneg (by omega)]
  rfl

theorem dayOfYear_natCast {doe year doy : Nat}
    (h : doe = 365 * year + year / 4 - year / 100 + doy) :
    (doe : Int) - (365 * (year : Int) + (year : Int).tdiv 4 - (year : Int).tdiv 100) = doy := by
  rw [Int.tdiv_eq_ediv_of_nonneg (by omega), Int.tdiv_eq_ediv_of_nonneg (by omega)]
  omega

theorem marchMonth_natCast (doy : Nat) : (5 * (doy : Int) + 2).tdiv 153 = marchMonth doy := by
  rw [Int.tdiv_eq_ediv_of_nonneg (by omega), marchMonth]
  omega

theorem dayOfMonth_natCast (doy : Nat) :
    ((doy : Int) - (153 * (marchMonth doy : Int) + 2).tdiv 5 + 1).toNat =
      doy - (153 * marchMonth doy + 2) / 5 + 1 := by
  have hle := first_of_marchMonth_le doy
  rw [Int.tdiv_eq_ediv_of_nonneg (by omega)]
  omega

/-- The calendar turns in January. -/
def civil (year month day : Nat) : Int × Nat × Nat :=
  if month < 10 then ((year : Int), month + 3, day) else ((year : Int) + 1, month - 9, day)

theorem civil_eq {year month day : Nat} (hmonth : month ≤ 11) :
    (if (if (month : Int) < 10 then (month : Int) + 3 else (month : Int) - 9).toNat ≤
      2 then (year : Int) + 1
      else (year : Int),
        (if (month : Int) < 10 then (month : Int) + 3 else (month : Int) - 9).toNat, day) =
      civil year month day := by
  unfold civil
  by_cases hspring : month < 10
  · have hcast : (month : Int) < 10 := by omega
    have hnat : ((month : Int) + 3).toNat = month + 3 := by omega
    rw [if_pos hspring, if_pos hcast, hnat, if_neg (by omega)]
  · have hcast : ¬ (month : Int) < 10 := by omega
    have hnat : ((month : Int) - 9).toNat = month - 9 := by omega
    rw [if_neg hspring, if_neg hcast, hnat, if_pos (by omega)]

/-- **Dates.** The date of a day of an era. -/
theorem civilFromDays_eq {days era doe : Nat} (h : days + 719468 = era * 146097 + doe)
    (hdoe : doe ≤ 146096) :
    civilFromDays days = civil ((eraDay doe).yearOfEra + era * 400) (marchMonth (eraDay doe).day)
      ((eraDay doe).day - (153 * marchMonth (eraDay doe).day + 2) / 5 + 1) := by
  obtain ⟨hyear, hday, -, hmost⟩ := eraDay_spec hdoe
  have hz : (0 : Int) ≤ era * 146097 + doe := by omega
  have hera : ((era : Int) * 146097 + doe).tdiv 146097 = era := by
    rw [Int.tdiv_eq_ediv_of_nonneg hz]
    omega
  have hrest : (era : Int) * 146097 + doe - era * 146097 = doe := by omega
  have hcast : (days : Int) + 719468 = era * 146097 + doe := by omega
  unfold civilFromDays
  rw [hcast]
  dsimp only
  rw [if_pos hz, hera, hrest, yearOfEra_natCast, hyear, dayOfYear_natCast hday, marchMonth_natCast,
    dayOfMonth_natCast]
  exact civil_eq (marchMonth_le hmost)

/-- Dates are compared by year, month and day. -/
def DateLt (a b : Int × Nat × Nat) : Prop :=
  a.1 < b.1 ∨ a.1 = b.1 ∧ (a.2.1 < b.2.1 ∨ a.2.1 = b.2.1 ∧ a.2.2 < b.2.2)

/-- Later in the March calendar is later in the civil one. -/
theorem civil_lt {year year' month month' day day' : Nat} (hmonth : month ≤ 11)
    (hmonth' : month' ≤ 11)
    (h : year < year' ∨ year = year' ∧ (month < month' ∨ month = month' ∧ day < day')) :
    DateLt (civil year month day) (civil year' month' day') := by
  unfold DateLt civil
  by_cases hspring : month < 10 <;> by_cases hspring' : month' < 10 <;>
    simp only [hspring, hspring', if_true, if_false] <;> omega

/-- A later day of a year is in a later month or later in its month. -/
theorem dayOfMonth_lt {doy doy' : Nat} (h : doy < doy') :
    marchMonth doy < marchMonth doy' ∨ marchMonth doy = marchMonth doy' ∧
      doy - (153 * marchMonth doy + 2) / 5 + 1 < doy' - (153 * marchMonth doy' + 2) / 5 + 1 := by
  by_cases hmonth : marchMonth doy = marchMonth doy'
  · have hle := first_of_marchMonth_le doy
    rw [← hmonth]
    exact .inr ⟨rfl, by omega⟩
  · refine .inl (lt_of_le_of_ne ?_ hmonth)
    rw [marchMonth, marchMonth]
    omega

/-- Every day lies in an era. -/
theorem exists_era (days : Nat) : ∃ era doe : Nat, days + 719468 = era * 146097 + doe ∧
    doe ≤ 146096 :=
  ⟨(days + 719468) / 146097, (days + 719468) % 146097, by omega, by omega⟩

/-- **A later day has a later date.** -/
theorem civilFromDays_lt {days days' : Nat} (h : days < days') :
    DateLt (civilFromDays days) (civilFromDays days') := by
  obtain ⟨era, doe, hera, hdoe⟩ := exists_era days
  obtain ⟨era', doe', hera', hdoe'⟩ := exists_era days'
  obtain ⟨-, -, hyear, hday⟩ := eraDay_spec hdoe
  obtain ⟨-, -, hyear', hday'⟩ := eraDay_spec hdoe'
  rw [civilFromDays_eq hera hdoe, civilFromDays_eq hera' hdoe']
  refine civil_lt (marchMonth_le hday) (marchMonth_le hday') ?_
  have heras : era < era' ∨ era = era' ∧ doe < doe' := by omega
  rcases heras with heras | ⟨rfl, hdays⟩
  · exact .inl (by omega)
  · rcases eraDay_lt hdays hdoe' with hlt | ⟨heq, hlt⟩
    · exact .inl (by omega)
    · exact .inr ⟨by rw [heq], dayOfMonth_lt hlt⟩

/-- The parts of a date have their places in a stamp. -/
theorem civilFromDays_bounds (days : Nat) :
    0 ≤ (civilFromDays days).1 ∧ (civilFromDays days).2.1 < 10 ^ 2 ∧
      (civilFromDays days).2.2 < 10 ^ 2 := by
  obtain ⟨era, doe, hera, hdoe⟩ := exists_era days
  obtain ⟨-, -, -, hday⟩ := eraDay_spec hdoe
  have hmonth := marchMonth_le hday
  have hofMonth : (eraDay doe).day - (153 * marchMonth (eraDay doe).day + 2) / 5 + 1 < 100 := by
    rw [marchMonth]
    omega
  rw [civilFromDays_eq hera hdoe]
  unfold civil
  split
  · exact ⟨by omega, by dsimp only; omega, hofMonth⟩
  · exact ⟨by omega, by dsimp only; omega, hofMonth⟩

/-! ## Stamps -/

/-- The year of a second since the epoch. -/
def yearOf (seconds : Nat) : Int := (civilFromDays (seconds / 86400 : Nat)).1

/-- The time of day in a stamp. -/
def clockText (secsOfDay : Nat) : List Char :=
  FixedWidth.pad 2 (secsOfDay / 3600) ++ (FixedWidth.pad 2 (secsOfDay % 3600 / 60) ++
    (FixedWidth.pad 2 (secsOfDay % 60) ++ ['Z']))

/-- The stamp is its fields, each of its width. -/
theorem nowStamp_eq (seconds : Nat) :
    nowStamp seconds = FixedWidth.pad 4 (yearOf seconds).toNat ++
      (FixedWidth.pad 2 (civilFromDays (seconds / 86400 : Nat)).2.1 ++
        (FixedWidth.pad 2 (civilFromDays (seconds / 86400 : Nat)).2.2 ++
          ('T' :: clockText (seconds % 86400)))) := by
  simp only [nowStamp, yearOf, clockText, List.append_assoc, List.cons_append, List.nil_append]

/-- Later in a day is later as text. -/
theorem clockText_lt {secs secs' : Nat} (h : secs < secs') (h' : secs' < 86400) :
    clockText secs < clockText secs' := by
  refine FixedWidth.pad_append_lt (by decide) (by omega) ?_
  by_cases hhour : secs / 3600 = secs' / 3600
  · refine .inr ⟨hhour, FixedWidth.pad_append_lt (by decide) (by omega) ?_⟩
    by_cases hminute : secs % 3600 / 60 = secs' % 3600 / 60
    · exact .inr ⟨hminute, FixedWidth.pad_append_lt (by decide) (by omega) (.inl (by omega))⟩
    · exact .inl (by omega)
  · exact .inl (by omega)

/-- The clock has seven characters. -/
theorem length_clockText {secs : Nat} (h : secs < 86400) : (clockText secs).length = 7 := by
  have hhour : (FixedWidth.pad 2 (secs / 3600)).length = 2 :=
    FixedWidth.length_pad (by decide) (by omega)
  have hminute : (FixedWidth.pad 2 (secs % 3600 / 60)).length = 2 :=
    FixedWidth.length_pad (by decide) (by omega)
  have hsecond : (FixedWidth.pad 2 (secs % 60)).length = 2 :=
    FixedWidth.length_pad (by decide) (by omega)
  simp [clockText, hhour, hminute, hsecond]

/-- The stamp has sixteen characters. -/
theorem length_nowStamp {seconds : Nat} (hyear : yearOf seconds ≤ 9999) :
    (nowStamp seconds).length = 16 := by
  obtain ⟨-, hmonth, hday⟩ := civilFromDays_bounds (seconds / 86400)
  have hyears : (FixedWidth.pad 4 (yearOf seconds).toNat).length = 4 :=
    FixedWidth.length_pad (by decide) (by omega)
  have hclock : (clockText (seconds % 86400)).length = 7 :=
    length_clockText (Nat.mod_lt _ (by decide))
  simp only [nowStamp_eq, List.length_append, List.length_cons, hyears,
    FixedWidth.length_pad (by decide) hmonth,
    FixedWidth.length_pad (by decide) hday, hclock]

/-- **Stamps are in the order of the clock.** -/
theorem nowStamp_lt {seconds seconds' : Nat} (h : seconds < seconds')
    (hyear : yearOf seconds' ≤ 9999) :
    nowStamp seconds < nowStamp seconds' := by
  obtain ⟨hpos, -, -⟩ := civilFromDays_bounds (seconds / 86400)
  obtain ⟨-, hmonth, hday⟩ := civilFromDays_bounds (seconds' / 86400)
  rw [nowStamp_eq, nowStamp_eq]
  refine FixedWidth.pad_append_lt (by decide) (by omega) ?_
  by_cases hsame : seconds / 86400 = seconds' / 86400
  · -- one day: the clock decides
    simp only [yearOf, hsame, lt_self_iff_false, true_and, false_or,
      FixedWidth.append_lt_append_left_iff]
    exact List.cons_lt_cons_iff.mpr (.inr ⟨rfl, clockText_lt (by omega) (Nat.mod_lt _ (by decide))⟩)
  · rcases civilFromDays_lt
        (show seconds / 86400 < seconds' / 86400 by omega) with hlt | ⟨heq, hrest⟩
    · refine .inl ?_
      unfold yearOf
      omega
    · refine .inr ⟨by rw [yearOf, yearOf, heq], FixedWidth.pad_append_lt (by decide) hmonth ?_⟩
      rcases hrest with hlt | ⟨heq, hlt⟩
      · exact .inl hlt
      · exact .inr ⟨heq, FixedWidth.pad_append_lt (by decide) hday (.inl hlt)⟩

/-! ## Names -/

/-- Different numbers give different names. -/
theorem numberedName_injective (stamp : List Char) : Function.Injective (numberedName stamp) := by
  intro m n h
  have hdigits : Nat.toDigits 10 m = Nat.toDigits 10 n := by simpa [numberedName] using h
  rw [← Nat.ofDigitChars_ten_toDigits (n := m), hdigits, Nat.ofDigitChars_ten_toDigits]

theorem stamp_isPrefix_plainName (stamp revision : List Char) :
    stamp <+: plainName stamp revision := by
  unfold plainName
  split
  · exact List.prefix_rfl
  · exact List.prefix_append _ _

/-- More numbers than there are names cannot all be taken. -/
theorem exists_free {taken : List (List Char)} (stamp : List Char) {count : Nat}
    (hcount : taken.length < count) :
    ∃ i < count, numberedName stamp (2 + i) ∉ taken := by
  by_contra hall
  push Not at hall
  have hnodup : ((List.range count).map fun i => numberedName stamp (2 + i)).Nodup :=
    List.nodup_range.map fun i j h => Nat.add_left_cancel (numberedName_injective stamp h)
  have hsubset : ((List.range count).map fun i => numberedName stamp (2 + i)) ⊆ taken := by
    intro name hname
    obtain ⟨i, hi, rfl⟩ := List.mem_map.mp hname
    exact hall i (List.mem_range.mp hi)
  have hle := (List.subperm_of_subset hnodup hsubset).length_le
  rw [List.length_map, List.length_range] at hle
  omega

/-- **The loop finds the first free number**, if there is one within its fuel. -/
theorem freeName_spec {taken : List (List Char)} {stamp : List Char} {fuel suffix : Nat}
    (hfree : ∃ i ≤ fuel, numberedName stamp (suffix + i) ∉ taken) :
    ∃ k, suffix ≤ k ∧ freeName taken stamp fuel suffix = numberedName stamp k ∧
      numberedName stamp k ∉ taken ∧
      ∀ j, suffix ≤ j → j < k → numberedName stamp j ∈ taken := by
  induction fuel generalizing suffix with
  | zero =>
    obtain ⟨i, hi, hfree⟩ := hfree
    obtain rfl := Nat.le_zero.mp hi
    exact ⟨suffix, le_rfl, rfl, hfree, fun j hj hj' => absurd hj' (Nat.not_lt.mpr hj)⟩
  | succ fuel ih =>
    by_cases htaken : numberedName stamp suffix ∈ taken
    · obtain ⟨i, hi, hfree⟩ := hfree
      have hpos : i ≠ 0 := by
        rintro rfl
        exact hfree htaken
      have hnext : ∃ i ≤ fuel, numberedName stamp (suffix + 1 + i) ∉ taken :=
        ⟨i - 1, by omega, by rwa [show suffix + 1 + (i - 1) = suffix + i by omega]⟩
      obtain ⟨k, hk, heq, hkfree, hbelow⟩ := ih hnext
      refine ⟨k, by omega, ?_, hkfree, fun j hj hj' => ?_⟩
      · rw [freeName, if_pos htaken, heq]
      · rcases Nat.eq_or_lt_of_le hj with rfl | hj
        · exact htaken
        · exact hbelow j hj hj'
    · exact ⟨suffix, le_rfl, by rw [freeName, if_neg htaken], htaken,
        fun j hj hj' => absurd hj' (Nat.not_lt.mpr hj)⟩

/-- What a call does with the names that are there. -/
theorem entryName_cases (taken : List (List Char)) (stamp revision : List Char) :
    plainName stamp revision ∉ taken ∧ entryName taken stamp revision = plainName stamp revision ∨
      plainName stamp revision ∈ taken ∧ ∃ k, 2 ≤ k ∧
        entryName taken stamp revision = numberedName stamp k ∧
        numberedName stamp k ∉ taken ∧ ∀ j, 2 ≤ j → j < k → numberedName stamp j ∈ taken := by
  by_cases htaken : plainName stamp revision ∈ taken
  · obtain ⟨i, hi, hfree⟩ := exists_free stamp (Nat.lt_succ_self taken.length)
    obtain ⟨k, hk, heq, hrest⟩ := freeName_spec ⟨i, Nat.le_of_lt_succ hi, hfree⟩
    exact .inr ⟨htaken, k, hk, by rw [entryName, if_pos htaken, heq], hrest⟩
  · exact .inl ⟨htaken, by rw [entryName, if_neg htaken]⟩

/-- A new entry's name is not taken. -/
theorem entryName_notMem (taken : List (List Char)) (stamp revision : List Char) :
    entryName taken stamp revision ∉ taken := by
  rcases entryName_cases taken stamp revision with ⟨hfree, heq⟩ | ⟨-, k, -, heq, hfree, -⟩
  · rwa [heq]
  · rwa [heq]

/-- An entry's name begins with its stamp. -/
theorem stamp_isPrefix_entryName (taken : List (List Char)) (stamp revision : List Char) :
    stamp <+: entryName taken stamp revision := by
  rcases entryName_cases taken stamp revision with ⟨-, heq⟩ | ⟨-, k, -, heq, -, -⟩
  · rw [heq]
    exact stamp_isPrefix_plainName stamp revision
  · rw [heq]
    exact List.prefix_append _ _

/-- When a call keeps the order. Among the names of its own second its plain name is the last, or it
is taken and the first number that is free gives the last. -/
def Orderly (taken : List (List Char)) (stamp revision : List Char) : Prop :=
  (∀ name ∈ taken, stamp <+: name → name < plainName stamp revision) ∨
    plainName stamp revision ∈ taken ∧ ∃ k, 2 ≤ k ∧
      (∀ j, 2 ≤ j → j < k → numberedName stamp j ∈ taken) ∧
      ∀ name ∈ taken, stamp <+: name → name < numberedName stamp k

/-- **One call.** With the names of earlier seconds before its stamp, the new name is the last
exactly when the call is orderly. -/
theorem entryName_last_iff {taken : List (List Char)} {stamp : List Char} (revision : List Char)
    (hothers : ∀ name ∈ taken, ¬ stamp <+: name → ∀ part, name < stamp ++ part) :
    (∀ name ∈ taken, name < entryName taken stamp revision) ↔ Orderly taken stamp revision := by
  have hlast : ∀ last : List Char, stamp <+: last →
      (∀ name ∈ taken, stamp <+: name → name < last) → ∀ name ∈ taken, name < last := by
    rintro last ⟨part, rfl⟩ hsame name hname
    by_cases hprefix : stamp <+: name
    · exact hsame name hname hprefix
    · exact hothers name hname hprefix part
  rcases entryName_cases taken stamp revision with ⟨hfree, heq⟩ | ⟨htaken, k, hk, heq,
      hfree, hbelow⟩
  · rw [heq]
    constructor
    · exact fun h => .inl fun name hname _ => h name hname
    · rintro (hsame | ⟨htaken, -⟩)
      · exact hlast _ (stamp_isPrefix_plainName stamp revision) hsame
      · exact absurd htaken hfree
  · rw [heq]
    constructor
    · exact fun h => .inr ⟨htaken, k, hk, hbelow, fun name hname _ => h name hname⟩
    · rintro (hsame | ⟨-, k', hk', hbelow', hsame⟩)
      · exact absurd (hsame _ htaken (stamp_isPrefix_plainName stamp revision)) (lt_irrefl _)
      · -- the number that sorts last is free, so it is the first free one
        have hfree' : numberedName stamp k' ∉ taken := fun htaken' =>
          lt_irrefl _ (hsame _ htaken' (List.prefix_append _ _))
        obtain rfl : k' = k := by
          rcases Nat.lt_trichotomy k' k with hlt | heq | hlt
          · exact absurd (hbelow k' hk' hlt) hfree'
          · exact heq
          · exact absurd (hbelow' k hk hlt) hfree
        exact hlast _ (List.prefix_append _ _) hsame

/-! ## Runs of the archive -/

/-- A call of `archive_entry`: the clock in seconds from the epoch, and the run. -/
structure Call where
  clock : Int
  run : RunDir

/-- `duration_since(UNIX_EPOCH)`, with zero for a clock before the epoch. -/
def Call.seconds (call : Call) : Nat := call.clock.toNat

/-- One call after the other; the first failure ends it. -/
def archiveAll : LabelDir → List Call → Except String LabelDir
  | dir, [] => .ok dir
  | dir, call :: rest => do
    let dir ← archiveEntry dir call.seconds call.run
    archiveAll dir rest

/-- The clock never goes back, and its years have four digits. -/
structure Clocked (calls : List Call) : Prop where
  sorted : calls.Pairwise fun a b => a.clock ≤ b.clock
  years : ∀ call ∈ calls, yearOf call.seconds ≤ 9999

/-- The revision of a run, or none where the run has no report. -/
def RunDir.revision (run : RunDir) : List Char := revisionOf (run.files.lookup reportName).join

/-- Every call is orderly in the directory it finds. -/
def AllOrderly : LabelDir → List Call → Prop
  | _, [] => True
  | dir, call :: rest => Orderly dir.names (nowStamp call.seconds) call.run.revision ∧
      ∀ dir', archiveEntry dir call.seconds call.run = .ok dir' → AllOrderly dir' rest

/-- What a reader of the archive relies on. -/
structure ArchiveOrdered (dir : LabelDir) : Prop where
  /-- no two calls use the same directory -/
  nodup : dir.names.Nodup
  /-- the list is in the order in which the entries were archived -/
  listed : archivedRuns dir = dir.entries
  /-- the run before the last one is found -/
  previous : ∀ earlier before last, dir.entries = earlier ++ [before, last] →
    previousRun dir last.name = some before

/-- Every entry has its report, and a name that begins with the stamp of its second. -/
structure Archived (limit : Nat) (dir : LabelDir) : Prop where
  reports : ∀ entry ∈ dir.entries, reportName ∈ entry.files
  nodup : dir.names.Nodup
  stamped : ∀ name ∈ dir.names, ∃ seconds ≤ limit, yearOf seconds ≤ 9999 ∧ nowStamp seconds <+: name

/-- What a call that succeeds does. -/
theorem archiveEntry_ok {dir dir' : LabelDir} {seconds : Nat} {run : RunDir}
    (h : archiveEntry dir seconds run = .ok dir') :
    ∃ entry : Entry, entry.name = entryName dir.names (nowStamp seconds) run.revision ∧
      reportName ∈ entry.files ∧ dir'.entries = dir.entries ++ [entry] ∧
        dir'.latest = some entry.name := by
  unfold archiveEntry at h
  cases hreport : run.files.lookup reportName with
  | none => rw [hreport] at h; cases h
  | some report =>
    rw [hreport] at h
    dsimp only at h
    split at h
    · cases h
    · obtain rfl := Except.ok.inj h
      refine ⟨_, ?_, ?_, rfl, rfl⟩
      · simp only [RunDir.revision, hreport, Option.join_some]
      · obtain ⟨before, after, hfiles, -⟩ := List.lookup_eq_some_iff.mp hreport
        refine List.mem_filter.mpr ⟨List.mem_map.mpr ⟨(reportName, report), ?_, rfl⟩, by decide⟩
        simp [hfiles]

namespace Archived

variable {limit seconds : Nat} {dir dir' : LabelDir} {run : RunDir}

/-- Names of earlier seconds come before every name of this one. -/
theorem others (hdir : Archived limit dir) (hlimit : limit ≤ seconds)
    (hyear : yearOf seconds ≤ 9999) :
    ∀ name ∈ dir.names, ¬ nowStamp seconds <+: name → ∀ part, name < nowStamp seconds ++ part := by
  intro name hname hprefix part
  obtain ⟨earlier, hearlier, hyear', part', rfl⟩ := hdir.stamped name hname
  rcases Nat.eq_or_lt_of_le (hearlier.trans hlimit) with rfl | hlt
  · exact absurd (List.prefix_append _ _) hprefix
  · refine FixedWidth.append_lt_append ?_ (nowStamp_lt hlt hyear)
    rw [length_nowStamp hyear, length_nowStamp hyear']

/-- An entry that is archived later is archived. -/
theorem step (hdir : Archived limit dir) (hlimit : limit ≤ seconds) (hyear : yearOf seconds ≤ 9999)
    (h : archiveEntry dir seconds run = .ok dir') : Archived seconds dir' := by
  obtain ⟨entry, hname, hreport, hentries, -⟩ := archiveEntry_ok h
  have hnames : dir'.names = dir.names ++ [entry.name] := by simp [LabelDir.names, hentries]
  refine ⟨?_, ?_, ?_⟩
  · intro e he
    rw [hentries] at he
    rcases List.mem_append.mp he with he | he
    · exact hdir.reports e he
    · rw [List.mem_singleton.mp he]
      exact hreport
  · rw [hnames, hname, ← List.concat_eq_append]
    exact hdir.nodup.concat (entryName_notMem _ _ _)
  · intro name hmem
    rw [hnames] at hmem
    rcases List.mem_append.mp hmem with hmem | hmem
    · obtain ⟨earlier, hearlier, hyear', hprefix⟩ := hdir.stamped name hmem
      exact ⟨earlier, hearlier.trans hlimit, hyear', hprefix⟩
    · rw [List.mem_singleton.mp hmem, hname]
      exact ⟨seconds, le_rfl, hyear, stamp_isPrefix_entryName _ _ _⟩

/-- **One call keeps the order exactly when it is orderly.** -/
theorem sorted_step_iff (hdir : Archived limit dir) (hlimit : limit ≤ seconds)
    (hyear : yearOf seconds ≤ 9999)
    (h : archiveEntry dir seconds run = .ok dir') :
    dir'.names.Pairwise (· < ·) ↔ dir.names.Pairwise (· < ·) ∧
      Orderly dir.names (nowStamp seconds) run.revision := by
  obtain ⟨entry, hname, -, hentries, -⟩ := archiveEntry_ok h
  have hnames : dir'.names = dir.names ++ [entry.name] := by simp [LabelDir.names, hentries]
  rw [hnames, List.pairwise_append, ← entryName_last_iff _ (hdir.others hlimit hyear), ← hname]
  simp

/-- **A whole run**, from its first call on. -/
theorem sorted_run_iff {calls : List Call} (hdir : Archived limit dir) (hclocked : Clocked calls)
    (hlimit : ∀ call ∈ calls, limit ≤ call.seconds) (h : archiveAll dir calls = .ok dir') :
    (dir'.names.Pairwise (· < ·) ↔ dir.names.Pairwise (· < ·) ∧ AllOrderly dir calls) ∧
      ∃ limit', Archived limit' dir' := by
  induction calls generalizing dir limit with
  | nil =>
    obtain rfl := Except.ok.inj h
    exact ⟨by simp [AllOrderly], limit, hdir⟩
  | cons call rest ih =>
    have hle := hlimit call List.mem_cons_self
    have hyear := hclocked.years call List.mem_cons_self
    obtain ⟨hafter, hsorted⟩ := List.pairwise_cons.mp hclocked.sorted
    cases hstep : archiveEntry dir call.seconds call.run with
    | error message =>
      rw [archiveAll, hstep] at h
      cases h
    | ok next =>
      have hrest : archiveAll next rest = .ok dir' := by
        rw [archiveAll, hstep] at h
        exact h
      obtain ⟨hiff, hlast⟩ := ih (hdir.step hle hyear hstep)
        ⟨hsorted, fun other hother => hclocked.years other (List.mem_cons_of_mem _ hother)⟩
        (fun other hother => Int.toNat_le_toNat (hafter other hother)) hrest
      refine ⟨?_, hlast⟩
      rw [hiff, hdir.sorted_step_iff hle hyear hstep, AllOrderly, and_assoc]
      simp [hstep]

/-- The list is in the order of the calls exactly when the names grow. -/
theorem archiveOrdered_iff (hdir : Archived limit dir) : ArchiveOrdered dir ↔ dir.names.Pairwise
    (· < ·) := by
  have hruns : archivedRuns dir = dir.entries.insertionSort fun a b => a.name ≤ b.name := by
    rw [archivedRuns, List.filter_eq_self.mpr]
    simpa using hdir.reports
  constructor
  · rintro ⟨hnodup, hlisted, -⟩
    have hsorted : dir.entries.Pairwise fun a b => a.name ≤ b.name := by
      rw [← hlisted, hruns]
      have : Std.Total fun a b : Entry => a.name ≤ b.name := ⟨fun a b => le_total a.name b.name⟩
      have : IsTrans Entry fun a b => a.name ≤ b.name := ⟨fun a b c => le_trans⟩
      exact List.pairwise_insertionSort _ _
    refine (List.Pairwise.and (List.pairwise_map.mpr hsorted) hnodup).imp ?_
    rintro a b ⟨hle, hne⟩
    exact lt_of_le_of_ne hle hne
  · intro hnames
    have hsorted : dir.entries.Pairwise fun a b => a.name ≤ b.name :=
      (List.pairwise_map.mp hnames).imp fun h => h.le
    have hlisted : archivedRuns dir = dir.entries := by
      rw [hruns]
      exact hsorted.insertionSort_eq
    refine ⟨hdir.nodup, hlisted, fun earlier before last hentries => ?_⟩
    -- no other entry has the name of the candidate
    have hothers : ∀ entry ∈ earlier ++ [before], entry.name ≠ last.name := by
      have hpairs := List.pairwise_map.mp hnames
      rw [hentries, show earlier ++ [before, last] = (earlier ++ [before]) ++
        [last] by simp] at hpairs
      intro entry hentry
      exact ((List.pairwise_append.mp hpairs).2.2 entry hentry last (List.mem_singleton_self _)).ne
    rw [previousRun, hlisted, hentries, show earlier ++ [before, last] = (earlier ++ [before]) ++
      [last] by simp,
      List.filter_append, List.filter_eq_self.mpr (by simpa using hothers)]
    simp

end Archived

/-- Entries keep the order of their calls exactly in the runs whose calls are all orderly. -/
theorem archive_order_iff {calls : List Call} {dir : LabelDir} (hclocked : Clocked calls)
    (h : archiveAll ⟨[], none⟩ calls = .ok dir) : ArchiveOrdered dir ↔
      AllOrderly ⟨[], none⟩ calls := by
  have hempty : Archived 0 ⟨[], none⟩ :=
    ⟨by simp, by simp [LabelDir.names], by simp [LabelDir.names]⟩
  obtain ⟨hiff, limit, hdir⟩ := hempty.sorted_run_iff hclocked (fun _ _ => Nat.zero_le _) h
  rw [hdir.archiveOrdered_iff, hiff]
  simp [LabelDir.names]

/-- A run with a report that names a revision. -/
def runOf (revision : String) : RunDir :=
  ⟨"run", [(reportName, some (("\x7b\"revision\": \"" ++ revision ++ "\"\x7d").toList))], []⟩

/-- A directory with these entries, each with its report. -/
def archiveOf (names : List String) : LabelDir :=
  ⟨names.map fun name => ⟨name.toList, [reportName], []⟩, names.getLast?.map (·.toList)⟩

/-- A clock that stands at the epoch. -/
theorem clocked_zero (runs : List RunDir) : Clocked (runs.map (Call.mk 0)) := by
  refine ⟨?_, ?_⟩
  · rw [List.pairwise_map]
    exact List.pairwise_of_forall fun _ _ => le_rfl
  · intro call hcall
    obtain ⟨run, -, rfl⟩ := List.mem_map.mp hcall
    exact (by decide : yearOf 0 ≤ 9999)

/-- Two runs of one revision in one second: the second run gets a number that sorts behind the
revision. -/
theorem archive_order_iff_same_revision :
    ArchiveOrdered (archiveOf ["19700101T000000Z-1a", "19700101T000000Z-2"]) := by
  refine (archive_order_iff (clocked_zero [runOf "1a", runOf "1a"]) rfl).mpr ⟨.inl ?_, ?_⟩
  · simp [LabelDir.names]
  · rintro dir' hdir'
    obtain rfl : archiveOf ["19700101T000000Z-1a"] = dir' := Except.ok.inj hdir'
    refine ⟨.inr ⟨by decide, 2, le_rfl, fun j hj hj' => by omega, ?_⟩, fun _ _ => trivial⟩
    decide

/-- Two revisions in one second that are not in the order of their texts: the later run is listed
first. -/
theorem archive_order_fails :
    ¬ ∀ (calls : List Call) (dir : LabelDir), Clocked calls →
      archiveAll ⟨[], none⟩ calls = .ok dir →
      ArchiveOrdered dir := by
  intro h
  have hordered := h _ (archiveOf ["19700101T000000Z-9f", "19700101T000000Z-1a"])
    (clocked_zero [runOf "9f", runOf "1a"]) rfl
  exact absurd hordered.listed (by decide)

end RtpMux.PerfHistory
