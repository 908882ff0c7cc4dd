import Mathlib.Data.String.Basic
import RtpMux.Tools.MandateArm

/-!
# The verdict of a comparison

`run` compares a candidate report with a baseline: arm by arm, cell by cell, mandate by mandate. Its
exit code is `4` for lost coverage, `5` for a drift where drifts are to fail, `0` otherwise, and `2`
where the two cannot be compared.

* `verdict_iff`: with positive count and window tolerances the exit code is `4` exactly if coverage
was lost.
* `self_comparison_iff`: a report compared with itself shows nothing, unless a tolerance of zero
meets a number other than zero. A counter is compared for a fall before it is compared for equality,
and an unchanged one falls by as much as a tolerance of zero.
-/

namespace RtpMux.MandateCompare

/-! ## The comparison -/

/-- What the command line says about the comparison. -/
structure Args where
  tolerances : Tolerances
  failOnValueDrift : Bool

/-- A comparison's problem: with an arm, or with a cell or a mandate. -/
structure Problem where
  arm : Option String
  changes : List String

/-- An arm of the baseline in the result. -/
structure ArmEntry where
  id : String
  mandate : Option String
  missing : Bool
  changes : ArmChanges

/-- A cell of the baseline in the result. -/
structure CellEntry where
  cell : String
  coveredBy : List String
  regression : Bool

/-- The result of a comparison. -/
structure Diff where
  claimGaps : List Gap
  arms : List ArmEntry
  newArms : List String
  cells : List CellEntry
  regressions : List Problem
  valueDrifts : List Problem

/-- `cells_for`: the cells of a report's arms. -/
def cellsFor (report : Report) : List String :=
  sortedSet (report.arms.sorted.flatMap fun (_, arm) => armCells arm)

/-- The ids of the arms that declare a cell, in order. -/
def coveredBy (report : Report) (cell : String) : List String :=
  report.arms.sorted.flatMap fun (id, arm) => ((armCells arm).filter (· = cell)).map fun _ => id

/-- The malformed cells of a report. -/
def cellProblems (role : String) (report : Report) : List String :=
  (cellsFor report).filterMap fun cell =>
    (cellProblem cell).map fun problem =>
      "the " ++ role ++ " declares the coverage cell '" ++ cell ++ "' (covered by " ++
        ", ".intercalate (coveredBy report cell) ++
          "), which is not <property>@<dimension>=<value>: " ++ problem

/-- `compare_cells`: each cell of the baseline, and whether no arm of the candidate has it. -/
def compareCells (baseline candidate : Report) : List CellEntry :=
  (cellsFor baseline).map fun cell => ⟨cell, coveredBy baseline cell, cell ∉ cellsFor candidate⟩

/-- How a message names the windows of a run. -/
def quickPhrase (quick : Bool) : String := if quick then "--quick" else "the full windows"

/-- `mandate_keys`. -/
def mandateKeys (report : Report) : List String :=
  sortedSet ((((report.payload.get "mandates").bind Json.asObject).getD []).map Prod.fst)

section Compare

variable (formats : Formats) (args : Args)

/-- One arm of the baseline. -/
def compareEntry (candidate : Report) (id : String) (baselineArm : Json) : ArmEntry :=
  let mandate := (baselineArm.get "mandate").bind Json.asStr
  match candidate.arms.lookup id with
  | none =>
    ⟨id, mandate, true, ⟨["the arm is in the baseline and absent from the candidate"], [], [], []⟩⟩
  | some candidateArm =>
    ⟨id, mandate, false, compareArm formats args.tolerances baselineArm candidateArm⟩

/-- The differences of two reports that can be compared. -/
def diffOf (baseline candidate : Report) : Diff :=
  let arms := baseline.arms.sorted.map fun (id, arm) => compareEntry formats args candidate id arm
  let cells := compareCells baseline candidate
  { claimGaps := arms.flatMap fun arm => arm.changes.gaps
    arms
    newArms := (candidate.arms.sorted.map Prod.fst).filter fun id =>
      (baseline.arms.lookup id).isNone
    cells
    regressions :=
      ((arms.filter fun arm => arm.changes.regressions ≠ []).map fun arm =>
        ⟨some arm.id, arm.changes.regressions⟩) ++
      ((cells.filter CellEntry.regression).map fun cell =>
        ⟨none, ["the coverage cell '" ++ cell.cell ++ "' was exercised by " ++
          ", ".intercalate cell.coveredBy ++ " and is exercised by no arm now"]⟩) ++
      ((mandateKeys baseline).filter fun mandate => mandate ∉ mandateKeys candidate).map
        fun mandate =>
        ⟨none, ["the mandate " ++ mandate ++ " is in the baseline and not in the candidate"]⟩
    valueDrifts := (arms.filter fun arm => arm.changes.drifts ≠ []).map fun arm =>
      ⟨some arm.id, arm.changes.drifts⟩ }

/-- `compare`: the differences, or why there can be none. -/
def compare (baselinePath candidatePath : String) (baselineSource candidateSource : ReportSource) :
    Except String Diff := do
  let baseline ← loadReport formats "baseline" baselinePath baselineSource
  let candidate ← loadReport formats "candidate" candidatePath candidateSource
  let tolerances := [("count", args.tolerances.count), ("window", args.tolerances.window),
    ("delivery", args.tolerances.delivery), ("value", args.tolerances.value)]
  match tolerances.find? fun entry => entry.2 < 0 with
  | some (name, _) => .error ("--" ++ name ++ "-tolerance must not be negative")
  | none =>
    if baseline.quick ≠ candidate.quick then
      .error ("the baseline was recorded with " ++ quickPhrase baseline.quick ++
        " and the candidate with " ++
        quickPhrase candidate.quick ++
        ", so their sample counts and windows measure different sets; " ++
        "record the candidate the same way as the baseline")
    else
      let problems := cellProblems "baseline" baseline ++ cellProblems "candidate" candidate
      if problems ≠ [] then .error ("; ".intercalate problems)
      else pure (diffOf formats args baseline candidate)

/-- `EXIT_OK`. -/
def exitOk : Nat := 0

/-- `EXIT_UNCOMPARABLE`. -/
def exitUncomparable : Nat := 2

/-- `EXIT_COVERAGE_REGRESSION`. -/
def exitCoverageRegression : Nat := 4

/-- `EXIT_VALUE_DRIFT`. -/
def exitValueDrift : Nat := 5

/-- The exit code of a comparison that was made. -/
def exitCode (diff : Diff) : Nat :=
  if diff.regressions ≠ [] then exitCoverageRegression
  else if diff.valueDrifts ≠ [] ∧ args.failOnValueDrift = true then exitValueDrift
  else exitOk

/-- `run`: its exit code. `jsonOut` is whether the diff was to be written and whether that
worked. -/
def run (baselinePath candidatePath : String) (baselineSource candidateSource : ReportSource)
    (jsonOut : Option Bool) : Nat :=
  match compare formats args baselinePath candidatePath baselineSource candidateSource with
  | .error _ => exitUncomparable
  | .ok diff => if jsonOut = some false then exitUncomparable else exitCode args diff

end Compare

/-! ## What the verdict says -/

/-- Every cell of the report's arms is well formed. -/
def WellFormedCells (report : Report) : Prop :=
  ∀ id arm, report.arms.lookup id = some arm → ∀ cell ∈ armCells arm, cellProblem cell = none

/-- The tolerances the tool accepts. -/
structure Tolerances.Accepted (tolerances : Tolerances) : Prop where
  count : 0 ≤ tolerances.count
  window : 0 ≤ tolerances.window
  delivery : 0 ≤ tolerances.delivery
  value : 0 ≤ tolerances.value

/-- The candidate covers less than the baseline. -/
inductive CoverageLost (tolerances : Tolerances) (baseline candidate : Report) : Prop where
  | armAbsent {id : String} {arm : Json} (h : baseline.arms.lookup id = some arm)
      (habsent : candidate.arms.lookup id = none)
  | arm {id : String} {arm arm' : Json} (h : baseline.arms.lookup id = some arm)
      (h' : candidate.arms.lookup id = some arm') (hlost : ArmLost tolerances arm arm')
  | cell {id cell : String} {arm : Json} (h : baseline.arms.lookup id = some arm)
    (hcell : cell ∈ armCells arm)
      (hnone : ∀ id' arm', candidate.arms.lookup id' = some arm' → cell ∉ armCells arm')
  | mandate {key : String} (h : key ∈ mandateKeys baseline) (habsent : key ∉ mandateKeys candidate)

/-- A statistic of an arm that both reports have moved past the value tolerance. -/
def ValueDrifted (tolerances : Tolerances) (baseline candidate : Report) : Prop :=
  ∃ id arm arm', baseline.arms.lookup id = some arm ∧ candidate.arms.lookup id = some arm' ∧
    ArmDrifted tolerances arm arm'

/-- The cells of a report are those of its arms. -/
theorem mem_cellsFor {report : Report} {cell : String} :
    cell ∈ cellsFor report ↔ ∃ id arm, report.arms.lookup id = some arm ∧ cell ∈ armCells arm := by
  simp only [cellsFor, mem_sortedSet, List.mem_flatMap, Prod.exists, HashMap.mem_sorted]

/-- Well-formed cells have no problems. -/
theorem cellProblems_eq_nil {role : String} {report : Report} (h : WellFormedCells report) :
    cellProblems role report = [] := by
  rw [cellProblems, List.filterMap_eq_nil_iff]
  intro cell hcell
  obtain ⟨id, arm, hlookup, hmem⟩ := mem_cellsFor.1 hcell
  rw [h id arm hlookup cell hmem]
  rfl

section Verdict

variable {formats : Formats} {args : Args} {baseline candidate : Report}

/-- With readable reports and accepted tolerances the comparison goes through. -/
theorem compare_eq_ok {baselinePath candidatePath : String}
    {baselineSource candidateSource : ReportSource}
    (htolerances : args.tolerances.Accepted)
    (hbaseline : loadReport formats "baseline" baselinePath baselineSource = .ok baseline)
    (hcandidate : loadReport formats "candidate" candidatePath candidateSource = .ok candidate)
    (hquick : baseline.quick = candidate.quick) (hcells : WellFormedCells baseline)
    (hcells' : WellFormedCells candidate) :
    compare formats args baselinePath candidatePath baselineSource candidateSource =
      .ok (diffOf formats args baseline candidate) := by
  have hcount := not_lt.2 htolerances.count
  have hwindow := not_lt.2 htolerances.window
  have hdelivery := not_lt.2 htolerances.delivery
  have hvalue := not_lt.2 htolerances.value
  simp [compare, hbaseline, hcandidate, bind, Except.bind, hcount, hwindow, hdelivery,
    hvalue, hquick, cellProblems_eq_nil hcells, cellProblems_eq_nil hcells', pure, Except.pure]

/-- **Regressions.** The differences hold a regression exactly if coverage was lost. -/
theorem diffOf_regressions (hdelivery : 0 ≤ args.tolerances.delivery)
    (hpos : ∀ id arm, baseline.arms.lookup id = some arm → NonNegative arm)
    (hbaseline : ∀ id arm, baseline.arms.lookup id = some arm → SamplesNumeric arm)
    (hcandidate : ∀ id arm, candidate.arms.lookup id = some arm → SamplesNumeric arm) :
    (diffOf formats args baseline candidate).regressions ≠ [] ↔
      CoverageLost args.tolerances baseline candidate := by
  have harm (id : String) (arm : Json) (hlookup : baseline.arms.lookup id = some arm) :
      (compareEntry formats args candidate id arm).changes.regressions ≠ [] ↔
        candidate.arms.lookup id = none ∨
          ∃ arm', candidate.arms.lookup id = some arm' ∧ ArmLost args.tolerances arm arm' := by
    rw [compareEntry]
    cases hfound : candidate.arms.lookup id with
    | none => simp
    | some arm' =>
      simp only [compareArm_regressions hdelivery (hpos id arm hlookup) (hbaseline id arm hlookup)
        (hcandidate id arm' hfound)]
      simp
  -- a regression is an arm that is missing, one that lost, or a cell that is missing
  simp only [diffOf, ne_eq, List.append_eq_nil_iff, List.map_eq_nil_iff, List.filter_eq_nil_iff,
    not_and_or, not_forall, List.mem_map, exists_prop, decide_eq_true_eq, not_not, compareCells,
    Prod.exists, HashMap.mem_sorted]
  constructor
  · rintro ((⟨entry, ⟨id, arm, hlookup, rfl⟩, hchanged⟩ | ⟨entry, ⟨cell, hcell, rfl⟩, hlost⟩) |
      ⟨key, hkey, habsent⟩)
    · rcases (harm id arm hlookup).1 hchanged with habsent | ⟨arm', hfound, hlost⟩
      · exact .armAbsent hlookup habsent
      · exact .arm hlookup hfound hlost
    · obtain ⟨id, arm, hlookup, hmem⟩ := mem_cellsFor.1 hcell
      refine .cell hlookup hmem fun id' arm' hfound hmem' => ?_
      have hnot : cell ∉ cellsFor candidate := by simpa using hlost
      exact hnot (mem_cellsFor.2 ⟨id', arm', hfound, hmem'⟩)
    · exact .mandate hkey habsent
  · intro h
    cases h with
    | @armAbsent id arm hlookup habsent =>
      exact .inl (.inl ⟨_, ⟨id, arm, hlookup, rfl⟩, (harm id arm hlookup).2 (.inl habsent)⟩)
    | @arm id arm arm' hlookup hfound hlost =>
      exact .inl (.inl ⟨_, ⟨id, arm, hlookup, rfl⟩,
        (harm id arm hlookup).2 (.inr ⟨arm', hfound, hlost⟩)⟩)
    | @cell id cell arm hlookup hmem hnone =>
      refine .inl (.inr ⟨_, ⟨cell, mem_cellsFor.2 ⟨id, arm, hlookup, hmem⟩, rfl⟩, ?_⟩)
      have hnot : cell ∉ cellsFor candidate := by
        intro hcell
        obtain ⟨id', arm', hfound, hmem'⟩ := mem_cellsFor.1 hcell
        exact hnone id' arm' hfound hmem'
      simpa using hnot
    | @mandate key hkey habsent => exact .inr ⟨key, hkey, habsent⟩

/-- **Drifts.** The differences hold a drift exactly if a statistic moved too far. -/
theorem diffOf_valueDrifts (hvalue : 0 ≤ args.tolerances.value)
    (hpos : ∀ id arm, baseline.arms.lookup id = some arm → NonNegative arm) :
    (diffOf formats args baseline candidate).valueDrifts ≠ [] ↔
      ValueDrifted args.tolerances baseline candidate := by
  have harm (id : String) (arm : Json) (hlookup : baseline.arms.lookup id = some arm) :
      (compareEntry formats args candidate id arm).changes.drifts ≠ [] ↔
        ∃ arm', candidate.arms.lookup id = some arm' ∧ ArmDrifted args.tolerances arm arm' := by
    rw [compareEntry]
    cases hfound : candidate.arms.lookup id with
    | none => simp
    | some arm' =>
      simp only [compareArm_drifts hvalue (hpos id arm hlookup)]
      simp
  simp only [diffOf, ne_eq, List.map_eq_nil_iff, List.filter_eq_nil_iff, not_forall, List.mem_map,
    exists_prop, decide_eq_true_eq, not_not, Prod.exists, HashMap.mem_sorted, ValueDrifted]
  constructor
  · rintro ⟨entry, ⟨id, arm, hlookup, rfl⟩, hchanged⟩
    obtain ⟨arm', hfound, hdrift⟩ := (harm id arm hlookup).1 hchanged
    exact ⟨id, arm, arm', hlookup, hfound, hdrift⟩
  · rintro ⟨id, arm, arm', hlookup, hfound, hdrift⟩
    exact ⟨_, ⟨id, arm, hlookup, rfl⟩, (harm id arm hlookup).2 ⟨arm', hfound, hdrift⟩⟩

end Verdict

/-- **The verdict.** For two reports that can be compared, the exit code is `4` exactly if coverage
was lost; otherwise it is `5` exactly if drifts are to fail and a statistic drifted, and else
`0`. -/
theorem verdict_iff {formats : Formats} {args : Args} {baseline candidate : Report}
    {baselinePath candidatePath : String} {baselineSource candidateSource : ReportSource}
    (htolerances : args.tolerances.Accepted)
    (hbaseline : loadReport formats "baseline" baselinePath baselineSource = .ok baseline)
    (hcandidate : loadReport formats "candidate" candidatePath candidateSource = .ok candidate)
    (hquick : baseline.quick = candidate.quick) (hcells : WellFormedCells baseline)
    (hcells' : WellFormedCells candidate)
    (hpos : ∀ id arm, baseline.arms.lookup id = some arm → NonNegative arm)
    (hsamples : ∀ id arm, baseline.arms.lookup id = some arm → SamplesNumeric arm)
    (hsamples' : ∀ id arm, candidate.arms.lookup id = some arm → SamplesNumeric arm) :
    (run formats args baselinePath candidatePath baselineSource candidateSource none = 4 ↔
        CoverageLost args.tolerances baseline candidate) ∧
      (¬ CoverageLost args.tolerances baseline candidate →
        (run formats args baselinePath candidatePath baselineSource candidateSource none = 5 ↔
          args.failOnValueDrift = true ∧ ValueDrifted args.tolerances baseline candidate) ∧
        (run formats args baselinePath candidatePath baselineSource candidateSource none ≠ 5 →
          run formats args baselinePath candidatePath baselineSource candidateSource none =
            0)) := by
  have hrun : run formats args baselinePath candidatePath baselineSource candidateSource none =
      exitCode args (diffOf formats args baseline candidate) := by
    rw [run, compare_eq_ok htolerances hbaseline hcandidate hquick hcells hcells']
    rfl
  rw [hrun, exitCode, ← diffOf_regressions htolerances.delivery hpos hsamples hsamples',
    ← diffOf_valueDrifts htolerances.value hpos]
  by_cases hlost : (diffOf formats args baseline candidate).regressions ≠ []
  · rw [if_pos hlost]
    exact ⟨iff_of_true rfl hlost, fun h => absurd hlost h⟩
  · rw [if_neg hlost]
    by_cases hdrift : (diffOf formats args baseline candidate).valueDrifts ≠ [] ∧
      args.failOnValueDrift = true
    · rw [if_pos hdrift]
      exact ⟨iff_of_false (by decide) hlost,
        fun _ => ⟨iff_of_true rfl hdrift.symm, fun h => absurd rfl h⟩⟩
    · rw [if_neg hdrift]
      exact ⟨iff_of_false (by decide) hlost,
        fun _ => ⟨iff_of_false (by decide) fun h => hdrift h.symm, fun _ => rfl⟩⟩

/-! ## A report and itself -/

/-- A report that is loaded is loaded in any role. -/
theorem loadReport_role {formats : Formats} {role path : String} {source : ReportSource}
    {report : Report}
    (role' : String) (h : loadReport formats role path source = .ok report) :
    loadReport formats role' path source = .ok report := by
  cases source with
  | absent => simp [loadReport] at h
  | unreadable error => simp [loadReport] at h
  | parsed payload =>
    simp only [loadReport] at h ⊢
    split_ifs at h ⊢ with hobject
    split at h
    · simp at h
    · split_ifs at h ⊢ with hversion
      split at h
      · simp at h
      · simp at h
      · exact h

/-- Comparing a report with itself reports nothing, for any arm, cell or mandate. -/
structure ShowsNothing (formats : Formats) (args : Args) (path : String) (source : ReportSource) :
    Prop where
  diff : ∃ diff, compare formats args path path source source = .ok diff ∧ diff.regressions = [] ∧
    diff.valueDrifts = [] ∧ (∀ arm ∈ diff.arms, arm.changes.Quiet) ∧
    ∀ cell ∈ diff.cells, cell.regression = false
  exit : run formats args path path source source none = 0

/-- A report compared with itself changes nothing if its arms do not. -/
theorem diffOf_self_quiet {formats : Formats} {args : Args} {report : Report}
    (h : ∀ arm ∈ (diffOf formats args report report).arms, arm.changes.Quiet) :
    (diffOf formats args report report).regressions = [] ∧
      (diffOf formats args report report).valueDrifts = [] ∧
      ∀ cell ∈ (diffOf formats args report report).cells, cell.regression = false := by
  have hcells : ∀ cell ∈ (diffOf formats args report report).cells, cell.regression = false := by
    intro entry hentry
    obtain ⟨cell, hcell, rfl⟩ := List.mem_map.1 hentry
    simpa using hcell
  refine ⟨?_, ?_, hcells⟩
  · simp only [diffOf, List.append_eq_nil_iff, List.map_eq_nil_iff, List.filter_eq_nil_iff,
      decide_eq_true_eq, not_not]
    refine ⟨⟨fun arm harm => (h arm harm).regressions, fun cell hcell => ?_⟩, fun _ hkey => hkey⟩
    rw [hcells cell hcell]
    exact Bool.false_ne_true
  · simp only [diffOf, List.map_eq_nil_iff, List.filter_eq_nil_iff, decide_eq_true_eq, not_not]
    exact fun arm harm => (h arm harm).drifts

/-- **A report and itself.** For every accepted tolerance, comparing a report with itself shows
nothing and exits with `0` exactly if the count tolerance is positive or every number compared with
it, on a lane that is not idle, is zero, and likewise for the windows. -/
theorem self_comparison_iff {formats : Formats} {args : Args} {path : String}
    {source : ReportSource}
    {report : Report} (htolerances : args.tolerances.Accepted)
    (hload : loadReport formats "baseline" path source = .ok report)
    (hcells : WellFormedCells report) :
    ShowsNothing formats args path source ↔
      (0 < args.tolerances.count ∨ ∀ id arm, report.arms.lookup id = some arm → CountsAtZero arm) ∧
        (0 < args.tolerances.window ∨ ∀ id arm, report.arms.lookup id = some arm →
          WindowsAtZero arm) := by
  have hok := compare_eq_ok htolerances hload (loadReport_role "candidate" hload) rfl hcells hcells
  have harms : (∀ arm ∈ (diffOf formats args report report).arms, arm.changes.Quiet) ↔
      ∀ id arm, report.arms.lookup id = some arm →
        (0 < args.tolerances.count ∨ CountsAtZero arm) ∧
          (0 < args.tolerances.window ∨ WindowsAtZero arm) := by
    simp only [diffOf, List.mem_map, Prod.exists, HashMap.mem_sorted, forall_exists_index, and_imp]
    constructor
    · intro h id arm hlookup
      have hquiet := h _ id arm hlookup rfl
      simp only [compareEntry, hlookup] at hquiet
      exact compareArm_self.1 hquiet
    · rintro h _ id arm hlookup rfl
      simp only [compareEntry, hlookup]
      exact compareArm_self.2 (h id arm hlookup)
  have hshows : ShowsNothing formats args path source ↔
      ∀ arm ∈ (diffOf formats args report report).arms, arm.changes.Quiet := by
    constructor
    · rintro ⟨⟨diff, hdiff, -, -, hquiet, -⟩, -⟩
      rw [hok, Except.ok.injEq] at hdiff
      rw [hdiff]
      exact hquiet
    · intro hquiet
      obtain ⟨hregressions, hdrifts, hcells⟩ := diffOf_self_quiet hquiet
      refine ⟨⟨_, hok, hregressions, hdrifts, hquiet, hcells⟩, ?_⟩
      rw [run, hok]
      simp [exitCode, hregressions, hdrifts, exitOk]
  rw [hshows, harms]
  constructor
  · intro h
    constructor
    · by_cases hcount : 0 < args.tolerances.count
      · exact .inl hcount
      · exact .inr fun id arm hlookup => (h id arm hlookup).1.resolve_left hcount
    · by_cases hwindow : 0 < args.tolerances.window
      · exact .inl hwindow
      · exact .inr fun id arm hlookup => (h id arm hlookup).2.resolve_left hwindow
  · rintro ⟨hcount, hwindow⟩ id arm hlookup
    exact ⟨hcount.imp_right fun h => h id arm hlookup, hwindow.imp_right fun h => h id arm hlookup⟩

/-! ## One arm with a sample count -/

/-- Nothing of the printed numbers. -/
def plainFormats : Formats :=
  ⟨fun _ => "", fun _ => "", fun _ => "", fun _ => "", fun _ => "", fun _ => ""⟩

/-- An arm that only counts its samples. -/
def exampleArm (samples : Int) : Json := .object [("id", .str "a"), ("sample_count", .int samples)]

/-- A report of that arm alone. -/
def examplePayload (samples : Int) : Json :=
  .object [("schema", .str "mandate-check/3"), ("arms", .array [exampleArm samples])]

/-- The report of one arm with this sample count and nothing else. -/
def exampleReport (path : String) (samples : Int) : Report :=
  ⟨path, examplePayload samples, (∅ : HashMap String Json).insert "a" (exampleArm samples)⟩

theorem loadReport_example (role path : String) (samples : Int) :
    loadReport plainFormats role path (.parsed (examplePayload samples)) =
      .ok (exampleReport path samples) :=
  rfl

theorem lookup_example {path id : String} {samples : Int} {arm : Json}
    (h : (exampleReport path samples).arms.lookup id = some arm) :
    id = "a" ∧ arm = exampleArm samples := by
  rw [exampleReport, HashMap.lookup_insert_eq] at h
  split_ifs at h with hid
  · exact ⟨hid, (Option.some.inj h).symm⟩
  · simp at h

theorem quantity_example (samples : Int) (group key : String) :
    quantity (exampleArm samples) group key = none := by
  have hget : (exampleArm samples).get group = none ∨
      (exampleArm samples).get group = some (.str "a") ∨
      (exampleArm samples).get group = some (.int samples) := by
    simp only [exampleArm, Json.get, Json.asObject, Option.bind_some, List.lookup_cons,
      List.lookup_nil]
    split
    · exact .inr (.inl rfl)
    · split
      · exact .inr (.inr rfl)
      · exact .inl rfl
  rcases hget with hget | hget | hget
  all_goals
    rw [quantity, hget]
    rfl

theorem wellFormedCells_example (path : String) (samples : Int) :
    WellFormedCells (exampleReport path samples) := by
  intro id arm hlookup cell hcell
  obtain ⟨-, rfl⟩ := lookup_example hlookup
  simp [exampleArm, armCells, Json.get, Json.asObject, List.lookup_cons] at hcell

theorem sampleCount_example (samples : Int) :
    sampleCount (exampleArm samples) = some ⟨true, samples⟩ := rfl

/-- Tolerances of a half for counts and values. -/
def halfTolerances : Tolerances := ⟨1 / 2, 1 / 100, 0, 1 / 2⟩

theorem lookup_example_self (path : String) (samples : Int) :
    (exampleReport path samples).arms.lookup "a" = some (exampleArm samples) := by
  rw [exampleReport, HashMap.lookup_insert_eq, if_pos rfl]

theorem samplesNumeric_example {path id : String} {samples : Int} {arm : Json}
    (h : (exampleReport path samples).arms.lookup id = some arm) : SamplesNumeric arm := by
  obtain ⟨-, rfl⟩ := lookup_example h
  intro json hjson
  have hint : json = .int samples := (Option.some.inj hjson).symm
  rw [hint]
  exact .inl rfl

theorem nonNegative_example {path id : String} {samples : Int} {arm : Json} (hsamples : 0 ≤ samples)
    (h : (exampleReport path samples).arms.lookup id = some arm) : NonNegative arm := by
  obtain ⟨-, rfl⟩ := lookup_example h
  refine ⟨fun number hnumber => ?_, ?_, ?_, ?_⟩
  · rw [sampleCount_example, Option.some.injEq] at hnumber
    rw [← hnumber]
    exact Int.cast_nonneg hsamples
  all_goals simp [quantity_example]

/-- A sample count that falls from four to two is lost coverage at a tolerance of a half. -/
theorem verdict_halved_samples :
    run plainFormats ⟨halfTolerances, false⟩ "b" "c" (.parsed (examplePayload 4))
      (.parsed (examplePayload 2))
      none = 4 := by
  have htolerances : halfTolerances.Accepted :=
    ⟨by decide +kernel, by decide +kernel, by decide +kernel, by decide +kernel⟩
  have hquick : (exampleReport "b" 4).quick = (exampleReport "c" 2).quick := by decide +kernel
  have hfell : Fell halfTolerances.count 4 (some 2) := by
    intro value hvalue
    rw [← Option.some.inj hvalue]
    decide +kernel
  have hlost : ArmLost halfTolerances (exampleArm 4) (exampleArm 2) :=
    .count (.samples (sampleCount_example 4)) (by simpa [sampleCount_example] using hfell)
  exact (verdict_iff htolerances (loadReport_example "baseline" "b" 4)
    (loadReport_example "candidate" "c" 2)
    hquick (wellFormedCells_example "b" 4) (wellFormedCells_example "c" 2)
    (fun _ _ => nonNegative_example (by decide)) (fun _ _ => samplesNumeric_example)
    fun _ _ => samplesNumeric_example).1.2
    (.arm (lookup_example_self "b" 4) (lookup_example_self "c" 2) hlost)

/-- The report with a sample count of four shows nothing against itself at a tolerance of a half. -/
theorem self_comparison_half :
    ShowsNothing plainFormats ⟨halfTolerances, true⟩ "b" (.parsed (examplePayload 4)) := by
  have htolerances : halfTolerances.Accepted :=
    ⟨by decide +kernel, by decide +kernel, by decide +kernel, by decide +kernel⟩
  exact (self_comparison_iff htolerances (loadReport_example "baseline" "b" 4)
    (wellFormedCells_example "b" 4)).2
    ⟨.inl (by decide +kernel), .inl (by decide +kernel)⟩

/-- **No tolerance.** At a tolerance of zero the same report has lost coverage against itself. -/
theorem self_comparison_exact :
    run plainFormats ⟨⟨0, 0, 0, 0⟩, false⟩ "b" "b" (.parsed (examplePayload 4))
      (.parsed (examplePayload 4))
        none = 4 ∧
      ¬ ShowsNothing plainFormats ⟨⟨0, 0, 0, 0⟩, false⟩ "b" (.parsed (examplePayload 4)) := by
  have hfour : run plainFormats ⟨⟨0, 0, 0, 0⟩, false⟩ "b" "b" (.parsed (examplePayload 4))
      (.parsed (examplePayload 4)) none = 4 := by decide +kernel
  refine ⟨hfour, fun h => ?_⟩
  rw [h.exit] at hfour
  simp at hfour

end RtpMux.MandateCompare
