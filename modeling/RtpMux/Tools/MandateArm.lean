import Mathlib.Algebra.Order.Field.Basic
import Mathlib.Tactic.Linarith
import RtpMux.Tools.MandateReport

/-!
# The comparison of one arm

What the cells of an arm claim decides how its counters are compared, and each quantity is then
compared on its own: counters and windows against a relative fall, statistics against a relative
change, the delivery ratio against an absolute fall. A comparison ends in nothing, a move, a drift
or a regression.

Each comparison has a lemma that says when it is a regression (`counter_regression_iff`,
`stat_regression_iff`, `delivery_regression_iff`) and one that says when comparing a value with
itself shows nothing (`compareCounter_self`): a counter needs a positive tolerance for that, or a
zero.
-/

namespace RtpMux.MandateCompare

/-- `COVERAGE_COUNTER_KEYS`. -/
def coverageCounterKeys : List String :=
  ["sent", "received", "wire_bytes", "bulk_wire_bytes", "bulk_sink_bytes", "offered_bytes",
    "delivered_bytes", "forwarded_bytes"]

/-- `COVERAGE_WINDOW_KEYS`. -/
def coverageWindowKeys : List String := ["window_seconds", "elapsed_seconds"]

/-- `COVERAGE_WALL_KEYS`. -/
def coverageWallKeys : List String := ["wall_seconds"]

/-- `VALUE_STAT_KEYS`. -/
def valueStatKeys : List String :=
  ["p50", "p90", "p99", "p999", "max", "min", "mean", "std", "over250", "fraction", "share",
    "imbalance",
    "min_share", "max_share", "ideal_share", "delivered_mib_s", "shaper_mib_s", "capacity_mib_s"]

/-- `floor_bytes`: the measured floor of a counter. -/
def floorBytes (key : String) : Nat :=
  ([("bulk_wire_bytes", 65536), ("bulk_sink_bytes", 65536)].lookup key).getD 0

/-- `counter_lane`: the lane a counter measures, where it is not the arm's own. -/
def counterLane (key : String) : Option String :=
  [("bulk_wire_bytes", "bulk"), ("bulk_sink_bytes", "bulk")].lookup key

/-! ## Claims -/

/-- What an arm says about its own tolerance. -/
inductive Claim where
  | claimed
  | idle
  | unstated
deriving DecidableEq

/-- How the claims of an arm's cells combine. -/
def claimPrecedence : List Claim := [.claimed, .unstated, .idle]

/-- The dimensions among the parts of a cell, added to those before; none if one is stated twice. -/
def dimensionsFrom (named : HashMap String String) :
    List (List Char) → Option (HashMap String String)
  | [] => some named
  | part :: parts => do
    let (name, value) ← parseDimensionPart part
    if (named.lookup (String.ofList name)).isSome then none
    else dimensionsFrom (named.insert (String.ofList name) (String.ofList value)) parts

/-- `cell_dimensions`: `dimension -> value` of a cell. -/
def cellDimensions (cell : String) : Option (HashMap String String) := do
  let (_, dimensions) ← Text.splitOnce '@' cell.toList
  dimensionsFrom ∅ (dimensions.splitOn '+')

/-- `cell_claim`: how a cell speaks about the lane that `key` measures. -/
def cellClaim (cell key : String) : Claim × String :=
  match cellDimensions cell with
  | none => (.unstated, "the cell states no readable dimension (or states one twice)")
  | some dimensions =>
    let named := dimensions.lookup "lane"
    match counterLane key with
    | none =>
      match named with
      | none => (.unstated, "the cell names no lane dimension")
      | some named => (.claimed, "the cell names the arm's own lane (lane=" ++ named ++ ")")
    | some lane =>
      if named = some lane then
        (.claimed, "the cell names the counter's lane as the arm's own (lane=" ++ lane ++ ")")
      else
        let declared := ["load", "bulk"].filterMap fun name =>
          (dimensions.lookup name).map fun value => (name, value)
        match declared.find? fun entry => entry.2 ≠ "none" with
        | some (name, value) =>
          (.claimed, "the cell offers a workload on the " ++ lane ++ " lane (" ++ name ++ "=" ++
            value ++ ")")
        | none =>
          match declared.head?, named with
          | some (name, value), _ =>
            (.idle, "the cell declares the " ++ lane ++ " lane idle (" ++ name ++ "=" ++
              value ++ ")")
          | none, none =>
            (.unstated, "the cell names neither the " ++ lane ++ " lane nor a load on it")
          | none, some named =>
            (.unstated, "the cell names lane=" ++ named ++ " and no load on the " ++ lane ++
              " lane")

/-- The cells an arm declares. -/
def armCells (arm : Json) : List String :=
  (((arm.get "cells").bind Json.asArray).getD []).filterMap Json.asStr

/-- `arm_claim`: what an arm's cells together say about `key`, why, and whether they leave a gap.
The precedence has every claim in it, so the last case is not reached. -/
def armClaim (arm : Json) (key : String) : Claim × String × Bool :=
  if armCells arm = [] then (.unstated, "the arm declares no coverage cell", true)
  else
    let claims := (armCells arm).map fun cell => cellClaim cell key
    match claimPrecedence.findSome? fun wanted => claims.find? fun claim => claim.1 = wanted with
    | some (claim, why) => (claim, why, claim = .unstated)
    | none => (.unstated, "", true)

/-- `decided_by`: what the verdict of an unstated pair rests on. -/
def decidedBy (key : String) (baseline : Scalar) : String :=
  if floorBytes key = 0 then "no-floor"
  else if baseline.number.any fun (value : ℚ) => value < floorBytes key then "floor"
  else "tolerance"

/-! ## One quantity -/

/-- What a comparison of two values finds. -/
inductive Outcome where
  | regression
  | drift
  | moved
deriving DecidableEq

section Compare

variable (formats : Formats)

/-- What the candidate measured, a null left out. -/
def measured (candidate : Option Scalar) : Option Scalar :=
  candidate.filter fun value => !value matches .null

/-- A change as it is printed behind the two values. -/
def changeText (change : Option ℚ) : String :=
  (change.map fun change => " (" ++ formats.signedPercent change ++ ")").getD ""

/-- Why the floor of a counter does not apply. -/
def claimedNote (key : String) (claim : Claim) (why : String) : String :=
  if claim = .claimed ∧ 0 < floorBytes key then
    " [the arm's cells claim the lane (" ++ why ++ "), so no floor applies]"
  else ""

/-- `compare_counter`: one counted quantity. -/
def compareCounter (key : String) (baseline : Scalar) (candidate : Option Scalar) (tolerance : ℚ)
    (claim : Claim) (floor : Nat) (why : String) : Option Outcome × String :=
  let baselineText := baseline.display formats
  let inside := claim = .unstated ∧ floor ≠ 0 ∧ baseline.number.any fun (value : ℚ) => value < floor
  if claim = .idle then
    let note := " [the arm's cells declare the lane idle (" ++ why ++ "): reported, never compared]"
    match measured candidate with
    | none => (some .moved, key ++ " " ++ baselineText ++ " -> not measured" ++ note)
    | some value =>
      if baseline.eqScalar value then (none, "")
      else
        (some .moved, key ++ " " ++ baselineText ++ " -> " ++ value.display formats ++
          changeText formats (relativeChange baseline value) ++ note)
  else
    match measured candidate with
    | none =>
      if inside then
        (some .moved, key ++ " " ++ baselineText ++
          " -> not measured [the arm's cells leave the lane unstated (" ++ why ++
          "), and the baseline sits inside the measured " ++ toString floor ++
          "-byte floor: absent, not a regression]")
      else (some .regression, key ++ " " ++ baselineText ++ " -> not measured")
    | some value =>
      let pair := key ++ " " ++ baselineText ++ " -> " ++ value.display formats
      match relativeChange baseline value with
      | none => if baseline.eqScalar value then (none, "") else (some .moved, pair)
      | some change =>
        if change ≤ -tolerance then
          let past := pair ++ " (" ++ formats.signedPercent change ++ "), past the " ++
            formats.tolerancePercent tolerance ++ " tolerance"
          if inside then
            (some .moved, past ++ " but inside the measured " ++ toString floor ++
              "-byte floor, which applies because the arm's cells leave the lane unstated (" ++
                why ++
              "): reported, not a regression")
          else
            (some .regression, past ++ claimedNote key claim why)
        else if !baseline.eqScalar value then
          (some .moved, pair ++ " (" ++ formats.signedPercent change ++ ")")
        else (none, "")

/-- `compare_stat`: one statistic. -/
def compareStat (key : String) (baseline : Scalar) (candidate : Option Scalar) (tolerance : ℚ) :
    Option Outcome × String :=
  let baselineText := baseline.display formats
  match measured candidate with
  | none => (some .regression, key ++ " " ++ baselineText ++ " -> not measured")
  | some value =>
    if baseline.eqScalar value then (none, "")
    else
      let change := relativeChange baseline value
      let text := key ++ " " ++ baselineText ++ " -> " ++ value.display formats ++
          changeText formats change
      if change.any fun change => tolerance < |change| then
        (some .drift, text ++ " [past the " ++ formats.tolerancePercent tolerance ++
          " value tolerance]")
      else (some .moved, text)

/-- `compare_delivery`: the delivery ratio. -/
def compareDelivery (baseline : Scalar) (candidate : Option Scalar) (tolerance : ℚ) :
    Option Outcome × String :=
  let baselineText := baseline.display formats
  match measured candidate with
  | none => (some .regression, "delivery " ++ baselineText ++ " -> not measured")
  | some value =>
    if baseline.eqScalar value then (none, "")
    else
      let change := value.number.getD 0 - baseline.number.getD 0
      let text := "delivery " ++ baselineText ++ " -> " ++ value.display formats ++ " (" ++
        formats.signedFixed change ++ ")"
      if change < -tolerance then
        (some .regression, text ++ ", past the " ++ formats.fixed tolerance ++
          " delivery tolerance")
      else (some .moved, text)

end Compare

/-! ## One arm -/

/-- A counter whose lane the arm's cells leave unstated. -/
structure Gap where
  arm : String
  key : String
  baseline : Scalar
  cells : List String
  why : String
  floorBytes : Nat
  decidedBy : String

/-- What comparing an arm with its baseline has found. -/
structure ArmChanges where
  regressions : List String
  drifts : List String
  moves : List String
  gaps : List Gap

/-- Changes collected one after the other. -/
def ArmChanges.all (parts : List ArmChanges) : ArmChanges :=
  ⟨parts.flatMap regressions, parts.flatMap drifts, parts.flatMap moves, parts.flatMap gaps⟩

/-- `record`: the text of a comparison in the list of its outcome. -/
def record : Option Outcome × String → ArmChanges
  | (none, _) => ⟨[], [], [], []⟩
  | (some .regression, text) => ⟨[text], [], [], []⟩
  | (some .drift, text) => ⟨[], [text], [], []⟩
  | (some .moved, text) => ⟨[], [], [text], []⟩

/-- The tolerances of the command line. -/
structure Tolerances where
  count : ℚ
  window : ℚ
  delivery : ℚ
  value : ℚ

section CompareArm

variable (formats : Formats) (tolerances : Tolerances) (baselineArm candidateArm : Json)

/-- A member that is there and not null, as a scalar. -/
def scalarValue (value : Option Json) : Option Scalar :=
  (value.filter fun value => !value matches .null).map (Scalar.fromJson formats)

/-- The sample counts of the two arms. -/
def compareSamples : ArmChanges :=
  match scalarValue formats (baselineArm.get "sample_count") with
  | none => ⟨[], [], [], []⟩
  | some samples =>
    record (compareCounter formats "sample_count" samples
      (scalarValue formats (candidateArm.get "sample_count")) tolerances.count .claimed 0 "")

/-- One of the counters whose lane the cells decide on. -/
def compareLaneCounter (key : String) : ArmChanges :=
  match numbers formats (baselineArm.get "counters") key with
  | none => ⟨[], [], [], []⟩
  | some value =>
    let (claim, why, gap) := armClaim baselineArm key
    let floor := if claim = .unstated then floorBytes key else 0
    let gaps : List Gap :=
      if gap then
        [⟨((baselineArm.get "id").bind Json.asStr).getD "", key, value, armCells baselineArm, why,
          floorBytes key, decidedBy key value⟩]
      else []
    { record (compareCounter formats key value (numbers formats (candidateArm.get "counters") key)
        tolerances.count claim floor why) with gaps }

/-- One of the windows, with the tolerance it has. -/
def compareWindow (tolerance : ℚ) (key : String) : ArmChanges :=
  match numbers formats (baselineArm.get "windows") key with
  | none => ⟨[], [], [], []⟩
  | some value =>
    record (compareCounter formats key value (numbers formats (candidateArm.get "windows") key)
      tolerance
      .claimed 0 "")

/-- One statistic of the two arms. -/
def compareStatistic (key : String) : ArmChanges :=
  match numbers formats (baselineArm.get "stats") key with
  | none => ⟨[], [], [], []⟩
  | some value =>
    record (compareStat formats key value (numbers formats (candidateArm.get "stats") key)
      tolerances.value)

/-- The delivery ratio of the two arms. -/
def compareRatio : ArmChanges :=
  match numbers formats (baselineArm.get "stats") "delivery" with
  | none => ⟨[], [], [], []⟩
  | some value =>
    record (compareDelivery formats value (numbers formats (candidateArm.get "stats") "delivery")
      tolerances.delivery)

/-- `compare_arm`: the changes of an arm that both reports have. -/
def compareArm : ArmChanges :=
  .all ([compareSamples formats tolerances baselineArm candidateArm] ++
    coverageCounterKeys.map (compareLaneCounter formats tolerances baselineArm candidateArm) ++
    coverageWindowKeys.map (compareWindow formats baselineArm candidateArm tolerances.window) ++
    coverageWallKeys.map (compareWindow formats baselineArm candidateArm tolerances.count) ++
    valueStatKeys.map (compareStatistic formats tolerances baselineArm candidateArm) ++
    [compareRatio formats tolerances baselineArm candidateArm])

end CompareArm

/-! ## The numbers behind the comparisons -/

/-- A JSON number. -/
def asNum : Json → Option Num
  | .int n => some ⟨true, n⟩
  | .float x => some ⟨false, x⟩
  | _ => none

/-- The sample count of an arm. -/
def sampleCount (arm : Json) : Option Num := (arm.get "sample_count").bind asNum

/-- A number in one of the groups of an arm: its counters, windows or statistics. -/
def quantity (arm : Json) (group key : String) : Option Num :=
  ((arm.get group).bind (Json.get · key)).bind asNum

/-- A quantity of an arm, read as a number. -/
theorem numbers_eq (formats : Formats) (arm : Json) (group key : String) :
    numbers formats (arm.get group) key = (quantity arm group key).map Scalar.num := by
  rw [numbers, quantity]
  cases (arm.get group).bind (Json.get · key) with
  | none => rfl
  | some json => cases json <;> rfl

/-- The sample count of an arm is a number, null or absent. -/
def SamplesNumeric (arm : Json) : Prop :=
  ∀ json, arm.get "sample_count" = some json → json.isNumber = true ∨ json matches .null

theorem SamplesNumeric.scalarValue {arm : Json} (h : SamplesNumeric arm) (formats : Formats) :
    scalarValue formats (arm.get "sample_count") = (sampleCount arm).map Scalar.num := by
  rw [MandateCompare.scalarValue, sampleCount]
  cases hjson : arm.get "sample_count" with
  | none => rfl
  | some json =>
    have hkind := h json hjson
    cases json with
    | null => rfl
    | int n => rfl
    | float x => rfl
    | bool | str | array | object => simp [Json.isNumber] at hkind

@[simp] theorem measured_num (candidate : Option Num) :
    measured (candidate.map Scalar.num) = candidate.map Scalar.num := by
  cases candidate <;> rfl

/-! ## Regressions and drifts -/

/-- A number is not measured any more, or fell to `1 - tolerance` of a positive baseline. -/
def Fell (tolerance baseline : ℚ) (candidate : Option ℚ) : Prop :=
  ∀ value, candidate = some value → 0 < baseline ∧ value ≤ (1 - tolerance) * baseline

/-- A relative fall of at least the tolerance. -/
theorem fall_iff {old new tolerance : ℚ} (hold : 0 < old) :
    (new - old) / old ≤ -tolerance ↔ new ≤ (1 - tolerance) * old := by
  rw [div_le_iff₀ hold]
  constructor
  · intro h
    linarith
  · intro h
    linarith

theorem relativeChange_zero {baseline : Num} (h : baseline.value = 0) (candidate : Scalar) :
    relativeChange (.num baseline) candidate = none := by
  simp [relativeChange, Scalar.number, h]

/-- The relative change of a number that is not zero. -/
theorem relativeChange_num {baseline : Num} (h : baseline.value ≠ 0) (candidate : Num) :
    relativeChange (.num baseline) (.num candidate) =
      some ((candidate.value - baseline.value) / baseline.value) := by
  simp [relativeChange, Scalar.number, h]

/-- **Counters.** A counter is a regression exactly if its lane is not idle, it is not inside the
floor of an unstated lane, and it fell. -/
theorem counter_regression_iff {formats : Formats} {key : String} {baseline : Num}
    {candidate : Option Num}
    {tolerance : ℚ} {claim : Claim} {floor : Nat} {why : String} (hpos : 0 ≤ baseline.value) :
    (compareCounter formats key (.num baseline) (candidate.map Scalar.num) tolerance claim floor
      why).1 =
        some .regression ↔
      claim ≠ .idle ∧ ¬ (claim = .unstated ∧ floor ≠ 0 ∧ baseline.value < floor) ∧
        Fell tolerance baseline.value (candidate.map Num.value) := by
  simp only [compareCounter, measured_num, Scalar.number, Option.any_some, decide_eq_true_eq]
  by_cases hidle : claim = .idle
  · rw [if_pos hidle]
    cases candidate with
    | none => simp [hidle]
    | some value =>
      simp only [Option.map_some]
      split_ifs <;> simp [hidle]
  · rw [if_neg hidle]
    cases candidate with
    | none =>
      simp only [Option.map_none, Fell]
      split_ifs with hinside
      · simp [hinside]
      · simp [hidle, hinside]
    | some value =>
      simp only [Option.map_some, Fell]
      by_cases hzero : baseline.value = 0
      · simp only [relativeChange_zero hzero]
        split_ifs <;> simp [hzero]
      · have hlt : 0 < baseline.value := lt_of_le_of_ne hpos (Ne.symm hzero)
        simp only [relativeChange_num hzero]
        split_ifs with hfall hinside
        all_goals rw [fall_iff hlt] at hfall
        · simp [hinside]
        · simp [hidle, hinside, hfall, hlt]
        · simp [hfall]
        · simp [hfall]

theorem eqScalar_num {left right : Num} :
    (Scalar.num left).eqScalar (Scalar.num right) = true ↔ left.value = right.value := by
  simp [Scalar.eqScalar]

/-- A counter never drifts. -/
theorem counter_ne_drift {formats : Formats} {key : String} {baseline : Scalar}
    {candidate : Option Scalar}
    {tolerance : ℚ} {claim : Claim} {floor : Nat} {why : String} :
    (compareCounter formats key baseline candidate tolerance claim floor why).1 ≠ some .drift := by
  simp only [compareCounter]
  split
  · split
    · simp
    · split <;> simp
  · split
    · split <;> simp
    · split
      · split <;> simp
      · split
        · split <;> simp
        · split <;> simp

/-- **Statistics.** A statistic is a regression exactly if it is not measured any more. -/
theorem stat_regression_iff {formats : Formats} {key : String} {baseline : Num}
    {candidate : Option Num}
    {tolerance : ℚ} :
    (compareStat formats key (.num baseline) (candidate.map Scalar.num) tolerance).1 =
      some .regression ↔
      candidate.map Num.value = none := by
  simp only [compareStat, measured_num]
  cases candidate with
  | none => simp
  | some value =>
    simp only [Option.map_some]
    split_ifs <;> simp

/-- The candidate's value is further from a positive baseline than `tolerance` of it. -/
def Drifted (tolerance baseline : ℚ) (candidate : Option ℚ) : Prop :=
  ∃ value, candidate = some value ∧ 0 < baseline ∧ tolerance * baseline < |value - baseline|

/-- A statistic drifts if it moves by the tolerance or more. -/
theorem stat_drift_iff {formats : Formats} {key : String} {baseline : Num} {candidate : Option Num}
    {tolerance : ℚ} (hpos : 0 ≤ baseline.value) (htolerance : 0 ≤ tolerance) :
    (compareStat formats key (.num baseline) (candidate.map Scalar.num) tolerance).1 = some .drift ↔
      Drifted tolerance baseline.value (candidate.map Num.value) := by
  simp only [compareStat, measured_num]
  cases candidate with
  | none => simp [Drifted]
  | some value =>
    simp only [Option.map_some, Drifted, Option.some.injEq, exists_eq_left']
    by_cases hzero : baseline.value = 0
    · simp only [relativeChange_zero hzero, Option.any_none, Bool.false_eq_true, if_false]
      split_ifs <;> simp [hzero]
    · have hlt : 0 < baseline.value := lt_of_le_of_ne hpos (Ne.symm hzero)
      have hdrift : tolerance < |(value.value - baseline.value) / baseline.value| ↔
          tolerance * baseline.value < |value.value - baseline.value| := by
        rw [abs_div, abs_of_pos hlt, lt_div_iff₀ hlt]
      simp only [relativeChange_num hzero, Option.any_some, decide_eq_true_eq]
      split_ifs with heq hpast
      · -- an equal value is within every tolerance
        rw [eqScalar_num] at heq
        simp only [heq, sub_self, abs_zero, false_iff, not_and, not_lt]
        intro _
        rw [← heq]
        exact mul_nonneg htolerance hpos
      · simp [hlt, hdrift.1 hpast]
      · rw [hdrift] at hpast
        simp [hpast]

/-- **Delivery.** The delivery ratio is a regression exactly if it is not measured any more or lower
by more than the tolerance. -/
theorem delivery_regression_iff {formats : Formats} {baseline : Num} {candidate : Option Num}
    {tolerance : ℚ} (htolerance : 0 ≤ tolerance) :
    (compareDelivery formats (.num baseline) (candidate.map Scalar.num) tolerance).1 =
      some .regression ↔
      ∀ value, candidate.map Num.value = some value → value < baseline.value - tolerance := by
  simp only [compareDelivery, measured_num]
  cases candidate with
  | none => simp
  | some value =>
    simp only [Option.map_some, Scalar.number, Option.getD_some, Option.some.injEq, forall_eq']
    split_ifs with heq hfall
    · rw [eqScalar_num] at heq
      rw [heq]
      simp only [false_iff, not_lt]
      linarith
    · have hless : value.value < baseline.value - tolerance := by linarith
      simp [hfall, hless]
    · have hnot : ¬ value.value < baseline.value - tolerance := by linarith
      simp [hfall, hnot]

/-- The delivery never drifts. -/
theorem delivery_ne_drift {formats : Formats} {baseline : Scalar} {candidate : Option Scalar}
    {tolerance : ℚ} :
    (compareDelivery formats baseline candidate tolerance).1 ≠ some .drift := by
  simp only [compareDelivery]
  split
  · simp
  · split_ifs <;> simp

/-! ## A value and itself -/

theorem num_ne_null (number : Num) : Scalar.num number ≠ .null := nofun

theorem measured_self {value : Scalar} (h : value ≠ .null) :
    measured (some value) = some value := by
  cases value with
  | null => exact absurd rfl h
  | num n => rfl
  | text string => rfl

/-- **A counter and itself.** Nothing is reported exactly if the lane is idle, the tolerance is
positive or the value is not a number other than zero. -/
theorem compareCounter_self {formats : Formats} {key : String} {value : Scalar} {tolerance : ℚ}
    {claim : Claim} {floor : Nat} {why : String} (hvalue : value ≠ .null) :
    (compareCounter formats key value (some value) tolerance claim floor why).1 = none ↔
      claim = .idle ∨ 0 < tolerance ∨ ∀ x, value.number = some x → x = 0 := by
  simp only [compareCounter, measured_self hvalue, Scalar.eqScalar_self]
  by_cases hidle : claim = .idle
  · simp [hidle]
  · rw [if_neg hidle]
    cases value with
    | null => exact absurd rfl hvalue
    | text string => simp [relativeChange, Scalar.number]
    | num n =>
      by_cases hzero : n.value = 0
      · simp [relativeChange_zero hzero, Scalar.number, hzero]
      · have hpast : (0 : ℚ) ≤ -tolerance ↔ ¬ 0 < tolerance := by
          rw [not_lt]
          constructor
          · intro h
            linarith
          · intro h
            linarith
        simp only [relativeChange_num hzero, sub_self, zero_div, Scalar.number, Option.some.injEq,
          forall_eq', hzero, or_false, hidle, false_or]
        by_cases htight : 0 < tolerance
        · simp [hpast, htight]
        · rw [if_pos (hpast.2 htight)]
          simp only [Option.any_some, decide_eq_true_eq]
          by_cases hinside : claim = .unstated ∧ floor ≠ 0 ∧ n.value < floor
          · rw [if_pos hinside]
            simp [htight]
          · rw [if_neg hinside]
            simp [htight]

/-- A statistic compared with itself is no change. -/
theorem compareStat_self {formats : Formats} {key : String} {value : Scalar} {tolerance : ℚ}
    (hvalue : value ≠ .null) :
    compareStat formats key value (some value) tolerance = (none, "") := by
  simp [compareStat, measured_self hvalue]

/-- A delivery compared with itself is no change. -/
theorem compareDelivery_self {formats : Formats} {value : Scalar} {tolerance : ℚ}
    (hvalue : value ≠ .null) :
    compareDelivery formats value (some value) tolerance = (none, "") := by
  simp [compareDelivery, measured_self hvalue]

/-! ## What the cells claim -/

/-- Some cell of the arm claims the lane of the counter. -/
def Claims (arm : Json) (key : String) : Prop :=
  ∃ cell ∈ armCells arm, (cellClaim cell key).1 = .claimed

/-- No cell claims the lane, and not every one declares it idle. -/
def LeavesUnstated (arm : Json) (key : String) : Prop :=
  ¬ Claims arm key ∧ (armCells arm = [] ∨ ∃ cell ∈ armCells arm, (cellClaim cell key).1 = .unstated)

theorem find_claim_eq_none {claims : List (Claim × String)} {wanted : Claim} :
    claims.find? (fun claim => claim.1 = wanted) = none ↔ ∀ claim ∈ claims, claim.1 ≠ wanted := by
  simp [List.find?_eq_none]

/-- **The precedence of claims.** An arm's claim is a claim that one of its cells makes, then a
silent one, and idle only where every cell is. -/
theorem armClaim_cases (arm : Json) (key : String) :
    (Claims arm key ∧ (armClaim arm key).1 = .claimed) ∨
      (LeavesUnstated arm key ∧ (armClaim arm key).1 = .unstated) ∨
      (¬ Claims arm key ∧ ¬ LeavesUnstated arm key ∧ (armClaim arm key).1 = .idle) := by
  by_cases hcells : armCells arm = []
  · refine .inr (.inl ⟨⟨?_, .inl hcells⟩, by simp [armClaim, hcells]⟩)
    simp [Claims, hcells]
  · have hclaims {wanted : Claim} : ((armCells arm).map fun cell => cellClaim cell key).find?
        (fun claim => claim.1 = wanted) = none ↔ ¬ ∃ cell ∈ armCells arm, (cellClaim cell key).1 =
          wanted := by
      rw [find_claim_eq_none]
      simp
    have hfound {wanted : Claim} {claim : Claim × String}
        (h : ((armCells arm).map fun cell => cellClaim cell key).find?
          (fun claim => claim.1 = wanted) =
          some claim) : claim.1 = wanted ∧ ∃ cell ∈ armCells arm, (cellClaim cell key).1 =
            wanted := by
      have hwanted : claim.1 = wanted := by simpa using List.find?_some h
      obtain ⟨cell, hcell, hclaim⟩ := List.mem_map.1 (List.mem_of_find?_eq_some h)
      exact ⟨hwanted, cell, hcell, by rw [hclaim]; exact hwanted⟩
    simp only [armClaim, if_neg hcells, claimPrecedence, List.findSome?_cons, List.findSome?_nil]
    cases h₁ : ((armCells arm).map fun cell => cellClaim cell key).find?
      (fun claim => claim.1 = .claimed) with
    | some claim =>
      obtain ⟨hclaim, hcell⟩ := hfound h₁
      exact .inl ⟨hcell, hclaim⟩
    | none =>
      have hnot : ¬ Claims arm key := hclaims.1 h₁
      cases h₂ : ((armCells arm).map fun cell => cellClaim cell key).find?
          (fun claim => claim.1 = .unstated) with
      | some claim =>
        obtain ⟨hclaim, hcell⟩ := hfound h₂
        exact .inr (.inl ⟨⟨hnot, .inr hcell⟩, hclaim⟩)
      | none =>
        have hsilent := hclaims.1 h₂
        have hunstated : ¬ LeavesUnstated arm key := fun h => h.2.elim hcells hsilent
        cases h₃ : ((armCells arm).map fun cell => cellClaim cell key).find?
            (fun claim => claim.1 = .idle) with
        | some claim =>
          obtain ⟨hclaim, -⟩ := hfound h₃
          exact .inr (.inr ⟨hnot, hunstated, hclaim⟩)
        | none =>
          -- every cell makes one of the three claims
          obtain ⟨cell, hcell⟩ := List.exists_mem_of_ne_nil _ hcells
          cases hclaim : (cellClaim cell key).1 with
          | claimed => exact absurd ⟨cell, hcell, hclaim⟩ hnot
          | unstated => exact absurd ⟨cell, hcell, hclaim⟩ hsilent
          | idle => exact absurd ⟨cell, hcell, hclaim⟩ (hclaims.1 h₃)

/-- A counter is load-bearing: its lane is claimed, or unstated with a baseline not below the
floor. -/
def LoadBearing (arm : Json) (key : String) (baseline : ℚ) : Prop :=
  Claims arm key ∨ LeavesUnstated arm key ∧ (floorBytes key : ℚ) ≤ baseline

/-- A counter bears load if its claim is not idle, and, unstated, its baseline reaches the floor. -/
theorem loadBearing_iff {arm : Json} {key : String} {baseline : ℚ} (hpos : 0 ≤ baseline) :
    LoadBearing arm key baseline ↔ (armClaim arm key).1 ≠ .idle ∧
      ¬ ((armClaim arm key).1 = .unstated ∧
        (if (armClaim arm key).1 = .unstated then floorBytes key else 0) ≠ 0 ∧
        baseline < ((if (armClaim arm key).1 = .unstated then floorBytes key else 0 : Nat) :
          ℚ)) := by
  rcases armClaim_cases arm key with ⟨hclaims, hclaim⟩ | ⟨hunstated, hclaim⟩ | ⟨hclaims,
      hunstated, hclaim⟩
  · simp [LoadBearing, hclaims, hclaim]
  · have hnot : ¬ Claims arm key := hunstated.1
    simp only [LoadBearing, hnot, hunstated, hclaim, true_and, false_or, if_true, ne_eq,
      reduceCtorEq,
      not_false_eq_true, not_and, not_lt]
    constructor
    · intro h _
      exact h
    · intro h
      by_cases hzero : floorBytes key = 0
      · rw [hzero]
        exact_mod_cast hpos
      · exact h hzero
  · simp [LoadBearing, hclaims, hunstated, hclaim]

/-! ## What the comparison of an arm shows -/

section ArmLost

variable (tolerances : Tolerances) (baselineArm candidateArm : Json)

/-- A baseline number that is compared with the count tolerance, and what the candidate measured. -/
inductive Counted : ℚ → Option ℚ → Prop where
  | samples {baseline : Num} (h : sampleCount baselineArm = some baseline) :
      Counted baseline.value ((sampleCount candidateArm).map Num.value)
  | wall {baseline : Num} {key : String} (hkey : key ∈ coverageWallKeys)
      (h : quantity baselineArm "windows" key = some baseline) :
      Counted baseline.value ((quantity candidateArm "windows" key).map Num.value)
  | counter {baseline : Num} {key : String} (hkey : key ∈ coverageCounterKeys)
      (h : quantity baselineArm "counters" key = some baseline)
      (hbearing : LoadBearing baselineArm key baseline.value) :
      Counted baseline.value ((quantity candidateArm "counters" key).map Num.value)

/-- An arm that both reports have covers less than it did. -/
inductive ArmLost : Prop where
  | count {baseline : ℚ} {candidate : Option ℚ}
    (h : Counted baselineArm candidateArm baseline candidate)
      (hfell : Fell tolerances.count baseline candidate)
  | window {baseline : Num} {key : String} (hkey : key ∈ coverageWindowKeys)
      (h : quantity baselineArm "windows" key = some baseline)
      (hfell : Fell tolerances.window baseline.value
        ((quantity candidateArm "windows" key).map Num.value))
  | statistic {baseline : Num} {key : String} (hkey : key ∈ valueStatKeys)
      (h : quantity baselineArm "stats" key = some baseline)
      (hlost : quantity candidateArm "stats" key = none)
  | delivery {baseline : Num} (h : quantity baselineArm "stats" "delivery" = some baseline)
      (hlost : ∀ candidate, quantity candidateArm "stats" "delivery" = some candidate →
        candidate.value < baseline.value - tolerances.delivery)

/-- A statistic of an arm that both reports have moved past the value tolerance. -/
def ArmDrifted : Prop :=
  ∃ key ∈ valueStatKeys, ∃ baseline, quantity baselineArm "stats" key = some baseline ∧
    Drifted tolerances.value baseline.value ((quantity candidateArm "stats" key).map Num.value)

/-- The compared quantities of an arm are not negative. -/
structure NonNegative (arm : Json) : Prop where
  samples : ∀ number, sampleCount arm = some number → 0 ≤ number.value
  counters : ∀ key ∈ coverageCounterKeys, ∀ number, quantity arm "counters" key = some number →
    0 ≤ number.value
  windows : ∀ key ∈ coverageWindowKeys ++ coverageWallKeys, ∀ number,
    quantity arm "windows" key = some number → 0 ≤ number.value
  stats : ∀ key ∈ valueStatKeys, ∀ number, quantity arm "stats" key = some number → 0 ≤ number.value

end ArmLost

/-- A comparison is recorded as a regression if it is one. -/
theorem record_regressions {comparison : Option Outcome × String} :
    (record comparison).regressions ≠ [] ↔ comparison.1 = some .regression := by
  obtain ⟨outcome, text⟩ := comparison
  cases outcome with
  | none => simp [record]
  | some outcome => cases outcome <;> simp [record]

/-- A comparison is recorded as a drift if it is one. -/
theorem record_drifts {comparison : Option Outcome × String} :
    (record comparison).drifts ≠ [] ↔ comparison.1 = some .drift := by
  obtain ⟨outcome, text⟩ := comparison
  cases outcome with
  | none => simp [record]
  | some outcome => cases outcome <;> simp [record]

section Parts

variable {formats : Formats} {tolerances : Tolerances} {baselineArm candidateArm : Json}

/-- When the sample count regresses. -/
theorem compareSamples_regressions (hpos : NonNegative baselineArm)
    (hbaseline : SamplesNumeric baselineArm)
    (hcandidate : SamplesNumeric candidateArm) :
    (compareSamples formats tolerances baselineArm candidateArm).regressions ≠ [] ↔
      ∃ baseline, sampleCount baselineArm = some baseline ∧
        Fell tolerances.count baseline.value ((sampleCount candidateArm).map Num.value) := by
  rw [compareSamples, hbaseline.scalarValue, hcandidate.scalarValue]
  cases hnumber : sampleCount baselineArm with
  | none => simp
  | some baseline =>
    simp only [Option.map_some, record_regressions, counter_regression_iff (hpos.samples _ hnumber),
      Option.some.injEq, exists_eq_left']
    simp

/-- When a counter regresses. -/
theorem compareLaneCounter_regressions (hpos : NonNegative baselineArm) {key : String}
    (hkey : key ∈ coverageCounterKeys) :
    (compareLaneCounter formats tolerances baselineArm candidateArm key).regressions ≠ [] ↔
      ∃ baseline, quantity baselineArm "counters" key = some baseline ∧
        LoadBearing baselineArm key baseline.value ∧
        Fell tolerances.count baseline.value
          ((quantity candidateArm "counters" key).map Num.value) := by
  rw [compareLaneCounter, numbers_eq, numbers_eq]
  cases hnumber : quantity baselineArm "counters" key with
  | none => simp
  | some baseline =>
    have hnonneg := hpos.counters key hkey _ hnumber
    simp only [Option.map_some, record_regressions, counter_regression_iff hnonneg,
      Option.some.injEq, exists_eq_left', loadBearing_iff hnonneg, and_assoc]

/-- When a window regresses. -/
theorem compareWindow_regressions (hpos : NonNegative baselineArm) {tolerance : ℚ} {key : String}
    (hkey : key ∈ coverageWindowKeys ++ coverageWallKeys) :
    (compareWindow formats baselineArm candidateArm tolerance key).regressions ≠ [] ↔
      ∃ baseline, quantity baselineArm "windows" key = some baseline ∧
        Fell tolerance baseline.value ((quantity candidateArm "windows" key).map Num.value) := by
  rw [compareWindow, numbers_eq, numbers_eq]
  cases hnumber : quantity baselineArm "windows" key with
  | none => simp
  | some baseline =>
    simp only [Option.map_some, record_regressions,
      counter_regression_iff (hpos.windows key hkey _ hnumber), Option.some.injEq, exists_eq_left']
    simp

/-- When a statistic regresses. -/
theorem compareStatistic_regressions {key : String} :
    (compareStatistic formats tolerances baselineArm candidateArm key).regressions ≠ [] ↔
      ∃ baseline, quantity baselineArm "stats" key = some baseline ∧
        quantity candidateArm "stats" key = none := by
  rw [compareStatistic, numbers_eq, numbers_eq]
  cases quantity baselineArm "stats" key with
  | none => simp
  | some baseline =>
    simp only [Option.map_some, record_regressions, stat_regression_iff, Option.map_eq_none_iff,
      Option.some.injEq, exists_eq_left']

/-- When the delivery regresses. -/
theorem compareRatio_regressions (htolerance : 0 ≤ tolerances.delivery) :
    (compareRatio formats tolerances baselineArm candidateArm).regressions ≠ [] ↔
      ∃ baseline, quantity baselineArm "stats" "delivery" = some baseline ∧
        ∀ candidate, quantity candidateArm "stats" "delivery" = some candidate →
          candidate.value < baseline.value - tolerances.delivery := by
  rw [compareRatio, numbers_eq, numbers_eq]
  cases quantity baselineArm "stats" "delivery" with
  | none => simp
  | some baseline =>
    simp only [Option.map_some, record_regressions, delivery_regression_iff htolerance,
      Option.some.injEq, exists_eq_left', Option.map_eq_some_iff]
    constructor
    · intro h candidate hcandidate
      exact h _ ⟨candidate, hcandidate, rfl⟩
    · rintro h _ ⟨candidate, hcandidate, rfl⟩
      exact h candidate hcandidate

/-- **Regressions of an arm.** The comparison of an arm shows a regression exactly if it covers
less. -/
theorem compareArm_regressions (htolerance : 0 ≤ tolerances.delivery)
    (hpos : NonNegative baselineArm)
    (hbaseline : SamplesNumeric baselineArm) (hcandidate : SamplesNumeric candidateArm) :
    (compareArm formats tolerances baselineArm candidateArm).regressions ≠ [] ↔
      ArmLost tolerances baselineArm candidateArm := by
  simp only [compareArm, ArmChanges.all, ne_eq, List.flatMap_eq_nil_iff, not_forall, exists_prop,
    List.mem_append, List.mem_singleton, List.mem_map, or_and_right, exists_or, exists_eq_left,
    exists_exists_and_eq_and]
  constructor
  · rintro (((((h | ⟨key, hkey, h⟩) | ⟨key, hkey, h⟩) | ⟨key, hkey, h⟩) | ⟨key, hkey, h⟩) | h)
    · obtain ⟨b, hb, hfell⟩ := (compareSamples_regressions hpos hbaseline hcandidate).1 h
      exact .count (.samples hb) hfell
    · obtain ⟨b, hb, hbearing, hfell⟩ := (compareLaneCounter_regressions hpos hkey).1 h
      exact .count (.counter hkey hb hbearing) hfell
    · obtain ⟨b, hb, hfell⟩ := (compareWindow_regressions hpos (List.mem_append_left _ hkey)).1 h
      exact .window hkey hb hfell
    · obtain ⟨b, hb, hfell⟩ := (compareWindow_regressions hpos (List.mem_append_right _ hkey)).1 h
      exact .count (.wall hkey hb) hfell
    · obtain ⟨b, hb, hlost⟩ := compareStatistic_regressions.1 h
      exact .statistic hkey hb hlost
    · obtain ⟨b, hb, hlost⟩ := (compareRatio_regressions htolerance).1 h
      exact .delivery hb hlost
  · intro h
    cases h with
    | count h hfell =>
      cases h with
      | samples hb =>
        exact .inl
          (.inl
          (.inl
          (.inl (.inl ((compareSamples_regressions hpos hbaseline hcandidate).2 ⟨_, hb, hfell⟩)))))
      | wall hkey hb =>
        exact .inl (.inl (.inr
          ⟨_, hkey, (compareWindow_regressions hpos (List.mem_append_right _ hkey)).2 ⟨_, hb,
            hfell⟩⟩))
      | counter hkey hb hbearing =>
        exact .inl (.inl (.inl (.inl (.inr
          ⟨_, hkey, (compareLaneCounter_regressions hpos hkey).2 ⟨_, hb, hbearing, hfell⟩⟩))))
    | window hkey hb hfell =>
      exact .inl (.inl (.inl (.inr
        ⟨_, hkey, (compareWindow_regressions hpos (List.mem_append_left _ hkey)).2 ⟨_, hb,
          hfell⟩⟩)))
    | statistic hkey hb hlost =>
      exact .inl (.inr ⟨_, hkey, compareStatistic_regressions.2 ⟨_, hb, hlost⟩⟩)
    | delivery hb hlost => exact .inr ((compareRatio_regressions htolerance).2 ⟨_, hb, hlost⟩)

theorem counter_drifts {key : String} {baseline : Scalar} {candidate : Option Scalar}
    {tolerance : ℚ}
    {claim : Claim} {floor : Nat} {why : String} :
    (record (compareCounter formats key baseline candidate tolerance claim floor why)).drifts =
      [] := by
  by_contra h
  exact counter_ne_drift (record_drifts.1 h)

theorem compareSamples_drifts :
    (compareSamples formats tolerances baselineArm candidateArm).drifts = [] := by
  rw [compareSamples]
  split
  · rfl
  · exact counter_drifts

theorem compareLaneCounter_drifts {key : String} :
    (compareLaneCounter formats tolerances baselineArm candidateArm key).drifts = [] := by
  rw [compareLaneCounter]
  split
  · rfl
  · exact counter_drifts

theorem compareWindow_drifts {tolerance : ℚ} {key : String} :
    (compareWindow formats baselineArm candidateArm tolerance key).drifts = [] := by
  rw [compareWindow]
  split
  · rfl
  · exact counter_drifts

theorem compareRatio_drifts :
    (compareRatio formats tolerances baselineArm candidateArm).drifts = [] := by
  rw [compareRatio]
  split
  · rfl
  · by_contra h
    exact delivery_ne_drift (record_drifts.1 h)

/-- When a statistic drifts. -/
theorem compareStatistic_drifts (htolerance : 0 ≤ tolerances.value) (hpos : NonNegative baselineArm)
    {key : String} (hkey : key ∈ valueStatKeys) :
    (compareStatistic formats tolerances baselineArm candidateArm key).drifts ≠ [] ↔
      ∃ baseline, quantity baselineArm "stats" key = some baseline ∧
        Drifted tolerances.value baseline.value
          ((quantity candidateArm "stats" key).map Num.value) := by
  rw [compareStatistic, numbers_eq, numbers_eq]
  cases hnumber : quantity baselineArm "stats" key with
  | none => simp
  | some baseline =>
    simp only [Option.map_some, record_drifts,
      stat_drift_iff (hpos.stats key hkey _ hnumber) htolerance,
      Option.some.injEq, exists_eq_left']

/-- **Drifts of an arm.** The comparison of an arm shows a drift exactly if a statistic moved too
far. -/
theorem compareArm_drifts (htolerance : 0 ≤ tolerances.value) (hpos : NonNegative baselineArm) :
    (compareArm formats tolerances baselineArm candidateArm).drifts ≠ [] ↔
      ArmDrifted tolerances baselineArm candidateArm := by
  simp only [compareArm, ArmChanges.all, ne_eq, List.flatMap_eq_nil_iff, not_forall, exists_prop,
    List.mem_append, List.mem_singleton, List.mem_map, or_and_right, exists_or, exists_eq_left,
    exists_exists_and_eq_and]
  simp only [compareSamples_drifts, compareLaneCounter_drifts, compareWindow_drifts,
    compareRatio_drifts,
    not_true_eq_false, and_false, exists_false, or_false, false_or, ArmDrifted]
  exact exists_congr fun key => and_congr_right fun hkey =>
    compareStatistic_drifts htolerance hpos hkey

end Parts

/-! ## An arm and itself -/

/-- Nothing is reported. -/
structure ArmChanges.Quiet (changes : ArmChanges) : Prop where
  regressions : changes.regressions = []
  drifts : changes.drifts = []
  moves : changes.moves = []

/-- A comparison is quiet if it has no outcome. -/
theorem record_quiet_iff {comparison : Option Outcome × String} :
    (record comparison).Quiet ↔ comparison.1 = none := by
  obtain ⟨outcome, text⟩ := comparison
  constructor
  · rintro ⟨hregressions, hdrifts, hmoves⟩
    cases outcome with
    | none => rfl
    | some outcome => cases outcome <;> simp [record] at hregressions hdrifts hmoves
  · intro h
    subst h
    exact ⟨rfl, rfl, rfl⟩

/-- The changes of an arm are quiet if all their parts are. -/
theorem quiet_all_iff {parts : List ArmChanges} :
    (ArmChanges.all parts).Quiet ↔ ∀ part ∈ parts, part.Quiet := by
  constructor
  · rintro ⟨hregressions, hdrifts, hmoves⟩ part hpart
    exact ⟨List.flatMap_eq_nil_iff.1 hregressions part hpart,
      List.flatMap_eq_nil_iff.1 hdrifts part hpart,
      List.flatMap_eq_nil_iff.1 hmoves part hpart⟩
  · intro h
    exact ⟨List.flatMap_eq_nil_iff.2 fun part hpart => (h part hpart).regressions,
      List.flatMap_eq_nil_iff.2 fun part hpart => (h part hpart).drifts,
      List.flatMap_eq_nil_iff.2 fun part hpart => (h part hpart).moves⟩

theorem quiet_nothing : ArmChanges.Quiet ⟨[], [], [], []⟩ := ⟨rfl, rfl, rfl⟩

/-- The numbers of an arm that are compared with the count tolerance, on a lane that is not idle,
are zero. -/
structure CountsAtZero (arm : Json) : Prop where
  samples : ∀ number, sampleCount arm = some number → number.value = 0
  walls : ∀ key ∈ coverageWallKeys, ∀ number, quantity arm "windows" key = some number →
    number.value = 0
  counters : ∀ key ∈ coverageCounterKeys, ∀ number, quantity arm "counters" key = some number →
    Claims arm key ∨ LeavesUnstated arm key → number.value = 0

/-- The measured windows of an arm are zero. -/
def WindowsAtZero (arm : Json) : Prop :=
  ∀ key ∈ coverageWindowKeys, ∀ number, quantity arm "windows" key = some number → number.value = 0

section Self

variable {formats : Formats} {tolerances : Tolerances} {arm : Json}

/-- A scalar that is read is not null, and its number is that of its value. -/
theorem scalarValue_number {value : Option Json} {scalar : Scalar}
    (h : scalarValue formats value = some scalar) :
    scalar ≠ .null ∧ scalar.number = (value.bind asNum).map Num.value := by
  cases value with
  | none => simp [scalarValue] at h
  | some json =>
    cases json <;> simp [scalarValue, Scalar.fromJson] at h <;> subst h <;> exact ⟨nofun, rfl⟩

theorem forall_number_iff {numbers : Option Num} :
    (∀ x, numbers.map Num.value = some x → x = 0) ↔ ∀ number, numbers = some number →
      number.value = 0 := by
  cases numbers <;> simp

/-- When the sample count, compared with itself, is quiet. -/
theorem compareSamples_self :
    (compareSamples formats tolerances arm arm).Quiet ↔
      0 < tolerances.count ∨ ∀ number, sampleCount arm = some number → number.value = 0 := by
  rw [compareSamples]
  cases hvalue : scalarValue formats (arm.get "sample_count") with
  | none =>
    refine iff_of_true quiet_nothing (.inr fun number hnumber => ?_)
    rw [sampleCount] at hnumber
    cases hjson : arm.get "sample_count" with
    | none => simp [hjson] at hnumber
    | some json =>
      rw [hjson] at hnumber hvalue
      cases json <;> simp [scalarValue, asNum] at hvalue hnumber
  | some scalar =>
    obtain ⟨hnull, hnumber⟩ := scalarValue_number hvalue
    dsimp only
    rw [record_quiet_iff, compareCounter_self hnull, hnumber, ← sampleCount, forall_number_iff]
    simp

/-- When a counter, compared with itself, is quiet. -/
theorem compareLaneCounter_self {key : String} :
    (compareLaneCounter formats tolerances arm arm key).Quiet ↔
      0 < tolerances.count ∨ ∀ number, quantity arm "counters" key = some number →
        Claims arm key ∨ LeavesUnstated arm key → number.value = 0 := by
  cases hnumber : quantity arm "counters" key with
  | none =>
    rw [compareLaneCounter, numbers_eq, hnumber]
    exact iff_of_true quiet_nothing (.inr fun _ h => nomatch h)
  | some number =>
    have hidle : (armClaim arm key).1 = .idle ↔ ¬ (Claims arm key ∨ LeavesUnstated arm key) := by
      rcases armClaim_cases arm key with ⟨h, hclaim⟩ | ⟨h, hclaim⟩ | ⟨h, h', hclaim⟩
      · simp [h, hclaim]
      · simp [h, hclaim]
      · simp [h, h', hclaim]
    -- the gaps that are noted beside the comparison are no report
    have hquiet : (compareLaneCounter formats tolerances arm arm key).Quiet ↔
        (record (compareCounter formats key (.num number) (some (.num number)) tolerances.count
          (armClaim arm key).1 (if (armClaim arm key).1 = .unstated then floorBytes key else 0)
          (armClaim arm key).2.1)).Quiet := by
      rw [compareLaneCounter, numbers_eq, hnumber]
      exact ⟨fun h => ⟨h.regressions, h.drifts, h.moves⟩,
        fun h => ⟨h.regressions, h.drifts, h.moves⟩⟩
    rw [hquiet, record_quiet_iff, compareCounter_self (num_ne_null number), hidle]
    simp only [Scalar.number, Option.some.injEq, forall_eq']
    by_cases hstated : Claims arm key ∨ LeavesUnstated arm key
    · simp [hstated]
    · simp [hstated]

/-- When a window, compared with itself, is quiet. -/
theorem compareWindow_self {tolerance : ℚ} {key : String} :
    (compareWindow formats arm arm tolerance key).Quiet ↔
      0 < tolerance ∨ ∀ number, quantity arm "windows" key = some number → number.value = 0 := by
  rw [compareWindow, numbers_eq]
  cases quantity arm "windows" key with
  | none => exact iff_of_true quiet_nothing (.inr fun _ h => nomatch h)
  | some number =>
    simp only [Option.map_some, record_quiet_iff, compareCounter_self (num_ne_null number)]
    simp [Scalar.number]

/-- A statistic, compared with itself, is quiet. -/
theorem compareStatistic_self {key : String} :
    (compareStatistic formats tolerances arm arm key).Quiet := by
  rw [compareStatistic, numbers_eq]
  cases quantity arm "stats" key with
  | none => exact quiet_nothing
  | some number =>
    simp only [Option.map_some]
    rw [compareStat_self (num_ne_null number)]
    exact quiet_nothing

/-- The delivery, compared with itself, is quiet. -/
theorem compareRatio_self : (compareRatio formats tolerances arm arm).Quiet := by
  rw [compareRatio, numbers_eq]
  cases quantity arm "stats" "delivery" with
  | none => exact quiet_nothing
  | some number =>
    simp only [Option.map_some]
    rw [compareDelivery_self (num_ne_null number)]
    exact quiet_nothing

/-- **An arm and itself.** Nothing is reported exactly if each of the two tolerances of counters is
positive or has only zeros to compare. -/
theorem compareArm_self :
    (compareArm formats tolerances arm arm).Quiet ↔
      (0 < tolerances.count ∨ CountsAtZero arm) ∧ (0 < tolerances.window ∨ WindowsAtZero arm) := by
  rw [compareArm, quiet_all_iff]
  simp only [List.mem_append, List.mem_singleton, List.mem_map, or_imp, forall_and, forall_eq,
    forall_exists_index, and_imp, forall_apply_eq_imp_iff₂]
  simp only [compareSamples_self, compareLaneCounter_self, compareWindow_self,
    compareStatistic_self,
    compareRatio_self, implies_true, and_true]
  by_cases hcount : 0 < tolerances.count
  · by_cases hwindow : 0 < tolerances.window
    · simp [hcount, hwindow]
    · simp [hcount, hwindow, WindowsAtZero]
  · simp only [hcount, false_or]
    constructor
    · rintro ⟨⟨⟨hsamples, hcounters⟩, hwindows⟩, hwalls⟩
      refine ⟨⟨hsamples, hwalls, hcounters⟩, ?_⟩
      by_cases hwindow : 0 < tolerances.window
      · exact .inl hwindow
      · exact .inr fun key hkey => by simpa [hwindow] using hwindows key hkey
    · rintro ⟨hzero, hwindows⟩
      refine ⟨⟨⟨hzero.samples, hzero.counters⟩, fun key hkey => ?_⟩, hzero.walls⟩
      exact hwindows.imp_right fun h => h key hkey

end Self

end RtpMux.MandateCompare
