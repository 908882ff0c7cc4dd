import Mathlib.Algebra.Order.Field.Rat
import Mathlib.Algebra.BigOperators.Group.List.Basic
import RtpMux.HashMap
import RtpMux.Tools.Text

/-!
# The rejection of a run that got slower

`bin/perf-history.rs` compares the readings of a run with those of the run before it, arm by arm and
metric by metric, and rejects the run when an interactive arm (`M1_ARM_KEYS`) got worse. A reading
is judged against a bound: the wider of a settled band around the old value and of the spread the
archived runs measured. Readings are exact rationals; the square root in the spread is a parameter.

The comparison writes one row per arm and metric, and the rejection filters the rows. A metric that
only one of the two runs has is a row of its own and rejects. An arm that the new run lacks
altogether is one row as well, but under the metric `*`, which is none of those that reject: a run
that stops measuring a whole interactive arm passes (`m1_rule_iff`).
-/

namespace RtpMux.PerfHistory

/-- The readings of one arm, by metric. -/
abbrev Readings := HashMap String ℚ

/-- The readings of a run, by arm. -/
abbrev Run := HashMap String Readings

/-- `LATENCY_METRICS`. -/
def latencyMetrics : List String := ["p50", "p90", "p99", "p999", "max"]

/-- `OTHER_METRICS`. -/
def otherMetrics : List String := ["over250", "delivery"]

/-- `M1_ARM_KEYS`. -/
def m1ArmKeys : List String := ["clean", "hostile", "lone_tail", "lone tail"]

/-- `M1_REJECTION_METRICS`. -/
def m1RejectionMetrics : List String := ["p50", "p90", "p99"]

/-- `MINIMUM_DELTA_MS`. -/
def minimumDeltaMs : ℚ := 5

/-- `SPREAD_SIGMA`. -/
def spreadSigma : ℚ := 4

/-- `MIN_SPREAD_SAMPLES`. -/
def minSpreadSamples : Nat := 8

/-- `str::contains` of a word. -/
def containsWord (word text : String) : Bool := decide (word.toList <:+: text.toList)

/-- `settled_band`. -/
def settledBand (metric arm : String) : ℚ :=
  let impaired := containsWord "hostile" arm || containsWord "lone" arm
  if metric ∈ ["p50", "p90", "p99"] then (if impaired then 2 / 5 else 1 / 10)
  else if metric = "p999" then (if impaired then 1 / 2 else 1 / 5)
  else if metric = "max" then 1 / 2
  else 1 / 10

/-- A metric where a fall is the degradation. -/
def worseWhenLower (metric : String) : Bool := metric = "delivery"

/-! ## The band -/

/-- One reading of the archive, with the revision of the run that produced it. -/
structure Observation where
  revision : String
  arm : String
  metric : String
  value : ℚ

/-- The spread of one arm and metric over the archived runs. -/
structure Spread where
  samples : Nat
  mean : ℚ
  sd : ℚ
  rangeMin : ℚ
  rangeMax : ℚ
  revisions : Nat

/-- The largest value that is within the spread. -/
def Spread.upper (s : Spread) : ℚ := s.mean + spreadSigma * s.sd

/-- The smallest value that is within the spread. -/
def Spread.lower (s : Spread) : ℚ := s.mean - spreadSigma * s.sd

/-- The band for one arm and metric: the settled half, and the measured one where the archive holds
enough runs. -/
structure Band where
  lowerIsWorse : Bool
  settled : ℚ
  measured : Option ℚ
  spread : Option Spread
  available : Nat

/-- The bound a worse value must cross. -/
def Band.bound (b : Band) : ℚ :=
  match b.measured with
  | none => b.settled
  | some measured => if b.lowerIsWorse then min b.settled measured else max b.settled measured

/-- Which half set the bound. -/
def Band.basis (b : Band) : String :=
  match b.measured with
  | none =>
    if b.available = 0 then "settled (no archived spread)" else "settled (insufficient spread)"
  | some measured =>
    if b.lowerIsWorse && measured ≤ b.settled then "measured"
    else if !b.lowerIsWorse && b.settled ≤ measured then "measured"
    else "settled"

variable (sqrt : ℚ → ℚ)

/-- `measured_spread`: the spread of one arm and metric, and how many readings there were. -/
def measuredSpread (observations : List Observation) (arm metric : String) : Option Spread × Nat :=
  let series := observations.filter fun o => o.arm = arm && o.metric = metric
  let available := series.length
  if available < minSpreadSamples then (none, available)
  else
    let values := (series.map (·.value)).mergeSort (· ≤ ·)
    let samples := values.length
    let mean := values.sum / samples
    let variance := (values.map fun value => (value - mean) * (value - mean)).sum / (samples - 1)
    (some ⟨samples, mean, sqrt variance, values.getD 0 0, values.getD (samples - 1) 0,
      (series.map (·.revision)).dedup.length⟩, available)

/-- `band_for`. -/
def bandFor (previous : ℚ) (metric arm : String) (observations : List Observation) : Band :=
  let lowerIsWorse := worseWhenLower metric
  let settled :=
    if lowerIsWorse then previous * (1 - settledBand metric arm)
    else previous * (1 + settledBand metric arm)
  let (spread, available) := measuredSpread sqrt observations arm metric
  let measured := spread.map fun spread => if lowerIsWorse then spread.lower else spread.upper
  ⟨lowerIsWorse, settled, measured, spread, available⟩

/-! ## The rows -/

/-- A row of the comparison. -/
structure Row where
  arm : String
  metric : String
  baseline : Option ℚ
  candidate : Option ℚ
  percent : ℚ
  bound : ℚ
  settled : ℚ
  basis : String
  spread : Option Spread
  available : Nat
  worse : Bool
  missing : Bool

/-- The row of something only one side has. -/
def missingRow (arm metric : String) (baseline candidate : Option ℚ) : Row :=
  ⟨arm, metric, baseline, candidate, 0, 0, 0, "none", none, 0, true, true⟩

/-- Whether a reading that both runs have got worse. -/
def isWorse (old new bound : ℚ) (metric : String) : Bool :=
  let floorMs := if metric ∈ latencyMetrics then minimumDeltaMs else 0
  if worseWhenLower metric then new < old && new < bound && floorMs < old - new
  else old < new && bound < new && floorMs < new - old

/-- The row of a reading that both runs have. -/
def comparedRow (arm metric : String) (old new : ℚ) (observations : List Observation) : Row :=
  let band := bandFor sqrt old metric arm observations
  let percent := if old ≠ 0 then (new - old) / |old| * 100 else 0
  ⟨arm, metric, some old, some new, percent, band.bound, band.settled, band.basis, band.spread,
    band.available, isWorse old new band.bound metric, false⟩

/-- The row of one metric of an arm that both runs have, if either has a reading. -/
def metricRow (arm : String) (base cand : Readings) (observations : List Observation)
    (metric : String) : Option Row :=
  match base.lookup metric, cand.lookup metric with
  | none, none => none
  | some old, some new => some (comparedRow sqrt arm metric old new observations)
  | old, new => some (missingRow arm metric old new)

/-- The rows of one arm of the baseline. -/
def armRows (candidate : Run) (observations : List Observation) (arm : String) (base : Readings) :
    List Row :=
  match candidate.lookup arm with
  | none => [missingRow arm "*" none none]
  | some cand =>
    (latencyMetrics ++ otherMetrics).filterMap (metricRow sqrt arm base cand observations)

/-- `metric_rows`. -/
def metricRows (baseline candidate : Run) (observations : List Observation) : List Row :=
  baseline.entries.flatMap fun entry => armRows sqrt candidate observations entry.1 entry.2

/-- The arm part of `<producer>/<arm>`. -/
def armPart (arm : String) : String :=
  match Text.splitOnce '/' arm.toList with
  | some (_, arm) => String.ofList arm
  | none => arm

/-- An arm whose tail is the interactive lane. -/
def isM1Arm (arm : String) : Bool := '/' ∉ (armPart arm).toList && armPart arm ∈ m1ArmKeys

/-- `m1_degradations`: the rows that reject the run. -/
def m1Degradations (rows : List Row) : List Row :=
  ((rows.filter fun row => row.worse).filter fun row => row.metric ∈ m1RejectionMetrics).filter
    fun row => isM1Arm row.arm

/-! ## The rule -/

/-- The new reading rose past the old one, past the bound and past the floor. -/
def Rises (observations : List Observation) (arm metric : String) (old new : ℚ) : Prop :=
  new > old ∧ new > (bandFor sqrt old metric arm observations).bound ∧ new - old > minimumDeltaMs

/-- Neither run has the reading, or both have it and it did not rise. -/
def Passes (observations : List Observation) (arm metric : String) (old new : Option ℚ) : Prop :=
  (old = none ∧ new = none) ∨
    ∃ o n, old = some o ∧ new = some n ∧ ¬ Rises sqrt observations arm metric o n

/-- The rule: every interactive arm of the baseline passes on every metric that rejects. -/
def M1Rule (baseline candidate : Run) (observations : List Observation) : Prop :=
  ∀ arm base, baseline.lookup arm = some base → isM1Arm arm = true → ∀ metric ∈ m1RejectionMetrics,
    Passes sqrt observations arm metric (base.lookup metric)
      ((candidate.lookup arm).bind fun cand => cand.lookup metric)

/-- The rule for the arms that both runs have. -/
def CommonArmsPass (baseline candidate : Run) (observations : List Observation) : Prop :=
  ∀ arm base cand, baseline.lookup arm = some base → candidate.lookup arm = some cand →
    isM1Arm arm = true → ∀ metric ∈ m1RejectionMetrics,
      Passes sqrt observations arm metric (base.lookup metric) (cand.lookup metric)

/-- An interactive arm of the baseline with a reading that could reject is in the candidate too. -/
def MeasuredArmsRemain (baseline candidate : Run) : Prop :=
  ∀ arm base, baseline.lookup arm = some base → isM1Arm arm = true →
    ∀ metric ∈ m1RejectionMetrics, (base.lookup metric).isSome → (candidate.lookup arm).isSome

theorem mem_m1Degradations {rows : List Row} {row : Row} :
    row ∈ m1Degradations rows ↔
      row ∈ rows ∧ row.worse = true ∧ row.metric ∈ m1RejectionMetrics ∧ isM1Arm row.arm = true := by
  simp only [m1Degradations, List.mem_filter, decide_eq_true_eq]
  tauto

/-- A metric that rejects is a latency, and gets worse by rising. -/
theorem isWorse_rejection {metric : String} (h : metric ∈ m1RejectionMetrics) (old new bound : ℚ) :
    isWorse old new bound metric = true ↔ old < new ∧ bound < new ∧ minimumDeltaMs < new - old := by
  have hlatency : metric ∈ latencyMetrics := by
    simp only [m1RejectionMetrics, List.mem_cons, List.not_mem_nil, or_false] at h
    rcases h with rfl | rfl | rfl <;> decide
  have hrise : worseWhenLower metric = false := by
    simp only [m1RejectionMetrics, List.mem_cons, List.not_mem_nil, or_false] at h
    rcases h with rfl | rfl | rfl <;> decide
  simp [isWorse, hlatency, hrise, and_assoc]

/-- The row of a metric is one that rejects exactly when the two readings do not pass. -/
theorem metricRow_rejects {metric : String} (hmetric : metric ∈ m1RejectionMetrics) (arm : String)
    (base cand : Readings) (observations : List Observation) :
    (∃ row ∈ metricRow sqrt arm base cand observations metric, row.worse = true) ↔
      ¬ Passes sqrt observations arm metric (base.lookup metric) (cand.lookup metric) := by
  unfold metricRow Passes
  cases base.lookup metric with
  | none =>
    cases cand.lookup metric with
    | none => simp
    | some new => simp [missingRow]
  | some old =>
    cases cand.lookup metric with
    | none => simp [missingRow]
    | some new =>
      simp only [Option.mem_def, Option.some.injEq, exists_eq_left', comparedRow,
        isWorse_rejection hmetric, Rises, reduceCtorEq, and_self, false_or, gt_iff_lt]
      push Not
      constructor
      · rintro h _ _ rfl rfl
        exact h
      · intro h
        exact h old new rfl rfl

theorem metricRow_fields {arm metric : String} {base cand : Readings}
    {observations : List Observation} {row : Row}
    (h : row ∈ metricRow sqrt arm base cand observations metric) :
    row.arm = arm ∧ row.metric = metric := by
  unfold metricRow at h
  split at h
  · simp at h
  · obtain rfl := Option.some.inj h
    exact ⟨rfl, rfl⟩
  · obtain rfl := Option.some.inj h
    exact ⟨rfl, rfl⟩

/-- **What rejects a run**: the interactive arms that both runs have. -/
theorem m1Degradations_eq_nil_iff (baseline candidate : Run) (observations : List Observation) :
    m1Degradations (metricRows sqrt baseline candidate observations) = [] ↔
      CommonArmsPass sqrt baseline candidate observations := by
  rw [List.eq_nil_iff_forall_not_mem]
  simp only [mem_m1Degradations, metricRows, List.mem_flatMap]
  constructor
  · intro h arm base cand hbase hcand harm metric hmetric
    by_contra hfail
    obtain ⟨row, hrow, hworse⟩ :=
      (metricRow_rejects sqrt hmetric arm base cand observations).2 hfail
    obtain ⟨hrowArm, hrowMetric⟩ := metricRow_fields sqrt hrow
    refine h row ⟨⟨⟨arm, base⟩, HashMap.lookup_eq_some_iff.1 hbase, ?_⟩, hworse, ?_, ?_⟩
    · simp only [armRows, hcand, List.mem_filterMap]
      refine ⟨metric, ?_, hrow⟩
      simp only [m1RejectionMetrics, List.mem_cons, List.not_mem_nil, or_false] at hmetric
      rcases hmetric with rfl | rfl | rfl <;> decide
    · rwa [hrowMetric]
    · rwa [hrowArm]
  · rintro h row ⟨⟨⟨arm, base⟩, hentry, hrow⟩, hworse, hmetric, harm⟩
    have hbase := HashMap.lookup_eq_some_iff.2 hentry
    unfold armRows at hrow
    cases hcand : candidate.lookup arm with
    | none =>
      -- the row of an absent arm has no metric that rejects
      simp only [hcand, List.mem_singleton] at hrow
      have hstar : row.metric = "*" := by rw [hrow, missingRow]
      rw [hstar] at hmetric
      exact absurd hmetric (by decide)
    | some cand =>
      simp only [hcand, List.mem_filterMap] at hrow
      obtain ⟨metric, -, hrow⟩ := hrow
      obtain ⟨rfl, rfl⟩ := metricRow_fields sqrt hrow
      exact (metricRow_rejects sqrt hmetric row.arm base cand observations).1 ⟨row, hrow, hworse⟩
        (h row.arm base cand hbase hcand harm row.metric hmetric)

/-- The rule asks for more than the rows do: a baseline arm that is gone must have had no
reading. -/
theorem m1Rule_iff (baseline candidate : Run) (observations : List Observation) :
    M1Rule sqrt baseline candidate observations ↔
      CommonArmsPass sqrt baseline candidate observations ∧
        MeasuredArmsRemain baseline candidate := by
  constructor
  · intro h
    refine ⟨fun arm base cand hbase hcand harm metric hmetric => ?_,
      fun arm base hbase harm metric hmetric hread => ?_⟩
    · simpa [hcand] using h arm base hbase harm metric hmetric
    · cases hcand : candidate.lookup arm with
      | some cand => rfl
      | none =>
        have := h arm base hbase harm metric hmetric
        obtain ⟨old, hold⟩ := Option.isSome_iff_exists.1 hread
        simp [hcand, hold, Passes] at this
  · rintro ⟨hcommon, hremain⟩ arm base hbase harm metric hmetric
    cases hcand : candidate.lookup arm with
    | some cand => simpa using hcommon arm base cand hbase hcand harm metric hmetric
    | none =>
      left
      refine ⟨?_, rfl⟩
      cases hread : base.lookup metric with
      | none => rfl
      | some old =>
        have := hremain arm base hbase harm metric hmetric (by simp [hread])
        simp [hcand] at this

/-- **The rejection rule.** The rows reject a run exactly as the rule says, if and only if no
interactive arm with a reading is gone, or an arm that both runs have rejects the run anyway. -/
theorem m1_rule_iff (baseline candidate : Run) (observations : List Observation) :
    (m1Degradations (metricRows sqrt baseline candidate observations) = [] ↔
      M1Rule sqrt baseline candidate observations) ↔
    (MeasuredArmsRemain baseline candidate ∨
      ∃ arm base cand, baseline.lookup arm = some base ∧ candidate.lookup arm = some cand ∧
        isM1Arm arm = true ∧ ∃ metric ∈ m1RejectionMetrics,
          ¬ Passes sqrt observations arm metric (base.lookup metric) (cand.lookup metric)) := by
  have hnot : (∃ arm base cand, baseline.lookup arm = some base ∧ candidate.lookup arm = some cand ∧
      isM1Arm arm = true ∧ ∃ metric ∈ m1RejectionMetrics,
        ¬ Passes sqrt observations arm metric (base.lookup metric) (cand.lookup metric)) ↔
      ¬ CommonArmsPass sqrt baseline candidate observations := by
    unfold CommonArmsPass
    push Not
    rfl
  rw [hnot, m1Degradations_eq_nil_iff, m1Rule_iff]
  by_cases h : CommonArmsPass sqrt baseline candidate observations <;> simp [h]

/-- A baseline that measures the clean arm, and a candidate that measures nothing: no rejection. -/
theorem m1_rule_misses_absent_arm :
    let baseline : Run := AList.insert "rtt/clean" (AList.insert "p99" 40 ∅) ∅
    m1Degradations (metricRows id baseline ∅ []) = [] ∧ ¬ M1Rule id baseline ∅ [] := by
  refine ⟨by rfl, fun h => ?_⟩
  have := h "rtt/clean" (AList.insert "p99" 40 ∅) (AList.lookup_insert _) (by decide +kernel) "p99"
    (by decide)
  rw [AList.lookup_insert] at this
  simp [Passes] at this

end RtpMux.PerfHistory
