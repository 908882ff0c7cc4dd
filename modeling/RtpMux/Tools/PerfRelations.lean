import RtpMux.Tools.PerfRows

/-!
# The relations of perf rows

`check_perf_relations` compares each row's label with the number of dimensions in which its cells
differ from its family's reference row, and tallies the labels. Here the body of its loop is cut in
two: `rowVerdict` decides what becomes of a row, and `relationStep` records it.

The cells of a reference row are folded into one map. A contradiction inside one cell is reported;
one between two cells is not, and the later cell wins (`relations_sound_iff`).
-/

namespace RtpMux.CheckGate

/-! ## The check -/

/-- The kinds of relation, in the order of the summary. -/
def relationOrder : List String := ["orthogonal", "composite", "re-measurement", "baseline"]

section Check

variable (rows : List PerfRow) (budgets : PerfBudgets) (baselineName : String)

/-- `reference_of`: the families that have a row of this name as their reference. -/
def referencesOf (name : String) : List (Option String) :=
  ((families budgets baselineName).filter fun entry =>
    entry.2 = name ∧ ((byName rows).lookup entry.2).isSome).map Prod.fst

/-- `base_state`: the point of a family's reference row, if there is one. -/
def baseState (family : Option String) : Option (HashMap String String) :=
  ((families budgets baselineName).lookup family).bind fun name =>
    ((byName rows).lookup name).bind fun row =>
      if rowConflicts row.cells = [] then some (rowState row.cells) else none

/-- What is wrong with the reference row of a family. -/
def referenceProblems (entry : Option String × String) : List String :=
  match (byName rows).lookup entry.2 with
  | none =>
    match entry.1 with
    | some family =>
      ["gate-budgets: baseline." ++ family ++ " names " ++ Text.reprStr entry.2 ++
        ", which is not a gate-perf-design row, so the rows stated against it are stated against nothing"]
    | none => []
  | some row =>
    if rowConflicts row.cells ≠ [] then
      ["gate-perf-design baseline row " ++ entry.2 ++
        ": its cells are not one point, so no row's relation to it can be determined (" ++
        "; ".intercalate (rowConflicts row.cells) ++
        "); state the baseline once per dimension, with one value each"]
    else []

/-- A row must not be the reference of two families. -/
def sharedProblems (name : String) : List String :=
  let references := referencesOf rows budgets baselineName name
  if references.length > 1 then
    let labels := references.map fun family =>
      match family with
      | none => "the default baseline"
      | some family => "baseline." ++ family
    ["gate-budgets: " ++ Text.reprStr name ++ " is the reference row of " ++
      ", ".intercalate labels ++
      "; a row carries one relation, so give each family its own reference row"]
  else []

/-- How a message names the baseline of a family. -/
def againstPhrase : Option String → String
  | none => "the baseline"
  | some family => "baseline " ++ Text.reprStr family

/-- What becomes of a row. -/
inductive RowVerdict where
  | problem (text : String)
  | skipped
  | counted (kind : String)

/-- A row that is the reference of its own family. -/
def referenceVerdict (row : PerfRow) (referenced : String) : RowVerdict :=
  if row.relation.any fun relation => relation.kind = "baseline" then .counted "baseline"
  else if (referencesOf rows budgets baselineName row.name).length = 1 then
    let label := relationDisplay "baseline" row.family
    match row.family with
    | none =>
      .problem ("gate-perf-design row " ++ row.name ++
        ": it is the gate-budgets baseline, so its relation is the reference every other row " ++
        "is stated against; write `" ++
        label ++ "`")
    | some family =>
      .problem ("gate-perf-design row " ++ row.name ++ ": it is the reference row of baseline." ++
        family ++ " (" ++ referenced ++
        "), so its relation is what every other row in that family is stated against; write `" ++
          label ++ "`")
  else .skipped

/-- A row labelled `baseline` that is not the reference of its family. -/
def mislabelledBaseline (row : PerfRow) (referenced wanted : String) (derived : List String) :
    String :=
  let references := referencesOf rows budgets baselineName row.name
  match row.family with
  | none =>
    if references ≠ [] then
      let only := references.head?.join
      let named := match only with
        | none => "the default baseline"
        | some family => "baseline." ++ family ++ " (" ++
            ((families budgets baselineName).lookup (some family)).getD "" ++ ")"
      "gate-perf-design row " ++ row.name ++ ": it is the reference row of " ++ named ++
        ", so its relation is what every other row in that family is stated against; write `" ++
        relationDisplay "baseline" only ++ "`"
    else
      "gate-perf-design row " ++ row.name ++ ": it is labelled `baseline`, but the baseline is " ++
        baselineName ++ "; a row's cells vary " ++ toString derived.length ++
        " dimension(s) from it, so write `" ++ wanted ++ "`"
  | some family =>
    "gate-perf-design row " ++ row.name ++ ": it is labelled `baseline@" ++ family ++
      "`, but baseline." ++ family ++ " is " ++ (budgets.named.lookup family).getD "" ++
      ", so a baseline label names only the family whose reference row the row is; its cells vary " ++
      toString derived.length ++ " dimension(s) from " ++ againstPhrase row.family ++ " " ++
        referenced ++
      ", so write `" ++ wanted ++ "`"

/-- What is wrong with the label of a row that is no reference row. -/
def labelProblem (row : PerfRow) (relation : Relation) (referenced wanted : String)
    (derived : List String) : Option String :=
  let against := againstPhrase row.family
  if derived = [] ∧ relation.kind ≠ "re-measurement" then
    some ("gate-perf-design row " ++ row.name ++
      ": its cells name no dimension that differs from " ++
      against ++ " " ++ referenced ++
      " (every dimension it names repeats the baseline's value), so it is a deliberate " ++
      "repeat and must say why; write `re-measurement(<reason>)` (e.g. a second tier or a " ++
      "stability re-run), not `" ++
      relation.kind ++ "`")
  else if derived.length = 1 ∧ relation.kind ≠ "orthogonal" then
    some ("gate-perf-design row " ++ row.name ++ ": it varies exactly one dimension from " ++
      against ++
      " (" ++ derived.headD "" ++ "), so write `" ++ relationDisplay "orthogonal" row.family ++
      "`, not `" ++ relation.kind ++ "`")
  else if derived.length > 1 ∧ relation.kind = "re-measurement" then
    some ("gate-perf-design row " ++ row.name ++
      ": it is labelled a re-measurement, but its cells vary " ++
      toString derived.length ++ " dimension(s) from " ++ against ++ " (" ++
      ", ".intercalate derived ++ "), so write `" ++ wanted ++ "`")
  else if derived.length > 1 ∧ relation.kind ≠ "composite" then
    some ("gate-perf-design row " ++ row.name ++ ": its cells vary " ++ toString derived.length ++
      " dimension(s) from " ++ against ++ " (" ++ ", ".intercalate derived ++ "), so write `" ++
        wanted ++ "`")
  else if relation.kind = "composite" ∧ relation.keys.toFinset ≠ derived.toFinset then
    some ("gate-perf-design row " ++ row.name ++ ": it is labelled composite(" ++
      ",".intercalate relation.keys ++ ")" ++ relationDisplay "" row.family ++
        ", but its cells vary " ++
      (if derived = [] then "nothing" else ", ".intercalate derived) ++
      "; name exactly the dimensions the cells vary, or fix the cells")
  else none

/-- The relation that fits the dimensions a row varies. -/
def wantedRelation (derived : List String) (family : Option String) : String :=
  relationDisplay
    (if derived.length = 1 then "orthogonal"
    else if derived ≠ [] then "composite(" ++ ",".intercalate derived ++ ")"
    else "re-measurement(<reason>)") family

/-- What becomes of a row whose family has a point, with the dimensions its cells vary. -/
def rowVerdict (row : PerfRow) (derived : List String) : RowVerdict :=
  let family := row.family
  let referenced := ((families budgets baselineName).lookup family).getD ""
  let conflicted := rowConflicts row.cells
  let wanted := wantedRelation derived family
  if conflicted ≠ [] then
    .problem ("gate-perf-design row " ++ row.name ++ ": its relation to " ++ againstPhrase family ++
      " cannot be determined (" ++ "; ".intercalate conflicted ++
      "), so the dimensions it varies are ambiguous; state each dimension once, with one " ++
      "value (split the row if it covers two points)")
  else if family ∈ referencesOf rows budgets baselineName row.name then
    referenceVerdict rows budgets baselineName row referenced
  else
    match row.relation with
    | none =>
      .problem ("gate-perf-design row " ++ row.name ++ ": it declares no relation to " ++
        againstPhrase family ++ " " ++ referenced ++ "; its cells vary " ++
          toString derived.length ++
        " dimension(s), so write `" ++ wanted ++ "`")
    | some relation =>
      if relation.kind = "baseline" then
        .problem (mislabelledBaseline rows budgets baselineName row referenced wanted derived)
      else
        match labelProblem row relation referenced wanted derived with
        | some text => .problem text
        | none => .counted relation.kind

/-- What the loop over the rows collects. -/
structure RelationLoop where
  problems : List String
  counts : HashMap String Nat
  familyCounts : HashMap (Option String) (HashMap String Nat)
  variedByRow : HashMap String (List String)

/-- A problem is put to those that the loop has. -/
def RelationLoop.problem (s : RelationLoop) (text : String) : RelationLoop :=
  { s with problems := s.problems ++ [text] }

/-- Add one to a tally. -/
def bumped (counts : HashMap String Nat) (kind : String) : HashMap String Nat :=
  counts.insert kind ((counts.lookup kind).getD 0 + 1)

/-- A relation is counted, overall and for its family. -/
def RelationLoop.bump (s : RelationLoop) (kind : String) (family : Option String) : RelationLoop :=
  { s with
    counts := bumped s.counts kind
    familyCounts := s.familyCounts.insert family
      (bumped ((s.familyCounts.lookup family).getD ∅) kind) }

/-- What the verdict on a row does. -/
def RelationLoop.record (s : RelationLoop) (family : Option String) : RowVerdict → RelationLoop
  | .problem text => s.problem text
  | .skipped => s
  | .counted kind => s.bump kind family

/-- The family that a row names and the budgets do not declare. -/
def undeclaredFamily (row : PerfRow) : Option String :=
  row.family.filter fun family => (budgets.named.lookup family).isNone

/-- One row. -/
def relationStep (s : RelationLoop) (row : PerfRow) : RelationLoop :=
  match undeclaredFamily budgets row with
  | some family =>
    s.problem ("gate-perf-design row " ++ row.name ++ ": it names the baseline family " ++
      Text.reprStr family ++ ", which gate-budgets does not declare; declare `baseline." ++
        family ++
      " = <row>` or state the row against the default baseline (" ++ baselineName ++ ")")
  | none =>
    match baseState rows budgets baselineName row.family with
    | none => s
    | some base =>
      let derived := varied base row.cells
      { s with variedByRow := s.variedByRow.insert row.name derived }.record row.family
        (rowVerdict rows budgets baselineName row derived)

/-- The loop before its first row: every kind tallied at zero. -/
def relationStart : RelationLoop :=
  ⟨[], fill (relationOrder.map fun kind => (kind, 0)), ∅, ∅⟩

/-- The loop over the rows. -/
def relationLoop : RelationLoop :=
  rows.foldl (relationStep rows budgets baselineName) relationStart

/-- A family that no row but its reference is stated against. -/
def unusedProblems (entry : Option String × String) : List String :=
  let used := rows.any fun row =>
    row.name ≠ entry.2 ∧ row.relation.any fun relation => relation.family = entry.1
  if (baseState rows budgets baselineName entry.1).isNone ∨ used then []
  else
    let label := match entry.1 with
      | none => "baseline = " ++ entry.2
      | some family => "baseline." ++ family ++ " = " ++ entry.2
    ["gate-budgets: " ++ label ++
      " is declared but no row states a relation against it; a baseline no row uses is a " ++
      "stale reference - remove the line, or state the row that belongs to the family"]

/-- The problems that `check_perf_relations` adds when the baseline names a row. -/
def relationProblems : List String :=
  (families budgets baselineName).flatMap (referenceProblems rows) ++
    (sortedSet ((families budgets baselineName).filterMap fun entry =>
      ((byName rows).lookup entry.2).map fun _ => entry.2)).flatMap
        (sharedProblems rows budgets baselineName) ++
    (relationLoop rows budgets baselineName).problems ++
    (sortFamilies (families budgets baselineName)).flatMap
      (unusedProblems rows budgets baselineName)

/-- The tallies of one map in the order of the summary. -/
def tallies (counts : HashMap String Nat) : List Nat :=
  relationOrder.map fun kind => (counts.lookup kind).getD 0

/-- `0 orthogonal, 0 composite, 0 re-measurement, 0 baseline`. -/
def talliesText (counts : HashMap String Nat) : String :=
  ", ".intercalate (relationOrder.map fun kind => toString ((counts.lookup kind).getD 0) ++
    " " ++ kind)

/-- The summary lines of `check_perf_relations`. -/
def relationSummary : List String :=
  let loop := relationLoop rows budgets baselineName
  let all := families budgets baselineName
  let totals := talliesText loop.counts
  let head :=
    if budgets.named.sorted = [] then
      ["  gate-perf-relations: " ++ totals ++ " of " ++ toString rows.length ++
        " row(s), stated against " ++ baselineName]
    else
      ("  gate-perf-relations: " ++ totals ++ " of " ++ toString rows.length ++ " row(s) across " ++
        toString all.length ++ " baseline(s)") ::
      ((sortFamilies all).filter fun entry =>
        (baseState rows budgets baselineName entry.1).isSome).map fun (family, name) =>
          let label := match family with
            | none => "default(" ++ name ++ ")"
            | some family => family ++ "(" ++ name ++ ")"
          "  gate-perf-family: " ++ label ++ " " ++
            talliesText ((loop.familyCounts.lookup family).getD ∅)
  let composites := rows.flatMap fun row =>
    match row.relation with
    | none => []
    | some relation =>
      if relation.kind = "composite" then
        let reference := match relation.family with
          | none => budgets.baseline
          | some family => budgets.named.lookup family
        ["  gate-perf-composite: " ++ row.name ++ " varies " ++
          ", ".intercalate ((loop.variedByRow.lookup row.name).getD []) ++ " against " ++
          reference.getD ""]
      else []
  head ++ composites

end Check

/-- `check_perf_relations`: the problems it adds and its summary. -/
def checkPerfRelations (rows : List PerfRow) (budgets : PerfBudgets) : List String × List String :=
  match budgets.baseline with
  | none => ([], [])
  | some baselineName =>
    if ((byName rows).lookup baselineName).isNone then ([], [])
    else (relationProblems rows budgets baselineName, relationSummary rows budgets baselineName)

/-! ## What one row shows -/

/-- The references of a name are the families that it is the reference of. -/
theorem mem_referencesOf {rows : List PerfRow} {budgets : PerfBudgets} {baselineName name : String}
    {family : Option String} :
    family ∈ referencesOf rows budgets baselineName name ↔
      (family, name) ∈ families budgets baselineName ∧
        ((byName rows).lookup name).isSome = true := by
  simp only [referencesOf, List.mem_map, List.mem_filter, decide_eq_true_eq]
  constructor
  · rintro ⟨⟨family', name'⟩, ⟨hmem, rfl, hsome⟩, rfl⟩
    exact ⟨hmem, hsome⟩
  · rintro ⟨hmem, hsome⟩
    exact ⟨(family, name), ⟨hmem, rfl, hsome⟩, rfl⟩

/-- A dimension is varied if some cell has a value that the base does not have. -/
theorem mem_varied {base : HashMap String String} {cells : List String}
    (h : rowConflicts cells = [])
    {dimension : String} :
    dimension ∈ varied base cells ↔
      ∃ value, (dimension, value) ∈ stated cells ∧ base.lookup dimension ≠ some value := by
  simp only [varied, mem_sortedSet, List.mem_flatMap, List.mem_map, List.mem_filter,
    decide_eq_true_eq]
  constructor
  · rintro ⟨cell, hcell, ⟨_, value⟩, ⟨hentry, hne⟩, rfl⟩
    exact ⟨value, (mem_states_iff h).1 (List.mem_flatMap.2 ⟨cell, hcell, hentry⟩), hne⟩
  · rintro ⟨value, hstated, hne⟩
    obtain ⟨cell, hcell, hentry⟩ := List.mem_flatMap.1 ((mem_states_iff h).2 hstated)
    exact ⟨cell, hcell, (dimension, value), ⟨hentry, hne⟩, rfl⟩

/-- The label fits the dimensions in which the row differs from its reference. -/
structure Labelled (relation : Relation) (dimensions : Finset String) : Prop where
  repeats : relation.kind = "re-measurement" ↔ dimensions.card = 0
  orthogonal : relation.kind = "orthogonal" ↔ dimensions.card = 1
  composite : relation.kind = "composite" ↔ 2 ≤ dimensions.card
  names : relation.kind = "composite" → relation.keys.toFinset = dimensions

/-- **One label.** A label without a problem fits. -/
theorem labelled_of_labelProblem {row : PerfRow} {relation : Relation} {referenced wanted : String}
    {derived : List String} (hnodup : derived.Nodup)
    (h : labelProblem row relation referenced wanted derived = none) :
    Labelled relation derived.toFinset := by
  simp only [labelProblem] at h
  split_ifs at h with h₀ h₁ h₂ h₃ h₄
  have hcard : derived.toFinset.card = derived.length := List.toFinset_card_of_nodup hnodup
  have hnil : derived = [] ↔ derived.length = 0 := List.length_eq_zero_iff.symm
  rw [hnil] at h₀
  -- of the three labels one is left for each number of dimensions
  obtain hkind | hkind | hkind : (derived.length = 0 ∧ relation.kind = "re-measurement") ∨
      (derived.length = 1 ∧ relation.kind = "orthogonal") ∨
      (1 < derived.length ∧ relation.kind = "composite") := by
    rcases Nat.lt_trichotomy derived.length 1 with hlen | hlen | hlen
    · have hzero : derived.length = 0 := by omega
      exact .inl ⟨hzero, by simpa [hzero] using h₀⟩
    · exact .inr (.inl ⟨hlen, by simpa [hlen] using h₁⟩)
    · exact .inr (.inr ⟨hlen, by simpa [hlen] using h₃⟩)
  all_goals
    constructor
    · rw [hkind.2, hcard]
      have := hkind.1
      simp only [String.reduceEq, true_iff, false_iff]
      omega
    · rw [hkind.2, hcard]
      have := hkind.1
      simp only [String.reduceEq, true_iff, false_iff]
      omega
    · rw [hkind.2, hcard]
      have := hkind.1
      simp only [String.reduceEq, true_iff, false_iff]
      omega
    · intro hcomposite
      simpa [hcomposite] using h₄

/-- A label is one of the table's. -/
theorem Labelled.kind_mem {relation : Relation} {dimensions : Finset String}
    (h : Labelled relation dimensions) : relation.kind ∈ relationOrder := by
  simp only [relationOrder, List.mem_cons]
  rcases Nat.lt_trichotomy dimensions.card 1 with hlen | hlen | hlen
  · exact .inr (.inr (.inl (h.repeats.2 (by omega))))
  · exact .inl (h.orthogonal.2 hlen)
  · exact .inr (.inl (h.composite.2 hlen))

/-- What is known of a row that is tallied. -/
def Tallied (rows : List PerfRow) (budgets : PerfBudgets) (baselineName : String) (row : PerfRow)
    (kind : String) : Prop :=
  ∃ relation base, row.relation = some relation ∧ relation.kind = kind ∧
    rowConflicts row.cells = [] ∧ baseState rows budgets baselineName relation.family = some base ∧
    ((relation.family ∈ referencesOf rows budgets baselineName row.name ∧ kind = "baseline") ∨
      (relation.family ∉ referencesOf rows budgets baselineName row.name ∧ kind ≠ "baseline" ∧
        Labelled relation (varied base row.cells).toFinset))

/-- What is tallied is one of the table's. -/
theorem Tallied.kind_mem {rows : List PerfRow} {budgets : PerfBudgets} {baselineName : String}
    {row : PerfRow} {kind : String} (h : Tallied rows budgets baselineName row kind) :
    kind ∈ relationOrder := by
  obtain ⟨relation, base, -, rfl, -, -, ⟨-, hkind⟩ | ⟨-, -, hlabel⟩⟩ := h
  · rw [hkind]
    decide
  · exact hlabel.kind_mem

/-- A row that has a base is counted under its kind. -/
theorem rowVerdict_counted {rows : List PerfRow} {budgets : PerfBudgets} {baselineName : String}
    {row : PerfRow} {base : HashMap String String} {kind : String}
    (hbase : baseState rows budgets baselineName row.family = some base)
    (h : rowVerdict rows budgets baselineName row (varied base row.cells) = .counted kind) :
    Tallied rows budgets baselineName row kind := by
  simp only [rowVerdict] at h
  split_ifs at h with hconflict href
  · -- the reference row of its own family
    simp only [referenceVerdict] at h
    split_ifs at h with hkind
    · rw [RowVerdict.counted.injEq] at h
      obtain ⟨relation, hrelation, hbaseline⟩ := (Option.any_eq_true _ _).1 hkind
      have hfamily : row.family = relation.family := by simp [PerfRow.family, hrelation]
      rw [hfamily] at hbase href
      exact ⟨relation, base, hrelation, by rw [← h]; simpa using hbaseline,
        not_not.1 hconflict, hbase,
        .inl ⟨href, h.symm⟩⟩
    · cases hf : row.family <;> simp [hf] at h
  · cases hrelation : row.relation with
    | none => simp [hrelation] at h
    | some relation =>
      have hfamily : row.family = relation.family := by simp [PerfRow.family, hrelation]
      simp only [hrelation] at h
      split_ifs at h with hkind
      rw [hfamily] at hbase href
      split at h
      · simp at h
      · rename_i hlabel
        rw [RowVerdict.counted.injEq] at h
        exact ⟨relation, base, hrelation, h, not_not.1 hconflict, hbase,
          .inr ⟨href, by rw [← h]; exact hkind,
            labelled_of_labelProblem (nodup_sortedSet _) hlabel⟩⟩

/-! ## What the loop shows -/

/-- A tally goes up by one. -/
theorem sum_tallies_bumped {counts : HashMap String Nat} {kind : String}
    (h : kind ∈ relationOrder) :
    (tallies (bumped counts kind)).sum = (tallies counts).sum + 1 := by
  simp only [relationOrder, List.mem_cons, List.not_mem_nil, or_false] at h
  rcases h with rfl | rfl | rfl | rfl
  all_goals
    simp [tallies, relationOrder, bumped, HashMap.lookup_insert_eq]
    omega

section Loop

variable {rows : List PerfRow} {budgets : PerfBudgets} {baselineName : String}

variable (rows budgets baselineName) in
/-- Every family has a reference row without contradictions inside its cells, and no row serves two
families. -/
structure CleanReferences : Prop where
  point : ∀ entry ∈ families budgets baselineName,
    ∃ row, (byName rows).lookup entry.2 = some row ∧ rowConflicts row.cells = []
  unshared : ∀ name, (referencesOf rows budgets baselineName name).length ≤ 1

/-- Without problems the references are clean. -/
theorem cleanReferences_of_problems (hbaseline : ((byName rows).lookup baselineName).isSome = true)
    (h : relationProblems rows budgets baselineName = []) :
    CleanReferences rows budgets baselineName := by
  simp only [relationProblems, List.append_eq_nil_iff, List.flatMap_eq_nil_iff, mem_sortedSet] at h
  obtain ⟨⟨⟨hreference, hshared⟩, -⟩, -⟩ := h
  have hpoint : ∀ entry ∈ families budgets baselineName,
      ∃ row, (byName rows).lookup entry.2 = some row ∧ rowConflicts row.cells = [] := by
    rintro ⟨family, name⟩ hentry
    have hnone := hreference _ hentry
    simp only [referenceProblems] at hnone
    cases hrow : (byName rows).lookup name with
    | some row =>
      refine ⟨row, rfl, ?_⟩
      simpa [hrow] using hnone
    | none =>
      cases family with
      | some family => simp [hrow] at hnone
      | none =>
        rw [mem_families_none.1 hentry] at hrow
        simp [hrow] at hbaseline
  refine ⟨hpoint, fun name => ?_⟩
  by_contra hlong
  push Not at hlong
  obtain ⟨family, hfamily⟩ := List.exists_mem_of_length_pos (Nat.lt_of_succ_lt hlong)
  obtain ⟨hmem, hsome⟩ := mem_referencesOf.1 hfamily
  have hnone := hshared name (List.mem_filterMap.2 ⟨(family, name), hmem, by
    obtain ⟨row, hrow⟩ := Option.isSome_iff_exists.1 hsome
    simp [hrow]⟩)
  simp [sharedProblems, hlong] at hnone

/-- Every family's reference has a state. -/
theorem CleanReferences.baseState (hclean : CleanReferences rows budgets baselineName)
    {family : Option String} {name : String}
    (hentry : (family, name) ∈ families budgets baselineName) :
    ∃ row, (byName rows).lookup name = some row ∧ rowConflicts row.cells = [] ∧
      CheckGate.baseState rows budgets baselineName family = some (rowState row.cells) := by
  obtain ⟨row, hrow, hconflicts⟩ := hclean.point _ hentry
  refine ⟨row, hrow, hconflicts, ?_⟩
  simp only [CheckGate.baseState, lookup_families_iff.2 hentry, Option.bind_some]
  rw [hrow, Option.bind_some, if_pos hconflicts]

/-- With clean references no row is skipped. -/
theorem CleanReferences.not_skipped (hclean : CleanReferences rows budgets baselineName)
    (row : PerfRow) (derived : List String) :
    rowVerdict rows budgets baselineName row derived ≠ .skipped := by
  simp only [rowVerdict]
  split_ifs with hconflict href
  · simp
  · have hone : (referencesOf rows budgets baselineName row.name).length = 1 :=
      Nat.le_antisymm (hclean.unshared row.name) (List.length_pos_of_mem href)
    simp only [referenceVerdict, hone, if_true]
    split_ifs
    · simp
    · cases row.family <;> simp
  · cases row.relation with
    | none => simp
    | some relation =>
      dsimp only
      split_ifs
      · simp
      · split <;> simp

/-- **One row.** When it adds no problem it is tallied. -/
theorem CleanReferences.step (hclean : CleanReferences rows budgets baselineName) {s : RelationLoop}
    {row : PerfRow} (h : (relationStep rows budgets baselineName s row).problems = []) :
    s.problems = [] ∧ ∃ kind, Tallied rows budgets baselineName row kind ∧
      (relationStep rows budgets baselineName s row).counts = bumped s.counts kind := by
  cases hundeclared : undeclaredFamily budgets row with
  | some family => simp [relationStep, hundeclared, RelationLoop.problem] at h
  | none =>
    have hentry : ∃ name, (row.family, name) ∈ families budgets baselineName := by
      cases hfamily : row.family with
      | none => exact ⟨baselineName, mem_families_none.2 rfl⟩
      | some family =>
        simp only [undeclaredFamily, hfamily, Option.filter_eq_none_iff,
          Option.some.injEq] at hundeclared
        have hnamed := hundeclared family rfl
        rw [Option.isNone_iff_eq_none, ← ne_eq, Option.ne_none_iff_exists'] at hnamed
        obtain ⟨name, hname⟩ := hnamed
        exact ⟨name, mem_families_some.2 hname⟩
    obtain ⟨name, hentry⟩ := hentry
    obtain ⟨reference, -, -, hbase⟩ := hclean.baseState hentry
    simp only [relationStep, hundeclared, hbase] at h ⊢
    cases hverdict : rowVerdict rows budgets baselineName row
      (varied (rowState reference.cells) row.cells) with
    | problem text => simp [hverdict, RelationLoop.record, RelationLoop.problem] at h
    | skipped => exact absurd hverdict (hclean.not_skipped row _)
    | counted kind =>
      rw [hverdict] at h
      exact ⟨h, kind, rowVerdict_counted hbase hverdict, rfl⟩

/-- **The loop.** When it adds no problem, every row is tallied once. -/
theorem CleanReferences.loop (hclean : CleanReferences rows budgets baselineName)
    {done : List PerfRow}
    (h : (done.foldl (relationStep rows budgets baselineName) relationStart).problems = []) :
    (∀ row ∈ done, ∃ kind, Tallied rows budgets baselineName row kind) ∧
      (tallies (done.foldl (relationStep rows budgets baselineName) relationStart).counts).sum =
        done.length := by
  induction done using List.reverseRecOn with
  | nil =>
    have hzero : (tallies relationStart.counts).sum = 0 := by decide +kernel
    exact ⟨by simp, hzero⟩
  | append_singleton done row ih =>
    rw [List.foldl_append, List.foldl_cons, List.foldl_nil] at h ⊢
    obtain ⟨hbefore, kind, htallied, hcounts⟩ := hclean.step h
    obtain ⟨hrows, hsum⟩ := ih hbefore
    constructor
    · intro row' hrow'
      rcases List.mem_append.1 hrow' with hrow' | hrow'
      · exact hrows row' hrow'
      · rw [List.mem_singleton.1 hrow']
        exact ⟨kind, htallied⟩
    · rw [hcounts, sum_tallies_bumped htallied.kind_mem, hsum, List.length_append,
        List.length_singleton]

end Loop

/-! ## What the check is for -/

/-- The dimensions in which some cell of a row states another value than the reference row. -/
def differing (cells reference : List String) : Finset String :=
  (((stated cells).filter fun entry => entry ∉ stated reference).map Prod.fst).toFinset

/-- The reference rows are points, the labels fit, and every row is in one of the four tallies. -/
structure RelationsSound (rows : List PerfRow) (budgets : PerfBudgets) (baselineName : String) :
    Prop where
  points : ∀ entry ∈ families budgets baselineName,
    ∃ row ∈ rows, row.name = entry.2 ∧ SingleValued row.cells
  labels : ∀ row ∈ rows, ∃ relation, row.relation = some relation ∧
    ∃ reference ∈ rows, (relation.family, reference.name) ∈ families budgets baselineName ∧
      (row.name ≠ reference.name → Labelled relation (differing row.cells reference.cells))
  tallied : (tallies (relationLoop rows budgets baselineName).counts).sum = rows.length

/-- Two cells give no dimension different values. -/
def Agree (cell cell' : String) : Prop :=
  ∀ dimension value value', (dimension, value) ∈ cellParts cell →
    (dimension, value') ∈ cellParts cell' →
    value = value'

instance : Std.Symm Agree where
  symm _ _ h dimension value value' hpart hpart' := (h dimension value' value hpart' hpart).symm

/-- Any two cells of a reference row agree. -/
def CellsAgree (rows : List PerfRow) (budgets : PerfBudgets) (baselineName : String) : Prop :=
  ∀ entry ∈ families budgets baselineName, ∀ row ∈ rows, row.name = entry.2 →
    row.cells.Pairwise Agree

/-- The varied dimensions are those in which a cell differs from its reference. -/
theorem toFinset_varied {cells reference : List String} (h : rowConflicts cells = [])
    (hreference : rowConflicts reference = []) (hsingle : SingleValued reference) :
    (varied (rowState reference) cells).toFinset = differing cells reference := by
  ext dimension
  simp only [List.mem_toFinset, mem_varied h, ne_eq, lookup_rowState_iff hreference hsingle,
    differing,
    List.mem_map, List.mem_filter, decide_eq_true_eq]
  constructor
  · rintro ⟨value, hstated, hnot⟩
    exact ⟨(dimension, value), ⟨hstated, hnot⟩, rfl⟩
  · rintro ⟨⟨_, value⟩, ⟨hstated, hnot⟩, rfl⟩
    exact ⟨value, hstated, hnot⟩

/-- Cells without contradictions inside them that agree with each other give one value each. -/
theorem singleValued_of_pairwise {cells : List String} (h : rowConflicts cells = [])
    (hpairs : cells.Pairwise Agree) : SingleValued cells := by
  have hself : ∀ cell ∈ cells, Agree cell cell := by
    intro cell hcell dimension value value' hpart hpart'
    have hclean := rowConflicts_eq_nil_iff.1 h cell hcell
    have hvalue := (cellState_spec hclean).2 hpart
    rw [(cellState_spec hclean).2 hpart', Option.some.injEq] at hvalue
    exact hvalue.symm
  intro dimension value value' hstated hstated'
  obtain ⟨cell, hcell, hpart⟩ := List.mem_flatMap.1 hstated
  obtain ⟨cell', hcell', hpart'⟩ := List.mem_flatMap.1 hstated'
  exact hpairs.forall_of_forall hself hcell hcell' dimension value value' hpart hpart'

theorem pairwise_of_singleValued {cells : List String} (h : SingleValued cells) :
    cells.Pairwise Agree :=
  List.pairwise_of_forall_mem_list fun _ hcell _ hcell' dimension value value' hpart hpart' =>
    h dimension value value' (List.mem_flatMap.2 ⟨_, hcell, hpart⟩)
      (List.mem_flatMap.2 ⟨_, hcell', hpart'⟩)

/-- **No problem.** When the check adds no problem, the references are clean and every row is
tallied once. -/
theorem tallied_of_check {rows : List PerfRow} {budgets : PerfBudgets} {baselineName : String}
    (hdistinct : (rows.map PerfRow.name).Nodup) (hbaseline : budgets.baseline = some baselineName)
    (hrow : ∃ row ∈ rows, row.name = baselineName) (h : (checkPerfRelations rows budgets).1 = []) :
    CleanReferences rows budgets baselineName ∧
      (∀ row ∈ rows, ∃ kind, Tallied rows budgets baselineName row kind) ∧
      (tallies (relationLoop rows budgets baselineName).counts).sum = rows.length := by
  obtain ⟨row, hmem, hname⟩ := hrow
  have hlookup := (lookup_byName_iff hdistinct).2 ⟨hmem, hname⟩
  have hproblems : relationProblems rows budgets baselineName = [] := by
    simpa [checkPerfRelations, hbaseline, hlookup] using h
  have hclean := cleanReferences_of_problems (by simp [hlookup]) hproblems
  have hloop : (relationLoop rows budgets baselineName).problems = [] := by
    simp only [relationProblems, List.append_eq_nil_iff] at hproblems
    exact hproblems.1.2
  exact ⟨hclean, hclean.loop hloop⟩

/-- A row by its name, among rows with distinct names. -/
theorem row_unique {rows : List PerfRow} (hdistinct : (rows.map PerfRow.name).Nodup)
    {row row' : PerfRow}
    (hrow : row ∈ rows) (hrow' : row' ∈ rows) (hname : row.name = row'.name) : row = row' :=
  List.inj_on_of_nodup_map hdistinct hrow hrow' hname

/-- **Perf relations.** When the check of rows with distinct names adds no problem, it has shown
what it is for exactly if the cells of the reference rows agree. -/
theorem relations_sound_iff {rows : List PerfRow} {budgets : PerfBudgets} {baselineName : String}
    (hdistinct : (rows.map PerfRow.name).Nodup) (hbaseline : budgets.baseline = some baselineName)
    (hrow : ∃ row ∈ rows, row.name = baselineName) (h : (checkPerfRelations rows budgets).1 = []) :
    RelationsSound rows budgets baselineName ↔ CellsAgree rows budgets baselineName := by
  obtain ⟨hclean, hrows, hsum⟩ := tallied_of_check hdistinct hbaseline hrow h
  constructor
  · intro hsound entry hentry row hmem hname
    obtain ⟨row', hmem', hname', hsingle⟩ := hsound.points entry hentry
    rw [row_unique hdistinct hmem hmem' (hname.trans hname'.symm)]
    exact pairwise_of_singleValued hsingle
  · intro hagree
    refine ⟨?_, ?_, hsum⟩
    · intro entry hentry
      obtain ⟨row, hlookup, hconflicts⟩ := hclean.point entry hentry
      obtain ⟨hmem, hname⟩ := (lookup_byName_iff hdistinct).1 hlookup
      exact ⟨row, hmem, hname,
        singleValued_of_pairwise hconflicts (hagree entry hentry row hmem hname)⟩
    · intro row hmem
      obtain ⟨kind, relation, base, hrelation, rfl, hconflicts, hbase, hcases⟩ := hrows row hmem
      -- the base state is the point of the family's reference row
      obtain ⟨name, hname⟩ : ∃ name, (families budgets baselineName).lookup relation.family =
          some name := by
        cases hname : (families budgets baselineName).lookup relation.family with
        | none => simp [baseState, hname] at hbase
        | some name => exact ⟨name, rfl⟩
      have hentry := lookup_families_iff.1 hname
      obtain ⟨reference, hlookup, hpoint, hstate⟩ := hclean.baseState hentry
      obtain ⟨hreference, rfl⟩ := (lookup_byName_iff hdistinct).1 hlookup
      refine ⟨relation, hrelation, reference, hreference, hentry, fun hne => ?_⟩
      rw [hstate, Option.some.injEq] at hbase
      subst hbase
      rcases hcases with ⟨href, -⟩ | ⟨-, -, hlabelled⟩
      · -- a family has one reference row
        have hsame := (mem_referencesOf.1 href).1
        rw [← lookup_families_iff, hname, Option.some.injEq] at hsame
        exact absurd hsame.symm hne
      · rw [toFinset_varied hconflicts hpoint (singleValued_of_pairwise hpoint
          (hagree _ hentry reference hreference rfl))] at hlabelled
        exact hlabelled

/-! ## A reference row of two points -/

/-- A baseline `b` with these cells and a row `o` that is stated against it as orthogonal. -/
def exampleRows (baseline : List String) : List PerfRow :=
  [⟨"b", baseline, some ⟨"baseline", [], "", none⟩⟩,
    ⟨"o", ["p@x=1"], some ⟨"orthogonal", [], "", none⟩⟩]

/-- A baseline without families. -/
def exampleBudgets : PerfBudgets := ⟨some "b", ∅, ∅⟩

theorem families_exampleBudgets : families exampleBudgets "b" = [(none, "b")] := by
  decide +kernel

/-- Two cells of the baseline that agree where they state the same dimension. -/
theorem relations_sound_two_cells :
    RelationsSound (exampleRows ["p@x=2+y=3", "q@x=2"]) exampleBudgets "b" := by
  refine (relations_sound_iff (by decide) rfl ⟨_, .head _, rfl⟩ (by decide +kernel)).2 ?_
  intro entry hentry row hrow hname
  rw [families_exampleBudgets, List.mem_singleton] at hentry
  subst hentry
  simp only [List.mem_cons, List.not_mem_nil, or_false] at hrow
  rcases hrow with rfl | rfl
  · refine List.pairwise_pair.2 fun dimension value value' hpart hpart' => ?_
    have hfirst : cellParts "p@x=2+y=3" = [("x", "2"), ("y", "3")] := by decide +kernel
    have hsecond : cellParts "q@x=2" = [("x", "2")] := by decide +kernel
    rw [hsecond, List.mem_singleton, Prod.mk.injEq] at hpart'
    obtain ⟨rfl, rfl⟩ := hpart'
    simpa [hfirst] using hpart
  · simp at hname

/-- **Two points.** The cells of the baseline give `x` two values, and the check adds no problem. -/
theorem two_points_pass :
    (checkPerfRelations (exampleRows ["p@x=1", "p@x=2"]) exampleBudgets).1 = [] ∧
      ¬ RelationsSound (exampleRows ["p@x=1", "p@x=2"]) exampleBudgets "b" := by
  refine ⟨by decide +kernel, fun hsound => ?_⟩
  obtain ⟨row, hrow, hname, hsingle⟩ :=
    hsound.points (none, "b") (by simp [families_exampleBudgets])
  simp only [exampleRows, List.mem_cons, List.not_mem_nil, or_false] at hrow
  rcases hrow with rfl | rfl
  · exact absurd (hsingle "x" "1" "2" (by decide +kernel) (by decide +kernel)) (by decide)
  · simp at hname

end RtpMux.CheckGate
