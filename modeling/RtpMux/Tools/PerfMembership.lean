import RtpMux.Tools.PerfRelations

/-!
# Families and their namespaces

`check_perf_membership` compares the family a row is stated against with the family whose namespace
of cell names its cells are in. Together with the check of the relations it is to file every row
under one family.

The two checks leave one gap: the row that the budgets name as the default baseline may be stated
against a named family. The relations then take it for a row of that family, and its cells are in
that family's namespace, so no row is labelled as the default baseline (`filing_sound_iff`).
-/

namespace RtpMux.CheckGate

/-! ## The check -/

/-- `prefix_matches`: a pattern is a name, or the beginning of one with a star behind it. -/
def prefixMatches (pattern name : String) : Bool :=
  if pattern.toList.getLast? = some '*' then pattern.toList.dropLast.isPrefixOf name.toList
  else name = pattern

/-- The beginning that two texts share. -/
def commonPrefix : List Char → List Char → List Char
  | c :: cs, d :: ds => if c = d then c :: commonPrefix cs ds else []
  | _, _ => []

/-- `prefix_hint`: the narrowest pattern that covers the names, or nothing. -/
def prefixHint : List String → String
  | [] => ""
  | first :: names =>
    let shared := String.ofList
        (names.foldl (fun shared name => commonPrefix shared name.toList) first.toList)
    if shared = "" then ""
    else if names.all (· = first) then shared
    else shared ++ "*"

/-- The names of a row's cells. -/
def rowNames (row : PerfRow) : List String := sortedSet (row.cells.map cellName)

/-- `all_names`: the names of the cells of all rows. -/
def allNames (rows : List PerfRow) : List String :=
  sortedSet (rows.flatMap fun row => row.cells.map cellName)

/-- `family_rows`: the rows stated against a family. -/
def familyRows (rows : List PerfRow) (family : Option String) : List PerfRow :=
  rows.filter fun row => row.family = family

/-- `names_of`: the names of the cells of a family's rows. -/
def namesOf (rows : List PerfRow) (family : Option String) : List String :=
  allNames (familyRows rows family)

/-- `write_members`: the line that declares a family's namespace. -/
def writeMembers (rows : List PerfRow) (family : Option String) : String :=
  let label := match family with
    | none => "members"
    | some family => "members." ++ family
  let hint := prefixHint (namesOf rows family)
  if hint = "" then "`" ++ label ++ " = <prefix>`" else "`" ++ label ++ " = " ++ hint ++ "`"

/-- `claimed`: the families whose namespaces claim a cell name. -/
def claimedBy (members : HashMap String String) (name : String) : List String :=
  (members.sorted.filter fun (_, pattern) => prefixMatches pattern name).map Prod.fst

/-- The owners of several names, each once, in the order they are met. -/
def ownersOf (members : HashMap String String) (names : List String) : List String :=
  (names.flatMap (claimedBy members)).foldl
    (fun owners owner => if owner ∈ owners then owners else owners ++ [owner]) []

/-- The families that claim a name, as a message lists them. -/
def ownerPhrase (members : HashMap String String) (owners : List String) : String :=
  ", ".intercalate (owners.map fun family =>
    "family " ++ Text.reprStr family ++ " (members." ++ family ++ " = " ++
      (members.lookup family).getD "" ++ ")")

section Check

variable (rows : List PerfRow) (budgets : PerfBudgets)

/-- A declared family must have a namespace. -/
def missingNamespace (family : String) : List String :=
  if (budgets.members.lookup family).isSome then []
  else
    let names := namesOf rows (some family)
    let hint := prefixHint names
    let wanted :=
      if hint = "" then
        "a shared cell name (`members.<family> = <prefix>`), because its rows' cells are named " ++
          ", ".intercalate names ++ " and share no prefix"
      else "`members." ++ family ++ " = " ++ hint ++ "`"
    ["gate-budgets: baseline." ++ family ++
      " declares a family whose cell-name namespace is not declared; write " ++ wanted ++
      " so a row's cells decide whether it belongs to the family"]

/-- A namespace must belong to a declared family. -/
def strayNamespace (entry : String × String) : List String :=
  if (budgets.named.lookup entry.1).isSome then []
  else
    ["gate-budgets: members." ++ entry.1 ++ " = " ++ entry.2 ++
      " declares the cell-name namespace of a family gate-budgets does not declare; declare `baseline." ++
      entry.1 ++ " = <row>` or remove the line"]

/-- A namespace must be occupied and cover its family's cells. -/
def namespaceProblems (entry : String × String) : List String :=
  let (family, pattern) := entry
  let names := namesOf rows (some family)
  if (allNames rows).filter (prefixMatches pattern) = [] then
    ["gate-budgets: members." ++ family ++ " = " ++ pattern ++
      " matches no row's cell name, so it declares a namespace nothing occupies; write the " ++
      "prefix the family's cells carry (" ++
      (if names = [] then "none" else ", ".intercalate names) ++ ") or remove the line"]
  else if (familyRows rows (some family)).isEmpty then []
  else
    let outside := names.filter fun name => !prefixMatches pattern name
    if outside ≠ [] then
      ["gate-budgets: members." ++ family ++ " = " ++ pattern ++
        " does not cover the family's own cells (" ++
        ", ".intercalate outside ++
        "); a family's namespace is where its rows live, so write " ++
          writeMembers rows (some family)]
    else []

/-- A cell name must not be claimed by two families. -/
def sharedName (name : String) : List String :=
  let owners := claimedBy budgets.members name
  if owners.length < 2 then []
  else
    let declared := owners.map fun family =>
      "members." ++ family ++ " = " ++ (budgets.members.lookup family).getD ""
    ["gate-budgets: the cell name " ++ Text.reprStr name ++ " is claimed by " ++
      toString owners.length ++
      " families (" ++ ", ".intercalate declared ++
      "); a cell name belongs to exactly one family, so narrow one namespace until the cell names are disjoint"]

/-- The reference row of a family must be in its namespace. -/
def referenceOutside (entry : Option String × String) : List String :=
  match (byName rows).lookup entry.2, entry.1 with
  | some row, some family =>
    match budgets.members.lookup family with
    | none => []
    | some pattern =>
      let outside := (rowNames row).filter fun name => !prefixMatches pattern name
      if outside ≠ [] then
        ["gate-perf-design row " ++ row.name ++ " is the reference of baseline." ++ family ++
          ", but its cells are named " ++ ", ".intercalate outside ++ ", which members." ++
            family ++
          " = " ++ pattern ++
          " does not claim; the family's namespace must contain its own reference, so write " ++
          writeMembers rows (some family)]
      else []
  | _, _ => []

/-- A row whose cells leave the namespace `pattern` of the family it names. -/
def outsideText (row : PerfRow) (family pattern : String) (owners : List String) : String :=
  let outside := (rowNames row).filter fun name => !prefixMatches pattern name
  let hint :=
    if owners.length = 1 then
      "; those cells belong to " ++ ownerPhrase budgets.members owners ++
        ", so state the row against `@" ++
        owners.headD "" ++ "` or move the name out of that namespace"
    else if owners.length > 1 then
      ", and " ++ toString owners.length ++ " families claim them (" ++
        ownerPhrase budgets.members owners ++
        "), so one namespace must be narrowed before the row can be filed"
    else "; declare it as this family's own cell name: " ++ writeMembers rows (some family)
  "gate-perf-design row " ++ row.name ++ ": its cells are named " ++ ", ".intercalate outside ++
    ", which members." ++ family ++ " = " ++ pattern ++
    " does not claim, so the row's cells and the family it names disagree" ++ hint

/-- What is wrong with where a row is filed. -/
def misfiled (row : PerfRow) : Option String :=
  let names := rowNames row
  let owners := ownersOf budgets.members names
  let ownership :=
    if owners.length > 1 then
      some ("gate-perf-design row " ++ row.name ++ ": its cells are named " ++
        ", ".intercalate names ++
        ", which " ++ toString owners.length ++ " families claim (" ++
          ownerPhrase budgets.members owners ++
        "); a cell name belongs to one family, so the row cannot be filed by its cells until " ++
        "one namespace is narrowed")
    else if owners ≠ [] ∧ row.family ≠ owners.head? then
      match row.family with
      | none =>
        some ("gate-perf-design row " ++ row.name ++ " names no family, but its cells are named " ++
          ", ".intercalate names ++ ", which belong to " ++ ownerPhrase budgets.members owners ++
          "; a row whose cells occupy a family's namespace must state against it - write `@" ++
          owners.headD "" ++ "`")
      | some family =>
        some ("gate-perf-design row " ++ row.name ++ ": its cells are named " ++
          ", ".intercalate names ++
          ", which belong to " ++ ownerPhrase budgets.members owners ++ " rather than family " ++
          Text.reprStr family ++ "; state the row against `@" ++ owners.headD "" ++
          "` or move the name out of that namespace")
    else none
  match row.family with
  | none => ownership
  | some family =>
    match budgets.members.lookup family with
    | none => none
    | some pattern =>
      if names.any fun name => !prefixMatches pattern name then
        some (outsideText rows budgets row family pattern owners)
      else ownership

/-- The problems that `check_perf_membership` adds when there is a baseline. -/
def membershipProblems (baselineName : String) : List String :=
  (budgets.named.sorted.map Prod.fst).flatMap (missingNamespace rows budgets) ++
    budgets.members.sorted.flatMap (strayNamespace budgets) ++
    budgets.members.sorted.flatMap (namespaceProblems rows) ++
    (allNames rows).flatMap (sharedName budgets) ++
    (sortFamilies (families budgets baselineName)).flatMap (referenceOutside rows budgets) ++
    rows.filterMap (misfiled rows budgets)

/-- The summary lines of `check_perf_membership`. -/
def membershipSummary : List String :=
  if budgets.members.sorted = [] then []
  else
    let claimed := (allNames rows).filter fun name => claimedBy budgets.members name ≠ []
    let residual := (allNames rows).filter fun name => claimedBy budgets.members name = []
    let total := "  gate-perf-membership: " ++ toString budgets.members.sorted.length ++
      " cell-name namespace(s) declared, " ++ toString claimed.length ++
        " cell name(s) claimed, " ++
      toString (rows.filterMap (misfiled rows budgets)).length ++
      " row(s) stated outside the namespace of the family they name"
    let line (label : String) (family : Option String) (names : List String) :=
      "  gate-perf-namespace: " ++ label ++ " " ++ toString (familyRows rows family).length ++
        " row(s), cells: " ++ ", ".intercalate names
    total :: (budgets.members.sorted.map fun (family, pattern) =>
      line (family ++ "(" ++ pattern ++ ")") (some family) (namesOf rows (some family))) ++
      if residual = [] then [] else [line "default(residual)" none residual]

end Check

/-- `check_perf_membership`: the problems it adds and its summary. -/
def checkPerfMembership (rows : List PerfRow) (budgets : PerfBudgets) : List String × List String :=
  match budgets.baseline with
  | none => ([], [])
  | some baselineName =>
    (membershipProblems rows budgets baselineName, membershipSummary rows budgets)

/-! ## What the check shows -/

/-- A family claims a name by its pattern. -/
theorem mem_claimedBy {members : HashMap String String} {family name : String} :
    family ∈ claimedBy members name ↔
      ∃ pattern, members.lookup family = some pattern ∧ prefixMatches pattern name = true := by
  simp only [claimedBy, List.mem_map, List.mem_filter]
  constructor
  · rintro ⟨⟨family', pattern⟩, ⟨hmem, hmatch⟩, rfl⟩
    exact ⟨pattern, HashMap.mem_sorted.1 hmem, hmatch⟩
  · rintro ⟨pattern, hlookup, hmatch⟩
    exact ⟨(family, pattern), ⟨HashMap.mem_sorted.2 hlookup, hmatch⟩, rfl⟩

/-- The owners of names are those that claim one of them. -/
theorem mem_ownersOf {members : HashMap String String} {names : List String} {owner : String} :
    owner ∈ ownersOf members names ↔ ∃ name ∈ names, owner ∈ claimedBy members name := by
  rw [ownersOf, ← List.mem_flatMap]
  induction names.flatMap (claimedBy members) using List.reverseRecOn with
  | nil => simp
  | append_singleton claims claim ih =>
    rw [List.foldl_append, List.foldl_cons, List.foldl_nil, List.mem_append,
      List.mem_singleton, ← ih]
    split_ifs with hmem
    · constructor
      · exact .inl
      · rintro (h | rfl)
        · exact h
        · exact hmem
    · simp

/-- The names of a row are those of its cells. -/
theorem mem_rowNames {row : PerfRow} {name : String} :
    name ∈ rowNames row ↔ ∃ cell ∈ row.cells, cellName cell = name := by
  simp [rowNames]

/-- All names are those of the rows. -/
theorem mem_allNames {rows : List PerfRow} {name : String} :
    name ∈ allNames rows ↔ ∃ row ∈ rows, name ∈ rowNames row := by
  simp [allNames, rowNames]

section Clean

variable {rows : List PerfRow} {budgets : PerfBudgets} {baselineName : String}

variable (rows budgets baselineName) in
/-- What no problem of the membership check says of namespaces and references. -/
structure CleanNamespaces : Prop where
  declared : ∀ family name, budgets.named.lookup family = some name →
    ∃ pattern, budgets.members.lookup family = some pattern
  disjoint : ∀ row ∈ rows, ∀ name ∈ rowNames row, ∀ family family',
    family ∈ claimedBy budgets.members name → family' ∈ claimedBy budgets.members name →
      family = family'
  references : ∀ family row, (some family, row.name) ∈ families budgets baselineName →
    (byName rows).lookup row.name = some row →
      ∀ name ∈ rowNames row, family ∈ claimedBy budgets.members name
  filed : ∀ row ∈ rows, misfiled rows budgets row = none

/-- Without problems the namespaces are clean. -/
theorem cleanNamespaces_of_problems (h : membershipProblems rows budgets baselineName = []) :
    CleanNamespaces rows budgets baselineName := by
  simp only [membershipProblems, List.append_eq_nil_iff, List.flatMap_eq_nil_iff, mem_sortFamilies,
    List.filterMap_eq_nil_iff] at h
  obtain ⟨⟨⟨⟨⟨hmissing, -⟩, -⟩, hshared⟩, houtside⟩, hfiled⟩ := h
  have hdeclared : ∀ family name, budgets.named.lookup family = some name →
      ∃ pattern, budgets.members.lookup family = some pattern := by
    intro family name hname
    have hnone := hmissing family (List.mem_map.2 ⟨(family, name), HashMap.mem_sorted.2 hname, rfl⟩)
    simp only [missingNamespace] at hnone
    split_ifs at hnone with hsome
    exact Option.isSome_iff_exists.1 hsome
  refine ⟨hdeclared, ?_, ?_, hfiled⟩
  · intro row hrow name hname family family' hfamily hfamily'
    have hnone := hshared name (mem_allNames.2 ⟨row, hrow, hname⟩)
    simp only [sharedName] at hnone
    split_ifs at hnone with hone
    obtain ⟨owner, howner⟩ : ∃ owner, claimedBy budgets.members name = [owner] :=
      List.length_eq_one_iff.1
        (Nat.le_antisymm (Nat.le_of_lt_succ hone) (List.length_pos_of_mem hfamily))
    rw [howner, List.mem_singleton] at hfamily hfamily'
    rw [hfamily, hfamily']
  · intro family row hentry hlookup name hname
    obtain ⟨pattern, hpattern⟩ := hdeclared family row.name (mem_families_some.1 hentry)
    have hnone := houtside _ hentry
    simp only [referenceOutside, hlookup, hpattern] at hnone
    simp only [ite_eq_right_iff, List.cons_ne_nil, imp_false, not_not,
      List.filter_eq_nil_iff] at hnone
    exact mem_claimedBy.2 ⟨pattern, hpattern, by simpa using hnone name hname⟩

/-- A row of the default family has no claimed cell name. -/
theorem CleanNamespaces.unnamed (h : CleanNamespaces rows budgets baselineName) {row : PerfRow}
    (hrow : row ∈ rows) (hfamily : row.family = none) {name : String} (hname : name ∈ rowNames row)
    (family : String) : family ∉ claimedBy budgets.members name := by
  intro hclaimed
  have howner : family ∈ ownersOf budgets.members (rowNames row) :=
    mem_ownersOf.2 ⟨name, hname, hclaimed⟩
  have hnone := h.filed row hrow
  simp only [misfiled, hfamily] at hnone
  split_ifs at hnone with hlong howners
  simp only [ne_eq, not_and, not_not] at howners
  have hhead := howners (List.ne_nil_of_mem howner)
  rw [eq_comm, List.head?_eq_none_iff] at hhead
  exact List.ne_nil_of_mem howner hhead

/-- The cell names of a row of a declared family are claimed by that family and by no other. -/
theorem CleanNamespaces.named (h : CleanNamespaces rows budgets baselineName) {row : PerfRow}
    (hrow : row ∈ rows) {family referenced : String} (hfamily : row.family = some family)
    (hnamed : budgets.named.lookup family = some referenced) {name : String}
    (hname : name ∈ rowNames row)
    (owner : String) : owner ∈ claimedBy budgets.members name ↔ owner = family := by
  obtain ⟨pattern, hpattern⟩ := h.declared family referenced hnamed
  have hclaimed : family ∈ claimedBy budgets.members name := by
    have hnone := h.filed row hrow
    simp only [misfiled, hfamily, hpattern] at hnone
    split_ifs at hnone with houtside
    all_goals
      simp only [List.any_eq_true, Bool.not_eq_true', not_exists, not_and,
        Bool.not_eq_false] at houtside
      exact mem_claimedBy.2 ⟨pattern, hpattern, houtside name hname⟩
  constructor
  · intro howner
    exact h.disjoint row hrow name hname owner family howner hclaimed
  · rintro rfl
    exact hclaimed

end Clean

/-! ## What the two checks are for -/

/-- Rows are filed by their cell names, and the rows labelled `baseline` are the reference rows. -/
structure FilingSound (rows : List PerfRow) (budgets : PerfBudgets) (baselineName : String) :
    Prop where
  named : ∀ row ∈ rows, ∀ family, row.family = some family → ∀ cell ∈ row.cells, ∀ owner,
    owner ∈ claimedBy budgets.members (cellName cell) ↔ owner = family
  unnamed : ∀ row ∈ rows, row.family = none → ∀ cell ∈ row.cells,
    claimedBy budgets.members (cellName cell) = []
  references : ∀ entry ∈ families budgets baselineName, ∃ row ∈ rows, row.name = entry.2 ∧
    ∃ relation, row.relation = some relation ∧ relation.kind = "baseline" ∧
      relation.family = entry.1
  baselines : ∀ row ∈ rows, ∀ relation, row.relation = some relation → relation.kind = "baseline" →
    (relation.family, row.name) ∈ families budgets baselineName

/-- The row that the budgets name as the default baseline is stated against no named family. -/
def DefaultBaseline (rows : List PerfRow) (baselineName : String) : Prop :=
  ∀ row ∈ rows, row.name = baselineName → row.family = none

/-- The relation of a tallied row is labelled `baseline` exactly if the row is the reference of its
family. -/
theorem Tallied.baseline_iff {rows : List PerfRow} {budgets : PerfBudgets} {baselineName : String}
    {row : PerfRow} {kind : String} (h : Tallied rows budgets baselineName row kind) :
    ∃ relation, row.relation = some relation ∧ row.family = relation.family ∧
      (relation.kind = "baseline" ↔
        relation.family ∈ referencesOf rows budgets baselineName row.name) ∧
      ∃ name, (relation.family, name) ∈ families budgets baselineName := by
  obtain ⟨relation, base, hrelation, rfl, -, hbase, hcases⟩ := h
  refine ⟨relation, hrelation, by simp [PerfRow.family, hrelation], ?_, ?_⟩
  · rcases hcases with ⟨hmem, hkind⟩ | ⟨hmem, hkind, -⟩
    · exact ⟨fun _ => hmem, fun _ => hkind⟩
    · exact ⟨fun hkind' => absurd hkind' hkind, fun hmem' => absurd hmem' hmem⟩
  · cases hname : (families budgets baselineName).lookup relation.family with
    | none => simp [baseState, hname] at hbase
    | some name => exact ⟨name, lookup_families_iff.1 hname⟩

/-- **Families.** When both checks of rows with cells and distinct names add no problem, the rows
are filed as they should exactly if the default baseline is stated against no named family. -/
theorem filing_sound_iff {rows : List PerfRow} {budgets : PerfBudgets} {baselineName : String}
    (hdistinct : (rows.map PerfRow.name).Nodup) (hcells : ∀ row ∈ rows, row.cells ≠ [])
    (hbaseline : budgets.baseline = some baselineName)
    (hrow : ∃ row ∈ rows, row.name = baselineName)
    (hrelations : (checkPerfRelations rows budgets).1 = [])
    (hmembership : (checkPerfMembership rows budgets).1 = []) :
    FilingSound rows budgets baselineName ↔ DefaultBaseline rows baselineName := by
  obtain ⟨hclean, htallied, -⟩ := tallied_of_check hdistinct hbaseline hrow hrelations
  have hspaces : CleanNamespaces rows budgets baselineName :=
    cleanNamespaces_of_problems (by simpa [checkPerfMembership, hbaseline] using hmembership)
  constructor
  · intro hsound row hmem hname
    obtain ⟨row', hmem', hname', relation, hrelation, -, hfamily⟩ :=
      hsound.references (none, baselineName) (mem_families_none.2 rfl)
    rw [row_unique hdistinct hmem hmem' (hname.trans hname'.symm)]
    simp [PerfRow.family, hrelation, hfamily]
  · intro hdefault
    have hnamed : ∀ row ∈ rows, ∀ family, row.family = some family → ∀ name ∈ rowNames row, ∀ owner,
        owner ∈ claimedBy budgets.members name ↔ owner = family := by
      intro row hmem family hfamily name hname owner
      obtain ⟨kind, hkind⟩ := htallied row hmem
      obtain ⟨relation, -, hfamily', -, referenced, hentry⟩ := hkind.baseline_iff
      rw [← hfamily', hfamily] at hentry
      exact hspaces.named hmem hfamily (mem_families_some.1 hentry) hname owner
    refine ⟨?_, ?_, ?_, ?_⟩
    · intro row hmem family hfamily cell hcell owner
      exact hnamed row hmem family hfamily _ (mem_rowNames.2 ⟨cell, hcell, rfl⟩) owner
    · intro row hmem hfamily cell hcell
      exact List.eq_nil_iff_forall_not_mem.2
        (hspaces.unnamed hmem hfamily (mem_rowNames.2 ⟨cell, hcell, rfl⟩))
    · rintro ⟨family, name⟩ hentry
      obtain ⟨row, hlookup, -⟩ := hclean.point _ hentry
      obtain ⟨hmem, rfl⟩ := (lookup_byName_iff hdistinct).1 hlookup
      obtain ⟨kind, hkind⟩ := htallied row hmem
      obtain ⟨relation, hrelation, hfamily, hlabel, -⟩ := hkind.baseline_iff
      -- the row is stated against the family it is the reference of
      have hsame : row.family = family := by
        cases family with
        | none => exact hdefault row hmem (mem_families_none.1 hentry)
        | some family =>
          obtain ⟨cell, hcell⟩ := List.exists_mem_of_ne_nil _ (hcells row hmem)
          have hname : cellName cell ∈ rowNames row := mem_rowNames.2 ⟨cell, hcell, rfl⟩
          have hclaimed := hspaces.references family row hentry hlookup _ hname
          cases hstated : row.family with
          | none => exact absurd hclaimed (hspaces.unnamed hmem hstated hname family)
          | some family' => rw [(hnamed row hmem family' hstated _ hname family).1 hclaimed]
      refine ⟨row, hmem, rfl, relation, hrelation, hlabel.2 ?_, hfamily.symm.trans hsame⟩
      rw [← hfamily, hsame]
      exact mem_referencesOf.2 ⟨hentry, by simp [hlookup]⟩
    · intro row hmem relation hrelation hkind
      obtain ⟨kind, htallied⟩ := htallied row hmem
      obtain ⟨relation', hrelation', -, hlabel, -⟩ := htallied.baseline_iff
      rw [hrelation, Option.some.injEq] at hrelation'
      subst hrelation'
      exact (mem_referencesOf.1 (hlabel.1 hkind)).1

/-! ## A default baseline of a named family -/

/-- A default baseline `b` with this cell and relation, a reference row `g` of the family `G`, and a
row for each family. -/
def familyRowsExample (cell : String) (relation : Relation) : List PerfRow :=
  [⟨"b", [cell], some relation⟩, ⟨"g", ["g@x=1"], some ⟨"baseline", [], "", some "G"⟩⟩,
    ⟨"o", ["p@x=2"], some ⟨"re-measurement", [], "again", none⟩⟩,
    ⟨"q", ["g@x=3"], some ⟨"orthogonal", [], "", some "G"⟩⟩]

/-- A family with one namespace. -/
def familyBudgetsExample : PerfBudgets := ⟨some "b", fill [("G", "g")], fill [("G", "g")]⟩

/-- Two rows of one family, filed as the defaults say. -/
theorem filing_sound_default :
    FilingSound (familyRowsExample "p@x=2" ⟨"baseline", [], "", none⟩) familyBudgetsExample
      "b" := by
  refine (filing_sound_iff (by decide) ?_ rfl ⟨_, .head _, rfl⟩ (by decide +kernel)
    (by decide +kernel)).2 ?_
  · simp
  · intro row hrow hname
    simp only [List.mem_cons, List.not_mem_nil, or_false] at hrow
    rcases hrow with rfl | rfl | rfl | rfl
    · rfl
    all_goals simp at hname

/-- **No default baseline.** The default baseline is stated against `G`, no row is labelled as the
default one, and neither check adds a problem. -/
theorem baseline_of_named_family_passes :
    (checkPerfRelations (familyRowsExample "g@x=2" ⟨"orthogonal", [], "", some "G"⟩)
        familyBudgetsExample).1 = [] ∧
      (checkPerfMembership (familyRowsExample "g@x=2" ⟨"orthogonal", [], "", some "G"⟩)
        familyBudgetsExample).1 = [] ∧
      ¬ FilingSound (familyRowsExample "g@x=2" ⟨"orthogonal", [], "", some "G"⟩)
        familyBudgetsExample "b" := by
  refine ⟨by decide +kernel, by decide +kernel, fun hsound => ?_⟩
  obtain ⟨row, hrow, hname, relation, hrelation, hkind, -⟩ :=
    hsound.references (none, "b") (mem_families_none.2 rfl)
  simp only [familyRowsExample, List.mem_cons, List.not_mem_nil, or_false] at hrow
  rcases hrow with rfl | rfl | rfl | rfl
  · rw [Option.some.injEq] at hrelation
    subst hrelation
    simp at hkind
  all_goals simp at hname

end RtpMux.CheckGate
