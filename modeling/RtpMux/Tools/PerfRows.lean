import Mathlib.Data.String.Basic
import RtpMux.Sorted
import RtpMux.Splits
import RtpMux.Tools.Text

/-!
# Perf rows and their families

A perf design is a list of rows. A row has cells, `property@dimension=value+…`, and a relation that
states it against a family: the default one, or one that the budgets name. Each family has a
reference row.

`cellState_spec` says what the fold over one cell's parts keeps: when it reports nothing, the
state holds exactly what the parts state.
-/

namespace RtpMux.CheckGate

/-- `Relation`. -/
structure Relation where
  kind : String
  keys : List String
  reason : String
  family : Option String

/-- A row, as far as its relation and its cells go. -/
structure PerfRow where
  name : String
  cells : List String
  relation : Option Relation

/-- The budgets, as far as the baselines and the namespaces of the families go. -/
structure PerfBudgets where
  baseline : Option String
  named : HashMap String String
  members : HashMap String String

/-- The family a row is stated against; `none` is the default one. -/
def PerfRow.family (row : PerfRow) : Option String := row.relation.bind Relation.family

/-- The relation text a diagnostic tells the author to write. -/
def relationDisplay (kind : String) (family : Option String) : String :=
  match family with
  | some family => if family ≠ "" then kind ++ "@" ++ family else kind
  | none => kind

/-! ## Cells -/

/-- The dimensions and values that a cell's parts state. -/
def cellParts (cell : String) : List (String × String) :=
  match Text.splitOnce '@' cell.toList with
  | none => []
  | some (_, dimensions) =>
    (dimensions.splitOn '+').map fun part =>
      match Text.splitOnce '=' part with
      | some (key, value) => (String.ofList key, String.ofList value)
      | none => (String.ofList part, "")

/-- One part of a cell. A part that contradicts an earlier one is reported and not kept. -/
def cellStateStep (cell : String) (s : HashMap String String × List String)
    (part : String × String) : HashMap String String × List String :=
  match s.1.lookup part.1 with
  | some existing =>
    if existing ≠ part.2 then
      (s.1, s.2 ++ ["the cell " ++ Text.reprStr cell ++ " states " ++ Text.reprStr part.1 ++
        " as both " ++ Text.reprStr existing ++ " and " ++ Text.reprStr part.2])
    else (s.1.insert part.1 part.2, s.2)
  | none => (s.1.insert part.1 part.2, s.2)

/-- `cell_state`: the value of each dimension of a cell, and the contradictions in it. -/
def cellState (cell : String) : HashMap String String × List String :=
  (cellParts cell).foldl (cellStateStep cell) (∅, [])

/-- `cell_name`: the part before the dimensions. -/
def cellName (cell : String) : String :=
  match Text.splitOnce '@' cell.toList with
  | some (head, _) => String.ofList head
  | none => cell

/-- A state that holds what the parts so far state, unless a contradiction was reported. -/
def Kept (parts : List (String × String)) (s : HashMap String String × List String) : Prop :=
  s.2 = [] → ∀ key value, s.1.lookup key = some value ↔ (key, value) ∈ parts

/-- A further part is kept or a conflict. -/
theorem Kept.step {cell : String} {parts : List (String × String)}
    {s : HashMap String String × List String} (h : Kept parts s) (part : String × String) :
    Kept (parts ++ [part]) (cellStateStep cell s part) := by
  intro hclean key value
  obtain ⟨partKey, partValue⟩ := part
  cases hlookup : s.1.lookup partKey with
  | none =>
    simp only [cellStateStep, hlookup] at hclean ⊢
    have hkept := h hclean
    rw [HashMap.lookup_insert_eq, List.mem_append, ← hkept, List.mem_singleton, Prod.mk.injEq]
    by_cases hkey : key = partKey
    · subst hkey
      simp [hlookup, eq_comm]
    · simp [hkey]
  | some existing =>
    by_cases heq : existing = partValue
    · subst heq
      simp only [cellStateStep, hlookup, ne_eq, not_true_eq_false, if_false] at hclean ⊢
      have hkept := h hclean
      rw [HashMap.lookup_insert_eq, List.mem_append, ← hkept, List.mem_singleton, Prod.mk.injEq]
      by_cases hkey : key = partKey
      · subst hkey
        simp [hlookup, eq_comm]
      · simp [hkey]
    · simp [cellStateStep, hlookup, heq] at hclean

/-- The parts of a cell are kept, one by one. -/
theorem kept_foldl {cell : String} {parts : List (String × String)} :
    Kept parts (parts.foldl (cellStateStep cell) (∅, [])) := by
  induction parts using List.reverseRecOn with
  | nil => simp [Kept]
  | append_singleton parts part ih =>
    rw [List.foldl_append, List.foldl_cons, List.foldl_nil]
    exact ih.step part

/-- **One cell.** Without a contradiction the state holds what the parts state. -/
theorem cellState_spec {cell : String} (h : (cellState cell).2 = []) {key value : String} :
    (cellState cell).1.lookup key = some value ↔ (key, value) ∈ cellParts cell :=
  kept_foldl h key value

/-! ## Rows and families -/

/-- Everything that the cells of a row state. -/
def stated (cells : List String) : List (String × String) := cells.flatMap cellParts

/-- The contradictions within the cells of a row. -/
def rowConflicts (cells : List String) : List String := cells.flatMap fun cell => (cellState cell).2

/-- The cells of a reference row folded into one map, a later cell after an earlier one. -/
def rowState (cells : List String) : HashMap String String :=
  fill (cells.flatMap fun cell => (cellState cell).1.sorted)

/-- The dimensions in which some cell of a row differs from a point. -/
def varied (base : HashMap String String) (cells : List String) : List String :=
  sortedSet (cells.flatMap fun cell =>
    ((cellState cell).1.sorted.filter fun entry => base.lookup entry.1 ≠ some entry.2).map Prod.fst)

/-- The rows by name; of two rows with one name the later. -/
def byName (rows : List PerfRow) : HashMap String PerfRow :=
  fill (rows.map fun row => (row.name, row))

/-- The families and the names of their reference rows, the default family first. -/
def families (budgets : PerfBudgets) (baselineName : String) : List (Option String × String) :=
  (none, baselineName) :: budgets.named.sorted.map fun (family, name) => (some family, name)

/-- `sort_families`: by `(family.is_some, family or "")`. -/
def sortFamilies (families : List (Option String × String)) : List (Option String × String) :=
  families.insertionSort fun left right =>
    !left.1.isSome && right.1.isSome ||
      left.1.isSome == right.1.isSome && left.1.getD "" ≤ right.1.getD ""

theorem mem_sortFamilies {families : List (Option String × String)}
    {entry : Option String × String} :
    entry ∈ sortFamilies families ↔ entry ∈ families := List.mem_insertionSort _

/-- A row has no conflicts if its cells have none. -/
theorem rowConflicts_eq_nil_iff {cells : List String} :
    rowConflicts cells = [] ↔ ∀ cell ∈ cells, (cellState cell).2 = [] := List.flatMap_eq_nil_iff

/-- The states of a row without conflicts are its cells' parts. -/
theorem mem_states_iff {cells : List String} (h : rowConflicts cells = [])
    {entry : String × String} :
    entry ∈ cells.flatMap (fun cell => (cellState cell).1.sorted) ↔ entry ∈ stated cells := by
  simp only [stated, List.mem_flatMap]
  refine exists_congr fun cell => and_congr_right fun hcell => ?_
  rw [← Prod.mk.eta (p := entry), HashMap.mem_sorted,
    cellState_spec (rowConflicts_eq_nil_iff.1 h cell hcell)]

/-- A row's cells give each dimension one value. -/
def SingleValued (cells : List String) : Prop :=
  ∀ dimension value value', (dimension, value) ∈ stated cells → (dimension, value') ∈ stated cells →
    value = value'

/-- **One point.** The folded map of a row that gives each dimension one value holds what it
states. -/
theorem lookup_rowState_iff {cells : List String} (h : rowConflicts cells = [])
    (hsingle : SingleValued cells) {dimension value : String} :
    (rowState cells).lookup dimension = some value ↔ (dimension, value) ∈ stated cells := by
  rw [rowState, lookup_fill_eq_some_iff]
  constructor
  · rintro ⟨earlier, later, hsplit, -⟩
    rw [← mem_states_iff h, hsplit]
    simp
  · intro hstated
    -- some value of the dimension is the last one, and there is only one value
    have hsome : ((rowState cells).lookup dimension).isSome = true :=
      lookup_fill_isSome_iff.2 ⟨_, (mem_states_iff h).2 hstated, rfl⟩
    obtain ⟨last, hlast⟩ := Option.isSome_iff_exists.1 hsome
    rw [rowState, lookup_fill_eq_some_iff] at hlast
    obtain ⟨earlier, later, hsplit, hno⟩ := hlast
    have hmem : (dimension, last) ∈ stated cells := by
      rw [← mem_states_iff h, hsplit]
      simp
    rw [hsingle dimension value last hstated hmem]
    exact ⟨earlier, later, hsplit, hno⟩

/-- A row is found by its name. -/
theorem lookup_byName_iff {rows : List PerfRow} (hdistinct : (rows.map PerfRow.name).Nodup)
    {name : String} {row : PerfRow} :
    (byName rows).lookup name = some row ↔ row ∈ rows ∧ row.name = name := by
  rw [byName, lookup_fill_eq_some_iff]
  constructor
  · rintro ⟨earlier, later, hsplit, -⟩
    have hmem : (name, row) ∈ rows.map fun row => (row.name, row) := by
      rw [hsplit]
      simp
    obtain ⟨row', hrow, heq⟩ := List.mem_map.1 hmem
    cases heq
    exact ⟨hrow, rfl⟩
  · rintro ⟨hrow, rfl⟩
    obtain ⟨earlier, later, rfl⟩ := List.append_of_mem hrow
    refine ⟨earlier.map fun row => (row.name, row),
      later.map fun row => (row.name, row), by simp, ?_⟩
    intro entry hentry heq
    obtain ⟨row', hrow', rfl⟩ := List.mem_map.1 hentry
    rw [List.map_append, List.nodup_append, List.map_cons, List.nodup_cons] at hdistinct
    refine hdistinct.2.1.1 ?_
    rw [← show row'.name = row.name from heq]
    exact List.mem_map_of_mem hrow'

/-- A family is listed once. -/
theorem nodup_families (budgets : PerfBudgets) (baselineName : String) :
    ((families budgets baselineName).map Prod.fst).Nodup := by
  rw [families, List.map_cons, List.map_map, List.nodup_cons]
  constructor
  · simp
  · have hsome := (budgets.named.nodup_keys_sorted).map (Option.some_injective _)
    rw [List.map_map] at hsome
    exact hsome

/-- A family is found by its key. -/
theorem lookup_families_iff {budgets : PerfBudgets} {baselineName name : String}
    {family : Option String} :
    (families budgets baselineName).lookup family = some name ↔
      (family, name) ∈ families budgets baselineName := by
  rw [List.lookup_eq_some_iff]
  constructor
  · rintro ⟨earlier, later, hsplit, -⟩
    rw [hsplit]
    simp
  · intro hmem
    obtain ⟨earlier, later, hsplit⟩ := List.append_of_mem hmem
    refine ⟨earlier, later, hsplit, fun entry hentry => ?_⟩
    have hnodup := nodup_families budgets baselineName
    rw [hsplit, List.map_append, List.nodup_append] at hnodup
    have hne := hnodup.2.2 entry.1 (List.mem_map_of_mem hentry) family (by simp)
    rw [bne_iff_ne]
    exact fun heq => hne heq.symm

/-- The named families are the budgets'. -/
theorem mem_families_some {budgets : PerfBudgets} {baselineName family name : String} :
    (some family, name) ∈ families budgets baselineName ↔
      budgets.named.lookup family = some name := by
  simp [families]

/-- The unnamed family is the baseline. -/
theorem mem_families_none {budgets : PerfBudgets} {baselineName name : String} :
    (none, name) ∈ families budgets baselineName ↔ name = baselineName := by
  simp [families]

end RtpMux.CheckGate
