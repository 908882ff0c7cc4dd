import RtpMux.Tools.PyreWords

/-!
# The two grammars of a coverage cell

A coverage cell is `<property>@<dimension>=<value>[+...]`. The gate checks one with two
patterns of its own engine, and the comparison tool with hand-written splitting that says it
repeats the gate's shape.

Both are read as one grammar over the characters of the cell, `LenientCell`: the gate accepts
exactly that, and the comparison tool accepts exactly its cells without whitespace
(`check_gate_cell_iff`, `mandate_compare_cell_iff`). The two lenient spots are the final newline
`$` looks past, behind the property name and behind each value, and the whitespace outside ASCII
(and the vertical tab) that `\s` does not know.
-/

namespace RtpMux

open Pyre (Regex IsName range_self alphabetic_class)
open Text (isAsciiAlphabetic isAsciiAlphanumeric isAsciiWhitespace)

namespace CheckGate

/-- `cell_property_re`. -/
def cellPropertyRe : Regex := Pyre.compiled "^[A-Za-z][A-Za-z0-9_.-]*$" rfl

/-- `cell_dimension_re`. -/
def cellDimensionRe : Regex := Pyre.compiled "^[A-Za-z][A-Za-z0-9_-]*=[^=,+\\s]+$" rfl

/-- `check_gate::perf::cell_problem`. -/
def cellProblem (cell : String) : Option String :=
  let (propertyName, _, dimensions) := Text.partition '@' cell.toList
  if dimensions = [] then some "no '@<dimension>=<value>' part"
  else if !cellPropertyRe.isMatch (String.ofList propertyName) then
    some ("property " ++ Text.reprStr (String.ofList propertyName) ++
      " is not a name ([A-Za-z][A-Za-z0-9_.-]*)")
  else
    (dimensions.splitOn '+').findSome? fun part =>
      if !cellDimensionRe.isMatch (String.ofList part) then
        some ("dimension " ++ Text.reprStr (String.ofList part) ++ " is not '<dimension>=<value>'")
      else none

end CheckGate

namespace MandateCompare

/-- `parse_dimension_part`: the name and the value of one cell part. -/
def parseDimensionPart (part : List Char) : Option (List Char × List Char) := do
  let (name, value) ← Text.splitOnce '=' part
  match name with
  | [] => none
  | first :: rest =>
    if !isAsciiAlphabetic first then none
    else if !rest.all (fun c => isAsciiAlphanumeric c || c = '_' || c = '-') then none
    else if value.isEmpty then none
    else if value.any (fun c => c = '=' || c = ',' || c = '+' || Text.isWhitespace c) then none
    else some (name, value)

/-- `is_property_name`. -/
def isPropertyName (name : List Char) : Bool :=
  match name with
  | [] => false
  | first :: rest =>
    isAsciiAlphabetic first &&
      rest.all fun c => isAsciiAlphanumeric c || c = '_' || c = '.' || c = '-'

/-- The pieces of a cell, `split_once('@')` with a part behind it. -/
def splitCell (cell : List Char) : Option (List Char × List Char) :=
  match Text.splitOnce '@' cell with
  | some (property, dimensions) => if dimensions = [] then none else some (property, dimensions)
  | none => none

/-- `mandate_compare::cell_problem`. -/
def cellProblem (cell : String) : Option String :=
  match splitCell cell.toList with
  | none => some "no '@<dimension>=<value>' part"
  | some (property, dimensions) =>
    if !isPropertyName property then
      some ("property '" ++ String.ofList property ++ "' is not a name ([A-Za-z][A-Za-z0-9_.-]*)")
    else
      (dimensions.splitOn '+').findSome? fun part =>
        if (parseDimensionPart part).isNone then
          some ("dimension '" ++ String.ofList part ++ "' is not '<dimension>=<value>'")
        else none

end MandateCompare

namespace CellGrammar

/-! ## The grammar -/

/-- A character behind the first one of a property. -/
def propertyTail (c : Char) : Bool := isAsciiAlphanumeric c || c = '_' || c = '.' || c = '-'

/-- A character behind the first one of a dimension's key. -/
def dimensionTail (c : Char) : Bool := isAsciiAlphanumeric c || c = '_' || c = '-'

/-- A character a value may hold, whitespace outside ASCII included. -/
def valueChar (c : Char) : Bool := !(c = '=' || c = ',' || c = '+' || isAsciiWhitespace c)

/-- `text` is `word`, or `word` and one newline. -/
def UpToNewline (word text : List Char) : Prop := text = word ∨ text = word ++ ['\n']

/-- A property name, a newline behind it tolerated. -/
def LenientProperty (text : List Char) : Prop :=
  ∃ name, IsName isAsciiAlphabetic propertyTail name ∧ UpToNewline name text

/-- One `<dimension>=<value>`, a newline behind it tolerated. -/
def LenientPart (text : List Char) : Prop :=
  ∃ name value, IsName isAsciiAlphabetic dimensionTail name ∧ value ≠ [] ∧
    (∀ c ∈ value, valueChar c = true) ∧
    UpToNewline (name ++ '=' :: value) text

/-- A cell as the patterns read it. -/
def LenientCell (cell : List Char) : Prop :=
  ∃ property dimensions, '@' ∉ property ∧ cell = property ++ '@' :: dimensions ∧ dimensions ≠ [] ∧
    LenientProperty property ∧ ∀ part ∈ dimensions.splitOn '+', LenientPart part

/-! ## The gate -/

/-- The class of a property's characters in the pattern. -/
theorem property_class (c : Char) :
    Pyre.classMatches [.range 'A' 'Z', .range 'a' 'z', .range '0' '9', .range '_' '_',
      .range '.' '.', .range '-' '-'] false c = propertyTail c := by
  simp only [Pyre.classMatches, List.any_cons, List.any_nil, range_self, propertyTail,
    isAsciiAlphanumeric, isAsciiAlphabetic, Text.isAsciiDigit]
  grind

/-- The class of a dimension's characters in the pattern. -/
theorem dimension_class (c : Char) :
    Pyre.classMatches [.range 'A' 'Z', .range 'a' 'z', .range '0' '9', .range '_' '_',
      .range '-' '-'] false c = dimensionTail c := by
  simp only [Pyre.classMatches, List.any_cons, List.any_nil, range_self, dimensionTail,
    isAsciiAlphanumeric, isAsciiAlphabetic, Text.isAsciiDigit]
  grind

/-- The class of a value's characters in the pattern. -/
theorem value_class (c : Char) :
    Pyre.classMatches [.range '=' '=', .range ',' ',', .range '+' '+', .space] true c =
      valueChar c := by
  simp only [Pyre.classMatches, List.any_cons, List.any_nil, range_self, valueChar, Pyre.isSpace]
  grind

/-- The pattern of a property name reads the lenient property names. -/
theorem cellPropertyRe_iff (text : List Char) (h : text.length ≤ Pyre.unbounded) :
    CheckGate.cellPropertyRe.isMatch (String.ofList text) = true ↔ LenientProperty text := by
  have hroot : CheckGate.cellPropertyRe.root = .concat [.start false,
    .cls false [.range 'A' 'Z', .range 'a' 'z'],
    .repeat (.cls false [.range 'A' 'Z', .range 'a' 'z', .range '0' '9', .range '_' '_',
      .range '.' '.', .range '-' '-']) 0 Pyre.unbounded true, .stop false] := rfl
  have hseen : CheckGate.cellPropertyRe.seen (String.ofList text).toList = text :=
    String.toList_ofList
  rw [Pyre.isMatch_anchored hroot, hseen]
  simp only [Pyre.engineDenotes_concat_cons, Pyre.cls_reads, Pyre.repeat_cls_reads h,
    Pyre.engineDenotes_stop, Pyre.engineDenotes_concat_nil, alphabetic_class, property_class]
  constructor
  · rintro ⟨e, m, ⟨first, hfirst, hm⟩, m', ⟨rest, -, hrest, hm'⟩, _, ⟨hstop, rfl⟩, rfl⟩
    exact ⟨first :: rest, ⟨first, rest, rfl, hfirst, hrest⟩,
      Pyre.reads_atStop.1 ⟨m', Pyre.reads_append.2 ⟨m, hm, hm'⟩, hstop⟩⟩
  · rintro ⟨name, ⟨first, rest, rfl, hfirst, hrest⟩, htext⟩
    obtain ⟨j, hj, hstop⟩ := Pyre.reads_atStop.2 htext
    rw [← List.singleton_append, Pyre.reads_append] at hj
    obtain ⟨m, hm, hj⟩ := hj
    exact ⟨j, m, ⟨first, hfirst, hm⟩, j, ⟨rest, Nat.zero_le _, hrest, hj⟩, j, ⟨hstop, rfl⟩, rfl⟩

/-- The pattern of a dimension reads the lenient parts. -/
theorem cellDimensionRe_iff (text : List Char) (h : text.length ≤ Pyre.unbounded) :
    CheckGate.cellDimensionRe.isMatch (String.ofList text) = true ↔ LenientPart text := by
  have hroot : CheckGate.cellDimensionRe.root = .concat [.start false,
    .cls false [.range 'A' 'Z', .range 'a' 'z'],
    .repeat (.cls false [.range 'A' 'Z', .range 'a' 'z', .range '0' '9', .range '_' '_',
      .range '-' '-']) 0 Pyre.unbounded true, .char '=',
    .repeat (.cls true [.range '=' '=', .range ',' ',', .range '+' '+', .space]) 1
      Pyre.unbounded true, .stop false] := rfl
  have hseen : CheckGate.cellDimensionRe.seen (String.ofList text).toList = text :=
    String.toList_ofList
  rw [Pyre.isMatch_anchored hroot, hseen]
  simp only [Pyre.engineDenotes_concat_cons, Pyre.cls_reads, Pyre.repeat_cls_reads h,
    Pyre.char_reads, Pyre.engineDenotes_stop, Pyre.engineDenotes_concat_nil, alphabetic_class,
      dimension_class, value_class]
  constructor
  · rintro ⟨e, m₁, ⟨first, hfirst, h₁⟩, m₂, ⟨rest, -, hrest, h₂⟩, m₃, h₃, m₄,
      ⟨value, hlen, hvalue, h₄⟩, _, ⟨hstop, rfl⟩, rfl⟩
    refine ⟨first :: rest, value, ⟨first, rest, rfl, hfirst, hrest⟩, ?_, hvalue,
      Pyre.reads_atStop.1 ⟨m₄, ?_, hstop⟩⟩
    · exact List.ne_nil_of_length_pos hlen
    · exact Pyre.reads_append.2 ⟨m₂, Pyre.reads_append.2 ⟨m₁, h₁, h₂⟩,
        Pyre.reads_append.2 ⟨m₃, h₃, h₄⟩⟩
  · rintro ⟨name, value, ⟨first, rest, rfl, hfirst, hrest⟩, hne, hvalue, htext⟩
    obtain ⟨j, hj, hstop⟩ := Pyre.reads_atStop.2 htext
    rw [Pyre.reads_append, ← List.singleton_append] at hj
    obtain ⟨m₂, hname, hj⟩ := hj
    rw [Pyre.reads_append] at hname
    obtain ⟨m₁, h₁, h₂⟩ := hname
    rw [← List.singleton_append, Pyre.reads_append] at hj
    obtain ⟨m₃, h₃, h₄⟩ := hj
    exact ⟨j, m₁, ⟨first, hfirst, h₁⟩, m₂, ⟨rest, Nat.zero_le _, hrest, h₂⟩, m₃, h₃, j,
      ⟨value, List.length_pos_of_ne_nil hne, hvalue, h₄⟩, j, ⟨hstop, rfl⟩, rfl⟩

/-- The grammar of a cell, read along the split at its first `@`. -/
theorem lenientCell_iff {cell property dimensions : List Char}
    (hs : Text.splitOnce '@' cell = some (property, dimensions)) :
    LenientCell cell ↔ dimensions ≠ [] ∧ LenientProperty property ∧
      ∀ part ∈ dimensions.splitOn '+', LenientPart part := by
  constructor
  · rintro ⟨p, d, hat, hcell, hd, hp, hparts⟩
    have hpd := Text.splitOnce_eq_some_iff.2 ⟨hat, hcell⟩
    simp only [hs, Option.some.injEq, Prod.mk.injEq] at hpd
    obtain ⟨rfl, rfl⟩ := hpd
    exact ⟨hd, hp, hparts⟩
  · rintro ⟨hd, hp, hparts⟩
    obtain ⟨hat, hcell⟩ := Text.splitOnce_eq_some_iff.1 hs
    exact ⟨property, dimensions, hat, hcell, hd, hp, hparts⟩

/-- A cell without an at sign is no cell. -/
theorem not_lenientCell {cell : List Char} (hs : Text.splitOnce '@' cell = none) :
    ¬ LenientCell cell := by
  rintro ⟨property, dimensions, -, rfl, -⟩
  simp [Text.splitOnce_eq_none_iff] at hs

/-- **The gate's cells.** -/
theorem check_gate_cell_iff (cell : Str) :
    CheckGate.cellProblem cell.1 = none ↔ LenientCell cell.1.toList := by
  have hlen {s : List Char} (h : s.length ≤ cell.1.toList.length) : s.length ≤ Pyre.unbounded := by
    have := cell.2
    unfold Pyre.unbounded
    omega
  unfold CheckGate.cellProblem Text.partition
  cases hs : Text.splitOnce '@' cell.1.toList with
  | none => simp [not_lenientCell hs]
  | some found =>
    obtain ⟨property, dimensions⟩ := found
    obtain ⟨hat, hcell⟩ := Text.splitOnce_eq_some_iff.1 hs
    have hp := cellPropertyRe_iff property (hlen (by simp [hcell]))
    have hd (part : List Char) (hmem : part ∈ dimensions.splitOn '+') :=
      cellDimensionRe_iff part (hlen ((Text.length_le_of_mem_splitOn hmem).trans (by
        simp only [hcell, List.length_append, List.length_cons]
        omega)))
    rw [lenientCell_iff hs, ← hp, ← forall₂_congr hd]
    by_cases hdim : dimensions = []
    · simp [hdim]
    · by_cases hm : CheckGate.cellPropertyRe.isMatch (String.ofList property) = true <;>
        simp [hdim, hm, List.findSome?_eq_none_iff]

/-! ## The comparison tool -/

/-- A property has no white space in it. -/
theorem not_whitespace_of_propertyTail {c : Char} (h : propertyTail c = true) :
    Text.isWhitespace c = false := by
  simp only [propertyTail, Bool.or_eq_true, decide_eq_true_eq] at h
  rcases h with ((h | rfl) | rfl) | rfl
  · exact Text.not_whitespace_of_alphanumeric h
  · rfl
  · rfl
  · rfl

/-- A character of a dimension is one of a property. -/
theorem propertyTail_of_dimensionTail {c : Char} (h : dimensionTail c = true) :
    propertyTail c = true := by
  simp only [dimensionTail, propertyTail, Bool.or_eq_true] at h ⊢
  tauto

/-- A name has no white space in it. -/
theorem not_whitespace_of_mem_name {tail : Char → Bool}
    (ht : ∀ c, tail c = true → propertyTail c = true)
    {name : List Char} (h : IsName isAsciiAlphabetic tail name) :
    ∀ c ∈ name, Text.isWhitespace c = false := by
  obtain ⟨first, rest, rfl, hfirst, hrest⟩ := h
  intro c hc
  rcases List.mem_cons.1 hc with rfl | hc
  · exact Text.not_whitespace_of_alphanumeric (by simp [isAsciiAlphanumeric, hfirst])
  · exact not_whitespace_of_propertyTail (ht c (hrest c hc))

/-- A text without whitespace that is a word up to a newline is the word. -/
theorem UpToNewline.eq {word text : List Char} (h : UpToNewline word text)
    (hw : ∀ c ∈ text, Text.isWhitespace c = false) : text = word := by
  rcases h with h | rfl
  · exact h
  · exact absurd (hw '\n' (by simp)) (by decide)

/-- `is_property_name` is the pattern's property without white space. -/
theorem isPropertyName_iff (text : List Char) :
    MandateCompare.isPropertyName text = true ↔
      LenientProperty text ∧ ∀ c ∈ text, Text.isWhitespace c = false := by
  have hname : MandateCompare.isPropertyName text = true ↔
      IsName isAsciiAlphabetic propertyTail text := by
    cases text with
    | nil => simp [MandateCompare.isPropertyName, IsName]
    | cons first rest => simp [MandateCompare.isPropertyName, IsName, propertyTail]
  rw [hname]
  constructor
  · intro h
    exact ⟨⟨text, h, .inl rfl⟩, not_whitespace_of_mem_name (fun _ => id) h⟩
  · rintro ⟨⟨name, hn, htext⟩, hw⟩
    rwa [htext.eq hw]

/-- A dimension's name has no equals sign. -/
theorem equals_not_mem_name {name : List Char} (h : IsName isAsciiAlphabetic dimensionTail name) :
    '=' ∉ name := by
  obtain ⟨first, rest, rfl, hfirst, hrest⟩ := h
  intro hmem
  rcases List.mem_cons.1 hmem with rfl | hmem
  · exact absurd hfirst (by decide)
  · exact absurd (hrest '=' hmem) (by decide)

/-- A character that ends no value for the comparison tool. -/
def StrictValue (value : List Char) : Prop :=
  value ≠ [] ∧ ∀ c ∈ value, ¬ (c = '=' ∨ c = ',' ∨ c = '+' ∨ Text.isWhitespace c = true)

/-- A part that is split at its equals sign is read if both sides are. -/
theorem parseDimensionPart_isSome_of_split {part name value : List Char}
    (hs : Text.splitOnce '=' part = some (name, value)) :
    (MandateCompare.parseDimensionPart part).isSome = true ↔
      IsName isAsciiAlphabetic dimensionTail name ∧ StrictValue value := by
  unfold MandateCompare.parseDimensionPart
  rw [hs, Option.bind_eq_bind, Option.bind_some]
  cases name with
  | nil => simp [IsName]
  | cons first rest =>
    simp only [IsName, StrictValue, dimensionTail, List.cons.injEq]
    grind

/-- What `parse_dimension_part` accepts, as a word. -/
theorem parseDimensionPart_isSome_iff (part : List Char) :
    (MandateCompare.parseDimensionPart part).isSome = true ↔
      ∃ name value, part = name ++ '=' :: value ∧ IsName isAsciiAlphabetic dimensionTail name ∧
        StrictValue value := by
  constructor
  · intro h
    cases hs : Text.splitOnce '=' part with
    | none => simp [MandateCompare.parseDimensionPart, hs] at h
    | some found =>
      obtain ⟨name, value⟩ := found
      exact ⟨name, value, (Text.splitOnce_eq_some_iff.1 hs).2,
        (parseDimensionPart_isSome_of_split hs).1 h⟩
  · rintro ⟨name, value, hpart, hname, hvalue⟩
    have hs := Text.splitOnce_eq_some_iff.2 ⟨equals_not_mem_name hname, hpart⟩
    exact (parseDimensionPart_isSome_of_split hs).2 ⟨hname, hvalue⟩

/-- The stricter value is the pattern's without white space. -/
theorem strictValue_iff (value : List Char) :
    StrictValue value ↔ (value ≠ [] ∧ ∀ c ∈ value, valueChar c = true) ∧
      ∀ c ∈ value, Text.isWhitespace c = false := by
  have hascii := @Text.isWhitespace_of_ascii
  simp only [StrictValue, valueChar]
  grind

/-- A part that `parse_dimension_part` reads is the pattern's without white space. -/
theorem lenientPart_iff (part : List Char) :
    (MandateCompare.parseDimensionPart part).isSome = true ↔
      LenientPart part ∧ ∀ c ∈ part, Text.isWhitespace c = false := by
  rw [parseDimensionPart_isSome_iff]
  constructor
  · rintro ⟨name, value, rfl, hname, hvalue⟩
    obtain ⟨⟨hne, hchars⟩, hw⟩ := (strictValue_iff value).1 hvalue
    refine ⟨⟨name, value, hname, hne, hchars, .inl rfl⟩, fun c hc => ?_⟩
    rcases List.mem_append.1 hc with hc | hc
    · exact not_whitespace_of_mem_name (fun _ => propertyTail_of_dimensionTail) hname c hc
    · rcases List.mem_cons.1 hc with rfl | hc
      · rfl
      · exact hw c hc
  · rintro ⟨⟨name, value, hname, hne, hchars, htext⟩, hw⟩
    obtain rfl := htext.eq hw
    refine ⟨name, value, rfl, hname, (strictValue_iff value).2 ⟨⟨hne, hchars⟩, fun c hc => ?_⟩⟩
    exact hw c (by simp [hc])

/-- **The comparison tool's cells.** -/
theorem mandate_compare_cell_iff (cell : String) :
    MandateCompare.cellProblem cell = none ↔
      LenientCell cell.toList ∧ ∀ c ∈ cell.toList, Text.isWhitespace c = false := by
  unfold MandateCompare.cellProblem MandateCompare.splitCell
  cases hs : Text.splitOnce '@' cell.toList with
  | none => simp [not_lenientCell hs]
  | some found =>
    obtain ⟨property, dimensions⟩ := found
    obtain ⟨-, hcell⟩ := Text.splitOnce_eq_some_iff.1 hs
    -- whitespace of the cell stands in the property or in one of the parts
    have hws : (∀ c ∈ cell.toList, Text.isWhitespace c = false) ↔
        (∀ c ∈ property, Text.isWhitespace c = false) ∧
          ∀ part ∈ dimensions.splitOn '+', ∀ c ∈ part, Text.isWhitespace c = false := by
      rw [hcell]
      constructor
      · intro h
        refine ⟨fun c hc => h c (by simp [hc]), fun part hmem c hc => ?_⟩
        by_cases hplus : c = '+'
        · rw [hplus]
          rfl
        · have := (Text.mem_iff_mem_splitOn hplus).2 ⟨part, hmem, hc⟩
          exact h c (by simp [this])
      · rintro ⟨hp, hd⟩ c hc
        rcases List.mem_append.1 hc with hc | hc
        · exact hp c hc
        · rcases List.mem_cons.1 hc with rfl | hc
          · rfl
          · by_cases hplus : c = '+'
            · rw [hplus]
              rfl
            · obtain ⟨part, hmem, hcp⟩ := (Text.mem_iff_mem_splitOn hplus).1 hc
              exact hd part hmem c hcp
    rw [lenientCell_iff hs, hws]
    have hparts : (∀ part ∈ dimensions.splitOn '+',
          (MandateCompare.parseDimensionPart part).isSome = true) ↔
        (∀ part ∈ dimensions.splitOn '+', LenientPart part) ∧
          ∀ part ∈ dimensions.splitOn '+', ∀ c ∈ part, Text.isWhitespace c = false := by
      simp only [lenientPart_iff, ← forall₂_and]
    have hprop := isPropertyName_iff property
    by_cases hdim : dimensions = []
    · simp [hdim]
    · by_cases hp : MandateCompare.isPropertyName property = true
      · simp only [hdim, if_false, hp, Bool.not_true, Bool.false_eq_true,
          List.findSome?_eq_none_iff, ite_eq_right_iff, reduceCtorEq, imp_false,
          Bool.not_eq_true, Option.isNone_eq_false_iff, hparts, ne_eq, not_false_eq_true, true_and]
        tauto
      · simp only [hdim, if_false, hp]
        tauto

/-- **The two grammars.** The gate and the comparison tool give the same answer on a cell exactly
when it is no cell even for the patterns, or holds no whitespace. -/
theorem cell_problem_agree_iff (cell : Str) :
    (CheckGate.cellProblem cell.1 = none ↔ MandateCompare.cellProblem cell.1 = none) ↔
      (LenientCell cell.1.toList → ∀ c ∈ cell.1.toList, Text.isWhitespace c = false) := by
  rw [check_gate_cell_iff, mandate_compare_cell_iff]
  tauto

/-- A value with a no-break space in it is a cell for the gate and none for the comparison. -/
theorem cell_problem_differ :
    CheckGate.cellProblem "rtt@tier=a\u00a0b" = none ∧
      MandateCompare.cellProblem "rtt@tier=a\u00a0b" ≠ none := by
  refine ⟨by decide, by decide⟩

end CellGrammar

end RtpMux
