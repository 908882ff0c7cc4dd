import RtpMux.Sorted
import RtpMux.Tools.JsonNumbers
import RtpMux.Tools.MandateLines
import RtpMux.Tools.PyreIter

/-!
# Arm lines (`tools/mandate_check/lines.rs`)

A producer prints one `[mandate-smoke <label>]` line for each arm it measured. A line that carries a
`section=` token is attributed at once; any other waits for the next verdict line and takes its id.
`parse_arm_lines` walks the events with a list of what is waiting, and sorts the arms by id in the
end.

The time of an event is not read here, so an event is its line. The floats of the report are a
parameter, with what the source takes of them.
-/

namespace RtpMux.MandateCheck

open JsonReader (Value)
open Numerals (I64 parseI64)
open Pyre (Regex Match)

/-- What the source takes of the standard library's characters and floats. -/
structure Prims (F : Type) where
  isAlphanumeric : Char → Bool
  /-- `str::parse::<f64>` -/
  parseF64 : List Char → Option F
  isFinite : F → Bool
  /-- `number as i64` -/
  asI64 : F → I64

variable {F : Type}

/-! ## Values -/

section Coerce

variable (prims : Prims F)

/-- Whether the underscore at an index stands between two characters of a number. -/
def joinsDigits (chars : List Char) (index : Nat) : Bool :=
  let isPart := fun c : Char => prims.isAlphanumeric c || c = '_'
  ((if index = 0 then none else chars[index - 1]?).any isPart) && (chars[index + 1]?.any isPart)

/-- `strip_underscores`. -/
def stripUnderscores (text : List Char) : Option (List Char) :=
  if '_' ∉ text then some text
  else if (List.range text.length).all fun index =>
    text[index]? ≠ some '_' || joinsDigits prims text index then
    let cleaned := text.filter (· ≠ '_')
    if '_' ∈ cleaned then none else some cleaned
  else none

/-- `py_int`. -/
def pyInt (text : List Char) : Option I64 := (stripUnderscores prims text).bind parseI64

/-- `py_float`. -/
def pyFloat (text : List Char) : Option F := (stripUnderscores prims text).bind prims.parseF64

/-- The text is read as a finite number. -/
def isNumber (text : List Char) : Bool := (pyFloat prims text).any prims.isFinite

/-- `coerce_value`: a finite number where the token is one, else the token. -/
def coerceValue (text : List Char) : Value F :=
  match pyInt prims text with
  | some value => .int value
  | none =>
    match pyFloat prims text with
    | some number => if prims.isFinite number then .float number else .str (String.ofList text)
    | none => .str (String.ofList text)

/-- `ARM_UNIT_SUFFIXES`. -/
def armUnitSuffixes : List Char := ['B', 's']

/-- `coerce_measure`: the value of a measurement and its unit. -/
def coerceMeasure (token : List Char) : Value F × Option Char :=
  match token.getLast? with
  | some last =>
    if 1 < token.length ∧ last ∈ armUnitSuffixes ∧ isNumber prims token.dropLast then
      (coerceValue prims token.dropLast, some last)
    else (coerceValue prims token, none)
  | none => (coerceValue prims token, none)

end Coerce

/-- `Ordered`: the members of an object in the order of their line. -/
abbrev Ordered (F : Type) := List (String × Value F)

/-- `Ordered::insert`: a key that is there keeps its first value. -/
def Ordered.insert (values : Ordered F) (key : String) (value : Value F) : Ordered F :=
  if (values.lookup key).isSome then values else values ++ [(key, value)]

/-! ## Arms -/

/-- `ARM_STAT_KEYS`. -/
def armStatKeys : List String :=
  ["p50", "p90", "p99", "p999", "max", "min", "mean", "std", "over250", "delivery", "fraction",
    "share", "imbalance",
    "min_share", "max_share", "ideal_share", "delivered_mib_s", "shaper_mib_s", "capacity_mib_s"]

/-- `ARM_COUNTER_KEYS`: a key as it is printed, and as it is recorded. -/
def armCounterKeys : List (String × String) :=
  [("sent", "sent"), ("recv", "received"), ("received", "received"), ("wire", "wire_bytes"),
    ("wire_bytes", "wire_bytes"), ("bulk_sink", "bulk_sink_bytes"),
      ("bulk_sink_bytes", "bulk_sink_bytes"),
    ("bulk_wire", "bulk_wire_bytes"), ("bulk_wire_bytes", "bulk_wire_bytes"),
      ("forwarded", "forwarded_bytes"),
    ("forwarded_bytes", "forwarded_bytes"), ("delivered", "delivered_bytes"),
      ("delivered_bytes", "delivered_bytes"),
    ("offered", "offered_bytes"), ("offered_bytes", "offered_bytes")]

/-- `ARM_WINDOW_KEYS`: a key as it is printed, and as it is recorded. -/
def armWindowKeys : List (String × String) :=
  [("window", "window_seconds"), ("window_s", "window_seconds"), ("wall", "wall_seconds"),
    ("wall_s", "wall_seconds"),
    ("elapsed", "elapsed_seconds"), ("elapsed_seconds", "elapsed_seconds"),
      ("measured_s", "measured_seconds")]

/-- One `[mandate-smoke <arm>]` line as the report carries it. A line of neither documented shape is
a note. -/
structure Arm (F : Type) where
  id : Option String
  mandate : Option String
  label : String
  dialect : Option String
  sampleCount : Option I64
  stats : HashMap String (Value F)
  counters : HashMap String (Value F)
  windows : HashMap String (Value F)
  cells : List String
  values : Ordered F
  rawLine : String
  repeatedKeys : List String
  note : Bool
  body : String
  producer : Option String

/-- `Arm::note_entry`. -/
def Arm.noteEntry (label body : String) : Arm F :=
  ⟨none, none, label, none, none, ∅, ∅, ∅, [], [], "", [], true, body, none⟩

/-- The values that a table gives a name, under that name. -/
def renamed (keys : List (String × String)) (values : Ordered F) : HashMap String (Value F) :=
  values.foldl (fun map entry => match keys.lookup entry.1 with
    | some named => map.insert named entry.2
    | none => map) ∅

/-- The samples of an arm: what it counted as received. -/
def sampleCountOf (prims : Prims F) (counters : HashMap String (Value F)) : Option I64 :=
  (counters.lookup "received").bind fun
    | .int number => some number
    | .float number => some (prims.asI64 number)
    | _ => none

/-- `arm_record`: the record of a parsed arm line. -/
def armRecord (prims : Prims F) (label body : String) (dialect : Option String)
    (values : Ordered F) : Arm F where
  id := none
  mandate := none
  label := label
  dialect := dialect
  sampleCount := sampleCountOf prims (renamed armCounterKeys values)
  stats := renamed (armStatKeys.map fun key => (key, key)) values
  counters := renamed armCounterKeys values
  windows := renamed armWindowKeys values
  cells := []
  values := values
  rawLine := if body = "" then "[mandate-smoke " ++ label ++ "]" else "[mandate-smoke " ++ label ++
    "] " ++ body
  repeatedKeys := []
  note := false
  body := body
  producer := none

/-! ## One line -/

/-- `arm_line_re`. -/
def armLineRe : Regex :=
  Pyre.compiled "^\\[mandate-smoke (?P<label>[^\\]]*)\\](?:[ \\t]+(?P<body>.*?))?[ \\t]*$"
    (Regex.new_isOk String.toList_ofList (by decide +kernel))

/-- `arm_token_re`. -/
def armTokenRe : Regex :=
  Pyre.compiled "(?P<key>[A-Za-z_][A-Za-z0-9_]*)=[ \\t]*(?P<value>[^\\s=]+)"
    (Regex.new_isOk String.toList_ofList (by decide +kernel))

/-- The pattern of a repetition of a bulk arm. -/
def armBulkRepPattern : String :=
  "^delivered (?P<delivered_mib_s>[0-9.]+) MiB/s over (?P<elapsed_seconds>[0-9.]+)s, shaper forwarded " ++
    "(?P<shaper_mib_s>[0-9.]+) MiB/s, capacity (?P<capacity_mib_s>[0-9.]+) MiB/s, fraction " ++
    "(?P<fraction>[0-9.]+) \\((?P<delivered_bytes>[0-9]+) / (?P<forwarded_bytes>[0-9]+) bytes\\)$"

/-- A pattern that begins with a letter at the start of the text. -/
def beginsWith (c : Char) (r : Regex) : Bool :=
  !r.ignorecase && match r.root with
    | .concat (.start false :: .char first :: _) => first = c
    | _ => false

theorem toList_append_of {a b : String} {as bs : List Char} (ha : a.toList = as)
    (hb : b.toList = bs) :
    (a ++ b).toList = as ++ bs := by
  rw [String.toList_append, ha, hb]

theorem armBulkRepPattern_toList :
    ∃ chars, armBulkRepPattern.toList = chars ∧
      (Regex.newOfChars chars ⟨false, false, false⟩).toOption.any (beginsWith 'd') = true :=
  ⟨_, toList_append_of (toList_append_of String.toList_ofList String.toList_ofList)
    String.toList_ofList,
    by decide +kernel⟩

theorem armBulkRepPattern_begins : (Regex.new armBulkRepPattern false).toOption.any
    (beginsWith 'd') = true := by
  obtain ⟨chars, hchars, h⟩ := armBulkRepPattern_toList
  rw [Regex.new, Regex.newWithFlags_eq hchars]
  exact h

/-- `arm_bulk_rep_re`. -/
def armBulkRepRe : Regex :=
  Pyre.compiled armBulkRepPattern (by
    have h := armBulkRepPattern_begins
    cases hnew : Regex.new armBulkRepPattern false with
    | ok r => rfl
    | error e =>
      rw [hnew] at h
      cases h)

/-- The groups of that pattern, in the order in which they are recorded. -/
def bulkRepKeys : List String :=
  ["delivered_mib_s", "elapsed_seconds", "shaper_mib_s", "capacity_mib_s", "fraction",
    "delivered_bytes",
    "forwarded_bytes"]

section ParseArm

variable (prims : Prims F)

/-- The values of a bulk repetition. -/
def bulkRepValues (bulk : Match) : Ordered F :=
  bulkRepKeys.foldl (fun values key => match bulk.named key with
    | some text => Ordered.insert values key (coerceValue prims text.toList)
    | none => values) []

/-- One token of an arm line: a key that is there already is noted as repeated. -/
def armToken (acc : Ordered F × List String) (token : Match) : Ordered F × List String :=
  let key := (token.named "key").getD ""
  let raw := (token.named "value").getD ""
  if (acc.1.lookup key).isSome then (acc.1, acc.2 ++ [key])
  else (Ordered.insert acc.1 key (coerceMeasure prims raw.toList).1, acc.2)

/-- The part of `parse_arm_line` behind the label, with the match of a bulk repetition that is all
of the body. -/
def parseArmBody (label body : String) (bulk : Option Match) : Arm F :=
  match bulk with
  | some bulk => armRecord prims label body (some "bulk-rep") (bulkRepValues prims bulk)
  | none =>
    let (values, repeated) := (armTokenRe.findIter body).foldl (armToken prims) ([], [])
    if values = [] then Arm.noteEntry label body
    else { armRecord prims label body (some "kv") values with repeatedKeys := sortedSet repeated }

/-- `parse_arm_line`: the arm of a line, or none where the line is no arm line at all. -/
def parseArmLine (line : String) : Option (Arm F) :=
  (armLineRe.search line).map fun found =>
    let label := String.ofList (Text.trim ((found.named "label").getD "").toList)
    let body := String.ofList (Text.trim ((found.named "body").getD "").toList)
    if label = "" then Arm.noteEntry label body
    else parseArmBody prims label body ((armBulkRepRe.search body).filter fun bulk =>
      (Pyre.slice body.toList (bulk.start, bulk.stop)).toList.length = body.toList.length)

end ParseArm

/-! ## The walk -/

/-- The lists of `parse_arm_lines`. -/
structure ArmWalk (F : Type) where
  arms : List (Arm F)
  notes : List (Arm F)
  pending : List (Arm F)

/-- An arm that is attributed to a section. -/
def Arm.attributed (arm : Arm F) (section' : String) : Arm F :=
  { arm with mandate := some section', id := some (section' ++ "/" ++ arm.label) }

/-- One round of the loop of `flush`. -/
def flushEntry (section' : String) (w : ArmWalk F) (entry : Arm F) : ArmWalk F :=
  if entry.note then { w with notes := w.notes ++ [{ entry with mandate := some section' }] }
  else { w with arms := w.arms ++ [entry.attributed section'] }

/-- `flush`: everything that waits belongs to a section. -/
def flush (section' : String) (w : ArmWalk F) : ArmWalk F :=
  { w.pending.foldl (flushEntry section') w with pending := [] }

/-- The section an arm names itself, where its value is text. -/
def Arm.sectionToken (arm : Arm F) : Option String :=
  if arm.note then none
  else (arm.values.lookup "section").bind fun
    | .str text => some text
    | _ => none

/-- A line that begins as a verdict does. -/
def startsLikeMandate (line : List Char) : Bool :=
  line ≠ "MANDATE".toList && "MANDATE ".toList.isPrefixOf line

/-- The id on a line that starts like a verdict, where the line is one. -/
def mandateOn (line : List Char) : Option String :=
  (mandateLineRe.search (String.ofList line)).bind fun found => found.named "mandate"

/-- The problem of an arm that no verdict line follows. -/
def unattributed (entry : Arm F) : String :=
  "the arm line " ++ Text.reprStr entry.rawLine ++
    " follows the last 'MANDATE' line and carries no " ++
    "'section=' token, so it cannot be attributed to a mandate or a section; " ++
    "print the arm's line before its section's MANDATE line, or name the section in the line itself"

section Walk

variable (prims : Prims F)

/-- The body of the loop of `parse_arm_lines`. -/
def armStep (w : ArmWalk F) (raw : Str) : ArmWalk F :=
  let line := Text.trimEnd raw.1.toList
  if startsLikeMandate line then
    match mandateOn line with
    | some mandate => flush mandate w
    | none => w
  else
    match parseArmLine prims (String.ofList line) with
    | none => w
    | some parsed =>
      match parsed.sectionToken with
      | some section' => { w with arms := w.arms ++ [parsed.attributed section'] }
      | none => { w with pending := w.pending ++ [parsed] }

/-- One round of the loop over what still waits in the end. -/
def settleEntry (s : List (Arm F) × List String) (entry : Arm F) : List (Arm F) × List String :=
  if entry.note then (s.1 ++ [entry], s.2) else (s.1, s.2 ++ [unattributed entry])

/-- What `parse_arm_lines` returns, and the problems it leaves. -/
structure ArmLines (F : Type) where
  arms : List (Arm F)
  notes : List (Arm F)
  problems : List String

/-- `Option`'s order of the ids: none is first. -/
def idLe (left right : Arm F) : Bool :=
  match left.id, right.id with
  | none, _ => true
  | some _, none => false
  | some left, some right => left ≤ right

/-- `parse_arm_lines`. -/
def parseArmLines (events : List Str) (problems : List String) : ArmLines F :=
  let w := events.foldl (armStep prims) ⟨[], [], []⟩
  let (notes, problems) := w.pending.foldl settleEntry (w.notes, problems)
  ⟨w.arms.insertionSort fun left right => idLe left right, notes, problems⟩

end Walk

end RtpMux.MandateCheck
