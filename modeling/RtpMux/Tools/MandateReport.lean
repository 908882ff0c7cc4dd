import RtpMux.Sorted
import RtpMux.Tools.CellGrammar
import RtpMux.Tools.Json

/-!
# The reports that are compared

A report of the mandate check as the comparison loads it: a JSON object of a schema it can read with
at least one arm record, indexed by arm id. What the file system gave for the path is an input.
Numbers are exact rationals; how they are printed is a parameter, `Formats`.
-/

namespace RtpMux.MandateCompare

/-- How numbers and other values are printed. -/
structure Formats where
  /-- a float, `json::format_float` -/
  float : ℚ → String
  /-- an array or an object, `{:?}` -/
  debug : Json → String
  /-- a relative change, `{:+.1}%` of a hundredfold -/
  signedPercent : ℚ → String
  /-- a relative tolerance, `{:.0}%` of a hundredfold -/
  tolerancePercent : ℚ → String
  /-- an absolute change, `{:+.3}` -/
  signedFixed : ℚ → String
  /-- an absolute tolerance, `{:.3}` -/
  fixed : ℚ → String

/-! ## Scalars -/

/-- A number that remembers whether it was written as an integer. -/
structure Num where
  integral : Bool
  value : ℚ

/-- `Scalar`. -/
inductive Scalar where
  | null
  | num (number : Num)
  | text (string : String)

namespace Scalar

variable (formats : Formats)

/-- `Scalar::from_json`. -/
def fromJson : Json → Scalar
  | .null => .null
  | .int n => .num ⟨true, n⟩
  | .float x => .num ⟨false, x⟩
  | .str string => .text string
  | .bool flag => .text (if flag then "True" else "False")
  | other => .text (formats.debug other)

/-- `Scalar::display`. -/
def display : Scalar → String
  | .null => "None"
  | .num n => if n.integral then toString n.value.num else formats.float n.value
  | .text string => string

/-- `Scalar::number`. -/
def number : Scalar → Option ℚ
  | .num n => some n.value
  | _ => none

/-- `eq_scalar`: numbers compare by value. -/
def eqScalar (left right : Scalar) : Bool :=
  match left, right with
  | .num left, .num right => left.value = right.value
  | .null, .null => true
  | .text left, .text right => left = right
  | _, _ => false

@[simp] theorem eqScalar_self (scalar : Scalar) : scalar.eqScalar scalar = true := by
  cases scalar <;> simp [eqScalar]

@[simp] theorem number_fromJson (json : Json) : (fromJson formats json).number = json.asNumber := by
  cases json <;> rfl

end Scalar

/-- `relative_change`: nothing for a baseline of zero or without a number. -/
def relativeChange (baseline candidate : Scalar) : Option ℚ :=
  match baseline.number with
  | none => none
  | some old =>
    if old = 0 then none
    else candidate.number.map fun new => (new - old) / old

/-- The number members of a JSON object. -/
def numbers (formats : Formats) (mapping : Option Json) (key : String) : Option Scalar :=
  ((mapping.bind (Json.get · key)).filter Json.isNumber).map (Scalar.fromJson formats)

/-! ## Loading -/

/-- What reading the report's path gave. -/
inductive ReportSource where
  | absent
  | unreadable (error : String)
  | parsed (payload : Json)

/-- `Report`. -/
structure Report where
  path : String
  payload : Json
  arms : HashMap String Json

/-- The report is of a quick run. -/
def Report.quick (report : Report) : Bool := (report.payload.get "quick").any Json.truthy

/-- `str::parse::<u32>`. -/
def parseU32 (text : List Char) : Option Nat :=
  let digits := match text with
    | '+' :: rest => rest
    | _ => text
  if digits = [] ∨ !digits.all Text.isAsciiDigit then none
  else
    let value := digits.foldl (fun value digit => value * 10 + (digit.toNat - 48)) 0
    if value < 2 ^ 32 then some value else none

/-- `schema_version`: the version of `mandate-check/<version>`. -/
def schemaVersion (schema : Json) : Option Nat := do
  let text ← schema.asStr
  let word := "mandate-check/".toList
  if word.isPrefixOf text.toList then parseU32 (text.toList.drop word.length) else none

/-- `MINIMUM_SCHEMA`. -/
def minimumSchema : Nat := 3

/-- `json_display`: a text in quotes, anything else as a scalar. -/
def jsonDisplay (formats : Formats) : Json → String
  | .str text => "'" ++ text ++ "'"
  | other => (Scalar.fromJson formats other).display formats

/-- The arms of a report by id, added to those indexed before. -/
def armIndexFrom (index : HashMap String Json) : List Json → Except String (HashMap String Json)
  | [] => .ok index
  | arm :: arms =>
    match (arm.get "id").bind Json.asStr with
    | none => .error "an arm record has no id, so it cannot be compared"
    | some id =>
      if (index.lookup id).isSome then
        .error ("the arm '" ++ id ++
          "' is recorded twice; a reader cannot tell which record the comparison should read")
      else armIndexFrom (index.insert id arm) arms

/-- `arm_index`: `id -> arm record`. -/
def armIndex (arms : List Json) : Except String (HashMap String Json) := armIndexFrom ∅ arms

/-- `load_report`. -/
def loadReport (formats : Formats) (role path : String) (source : ReportSource) :
    Except String Report :=
  let problem (text : String) : Except String Report :=
    .error ("the " ++ role ++ " report " ++ path ++ text)
  match source with
  | .absent => problem " does not exist"
  | .unreadable error => problem (" cannot be read: " ++ error)
  | .parsed payload =>
    if payload.asObject.isNone then problem " is not a JSON object"
    else
      let schema := payload.get "schema"
      match schema.bind schemaVersion with
      | none =>
        problem (" declares schema " ++ (schema.map (jsonDisplay formats)).getD "None" ++
          ", not a 'mandate-check/<version>' this command can read")
      | some version =>
        if version < minimumSchema then
          problem (" is schema " ++ (schema.bind Json.asStr).getD "" ++
            ", which predates the per-arm record (mandate-check/" ++ toString minimumSchema ++
            "); re-record it with tools/mandate-check before comparing")
        else
          match (payload.get "arms").bind Json.asArray with
          | none | some [] =>
            problem (" carries no arm records, so there is nothing to compare; " ++
              "a report with no arms cannot certify coverage")
          | some (arm :: arms) => do
            let index ← armIndex (arm :: arms)
            pure ⟨path, payload, index⟩

end RtpMux.MandateCompare
