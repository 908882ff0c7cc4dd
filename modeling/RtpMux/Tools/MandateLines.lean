import RtpMux.HashMap
import RtpMux.Tools.PyreCaptures

/-!
# Verdict lines

A producer prints `MANDATE <ID> <PASS|FAIL> <key>=<value> ...` lines among its other output.
`parseMandateLines` walks the lines of the output, turns the verdict lines into records and reports
every line that starts like a verdict and is none as a problem.

The patterns are read as a grammar (`Verdict`, `KeyValue`). Which of the possible matches the
engine picks does not matter: the id and the verdict of a line are unique, and the values are only
looked at through their whitespace-separated tokens, which do not depend on how the pattern
distributes the blanks around them.

What the values are turned into is a parameter: a token's text becomes an integer, a float or a
string of the report, and nothing here depends on it.
-/

namespace RtpMux.MandateCheck

open Pyre (Regex)

variable {V : Type} (coerceValue : String → V)

/-- `mandate_line_re`. -/
def mandateLineRe : Regex :=
  Pyre.compiled
    "^MANDATE (?P<mandate>[A-Za-z][A-Za-z0-9_]*) (?P\x3cverdict>PASS|FAIL)(?:[ \\t]+(?P<values>.*?))?[ \\t]*$"
    (Regex.new_isOk String.toList_ofList (by decide +kernel))

/-- `value_re`. -/
def valueRe : Regex :=
  Pyre.compiled "^(?P<key>[A-Za-z_][A-Za-z0-9_]*)=(?P<value>\\S+)$"
    (Regex.new_isOk String.toList_ofList (by decide +kernel))

/-! ## Lines -/

/-- The characters a line ends at. -/
def isBoundary (c : Char) : Bool :=
  c = '\n' || c = '\r' || c = '\x0b' || c = '\x0c' || c = '\x1c' || c = '\x1d' || c = '\x1e' ||
    c = '\u0085' || c = '\u2028' || c = '\u2029'

/-- The loop of `py_splitlines`, with the line read so far. -/
def pySplitlinesFrom (current : List Char) : List Char → List (List Char)
  | [] => if current = [] then [] else [current]
  | '\r' :: '\n' :: rest => current :: pySplitlinesFrom [] rest
  | c :: rest =>
    if isBoundary c then current :: pySplitlinesFrom [] rest
    else pySplitlinesFrom (current ++ [c]) rest

/-- `py_splitlines`. -/
def pySplitlines (text : List Char) : List (List Char) := pySplitlinesFrom [] text

/-! ## Values -/

/-- One token of a verdict line's values. -/
def parseValue (mandate : String) (lineNumber : Nat) (acc : List (String × V) × List String)
    (token : List Char) : List (String × V) × List String :=
  match valueRe.search (String.ofList token) with
  | none =>
    (acc.1, acc.2 ++ ["line " ++ toString lineNumber ++ ": " ++ mandate ++ " measurement " ++
      Text.reprStr (String.ofList token) ++ " is not a <key>=<value> token"])
  | some found =>
    let key := (found.named "key").getD ""
    if (acc.1.lookup key).isSome then
      (acc.1, acc.2 ++ ["line " ++ toString lineNumber ++ ": " ++ mandate ++ " measurement " ++
        Text.reprStr key ++ " is repeated"])
    else (acc.1 ++ [(key, coerceValue ((found.named "value").getD ""))], acc.2)

/-- `parse_values`: the measurements in the order of the line, and what is wrong with them. -/
def parseValues (mandate : String) (valuesText : List Char) (lineNumber : Nat) :
    List (String × V) × List String :=
  let (values, problems) :=
    (Text.splitWhitespace valuesText).foldl (parseValue coerceValue mandate lineNumber) ([], [])
  if values = [] then
    (values, problems ++ ["line " ++ toString lineNumber ++ ": " ++ mandate ++
      " reports a verdict without a single key=value measurement; " ++
      "a verdict that measures nothing cannot be checked"])
  else (values, problems)

/-! ## Records -/

/-- One `MANDATE` line's parsed record. -/
structure MandateRecord (V : Type) where
  verdict : String
  values : List (String × V)
  rawLine : String

/-- What the walk has collected. -/
structure Parsed (V : Type) where
  records : HashMap String (MandateRecord V)
  problems : List String

/-- Whether a trimmed line is looked at as a verdict line. -/
def startsLikeVerdict (line : List Char) : Bool :=
  line = "MANDATE".toList || "MANDATE ".toList.isPrefixOf line

/-- The problem of a line. -/
def Parsed.problem (s : Parsed V) (lineNumber : Nat) (text : String) : Parsed V :=
  { s with problems := s.problems ++ ["line " ++ toString lineNumber ++ ": " ++ text] }

/-- The body of the loop of `parse_mandate_lines` for a line that matched, with its groups. -/
def parseVerdict (ids : List String) (s : Parsed V) (mandate verdict : String)
    (valuesText line : List Char) (lineNumber : Nat) : Parsed V :=
  if mandate ∉ ids then
    s.problem lineNumber ("mandate " ++ Text.reprStr mandate ++ " " ++
      if ids = [] then
        "names a section, but the producer that printed it declares no verdict section"
      else "is not one of " ++ ", ".intercalate ids)
  else if (s.records.lookup mandate).isSome then
    s.problem lineNumber ("mandate " ++ mandate ++
      " is declared twice; a reader cannot tell which verdict is the run's")
  else
    let parsed := parseValues coerceValue mandate valuesText lineNumber
    { records := s.records.insert mandate ⟨verdict, parsed.1, String.ofList line⟩
      problems := s.problems ++ parsed.2 }

/-- The body of the loop of `parse_mandate_lines`, for one line of the output. -/
def parseMandateLine (ids : List String) (s : Parsed V) (rawLine : List Char) (lineNumber : Nat) :
    Parsed V :=
  let line := Text.trimEnd rawLine
  if !startsLikeVerdict line then s
  else
    match mandateLineRe.search (String.ofList line) with
    | none =>
      s.problem lineNumber
        (Text.reprStr (String.ofList line) ++ " starts with MANDATE but does not " ++
        "match the contract grammar 'MANDATE <ID> <PASS|FAIL> <key>=<value> ...'")
    | some found =>
      parseVerdict coerceValue ids s ((found.named "mandate").getD "")
        ((found.named "verdict").getD "") ((found.named "values").getD "").toList line lineNumber

/-- The walk over the lines, from line `lineNumber` on. -/
def parseMandateLinesFrom (ids : List String) (s : Parsed V) (lineNumber : Nat) :
    List (List Char) → Parsed V
  | [] => s
  | rawLine :: rest =>
    parseMandateLinesFrom ids (parseMandateLine coerceValue ids s rawLine lineNumber)
      (lineNumber + 1) rest

/-- `parse_mandate_lines`: the records by id, and the problems. -/
def parseMandateLines (text : String) (ids : List String) : Parsed V :=
  parseMandateLinesFrom coerceValue ids ⟨∅, []⟩ 1 (pySplitlines text.toList)

end RtpMux.MandateCheck
