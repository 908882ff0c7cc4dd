import RtpMux.HashMap
import RtpMux.Tools.PyreIter

/-!
# Imports of a source file (`tools/check_gate/scan.rs`)

`parse_imports` reads the `use` statements of a source with a pattern and takes them apart by their
commas and braces: which bare name comes from which module, and which modules are imported whole. A
module is a path from the crate root, whose own path is the empty text.

Slicing the last three bytes off an item that has fewer panics, so the walk over the items may stop
without a result.
-/

namespace RtpMux.CheckGate

open Pyre (Regex)

/-! ## Paths -/

/-- `split("::")`. -/
def splitPath : List Char → List (List Char)
  | [] => [[]]
  | ':' :: ':' :: rest => [] :: splitPath rest
  | c :: rest =>
    match splitPath rest with
    | [] => [[c]]
    | first :: others => (c :: first) :: others

/-- `join("::")`. -/
def joinPath (segments : List (List Char)) : List Char := [':', ':'].intercalate segments

/-- `EXTERNAL_ROOT_STEMS`. -/
def externalRootStems : List (List Char) :=
  ["netem_test".toList, "rtp".toList, "mux".toList, "rtp_mux".toList, "tokio".toList, "std".toList]

/-- The loop of `normalize_module` over the leading `super` and `self`. -/
def climb (current : List (List Char)) : List (List Char) → List (List Char) × List (List Char)
  | [] => (current, [])
  | segment :: segments =>
    if segment = "super".toList then climb current.dropLast segments
    else if segment = "self".toList then climb current segments
    else (current, segment :: segments)

/-- `normalize_module`: a path as it is written in a module, from the crate root on. -/
def normalizeModule (base currentModule : List Char) : List Char :=
  match (splitPath base).filter (· ≠ []) with
  | [] => currentModule
  | first :: rest =>
    if first = "crate".toList then joinPath rest
    else if first ∈ externalRootStems then joinPath (first :: rest)
    else
      let (current, segments) :=
        climb (if currentModule = [] then [] else splitPath currentModule) (first :: rest)
      joinPath (current ++ segments)

/-! ## Statements -/

/-- The pattern of a `use` statement, with `re.S | re.M`. -/
def useRePattern : String := "^\\s*(?:pub(?:\\([^)]*\\))?\\s+)?use\\s+(.+?);"

theorem useRePattern_compiles :
    (Regex.newWithFlags useRePattern ⟨true, true, false⟩).isOk = true := by
  have hnew : Regex.newWithFlags useRePattern ⟨true, true, false⟩ = _ :=
    Regex.newWithFlags_eq String.toList_ofList ⟨true, true, false⟩
  rw [hnew]
  decide +kernel

/-- `use_re`, with `re.S | re.M`. -/
def useRe : Regex :=
  match Regex.newWithFlags useRePattern ⟨true, true, false⟩, useRePattern_compiles with
  | .ok regex, _ => regex

/-- What `parse_imports` has collected, with the module that the items of a statement come from. -/
structure ImportState where
  imports : HashMap (List Char) (List Char)
  globs : List (List Char)
  baseModule : List Char

/-- What a name is imported as is not read: the item up to ` as `. -/
def itemOf (text : List Char) : List Char :=
  Text.trim (match Text.splitOnceWord " as ".toList text with
    | some (item, _) => item
    | none => text)

/-- An item that imports all of a module. -/
def isGlob (item : List Char) : Bool := item = ['*'] || "::*".toList.isSuffixOf item

/-- The body of the loop over the items of a statement; none where the source panics. -/
def importItem (currentModule : List Char) (s : ImportState) (text : List Char) :
    Option ImportState :=
  let item := itemOf text
  if item = [] then some s
  else if isGlob item then
    if s.baseModule = [] ∧ item.length < 3 then none
    else
      let baseModule :=
        if s.baseModule = [] then normalizeModule (Text.trim (item.take (item.length - 3)))
          currentModule
        else s.baseModule
      some { s with
        baseModule, globs := if baseModule = [] then s.globs else s.globs ++ [baseModule] }
  else if s.baseModule ≠ [] then some { s with imports := s.imports.insert item s.baseModule }
  else
    match (splitPath item).getLast?, (splitPath item).dropLast with
    | some name, segment :: segments =>
      some { s with
        imports := s.imports.insert name
          (normalizeModule (joinPath (segment :: segments)) currentModule) }
    | _, _ => some s

/-- What stands between the braces of a statement, and the module in front of them. -/
def statementParts (currentModule statement : List Char) : List Char × List Char :=
  match Text.splitOnce '{' statement with
  | some (base, rest) =>
    let inner :=
      match Text.splitOnce '}' rest.reverse with
      | some (_, head) => head.reverse
      | none => rest
    (inner, normalizeModule (Text.trim base) currentModule)
  | none => (statement, [])

/-- The items of a statement, one after the other. -/
def importStatement (currentModule : List Char) (s : ImportState) (text : List Char) :
    Option ImportState :=
  let (inner, baseModule) := statementParts currentModule (Text.trim text)
  (inner.splitOn ',').foldlM (importItem currentModule) { s with baseModule }

/-- `parse_imports`. The first group takes part in every match. -/
def parseImports (text : String) (currentModule : List Char) :
    Option (HashMap (List Char) (List Char) × List (List Char)) :=
  (((useRe.findIter text).filterMap fun found => (found.groups[0]?).join).foldlM
    (fun s statement => importStatement currentModule s statement.toList) ⟨∅, [], []⟩).map
      fun s => (s.imports, s.globs)

end RtpMux.CheckGate
