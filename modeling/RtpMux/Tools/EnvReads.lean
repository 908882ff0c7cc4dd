import RtpMux.Offsets
import RtpMux.Tools.Forwarders
import RtpMux.Tools.RustStrip

/-!
# The names that the sources read from the environment (`tools/check_gate/env_tier.rs`)

`rust_env_read_names` takes each source in two forms, with its comments blanked and with its
literals blanked too. In the second it looks for functions and closures and takes their bodies from
both. Then it asks which of them read the environment, themselves or through others, and collects
the names that are read directly, through a constant, or where a forwarder expects one.

The texts are searched by patterns, whose offsets count characters, and as strings, whose offsets
count bytes; both offsets go into the lists of characters. A panic is `none`. The bracket depths are
`i32` and wrap, as in `RtpMux.Tools.Forwarders`.
-/

namespace RtpMux.CheckGate

open Pyre (Regex Match Found)

/-! ## Patterns -/

/-- A function up to the parenthesis that opens its parameters. -/
def fnRe : Regex :=
  Pyre.compiled
    "\\b(?:pub\\s+)?(?:async\\s+)?(?:unsafe\\s+)?(?:const\\s+)?fn\\s+([A-Za-z0-9_]+)\\s*(?:<[^>]*>)?\\s*\\("
    (Regex.new_isOk String.toList_ofList (by decide +kernel))

/-- A closure that is bound to a name, up to its first bar. -/
def closureRe : Regex :=
  Pyre.compiled
    "\\blet\\s+(?:mut\\s+)?([A-Za-z_][A-Za-z0-9_]*)\\s*(?::[^=;]*)?=\\s*(?:move\\s*)?\\|"
    (Regex.new_isOk String.toList_ofList (by decide +kernel))

/-- A constant string with its text. -/
def constStrRe : Regex :=
  Pyre.compiled
    "\\b(?:pub(?:\\s*\\([^)]*\\))?\\s+)?(?:const|static)\\s+([A-Za-z_][A-Za-z0-9_]*)\\s*:\\s*&(?:'static\\s+)?str\\s*=\\s*\"([^\"\\n]*)\""
    (Regex.new_isOk String.toList_ofList (by decide +kernel))

/-- A read of the environment by a literal name. -/
def envLiteralRe : Regex :=
  Pyre.compiled "env::var(?:_os)?\\s*\\(\\s*\"([A-Za-z_][A-Za-z0-9_]*)\""
    (Regex.new_isOk String.toList_ofList (by decide +kernel))

/-- A read of the environment by the name of a constant or a parameter. -/
def envIdentRe : Regex :=
  Pyre.compiled "env::var(?:_os)?\\s*\\(\\s*([A-Za-z_][A-Za-z0-9_]*)"
    (Regex.new_isOk String.toList_ofList (by decide +kernel))

/-- An identifier. -/
def rustIdentRe : Regex :=
  Pyre.compiled "[A-Za-z_][A-Za-z0-9_]*" (Regex.new_isOk String.toList_ofList (by decide +kernel))

/-- A string literal on one line. -/
def stringLiteralRe : Regex :=
  Pyre.compiled "\"([^\"\\n]*)\"" (Regex.new_isOk String.toList_ofList (by decide +kernel))

/-- The name of a variable that the tier rules are about. -/
def envNameRe : Regex :=
  Pyre.compiled "^[A-Z][A-Z0-9_]\x7b2,\x7d$"
    (Regex.new_isOk String.toList_ofList (by decide +kernel))

/-- The name of a variable that belongs to the toolchain. -/
def toolchainEnvRe : Regex :=
  Pyre.compiled "^CARGO(?:$|_)" (Regex.new_isOk String.toList_ofList (by decide +kernel))

/-! ## Parameters -/

/-- The loop of `split_top_level`, with the piece at hand the other way round. -/
def splitTopLevelFrom (depth : Int32) (piece : List Char) : List Char → List (List Char)
  | [] => [piece.reverse]
  | c :: rest =>
    if c ∈ "([\x7b".toList then splitTopLevelFrom (depth + 1) (c :: piece) rest
    else if c ∈ ")]\x7d".toList then splitTopLevelFrom (depth - 1) (c :: piece) rest
    else if c = ',' ∧ depth = 0 then piece.reverse :: splitTopLevelFrom depth [] rest
    else splitTopLevelFrom depth (c :: piece) rest

/-- `split_top_level`: the pieces between the commas at bracket depth 0, but those that are
blank. -/
def splitTopLevel (text : List Char) : List (List Char) :=
  (splitTopLevelFrom 0 [] text).filter fun piece => piece.any fun c => !Text.isWhitespace c

/-- The name of one parameter, empty where there is none. -/
def parameterName (item : List Char) : List Char :=
  let head := Text.trim (item.takeWhile (· ≠ ':'))
  let head := if "mut ".toList.isPrefixOf head then Text.trim (head.drop 4) else head
  if head = ['_'] ∨ rustIdentRe.fullMatch (String.ofList head) = none then [] else head

/-- `parameter_names`. -/
def parameterNames (text : List Char) : List (List Char) := (splitTopLevel text).map parameterName

example : splitTopLevel "a: (u8, u8), , mut b: [u8; 2]".toList =
    ["a: (u8, u8)".toList, " mut b: [u8; 2]".toList] := by
  decide

/-! ## Bodies -/

/-- The loop of `brace_end_chars`: how far it is to the closing brace. -/
def closingBrace (depth : Int32) : List Char → Option Nat
  | [] => none
  | c :: rest =>
    if c = '{' then (closingBrace (depth + 1) rest).map (· + 1)
    else if c = '}' then
      if depth - 1 = 0 then some 0 else (closingBrace (depth - 1) rest).map (· + 1)
    else (closingBrace depth rest).map (· + 1)

/-- `brace_end_chars`: the index of the `}` that closes the `{` at `openIndex`, or the last
index. -/
def braceEndChars (chars : List Char) (openIndex : Nat) : Nat :=
  match closingBrace 0 (chars.drop openIndex) with
  | some length => openIndex + length
  | none => chars.length - 1

/-- `find_char`. -/
def findChar (chars : List Char) (needle : Char) (start : Nat) : Option (Option Nat) :=
  if start ≤ chars.length then some (((chars.drop start).findIdx? (· = needle)).map (start + ·))
    else none

/-- The same stretch of both forms of a source. -/
def bothSlices (code quiet : List Char) (start stop : Nat) : Option (List Char × List Char) :=
  (slice? code start stop).bind fun codeBody => (slice? quiet start stop).map fun quietBody =>
    (codeBody, quietBody)

/-- `closure_body`. -/
def closureBody (code quiet : List Char) (headerEnd : Nat) :
    Option (Option (List Char × List Char)) :=
  (findChar quiet '{' headerEnd).bind fun brace =>
    (findChar quiet ';' headerEnd).bind fun semi =>
      match brace.filter fun brace => semi.all (brace < ·) with
      | some brace => (bothSlices code quiet brace (braceEndChars quiet brace)).map some
      | none =>
        match semi with
        | some semi => (bothSlices code quiet headerEnd semi).map some
        | none => some none

/-! ## Sources -/

/-- A source file and its text. -/
structure RustSource where
  path : List Char
  raw : List Char

/-- A source in both forms. -/
structure Scanned where
  path : List Char
  /-- with comments blanked -/
  code : List Char
  /-- with comments and literals blanked -/
  quiet : List Char

/-- Both forms of a source: with its comments blanked, and with its literals blanked too. -/
def RustSource.scan (source : RustSource) : Option Scanned :=
  (stripRustComments source.raw false).bind fun code =>
    (stripRustComments source.raw true).map fun quiet => ⟨source.path, code, quiet⟩

/-- The turn of the first loop for one match of `fnRe`: nothing where there is no brace behind
it. -/
def Scanned.fnForwarder (s : Scanned) (found : Match) : Option (Option Forwarder) :=
  match (found.groups[0]?).join with
  | none => some none
  | some name =>
    (Utf8.sliceFrom s.quiet found.stop).bind fun behind =>
      match Utf8.find '{' behind with
      | none => some none
      | some opening =>
        let start := found.stop + opening
        if found.stop = 0 then none
        else
          (bothSlices s.code s.quiet start (braceEndChars s.quiet start)).map fun body =>
            some ⟨name.toList, parameterNames (callArguments s.quiet (found.stop - 1)), body.1,
              body.2, s.path⟩

/-- The turn of the second loop for one match of `closureRe`. -/
def Scanned.closureForwarder (s : Scanned) (found : Match) : Option (Option Forwarder) :=
  match (found.groups[0]?).join with
  | none => some none
  | some name =>
    (Utf8.sliceFrom s.quiet found.stop).bind fun behind =>
      match Utf8.find '|' behind with
      | none => some none
      | some bar =>
        let close := found.stop + bar
        (closureBody s.code s.quiet (close + 1)).bind fun
          | none => some none
          | some (codeBody, quietBody) =>
            (slice? s.quiet found.stop close).map fun header =>
              some ⟨name.toList, parameterNames header, codeBody, quietBody, s.path⟩

/-- The functions and the closures of a source. -/
def Scanned.forwarders (s : Scanned) : Option (List Forwarder) :=
  ((fnRe.findIter (String.ofList s.quiet)).mapM s.fnForwarder).bind fun fns =>
    ((closureRe.findIter (String.ofList s.quiet)).mapM s.closureForwarder).map fun closures =>
      fns.reduceOption ++ closures.reduceOption

/-- All sources, and their functions and closures. -/
def gather (sources : List RustSource) : Option (List Scanned × List Forwarder) :=
  (sources.mapM RustSource.scan).bind fun scanned =>
    (scanned.mapM Scanned.forwarders).map fun forwarders => (scanned, forwarders.flatten)

/-! ## Readers -/

/-- Whether one of the calls in a body is a call of a reader. -/
def Forwarder.callsReader (forwarder : Forwarder) (readers : Finset (List Char)) : Bool :=
  (callRe.findIter (String.ofList forwarder.quietBody)).any fun found =>
    match (found.groups[0]?).join with
    | some callee => callee.toList ∈ readers
    | none => false

/-- One pass over the forwarders. A name that joins the readers counts at once. -/
def readersPass (forwarders : List Forwarder) (readers : Finset (List Char)) :
    Finset (List Char) × Bool :=
  forwarders.foldl (fun s forwarder =>
    if forwarder.name ∈ s.1 then s
    else if forwarder.callsReader s.1 then (insert forwarder.name s.1, true)
    else s) (readers, false)

/-- Those that read the environment, themselves or through others; none is out of fuel. -/
def envReaders (fuel : Nat) (forwarders : List Forwarder) : Option (Finset (List Char)) :=
  untilQuiet (readersPass forwarders) fuel
    ((forwarders.filter fun forwarder => envReadRe.isMatch (String.ofList forwarder.quietBody)).map
      Forwarder.name).toFinset

/-! ## Names -/

/-- Where each name is read. -/
abbrev EnvReads := HashMap (List Char) (Finset (List Char))

/-- `Regex::match_from`. -/
def matchFrom (r : Regex) (text : List Char) (start : Nat) : Bool :=
  (r.attempt (r.seen text) start Pyre.acceptAny).isSome

/-- `remember_env_read`, with the path as it is shown below the root. -/
def rememberEnvRead (shown : List Char → List Char) (path : List Char) (found : EnvReads)
    (literal : String) :
    EnvReads :=
  if envNameRe.isMatch literal = false ∨ toolchainEnvRe.isMatch literal = true then found
  else found.insert literal.toList (insert (shown path) ((found.lookup literal.toList).getD ∅))

/-- Note a constant, if its declaration is not within a literal. -/
def Scanned.noteAlias (s : Scanned) (aliases : HashMap (List Char) String) (found : Found) :
    Option (HashMap (List Char) String) :=
  match (found.captures[1]?).join, (found.captures[2]?).join with
  | some name, some literal =>
    (bothSlices s.code s.quiet found.start (literal.1 - 1)).map fun declaration =>
      if declaration.1 = declaration.2 then
        aliases.insert (Pyre.slice s.code name).toList (Pyre.slice s.code literal)
      else aliases
  | _, _ => some aliases

/-- The names that one source reads by themselves and through its constants. -/
def Scanned.envReads (shown : List Char → List Char) (found : EnvReads) (s : Scanned) :
    Option EnvReads :=
  let direct := (envLiteralRe.findIter (String.ofList s.code)).foldl (fun found read =>
    match (read.groups[0]?).join with
    | some literal =>
      if matchFrom envReadRe s.quiet read.start then rememberEnvRead shown s.path found literal
        else found
    | none => found) found
  ((constStrRe.findIterFound (String.ofList s.code)).foldlM s.noteAlias ∅).map fun aliases =>
    (envIdentRe.findIter (String.ofList s.quiet)).foldl (fun found read =>
      match ((read.groups[0]?).join).bind fun identifier => aliases.lookup identifier.toList with
      | some literal => rememberEnvRead shown s.path found literal
      | none => found) direct

/-- `KeyPositions::positions`. -/
def KeyPositions.positions (keys : KeyPositions) (callee path : List Char) : Finset Nat :=
  calleePositions keys.byFile keys.byName path callee

/-- The literals of one argument. -/
def Forwarder.literalsAt (shown : List Char → List Char) (forwarder : Forwarder)
    (spans : List (Nat × Nat))
    (found : EnvReads) (index : Nat) : Option EnvReads :=
  match spans[index]? with
  | none => some found
  | some (start, stop) =>
    (slice? forwarder.codeBody start stop).map fun argument =>
      (stringLiteralRe.findIter (String.ofList argument)).foldl (fun found literal =>
        match (literal.groups[0]?).join with
        | some literal => rememberEnvRead shown forwarder.path found literal
        | none => found) found

/-- The names that one call passes where its callee reads one. -/
def Forwarder.callLiterals (shown : List Char → List Char) (readers : Finset (List Char))
    (keys : KeyPositions)
    (forwarder : Forwarder) (found : EnvReads) (call : Match) : Option EnvReads :=
  match (call.groups[0]?).join with
  | none => some found
  | some callee =>
    let positions := keys.positions callee.toList forwarder.path
    if callee.toList ∉ readers ∨ positions = ∅ then some found
    else if call.stop = 0 then none
    else
      (positions.sort (· ≤ ·)).foldlM
        (forwarder.literalsAt shown (argumentSpans forwarder.quietBody (call.stop - 1))) found

/-- The names that the calls in a forwarder's body hand to a reader. -/
def Forwarder.envReads (shown : List Char → List Char) (readers : Finset (List Char))
    (keys : KeyPositions)
    (found : EnvReads) (forwarder : Forwarder) : Option EnvReads :=
  (callRe.findIter (String.ofList forwarder.quietBody)).foldlM
    (forwarder.callLiterals shown readers keys) found

/-- `rust_env_read_names`, over the sources that were found; `shown` is how a path is shown below
the root. -/
def rustEnvReadNames (fuel : Nat) (shown : List Char → List Char) (sources : List RustSource) :
    Option EnvReads :=
  (gather sources).bind fun (scanned, forwarders) =>
    (envReaders fuel forwarders).bind fun readers =>
      (forwarderKeyPositions fuel forwarders readers).bind fun keys =>
        (scanned.foldlM (Scanned.envReads shown) ∅).bind fun found =>
          forwarders.foldlM (Forwarder.envReads shown readers keys) found

end RtpMux.CheckGate
