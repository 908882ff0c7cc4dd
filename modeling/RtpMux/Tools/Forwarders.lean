import Mathlib.Data.Finset.Sort
import RtpMux.HashMap
import RtpMux.Passes
import RtpMux.Tools.PyreIter

/-!
# Forwarders of environment names (`tools/check_gate/env_tier.rs`)

A forwarder is a function or a closure of the scanned sources. Some of its parameters are names of
environment variables: those it reads itself with `env::var`, and those it passes on where another
forwarder expects one. `forwarder_key_positions` collects the positions of these parameters, pass by
pass, until a pass finds no new one.

Within a pass the entries of the file at hand are looked up as they are at that moment, and the
positions of a name over all files as they were when the pass began. The bracket depths are `i32`
and wrap, as in a build that does not check its arithmetic; with checks, a text with 2^31 brackets
open at once panics instead.
-/

namespace RtpMux.CheckGate

open Pyre (Regex Match)

/-- A function or a closure of the scanned sources. -/
structure Forwarder where
  name : List Char
  /-- the names of the parameters; empty where there is none -/
  params : List (List Char)
  /-- the body, with comments blanked -/
  codeBody : List Char
  /-- the body, with comments and literals blanked -/
  quietBody : List Char
  path : List Char

/-- A forwarder's entry: the file and the name. -/
def Forwarder.key (forwarder : Forwarder) : List Char × List Char :=
  (forwarder.path, forwarder.name)

/-! ## Arguments -/

/-- A direct read of the environment. -/
def envReadRe : Regex := Pyre.compiled "env::var(?:_os)?\\s*\\(" (by decide +kernel)

/-- A call, by the path of the function it calls. -/
def callRe : Regex :=
  Pyre.compiled "([A-Za-z_][A-Za-z0-9_]*(?:::[A-Za-z_][A-Za-z0-9_]*)*)\\s*\\("
    (Regex.new_isOk String.toList_ofList (by decide +kernel))

/-- The loop of `call_arguments`: how far it is to the closing parenthesis. -/
def closingParen (depth : Int32) : List Char → Option Nat
  | [] => none
  | c :: rest =>
    if c = '(' then (closingParen (depth + 1) rest).map (· + 1)
    else if c = ')' then
      if depth - 1 = 0 then some 0 else (closingParen (depth - 1) rest).map (· + 1)
    else (closingParen depth rest).map (· + 1)

/-- `call_arguments`: the text inside the parentheses whose `(` is at `openIndex`. -/
def callArguments (chars : List Char) (openIndex : Nat) : List Char :=
  match closingParen 0 (chars.drop openIndex) with
  | some length => (chars.take (openIndex + length)).drop (openIndex + 1)
  | none => []

/-- The loop that takes the `&` off an argument. -/
def withoutRefs : Nat → List Char → List Char
  | fuel + 1, '&' :: rest => withoutRefs fuel (rest.dropWhile Text.isWhitespace)
  | _, name => name

/-- `parameter_position`: the index of the parameter that `argument` names. -/
def parameterPosition (argument : List Char) (params : List (List Char)) : Option Nat :=
  let name := withoutRefs argument.length (Text.trim argument)
  params.findIdx? fun param => param ≠ [] ∧ param = name

/-- The loop of `argument_spans`. -/
def argumentSpansFrom (depth : Int32) (start index : Nat) : List Char → List (Nat × Nat)
  | [] => []
  | c :: rest =>
    if c ∈ "([\x7b".toList then argumentSpansFrom (depth + 1) start (index + 1) rest
    else if c ∈ ")]\x7d".toList then
      if depth - 1 = 0 then if start < index then [(start, index)] else []
      else argumentSpansFrom (depth - 1) start (index + 1) rest
    else if c = ',' ∧ depth = 1 then (start, index) ::
      argumentSpansFrom depth (index + 1) (index + 1) rest
    else argumentSpansFrom depth start (index + 1) rest

/-- `argument_spans`: where each top-level argument of the call at `openIndex` starts and ends. -/
def argumentSpans (text : List Char) (openIndex : Nat) : List (Nat × Nat) :=
  argumentSpansFrom 0 (openIndex + 1) openIndex (text.drop openIndex)

example : argumentSpans "f(a, g(b, c), &d)".toList 1 = [(2, 3), (4, 12), (13, 16)] := by decide

example : parameterPosition " & &key ".toList ["".toList, "key".toList] = some 1 := by decide

/-! ## The passes -/

/-- The positions of each entry. -/
abbrev ByFile := HashMap (List Char × List Char) (Finset Nat)

/-- `KeyPositions`. -/
structure KeyPositions where
  byFile : ByFile
  byName : HashMap (List Char) (Finset Nat)

/-- The positions of the parameters that a forwarder reads itself, put to those of its entry. -/
def Forwarder.directReads (forwarder : Forwarder) (slot : Finset Nat) : Finset Nat :=
  (envReadRe.findIter (String.ofList forwarder.quietBody)).foldl (fun slot read =>
    match parameterPosition (callArguments forwarder.quietBody (read.stop - 1))
      forwarder.params with
    | some position => insert position slot
    | none => slot) slot

/-- The first loop. -/
def directPositions (forwarders : List Forwarder) : ByFile :=
  forwarders.foldl (fun byFile forwarder =>
    byFile.insert forwarder.key (forwarder.directReads ((byFile.lookup forwarder.key).getD ∅))) ∅

/-- Put the positions of an entry to those of its name. -/
def addPositions (byName : HashMap (List Char) (Finset Nat))
    (entry : Sigma fun _ : List Char × List Char => Finset Nat) :
    HashMap (List Char) (Finset Nat) :=
  byName.insert entry.1.2 ((byName.lookup entry.1.2).getD ∅ ∪ entry.2)

/-- The positions of each name, over all files. -/
def byNameOf (byFile : ByFile) : HashMap (List Char) (Finset Nat) :=
  byFile.entries.foldl addPositions ∅

/-- The parameter that a call passes on as its argument with the number `index`. -/
def Forwarder.passedAt (forwarder : Forwarder) (found : Match) (index : Nat) : Option Nat :=
  match (argumentSpans forwarder.quietBody (found.stop - 1))[index]? with
  | some (start, stop) =>
    parameterPosition ((forwarder.quietBody.take stop).drop start) forwarder.params
  | none => none

/-- The positions of a callee, as a pass sees them. -/
def calleePositions (byFile : ByFile) (byName : HashMap (List Char) (Finset Nat))
    (path callee : List Char) : Finset Nat :=
  ((byFile.lookup (path, callee)).or (byName.lookup callee)).getD ∅

/-- One call in a forwarder's body. -/
def passCall (readers : Finset (List Char)) (byFile : ByFile)
    (byName : HashMap (List Char) (Finset Nat))
    (forwarder : Forwarder) (slot : Finset Nat × Bool) (found : Match) : Finset Nat × Bool :=
  match (found.groups[0]?).join with
  | none => slot
  | some callee =>
    if callee.toList ∉ readers then slot
    else
      ((calleePositions byFile byName forwarder.path callee.toList).sort (· ≤ ·)).foldl
        (fun slot index => noteOption (forwarder.passedAt found index) slot) slot

/-- One forwarder within a pass. Its own entry is put back when its calls are done. -/
def passForwarder (readers : Finset (List Char)) (byName : HashMap (List Char) (Finset Nat))
    (s : ByFile × Bool)
    (forwarder : Forwarder) : ByFile × Bool :=
  let slot := (s.1.lookup forwarder.key).getD ∅
  let byFile := s.1.insert forwarder.key slot
  let result := (callRe.findIter (String.ofList forwarder.quietBody)).foldl
      (passCall readers byFile byName forwarder)
    (slot, s.2)
  (byFile.insert forwarder.key result.1, result.2)

/-- One pass over all forwarders. -/
def keyPass (forwarders : List Forwarder) (readers : Finset (List Char)) (s : KeyPositions) :
    KeyPositions × Bool :=
  let byName := byNameOf s.byFile
  let result := forwarders.foldl (passForwarder readers byName) (s.byFile, false)
  (⟨result.1, byName⟩, result.2)

/-- `forwarder_key_positions`; none is out of fuel. -/
def forwarderKeyPositions (fuel : Nat) (forwarders : List Forwarder)
    (readers : Finset (List Char)) : Option KeyPositions :=
  untilQuiet (keyPass forwarders readers) fuel ⟨directPositions forwarders, ∅⟩

end RtpMux.CheckGate
