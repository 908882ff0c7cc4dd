import Mathlib.Algebra.Order.Field.Rat
import RtpMux.JsonTree
import RtpMux.Numerals

/-!
# Reading JSON

The recursive-descent parser of `tools/json.rs` and that of `tools/pyjson.rs`, which are the same
but for three things: what becomes of a member whose key is there already, whether a bare control
character may stand in a string, and how the text of a number is converted. The two sources read
bytes; a `&str` is valid UTF-8 and everything they look for is ASCII, so they are always between two
characters, and the model reads characters.
-/

namespace RtpMux.JsonReader

open Text (isAsciiDigit isAsciiWhitespace)
open JsonTree (Run)
open Numerals (I64)

/-! ## Values -/

/-- `Json` and `J`: a JSON value, over the type of its floats. -/
inductive Value (F : Type) where
  | null
  | bool (value : Bool)
  | int (value : I64)
  | float (value : F)
  | str (text : String)
  | array (items : List (Value F))
  | object (members : List (String × Value F))

/-- What a parser stopped at, with the text from there on, from which each message takes its
position. -/
inductive Error where
  | unexpected (text : List Char)
  | expectedWord (word : String) (text : List Char)
  /-- No quote where a key is to stand. `json.rs` reports the quote, as for `expected`. -/
  | expectedKey (text : List Char)
  | expected (byte : Char) (text : List Char)
  | expectedMemberEnd (text : List Char)
  | expectedItemEnd (text : List Char)
  | unterminatedString
  | controlCharacter (text : List Char)
  | unterminatedEscape
  | unknownEscape (escape : Char)
  /-- A truncated or an invalid escape, by the four bytes in front. -/
  | badUnicodeEscape (text : List Char)
  | invalidCodePoint (code : Nat)
  | invalidNumber (text : List Char)
  | trailing (text : List Char)
  /-- Not an error of the sources: the model's recursion ran out of fuel. -/
  | outOfFuel
deriving Repr, DecidableEq

/-- Where the two parsers differ. -/
structure Dialect (F : Type) where
  refusesControl : Bool
  insert : List (String × Value F) → String → Value F → List (String × Value F)
  convert : (text : List Char) → (isFloat : Bool) → Option (Value F)

/-! ## Strings and numbers -/

/-- `skip_whitespace`. -/
def skipWhitespace (text : List Char) : List Char := text.dropWhile isAsciiWhitespace

/-- A text without the plus sign that may stand in front of a number. -/
def dropPlus : List Char → List Char
  | '+' :: digits => digits
  | digits => digits

/-- `u32::from_str_radix(text, 16)`, of a text too short to overflow. -/
def fromStrRadix16 (text : List Char) : Option Nat :=
  let digits := dropPlus text
  if digits ≠ [] ∧ digits.all (Numerals.isDigit 16) then some (Numerals.valueOf 16 digits) else none

/-- `char::from_u32`. -/
def charFromU32 (code : Nat) : Option Char :=
  if code.isValidChar then some (Char.ofNat code) else none

/-- The escapes of one character. -/
def shortEscape (escape : Char) : Option Char :=
  match escape with
  | '"' => some '"'
  | '\\' => some '\\'
  | '/' => some '/'
  | 'b' => some '\x08'
  | 'f' => some '\x0c'
  | 'n' => some '\n'
  | 'r' => some '\r'
  | 't' => some '\t'
  | _ => none

/-- `Parser::unicode_escape`, on the four characters behind the `u`. -/
def unicodeEscape (digits : List Char) : Except Error Char :=
  match fromStrRadix16 digits with
  | none => .error (.badUnicodeEscape digits)
  | some code =>
    match charFromU32 code with
    | none => .error (.invalidCodePoint code)
    | some character => .ok character

/-- The minus sign of a number. -/
def scanSign (text : List Char) : List Char × List Char :=
  if text.head? = some '-' then (['-'], text.tail) else ([], text)

/-- A point and the digits behind it. -/
def scanFraction (text : List Char) : List Char × List Char :=
  if text.head? = some '.'
    then ('.' :: text.tail.takeWhile isAsciiDigit, text.tail.dropWhile isAsciiDigit)
  else ([], text)

/-- The sign of an exponent, if there is one. -/
def scanExponentSign (text : List Char) : List Char × List Char :=
  match text with
  | '+' :: text => (['+'], text)
  | '-' :: text => (['-'], text)
  | text => ([], text)

/-- An exponent with its letter. -/
def scanExponent (text : List Char) : List Char × List Char :=
  match text with
  | mark :: rest =>
    if mark = 'e' ∨ mark = 'E' then
      let (sign, rest) := scanExponentSign rest
      (mark :: (sign ++ rest.takeWhile isAsciiDigit), rest.dropWhile isAsciiDigit)
    else ([], text)
  | [] => ([], [])

/-- The scan of `Parser::number`: the text of a number, whether a point or an exponent stands in it,
and what stands behind it. -/
def scanNumber (text : List Char) : List Char × Bool × List Char :=
  let (sign, text) := scanSign text
  let whole := text.takeWhile isAsciiDigit
  let (fraction, text) := scanFraction (text.dropWhile isAsciiDigit)
  let (exponent, text) := scanExponent text
  (sign ++ (whole ++ (fraction ++ exponent)), fraction ≠ [] ∨ exponent ≠ [], text)

/-- `Parser::literal`. -/
def literal (word : String) (text : List Char) : Except Error (List Char) :=
  if word.toList.isPrefixOf text then .ok (text.drop word.toList.length)
    else .error (.expectedWord word text)

variable {F : Type}

/-- The loop of `Parser::string`, behind the opening quote. -/
def Dialect.string (d : Dialect F) : List Char → List Char → Except Error (List Char × List Char)
  | _, [] => .error .unterminatedString
  | out, byte :: rest =>
    if d.refusesControl = true ∧ byte.toNat < 0x20 then .error (.controlCharacter (byte :: rest))
    else if byte = '"' then .ok (out, rest)
    else if byte = '\\' then
      match rest with
      | [] => .error .unterminatedEscape
      | escape :: rest =>
        if escape = 'u' then
          match rest with
          | a :: b :: c :: e :: rest =>
            match unicodeEscape [a, b, c, e] with
            | .ok character => d.string (out ++ [character]) rest
            | .error error => .error error
          | _ => .error (.badUnicodeEscape rest)
        else
          match shortEscape escape with
          | some character => d.string (out ++ [character]) rest
          | none => .error (.unknownEscape escape)
    else d.string (out ++ [byte]) rest

/-- `Parser::number`. -/
def Dialect.number (d : Dialect F) (text : List Char) : Except Error (Value F × List Char) :=
  match scanNumber text with
  | (number, isFloat, rest) =>
    match d.convert number isFloat with
    | some value => .ok (value, rest)
    | none => .error (.invalidNumber number)

/-! ## The parser -/

mutual

/-- `Parser::value`. -/
def Dialect.value (d : Dialect F) : Nat → List Char → Except Error (Value F × List Char)
  | 0, _ => .error .outOfFuel
  | fuel + 1, text =>
    match skipWhitespace text with
    | '{' :: rest =>
      match skipWhitespace rest with
      | '}' :: rest => .ok (.object [], rest)
      | rest => d.members fuel [] rest
    | '[' :: rest =>
      match skipWhitespace rest with
      | ']' :: rest => .ok (.array [], rest)
      | rest => d.items fuel [] rest
    | '"' :: rest => do
      let (text, rest) ← d.string [] rest
      pure (.str (String.ofList text), rest)
    | 't' :: rest => do
      let rest ← literal "true" ('t' :: rest)
      pure (.bool true, rest)
    | 'f' :: rest => do
      let rest ← literal "false" ('f' :: rest)
      pure (.bool false, rest)
    | 'n' :: rest => do
      let rest ← literal "null" ('n' :: rest)
      pure (.null, rest)
    | text =>
      if text.head?.any fun c => c = '-' || isAsciiDigit c then d.number text
      else .error (.unexpected text)

/-- The loop of `Parser::array`. -/
def Dialect.items (d : Dialect F) : Nat → List (Value F) → List Char →
    Except Error (Value F × List Char)
  | 0, _, _ => .error .outOfFuel
  | fuel + 1, items, text => do
    let (item, rest) ← d.value fuel text
    match skipWhitespace rest with
    | ',' :: rest => d.items fuel (items ++ [item]) rest
    | ']' :: rest => pure (.array (items ++ [item]), rest)
    | rest => .error (.expectedItemEnd rest)

/-- The loop of `Parser::object`. -/
def Dialect.members (d : Dialect F) : Nat → List (String × Value F) → List Char →
    Except Error (Value F × List Char)
  | 0, _, _ => .error .outOfFuel
  | fuel + 1, members, text =>
    match skipWhitespace text with
    | '"' :: rest => do
      let (key, rest) ← d.string [] rest
      match skipWhitespace rest with
      | ':' :: rest => do
        let (value, rest) ← d.value fuel rest
        let members := d.insert members (String.ofList key) value
        match skipWhitespace rest with
        | ',' :: rest => d.members fuel members rest
        | '}' :: rest => pure (.object members, rest)
        | rest => .error (.expectedMemberEnd rest)
      | rest => .error (.expected ':' rest)
    | text => .error (.expectedKey text)

end

/-- `parse`. The fuel is two for each character: one for a value, one for the item or member that it
is. -/
def Dialect.parse (d : Dialect F) (text : String) : Except Error (Value F) := do
  let (value, rest) ← d.value (2 * text.toList.length + 1) text.toList
  match skipWhitespace rest with
  | [] => pure value
  | rest => .error (.trailing rest)

end RtpMux.JsonReader
