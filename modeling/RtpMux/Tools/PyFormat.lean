import RtpMux.Tools.Text
import RtpMux.Numerals
import Mathlib.Data.List.DropRight

/-!
# Format specifications

`tools/pyformat.rs` writes numbers and strings by Python's format specifications. `parseSpec` reads
a specification part by part, each part from what the one before left; the three formatters choose
the text of the value, and `assemble` lays a number out in its field. `none` is a panic: a text of
more than `isize::MAX` bytes, or an engine that does not write what the source expects of it.
-/

namespace RtpMux.Pyformat

open Text

/-! ## Specifications -/

/-- The separators of a group of digits. -/
inductive Separator where
  | comma
  | underscore
  deriving DecidableEq, Repr

/-- A separator as it is written. -/
def Separator.char : Separator → Char
  | .comma => ','
  | .underscore => '_'

/-- `PyFormatError`. -/
inductive PyFormatError where
  | unknownPresentationType (type : Char)
  | missingPrecision
  | invalidFormatSpecifier (spec : List Char)
  | bothGroupingSeparators
  | groupingNotAllowed (separator : Separator) (typeChar : Char)
  | notAllowedForType (what typeName : String)
  | unsupported (what : String)
  deriving DecidableEq, Repr

/-- The alignments `<`, `>`, `=` and `^`. -/
inductive Align where
  | left
  | right
  | afterSign
  | center
  deriving DecidableEq, Repr

/-- `is_align`, with the alignment that the character stands for. -/
def alignOf : Char → Option Align
  | '<' => some .left
  | '>' => some .right
  | '=' => some .afterSign
  | '^' => some .center
  | _ => none

/-- `Spec`: the parsed shape of a specification. -/
structure Spec where
  fill : Char
  fillSpecified : Bool
  align : Align
  alignSpecified : Bool
  sign : Option Char
  noNeg0 : Bool
  alternate : Bool
  width : Option Nat
  grouping : Option Separator
  fracGrouping : Option Separator
  precision : Option Nat
  typeChar : Char
  deriving DecidableEq, Repr

/-- What `parse_spec` starts from. -/
def Spec.default (type : Char) (align : Align) : Spec where
  fill := ' '
  fillSpecified := false
  align := align
  alignSpecified := false
  sign := none
  noNeg0 := false
  alternate := false
  width := none
  grouping := none
  fracGrouping := none
  precision := none
  typeChar := type

/-! ## The parts of a specification -/

/-- The alignment, with the fill in front of it if there is one. -/
def takeAlign (out : Spec) (chars : List Char) : Spec × List Char :=
  match chars with
  | [] => (out, [])
  | first :: rest =>
    match rest.head?.bind alignOf with
    | some align =>
      ({ out with fill := first, align := align, fillSpecified := true, alignSpecified := true },
        rest.tail)
    | none =>
      match alignOf first with
      | some align => ({ out with align := align, alignSpecified := true }, rest)
      | none => (out, first :: rest)

/-- One optional character. -/
def takeIf (p : Char → Bool) (set : Char → Spec → Spec) (out : Spec) (chars : List Char) :
    Spec × List Char :=
  match chars with
  | [] => (out, [])
  | c :: rest => if p c then (set c out, rest) else (out, c :: rest)

/-- An optional character that is not there is not taken. -/
theorem takeIf_of_neg {p : Char → Bool} {set : Char → Spec → Spec} {out : Spec} {chars : List Char}
    (h : ∀ c, chars.head? = some c → p c = false) : takeIf p set out chars = (out, chars) := by
  unfold takeIf
  cases chars with
  | nil => rfl
  | cons c rest =>
    have hc := h c rfl
    simp [hc]

/-- The sign option. -/
def takeSign : Spec → List Char → Spec × List Char :=
  takeIf (fun c => c = ' ' || c = '+' || c = '-') fun c out => { out with sign := some c }

/-- The option `z`. -/
def takeNoNeg0 : Spec → List Char → Spec × List Char :=
  takeIf (· = 'z') fun _ out => { out with noNeg0 := true }

/-- The option `#`. -/
def takeAlternate : Spec → List Char → Spec × List Char :=
  takeIf (· = '#') fun _ out => { out with alternate := true }

/-- The `0` in front of a width: it is the fill, unless one was given. The alignment follows it
whatever the type's own alignment is. -/
def takeZero (out : Spec) : List Char → Spec × List Char :=
  takeIf (fun c => !out.fillSpecified && c = '0')
    (fun _ out =>
      { out with fill := '0', align := if out.alignSpecified then out.align else .afterSign }) out

/-- The loop over the digits of a `usize`: its value so far, whether it ever ran over, and the
rest. -/
def numeralLoop : Nat → Bool → List Char → Nat × Bool × List Char
  | value, overflow, [] => (value, overflow, [])
  | value, overflow, c :: rest =>
    if isAsciiDigit c then
      let next := value * 10 + (c.toNat - '0'.toNat)
      if next < 2 ^ 64 then numeralLoop next overflow rest else numeralLoop 0 true rest
    else (value, overflow, c :: rest)

/-- A numeral ends behind its digits. -/
theorem numeralLoop_rest (value : Nat) (overflow : Bool) (chars : List Char) :
    (numeralLoop value overflow chars).2.2 = chars.dropWhile isAsciiDigit := by
  induction chars generalizing value overflow with
  | nil => rfl
  | cons c rest ih =>
    rw [numeralLoop]
    by_cases hc : isAsciiDigit c = true
    · rw [if_pos hc, List.dropWhile_cons_of_pos hc]
      dsimp only
      split
      · exact ih _ _
      · exact ih _ _
    · rw [if_neg hc, List.dropWhile_cons_of_neg hc]

/-- The width. -/
def takeWidth (out : Spec) (chars : List Char) : Except PyFormatError (Spec × List Char) :=
  let (value, overflow, rest) := numeralLoop 0 false chars
  if overflow then .error (.unsupported "width too large")
  else .ok ({ out with width := if rest.length = chars.length then none else some value }, rest)

/-- A `,` and then a `_`, of which at most one may stand there. -/
def takeSeparators (set : Separator → Spec → Spec) (get : Spec → Option Separator) (out : Spec)
    (chars : List Char) : Except PyFormatError (Spec × List Char) :=
  let (out, chars) := takeIf (· = ',') (fun _ => set .comma) out chars
  if chars.head? = some '_' then
    if (get out).isSome then .error .bothGroupingSeparators
      else .ok (set .underscore out, chars.tail)
  else .ok (out, chars)

/-- The separator of the digits in front of the point. -/
def takeGrouping (out : Spec) (chars : List Char) : Except PyFormatError (Spec × List Char) :=
  (takeSeparators (fun c out => { out with grouping := some c }) Spec.grouping out chars).bind
    fun (out, chars) =>
    if chars.head? = some ',' ∧ out.grouping = some .underscore then .error .bothGroupingSeparators
    else .ok (out, chars)

/-- The precision behind its point, with a separator of its own. -/
def takePrecision (out : Spec) (chars : List Char) : Except PyFormatError (Spec × List Char) :=
  match chars with
  | '.' :: start =>
    let (value, overflow, rest) := numeralLoop 0 false start
    if overflow then .error (.unsupported "precision too big")
    else
      (takeSeparators (fun c out => { out with
        fracGrouping := some c }) Spec.fracGrouping out rest).bind
        fun (out, rest) =>
          if rest.length = start.length then .error .missingPrecision
          else .ok ({ out with precision := some value }, rest)
  | _ => .ok (out, chars)

/-- The type: at most one character is left. -/
def takeType (spec : List Char) (out : Spec) (chars : List Char) : Except PyFormatError Spec :=
  match chars with
  | [] => .ok out
  | [c] => .ok { out with typeChar := c }
  | _ => .error (.invalidFormatSpecifier spec)

/-- The types that take any separator. -/
def groupingTypes : List Char := ['d', 'e', 'f', 'g', 'E', 'G', '%', 'F', '\x00']

/-- The checks behind the parser: what a separator may stand with. -/
def validate (out : Spec) : Except PyFormatError Spec :=
  match out.fracGrouping with
  | some separator =>
    if out.typeChar = 'n' then .error (.groupingNotAllowed separator 'n') else grouped
  | none => grouped
where
  grouped : Except PyFormatError Spec :=
    match out.grouping with
    | none => .ok out
    | some separator =>
      if out.typeChar ∈ groupingTypes then .ok out
      else if out.typeChar ∈ ['b', 'o', 'x', 'X'] ∧ separator = .underscore then .ok out
      else .error (.groupingNotAllowed separator out.typeChar)

/-- The parts in front of the width. -/
def takeFront (out : Spec) (chars : List Char) : Spec × List Char :=
  let (out, chars) := takeAlign out chars
  let (out, chars) := takeSign out chars
  let (out, chars) := takeNoNeg0 out chars
  let (out, chars) := takeAlternate out chars
  takeZero out chars

/-- The parts behind the width. -/
def takeBack (spec : List Char) (out : Spec) (chars : List Char) : Except PyFormatError Spec :=
  (takeGrouping out chars).bind fun (out, chars) =>
    (takePrecision out chars).bind fun (out, chars) => (takeType spec out chars).bind validate

/-- `parse_spec`. -/
def parseSpec (spec : List Char) (defaultType : Char) (defaultAlign : Align) :
    Except PyFormatError Spec :=
  let front := takeFront (.default defaultType defaultAlign) spec
  (takeWidth front.1 front.2).bind fun (out, chars) => takeBack spec out chars

/-! ## Strings of a bounded size -/

/-- `isize::MAX`. -/
def isizeMax : Nat := 2 ^ 63 - 1

/-- The bytes of a text in UTF-8. -/
def utf8Len (text : List Char) : Nat := (text.map Char.utf8Size).sum

/-- A `String` of this text. Its capacity is at most `isize::MAX` bytes; one that has to be larger
is a panic. -/
def built (text : List Char) : Option (List Char) :=
  if utf8Len text ≤ isizeMax then some text else none

/-- A string of the source: what it holds fits. -/
structure Str where
  chars : List Char
  fits : utf8Len chars ≤ isizeMax

/-! ## Strings -/

/-- The padding on the left and on the right. -/
def strPadding (align : Align) (padding : Nat) : Nat × Nat :=
  match align with
  | .right => (padding, 0)
  | .center => (padding / 2, padding - padding / 2)
  | _ => (0, padding)

/-- `format_str` once the specification is read: its refusals, in the source's order. -/
def checkStr (parsed : Spec) : Except PyFormatError Unit :=
  if parsed.sign.isSome then .error (.notAllowedForType "sign" "str")
  else if parsed.noNeg0 then .error (.notAllowedForType "negative zero coercion (z)" "str")
  else if parsed.alternate then .error (.notAllowedForType "alternate form (#)" "str")
  else if parsed.align = .afterSign then .error (.notAllowedForType "'=' alignment" "str")
  else if parsed.typeChar ≠ 's' then .error (.unknownPresentationType parsed.typeChar)
  else
    match parsed.grouping with
    | some separator => .error (.groupingNotAllowed separator 's')
    | none => .ok ()

/-- How many characters of a string are shown. -/
def strLen (parsed : Spec) (chars : List Char) : Nat :=
  match parsed.precision with
  | some p => if p < chars.length then p else chars.length
  | none => chars.length

/-- The field of a string. -/
def strField (parsed : Spec) (chars : List Char) : List Char :=
  let len := strLen parsed chars
  let (lpad, rpad) := strPadding parsed.align (parsed.width.getD 0 - len)
  List.replicate lpad parsed.fill ++ chars.take len ++ List.replicate rpad parsed.fill

/-- `format_str`. -/
def formatStr (value : Str) (spec : List Char) : Option (Except PyFormatError (List Char)) :=
  if spec = [] then some (.ok value.chars)
  else
    match (parseSpec spec 's' .left).bind fun parsed => (checkStr parsed).map fun _ => parsed with
    | .error e => some (.error e)
    | .ok parsed => (built (strField parsed value.chars)).map .ok

/-! ## Laying out a number -/

/-- `Split`: a number's text in its parts. The digits are letters and digits of ASCII, so that their
bytes are their characters and no separator is one of them. -/
structure Split where
  intDigits : List Char
  hasDecimal : Bool
  fracDigits : List Char
  remainder : List Char
  digits : ∀ c ∈ intDigits ++ fracDigits, isAsciiAlphanumeric c = true

/-- The further arguments of `assemble`. The source writes `'\0'` for no separator. -/
structure Field where
  sign : Option Char
  prefixText : List Char
  split : Split
  every : Nat
  separator : Option Separator
  fracSeparator : Option Separator

/-- The loop of `group`: a separator and `every` digits, as long as there are digits. -/
def groupLoop (every : Nat) (separator : Char) : Nat → List Char → List Char
  | 0, _ => []
  | fuel + 1, digits =>
    if digits = [] then []
    else separator :: (digits.take every ++ groupLoop every separator fuel (digits.drop every))

/-- `group`. -/
def group (digits : List Char) (every : Nat) (separator : Option Separator) : List Char :=
  match separator with
  | none => digits
  | some separator =>
    if digits.length ≤ every then digits
    else
      let first := if digits.length % every = 0 then every else digits.length % every
      digits.take first ++ groupLoop every separator.char digits.length (digits.drop first)

/-- `sign_char`. -/
def signChar (negative : Bool) (requested : Option Char) : Option Char :=
  match requested with
  | some '+' => some (if negative then '-' else '+')
  | some ' ' => some (if negative then '-' else ' ')
  | _ => if negative then some '-' else none

/-- The bytes of a field that are neither padding nor digits in front of the point. -/
def Field.nonDigits (field : Field) : Nat :=
  (if field.sign.isSome then 1 else 0) + utf8Len field.prefixText +
    (if field.split.hasDecimal then 1 else 0) +
    field.split.fracDigits.length + utf8Len field.split.remainder

/-- A zero fill behind the sign. -/
def Spec.zeroFill (spec : Spec) : Bool := spec.fill = '0' && spec.align = .afterSign

/-- How many digits a zero fill asks for. -/
def minWidthDigits (spec : Spec) (field : Field) : Nat :=
  if spec.zeroFill then (spec.width.map (· - field.nonDigits)).getD 0 else 0

/-- The digits in front of the point, with the zeros of a zero fill, in groups. -/
def groupedDigits (spec : Spec) (field : Field) : List Char :=
  let digits := field.split.intDigits
  group (List.replicate (minWidthDigits spec field - digits.length) '0' ++ digits) field.every
    field.separator

/-- The digits behind the point, in groups. -/
def groupedFrac (field : Field) : List Char := group field.split.fracDigits 3 field.fracSeparator

/-- The padding on the left, behind the sign, and on the right. -/
def numberPadding (align : Align) (padding : Nat) : Nat × Nat × Nat :=
  match align with
  | .left => (0, 0, padding)
  | .center => (padding / 2, 0, padding - padding / 2)
  | .afterSign => (0, padding, 0)
  | .right => (padding, 0, 0)

/-- The text that `assemble` writes. -/
def layout (spec : Spec) (field : Field) : List Char :=
  let content := field.nonDigits + (groupedDigits spec field).length + (groupedFrac field).length -
    field.split.fracDigits.length
  let (lpad, spad, rpad) := numberPadding spec.align (spec.width.getD 0 - content)
  List.replicate lpad spec.fill ++
    (field.sign.toList ++ (field.prefixText ++ (List.replicate spad spec.fill ++
    (groupedDigits spec field ++
      ((if field.split.hasDecimal then ['.'] else []) ++ (groupedFrac field ++
      (field.split.remainder ++ List.replicate rpad spec.fill)))))))

/-- `assemble`. -/
def assemble (spec : Spec) (field : Field) : Option (List Char) := built (layout spec field)

/-! ## Floats -/

/-- All characters are ASCII. -/
def Ascii (text : List Char) : Prop := ∀ c ∈ text, c.toNat < 128

/-- What the source takes of the standard library's `f64`: the texts of `{:e}`, `{:.*e}` and
`{:.*}`, which are ASCII. A precision that the library does not take is a panic. -/
structure FloatEngine (F : Type) where
  isNan : F → Bool
  isInfinite : F → Bool
  isSignNegative : F → Bool
  abs : F → F
  timesHundred : F → F
  ofInt : Int → F
  lowerExp : F → List Char
  lowerExpWith : Nat → F → Option (List Char)
  fixedWith : Nat → F → Option (List Char)
  lowerExp_ascii : ∀ x, Ascii (lowerExp x)
  lowerExpWith_ascii : ∀ n x, ∀ text ∈ lowerExpWith n x, Ascii text
  fixedWith_ascii : ∀ n x, ∀ text ∈ fixedWith n x, Ascii text

/-- `DtoaMode`. -/
inductive DtoaMode where
  | shortest
  | significant (p : Nat)
  | fixed (n : Nat)

/-- `strip_trailing_zeros`. -/
def stripTrailingZeros (digits : List Char) : List Char :=
  let trimmed := digits.rdropWhile (· = '0')
  if trimmed = [] then ['0'] else trimmed

/-- `parse_scientific`: the digits, and where the point stands before them or behind. -/
def parseScientific (text : List Char) : Option (List Char × Int) :=
  (splitOnce 'e' text).bind fun (mantissa, exponent) =>
    (Numerals.parseI64 exponent).map fun exp =>
      (stripTrailingZeros (mantissa.filter (· ≠ '.')), exp.1 + 1)

/-- `parse_fixed`. -/
def parseFixed (text : List Char) : List Char × Int :=
  let (intPart, fracPart) := (splitOnce '.' text).getD (text, [])
  let digits := (intPart ++ fracPart).dropWhile (· = '0')
  if digits = [] then (['0'], 1)
  else (stripTrailingZeros digits, intPart.length - ((intPart ++ fracPart).length - digits.length))

/-- `format_exponent`. -/
def formatExponent (exp : Int) (upper : Bool) : List Char :=
  let digits := Nat.toDigits 10 exp.natAbs
  (if upper then 'E' else 'e') :: (if exp < 0 then '-' else '+') ::
    (List.replicate (2 - digits.length) '0' ++ digits)

/-- The types that a body is written for. -/
inductive BodyType where
  | e
  | f
  | g
  | r
  deriving DecidableEq

/-- `BodyOptions`. -/
structure BodyOptions where
  type : BodyType
  upper : Bool
  alternate : Bool
  addDot0 : Bool
  noNeg0 : Bool
  precision : Nat
  mode : DtoaMode

/-- `as i64`. -/
def asI64 (n : Nat) : Int := if n < 2 ^ 63 then n else (n : Int) - 2 ^ 64

/-- A row of zeros, none for a negative number. -/
def zeros (n : Int) : List Char := List.replicate n.toNat '0'

/-- Digits with their point, and the zeros between the two or behind them. -/
def pointed (digits : List Char) (decpt vdigitsStart vdigitsEnd : Int) : List Char :=
  (if decpt ≤ 0 then zeros (decpt - vdigitsStart) ++ '.' ::
    zeros (-decpt) else zeros (max (-vdigitsStart) 0)) ++
    (if 0 < decpt ∧ decpt ≤ digits.length then digits.take decpt.toNat ++ '.' ::
      digits.drop decpt.toNat
      else digits) ++
    if digits.length < decpt then zeros (decpt - digits.length) ++ '.' :: zeros (vdigitsEnd - decpt)
    else zeros (max (vdigitsEnd - digits.length) 0)

/-- Whether the body takes an exponent, and the end of its digits before it is moved behind the
point. -/
def bodyShape (opts : BodyOptions) (digits : List Char) (decpt : Int) : Bool × Int :=
  match opts.type with
  | .e => (true, asI64 opts.precision)
  | .f => (false, decpt + asI64 opts.precision)
  | .g =>
    let threshold := if opts.addDot0 then asI64 opts.precision - 1 else asI64 opts.precision
    (decpt ≤ -4 || threshold < decpt,
      if opts.alternate then asI64 opts.precision else digits.length)
  | .r => (decpt ≤ -4 || 16 < decpt, digits.length)

/-- The body of a finite number. -/
def finiteBody (opts : BodyOptions) (negative : Bool) (digits : List Char) (decpt : Int) :
    List Char :=
  let sign := negative && !(opts.noNeg0 && digits = ['0'])
  let (useExp, vdigitsEnd) := bodyShape opts digits decpt
  let exp := decpt - 1
  let decpt := if useExp then 1 else decpt
  let vdigitsStart := if decpt ≤ 0 then decpt - 1 else 0
  let vdigitsEnd := max vdigitsEnd (if !useExp && opts.addDot0 then decpt + 1 else decpt)
  let out := (if sign then ['-'] else []) ++ pointed digits decpt vdigitsStart vdigitsEnd
  (if out.getLast? = some '.' ∧ opts.alternate = false then out.dropLast else out) ++
    if useExp then formatExponent exp opts.upper else []

section

variable {F : Type} (engine : FloatEngine F)

/-- `dtoa`. -/
def dtoa (abs : F) : DtoaMode → Option (List Char × Int)
  | .shortest => parseScientific (engine.lowerExp abs)
  | .significant p => (engine.lowerExpWith (max p 1 - 1) abs).bind parseScientific
  | .fixed n => (engine.fixedWith n abs).map parseFixed

/-- `float_body`. -/
def floatBody (value : F) (opts : BodyOptions) : Option (List Char) :=
  let negative := engine.isSignNegative value
  if engine.isNan value then some (if opts.upper then "NAN".toList else "nan".toList)
  else if engine.isInfinite value then
    let word := if opts.upper then "INF".toList else "inf".toList
    some (if negative then '-' :: word else word)
  else (dtoa engine (engine.abs value) opts.mode).map fun (digits, decpt) =>
    finiteBody opts negative digits decpt

end

/-- `split_body`. -/
def splitBody (body : List Char) : Split :=
  let intDigits := body.takeWhile isAsciiDigit
  let rest := body.dropWhile isAsciiDigit
  let frac := rest.tail.takeWhile isAsciiDigit
  have hdigit {c : Char} {text : List Char} (h : c ∈ text.takeWhile isAsciiDigit) :
      isAsciiAlphanumeric c = true := by
    simp [isAsciiAlphanumeric, List.mem_takeWhile_imp h]
  if rest.head? = some '.' then
    { intDigits := intDigits
      hasDecimal := true
      fracDigits := frac
      remainder := rest.tail.dropWhile isAsciiDigit
      digits := fun c hc => (List.mem_append.1 hc).elim hdigit hdigit }
  else
    { intDigits := intDigits
      hasDecimal := false
      fracDigits := []
      remainder := rest
      digits := fun c hc => hdigit (by simpa using hc) }

/-- The types by their lower-case letter. -/
def bodyTypeOf : Char → Option BodyType
  | 'e' => some .e
  | 'f' => some .f
  | 'g' => some .g
  | 'r' => some .r
  | _ => none

/-- The type of a float's body, before it is put in lower case. -/
def effectiveType (parsed : Spec) : Char :=
  if parsed.typeChar = '\x00' then if parsed.precision = none then 'r' else 'g'
  else if parsed.typeChar = 'n' then 'g'
  else if parsed.typeChar = '%' then 'f'
  else if parsed.typeChar = 'r' then if parsed.precision = none then 'r' else 'g'
  else parsed.typeChar

/-- The mode and the precision of the body; `none` where `precision + 1` runs over. -/
def bodyMode (type : BodyType) (precision : Nat) : Option (DtoaMode × Nat) :=
  match type with
  | .e =>
    if precision + 1 < 2 ^ 64 then some (.significant (precision + 1), precision + 1) else none
  | .f => some (.fixed precision, precision)
  | .g =>
    let p := if precision = 0 then 1 else precision
    some (.significant p, p)
  | .r => some (.shortest, 0)

/-- The options of a float's body. -/
def bodyOptions (parsed : Spec) : Except PyFormatError (Option BodyOptions) :=
  let type := effectiveType parsed
  match bodyTypeOf (toAsciiLowercase type) with
  | none => .error (.unknownPresentationType type)
  | some body =>
    let precision := parsed.precision.getD (if parsed.typeChar = '\x00' then 0 else 6)
    .ok ((bodyMode body precision).map fun (mode, bodyPrecision) =>
      { type := body
        upper := type = 'E' || type = 'F' || type = 'G'
        alternate := parsed.alternate
        addDot0 := parsed.typeChar = '\x00'
        noNeg0 := parsed.noNeg0
        precision := bodyPrecision
        mode := mode })

/-- The parts of a float's text. -/
def floatField (parsed : Spec) (body : List Char) : Field :=
  let negative := body.head? = some '-'
  { sign := signChar negative parsed.sign
    prefixText := []
    split := splitBody (if negative then body.tail else body)
    every := 3
    separator := parsed.grouping
    fracSeparator := none }

section

variable {F : Type} (engine : FloatEngine F)

/-- `format_float_with_spec`, up to `assemble`. -/
def floatFieldOf (parsed : Spec) (value : F) : Option (Except PyFormatError Field) :=
  if parsed.fracGrouping.isSome then some (.error (.unsupported "fractional grouping"))
  else
    match bodyOptions parsed with
    | .error e => some (.error e)
    | .ok none => none
    | .ok (some opts) =>
      let percent := parsed.typeChar = '%'
      (floatBody engine (if percent then engine.timesHundred value else value) opts).map fun body =>
        .ok (floatField parsed (if percent then body ++ ['%'] else body))

/-- The body of a float under the empty specification. -/
def plainOptions : BodyOptions where
  type := .r
  upper := false
  alternate := false
  addDot0 := true
  noNeg0 := false
  precision := 0
  mode := .shortest

end

/-! ## Integers -/

/-- The radices of an integer's types. -/
inductive Radix where
  | binary
  | octal
  | decimal
  | hexadecimal

/-- The radix as a number. -/
def Radix.value : Radix → Nat
  | .binary => 2
  | .octal => 8
  | .decimal => 10
  | .hexadecimal => 16

/-- `to_ascii_uppercase` of a character. -/
def toAsciiUppercase (c : Char) : Char := if 'a' ≤ c ∧ c ≤ 'z' then Char.ofNat (c.toNat - 32) else c

/-- The digits of `to_radix`, in capitals for the type `X`. -/
def radixDigits (type : Char) (radix : Radix) (value : Nat) : List Char :=
  let digits := Nat.toDigits radix.value value
  if type = 'X' then digits.map toAsciiUppercase else digits

theorem isAsciiAlphanumeric_of_isDigit {radix : Nat} {c : Char}
    (h : Numerals.isDigit radix c = true) :
    isAsciiAlphanumeric c = true := by
  unfold Numerals.isDigit Numerals.digitValue at h
  simp only [isAsciiAlphanumeric, isAsciiAlphabetic, isAsciiDigit, Bool.or_eq_true,
    Bool.and_eq_true,
    decide_eq_true_eq]
  by_cases hdigit : '0' ≤ c ∧ c ≤ '9'
  · exact .inr hdigit
  by_cases hlower : 'a' ≤ c ∧ c ≤ 'z'
  · exact .inl (.inl hlower)
  by_cases hupper : 'A' ≤ c ∧ c ≤ 'Z'
  · exact .inl (.inr hupper)
  simp [hdigit, hlower, hupper] at h

theorem isAsciiAlphanumeric_toAsciiUppercase {c : Char} (h : isAsciiAlphanumeric c = true) :
    isAsciiAlphanumeric (toAsciiUppercase c) = true := by
  unfold toAsciiUppercase
  split
  · next hlower =>
    have hall : ∀ n, n < 26 → isAsciiAlphanumeric (Char.ofNat (97 + n - 32)) = true := by decide
    have hge : 97 ≤ c.toNat := toNat_le_of_le hlower.1
    have hle : c.toNat ≤ 122 := toNat_le_of_le hlower.2
    have hsum : 97 + (c.toNat - 97) = c.toNat := by omega
    have hc := hall (c.toNat - 97) (by omega)
    rwa [hsum] at hc
  · exact h

/-- The digits of a radix are letters and digits. -/
theorem isAsciiAlphanumeric_of_mem_radixDigits {type : Char} {radix : Radix} {value : Nat}
    {c : Char}
    (h : c ∈ radixDigits type radix value) : isAsciiAlphanumeric c = true := by
  have hdigits {c : Char} (hc : c ∈ Nat.toDigits radix.value value) : isAsciiAlphanumeric c =
      true := by
    refine isAsciiAlphanumeric_of_isDigit (Numerals.isDigit_of_mem_toDigits ?_ ?_ hc)
    · cases radix <;> decide
    · cases radix <;> decide
  unfold radixDigits at h
  split at h
  · obtain ⟨d, hd, rfl⟩ := List.mem_map.1 h
    exact isAsciiAlphanumeric_toAsciiUppercase (hdigits hd)
  · exact hdigits h

/-- The radix, the size of a group, the separator and the prefix of an integer's type. -/
def radixOf (parsed : Spec) : Except PyFormatError (Radix × Nat × Option Separator × List Char) :=
  let underscore := if parsed.grouping = some .underscore then some Separator.underscore else none
  let alternate (text : List Char) : List Char := if parsed.alternate then text else []
  match parsed.typeChar with
  | 'b' => .ok (.binary, 4, underscore, alternate ['0', 'b'])
  | 'o' => .ok (.octal, 4, underscore, alternate ['0', 'o'])
  | 'x' => .ok (.hexadecimal, 4, underscore, alternate ['0', 'x'])
  | 'X' => .ok (.hexadecimal, 4, underscore, alternate ['0', 'X'])
  | 'd' => .ok (.decimal, 3, parsed.grouping, [])
  | 'n' => .ok (.decimal, 3, parsed.grouping, [])
  | other => .error (.unknownPresentationType other)

/-- The field of the character that an integer is the code of. -/
def charField (value : Int) : Except PyFormatError Field :=
  -- `u32::try_from`, then `char::from_u32`
  if 0 ≤ value ∧ value < 2 ^ 32 ∧ value.toNat.isValidChar then
    .ok
      { sign := none
        prefixText := []
        split :=
          { intDigits := []
            hasDecimal := false
            fracDigits := []
            remainder := [Char.ofNat value.toNat]
            digits := by simp }
        every := 3
        separator := none
        fracSeparator := none }
  else .error (.notAllowedForType "%c arg not in range(0x110000)" "int")

/-- The field of an integer in its radix. -/
def radixField (parsed : Spec) (value : Int) : Except PyFormatError Field :=
  (radixOf parsed).map fun (radix, every, separator, prefixText) =>
    { sign := signChar (value < 0) parsed.sign
      prefixText := prefixText
      split :=
        { intDigits := radixDigits parsed.typeChar radix value.natAbs
          hasDecimal := false
          fracDigits := []
          remainder := []
          digits := fun c hc => isAsciiAlphanumeric_of_mem_radixDigits (by simpa using hc) }
      every := every
      separator := separator
      fracSeparator := none }

/-- The types that an integer is written as a float for. -/
def floatTypes : List Char := ['e', 'E', 'f', 'F', 'g', 'G', '%']

section

variable {F : Type} (engine : FloatEngine F)

/-- `format_int`, up to `assemble`. -/
def intFieldOf (parsed : Spec) (value : Int) : Option (Except PyFormatError Field) :=
  if parsed.typeChar ∈ floatTypes then floatFieldOf engine parsed (engine.ofInt value)
  else if parsed.precision.isSome then some (.error (.notAllowedForType "precision" "int"))
  else if parsed.noNeg0 then some (.error (.notAllowedForType "negative zero coercion (z)" "int"))
  else if parsed.fracGrouping.isSome then some (.error (.unsupported "fractional grouping"))
  else if parsed.typeChar = 'c' then
    if parsed.sign.isSome then some (.error (.notAllowedForType "sign" "int"))
    else if parsed.alternate then some (.error (.notAllowedForType "alternate form (#)" "int"))
    else some (charField value)
  else some (radixField parsed value)

/-- A parsed specification, the field it makes of a value, and the field's text. -/
def formatWith (parsed : Except PyFormatError Spec)
    (fieldOf : Spec → Option (Except PyFormatError Field)) :
    Option (Except PyFormatError (List Char)) :=
  match parsed with
  | .error e => some (.error e)
  | .ok parsed =>
    (fieldOf parsed).bind fun
      | .error e => some (.error e)
      | .ok field => (assemble parsed field).map .ok

/-- `format_float`. -/
def formatFloat (value : F) (spec : List Char) : Option (Except PyFormatError (List Char)) :=
  if spec = [] then (floatBody engine value plainOptions).map .ok
  else formatWith (parseSpec spec '\x00' .right) fun parsed => floatFieldOf engine parsed value

/-- `format_int`. -/
def formatInt (value : Int) (spec : List Char) : Option (Except PyFormatError (List Char)) :=
  if spec = [] then some (.ok ((if value < 0 then ['-'] else []) ++ Nat.toDigits 10 value.natAbs))
  else formatWith (parseSpec spec 'd' .right) fun parsed => intFieldOf engine parsed value

end

end RtpMux.Pyformat
