import Mathlib.Data.Nat.Digits.Defs
import RtpMux.Tools.PyFormatWidth
import RtpMux.Tools.PyJsonFloats

/-!
# The codec of the plot

`tools/pyjson.rs`: a parser that keeps the members of an object in the order of the document, and
the writer of Python's `json.dumps`, which writes every character outside ASCII as an escape, and
one beyond four digits as two, a surrogate pair. The parser takes no surrogate, so a string with
such a character is written and not read back; all else is.
-/

namespace RtpMux.Pyjson

open Text (isAsciiDigit)
open JsonTree JsonReader
open Numerals (parseI64)
open Pyformat (FloatEngine plainOptions)

variable {F : Type}

/-! ## The codec -/

/-- A member whose key is there already takes its place. -/
def insertFirst {V : Type} : List (String × V) → String → V → List (String × V)
  | [], key, value => [(key, value)]
  | (name, v) :: members, key, value =>
    if name = key then (name, value) :: members else (name, v) :: insertFirst members key value

/-- The parser of `pyjson.rs`. An integer that no `i64` holds is read as a float. -/
def pyjson (floats : Floats F) : Dialect F where
  refusesControl := true
  insert := insertFirst
  convert text isFloat :=
    if isFloat then (floats.parse text).map .float
    else
      match parseI64 text with
      | some value => some (.int value)
      | none => (floats.parse text).map .float

/-- `repr_float`. -/
def reprFloat (engine : FloatEngine F) (floats : Floats F) (value : F) : List Char :=
  match Pyformat.formatFloat engine value [] with
  | some (.ok text) => text
  -- an error falls back to `{value}`; a panic, where the standard library writes no exponent, is
  -- not modelled
  | _ => floats.display value

/-- `json_float`. -/
def jsonFloat (engine : FloatEngine F) (floats : Floats F) (value : F) : List Char :=
  if floats.isNan value then "NaN".toList
  else if floats.isInfinite value then
    if floats.isPositive value then "Infinity".toList else "-Infinity".toList
  else reprFloat engine floats value

/-- A character of `write_string`. -/
def writeChar (c : Char) : List Char :=
  match escapeLetter c with
  | some letter => ['\\', letter]
  | none =>
    let code := c.toNat
    if code < 0x20 then ['\\', 'u'] ++ hex4 code
    else if code < 0x7f then [c]
    else if code ≤ 0xffff then ['\\', 'u'] ++ hex4 code
    else
      let offset := code - 0x10000
      let high := 0xd800 + offset >>> 10
      let low := 0xdc00 + offset % 2 ^ 10
      (['\\', 'u'] ++ hex4 high) ++ (['\\', 'u'] ++ hex4 low)

/-- How `pyjson.rs` writes characters and floats. -/
def pyjsonStyle (engine : FloatEngine F) (floats : Floats F) : Style F :=
  ⟨writeChar, jsonFloat engine floats⟩

/-- `parse`. -/
def parse (floats : Floats F) (text : String) : Except Error (Value F) := (pyjson floats).parse text

/-- The layout that `dumps` chooses. -/
def layoutOf : Option Nat → Layout
  | none => .compact
  | some step => .indented step

/-- `dumps`. -/
def dumps (engine : FloatEngine F) (floats : Floats F) (value : Value F) (sortKeys : Bool)
    (indent : Option Nat) : String :=
  String.ofList ((pyjsonStyle engine floats).write (layoutOf indent) sortKeys value 0)

/-! ## Objects -/

/-- A new key goes to the end. -/
theorem insertFirst_append {V : Type} {members : List (String × V)} {key : String}
    (h : ∀ m ∈ members, m.1 ≠ key)
    (value : V) : insertFirst members key value = members ++ [(key, value)] := by
  induction members with
  | nil => rfl
  | cons member members ih =>
    rw [insertFirst, if_neg (h member (by simp)), ih fun m hm => h m (List.mem_cons_of_mem _ hm),
      List.cons_append]

/-- Members with distinct keys are kept as they are. -/
theorem insertAll_distinct (floats : Floats F) (members more : List (String × Value F))
    (h : ((members ++ more).map Prod.fst).Nodup) :
    (pyjson floats).insertAll members more = members ++ more := by
  induction more generalizing members with
  | nil => simp [Dialect.insertAll]
  | cons member more ih =>
    have hsplit : members ++ member :: more = (members ++ [member]) ++ more := by simp
    have hne : ∀ m ∈ members, m.1 ≠ member.1 := by
      intro m hm
      rw [List.map_append, List.nodup_append] at h
      exact h.2.2 m.1 (List.mem_map_of_mem hm) member.1 (by simp)
    have hinsert : (pyjson floats).insert members member.1 member.2 = members ++ [member] :=
      insertFirst_append hne member.2
    rw [hsplit] at h ⊢
    rw [← ih _ h, ← hinsert]
    rfl

/-- Members with distinct keys are kept as they are. -/
theorem keeps_pyjson (floats : Floats F) : Keeps (pyjson floats) List.Nodup := by
  intro members hmembers
  exact insertAll_distinct floats [] members hmembers

/-! ## Strings and floats -/

/-- A character that one escape of four digits can name. -/
def IsBasic (c : Char) : Prop := c.toNat ≤ 0xffff

instance (c : Char) : Decidable (IsBasic c) := inferInstanceAs (Decidable (_ ≤ _))

theorem isBasic_of_escapeLetter {c letter : Char} (h : escapeLetter c = some letter) :
    IsBasic c := by
  unfold escapeLetter at h
  split at h <;> first | decide | cases h

theorem offset_lt (c : Char) : (c.toNat - 0x10000) >>> 10 < 0x400 := by
  have hvalid : c.toNat.isValidChar := c.valid
  unfold Nat.isValidChar at hvalid
  rw [Nat.shiftRight_eq_div_pow]
  omega

/-- A high surrogate is no character. -/
theorem charFromU32_high (c : Char) : charFromU32 (0xd800 + (c.toNat - 0x10000) >>> 10) = none := by
  have hoffset := offset_lt c
  rw [charFromU32, if_neg]
  unfold Nat.isValidChar
  omega

/-- A written character is read back if it needs no pair of surrogates. -/
theorem elements_writeChar (floats : Floats F) (c : Char) :
    ∃ elements, elementsText elements = writeChar c ∧
    GivesWhen ((pyjson floats).evalElements elements) (IsBasic c) [c] := by
  have hone {element : Element} {text : List Char} (htext : element.text = text)
      (heval : (pyjson floats).evalElement element = some c) (hbasic : IsBasic c) :
      ∃ elements, elementsText elements = text ∧
        GivesWhen ((pyjson floats).evalElements elements) (IsBasic c) [c] := by
    refine ⟨[element], ?_, .of_holds hbasic ?_⟩
    · simp [elementsText, htext]
    · simp [Dialect.evalElements, heval]
  unfold writeChar
  cases hletter : escapeLetter c with
  | some letter =>
    obtain ⟨element, htext, heval⟩ := exists_shortElement (pyjson floats) hletter
    exact hone htext heval (isBasic_of_escapeLetter hletter)
  | none =>
    by_cases hbasic : IsBasic c
    · have hunicode : ∃ element : Element, element.text = ['\\', 'u'] ++ hex4 c.toNat ∧
          (pyjson floats).evalElement element = some c := by
        have hcode : c.toNat < 2 ^ 16 := Nat.lt_succ_of_le hbasic
        obtain ⟨element, htext, heval⟩ := exists_unicodeElement (pyjson floats) hcode
        exact ⟨element, htext, by rw [heval, charFromU32_toNat]⟩
      obtain ⟨element, htext, heval⟩ := hunicode
      dsimp only
      split
      · exact hone htext heval hbasic
      · next hcontrol =>
        split
        · have hbare : (pyjson floats).evalElement (.bare c (ordinary_of_escapeLetter hletter)) =
              some c := by
            simp [Dialect.evalElement, hcontrol]
          exact hone rfl hbare hbasic
        · rw [if_pos (show c.toNat ≤ 0xffff from hbasic)]
          exact hone htext heval hbasic
    · have hbeyond : ¬ c.toNat ≤ 0xffff := hbasic
      have hhigh : 0xd800 + (c.toNat - 0x10000) >>> 10 < 2 ^ 16 := by
        have hoffset := offset_lt c
        omega
      have hlow : 0xdc00 + (c.toNat - 0x10000) % 2 ^ 10 < 2 ^ 16 := by
        omega
      obtain ⟨high, hhightext, hhigheval⟩ := exists_unicodeElement (pyjson floats) hhigh
      obtain ⟨low, hlowtext, -⟩ := exists_unicodeElement (pyjson floats) hlow
      rw [charFromU32_high] at hhigheval
      refine ⟨[high, low], ?_, ⟨fun h => absurd h hbasic, fun _ => ?_⟩⟩
      · dsimp only
        rw [if_neg (by omega), if_neg (by omega), if_neg hbeyond, ← hhightext, ← hlowtext]
        simp [elementsText]
      · simp [Dialect.evalElements, hhigheval]

theorem stripTrailingZeros_ne_nil (digits : List Char) :
    Pyformat.stripTrailingZeros digits ≠ [] := by
  unfold Pyformat.stripTrailingZeros
  dsimp only
  split
  · simp
  · next h => exact h

theorem mem_stripTrailingZeros {digits : List Char} (hall : ∀ c ∈ digits, isAsciiDigit c = true) :
    ∀ c ∈ Pyformat.stripTrailingZeros digits, isAsciiDigit c = true := by
  unfold Pyformat.stripTrailingZeros
  dsimp only
  split
  · intro c hc
    rw [List.mem_singleton.1 hc]
    rfl
  · intro c hc
    exact hall c ((List.rdropWhile_prefix _ digits).subset hc)

/-- A finite float is written as a numeral with a point or an exponent, and read back. -/
theorem exists_floatNumeral {engine : FloatEngine F} {floats : Floats F}
    (h : Prints engine floats) {x : F}
    (hx : floats.IsFinite x) :
    ∃ n : Numeral, n.text = jsonFloat engine floats x ∧
      (pyjson floats).convert n.text (isFloat n) = some (.float x) := by
  obtain ⟨m, hm⟩ := h.scientific x hx
  have hdigits : ∀ c ∈ m.whole.chars ++ fractionDigits m, isAsciiDigit c = true := by
    intro c hc
    rcases List.mem_append.1 hc with hc | hc
    · exact m.whole.all c hc
    · cases hfraction : m.fraction with
      | none => simp [fractionDigits, hfraction] at hc
      | some digits =>
        rw [fractionDigits, hfraction] at hc
        exact digits.all c hc
  obtain ⟨n, htext, hfloat, hdecimal, hnegative, hmagnitude⟩ :=
    exists_bodyNumeral (mem_stripTrailingZeros hdigits) (stripTrailingZeros_ne_nil _)
      (powerValue m.power + 1)
      (engine.isSignNegative x)
  have hsame : magnitude n = magnitude m := by
    rw [hmagnitude, pointAt_stripTrailingZeros, magnitude_eq_pointAt m, hm.whole]
    rfl
  have hbody : Pyformat.formatFloat engine x [] = some (.ok n.text) := by
    have hnan : engine.isNan x = false := by rw [h.isNan, hx.1]
    have hinfinite : engine.isInfinite x = false := by rw [h.isInfinite, hx.2]
    have hdtoa : Pyformat.dtoa engine (engine.abs x) plainOptions.mode =
        some (Pyformat.stripTrailingZeros (m.whole.chars ++ fractionDigits m),
          powerValue m.power + 1) := by
      rw [plainOptions, Pyformat.dtoa, hm.text, parseScientific_text hm]
    rw [Pyformat.formatFloat, if_pos rfl, Pyformat.floatBody, hnan, hinfinite, if_neg (by decide),
      if_neg (by decide),
      hdtoa, htext]
    rfl
  refine ⟨n, ?_, ?_⟩
  · rw [jsonFloat, hx.1, hx.2, if_neg (by decide), if_neg (by decide), reprFloat, hbody]
  · rw [hfloat]
    change (floats.parse n.text).map Value.float = _
    rw [Floats.parse_text, if_pos hdecimal, hnegative, hsame, hm.nearest]
    rfl

/-- What the writer writes the reader reads. -/
theorem reads_pyjson {engine : FloatEngine F} {floats : Floats F} (h : Prints engine floats) :
    Reads (pyjson floats) (pyjsonStyle engine floats) floats.IsFinite IsBasic where
  char := elements_writeChar floats
  float _ hx := exists_floatNumeral h hx
  int value := by
    refine ⟨intNumeral value, text_intNumeral value, ?_⟩
    have hparse : parseI64 (intNumeral value).text = some value := by
      rw [text_intNumeral, parseI64_intText]
    have hfloat : isFloat (intNumeral value) = false := rfl
    simp only [pyjson, hfloat, Bool.false_eq_true, if_false, hparse]

/-! ## The round trip -/

/-- A value that JSON has a text for: finite floats, and no key twice in an object. -/
def IsProper (floats : Floats F) (value : Value F) : Prop :=
  value.All floats.IsFinite (fun _ => True) List.Nodup

/-- Every string and every key has only characters that one escape can name. -/
def IsBasicText (value : Value F) : Prop := value.Plain IsBasic

/-- What `dumps` writes is read as the value up to the order of members, and as the value itself if
no keys are sorted. -/
def RoundTrips (engine : FloatEngine F) (floats : Floats F) (value : Value F) (sortKeys : Bool)
    (indent : Option Nat) : Prop :=
  ∃ read, parse floats (dumps engine floats value sortKeys indent) = .ok read ∧ read.Similar value ∧
    (sortKeys = false → read = value)

/-- **Round trip.** It succeeds just for the values without a character that takes a surrogate
pair. -/
theorem pyjson_round_trip_iff {engine : FloatEngine F} {floats : Floats F}
    (hprints : Prints engine floats)
    (value : Value F) (hvalue : IsProper floats value) (sortKeys : Bool) (indent : Option Nat) :
    RoundTrips engine floats value sortKeys indent ↔ IsBasicText value := by
  have hperm {keys keys' : List String} (h : keys.Perm keys') : keys.Nodup ↔ keys'.Nodup :=
    h.nodup_iff
  have hordered : (value.ordered sortKeys).All floats.IsFinite (fun _ => True) List.Nodup :=
    (Value.all_ordered hperm sortKeys value).2 hvalue
  have hplain : (value.ordered sortKeys).Plain IsBasic ↔ IsBasicText value :=
    Value.all_ordered (fun _ => .rfl) sortKeys value
  have hgives := (reads_pyjson hprints).parse_write (keeps_pyjson floats)
      (layoutOf indent) sortKeys hordered
  refine ⟨fun ⟨read, hread, _⟩ => ?_, fun hbasic => ?_⟩
  · by_contra hnot
    have hnone := hgives.refuses fun h => hnot (hplain.1 h)
    rw [parse, ← toOption_eq_some] at hread
    change (parse floats (dumps engine floats value sortKeys indent)).toOption = none at hnone
    rw [parse, hread] at hnone
    cases hnone
  · refine ⟨value.ordered sortKeys, ?_, Value.similar_ordered sortKeys value, ?_⟩
    · rw [parse, ← toOption_eq_some]
      exact hgives.gives (hplain.2 hbasic)
    · rintro rfl
      exact Value.ordered_false value

/-! ## Whole numbers -/

/-- Beyond the whole numbers that an `f64` holds exactly. -/
def isHuge (x : Int) : Bool := 2 ^ 53 ≤ x.natAbs

/-- The floats that are whole numbers, the huge ones infinite. -/
def wholeEngine : FloatEngine Int := { Pyformat.wholeFloats with isInfinite := isHuge }

/-- Whole numbers as floats, infinite from some size on. -/
def wholeFloats : Floats Int := { JsonReader.wholeFloats with isInfinite := isHuge }

/-- Whole numbers have a scientific form. -/
theorem isScientific_whole {x : Int} (hx : wholeFloats.IsFinite x) :
    ∃ n, IsScientific wholeEngine wholeFloats x n := by
  obtain ⟨digits, hdigits⟩ : ∃ digits : Digits,
      Pyformat.stripTrailingZeros (Nat.toDigits 10 x.natAbs) = digits.chars :=
    ⟨⟨_, mem_stripTrailingZeros (digitsOf x.natAbs).all⟩, rfl⟩
  have hne : digits.chars ≠ [] := by
    rw [← hdigits]
    exact stripTrailingZeros_ne_nil _
  have hlong : 1 ≤ (Nat.toDigits 10 x.natAbs).length := List.length_pos_iff.2 Nat.toDigits_ne_nil
  have hshort : (Nat.toDigits 10 x.natAbs).length ≤ 16 := by
    have hsmall : ¬ 2 ^ 53 ≤ x.natAbs := of_decide_eq_false hx.2
    exact Nat.toDigits_length 10 x.natAbs 16 (by decide) (by omega)
  let power : Power := ⟨false, none, digitsOf ((Nat.toDigits 10 x.natAbs).length - 1)⟩
  have hpower : powerValue (some power) = ((Nat.toDigits 10 x.natAbs).length - 1 : Nat) := by
    simp only [power, powerValue, reduceCtorEq, if_false]
    exact congrArg _ (Numerals.valueOf_toDigits (by decide) (by decide) _)
  refine ⟨firstPoint false digits hne power, ?_, rfl, length_whole_firstPoint _ _ _ _,
    ⟨power, rfl, rfl, by simp [power], digitsOf_ne_nil _⟩, ?_, ?_⟩
  · change Pyformat.wholeLowerExp (Int.natAbs x.natAbs) = _
    rw [Int.natAbs_natCast, Pyformat.wholeLowerExp, hdigits, text_firstPoint]
    simp [signText, powerText, power, Power.mark, powerSignText, digitsOf]
  · change -2 ^ 63 ≤ powerValue (some power) ∧ powerValue (some power) < 2 ^ 63
    rw [hpower]
    omega
  · have hsize : magnitude (firstPoint false digits hne power) = x.natAbs := by
      have hpoint : powerValue (some power) + 1 = (Nat.toDigits 10 x.natAbs).length := by
        rw [hpower]
        omega
      rw [magnitude_firstPoint, hpoint, ← hdigits, pointAt_stripTrailingZeros, pointAt, sub_self,
        zpow_zero, mul_one,
        Numerals.valueOf_toDigits (by decide) (by decide)]
    rw [hsize]
    change (if decide (x < 0) = true then -(x.natAbs : ℚ).floor else (x.natAbs : ℚ).floor) = x
    have hfloor : ((x.natAbs : ℚ)).floor = x.natAbs := Rat.floor_intCast x.natAbs
    rw [hfloor]
    simp only [decide_eq_true_eq]
    split <;> omega

theorem prints_whole : Prints wholeEngine wholeFloats :=
  ⟨rfl, rfl, fun _ hx => isScientific_whole hx⟩

/-- A document with its keys out of order, a float and a character outside ASCII. -/
def report : Value Int :=
  .object [("reading", .str "±"), ("band", .array [.float (-30), .int ⟨7, by decide⟩, .null])]

theorem isProper_report : IsProper wholeFloats report := by
  simp only [IsProper, report, Value.All, Value.AllMembers, Value.AllItems, and_true, true_and,
    List.map_cons,
    List.map_nil]
  exact ⟨by decide, by decide⟩

theorem isBasicText_report : IsBasicText report := by
  have hbasic {text : String} (h : text.toList.all (fun c => decide (IsBasic c)) = true) : ∀ c ∈
      text.toList, IsBasic c :=
    fun c hc => of_decide_eq_true (List.all_eq_true.1 h c hc)
  simp only [IsBasicText, Value.Plain, report, Value.All, Value.AllMembers, Value.AllItems,
    and_true, true_and]
  exact ⟨hbasic (by decide), hbasic (by decide), hbasic (by decide)⟩

/-- The document survives, sorted and indented. -/
theorem pyjson_round_trip_report : Prints wholeEngine wholeFloats ∧ IsProper wholeFloats report ∧
    dumps wholeEngine wholeFloats report false none =
      "\x7b\"reading\": \"\\u00b1\", \"band\": [-30.0, 7, null]\x7d" ∧
    RoundTrips wholeEngine wholeFloats report true (some 2) :=
  ⟨prints_whole, isProper_report, by decide +kernel,
    (pyjson_round_trip_iff prints_whole report isProper_report true (some 2)).2 isBasicText_report⟩

/-- One emoji is written as two escapes, and the parser takes neither. -/
theorem emoji_not_read : IsProper wholeFloats (.str "😀" : Value Int) ∧
    dumps wholeEngine wholeFloats (.str "😀") false none = "\"\\ud83d\\ude00\"" ∧
    ¬ RoundTrips wholeEngine wholeFloats (.str "😀") false none := by
  have hread : (parse wholeFloats
      (dumps wholeEngine wholeFloats (.str "😀") false none)).toOption.isNone = true := by
    decide +kernel
  refine ⟨trivial, by decide +kernel, ?_⟩
  rintro ⟨read, hparse, -⟩
  rw [hparse] at hread
  cases hread

end RtpMux.Pyjson
