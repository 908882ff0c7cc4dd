import Mathlib.Tactic.FieldSimp
import Mathlib.Tactic.Ring
import RtpMux.Tools.JsonWriter

/-!
# Numbers and their texts

The integers of a document are read and written exactly. A float is read as the one nearest to the
decimal number that its text spells, which is the standard library's; what the two codecs take of it
is that the text it writes for a finite float is a decimal number nearest to that float.
-/

namespace RtpMux.JsonReader

open Text (isAsciiDigit)
open JsonTree
open Numerals (I64 parseI64 valueOf readInt readNat digitValue isDigit)

variable {F : Type}

/-! ## Integers -/

/-- The digits of a number. -/
def digitsOf (n : Nat) : Digits :=
  ⟨Nat.toDigits 10 n, fun c h => by
    have hdigit := Numerals.isDigit_of_mem_toDigits (by decide) (by decide) h
    rwa [Numerals.isDigit_ten] at hdigit⟩

theorem digitsOf_ne_nil (n : Nat) : (digitsOf n).chars ≠ [] := Nat.toDigits_ne_nil

/-- The numeral of an integer. -/
def intNumeral (value : I64) : Numeral :=
  ⟨value.1 < 0, digitsOf value.1.natAbs, none, none, .inr (digitsOf_ne_nil _)⟩

/-- The numeral of an integer is its text. -/
theorem text_intNumeral (value : I64) : (intNumeral value).text = intText value := by
  simp [intNumeral, Numeral.text, intText, fractionText, powerText, digitsOf]

/-- Digits with a minus sign or none spell an integer. -/
theorem readInt_signed (negative : Bool) (digits : Digits) (h : digits.chars ≠ []) :
    readInt (signText negative ++ digits.chars) =
      some (if negative then -(valueOf 10 digits.chars : Int) else valueOf 10 digits.chars) := by
  have hall : digits.chars.all (isDigit 10) = true := by
    rw [List.all_eq_true]
    intro c hc
    rw [Numerals.isDigit_ten]
    exact digits.all c hc
  have hnat : readNat digits.chars = some (valueOf 10 digits.chars) := by
    rw [readNat, if_pos ⟨h, hall⟩]
  cases negative with
  | true =>
    rw [signText, if_pos rfl, List.singleton_append, readInt, hnat]
    rfl
  | false =>
    obtain ⟨c, cs, hc⟩ := List.exists_cons_of_ne_nil h
    have hdigit : isAsciiDigit c = true := digits.all c (by simp [hc])
    have hread : readInt digits.chars = (readNat digits.chars).map Int.ofNat := by
      rw [hc]
      unfold readInt
      split
      · next heq =>
        cases heq
        cases hdigit
      · next heq =>
        cases heq
        cases hdigit
      · rfl
    rw [signText, if_neg (by decide), List.nil_append, hread, hnat]
    rfl

/-- An integer is read back. -/
theorem parseI64_intText (value : I64) : parseI64 (intText value) = some value := by
  obtain ⟨n, hn⟩ := value
  have hread := readInt_signed (n < 0) (digitsOf n.natAbs) (digitsOf_ne_nil _)
  have hvalue : valueOf 10 (digitsOf n.natAbs).chars = n.natAbs :=
    Numerals.valueOf_toDigits (by decide) (by decide) _
  rw [hvalue] at hread
  have hsign : (if (decide (n < 0)) = true then -(n.natAbs : Int) else (n.natAbs : Int)) = n := by
    simp only [decide_eq_true_eq]
    split <;> omega
  rw [hsign] at hread
  change (readInt (signText (n < 0) ++ (digitsOf n.natAbs).chars)).bind _ = _
  rw [hread, Option.bind_some, dif_pos hn]

/-! ## Floats -/

/-- The digits behind the point. -/
def fractionDigits (n : Numeral) : List Char := n.fraction.elim [] Run.chars

/-- The exponent of a numeral. -/
def powerValue : Option Power → Int
  | none => 0
  | some power =>
    if power.sign = some true then -(valueOf 10 power.digits.chars : Int)
      else valueOf 10 power.digits.chars

/-- The number that a numeral spells, without its sign. -/
def magnitude (n : Numeral) : ℚ :=
  (valueOf 10 (n.whole.chars ++ fractionDigits n) : ℚ) *
    10 ^ (powerValue n.power - (fractionDigits n).length)

/-- A numeral that `str::parse::<f64>` takes: a digit before the point or behind it, and one in the
exponent. -/
def IsDecimal (n : Numeral) : Prop :=
  (n.whole.chars ≠ [] ∨ fractionDigits n ≠ []) ∧
    (n.power.all fun power => power.digits.chars ≠ []) = true

instance (n : Numeral) : Decidable (IsDecimal n) := inferInstanceAs (Decidable (_ ∧ _))

/-- What the sources take of the standard library's `f64`. -/
structure Floats (F : Type) where
  isNan : F → Bool
  isInfinite : F → Bool
  /-- `value > 0.0`. -/
  isPositive : F → Bool
  /-- `{value}`. -/
  display : F → List Char
  /-- The float nearest to a number, by its sign and its size. -/
  nearest : Bool → ℚ → F

namespace Floats

variable (floats : Floats F)

/-- A float that is neither a NaN nor infinite. -/
def IsFinite (x : F) : Prop := floats.isNan x = false ∧ floats.isInfinite x = false

instance (x : F) : Decidable (floats.IsFinite x) := inferInstanceAs (Decidable (_ ∧ _))

/-- `str::parse::<f64>` of a text that begins with a minus sign or a digit, as every text does that
a parser hands it: the words for the infinities and NaN, a plus sign and a point in front are left
out. -/
def parse (text : List Char) : Option F :=
  (Numeral.read text).bind fun (n, rest) =>
    if rest = [] ∧ IsDecimal n then some (floats.nearest n.negative (magnitude n)) else none

/-- A numeral is read as the number nearest to its magnitude. -/
theorem parse_text (n : Numeral) :
    floats.parse n.text = if IsDecimal n then some (floats.nearest n.negative (magnitude n))
      else none := by
  have hread := n.read_text Run.ends_nil
  rw [List.append_nil] at hread
  simp [parse, hread]

/-- A finite float is displayed as a decimal number that it is the nearest to. -/
def DisplaysExactly : Prop :=
  ∀ x, floats.IsFinite x → ∃ n : Numeral, floats.display x = n.text ∧ IsDecimal n ∧
    floats.nearest n.negative (magnitude n) = x

end Floats

/-! ## The texts of floats -/

/-- A point or an exponent shows in the text of a numeral. -/
theorem contains_text (n : Numeral) :
    (n.text.contains '.' || n.text.contains 'e' || n.text.contains 'E') = isFloat n := by
  obtain ⟨negative, whole, fraction, power, hbegins⟩ := n
  cases fraction with
  | some digits => simp [Numeral.text, fractionText, isFloat]
  | none =>
    cases power with
    | some power =>
      have hmark : power.mark = 'e' ∨ power.mark = 'E' := by
        unfold Power.mark
        split
        · exact .inr rfl
        · exact .inl rfl
      rcases hmark with hmark | hmark
      · simp [Numeral.text, powerText, isFloat, hmark]
      · simp [Numeral.text, powerText, isFloat, hmark]
    | none =>
      -- a sign and digits
      have hnone (c : Char) (hsign : c ≠ '-') (hdigit : isAsciiDigit c = false) :
          c ∉ signText negative ++ whole.chars := by
        intro hmem
        rcases List.mem_append.1 hmem with hmem | hmem
        · cases negative with
          | true => exact hsign (List.mem_singleton.1 hmem)
          | false => cases hmem
        · rw [whole.all c hmem] at hdigit
          cases hdigit
      have hpoint := hnone '.' (by decide) rfl
      have hlower := hnone 'e' (by decide) rfl
      have hupper := hnone 'E' (by decide) rfl
      simp only [Numeral.text, fractionText, powerText, List.append_nil, isFloat,
        Option.isSome_none, Bool.or_self,
        List.contains_eq_mem, hpoint, hlower, hupper, decide_false]

/-- A whole numeral with a point and a zero. -/
def withPoint (n : Numeral) : Numeral :=
  { n with fraction := some ⟨['0'], fun _ h => by cases List.mem_singleton.1 h; rfl⟩ }

/-- A point and a zero are appended. -/
theorem text_withPoint {n : Numeral} (h : isFloat n = false) :
    (withPoint n).text = n.text ++ ['.', '0'] := by
  simp only [isFloat, Bool.or_eq_false_iff, Option.isSome_eq_false_iff,
    Option.isNone_iff_eq_none] at h
  simp [withPoint, Numeral.text, h.1, h.2, fractionText, powerText]

/-- A point and a zero do not change the magnitude. -/
theorem magnitude_withPoint {n : Numeral} (h : isFloat n = false) :
    magnitude (withPoint n) = magnitude n := by
  simp only [isFloat, Bool.or_eq_false_iff, Option.isSome_eq_false_iff,
    Option.isNone_iff_eq_none] at h
  have hwhole : fractionDigits n = [] := by simp [fractionDigits, h.1]
  have hzero : fractionDigits (withPoint n) = ['0'] := rfl
  have hpower : powerValue (withPoint n).power = 0 := by simp [withPoint, h.2, powerValue]
  rw [magnitude, magnitude, hwhole, hzero, hpower, h.2, List.append_nil]
  have hvalue : valueOf 10 ((withPoint n).whole.chars ++ ['0']) = 10 *
      valueOf 10 n.whole.chars := by
    rw [Numerals.valueOf_append_singleton]
    rfl
  rw [hvalue]
  simp only [powerValue, List.length_cons, List.length_nil, Nat.cast_mul]
  norm_num
  ring

theorem isDecimal_withPoint {n : Numeral} (h : IsDecimal n) : IsDecimal (withPoint n) :=
  ⟨.inr (by simp [fractionDigits, withPoint]), h.2⟩

/-- The floats that are whole numbers, with their texts. -/
def wholeFloats : Floats Int where
  isNan _ := false
  isInfinite _ := false
  isPositive x := 0 < x
  display x := signText (x < 0) ++ Nat.toDigits 10 x.natAbs
  nearest negative size := if negative then -size.floor else size.floor

/-- Whole numbers are displayed exactly. -/
theorem displaysExactly_wholeFloats : wholeFloats.DisplaysExactly := by
  intro x _
  refine ⟨⟨x < 0, digitsOf x.natAbs, none, none, .inr (digitsOf_ne_nil _)⟩, ?_, ?_, ?_⟩
  · simp [wholeFloats, Numeral.text, fractionText, powerText, digitsOf]
  · exact ⟨.inl (digitsOf_ne_nil _), rfl⟩
  · have hvalue : valueOf 10 (digitsOf x.natAbs).chars = x.natAbs :=
      Numerals.valueOf_toDigits (by decide) (by decide) _
    simp only [wholeFloats, magnitude, fractionDigits, Option.elim_none, List.append_nil,
      powerValue, hvalue,
      List.length_nil, Nat.cast_zero, sub_zero, zpow_zero, mul_one, decide_eq_true_eq]
    have hfloor : ((x.natAbs : ℚ)).floor = x.natAbs := Rat.floor_intCast x.natAbs
    rw [hfloor]
    split <;> omega

end RtpMux.JsonReader
