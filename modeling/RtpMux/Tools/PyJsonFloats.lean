import RtpMux.Tools.JsonNumbers
import RtpMux.Tools.PyFormat

/-!
# A float in Python's spelling

`pyjson.rs` writes a float as `pyformat` does, Python's `repr`: the shortest digits that are read
back as the float, with a point among them, or with an exponent where the point would stand far
away. The digits come from the standard library's `{:e}`. Where the point is put does not change the
number that the text spells.
-/

namespace RtpMux.Pyjson

open Text (isAsciiDigit splitOnce splitOnce_eq_some_iff)
open JsonTree JsonReader
open Numerals (valueOf readInt parseI64)
open Pyformat (FloatEngine parseScientific stripTrailingZeros finiteBody pointed zeros
  formatExponent plainOptions)

variable {F : Type}

/-! ## The digits of a float -/

/-- `{:e}` of a finite float: one digit, more behind a point, and an exponent, which spell a number
that the float is the nearest to. -/
structure IsScientific (engine : FloatEngine F) (floats : Floats F) (x : F) (n : Numeral) :
    Prop where
  text : engine.lowerExp (engine.abs x) = n.text
  negative : n.negative = false
  whole : n.whole.chars.length = 1
  power : ∃ power, n.power = some power ∧ power.upper = false ∧ power.sign ≠ some false ∧
    power.digits.chars ≠ []
  range : -2 ^ 63 ≤ powerValue n.power ∧ powerValue n.power < 2 ^ 63
  nearest : floats.nearest (engine.isSignNegative x) (magnitude n) = x

/-- What the source takes of the standard library: every finite float has such a text. -/
structure Prints (engine : FloatEngine F) (floats : Floats F) : Prop where
  isNan : engine.isNan = floats.isNan
  isInfinite : engine.isInfinite = floats.isInfinite
  scientific : ∀ x, floats.IsFinite x → ∃ n, IsScientific engine floats x n

theorem mem_digits_ne {digits : Digits} {c d : Char} (hd : isAsciiDigit d = false)
    (h : c ∈ digits.chars) : c ≠ d := by
  rintro rfl
  rw [digits.all c h] at hd
  cases hd

/-- The digits of the mantissa, without its point. -/
theorem filter_mantissa (whole : Digits) (fraction : Option Digits) :
    (whole.chars ++ fractionText fraction).filter (· ≠ '.') = whole.chars ++
      fraction.elim [] Run.chars := by
  have hkeep (digits : Digits) : digits.chars.filter (· ≠ '.') = digits.chars := by
    rw [List.filter_eq_self]
    intro c hc
    simpa using mem_digits_ne (d := '.') rfl hc
  rw [List.filter_append, hkeep]
  cases fraction with
  | none => rfl
  | some digits =>
    have hpoint : ('.' :: digits.chars).filter (· ≠ '.') = digits.chars := by
      rw [List.filter_cons_of_neg (by decide), hkeep]
    rw [fractionText, hpoint]
    rfl

/-- A scientific numeral is read into its digits and its point. -/
theorem parseScientific_text {engine : FloatEngine F} {floats : Floats F} {x : F} {n : Numeral}
    (h : IsScientific engine floats x n) :
    parseScientific n.text =
      some (stripTrailingZeros (n.whole.chars ++ fractionDigits n), powerValue n.power + 1) := by
  obtain ⟨power, hpower, hupper, hsign, hdigits⟩ := h.power
  have htext : n.text = (n.whole.chars ++ fractionText n.fraction) ++
      'e' :: (powerSignText power.sign ++ power.digits.chars) := by
    rw [Numeral.text, h.negative, hpower, powerText, Power.mark, hupper]
    simp [signText]
  have hmantissa : 'e' ∉ n.whole.chars ++ fractionText n.fraction := by
    intro hmem
    rcases List.mem_append.1 hmem with hmem | hmem
    · exact mem_digits_ne (d := 'e') rfl hmem rfl
    · cases hfraction : n.fraction with
      | none =>
        rw [hfraction] at hmem
        cases hmem
      | some digits =>
        rw [hfraction, fractionText, List.mem_cons] at hmem
        rcases hmem with hmem | hmem
        · cases hmem
        · exact mem_digits_ne (d := 'e') rfl hmem rfl
  have hsplit : splitOnce 'e' n.text =
      some (n.whole.chars ++ fractionText n.fraction,
        powerSignText power.sign ++ power.digits.chars) :=
    splitOnce_eq_some_iff.2 ⟨hmantissa, htext⟩
  have hsigned : powerSignText power.sign = signText (power.sign = some true) := by
    rcases hcase : power.sign with _ | _ | _
    · rfl
    · exact absurd hcase hsign
    · rfl
  have hexponent : parseI64 (powerSignText power.sign ++ power.digits.chars) =
      some ⟨powerValue n.power, h.range⟩ := by
    have hvalue : powerValue n.power =
        if decide (power.sign = some true) = true then -(valueOf 10 power.digits.chars : Int)
        else valueOf 10 power.digits.chars := by
      simp only [hpower, powerValue, decide_eq_true_eq]
    rw [hsigned, parseI64, readInt_signed _ _ hdigits, ← hvalue, Option.bind_some, dif_pos h.range]
  rw [parseScientific, hsplit, Option.bind_some]
  dsimp only
  rw [hexponent, filter_mantissa]
  rfl

/-! ## Where the point stands -/

/-- The number that digits spell with their point at a place. -/
def pointAt (digits : List Char) (decpt : Int) : ℚ :=
  (valueOf 10 digits : ℚ) * 10 ^ (decpt - digits.length)

/-- Trailing zeros count nothing. -/
theorem pointAt_append_zeros (digits : List Char) (k : Nat) (decpt : Int) :
    pointAt (digits ++ List.replicate k '0') decpt = pointAt digits decpt := by
  have hten : (10 : ℚ) ≠ 0 := by norm_num
  rw [pointAt, pointAt, Numerals.valueOf_append_zeros, List.length_append, List.length_replicate,
    Nat.cast_mul,
    Nat.cast_pow, Nat.cast_add, mul_assoc, Nat.cast_ofNat, ← zpow_natCast, ← zpow_add₀ hten]
  congr 2
  omega

/-- Zeros at the end do not change the number. -/
theorem pointAt_stripTrailingZeros (digits : List Char) (decpt : Int) :
    pointAt (stripTrailingZeros digits) decpt = pointAt digits decpt := by
  obtain ⟨trimmed, htrimmed⟩ : ∃ trimmed, digits.rdropWhile (· = '0') = trimmed := ⟨_, rfl⟩
  obtain ⟨k, hdigits⟩ : ∃ k, digits = trimmed ++ List.replicate k '0' := by
    have hzeros : digits.rtakeWhile (· = '0') =
        List.replicate (digits.rtakeWhile (· = '0')).length '0' := by
      refine List.eq_replicate_of_mem fun c hc => ?_
      simpa using List.mem_rtakeWhile_imp hc
    refine ⟨(digits.rtakeWhile (· = '0')).length, ?_⟩
    rw [← hzeros, ← htrimmed, List.rdropWhile_append_rtakeWhile]
  rw [stripTrailingZeros, htrimmed]
  conv_rhs => rw [hdigits, pointAt_append_zeros]
  split
  · next hnil =>
    have hzero : valueOf 10 ['0'] = 0 := rfl
    have hnone : valueOf 10 [] = 0 := rfl
    rw [hnil, pointAt, pointAt, hzero, hnone, Nat.cast_zero, zero_mul, zero_mul]
  · rfl

/-- The magnitude of a numeral is its digits with the point put in. -/
theorem magnitude_eq_pointAt (n : Numeral) :
    magnitude n = pointAt (n.whole.chars ++ fractionDigits n)
      (powerValue n.power + n.whole.chars.length) := by
  rw [magnitude, pointAt, List.length_append]
  congr 2
  omega

/-- The digits before the point and behind it, where there is no exponent. -/
def pointParts (digits : List Char) (decpt : Int) : List Char × List Char :=
  if decpt ≤ 0 then (['0'], List.replicate (-decpt).toNat '0' ++ digits)
  else if decpt < digits.length then (digits.take decpt.toNat, digits.drop decpt.toNat)
  else (digits ++ List.replicate (decpt - digits.length).toNat '0', ['0'])

/-- Whether the body of a float takes an exponent. -/
def usesExponent (decpt : Int) : Bool := decpt ≤ -4 || 16 < decpt

/-- The pointed digits are two parts and a point between them. -/
theorem pointed_parts {digits : List Char} (hne : digits ≠ []) (decpt : Int) :
    pointed digits decpt (if decpt ≤ 0 then decpt - 1 else 0) (max digits.length (decpt + 1)) =
      (pointParts digits decpt).1 ++ '.' :: (pointParts digits decpt).2 := by
  have hlength : 1 ≤ digits.length := List.length_pos_iff.2 hne
  unfold pointed pointParts zeros
  by_cases hzero : decpt ≤ 0
  · have hnot : ¬ (0 < decpt ∧ decpt ≤ digits.length) := fun h => absurd h.1 (by omega)
    have hshort : ¬ ((digits.length : Int) < decpt) := by omega
    have hone : (decpt - (decpt - 1)).toNat = 1 := by omega
    have hend : (max (max (digits.length : Int) (decpt + 1) - digits.length) 0).toNat =
        0 := by omega
    simp only [hzero, if_true, hnot, if_false, hshort, hone, hend]
    simp
  · have hstart : (max (-(0 : Int)) 0).toNat = 0 := by omega
    simp only [hzero, if_false, hstart, List.replicate_zero, List.nil_append]
    by_cases hinside : decpt < digits.length
    · have hin : 0 < decpt ∧ decpt ≤ digits.length := by omega
      have hshort : ¬ ((digits.length : Int) < decpt) := by omega
      have hend : (max (max (digits.length : Int) (decpt + 1) - digits.length) 0).toNat =
          0 := by omega
      simp only [hin, and_self, if_true, hshort, if_false, hend, hinside]
      simp
    · simp only [hinside, if_false]
      by_cases hlast : decpt = digits.length
      · have hin : 0 < decpt ∧ decpt ≤ digits.length := by omega
        have hshort : ¬ ((digits.length : Int) < decpt) := by omega
        have hend : (max (max (digits.length : Int) (decpt + 1) - digits.length) 0).toNat =
            1 := by omega
        have htake : decpt.toNat = digits.length := by omega
        simp only [hin, hshort, hend, htake]
        simp [hlast]
      · have hnot : ¬ (0 < decpt ∧ decpt ≤ digits.length) := fun h => absurd h.2 (by omega)
        have hlong : (digits.length : Int) < decpt := by omega
        have hend : (max (digits.length : Int) (decpt + 1) - decpt).toNat = 1 := by omega
        simp [hnot, hlong, hend]

theorem pointParts_snd_ne_nil {digits : List Char} (hne : digits ≠ []) (decpt : Int) :
    (pointParts digits decpt).2 ≠ [] := by
  unfold pointParts
  split
  · simp [hne]
  · split
    · rw [ne_eq, List.drop_eq_nil_iff]
      omega
    · simp

/-- Both parts are of digits. -/
theorem mem_pointParts {digits : List Char} (hall : ∀ c ∈ digits, isAsciiDigit c = true)
    (decpt : Int) :
    (∀ c ∈ (pointParts digits decpt).1, isAsciiDigit c = true) ∧ ∀ c ∈ (pointParts digits decpt).2,
      isAsciiDigit c = true := by
  have hzero (n : Nat) : ∀ c ∈ List.replicate n '0', isAsciiDigit c = true := by
    intro c hc
    rw [List.eq_of_mem_replicate hc]
    rfl
  unfold pointParts
  split
  · exact ⟨hzero 1, fun c hc => (List.mem_append.1 hc).elim (hzero _ c) (hall c)⟩
  · split
    · exact ⟨fun c hc => hall c (List.mem_of_mem_take hc),
        fun c hc => hall c (List.mem_of_mem_drop hc)⟩
    · exact ⟨fun c hc => (List.mem_append.1 hc).elim (hall c) (hzero _ c), hzero 1⟩

/-- Digits behind a point do not end with one. -/
theorem getLast?_ne_point (front : List Char) {digits : List Char} (hne : digits ≠ [])
    (hall : ∀ c ∈ digits, isAsciiDigit c = true) :
    (front ++ '.' :: digits).getLast? ≠ some '.' := by
  obtain ⟨more, c, hmore⟩ := (List.eq_nil_or_concat digits).resolve_left hne
  have hc : isAsciiDigit c = true := hall c (by simp [hmore])
  have hsplit : front ++ '.' :: digits = (front ++ '.' :: more) ++ [c] := by simp [hmore]
  rw [hsplit, List.getLast?_concat]
  intro heq
  cases heq
  cases hc

/-- A body without an exponent. -/
theorem finiteBody_point {digits : List Char} (hall : ∀ c ∈ digits, isAsciiDigit c = true)
    (hne : digits ≠ [])
    {decpt : Int} (h : usesExponent decpt = false) (negative : Bool) :
    finiteBody plainOptions negative digits decpt =
      signText negative ++ ((pointParts digits decpt).1 ++ '.' :: (pointParts digits decpt).2) := by
  have hlast := getLast?_ne_point (signText negative ++ (pointParts digits decpt).1)
    (pointParts_snd_ne_nil hne decpt) (mem_pointParts hall decpt).2
  rw [List.append_assoc] at hlast
  have hshape : Pyformat.bodyShape plainOptions digits decpt = (false, (digits.length : Int)) := by
    rw [← h]
    rfl
  unfold finiteBody
  rw [hshape]
  simp only [plainOptions, Bool.false_and, Bool.not_false, Bool.and_true, Bool.false_eq_true,
    if_false, if_true,
    List.append_nil]
  rw [pointed_parts hne]
  exact if_neg fun h => hlast h.1

/-- A body with an exponent. -/
theorem finiteBody_exponent {digits : List Char} (hall : ∀ c ∈ digits, isAsciiDigit c = true)
    (hne : digits ≠ []) {decpt : Int} (h : usesExponent decpt = true)
    (negative : Bool) : finiteBody plainOptions negative digits decpt =
      signText negative ++
        (digits.take 1 ++ ((if digits.length = 1 then [] else '.' :: digits.drop 1) ++
        formatExponent (decpt - 1) false)) := by
  have hshape : Pyformat.bodyShape plainOptions digits decpt = (true, (digits.length : Int)) := by
    rw [← h]
    rfl
  have hlength : 1 ≤ digits.length := List.length_pos_iff.2 hne
  have hend : max (digits.length : Int) 1 = digits.length := by omega
  have hpointed : pointed digits 1 0 digits.length = digits.take 1 ++ '.' :: digits.drop 1 := by
    have hin : (0 : Int) < 1 ∧ (1 : Int) ≤ digits.length := by omega
    have hshort : ¬ ((digits.length : Int) < 1) := by omega
    simp [pointed, hin.2, hshort, zeros]
  unfold finiteBody
  rw [hshape]
  simp only [plainOptions, Bool.false_and, Bool.not_false, Bool.and_true, if_true, Bool.not_true,
    Bool.false_eq_true,
    if_false, show ¬ ((1 : Int) ≤ 0) by decide, hend, hpointed, and_true]
  have hsign : (if negative = true then ['-'] else []) = signText negative := rfl
  rw [hsign]
  by_cases hone : digits.length = 1
  · have hdrop : digits.drop 1 = [] := List.drop_eq_nil_iff.2 (by omega)
    have hdot : (signText negative ++ (digits.take 1 ++ ['.'])).getLast? = some '.' := by simp
    have hfront : (signText negative ++ (digits.take 1 ++ ['.'])).dropLast = signText negative ++
        digits.take 1 := by
      rw [← List.append_assoc, List.dropLast_concat]
    rw [if_pos hone, hdrop, if_pos hdot, hfront]
    simp
  · have hdrop : digits.drop 1 ≠ [] := by
      rw [ne_eq, List.drop_eq_nil_iff]
      omega
    have hdot := getLast?_ne_point (signText negative ++ digits.take 1) hdrop fun c hc =>
      hall c (List.mem_of_mem_drop hc)
    rw [List.append_assoc] at hdot
    rw [if_neg hdot, if_neg hone]
    simp

/-! ## The number that a body spells -/

/-- The digits of an exponent, two at least. -/
def exponentDigits (exp : Int) : Digits :=
  ⟨List.replicate (2 - (digitsOf exp.natAbs).chars.length) '0' ++ (digitsOf exp.natAbs).chars,
    fun c hc => by
    rcases List.mem_append.1 hc with hc | hc
    · rw [List.eq_of_mem_replicate hc]
      rfl
    · exact (digitsOf exp.natAbs).all c hc⟩

/-- The power that `format_exponent` writes. -/
def exponentPower (exp : Int) : Power := ⟨false, some (exp < 0), exponentDigits exp⟩

theorem text_exponentPower (exp : Int) :
    powerText (some (exponentPower exp)) = formatExponent exp false := by
  simp [powerText, exponentPower, Power.mark, powerSignText, formatExponent, exponentDigits,
    digitsOf]

theorem powerValue_exponentPower (exp : Int) : powerValue (some (exponentPower exp)) = exp := by
  have hvalue : valueOf 10 (exponentDigits exp).chars = exp.natAbs := by
    rw [exponentDigits, Numerals.valueOf_replicate_zero]
    exact Numerals.valueOf_toDigits (by decide) (by decide) _
  simp only [powerValue, exponentPower, hvalue, Option.some.injEq, decide_eq_true_eq]
  split <;> omega

/-- A numeral with its point behind the first digit, and without one where that is the only
digit. -/
def firstPoint (negative : Bool) (digits : Digits) (hne : digits.chars ≠ []) (power : Power) :
    Numeral where
  negative := negative
  whole := ⟨digits.chars.take 1, fun c hc => digits.all c (List.mem_of_mem_take hc)⟩
  fraction :=
    if digits.chars.length = 1 then none
    else some ⟨digits.chars.drop 1, fun c hc => digits.all c (List.mem_of_mem_drop hc)⟩
  power := some power
  begins := .inr (by simp [List.take_eq_nil_iff, hne])

section

variable (negative : Bool) (digits : Digits) (hne : digits.chars ≠ []) (power : Power)

theorem length_whole_firstPoint :
    (firstPoint negative digits hne power).whole.chars.length = 1 := by
  have hlength : 1 ≤ digits.chars.length := List.length_pos_iff.2 hne
  change (digits.chars.take 1).length = 1
  rw [List.length_take]
  omega

/-- The text of a numeral with its point behind the first digit. -/
theorem text_firstPoint :
    (firstPoint negative digits hne power).text = signText negative ++ (digits.chars.take 1 ++
    ((if digits.chars.length = 1 then [] else '.' :: digits.chars.drop 1) ++
      powerText (some power))) := by
  rw [Numeral.text, firstPoint]
  by_cases hone : digits.chars.length = 1
  · simp [hone, fractionText]
  · simp [hone, fractionText]

/-- The magnitude of a numeral with its point behind the first digit. -/
theorem magnitude_firstPoint :
    magnitude (firstPoint negative digits hne power) =
      pointAt digits.chars (powerValue (some power) + 1) := by
  have hdigits : (firstPoint negative digits hne power).whole.chars ++
      fractionDigits (firstPoint negative digits hne power) =
      digits.chars := by
    have hfraction : fractionDigits (firstPoint negative digits hne power) =
        digits.chars.drop 1 := by
      by_cases hone : digits.chars.length = 1
      · have hdrop : digits.chars.drop 1 = [] := List.drop_eq_nil_iff.2 (by omega)
        simp [firstPoint, fractionDigits, hone, hdrop]
      · simp [firstPoint, fractionDigits, hone]
    rw [hfraction]
    exact List.take_append_drop 1 digits.chars
  rw [magnitude_eq_pointAt, hdigits, length_whole_firstPoint]
  rfl

end

section

variable {digits : List Char} (hall : ∀ c ∈ digits, isAsciiDigit c = true) (hne : digits ≠ [])
  (decpt : Int)
  (negative : Bool)

include hall hne

/-- A body with an exponent is a numeral of its value. -/
theorem exists_exponentNumeral (h : usesExponent decpt = true) : ∃ n : Numeral,
    n.text = finiteBody plainOptions negative digits decpt ∧ isFloat n = true ∧ IsDecimal n ∧
      n.negative = negative ∧
      magnitude n = pointAt digits decpt := by
  let n := firstPoint negative ⟨digits, hall⟩ hne (exponentPower (decpt - 1))
  have hwhole : n.whole.chars ≠ [] :=
    List.ne_nil_of_length_eq_add_one (length_whole_firstPoint _ _ _ _)
  refine ⟨n, ?_, ?_, ⟨.inl hwhole, ?_⟩, rfl, ?_⟩
  · rw [finiteBody_exponent hall hne h, text_firstPoint, text_exponentPower]
  · simp [isFloat, n, firstPoint]
  · simp [n, firstPoint, exponentPower, exponentDigits, digitsOf_ne_nil]
  · rw [magnitude_firstPoint, powerValue_exponentPower, sub_add_cancel]

/-- A body without an exponent is a numeral of its value. -/
theorem exists_pointNumeral (h : usesExponent decpt = false) : ∃ n : Numeral,
    n.text = finiteBody plainOptions negative digits decpt ∧ isFloat n = true ∧ IsDecimal n ∧
      n.negative = negative ∧
      magnitude n = pointAt digits decpt := by
  have hbehind := pointParts_snd_ne_nil hne decpt
  obtain ⟨hfirst, hsecond⟩ := mem_pointParts hall decpt
  have hwhole : (pointParts digits decpt).1 ≠ [] := by
    unfold pointParts
    split
    · simp
    · split
      · rw [ne_eq, List.take_eq_nil_iff]
        simp only [hne, or_false]
        omega
      · simp [hne]
  let n : Numeral := ⟨negative, ⟨_, hfirst⟩, some ⟨_, hsecond⟩, none, .inr hwhole⟩
  refine ⟨n, ?_, rfl, ⟨.inl hwhole, rfl⟩, rfl, ?_⟩
  · rw [finiteBody_point hall hne h]
    simp [n, Numeral.text, fractionText, powerText]
  · rw [magnitude_eq_pointAt]
    change pointAt ((pointParts digits decpt).1 ++ (pointParts digits decpt).2)
      (0 + ((pointParts digits decpt).1.length : Int)) = _
    rw [zero_add]
    unfold pointParts
    split
    · next hzero =>
      have hvalue : valueOf 10 (['0'] ++ (List.replicate (-decpt).toNat '0' ++ digits)) =
          valueOf 10 digits := by
        rw [← List.append_assoc]
        exact Numerals.valueOf_replicate_zero 10 ((-decpt).toNat + 1) digits
      rw [pointAt, pointAt, hvalue]
      congr 2
      simp only [List.length_append, List.length_replicate, List.length_cons, List.length_nil]
      omega
    · split
      · next hinside =>
        rw [List.take_append_drop, List.length_take]
        congr 1
        omega
      · next houtside =>
        have hzeros : digits ++ List.replicate (decpt - digits.length).toNat '0' ++ ['0'] =
            digits ++ List.replicate ((decpt - digits.length).toNat + 1) '0' := by
          rw [List.append_assoc, List.replicate_succ']
        rw [hzeros, pointAt_append_zeros, List.length_append, List.length_replicate]
        congr 1
        omega

/-- Where the point is put does not change the number. -/
theorem exists_bodyNumeral : ∃ n : Numeral,
    n.text = finiteBody plainOptions negative digits decpt ∧ isFloat n = true ∧ IsDecimal n ∧
      n.negative = negative ∧
      magnitude n = pointAt digits decpt := by
  cases h : usesExponent decpt with
  | true => exact exists_exponentNumeral hall hne decpt negative h
  | false => exact exists_pointNumeral hall hne decpt negative h

end

end RtpMux.Pyjson
