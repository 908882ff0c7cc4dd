import RtpMux.Tools.PyFormatWidth
import RtpMux.Tools.PyJsonFloats

/-!
# Where the point of a float stands

`float_body` of `tools/pyformat.rs` lays the digits of a float out around a point, with zeros before
them and behind, and with an exponent where its type has one. Whatever its options, the text spells
the number that the digits stand for.
-/

namespace RtpMux.Pyformat

open Text (isAsciiDigit)
open JsonTree JsonReader
open Numerals (valueOf)
open Pyjson (pointAt pointAt_append_zeros magnitude_eq_pointAt getLast?_ne_point exponentDigits)

/-! ## The digits around the point -/

/-- The digits before the point and those behind it, up to `vdigitsEnd`. -/
def layoutParts (digits : List Char) (decpt vdigitsEnd : Int) : List Char × List Char :=
  if decpt ≤ 0 then (['0'], zeros (-decpt) ++ (digits ++ zeros (vdigitsEnd - digits.length)))
  else if decpt ≤ digits.length then
    (digits.take decpt.toNat, digits.drop decpt.toNat ++ zeros (vdigitsEnd - digits.length))
  else (digits ++ zeros (decpt - digits.length), zeros (vdigitsEnd - decpt))

section Layout

variable {digits : List Char}

theorem zeros_max (n : Int) : zeros (max n 0) = zeros n := by
  have hsame : (max n 0).toNat = n.toNat := by omega
  rw [zeros, zeros, hsame]

theorem length_zeros (n : Int) : (zeros n).length = n.toNat := List.length_replicate

/-- The pointed digits are two parts and a point between them. -/
theorem pointed_layoutParts (digits : List Char) (decpt vdigitsEnd : Int) :
    pointed digits decpt (if decpt ≤ 0 then decpt - 1 else 0) vdigitsEnd =
      (layoutParts digits decpt vdigitsEnd).1 ++ '.' ::
        (layoutParts digits decpt vdigitsEnd).2 := by
  unfold pointed layoutParts
  by_cases hzero : decpt ≤ 0
  · have hone : zeros 1 = ['0'] := rfl
    have hinside : ¬ (0 < decpt ∧ decpt ≤ digits.length) := fun h => absurd h.1 (by omega)
    have hlong : ¬ ((digits.length : Int) < decpt) := by omega
    simp [hzero, hone, hinside, hlong, zeros_max]
  · have hfront : zeros 0 = [] := rfl
    by_cases hinside : decpt ≤ digits.length
    · have hin : 0 < decpt ∧ decpt ≤ digits.length := by omega
      have hlong : ¬ ((digits.length : Int) < decpt) := by omega
      simp [hzero, hfront, hin, hlong, zeros_max]
    · have hlong : (digits.length : Int) < decpt := by omega
      simp [hzero, hfront, hinside, hlong]

/-- The digits behind the point: as many as are asked for, and no fewer than there are. -/
theorem length_layoutParts_snd {decpt vdigitsEnd : Int} (hend : decpt ≤ vdigitsEnd) :
    (((layoutParts digits decpt vdigitsEnd).2.length : Nat) : Int) = max vdigitsEnd digits.length -
      decpt := by
  unfold layoutParts
  split
  · simp only [List.length_append, length_zeros]
    omega
  · split
    · simp only [List.length_append, List.length_drop, length_zeros]
      omega
    · simp only [length_zeros]
      omega

/-- How many digits stand before the point. -/
theorem length_layoutParts_fst (hne : digits ≠ []) (decpt vdigitsEnd : Int) :
    ((layoutParts digits decpt vdigitsEnd).1.length : Int) = max decpt 1 := by
  have hlength : 1 ≤ digits.length := List.length_pos_iff.2 hne
  unfold layoutParts
  split
  · simp only [List.length_singleton]
    omega
  · split
    · simp only [List.length_take]
      omega
    · simp only [List.length_append, length_zeros]
      omega

theorem isAsciiDigit_zeros {n : Int} : ∀ c ∈ zeros n, isAsciiDigit c = true := by
  intro c hc
  rw [List.eq_of_mem_replicate hc]
  rfl

/-- Both parts are of digits. -/
theorem mem_layoutParts (hall : ∀ c ∈ digits, isAsciiDigit c = true) (decpt vdigitsEnd : Int) :
    (∀ c ∈ (layoutParts digits decpt vdigitsEnd).1, isAsciiDigit c = true) ∧
      ∀ c ∈ (layoutParts digits decpt vdigitsEnd).2, isAsciiDigit c = true := by
  have happend {front back : List Char} (hfront : ∀ c ∈ front, isAsciiDigit c = true)
      (hback : ∀ c ∈ back, isAsciiDigit c = true) : ∀ c ∈ front ++ back, isAsciiDigit c = true :=
    fun c hc => (List.mem_append.1 hc).elim (hfront c) (hback c)
  unfold layoutParts
  split
  · exact ⟨@isAsciiDigit_zeros 1, happend isAsciiDigit_zeros (happend hall isAsciiDigit_zeros)⟩
  · split
    · exact ⟨fun c hc => hall c (List.mem_of_mem_take hc),
        happend (fun c hc => hall c (List.mem_of_mem_drop hc)) isAsciiDigit_zeros⟩
    · exact ⟨happend hall isAsciiDigit_zeros, isAsciiDigit_zeros⟩

/-- Leading zeros move the point with them. -/
theorem pointAt_zeros_append (digits : List Char) (n : Nat) (decpt : Int) :
    pointAt (List.replicate n '0' ++ digits) (decpt + n) = pointAt digits decpt := by
  rw [pointAt, pointAt, Numerals.valueOf_replicate_zero, List.length_append, List.length_replicate]
  congr 2
  omega

/-- A moved point multiplies. -/
theorem pointAt_add (digits : List Char) (decpt k : Int) :
    pointAt digits (k + decpt) = pointAt digits decpt * 10 ^ k := by
  have hten : (10 : ℚ) ≠ 0 := by norm_num
  rw [pointAt, pointAt, mul_assoc, ← zpow_add₀ hten]
  congr 2
  omega

/-- **The point moves with its digits.** -/
theorem pointAt_layoutParts (digits : List Char) {decpt vdigitsEnd : Int} :
    pointAt ((layoutParts digits decpt vdigitsEnd).1 ++ (layoutParts digits decpt vdigitsEnd).2)
      (layoutParts digits decpt vdigitsEnd).1.length = pointAt digits decpt := by
  unfold layoutParts
  split
  · -- one zero before the point, and as many behind it as it stands before the digits
    next hzero =>
    have hzeros : ['0'] ++ (zeros (-decpt) ++ (digits ++ zeros (vdigitsEnd - digits.length))) =
        List.replicate ((-decpt).toNat + 1) '0' ++ digits ++
          List.replicate (vdigitsEnd - digits.length).toNat '0' := by
      simp [zeros, List.replicate_succ]
    have hplace : ((['0'].length : Nat) : Int) = decpt + ((-decpt).toNat + 1 : Nat) := by
      simp only [List.length_singleton]
      omega
    rw [hzeros, pointAt_append_zeros, hplace, pointAt_zeros_append]
  · split
    · next hzero hinside =>
      have hplace : ((digits.take decpt.toNat).length : Int) = decpt := by
        rw [List.length_take]
        omega
      rw [hplace, ← List.append_assoc, List.take_append_drop]
      exact pointAt_append_zeros digits _ decpt
    · next hzero hinside =>
      have hplace : ((digits ++ zeros (decpt - digits.length)).length : Int) = decpt := by
        rw [List.length_append, length_zeros]
        omega
      rw [hplace]
      exact (pointAt_append_zeros _ _ decpt).trans (pointAt_append_zeros digits _ decpt)

end Layout

/-! ## The body -/

/-- The exponent of a body. -/
def bodyPower (exp : Int) (upper : Bool) : Power := ⟨upper, some (exp < 0), exponentDigits exp⟩

/-- The exponent's text is that of its power. -/
theorem text_bodyPower (exp : Int) (upper : Bool) :
    powerText (some (bodyPower exp upper)) = formatExponent exp upper := by
  cases upper <;> simp [powerText, bodyPower, Power.mark, powerSignText, formatExponent,
    exponentDigits, digitsOf]

theorem two_le_exponentDigits (exp : Int) : 2 ≤ (exponentDigits exp).chars.length := by
  rw [exponentDigits, List.length_append, List.length_replicate]
  omega

section Body

variable (opts : BodyOptions) (negative : Bool) (digits : List Char) (decpt : Int)

/-- The body is written with an exponent. -/
def useExp : Bool := (bodyShape opts digits decpt).1

/-- The place of the point, one where there is an exponent. -/
def bodyPoint : Int := if useExp opts digits decpt then 1 else decpt

/-- The end of the digits. -/
def bodyEnd : Int :=
  max (bodyShape opts digits decpt).2
    (if !useExp opts digits decpt && opts.addDot0 then bodyPoint opts digits decpt +
      1 else bodyPoint opts digits decpt)

/-- The digits in front of the point and behind it. -/
def bodyParts : List Char × List Char :=
  layoutParts digits (bodyPoint opts digits decpt) (bodyEnd opts digits decpt)

/-- The point and what stands behind it. A point at the end is written under the alternate form
only. -/
def bodyFraction : Option (List Char) :=
  if (bodyParts opts digits decpt).2 = [] ∧
    opts.alternate = false then none else some (bodyParts opts digits decpt).2

/-- The body has a minus sign. -/
def bodySign : Bool := negative && !(opts.noNeg0 && digits = ['0'])

/-- The point stands before the end. -/
theorem bodyPoint_le_bodyEnd : bodyPoint opts digits decpt ≤ bodyEnd opts digits decpt := by
  unfold bodyEnd
  split <;> omega

/-- A body is a sign, the two parts and an exponent. -/
theorem finiteBody_eq (hall : ∀ c ∈ digits, isAsciiDigit c = true) :
    finiteBody opts negative digits decpt =
    JsonTree.signText (bodySign opts negative digits) ++ ((bodyParts opts digits decpt).1 ++
      (((bodyFraction opts digits decpt).elim [] fun fraction => '.' :: fraction) ++
        if useExp opts digits decpt then formatExponent (decpt - 1) opts.upper else [])) := by
  have hdigits := (mem_layoutParts hall (bodyPoint opts digits decpt) (bodyEnd opts digits decpt)).2
  have hpointed := pointed_layoutParts digits (bodyPoint opts digits decpt)
      (bodyEnd opts digits decpt)
  have hbody : finiteBody opts negative digits decpt =
      (if (JsonTree.signText (bodySign opts negative digits) ++
        ((bodyParts opts digits decpt).1 ++ '.' ::
          (bodyParts opts digits decpt).2)).getLast? = some '.' ∧ opts.alternate = false then
        (JsonTree.signText (bodySign opts negative digits) ++
          ((bodyParts opts digits decpt).1 ++ '.' ::
          (bodyParts opts digits decpt).2)).dropLast
      else JsonTree.signText (bodySign opts negative digits) ++
        ((bodyParts opts digits decpt).1 ++ '.' ::
          (bodyParts opts digits decpt).2)) ++
        if useExp opts digits decpt then formatExponent (decpt - 1) opts.upper else [] := by
    rw [bodyParts, ← hpointed]
    rfl
  rw [hbody]
  by_cases hnil : (bodyParts opts digits decpt).2 = []
  · have hlast : (JsonTree.signText (bodySign opts negative digits) ++
        ((bodyParts opts digits decpt).1 ++ ['.'])).getLast? =
        some '.' := by simp
    have hfront : (JsonTree.signText (bodySign opts negative digits) ++
        ((bodyParts opts digits decpt).1 ++ ['.'])).dropLast =
        JsonTree.signText (bodySign opts negative digits) ++ (bodyParts opts digits decpt).1 := by
      rw [← List.append_assoc, List.dropLast_concat]
    rw [bodyFraction, hnil, hlast, hfront]
    cases opts.alternate <;> simp
  · have hlast := getLast?_ne_point (JsonTree.signText (bodySign opts negative digits) ++
        (bodyParts opts digits decpt).1) hnil hdigits
    rw [List.append_assoc] at hlast
    have hfraction : bodyFraction opts digits decpt = some (bodyParts opts digits decpt).2 :=
      if_neg fun h => hnil h.1
    rw [if_neg fun h => hlast h.1, hfraction]
    simp

variable {digits} (hall : ∀ c ∈ digits, isAsciiDigit c = true) (hne : digits ≠ [])

theorem bodyParts_fst_ne_nil (hne : digits ≠ []) : (bodyParts opts digits decpt).1 ≠ [] := by
  have hlength := length_layoutParts_fst hne (bodyPoint opts digits decpt)
      (bodyEnd opts digits decpt)
  intro hnil
  rw [bodyParts] at hnil
  rw [hnil, List.length_nil] at hlength
  omega

/-- The numeral of a body. -/
def bodyNumeral : JsonTree.Numeral where
  negative := bodySign opts negative digits
  whole := ⟨(bodyParts opts digits decpt).1, (mem_layoutParts hall _ _).1⟩
  fraction :=
    if (bodyParts opts digits decpt).2 = [] ∧ opts.alternate = false then none
    else some ⟨(bodyParts opts digits decpt).2, (mem_layoutParts hall _ _).2⟩
  power := if useExp opts digits decpt then some (bodyPower (decpt - 1) opts.upper) else none
  begins := .inr (bodyParts_fst_ne_nil opts decpt hne)

/-- A body is the text of its numeral. -/
theorem text_bodyNumeral :
    (bodyNumeral opts negative decpt hall hne).text = finiteBody opts negative digits decpt := by
  have hfraction : fractionText (bodyNumeral opts negative decpt hall hne).fraction =
      (bodyFraction opts digits decpt).elim [] fun fraction => '.' :: fraction := by
    simp only [bodyNumeral, bodyFraction]
    split <;> rfl
  have hpower : powerText (bodyNumeral opts negative decpt hall hne).power =
      if useExp opts digits decpt then formatExponent (decpt - 1) opts.upper else [] := by
    simp only [bodyNumeral]
    split
    · exact text_bodyPower _ _
    · rfl
  rw [finiteBody_eq opts negative digits decpt hall, JsonTree.Numeral.text, hfraction, hpower]
  rfl

/-- The fraction of a body's numeral. -/
theorem fractionDigits_bodyNumeral :
    fractionDigits (bodyNumeral opts negative decpt hall hne) =
      (bodyParts opts digits decpt).2 := by
  simp only [fractionDigits, bodyNumeral]
  split
  · next hnil => exact hnil.1.symm
  · rfl

/-- A body's numeral is a decimal. -/
theorem isDecimal_bodyNumeral : IsDecimal (bodyNumeral opts negative decpt hall hne) := by
  refine ⟨.inl (bodyParts_fst_ne_nil opts decpt hne), ?_⟩
  have hdigits : (exponentDigits (decpt - 1)).chars ≠ [] :=
    List.ne_nil_of_length_pos (Nat.lt_of_lt_of_le Nat.two_pos (two_le_exponentDigits _))
  simp only [bodyNumeral]
  split
  · simp [bodyPower, hdigits]
  · rfl

/-- The power of a body's numeral. -/
theorem powerValue_bodyNumeral : powerValue (bodyNumeral opts negative decpt hall hne).power =
    if useExp opts digits decpt then decpt - 1 else 0 := by
  simp only [bodyNumeral]
  split
  · exact Pyjson.powerValue_exponentPower (decpt - 1)
  · rfl

/-- **The body spells its digits.** -/
theorem magnitude_bodyNumeral :
    magnitude (bodyNumeral opts negative decpt hall hne) = pointAt digits decpt := by
  have hparts := @pointAt_layoutParts digits (bodyPoint opts digits decpt)
      (bodyEnd opts digits decpt)
  have hplace : powerValue (bodyNumeral opts negative decpt hall hne).power +
      bodyPoint opts digits decpt = decpt := by
    rw [powerValue_bodyNumeral, bodyPoint]
    split <;> omega
  calc magnitude (bodyNumeral opts negative decpt hall hne)
      = pointAt ((bodyParts opts digits decpt).1 ++ (bodyParts opts digits decpt).2)
          (powerValue (bodyNumeral opts negative decpt hall hne).power +
            ((bodyParts opts digits decpt).1.length : Int)) := by
        rw [magnitude_eq_pointAt, fractionDigits_bodyNumeral]
        rfl
    _ = pointAt digits (bodyPoint opts digits decpt) *
        10 ^ powerValue (bodyNumeral opts negative decpt hall hne).power := by
        rw [pointAt_add, bodyParts, hparts]
    _ = pointAt digits decpt := by
        rw [← pointAt_add, hplace]

end Body

/-! ## Every option -/

/-- The options that the source builds, for a specification or for none. -/
def IsBuilt (opts : BodyOptions) : Prop := opts = plainOptions ∨ ∃ parsed, bodyOptions parsed = .ok
    (some opts)

/-- What `dtoa` returns in a mode: digits without zeros that do nothing, and no more of them than
the mode asks for. -/
structure IsDtoa (mode : DtoaMode) (digits : List Char) (decpt : Int) : Prop where
  ne_nil : digits ≠ []
  digit : ∀ c ∈ digits, isAsciiDigit c = true
  noZeros : digits = ['0'] ∨ digits.head? ≠ some '0' ∧ digits.getLast? ≠ some '0'
  fits : match mode with
    | .shortest => True
    | .significant p => digits.length ≤ max p 1
    | .fixed n => digits.length ≤ decpt + n

/-- The texts of a float with a precision have that many digits behind their point, and are texts of
the source. -/
structure WritesWithin {F : Type} (engine : FloatEngine F) (x : F) : Prop where
  lowerExp : ∀ n, ∀ text ∈ engine.lowerExpWith n x, n + 3 ≤ text.length ∧ text.length ≤ isizeMax
  fixed : ∀ n, ∀ text ∈ engine.fixedWith n x, n ≤ text.length ∧ text.length ≤ isizeMax

/-- The mode and the precision of each type, and the options that it is not built with. -/
def TypeOptions (opts : BodyOptions) : Prop :=
  match opts.type with
  | .e => ∃ p, opts.mode = .significant (p + 1) ∧ opts.precision = p + 1
  | .f => opts.mode = .fixed opts.precision ∧ opts.addDot0 = false
  | .g => opts.mode = .significant opts.precision ∧ 1 ≤ opts.precision
  | .r => opts.mode = .shortest ∧ opts.upper = false

/-- Options that the source builds are those of a type. -/
theorem IsBuilt.typeOptions {opts : BodyOptions} (h : IsBuilt opts) : TypeOptions opts := by
  rcases h with rfl | ⟨parsed, hparsed⟩
  · exact ⟨rfl, rfl⟩
  · unfold bodyOptions at hparsed
    dsimp only at hparsed
    cases hbody : bodyTypeOf (Text.toAsciiLowercase (effectiveType parsed)) with
    | none =>
      rw [hbody] at hparsed
      cases hparsed
    | some body =>
      rw [hbody] at hparsed
      simp only [Except.ok.injEq, Option.map_eq_some_iff] at hparsed
      obtain ⟨⟨mode, precision⟩, hmode, rfl⟩ := hparsed
      cases body with
      | e =>
        rw [bodyMode, Option.ite_none_right_eq_some] at hmode
        cases hmode.2
        exact ⟨_, rfl, rfl⟩
      | f =>
        cases hmode
        refine ⟨rfl, ?_⟩
        -- without a letter the type is another
        simp only [decide_eq_false_iff_not]
        intro hnone
        rw [effectiveType, if_pos hnone] at hbody
        split at hbody <;> exact absurd hbody (by decide)
      | g =>
        cases hmode
        refine ⟨rfl, ?_⟩
        generalize parsed.precision.getD _ = p
        change 1 ≤ if p = 0 then 1 else p
        split <;> omega
      | r =>
        cases hmode
        refine ⟨rfl, ?_⟩
        -- a capital is none of this type's letters
        simp only [Bool.or_eq_false_iff, decide_eq_false_iff_not]
        refine ⟨⟨?_, ?_⟩, ?_⟩ <;> intro hupper <;> rw [hupper] at hbody <;> exact absurd hbody
          (by decide)

/-- What the text of a finite float is, by its options. -/
structure BodySpells (opts : BodyOptions) (negative : Bool) (digits : List Char) (decpt : Int)
    (body : List Char)
    (n : JsonTree.Numeral) : Prop where
  text : body = n.text
  isDecimal : IsDecimal n
  /-- the digits' own number -/
  magnitude : magnitude n = pointAt digits decpt
  /-- the sign of the float, but for a zero under the `z` option -/
  sign : n.negative = (negative && !(opts.noNeg0 && digits = ['0']))
  /-- as many digits behind the point as the precision says -/
  fixed : opts.type = .f → (fractionDigits n).length = opts.precision ∧ n.power = none
  /-- one digit before the point; the precision counts it with those behind -/
  exponent : opts.type = .e → n.whole.chars.length = 1 ∧
    (fractionDigits n).length + 1 = opts.precision ∧
    ∃ power, n.power = some power ∧ 2 ≤ power.digits.chars.length
  repr : opts.type = .r → opts.addDot0 = true → '.' ∈ body ∨ 'e' ∈ body

section Every

variable {opts : BodyOptions} {digits : List Char} {decpt : Int}

/-- The digits behind the point of a body. -/
theorem length_bodyParts_snd : (((bodyParts opts digits decpt).2.length : Nat) : Int) =
    max (bodyEnd opts digits decpt) digits.length - bodyPoint opts digits decpt :=
  length_layoutParts_snd (bodyPoint_le_bodyEnd opts digits decpt)

theorem asI64_of_lt {n : Nat} (h : n < 2 ^ 63) : asI64 n = n := if_pos h

/-- A fixed body has as many decimals as the precision says. -/
theorem length_fraction_fixed (htype : opts.type = .f) (hdot : opts.addDot0 = false)
    (hprecision : opts.precision < 2 ^ 63)
    (hfits : (digits.length : Int) ≤ decpt + opts.precision) :
    (bodyParts opts digits decpt).2.length = opts.precision := by
  have hlength := @length_bodyParts_snd opts digits decpt
  have hshape : bodyShape opts digits decpt = (false, decpt + opts.precision) := by
    rw [bodyShape, htype, asI64_of_lt hprecision]
  have hexp : useExp opts digits decpt = false := by rw [useExp, hshape]
  have hpoint : bodyPoint opts digits decpt = decpt := by
    rw [bodyPoint, hexp]
    rfl
  have hend : bodyEnd opts digits decpt = decpt + opts.precision := by
    rw [bodyEnd, hexp, hdot, hpoint, hshape]
    simp
  rw [hend, hpoint] at hlength
  omega

/-- An exponent's body has as many digits as the precision says, one of them before the point. -/
theorem length_fraction_exponent (hne : digits ≠ []) (htype : opts.type = .e)
    (hprecision : opts.precision < 2 ^ 63)
    (hfits : digits.length ≤ opts.precision) : useExp opts digits decpt = true ∧
      (bodyParts opts digits decpt).1.length = 1 ∧ (bodyParts opts digits decpt).2.length + 1 =
        opts.precision := by
  have hpos : 1 ≤ digits.length := List.length_pos_iff.2 hne
  have hshape : bodyShape opts digits decpt = (true, (opts.precision : Int)) := by
    rw [bodyShape, htype, asI64_of_lt hprecision]
  have hexp : useExp opts digits decpt = true := by rw [useExp, hshape]
  have hpoint : bodyPoint opts digits decpt = 1 := by
    rw [bodyPoint, hexp]
    rfl
  have hend : bodyEnd opts digits decpt = max (opts.precision : Int) 1 := by
    rw [bodyEnd, hexp, hpoint, hshape]
    rfl
  have hwhole := length_layoutParts_fst hne (bodyPoint opts digits decpt)
      (bodyEnd opts digits decpt)
  have hlength := @length_bodyParts_snd opts digits decpt
  rw [hend, hpoint] at hlength
  rw [← bodyParts, hpoint] at hwhole
  refine ⟨hexp, ?_, ?_⟩ <;> omega

/-- Under the default options of `repr` a point or an exponent shows. -/
theorem repr_shows (negative : Bool) (hall : ∀ c ∈ digits, isAsciiDigit c = true)
    (hupper : opts.upper = false)
    (hdot : opts.addDot0 = true) :
    '.' ∈ finiteBody opts negative digits decpt ∨ 'e' ∈ finiteBody opts negative digits decpt := by
  rw [finiteBody_eq opts negative digits decpt hall]
  cases hexp : useExp opts digits decpt with
  | true =>
    refine .inr ?_
    simp [hupper, formatExponent]
  | false =>
    have hlength := @length_bodyParts_snd opts digits decpt
    have hend : bodyPoint opts digits decpt + 1 ≤ bodyEnd opts digits decpt := by
      rw [bodyEnd, hexp, hdot]
      exact le_max_right _ _
    have hne : (bodyParts opts digits decpt).2 ≠ [] := List.ne_nil_of_length_pos (by omega)
    have hfraction : bodyFraction opts digits decpt = some (bodyParts opts digits decpt).2 :=
      if_neg fun h => hne h.1
    refine .inl ?_
    simp [hfraction]

/-- The precision of a text that was written fits an `i64`. -/
theorem precision_lt {F : Type} {engine : FloatEngine F} {x : F} (hwrites : WritesWithin engine x)
    (hoptions : TypeOptions opts) (hdtoa : dtoa engine x opts.mode = some (digits, decpt))
    (htype : opts.type = .e ∨ opts.type = .f) : opts.precision < 2 ^ 63 := by
  have hmax : isizeMax = 2 ^ 63 - 1 := rfl
  rcases htype with htype | htype
  · rw [TypeOptions, htype] at hoptions
    obtain ⟨p, hmode, hp⟩ := hoptions
    rw [hmode, dtoa, Option.bind_eq_some_iff] at hdtoa
    obtain ⟨text, htext, -⟩ := hdtoa
    have hwidth := hwrites.lowerExp _ text htext
    omega
  · rw [TypeOptions, htype] at hoptions
    rw [hoptions.1, dtoa, Option.map_eq_some_iff] at hdtoa
    obtain ⟨text, htext, -⟩ := hdtoa
    have hwidth := hwrites.fixed _ text htext
    omega

/-- **The layout of a float is exact.** -/
theorem floatBody_spells {F : Type} (engine : FloatEngine F) (value : F)
    (hnan : engine.isNan value = false)
    (hinfinite : engine.isInfinite value = false) (hwrites : WritesWithin engine (engine.abs value))
    (hbuilt : IsBuilt opts)
    (hdtoa : dtoa engine (engine.abs value) opts.mode = some (digits, decpt))
    (hdigits : IsDtoa opts.mode digits decpt) :
    ∃ body n, floatBody engine value opts = some body ∧
      BodySpells opts (engine.isSignNegative value) digits decpt body n := by
  have hoptions := hbuilt.typeOptions
  have hbody : floatBody engine value opts =
      some (finiteBody opts (engine.isSignNegative value) digits decpt) := by
    simp only [floatBody, hnan, hinfinite, Bool.false_eq_true, if_false, hdtoa, Option.map_some]
  refine ⟨_, bodyNumeral opts (engine.isSignNegative value) decpt hdigits.digit hdigits.ne_nil,
    hbody, ?_⟩
  refine ⟨(text_bodyNumeral _ _ _ _ _).symm, isDecimal_bodyNumeral _ _ _ _ _,
    magnitude_bodyNumeral _ _ _ _ _, rfl, ?_, ?_, ?_⟩
  · intro htype
    have hprecision := precision_lt hwrites hoptions hdtoa (.inr htype)
    rw [TypeOptions, htype] at hoptions
    have hfits := hdigits.fits
    rw [hoptions.1] at hfits
    rw [fractionDigits_bodyNumeral]
    refine ⟨length_fraction_fixed htype hoptions.2 hprecision hfits, ?_⟩
    have hexp : useExp opts digits decpt = false := by
      rw [useExp, bodyShape, htype]
    simp [bodyNumeral, hexp]
  · intro htype
    have hprecision := precision_lt hwrites hoptions hdtoa (.inl htype)
    rw [TypeOptions, htype] at hoptions
    obtain ⟨p, hmode, hp⟩ := hoptions
    have hfits := hdigits.fits
    rw [hmode] at hfits
    obtain ⟨hexp, hwhole, hfraction⟩ :=
      @length_fraction_exponent opts digits decpt hdigits.ne_nil htype hprecision
      (by simp only at hfits; omega)
    rw [fractionDigits_bodyNumeral]
    refine ⟨hwhole, hfraction, bodyPower (decpt - 1) opts.upper, ?_, two_le_exponentDigits _⟩
    simp [bodyNumeral, hexp]
  · intro htype hdot
    rw [TypeOptions, htype] at hoptions
    exact repr_shows (engine.isSignNegative value) hdigits.digit hoptions.2 hdot

end Every

/-- Whole floats under the standard library's bound on a precision. -/
def boundedFloats : FloatEngine Int :=
  { wholeFloats with
    fixedWith := fun n x => if n < 2 ^ 16 then wholeFloats.fixedWith n x else none
    fixedWith_ascii := fun n x text h => by
      rw [Option.mem_def, Option.ite_none_right_eq_some] at h
      exact wholeFloats.fixedWith_ascii n x text h.2 }

/-- The options of `.2f`. -/
def twoPlaces : BodyOptions where
  type := .f
  upper := false
  alternate := false
  addDot0 := false
  noNeg0 := false
  precision := 2
  mode := .fixed 2

/-- `-7` with two places. -/
theorem floatBody_spells_places :
    ∃ n, BodySpells twoPlaces true ['7'] 1 "-7.00".toList n := by
  have hwrites : WritesWithin boundedFloats 7 := by
    refine ⟨fun n text h => (Option.not_mem_none _ h).elim, fun n text h => ?_⟩
    obtain ⟨hn, htext⟩ := Option.ite_none_right_eq_some.1 h
    obtain rfl : Nat.toDigits 10 7 ++ (if n = 0 then [] else '.' :: List.replicate n '0') = text :=
      Option.some.inj htext
    have hone : (Nat.toDigits 10 7).length = 1 := by decide
    have hmax : isizeMax = 2 ^ 63 - 1 := rfl
    rw [List.length_append, hone]
    split
    · simp only [List.length_nil]
      omega
    · simp only [List.length_cons, List.length_replicate]
      omega
  have hbuilt : IsBuilt twoPlaces :=
    .inr ⟨{ Spec.default 'f' .right with precision := some 2 }, rfl⟩
  have hdigits : IsDtoa twoPlaces.mode ['7'] 1 := by
    refine ⟨by decide, ?_, .inr (by decide), ?_⟩
    · intro c hc
      cases List.mem_singleton.1 hc
      rfl
    · change (([('7' : Char)].length : Nat) : Int) ≤ 1 + ((2 : Nat) : Int)
      decide
  have habs : boundedFloats.abs (-7) = 7 := rfl
  obtain ⟨body, n, hbody, hspells⟩ :=
    floatBody_spells boundedFloats (-7) rfl rfl (habs ▸ hwrites) hbuilt (by decide) hdigits
  have htext : floatBody boundedFloats (-7) twoPlaces = some "-7.00".toList := by decide
  rw [htext] at hbody
  cases hbody
  exact ⟨n, hspells⟩

end RtpMux.Pyformat
