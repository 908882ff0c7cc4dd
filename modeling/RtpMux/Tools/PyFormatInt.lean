import RtpMux.Tools.PyFormatWidth

/-!
# Integers and their groups

`format_int` without a width writes the sign, the prefix of the radix and the digits of the absolute
value, and puts a separator in front of every third or fourth digit from the right. Taken apart
again, the text is the number: the digits spell it in the radix, the first is no zero, and the
groups have their size.
-/

namespace RtpMux.Pyformat

open Numerals (digitValue isDigit valueOf)

/-! ## Specifications -/

/-- The types that write an integer's digits. -/
inductive IntType where
  | decimal
  | binary
  | octal
  | lowerHex
  | upperHex
  deriving DecidableEq

namespace IntType

/-- The letter of a type. -/
def char : IntType → Char
  | decimal => 'd'
  | binary => 'b'
  | octal => 'o'
  | lowerHex => 'x'
  | upperHex => 'X'

/-- The radix of a type. -/
def radix : IntType → Radix
  | decimal => .decimal
  | binary => .binary
  | octal => .octal
  | lowerHex => .hexadecimal
  | upperHex => .hexadecimal

/-- The size of a group. -/
def every : IntType → Nat
  | decimal => 3
  | _ => 4

/-- What `#` puts in front of the digits. -/
def prefixText : IntType → List Char
  | decimal => []
  | binary => ['0', 'b']
  | octal => ['0', 'o']
  | lowerHex => ['0', 'x']
  | upperHex => ['0', 'X']

end IntType

/-- The signs that can be asked for. -/
inductive IntSign where
  | plus
  | minus
  | space
  deriving DecidableEq

/-- A sign option as it is written. -/
def IntSign.char : IntSign → Char
  | plus => '+'
  | minus => '-'
  | space => ' '

/-- A specification of an integer without a width. Only the decimal type takes commas. -/
structure IntSpec where
  sign : Option IntSign
  alternate : Bool
  separator : Option Separator
  type : IntType
  allowed : separator = some .comma → type = .decimal

namespace IntSpec

variable (spec : IntSpec)

/-- A specification as it is written. -/
def text : List Char :=
  (spec.sign.map IntSign.char).toList ++ ((if spec.alternate then ['#'] else []) ++
    ((spec.separator.map Separator.char).toList ++ [spec.type.char]))

/-- The sign in front of a number. -/
def signText (negative : Bool) : List Char :=
  if negative then ['-']
  else
    match spec.sign with
    | some .plus => ['+']
    | some .space => [' ']
    | _ => []

/-- The prefix of the radix, where the specification asks for one. -/
def prefixText : List Char := if spec.alternate then spec.type.prefixText else []

/-- What `parse_spec` makes of the text. -/
def parsed : Spec :=
  { Spec.default spec.type.char .right with
    sign := spec.sign.map IntSign.char, alternate := spec.alternate, grouping := spec.separator }

/-- The text of a specification is parsed as it. -/
theorem parseSpec_text : parseSpec spec.text 'd' .right = .ok spec.parsed := by
  obtain ⟨sign, alternate, separator, type, hallowed⟩ := spec
  -- there are few enough of them to parse each one
  have hall : ∀ sign ∈ [none, some IntSign.plus, some .minus, some .space],
      ∀ alternate ∈ [true, false], ∀ separator ∈ [none, some Separator.comma, some .underscore],
      ∀ type ∈ [IntType.decimal, .binary, .octal, .lowerHex, .upperHex],
      ∀ h : separator = some .comma → type = .decimal,
        parseSpec (text ⟨sign, alternate, separator, type, h⟩) 'd' .right =
          .ok (parsed ⟨sign, alternate, separator, type, h⟩) := by
    decide +kernel
  refine hall sign ?_ alternate (by simp) separator ?_ type ?_ hallowed
  · rcases sign with _ | _ | _ | _ <;> simp
  · rcases separator with _ | _ | _ <;> simp
  · cases type <;> simp

theorem text_ne_nil : spec.text ≠ [] := by simp [text]

/-- A parsed specification gives its radix, its grouping and its prefix. -/
theorem radixOf_parsed :
    radixOf spec.parsed =
      .ok (spec.type.radix, spec.type.every, spec.separator, spec.prefixText) := by
  obtain ⟨sign, alternate, separator, type, hallowed⟩ := spec
  cases alternate <;> rcases separator with _ | separator <;> cases type <;> try rfl
  all_goals cases separator <;> first | rfl | cases hallowed rfl

/-- A parsed specification gives its sign. -/
theorem signChar_parsed (negative : Bool) :
    (signChar negative spec.parsed.sign).toList = spec.signText negative := by
  obtain ⟨sign, alternate, separator, type, hallowed⟩ := spec
  cases negative <;> rcases sign with _ | sign <;> try rfl
  all_goals cases sign <;> rfl

end IntSpec

/-! ## Digits -/

/-- A capital digit has the value of the small one. -/
theorem digitValue_toAsciiUppercase (radix : Nat) (c : Char) :
    digitValue radix (toAsciiUppercase c) = digitValue radix c := by
  rw [toAsciiUppercase]
  split
  · next hlower =>
    have hge : 97 ≤ c.toNat := Text.toNat_le_of_le hlower.1
    have hle : c.toNat ≤ 122 := Text.toNat_le_of_le hlower.2
    have hall : ∀ n, n < 26 → (Char.ofNat (97 + n - 32)).toNat = 97 + n - 32 ∧
        ¬ ('0' ≤ Char.ofNat (97 + n - 32) ∧ Char.ofNat (97 + n - 32) ≤ '9') ∧
        ¬ ('a' ≤ Char.ofNat (97 + n - 32) ∧ Char.ofNat (97 + n - 32) ≤ 'z') ∧
        ('A' ≤ Char.ofNat (97 + n - 32) ∧ Char.ofNat (97 + n - 32) ≤ 'Z') := by decide
    have hsum : 97 + (c.toNat - 97) = c.toNat := by omega
    obtain ⟨hnat, hdigit, hnotlower, hupper⟩ := hall (c.toNat - 97) (by omega)
    rw [hsum] at hnat hdigit hnotlower hupper
    have hcdigit : ¬ ('0' ≤ c ∧ c ≤ '9') := fun h => by
      have h9 : c.toNat ≤ 57 := Text.toNat_le_of_le h.2
      omega
    have hvalue : c.toNat - 32 - 55 = c.toNat - 87 := by omega
    simp only [digitValue, if_neg hdigit, if_neg hnotlower, if_pos hupper, if_neg hcdigit,
      if_pos hlower, hnat, hvalue]
  · rfl

/-- Capitals spell the same number. -/
theorem valueOf_map_toAsciiUppercase (radix : Nat) (digits : List Char) :
    valueOf radix (digits.map toAsciiUppercase) = valueOf radix digits := by
  rw [valueOf, List.foldl_map, valueOf]
  simp only [digitValue_toAsciiUppercase]

/-- The first digit of a number is no zero, unless it is the number. -/
theorem head_toDigits {radix : Nat} (hone : 1 < radix) (hradix : radix ≤ 16) (n : Nat) :
    (Nat.toDigits radix n).head? = some '0' → n = 0 := by
  induction n using Nat.strong_induction_on with
  | _ n ih =>
    intro h
    by_cases hsmall : n < radix
    · rw [Nat.toDigits_of_lt_base hsmall] at h
      have hall : ∀ n < 16, n.digitChar = '0' → n = 0 := by decide
      exact hall n (by omega) (Option.some.inj h)
    · have hdiv : 0 < n / radix := Nat.div_pos (Nat.le_of_not_lt hsmall) (by omega)
      rw [Nat.toDigits_of_base_le hone (Nat.le_of_not_lt hsmall),
        List.head?_append_of_ne_nil _ Nat.toDigits_ne_nil] at h
      exact absurd (ih _ (Nat.div_lt_self (by omega) hone) h) (by omega)

theorem Radix.bounds (radix : Radix) : 1 < radix.value ∧ radix.value ≤ 16 := by
  cases radix <;> decide

/-- The digits of a number are its value. -/
theorem valueOf_radixDigits (type : Char) (radix : Radix) (n : Nat) :
    valueOf radix.value (radixDigits type radix n) = n := by
  have hdigits := Numerals.valueOf_toDigits radix.bounds.1 radix.bounds.2 n
  simp only [radixDigits]
  split
  · rwa [valueOf_map_toAsciiUppercase]
  · exact hdigits

/-- The digits of a number are digits of its radix. -/
theorem isDigit_of_mem_radixDigits {type : Char} {radix : Radix} {n : Nat} {c : Char}
    (h : c ∈ radixDigits type radix n) :
    isDigit radix.value c = true := by
  have hdigits {c : Char} (hc : c ∈ Nat.toDigits radix.value n) : isDigit radix.value c = true :=
    Numerals.isDigit_of_mem_toDigits radix.bounds.1 radix.bounds.2 hc
  simp only [radixDigits] at h
  split at h
  · obtain ⟨d, hd, rfl⟩ := List.mem_map.1 h
    rw [isDigit, digitValue_toAsciiUppercase]
    exact hdigits hd
  · exact hdigits h

theorem eq_zero_of_toAsciiUppercase {c : Char} (h : toAsciiUppercase c = '0') : c = '0' := by
  rw [toAsciiUppercase] at h
  split at h
  · next hlower =>
    have hall : ∀ n, n < 26 → Char.ofNat (97 + n - 32) ≠ '0' := by decide
    have hge : 97 ≤ c.toNat := Text.toNat_le_of_le hlower.1
    have hle : c.toNat ≤ 122 := Text.toNat_le_of_le hlower.2
    have hsum : 97 + (c.toNat - 97) = c.toNat := by omega
    have hne := hall (c.toNat - 97) (by omega)
    rw [hsum] at hne
    exact absurd h hne
  · exact h

/-- Only zero begins with a zero. -/
theorem head_radixDigits {type : Char} {radix : Radix} {n : Nat}
    (h : (radixDigits type radix n).head? = some '0') : n = 0 := by
  refine head_toDigits radix.bounds.1 radix.bounds.2 n ?_
  simp only [radixDigits] at h
  split at h
  · rw [List.head?_map, Option.map_eq_some_iff] at h
    obtain ⟨c, hc, hzero⟩ := h
    rw [hc, eq_zero_of_toAsciiUppercase hzero]
  · exact h

/-- A number below a power has no more digits than its exponent. -/
theorem length_toDigits_le {radix : Nat} (hone : 1 < radix) (n k : Nat) (h : n < radix ^ (k + 1)) :
    (Nat.toDigits radix n).length ≤ k + 1 := by
  induction k generalizing n with
  | zero => rw [Nat.toDigits_of_lt_base (by simpa using h), List.length_singleton]
  | succ k ih =>
    by_cases hsmall : n < radix
    · rw [Nat.toDigits_of_lt_base hsmall, List.length_singleton]
      omega
    · have hdiv : n / radix < radix ^ (k + 1) := Nat.div_lt_of_lt_mul (by rwa [← Nat.pow_succ'])
      rw [Nat.toDigits_of_base_le hone (Nat.le_of_not_lt hsmall), List.length_append,
        List.length_singleton]
      exact Nat.succ_le_succ (ih _ hdiv)

/-- The absolute value of a 64-bit integer has at most 64 digits. -/
theorem length_radixDigits_le (type : Char) (radix : Radix) {n : Nat} (h : n < 2 ^ 64) :
    (radixDigits type radix n).length ≤ 64 := by
  have hlt : n < radix.value ^ (63 + 1) := h.trans_le (Nat.pow_le_pow_left radix.bounds.1 64)
  have hle := length_toDigits_le radix.bounds.1 n 63 hlt
  simp only [radixDigits]
  split
  · rwa [List.length_map]
  · exact hle

/-! ## Groups -/

/-- The groups of a text: the first is not empty and no longer than the others, which all have the
same size. -/
structure Grouped (every : Nat) (groups : List (List Char)) : Prop where
  shape : ∃ first rest, groups = first :: rest ∧ first ≠ [] ∧ first.length ≤ every ∧
    ∀ g ∈ rest, g.length = every

/-- The groups behind the first one. -/
theorem splitOn_groupLoop {every : Nat} (hevery : 0 < every) {separator : Char} {fuel k : Nat}
    (hfuel : k ≤ fuel)
    {digits : List Char} (hdigits : digits.length = every * k) (hplain : separator ∉ digits)
    (front : List Char)
    (hfront : separator ∉ front) :
    ∃ rest, (front ++ groupLoop every separator fuel digits).splitOn separator = front :: rest ∧
      ∀ g ∈ rest, g.length = every := by
  induction k generalizing fuel digits front with
  | zero =>
    have hnil : digits = [] := List.eq_nil_of_length_eq_zero (by simpa using hdigits)
    have hloop : groupLoop every separator fuel digits = [] := by
      subst hnil
      cases fuel <;> rfl
    exact ⟨[], by rw [hloop, List.append_nil, List.splitOn_eq_singleton hfront], by simp⟩
  | succ k ih =>
    obtain ⟨fuel, rfl⟩ : ∃ m, fuel = m + 1 := ⟨fuel - 1, by omega⟩
    rw [Nat.mul_succ] at hdigits
    have hne : digits ≠ [] := by
      rintro rfl
      rw [List.length_nil] at hdigits
      omega
    have hdrop : (digits.drop every).length = every * k := by
      rw [List.length_drop]
      omega
    obtain ⟨rest, hrest, hall⟩ :=
      ih (Nat.le_of_succ_le_succ hfuel) hdrop (fun h => hplain (List.mem_of_mem_drop h))
      (digits.take every) (fun h => hplain (List.mem_of_mem_take h))
    refine ⟨digits.take every :: rest, ?_, fun g hg => ?_⟩
    · rw [groupLoop, if_neg hne, List.splitOn_append_cons_self,
        List.splitOn_eq_singleton hfront, hrest]
      rfl
    · rcases List.mem_cons.1 hg with rfl | hg
      · rw [List.length_take]
        omega
      · exact hall g hg

/-- **Groups have their size.** -/
theorem grouped_group {every : Nat} (hevery : 0 < every) (separator : Separator)
    {digits : List Char} (hne : digits ≠ [])
    (hplain : separator.char ∉ digits) :
    Grouped every ((group digits every (some separator)).splitOn separator.char) := by
  simp only [group]
  split
  · next hle => exact ⟨⟨digits, [], List.splitOn_eq_singleton hplain, hne, hle, by simp⟩⟩
  · next hgt =>
    obtain ⟨first, k, hfirst, hlength, hpos, hle⟩ := exists_firstGroup hevery (Nat.lt_of_not_le hgt)
    have hdrop : (digits.drop first).length = every * k := by
      rw [List.length_drop, hlength]
      omega
    have hk : k ≤ digits.length := by
      have hmul : 1 * k ≤ every * k := Nat.mul_le_mul_right _ hevery
      omega
    have hfront : (digits.take first).length = first := by
      rw [List.length_take]
      omega
    obtain ⟨rest, hrest, hall⟩ :=
      splitOn_groupLoop hevery hk hdrop (fun h => hplain (List.mem_of_mem_drop h))
      (digits.take first) (fun h => hplain (List.mem_of_mem_take h))
    rw [hfirst]
    refine ⟨⟨digits.take first, rest, hrest, fun h => ?_, hfront.trans_le hle, hall⟩⟩
    rw [h, List.length_nil] at hfront
    omega

/-! ## The text of an integer -/

/-- What the text of an integer is, taken apart into its sign, its prefix and `digits` with their
separators. -/
structure IsIntText (spec : IntSpec) (value : Int) (digits out : List Char) : Prop where
  text : out = spec.signText (value < 0) ++ (spec.prefixText ++ digits)
  ne_nil : ungrouped spec.separator digits ≠ []
  /-- digits of the radix and nothing else -/
  digit : ∀ c ∈ ungrouped spec.separator digits, isDigit spec.type.radix.value c = true
  /-- which spell the absolute value -/
  spells : valueOf spec.type.radix.value (ungrouped spec.separator digits) = value.natAbs
  /-- and begin with a zero only if it is zero -/
  leading : (ungrouped spec.separator digits).head? = some '0' → value = 0
  /-- in groups, where there is a separator -/
  grouped : ∀ separator ∈ spec.separator, Grouped spec.type.every (digits.splitOn separator.char)

theorem IntType.every_pos (type : IntType) : 0 < type.every := by cases type <;> decide

section

variable {F : Type} (engine : FloatEngine F) (spec : IntSpec)

/-- An integer's field is the field of its radix. -/
theorem intFieldOf_parsed (value : Int) :
    intFieldOf engine spec.parsed value = some (radixField spec.parsed value) := by
  obtain ⟨sign, alternate, separator, type, hallowed⟩ := spec
  cases type <;> rfl

/-- The field of an integer: its sign and prefix, and its digits. -/
theorem radixField_parsed (value : Int) :
    ∃ field, radixField spec.parsed value = .ok field ∧ field.lead = spec.signText (value < 0) ++
      spec.prefixText ∧
      field.split.intDigits = radixDigits spec.type.char spec.type.radix value.natAbs ∧
        field.every = spec.type.every ∧
        field.separator = spec.separator ∧ field.tail = [] := by
  rw [radixField, spec.radixOf_parsed]
  refine ⟨_, rfl, ?_, rfl, rfl, rfl, rfl⟩
  rw [← spec.signChar_parsed]
  rfl

/-- A sign is one character at most. -/
theorem length_signText_le (negative : Bool) : (spec.signText negative).length ≤ 1 := by
  rw [IntSpec.signText]
  split
  · exact le_rfl
  · split <;> decide

/-- A prefix is two characters at most. -/
theorem length_prefixText_le : spec.prefixText.length ≤ 2 := by
  rw [IntSpec.prefixText]
  split
  · cases spec.type <;> decide
  · decide

/-- The text is short enough to be built. -/
theorem utf8Len_intText_le {value : Int} (hvalue : value.natAbs < 2 ^ 64) :
    utf8Len (spec.signText (value < 0) ++ spec.prefixText ++
      group (radixDigits spec.type.char spec.type.radix value.natAbs) spec.type.every
        spec.separator) ≤ isizeMax := by
  have hlead : Ascii (spec.signText (value < 0) ++ spec.prefixText) := by
    refine .append ?_ ?_
    · rw [IntSpec.signText]
      refine .ite (fun _ => .cons (by decide) .nil) fun _ => ?_
      split
      · exact .cons (by decide) .nil
      · exact .cons (by decide) .nil
      · exact .nil
    · rw [IntSpec.prefixText]
      refine .ite (fun _ => ?_) fun _ => .nil
      cases spec.type
      · exact .nil
      all_goals exact .cons (by decide) (.cons (by decide) .nil)
  have hgroup : Ascii
      (group (radixDigits spec.type.char spec.type.radix value.natAbs) spec.type.every
      spec.separator) :=
    ascii_group (fun c hc => isAsciiAlphanumeric_of_mem_radixDigits hc) _ _
  have hlength := length_radixDigits_le spec.type.char spec.type.radix hvalue
  have hdigits := groupedLength_mono spec.separator spec.type.every hlength
  have hgrouped : groupedLength spec.separator spec.type.every 64 ≤ 100 := by
    rcases spec.separator with _ | separator
    · cases spec.type <;> decide
    · cases separator <;> cases spec.type <;> decide
  have hsign := length_signText_le spec (value < 0)
  have hfront := length_prefixText_le spec
  rw [utf8Len_of_ascii (hlead.append hgroup), List.length_append, List.length_append,
    length_group spec.type.every_pos]
  rw [isizeMax]
  omega

/-- **Digits and groups of an integer.** -/
theorem format_int_groups (value : Int64) :
    ∃ digits out, formatInt engine value.toInt spec.text = some (.ok out) ∧
      IsIntText spec value.toInt digits out := by
  have hmost : value.toInt.natAbs < 2 ^ 64 := by
    have hlt := value.toInt_lt
    have hge := value.le_toInt
    omega
  generalize value.toInt = value at hmost ⊢
  obtain ⟨field, hfield, hlead, hdigits, hevery, hseparator, htail⟩ := radixField_parsed spec value
  have hlayout : layout spec.parsed field = spec.signText (value < 0) ++ (spec.prefixText ++
      group (radixDigits spec.type.char spec.type.radix value.natAbs) spec.type.every
        spec.separator) := by
    rw [(radixField_sound hfield).1.layout_bare rfl, hlead, hdigits, hevery, hseparator, htail,
      List.append_nil,
      List.append_assoc]
  have hfits : utf8Len (layout spec.parsed field) ≤ isizeMax := by
    rw [hlayout, ← List.append_assoc]
    exact utf8Len_intText_le spec hmost
  have hungrouped : ungrouped spec.separator
      (group (radixDigits spec.type.char spec.type.radix value.natAbs)
      spec.type.every spec.separator) = radixDigits spec.type.char spec.type.radix value.natAbs :=
    ungrouped_group spec.type.every_pos _ fun c hc => isAsciiAlphanumeric_of_mem_radixDigits hc
  have hne : radixDigits spec.type.char spec.type.radix value.natAbs ≠ [] := by
    simp only [radixDigits]
    split
    · simp [Nat.toDigits_ne_nil]
    · exact Nat.toDigits_ne_nil
  refine ⟨_, _, ?_, hlayout, ?_, ?_, ?_, ?_, ?_⟩
  · simp only [formatInt, if_neg spec.text_ne_nil, spec.parseSpec_text, formatWith,
      intFieldOf_parsed, hfield,
      Option.bind_some, assemble, built, if_pos hfits, Option.map_some]
  · rwa [hungrouped]
  · rw [hungrouped]
    exact fun c hc => isDigit_of_mem_radixDigits hc
  · rw [hungrouped, valueOf_radixDigits]
  · rw [hungrouped]
    exact fun h => Int.natAbs_eq_zero.1 (head_radixDigits h)
  · intro separator hsome
    rw [hsome]
    refine grouped_group spec.type.every_pos separator hne fun h => ?_
    have hchar := isAsciiAlphanumeric_of_mem_radixDigits h
    cases separator <;> cases hchar

end

/-- The least 64-bit integer. -/
example : formatInt wholeFloats Int64.minValue.toInt "#_x".toList =
    some (.ok "-0x8000_0000_0000_0000".toList) := by
  decide +kernel

end RtpMux.Pyformat
