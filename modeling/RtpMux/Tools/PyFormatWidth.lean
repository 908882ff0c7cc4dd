import RtpMux.Tools.PyFormatSpec

/-!
# The width of a number's field

A number in a field of width `w` has `max w n` characters, where `n` is how many it has in a field
without one; a zero fill with groups may need one more, so that it does not begin with a separator.
`format_int` and `format_float` keep to this but in two cases:

* a zero fill with groups counts the zeros before it puts the separators between them, and so is too
long once the zeros fill more than one group;
* the type `c` counts the bytes of its character.

What stands in the field is the number's own text in every case.
-/

namespace RtpMux.Pyformat

open Text

/-! ## Groups -/

/-- The length of so many digits in groups. -/
def groupedLength (separator : Option Separator) (every digits : Nat) : Nat :=
  match separator with
  | none => digits
  | some _ => digits + (digits - 1) / every

/-- How long grouped digits are, from the loop. -/
theorem length_groupLoop {every : Nat} (hevery : 0 < every) (separator : Char) {fuel k : Nat}
    (hfuel : k ≤ fuel)
    {digits : List Char} (hdigits : digits.length = every * k) :
    (groupLoop every separator fuel digits).length = every * k + k := by
  induction k generalizing fuel digits with
  | zero =>
    have hnil : digits = [] := List.eq_nil_of_length_eq_zero (by simpa using hdigits)
    subst hnil
    cases fuel <;> rfl
  | succ k ih =>
    obtain ⟨fuel, rfl⟩ : ∃ m, fuel = m + 1 := ⟨fuel - 1, by omega⟩
    rw [Nat.mul_succ] at hdigits ⊢
    have hne : digits ≠ [] := by
      rintro rfl
      rw [List.length_nil] at hdigits
      omega
    have hdrop : (digits.drop every).length = every * k := by
      rw [List.length_drop]
      omega
    rw [groupLoop, if_neg hne, List.length_cons, List.length_append, List.length_take,
      ih (by omega) hdrop]
    omega

/-- Without the separators the digits are left. -/
theorem filter_groupLoop {every : Nat} (hevery : 0 < every) {separator : Char} {fuel : Nat}
    {digits : List Char}
    (hfuel : digits.length ≤ fuel) (hplain : separator ∉ digits) :
    (groupLoop every separator fuel digits).filter (· ≠ separator) = digits := by
  induction fuel generalizing digits with
  | zero =>
    have hnil : digits = [] := List.eq_nil_of_length_eq_zero (Nat.le_zero.1 hfuel)
    rw [hnil]
    rfl
  | succ fuel ih =>
    rw [groupLoop]
    split
    · next hnil =>
      rw [hnil]
      rfl
    · next hne =>
      have htake : (digits.take every).filter (· ≠ separator) = digits.take every := by
        refine List.filter_eq_self.2 fun c hc => decide_eq_true ?_
        rintro rfl
        exact hplain (List.mem_of_mem_take hc)
      have hpos := List.length_pos_iff.2 hne
      have hdrop : (digits.drop every).length ≤ fuel := by
        rw [List.length_drop]
        omega
      rw [List.filter_cons_of_neg (by simp), List.filter_append, htake,
        ih hdrop fun hc => hplain (List.mem_of_mem_drop hc), List.take_append_drop]

/-- The first group has the digits that the whole groups leave, and is never empty. -/
theorem exists_firstGroup {every length : Nat} (hevery : 0 < every) (hlength : every < length) :
    ∃ first k, (if length % every = 0 then every else length % every) = first ∧
      length = first + every * k ∧ 0 < first ∧
      first ≤ every := by
  have hdiv := Nat.mod_add_div length every
  have hlt := Nat.mod_lt length hevery
  split
  · next hzero =>
    refine ⟨every, length / every - 1, rfl, ?_, hevery, le_rfl⟩
    have hone : 1 ≤ length / every := Nat.div_pos hlength.le hevery
    rw [Nat.mul_sub, Nat.mul_one]
    have hmul : every * 1 ≤ every * (length / every) := Nat.mul_le_mul_left _ hone
    omega
  · next hzero => exact ⟨_, length / every, rfl, hdiv.symm, by omega, hlt.le⟩

/-- How long grouped digits are. -/
theorem length_group {every : Nat} (hevery : 0 < every) (separator : Option Separator)
    (digits : List Char) :
    (group digits every separator).length = groupedLength separator every digits.length := by
  cases separator with
  | none => rfl
  | some separator =>
    simp only [group, groupedLength]
    split
    · next hle =>
      rw [Nat.div_eq_of_lt (by omega), Nat.add_zero]
    · next hgt =>
      obtain ⟨first, k, hfirst, hlength, hpos, hle⟩ :=
        exists_firstGroup hevery (Nat.lt_of_not_le hgt)
      have hdrop : (digits.drop first).length = every * k := by
        rw [List.length_drop, hlength]
        omega
      have hcount : (digits.length - 1) / every = k := by
        rw [hlength, show first + every * k - 1 = first - 1 + every * k by omega,
          Nat.add_mul_div_left _ _ hevery,
          Nat.div_eq_of_lt (by omega), Nat.zero_add]
      have hk : k ≤ digits.length := by
        have hmul : 1 * k ≤ every * k := Nat.mul_le_mul_right _ hevery
        omega
      rw [hfirst, List.length_append, List.length_take, length_groupLoop hevery _ hk hdrop, hcount]
      omega

/-- The separators of a group are no digits, and what is left without them is the digits. -/
theorem filter_group {every : Nat} (hevery : 0 < every) {separator : Separator} {digits : List Char}
    (hplain : separator.char ∉ digits) :
    (group digits every (some separator)).filter (· ≠ separator.char) = digits := by
  have hself {text : List Char} (h : ∀ c ∈ text, c ∈ digits) : text.filter (· ≠ separator.char) =
      text := by
    refine List.filter_eq_self.2 fun c hc => decide_eq_true ?_
    rintro rfl
    exact hplain (h _ hc)
  simp only [group]
  split
  · exact hself fun c hc => hc
  · rw [List.filter_append, hself fun c hc => List.mem_of_mem_take hc,
      filter_groupLoop hevery (by rw [List.length_drop]; omega) fun hc =>
        hplain (List.mem_of_mem_drop hc),
      List.take_append_drop]

/-- A text without its separators. -/
def ungrouped (separator : Option Separator) (text : List Char) : List Char :=
  match separator with
  | none => text
  | some separator => text.filter (· ≠ separator.char)

/-- Grouping keeps the digits. -/
theorem ungrouped_group {every : Nat} (hevery : 0 < every) (separator : Option Separator)
    {digits : List Char}
    (hdigits : ∀ c ∈ digits, isAsciiAlphanumeric c = true) :
    ungrouped separator (group digits every separator) = digits := by
  cases separator with
  | none => rfl
  | some separator =>
    refine filter_group hevery fun hmem => ?_
    have hchar := hdigits _ hmem
    cases separator <;> cases hchar

/-! ## The parts of a field -/

/-- What stands in front of the digits. -/
def Field.lead (field : Field) : List Char := field.sign.toList ++ field.prefixText

/-- What stands behind the digits. -/
def Field.tail (field : Field) : List Char :=
  (if field.split.hasDecimal then ['.'] else []) ++
    (field.split.fracDigits ++ field.split.remainder)

/-- What every field of the two formatters is like. Only its remainder may have more bytes than
characters, and then it has no digits. -/
structure Field.Sound (field : Field) : Prop where
  prefixText : utf8Len field.prefixText = field.prefixText.length
  every : field.every = 3 ∨ field.every = 4
  fracSeparator : field.fracSeparator = none
  remainder : utf8Len field.split.remainder = field.split.remainder.length ∨ field.separator = none

theorem utf8Len_append (a b : List Char) : utf8Len (a ++ b) = utf8Len a + utf8Len b := by
  simp [utf8Len]

/-- No character is shorter than a byte. -/
theorem length_le_utf8Len (text : List Char) : text.length ≤ utf8Len text := by
  induction text with
  | nil => exact le_rfl
  | cons c text ih =>
    have hpos : 0 < c.utf8Size := c.utf8Size_pos
    have hcons : utf8Len (c :: text) = c.utf8Size + utf8Len text := by simp [utf8Len]
    rw [List.length_cons, hcons]
    omega

/-- How many bytes a field counts beyond its characters. -/
def Field.excess (field : Field) : Nat :=
  utf8Len field.split.remainder - field.split.remainder.length

theorem Field.Sound.nonDigits {field : Field} (h : field.Sound) :
    field.nonDigits = field.lead.length + field.tail.length + field.excess := by
  have hle := length_le_utf8Len field.split.remainder
  have hsign : field.sign.toList.length = if field.sign.isSome then 1 else 0 := by
    cases field.sign <;> rfl
  have hpoint : (if field.split.hasDecimal then ['.'] else ([] : List Char)).length =
      if field.split.hasDecimal then 1 else 0 := by
    cases field.split.hasDecimal <;> rfl
  simp only [Field.nonDigits, Field.lead, Field.tail, Field.excess, List.length_append,
    h.prefixText, hsign, hpoint]
  omega

/-- The text of a field without a width. -/
theorem Field.Sound.layout_bare {field : Field} (h : field.Sound) {spec : Spec}
    (hwidth : spec.width = none) :
    layout spec field =
      field.lead ++ (group field.split.intDigits field.every field.separator ++ field.tail) := by
  have hmin : minWidthDigits spec field = 0 := by simp [minWidthDigits, hwidth]
  have hpadding : ∀ align, numberPadding align 0 = (0, 0, 0) := by
    intro align
    cases align <;> rfl
  simp [layout, groupedDigits, groupedFrac, hmin, hwidth, hpadding, h.fracSeparator, group,
    Field.lead, Field.tail]

/-- The text of a field with a width: its padding, its parts, and the zeros among its digits. -/
theorem Field.Sound.layout_eq {field : Field} (h : field.Sound) (spec : Spec) :
    ∃ lpad spad rpad,
      layout spec field =
          List.replicate lpad spec.fill ++ (field.lead ++ (List.replicate spad spec.fill ++
            (groupedDigits spec field ++ (field.tail ++ List.replicate rpad spec.fill)))) ∧
        lpad + spad + rpad = spec.width.getD 0 -
          (field.nonDigits + (groupedDigits spec field).length) := by
  have hfrac : groupedFrac field = field.split.fracDigits := by
    rw [groupedFrac, h.fracSeparator]
    rfl
  have hsum : ∀ align padding, (numberPadding align padding).1 + (numberPadding align padding).2.1 +
      (numberPadding align padding).2.2 = padding := by
    intro align padding
    cases align with
    | left => exact Nat.zero_add _
    | right => rfl
    | afterSign => exact Nat.zero_add _
    | center =>
      show padding / 2 + 0 + (padding - padding / 2) = padding
      omega
  refine ⟨_, _, _, ?_, hsum spec.align _⟩
  simp only [layout, hfrac, Nat.add_sub_cancel, Field.lead, Field.tail, List.append_assoc]

/-- How long the digits of a field are, once filled with zeros and grouped. -/
theorem length_groupedDigits {field : Field} (h : field.Sound) (spec : Spec) :
    (groupedDigits spec field).length =
      groupedLength field.separator field.every
        (max field.split.intDigits.length (minWidthDigits spec field)) := by
  have hevery : 0 < field.every := by
    rcases h.every with h | h <;> omega
  rw [groupedDigits, length_group hevery, List.length_append, List.length_replicate]
  congr 1
  omega

/-! ## The law -/

/-- Digits and separators of this many characters would begin with a separator: one stands behind
every `every` digits, counted from the right. -/
def beginsWithSeparator (every length : Nat) : Bool := length ≠ 0 && length % (every + 1) = 0

/-- The length that the law gives to a field of width `w`, where the field without it has the text
`bare`. -/
def lawLength (spec : Spec) (field : Field) (w : Nat) (bare : List Char) : Nat :=
  let length := max w bare.length
  if spec.zeroFill && field.separator.isSome &&
      beginsWithSeparator field.every (length - (field.lead.length + field.tail.length))
        then length + 1
  else length

/-- **The law.** The length, and what is left when the padding and the separators are taken out. -/
structure WidthLaw (spec : Spec) (field : Field) (w : Nat) (bare out : List Char) : Prop where
  length : out.length = lawLength spec field w bare
  text : ∃ lpad spad rpad zeros digits padded,
    bare = field.lead ++ (digits ++ field.tail) ∧
      out = List.replicate lpad spec.fill ++
        (field.lead ++ (List.replicate spad spec.fill ++ (padded ++
        (field.tail ++ List.replicate rpad spec.fill)))) ∧
      ungrouped field.separator padded = List.replicate zeros '0' ++
        ungrouped field.separator digits ∧
      (spec.zeroFill = false → zeros = 0)

/-- The width at which the formatters keep to the law: a zero fill with groups adds at most one
separator to the zeros, and where a character is more than one byte there is no padding. -/
def WidthKept (spec : Spec) (field : Field) (w : Nat) : Prop :=
  (spec.zeroFill = true ∧ field.separator.isSome = true →
      w ≤ field.nonDigits + max field.split.intDigits.length (field.every + 1)) ∧
    (field.excess = 0 ∨ w ≤ field.lead.length + field.split.intDigits.length + field.tail.length)

/-- The text of the field is always the number's own. -/
theorem widthLaw_text {field : Field} (h : field.Sound) (spec : Spec) :
    ∃ lpad spad rpad zeros digits padded,
      layout { spec with width := none } field = field.lead ++ (digits ++ field.tail) ∧
        layout spec field = List.replicate lpad spec.fill ++
          (field.lead ++ (List.replicate spad spec.fill ++ (padded ++
          (field.tail ++ List.replicate rpad spec.fill)))) ∧
        ungrouped field.separator padded = List.replicate zeros '0' ++
          ungrouped field.separator digits ∧
        (spec.zeroFill = false → zeros = 0) := by
  have hevery : 0 < field.every := by
    rcases h.every with h | h <;> omega
  have hdigits : ∀ c ∈ field.split.intDigits, isAsciiAlphanumeric c = true :=
    fun c hc => field.split.digits c (List.mem_append_left _ hc)
  obtain ⟨lpad, spad, rpad, hlayout, -⟩ := h.layout_eq spec
  refine ⟨lpad, spad, rpad, minWidthDigits spec field - field.split.intDigits.length, _, _,
    h.layout_bare rfl, hlayout,
    ?_, ?_⟩
  · rw [ungrouped_group hevery _ hdigits, groupedDigits, ungrouped_group hevery]
    intro c hc
    rcases List.mem_append.1 hc with hc | hc
    · rw [List.eq_of_mem_replicate hc]
      rfl
    · exact hdigits c hc
  · intro hfill
    simp [minWidthDigits, hfill]

/-- The arithmetic of the law, with groups of three or four: `d` digits, `n` other characters, a
width of `w`. -/
theorem grouped_width_iff {every : Nat} (hevery : every = 3 ∨ every = 4) (d n w : Nat) :
    let digits := max d (w - n)
    let bare := n + (d + (d - 1) / every)
    let length := n + (digits + (digits - 1) / every)
    (length + (w - length) =
        if max w bare - n ≠ 0 ∧ (max w bare - n) % (every + 1) = 0 then max w bare +
          1 else max w bare) ↔
      w ≤ n + max d (every + 1) := by
  -- whether zeros are filled in, and then whether the width is past the bare number
  rcases hevery with rfl | rfl
  all_goals
    dsimp only
    rcases Nat.le_total (w - n) d with hfew | hmany
    · rw [max_eq_left hfew, max_eq_right (a := w) (by omega), if_neg (by omega)]
      omega
    · rw [max_eq_right hmany]
      rcases Nat.le_total w (n + (d + (d - 1) / _)) with hshort | hlong
      · rw [max_eq_right (a := w) hshort, if_neg (by omega)]
        omega
      · rw [max_eq_left (a := w) hlong]
        split <;> omega

/-- How long a field is. -/
theorem length_layout {field : Field} (h : field.Sound) (spec : Spec) :
    (layout spec field).length =
      field.lead.length + (groupedDigits spec field).length + field.tail.length +
        (spec.width.getD 0 - (field.nonDigits + (groupedDigits spec field).length)) := by
  obtain ⟨lpad, spad, rpad, hlayout, hsum⟩ := h.layout_eq spec
  rw [hlayout]
  simp only [List.length_append, List.length_replicate]
  omega

/-- How long a field without a width is. -/
theorem length_layout_bare {field : Field} (h : field.Sound) (spec : Spec) :
    (layout { spec with width := none } field).length =
      field.lead.length + groupedLength field.separator field.every field.split.intDigits.length +
        field.tail.length := by
  have hevery : 0 < field.every := by
    rcases h.every with h | h <;> omega
  rw [h.layout_bare rfl]
  simp only [List.length_append, length_group hevery]
  omega

/-- **The length.** It is the law's exactly at the widths that are kept. -/
theorem length_layout_iff {field : Field} (h : field.Sound) {spec : Spec} {w : Nat}
    (hwidth : spec.width = some w) :
    (layout spec field).length = lawLength spec field w (layout { spec with width := none } field) ↔
      WidthKept spec field w := by
  have hbare := length_layout_bare h spec
  have hlength := length_layout h spec
  have hdigits := length_groupedDigits h spec
  have hnon := h.nonDigits
  have hmin : minWidthDigits spec field = if spec.zeroFill then w - field.nonDigits else 0 := by
    simp [minWidthDigits, hwidth]
  simp only [hwidth, Option.getD_some] at hlength
  rw [hlength, hdigits, hmin]
  unfold lawLength WidthKept
  rw [hbare]
  cases hseparator : field.separator with
  | none =>
    -- without groups nothing but the bytes of a character can go wrong
    simp only [groupedLength, Option.isSome_none, Bool.and_false, Bool.false_and,
      Bool.false_eq_true, if_false, and_false,
      false_imp_iff, true_and]
    cases spec.zeroFill
    · simp only [Bool.false_eq_true, if_false]
      omega
    · simp only [if_true]
      omega
  | some separator =>
    have hexcess : field.excess = 0 := by
      rcases h.remainder with hsame | hnone
      · simp [Field.excess, hsame]
      · rw [hnone] at hseparator
        cases hseparator
    rw [hexcess, Nat.add_zero] at hnon
    simp only [groupedLength, Option.isSome_some, Bool.and_true, and_true, hexcess, true_or]
    cases spec.zeroFill
    · simp only [Bool.false_eq_true, if_false, Bool.false_and, false_imp_iff, iff_true,
        Nat.max_zero]
      omega
    · have harith := grouped_width_iff h.every field.split.intDigits.length field.nonDigits w
      simp only [if_true, Bool.true_and, beginsWithSeparator, Bool.and_eq_true, decide_eq_true_eq,
        true_imp_iff]
      dsimp only at harith
      rw [← harith]
      have hlead : ∀ g, field.lead.length + g + field.tail.length = field.nonDigits + g := by
        intro g
        omega
      rw [hlead, hlead, ← hnon]

/-! ## The fields of the formatters -/

/-- An ASCII text has a byte for each character. -/
theorem utf8Len_of_ascii {text : List Char} (h : Ascii text) : utf8Len text = text.length := by
  induction text with
  | nil => rfl
  | cons c text ih =>
    have hc : c.utf8Size = 1 := by
      have hlt : c.toNat < 128 := h c (by simp)
      rw [Char.utf8Size_eq_one_iff, UInt32.le_iff_toNat_le]
      exact Nat.le_of_lt_succ hlt
    have hcons : utf8Len (c :: text) = c.utf8Size + utf8Len text := by simp [utf8Len]
    rw [hcons, hc, ih fun d hd => h d (List.mem_cons_of_mem _ hd), List.length_cons, Nat.add_comm]

namespace Ascii

variable {a b text : List Char}

theorem append (ha : Ascii a) (hb : Ascii b) : Ascii (a ++ b) :=
  fun c hc => (List.mem_append.1 hc).elim (ha c) (hb c)

theorem subset (h : Ascii a) (hsub : ∀ c ∈ b, c ∈ a) : Ascii b := fun c hc => h c (hsub c hc)

theorem cons {c : Char} (hc : c.toNat < 128) (h : Ascii text) : Ascii (c :: text) := by
  intro d hd
  rcases List.mem_cons.1 hd with rfl | hd
  · exact hc
  · exact h d hd

theorem nil : Ascii [] := fun _ hc => absurd hc List.not_mem_nil

theorem replicate {c : Char} (hc : c.toNat < 128) (n : Nat) : Ascii (List.replicate n c) := by
  intro d hd
  rw [List.eq_of_mem_replicate hd]
  exact hc

theorem zeros (n : Int) : Ascii (zeros n) := replicate (by decide) _

theorem ite {p : Prop} [Decidable p] (ha : p → Ascii a) (hb : ¬ p → Ascii b) :
    Ascii (if p then a else b) := by
  split
  · next h => exact ha h
  · next h => exact hb h

end Ascii

theorem isAscii_of_alphanumeric {c : Char} (h : isAsciiAlphanumeric c = true) : c.toNat < 128 := by
  simp only [isAsciiAlphanumeric, isAsciiAlphabetic, isAsciiDigit, Bool.or_eq_true,
    Bool.and_eq_true,
    decide_eq_true_eq] at h
  have hle : c ≤ 'z' := by
    rcases h with (h | h) | h
    · exact h.2
    · exact Char.le_trans h.2 (by decide)
    · exact Char.le_trans h.2 (by decide)
  have hnat : c.toNat ≤ 122 := toNat_le_of_le hle
  omega

theorem ascii_toDigits (n : Nat) : Ascii (Nat.toDigits 10 n) := fun _ hc =>
  isAscii_of_alphanumeric (isAsciiAlphanumeric_of_isDigit
    (Numerals.isDigit_of_mem_toDigits (by decide) (by decide) hc))

theorem ascii_stripTrailingZeros {digits : List Char} (h : Ascii digits) :
    Ascii (stripTrailingZeros digits) := by
  unfold stripTrailingZeros
  refine Ascii.ite (fun _ => .cons (by decide) .nil) fun _ => h.subset fun c hc => ?_
  exact (List.rdropWhile_prefix (· = '0') (l := digits)).subset hc

/-- Digits read from ASCII are ASCII. -/
theorem ascii_parseScientific {text digits : List Char} {decpt : Int} (h : Ascii text)
    (hread : parseScientific text = some (digits, decpt)) : Ascii digits := by
  unfold parseScientific at hread
  simp only [Option.bind_eq_some_iff, Option.map_eq_some_iff, Prod.mk.injEq] at hread
  obtain ⟨⟨mantissa, exponent⟩, hsplit, exp, -, rfl, -⟩ := hread
  have htext := (splitOnce_eq_some_iff.1 hsplit).2
  refine ascii_stripTrailingZeros (h.subset fun c hc => ?_)
  rw [htext]
  exact List.mem_append_left _ (List.mem_of_mem_filter hc)

theorem ascii_parseFixed {text : List Char} (h : Ascii text) : Ascii (parseFixed text).1 := by
  have hparts : Ascii
      (((splitOnce '.' text).getD (text, [])).1 ++ ((splitOnce '.' text).getD (text, [])).2) := by
    cases hsplit : splitOnce '.' text with
    | none => simpa using h
    | some parts =>
      have htext := (splitOnce_eq_some_iff.1 hsplit).2
      refine h.subset fun c hc => ?_
      rw [htext]
      rcases List.mem_append.1 hc with hc | hc
      · exact List.mem_append_left _ hc
      · exact List.mem_append_right _ (List.mem_cons_of_mem _ hc)
  unfold parseFixed
  dsimp only
  split
  · exact .cons (by decide) .nil
  · exact ascii_stripTrailingZeros (hparts.subset fun c hc => (List.dropWhile_sublist _).subset hc)

/-- Pointed digits are ASCII. -/
theorem ascii_pointed {digits : List Char} (h : Ascii digits)
    (decpt vdigitsStart vdigitsEnd : Int) :
    Ascii (pointed digits decpt vdigitsStart vdigitsEnd) := by
  have hpoint {text : List Char} (htext : Ascii text) : Ascii ('.' :: text) :=
    .cons (by decide) htext
  unfold pointed
  refine .append (.append ?_ ?_) ?_
  · exact .ite (fun _ => .append (.zeros _) (hpoint (.zeros _))) fun _ => .zeros _
  · refine .ite (fun _ => .append ?_ (hpoint ?_)) fun _ => h
    · exact h.subset fun c hc => List.mem_of_mem_take hc
    · exact h.subset fun c hc => List.mem_of_mem_drop hc
  · exact .ite (fun _ => .append (.zeros _) (hpoint (.zeros _))) fun _ => .zeros _

theorem ascii_formatExponent (exp : Int) (upper : Bool) : Ascii (formatExponent exp upper) := by
  unfold formatExponent
  refine .cons ?_ (.cons ?_ (.append (.replicate (by decide) _) (ascii_toDigits _)))
  · cases upper <;> decide
  · split <;> decide

/-- A body is ASCII. -/
theorem ascii_finiteBody {opts : BodyOptions} {negative : Bool} {digits : List Char} {decpt : Int}
    (h : Ascii digits) : Ascii (finiteBody opts negative digits decpt) := by
  have hout (sign : Bool) (decpt vdigitsStart vdigitsEnd : Int) :
      Ascii ((if sign then ['-'] else []) ++ pointed digits decpt vdigitsStart vdigitsEnd) :=
    .append (.ite (fun _ => .cons (by decide) .nil) fun _ => .nil) (ascii_pointed h _ _ _)
  unfold finiteBody
  refine .append (.ite (fun _ => ?_) fun _ => hout _ _ _ _)
    (.ite (fun _ => ascii_formatExponent _ _) fun _ => .nil)
  exact (hout _ _ _ _).subset fun c hc => List.mem_of_mem_dropLast hc

section

variable {F : Type} (engine : FloatEngine F)

/-- The engine's digits are ASCII. -/
theorem ascii_dtoa {abs : F} {mode : DtoaMode} {digits : List Char} {decpt : Int}
    (h : dtoa engine abs mode = some (digits, decpt)) : Ascii digits := by
  cases mode with
  | shortest => exact ascii_parseScientific (engine.lowerExp_ascii abs) h
  | significant p =>
    obtain ⟨text, htext, hread⟩ := Option.bind_eq_some_iff.1 h
    exact ascii_parseScientific (engine.lowerExpWith_ascii _ _ text htext) hread
  | fixed n =>
    obtain ⟨text, htext, hread⟩ := Option.map_eq_some_iff.1 h
    have hdigits := ascii_parseFixed (engine.fixedWith_ascii _ _ text htext)
    rwa [hread] at hdigits

/-- A float's body is ASCII. -/
theorem ascii_floatBody {value : F} {opts : BodyOptions} {body : List Char}
    (h : floatBody engine value opts = some body) : Ascii body := by
  have hword : Ascii (if opts.upper then "INF".toList else "inf".toList) := by
    cases opts.upper <;> simp [Ascii]
  unfold floatBody at h
  split at h
  · cases h
    cases opts.upper <;> simp [Ascii]
  · split at h
    · cases h
      exact .ite (fun _ => .cons (by decide) hword) fun _ => hword
    · obtain ⟨⟨digits, decpt⟩, hdtoa, rfl⟩ := Option.map_eq_some_iff.1 h
      exact ascii_finiteBody (ascii_dtoa engine hdtoa)

end

/-- A body is split without loss. -/
theorem splitBody_parts (body : List Char) :
    (splitBody body).intDigits ++ ((if (splitBody body).hasDecimal then ['.'] else []) ++
      ((splitBody body).fracDigits ++ (splitBody body).remainder)) = body := by
  by_cases hpoint : (body.dropWhile isAsciiDigit).head? = some '.'
  · obtain ⟨rest, hrest⟩ := List.head?_eq_some_iff.1 hpoint
    simp only [splitBody, if_pos hpoint, if_true, List.takeWhile_append_dropWhile]
    rw [hrest, List.tail_cons, List.singleton_append, ← hrest, List.takeWhile_append_dropWhile]
  · simp [splitBody, hpoint]

/-- The field of a float counts its characters. -/
theorem floatField_sound {parsed : Spec} {body : List Char} (h : Ascii body) :
    (floatField parsed body).Sound ∧ (floatField parsed body).excess = 0 := by
  have hbody : Ascii (if body.head? = some '-' then body.tail else body) :=
    .ite (fun _ => h.subset fun c hc => List.mem_of_mem_tail hc) fun _ => h
  have hremainder : utf8Len (floatField parsed body).split.remainder =
      (floatField parsed body).split.remainder.length := by
    refine utf8Len_of_ascii (hbody.subset fun c hc => ?_)
    rw [← splitBody_parts (if body.head? = some '-' then body.tail else body)]
    have hc' : c ∈ (splitBody (if body.head? = some '-' then body.tail else body)).remainder := by
      simpa [floatField] using hc
    simp [hc']
  exact ⟨⟨rfl, .inl rfl, rfl, .inl hremainder⟩, by simp [Field.excess, hremainder]⟩

/-- The field of a character counts bytes, so characters beyond ASCII exceed it. -/
theorem charField_sound {value : Int} {field : Field} (h : charField value = .ok field) :
    field.Sound ∧ (field.excess = 0 ↔ value ≤ 127) ∧
      field.lead.length + field.split.intDigits.length + field.tail.length = 1 := by
  unfold charField at h
  split at h
  · next hvalid =>
    cases h
    refine ⟨⟨rfl, .inl rfl, rfl, .inr rfl⟩, ?_, rfl⟩
    have hnat : (Char.ofNat value.toNat).toNat = value.toNat := by
      rw [Char.ofNat, dif_pos hvalid.2.2]
      rfl
    have hsize : (Char.ofNat value.toNat).utf8Size = 1 ↔ value.toNat ≤ 127 := by
      rw [Char.utf8Size_eq_one_iff, UInt32.le_iff_toNat_le]
      exact iff_of_eq (congrArg (· ≤ 127) hnat)
    have hpos := (Char.ofNat value.toNat).utf8Size_pos
    have hexcess : utf8Len [Char.ofNat value.toNat] = (Char.ofNat value.toNat).utf8Size := by
      simp [utf8Len]
    simp only [Field.excess, hexcess, List.length_singleton]
    rw [show value ≤ 127 ↔ value.toNat ≤ 127 by omega, ← hsize]
    omega
  · cases h

/-- The field of an integer counts its characters. -/
theorem radixField_sound {parsed : Spec} {value : Int} {field : Field}
    (h : radixField parsed value = .ok field) :
    field.Sound ∧ field.excess = 0 := by
  unfold radixField at h
  cases hradix : radixOf parsed with
  | error e =>
    rw [hradix] at h
    cases h
  | ok parts =>
    obtain ⟨radix, every, separator, prefixText⟩ := parts
    have hfacts : utf8Len prefixText = prefixText.length ∧ (every = 3 ∨ every = 4) := by
      unfold radixOf at hradix
      dsimp only at hradix
      split at hradix
      all_goals
        cases hradix
      · cases parsed.alternate <;> decide
      · cases parsed.alternate <;> decide
      · cases parsed.alternate <;> decide
      · cases parsed.alternate <;> decide
      · decide
      · decide
    rw [hradix] at h
    cases h
    exact ⟨⟨hfacts.1, hfacts.2, rfl, .inl rfl⟩, rfl⟩

section

variable {F : Type} (engine : FloatEngine F)

/-- The field that a float gets counts its characters. -/
theorem floatFieldOf_sound {parsed : Spec} {value : F} {field : Field}
    (h : floatFieldOf engine parsed value = some (.ok field)) : field.Sound ∧ field.excess = 0 := by
  unfold floatFieldOf at h
  split at h
  · cases h
  · split at h
    · cases h
    · cases h
    · obtain ⟨body, hbody, heq⟩ := Option.map_eq_some_iff.1 h
      cases heq
      refine floatField_sound (.ite (fun _ => ?_) fun _ => ascii_floatBody engine hbody)
      exact .append (ascii_floatBody engine hbody) (.cons (by decide) .nil)

/-- A number of either type. -/
inductive Number (F : Type) where
  | int (value : Int)
  | float (value : F)

/-- Under the type `c` the number is a character of more than one byte. -/
def Number.isWide (type : Char) : Number F → Prop
  | .int value => type = 'c' ∧ 127 < value
  | .float _ => False

/-- The field of a number. -/
def Number.fieldOf (parsed : Spec) : Number F → Option (Except PyFormatError Field)
  | .int value => intFieldOf engine parsed value
  | .float value => floatFieldOf engine parsed value

/-- The field that a number gets counts its characters, but for one beyond ASCII. -/
theorem Number.fieldOf_sound {parsed : Spec} {number : Number F} {field : Field}
    (h : number.fieldOf engine parsed = some (.ok field)) :
    field.Sound ∧ (field.excess = 0 ↔ ¬ number.isWide parsed.typeChar) ∧
      (number.isWide parsed.typeChar →
        field.lead.length + field.split.intDigits.length + field.tail.length = 1) := by
  have hnarrow (hsound : field.Sound ∧ field.excess = 0) (hwide : ¬ number.isWide parsed.typeChar) :
      field.Sound ∧ (field.excess = 0 ↔ ¬ number.isWide parsed.typeChar) ∧
        (number.isWide parsed.typeChar →
          field.lead.length + field.split.intDigits.length + field.tail.length = 1) :=
    ⟨hsound.1, iff_of_true hsound.2 hwide, fun h => absurd h hwide⟩
  cases number with
  | float value => exact hnarrow (floatFieldOf_sound engine h) id
  | int value =>
    change intFieldOf engine parsed value = some (.ok field) at h
    unfold intFieldOf at h
    split at h
    · next htype =>
      refine hnarrow (floatFieldOf_sound engine h) fun hwide => ?_
      rw [hwide.1] at htype
      revert htype
      decide
    · split at h
      · cases h
      · split at h
        · cases h
        · split at h
          · cases h
          · split at h
            · next htype =>
              split at h
              · cases h
              · split at h
                · cases h
                · obtain ⟨hsound, hexcess, hone⟩ := charField_sound (Option.some.inj h)
                  refine ⟨hsound, ?_, fun _ => hone⟩
                  simp only [Number.isWide, htype, true_and]
                  omega
            · next htype =>
              exact hnarrow (radixField_sound (Option.some.inj h)) fun hwide => htype hwide.1

end

/-! ## The same number without a width -/

theorem mem_groupLoop {every : Nat} {separator c : Char} {fuel : Nat} {digits : List Char}
    (h : c ∈ groupLoop every separator fuel digits) : c ∈ digits ∨ c = separator := by
  induction fuel generalizing digits with
  | zero => cases h
  | succ fuel ih =>
    rw [groupLoop] at h
    split at h
    · cases h
    · rcases List.mem_cons.1 h with rfl | h
      · exact .inr rfl
      · rcases List.mem_append.1 h with h | h
        · exact .inl (List.mem_of_mem_take h)
        · rcases ih h with h | h
          · exact .inl (List.mem_of_mem_drop h)
          · exact .inr h

/-- Grouped digits are ASCII. -/
theorem ascii_group {digits : List Char} (h : ∀ c ∈ digits, isAsciiAlphanumeric c = true)
    (every : Nat)
    (separator : Option Separator) : Ascii (group digits every separator) := by
  have hdigits : Ascii digits := fun c hc => isAscii_of_alphanumeric (h c hc)
  cases separator with
  | none => exact hdigits
  | some separator =>
    refine Ascii.ite (fun _ => hdigits) fun _ => .append ?_ fun c hc => ?_
    · exact hdigits.subset fun c hc => List.mem_of_mem_take hc
    · rcases mem_groupLoop hc with hc | rfl
      · exact hdigits c (List.mem_of_mem_drop hc)
      · cases separator <;> decide

/-- More digits are longer. -/
theorem groupedLength_mono (separator : Option Separator) (every : Nat) {m n : Nat} (h : m ≤ n) :
    groupedLength separator every m ≤ groupedLength separator every n := by
  cases separator with
  | none => exact h
  | some separator =>
    have hdiv : (m - 1) / every ≤ (n - 1) / every := Nat.div_le_div_right (by omega)
    simp only [groupedLength]
    omega

/-- The field without a width is no larger. -/
theorem utf8Len_layout_bare_le {field : Field} (h : field.Sound) (spec : Spec) :
    utf8Len (layout { spec with width := none } field) ≤ utf8Len (layout spec field) := by
  have hevery : 0 < field.every := by
    rcases h.every with h | h <;> omega
  obtain ⟨lpad, spad, rpad, hlayout, -⟩ := h.layout_eq spec
  have hgroup : utf8Len (group field.split.intDigits field.every field.separator) ≤
      utf8Len (groupedDigits spec field) := by
    rw [utf8Len_of_ascii
      (ascii_group (fun c hc => field.split.digits c (List.mem_append_left _ hc)) _ _),
      length_group hevery]
    calc groupedLength field.separator field.every field.split.intDigits.length
        ≤ groupedLength field.separator field.every
            (max field.split.intDigits.length (minWidthDigits spec field)) :=
          groupedLength_mono _ _ (le_max_left _ _)
      _ = (groupedDigits spec field).length := (length_groupedDigits h spec).symm
      _ ≤ utf8Len (groupedDigits spec field) := length_le_utf8Len _
  rw [h.layout_bare rfl, hlayout]
  simp only [utf8Len_append]
  omega

/-- The types that could be taken for a part in front of the width. -/
def frontChars : List Char := ['<', '>', '=', '^', ' ', '+', '-', 'z', '#', '0']

theorem mem_frontChars_of_not_plain {c : Char} (h : ¬ IsPlainType c) : c ∈ frontChars := by
  by_contra hnot
  simp only [frontChars, List.mem_cons, List.not_mem_nil, or_false, not_or] at hnot
  refine h ⟨?_, ?_⟩
  · unfold alignOf
    split
    all_goals first
      | rfl
      | simp at hnot
  · simp [isFlagChar, hnot]

section

variable {F : Type} (engine : FloatEngine F)

/-- A type that gives a float a field is a plain one. -/
theorem isPlainType_of_floatFieldOf {parsed : Spec} {value : F} {field : Field}
    (h : floatFieldOf engine parsed value = some (.ok field)) : IsPlainType parsed.typeChar := by
  by_contra hplain
  have hmem := mem_frontChars_of_not_plain hplain
  have hall : frontChars.all fun c =>
      c ≠ '\x00' ∧ c ≠ 'n' ∧ c ≠ '%' ∧ c ≠ 'r' ∧ bodyTypeOf (toAsciiLowercase c) = none := by
    decide +kernel
  obtain ⟨hnul, hn, hpercent, hr, hnone⟩ := of_decide_eq_true (List.all_eq_true.1 hall _ hmem)
  have htype : effectiveType parsed = parsed.typeChar := by
    simp [effectiveType, hnul, hn, hpercent, hr]
  have hbody : bodyOptions parsed = .error (.unknownPresentationType parsed.typeChar) := by
    simp only [bodyOptions, htype, hnone]
  unfold floatFieldOf at h
  rw [hbody] at h
  split at h
  · cases h
  · cases h

/-- A character that the front takes is no type of an integer. -/
theorem radixOf_of_front {parsed : Spec} (h : parsed.typeChar ∈ frontChars) :
    ∃ e, radixOf parsed = .error e := by
  unfold radixOf
  dsimp only
  split
  all_goals first
    | exact ⟨_, rfl⟩
    | (next htype => exact absurd (htype ▸ h) (by decide))

/-- A type that gives a number a field is a plain one. -/
theorem Number.isPlainType_of_fieldOf {parsed : Spec} {number : Number F} {field : Field}
    (h : number.fieldOf engine parsed = some (.ok field)) : IsPlainType parsed.typeChar := by
  cases number with
  | float value => exact isPlainType_of_floatFieldOf engine h
  | int value =>
    change intFieldOf engine parsed value = some (.ok field) at h
    by_contra hplain
    have hmem := mem_frontChars_of_not_plain hplain
    have hall : frontChars.all fun c => c ∉ floatTypes ∧ c ≠ 'c' := by decide
    obtain ⟨hfloat, hc⟩ := of_decide_eq_true (List.all_eq_true.1 hall _ hmem)
    obtain ⟨e, hradix⟩ := radixOf_of_front hmem
    unfold intFieldOf radixField at h
    rw [if_neg hfloat, if_neg hc, hradix] at h
    split at h
    · cases h
    · split at h
      · cases h
      · split at h
        · cases h
        · cases h

/-- The type of a specification that names none. -/
def Number.defaultType : Number F → Char
  | .int _ => 'd'
  | .float _ => '\x00'

/-- `format_int` and `format_float`. -/
def Number.format (spec : List Char) : Number F → Option (Except PyFormatError (List Char))
  | .int value => formatInt engine value spec
  | .float value => formatFloat engine value spec

/-- A number is formatted by its parsed specification. -/
theorem Number.format_eq (number : Number F) {spec : List Char} (hspec : spec ≠ []) :
    number.format engine spec =
      formatWith (parseSpec spec number.defaultType .right) fun parsed =>
        number.fieldOf engine parsed := by
  cases number with
  | int value => exact if_neg hspec
  | float value => exact if_neg hspec

/-- The empty specification writes what a specification without any part would. -/
theorem Number.format_nil {number : Number F} {field : Field}
    (h : number.fieldOf engine (.default number.defaultType .right) = some (.ok field)) :
    number.format engine [] = some (.ok (layout (.default number.defaultType .right) field)) := by
  have hsound := (Number.fieldOf_sound engine h).1
  rw [hsound.layout_bare rfl]
  cases number with
  | int value =>
    change some (radixField (.default 'd' .right) value) = some (.ok field) at h
    cases h
    have hsign : (signChar (decide (value < 0)) none).toList = if value < 0 then ['-'] else [] := by
      by_cases hneg : value < 0
      · simp [signChar, hneg]
      · simp [signChar, hneg]
    simp [Number.format, formatInt, Field.lead, Field.tail, group, Spec.default, hsign, radixDigits,
      Radix.value]
  | float value =>
    change (floatBody engine value plainOptions).map (fun body => Except.ok (floatField _ body)) =
      some (Except.ok field) at h
    obtain ⟨body, hbody, heq⟩ := Option.map_eq_some_iff.1 h
    cases heq
    have hparts := splitBody_parts (if body.head? = some '-' then body.tail else body)
    have hsign : (signChar (decide (body.head? = some '-')) none).toList ++
        (if body.head? = some '-' then body.tail else body) = body := by
      by_cases hneg : body.head? = some '-'
      · obtain ⟨rest, rfl⟩ := List.head?_eq_some_iff.1 hneg
        simp [signChar]
      · simp [signChar, hneg]
    have hformat : formatFloat engine value [] = some (.ok body) := by
      rw [formatFloat, if_pos rfl, hbody]
      rfl
    refine hformat.trans (congrArg (fun text => some (Except.ok text)) ?_)
    calc body
        = (signChar (decide (body.head? = some '-')) none).toList ++
            (if body.head? = some '-' then body.tail else body) := hsign.symm
      _ = _ := by
        conv_lhs => rw [← hparts]
        simp only [Field.lead, Field.tail, floatField, group, Spec.default, List.append_nil]
        congr

/-- What an `Ok` was made of. -/
theorem formatWith_ok {parsed : Spec} {fieldOf : Spec → Option (Except PyFormatError Field)}
    {out : List Char}
    (h : formatWith (.ok parsed) fieldOf = some (.ok out)) :
    ∃ field, fieldOf parsed = some (.ok field) ∧ out = layout parsed field ∧
      utf8Len out ≤ isizeMax := by
  simp only [formatWith, Option.bind_eq_some_iff] at h
  obtain ⟨got, hgot, hout⟩ := h
  cases got with
  | error e => cases hout
  | ok field =>
    obtain ⟨text, htext, heq⟩ := Option.map_eq_some_iff.1 hout
    cases heq
    unfold assemble built at htext
    split at htext
    · next hfits =>
      cases htext
      exact ⟨field, hgot, rfl, hfits⟩
    · cases htext

/-- A field that was written with a width is written without it too. -/
theorem Number.format_withoutWidth {number : Number F} {spec : List Char} {parsed : Spec}
    {field : Field}
    (hparsed : parseSpec spec number.defaultType .right = .ok parsed)
    (hfield : number.fieldOf engine parsed = some (.ok field))
    (hfits : utf8Len (layout parsed field) ≤ isizeMax) :
    number.format engine (withoutWidth number.defaultType spec) =
      some (.ok (layout { parsed with width := none } field)) := by
  have hsound := (Number.fieldOf_sound engine hfield).1
  have hread := parseSpec_withoutWidth hparsed (Number.isPlainType_of_fieldOf engine hfield)
  -- no field depends on the width
  have hsame : number.fieldOf engine { parsed with width := none } = some (.ok field) := by
    rw [← hfield]
    cases number <;> rfl
  by_cases hempty : withoutWidth number.defaultType spec = []
  · have hdefault : { parsed with width := none } = Spec.default number.defaultType .right := by
      rw [hempty] at hread
      exact (Except.ok.inj hread).symm
    rw [hempty, hdefault]
    rw [hdefault] at hsame
    exact Number.format_nil engine hsame
  · have hsmall := (utf8Len_layout_bare_le hsound parsed).trans hfits
    rw [Number.format_eq engine number hempty, hread]
    simp only [formatWith, hsame, Option.bind_some, assemble, built, if_pos hsmall, Option.map_some]

/-- **The width of a field.** The law holds of a number in a field of width `w` exactly where a zero
fill with groups asks for no more digits than there are, or for one more than a group at most, and
where the number is no character of more than one byte that has to be padded. -/
theorem field_width_law_iff (number : Number F) {spec out : List Char} {parsed : Spec} {w : Nat}
    (hparsed : parseSpec spec number.defaultType .right = .ok parsed)
    (hwidth : parsed.width = some w)
    (hout : number.format engine spec = some (.ok out)) :
    ∃ field, number.fieldOf engine parsed = some (.ok field) ∧
      ((∃ bare, number.format engine (withoutWidth number.defaultType spec) = some (.ok bare) ∧
          WidthLaw parsed field w bare out) ↔
        (parsed.zeroFill = true ∧ field.separator.isSome = true →
            w ≤ field.nonDigits + max field.split.intDigits.length (field.every + 1)) ∧
          ¬ (number.isWide parsed.typeChar ∧ 1 < w)) := by
  have hspec : spec ≠ [] := by
    rintro rfl
    cases hparsed
    cases hwidth
  rw [Number.format_eq engine number hspec, hparsed] at hout
  obtain ⟨field, hfield, rfl, hfits⟩ := formatWith_ok hout
  obtain ⟨hsound, hexcess, hone⟩ := Number.fieldOf_sound engine hfield
  have hbare := Number.format_withoutWidth engine hparsed hfield hfits
  have hkept : WidthKept parsed field w ↔
      (parsed.zeroFill = true ∧ field.separator.isSome = true →
          w ≤ field.nonDigits + max field.split.intDigits.length (field.every + 1)) ∧
        ¬ (number.isWide parsed.typeChar ∧ 1 < w) := by
    refine and_congr_right fun _ => ?_
    rw [hexcess, not_and]
    constructor
    · rintro (hnarrow | hle) hwide
      · exact absurd hwide hnarrow
      · rw [hone hwide] at hle
        omega
    · intro h
      by_cases hwide : number.isWide parsed.typeChar
      · have hle := h hwide
        rw [hone hwide]
        omega
      · exact .inl hwide
  refine ⟨field, hfield, ?_⟩
  rw [hbare, ← hkept, ← length_layout_iff hsound hwidth]
  constructor
  · rintro ⟨bare, hbare, hlaw⟩
    cases hbare
    exact hlaw.length
  · intro hlength
    exact ⟨_, rfl, hlength, widthLaw_text hsound parsed⟩

end

/-! ## Whole numbers -/

/-- `{:e}` of a whole number: the first digit, a point, the others without the zeros at the end, and
the exponent. -/
def wholeLowerExp (n : Nat) : List Char :=
  let digits := stripTrailingZeros (Nat.toDigits 10 n)
  (digits.take 1 ++ if digits.length = 1 then [] else '.' :: digits.drop 1) ++
    'e' :: Nat.toDigits 10 ((Nat.toDigits 10 n).length - 1)

theorem ascii_wholeLowerExp (n : Nat) : Ascii (wholeLowerExp n) := by
  have hdigits := ascii_stripTrailingZeros (ascii_toDigits n)
  refine .append (.append ?_ (.ite (fun _ => .nil) fun _ => ?_))
    (.cons (by decide) (ascii_toDigits _))
  · exact hdigits.subset fun c hc => List.mem_of_mem_take hc
  · exact .cons (by decide) (hdigits.subset fun c hc => List.mem_of_mem_drop hc)

/-- Floats that are whole numbers. -/
def wholeFloats : FloatEngine Int where
  isNan _ := false
  isInfinite _ := false
  isSignNegative x := x < 0
  abs x := x.natAbs
  timesHundred x := x * 100
  ofInt x := x
  lowerExp x := wholeLowerExp x.natAbs
  lowerExpWith _ _ := none
  fixedWith n x := some (Nat.toDigits 10 x.natAbs ++ if n = 0 then [] else '.' ::
    List.replicate n '0')
  lowerExp_ascii x := ascii_wholeLowerExp x.natAbs
  lowerExpWith_ascii n x text h := by cases h
  fixedWith_ascii n x text h := by
    cases h
    exact .append (ascii_toDigits _)
      (.ite (fun _ => .nil) fun _ => .cons (by decide) (.replicate (by decide) _))

/-- `-1` with commas and a zero fill, in a field of five: a comma cannot come first, so the law
gives it six characters, and the source too. -/
theorem field_width_law_iff_zeros :
    ∃ field,
      (Number.int (-1)).fieldOf wholeFloats
          { Spec.default 'd' .afterSign with
            fill := '0', width := some 5, grouping := some .comma } = some (.ok field) ∧
        ∃ bare,
          (Number.int (-1)).format wholeFloats (withoutWidth 'd' ['0', '5', ',']) =
              some (.ok bare) ∧
            WidthLaw { Spec.default 'd' .afterSign with
              fill := '0', width := some 5, grouping := some .comma } field 5 bare
              "-0,001".toList := by
  obtain ⟨field, hfield, hlaw⟩ := @field_width_law_iff Int wholeFloats (.int (-1)) ['0', '5', ',']
    "-0,001".toList
    { Spec.default 'd' .afterSign with fill := '0', width := some 5, grouping := some .comma } 5
    (by decide +kernel) rfl (by decide +kernel)
  refine ⟨field, hfield, hlaw.2 ⟨fun _ => ?_, fun h => absurd h.1.1 (by decide)⟩⟩
  cases hfield
  decide +kernel

/-- `1` with commas and a zero fill, in a field of eight: the law gives it nine characters, the
source ten. -/
theorem zero_fill_too_long :
    parseSpec ['0', '8', ','] 'd' .right =
        .ok { Spec.default 'd' .afterSign with
          fill := '0', width := some 8, grouping := some .comma } ∧
      (Number.int 1).format wholeFloats ['0', '8', ','] = some (.ok "00,000,001".toList) ∧
      (Number.int 1).format wholeFloats (withoutWidth 'd' ['0', '8', ',']) = some (.ok ['1']) ∧
      ∃ field,
        (Number.int 1).fieldOf wholeFloats
            { Spec.default 'd' .afterSign with
              fill := '0', width := some 8, grouping := some .comma } = some (.ok field) ∧
          ¬ WidthLaw { Spec.default 'd' .afterSign with
              fill := '0', width := some 8, grouping := some .comma } field 8
            ['1'] "00,000,001".toList := by
  refine ⟨by decide +kernel, by decide +kernel, by decide +kernel, _, rfl, fun hlaw => ?_⟩
  have hlength := hlaw.length
  revert hlength
  decide +kernel

end RtpMux.Pyformat
