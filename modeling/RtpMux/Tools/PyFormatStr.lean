import RtpMux.Tools.PyFormat

/-!
# The field of a string

A specification `[[fill]align][0][width][.precision][s]` cuts a string to its precision and pads it
to its width. `format_str` does so, with one exception beside the sizes that no `usize` and no
`String` holds: the `0` flag without an alignment sets the `=` alignment, which a string refuses.
-/

namespace RtpMux.Pyformat

open Text Numerals

/-! ## Reading a number -/

theorem digitValue_ten {c : Char} (h : isAsciiDigit c = true) :
    (digitValue 10 c).getD 0 = c.toNat - '0'.toNat := by
  simp only [isAsciiDigit, Bool.and_eq_true, decide_eq_true_eq] at h
  have hle : c.toNat ≤ 57 := toNat_le_of_le h.2
  have hlt : c.toNat - 48 < 10 := by omega
  simp [digitValue, h.1, h.2, Option.filter, hlt]

/-- Having run over is never forgotten. -/
theorem numeralLoop_overflow (value : Nat) (chars : List Char) :
    (numeralLoop value true chars).2.1 = true := by
  induction chars generalizing value with
  | nil => rfl
  | cons c rest ih =>
    rw [numeralLoop]
    split
    · dsimp only
      split
      · exact ih _
      · exact ih _
    · rfl

theorem le_foldl_digits (digits : List Char) (value : Nat) :
    value ≤ digits.foldl (fun acc c => 10 * acc + (digitValue 10 c).getD 0) value := by
  induction digits generalizing value with
  | nil => exact le_rfl
  | cons c rest ih =>
    have hstep := ih (10 * value + (digitValue 10 c).getD 0)
    rw [List.foldl_cons]
    omega

/-- **The loop reads the numeral.** It runs over exactly where the number does not fit. -/
theorem numeralLoop_spec {value : Nat} (hvalue : value < 2 ^ 64) (chars : List Char) :
    let number := (chars.takeWhile isAsciiDigit).foldl
      (fun acc c => 10 * acc + (digitValue 10 c).getD 0) value
    (number < 2 ^ 64 → (numeralLoop value false chars).1 = number) ∧
      (numeralLoop value false chars).2.1 = !decide (number < 2 ^ 64) := by
  induction chars generalizing value with
  | nil =>
    exact ⟨fun _ => rfl, by rw [List.takeWhile_nil, List.foldl_nil, decide_eq_true hvalue]; rfl⟩
  | cons c rest ih =>
    rw [numeralLoop]
    by_cases hc : isAsciiDigit c = true
    · have hstep : value * 10 + (c.toNat - '0'.toNat) = 10 * value + (digitValue 10 c).getD 0 := by
        rw [digitValue_ten hc, Nat.mul_comm]
      rw [if_pos hc, List.takeWhile_cons_of_pos hc, List.foldl_cons, hstep]
      dsimp only
      by_cases hnext : 10 * value + (digitValue 10 c).getD 0 < 2 ^ 64
      · rw [if_pos hnext]
        exact ih hnext
      · have hlarge := le_foldl_digits (rest.takeWhile isAsciiDigit)
            (10 * value + (digitValue 10 c).getD 0)
        rw [if_neg hnext, numeralLoop_overflow]
        refine ⟨fun hfits => absurd (lt_of_le_of_lt hlarge hfits) hnext, ?_⟩
        simp only [Bool.true_eq, Bool.not_eq_true', decide_eq_false_iff_not]
        exact fun hfits => hnext (lt_of_le_of_lt hlarge hfits)
    · rw [if_neg hc, List.takeWhile_cons_of_neg hc]
      exact ⟨fun _ => rfl, by rw [List.foldl_nil, decide_eq_true hvalue]; rfl⟩

/-- What stands in front of a character that is no digit, when it is all digits. -/
theorem takeWhile_digits {digits rest : List Char} (hdigits : ∀ c ∈ digits, isAsciiDigit c = true)
    (hrest : ∀ c ∈ rest.head?, isAsciiDigit c = false) :
    (digits ++ rest).takeWhile isAsciiDigit = digits ∧ (digits ++ rest).dropWhile isAsciiDigit =
      rest := by
  rw [List.takeWhile_append_of_pos hdigits, List.dropWhile_append_of_pos hdigits]
  cases rest with
  | nil => simp
  | cons c rest =>
    have hc : isAsciiDigit c = false := hrest c rfl
    simp [hc]

/-- A numeral is read to the end of its digits, and an overflow is told. -/
theorem numeralLoop_append {digits rest : List Char} (hdigits : ∀ c ∈ digits, isAsciiDigit c = true)
    (hrest : ∀ c ∈ rest.head?, isAsciiDigit c = false) :
    ∃ value, numeralLoop 0 false (digits ++ rest) =
      (value, !decide (valueOf 10 digits < 2 ^ 64), rest) ∧
      (valueOf 10 digits < 2 ^ 64 → value = valueOf 10 digits) := by
  obtain ⟨htake, hdrop⟩ := takeWhile_digits hdigits hrest
  obtain ⟨hvalue, hoverflow⟩ := numeralLoop_spec (show 0 < 2 ^ 64 by decide) (digits ++ rest)
  have hleft := numeralLoop_rest 0 false (digits ++ rest)
  rw [htake] at hvalue hoverflow
  rw [hdrop] at hleft
  exact ⟨_, Prod.ext rfl (Prod.ext hoverflow hleft), hvalue⟩

/-! ## The specifications of a string -/

/-- A numeral: digits, and at least one. -/
structure Numeral where
  digits : List Char
  nonempty : digits ≠ []
  isDigits : ∀ c ∈ digits, isAsciiDigit c = true

/-- The number that a numeral spells. -/
def Numeral.value (n : Numeral) : Nat := valueOf 10 n.digits

/-- The alignments that a string takes. -/
inductive StrAlign where
  | left
  | right
  | center
  deriving DecidableEq

/-- An alignment as it is written. -/
def StrAlign.char : StrAlign → Char
  | .left => '<'
  | .right => '>'
  | .center => '^'

/-- The alignment that `parse_spec` reads. -/
def StrAlign.align : StrAlign → Align
  | .left => .left
  | .right => .right
  | .center => .center

theorem alignOf_char (align : StrAlign) : alignOf align.char = some align.align := by
  cases align <;> rfl

/-- `[[fill]align][0][width][.precision][s]`. A `0` in front of the width is the flag. -/
structure StrSpec where
  fillAlign : Option (Option Char × StrAlign)
  zero : Bool
  width : Option Numeral
  precision : Option Numeral
  type : Bool
  flag : zero = false → ∀ n ∈ width, n.digits.head? ≠ some '0'

namespace StrSpec

variable (spec : StrSpec)

/-- The fill character and the alignment. -/
def alignText : List Char :=
  match spec.fillAlign with
  | none => []
  | some (none, align) => [align.char]
  | some (some fill, align) => [fill, align.char]

/-- The flag for zeros. -/
def zeroText : List Char := if spec.zero then ['0'] else []

/-- The digits of the width. -/
def widthText : List Char := (spec.width.map Numeral.digits).getD []

/-- What stands behind the width. -/
def backText : List Char :=
  (match spec.precision with
    | none => []
    | some precision => '.' :: precision.digits) ++ if spec.type then ['s'] else []

/-- A specification as it is written. -/
def text : List Char := spec.alignText ++ (spec.zeroText ++ (spec.widthText ++ spec.backText))

/-- The fill: the one given, else a zero for the flag, else a space. -/
def fill : Char :=
  match spec.fillAlign with
  | some (some fill, _) => fill
  | _ => if spec.zero then '0' else ' '

/-- The alignment, to the left where none is given. -/
def align : StrAlign := (spec.fillAlign.map Prod.snd).getD .left

/-- The width, zero where none is given. -/
def widthValue : Nat := (spec.width.map Numeral.value).getD 0

/-- The precision, if one is given. -/
def precisionValue : Option Nat := spec.precision.map Numeral.value

/-- The first characters of a string, as many as the precision allows. -/
def shown (value : List Char) : List Char :=
  match spec.precisionValue with
  | none => value
  | some precision => value.take (min precision value.length)

/-- **The law.** The string, cut to its precision and padded to its width. -/
def padded (value : List Char) : List Char :=
  let padding := spec.widthValue - (spec.shown value).length
  match spec.align with
  | .left => spec.shown value ++ List.replicate padding spec.fill
  | .right => List.replicate padding spec.fill ++ spec.shown value
  | .center =>
    List.replicate (padding / 2) spec.fill ++ spec.shown value ++
      List.replicate (padding - padding / 2) spec.fill

/-! ## The parser on them -/

/-- A character of a numeral, a point or an `s`. -/
def isBodyChar (c : Char) : Bool := isAsciiDigit c || c = '.' || c = 's'

/-- The characters behind the alignment. -/
theorem isBodyChar_of_mem {c : Char} (h : c ∈ spec.zeroText ++ (spec.widthText ++ spec.backText)) :
    isBodyChar c = true := by
  simp only [zeroText, widthText, backText, List.mem_append] at h
  rcases h with h | h | h | h
  · split at h
    · rw [List.mem_singleton.1 h]
      rfl
    · cases h
  · cases hwidth : spec.width with
    | none => simp [hwidth] at h
    | some n =>
      have hdigit := n.isDigits c (by simpa [hwidth] using h)
      simp [isBodyChar, hdigit]
  · cases hprecision : spec.precision with
    | none => simp [hprecision] at h
    | some n =>
      simp only [hprecision, List.mem_cons] at h
      rcases h with rfl | h
      · rfl
      · simp [isBodyChar, n.isDigits c h]
  · split at h
    · rw [List.mem_singleton.1 h]
      rfl
    · cases h

theorem not_isAsciiDigit_of_back {c : Char} (h : spec.backText.head? = some c) :
    isAsciiDigit c = false := by
  unfold backText at h
  cases hprecision : spec.precision with
  | some n =>
    simp only [hprecision, List.cons_append, List.head?_cons, Option.some.injEq] at h
    rw [← h]
    rfl
  | none =>
    cases htype : spec.type with
    | true =>
      simp only [hprecision, htype, if_true, List.nil_append, List.head?_cons,
        Option.some.injEq] at h
      rw [← h]
      rfl
    | false => simp [hprecision, htype] at h

/-- None of them is an alignment. -/
theorem alignOf_of_isBodyChar {c : Char} (h : isBodyChar c = true) : alignOf c = none := by
  unfold alignOf
  split
  · cases h
  · cases h
  · cases h
  · cases h
  · rfl

end StrSpec

/-- What the parts in front of the width leave of a string's specification: all of it is known but
the width and what stands behind it. -/
structure Front (spec : StrSpec) (out : Spec) : Prop where
  fill : out.fill = spec.fill
  align : out.align = if spec.zero = true ∧
    spec.fillAlign = none then .afterSign else spec.align.align
  rest : out.sign = none ∧ out.noNeg0 = false ∧ out.alternate = false ∧ out.width = none ∧
    out.grouping = none ∧
    out.fracGrouping = none ∧ out.precision = none ∧ out.typeChar = 's'

/-- The alignment of a specification is read. -/
theorem takeAlign_text (spec : StrSpec) (out : Spec) :
    takeAlign out spec.text =
      ((match spec.fillAlign with
        | none => out
        | some (none, align) => { out with align := align.align, alignSpecified := true }
        | some (some fill, align) =>
          { out with
            fill := fill
            align := align.align
            fillSpecified := true
            alignSpecified := true }),
        spec.zeroText ++ (spec.widthText ++ spec.backText)) := by
  have hbody : ∀ c ∈ spec.zeroText ++ (spec.widthText ++ spec.backText), alignOf c = none :=
    fun c hc => StrSpec.alignOf_of_isBodyChar (spec.isBodyChar_of_mem hc)
  unfold StrSpec.text StrSpec.alignText
  generalize spec.zeroText ++ (spec.widthText ++ spec.backText) = body at hbody
  have hhead : body.head?.bind alignOf = none := by
    cases body with
    | nil => rfl
    | cons c rest => exact hbody c (by simp)
  rcases spec.fillAlign with _ | ⟨_ | fill, align⟩
  · cases body with
    | nil => rfl
    | cons c rest =>
      have hnext : rest.head?.bind alignOf = none := by
        cases rest with
        | nil => rfl
        | cons d rest => exact hbody d (by simp)
      simp [takeAlign, hnext, hbody c]
  · simp [takeAlign, hhead, alignOf_char]
  · simp [takeAlign, alignOf_char]

/-- No flag is read where there is none. -/
theorem takeFlags_body {body : List Char} (hbody : ∀ c ∈ body, StrSpec.isBodyChar c = true)
    (out : Spec) :
    takeSign out body = (out, body) ∧ takeNoNeg0 out body = (out, body) ∧
      takeAlternate out body = (out, body) := by
  refine ⟨takeIf_of_neg fun c hc => ?_, takeIf_of_neg fun c hc => ?_, takeIf_of_neg fun c hc => ?_⟩
  all_goals
    have hchar := hbody c (List.mem_of_mem_head? hc)
    by_contra hflag
    simp only [Bool.or_eq_true, decide_eq_true_eq, Bool.not_eq_false] at hflag
  · rcases hflag with (rfl | rfl) | rfl
    · cases hchar
    · cases hchar
    · cases hchar
  · subst hflag
    cases hchar
  · subst hflag
    cases hchar

theorem valueOf_zero_cons (digits : List Char) : valueOf 10 ('0' :: digits) = valueOf 10 digits :=
  valueOf_replicate_zero 10 1 digits

/-- The width is its digits' value. -/
theorem StrSpec.widthText_digits (spec : StrSpec) :
    (∀ c ∈ spec.widthText, isAsciiDigit c = true) ∧
      valueOf 10 spec.widthText = spec.widthValue := by
  unfold StrSpec.widthText StrSpec.widthValue
  cases spec.width with
  | none => exact ⟨by simp, rfl⟩
  | some n => exact ⟨n.isDigits, rfl⟩

/-- Without the flag nothing in front of the width looks like it. -/
theorem StrSpec.head_ne_zero {spec : StrSpec} (hzero : spec.zero = false) {c : Char}
    (h : (spec.widthText ++ spec.backText).head? = some c) : c ≠ '0' := by
  rintro rfl
  cases hwidth : spec.width with
  | none =>
    have hback := spec.not_isAsciiDigit_of_back (by simpa [StrSpec.widthText, hwidth] using h)
    cases hback
  | some n =>
    refine spec.flag hzero n hwidth ?_
    obtain ⟨d, rest, hdigits⟩ := List.exists_cons_of_ne_nil n.nonempty
    simpa [StrSpec.widthText, hwidth, hdigits] using h

/-- With a fill the zero belongs to the width. -/
theorem takeZero_of_filled {out : Spec} (hfill : out.fillSpecified = true) (chars : List Char) :
    takeZero out chars = (out, chars) :=
  takeIf_of_neg fun c _ => by simp [hfill]

/-- The zero flag is read. -/
theorem takeZero_of_flag {spec : StrSpec} {out : Spec} (hzero : spec.zero = true)
    (hfill : out.fillSpecified = false)
    (rest : List Char) :
    takeZero out (spec.zeroText ++ rest) =
      ({ out with fill := '0', align := if out.alignSpecified then out.align else .afterSign },
        rest) := by
  simp [takeZero, takeIf, StrSpec.zeroText, hzero, hfill]

/-- Without a zero flag none is read. -/
theorem takeZero_of_plain {spec : StrSpec} (hzero : spec.zero = false) (out : Spec) :
    takeZero out (spec.zeroText ++ (spec.widthText ++ spec.backText)) =
      (out, spec.widthText ++ spec.backText) := by
  have htext : spec.zeroText ++ (spec.widthText ++ spec.backText) = spec.widthText ++
      spec.backText := by
    simp [StrSpec.zeroText, hzero]
  rw [htext]
  refine takeIf_of_neg fun c hc => ?_
  have hne := StrSpec.head_ne_zero hzero hc
  simp [hne]

/-- The front of a specification is read. -/
theorem takeFront_text (spec : StrSpec) :
    ∃ out digits, takeFront (.default 's' .left) spec.text = (out, digits ++ spec.backText) ∧
      Front spec out ∧
      (∀ c ∈ digits, isAsciiDigit c = true) ∧ valueOf 10 digits = spec.widthValue := by
  obtain ⟨hdigits, hvalue⟩ := spec.widthText_digits
  have hflags := takeFlags_body fun c hc => spec.isBodyChar_of_mem hc
  simp only [takeFront, takeAlign_text, hflags]
  -- a fill keeps the zero for the width; else the zero is taken, and is the fill
  rcases hshape : spec.fillAlign with _ | ⟨_ | fill, align⟩
  · cases hzero : spec.zero with
    | false =>
      rw [takeZero_of_plain hzero]
      refine ⟨_, _, rfl, ⟨?_, ?_, ?_⟩, hdigits, hvalue⟩
      · simp [StrSpec.fill, hshape, hzero, Spec.default]
      · simp [StrSpec.align, hshape, hzero, Spec.default, StrAlign.align]
      · simp [Spec.default]
    | true =>
      rw [takeZero_of_flag hzero rfl]
      refine ⟨_, _, rfl, ⟨?_, ?_, ?_⟩, hdigits, hvalue⟩
      · simp [StrSpec.fill, hshape, hzero]
      · simp [hshape, hzero, Spec.default]
      · simp [Spec.default]
  · cases hzero : spec.zero with
    | false =>
      rw [takeZero_of_plain hzero]
      refine ⟨_, _, rfl, ⟨?_, ?_, ?_⟩, hdigits, hvalue⟩
      · simp [StrSpec.fill, hshape, hzero, Spec.default]
      · simp [StrSpec.align, hshape, hzero]
      · simp [Spec.default]
    | true =>
      rw [takeZero_of_flag hzero rfl]
      refine ⟨_, _, rfl, ⟨?_, ?_, ?_⟩, hdigits, hvalue⟩
      · simp [StrSpec.fill, hshape, hzero]
      · simp [StrSpec.align, hshape]
      · simp [Spec.default]
  · rw [takeZero_of_filled rfl, ← List.append_assoc]
    refine ⟨_, _, rfl, ⟨?_, ?_, ?_⟩, ?_, ?_⟩
    · simp [StrSpec.fill, hshape]
    · simp [StrSpec.align, hshape]
    · simp [Spec.default]
    · intro c hc
      rcases List.mem_append.1 hc with hc | hc
      · unfold StrSpec.zeroText at hc
        split at hc
        · rw [List.mem_singleton.1 hc]
          rfl
        · cases hc
      · exact hdigits c hc
    · unfold StrSpec.zeroText
      split
      · rw [List.singleton_append, valueOf_zero_cons, hvalue]
      · exact hvalue

/-- No separator stands here. -/
theorem takeSeparators_of_none {set : Separator → Spec → Spec} {get : Spec → Option Separator}
    {out : Spec}
    {chars : List Char} (h : ∀ c, chars.head? = some c → c ≠ ',' ∧ c ≠ '_') :
    takeSeparators set get out chars = .ok (out, chars) := by
  have hcomma : takeIf (· = ',') (fun _ => set .comma) out chars = (out, chars) :=
    takeIf_of_neg fun c hc => decide_eq_false (h c hc).1
  have hunderscore : chars.head? ≠ some '_' := fun hc => (h '_' hc).2 rfl
  rw [takeSeparators, hcomma]
  exact if_neg hunderscore

theorem takeGrouping_of_none {out : Spec} {chars : List Char}
    (h : ∀ c, chars.head? = some c → c ≠ ',' ∧ c ≠ '_') :
    takeGrouping out chars = .ok (out, chars) := by
  have hcomma : chars.head? ≠ some ',' := fun hc => (h ',' hc).1 rfl
  rw [takeGrouping, takeSeparators_of_none h]
  exact if_neg fun hboth => hcomma hboth.1

theorem StrSpec.backText_head (spec : StrSpec) {c : Char} (h : spec.backText.head? = some c) :
    c ≠ ',' ∧ c ≠ '_' := by
  have hchar := spec.isBodyChar_of_mem (c := c) (by simp [List.mem_of_mem_head? h])
  constructor
  · rintro rfl
    cases hchar
  · rintro rfl
    cases hchar

/-- The precision is a `usize`. -/
def StrSpec.precisionFits (spec : StrSpec) : Prop := ∀ p ∈ spec.precisionValue, p < 2 ^ 64

/-- The part of a string's specification behind its precision. -/
theorem takeType_text {text : List Char} {out : Spec} (htype : out.typeChar = 's')
    (hgrouping : out.grouping = none)
    (hfrac : out.fracGrouping = none) (type : Bool) :
    (takeType text out (if type then ['s'] else [])).bind validate = .ok out := by
  have hset : { out with typeChar := 's' } = out := by
    rw [← htype]
  have hvalid : validate out = .ok out := by
    simp [validate, validate.grouped, hgrouping, hfrac]
  cases type with
  | true => simpa [takeType, Except.bind, hset] using hvalid
  | false => simpa [takeType, Except.bind] using hvalid

/-- The back of a specification is read. -/
theorem takeBack_text {spec : StrSpec} {text : List Char} {out : Spec} (htype : out.typeChar = 's')
    (hgrouping : out.grouping = none) (hfrac : out.fracGrouping = none)
    (hprecision : out.precision = none) :
    (spec.precisionFits → takeBack text out spec.backText = .ok { out with
      precision := spec.precisionValue }) ∧
      (¬ spec.precisionFits → ∃ e, takeBack text out spec.backText = .error e) := by
  rw [takeBack, takeGrouping_of_none fun c hc => spec.backText_head hc]
  simp only [Except.bind]
  cases hshape : spec.precision with
  | none =>
    have hvalue : spec.precisionValue = none := by simp [StrSpec.precisionValue, hshape]
    have hfits : spec.precisionFits := by simp [StrSpec.precisionFits, hvalue]
    have htext : spec.backText = if spec.type then ['s'] else [] := by
      simp [StrSpec.backText, hshape]
    have hnone : takePrecision out spec.backText = .ok (out, spec.backText) := by
      rw [htext]
      cases spec.type <;> rfl
    refine ⟨fun _ => ?_, fun hno => absurd hfits hno⟩
    rw [hnone, hvalue, ← hprecision, htext]
    exact takeType_text htype hgrouping hfrac spec.type
  | some n =>
    have hvalue : spec.precisionValue = some n.value := by simp [StrSpec.precisionValue, hshape]
    have htext : spec.backText = '.' :: (n.digits ++ if spec.type then ['s'] else []) := by
      simp [StrSpec.backText, hshape]
    have htail : ∀ c, (if spec.type then ['s'] else ([] : List Char)).head? = some c → c = 's' := by
      cases spec.type <;> simp
    obtain ⟨value, hloop, hfit⟩ :=
      @numeralLoop_append n.digits (if spec.type then ['s'] else []) n.isDigits
      fun c hc => by rw [htail c hc]; rfl
    have hnot : ¬ (if spec.type then ['s'] else ([] : List Char)).length =
        (n.digits ++ if spec.type then ['s'] else []).length := by
      have hpos := List.length_pos_iff.2 n.nonempty
      rw [List.length_append]
      omega
    have hfits : spec.precisionFits ↔ valueOf 10 n.digits < 2 ^ 64 := by
      simp [StrSpec.precisionFits, hvalue, Numeral.value]
    rw [hfits, htext, takePrecision, hloop]
    simp only [Bool.not_eq_true', decide_eq_false_iff_not]
    refine ⟨fun hlt => ?_, fun hlarge => ⟨_, by rw [if_pos hlarge]⟩⟩
    rw [if_neg (not_not_intro hlt), takeSeparators_of_none fun c hc => by rw [htail c hc]; decide]
    simp only [Except.bind, if_neg hnot, hfit hlt, hvalue, Numeral.value]
    exact @takeType_text text { out with
      precision := some (valueOf 10 n.digits) } htype hgrouping hfrac spec.type

/-- Both numerals are a `usize`. -/
def StrSpec.numeralsFit (spec : StrSpec) : Prop := spec.widthValue < 2 ^ 64 ∧ spec.precisionFits

/-- **What is read.** The parts of the specification as they were written, where the numerals
fit. -/
theorem parseSpec_text (spec : StrSpec) :
    (spec.numeralsFit →
        ∃ parsed, parseSpec spec.text 's' .left = .ok parsed ∧
          parsed.width.getD 0 = spec.widthValue ∧
          parsed.precision = spec.precisionValue ∧ parsed.fill = spec.fill ∧
          parsed.align = (if spec.zero = true ∧
            spec.fillAlign = none then .afterSign else spec.align.align) ∧
          parsed.sign = none ∧ parsed.noNeg0 = false ∧ parsed.alternate = false ∧
            parsed.grouping = none ∧
          parsed.typeChar = 's') ∧
      (¬ spec.numeralsFit → ∃ e, parseSpec spec.text 's' .left = .error e) := by
  obtain ⟨out, digits, hfront,
      ⟨hfill, halign, hsign, hz, halt, hwidth, hgrouping, hfrac, hprecision, htype⟩,
    hdigits, hvalue⟩ := takeFront_text spec
  obtain ⟨value, hloop, hfit⟩ :=
    numeralLoop_append hdigits fun c hc => spec.not_isAsciiDigit_of_back hc
  rw [hvalue] at hloop hfit
  rw [parseSpec, hfront]
  simp only [takeWidth, hloop, Bool.not_eq_true', decide_eq_false_iff_not]
  by_cases hlt : spec.widthValue < 2 ^ 64
  · rw [if_neg (not_not_intro hlt), hfit hlt]
    simp only [Except.bind]
    generalize hgot : (if spec.backText.length = (digits ++ spec.backText).length then none
      else some spec.widthValue) = got
    have hgetD : got.getD 0 = spec.widthValue := by
      rw [← hgot]
      split
      · next hlength =>
        have hempty : digits = [] := by
          rw [List.length_append] at hlength
          exact List.length_eq_zero_iff.1 (by omega)
        rw [← hvalue, hempty]
        rfl
      · rfl
    obtain ⟨hback, herror⟩ :=
      @takeBack_text spec spec.text { out with width := got } htype hgrouping hfrac hprecision
    refine ⟨fun h => ⟨_, hback h.2, hgetD, rfl, hfill, halign, hsign, hz, halt, hgrouping, htype⟩,
      fun h => herror ?_⟩
    exact fun hfits => h ⟨hlt, hfits⟩
  · rw [if_pos hlt]
    exact ⟨fun h => absurd h.1 hlt, fun _ => ⟨_, rfl⟩⟩

/-! ## The law -/

/-- The field of a text is the padded text. -/
theorem strField_eq_padded {spec : StrSpec} {parsed : Spec}
    (hwidth : parsed.width.getD 0 = spec.widthValue)
    (hprecision : parsed.precision = spec.precisionValue) (hfill : parsed.fill = spec.fill)
    (halign : parsed.align = spec.align.align) (chars : List Char) :
    strField parsed chars = spec.padded chars := by
  have hshown : spec.shown chars = chars.take (strLen parsed chars) := by
    rw [strLen, hprecision, StrSpec.shown]
    cases spec.precisionValue with
    | none => simp
    | some p =>
      by_cases hp : p < chars.length
      · simp [hp, Nat.min_eq_left hp.le]
      · simp [hp, Nat.min_eq_right (Nat.le_of_not_lt hp)]
  have hlength : (chars.take (strLen parsed chars)).length = strLen parsed chars := by
    rw [List.length_take, Nat.min_eq_left]
    unfold strLen
    split
    · split
      · next hp => exact hp.le
      · exact le_rfl
    · exact le_rfl
  simp only [strField, StrSpec.padded, hwidth, hfill, halign, hshown, hlength]
  cases spec.align with
  | left => simp [StrAlign.align, strPadding]
  | right => simp [StrAlign.align, strPadding]
  | center => simp [StrAlign.align, strPadding]

/-- Of a plain text specification only the alignment after the sign is refused. -/
theorem checkStr_eq {parsed : Spec} (hsign : parsed.sign = none) (hz : parsed.noNeg0 = false)
    (halt : parsed.alternate = false) (hgrouping : parsed.grouping = none)
    (htype : parsed.typeChar = 's') :
    checkStr parsed =
      if parsed.align = .afterSign then .error (.notAllowedForType "'=' alignment" "str")
        else .ok () := by
  simp [checkStr, hsign, hz, halt, hgrouping, htype]

/-- An empty specification pads nothing. -/
theorem StrSpec.padded_of_text_nil {spec : StrSpec} (h : spec.text = []) (value : List Char) :
    ¬ (spec.zero = true ∧ spec.fillAlign = none) ∧ spec.widthValue = 0 ∧ spec.precisionFits ∧
      spec.padded value = value := by
  simp only [StrSpec.text, List.append_eq_nil_iff] at h
  obtain ⟨halign, hzero, hwidth, hback⟩ := h
  have hvalue : spec.widthValue = 0 := by
    rw [← spec.widthText_digits.2, hwidth]
    rfl
  have hprecision : spec.precisionValue = none := by
    rw [StrSpec.backText, List.append_eq_nil_iff] at hback
    cases hshape : spec.precision with
    | none => simp [StrSpec.precisionValue, hshape]
    | some n => simp [hshape] at hback
  have hflag : spec.zero = false := by
    cases hshape : spec.zero with
    | false => rfl
    | true => simp [StrSpec.zeroText, hshape] at hzero
  have hleft : spec.align = .left := by
    rcases hshape : spec.fillAlign with _ | ⟨_ | fill, align⟩
    · simp [StrSpec.align, hshape]
    · simp [StrSpec.alignText, hshape] at halign
    · simp [StrSpec.alignText, hshape] at halign
  refine ⟨fun h => ?_, hvalue, by simp [StrSpec.precisionFits, hprecision], ?_⟩
  · rw [hflag] at h
    cases h.1
  · simp [StrSpec.padded, hleft, StrSpec.shown, hprecision, hvalue]

/-- **`format_str`.** It meets the law but where the `0` flag stands without an alignment, where a
numeral is no `usize`, and where the padded text is larger than a `String` can be. -/
theorem format_str_law_iff (spec : StrSpec) (value : Str) :
    formatStr value spec.text = some (.ok (spec.padded value.chars)) ↔
      ¬ (spec.zero = true ∧ spec.fillAlign = none) ∧ spec.numeralsFit ∧
        utf8Len (spec.padded value.chars) ≤ isizeMax := by
  unfold formatStr
  by_cases hempty : spec.text = []
  · obtain ⟨hflag, hwidth, hprecision, hpadded⟩ := StrSpec.padded_of_text_nil hempty value.chars
    rw [if_pos hempty, hpadded]
    exact ⟨fun _ => ⟨hflag, ⟨hwidth ▸ (by decide), hprecision⟩, value.fits⟩, fun _ => rfl⟩
  · rw [if_neg hempty]
    obtain ⟨hread, hrefused⟩ := parseSpec_text spec
    by_cases hfit : spec.numeralsFit
    · obtain ⟨parsed, hparsed, hwidth, hprecision, hfill, halign, hsign, hz, halt, hgrouping,
          htype⟩ := hread hfit
      rw [hparsed]
      simp only [Except.bind, checkStr_eq hsign hz halt hgrouping htype]
      by_cases hflag : spec.zero = true ∧ spec.fillAlign = none
      · rw [if_pos hflag] at halign
        simp [halign, hflag, Except.map]
      · rw [if_neg hflag] at halign
        have hne : spec.align.align ≠ .afterSign := by
          cases spec.align <;> decide
        rw [halign, if_neg hne]
        simp only [Except.map, strField_eq_padded hwidth hprecision hfill halign, built]
        constructor
        · intro h
          refine ⟨hflag, hfit, ?_⟩
          by_contra hlarge
          rw [if_neg hlarge] at h
          cases h
        · rintro ⟨-, -, hsize⟩
          rw [if_pos hsize]
          rfl
    · obtain ⟨e, herror⟩ := hrefused hfit
      rw [herror]
      constructor
      · intro h
        cases h
      · intro h
        exact absurd h.2.1 hfit

/-- `05`: the flag and a width. -/
def zeroFive : StrSpec where
  fillAlign := none
  zero := true
  width := some ⟨['5'], by decide, List.all_eq_true.1 (by decide)⟩
  precision := none
  type := false
  flag := by decide

/-- An `x` in a field of five: the law pads it with zeros on the right, and the source refuses the
specification. -/
theorem zero_flag_refused :
    zeroFive.text = "05".toList ∧ zeroFive.padded ['x'] = "x0000".toList ∧
      formatStr ⟨['x'], by decide⟩ zeroFive.text =
        some (.error (.notAllowedForType "'=' alignment" "str")) := by
  decide +kernel

end RtpMux.Pyformat
