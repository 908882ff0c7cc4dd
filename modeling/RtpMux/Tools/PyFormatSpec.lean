import RtpMux.Tools.PyFormat

/-!
# A specification without its width

The digits of the width can be taken out of a specification, and what is left is read as before. The
parts in front of the width look at one character beyond themselves, or two; what stands behind the
width is never one of theirs.
-/

namespace RtpMux.Pyformat

open Text

/-! ## The parts in front of the width -/

theorem head?_append_cases {a b : List Char} {c : Char} (h : (a ++ b).head? = some c) :
    c ∈ a ∨ b.head? = some c := by
  cases a with
  | nil => exact .inr h
  | cons d a => exact .inl (by simpa using Or.inl (Option.some.inj h).symm)

theorem mem_take_append_cases {a b : List Char} {n : Nat} {c : Char} (h : c ∈ (a ++ b).take n) :
    c ∈ a ∨ c ∈ b.take n := by
  rw [List.take_append] at h
  rcases List.mem_append.1 h with h | h
  · exact .inl (List.mem_of_mem_take h)
  · exact .inr (List.take_subset_take_left _ (Nat.sub_le _ _) h)

/-- What an optional character does not depend on. -/
theorem takeIf_frame {p : Char → Bool} {set : Char → Spec → Spec} {out out' : Spec}
    {chars rest : List Char}
    (h : takeIf p set out chars = (out', rest)) :
    ∃ taken, chars = taken ++ rest ∧ (∀ c ∈ taken, p c = true) ∧
      ∀ rest', (∀ c, rest'.head? = some c → p c = false) →
        takeIf p set out (taken ++ rest') = (out', rest') := by
  cases chars with
  | nil =>
    cases h
    exact ⟨[], rfl, by simp, fun rest' hrest => takeIf_of_neg hrest⟩
  | cons c chars =>
    rw [takeIf] at h
    split at h
    · next hc =>
      cases h
      exact ⟨[c], rfl, by simpa using hc, fun rest' _ => by simp [takeIf, hc]⟩
    · cases h
      exact ⟨[], rfl, by simp, fun rest' hrest => takeIf_of_neg hrest⟩

/-- What reading the alignment does not depend on. -/
theorem takeAlign_frame {out out' : Spec} {chars rest : List Char}
    (h : takeAlign out chars = (out', rest)) :
    ∃ taken, chars = taken ++ rest ∧
      ∀ rest', (∀ c ∈ rest'.take 2, alignOf c = none) →
        takeAlign out (taken ++ rest') = (out', rest') := by
  have hnone : ∀ rest' : List Char, (∀ c ∈ rest'.take 2, alignOf c = none) →
      takeAlign out rest' = (out, rest') := by
    intro rest' hrest
    rcases rest' with _ | ⟨c, _ | ⟨d, rest'⟩⟩
    · rfl
    · simp [takeAlign, hrest c]
    · have hc := hrest c (by simp)
      have hd := hrest d (by simp)
      simp [takeAlign, hc, hd]
  cases chars with
  | nil =>
    cases h
    exact ⟨[], rfl, hnone⟩
  | cons first chars =>
    rw [takeAlign] at h
    split at h
    · next align halign =>
      cases h
      obtain ⟨c, hc, hfound⟩ := Option.bind_eq_some_iff.1 halign
      obtain ⟨tail, rfl⟩ := List.head?_eq_some_iff.1 hc
      exact ⟨[first, c], rfl, fun rest' _ => by simp [takeAlign, hfound]⟩
    · split at h
      · next align halign =>
        cases h
        refine ⟨[first], rfl, fun rest' hrest => ?_⟩
        have hhead : rest'.head?.bind alignOf = none := by
          cases rest' with
          | nil => rfl
          | cons c rest' => exact hrest c (by simp)
        simp [takeAlign, hhead, halign]
      · cases h
        exact ⟨[], rfl, hnone⟩

/-- A character that one of the parts between the alignment and the width is made of. -/
def isFlagChar (c : Char) : Bool := c = ' ' || c = '+' || c = '-' || c = 'z' || c = '#' || c = '0'

/-- What reading the front of a specification does not depend on. -/
theorem takeFront_frame {out out' : Spec} {chars rest : List Char}
    (h : takeFront out chars = (out', rest)) :
    ∃ taken, chars = taken ++ rest ∧
      ∀ rest', (∀ c ∈ rest'.take 2, alignOf c = none) →
        (∀ c, rest'.head? = some c → isFlagChar c = false) →
        takeFront out (taken ++ rest') = (out', rest') := by
  unfold takeFront at h
  rcases h₁ : takeAlign out chars with ⟨out₁, chars₁⟩
  rcases h₂ : takeSign out₁ chars₁ with ⟨out₂, chars₂⟩
  rcases h₃ : takeNoNeg0 out₂ chars₂ with ⟨out₃, chars₃⟩
  rcases h₄ : takeAlternate out₃ chars₃ with ⟨out₄, chars₄⟩
  simp only [h₁, h₂, h₃, h₄] at h
  obtain ⟨t₁, rfl, hframe₁⟩ := takeAlign_frame h₁
  obtain ⟨t₂, rfl, hall₂, hframe₂⟩ := takeIf_frame h₂
  obtain ⟨t₃, rfl, hall₃, hframe₃⟩ := takeIf_frame h₃
  obtain ⟨t₄, rfl, hall₄, hframe₄⟩ := takeIf_frame h₄
  obtain ⟨t₅, rfl, hall₅, hframe₅⟩ := takeIf_frame h
  refine ⟨t₁ ++ (t₂ ++ (t₃ ++ (t₄ ++ t₅))), by simp only [List.append_assoc],
    fun rest' halign hflag => ?_⟩
  -- the characters of the parts, and the ones that may follow them
  simp only [Bool.or_eq_true, Bool.and_eq_true, decide_eq_true_eq] at hall₂ hall₃ hall₄ hall₅
  have hrest {c : Char} (hc : rest'.head? = some c) :
      c ≠ ' ' ∧ c ≠ '+' ∧ c ≠ '-' ∧ c ≠ 'z' ∧ c ≠ '#' ∧ c ≠ '0' := by
    have hno := hflag c hc
    simp only [isFlagChar, Bool.or_eq_false_iff, decide_eq_false_iff_not] at hno
    tauto
  have h₅' := hframe₅ rest' fun c hc => by simp [(hrest hc).2.2.2.2.2]
  have h₄' := hframe₄ (t₅ ++ rest') fun c hc => by
    rcases head?_append_cases hc with hc | hc
    · simp [(hall₅ c hc).2]
    · simp [(hrest hc).2.2.2.2.1]
  have h₃' := hframe₃ (t₄ ++ (t₅ ++ rest')) fun c hc => by
    rcases head?_append_cases hc with hc | hc
    · simp [hall₄ c hc]
    rcases head?_append_cases hc with hc | hc
    · simp [(hall₅ c hc).2]
    · simp [(hrest hc).2.2.2.1]
  have h₂' := hframe₂ (t₃ ++ (t₄ ++ (t₅ ++ rest'))) fun c hc => by
    rcases head?_append_cases hc with hc | hc
    · simp [hall₃ c hc]
    rcases head?_append_cases hc with hc | hc
    · simp [hall₄ c hc]
    rcases head?_append_cases hc with hc | hc
    · simp [(hall₅ c hc).2]
    · simp [(hrest hc).1, (hrest hc).2.1, (hrest hc).2.2.1]
  have h₁' := hframe₁ (t₂ ++ (t₃ ++ (t₄ ++ (t₅ ++ rest')))) fun c hc => by
    rcases mem_take_append_cases hc with hc | hc
    · rcases hall₂ c hc with (rfl | rfl) | rfl
      · rfl
      · rfl
      · rfl
    rcases mem_take_append_cases hc with hc | hc
    · rw [hall₃ c hc]
      rfl
    rcases mem_take_append_cases hc with hc | hc
    · rw [hall₄ c hc]
      rfl
    rcases mem_take_append_cases hc with hc | hc
    · rw [(hall₅ c hc).2]
      rfl
    · exact halign c hc
  have h₂'' : takeSign out₁ (t₂ ++ (t₃ ++ (t₄ ++ (t₅ ++ rest')))) = _ := h₂'
  have h₃'' : takeNoNeg0 out₂ (t₃ ++ (t₄ ++ (t₅ ++ rest'))) = _ := h₃'
  have h₄'' : takeAlternate out₃ (t₄ ++ (t₅ ++ rest')) = _ := h₄'
  simp only [takeFront, List.append_assoc, h₁', h₂'', h₃'', h₄'']
  exact h₅'

/-! ## The parts behind the width -/

/-- A character of the parts between the width and the type. -/
def isBackChar (c : Char) : Bool := isAsciiDigit c || c = ',' || c = '_' || c = '.'

/-- What a part behind the width keeps to: it takes such characters, and does not look at the
width. -/
def BackFrame (part : Spec → List Char → Except PyFormatError (Spec × List Char)) : Prop :=
  ∀ {out out' : Spec} {chars rest : List Char}, part out chars = .ok (out', rest) →
    (∀ c ∈ chars, isBackChar c = true ∨ c ∈ rest) ∧
      ∀ w, part { out with width := w } chars = .ok ({ out' with width := w }, rest)

theorem takeIf_width {p : Char → Bool} {set : Char → Spec → Spec}
    (hset : ∀ c out w, set c { out with width := w } = { set c out with width := w })
    {out out' : Spec}
    {chars rest : List Char} (h : takeIf p set out chars = (out', rest)) (w : Option Nat) :
    takeIf p set { out with width := w } chars = ({ out' with width := w }, rest) := by
  cases chars with
  | nil =>
    cases h
    rfl
  | cons c chars =>
    rw [takeIf] at h ⊢
    split at h
    · next hc =>
      cases h
      rw [if_pos hc, hset]
    · next hc =>
      cases h
      rw [if_neg hc]

/-- Reading separators does not see the width. -/
theorem takeSeparators_frame {set : Separator → Spec → Spec} {get : Spec → Option Separator}
    (hset : ∀ s out w, set s { out with width := w } = { set s out with width := w })
    (hget : ∀ out w, get { out with width := w } = get out) :
      BackFrame (takeSeparators set get) := by
  intro out out' chars rest h
  unfold takeSeparators at h ⊢
  rcases hcomma : takeIf (· = ',') (fun _ => set .comma) out chars with ⟨out₁, chars₁⟩
  obtain ⟨taken, rfl, hall, -⟩ := takeIf_frame hcomma
  have hchars : ∀ c ∈ taken ++ chars₁, isBackChar c = true ∨ c ∈ chars₁ := by
    intro c hc
    rcases List.mem_append.1 hc with hc | hc
    · have hcomma := of_decide_eq_true (hall c hc)
      rw [hcomma]
      exact .inl rfl
    · exact .inr hc
  have hwidth := takeIf_width (fun _ out w => hset .comma out w) hcomma
  rw [hcomma] at h
  simp only [hwidth, hget]
  dsimp only at h
  split at h
  · next hunderscore =>
    split at h
    · cases h
    · next hsome =>
      cases h
      obtain ⟨tail, rfl⟩ := List.head?_eq_some_iff.1 hunderscore
      refine ⟨fun c hc => ?_, fun w => ?_⟩
      · rcases hchars c hc with hback | hmem
        · exact .inl hback
        · rcases List.mem_cons.1 hmem with rfl | hmem
          · exact .inl rfl
          · exact .inr hmem
      · rw [if_pos hunderscore, if_neg hsome, hset]
  · next hunderscore =>
    cases h
    refine ⟨hchars, fun w => ?_⟩
    rw [if_neg hunderscore]

/-- Reading the grouping does not see the width. -/
theorem takeGrouping_frame : BackFrame takeGrouping := by
  intro out out' chars rest h
  have hseparators :=
    @takeSeparators_frame (fun c out => { out with grouping := some c }) Spec.grouping
    (fun _ _ _ => rfl) fun _ _ => rfl
  unfold takeGrouping at h ⊢
  cases hread : takeSeparators (fun c out => { out with grouping := some c }) Spec.grouping out
    chars with
  | error e =>
    rw [hread] at h
    cases h
  | ok got =>
    obtain ⟨out₁, chars₁⟩ := got
    obtain ⟨hchars, hwidth⟩ := hseparators hread
    rw [hread] at h
    simp only [Except.bind] at h
    split at h
    · cases h
    · next hno =>
      cases h
      refine ⟨hchars, fun w => ?_⟩
      rw [hwidth w]
      simp only [Except.bind]
      rw [if_neg hno]

/-- Reading the precision does not see the width. -/
theorem takePrecision_frame : BackFrame takePrecision := by
  intro out out' chars rest h
  have hseparators :=
    @takeSeparators_frame (fun c out => { out with fracGrouping := some c }) Spec.fracGrouping
    (fun _ _ _ => rfl) fun _ _ => rfl
  unfold takePrecision at h ⊢
  split at h
  · next start =>
    have hdigits := numeralLoop_rest 0 false start
    rcases hloop : numeralLoop 0 false start with ⟨value, overflow, rest₁⟩
    rw [hloop] at hdigits
    simp only [hloop] at h ⊢
    split at h
    · cases h
    · next hfits =>
      cases hread : takeSeparators (fun c out => { out with
        fracGrouping := some c }) Spec.fracGrouping out rest₁ with
      | error e =>
        rw [hread] at h
        cases h
      | ok got =>
        obtain ⟨out₁, rest₂⟩ := got
        obtain ⟨hchars, hwidth⟩ := hseparators hread
        rw [hread] at h
        simp only [Except.bind] at h
        split at h
        · cases h
        · next hsome =>
          cases h
          refine ⟨fun c hc => ?_, fun w => ?_⟩
          · rcases List.mem_cons.1 hc with rfl | hc
            · exact .inl rfl
            · rw [← List.takeWhile_append_dropWhile (p := isAsciiDigit) (l := start),
                List.mem_append] at hc
              rcases hc with hc | hc
              · exact .inl (by simp [isBackChar, List.mem_takeWhile_imp hc])
              · exact hchars c (by rwa [← hdigits] at hc)
          · rw [if_neg hfits, hwidth w]
            simp only [Except.bind]
            rw [if_neg hsome]
  · next hno =>
    cases h
    exact ⟨fun c hc => .inr hc, fun w => rfl⟩

/-- The validation does not see the width. -/
theorem validate_width {out parsed : Spec} (h : validate out = .ok parsed) :
    parsed = out ∧ ∀ w, validate { out with width := w } = .ok { out with width := w } := by
  have hgrouped {out parsed : Spec} (h : validate.grouped out = .ok parsed) :
      parsed = out ∧ ∀ w, validate.grouped { out with width := w } = .ok { out with
        width := w } := by
    unfold validate.grouped at h ⊢
    cases hgrouping : out.grouping with
    | none =>
      rw [hgrouping] at h
      cases h
      exact ⟨rfl, fun w => rfl⟩
    | some separator =>
      simp only [hgrouping] at h ⊢
      split at h
      · next hany =>
        cases h
        exact ⟨rfl, fun w => if_pos hany⟩
      · next hany =>
        split at h
        · next hradix =>
          cases h
          exact ⟨rfl, fun w => by rw [if_neg hany, if_pos hradix]⟩
        · cases h
  unfold validate at h ⊢
  cases hfrac : out.fracGrouping with
  | none =>
    simp only [hfrac] at h ⊢
    simpa only [hfrac] using hgrouped h
  | some separator =>
    simp only [hfrac] at h ⊢
    split at h
    · cases h
    · next hn => simpa only [hfrac, if_neg hn] using hgrouped h

/-- The parts behind the width do not look at it. -/
theorem takeBack_frame {spec : List Char} {out parsed : Spec} {chars : List Char}
    (h : takeBack spec out chars = .ok parsed) :
    (∀ c ∈ chars, isBackChar c = true ∨ c = parsed.typeChar) ∧
      ∀ spec' w, takeBack spec' { out with width := w } chars = .ok { parsed with width := w } := by
  unfold takeBack at h ⊢
  cases hgrouping : takeGrouping out chars with
  | error e =>
    rw [hgrouping] at h
    cases h
  | ok got₁ =>
    obtain ⟨out₁, chars₁⟩ := got₁
    obtain ⟨hchars₁, hwidth₁⟩ := takeGrouping_frame hgrouping
    simp only [hgrouping, Except.bind] at h
    cases hprecision : takePrecision out₁ chars₁ with
    | error e =>
      rw [hprecision] at h
      cases h
    | ok got₂ =>
      obtain ⟨out₂, chars₂⟩ := got₂
      obtain ⟨hchars₂, hwidth₂⟩ := takePrecision_frame hprecision
      simp only [hprecision] at h
      simp only [hwidth₁, hwidth₂, Except.bind]
      have hfront : ∀ c ∈ chars, isBackChar c = true ∨ c ∈ chars₂ := by
        intro c hc
        rcases hchars₁ c hc with hback | hc
        · exact .inl hback
        · exact hchars₂ c hc
      rcases chars₂ with _ | ⟨c, _ | ⟨d, chars₂⟩⟩
      · obtain ⟨rfl, hvalid⟩ := validate_width h
        refine ⟨fun c hc => .inl ?_, fun _ w => hvalid w⟩
        rcases hfront c hc with hback | hc
        · exact hback
        · cases hc
      · obtain ⟨rfl, hvalid⟩ := validate_width h
        refine ⟨fun e he => ?_, fun _ w => hvalid w⟩
        rcases hfront e he with hback | he
        · exact .inl hback
        · exact .inr (List.mem_singleton.1 he)
      · cases h

/-! ## Without the width -/

/-- The text of a specification with the digits of its width taken out. -/
def withoutWidth (type : Char) (spec : List Char) : List Char :=
  let rest := (takeFront (.default type .right) spec).2
  spec.take (spec.length - rest.length) ++ rest.dropWhile isAsciiDigit

/-- A type that cannot be taken for a part in front of the width. -/
def IsPlainType (c : Char) : Prop := alignOf c = none ∧ isFlagChar c = false

/-- A character behind the width is no alignment, and a flag only if it is a zero. -/
theorem isBackChar_plain {c : Char} (h : isBackChar c = true) :
    alignOf c = none ∧ (isFlagChar c = true → c = '0') := by
  constructor
  · unfold alignOf
    split
    · cases h
    · cases h
    · cases h
    · cases h
    · rfl
  · intro hflag
    simp only [isFlagChar, Bool.or_eq_true, decide_eq_true_eq] at hflag
    rcases hflag with ((((rfl | rfl) | rfl) | rfl) | rfl) | rfl
    · cases h
    · cases h
    · cases h
    · cases h
    · cases h
    · rfl

/-- **Without its width** a specification is read as before, but for the width. -/
theorem parseSpec_withoutWidth {type : Char} {spec : List Char} {parsed : Spec}
    (h : parseSpec spec type .right = .ok parsed) (htype : IsPlainType parsed.typeChar) :
    parseSpec (withoutWidth type spec) type .right = .ok { parsed with width := none } := by
  unfold parseSpec withoutWidth at *
  rcases hfront : takeFront (.default type .right) spec with ⟨out, rest⟩
  obtain ⟨taken, rfl, hframe⟩ := takeFront_frame hfront
  have htaken : (taken ++ rest).take ((taken ++ rest).length - rest.length) = taken := by
    rw [List.length_append, Nat.add_sub_cancel, List.take_left]
  simp only [hfront] at h
  simp only [htaken]
  -- the width is read between a front and a back that do not see it
  rcases hloop : numeralLoop 0 false rest with ⟨value, overflow, back⟩
  have hback : back = rest.dropWhile isAsciiDigit := by
    have hrest := numeralLoop_rest 0 false rest
    rwa [hloop] at hrest
  have hhead : ∀ c, back.head? = some c → isAsciiDigit c = false := by
    intro c hc
    have hnot := List.head?_dropWhile_not isAsciiDigit rest
    rwa [← hback, hc] at hnot
  rw [← hback]
  simp only [takeWidth, hloop] at h
  split at h
  · cases h
  · simp only [Except.bind] at h
    obtain ⟨hchars, hagain⟩ := takeBack_frame h
    have hplain : ∀ c ∈ back, alignOf c = none := by
      intro c hc
      rcases hchars c hc with hc | rfl
      · exact (isBackChar_plain hc).1
      · exact htype.1
    have hflag : ∀ c, back.head? = some c → isFlagChar c = false := by
      intro c hc
      rcases hchars c (List.mem_of_mem_head? hc) with hback | rfl
      · by_contra hflag
        have hzero := (isBackChar_plain hback).2 (by simpa using hflag)
        have hdigit := hhead c hc
        rw [hzero] at hdigit
        cases hdigit
      · exact htype.2
    have hloop' : numeralLoop 0 false back = (0, false, back) := by
      cases back with
      | nil => rfl
      | cons c back => simp [numeralLoop, hhead c rfl]
    rw [hframe back (fun c hc => hplain c (List.mem_of_mem_take hc)) hflag]
    simp only [takeWidth, hloop', Bool.false_eq_true, if_false, if_true, Except.bind]
    exact hagain _ none

end RtpMux.Pyformat
