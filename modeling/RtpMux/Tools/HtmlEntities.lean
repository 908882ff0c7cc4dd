import RtpMux.Numerals
import Mathlib.Data.List.TakeWhile

/-!
# Character references

`unescape` of `tools/pyjson.rs` goes through a text and, at each `&`, looks at a window of twelve
characters: for one of seven named entities, then for a numeric reference. The width of a numeric
reference counts its `#` twice, so that the character behind it is lost with it. What `escape`
writes are entities of the list, and comes back whole.
-/

namespace RtpMux.Pyjson

open Numerals

/-! ## The scan -/

/-- The entities by name, and what they stand for. -/
def entities : List (List Char × Char) :=
  [("&amp;".toList, '&'), ("&lt;".toList, '<'), ("&gt;".toList, '>'), ("&quot;".toList, '"'),
    ("&#x27;".toList, '\''), ("&apos;".toList, '\''), ("&nbsp;".toList, '\u00a0')]

/-- The first entity that the window begins with: its width and its character. -/
def namedEntity (window : List Char) : Option (Nat × Char) :=
  entities.findSome? fun (entity, replacement) =>
    if entity.isPrefixOf window then some (entity.length, replacement) else none

/-- `char::from_u32`, with the replacement character for what is none. -/
def charOrReplacement (code : Nat) : Char := if code.isValidChar then Char.ofNat code else '\ufffd'

/-- The digits of a numeric reference behind its `&#`, their radix, and the source's `prefix`. -/
def numericDigits : List Char → List Char × Nat × Nat
  | 'x' :: hex => (hex, 16, 2)
  | 'X' :: hex => (hex, 16, 2)
  | body => (body, 10, 1)

/-- `numeric_entity`: the width and the code. -/
def numericEntity (window : List Char) : Option (Nat × Nat) :=
  match window with
  | '&' :: '#' :: body =>
    let (digits, radix, extra) := numericDigits body
    let text := digits.takeWhile (isDigit radix)
    if text = [] then none
    else
      let semicolon := if (digits.drop text.length).head? = some ';' then 1 else 0
      -- `u32::from_str_radix` fails where the value does not fit
      if valueOf radix text <
        2 ^ 32 then some (2 + extra + text.length + semicolon, valueOf radix text) else none
  | _ => none

/-- What one round of `unescape` writes, and how many characters it passes over. -/
def unescapeStep (chars : List Char) : Char × Nat :=
  match chars with
  | [] => ('&', 1)
  | c :: _ =>
    if c ≠ '&' then (c, 1)
    else
      match namedEntity (chars.take 12) with
      | some (width, replacement) => (replacement, width)
      | none =>
        match numericEntity (chars.take 12) with
        | some (width, code) => (charOrReplacement code, width)
        | none => ('&', 1)

/-- The loop, with at least as much fuel as there are characters. -/
def unescapeLoop : Nat → List Char → List Char
  | _, [] => []
  | 0, _ => []
  | fuel + 1, c :: rest =>
    let step := unescapeStep (c :: rest)
    step.1 :: unescapeLoop fuel ((c :: rest).drop step.2)

/-- `unescape`. -/
def unescape (chars : List Char) : List Char := unescapeLoop chars.length chars

example : unescape "a &amp; &#x2212;".toList = "a & \u2212".toList := by decide +kernel

/-! ## One round -/

/-- A named entity that is found stands at the front of the window. -/
theorem namedEntity_spec {window : List Char} {width : Nat} {replacement : Char}
    (h : namedEntity window = some (width, replacement)) :
    ∃ entity, (entity, replacement) ∈ entities ∧ entity <+: window ∧ width = entity.length := by
  obtain ⟨⟨entity, replacement'⟩, hmem, heq⟩ := List.exists_of_findSome?_eq_some h
  dsimp only at heq
  split at heq
  · next hfront =>
    simp only [Option.some.injEq, Prod.mk.injEq] at heq
    obtain ⟨rfl, rfl⟩ := heq
    exact ⟨entity, hmem, List.isPrefixOf_iff_prefix.1 hfront, rfl⟩
  · cases heq

/-- What a numeric reference passes over behind its `&#`, and one character more. -/
structure Consumed (window : List Char) (width : Nat) (consumed : List Char) : Prop where
  front : '&' :: '#' :: consumed <+: window
  width : width = consumed.length + 3
  head : ∃ c, consumed.head? = some c ∧ (c = 'x' ∨ c = 'X' ∨ isDigit 10 c = true)
  plain : '&' ∉ consumed

theorem not_isDigit_amp {radix : Nat} : isDigit radix '&' = false := by
  simp [isDigit, digitValue]

/-- The digits in front of a text and, if it is there, the semicolon behind them. -/
theorem digits_front {radix : Nat} (digits : List Char) :
    ∃ semicolon : List Char,
      digits.takeWhile (isDigit radix) ++ semicolon <+: digits ∧
        '&' ∉ digits.takeWhile (isDigit radix) ++ semicolon ∧
        semicolon.length =
          if (digits.drop (digits.takeWhile (isDigit radix)).length).head? = some ';' then 1
            else 0 := by
  have hplain : '&' ∉ digits.takeWhile (isDigit radix) := fun hmem => by
    have hdigit := List.mem_takeWhile_imp hmem
    rw [not_isDigit_amp] at hdigit
    cases hdigit
  have hsplit : digits = digits.takeWhile (isDigit radix) ++
      digits.drop (digits.takeWhile (isDigit radix)).length := by
    have hfront := List.prefix_iff_eq_append.1 (List.takeWhile_prefix (l := digits) (isDigit radix))
    exact hfront.symm
  by_cases hsemicolon : (digits.drop (digits.takeWhile (isDigit radix)).length).head? = some ';'
  · refine ⟨[';'], ?_, by simpa using hplain, (if_pos hsemicolon).symm⟩
    obtain ⟨more, hmore⟩ : ∃ more, digits.drop (digits.takeWhile (isDigit radix)).length = ';' ::
        more := by
      obtain ⟨more, hmore⟩ := List.head?_eq_some_iff.1 hsemicolon
      exact ⟨more, hmore⟩
    rw [hmore] at hsplit
    refine ⟨more, ?_⟩
    rw [List.append_assoc]
    exact hsplit.symm
  · exact ⟨[], by simpa using List.takeWhile_prefix (isDigit radix), by simpa using hplain,
      (if_neg hsemicolon).symm⟩

/-- A numeric reference is hexadecimal behind an x, else decimal. -/
theorem numericDigits_spec (body : List Char) :
    (∃ x digits, (x = 'x' ∨ x = 'X') ∧ body = x :: digits ∧ numericDigits body = (digits, 16, 2)) ∨
      numericDigits body = (body, 10, 1) := by
  unfold numericDigits
  split
  · exact .inl ⟨'x', _, .inl rfl, rfl, rfl⟩
  · exact .inl ⟨'X', _, .inr rfl, rfl, rfl⟩
  · exact .inr rfl

/-- A numeric entity consumes its digits and its semicolon. -/
theorem numericEntity_spec {window : List Char} {width code : Nat}
    (h : numericEntity window = some (width, code)) :
    ∃ consumed, Consumed window width consumed := by
  unfold numericEntity at h
  split at h
  · next body =>
    rcases numericDigits_spec body with ⟨x, digits, hx, rfl, hdigits⟩ | hdigits
    · obtain ⟨semicolon, hfront, hplain, hlength⟩ := @digits_front 16 digits
      rw [hdigits] at h
      dsimp only at h
      split at h
      · cases h
      · split at h
        · simp only [Option.some.injEq, Prod.mk.injEq] at h
          refine ⟨x :: (digits.takeWhile (isDigit 16) ++ semicolon), ?_, ?_,
            ⟨x, rfl, hx.imp_right .inl⟩, ?_⟩
          · simpa using hfront
          · rw [← h.1, ← hlength, List.length_cons, List.length_append]
            omega
          · have hne : '&' ≠ x := by
              rcases hx with rfl | rfl <;> decide
            simpa [hne] using hplain
        · cases h
    · obtain ⟨semicolon, hfront, hplain, hlength⟩ := @digits_front 10 body
      rw [hdigits] at h
      dsimp only at h
      split at h
      · cases h
      · next hne =>
        split at h
        · simp only [Option.some.injEq, Prod.mk.injEq] at h
          refine ⟨body.takeWhile (isDigit 10) ++ semicolon, ?_, ?_, ?_, hplain⟩
          · simpa using hfront
          · rw [← h.1, ← hlength, List.length_append]
            omega
          · obtain ⟨c, more, hc⟩ := List.exists_cons_of_ne_nil hne
            refine ⟨c, by rw [hc]; rfl, .inr (.inr ?_)⟩
            exact List.mem_takeWhile_imp (hc ▸ List.mem_cons_self)
        · cases h
  · cases h

/-- **One round.** At a `&` it writes that, or an entity of the list, or a numeric reference. -/
theorem unescapeStep_amp (rest : List Char) :
    unescapeStep ('&' :: rest) = ('&', 1) ∨
    (∃ entity replacement, (entity, replacement) ∈ entities ∧ entity <+: '&' :: rest ∧
      unescapeStep ('&' :: rest) = (replacement, entity.length)) ∨
    (∃ width code consumed, Consumed ('&' :: rest) width consumed ∧
      unescapeStep ('&' :: rest) = (charOrReplacement code, width)) := by
  have hwindow : ('&' :: rest).take 12 <+: '&' :: rest := List.take_prefix 12 _
  rw [unescapeStep, if_neg (by simp)]
  cases hnamed : namedEntity (('&' :: rest).take 12) with
  | some found =>
    obtain ⟨width, replacement⟩ := found
    obtain ⟨entity, hmem, hfront, rfl⟩ := namedEntity_spec hnamed
    exact .inr (.inl ⟨entity, replacement, hmem, hfront.trans hwindow, rfl⟩)
  | none =>
    cases hnumeric : numericEntity (('&' :: rest).take 12) with
    | none => exact .inl rfl
    | some found =>
      obtain ⟨width, code⟩ := found
      obtain ⟨consumed, hconsumed⟩ := numericEntity_spec hnumeric
      exact .inr (.inr ⟨width, code, consumed,
        ⟨hconsumed.front.trans hwindow, hconsumed.width, hconsumed.head, hconsumed.plain⟩, rfl⟩)

theorem entity_length_pos {entity : List Char} {replacement : Char}
    (h : (entity, replacement) ∈ entities) :
    0 < entity.length := by
  have hall : ∀ pair ∈ entities, 0 < pair.1.length := by decide
  exact hall _ h

/-- Every round passes over a character. -/
theorem unescapeStep_pos (chars : List Char) : 0 < (unescapeStep chars).2 := by
  cases chars with
  | nil => exact Nat.one_pos
  | cons c rest =>
    by_cases hc : c = '&'
    · subst hc
      rcases unescapeStep_amp rest with h | ⟨entity, replacement, hmem, -, h⟩ | ⟨width, code,
          consumed, hconsumed, h⟩
      · rw [h]
        exact Nat.one_pos
      · rw [h]
        exact entity_length_pos hmem
      · rw [h, hconsumed.width]
        exact Nat.succ_pos _
    · rw [unescapeStep, if_pos hc]
      exact Nat.one_pos

/-- The loop does not depend on its fuel, as long as there is enough. -/
theorem unescapeLoop_fuel (fuel fuel' : Nat) (chars : List Char) (h : chars.length ≤ fuel)
    (h' : chars.length ≤ fuel') : unescapeLoop fuel chars = unescapeLoop fuel' chars := by
  induction fuel generalizing fuel' chars with
  | zero =>
    obtain rfl : chars = [] := List.length_eq_zero_iff.1 (by omega)
    cases fuel' <;> rfl
  | succ fuel ih =>
    cases chars with
    | nil => cases fuel' <;> rfl
    | cons c rest =>
      obtain _ | fuel' := fuel'
      · simp at h'
      have hpos := unescapeStep_pos (c :: rest)
      rw [List.length_cons] at h h'
      rw [unescapeLoop, unescapeLoop, ih fuel']
      · rw [List.length_drop, List.length_cons]
        omega
      · rw [List.length_drop, List.length_cons]
        omega

/-- `unescape` goes one step at a time. -/
theorem unescape_cons (c : Char) (rest : List Char) :
    unescape (c :: rest) =
      (unescapeStep (c :: rest)).1 :: unescape ((c :: rest).drop (unescapeStep (c :: rest)).2) := by
  have hpos := unescapeStep_pos (c :: rest)
  rw [unescape, List.length_cons, unescapeLoop]
  refine congrArg _ (unescapeLoop_fuel _ _ _ ?_ (Nat.le_refl _))
  rw [List.length_drop, List.length_cons]
  omega

/-- A character that is no `&` is copied. -/
theorem unescape_cons_of_ne {c : Char} (rest : List Char) (h : c ≠ '&') :
    unescape (c :: rest) = c :: unescape rest := by
  rw [unescape_cons, unescapeStep, if_pos h]
  rfl

/-- A text without `&` is copied. -/
theorem unescape_append {before : List Char} (rest : List Char) (h : '&' ∉ before) :
    unescape (before ++ rest) = before ++ unescape rest := by
  induction before with
  | nil => rfl
  | cons c before ih =>
    rw [List.mem_cons, not_or] at h
    rw [List.cons_append, unescape_cons_of_ne _ (Ne.symm h.1), ih h.2, List.cons_append]

/-! ## The character behind a reference -/

/-- What can stand behind the `&` of an entity or of a numeric reference. -/
def entityLetters : List Char := ['a', 'l', 'g', 'q', '#', 'n']

/-- The second character of an entity is one of these letters, and not what it stands for. -/
theorem entity_second {entity : List Char} {replacement : Char}
    (h : (entity, replacement) ∈ entities) :
    ∃ e more, entity = '&' :: e :: more ∧ e ∈ entityLetters ∧ e ≠ replacement := by
  have hall : entities.all fun pair => entityLetters.any fun e => pair.1.take 2 = ['&', e] ∧
      e ≠ pair.2 := by decide
  obtain ⟨e, he, hfront⟩ := List.any_eq_true.1 (List.all_eq_true.1 hall _ h)
  obtain ⟨htake, hne⟩ := of_decide_eq_true hfront
  refine ⟨e, entity.drop 2, ?_, he, hne⟩
  calc entity = entity.take 2 ++ entity.drop 2 := (List.take_append_drop 2 entity).symm
    _ = '&' :: e :: entity.drop 2 := by rw [htake]; rfl

theorem ne_amp_of_mem_entityLetters {e : Char} (h : e ∈ entityLetters) : e ≠ '&' := by
  have hall : entityLetters.all (· ≠ '&') := by decide
  exact of_decide_eq_true (List.all_eq_true.1 hall e h)

/-- A round copies the character, or an entity or a reference begins there. -/
theorem unescape_cons_cases (c : Char) (rest : List Char) :
    unescape (c :: rest) = c :: unescape rest ∨ ∃ e more, rest = e :: more ∧ e ∈ entityLetters := by
  by_cases hc : c = '&'
  · subst hc
    rcases unescapeStep_amp rest with h | ⟨entity, replacement, hmem, hfront, -⟩ | ⟨width, code,
        consumed, hconsumed, -⟩
    · refine .inl ?_
      rw [unescape_cons, h]
      rfl
    · obtain ⟨e, more, rfl, he, -⟩ := entity_second hmem
      obtain ⟨after, hafter⟩ := hfront
      rw [List.cons_append, List.cons.injEq] at hafter
      exact .inr ⟨e, more ++ after, hafter.2.symm, he⟩
    · obtain ⟨after, hafter⟩ := hconsumed.front
      rw [List.cons_append, List.cons.injEq] at hafter
      exact .inr ⟨'#', consumed ++ after, hafter.2.symm, by decide⟩
  · exact .inl (unescape_cons_of_ne rest hc)

/-- Losing the first character of a text does not put other text in front of the result. -/
theorem unescape_drop_ne_append {c : Char} (more chars : List Char) (hc : c ∉ entityLetters) :
    unescape (chars.drop 1) ≠ c :: more ++ unescape chars := by
  intro heq
  cases chars with
  | nil => cases heq
  | cons d rest =>
    rw [List.drop_one, List.tail_cons] at heq
    rcases unescape_cons_cases d rest with hcopied | ⟨e, after, rfl, he⟩
    · rw [hcopied] at heq
      have hlength := congrArg List.length heq
      simp only [List.length_append, List.length_cons] at hlength
      omega
    · rw [unescape_cons_of_ne after (ne_amp_of_mem_entityLetters he), List.cons_append,
        List.cons.injEq] at heq
      exact hc (heq.1 ▸ he)

/-- A digit or an x begins no named entity. -/
theorem not_mem_entityLetters {c : Char} (h : c = 'x' ∨ c = 'X' ∨ isDigit 10 c = true) :
    c ∉ entityLetters := by
  have hall : entityLetters.all fun e => ¬ (e = 'x' ∨ e = 'X' ∨ isDigit 10 e = true) := by decide
  exact fun hmem => of_decide_eq_true (List.all_eq_true.1 hall c hmem) h

/-- Losing the first character of a text always shows. -/
theorem unescape_drop_ne {chars : List Char} (hne : chars ≠ []) :
    unescape (chars.drop 1) ≠ unescape chars := by
  obtain ⟨c, rest, rfl⟩ := List.exists_cons_of_ne_nil hne
  rw [List.drop_one, List.tail_cons]
  intro heq
  have hcopied : unescape (c :: rest) ≠ c :: unescape rest := by
    intro hcopied
    have hlength := congrArg List.length (heq.trans hcopied)
    rw [List.length_cons] at hlength
    omega
  by_cases hc : c = '&'
  · subst hc
    rcases unescapeStep_amp rest with h | ⟨entity, replacement, hmem, hfront, h⟩ |
      ⟨width, code, consumed, hconsumed, h⟩
    · refine hcopied ?_
      rw [unescape_cons, h]
      rfl
    · -- the entity's second letter would have to be what it stands for
      obtain ⟨e, more, rfl, he, hne⟩ := entity_second hmem
      obtain ⟨after, hafter⟩ := hfront
      rw [List.cons_append, List.cons.injEq] at hafter
      rw [unescape_cons, h, ← hafter.2, List.cons_append,
        unescape_cons_of_ne _ (ne_amp_of_mem_entityLetters he), List.cons.injEq] at heq
      exact hne heq.1
    · -- behind the `#` the digits would have to come out of what follows them
      obtain ⟨after, hafter⟩ := hconsumed.front
      obtain ⟨d, hd, hdigit⟩ := hconsumed.head
      obtain ⟨more, hmore⟩ := List.head?_eq_some_iff.1 hd
      have hrest : rest = '#' :: (consumed ++ after) := by
        rw [List.cons_append, List.cons.injEq] at hafter
        exact hafter.2.symm
      have hdrop : ('&' :: rest).drop width = after.drop 1 := by
        have hwidth : width = ('&' :: '#' :: consumed).length + 1 := by
          rw [hconsumed.width, List.length_cons, List.length_cons]
        rw [← hafter, hwidth, List.drop_append]
        simp
      rw [unescape_cons, h, hdrop, hrest, unescape_cons_of_ne _ (by decide), List.cons.injEq,
        unescape_append after hconsumed.plain, hmore] at heq
      exact unescape_drop_ne_append more after (not_mem_entityLetters hdigit) heq.2.symm
  · exact hcopied (unescape_cons_of_ne rest hc)

/-! ## Numeric references -/

/-- The references of a character by number, of at most six digits. -/
inductive Reference (c : Char) : List Char → Prop
  | decimal {digits : List Char} : digits ≠ [] → digits.length ≤ 6 →
    (∀ d ∈ digits, isDigit 10 d = true) →
      valueOf 10 digits = c.toNat → Reference c ('&' :: '#' :: (digits ++ [';']))
  | hex {digits : List Char} : digits ≠ [] → digits.length ≤ 6 →
    (∀ d ∈ digits, isDigit 16 d = true) →
      valueOf 16 digits = c.toNat → Reference c ('&' :: '#' :: 'x' :: (digits ++ [';']))

/-- The code of a character is read back. -/
theorem charOrReplacement_toNat (c : Char) : charOrReplacement c.toNat = c := by
  have hvalid : c.toNat.isValidChar := c.valid
  rw [charOrReplacement, if_pos hvalid, Char.ofNat_toNat]

/-- Among the named entities only that of the quote begins with `&#`. -/
theorem namedEntity_numeric (body : List Char) :
    namedEntity ('&' :: '#' :: body) = if ['x', '2', '7', ';'].isPrefixOf body then some (6, '\'')
      else none := by
  have hentities : entities =
      [(['&', 'a', 'm', 'p', ';'], '&'), (['&', 'l', 't', ';'], '<'), (['&', 'g', 't', ';'], '>'),
      (['&', 'q', 'u', 'o', 't', ';'], '"'), (['&', '#', 'x', '2', '7', ';'], '\''),
      (['&', 'a', 'p', 'o', 's', ';'], '\''),
        (['&', 'n', 'b', 's', 'p', ';'], '\u00a0')] := by decide
  rw [namedEntity, hentities]
  cases hquote : ['x', '2', '7', ';'].isPrefixOf body <;> simp [List.findSome?,
    List.isPrefixOf, hquote]

/-- The digits of a reference end at its semicolon. -/
theorem takeWhile_digits {radix : Nat} {digits : List Char} (tail : List Char)
    (hdigits : ∀ d ∈ digits, isDigit radix d = true) :
    (digits ++ ';' :: tail).takeWhile (isDigit radix) = digits := by
  have hsemicolon : isDigit radix ';' = false := by simp [isDigit, digitValue]
  rw [List.takeWhile_append_of_pos hdigits, List.takeWhile_cons_of_neg (by simp [hsemicolon]),
    List.append_nil]

/-- The numeric reference at the front of a window; `extra` is one more than the letters of its
radix. -/
theorem numericEntity_reference {body digits tail : List Char} {radix extra : Nat}
    (hbody : numericDigits body = (digits ++ ';' :: tail, radix, extra)) (hne : digits ≠ [])
    (hdigits : ∀ d ∈ digits, isDigit radix d = true) (hvalue : valueOf radix digits < 2 ^ 32) :
    numericEntity ('&' :: '#' :: body) =
      some (2 + extra + digits.length + 1, valueOf radix digits) := by
  have htake := takeWhile_digits tail hdigits
  simp only [numericEntity, hbody, htake, if_neg hne, if_pos hvalue]
  simp

theorem digit_ne_x {d : Char} (h : isDigit 10 d = true) : d ≠ 'x' ∧ d ≠ 'X' := by
  refine ⟨?_, ?_⟩ <;> rintro rfl <;> simp [isDigit, digitValue] at h

/-- Digits without an x are decimal. -/
theorem numericDigits_decimal {digits tail : List Char} (hne : digits ≠ [])
    (hdigits : ∀ d ∈ digits, isDigit 10 d = true) :
    numericDigits (digits ++ tail) = (digits ++ tail, 10, 1) := by
  obtain ⟨d, more, rfl⟩ := List.exists_cons_of_ne_nil hne
  obtain ⟨hx, hX⟩ := digit_ne_x (hdigits d List.mem_cons_self)
  rw [List.cons_append, numericDigits]
  · exact fun _ heq => hx (List.cons.inj heq).1
  · exact fun _ heq => hX (List.cons.inj heq).1

theorem toNat_lt (c : Char) : c.toNat < 2 ^ 32 := c.val.toNat_lt

/-- The round at a reference that is no entity of the list. -/
theorem unescape_numeric {body window after : List Char} {width code : Nat}
    (hwindow : body.take 10 = window)
    (hnamed : namedEntity ('&' :: '#' :: window) = none)
    (hnumeric : numericEntity ('&' :: '#' :: window) = some (width, code))
    (hafter : ('&' :: '#' :: body).drop width = after) :
    unescape ('&' :: '#' :: body) = charOrReplacement code :: unescape after := by
  have hstep : unescapeStep ('&' :: '#' :: body) = (charOrReplacement code, width) := by
    simp [unescapeStep, hwindow, hnamed, hnumeric]
  rw [unescape_cons, hstep, hafter]

/-- A width one too large drops the character behind the reference. -/
theorem drop_reference (reference after : List Char) :
    (reference ++ after).drop (reference.length + 1) = after.drop 1 := by
  rw [List.drop_append]
  simp

/-- A reference is read, and one character more is passed over, unless the reference is an entity of
the list. -/
theorem unescape_reference {c : Char} {reference : List Char} (h : Reference c reference)
    (after : List Char) :
    unescape (reference ++ after) =
      c :: unescape (if reference = ['&', '#', 'x', '2', '7', ';'] then after
        else after.drop 1) := by
  -- a reference is no named entity, so the loop reaches the numeric branch
  cases h with
  | @decimal digits hne hlength hdigits hvalue =>
    have hx : ∀ tail, ['x', '2', '7', ';'].isPrefixOf (digits ++ tail) = false := by
      intro tail
      obtain ⟨d, more, rfl⟩ := List.exists_cons_of_ne_nil hne
      simp [List.isPrefixOf, Ne.symm (digit_ne_x (hdigits d List.mem_cons_self)).1]
    have hquote : '&' :: '#' :: (digits ++ [';']) ≠ ['&', '#', 'x', '2', '7', ';'] := by
      intro heq
      simp only [List.cons.injEq, true_and] at heq
      have hfalse := hx [';']
      rw [heq] at hfalse
      exact absurd hfalse (by decide)
    have hwindow : (digits ++ ';' :: after).take 10 = digits ++ ';' ::
        after.take (9 - digits.length) := by
      rw [List.take_append, List.take_of_length_le (by omega)]
      have hfits : 10 - digits.length = (9 - digits.length) + 1 := by omega
      rw [hfits, List.take_succ_cons]
    have hnumeric := @numericEntity_reference _ _ (after.take (9 - digits.length)) _ _
      (numericDigits_decimal hne hdigits) hne hdigits (hvalue.symm ▸ toNat_lt c)
    rw [if_neg hquote, ← charOrReplacement_toNat c, ← hvalue]
    simp only [List.cons_append, List.append_assoc, List.nil_append]
    refine unescape_numeric hwindow ?_ hnumeric ?_
    · rw [namedEntity_numeric, hx, if_neg (by decide)]
    · have hdrop := drop_reference ('&' :: '#' :: (digits ++ [';'])) after
      simp only [List.length_cons, List.length_append, List.length_nil, List.cons_append,
        List.append_assoc,
        List.nil_append] at hdrop
      rw [← hdrop]
      congr 1
      omega
  | @hex digits hne hlength hdigits hvalue =>
    by_cases hquote : '&' :: '#' :: 'x' :: (digits ++ [';']) = ['&', '#', 'x', '2', '7', ';']
    · -- the entity of the list, with its own width
      obtain rfl : digits = ['2', '7'] := by
        simp only [List.cons.injEq, true_and] at hquote
        exact (List.append_left_inj [';']).1 (hquote : digits ++ [';'] = ['2', '7'] ++ [';'])
      have hc : c = '\'' := by
        rw [← charOrReplacement_toNat c, ← hvalue]
        decide
      have hnamed : namedEntity ('&' :: '#' :: 'x' :: '2' :: '7' :: ';' :: after.take 6) =
          some (6, '\'') := by
        rw [namedEntity_numeric]
        exact if_pos (List.isPrefixOf_iff_prefix.2 (List.prefix_append ['x', '2', '7', ';'] _))
      have hstep : unescapeStep ('&' :: '#' :: 'x' :: '2' :: '7' :: ';' :: after) = ('\'', 6) := by
        simp [unescapeStep, hnamed]
      rw [if_pos hquote, hc]
      simp only [List.cons_append, List.nil_append]
      rw [unescape_cons, hstep]
      rfl
    · have hx : ∀ tail, ['x', '2', '7', ';'].isPrefixOf ('x' :: (digits ++ ';' :: tail)) =
          false := by
        intro tail
        by_contra hfront
        rw [Bool.not_eq_false, List.isPrefixOf_iff_prefix, List.cons_prefix_cons] at hfront
        refine hquote ?_
        have htake := takeWhile_digits tail hdigits
        obtain ⟨more, hmore⟩ := hfront.2
        rw [← hmore, List.cons_append, List.cons_append, List.cons_append] at htake
        have hdigits' : digits = ['2', '7'] := htake.symm.trans (by simp [isDigit, digitValue])
        rw [hdigits']
        rfl
      have hwindow : ('x' :: (digits ++ ';' :: after)).take 10 =
          'x' :: (digits ++ ';' :: after.take (8 - digits.length)) := by
        rw [List.take_succ_cons, List.take_append, List.take_of_length_le (by omega)]
        have hfits : 9 - digits.length = (8 - digits.length) + 1 := by omega
        rw [hfits, List.take_succ_cons]
      have hnumeric := @numericEntity_reference
          ('x' :: (digits ++ ';' :: after.take (8 - digits.length))) digits
        (after.take (8 - digits.length)) 16 2 rfl hne hdigits (hvalue.symm ▸ toNat_lt c)
      rw [if_neg hquote, ← charOrReplacement_toNat c, ← hvalue]
      simp only [List.cons_append, List.append_assoc, List.nil_append]
      refine unescape_numeric hwindow ?_ hnumeric ?_
      · rw [namedEntity_numeric, hx, if_neg (by decide)]
      · have hdrop := drop_reference ('&' :: '#' :: 'x' :: (digits ++ [';'])) after
        simp only [List.length_cons, List.length_append, List.length_nil, List.cons_append,
          List.append_assoc,
          List.nil_append] at hdrop
        rw [← hdrop]
        congr 1
        omega

/-- **References by number.** In front of a text, a reference by number comes out as its character
with that text behind it exactly where there is no text behind it or the reference is `&#x27;`. -/
theorem unescape_reference_iff (before : List Char) (hbefore : '&' ∉ before) (c : Char)
    (reference : List Char)
    (h : Reference c reference) (after : List Char) :
    unescape (before ++ reference ++ after) = before ++ [c] ++ unescape after ↔
      after = [] ∨ reference = ['&', '#', 'x', '2', '7', ';'] := by
  rw [List.append_assoc, unescape_append _ hbefore, unescape_reference h, List.append_assoc,
    List.append_cancel_left_eq,
    List.singleton_append, List.cons.injEq]
  by_cases hquote : reference = ['&', '#', 'x', '2', '7', ';']
  · simp [hquote]
  · rw [if_neg hquote]
    refine ⟨fun heq => .inl ?_, fun hafter => ?_⟩
    · by_contra hne
      exact unescape_drop_ne hne heq.2
    · rw [hafter.resolve_right hquote]
      exact ⟨rfl, rfl⟩

theorem reference_letter : Reference 'A' ['&', '#', '6', '5', ';'] :=
  @Reference.decimal 'A' ['6', '5'] (by decide) (by decide) (List.all_eq_true.1 (by decide))
    (by decide)

/-- A reference at the end of a text loses nothing. -/
theorem unescape_reference_iff_letter :
    unescape (['a'] ++ ['&', '#', '6', '5', ';'] ++ []) = ['a'] ++ ['A'] ++ unescape [] :=
  (unescape_reference_iff ['a'] (by decide) 'A' _ reference_letter []).2 (.inl rfl)

/-- The character behind the reference of a letter is lost. -/
theorem unescape_loses_character :
    Reference 'A' ['&', '#', '6', '5', ';'] ∧
      unescape ([] ++ ['&', '#', '6', '5', ';'] ++ ['b']) = ['A'] ∧
      unescape ([] ++ ['&', '#', '6', '5', ';'] ++ ['b']) ≠ [] ++ ['A'] ++ unescape ['b'] :=
  ⟨reference_letter, by decide +kernel, by decide +kernel⟩

/-! ## Escaping -/

/-- What `escape` writes for a character. -/
def escapeChar (character : Char) : List Char :=
  match character with
  | '&' => "&amp;".toList
  | '<' => "&lt;".toList
  | '>' => "&gt;".toList
  | '"' => "&quot;".toList
  | '\'' => "&#x27;".toList
  | other => [other]

/-- `escape`. -/
def escape (text : List Char) : List Char := text.flatMap escapeChar

/-- No entity of the list begins another, so the one that stands in the window is found. -/
theorem namedEntity_of_mem {entity window : List Char} {replacement : Char}
    (hmem : (entity, replacement) ∈ entities)
    (hfront : entity <+: window) : namedEntity window = some (entity.length, replacement) := by
  have hfree : entities.all fun pair => entities.all fun other =>
    ¬ pair.1.isPrefixOf other.1 || pair = other := by decide
  have hunique {pair other : List Char × Char} (hpair : pair ∈ entities) (hother : other ∈ entities)
      (h : pair.1 <+: other.1) : pair = other := by
    have hfound := List.all_eq_true.1 (List.all_eq_true.1 hfree pair hpair) other hother
    simpa [List.isPrefixOf_iff_prefix.2 h] using hfound
  have hsome : (namedEntity window).isSome := by
    rw [namedEntity, List.findSome?_isSome_iff]
    exact ⟨_, hmem, by simp [List.isPrefixOf_iff_prefix.2 hfront]⟩
  obtain ⟨⟨width, replacement'⟩, hfound⟩ := Option.isSome_iff_exists.1 hsome
  obtain ⟨entity', hmem', hfront', rfl⟩ := namedEntity_spec hfound
  have hsame : (entity', replacement') = (entity, replacement) := by
    rcases List.prefix_or_prefix_of_prefix hfront' hfront with h | h
    · exact hunique hmem' hmem h
    · exact (hunique hmem hmem' h).symm
  cases hsame
  exact hfound

/-- An entity of the list is read whatever follows it. -/
theorem unescape_entity {entity : List Char} {replacement : Char}
    (h : (entity, replacement) ∈ entities)
    (rest : List Char) : unescape (entity ++ rest) = replacement :: unescape rest := by
  have hfits : entities.all fun pair => pair.1.length ≤ 12 := by decide
  have hlength : entity.length ≤ 12 := of_decide_eq_true (List.all_eq_true.1 hfits _ h)
  have hwindow : entity <+: (entity ++ rest).take 12 := by
    rw [List.take_append, List.take_of_length_le hlength]
    exact List.prefix_append _ _
  have hnamed := namedEntity_of_mem h hwindow
  obtain ⟨e, more, rfl, -, -⟩ := entity_second h
  rw [List.cons_append] at hnamed ⊢
  have hstep : unescapeStep ('&' :: (e :: more ++ rest)) =
      (replacement, ('&' :: e :: more).length) := by
    rw [unescapeStep, if_neg (by simp), hnamed]
  have hdrop : (('&' :: e :: more) ++ rest).drop ('&' :: e :: more).length = rest := List.drop_left
  rw [List.cons_append] at hdrop
  rw [unescape_cons, hstep, hdrop]

/-- What is written for a character is copied or an entity of the list. -/
theorem escapeChar_cases (c : Char) :
    (c ≠ '&' ∧ escapeChar c = [c]) ∨ (escapeChar c, c) ∈ entities := by
  unfold escapeChar
  split
  · exact .inr (by decide)
  · exact .inr (by decide)
  · exact .inr (by decide)
  · exact .inr (by decide)
  · exact .inr (by decide)
  · next h _ _ _ _ => exact .inl ⟨h, rfl⟩

/-- A character that was escaped is read back. -/
theorem unescape_escapeChar (c : Char) (rest : List Char) :
    unescape (escapeChar c ++ rest) = c :: unescape rest := by
  rcases escapeChar_cases c with ⟨hne, hcopied⟩ | hmem
  · rw [hcopied]
    exact unescape_cons_of_ne rest hne
  · exact unescape_entity hmem rest

/-- **Escaping is inverted**, whatever follows the escaped text. -/
theorem unescape_escape_append (t u : List Char) :
    unescape (escape t) = t ∧ unescape (escape t ++ u) = t ++ unescape u := by
  have happend (u : List Char) : unescape (escape t ++ u) = t ++ unescape u := by
    induction t with
    | nil => rfl
    | cons c t ih =>
      rw [escape, List.flatMap_cons, List.append_assoc, unescape_escapeChar, List.cons_append]
      exact congrArg _ ih
  refine ⟨?_, happend u⟩
  have hend : unescape [] = [] := rfl
  simpa [hend] using happend []

example : unescape (escape "<&lt;>".toList ++ "&lt;".toList) = "<&lt;><".toList := by decide +kernel

end RtpMux.Pyjson
