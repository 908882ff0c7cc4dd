import RtpMux.Tools.JsonReader

/-!
# What a parser makes of a tree

A parser of the family reads a tree and evaluates it as it goes. Here the two are taken apart:
`evalTree` says what a dialect makes of a tree, or that it refuses it, and `parse_iff` that a text
is read as a value just where it is the text of a document that evaluates to it. What is refused is
refused at some other place then, which is all that the separation forgets.
-/

namespace RtpMux.JsonReader

open Text (isAsciiDigit isAsciiWhitespace)
open JsonTree

variable {F : Type}

/-! ## Evaluation -/

/-- Whether a point or an exponent stands in a numeral. -/
def isFloat (n : Numeral) : Bool := n.fraction.isSome || n.power.isSome

namespace Dialect

/-- The character that an element of a string stands for. -/
def evalElement (d : Dialect F) : Element → Option Char
  | .bare c _ => if d.refusesControl = true ∧ c.toNat < 0x20 then none else some c
  | .short c _ => shortEscape c
  | .unicode a b c e => (unicodeEscape [a, b, c, e]).toOption

/-- The characters of a string, if all of its elements stand for one. -/
def evalElements (d : Dialect F) : List Element → Option (List Char)
  | [] => some []
  | element :: elements =>
    (d.evalElement element).bind fun character => (d.evalElements elements).map (character :: ·)

/-- The key of a member. -/
def evalName (d : Dialect F) (name : Name) : Option String :=
  (d.evalElements name.key).map String.ofList

/-- The members put into an object one after the other. -/
def insertAll (d : Dialect F) (members : List (String × Value F)) (more : List (String × Value F)) :
    List (String × Value F) :=
  more.foldl (fun members (key, value) => d.insert members key value) members

mutual

/-- The value that a dialect reads, `none` where it refuses. -/
def evalTree (d : Dialect F) : Tree → Option (Value F)
  | .word .null => some .null
  | .word .true => some (.bool true)
  | .word .false => some (.bool false)
  | .str elements => (d.evalElements elements).map fun text => .str (String.ofList text)
  | .number n => d.convert n.text (isFloat n)
  | .emptyArray _ => some (.array [])
  | .array items => (d.evalItems items).map .array
  | .emptyObject _ => some (.object [])
  | .object members => (d.evalMembers members).map fun members => .object (d.insertAll [] members)

/-- The values of the items of an array. -/
def evalItems (d : Dialect F) : Items → Option (List (Value F))
  | .last _ item _ => (d.evalTree item).map fun value => [value]
  | .cons _ item _ items => (d.evalTree item).bind fun value => (d.evalItems items).map (value :: ·)

/-- The keys and values of the members of an object, in the order of the text. -/
def evalMembers (d : Dialect F) : Members → Option (List (String × Value F))
  | .last name value _ =>
    (d.evalName name).bind fun key => (d.evalTree value).map fun value => [(key, value)]
  | .cons name value _ members =>
    (d.evalName name).bind fun key =>
      (d.evalTree value).bind fun value => (d.evalMembers members).map ((key, value) :: ·)

end

end Dialect

/-! ## Strings and numbers -/

theorem toOption_bind {ε α β : Type} (x : Except ε α) (f : α → Except ε β) :
    (x.bind f).toOption = x.toOption.bind fun a => (f a).toOption := by
  cases x <;> rfl

theorem toOption_eq_some {ε α : Type} {x : Except ε α} {a : α} : x.toOption = some a ↔
    x = .ok a := by
  cases x <;> simp [Except.toOption]

theorem skipWhitespace_eq (text : List Char) :
    skipWhitespace text = Run.rest isAsciiWhitespace text := rfl

/-- Skipping twice is skipping once. -/
theorem skipWhitespace_skip (text : List Char) :
    skipWhitespace (skipWhitespace text) = skipWhitespace text := by
  have hends := Run.ends_rest isAsciiWhitespace text
  have hrest := Run.rest_append (⟨[], fun _ h => by cases h⟩ : Run isAsciiWhitespace) hends
  exact hrest

/-- One character of a string. -/
theorem string_append (d : Dialect F) (out : List Char) (element : Element) (rest : List Char) :
    (d.string out (element.text ++ rest)).toOption =
      (d.evalElement element).bind fun character =>
        (d.string (out ++ [character]) rest).toOption := by
  cases element with
  | bare c h =>
    rw [Element.text, List.singleton_append, Dialect.string.eq_def]
    simp only [Dialect.evalElement, h.1, h.2, if_false]
    split
    · rfl
    · rfl
  | short c h =>
    have hcontrol : ¬ (d.refusesControl = true ∧ '\\'.toNat < 0x20) :=
      fun h => absurd h.2 (by decide)
    rw [Element.text, Dialect.string.eq_def]
    simp only [List.cons_append, List.nil_append, hcontrol, if_false, h, Dialect.evalElement]
    cases shortEscape c <;> rfl
  | unicode a b c e =>
    have hcontrol : ¬ (d.refusesControl = true ∧ '\\'.toNat < 0x20) :=
      fun h => absurd h.2 (by decide)
    rw [Element.text, Dialect.string.eq_def]
    simp only [List.cons_append, List.nil_append, hcontrol, if_false, Dialect.evalElement]
    cases unicodeEscape [a, b, c, e] <;> rfl

/-- A string as a tree's elements and their evaluation. -/
def StringEq (d : Dialect F) (text : List Char) : Prop :=
  ∀ out, (d.string out text).toOption = (readElements text).bind fun (elements, rest) =>
    (d.evalElements elements).map fun more => (out ++ more, rest)

/-- If the reader and the tree agree on a text, they do with an element in front. -/
theorem StringEq.append {d : Dialect F} {rest : List Char} (h : StringEq d rest)
    (element : Element) :
    StringEq d (element.text ++ rest) := by
  intro out
  rw [string_append, readElements_append]
  cases hread : readElements rest with
  | none =>
    simp only [h _, hread, Option.map_none, Option.bind_none, Option.bind_fun_none]
  | some got =>
    obtain ⟨elements, behind⟩ := got
    simp only [h _, hread, Option.map_some, Option.bind_some, Dialect.evalElements]
    cases d.evalElement element with
    | none => rfl
    | some character =>
      cases d.evalElements elements with
      | none => rfl
      | some more => simp

/-- A string is read by the reader as by the tree. -/
theorem string_eq (d : Dialect F) (text : List Char) : StringEq d text := by
  fun_induction readElements text with
  | case1 =>
    intro out
    rfl
  | case2 rest =>
    intro out
    rw [Dialect.string.eq_def, readElements_quote]
    simp [Dialect.evalElements, Except.toOption]
  | case3 =>
    intro out
    rw [Dialect.string.eq_def]
    simp [Except.toOption, readElements]
  | case4 a b c e rest _ ih => exact ih.append (.unicode a b c e)
  | case5 rest hshort _ =>
    intro out
    rw [Dialect.string.eq_def, readElements.eq_def]
    -- fewer than four characters are left
    rcases rest with _ | ⟨a, _ | ⟨b, _ | ⟨c, _ | ⟨e, tail⟩⟩⟩⟩
    · simp [Except.toOption]
    · simp [Except.toOption]
    · simp [Except.toOption]
    · simp [Except.toOption]
    · exact absurd rfl (hshort a b c e tail)
  | case6 e _ hshort rest ih => exact ih.append (.short e hshort)
  | case7 c rest hquote hescape ih => exact ih.append (.bare c ⟨hquote, hescape⟩)

/-- The sign is scanned by the reader as by the tree. -/
theorem scanSign_eq (text : List Char) :
    scanSign text = (signText (readSign text).1, (readSign text).2) := by
  cases text with
  | nil => rfl
  | cons c text =>
    by_cases hc : c = '-'
    · subst hc
      rfl
    · simp [scanSign, readSign, hc, signText]

/-- The fraction is scanned by the reader as by the tree. -/
theorem scanFraction_eq (text : List Char) :
    scanFraction text = (fractionText (readFraction text).1, (readFraction text).2) := by
  cases text with
  | nil => rfl
  | cons c text =>
    by_cases hc : c = '.'
    · subst hc
      rfl
    · simp [scanFraction, readFraction, hc, fractionText]

/-- The sign of the exponent is scanned by the reader as by the tree. -/
theorem scanExponentSign_eq (text : List Char) :
    scanExponentSign text = (powerSignText (readPowerSign text).1, (readPowerSign text).2) := by
  cases text with
  | nil => rfl
  | cons c text =>
    by_cases hplus : c = '+'
    · subst hplus
      rfl
    by_cases hminus : c = '-'
    · subst hminus
      rfl
    · simp [scanExponentSign, readPowerSign, hplus, hminus, powerSignText]

/-- The exponent is scanned by the reader as by the tree. -/
theorem scanExponent_eq (text : List Char) :
    scanExponent text = (powerText (readPower text).1, (readPower text).2) := by
  cases text with
  | nil => rfl
  | cons c text =>
    rw [scanExponent, scanExponentSign_eq]
    by_cases hlower : c = 'e'
    · subst hlower
      rfl
    by_cases hupper : c = 'E'
    · subst hupper
      rfl
    · simp [readPower, hlower, hupper, powerText]

theorem fractionText_ne_nil (fraction : Option Digits) : fractionText fraction ≠ [] ↔
    fraction.isSome = true := by
  cases fraction <;> simp [fractionText]

theorem powerText_ne_nil (power : Option Power) : powerText power ≠ [] ↔ power.isSome = true := by
  cases power <;> simp [powerText]

/-- The text of a number is that of the longest numeral. -/
theorem scanNumber_eq {text rest : List Char} {n : Numeral}
    (h : Numeral.read text = some (n, rest)) :
    scanNumber text = (n.text, isFloat n, rest) := by
  unfold Numeral.read at h
  simp only at h
  split at h
  · cases h
    simp only [scanNumber, scanSign_eq, scanFraction_eq, scanExponent_eq, fractionText_ne_nil,
      powerText_ne_nil,
      isFloat, Numeral.text, Bool.decide_or, Bool.decide_eq_true]
    rfl
  · cases h

/-- A numeral stands in front where the first character is a minus sign or a digit. -/
theorem isSome_readNumeral (text : List Char) :
    (Numeral.read text).isSome = text.head?.any fun c => c = '-' || isAsciiDigit c := by
  cases text with
  | nil => rfl
  | cons c text =>
    by_cases hc : c = '-'
    · subst hc
      simp [Numeral.read, readSign]
    · by_cases hdigit : isAsciiDigit c = true
      · simp [Numeral.read, readSign, hc, hdigit, Run.take]
      · simp [Numeral.read, readSign, hc, hdigit, Run.take]

/-- A number is read by the reader as by the tree. -/
theorem number_eq (d : Dialect F) (text : List Char) :
    (if text.head?.any fun c => c = '-' || isAsciiDigit c then d.number text
      else .error (.unexpected text) : Except Error _).toOption =
      (Numeral.read text).bind fun (n, rest) => (d.convert n.text (isFloat n)).map fun value =>
        (value, rest) := by
  rw [← isSome_readNumeral]
  cases hread : Numeral.read text with
  | none => rfl
  | some got =>
    obtain ⟨n, rest⟩ := got
    simp only [Option.isSome_some, if_true, Option.bind_some, Dialect.number, scanNumber_eq hread]
    cases d.convert n.text (isFloat n) <;> rfl

/-- A literal is read by the reader as by the tree. -/
theorem literal_eq (w : Word) {α : Type} (value : α) (text : List Char) :
    ((literal (String.ofList w.text) text).bind fun rest => .ok (value, rest)).toOption =
      (w.read text).map fun (_, rest) => (value, rest) := by
  unfold literal Word.read
  rw [String.toList_ofList]
  split <;> rfl

/-! ## The parser -/

/-- A value may be preceded by white space. -/
theorem value_skip (d : Dialect F) (fuel : Nat) (text : List Char) :
    d.value fuel (skipWhitespace text) = d.value fuel text := by
  cases fuel with
  | zero => rfl
  | succ fuel => rw [Dialect.value, Dialect.value, skipWhitespace_skip]

/-- Items may be preceded by white space. -/
theorem items_skip (d : Dialect F) (fuel : Nat) (items : List (Value F)) (text : List Char) :
    d.items fuel items (skipWhitespace text) = d.items fuel items text := by
  cases fuel with
  | zero => rfl
  | succ fuel => rw [Dialect.items, Dialect.items, value_skip]

/-- Members may be preceded by white space. -/
theorem members_skip (d : Dialect F) (fuel : Nat) (members : List (String × Value F))
    (text : List Char) :
    d.members fuel members (skipWhitespace text) = d.members fuel members text := by
  cases fuel with
  | zero => rfl
  | succ fuel => rw [Dialect.members, Dialect.members, skipWhitespace_skip]

/-- With so much fuel the parser is the reader and the evaluation of what it reads. -/
structure Evaluates (d : Dialect F) (fuel : Nat) : Prop where
  value : ∀ text, (d.value fuel text).toOption =
    (Tree.read fuel (skipWhitespace text)).bind fun (t, rest) => (d.evalTree t).map fun value =>
      (value, rest)
  items : ∀ items text, (d.items fuel items text).toOption =
    (Items.read fuel text).bind fun (more, rest) =>
      (d.evalItems more).map fun more => (.array (items ++ more), rest)
  members : ∀ members text, (d.members fuel members text).toOption =
    (Members.read fuel text).bind fun (more, rest) =>
      (d.evalMembers more).map fun more => (.object (d.insertAll members more), rest)

/-- Without fuel neither reads anything. -/
theorem evaluates_zero (d : Dialect F) : Evaluates d 0 where
  value _ := rfl
  items _ _ := rfl
  members _ _ := rfl

section

variable {d : Dialect F} {fuel : Nat} (ih : Evaluates d fuel)

include ih

/-- Items are read by the reader as by the tree, if all below are. -/
theorem eval_items (items : List (Value F)) (text : List Char) :
    (d.items (fuel + 1) items text).toOption =
    (Items.read (fuel + 1) text).bind fun (more, rest) =>
      (d.evalItems more).map fun more => (.array (items ++ more), rest) := by
  rw [Dialect.items, Items.read]
  change (Except.bind _ _).toOption = _
  rw [toOption_bind, ih.value text]
  change ((Tree.read fuel (Run.rest isAsciiWhitespace text)).bind _).bind _ = _
  cases Tree.read fuel (Run.rest isAsciiWhitespace text) with
  | none => rfl
  | some got =>
    obtain ⟨item, behind⟩ := got
    simp only [Option.bind_some]
    cases hitem : d.evalTree item with
    | none =>
      split
      · cases Items.read fuel _ <;> simp [Dialect.evalItems, hitem]
      · simp [Dialect.evalItems, hitem]
      · rfl
    | some value =>
      simp only [Option.map_some, Option.bind_some, skipWhitespace_eq]
      generalize Run.rest isAsciiWhitespace behind = tail
      split
      · next rest =>
        rw [ih.items]
        simp only
        cases Items.read fuel rest with
        | none => rfl
        | some got =>
          simp only [Option.map_some, Option.bind_some, Dialect.evalItems, hitem]
          cases d.evalItems got.1 <;> simp
      · simp [Dialect.evalItems, hitem, pure, Except.pure, Except.toOption]
      · simp [Except.toOption]

/-- Members are read by the reader as by the tree, if all below are. -/
theorem eval_members (members : List (String × Value F)) (text : List Char) :
    (d.members (fuel + 1) members text).toOption =
      (Members.read (fuel + 1) text).bind fun (more, rest) =>
        (d.evalMembers more).map fun more => (.object (d.insertAll members more), rest) := by
  rw [Dialect.members, Members.read, Name.read]
  simp only [skipWhitespace_eq]
  generalize Run.rest isAsciiWhitespace text = front
  split
  · next rest =>
    simp only [bind]
    rw [toOption_bind, string_eq d rest []]
    cases readElements rest with
    | none => rfl
    | some got =>
      obtain ⟨key, behind⟩ := got
      simp only [Option.bind_some, Option.bind_map, Function.comp_def, List.nil_append]
      generalize Run.rest isAsciiWhitespace behind = colon
      split
      · next rest =>
        simp only [Option.bind_some, toOption_bind, ih.value, skipWhitespace_eq]
        cases Tree.read fuel (Run.rest isAsciiWhitespace rest) with
        | none => simp
        | some got =>
          obtain ⟨value, tail⟩ := got
          simp only [Option.bind_some, Option.bind_map, Function.comp_def]
          generalize Run.rest isAsciiWhitespace tail = close
          split
          · next rest =>
            simp only [ih.members]
            cases Members.read fuel rest with
            | none => simp
            | some got =>
              simp only [Option.map_some, Option.bind_some, Dialect.evalMembers, Dialect.evalName]
              cases d.evalElements key with
              | none => rfl
              | some key =>
                simp only [Option.map_some, Option.bind_some]
                cases d.evalTree value with
                | none => rfl
                | some value =>
                  simp only [Option.bind_some]
                  cases d.evalMembers got.1 <;> rfl
          · simp only [Option.bind_some, Dialect.evalMembers, Dialect.evalName]
            cases d.evalElements key with
            | none => rfl
            | some key =>
              simp only [Option.map_some, Option.bind_some]
              cases d.evalTree value <;> rfl
          · next hcomma hclose => simp [Except.toOption]
      · next hcolon => simp [Except.toOption]
  · simp [Except.toOption]

/-- A value is read by the reader as by the tree, if all below are. -/
theorem eval_value (text : List Char) : (d.value (fuel + 1) text).toOption =
    (Tree.read (fuel + 1) (skipWhitespace text)).bind fun (t, rest) =>
      (d.evalTree t).map fun value => (value, rest) := by
  -- the reader is unfolded behind each split, so that only the parser's match is split
  rw [Dialect.value.eq_def]
  dsimp only
  generalize skipWhitespace text = front
  split
  · next rest =>
    split
    · next close =>
      rw [skipWhitespace_eq] at close
      rw [Tree.read.eq_def]
      simp only
      rw [close]
      rfl
    · next hclose =>
      rw [members_skip, ih.members, Tree.read.eq_def]
      simp only
      split
      · next close => exact absurd close (hclose _)
      · cases Members.read fuel rest with
        | none => rfl
        | some got =>
          simp only [Option.map_some, Option.bind_some, Dialect.evalTree]
          cases d.evalMembers got.1 <;> rfl
  · next rest =>
    split
    · next close =>
      rw [skipWhitespace_eq] at close
      rw [Tree.read.eq_def]
      simp only
      rw [close]
      rfl
    · next hclose =>
      rw [items_skip, ih.items, Tree.read.eq_def]
      simp only
      split
      · next close => exact absurd close (hclose _)
      · cases Items.read fuel rest with
        | none => rfl
        | some got =>
          simp only [Option.map_some, Option.bind_some, Dialect.evalTree]
          cases d.evalItems got.1 <;> rfl
  · next rest =>
    simp only [bind]
    rw [toOption_bind, string_eq d rest [], Tree.read.eq_def]
    simp only
    cases readElements rest with
    | none => rfl
    | some got =>
      simp only [Option.bind_some, Option.map_some, Dialect.evalTree]
      cases d.evalElements got.1 <;> rfl
  · next rest =>
    refine (literal_eq .true (Value.bool true) ('t' :: rest)).trans ?_
    rw [Tree.read.eq_def]
    simp only [Word.read]
    split <;> rfl
  · next rest =>
    refine (literal_eq .false (Value.bool false) ('f' :: rest)).trans ?_
    rw [Tree.read.eq_def]
    simp only [Word.read]
    split <;> rfl
  · next rest =>
    refine (literal_eq .null Value.null ('n' :: rest)).trans ?_
    rw [Tree.read.eq_def]
    simp only [Word.read]
    split <;> rfl
  · next hobject harray hstring htrue hfalse hnull =>
    rw [number_eq, Tree.read.eq_def]
    dsimp only
    split
    · exact absurd rfl (hobject _)
    · exact absurd rfl (harray _)
    · exact absurd rfl (hstring _)
    · exact absurd rfl (htrue _)
    · exact absurd rfl (hfalse _)
    · exact absurd rfl (hnull _)
    · cases Numeral.read _ <;> rfl

end

/-- The reader evaluates the tree at every fuel. -/
theorem evaluates (d : Dialect F) (fuel : Nat) : Evaluates d fuel := by
  induction fuel with
  | zero => exact evaluates_zero d
  | succ fuel ih => exact ⟨eval_value ih, eval_items ih, eval_members ih⟩

/-- What a dialect makes of a document. -/
def Dialect.evalDocument (d : Dialect F) (document : Document) : Option (Value F) :=
  d.evalTree document.tree

/-- **The parser.** A text is read as a value just where it is the text of a document that evaluates
to it. -/
theorem parse_iff (d : Dialect F) (text : String) (value : Value F) :
    d.parse text = .ok value ↔ ∃ document : Document, document.text = text.toList ∧
      d.evalDocument document = some value := by
  have hfuel : text.toList.length ≤ 2 * text.toList.length + 1 := by omega
  have hparse : (d.parse text).toOption =
      (Document.read (2 * text.toList.length + 1) text.toList).bind d.evalDocument := by
    unfold Dialect.parse Document.read
    simp only [bind]
    rw [toOption_bind, (evaluates d _).value, skipWhitespace_eq]
    cases Tree.read (2 * text.toList.length + 1) (Run.rest isAsciiWhitespace text.toList) with
    | none => rfl
    | some got =>
      obtain ⟨tree, rest⟩ := got
      simp only [Option.bind_some, Option.bind_map, Function.comp_def, skipWhitespace_eq]
      generalize htail : Run.rest isAsciiWhitespace rest = tail
      cases tail with
      | nil =>
        simp only [if_true, Option.bind_some, Dialect.evalDocument]
        cases d.evalTree tree <;> rfl
      | cons c tail => simp [Except.toOption]
  rw [← toOption_eq_some, hparse, Option.bind_eq_some_iff]
  constructor
  · rintro ⟨document, hread, heval⟩
    exact ⟨document, Document.text_read hread, heval⟩
  · rintro ⟨document, htext, heval⟩
    refine ⟨document, ?_, heval⟩
    rw [← htext]
    rw [← htext] at hfuel
    exact document.read_text hfuel

end RtpMux.JsonReader
