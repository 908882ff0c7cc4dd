import RtpMux.Tools.Text

/-!
# The text of a document

JSON as it is written: a tree that keeps every character of the text, its whitespace too, and the
reader that makes a tree of a text. The trees are wide: any row of digits is a whole part, any
character may follow a backslash, and a form feed is whitespace. What a dialect of JSON takes is a
set of trees. A tree is the only one with its text (`read_text`), and what is read is the text of
the tree (`text_read`).
-/

namespace RtpMux.JsonTree

open Text (isAsciiDigit isAsciiWhitespace)

/-! ## Rows of characters -/

/-- A row of characters of one kind. -/
structure Run (p : Char → Bool) where
  chars : List Char
  all : ∀ c ∈ chars, p c = true

namespace Run

variable {p : Char → Bool}

/-- A run is its characters. -/
@[ext] theorem ext {r r' : Run p} (h : r.chars = r'.chars) : r = r' := by
  cases r
  cases r'
  cases h
  rfl

instance : DecidableEq (Run p) :=
  fun r r' => decidable_of_iff (r.chars = r'.chars) ⟨ext, congrArg chars⟩

/-- The row in front. -/
def take (p : Char → Bool) (text : List Char) : Run p :=
  ⟨text.takeWhile p, fun _ h => List.mem_takeWhile_imp h⟩

/-- What stands behind it. -/
def rest (p : Char → Bool) (text : List Char) : List Char := text.dropWhile p

/-- A run and what follows it are the text. -/
theorem take_append_rest (p : Char → Bool) (text : List Char) :
    (take p text).chars ++ rest p text = text :=
  List.takeWhile_append_dropWhile

/-- Every text is a run and what follows it. -/
theorem split (p : Char → Bool) (text : List Char) :
    ∃ r tail, take p text = r ∧ rest p text = tail ∧ text = r.chars ++ tail :=
  ⟨_, _, rfl, rfl, (take_append_rest p text).symm⟩

/-- Nothing of the kind stands in front. -/
def Ends (p : Char → Bool) (text : List Char) : Prop := ∀ c, text.head? = some c → p c = false

theorem ends_nil : Ends p [] := by
  intro c hc
  cases hc

theorem ends_cons {c : Char} {text : List Char} (h : p c = false) : Ends p (c :: text) := by
  intro d hd
  cases hd
  exact h

/-- A text that ends a run ends every run of fewer characters. -/
theorem Ends.mono {q : Char → Bool} {text : List Char} (h : Ends p text)
    (himp : ∀ c, q c = true → p c = true) :
    Ends q text := by
  intro c hc
  rw [Bool.eq_false_iff]
  intro hq
  have hp := himp c hq
  rw [h c hc] at hp
  cases hp

/-- What follows a run ends it. -/
theorem ends_rest (p : Char → Bool) (text : List Char) : Ends p (rest p text) := by
  intro c hc
  have hnot := List.head?_dropWhile_not p text
  rw [rest] at hc
  rw [hc] at hnot
  simpa using hnot

/-- The run before a text that ends it is read whole. -/
theorem take_append (r : Run p) {text : List Char} (h : Ends p text) :
    take p (r.chars ++ text) = r := by
  apply ext
  change (r.chars ++ text).takeWhile p = r.chars
  rw [List.takeWhile_append_of_pos r.all]
  cases text with
  | nil => simp
  | cons c text => simp [h c rfl]

/-- A text that ends a run is what follows it. -/
theorem rest_append (r : Run p) {text : List Char} (h : Ends p text) :
    rest p (r.chars ++ text) = text := by
  have hall := take_append_rest p (r.chars ++ text)
  rw [take_append r h] at hall
  exact List.append_cancel_left hall

end Run

/-- A row of whitespace, which may be empty. -/
abbrev Blank := Run isAsciiWhitespace

/-- A row of decimal digits, which may be empty. -/
abbrev Digits := Run isAsciiDigit

/-! ## Strings -/

/-- A character of a string as it is written: itself, behind a backslash, or by four digits. -/
inductive Element where
  | bare (c : Char) (ordinary : c ≠ '"' ∧ c ≠ '\\')
  | short (c : Char) (ordinary : c ≠ 'u')
  | unicode (a b c d : Char)
deriving DecidableEq

/-- An element of a string as it is written. -/
def Element.text : Element → List Char
  | .bare c _ => [c]
  | .short c _ => ['\\', c]
  | .unicode a b c d => ['\\', 'u', a, b, c, d]

/-- The inside of a string. -/
def elementsText (elements : List Element) : List Char := elements.flatMap Element.text

/-- A string up to its closing quote, and what stands behind it. -/
def readElements : List Char → Option (List Element × List Char)
  | [] => none
  | c :: rest =>
    if hquote : c = '"' then some ([], rest)
    else if hescape : c = '\\' then
      match rest with
      | [] => none
      | e :: rest =>
        if hshort : e = 'u' then
          match rest with
          | a :: b :: c :: d :: rest =>
            (readElements rest).map fun (es, r) => (.unicode a b c d :: es, r)
          | _ => none
        else (readElements rest).map fun (es, r) => (.short e hshort :: es, r)
    else (readElements rest).map fun (es, r) => (.bare c ⟨hquote, hescape⟩ :: es, r)

theorem readElements_quote (rest : List Char) : readElements ('"' :: rest) = some ([], rest) := by
  rw [readElements.eq_def]
  rfl

/-- An element at the front of a text is read first. -/
theorem readElements_append (element : Element) (rest : List Char) :
    readElements (element.text ++ rest) = (readElements rest).map fun (es, r) =>
      (element :: es, r) := by
  cases element with
  | bare c h =>
    rw [readElements.eq_def]
    simp [Element.text, h.1, h.2]
  | short c h =>
    rw [readElements.eq_def]
    simp [Element.text, h]
  | unicode a b c d =>
    rw [readElements.eq_def]
    simp [Element.text]

/-- The elements of a string are read back up to its closing quote. -/
theorem readElements_text (elements : List Element) (rest : List Char) :
    readElements (elementsText elements ++ '"' :: rest) = some (elements, rest) := by
  induction elements with
  | nil => exact readElements_quote rest
  | cons element elements ih =>
    rw [elementsText, List.flatMap_cons, List.append_assoc, ← elementsText, readElements_append, ih]
    rfl

/-- Elements that were read are the text up to the closing quote. -/
theorem text_readElements {text : List Char} {elements : List Element} {rest : List Char}
    (h : readElements text = some (elements, rest)) :
    text = elementsText elements ++ '"' :: rest := by
  fun_induction readElements text generalizing elements with
  | case1 => cases h
  | case2 rest =>
    cases h
    rfl
  | case3 => cases h
  | case4 a b c d rest _ ih =>
    obtain ⟨⟨es, r⟩, hread, heq⟩ := Option.map_eq_some_iff.1 h
    cases heq
    rw [ih hread]
    rfl
  | case5 => cases h
  | case6 e _ hshort rest ih =>
    obtain ⟨⟨es, r⟩, hread, heq⟩ := Option.map_eq_some_iff.1 h
    cases heq
    rw [ih hread]
    rfl
  | case7 c rest hquote hescape ih =>
    obtain ⟨⟨es, r⟩, hread, heq⟩ := Option.map_eq_some_iff.1 h
    cases heq
    rw [ih hread]
    rfl

/-! ## Numerals -/

/-- The sign of a numeral. -/
def signText (negative : Bool) : List Char := if negative then ['-'] else []

/-- A minus sign is taken off the front. -/
def readSign : List Char → Bool × List Char
  | '-' :: rest => (true, rest)
  | rest => (false, rest)

/-- The fraction with its point, if there is one. -/
def fractionText : Option Digits → List Char
  | none => []
  | some digits => '.' :: digits.chars

/-- A point and the digits behind it are taken off the front. -/
def readFraction : List Char → Option Digits × List Char
  | '.' :: rest => (some (Run.take isAsciiDigit rest), Run.rest isAsciiDigit rest)
  | rest => (none, rest)

/-- The sign of an exponent: none, or whether it is a minus. -/
def powerSignText : Option Bool → List Char
  | none => []
  | some negative => [if negative then '-' else '+']

/-- The sign of a power, `true` for a minus. -/
def readPowerSign : List Char → Option Bool × List Char
  | '+' :: rest => (some false, rest)
  | '-' :: rest => (some true, rest)
  | rest => (none, rest)

/-- The power of a numeral, as it is written. -/
structure Power where
  upper : Bool
  sign : Option Bool
  digits : Digits
deriving DecidableEq

/-- The letter in front of a power. -/
def Power.mark (power : Power) : Char := if power.upper then 'E' else 'e'

/-- The power with its letter, if there is one. -/
def powerText : Option Power → List Char
  | none => []
  | some power => power.mark :: (powerSignText power.sign ++ power.digits.chars)

/-- What stands behind the letter of a power. -/
def Power.read (upper : Bool) (text : List Char) : Power × List Char :=
  let (sign, rest) := readPowerSign text
  (⟨upper, sign, Run.take isAsciiDigit rest⟩, Run.rest isAsciiDigit rest)

/-- A power is taken off the front. -/
def readPower : List Char → Option Power × List Char
  | 'e' :: rest => ((Power.read false rest).1, (Power.read false rest).2)
  | 'E' :: rest => ((Power.read true rest).1, (Power.read true rest).2)
  | rest => (none, rest)

/-- A numeral, from its sign or its first digit on. -/
structure Numeral where
  negative : Bool
  whole : Digits
  fraction : Option Digits
  power : Option Power
  begins : negative = true ∨ whole.chars ≠ []
deriving DecidableEq

namespace Numeral

/-- A numeral as it is written. -/
def text (n : Numeral) : List Char :=
  signText n.negative ++ (n.whole.chars ++ (fractionText n.fraction ++ powerText n.power))

/-- The longest numeral in front. -/
def read (text : List Char) : Option (Numeral × List Char) :=
  let (negative, rest) := readSign text
  let whole := Run.take isAsciiDigit rest
  let (fraction, rest) := readFraction (Run.rest isAsciiDigit rest)
  let (power, rest) := readPower rest
  if h : negative = true ∨ whole.chars ≠ [] then some (⟨negative, whole, fraction, power, h⟩, rest)
    else none

end Numeral

/-- What a numeral can go on with. -/
def isNumeralChar (c : Char) : Bool :=
  isAsciiDigit c || c = '.' || c = 'e' || c = 'E' || c = '+' || c = '-'

/-- A sign is read back. -/
theorem readSign_append {negative : Bool} {rest : List Char}
    (h : negative = true ∨ rest.head? ≠ some '-') :
    readSign (signText negative ++ rest) = (negative, rest) := by
  cases negative with
  | true => rfl
  | false =>
    simp only [Bool.false_eq_true, false_or] at h
    cases rest with
    | nil => rfl
    | cons c rest =>
      have hc : c ≠ '-' := by simpa using h
      simp [signText, readSign, hc]

/-- A sign that was read stood in front of the text. -/
theorem text_readSign (text : List Char) :
    text = signText (readSign text).1 ++ (readSign text).2 := by
  unfold readSign
  split <;> rfl

/-- A fraction is read back, if no digit and no point follows. -/
theorem readFraction_append {fraction : Option Digits} {rest : List Char}
    (hdigit : Run.Ends isAsciiDigit rest)
    (hpoint : rest.head? ≠ some '.') :
    readFraction (fractionText fraction ++ rest) = (fraction, rest) := by
  cases fraction with
  | none =>
    cases rest with
    | nil => rfl
    | cons c rest =>
      have hc : c ≠ '.' := by simpa using hpoint
      simp [fractionText, readFraction, hc]
  | some digits =>
    simp [fractionText, readFraction, Run.take_append _ hdigit, Run.rest_append _ hdigit]

/-- A fraction that was read stood in front of the text. -/
theorem text_readFraction (text : List Char) :
    text = fractionText (readFraction text).1 ++ (readFraction text).2 := by
  unfold readFraction
  split
  · next rest => simp [fractionText, Run.take_append_rest]
  · rfl

/-- The sign of a power is read back, if no sign follows. -/
theorem readPowerSign_append {sign : Option Bool} {rest : List Char} (hplus : rest.head? ≠ some '+')
    (hminus : rest.head? ≠ some '-') :
    readPowerSign (powerSignText sign ++ rest) = (sign, rest) := by
  cases sign with
  | none =>
    cases rest with
    | nil => rfl
    | cons c rest =>
      have hc : c ≠ '+' := by simpa using hplus
      have hc' : c ≠ '-' := by simpa using hminus
      simp [powerSignText, readPowerSign, hc, hc']
  | some negative => cases negative <;> rfl

/-- The sign of a power that was read stood in front of the text. -/
theorem text_readPowerSign (text : List Char) :
    text = powerSignText (readPowerSign text).1 ++ (readPowerSign text).2 := by
  unfold readPowerSign
  split <;> rfl

/-- The power that was read stood in front of the text. -/
theorem text_powerRead (upper : Bool) (text : List Char) :
    text = powerSignText (Power.read upper text).1.sign ++ (Power.read upper text).1.digits.chars ++
      (Power.read upper text).2 := by
  conv_lhs => rw [text_readPowerSign text]
  simp [Power.read, Run.take_append_rest]

/-- A power that was read, or none, stood in front of the text. -/
theorem text_readPower (text : List Char) :
    text = powerText (readPower text).1 ++ (readPower text).2 := by
  unfold readPower
  split
  · next rest =>
    conv_lhs => rw [text_powerRead false rest]
    simp [powerText, Power.mark, Power.read]
  · next rest =>
    conv_lhs => rw [text_powerRead true rest]
    simp [powerText, Power.mark, Power.read]
  · rfl

/-- The sign and the digits of a power are read back. -/
theorem powerRead_append {upper : Bool} {sign : Option Bool} {digits : Digits} {rest : List Char}
    (h : Run.Ends isNumeralChar rest) :
    Power.read upper (powerSignText sign ++ (digits.chars ++ rest)) =
      (⟨upper, sign, digits⟩, rest) := by
  have hdigit : Run.Ends isAsciiDigit rest := h.mono fun c hc => by simp [isNumeralChar, hc]
  have hsign (c : Char) (hc : isNumeralChar c = true) (hc' : isAsciiDigit c = false) :
      (digits.chars ++ rest).head? ≠ some c := by
    intro heq
    cases hchars : digits.chars with
    | nil =>
      rw [hchars, List.nil_append] at heq
      rw [h c heq] at hc
      cases hc
    | cons d ds =>
      rw [hchars] at heq
      cases heq
      rw [digits.all c (by simp [hchars])] at hc'
      cases hc'
  rw [Power.read, readPowerSign_append (hsign '+' rfl rfl) (hsign '-' rfl rfl)]
  simp only [Run.take_append _ hdigit, Run.rest_append _ hdigit]

/-- A power is read back, if no character of a numeral follows. -/
theorem readPower_append {power : Option Power} {rest : List Char}
    (h : Run.Ends isNumeralChar rest) :
    readPower (powerText power ++ rest) = (power, rest) := by
  cases power with
  | none =>
    cases rest with
    | nil => rfl
    | cons c rest =>
      have hc : c ≠ 'e' ∧ c ≠ 'E' := by
        constructor
        all_goals
          rintro rfl
          cases h _ rfl
      simp [powerText, readPower, hc]
  | some power =>
    obtain ⟨upper, sign, digits⟩ := power
    rw [powerText, List.cons_append, List.append_assoc]
    cases upper with
    | true =>
      change (some (Power.read true _).1, (Power.read true _).2) = _
      rw [powerRead_append h]
    | false =>
      change (some (Power.read false _).1, (Power.read false _).2) = _
      rw [powerRead_append h]

/-- What comes behind the whole part is no digit, and what comes behind the fraction no point. -/
theorem ends_powerText {power : Option Power} {rest : List Char} (h : Run.Ends isNumeralChar rest) :
    Run.Ends isAsciiDigit (powerText power ++ rest) ∧
      (powerText power ++ rest).head? ≠ some '.' := by
  cases power with
  | none =>
    refine ⟨h.mono fun c hc => by simp [isNumeralChar, hc], fun heq => ?_⟩
    cases h _ heq
  | some power =>
    obtain ⟨upper, sign, digits⟩ := power
    cases upper with
    | true => exact ⟨Run.ends_cons rfl, by simp [powerText, Power.mark]⟩
    | false => exact ⟨Run.ends_cons rfl, by simp [powerText, Power.mark]⟩

namespace Numeral

/-- A numeral is read back, if no character of a numeral follows. -/
theorem read_text (n : Numeral) {rest : List Char} (h : Run.Ends isNumeralChar rest) :
    read (n.text ++ rest) = some (n, rest) := by
  obtain ⟨negative, whole, fraction, power, hbegins⟩ := n
  obtain ⟨hdigit, hpoint⟩ := @ends_powerText power _ h
  have htail : Run.Ends isAsciiDigit (fractionText fraction ++ (powerText power ++ rest)) := by
    cases fraction with
    | none => exact hdigit
    | some digits => exact Run.ends_cons rfl
  have hsign : negative = true ∨
      (whole.chars ++ (fractionText fraction ++ (powerText power ++ rest))).head? ≠ some '-' := by
    refine hbegins.imp_right fun hne => ?_
    obtain ⟨c, cs, hc⟩ := List.exists_cons_of_ne_nil hne
    have hcdigit : isAsciiDigit c = true := whole.all c (by simp [hc])
    rw [hc]
    rintro heq
    cases heq
    cases hcdigit
  simp only [text, List.append_assoc]
  rw [read, readSign_append hsign]
  simp only [Run.take_append _ htail, Run.rest_append _ htail, readFraction_append hdigit hpoint,
    readPower_append h,
    hbegins, dite_true]

/-- A numeral that was read stood in front of the text. -/
theorem text_read {text : List Char} {n : Numeral} {rest : List Char}
    (h : read text = some (n, rest)) :
    text = n.text ++ rest := by
  unfold read at h
  simp only at h
  split at h
  · cases h
    simp only [Numeral.text, List.append_assoc]
    rw [← text_readPower, ← text_readFraction, Run.take_append_rest, ← text_readSign]
  · cases h

end Numeral

/-! ## Trees -/

/-- The words that are values. -/
inductive Word where
  | null
  | true
  | false
deriving DecidableEq

/-- A word as it is written. -/
def Word.text : Word → List Char
  | .null => ['n', 'u', 'l', 'l']
  | .true => ['t', 'r', 'u', 'e']
  | .false => ['f', 'a', 'l', 's', 'e']

/-- The name of a member up to its value, with the whitespace around it. -/
structure Name where
  before : Blank
  key : List Element
  after : Blank
  gap : Blank
deriving DecidableEq

/-- A string in its quotes. -/
def quoted (elements : List Element) : List Char := '"' :: (elementsText elements ++ ['"'])

/-- A member's name, with the blanks around it and the colon. -/
def Name.text (name : Name) : List Char :=
  name.before.chars ++ (quoted name.key ++ (name.after.chars ++ (':' :: name.gap.chars)))

mutual

/-- A value as a text has it, with its blanks. -/
inductive Tree where
  | word (w : Word)
  | str (elements : List Element)
  | number (n : Numeral)
  | emptyArray (space : Blank)
  | array (items : Items)
  | emptyObject (space : Blank)
  | object (members : Members)

/-- The items of an array, with the whitespace around each. -/
inductive Items where
  | last (before : Blank) (item : Tree) (after : Blank)
  | cons (before : Blank) (item : Tree) (after : Blank) (items : Items)

/-- The members of an object from the first one on. -/
inductive Members where
  | last (name : Name) (value : Tree) (after : Blank)
  | cons (name : Name) (value : Tree) (after : Blank) (members : Members)

end

mutual

/-- A value as it is written. -/
def Tree.text : Tree → List Char
  | .word w => w.text
  | .str elements => quoted elements
  | .number n => n.text
  | .emptyArray space => '[' :: (space.chars ++ [']'])
  | .array items => '[' :: items.text
  | .emptyObject space => '{' :: (space.chars ++ ['}'])
  | .object members => '{' :: members.text

/-- The items of an array with the bracket that closes it. -/
def Items.text : Items → List Char
  | .last before item after => before.chars ++ (item.text ++ (after.chars ++ [']']))
  | .cons before item after items =>
    before.chars ++ (item.text ++ (after.chars ++ (',' :: items.text)))

/-- The members of an object with the brace that closes it. -/
def Members.text : Members → List Char
  | .last name value after => name.text ++ (value.text ++ (after.chars ++ ['}']))
  | .cons name value after members =>
    name.text ++ (value.text ++ (after.chars ++ (',' :: members.text)))

end

/-! ## The reader -/

/-- The name of a member: nothing where none stands. -/
def Name.read (text : List Char) : Option (Name × List Char) :=
  let before := Run.take isAsciiWhitespace text
  match Run.rest isAsciiWhitespace text with
  | '"' :: rest =>
    (readElements rest).bind fun (key, rest) =>
      let after := Run.take isAsciiWhitespace rest
      match Run.rest isAsciiWhitespace rest with
      | ':' :: rest =>
        some (⟨before, key, after, Run.take isAsciiWhitespace rest⟩,
          Run.rest isAsciiWhitespace rest)
      | _ => none
  | _ => none

/-- A word, by its first letter. -/
def Word.read (w : Word) (text : List Char) : Option (Tree × List Char) :=
  if w.text.isPrefixOf text then some (.word w, text.drop w.text.length) else none

mutual

/-- A value is taken off the front of a text. -/
def Tree.read : Nat → List Char → Option (Tree × List Char)
  | 0, _ => none
  | fuel + 1, text =>
    match text with
    | '{' :: rest =>
      match Run.rest isAsciiWhitespace rest with
      | '}' :: after => some (.emptyObject (Run.take _ rest), after)
      | _ => (Members.read fuel rest).map fun (members, rest) => (.object members, rest)
    | '[' :: rest =>
      match Run.rest isAsciiWhitespace rest with
      | ']' :: after => some (.emptyArray (Run.take _ rest), after)
      | _ => (Items.read fuel rest).map fun (items, rest) => (.array items, rest)
    | '"' :: rest => (readElements rest).map fun (elements, rest) => (.str elements, rest)
    | 't' :: _ => Word.true.read text
    | 'f' :: _ => Word.false.read text
    | 'n' :: _ => Word.null.read text
    | _ => (Numeral.read text).map fun (n, rest) => (.number n, rest)

/-- The items of an array are taken off the front, up to its bracket. -/
def Items.read : Nat → List Char → Option (Items × List Char)
  | 0, _ => none
  | fuel + 1, text =>
    let before := Run.take isAsciiWhitespace text
    (Tree.read fuel (Run.rest isAsciiWhitespace text)).bind fun (item, rest) =>
      let after := Run.take isAsciiWhitespace rest
      match Run.rest isAsciiWhitespace rest with
      | ',' :: rest =>
        (Items.read fuel rest).map fun (items, rest) => (.cons before item after items, rest)
      | ']' :: rest => some (.last before item after, rest)
      | _ => none

/-- The members of an object are taken off the front, up to its brace. -/
def Members.read : Nat → List Char → Option (Members × List Char)
  | 0, _ => none
  | fuel + 1, text =>
    (Name.read text).bind fun (name, rest) =>
      (Tree.read fuel rest).bind fun (value, rest) =>
        let after := Run.take isAsciiWhitespace rest
        match Run.rest isAsciiWhitespace rest with
        | ',' :: rest =>
          (Members.read fuel rest).map fun (members, rest) => (.cons name value after members, rest)
        | '}' :: rest => some (.last name value after, rest)
        | _ => none

end

/-! ## A tree is read from its text -/

/-- A blank is no character of a numeral. -/
theorem isNumeralChar_of_blank {c : Char} (h : isAsciiWhitespace c = true) :
    isNumeralChar c = false := by
  simp only [isAsciiWhitespace, Bool.or_eq_true, decide_eq_true_eq] at h
  rcases h with (((rfl | rfl) | rfl) | rfl) | rfl <;> rfl

/-- A digit is no blank. -/
theorem not_blank_of_digit {c : Char} (h : isAsciiDigit c = true) :
    isAsciiWhitespace c = false := by
  rw [Bool.eq_false_iff]
  intro hblank
  have hnot := isNumeralChar_of_blank hblank
  simp [isNumeralChar, h] at hnot

/-- Behind whitespace no numeral goes on. -/
theorem ends_blank (space : Blank) {c : Char} (h : isNumeralChar c = false) (rest : List Char) :
    Run.Ends isNumeralChar (space.chars ++ c :: rest) := by
  intro d hd
  cases hchars : space.chars with
  | nil =>
    rw [hchars] at hd
    cases hd
    exact h
  | cons e es =>
    rw [hchars] at hd
    cases hd
    exact isNumeralChar_of_blank (space.all d (by simp [hchars]))

/-- What a tree begins with. -/
theorem Tree.text_head (t : Tree) : ∃ c rest, t.text = c :: rest ∧ isAsciiWhitespace c = false ∧
    c ≠ ']' := by
  cases t with
  | word w => cases w <;> exact ⟨_, _, rfl, rfl, by decide⟩
  | number n =>
    obtain ⟨negative, whole, fraction, power, hbegins⟩ := n
    cases negative with
    | true => exact ⟨'-', _, rfl, rfl, by decide⟩
    | false =>
      obtain ⟨c, cs, hc⟩ := List.exists_cons_of_ne_nil (hbegins.resolve_left (by decide))
      have hdigit : isAsciiDigit c = true := whole.all c (by simp [hc])
      refine ⟨c, _, by simp [Tree.text, Numeral.text, signText, hc]; rfl,
        not_blank_of_digit hdigit, ?_⟩
      rintro rfl
      cases hdigit
  | str _ | emptyArray _ | array _ | emptyObject _ | object _ => exact ⟨_, _, rfl, rfl, by decide⟩

/-- What may stand behind a tree: anything, but behind a numeral nothing that it goes on with. -/
def Tree.Follows : Tree → List Char → Prop
  | .number _, rest => Run.Ends isNumeralChar rest
  | _, _ => True

/-- Any text that ends a numeral may follow any tree. -/
theorem Tree.follows_of_ends (t : Tree) {rest : List Char} (h : Run.Ends isNumeralChar rest) :
    t.Follows rest := by
  cases t with
  | number _ => exact h
  | word _ | str _ | emptyArray _ | array _ | emptyObject _ | object _ => trivial

/-- A member's name is read back with its blanks and its colon. -/
theorem Name.read_text (name : Name) {rest : List Char} (h : Run.Ends isAsciiWhitespace rest) :
    Name.read (name.text ++ rest) = some (name, rest) := by
  obtain ⟨before, key, after, gap⟩ := name
  have hquote : Run.Ends isAsciiWhitespace
      ('"' :: (elementsText key ++ '"' :: (after.chars ++ ':' :: (gap.chars ++ rest)))) :=
    Run.ends_cons rfl
  have hcolon : Run.Ends isAsciiWhitespace (':' :: (gap.chars ++ rest)) := Run.ends_cons rfl
  simp only [Name.text, quoted, List.append_assoc, List.cons_append, List.nil_append]
  rw [Name.read, Run.take_append _ hquote, Run.rest_append _ hquote]
  simp only [readElements_text, Option.bind_some, Run.take_append _ hcolon,
    Run.rest_append _ hcolon,
    Run.take_append _ h, Run.rest_append _ h]

/-- A word is read back. -/
theorem Word.read_text (w : Word) (rest : List Char) :
    w.read (w.text ++ rest) = some (.word w, rest) := by
  simp [Word.read]

/-- Behind a tree's whitespace stands what its text begins with. -/
theorem ends_tree (t : Tree) (rest : List Char) : Run.Ends isAsciiWhitespace (t.text ++ rest) := by
  obtain ⟨c, cs, htext, hc, -⟩ := t.text_head
  rw [htext]
  exact Run.ends_cons hc

/-- A text that begins with a numeral is read as a number. -/
theorem read_number {n : Numeral} {fuel : Nat} {rest : List Char}
    (h : Run.Ends isNumeralChar rest) :
    Tree.read (fuel + 1) (n.text ++ rest) = some (.number n, rest) := by
  have hread := n.read_text h
  obtain ⟨c, cs, htext, hc⟩ : ∃ c cs, n.text ++ rest = c :: cs ∧
      (c = '-' ∨ isAsciiDigit c = true) := by
    obtain ⟨negative, whole, fraction, power, hbegins⟩ := n
    cases negative with
    | true => exact ⟨'-', _, rfl, .inl rfl⟩
    | false =>
      obtain ⟨c, cs, hc⟩ := List.exists_cons_of_ne_nil (hbegins.resolve_left (by decide))
      exact ⟨c, _, by simp [Numeral.text, signText, hc]; rfl, .inr (whole.all c (by simp [hc]))⟩
  rw [htext] at hread ⊢
  have hne (d : Char) (hd : d ≠ '-') (hd' : isAsciiDigit d = false) : c ≠ d := by
    rintro rfl
    rcases hc with rfl | hc
    · exact hd rfl
    · rw [hc] at hd'
      cases hd'
  rw [Tree.read]
  · rw [hread]
    rfl
  · exact fun _ heq => hne '{' (by decide) rfl (List.cons.inj heq).1
  · exact fun _ heq => hne '[' (by decide) rfl (List.cons.inj heq).1
  · exact fun _ heq => hne '"' (by decide) rfl (List.cons.inj heq).1
  · exact fun _ heq => hne 't' (by decide) rfl (List.cons.inj heq).1
  · exact fun _ heq => hne 'f' (by decide) rfl (List.cons.inj heq).1
  · exact fun _ heq => hne 'n' (by decide) rfl (List.cons.inj heq).1

/-- A bracket that is not closed at once opens an array of items. -/
theorem read_array {fuel : Nat} {items : Items} {rest after : List Char}
    (hnext : (Run.rest isAsciiWhitespace rest).head? ≠ some ']')
    (h : Items.read fuel rest = some (items, after)) :
    Tree.read (fuel + 1) ('[' :: rest) = some (.array items, after) := by
  rw [Tree.read]
  split
  · next heq =>
    rw [heq] at hnext
    exact absurd rfl hnext
  · rw [h]
    rfl

/-- A brace that is not closed at once opens an object of members. -/
theorem read_object {fuel : Nat} {members : Members} {rest after : List Char}
    (hnext : (Run.rest isAsciiWhitespace rest).head? ≠ some '}')
    (h : Members.read fuel rest = some (members, after)) :
    Tree.read (fuel + 1) ('{' :: rest) = some (.object members, after) := by
  rw [Tree.read]
  split
  · next heq =>
    rw [heq] at hnext
    exact absurd rfl hnext
  · rw [h]
    rfl

/-- The items of an array do not begin with its closing bracket. -/
theorem Items.text_next (items : Items) (rest : List Char) :
    (Run.rest isAsciiWhitespace (items.text ++ rest)).head? ≠ some ']' := by
  cases items with
  | last before item after =>
    obtain ⟨c, cs, htext, hc, hne⟩ := item.text_head
    simp only [Items.text, List.append_assoc]
    rw [Run.rest_append _ (ends_tree item _), htext]
    simpa using hne
  | cons before item after items =>
    obtain ⟨c, cs, htext, hc, hne⟩ := item.text_head
    simp only [Items.text, List.append_assoc]
    rw [Run.rest_append _ (ends_tree item _), htext]
    simpa using hne

/-- A name does not begin with the brace that closes an object. -/
theorem Name.text_next (name : Name) (rest : List Char) :
    (Run.rest isAsciiWhitespace (name.text ++ rest)).head? ≠ some '}' := by
  simp only [Name.text, quoted, List.append_assoc, List.cons_append]
  rw [Run.rest_append _ (Run.ends_cons rfl)]
  simp

/-- Members do not begin with the brace that closes their object. -/
theorem Members.text_next (members : Members) (rest : List Char) :
    (Run.rest isAsciiWhitespace (members.text ++ rest)).head? ≠ some '}' := by
  cases members with
  | last name value after =>
    rw [Members.text, List.append_assoc]
    exact name.text_next _
  | cons name value after members =>
    rw [Members.text, List.append_assoc]
    exact name.text_next _

mutual

/-- **Reading back.** The reader finds the tree of a text. -/
theorem Tree.read_text : (t : Tree) → ∀ {fuel : Nat} {rest : List Char}, t.text.length ≤ fuel →
    t.Follows rest →
    Tree.read fuel (t.text ++ rest) = some (t, rest)
  | t, 0, rest, hfuel, _ => by
    obtain ⟨c, cs, htext, -⟩ := t.text_head
    rw [htext] at hfuel
    cases hfuel
  | .word w, fuel + 1, rest, _, _ => by
    have hread := w.read_text rest
    cases w with
    | null => exact hread
    | true => exact hread
    | false => exact hread
  | .str elements, fuel + 1, rest, _, _ => by
    rw [Tree.text, quoted, List.cons_append, List.append_assoc, Tree.read, List.singleton_append,
      readElements_text]
    rfl
  | .number n, fuel + 1, rest, _, hrest => read_number hrest
  | .emptyArray space, fuel + 1, rest, _, _ => by
    have hclose : Run.Ends isAsciiWhitespace (']' :: rest) := Run.ends_cons rfl
    rw [Tree.text, List.cons_append, List.append_assoc, Tree.read, List.singleton_append,
      Run.rest_append _ hclose,
      Run.take_append _ hclose]
    rfl
  | .array items, fuel + 1, rest, hfuel, _ => by
    rw [Tree.text, List.length_cons] at hfuel
    exact read_array (items.text_next rest) (items.read_text (by omega))
  | .emptyObject space, fuel + 1, rest, _, _ => by
    have hclose : Run.Ends isAsciiWhitespace ('}' :: rest) := Run.ends_cons rfl
    rw [Tree.text, List.cons_append, List.append_assoc, Tree.read, List.singleton_append,
      Run.rest_append _ hclose,
      Run.take_append _ hclose]
    rfl
  | .object members, fuel + 1, rest, hfuel, _ => by
    rw [Tree.text, List.length_cons] at hfuel
    exact read_object (members.text_next rest) (members.read_text (by omega))

/-- The items of an array are read back, with fuel for their text. -/
theorem Items.read_text :
    (items : Items) → ∀ {fuel : Nat} {rest : List Char}, items.text.length ≤ fuel →
    Items.read fuel (items.text ++ rest) = some (items, rest)
  | .last before item after, 0, rest, hfuel => by simp [Items.text] at hfuel
  | .cons before item after items, 0, rest, hfuel => by simp [Items.text] at hfuel
  | .last before item after, fuel + 1, rest, hfuel => by
    simp only [Items.text, List.length_append, List.length_cons, List.length_nil,
      List.append_assoc] at hfuel ⊢
    have hclose : Run.Ends isAsciiWhitespace (']' :: rest) := Run.ends_cons rfl
    have hitem : Tree.read fuel (item.text ++ (after.chars ++ ']' :: rest)) = some (item, _) :=
      item.read_text (by omega) (item.follows_of_ends (ends_blank after rfl rest))
    rw [Items.read, Run.take_append _ (ends_tree item _), Run.rest_append _ (ends_tree item _),
      List.singleton_append,
      hitem]
    simp only [Option.bind_some, Run.take_append _ hclose, Run.rest_append _ hclose]
  | .cons before item after items, fuel + 1, rest, hfuel => by
    simp only [Items.text, List.length_append, List.length_cons, List.append_assoc,
      List.cons_append] at hfuel ⊢
    have hcomma : Run.Ends isAsciiWhitespace (',' :: (items.text ++ rest)) := Run.ends_cons rfl
    have hitem : Tree.read fuel (item.text ++ (after.chars ++ ',' :: (items.text ++ rest))) =
        some (item, _) :=
      item.read_text (by omega) (item.follows_of_ends (ends_blank after rfl _))
    rw [Items.read, Run.take_append _ (ends_tree item _),
      Run.rest_append _ (ends_tree item _), hitem]
    simp only [Option.bind_some, Run.take_append _ hcomma, Run.rest_append _ hcomma]
    rw [items.read_text (by omega)]
    rfl

/-- The members of an object are read back, with fuel for their text. -/
theorem Members.read_text : (members : Members) → ∀ {fuel : Nat} {rest : List Char},
    members.text.length ≤ fuel →
    Members.read fuel (members.text ++ rest) = some (members, rest)
  | .last name value after, 0, rest, hfuel => by simp [Members.text] at hfuel
  | .cons name value after members, 0, rest, hfuel => by simp [Members.text] at hfuel
  | .last name value after, fuel + 1, rest, hfuel => by
    simp only [Members.text, List.length_append, List.length_cons, List.length_nil,
      List.append_assoc] at hfuel ⊢
    have hclose : Run.Ends isAsciiWhitespace ('}' :: rest) := Run.ends_cons rfl
    have hvalue : Tree.read fuel (value.text ++ (after.chars ++ '}' :: rest)) = some (value, _) :=
      value.read_text (by omega) (value.follows_of_ends (ends_blank after rfl rest))
    rw [Members.read, name.read_text (ends_tree value _), List.singleton_append]
    simp only [Option.bind_some, hvalue, Run.take_append _ hclose, Run.rest_append _ hclose]
  | .cons name value after members, fuel + 1, rest, hfuel => by
    simp only [Members.text, List.length_append, List.length_cons, List.append_assoc,
      List.cons_append] at hfuel ⊢
    have hcomma : Run.Ends isAsciiWhitespace (',' :: (members.text ++ rest)) := Run.ends_cons rfl
    have hvalue : Tree.read fuel (value.text ++ (after.chars ++ ',' :: (members.text ++ rest))) =
        some (value, _) :=
      value.read_text (by omega) (value.follows_of_ends (ends_blank after rfl _))
    rw [Members.read, name.read_text (ends_tree value _)]
    simp only [Option.bind_some, hvalue, Run.take_append _ hcomma, Run.rest_append _ hcomma]
    rw [members.read_text (by omega)]
    rfl

end

/-! ## What is read is the text of the tree -/

/-- A name that was read stood in front of the text. -/
theorem Name.text_read {text : List Char} {name : Name} {rest : List Char}
    (h : Name.read text = some (name, rest)) :
    text = name.text ++ rest := by
  obtain ⟨before, front, hbefore, hfront, rfl⟩ := Run.split isAsciiWhitespace text
  rw [Name.read, hbefore, hfront] at h
  split at h
  · next inner =>
    obtain ⟨⟨key, behind⟩, hkey, h⟩ := Option.bind_eq_some_iff.1 h
    obtain ⟨after, tail, hafter, htail, rfl⟩ := Run.split isAsciiWhitespace behind
    dsimp only at h
    rw [hafter, htail] at h
    split at h
    · next colon =>
      cases h
      have hgap := Run.take_append_rest isAsciiWhitespace colon
      rw [text_readElements hkey]
      simp only [Name.text, quoted, List.append_assoc, List.cons_append, List.nil_append, hgap]
    · cases h
  · cases h

/-- A word that was read stood in front of the text. -/
theorem Word.text_read {w : Word} {text : List Char} {t : Tree} {rest : List Char}
    (h : w.read text = some (t, rest)) :
    text = t.text ++ rest := by
  unfold Word.read at h
  split at h
  · next hfront =>
    obtain ⟨tail, rfl⟩ := List.isPrefixOf_iff_prefix.1 hfront
    cases h
    rw [Tree.text, List.drop_left]
  · cases h

/-- What is read with so much fuel is the text of what is returned. -/
structure Exact (fuel : Nat) : Prop where
  tree : ∀ {text t rest}, Tree.read fuel text = some (t, rest) → text = t.text ++ rest
  items : ∀ {text items rest}, Items.read fuel text = some (items, rest) → text = items.text ++ rest
  members : ∀ {text members rest}, Members.read fuel text = some (members, rest) →
    text = members.text ++ rest

/-- Without fuel nothing is read. -/
theorem exact_zero : Exact 0 where
  tree h := by cases h
  items h := by cases h
  members h := by cases h

section

variable {fuel : Nat} (ih : Exact fuel)

include ih

/-- A tree that was read stood in front of the text, if the readers below are exact. -/
theorem text_readTree {text : List Char} {t : Tree} {rest : List Char}
    (h : Tree.read (fuel + 1) text = some (t, rest)) :
    text = t.text ++ rest := by
  unfold Tree.read at h
  split at h
  · next inner =>
    obtain ⟨space, tail, hspace, htail, rfl⟩ := Run.split isAsciiWhitespace inner
    rw [hspace, htail] at h
    split at h
    · cases h
      simp only [Tree.text, List.cons_append, List.append_assoc, List.nil_append]
    · obtain ⟨⟨members, behind⟩, hmembers, heq⟩ := Option.map_eq_some_iff.1 h
      cases heq
      rw [ih.members hmembers, Tree.text, List.cons_append]
  · next inner =>
    obtain ⟨space, tail, hspace, htail, rfl⟩ := Run.split isAsciiWhitespace inner
    rw [hspace, htail] at h
    split at h
    · cases h
      simp only [Tree.text, List.cons_append, List.append_assoc, List.nil_append]
    · obtain ⟨⟨items, behind⟩, hitems, heq⟩ := Option.map_eq_some_iff.1 h
      cases heq
      rw [ih.items hitems, Tree.text, List.cons_append]
  · next inner =>
    obtain ⟨⟨elements, behind⟩, helements, heq⟩ := Option.map_eq_some_iff.1 h
    cases heq
    rw [text_readElements helements]
    simp [Tree.text, quoted]
  · exact Word.text_read h
  · exact Word.text_read h
  · exact Word.text_read h
  · obtain ⟨⟨n, behind⟩, hnumber, heq⟩ := Option.map_eq_some_iff.1 h
    cases heq
    exact Numeral.text_read hnumber

/-- Items that were read stood in front of the text, if the readers below are exact. -/
theorem text_readItems {text : List Char} {items : Items} {rest : List Char}
    (h : Items.read (fuel + 1) text = some (items, rest)) : text = items.text ++ rest := by
  obtain ⟨before, front, hbefore, hfront, rfl⟩ := Run.split isAsciiWhitespace text
  rw [Items.read, hbefore, hfront] at h
  obtain ⟨⟨item, behind⟩, hitem, h⟩ := Option.bind_eq_some_iff.1 h
  obtain ⟨after, tail, hafter, htail, rfl⟩ := Run.split isAsciiWhitespace behind
  rw [ih.tree hitem]
  dsimp only at h
  rw [hafter, htail] at h
  split at h
  · obtain ⟨⟨more, tail'⟩, hmore, heq⟩ := Option.map_eq_some_iff.1 h
    cases heq
    rw [ih.items hmore]
    simp only [Items.text, List.append_assoc, List.cons_append]
  · cases h
    simp only [Items.text, List.append_assoc, List.cons_append, List.nil_append]
  · cases h

/-- Members that were read stood in front of the text, if the readers below are exact. -/
theorem text_readMembers {text : List Char} {members : Members} {rest : List Char}
    (h : Members.read (fuel + 1) text = some (members, rest)) : text = members.text ++ rest := by
  rw [Members.read] at h
  obtain ⟨⟨name, front⟩, hname, h⟩ := Option.bind_eq_some_iff.1 h
  obtain ⟨⟨value, behind⟩, hvalue, h⟩ := Option.bind_eq_some_iff.1 h
  obtain ⟨after, tail, hafter, htail, rfl⟩ := Run.split isAsciiWhitespace behind
  rw [Name.text_read hname, ih.tree hvalue]
  dsimp only at h
  rw [hafter, htail] at h
  split at h
  · obtain ⟨⟨more, tail'⟩, hmore, heq⟩ := Option.map_eq_some_iff.1 h
    cases heq
    rw [ih.members hmore]
    simp only [Members.text, List.append_assoc, List.cons_append]
  · cases h
    simp only [Members.text, List.append_assoc, List.cons_append, List.nil_append]
  · cases h

end

/-- The readers are exact at every fuel. -/
theorem exact_read (fuel : Nat) : Exact fuel := by
  induction fuel with
  | zero => exact exact_zero
  | succ fuel ih => exact ⟨text_readTree ih, text_readItems ih, text_readMembers ih⟩

/-- A tree that was read stood in front of the text. -/
theorem Tree.text_read {fuel : Nat} {text : List Char} {t : Tree} {rest : List Char}
    (h : Tree.read fuel text = some (t, rest)) : text = t.text ++ rest :=
  (exact_read fuel).tree h

/-! ## Documents -/

/-- A tree with the whitespace around it. -/
structure Document where
  before : Blank
  tree : Tree
  after : Blank

namespace Document

/-- A document as it is written. -/
def text (d : Document) : List Char := d.before.chars ++ (d.tree.text ++ d.after.chars)

/-- The document that a text is. -/
def read (fuel : Nat) (text : List Char) : Option Document :=
  (Tree.read fuel (Run.rest isAsciiWhitespace text)).bind fun (tree, rest) =>
    if Run.rest isAsciiWhitespace rest = [] then
      some ⟨Run.take isAsciiWhitespace text, tree, Run.take isAsciiWhitespace rest⟩
    else none

/-- A document is read back from its own text. -/
theorem read_text (d : Document) {fuel : Nat} (h : d.text.length ≤ fuel) :
    read fuel d.text = some d := by
  obtain ⟨before, tree, after⟩ := d
  simp only [text, List.length_append] at h
  have hfollows : tree.Follows after.chars := by
    apply tree.follows_of_ends
    intro c hc
    have hmem : c ∈ after.chars := by
      obtain ⟨cs, hcs⟩ := List.head?_eq_some_iff.1 hc
      simp [hcs]
    exact isNumeralChar_of_blank (after.all c hmem)
  have hend : Run.rest isAsciiWhitespace after.chars = [] ∧ Run.take isAsciiWhitespace after.chars =
      after := by
    have hrest := Run.rest_append after (Run.ends_nil)
    have htake := Run.take_append after (Run.ends_nil)
    rw [List.append_nil] at hrest htake
    exact ⟨hrest, htake⟩
  rw [read, text, Run.rest_append _ (ends_tree tree _), Run.take_append _ (ends_tree tree _),
    tree.read_text (by omega) hfollows]
  simp only [Option.bind_some, hend.1, hend.2, if_true]

/-- A document that was read has the text it was read from. -/
theorem text_read {fuel : Nat} {text : List Char} {d : Document} (h : read fuel text = some d) :
    d.text = text := by
  obtain ⟨before, front, hbefore, hfront, rfl⟩ := Run.split isAsciiWhitespace text
  rw [read, hbefore, hfront] at h
  obtain ⟨⟨tree, rest⟩, htree, h⟩ := Option.bind_eq_some_iff.1 h
  obtain ⟨after, tail, hafter, htail, rfl⟩ := Run.split isAsciiWhitespace rest
  dsimp only at h
  rw [hafter, htail] at h
  split at h
  · next hend =>
    cases h
    rw [Tree.text_read htree, hend, List.append_nil]
    rfl
  · cases h

/-- **One tree for a text.** -/
theorem text_injective {d d' : Document} (h : d.text = d'.text) : d = d' := by
  have hread := d.read_text (Nat.le_refl d.text.length)
  rw [h, d'.read_text (Nat.le_refl _)] at hread
  exact (Option.some.inj hread).symm

end Document

/-! ## A cut -/

/-- Whether a tree ends with a bracket or a quote of its own. -/
def Tree.isClosed : Tree → Bool
  | .word _ | .number _ => false
  | _ => true

/-- What a closed tree begins with, and no other. -/
def opensClosed (c : Char) : Bool := c = '"' || c = '[' || c = '{'

/-- The first character of a tree tells whether it is closed by its own last one. -/
theorem Tree.opensClosed_head {t : Tree} {c : Char} {rest : List Char} (h : t.text = c :: rest) :
    opensClosed c = t.isClosed := by
  cases t with
  | word w =>
    cases w with
    | null | true | false =>
      cases h
      rfl
  | number n =>
    obtain ⟨negative, whole, fraction, power, hbegins⟩ := n
    cases negative with
    | true =>
      cases h
      rfl
    | false =>
      obtain ⟨d, ds, hd⟩ := List.exists_cons_of_ne_nil (hbegins.resolve_left (by decide))
      have hdigit : isAsciiDigit d = true := whole.all d (by simp [hd])
      simp only [Tree.text, Numeral.text, signText, hd, Bool.false_eq_true, if_false,
        List.nil_append,
        List.cons_append] at h
      obtain ⟨rfl, -⟩ := List.cons.inj h
      rw [Tree.isClosed, Bool.eq_false_iff]
      intro hopens
      simp only [opensClosed, Bool.or_eq_true, decide_eq_true_eq] at hopens
      rcases hopens with (rfl | rfl) | rfl
      all_goals cases hdigit
  | str _ | emptyArray _ | array _ | emptyObject _ | object _ =>
    cases h
    rfl

/-- Any text may follow a tree that its own last character closes. -/
theorem Tree.follows_of_closed {t : Tree} (h : t.isClosed = true) (rest : List Char) :
    t.Follows rest := by
  cases t with
  | word _ | number _ => cases h
  | str _ | emptyArray _ | array _ | emptyObject _ | object _ => trivial

/-- **No shorter document.** What is left of a closed tree after a cut is no document. -/
theorem Tree.eq_nil_of_document {t : Tree} (h : t.isClosed = true) {d : Document} {cut : List Char}
    (htext : t.text = d.text ++ cut) : cut = [] := by
  obtain ⟨before, tree, after⟩ := d
  obtain ⟨c, rest, hc, hblank, -⟩ := t.text_head
  -- the document begins where the tree does
  have hbefore : before.chars = [] := by
    cases hchars : before.chars with
    | nil => rfl
    | cons b bs =>
      have hb : isAsciiWhitespace b = true := before.all b (by simp [hchars])
      simp only [Document.text, hc, hchars, List.cons_append] at htext
      obtain ⟨rfl, -⟩ := List.cons.inj htext
      rw [hblank] at hb
      cases hb
  simp only [Document.text, hbefore, List.nil_append, List.append_assoc] at htext
  have hclosed : tree.isClosed = true := by
    obtain ⟨e, tail, he, -⟩ := tree.text_head
    rw [hc, he, List.cons_append] at htext
    obtain ⟨rfl, -⟩ := List.cons.inj htext
    rw [← Tree.opensClosed_head he, Tree.opensClosed_head hc, h]
  have hwhole := t.read_text (Nat.le_refl _) (Tree.follows_of_closed h [])
  have hpart : Tree.read t.text.length (tree.text ++ (after.chars ++ cut)) =
      some (tree, after.chars ++ cut) := by
    refine tree.read_text ?_ (Tree.follows_of_closed hclosed _)
    rw [htext, List.length_append]
    omega
  rw [List.append_nil, htext] at hwhole
  rw [htext, hwhole] at hpart
  have hrest := congrArg Prod.snd (Option.some.inj hpart)
  exact (List.append_eq_nil_iff.1 hrest.symm).2

/-! ## Tokens -/

/-- What a grammar has more to say about: whitespace, strings and numerals. -/
inductive Token where
  | blank (space : Blank)
  | string (elements : List Element)
  | number (n : Numeral)

/-- The tokens of a name, its blanks among them. -/
def Name.tokens (name : Name) : List Token :=
  [.blank name.before, .string name.key, .blank name.after, .blank name.gap]

mutual

/-- The tokens of a value. -/
def Tree.tokens : Tree → List Token
  | .word _ => []
  | .str elements => [.string elements]
  | .number n => [.number n]
  | .emptyArray space => [.blank space]
  | .array items => items.tokens
  | .emptyObject space => [.blank space]
  | .object members => members.tokens

/-- The tokens of the items of an array. -/
def Items.tokens : Items → List Token
  | .last before item after => .blank before :: (item.tokens ++ [Token.blank after])
  | .cons before item after items => .blank before :: (item.tokens ++ .blank after :: items.tokens)

/-- The tokens of the members of an object. -/
def Members.tokens : Members → List Token
  | .last name value after => name.tokens ++ (value.tokens ++ [Token.blank after])
  | .cons name value after members =>
    name.tokens ++ (value.tokens ++ .blank after :: members.tokens)

end

/-- The tokens of a document. -/
def Document.tokens (d : Document) : List Token :=
  .blank d.before :: (d.tree.tokens ++ [Token.blank d.after])

end RtpMux.JsonTree
