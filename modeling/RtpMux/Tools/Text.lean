import Mathlib.Algebra.Group.Int.Defs
import Mathlib.Algebra.GroupWithZero.Nat
import Mathlib.Data.List.Basic
import Mathlib.Data.List.Infix
import Mathlib.Data.List.DropRight

/-!
# Text

What the tools use of the standard library's strings, over lists of characters: the Unicode
whitespace test, splitting at a character, and trimming. A string of the source has at
most `isize::MAX` bytes; `Str` carries that bound where a result depends on it.

`reprStr` is the quoting the tools' diagnostics print a text with.
-/

namespace RtpMux

/-- A string as the source can hold one: fewer than `2 ^ 63` characters. -/
abbrev Str := { s : String // s.toList.length < 2 ^ 63 }

namespace Text

/-! ## Characters -/

/-- One name for this proof, which every decided membership among texts has in it. -/
instance lawfulBEqText : LawfulBEq (List Char) := inferInstance

/-- `char::is_ascii_digit`. -/
def isAsciiDigit (character : Char) : Bool := '0' ≤ character && character ≤ '9'

/-- `char::is_ascii_alphabetic`. -/
def isAsciiAlphabetic (character : Char) : Bool :=
  ('a' ≤ character && character ≤ 'z') || ('A' ≤ character && character ≤ 'Z')

/-- `char::is_ascii_alphanumeric`. -/
def isAsciiAlphanumeric (character : Char) : Bool :=
  isAsciiAlphabetic character || isAsciiDigit character

/-- Space, tab, line feed, form feed and carriage return, and not the vertical tab. -/
def isAsciiWhitespace (character : Char) : Bool :=
  character = ' ' || character = '\t' || character = '\n' || character = '\x0c' || character = '\r'

/-- Fold an ASCII capital to its small letter. -/
def toAsciiLowercase (character : Char) : Char :=
  if 'A' ≤ character && character ≤ 'Z' then Char.ofNat (character.toNat + 32) else character

/-- The control characters among `char::is_whitespace`: tab to carriage return, and next line. -/
def isControlWhitespace (c : Char) : Bool := (9 ≤ c.toNat && c.toNat ≤ 13) || c.toNat = 0x85

/-- `char::is_whitespace`: Unicode's `White_Space`. -/
def isWhitespace (c : Char) : Bool :=
  isControlWhitespace c || c.toNat = 0x20 || c.toNat = 0xa0 || c.toNat = 0x1680 ||
    (0x2000 ≤ c.toNat && c.toNat ≤ 0x200a) || c.toNat = 0x2028 || c.toNat = 0x2029 ||
    c.toNat = 0x202f || c.toNat = 0x205f || c.toNat = 0x3000

theorem isWhitespace_of_ascii {c : Char} (h : isAsciiWhitespace c = true) :
    isWhitespace c = true := by
  simp only [isAsciiWhitespace, Bool.or_eq_true, decide_eq_true_eq] at h
  rcases h with (((rfl | rfl) | rfl) | rfl) | rfl <;> rfl

theorem toNat_le_of_le {c d : Char} (h : c ≤ d) : c.toNat ≤ d.toNat :=
  UInt32.le_iff_toNat_le.1 (Char.le_def.1 h)

/-- A character that prints in ASCII is no whitespace. -/
theorem not_whitespace_of_graphic {c : Char} (h : '!' ≤ c) (h' : c ≤ '~') :
    isWhitespace c = false := by
  have h₁ : 0x21 ≤ c.toNat := toNat_le_of_le h
  have h₂ : c.toNat ≤ 0x7e := toNat_le_of_le h'
  simp only [isWhitespace, isControlWhitespace, Bool.or_eq_false_iff, Bool.and_eq_false_iff,
    decide_eq_false_iff_not]
  omega

theorem not_whitespace_of_alphanumeric {c : Char} (h : isAsciiAlphanumeric c = true) :
    isWhitespace c = false := by
  simp only [isAsciiAlphanumeric, isAsciiAlphabetic, isAsciiDigit, Bool.or_eq_true,
    Bool.and_eq_true, decide_eq_true_eq] at h
  rcases h with (h | h) | h
  · exact not_whitespace_of_graphic (Char.le_trans (by decide) h.1) (Char.le_trans h.2 (by decide))
  · exact not_whitespace_of_graphic (Char.le_trans (by decide) h.1) (Char.le_trans h.2 (by decide))
  · exact not_whitespace_of_graphic (Char.le_trans (by decide) h.1) (Char.le_trans h.2 (by decide))

/-! ## Splitting -/

/-- `str::split_once` at a character: what stands before and after its first occurrence. -/
def splitOnce (separator : Char) : List Char → Option (List Char × List Char)
  | [] => none
  | c :: cs =>
    if c = separator then some ([], cs)
    else (splitOnce separator cs).map fun (before, after) => (c :: before, after)

theorem splitOnce_eq_some_iff {separator : Char} {s before after : List Char} :
    splitOnce separator s = some (before, after) ↔
      separator ∉ before ∧ s = before ++ separator :: after := by
  induction s generalizing before with
  | nil => simp [splitOnce]
  | cons c cs ih =>
    by_cases h : c = separator
    · subst h
      cases before with
      | nil => simp [splitOnce, eq_comm]
      | cons b bs => simp +contextual [splitOnce, eq_comm]
    · cases before with
      | nil => simp [splitOnce, h]
      | cons b bs =>
        have hne : separator ≠ c := fun h' => h h'.symm
        simp only [splitOnce, h, if_false, Option.map_eq_some_iff, Prod.mk.injEq, Prod.exists,
          List.cons.injEq, List.mem_cons, List.cons_append]
        constructor
        · rintro ⟨x, y, hxy, ⟨rfl, rfl⟩, rfl⟩
          obtain ⟨hnot, rfl⟩ := ih.1 hxy
          exact ⟨by simp [hne, hnot], rfl, rfl⟩
        · rintro ⟨hnot, rfl, rfl⟩
          exact ⟨bs, after, ih.2 ⟨fun h => hnot (.inr h), rfl⟩, ⟨rfl, rfl⟩, rfl⟩

theorem splitOnce_eq_none_iff {separator : Char} {s : List Char} :
    splitOnce separator s = none ↔ separator ∉ s := by
  induction s with
  | nil => simp [splitOnce]
  | cons c cs ih =>
    by_cases h : c = separator
    · simp [splitOnce, h]
    · have hne : separator ≠ c := fun h' => h h'.symm
      simp [splitOnce, h, hne, ih]

/-- `partition`: the text before and after the first separator, and whether there was one. -/
def partition (separator : Char) (s : List Char) : List Char × Bool × List Char :=
  match splitOnce separator s with
  | some (before, after) => (before, true, after)
  | none => (s, false, [])

/-- `str::split_once` at a word: what stands before and after its first occurrence. -/
def splitOnceWord (word : List Char) : List Char → Option (List Char × List Char)
  | [] => if word.isEmpty then some ([], []) else none
  | c :: cs =>
    if word.isPrefixOf (c :: cs) then some ([], (c :: cs).drop word.length)
    else (splitOnceWord word cs).map fun (before, after) => (c :: before, after)

/-- `str::lines`: a line ends at a newline, with a carriage return before it. -/
def lines (s : List Char) : List (List Char) :=
  let parts := s.splitOn '\n'
  let stripCr (line : List Char) := if line.getLast? = some '\r' then line.dropLast else line
  parts.dropLast.map stripCr ++ parts.getLast?.toList.filter fun last => !last.isEmpty

/-- The characters of a text are its separators and those of the pieces between them. -/
theorem mem_iff_mem_splitOn {separator c : Char} {s : List Char} (hc : c ≠ separator) :
    c ∈ s ↔ ∃ part ∈ s.splitOn separator, c ∈ part := by
  induction s with
  | nil => simp
  | cons x xs ih =>
    rw [List.splitOn_cons_eq_if_modifyHead]
    obtain ⟨p, ps, hps⟩ := List.exists_cons_of_ne_nil (List.splitOn_ne_nil separator xs)
    rw [hps] at ih ⊢
    by_cases h : x = separator
    · simp [h, hc, ih]
    · simp [h, ih, or_assoc]

theorem length_le_of_mem_splitOnP {p : Char → Bool} {s part : List Char}
    (h : part ∈ s.splitOnP p) : part.length ≤ s.length := by
  induction s generalizing part with
  | nil => simp_all
  | cons x xs ih =>
    rw [List.splitOnP_cons_eq_if_modifyHead] at h
    obtain ⟨first, rest, hsplit⟩ := List.exists_cons_of_ne_nil (List.splitOnP_ne_nil p xs)
    rw [hsplit] at ih h
    rw [List.length_cons]
    split at h
    · rcases List.mem_cons.1 h with rfl | h
      · simp
      · exact (ih h).trans (Nat.le_succ _)
    · rcases List.mem_cons.1 h with rfl | h
      · exact Nat.succ_le_succ (ih List.mem_cons_self)
      · exact (ih (List.mem_cons_of_mem _ h)).trans (Nat.le_succ _)

theorem length_le_of_mem_splitOn {separator : Char} {s part : List Char}
    (h : part ∈ s.splitOn separator) : part.length ≤ s.length := by
  rw [List.splitOn_eq_splitOnP] at h
  exact length_le_of_mem_splitOnP h

/-! ## Whitespace -/

/-- `str::split_whitespace`: the pieces between whitespace, without the empty ones. -/
def splitWhitespace (s : List Char) : List (List Char) :=
  (s.splitOnP isWhitespace).filter fun token => !token.isEmpty

/-- `str::trim_end`. -/
def trimEnd (s : List Char) : List Char := s.rdropWhile isWhitespace

/-- `str::trim`. -/
def trim (s : List Char) : List Char := trimEnd (s.dropWhile isWhitespace)

theorem splitWhitespace_append_cons {c : Char} (hc : isWhitespace c = true) (u v : List Char) :
    splitWhitespace (u ++ c :: v) = splitWhitespace u ++ splitWhitespace v := by
  unfold splitWhitespace
  rw [List.splitOnP_append_cons u v hc, List.filter_append]

@[simp] theorem splitWhitespace_nil : splitWhitespace [] = [] := rfl

theorem splitWhitespace_cons {c : Char} (hc : isWhitespace c = true) (s : List Char) :
    splitWhitespace (c :: s) = splitWhitespace s :=
  splitWhitespace_append_cons hc [] s

theorem splitWhitespace_append_right (s : List Char) {blanks : List Char}
    (h : ∀ c ∈ blanks, isWhitespace c = true) :
    splitWhitespace (s ++ blanks) = splitWhitespace s := by
  induction blanks generalizing s with
  | nil => simp
  | cons c rest ih =>
    rw [splitWhitespace_append_cons (h c List.mem_cons_self), ← List.nil_append rest,
      ih [] fun d hd => h d (List.mem_cons_of_mem _ hd)]
    simp

theorem splitWhitespace_append_left {blanks : List Char}
    (h : ∀ c ∈ blanks, isWhitespace c = true) (s : List Char) :
    splitWhitespace (blanks ++ s) = splitWhitespace s := by
  induction blanks with
  | nil => rfl
  | cons c rest ih =>
    rw [List.cons_append, splitWhitespace_cons (h c List.mem_cons_self),
      ih fun d hd => h d (List.mem_cons_of_mem _ hd)]

/-- A text is its trimmed form and the whitespace behind it. -/
theorem exists_trimEnd_append (s : List Char) :
    ∃ blanks, s = trimEnd s ++ blanks ∧ ∀ c ∈ blanks, isWhitespace c = true := by
  induction s using List.reverseRecOn with
  | nil => exact ⟨[], rfl, by simp⟩
  | append_singleton s c ih =>
    unfold trimEnd at ih ⊢
    rw [List.rdropWhile_concat]
    split
    · rename_i hc
      obtain ⟨blanks, hs, hb⟩ := ih
      refine ⟨blanks ++ [c], ?_, ?_⟩
      · rw [← List.append_assoc, ← hs]
      · simpa [or_imp, forall_and, hc] using hb
    · exact ⟨[], by simp, by simp⟩

theorem splitWhitespace_trimEnd (s : List Char) :
    splitWhitespace (trimEnd s) = splitWhitespace s := by
  obtain ⟨blanks, hs, hb⟩ := exists_trimEnd_append s
  rw [hs, splitWhitespace_append_right _ hb, ← hs]

theorem length_trimEnd_le (s : List Char) : (trimEnd s).length ≤ s.length := by
  obtain ⟨blanks, hs, -⟩ := exists_trimEnd_append s
  have := congrArg List.length hs
  rw [List.length_append] at this
  omega

/-- A trimmed text does not end in a blank. -/
theorem trimEnd_ne_append (s text : List Char) {c : Char} (hc : isWhitespace c = true) :
    trimEnd s ≠ text ++ [c] := by
  intro heq
  have hne : s.rdropWhile isWhitespace ≠ [] := by
    rw [show s.rdropWhile isWhitespace = text ++ [c] from heq]
    simp
  have hlast := List.rdropWhile_last_not isWhitespace s hne
  simp only [show s.rdropWhile isWhitespace = text ++ [c] from heq, List.getLast_concat] at hlast
  exact hlast hc

/-- A token has no whitespace in it. -/
theorem not_whitespace_of_mem_token {s token : List Char} (h : token ∈ splitWhitespace s) :
    ∀ c ∈ token, isWhitespace c = false := by
  have hparts : ∀ part ∈ s.splitOnP isWhitespace, ∀ c ∈ part, isWhitespace c = false := by
    clear h
    induction s with
    | nil => simp
    | cons x xs ih =>
      rw [List.splitOnP_cons_eq_if_modifyHead]
      obtain ⟨p, ps, hps⟩ := List.exists_cons_of_ne_nil (List.splitOnP_ne_nil isWhitespace xs)
      rw [hps] at ih ⊢
      by_cases hx : isWhitespace x = true
      · simpa [hx] using ih
      · rw [if_neg hx, List.modifyHead_cons]
        simp only [List.mem_cons, forall_eq_or_imp] at ih ⊢
        exact ⟨⟨by simpa using hx, ih.1⟩, ih.2⟩
  exact hparts token (List.mem_of_mem_filter h)

theorem length_le_of_mem_token {s token : List Char} (h : token ∈ splitWhitespace s) :
    token.length ≤ s.length :=
  length_le_of_mem_splitOnP (List.mem_of_mem_filter h)

/-! ## Quoting -/

/-- One lower-case hexadecimal digit. -/
def hexDigit (n : Nat) : Char :=
  if n < 10 then Char.ofNat ('0'.toNat + n) else Char.ofNat ('a'.toNat + (n - 10))

/-- The last `width` hexadecimal digits of `n`. -/
def hex : Nat → Nat → List Char
  | 0, _ => []
  | width + 1, n => hex width (n / 16) ++ [hexDigit (n % 16)]

/-- `char::is_control`. -/
def isControl (c : Char) : Bool := c.toNat ≤ 0x1f || (0x7f ≤ c.toNat && c.toNat ≤ 0x9f)

/-- `repr_str`: a text in quotes, with the other quote where the text holds only one kind. -/
def reprStr (text : String) : String :=
  let quote := if text.toList.contains '\'' && !text.toList.contains '"' then '"' else '\''
  let escape (c : Char) : List Char :=
    if c = '\\' then ['\\', '\\']
    else if c = '\n' then ['\\', 'n']
    else if c = '\r' then ['\\', 'r']
    else if c = '\t' then ['\\', 't']
    else if c = quote then ['\\', c]
    else if c.toNat < 0x20 || c.toNat = 0x7f then '\\' :: 'x' :: hex 2 c.toNat
    else if isControl c then '\\' :: 'u' :: hex 4 c.toNat
    else [c]
  String.ofList ([quote] ++ text.toList.flatMap escape ++ [quote])

end Text

end RtpMux
