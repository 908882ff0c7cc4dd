import RtpMux.Tools.PyreDot
import RtpMux.Tools.PyreParser

/-!
# A pattern with its dots replaced

`replaceDots` puts the text of a class for each dot of a pattern that is neither escaped nor in a
class nor in the name of a group. The parser reads the new text as it reads the old one, with the
node of that class for each dot: it goes through both in step (`Sync`), and only where it reads a
dot the new text has more.
-/

namespace RtpMux.Pyre

open Text (isAsciiDigit)

/-! ## The text -/

/-- Where in a pattern a character stands. -/
inductive Mode where
  | outside
  | escape
  | paren
  | question
  | named
  | name
  | opened
  | inside
  | insideEscape
  | item
  | dash
deriving DecidableEq

/-- Behind a character outside of a class. -/
def Mode.outer (c : Char) : Mode :=
  if c = '\\' then .escape else if c = '[' then .opened else if c = '(' then .paren else .outside

/-- Behind a character of a class that no range goes on from. -/
def Mode.inner (c : Char) : Mode :=
  if c = ']' then .outside else if c = '\\' then .insideEscape else .item

/-- The mode behind a character. -/
def Mode.next : Mode → Char → Mode
  | .outside, c => outer c
  | .escape, _ => .outside
  | .paren, c => if c = '?' then .question else outer c
  | .question, c => if c = 'P' then .named else outer c
  | .named, c => if c = '<' then .name else outer c
  | .name, c => if c = '>' then .outside else .name
  | .opened, c => if c = '^' then .inside else inner c
  | .inside, c => inner c
  | .insideEscape, _ => .inside
  -- a range needs a character on either side of its dash
  | .item, c => if c = '-' then .dash else inner c
  | .dash, c => if c = ']' then .outside else .inside

/-- Whether a dot there is one of the pattern. -/
def Mode.isOuter (m : Mode) : Bool := m = .outside || m = .paren || m = .question || m = .named

/-- The pattern with the text `cls` for each of its dots. -/
def replaceDots (cls : List Char) : Mode → List Char → List Char
  | _, [] => []
  | m, c :: rest =>
    (if c = '.' ∧ m.isOuter = true then cls else [c]) ++ replaceDots cls (m.next c) rest

example : replaceDots "[^\\n]".toList .outside "a.(?P<x.y>[.\\]].\\.)".toList =
    "a[^\\n](?P<x.y>[.\\]][^\\n]\\.)".toList := by decide +kernel

section

variable {cls : List Char}

/-- Inside a class or an escape nothing is replaced. -/
theorem replaceDots_inner {m : Mode} (hm : m.isOuter = false) (c : Char) (rest : List Char) :
    replaceDots cls m (c :: rest) = c :: replaceDots cls (m.next c) rest := by
  simp [replaceDots, hm]

/-- No other character is replaced. -/
theorem replaceDots_of_ne {c : Char} (hc : c ≠ '.') (m : Mode) (rest : List Char) :
    replaceDots cls m (c :: rest) = c :: replaceDots cls (m.next c) rest := by
  simp [replaceDots, hc]

/-- A character that changes nothing. -/
def IsPlain (c : Char) : Prop := c ≠ '.' ∧ c ≠ '\\' ∧ c ≠ '[' ∧ c ≠ '('

instance (c : Char) : Decidable (IsPlain c) := inferInstanceAs (Decidable (_ ∧ _ ∧ _ ∧ _))

theorem outer_of_plain {c : Char} (hc : IsPlain c) : Mode.outer c = .outside := by
  simp [Mode.outer, hc.2.1, hc.2.2.1, hc.2.2.2]

/-- A plain character outside stays outside. -/
theorem replaceDots_plain {c : Char} (hc : IsPlain c) (rest : List Char) :
    replaceDots cls .outside (c :: rest) = c :: replaceDots cls .outside rest := by
  rw [replaceDots_of_ne hc.1, Mode.next, outer_of_plain hc]

/-- Behind a parenthesis only a question mark is special. -/
theorem replaceDots_paren {rest : List Char} (h : rest.head? ≠ some '?') :
    replaceDots cls .paren rest = replaceDots cls .outside rest := by
  cases rest with
  | nil => rfl
  | cons c rest =>
    have hc : c ≠ '?' := by simpa using h
    simp [replaceDots, Mode.isOuter, Mode.next, hc]

theorem replaceDots_opened {rest : List Char} (h : rest.head? ≠ some '^') :
    replaceDots cls .opened rest = replaceDots cls .inside rest := by
  cases rest with
  | nil => rfl
  | cons c rest =>
    have hc : c ≠ '^' := by simpa using h
    simp [replaceDots, Mode.isOuter, Mode.next, hc]

/-- The name of a group stays, up to its closing bracket. -/
theorem replaceDots_name (rest : List Char) :
    replaceDots cls .name rest = rest.takeWhile (· ≠ '>') ++
      match rest.dropWhile (· ≠ '>') with
      | [] => []
      | c :: after => c :: replaceDots cls .outside after := by
  induction rest with
  | nil => rfl
  | cons c rest ih =>
    rw [replaceDots_inner rfl]
    by_cases hc : c = '>'
    · simp [hc, Mode.next]
    · simp [hc, Mode.next, ih]

/-- Digits stay. -/
theorem replaceDots_digits {digits : List Char} (h : ∀ c ∈ digits, isAsciiDigit c = true)
    (rest : List Char) :
    replaceDots cls .outside (digits ++ rest) = digits ++ replaceDots cls .outside rest := by
  induction digits with
  | nil => rfl
  | cons c digits ih =>
    have hdigit := h c (by simp)
    have hplain : IsPlain c := by
      refine ⟨?_, ?_, ?_, ?_⟩
      all_goals
        rintro rfl
        cases hdigit
    rw [List.cons_append, replaceDots_plain hplain, ih fun d hd => h d (List.mem_cons_of_mem _ hd),
      List.cons_append]

end

/-! ## Reading both texts in step -/

/-- The pattern from a position on. -/
def Pattern.rest (p : Pattern) (s : Parser) : List Char := p.chars.drop s.pos

/-- The next character is the head of the rest. -/
theorem Pattern.peek_eq (p : Pattern) (s : Parser) : p.peek s = (p.rest s).head? := by
  rw [Pattern.peek, Pattern.rest, List.head?_drop]

/-- Advancing drops characters. -/
theorem Pattern.rest_advance (p : Pattern) (s : Parser) (n : Nat) :
    p.rest (s.advance n) = (p.rest s).drop n := by
  rw [Pattern.rest, Pattern.rest, Parser.advance, List.drop_drop]

/-- The state of the second parser is that of the first, in the text with the dots replaced. -/
structure Sync (cls : List Char) (p p' : Pattern) (s s' : Parser) : Prop where
  rest : p'.rest s' = replaceDots cls .outside (p.rest s)
  groupCount : s'.groupCount = s.groupCount
  names : s'.names = s.names

/-- The text of the class, and the node that both patterns' parser makes of it. -/
structure ClassText (cls : List Char) (dot : Node) (p p' : Pattern) : Prop where
  head : cls.head? = some '['
  parse : ∀ s rest, p'.rest s = cls ++ rest → p'.cls (s.advance 1) = .ok (dot, s.advance cls.length)
  ignorecase : p'.ignorecase = p.ignorecase
  multiline : p'.multiline = p.multiline

/-- What the first character of a pattern is replaced by. -/
def shown (c : Char) : Char := if c = '.' then '[' else c

section

variable {cls : List Char} {dot : Node} {p p' : Pattern} (hcls : ClassText cls dot p p')

include hcls

/-- The head of the replaced text. -/
theorem head?_replaceDots (rest : List Char) :
    (replaceDots cls .outside rest).head? = rest.head?.map shown := by
  cases rest with
  | nil => rfl
  | cons c rest =>
    by_cases hc : c = '.'
    · obtain ⟨tail, htail⟩ := List.head?_eq_some_iff.1 hcls.head
      simp [replaceDots, hc, Mode.isOuter, htail, shown]
    · simp [replaceDots_of_ne hc, shown, hc]

/-- Both parsers see the same next character, or the one a dot and the other a bracket. -/
theorem Sync.peek {s s' : Parser} (h : Sync cls p p' s s') : p'.peek s' = (p.peek s).map shown := by
  rw [Pattern.peek_eq, Pattern.peek_eq, h.rest, head?_replaceDots hcls]

/-- A character that is no dot stands in both texts, or in neither. -/
theorem Sync.peek_iff {s s' : Parser} (h : Sync cls p p' s s') {c : Char} (hdot : c ≠ '.')
    (hbracket : c ≠ '[') :
    p'.peek s' = some c ↔ p.peek s = some c := by
  rw [Sync.peek hcls h]
  cases p.peek s with
  | none => simp
  | some d =>
    by_cases hd : d = '.'
    · simp [shown, hd, hdot.symm, hbracket.symm]
    · simp [shown, hd]

omit hcls in
/-- Both parsers advance over a plain character. -/
theorem Sync.advance {s s' : Parser} (h : Sync cls p p' s s') {c : Char} (hc : IsPlain c)
    (hpeek : p.peek s = some c) :
    Sync cls p p' (s.advance 1) (s'.advance 1) := by
  rw [Pattern.peek_eq] at hpeek
  obtain ⟨rest, hrest⟩ := List.head?_eq_some_iff.1 hpeek
  refine ⟨?_, h.groupCount, h.names⟩
  rw [Pattern.rest_advance, Pattern.rest_advance, h.rest, hrest, replaceDots_plain hc]
  rfl

omit hcls in
/-- Past what stands in both texts. -/
theorem Sync.skip {s s' : Parser} {rest : List Char} (front : List Char)
    (hold : p.rest s = front ++ rest)
    (hnew : p'.rest s' = front ++ replaceDots cls .outside rest)
    (hcount : s'.groupCount = s.groupCount)
    (hnames : s'.names = s.names) : Sync cls p p' (s.advance front.length)
    (s'.advance front.length) := by
  refine ⟨?_, hcount, hnames⟩
  rw [Pattern.rest_advance, Pattern.rest_advance, hold, hnew, List.drop_left, List.drop_left]

omit hcls in
theorem not_isAsciiDigit_shown {c : Char} (h : isAsciiDigit c = false) :
    isAsciiDigit (shown c) = false := by
  unfold shown
  split
  · rfl
  · exact h

/-- Both parsers read the same digits. -/
theorem Sync.digits {s s' : Parser} (h : Sync cls p p' s s') :
    p'.digits s' = p.digits s ∧
      Sync cls p p' (s.advance (p.digits s).length) (s'.advance (p.digits s).length) := by
  have hrest : p'.rest s' = p.digits s ++
      replaceDots cls .outside ((p.rest s).dropWhile isAsciiDigit) := by
    rw [h.rest]
    conv_lhs => rw [← List.takeWhile_append_dropWhile (p := isAsciiDigit) (l := p.rest s)]
    exact replaceDots_digits (fun c hc => List.mem_takeWhile_imp hc) _
  have hdigits : p'.digits s' = p.digits s := by
    change (p'.rest s').takeWhile isAsciiDigit = _
    rw [hrest, List.takeWhile_append_of_pos fun c hc => List.mem_takeWhile_imp hc]
    have hhead := head?_replaceDots hcls ((p.rest s).dropWhile isAsciiDigit)
    cases htail : replaceDots cls .outside ((p.rest s).dropWhile isAsciiDigit) with
    | nil => simp
    | cons c tail =>
      have hnot := List.head?_dropWhile_not isAsciiDigit (p.rest s)
      rw [htail] at hhead
      cases hold : ((p.rest s).dropWhile isAsciiDigit).head? with
      | none => simp [hold] at hhead
      | some d =>
        rw [hold] at hhead hnot
        have hc : c = shown d := Option.some.inj hhead
        simp [hc, not_isAsciiDigit_shown hnot]
  refine ⟨hdigits, ?_, h.groupCount, h.names⟩
  have hdrop : (p.rest s).drop (p.digits s).length = (p.rest s).dropWhile isAsciiDigit := by
    conv_lhs => rw [← List.takeWhile_append_dropWhile (p := isAsciiDigit) (l := p.rest s)]
    exact List.drop_left
  rw [Pattern.rest_advance, Pattern.rest_advance, hrest, List.drop_left, hdrop]

end

/-! ## Quantifiers -/

section

variable {cls : List Char} {dot : Node} {p p' : Pattern} (hcls : ClassText cls dot p p')

include hcls

/-- Both parsers read the same upper count. -/
theorem Sync.highCount {s s' t : Parser} (h : Sync cls p p' s s') {low : List Char} {high : Nat}
    (hread : p.highCount low s = .ok (high, t)) :
    ∃ t', p'.highCount low s' = .ok (high, t') ∧ Sync cls p p' t t' := by
  have hiff := Sync.peek_iff hcls h (c := ',') (by decide) (by decide)
  unfold Pattern.highCount at hread ⊢
  split at hread
  · next hcomma =>
    obtain ⟨hdigits, hsync⟩ := Sync.digits hcls (h.advance (by decide) hcomma)
    rw [if_pos (hiff.2 hcomma)]
    dsimp only at hread ⊢
    rw [hdigits]
    split at hread
    · next hempty =>
      cases hread
      exact ⟨_, if_pos hempty, hsync⟩
    · next hempty =>
      rw [if_neg hempty]
      split at hread
      · next value hvalue =>
        cases hread
        exact ⟨_, rfl, hsync⟩
      · cases hread
  · next hcomma =>
    rw [if_neg (mt hiff.1 hcomma)]
    split at hread
    · cases hread
      exact ⟨_, rfl, h⟩
    · cases hread

/-- The same quantifier is read, or none. -/
theorem Sync.quantifier {s s' : Parser} (h : Sync cls p p' s s') {q : Option (Nat × Nat × Parser)}
    (hread : p.quantifier s = .ok q) :
    match q with
    | none => p'.quantifier s' = .ok none
    | some (min, max, t) => ∃ t', p'.quantifier s' = .ok (some (min, max, t')) ∧
      Sync cls p p' t t' := by
  have hpeek := Sync.peek hcls h
  by_cases hbrace : p.peek s = some '{'
  · have hbrace' : p'.peek s' = some '{' := by rw [hpeek, hbrace]; rfl
    obtain ⟨hdigits, hsync⟩ := Sync.digits hcls (h.advance (by decide) hbrace)
    rw [quantifier_brace hbrace] at hread
    rw [quantifier_brace hbrace', hdigits]
    dsimp only at hread ⊢
    split at hread
    · next hempty =>
      cases hread
      exact if_pos hempty
    · next hempty =>
      rw [if_neg hempty]
      cases hhigh : p.highCount (p.digits (s.advance 1))
        ((s.advance 1).advance (p.digits (s.advance 1)).length) with
      | error e =>
        rw [hhigh] at hread
        cases hread
      | ok got =>
        obtain ⟨high, t⟩ := got
        obtain ⟨t', hhigh', hsync'⟩ := Sync.highCount hcls hsync hhigh
        rw [hhigh] at hread
        simp only [Except.bind] at hread
        have hclose := Sync.peek_iff hcls hsync' (c := '}') (by decide) (by decide)
        simp only [hhigh', Except.bind, ne_eq, hclose]
        split at hread
        · next hopen =>
          cases hread
          exact if_pos hopen
        · next hclosed =>
          have hsome : p.peek t = some '}' := not_not.1 hclosed
          split at hread
          · next low hlow =>
            cases hread
            refine ⟨_, ?_, hsync'.advance (by decide) hsome⟩
            simp [hsome]
          · cases hread
  · by_cases hchar : ∃ c min max, (c, min, max) ∈ quantifiers ∧ p.peek s = some c
    · obtain ⟨c, min, max, hmem, hc⟩ := hchar
      have hplain : IsPlain c ∧ shown c = c := by
        simp only [quantifiers, List.mem_cons, List.not_mem_nil, or_false, Prod.mk.injEq] at hmem
        rcases hmem with ⟨rfl, -⟩ | ⟨rfl, -⟩ | ⟨rfl, -⟩
        · decide
        · decide
        · decide
      rw [quantifier_char hmem hc] at hread
      cases hread
      have hc' : p'.peek s' = some c := by rw [hpeek, hc, Option.map_some, hplain.2]
      exact ⟨_, quantifier_char hmem hc', h.advance hplain.1 hc⟩
    · have hother : ∀ c, p.peek s = some c → c ≠ '*' ∧ c ≠ '+' ∧ c ≠ '?' ∧ c ≠ '{' := by
        intro c hc
        refine ⟨?_, ?_, ?_, ?_⟩
        all_goals rintro rfl
        · exact hchar ⟨_, _, _, List.mem_cons_self, hc⟩
        · exact hchar ⟨_, _, _, List.mem_cons_of_mem _ List.mem_cons_self, hc⟩
        · exact hchar ⟨_, _, _,
            List.mem_cons_of_mem _ (List.mem_cons_of_mem _ List.mem_cons_self), hc⟩
        · exact hbrace hc
      rw [quantifier_none hother] at hread
      cases hread
      refine quantifier_none fun c hc => ?_
      rw [hpeek] at hc
      obtain ⟨d, hd, rfl⟩ := Option.map_eq_some_iff.1 hc
      have hne := hother d hd
      unfold shown
      split
      · decide
      · exact hne

end

/-! ## Classes -/

theorem Pattern.peek_advance (p : Pattern) (s : Parser) (n : Nat) :
    p.peek (s.advance n) = ((p.rest s).drop n).head? := by
  rw [Pattern.peek_eq, Pattern.rest_advance]

/-- The item that an escape in a class stands for. -/
def Pattern.escapedItem (p : Pattern) (escaped : Char) : ClassItem :=
  (escapedClass escaped).getD
    (.range (p.foldChar (escapedChar escaped)) (p.foldChar (escapedChar escaped)))

section

variable {p : Pattern} {s : Parser} {fuel : Nat} {items : List ClassItem} {rest : List Char}

/-- A bracket closes a class. -/
theorem classItems_close (h : p.rest s = ']' :: rest) : p.classItems (fuel + 1) items s = .ok
    (items, s.advance 1) := by
  have hpeek : p.peek s = some ']' := by rw [Pattern.peek_eq, h]; rfl
  rw [Pattern.classItems, hpeek]
  rfl

/-- An escape is an item of a class. -/
theorem classItems_escape {escaped : Char} (h : p.rest s = '\\' :: escaped :: rest) :
    p.classItems (fuel + 1) items s = p.classItems fuel (items ++ [p.escapedItem escaped])
      (s.advance 2) := by
  have hpeek : p.peek s = some '\\' := by rw [Pattern.peek_eq, h]; rfl
  have hnext : p.peek (s.advance 1) = some escaped := by rw [Pattern.peek_advance, h]; rfl
  rw [Pattern.classItems, hpeek]
  simp only [hnext, Pattern.escapedItem]
  cases escapedClass escaped <;> rfl

/-- A range is an item of a class. -/
theorem classItems_range {c high : Char} (hclose : c ≠ ']') (hescape : c ≠ '\\')
    (hhigh : high ≠ ']')
    (h : p.rest s = c :: '-' :: high :: rest) :
    p.classItems (fuel + 1) items s =
      p.classItems fuel (items ++ [ClassItem.range (p.foldChar c) (p.foldChar high)])
        (s.advance 3) := by
  have hpeek : p.peek s = some c := by rw [Pattern.peek_eq, h]; rfl
  have hdash : p.peek (s.advance 1) = some '-' := by rw [Pattern.peek_advance, h]; rfl
  have hnext : p.peek (s.advance 2) = some high := by rw [Pattern.peek_advance, h]; rfl
  rw [Pattern.classItems, hpeek]
  split
  · next heq => cases heq
  · next heq => exact absurd (Option.some.inj heq) hclose
  · next heq => exact absurd (Option.some.inj heq) hescape
  · next heq =>
    cases heq
    simp [hdash, hnext, hhigh]

/-- A dash and a character behind it that make a range of what stands before. -/
def opensRange (rest : List Char) : Prop := ∃ high after, rest = '-' :: high :: after ∧ high ≠ ']'

/-- A character is an item of a class. -/
theorem classItems_single {c : Char} (hclose : c ≠ ']') (hescape : c ≠ '\\')
    (hrange : ¬ opensRange rest)
    (h : p.rest s = c :: rest) :
    p.classItems (fuel + 1) items s =
      p.classItems fuel (items ++ [ClassItem.range (p.foldChar c) (p.foldChar c)])
        (s.advance 1) := by
  have hpeek : p.peek s = some c := by rw [Pattern.peek_eq, h]; rfl
  have hnext : p.peek (s.advance 1) = rest.head? := by rw [Pattern.peek_advance, h]; rfl
  have hlast : p.peek (s.advance 2) = rest.tail.head? := by
    rw [Pattern.peek_advance, h, ← List.drop_one]
    rfl
  rw [Pattern.classItems, hpeek]
  split
  · next heq => cases heq
  · next heq => exact absurd (Option.some.inj heq) hclose
  · next heq => exact absurd (Option.some.inj heq) hescape
  · next heq =>
    cases heq
    rw [hnext, hlast]
    split
    · next high hdash hhigh =>
      obtain ⟨tail, rfl⟩ := List.head?_eq_some_iff.1 hdash
      obtain ⟨after, hafter⟩ := List.head?_eq_some_iff.1 hhigh
      rw [List.tail_cons] at hafter
      by_cases hend : high = ']'
      · rw [if_pos hend]
      · exact absurd ⟨high, after, by rw [hafter], hend⟩ hrange
    · rfl

end

/-- Between two items of a class, in the mode that the characters before leave behind. -/
inductive AtItem : Mode → List Char → Prop
  | inside {rest : List Char} : AtItem .inside rest
  | item {rest : List Char} : ¬ opensRange rest → AtItem .item rest
  | dash {rest : List Char} : (∀ c, rest.head? = some c → c = ']') → AtItem .dash rest

/-- A range is opened by a dash that does not end the class. -/
theorem opensRange_iff {c : Char} {rest : List Char} : opensRange (c :: rest) ↔ c = '-' ∧
    ∃ high, rest.head? = some high ∧ high ≠ ']' := by
  constructor
  · rintro ⟨high, after, heq, hhigh⟩
    cases heq
    exact ⟨rfl, high, rfl, hhigh⟩
  · rintro ⟨rfl, high, hhead, hhigh⟩
    obtain ⟨after, rfl⟩ := List.head?_eq_some_iff.1 hhead
    exact ⟨high, after, rfl, hhigh⟩

/-- What follows one character of a class, in the mode behind it. -/
theorem AtItem.next {m : Mode} {c : Char} {rest : List Char} (h : AtItem m (c :: rest))
    (hclose : c ≠ ']')
    (hescape : c ≠ '\\') (hrange : ¬ opensRange rest) : AtItem (m.next c) rest := by
  cases h with
  | inside =>
    rw [Mode.next, Mode.inner, if_neg hclose, if_neg hescape]
    exact .item hrange
  | item hbefore =>
    rw [Mode.next]
    split
    · next hdash =>
      refine .dash fun d hd => ?_
      by_contra hne
      exact hbefore (opensRange_iff.2 ⟨hdash, d, hd, hne⟩)
    · rw [Mode.inner, if_neg hclose, if_neg hescape]
      exact .item hrange
  | dash hbefore => exact absurd (hbefore c rfl) hclose

theorem AtItem.isOuter {m : Mode} {rest : List Char} (h : AtItem m rest) : m.isOuter = false := by
  cases h <;> rfl

section

variable {cls : List Char}

theorem replaceDots_item_close {m : Mode} {rest : List Char} (h : AtItem m (']' :: rest)) :
    replaceDots cls m (']' :: rest) = ']' :: replaceDots cls .outside rest := by
  rw [replaceDots_inner h.isOuter]
  cases h <;> rfl

theorem replaceDots_item_escape {m : Mode} {c : Char} {rest : List Char}
    (h : AtItem m ('\\' :: c :: rest)) :
    replaceDots cls m ('\\' :: c :: rest) = '\\' :: c :: replaceDots cls .inside rest := by
  have hnext : m.next '\\' = .insideEscape := by
    cases h with
    | inside => rfl
    | item => rfl
    | dash hbefore => cases hbefore '\\' rfl
  rw [replaceDots_inner h.isOuter, hnext, replaceDots_inner rfl]
  rfl

/-- A range in a class stays. -/
theorem replaceDots_item_range {m : Mode} {c high : Char} {rest : List Char}
    (h : AtItem m (c :: '-' :: high :: rest))
    (hclose : c ≠ ']') (hescape : c ≠ '\\') (hhigh : high ≠ ']') :
    replaceDots cls m (c :: '-' :: high :: rest) = c :: '-' :: high ::
      replaceDots cls .inside rest := by
  have hnext : m.next c = .item := by
    cases h with
    | inside => rw [Mode.next, Mode.inner, if_neg hclose, if_neg hescape]
    | item hbefore =>
      have hdash : c ≠ '-' := fun hdash => hbefore (opensRange_iff.2 ⟨hdash, '-', rfl, by decide⟩)
      rw [Mode.next, if_neg hdash, Mode.inner, if_neg hclose, if_neg hescape]
    | dash hbefore => exact absurd (hbefore c rfl) hclose
  have hlast : Mode.next .dash high = .inside := if_neg hhigh
  rw [replaceDots_inner h.isOuter, hnext, replaceDots_inner rfl,
    show Mode.next .item '-' = .dash from rfl,
    replaceDots_inner rfl, hlast]

/-- Replacing dots opens no range. -/
theorem opensRange_replaceDots {m : Mode} {rest : List Char} (h : AtItem m rest)
    (hrange : ¬ opensRange rest) :
    ¬ opensRange (replaceDots cls m rest) := by
  cases rest with
  | nil => exact hrange
  | cons c rest =>
    rw [replaceDots_inner h.isOuter, opensRange_iff]
    rw [opensRange_iff] at hrange
    rintro ⟨rfl, high, hhead, hhigh⟩
    refine hrange ⟨rfl, ?_⟩
    have hinner : (m.next '-').isOuter = false := by
      cases h with
      | inside => rfl
      | item => rfl
      | dash hbefore => cases hbefore '-' rfl
    cases rest with
    | nil => cases hhead
    | cons d rest =>
      rw [replaceDots_inner hinner, List.head?_cons] at hhead
      exact ⟨high, hhead, hhigh⟩

end

section

variable {cls : List Char} {dot : Node} {p p' : Pattern} (hcls : ClassText cls dot p p')

include hcls

theorem foldChar_eq (c : Char) : p'.foldChar c = p.foldChar c := by
  rw [Pattern.foldChar, Pattern.foldChar, hcls.ignorecase]

/-- A class that ends is read in both texts. -/
theorem classItems_sync {fuel fuel' : Nat} (hfuel : fuel ≤ fuel') {items items' : List ClassItem}
    {m : Mode}
    {s s' t : Parser} (hat : AtItem m (p.rest s))
    (hrest : p'.rest s' = replaceDots cls m (p.rest s))
    (hcount : s'.groupCount = s.groupCount) (hnames : s'.names = s.names)
    (h : p.classItems fuel items s = .ok (items', t)) :
    ∃ t', p'.classItems fuel' items s' = .ok (items', t') ∧ Sync cls p p' t t' := by
  -- the induction is on the fuel of the first parser; the second has at least as much
  induction fuel generalizing fuel' items m s s' with
  | zero => cases h
  | succ fuel ih =>
    obtain ⟨fuel', rfl⟩ : ∃ n, fuel' = n + 1 := ⟨fuel' - 1, by omega⟩
    have hfuel : fuel ≤ fuel' := by omega
    cases hold : p.rest s with
    | nil =>
      have hpeek : p.peek s = none := by rw [Pattern.peek_eq, hold]; rfl
      rw [Pattern.classItems, hpeek] at h
      cases h
    | cons c rest =>
      rw [hold] at hat hrest
      by_cases hclose : c = ']'
      · subst hclose
        rw [classItems_close hold] at h
        cases h
        rw [replaceDots_item_close hat] at hrest
        refine ⟨_, classItems_close hrest, ?_, hcount, hnames⟩
        rw [Pattern.rest_advance, Pattern.rest_advance, hrest, hold]
        rfl
      by_cases hescape : c = '\\'
      · subst hescape
        cases rest with
        | nil =>
          have hpeek : p.peek s = some '\\' := by rw [Pattern.peek_eq, hold]; rfl
          have hnext : p.peek (s.advance 1) = none := by rw [Pattern.peek_advance, hold]; rfl
          rw [Pattern.classItems, hpeek] at h
          simp only [hnext] at h
          cases h
        | cons e rest =>
          rw [classItems_escape hold] at h
          rw [replaceDots_item_escape hat] at hrest
          rw [classItems_escape hrest]
          have hitem : p'.escapedItem e = p.escapedItem e := by
            simp only [Pattern.escapedItem, foldChar_eq hcls]
          rw [hitem]
          refine ih hfuel (m := .inside) (s := s.advance 2) .inside ?_ hcount hnames h
          rw [Pattern.rest_advance, Pattern.rest_advance, hrest, hold]
          rfl
      by_cases hrange : opensRange rest
      · obtain ⟨high, after, rfl, hhigh⟩ := hrange
        rw [classItems_range hclose hescape hhigh hold] at h
        rw [replaceDots_item_range hat hclose hescape hhigh] at hrest
        rw [classItems_range hclose hescape hhigh hrest, foldChar_eq hcls, foldChar_eq hcls]
        refine ih hfuel (m := .inside) (s := s.advance 3) .inside ?_ hcount hnames h
        rw [Pattern.rest_advance, Pattern.rest_advance, hrest, hold]
        rfl
      · have hnext := hat.next hclose hescape hrange
        rw [classItems_single hclose hescape hrange hold] at h
        rw [replaceDots_inner hat.isOuter] at hrest
        rw [classItems_single hclose hescape (opensRange_replaceDots hnext hrange) hrest,
          foldChar_eq hcls]
        have hrest' : p.rest (s.advance 1) = rest := by rw [Pattern.rest_advance, hold]; rfl
        refine ih hfuel (m := m.next c) (s := s.advance 1) (hrest' ▸ hnext) ?_ hcount hnames h
        rw [hrest', Pattern.rest_advance, hrest]
        rfl

/-- Both parsers read the same class. -/
theorem cls_sync (hlength : p.chars.length ≤ p'.chars.length) {s s' t : Parser} {node : Node}
    (hrest : p'.rest s' = replaceDots cls .opened (p.rest s))
    (hcount : s'.groupCount = s.groupCount)
    (hnames : s'.names = s.names) (h : p.cls s = .ok (node, t)) :
    ∃ t', p'.cls s' = .ok (substDot dot node, t') ∧ Sync cls p p' t t' := by
  have hpeek : p'.peek s' = p.peek s := by
    rw [Pattern.peek_eq, Pattern.peek_eq, hrest]
    cases p.rest s with
    | nil => rfl
    | cons c rest => rw [replaceDots_inner rfl]; rfl
  have hfuel : p.chars.length + 1 ≤ p'.chars.length + 1 := by omega
  -- behind the opening bracket, or behind the caret too
  obtain ⟨s₁, s₁', hs, hs', hrest₁, hcount₁, hnames₁⟩ : ∃ s₁ s₁',
      (if p.peek s = some '^' then s.advance 1 else s) = s₁ ∧
        (if p.peek s = some '^' then s'.advance 1 else s') = s₁' ∧
        p'.rest s₁' = replaceDots cls .inside (p.rest s₁) ∧ s₁'.groupCount = s₁.groupCount ∧
          s₁'.names = s₁.names := by
    by_cases hcaret : p.peek s = some '^'
    · rw [if_pos hcaret, if_pos hcaret]
      refine ⟨_, _, rfl, rfl, ?_, hcount, hnames⟩
      rw [Pattern.peek_eq] at hcaret
      obtain ⟨rest, hold⟩ := List.head?_eq_some_iff.1 hcaret
      rw [Pattern.rest_advance, Pattern.rest_advance, hrest, hold, replaceDots_inner rfl]
      rfl
    · rw [if_neg hcaret, if_neg hcaret]
      refine ⟨_, _, rfl, rfl, ?_, hcount, hnames⟩
      rw [Pattern.peek_eq] at hcaret
      rw [hrest, replaceDots_opened hcaret]
  unfold Pattern.cls at h ⊢
  simp only [hpeek, hs, hs'] at h ⊢
  cases hitems : p.classItems (p.chars.length + 1) [] s₁ with
  | error e =>
    rw [hitems] at h
    cases h
  | ok got =>
    obtain ⟨items, t₁⟩ := got
    obtain ⟨t', hitems', hsync⟩ := classItems_sync hcls hfuel .inside hrest₁ hcount₁ hnames₁ hitems
    rw [hitems] at h
    cases h
    rw [hitems']
    exact ⟨t', rfl, hsync⟩

end

/-! ## Escapes and named groups -/

section

variable {cls : List Char} {dot : Node} {p p' : Pattern} (hcls : ClassText cls dot p p')

include hcls

/-- Both parsers read the same escape. -/
theorem escape_sync {s s' t : Parser} {node : Node}
    (hrest : p'.rest s' = replaceDots cls .escape (p.rest s))
    (hcount : s'.groupCount = s.groupCount) (hnames : s'.names = s.names)
    (h : p.escape s = .ok (node, t)) :
    ∃ t', p'.escape s' = .ok (substDot dot node, t') ∧ Sync cls p p' t t' := by
  cases hold : p.rest s with
  | nil =>
    have hpeek : p.peek s = none := by rw [Pattern.peek_eq, hold]; rfl
    rw [Pattern.escape, hpeek] at h
    cases h
  | cons c rest =>
    rw [hold, replaceDots_inner rfl] at hrest
    have hpeek : p.peek s = some c := by rw [Pattern.peek_eq, hold]; rfl
    have hpeek' : p'.peek s' = some c := by rw [Pattern.peek_eq, hrest]; rfl
    have hsync : Sync cls p p' (s.advance 1) (s'.advance 1) := by
      refine ⟨?_, hcount, hnames⟩
      rw [Pattern.rest_advance, Pattern.rest_advance, hrest, hold]
      rfl
    unfold Pattern.escape at h ⊢
    rw [hpeek] at h
    rw [hpeek']
    dsimp only at h ⊢
    split at h
    · cases h
      exact ⟨_, rfl, hsync⟩
    · cases h
      exact ⟨_, rfl, hsync⟩
    · cases h
      exact ⟨_, rfl, hsync⟩
    · cases h
      exact ⟨_, rfl, hsync⟩
    · split at h
      · cases h
        exact ⟨_, rfl, hsync⟩
      · cases h
        rw [foldChar_eq hcls]
        exact ⟨_, rfl, hsync⟩

end

/-! ## The parser -/

/-- The group behind a parenthesis and `?P<`, from its question mark on. -/
def Pattern.namedGroup (p : Pattern) (fuel : Nat) (s : Parser) :
    Except RegexError (Node × Parser) :=
  let name := (p.rest (s.advance 3)).takeWhile (· ≠ '>')
  let s := s.advance (3 + name.length)
  if p.peek s ≠ some '>' then .error .unterminatedGroupName
  else
    p.closeGroup fuel (some (s.groupCount + 1))
      { pos := s.pos + 1, groupCount := s.groupCount + 1
        names := (String.ofList name, s.groupCount + 1) :: s.names }

/-- The group behind a parenthesis, from its question mark on. -/
def Pattern.extension (p : Pattern) (fuel : Nat) (s : Parser) : Except RegexError (Node × Parser) :=
  match p.peek (s.advance 1) with
  | some ':' => p.closeGroup fuel none (s.advance 2)
  | some '=' => p.closeLook fuel true (s.advance 2)
  | some '!' => p.closeLook fuel false (s.advance 2)
  | some 'P' =>
    if p.peek (s.advance 2) = some '<' then p.namedGroup fuel s
    else .error (.unsupportedExtension (some 'P'))
  | other => .error (.unsupportedExtension other)

theorem atom_group {p : Pattern} {fuel : Nat} {s : Parser} (h : p.peek s = some '(') :
    p.atom (fuel + 1) s =
    if p.peek (s.advance 1) = some '?' then p.extension fuel (s.advance 1)
    else p.closeGroup fuel (some (s.groupCount + 1)) { s.advance 1 with
      groupCount := s.groupCount + 1 } := by
  rw [Pattern.atom, h]
  rfl

theorem atom_class {p : Pattern} {fuel : Nat} {s : Parser} (h : p.peek s = some '[') :
    p.atom (fuel + 1) s = p.cls (s.advance 1) := by
  rw [Pattern.atom, h]
  rfl

theorem atom_escape {p : Pattern} {fuel : Nat} {s : Parser} (h : p.peek s = some '\\') :
    p.atom (fuel + 1) s = p.escape (s.advance 1) := by
  rw [Pattern.atom, h]
  rfl

section

variable (cls : List Char) (dot : Node) (p p' : Pattern)

/-- What the second parser makes of the second text: the same, with the other node for the dot. -/
def SameNode (parse parse' : Parser → Except RegexError (Node × Parser)) : Prop :=
  ∀ {s s' : Parser}, Sync cls p p' s s' → ∀ {node : Node} {t : Parser}, parse s = .ok (node, t) →
    ∃ t', parse' s' = .ok (substDot dot node, t') ∧ Sync cls p p' t t'

/-- `SameNode` for lists of nodes. -/
def SameNodes (parse parse' : Parser → Except RegexError (List Node × Parser)) : Prop :=
  ∀ {s s' : Parser}, Sync cls p p' s s' → ∀ {nodes : List Node} {t : Parser},
    parse s = .ok (nodes, t) →
    ∃ t', parse' s' = .ok (substDotAll dot nodes, t') ∧ Sync cls p p' t t'

/-- The two parsers agree, the second with at least as much fuel. -/
structure Simulated (fuel : Nat) : Prop where
  alternation : ∀ {fuel'}, fuel ≤ fuel' →
    SameNode cls dot p p' (p.alternation fuel) (p'.alternation fuel')
  branches : ∀ {fuel'}, fuel ≤ fuel' → SameNodes cls dot p p' (p.branches fuel) (p'.branches fuel')
  sequence : ∀ {fuel'}, fuel ≤ fuel' → SameNode cls dot p p' (p.sequence fuel) (p'.sequence fuel')
  items : ∀ {fuel'}, fuel ≤ fuel' → SameNodes cls dot p p' (p.items fuel) (p'.items fuel')
  quantified : ∀ {fuel'}, fuel ≤ fuel' →
    SameNode cls dot p p' (p.quantified fuel) (p'.quantified fuel')
  atom : ∀ {fuel'}, fuel ≤ fuel' → SameNode cls dot p p' (p.atom fuel) (p'.atom fuel')
  closeGroup : ∀ {fuel'}, fuel ≤ fuel' → ∀ index,
    SameNode cls dot p p' (p.closeGroup fuel index) (p'.closeGroup fuel' index)
  closeLook : ∀ {fuel'}, fuel ≤ fuel' → ∀ positive,
    SameNode cls dot p p' (p.closeLook fuel positive) (p'.closeLook fuel' positive)

theorem simulated_zero : Simulated cls dot p p' 0 where
  alternation _ _ _ _ _ _ h := by cases h
  branches _ _ _ _ _ _ h := by cases h
  sequence _ _ _ _ _ _ h := by cases h
  items _ _ _ _ _ _ h := by cases h
  quantified _ _ _ _ _ _ h := by cases h
  atom _ _ _ _ _ _ h := by cases h
  closeGroup _ _ _ _ _ _ _ h := by cases h
  closeLook _ _ _ _ _ _ _ h := by cases h

end

section

variable {cls : List Char} {dot : Node} {p p' : Pattern} (hcls : ClassText cls dot p p')
  {fuel fuel' : Nat}
  (ih : Simulated cls dot p p' fuel) (hfuel : fuel ≤ fuel')

include hcls ih hfuel

omit hcls in
/-- Both parsers read the same alternation, if all below is. -/
theorem alternation_sync : SameNode cls dot p p' (p.alternation (fuel + 1))
    (p'.alternation (fuel' + 1)) := by
  intro s s' hs node t h
  unfold Pattern.alternation at h ⊢
  cases hfirst : p.sequence fuel s with
  | error e =>
    rw [hfirst] at h
    cases h
  | ok got =>
    obtain ⟨branch, s₁⟩ := got
    obtain ⟨s₁', hfirst', hs₁⟩ := ih.sequence hfuel hs hfirst
    rw [hfirst] at h
    simp only [hfirst', bind, Except.bind] at h ⊢
    cases hmore : p.branches fuel s₁ with
    | error e =>
      rw [hmore] at h
      cases h
    | ok got =>
      obtain ⟨branches, s₂⟩ := got
      obtain ⟨s₂', hmore', hs₂⟩ := ih.branches hfuel hs₁ hmore
      rw [hmore] at h
      rw [hmore']
      cases branches with
      | nil =>
        cases h
        exact ⟨s₂', rfl, hs₂⟩
      | cons second branches =>
        cases h
        exact ⟨s₂', rfl, hs₂⟩

/-- Both parsers read the same branches, if all below is. -/
theorem branches_sync : SameNodes cls dot p p' (p.branches (fuel + 1))
    (p'.branches (fuel' + 1)) := by
  intro s s' hs nodes t h
  have hbar := Sync.peek_iff hcls hs (c := '|') (by decide) (by decide)
  unfold Pattern.branches at h ⊢
  split at h
  · next hpeek =>
    rw [if_pos (hbar.2 hpeek)]
    have hs := hs.advance (by decide) hpeek
    cases hfirst : p.sequence fuel (s.advance 1) with
    | error e =>
      rw [hfirst] at h
      cases h
    | ok got =>
      obtain ⟨branch, s₁⟩ := got
      obtain ⟨s₁', hfirst', hs₁⟩ := ih.sequence hfuel hs hfirst
      rw [hfirst] at h
      simp only [hfirst', bind, Except.bind] at h ⊢
      cases hmore : p.branches fuel s₁ with
      | error e =>
        rw [hmore] at h
        cases h
      | ok got =>
        obtain ⟨branches, s₂⟩ := got
        obtain ⟨s₂', hmore', hs₂⟩ := ih.branches hfuel hs₁ hmore
        rw [hmore] at h
        cases h
        rw [hmore']
        exact ⟨s₂', rfl, hs₂⟩
  · next hpeek =>
    cases h
    exact ⟨s', if_neg (mt hbar.1 hpeek), hs⟩

omit hcls in
/-- Both parsers read the same sequence, if all below is. -/
theorem sequence_sync : SameNode cls dot p p' (p.sequence (fuel + 1))
    (p'.sequence (fuel' + 1)) := by
  intro s s' hs node t h
  unfold Pattern.sequence at h ⊢
  cases hitems : p.items fuel s with
  | error e =>
    rw [hitems] at h
    cases h
  | ok got =>
    obtain ⟨items, s₁⟩ := got
    obtain ⟨s₁', hitems', hs₁⟩ := ih.items hfuel hs hitems
    rw [hitems] at h
    rw [hitems']
    rcases items with _ | ⟨first, _ | ⟨second, items⟩⟩
    · cases h
      exact ⟨s₁', rfl, hs₁⟩
    · cases h
      exact ⟨s₁', rfl, hs₁⟩
    · cases h
      exact ⟨s₁', rfl, hs₁⟩

/-- Both parsers read the same items, if all below is. -/
theorem items_sync : SameNodes cls dot p p' (p.items (fuel + 1)) (p'.items (fuel' + 1)) := by
  intro s s' hs nodes t h
  have hpeek := Sync.peek hcls hs
  unfold Pattern.items at h ⊢
  cases hc : p.peek s with
  | none =>
    rw [hc] at h hpeek
    cases h
    rw [hpeek]
    exact ⟨s', rfl, hs⟩
  | some c =>
    rw [hc] at h hpeek
    rw [hpeek]
    simp only [Option.map_some] at h ⊢
    have hends : (shown c = '|' ∨ shown c = ')') ↔ (c = '|' ∨ c = ')') := by
      unfold shown
      split
      · next hdot =>
        rw [hdot]
        decide
      · rfl
    split at h
    · next hend =>
      cases h
      rw [if_pos (hends.2 hend)]
      exact ⟨s', rfl, hs⟩
    · next hend =>
      rw [if_neg (mt hends.1 hend)]
      cases hfirst : p.quantified fuel s with
      | error e =>
        rw [hfirst] at h
        cases h
      | ok got =>
        obtain ⟨item, s₁⟩ := got
        obtain ⟨s₁', hfirst', hs₁⟩ := ih.quantified hfuel hs hfirst
        rw [hfirst] at h
        simp only [hfirst', bind, Except.bind] at h ⊢
        cases hmore : p.items fuel s₁ with
        | error e =>
          rw [hmore] at h
          cases h
        | ok got =>
          obtain ⟨items, s₂⟩ := got
          obtain ⟨s₂', hmore', hs₂⟩ := ih.items hfuel hs₁ hmore
          rw [hmore] at h
          cases h
          rw [hmore']
          exact ⟨s₂', rfl, hs₂⟩

/-- Both parsers read the same quantified item, if all below is. -/
theorem quantified_sync : SameNode cls dot p p' (p.quantified (fuel + 1))
    (p'.quantified (fuel' + 1)) := by
  intro s s' hs node t h
  unfold Pattern.quantified at h ⊢
  cases hatom : p.atom fuel s with
  | error e =>
    rw [hatom] at h
    cases h
  | ok got =>
    obtain ⟨atom, s₁⟩ := got
    obtain ⟨s₁', hatom', hs₁⟩ := ih.atom hfuel hs hatom
    rw [hatom] at h
    simp only [hatom', bind, Except.bind] at h ⊢
    cases hquantifier : p.quantifier s₁ with
    | error e =>
      rw [hquantifier] at h
      cases h
    | ok q =>
      have hsync := Sync.quantifier hcls hs₁ hquantifier
      rw [hquantifier] at h
      cases q with
      | none =>
        rw [hsync]
        cases h
        exact ⟨s₁', rfl, hs₁⟩
      | some q =>
        obtain ⟨min, max, s₂⟩ := q
        obtain ⟨s₂', hquantifier', hs₂⟩ := hsync
        have hlazy := Sync.peek_iff hcls hs₂ (c := '?') (by decide) (by decide)
        rw [hquantifier']
        dsimp only at h ⊢
        split at h
        · next hpeek =>
          cases h
          rw [if_pos (hlazy.2 hpeek)]
          exact ⟨_, rfl, hs₂.advance (by decide) hpeek⟩
        · next hpeek =>
          cases h
          rw [if_neg (mt hlazy.1 hpeek)]
          exact ⟨_, rfl, hs₂⟩

/-- Both parsers read the same group, if all below is. -/
theorem closeGroup_sync (index : Option Nat) :
    SameNode cls dot p p' (p.closeGroup (fuel + 1) index) (p'.closeGroup (fuel' + 1) index) := by
  intro s s' hs node t h
  unfold Pattern.closeGroup at h ⊢
  cases hinner : p.alternation fuel s with
  | error e =>
    rw [hinner] at h
    cases h
  | ok got =>
    obtain ⟨inner, s₁⟩ := got
    obtain ⟨s₁', hinner', hs₁⟩ := ih.alternation hfuel hs hinner
    have hclose := Sync.peek_iff hcls hs₁ (c := ')') (by decide) (by decide)
    rw [hinner] at h
    simp only [hinner', bind, Except.bind] at h ⊢
    split at h
    · cases h
    · next hpeek =>
      cases h
      rw [if_neg (mt (fun hne hpeek' => hne (hclose.2 hpeek')) hpeek)]
      exact ⟨_, rfl, hs₁.advance (by decide) (not_not.1 hpeek)⟩

/-- Both parsers read the same look-around, if all below is. -/
theorem closeLook_sync (positive : Bool) :
    SameNode cls dot p p' (p.closeLook (fuel + 1) positive)
      (p'.closeLook (fuel' + 1) positive) := by
  intro s s' hs node t h
  unfold Pattern.closeLook at h ⊢
  cases hinner : p.alternation fuel s with
  | error e =>
    rw [hinner] at h
    cases h
  | ok got =>
    obtain ⟨inner, s₁⟩ := got
    obtain ⟨s₁', hinner', hs₁⟩ := ih.alternation hfuel hs hinner
    have hclose := Sync.peek_iff hcls hs₁ (c := ')') (by decide) (by decide)
    rw [hinner] at h
    simp only [hinner', bind, Except.bind] at h ⊢
    split at h
    · cases h
    · next hpeek =>
      cases h
      rw [if_neg (mt (fun hne hpeek' => hne (hclose.2 hpeek')) hpeek)]
      exact ⟨_, rfl, hs₁.advance (by decide) (not_not.1 hpeek)⟩

omit hcls in
/-- The group behind `(?P<`. -/
theorem named_sync {s s' t : Parser} {node : Node} {named : List Char}
    (hold : p.rest s = '?' :: 'P' :: '<' :: named)
    (hnew : p'.rest s' = '?' :: 'P' :: '<' :: replaceDots cls .name named)
    (hcount : s'.groupCount = s.groupCount)
    (hnames : s'.names = s.names) (h : p.namedGroup fuel s = .ok (node, t)) :
    ∃ t', p'.namedGroup fuel' s' = .ok (substDot dot node, t') ∧ Sync cls p p' t t' := by
  have hrest : p.rest (s.advance 3) = named := by rw [Pattern.rest_advance, hold]; rfl
  have hrest' : p'.rest (s'.advance 3) = replaceDots cls .name named := by
    rw [Pattern.rest_advance, hnew]; rfl
  obtain ⟨name, hname⟩ : ∃ name, named.takeWhile (· ≠ '>') = name := ⟨_, rfl⟩
  have hsplit : named = name ++ named.dropWhile (· ≠ '>') := by
    rw [← hname, List.takeWhile_append_dropWhile]
  have hclose : p.peek (s.advance (3 + name.length)) = (named.dropWhile (· ≠ '>')).head? := by
    rw [Pattern.peek_advance, hold, Nat.add_comm]
    change (named.drop name.length).head? = _
    conv_lhs => rw [hsplit, List.drop_left]
  unfold Pattern.namedGroup at h ⊢
  rw [hrest, hname] at h
  dsimp only at h
  rw [hclose] at h
  split at h
  · cases h
  · next hbracket =>
    obtain ⟨after, hafter⟩ := List.head?_eq_some_iff.1 (not_not.1 hbracket)
    rw [replaceDots_name, hname, hafter] at hrest' hnew
    dsimp only at hrest' hnew
    have hname' : (name ++ '>' :: replaceDots cls .outside after).takeWhile (· ≠ '>') = name := by
      have hmem : ∀ c ∈ name, decide (c ≠ '>') = true := by
        intro c hc
        rw [← hname] at hc
        have := List.mem_takeWhile_imp hc
        exact this
      rw [List.takeWhile_append_of_pos hmem]
      simp
    rw [hsplit, hafter] at hold
    have hlength : (3 + name.length) + 1 = (['?', 'P', '<'] ++ name ++ ['>']).length := by
      simp only [List.length_append, List.length_cons, List.length_nil]
    have hsync := @Sync.skip cls p p' s s' _ (['?', 'P', '<'] ++ name ++ ['>'])
        (by simpa using hold)
      (by simpa using hnew) hcount hnames
    rw [← hlength] at hsync
    have hbracket' : p'.peek (s'.advance (3 + name.length)) = some '>' := by
      rw [Pattern.peek_advance, hnew, Nat.add_comm]
      change ((name ++ '>' :: replaceDots cls .outside after).drop name.length).head? = _
      rw [List.drop_left]
      rfl
    rw [hrest', hname']
    dsimp only
    rw [if_neg (not_not.2 hbracket')]
    have hindex : (s'.advance (3 + name.length)).groupCount =
        (s.advance (3 + name.length)).groupCount := hcount
    have hold' : (s'.advance (3 + name.length)).names = (s.advance (3 + name.length)).names :=
      hnames
    rw [hindex, hold']
    refine ih.closeGroup hfuel _ ?_ h
    exact ⟨hsync.rest, rfl, rfl⟩

omit hcls in
/-- The group behind an opening parenthesis and a question mark. -/
theorem extension_sync {s s' t : Parser} {node : Node} {rest : List Char}
    (hold : p.rest s = '?' :: rest)
    (hnew : p'.rest s' = '?' :: replaceDots cls .question rest)
    (hcount : s'.groupCount = s.groupCount)
    (hnames : s'.names = s.names) (h : p.extension fuel s = .ok (node, t)) :
    ∃ t', p'.extension fuel' s' = .ok (substDot dot node, t') ∧ Sync cls p p' t t' := by
  have hkind : p.peek (s.advance 1) = rest.head? := by rw [Pattern.peek_advance, hold]; rfl
  have hkind' : p'.peek (s'.advance 1) = (replaceDots cls .question rest).head? := by
    rw [Pattern.peek_advance, hnew]
    rfl
  unfold Pattern.extension at h ⊢
  rw [hkind] at h
  rw [hkind']
  split at h
  · next hcolon =>
    obtain ⟨after, rfl⟩ := List.head?_eq_some_iff.1 hcolon
    rw [replaceDots_of_ne (by decide)] at hnew ⊢
    exact ih.closeGroup hfuel none (Sync.skip ['?', ':'] hold hnew hcount hnames) h
  · next hequal =>
    obtain ⟨after, rfl⟩ := List.head?_eq_some_iff.1 hequal
    rw [replaceDots_of_ne (by decide)] at hnew ⊢
    exact ih.closeLook hfuel true (Sync.skip ['?', '='] hold hnew hcount hnames) h
  · next hbang =>
    obtain ⟨after, rfl⟩ := List.head?_eq_some_iff.1 hbang
    rw [replaceDots_of_ne (by decide)] at hnew ⊢
    exact ih.closeLook hfuel false (Sync.skip ['?', '!'] hold hnew hcount hnames) h
  · next hnamed =>
    obtain ⟨after, rfl⟩ := List.head?_eq_some_iff.1 hnamed
    have hopen : p.peek (s.advance 2) = after.head? := by rw [Pattern.peek_advance, hold]; rfl
    rw [hopen] at h
    split at h
    · next hbracket =>
      obtain ⟨named, rfl⟩ := List.head?_eq_some_iff.1 hbracket
      rw [replaceDots_of_ne (by decide), replaceDots_of_ne (by decide)] at hnew
      have hopen' : p'.peek (s'.advance 2) = some '<' := by rw [Pattern.peek_advance, hnew]; rfl
      rw [replaceDots_of_ne (by decide)]
      dsimp only [List.head?_cons]
      rw [if_pos hopen']
      exact named_sync ih hfuel hold hnew hcount hnames h
    · cases h
  · cases h

/-- The group behind an opening parenthesis. -/
theorem group_sync {s s' t : Parser} {node : Node} {rest : List Char}
    (hold : p.rest s = '(' :: rest)
    (hs : Sync cls p p' s s') (h : p.atom (fuel + 1) s = .ok (node, t)) :
    ∃ t', p'.atom (fuel' + 1) s' = .ok (substDot dot node, t') ∧ Sync cls p p' t t' := by
  have hnew : p'.rest s' = '(' :: replaceDots cls .paren rest := by
    rw [hs.rest, hold, replaceDots_of_ne (by decide)]
    rfl
  have hrest : p.rest (s.advance 1) = rest := by rw [Pattern.rest_advance, hold]; rfl
  have hrest' : p'.rest (s'.advance 1) = replaceDots cls .paren rest := by
    rw [Pattern.rest_advance, hnew]; rfl
  have hpeek : p.peek s = some '(' := by rw [Pattern.peek_eq, hold]; rfl
  have hpeek' : p'.peek s' = some '(' := by rw [Pattern.peek_eq, hnew]; rfl
  rw [atom_group hpeek] at h
  rw [atom_group hpeek', hs.groupCount]
  dsimp only at h ⊢
  split at h
  · next hquestion =>
    rw [Pattern.peek_eq, hrest] at hquestion
    obtain ⟨after, rfl⟩ := List.head?_eq_some_iff.1 hquestion
    rw [replaceDots_of_ne (by decide)] at hrest'
    have hquestion' : p'.peek (s'.advance 1) = some '?' := by rw [Pattern.peek_eq, hrest']; rfl
    rw [if_pos hquestion']
    exact extension_sync ih hfuel hrest hrest' hs.groupCount hs.names h
  · next hquestion =>
    have hplain : rest.head? ≠ some '?' := by rwa [Pattern.peek_eq, hrest] at hquestion
    have hsync : Sync cls p p' (s.advance 1) (s'.advance 1) :=
      ⟨by rw [hrest', hrest, replaceDots_paren hplain], hs.groupCount, hs.names⟩
    rw [if_neg (mt (Sync.peek_iff hcls hsync (by decide) (by decide)).1 hquestion)]
    refine ih.closeGroup hfuel _ ?_ h
    exact ⟨hsync.rest, rfl, hsync.names⟩

/-- Both parsers read the same atom, if all below is. -/
theorem atom_sync (hlength : p.chars.length ≤ p'.chars.length) :
    SameNode cls dot p p' (p.atom (fuel + 1)) (p'.atom (fuel' + 1)) := by
  intro s s' hs node t h
  cases hold : p.rest s with
  | nil =>
    have hpeek : p.peek s = none := by rw [Pattern.peek_eq, hold]; rfl
    rw [Pattern.atom, hpeek] at h
    cases h
  | cons c rest =>
    have hpeek : p.peek s = some c := by rw [Pattern.peek_eq, hold]; rfl
    have hpeek' : p'.peek s' = some (shown c) := by rw [Sync.peek hcls hs, hpeek]; rfl
    by_cases hgroup : c = '('
    · subst hgroup
      exact group_sync hcls ih hfuel hold hs h
    by_cases hdot : c = '.'
    · subst hdot
      have hnew : p'.rest s' = cls ++ replaceDots cls .outside rest := by
        rw [hs.rest, hold]
        rfl
      rw [Pattern.atom, hpeek] at h
      rw [Pattern.atom, hpeek']
      cases h
      refine ⟨_, hcls.parse s' _ hnew, ?_, hs.groupCount, hs.names⟩
      rw [Pattern.rest_advance, Pattern.rest_advance, hnew, hold, List.drop_left]
      rfl
    have hnew : p'.rest s' = c :: replaceDots cls (Mode.outside.next c) rest := by
      rw [hs.rest, hold, replaceDots_of_ne hdot]
    have hshown : shown c = c := if_neg hdot
    rw [hshown] at hpeek'
    have hrest : p.rest (s.advance 1) = rest := by rw [Pattern.rest_advance, hold]; rfl
    have hrest' : p'.rest (s'.advance 1) = replaceDots cls (Mode.outside.next c) rest := by
      rw [Pattern.rest_advance, hnew]
      rfl
    by_cases hclass : c = '['
    · subst hclass
      rw [atom_class hpeek] at h
      rw [atom_class hpeek']
      exact cls_sync hcls hlength (s := s.advance 1) (by rw [hrest', hrest]; rfl) hs.groupCount
        hs.names h
    by_cases hescape : c = '\\'
    · subst hescape
      rw [atom_escape hpeek] at h
      rw [atom_escape hpeek']
      exact escape_sync hcls (s := s.advance 1) (by rw [hrest', hrest]; rfl) hs.groupCount
        hs.names h
    -- what is left is one character, or an error
    have hplain : IsPlain c := ⟨hdot, hescape, hclass, hgroup⟩
    have hsync := hs.advance hplain hpeek
    unfold Pattern.atom at h ⊢
    rw [hpeek] at h
    rw [hpeek']
    split at h
    · next heq => cases heq
    · next heq => exact absurd (Option.some.inj heq) hgroup
    · next heq => exact absurd (Option.some.inj heq) hclass
    · next heq => exact absurd (Option.some.inj heq) hdot
    · next heq =>
      cases heq
      cases h
      refine ⟨_, ?_, hsync⟩
      rw [← hcls.multiline]
      rfl
    · next heq =>
      cases heq
      cases h
      refine ⟨_, ?_, hsync⟩
      rw [← hcls.multiline]
      rfl
    · next heq => exact absurd (Option.some.inj heq) hescape
    · cases h
    · cases h
    · cases h
    · next heq =>
      cases heq
      cases h
      refine ⟨_, ?_, hsync⟩
      rw [← foldChar_eq hcls]
      rfl

end

/-- The parser reads the text with the dots replaced as it reads the pattern. -/
theorem simulated {cls : List Char} {dot : Node} {p p' : Pattern} (hcls : ClassText cls dot p p')
    (hlength : p.chars.length ≤ p'.chars.length) (fuel : Nat) : Simulated cls dot p p' fuel := by
  induction fuel with
  | zero => exact simulated_zero cls dot p p'
  | succ fuel ih =>
    have more {fuel' : Nat} (h : fuel + 1 ≤ fuel') : ∃ n, fuel' = n + 1 ∧ fuel ≤ n :=
      ⟨fuel' - 1, by omega, by omega⟩
    constructor
    · intro fuel' h
      obtain ⟨n, rfl, hn⟩ := more h
      exact alternation_sync ih hn
    · intro fuel' h
      obtain ⟨n, rfl, hn⟩ := more h
      exact branches_sync hcls ih hn
    · intro fuel' h
      obtain ⟨n, rfl, hn⟩ := more h
      exact sequence_sync ih hn
    · intro fuel' h
      obtain ⟨n, rfl, hn⟩ := more h
      exact items_sync hcls ih hn
    · intro fuel' h
      obtain ⟨n, rfl, hn⟩ := more h
      exact quantified_sync hcls ih hn
    · intro fuel' h
      obtain ⟨n, rfl, hn⟩ := more h
      exact atom_sync hcls ih hn hlength
    · intro fuel' h
      obtain ⟨n, rfl, hn⟩ := more h
      exact closeGroup_sync hcls ih hn
    · intro fuel' h
      obtain ⟨n, rfl, hn⟩ := more h
      exact closeLook_sync hcls ih hn

/-- Replacing dots shortens nothing. -/
theorem length_le_replaceDots {cls : List Char} (hcls : cls ≠ []) (m : Mode) (rest : List Char) :
    rest.length ≤ (replaceDots cls m rest).length := by
  have hpos : 0 < cls.length := List.length_pos_iff.2 hcls
  induction rest generalizing m with
  | nil => simp
  | cons c rest ih =>
    have := ih (m.next c)
    rw [replaceDots, List.length_append, List.length_cons]
    split
    · omega
    · simp only [List.length_cons, List.length_nil]
      omega

/-! ## The two classes -/

/-- The class of all characters but the newline, as a pattern writes it. -/
def notNewlineText : List Char := ['[', '^', '\\', 'n', ']']

/-- The class of all characters. -/
def everyText : List Char := ['[', '\\', 's', '\\', 'S', ']']

/-- The class of all characters. -/
def every : Node := .cls false [.space, .notSpace]

theorem allOf_every : allOf false [.space, .notSpace] := by
  intro c
  simp [classMatches]

section

variable {p p' : Pattern} (hignorecase : p'.ignorecase = p.ignorecase)
  (hmultiline : p'.multiline = p.multiline)

include hignorecase hmultiline

/-- The text of the class without a newline is read as that class. -/
theorem classText_notNewline : ClassText notNewlineText notNewline p p' := by
  refine ⟨rfl, ?_, hignorecase, hmultiline⟩
  intro s rest h
  have hlength : 1 ≤ p'.chars.length := by
    have := congrArg List.length h
    simp only [Pattern.rest, notNewlineText, List.length_drop, List.length_append,
      List.length_cons] at this
    omega
  obtain ⟨n, hn⟩ : ∃ n, p'.chars.length + 1 = n + 1 + 1 := ⟨p'.chars.length - 1, by omega⟩
  have hcaret : p'.peek (s.advance 1) = some '^' := by rw [Pattern.peek_advance, h]; rfl
  have hescape : p'.rest ((s.advance 1).advance 1) = '\\' :: 'n' :: (']' :: rest) := by
    rw [Pattern.rest_advance, Pattern.rest_advance, h]
    rfl
  have hclose : p'.rest (((s.advance 1).advance 1).advance 2) = ']' :: rest := by
    rw [Pattern.rest_advance, hescape]
    rfl
  have hitem : p'.escapedItem 'n' = .range '\n' '\n' := by
    simp only [Pattern.escapedItem, Pattern.foldChar]
    split <;> rfl
  unfold Pattern.cls
  simp only [hcaret, if_true, decide_true, hn]
  rw [classItems_escape hescape, classItems_close hclose, hitem]
  rfl

/-- The text of the class of everything is read as that class. -/
theorem classText_every : ClassText everyText every p p' := by
  refine ⟨rfl, ?_, hignorecase, hmultiline⟩
  intro s rest h
  have hlength : 2 ≤ p'.chars.length := by
    have := congrArg List.length h
    simp only [Pattern.rest, everyText, List.length_drop, List.length_append, List.length_cons,
      List.length_nil] at this
    omega
  obtain ⟨n, hn⟩ : ∃ n, p'.chars.length + 1 = n + 1 + 1 + 1 := ⟨p'.chars.length - 2, by omega⟩
  have hcaret : p'.peek (s.advance 1) ≠ some '^' := by
    rw [Pattern.peek_advance, h]
    simp [everyText]
  have hspace : p'.rest (s.advance 1) = '\\' :: 's' :: ('\\' :: 'S' :: (']' :: rest)) := by
    rw [Pattern.rest_advance, h]
    rfl
  have hnotSpace : p'.rest ((s.advance 1).advance 2) = '\\' :: 'S' :: (']' :: rest) := by
    rw [Pattern.rest_advance, hspace]
    rfl
  have hclose : p'.rest (((s.advance 1).advance 2).advance 2) = ']' :: rest := by
    rw [Pattern.rest_advance, hnotSpace]
    rfl
  unfold Pattern.cls
  simp only [hcaret, if_false, decide_false, hn]
  rw [classItems_escape hspace, classItems_escape hnotSpace, classItems_close hclose]
  rfl

end

/-! ## The pattern with its dots replaced -/

/-- The class that a dot of a pattern stands for. -/
def dotClass (dotall : Bool) : List Char := if dotall then everyText else notNewlineText

/-- The same pattern with each of its dots replaced by that class. -/
def withoutDots (pattern : String) (dotall : Bool) : String :=
  String.ofList (replaceDots (dotClass dotall) .outside pattern.toList)

/-- A compiled pattern before its dots are rewritten. -/
theorem newWithFlags_ok {pattern : String} {flags : Flags} {r : Regex}
    (h : Regex.newWithFlags pattern flags = .ok r) :
    ∃ root s, (Pattern.mk pattern.toList flags.ignorecase flags.multiline).alternation
      (7 * (pattern.toList.length + 1))
        ⟨0, 0, []⟩ = .ok (root, s) ∧
      (Pattern.mk pattern.toList flags.ignorecase flags.multiline).peek s = none ∧
      r = ⟨if flags.dotall then rewriteDotall root else root, s.names, s.groupCount,
        flags.ignorecase⟩ := by
  unfold Regex.newWithFlags Regex.newOfChars at h
  simp only [bind, Except.bind] at h
  split at h
  · cases h
  · next got hparse =>
    obtain ⟨root, s⟩ := got
    dsimp only at h
    split at h
    · cases h
    · next hend =>
      cases h
      exact ⟨root, s, hparse, hend, rfl⟩

/-- Both patterns compile alike, up to the node of the dot. -/
theorem newWithFlags_replaceDots (cls : List Char) {dot : Node} {pattern : String} {flags : Flags}
    {root : Node}
    {s : Parser} (hne : cls ≠ [])
    (hcls : ∀ p p' : Pattern, p'.ignorecase = p.ignorecase → p'.multiline = p.multiline →
      ClassText cls dot p p')
    (hparse : (Pattern.mk pattern.toList flags.ignorecase flags.multiline).alternation
      (7 * (pattern.toList.length + 1)) ⟨0, 0, []⟩ = .ok (root, s))
    (hend : (Pattern.mk pattern.toList flags.ignorecase flags.multiline).peek s = none) :
    Regex.newWithFlags (String.ofList (replaceDots cls .outside pattern.toList)) flags =
      .ok ⟨if flags.dotall then rewriteDotall (substDot dot root) else substDot dot root, s.names,
        s.groupCount,
        flags.ignorecase⟩ := by
  obtain ⟨p, hp⟩ : ∃ p, Pattern.mk pattern.toList flags.ignorecase flags.multiline = p := ⟨_, rfl⟩
  obtain ⟨p', hp'⟩ : ∃ p',
      Pattern.mk (replaceDots cls .outside pattern.toList) flags.ignorecase flags.multiline = p' :=
    ⟨_, rfl⟩
  have htext : ClassText cls dot p p' := hcls p p' (by rw [← hp, ← hp']) (by rw [← hp, ← hp'])
  have hlength : p.chars.length ≤ p'.chars.length := by
    rw [← hp, ← hp']
    exact length_le_replaceDots hne _ _
  have hstart : Sync cls p p' ⟨0, 0, []⟩ ⟨0, 0, []⟩ := by
    refine ⟨?_, rfl, rfl⟩
    rw [← hp, ← hp']
    rfl
  have hfuel : 7 * (pattern.toList.length + 1) ≤ 7 *
      ((replaceDots cls .outside pattern.toList).length + 1) := by
    have := length_le_replaceDots hne .outside pattern.toList
    omega
  rw [hp] at hparse hend
  obtain ⟨s', hparse', hs'⟩ := (simulated htext hlength _).alternation hfuel hstart hparse
  have hend' : p'.peek s' = none := by rw [Sync.peek htext hs', hend]; rfl
  unfold Regex.newWithFlags Regex.newOfChars
  simp only [String.toList_ofList, hp', hparse', bind, Except.bind, hend', hs'.names,
    hs'.groupCount]
  rfl

/-- **The dot.** Under `re.S` a pattern gives the results of the same pattern with the class of all
characters for each of its dots; without it, the results of the same pattern with the class of all
characters but the newline, wherever no dot is tried at a newline. -/
theorem dot_is_class {pattern : String} {flags : Flags} {r : Regex}
    (hcompile : Regex.newWithFlags pattern flags = .ok r)
    (text : String) (hclear : flags.dotall = true ∨ r.dotsClear text = true) :
    ∃ r', Regex.newWithFlags (withoutDots pattern flags.dotall) flags = .ok r' ∧
      SameResults r r' text := by
  obtain ⟨root, s, hparse, hend, rfl⟩ := newWithFlags_ok hcompile
  cases hdotall : flags.dotall with
  | true =>
    have hnew := newWithFlags_replaceDots everyText (by decide)
        (fun _ _ => classText_every) hparse hend
    refine ⟨_, hnew, ?_⟩
    simp only [hdotall, if_true, rewriteDotall_eq]
    have hkept : substDot (.cls false [.dotAny]) (substDot every root) = substDot every root :=
      substDot_cls _ _ _ root
    rw [hkept]
    exact sameResults_of_run (fun text => (run_all allOf_every text).symm)
      ⟨root, s.names, s.groupCount, flags.ignorecase⟩ text
  | false =>
    have hnew := newWithFlags_replaceDots notNewlineText (by decide)
        (fun _ _ => classText_notNewline) hparse hend
    refine ⟨_, hnew, ?_⟩
    simp only [hdotall, Bool.false_eq_true, if_false, false_or] at hclear ⊢
    exact sameResults_of_dotsClear hclear

/-- `a.c` on a text whose newline no dot comes to. -/
theorem dot_is_class_letters :
    ∃ r, Regex.newWithFlags "a.c" ⟨false, false, false⟩ = .ok r ∧ r.dotsClear "abc\n" = true ∧
      ∃ r', Regex.newWithFlags (withoutDots "a.c" false) ⟨false, false, false⟩ = .ok r' ∧
        SameResults r r' "abc\n" := by
  have hclear : (Regex.mk (.concat [.char 'a', .any, .char 'c']) [] 0 false).dotsClear "abc\n" =
      true := by
    decide +kernel
  exact ⟨_, rfl, hclear, @dot_is_class "a.c" ⟨false, false, false⟩ _ rfl "abc\n" (.inr hclear)⟩

/-- The dot matches a newline; the class in its place does not. -/
theorem dot_matches_newline :
    ∃ r r', Regex.newWithFlags "." ⟨false, false, false⟩ = .ok r ∧
      Regex.newWithFlags (withoutDots "." false) ⟨false, false, false⟩ = .ok r' ∧
        withoutDots "." false = "[^\\n]" ∧
      (r.search "\n").isSome = true ∧ r'.search "\n" = none ∧ ¬ SameResults r r' "\n" := by
  have hdot : ((Regex.mk .any [] 0 false).search "\n").isSome = true := by decide +kernel
  have hclass : (Regex.mk notNewline [] 0 false).search "\n" = none := by decide +kernel
  refine ⟨⟨.any, [], 0, false⟩, ⟨notNewline, [], 0, false⟩, rfl, rfl, rfl, hdot, hclass,
    fun h => ?_⟩
  rw [h.search, hclass] at hdot
  cases hdot

end RtpMux.Pyre
