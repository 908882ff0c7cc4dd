import RtpMux.Tools.Text

/-!
# The pattern engine

`tools/pyre.rs` compiles a pattern into a tree and matches the tree by recursive
backtracking: `run node text pos caps k` calls the continuation `k` on each end position
in the order the engine tries them, and stops at the first one `k` accepts.

* A text is a list of characters, and a position is an offset into it.
* A continuation returns the end it recorded (`none` where the source's closure returns
  `false`) together with the captures it leaves behind.
* The parser and the loop of `repeat` recurse on fuel. A parser call made for a pattern gets
  enough for every character to open a group, and `repeat` gets one unit for each position
  that is left, since an iteration that does not advance is cut off.
-/

namespace RtpMux.Pyre

open Text (isAsciiDigit isAsciiAlphanumeric isAsciiWhitespace toAsciiLowercase)

/-- The `re` flags a pattern may set. -/
structure Flags where
  dotall : Bool
  multiline : Bool
  ignorecase : Bool
deriving Repr, DecidableEq

/-! ## Characters -/

/-- The `\w` class. -/
def isWord (character : Char) : Bool := isAsciiAlphanumeric character || character = '_'

/-- `is_space`. -/
def isSpace (character : Char) : Bool := isAsciiWhitespace character

/-- `is_digit`. -/
def isDigit (character : Char) : Bool := isAsciiDigit character

/-! ## The pattern tree -/

/-- `ClassItem`. -/
inductive ClassItem where
  | range (low high : Char)
  | dotAny
  | digit
  | notDigit
  | word
  | notWord
  | space
  | notSpace
deriving Repr, DecidableEq

/-- `Node`. -/
inductive Node where
  | char (expected : Char)
  | any
  | cls (negate : Bool) (items : List ClassItem)
  | start (multiline : Bool)
  | stop (multiline : Bool)
  | wordBoundary
  | notWordBoundary
  | group (index : Option Nat) (inner : Node)
  | look (inner : Node) (positive : Bool)
  | textStart
  | textEnd
  | concat (items : List Node)
  | alt (branches : List Node)
  | repeat (inner : Node) (min max : Nat) (greedy : Bool)
deriving Repr

/-- `usize::MAX`: the upper count of `*`, `+` and `{n,}`. -/
def unbounded : Nat := 2 ^ 64 - 1

/-- What makes a pattern invalid, with the data each message prints. -/
inductive RegexError where
  | unexpected (character : Char) (offset : Nat)
  | badQuantifier (text : String)
  | atomExpected
  | unclosedLookahead
  | unterminatedGroupName
  | unsupportedExtension (extension : Option Char)
  | unclosedGroup
  | nothingToRepeat (character : Char)
  | endedInEscape
  | unclosedClass
  | endedInClassEscape
  /-- Not an error of the source: the model's recursion ran out of fuel. -/
  | outOfFuel
deriving Repr, DecidableEq

/-! ## The parser -/

/-- The parser's state, without the pattern and its flags, which stay fixed. -/
structure Parser where
  pos : Nat
  groupCount : Nat
  /-- The named groups, the latest first: a later group takes over a name. -/
  names : List (String × Nat)
deriving Repr, DecidableEq

/-- What the parser reads and never changes. -/
structure Pattern where
  chars : List Char
  ignorecase : Bool
  multiline : Bool

/-- `Parser::peek`. -/
def Pattern.peek (p : Pattern) (s : Parser) : Option Char := p.chars[s.pos]?

/-- The parser `n` characters further on. -/
def Parser.advance (s : Parser) (n : Nat) : Parser := { s with pos := s.pos + n }

/-- A pattern literal as the matcher sees it. -/
def Pattern.foldChar (p : Pattern) (character : Char) : Char :=
  if p.ignorecase then toAsciiLowercase character else character

/-- The character a backslash escape stands for. -/
def escapedChar (character : Char) : Char :=
  match character with
  | 'n' => '\n'
  | 't' => '\t'
  | 'r' => '\r'
  | 'f' => '\x0c'
  | 'v' => '\x0b'
  | 'a' => '\x07'
  | '0' => '\x00'
  | other => other

/-- The class a backslash escape names, if it names one. -/
def escapedClass (character : Char) : Option ClassItem :=
  match character with
  | 'd' => some .digit
  | 'D' => some .notDigit
  | 'w' => some .word
  | 'W' => some .notWord
  | 's' => some .space
  | 'S' => some .notSpace
  | _ => none

/-- `Parser::escape` outside a class, the only way the source calls it. -/
def Pattern.escape (p : Pattern) (s : Parser) : Except RegexError (Node × Parser) :=
  match p.peek s with
  | none => .error .endedInEscape
  | some character =>
    let s := s.advance 1
    match character with
    | 'b' => .ok (.wordBoundary, s)
    | 'B' => .ok (.notWordBoundary, s)
    | 'A' => .ok (.textStart, s)
    | 'Z' => .ok (.textEnd, s)
    | _ =>
      match escapedClass character with
      | some item => .ok (.cls false [item], s)
      | none => .ok (.char (p.foldChar (escapedChar character)), s)

/-- The loop of `Parser::class`, up to and past the closing bracket. -/
def Pattern.classItems (p : Pattern) : Nat → List ClassItem → Parser →
    Except RegexError (List ClassItem × Parser)
  | 0, _, _ => .error .outOfFuel
  | fuel + 1, items, s =>
    match p.peek s with
    | none => .error .unclosedClass
    | some ']' => .ok (items, s.advance 1)
    | some '\\' =>
      match p.peek (s.advance 1) with
      | none => .error .endedInClassEscape
      | some escaped =>
        match escapedClass escaped with
        | some item => p.classItems fuel (items ++ [item]) (s.advance 2)
        | none =>
          let folded := p.foldChar (escapedChar escaped)
          p.classItems fuel (items ++ [ClassItem.range folded folded]) (s.advance 2)
    | some character =>
      -- a `-` is a range only when it is neither first nor last
      match p.peek (s.advance 1), p.peek (s.advance 2) with
      | some '-', some high =>
        if high = ']' then
          p.classItems fuel (items ++
            [ClassItem.range (p.foldChar character) (p.foldChar character)])
            (s.advance 1)
        else
          p.classItems fuel (items ++ [ClassItem.range (p.foldChar character) (p.foldChar high)])
            (s.advance 3)
      | _, _ =>
        p.classItems fuel (items ++ [ClassItem.range (p.foldChar character) (p.foldChar character)])
          (s.advance 1)

/-- `Parser::class`, from behind the opening bracket. -/
def Pattern.cls (p : Pattern) (s : Parser) : Except RegexError (Node × Parser) := do
  let negate := p.peek s = some '^'
  let s := if negate then s.advance 1 else s
  let (items, s) ← p.classItems (p.chars.length + 1) [] s
  pure (.cls negate items, s)

/-- The digits from `s` on. -/
def Pattern.digits (p : Pattern) (s : Parser) : List Char :=
  (p.chars.drop s.pos).takeWhile isAsciiDigit

/-- `text.parse::<usize>()` of a run of digits: `none` where it overflows. -/
def parseUsize (digits : List Char) : Option Nat :=
  let value := digits.foldl (fun acc c => 10 * acc + (c.toNat - '0'.toNat)) 0
  if value < 2 ^ 64 then some value else none

/-- What stands behind an atom: no quantifier, or its counts and the state past it. -/
def Pattern.quantifier (p : Pattern) (s : Parser) :
    Except RegexError (Option (Nat × Nat × Parser)) :=
  match p.peek s with
  | some '*' => .ok (some (0, unbounded, s.advance 1))
  | some '+' => .ok (some (1, unbounded, s.advance 1))
  | some '?' => .ok (some (0, 1, s.advance 1))
  | some '{' => do
    let s := s.advance 1
    let low := p.digits s
    if low = [] then return none
    let s := s.advance low.length
    let (high, s) ←
      if p.peek s = some ',' then
        let s := s.advance 1
        let text := p.digits s
        let s := s.advance text.length
        if text = [] then pure (unbounded, s)
        else match parseUsize text with
          | some high => pure (high, s)
          | none => .error (.badQuantifier (String.ofList text))
      else match parseUsize low with
        | some high => pure (high, s)
        | none => .error (.badQuantifier (String.ofList low))
    if p.peek s ≠ some '}' then return none
    match parseUsize low with
    | some low => pure (some (low, high, s.advance 1))
    | none => .error (.badQuantifier (String.ofList low))
  | _ => .ok none

mutual

/-- `Parser::alternation`. -/
def Pattern.alternation (p : Pattern) : Nat → Parser → Except RegexError (Node × Parser)
  | 0, _ => .error .outOfFuel
  | fuel + 1, s => do
    let (branch, s) ← p.sequence fuel s
    let (branches, s) ← p.branches fuel s
    match branches with
    | [] => pure (branch, s)
    | _ => pure (.alt (branch :: branches), s)

/-- The branches after the first one. -/
def Pattern.branches (p : Pattern) : Nat → Parser → Except RegexError (List Node × Parser)
  | 0, _ => .error .outOfFuel
  | fuel + 1, s =>
    if p.peek s = some '|' then do
      let (branch, s) ← p.sequence fuel (s.advance 1)
      let (branches, s) ← p.branches fuel s
      pure (branch :: branches, s)
    else .ok ([], s)

/-- `Parser::sequence`. -/
def Pattern.sequence (p : Pattern) : Nat → Parser → Except RegexError (Node × Parser)
  | 0, _ => .error .outOfFuel
  | fuel + 1, s => do
    let (items, s) ← p.items fuel s
    match items with
    | [item] => pure (item, s)
    | _ => pure (.concat items, s)

/-- The loop of `sequence`. -/
def Pattern.items (p : Pattern) : Nat → Parser → Except RegexError (List Node × Parser)
  | 0, _ => .error .outOfFuel
  | fuel + 1, s =>
    match p.peek s with
    | none => .ok ([], s)
    | some character =>
      if character = '|' ∨ character = ')' then .ok ([], s) else do
        let (item, s) ← p.quantified fuel s
        let (items, s) ← p.items fuel s
        pure (item :: items, s)

/-- `Parser::quantified`. -/
def Pattern.quantified (p : Pattern) : Nat → Parser → Except RegexError (Node × Parser)
  | 0, _ => .error .outOfFuel
  | fuel + 1, s => do
    let (atom, s) ← p.atom fuel s
    match ← p.quantifier s with
    | none => pure (atom, s)
    | some (min, max, s) =>
      if p.peek s = some '?' then pure (.repeat atom min max false, s.advance 1)
      else pure (.repeat atom min max true, s)

/-- `Parser::atom`. -/
def Pattern.atom (p : Pattern) : Nat → Parser → Except RegexError (Node × Parser)
  | 0, _ => .error .outOfFuel
  | fuel + 1, s =>
    match p.peek s with
    | none => .error .atomExpected
    | some '(' =>
      let s := s.advance 1
      if p.peek s = some '?' then
        match p.peek (s.advance 1) with
        | some ':' => p.closeGroup fuel none (s.advance 2)
        | some '=' => p.closeLook fuel true (s.advance 2)
        | some '!' => p.closeLook fuel false (s.advance 2)
        | some 'P' =>
          if p.peek (s.advance 2) = some '<' then
            let name := (p.chars.drop (s.pos + 3)).takeWhile (· ≠ '>')
            let s := s.advance (3 + name.length)
            if p.peek s ≠ some '>' then .error .unterminatedGroupName
            else
              p.closeGroup fuel (some (s.groupCount + 1))
                { pos := s.pos + 1, groupCount := s.groupCount + 1
                  names := (String.ofList name, s.groupCount + 1) :: s.names }
          else .error (.unsupportedExtension (some 'P'))
        | other => .error (.unsupportedExtension other)
      else p.closeGroup fuel (some (s.groupCount + 1)) { s with groupCount := s.groupCount + 1 }
    | some '[' => p.cls (s.advance 1)
    | some '.' => .ok (.any, s.advance 1)
    | some '^' => .ok (.start p.multiline, s.advance 1)
    | some '$' => .ok (.stop p.multiline, s.advance 1)
    | some '\\' => p.escape (s.advance 1)
    | some '*' => .error (.nothingToRepeat '*')
    | some '+' => .error (.nothingToRepeat '+')
    | some '?' => .error (.nothingToRepeat '?')
    | some other => .ok (.char (p.foldChar other), s.advance 1)

/-- The rest of a group, from behind its opening to past its closing parenthesis. -/
def Pattern.closeGroup (p : Pattern) : Nat → Option Nat → Parser → Except RegexError (Node × Parser)
  | 0, _, _ => .error .outOfFuel
  | fuel + 1, index, s => do
    let (inner, s) ← p.alternation fuel s
    if p.peek s ≠ some ')' then .error .unclosedGroup
    else pure (.group index inner, s.advance 1)

/-- The rest of a lookahead. -/
def Pattern.closeLook (p : Pattern) : Nat → Bool → Parser → Except RegexError (Node × Parser)
  | 0, _, _ => .error .outOfFuel
  | fuel + 1, positive, s => do
    let (inner, s) ← p.alternation fuel s
    if p.peek s ≠ some ')' then .error .unclosedLookahead
    else pure (.look inner positive, s.advance 1)

end

mutual

/-- Rewrite `.` for `re.S`. -/
def rewriteDotall : Node → Node
  | .any => .cls false [.dotAny]
  | .group index inner => .group index (rewriteDotall inner)
  | .look inner positive => .look (rewriteDotall inner) positive
  | .concat items => .concat (rewriteDotallAll items)
  | .alt branches => .alt (rewriteDotallAll branches)
  | .repeat inner min max greedy => .repeat (rewriteDotall inner) min max greedy
  | other => other

/-- The same for each node of a list. -/
def rewriteDotallAll : List Node → List Node
  | [] => []
  | node :: nodes => rewriteDotall node :: rewriteDotallAll nodes

end

/-- A compiled pattern. -/
structure Regex where
  root : Node
  names : List (String × Nat)
  groupCount : Nat
  ignorecase : Bool
deriving Repr

/-- `Regex::new_with_flags` on the characters of the pattern, `pattern.chars().collect()`. -/
def Regex.newOfChars (chars : List Char) (flags : Flags) : Except RegexError Regex := do
  let p : Pattern := ⟨chars, flags.ignorecase, flags.multiline⟩
  let (root, s) ← p.alternation (7 * (p.chars.length + 1)) ⟨0, 0, []⟩
  match p.peek s with
  | some character => .error (.unexpected character s.pos)
  | none =>
    let root := if flags.dotall then rewriteDotall root else root
    pure ⟨root, s.names, s.groupCount, flags.ignorecase⟩

/-- `Regex::new_with_flags`. -/
def Regex.newWithFlags (pattern : String) (flags : Flags) : Except RegexError Regex :=
  Regex.newOfChars pattern.toList flags

/-- `Regex::new`. -/
def Regex.new (pattern : String) (dotall : Bool) : Except RegexError Regex :=
  Regex.newWithFlags pattern ⟨dotall, false, false⟩

/-! ## The matcher -/

/-- The span of each group, `none` where it took no part; slot 0 is the whole match's. -/
abbrev Captures := List (Option (Nat × Nat))

/-- What a match attempt comes to: the end the continuation accepted, and the captures then. -/
abbrev Outcome := Option Nat × Captures

/-- A continuation, called on the captures and an end position. -/
abbrev Cont := Captures → Nat → Outcome

/-- Where an attempt was refused, go on from the captures it left. -/
def Outcome.orElse (outcome : Outcome) (next : Captures → Outcome) : Outcome :=
  match outcome with
  | (some stop, caps) => (some stop, caps)
  | (none, caps) => next caps

/-- `class_matches`. -/
def classMatches (items : List ClassItem) (negate : Bool) (character : Char) : Bool :=
  let hit := items.any fun item =>
    match item with
    | .range low high => low ≤ character && character ≤ high
    | .dotAny => true
    | .digit => isDigit character
    | .notDigit => !isDigit character
    | .word => isWord character
    | .notWord => !isWord character
    | .space => isSpace character
    | .notSpace => !isSpace character
  hit != negate

/-- The character at a position a leaf reads backwards, as `text[pos - 1]`. -/
def charBefore (text : List Char) (pos : Nat) : Option Char :=
  if pos = 0 then none else text[pos - 1]?

/-- The test of `\b`: exactly one side of `pos` is a word character. -/
def atWordBoundary (text : List Char) (pos : Nat) : Bool :=
  (charBefore text pos).any isWord != (text[pos]?).any isWord

/-- The test of `^`. -/
def atStart (multiline : Bool) (text : List Char) (pos : Nat) : Bool :=
  pos = 0 || (multiline && charBefore text pos = some '\n')

/-- The test of `$`: the end, before a final newline, or under `re.M` a line's end. -/
def atStop (multiline : Bool) (text : List Char) (pos : Nat) : Bool :=
  pos = text.length || (pos + 1 = text.length && text[pos]? = some '\n') ||
    (multiline && text[pos]? = some '\n')

/-- The end position of a leaf of the tree at `pos`, or `none` for a node that is not a leaf and
for a leaf that does not match there. -/
def leafStop : Node → List Char → Nat → Option Nat
  | .char expected, text, pos => if text[pos]? = some expected then some (pos + 1) else none
  | .any, text, pos => if pos < text.length then some (pos + 1) else none
  | .cls negate items, text, pos =>
    if (text[pos]?).any (classMatches items negate) then some (pos + 1) else none
  | .start multiline, text, pos => if atStart multiline text pos then some pos else none
  | .stop multiline, text, pos => if atStop multiline text pos then some pos else none
  | .textStart, _, pos => if pos = 0 then some pos else none
  | .textEnd, text, pos => if pos = text.length then some pos else none
  | .wordBoundary, text, pos => if atWordBoundary text pos then some pos else none
  | .notWordBoundary, text, pos => if atWordBoundary text pos then none else some pos
  | _, _, _ => none

/-- A leaf hands its end to the continuation, or refuses. -/
def leaf (stop : Option Nat) (caps : Captures) (k : Cont) : Outcome :=
  match stop with
  | some stop => k caps stop
  | none => (none, caps)

/-- `repeat`: the source's function over the matcher of its inner node. `fuel` bounds the
iterations that advance. -/
def repeatFrom (inner : Nat → Captures → Cont → Outcome) :
    Nat → Nat → Captures → (count min max : Nat) → (greedy : Bool) → Cont → Outcome
  | 0, _, caps, _, _, _, _, _ => (none, caps)
  | fuel + 1, pos, caps, count, min, max, greedy, k =>
    let expand (caps : Captures) : Outcome :=
      inner pos caps fun innerCaps stop =>
        -- an empty repetition cannot make progress
        if stop = pos then (none, innerCaps)
        else (repeatFrom inner fuel stop innerCaps (count + 1) min max greedy k).orElse
          fun _ => (none, innerCaps)
    if greedy then
      (if count < max then expand caps else (none, caps)).orElse
        fun _ => if min ≤ count then k caps pos else (none, caps)
    else
      (if min ≤ count then k caps pos else (none, caps)).orElse fun caps =>
        if count < max then (expand caps).orElse fun _ => (none, caps) else (none, caps)

mutual

/-- `run`: match `node` at `pos`, calling `k` on each end position. -/
def run : Node → List Char → Nat → Captures → Cont → Outcome
  | .group none inner, text, pos, caps, k => run inner text pos caps k
  | .group (some index) inner, text, pos, caps, k =>
    let saved := caps.getD index none
    (run inner text pos caps fun innerCaps stop =>
        let previous := innerCaps.getD index none
        (k (innerCaps.set index (some (pos, stop))) stop).orElse
          fun caps => (none, caps.set index previous)).orElse
      fun caps => (none, caps.set index saved)
  | .look inner positive, text, pos, caps, k =>
    -- the lookahead runs on a copy of the captures
    let probe := run inner text pos caps fun caps stop => (some stop, caps)
    if probe.1.isSome = positive then k caps pos else (none, caps)
  | .concat items, text, pos, caps, k => concat items text pos caps k
  | .alt branches, text, pos, caps, k => alternatives branches text pos caps k
  | .repeat inner min max greedy, text, pos, caps, k =>
    repeatFrom (fun pos caps k => run inner text pos caps k) (text.length - pos + 1) pos caps 0
      min max greedy k
  | .char expected, text, pos, caps, k => leaf (leafStop (.char expected) text pos) caps k
  | .any, text, pos, caps, k => leaf (leafStop .any text pos) caps k
  | .cls negate items, text, pos, caps, k => leaf (leafStop (.cls negate items) text pos) caps k
  | .start multiline, text, pos, caps, k => leaf (leafStop (.start multiline) text pos) caps k
  | .stop multiline, text, pos, caps, k => leaf (leafStop (.stop multiline) text pos) caps k
  | .wordBoundary, text, pos, caps, k => leaf (leafStop .wordBoundary text pos) caps k
  | .notWordBoundary, text, pos, caps, k => leaf (leafStop .notWordBoundary text pos) caps k
  | .textStart, text, pos, caps, k => leaf (leafStop .textStart text pos) caps k
  | .textEnd, text, pos, caps, k => leaf (leafStop .textEnd text pos) caps k

/-- The nodes of a concatenation, one behind the other. -/
def concat : List Node → List Char → Nat → Captures → Cont → Outcome
  | [], _, pos, caps, k => k caps pos
  | first :: rest, text, pos, caps, k =>
    (run first text pos caps fun innerCaps stop =>
        (concat rest text stop innerCaps k).orElse fun _ => (none, innerCaps)).orElse
      fun _ => (none, caps)

/-- The loop over the branches of an alternation. -/
def alternatives : List Node → List Char → Nat → Captures → Cont → Outcome
  | [], _, _, caps, _ => (none, caps)
  | branch :: branches, text, pos, caps, k =>
    (run branch text pos caps k).orElse fun _ => alternatives branches text pos caps k

end

/-! ## Searching -/

/-- The continuation that accepts every end. -/
def acceptAny : Cont := fun caps stop => (some stop, caps)

/-- The continuation that accepts exactly the end `e`. -/
def acceptOnly (e : Nat) : Cont := fun caps stop => (if stop = e then some stop else none, caps)

/-- The captures before a match: no group has taken part. -/
def Regex.emptyCaptures (r : Regex) : Captures := List.replicate (r.groupCount + 1) none

/-- The text the matcher sees: folded when `re.I` is set. -/
def Regex.seen (r : Regex) (text : List Char) : List Char :=
  if r.ignorecase then text.map toAsciiLowercase else text

/-- One found match: where it starts, where it ends, and its captures. -/
structure Found where
  start : Nat
  stop : Nat
  captures : Captures
deriving Repr, DecidableEq

/-- The attempt at one start. -/
def Regex.attempt (r : Regex) (text : List Char) (start : Nat) (k : Cont) : Option Found :=
  match run r.root text start r.emptyCaptures k with
  | (some stop, captures) => some ⟨start, stop, captures⟩
  | (none, _) => none

/-- `search_from`: the first match at or after `from`. -/
def Regex.searchFrom (r : Regex) (text : List Char) (start : Nat) : Option Found :=
  (List.range' start (text.length + 1 - start)).findSome? fun start =>
    r.attempt text start acceptAny

/-- `is_match`: whether the pattern matches anywhere. -/
def Regex.isMatch (r : Regex) (text : String) : Bool := (r.searchFrom (r.seen text.toList) 0).isSome

/-- The text of a span. -/
def slice (text : List Char) (span : Nat × Nat) : String :=
  String.ofList ((text.take span.2).drop span.1)

/-- A match with its groups as text, as `materialize` builds it. -/
structure Match where
  start : Nat
  stop : Nat
  groups : List (Option String)
  names : List (String × Nat)
deriving Repr, DecidableEq

/-- `materialize`: the groups read out of the caller's text. -/
def Regex.materialize (r : Regex) (text : List Char) (found : Found) : Match :=
  ⟨found.start, found.stop, (found.captures.drop 1).map fun entry => entry.map (slice text),
    r.names⟩

/-- A named group's text, or `none`. -/
def Match.named (m : Match) (name : String) : Option String := do
  let index ← m.names.lookup name
  (m.groups[index - 1]?).join

/-- `full_match`: the whole string. -/
def Regex.fullMatch (r : Regex) (text : String) : Option Match :=
  (r.attempt (r.seen text.toList) 0 (acceptOnly text.toList.length)).map (r.materialize text.toList)

/-- `search`: the first match. -/
def Regex.search (r : Regex) (text : String) : Option Match :=
  (r.searchFrom (r.seen text.toList) 0).map (r.materialize text.toList)

/-- `Regex::new(pattern, false).expect("compiles")`, for a pattern that does. -/
def compiled (pattern : String) (h : (Regex.new pattern false).isOk = true) : Regex :=
  match Regex.new pattern false, h with
  | .ok regex, _ => regex

/-! ## Compiling the characters of a pattern

A literal's characters are known without running the string they stand in, which is what makes
compiling it slow.
-/

theorem Regex.newWithFlags_eq {pattern : String} {chars : List Char}
    (hchars : pattern.toList = chars) (flags : Flags) :
    Regex.newWithFlags pattern flags = Regex.newOfChars chars flags := by
  rw [Regex.newWithFlags, hchars]

theorem Regex.new_isOk {pattern : String} {chars : List Char} (hchars : pattern.toList = chars)
    (h : (Regex.newOfChars chars ⟨false, false, false⟩).isOk = true) :
    (Regex.new pattern false).isOk = true := by
  rw [Regex.new, Regex.newWithFlags_eq hchars]
  exact h

end RtpMux.Pyre
