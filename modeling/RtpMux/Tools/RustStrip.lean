import Mathlib.Algebra.Group.Nat.Defs
import Mathlib.Data.List.Basic
import Mathlib.Data.List.Forall2
import Mathlib.Data.List.TakeWhile

/-!
# Blanking comments and literals

`strip_rust_comments` goes through a text once. At each position it decides by what stands there
whether a comment, a literal or anything else begins, and how long it is. A position is modelled by
the text that is left from there on, an end by a number of characters.

Two things panic: blanking a character literal whose end lies behind the end of the text, and, in a
build that checks its arithmetic, a block comment that nests deeper than an `i32` counts. A panic is
`none`. Of the two builds this is the one that can fail, and whether it fails is what is asked of
`strip_rust_comments`. The scans of brackets in `RtpMux.Tools.Forwarders` and
`RtpMux.Tools.EnvReads` are asked for what they return and take the other build, where a depth
wraps. The builds differ only on a text with 2^31 brackets open at once.

The lengths do not depend on whether literals are blanked, so the positions that the scan reaches
are a matter of the text alone, `Reached`.
-/

namespace RtpMux.CheckGate

/-! ## Ends -/

/-- The length of the line comment at the front: up to the newline. -/
def lineCommentEnd (chars : List Char) : Nat := (chars.takeWhile (· ≠ '\n')).length

/-- The rest of a block comment, `depth` openings deep. The depth is an `i32`. -/
def blockCommentLoop : Nat → List Char → Option Nat
  | depth, '/' :: '*' :: rest =>
    if depth + 1 = 2 ^ 31 then none else (blockCommentLoop (depth + 1) rest).map (· + 2)
  | depth, '*' :: '/' :: rest =>
    if depth - 1 = 0 then some 2 else (blockCommentLoop (depth - 1) rest).map (· + 2)
  | depth, _ :: rest => (blockCommentLoop depth rest).map (· + 1)
  | _, [] => some 0

/-- `block_comment_end`: the length of the block comment at the front. -/
def blockCommentEnd (chars : List Char) : Option Nat := blockCommentLoop 0 chars

/-- The rest of a string literal behind its opening quote. -/
def stringLoop : List Char → Nat
  | '\\' :: _ :: rest => stringLoop rest + 2
  | '"' :: _ => 1
  | _ :: rest => stringLoop rest + 1
  | [] => 0

/-- `string_end`: the length of the string literal at the front. -/
def stringEnd (chars : List Char) : Nat := stringLoop chars.tail + 1

/-- Up to and with the first `closing`, or to the end. -/
def closingLoop (closing : List Char) : List Char → Nat
  | [] => 0
  | c :: rest =>
    if closing.isPrefixOf (c :: rest) then closing.length else closingLoop closing rest + 1

/-- What stands behind the letters of a raw string literal, and how many letters these are. -/
def rawStringPrefix : List Char → Option (Nat × List Char)
  | 'b' :: 'r' :: rest => some (2, rest)
  | 'r' :: 'b' :: rest => some (2, rest)
  | 'r' :: rest => some (1, rest)
  | _ => none

/-- `raw_string_end`: the length of the raw string literal at the front, if there is one. -/
def rawStringEnd (chars : List Char) : Option Nat :=
  match rawStringPrefix chars with
  | none => none
  | some (letters, rest) =>
    let hashes := (rest.takeWhile (· = '#')).length
    match rest.drop hashes with
    | '"' :: body =>
      some (letters + hashes + 1 + closingLoop ('"' :: List.replicate hashes '#') body)
    | _ => none

/-- `char_literal_end`: the length of the character literal at the front, if there is one. After a
backslash it ends behind the next quote, also where that is the escaped character. -/
def charLiteralEnd : List Char → Option Nat
  | '\'' :: '\'' :: _ => some 2
  | '\'' :: '\\' :: rest => some (2 + (rest.takeWhile (· ≠ '\'')).length + 1)
  | '\'' :: _ :: '\'' :: _ => some 3
  | _ => none

/-! ## The scan -/

/-- What begins at a position. -/
inductive PieceKind where
  | comment
  | literal
  | code
deriving DecidableEq

/-- What begins at the front and how long it is; a single character of code where nothing else
begins. -/
def scanPiece (chars : List Char) : Option (PieceKind × Nat) :=
  if ['/', '/'].isPrefixOf chars then some (.comment, lineCommentEnd chars)
  else if ['/', '*'].isPrefixOf chars then (blockCommentEnd chars).map fun length =>
    (.comment, length)
  else if chars.head? = some '"' then some (.literal, stringEnd chars)
  else
    match if chars.head? = some 'r' ∨ chars.head? = some 'b' then rawStringEnd chars else none with
    | some length => some (.literal, length)
    | none =>
      match if chars.head? = some '\'' then charLiteralEnd chars else none with
      | some length => some (.literal, length)
      | none => some (.code, 1)

/-- Blank a text, with its newlines kept. -/
def blank (chars : List Char) : List Char := chars.map fun c => if c ≠ '\n' then ' ' else c

/-- Whether a piece is blanked. -/
def PieceKind.blanks (blankLiterals : Bool) : PieceKind → Bool
  | .comment => true
  | .literal => blankLiterals
  | .code => false

/-- The loop, with at least as much fuel as there are characters. -/
def stripLoop (blankLiterals : Bool) : Nat → List Char → Option (List Char)
  | _, [] => some []
  | 0, _ => none
  | fuel + 1, c :: rest =>
    match scanPiece (c :: rest) with
    | none => none
    | some (kind, length) =>
      if kind.blanks blankLiterals then
        if (c :: rest).length < length then none
        else (stripLoop blankLiterals fuel ((c :: rest).drop length)).map
          (blank ((c :: rest).take length) ++ ·)
      else (stripLoop blankLiterals fuel ((c :: rest).drop length)).map
        ((c :: rest).take length ++ ·)

/-- `strip_rust_comments`, or `none` where it panics. -/
def stripRustComments (text : List Char) (blankLiterals : Bool) : Option (List Char) :=
  stripLoop blankLiterals text.length text

example : stripRustComments "a /* b /* c */ */ d // e".toList false =
    some "a                 d     ".toList := by decide

/-! ## One piece at a time -/

theorem charLiteralEnd_pos {chars : List Char} {length : Nat}
    (h : charLiteralEnd chars = some length) :
    0 < length := by
  unfold charLiteralEnd at h
  split at h <;> simp at h <;> omega

theorem rawStringEnd_pos {chars : List Char} {length : Nat} (h : rawStringEnd chars = some length) :
    0 < length := by
  simp only [rawStringEnd] at h
  split at h
  · simp at h
  · split at h
    · simp only [Option.some.injEq] at h
      omega
    · simp at h

theorem blockCommentLoop_pos {depth : Nat} {chars : List Char} {length : Nat} (hne : chars ≠ [])
    (h : blockCommentLoop depth chars = some length) : 0 < length := by
  unfold blockCommentLoop at h
  split at h
  · split_ifs at h
    obtain ⟨n, -, rfl⟩ := Option.map_eq_some_iff.1 h
    omega
  · split_ifs at h
    · simp only [Option.some.injEq] at h
      omega
    · obtain ⟨n, -, rfl⟩ := Option.map_eq_some_iff.1 h
      omega
  · obtain ⟨n, -, rfl⟩ := Option.map_eq_some_iff.1 h
    omega
  · exact absurd rfl hne

/-- The line comment at the front, which is not empty. -/
theorem lineCommentEnd_pos {chars : List Char} (h : ['/', '/'].isPrefixOf chars = true) :
    0 < lineCommentEnd chars := by
  obtain ⟨rest, rfl⟩ := List.isPrefixOf_iff_prefix.1 h
  simp [lineCommentEnd]

/-- What a piece can be. -/
theorem scanPiece_cases {chars : List Char} {kind : PieceKind} {length : Nat}
    (h : scanPiece chars = some (kind, length)) :
    (kind = .comment ∧ ['/', '/'].isPrefixOf chars = true ∧ length = lineCommentEnd chars) ∨
    (kind = .comment ∧ ['/', '*'].isPrefixOf chars = true ∧ blockCommentEnd chars = some length) ∨
    (kind = .literal ∧ chars.head? = some '"' ∧ length = stringEnd chars) ∨
    (kind = .literal ∧ rawStringEnd chars = some length) ∨
    (kind = .literal ∧ charLiteralEnd chars = some length) ∨
    (kind = .code ∧ length = 1) := by
  unfold scanPiece at h
  split at h
  · next hline =>
    simp only [Option.some.injEq, Prod.mk.injEq] at h
    exact .inl ⟨h.1.symm, hline, h.2.symm⟩
  · split at h
    · next hblock =>
      obtain ⟨n, hn, heq⟩ := Option.map_eq_some_iff.1 h
      simp only [Prod.mk.injEq] at heq
      exact .inr (.inl ⟨heq.1.symm, hblock, heq.2 ▸ hn⟩)
    · split at h
      · next hquote =>
        simp only [Option.some.injEq, Prod.mk.injEq] at h
        exact .inr (.inr (.inl ⟨h.1.symm, hquote, h.2.symm⟩))
      · split at h
        · next n hraw =>
          simp only [Option.some.injEq, Prod.mk.injEq] at h
          split at hraw
          · exact .inr (.inr (.inr (.inl ⟨h.1.symm, h.2 ▸ hraw⟩)))
          · simp at hraw
        · split at h
          · next n hchar =>
            simp only [Option.some.injEq, Prod.mk.injEq] at h
            split at hchar
            · exact .inr (.inr (.inr (.inr (.inl ⟨h.1.symm, h.2 ▸ hchar⟩))))
            · simp at hchar
          · simp only [Option.some.injEq, Prod.mk.injEq] at h
            exact .inr (.inr (.inr (.inr (.inr ⟨h.1.symm, h.2.symm⟩))))

/-- Every piece has a character. -/
theorem scanPiece_pos {chars : List Char} {kind : PieceKind} {length : Nat} (hne : chars ≠ [])
    (h : scanPiece chars = some (kind, length)) : 0 < length := by
  obtain ⟨-, hline, rfl⟩ | ⟨-, -, hblock⟩ | ⟨-, -, rfl⟩ | ⟨-, hraw⟩ | ⟨-, hchar⟩ | ⟨-, rfl⟩ :=
    scanPiece_cases h
  · exact lineCommentEnd_pos hline
  · exact blockCommentLoop_pos hne hblock
  · exact Nat.succ_pos _
  · exact rawStringEnd_pos hraw
  · exact charLiteralEnd_pos hchar
  · exact Nat.one_pos

/-- A piece leaves less than there was. -/
theorem length_drop_piece {c : Char} {rest : List Char} {kind : PieceKind} {length : Nat}
    (h : scanPiece (c :: rest) = some (kind, length)) :
    ((c :: rest).drop length).length ≤ rest.length := by
  have hpos := scanPiece_pos (List.cons_ne_nil c rest) h
  rw [List.length_drop, List.length_cons]
  omega

/-- **Fuel.** Any fuel that covers the text gives the same. -/
theorem stripLoop_fuel (blankLiterals : Bool) : ∀ (fuel fuel' : Nat) (chars : List Char),
    chars.length ≤ fuel → chars.length ≤ fuel' →
      stripLoop blankLiterals fuel chars = stripLoop blankLiterals fuel' chars := by
  intro fuel
  induction fuel with
  | zero =>
    intro fuel' chars h h'
    have hnil : chars = [] := List.length_eq_zero_iff.1 (by omega)
    subst hnil
    cases fuel' <;> rfl
  | succ fuel ih =>
    intro fuel' chars h h'
    cases chars with
    | nil => cases fuel' <;> rfl
    | cons c rest =>
      obtain _ | fuel' := fuel'
      · simp at h'
      rw [List.length_cons] at h h'
      rw [stripLoop, stripLoop]
      cases hscan : scanPiece (c :: rest) with
      | none => rfl
      | some piece =>
        obtain ⟨kind, length⟩ := piece
        have hless := length_drop_piece hscan
        dsimp only
        rw [ih fuel' _ (by omega) (by omega)]

@[simp] theorem stripRustComments_nil (blankLiterals : Bool) :
    stripRustComments [] blankLiterals = some [] := rfl

/-- One round of the loop. -/
theorem stripRustComments_cons {c : Char} {rest : List Char} {kind : PieceKind} {length : Nat}
    (blankLiterals : Bool) (h : scanPiece (c :: rest) = some (kind, length)) :
    stripRustComments (c :: rest) blankLiterals =
      if kind.blanks blankLiterals then
        if (c :: rest).length < length then none
        else (stripRustComments ((c :: rest).drop length) blankLiterals).map
          (blank ((c :: rest).take length) ++ ·)
      else (stripRustComments ((c :: rest).drop length) blankLiterals).map
        ((c :: rest).take length ++ ·) := by
  have hless := length_drop_piece h
  rw [stripRustComments, List.length_cons, stripLoop, h]
  dsimp only
  rw [stripLoop_fuel blankLiterals rest.length _ _ hless (Nat.le_refl _)]
  rfl

/-- **A piece.** What is scanned at the front is blanked or copied, and the scan goes on behind
it. -/
theorem stripRustComments_piece {piece rest : List Char} {kind : PieceKind} (blankLiterals : Bool)
    (hne : piece ≠ []) (h : scanPiece (piece ++ rest) = some (kind, piece.length)) :
    stripRustComments (piece ++ rest) blankLiterals =
      (stripRustComments rest blankLiterals).map
        ((if kind.blanks blankLiterals then blank piece else piece) ++ ·) := by
  obtain ⟨c, more, rfl⟩ := List.exists_cons_of_ne_nil hne
  rw [List.cons_append] at h ⊢
  rw [stripRustComments_cons blankLiterals h, ← List.cons_append, List.drop_left, List.take_left]
  have hfit : ¬((c :: more) ++ rest).length < (c :: more).length := by
    rw [List.length_append]
    omega
  rw [if_neg hfit]
  split <;> rfl

/-! ## No panic -/

/-- The positions that the scan reaches, each by the text from there on. -/
inductive Reached (text : List Char) : List Char → Prop
  | start : Reached text text
  | next {chars : List Char} {kind : PieceKind} {length : Nat} :
      Reached text chars → chars ≠ [] → scanPiece chars = some (kind, length) →
        Reached text (chars.drop length)

/-- How deep a block comment gets that is `depth` openings deep at the front. -/
def deepest : Nat → List Char → Nat
  | depth, '/' :: '*' :: rest => deepest (depth + 1) rest
  | depth, '*' :: '/' :: rest =>
    if depth - 1 = 0 then depth else max depth (deepest (depth - 1) rest)
  | depth, _ :: rest => deepest depth rest
  | depth, [] => depth

/-- Nothing to panic about begins at the front: no block comment that gets too deep, and, where
literals are blanked, no escaped character literal without a closing quote. -/
def Safe (blankLiterals : Bool) (chars : List Char) : Prop :=
  (∀ rest, chars = '/' :: '*' :: rest → deepest 0 chars < 2 ^ 31) ∧
    (blankLiterals = true → ∀ rest, chars = '\'' :: '\\' :: rest → '\'' ∈ rest)

/-- A comment is at least as deep as it begins. -/
theorem le_deepest (depth : Nat) (chars : List Char) : depth ≤ deepest depth chars := by
  fun_induction deepest depth chars with
  | case1 depth rest ih => omega
  | case2 depth rest hzero => exact Nat.le_refl _
  | case3 depth rest hzero ih => exact Nat.le_max_left _ _
  | case4 depth c rest hopen hclose ih => exact ih
  | case5 depth => exact Nat.le_refl _

/-- The depth is counted as long as it fits. -/
theorem blockCommentLoop_isSome (depth : Nat) (chars : List Char) (hdepth : depth < 2 ^ 31) :
    (blockCommentLoop depth chars).isSome = true ↔ deepest depth chars < 2 ^ 31 := by
  fun_induction deepest depth chars with
  | case1 depth rest ih =>
    rw [blockCommentLoop]
    by_cases hmax : depth + 1 = 2 ^ 31
    · have hle := le_deepest (depth + 1) rest
      rw [if_pos hmax]
      simp only [Option.isSome_none, Bool.false_eq_true, false_iff]
      omega
    · rw [if_neg hmax, Option.isSome_map]
      exact ih (by omega)
  | case2 depth rest hzero =>
    rw [blockCommentLoop, if_pos hzero]
    simpa using hdepth
  | case3 depth rest hzero ih =>
    rw [blockCommentLoop, if_neg hzero, Option.isSome_map, ih (by omega)]
    omega
  | case4 depth c rest hopen hclose ih =>
    rw [blockCommentLoop, Option.isSome_map]
    · exact ih hdepth
    · exact hopen
    · exact hclose
  | case5 depth => simpa [blockCommentLoop] using hdepth

/-- A comment ends inside the text. -/
theorem blockCommentLoop_le {depth length : Nat} {chars : List Char}
    (h : blockCommentLoop depth chars = some length) : length ≤ chars.length := by
  fun_induction blockCommentLoop depth chars generalizing length with
  | case1 depth rest hmax => simp at h
  | case2 depth rest hmax ih =>
    obtain ⟨n, hn, rfl⟩ := Option.map_eq_some_iff.1 h
    have := ih hn
    simp only [List.length_cons]
    omega
  | case3 depth rest hzero =>
    simp only [Option.some.injEq] at h
    simp only [List.length_cons]
    omega
  | case4 depth rest hzero ih =>
    obtain ⟨n, hn, rfl⟩ := Option.map_eq_some_iff.1 h
    have := ih hn
    simp only [List.length_cons]
    omega
  | case5 depth c rest hopen hclose ih =>
    obtain ⟨n, hn, rfl⟩ := Option.map_eq_some_iff.1 h
    have := ih hn
    simp only [List.length_cons]
    omega
  | case6 depth =>
    simp only [Option.some.injEq] at h
    omega

/-- A string ends inside the text. -/
theorem stringLoop_le (chars : List Char) : stringLoop chars ≤ chars.length := by
  fun_induction stringLoop chars with
  | case1 c rest ih => exact Nat.add_le_add_right ih 2
  | case2 rest => simp
  | case3 c rest hslash hquote ih => exact Nat.succ_le_succ ih
  | case4 => exact Nat.le_refl _

/-- A raw string's search ends inside the text. -/
theorem closingLoop_le (closing chars : List Char) : closingLoop closing chars ≤ chars.length := by
  fun_induction closingLoop closing chars with
  | case1 => exact Nat.le_refl _
  | case2 c rest h => exact (List.isPrefixOf_iff_prefix.1 h).length_le
  | case3 c rest h ih => exact Nat.succ_le_succ ih

theorem rawStringPrefix_length {chars rest : List Char} {letters : Nat}
    (h : rawStringPrefix chars = some (letters, rest)) : chars.length = letters + rest.length := by
  unfold rawStringPrefix at h
  split at h <;> simp at h <;> obtain ⟨rfl, rfl⟩ := h <;> simp only [List.length_cons] <;> omega

/-- A raw string ends inside the text. -/
theorem rawStringEnd_le {chars : List Char} {length : Nat} (h : rawStringEnd chars = some length) :
    length ≤ chars.length := by
  simp only [rawStringEnd] at h
  split at h
  · simp at h
  · next letters rest hletters =>
    split at h
    · next body hbody =>
      simp only [Option.some.injEq] at h
      have hlen := congrArg List.length hbody
      rw [List.length_drop, List.length_cons] at hlen
      have hle := closingLoop_le ('"' :: List.replicate (rest.takeWhile (· = '#')).length '#') body
      rw [rawStringPrefix_length hletters]
      omega
    · simp at h

theorem length_takeWhile_quote (rest : List Char) :
    (rest.takeWhile (· ≠ '\'')).length < rest.length ↔ '\'' ∈ rest := by
  induction rest with
  | nil => simp
  | cons c rest ih =>
    by_cases hquote : c = '\''
    · simp [hquote]
    · rw [List.takeWhile_cons_of_pos (by simpa using hquote), List.length_cons, List.length_cons,
        Nat.add_lt_add_iff_right, ih]
      simp [Ne.symm hquote]

/-- A character literal is within the text, unless it has an escape and no closing quote. -/
theorem charLiteralEnd_le {chars : List Char} {length : Nat}
    (h : charLiteralEnd chars = some length) :
    length ≤ chars.length ↔ ∀ rest, chars = '\'' :: '\\' :: rest → '\'' ∈ rest := by
  unfold charLiteralEnd at h
  split at h
  · simp only [Option.some.injEq] at h
    simp [← h]
  · next rest =>
    simp only [Option.some.injEq] at h
    rw [← h]
    simp only [List.length_cons, List.cons.injEq, true_and, forall_eq']
    rw [← length_takeWhile_quote]
    omega
  · next c rest hquote hslash =>
    simp only [Option.some.injEq] at h
    simp only [← h, List.length_cons, List.cons.injEq, true_and]
    exact ⟨fun _ more hmore => (hslash hmore.1).elim, fun _ => by omega⟩
  · simp at h

/-- A comment is scanned unless it is nested too deep. -/
theorem blockCommentEnd_isSome (chars : List Char) :
    (blockCommentEnd chars).isSome = true ↔ deepest 0 chars < 2 ^ 31 :=
  blockCommentLoop_isSome 0 chars (by decide)

/-- Only a block comment that gets too deep has no end. -/
theorem scanPiece_isSome {chars : List Char}
    (h : ∀ rest, chars = '/' :: '*' :: rest → deepest 0 chars < 2 ^ 31) :
    ∃ kind length, scanPiece chars = some (kind, length) := by
  unfold scanPiece
  split
  · exact ⟨_, _, rfl⟩
  · split
    · next hblock =>
      obtain ⟨rest, rfl⟩ := List.isPrefixOf_iff_prefix.1 hblock
      obtain ⟨length, hlength⟩ :=
        Option.isSome_iff_exists.1 ((blockCommentEnd_isSome _).2 (h rest rfl))
      rw [hlength]
      exact ⟨_, _, rfl⟩
    · split
      · exact ⟨_, _, rfl⟩
      · split
        · exact ⟨_, _, rfl⟩
        · split <;> exact ⟨_, _, rfl⟩

/-- Every piece is within the text, unless it is a character literal that is not closed. -/
theorem scanPiece_le {chars : List Char} {kind : PieceKind} {length : Nat} (hne : chars ≠ [])
    (h : scanPiece chars = some (kind, length))
    (hclosed : kind = .literal → ∀ rest, chars = '\'' :: '\\' :: rest → '\'' ∈ rest) :
    length ≤ chars.length := by
  obtain ⟨-, -, rfl⟩ | ⟨-, -, hblock⟩ | ⟨-, -, rfl⟩ | ⟨-, hraw⟩ | ⟨hkind, hchar⟩ | ⟨-, rfl⟩ :=
    scanPiece_cases h
  · exact (List.takeWhile_prefix _).length_le
  · exact blockCommentLoop_le hblock
  · obtain ⟨c, rest, rfl⟩ := List.exists_cons_of_ne_nil hne
    exact Nat.succ_le_succ (stringLoop_le rest)
  · exact rawStringEnd_le hraw
  · exact (charLiteralEnd_le hchar).2 (hclosed hkind)
  · exact List.length_pos_iff.2 hne

/-- A slash and a star open a block comment. -/
theorem scanPiece_block (rest : List Char) :
    scanPiece ('/' :: '*' :: rest) =
      (blockCommentEnd ('/' :: '*' :: rest)).map fun length => (.comment, length) := by
  simp [scanPiece]

/-- A quote opens a character literal, or is one character of code. -/
theorem scanPiece_quote (rest : List Char) :
    scanPiece ('\'' :: rest) =
      match charLiteralEnd ('\'' :: rest) with
      | some length => some (.literal, length)
      | none => some (.code, 1) := by
  simp [scanPiece]

/-- **One round.** A round gets through exactly where nothing to panic about begins. -/
theorem safe_iff {chars : List Char} (blankLiterals : Bool) (hne : chars ≠ []) :
    Safe blankLiterals chars ↔ ∃ kind length, scanPiece chars = some (kind, length) ∧
      (kind.blanks blankLiterals = true → length ≤ chars.length) := by
  refine ⟨fun hsafe => ?_, ?_⟩
  · obtain ⟨kind, length, hscan⟩ := scanPiece_isSome hsafe.1
    refine ⟨kind, length, hscan, fun hblanks => scanPiece_le hne hscan fun hkind => ?_⟩
    subst hkind
    exact hsafe.2 hblanks
  · rintro ⟨kind, length, hscan, hfits⟩
    refine ⟨fun rest hrest => ?_, fun hblank rest hrest => ?_⟩
    · subst hrest
      rw [scanPiece_block] at hscan
      obtain ⟨n, hn, -⟩ := Option.map_eq_some_iff.1 hscan
      exact (blockCommentEnd_isSome _).1 (Option.isSome_iff_exists.2 ⟨n, hn⟩)
    · subst hrest
      rw [scanPiece_quote] at hscan
      simp only [charLiteralEnd, Option.some.injEq, Prod.mk.injEq] at hscan
      obtain ⟨rfl, rfl⟩ := hscan
      exact (charLiteralEnd_le rfl).1 (hfits hblank) rest rfl

/-- What is reached from a position behind the first piece is reached from the start. -/
theorem Reached.of_drop {text chars : List Char} {kind : PieceKind} {length : Nat} (hne : text ≠ [])
    (hscan : scanPiece text = some (kind, length)) (h : Reached (text.drop length) chars) :
    Reached text chars := by
  induction h with
  | start => exact .next .start hne hscan
  | next _ hchars hpiece ih => exact .next ih hchars hpiece

/-- A position is the start or is reached from behind the first piece. -/
theorem Reached.cases_drop {text chars : List Char} {kind : PieceKind} {length : Nat}
    (hscan : scanPiece text = some (kind, length)) (h : Reached text chars) :
    chars = text ∨ Reached (text.drop length) chars := by
  induction h with
  | start => exact .inl rfl
  | next _ hchars hpiece ih =>
    rcases ih with rfl | ih
    · rw [hscan, Option.some.injEq, Prod.mk.injEq] at hpiece
      rw [← hpiece.2]
      exact .inr .start
    · exact .inr (.next ih hchars hpiece)

theorem reached_nil {chars : List Char} (h : Reached [] chars) : chars = [] := by
  induction h with
  | start => rfl
  | next _ hchars _ ih => exact absurd ih hchars

/-- **No panic.** The scan gets through a text exactly where it is safe at every position that it
reaches. -/
theorem stripRustComments_isSome (blankLiterals : Bool) (text : List Char) :
    (stripRustComments text blankLiterals).isSome = true ↔
      ∀ chars, Reached text chars → Safe blankLiterals chars := by
  induction hn : text.length using Nat.strong_induction_on generalizing text with
  | _ n ih =>
    cases text with
    | nil =>
      simp only [stripRustComments_nil, Option.isSome_some, true_iff]
      intro chars hchars
      rw [reached_nil hchars]
      exact ⟨fun rest hrest => by simp at hrest, fun _ rest hrest => by simp at hrest⟩
    | cons c rest =>
      by_cases hsafe : Safe blankLiterals (c :: rest)
      · obtain ⟨kind, length, hscan, hfits⟩ :=
          (safe_iff blankLiterals (List.cons_ne_nil c rest)).1 hsafe
        have hless := length_drop_piece hscan
        have hrest := ih _ (by rw [← hn, List.length_cons]; omega) ((c :: rest).drop length) rfl
        have hround : (stripRustComments (c :: rest) blankLiterals).isSome =
            (stripRustComments ((c :: rest).drop length) blankLiterals).isSome := by
          rw [stripRustComments_cons blankLiterals hscan]
          by_cases hblanks : kind.blanks blankLiterals = true
          · rw [if_pos hblanks, if_neg (Nat.not_lt.2 (hfits hblanks)), Option.isSome_map]
          · rw [if_neg hblanks, Option.isSome_map]
        rw [hround, hrest]
        refine ⟨fun hall chars hchars => ?_, fun hall chars hchars =>
          hall chars (.of_drop (List.cons_ne_nil c rest) hscan hchars)⟩
        rcases hchars.cases_drop hscan with rfl | hchars
        · exact hsafe
        · exact hall chars hchars
      · refine ⟨fun hsome => absurd ?_ hsafe, fun hall => absurd (hall _ .start) hsafe⟩
        -- a round that gets through has a piece, within the text where it is blanked
        rw [safe_iff blankLiterals (List.cons_ne_nil c rest)]
        rw [stripRustComments, List.length_cons, stripLoop] at hsome
        cases hscan : scanPiece (c :: rest) with
        | none => simp [hscan] at hsome
        | some piece =>
          obtain ⟨kind, length⟩ := piece
          refine ⟨kind, length, rfl, fun hblanks => ?_⟩
          simp only [hscan, hblanks, if_true] at hsome
          by_contra hlong
          rw [if_pos (Nat.lt_of_not_le hlong)] at hsome
          simp at hsome

/-! ## Lines -/

/-- Character for character the same, up to what is no newline on both sides. -/
def SameLines (text out : List Char) : Prop :=
  List.Forall₂ (fun c d => c = '\n' ↔ d = '\n') text out

theorem SameLines.refl (text : List Char) : SameLines text text :=
  List.forall₂_same.2 fun _ _ => Iff.rfl

theorem SameLines.append {text out text' out' : List Char} (h : SameLines text out)
    (h' : SameLines text' out') :
    SameLines (text ++ text') (out ++ out') := List.rel_append h h'

theorem sameLines_blank (text : List Char) : SameLines text (blank text) := by
  induction text with
  | nil => exact .nil
  | cons c rest ih =>
    refine .cons ?_ ih
    by_cases hnewline : c = '\n' <;> simp [hnewline]

/-- **Lines.** The scan keeps the length of the text and its newlines. -/
theorem stripRustComments_sameLines {blankLiterals : Bool} {text out : List Char}
    (h : stripRustComments text blankLiterals = some out) : SameLines text out := by
  induction hn : text.length using Nat.strong_induction_on generalizing text out with
  | _ n ih =>
    cases text with
    | nil =>
      rw [stripRustComments_nil, Option.some.injEq] at h
      exact h ▸ .refl []
    | cons c rest =>
      have hsafe := (stripRustComments_isSome blankLiterals _).1
          (Option.isSome_iff_exists.2 ⟨out, h⟩) _ .start
      obtain ⟨kind, length, hscan, hfits⟩ :=
        (safe_iff blankLiterals (List.cons_ne_nil c rest)).1 hsafe
      have hless := length_drop_piece hscan
      have hstep := @ih ((c :: rest).drop length).length (by rw [← hn, List.length_cons]; omega)
        ((c :: rest).drop length)
      rw [stripRustComments_cons blankLiterals hscan] at h
      by_cases hblanks : kind.blanks blankLiterals = true
      · rw [if_pos hblanks, if_neg (Nat.not_lt.2 (hfits hblanks))] at h
        obtain ⟨out', hout', rfl⟩ := Option.map_eq_some_iff.1 h
        have := (sameLines_blank ((c :: rest).take length)).append (hstep hout' rfl)
        rwa [List.take_append_drop] at this
      · rw [if_neg hblanks] at h
        obtain ⟨out', hout', rfl⟩ := Option.map_eq_some_iff.1 h
        have := (SameLines.refl ((c :: rest).take length)).append (hstep hout' rfl)
        rwa [List.take_append_drop] at this

end RtpMux.CheckGate
