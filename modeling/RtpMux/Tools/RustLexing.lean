import Mathlib.Data.List.Infix
import RtpMux.Tools.RustStrip

/-!
# What is blanked, against Rust's lexical grammar

A text lexes as a sequence of comments, literals and other tokens; `Lexes` says which sequences
these are, with no reference to the scan. Only what the scan has to tell apart is kept: a word
stands for an identifier, a keyword or the parts of a number, an escape is a backslash and what it
may be followed by without its value being looked at. A literal goes with its prefix letters and its
suffix.

The scan and the grammar agree on the texts that are `Clean`. Elsewhere the scan takes an escaped
quote for the end of its character literal, takes an `r` at the end of a lifetime, a raw identifier
or a suffix for the letter of a raw string literal, and leaves a suffix as it is. Even then it can
come out right, where it falls into step again by chance.
-/

namespace RtpMux.CheckGate

/-! ## The grammar -/

/-- Which characters begin an identifier and which continue one. Beyond ASCII this is a matter of
the Unicode tables. -/
structure IdentChars where
  starts : Char → Bool
  continues : Char → Bool
  continues_of_starts : ∀ c, starts c = true → continues c = true
  starts_ascii : ∀ c, c.val < 128 → starts c = (c.isAlpha || c == '_')
  continues_ascii : ∀ c, c.val < 128 → continues c = (c.isAlphanum || c == '_')

/-- A token of Rust, as far as blanking tells them apart. -/
inductive Token where
  | code (text : List Char)
  | comment (text : List Char)
  | literal (letters body suffix : List Char)

/-- A token as it is written. -/
def Token.text : Token → List Char
  | .code text => text
  | .comment text => text
  | .literal letters body suffix => letters ++ body ++ suffix

/-- The text that a sequence of tokens spells. -/
def textOf (tokens : List Token) : List Char := (tokens.map Token.text).flatten

/-- `Inside nested body`: `body` is a block comment from behind its opening on, with comments nested
in it at most `nested` deep. -/
inductive Inside : Nat → List Char → Prop
  | close {nested : Nat} : Inside nested ['*', '/']
  | char {nested : Nat} {c : Char} {body : List Char} :
      ¬(c = '/' ∧ body.head? = some '*') → ¬(c = '*' ∧ body.head? = some '/') → Inside nested body →
      Inside nested (c :: body)
  | comment {nested : Nat} {inner body : List Char} :
      Inside nested inner → Inside (nested + 1) body →
        Inside (nested + 1) ('/' :: '*' :: (inner ++ body))

/-- What may stand between the quotes of a string literal. -/
inductive StringItems : List Char → Prop
  | nil : StringItems []
  | char {c : Char} {items : List Char} : c ≠ '"' → c ≠ '\\' → StringItems items →
    StringItems (c :: items)
  | escape {c : Char} {items : List Char} : StringItems items → StringItems ('\\' :: c :: items)

/-- The literals, by their prefix letters and the rest up to the suffix. -/
inductive LiteralBody : List Char → List Char → Prop
  | string {letters items : List Char} : letters ∈ [[], ['b'], ['c']] → StringItems items →
      LiteralBody letters ('"' :: (items ++ ['"']))
  | raw {letters content : List Char} {hashes : Nat} : letters ∈ [['r'], ['b', 'r'], ['c', 'r']] →
      ¬('"' :: List.replicate hashes '#') <:+: content →
      LiteralBody letters
        (List.replicate hashes '#' ++ '"' :: (content ++ '"' :: List.replicate hashes '#'))
  | char {letters : List Char} {c : Char} : letters ∈ [[], ['b']] →
    c ∉ ['\'', '\\', '\n', '\r', '\t'] →
      LiteralBody letters ['\'', c, '\'']
  | escape {letters more : List Char} {c : Char} : letters ∈ [[], ['b']] → (c = '\'' → more = []) →
      '\'' ∉ more → '\\' ∉ more → LiteralBody letters ('\'' :: '\\' :: c :: (more ++ ['\'']))

/-- The text is at hashes, if any, and a double quote. -/
def AtHashedQuote (rest : List Char) : Prop := (rest.dropWhile (· = '#')).head? = some '"'

/-- The word is the prefix of the literal that stands behind it. -/
def OpensLiteral (word rest : List Char) : Prop :=
  (word ∈ [['b'], ['c']] ∧ rest.head? = some '"') ∨ (word = ['b'] ∧ rest.head? = some '\'') ∨
    (word ∈ [['r'], ['b', 'r'], ['c', 'r']] ∧ AtHashedQuote rest)

section Lexing

variable (ident : IdentChars)

/-- `Lexeme token rest`: `token` is a token where `rest` follows. -/
inductive Lexeme : Token → List Char → Prop
  | mark {c : Char} {rest : List Char} : ident.continues c = false → c ≠ '"' → c ≠ '\'' →
      (c = '/' → rest.head? ≠ some '/' ∧ rest.head? ≠ some '*') → Lexeme (.code [c]) rest
  | word {word rest : List Char} : word ≠ [] → (∀ c ∈ word, ident.continues c = true) →
      (∀ c ∈ rest.head?, ident.continues c = false) → ¬OpensLiteral word rest →
        Lexeme (.code word) rest
  | lifetime {c : Char} {word rest : List Char} : ident.starts c = true →
      (∀ d ∈ word, ident.continues d = true) → (∀ d ∈ rest.head?, ident.continues d = false) →
      rest.head? ≠ some '\'' → Lexeme (.code ('\'' :: c :: word)) rest
  | lineComment {body rest : List Char} : '\n' ∉ body → (∀ c ∈ rest.head?, c = '\n') →
      Lexeme (.comment ('/' :: '/' :: body)) rest
  | blockComment {nested : Nat} {body rest : List Char} : Inside nested body →
      Lexeme (.comment ('/' :: '*' :: body)) rest
  | literal {letters body rest : List Char} : LiteralBody letters body →
      (∀ c ∈ rest.head?, ident.starts c = false) → Lexeme (.literal letters body []) rest
  | suffixed {letters body word rest : List Char} {c : Char} : LiteralBody letters body →
      ident.starts c = true → (∀ d ∈ word, ident.continues d = true) →
      (∀ d ∈ rest.head?, ident.continues d = false) →
        Lexeme (.literal letters body (c :: word)) rest

/-- The tokens follow each other as the grammar has it. -/
def Lexes : List Token → Prop
  | [] => True
  | token :: tokens => Lexeme ident token (textOf tokens) ∧ Lexes tokens

end Lexing

/-! ## The condition -/

/-- The word ends in what the scan takes for the letters of a raw string literal. -/
def Glued (word rest : List Char) : Prop :=
  (['r'] <:+ word ∨ ['r', 'b'] <:+ word) ∧ AtHashedQuote rest

/-- A single quote before this text begins no character literal for the scan. -/
def LeavesQuote (rest : List Char) : Prop :=
  rest.head? ≠ some '\'' ∧ rest.head? ≠ some '\\' ∧ rest.tail.head? ≠ some '\''

/-- The scan takes the token for what it is. -/
def Token.Clean (blankLiterals : Bool) : Token → List Char → Prop
  | .code text, rest => ¬Glued text rest
  | .comment text, _ => ∀ body, text = '/' :: '*' :: body → ∃ nested, nested + 1 < 2 ^ 31 ∧
    Inside nested body
  | .literal _ body suffix, rest =>
    (body = ['\'', '\\', '\'', '\''] → blankLiterals = false ∧ LeavesQuote (suffix ++ rest)) ∧
      (blankLiterals = true → suffix = []) ∧ ¬Glued suffix rest

/-- Every token is read as what it is, given the text behind it. -/
def Clean (blankLiterals : Bool) : List Token → Prop
  | [] => True
  | token :: tokens => token.Clean blankLiterals (textOf tokens) ∧ Clean blankLiterals tokens

/-! ## What is to come out -/

/-- `token.Blanked blankLiterals out`: `out` is `token` with what is to be blanked blanked. The
prefix letters of a literal may stay or not. -/
def Token.Blanked (blankLiterals : Bool) : Token → List Char → Prop
  | .code text, out => out = text
  | .comment text, out => out = blank text
  | .literal letters body suffix, out =>
    if blankLiterals then
      ∃ letters', List.Forall₂ (fun c d => d = c ∨ d = ' ') letters letters' ∧
        out = letters' ++ blank (body ++ suffix)
    else out = letters ++ body ++ suffix

/-- The tokens one by one. -/
def Blanked (blankLiterals : Bool) (tokens : List Token) (out : List Char) : Prop :=
  ∃ outs, List.Forall₂ (Token.Blanked blankLiterals) tokens outs ∧ out = outs.flatten

/-! ## Code -/

/-- A character where nothing else begins. -/
theorem scanPiece_code {c : Char} {rest : List Char} (hquote : c ≠ '"') (hsingle : c ≠ '\'')
    (hslash : c = '/' → rest.head? ≠ some '/' ∧ rest.head? ≠ some '*')
    (hraw : rawStringEnd (c :: rest) = none) : scanPiece (c :: rest) = some (.code, 1) := by
  have hline : ¬(['/', '/'].isPrefixOf (c :: rest) = true) := by
    intro h
    obtain ⟨more, hmore⟩ := List.isPrefixOf_iff_prefix.1 h
    rw [List.cons_append, List.cons_append, List.cons.injEq] at hmore
    exact (hslash hmore.1.symm).1 (by rw [← hmore.2]; rfl)
  have hblock : ¬(['/', '*'].isPrefixOf (c :: rest) = true) := by
    intro h
    obtain ⟨more, hmore⟩ := List.isPrefixOf_iff_prefix.1 h
    rw [List.cons_append, List.cons_append, List.cons.injEq] at hmore
    exact (hslash hmore.1.symm).2 (by rw [← hmore.2]; rfl)
  rw [scanPiece, if_neg hline, if_neg hblock]
  simp [hquote, hsingle, hraw]

/-- A character of code is copied. -/
theorem strip_code (blankLiterals : Bool) {c : Char} {rest : List Char}
    (h : scanPiece (c :: rest) = some (.code, 1)) :
    stripRustComments (c :: rest) blankLiterals =
      (stripRustComments rest blankLiterals).map (c :: ·) :=
  stripRustComments_piece blankLiterals (List.cons_ne_nil c []) h

/-- No raw string begins with another letter. -/
theorem rawStringEnd_of_ne {c : Char} {rest : List Char} (hr : c ≠ 'r') (hb : c ≠ 'b') :
    rawStringEnd (c :: rest) = none := by
  simp [rawStringEnd, rawStringPrefix, hr, hb]

theorem drop_length_takeWhile (p : Char → Bool) (chars : List Char) :
    chars.drop (chars.takeWhile p).length = chars.dropWhile p := by
  have h : (chars.takeWhile p ++ chars.dropWhile p).drop (chars.takeWhile p).length =
      chars.dropWhile p :=
    List.drop_left
  rwa [List.takeWhile_append_dropWhile] at h

/-- The letters of a raw string literal. -/
theorem rawStringPrefix_spec {chars rest : List Char} {length : Nat}
    (h : rawStringPrefix chars = some (length, rest)) :
    ∃ letters, chars = letters ++ rest ∧ (∀ c ∈ letters, c = 'r' ∨ c = 'b') ∧
      (['r'] <:+ letters ∨ ['r', 'b'] <:+ letters) := by
  unfold rawStringPrefix at h
  split at h <;> simp at h
  · exact ⟨['b', 'r'], by simp [h.2], by simp, .inl (List.suffix_cons 'b' ['r'])⟩
  · exact ⟨['r', 'b'], by simp [h.2], by simp, .inr List.suffix_rfl⟩
  · exact ⟨['r'], by simp [h.2], by simp, .inl List.suffix_rfl⟩

/-- Behind the letters of a raw string literal there are hashes, if any, and a quote. -/
theorem atHashedQuote_of_rawStringEnd {chars rest : List Char} {letters : Nat}
    (hletters : rawStringPrefix chars = some (letters, rest)) (h : rawStringEnd chars ≠ none) :
    AtHashedQuote rest := by
  simp only [rawStringEnd, hletters] at h
  split at h
  · next body hbody =>
    simp [AtHashedQuote, ← drop_length_takeWhile, hbody]
  · exact absurd rfl h

section Lexing

variable (ident : IdentChars)

theorem IdentChars.continues_eq_false {c : Char} (hascii : c.val < 128)
    (h : (c.isAlphanum || c == '_') = false) :
    ident.continues c = false := (ident.continues_ascii c hascii).trans h

variable {ident}

theorem IdentChars.ne_of_continues {c d : Char} (hc : ident.continues c = true)
    (hd : ident.continues d = false) :
    c ≠ d := by
  rintro rfl
  rw [hc] at hd
  cases hd

/-- An identifier does not begin with a quote behind hashes. -/
theorem IdentChars.not_atHashedQuote {c : Char} {rest : List Char} (hc : ident.continues c = true) :
    ¬AtHashedQuote (c :: rest) := by
  have hhash : c ≠ '#' := ne_of_continues hc (ident.continues_eq_false (by decide) (by decide))
  have hquote : c ≠ '"' := ne_of_continues hc (ident.continues_eq_false (by decide) (by decide))
  simp [AtHashedQuote, hhash, hquote]

/-- Where a word is taken off a text, or a part of it, or more than it. -/
theorem split_word {word rest letters more : List Char}
    (hword : ∀ c ∈ word, ident.continues c = true)
    (hrest : ∀ c ∈ rest.head?, ident.continues c = false)
    (hletters : ∀ c ∈ letters, ident.continues c = true)
    (h : word ++ rest = letters ++ more) :
    (word = letters ∧ rest = more) ∨ ∃ c more', more = c :: more' ∧ ident.continues c = true := by
  rcases List.append_eq_append_iff.1 h with ⟨between, rfl, rfl⟩ | ⟨between, rfl, rfl⟩
  · cases between with
    | nil => exact .inl ⟨(List.append_nil word).symm, rfl⟩
    | cons c between =>
      have hc := hletters c (by simp)
      rw [hrest c (by simp)] at hc
      cases hc
  · cases between with
    | nil => exact .inl ⟨List.append_nil letters, rfl⟩
    | cons c between => exact .inr ⟨c, between ++ rest, rfl, hword c (by simp)⟩

/-- No raw string literal begins in a word that is not glued to it. -/
theorem rawStringEnd_word {word rest : List Char} (hword : ∀ c ∈ word, ident.continues c = true)
    (hrest : ∀ c ∈ rest.head?, ident.continues c = false) (hglued : ¬Glued word rest) :
    rawStringEnd (word ++ rest) = none := by
  cases hfront : rawStringPrefix (word ++ rest) with
  | none => simp [rawStringEnd, hfront]
  | some split =>
    obtain ⟨length, more⟩ := split
    obtain ⟨letters, hsplit, hmem, hend⟩ := rawStringPrefix_spec hfront
    have hletters : ∀ c ∈ letters, ident.continues c = true := by
      intro c hc
      rcases hmem c hc with rfl | rfl <;> exact (ident.continues_ascii _ (by decide)).trans
          (by decide)
    by_contra hraw
    have hquote := atHashedQuote_of_rawStringEnd hfront hraw
    rcases split_word hword hrest hletters hsplit with ⟨rfl, rfl⟩ | ⟨c, more', rfl, hc⟩
    · exact hglued ⟨hend, hquote⟩
    · exact IdentChars.not_atHashedQuote hc hquote

/-- A longer word is glued where its end is. -/
theorem Glued.append {word rest : List Char} (before : List Char) (h : Glued word rest) :
    Glued (before ++ word) rest :=
  ⟨h.1.imp (fun hr => hr.trans (List.suffix_append before word))
    (fun hrb => hrb.trans (List.suffix_append before word)), h.2⟩

/-- **Words.** A word is copied. -/
theorem strip_word (blankLiterals : Bool) {word rest : List Char}
    (hword : ∀ c ∈ word, ident.continues c = true)
    (hrest : ∀ c ∈ rest.head?, ident.continues c = false) (hglued : ¬Glued word rest) :
    stripRustComments (word ++ rest) blankLiterals =
      (stripRustComments rest blankLiterals).map (word ++ ·) := by
  induction word with
  | nil => simp
  | cons c word ih =>
    have hc := hword c (by simp)
    have hslash : c ≠ '/' :=
      IdentChars.ne_of_continues hc (ident.continues_eq_false (by decide) (by decide))
    have hscan : scanPiece (c :: (word ++ rest)) = some (.code, 1) :=
      scanPiece_code (IdentChars.ne_of_continues hc
        (ident.continues_eq_false (by decide) (by decide)))
        (IdentChars.ne_of_continues hc (ident.continues_eq_false (by decide) (by decide)))
        (fun h => absurd h hslash) (rawStringEnd_word hword hrest hglued)
    have hword' := ih (fun d hd => hword d (List.mem_cons_of_mem c hd)) fun h =>
      hglued (h.append [c])
    rw [List.cons_append, strip_code blankLiterals hscan, hword', Option.map_map]
    rfl

/-- A single quote that begins no character literal is copied. -/
theorem strip_quote (blankLiterals : Bool) {rest : List Char} (h : LeavesQuote rest) :
    stripRustComments ('\'' :: rest) blankLiterals =
      (stripRustComments rest blankLiterals).map ('\'' :: ·) := by
  have hend : charLiteralEnd ('\'' :: rest) = none := by
    unfold charLiteralEnd
    split
    · next heq =>
      rw [List.cons.injEq] at heq
      exact absurd (by rw [heq.2]; rfl) h.1
    · next heq =>
      rw [List.cons.injEq] at heq
      exact absurd (by rw [heq.2]; rfl) h.2.1
    · next heq =>
      rw [List.cons.injEq] at heq
      exact absurd (by rw [heq.2]; rfl) h.2.2
    · rfl
  refine strip_code blankLiterals ?_
  rw [scanPiece_quote, hend]

/-- **Lifetimes.** A lifetime is copied. -/
theorem strip_lifetime (blankLiterals : Bool) {c : Char} {word rest : List Char}
    (hc : ident.starts c = true)
    (hword : ∀ d ∈ word, ident.continues d = true)
    (hrest : ∀ d ∈ rest.head?, ident.continues d = false)
    (hquote : rest.head? ≠ some '\'') (hglued : ¬Glued ('\'' :: c :: word) rest) :
    stripRustComments ('\'' :: c :: word ++ rest) blankLiterals =
      (stripRustComments rest blankLiterals).map ('\'' :: c :: word ++ ·) := by
  have hsingle : ident.continues '\'' = false := ident.continues_eq_false (by decide) (by decide)
  have hc' := ident.continues_of_starts c hc
  have hall : ∀ d ∈ c :: word, ident.continues d = true := List.forall_mem_cons.2 ⟨hc', hword⟩
  have hleaves : LeavesQuote (c :: word ++ rest) := by
    refine ⟨fun h => ?_, fun h => ?_, fun h => ?_⟩
    · exact IdentChars.ne_of_continues hc' hsingle (Option.some.inj h)
    · exact IdentChars.ne_of_continues hc' (ident.continues_eq_false (by decide) (by decide))
        (Option.some.inj h)
    · cases word with
      | nil => exact hquote h
      | cons d word =>
        exact IdentChars.ne_of_continues (hword d (by simp)) hsingle (Option.some.inj h)
  have hword' := strip_word blankLiterals hall hrest fun h => hglued (h.append ['\''])
  rw [List.cons_append, strip_quote blankLiterals hleaves, hword', Option.map_map]
  rfl

end Lexing

/-! ## Comments -/

/-- **Line comments.** A line comment is blanked. -/
theorem strip_lineComment (blankLiterals : Bool) {body rest : List Char} (hbody : '\n' ∉ body)
    (hrest : ∀ c ∈ rest.head?, c = '\n') :
    stripRustComments ('/' :: '/' :: body ++ rest) blankLiterals =
      (stripRustComments rest blankLiterals).map (blank ('/' :: '/' :: body) ++ ·) := by
  have hnone : rest.takeWhile (fun c => decide (c ≠ '\n')) = [] := by
    cases rest with
    | nil => rfl
    | cons c rest => simp [hrest c (by simp)]
  have hall : ∀ c ∈ '/' :: '/' :: body, decide (c ≠ '\n') = true := by
    intro c hc
    have hne : c ≠ '\n' := by
      rintro rfl
      simp [hbody] at hc
    simp [hne]
  have hend : lineCommentEnd ('/' :: '/' :: body ++ rest) = ('/' :: '/' :: body).length := by
    rw [lineCommentEnd, List.takeWhile_append_of_pos hall, hnone, List.append_nil]
  have hscan : scanPiece (('/' :: '/' :: body) ++ rest) =
      some (.comment, ('/' :: '/' :: body).length) := by
    rw [← hend]
    simp [scanPiece]
  exact stripRustComments_piece blankLiterals (List.cons_ne_nil _ _) hscan

theorem Inside.ne_nil {nested : Nat} {body : List Char} (h : Inside nested body) : body ≠ [] := by
  cases h <;> simp

/-- A character inside a block comment. -/
theorem blockCommentLoop_char {depth : Nat} {c : Char} {rest : List Char}
    (hopen : ¬(c = '/' ∧ rest.head? = some '*'))
    (hclose : ¬(c = '*' ∧ rest.head? = some '/')) :
    blockCommentLoop depth (c :: rest) = (blockCommentLoop depth rest).map (· + 1) := by
  rw [blockCommentLoop]
  · rintro more rfl rfl
    exact hopen ⟨rfl, rfl⟩
  · rintro more rfl rfl
    exact hclose ⟨rfl, rfl⟩

/-- The loop gets through a comment, and goes on behind it where that is nested in another. -/
theorem blockCommentLoop_inside {nested depth : Nat} {body : List Char} (rest : List Char)
    (h : Inside nested body)
    (hdepth : 0 < depth) (hfits : depth + nested < 2 ^ 31) :
    blockCommentLoop depth (body ++ rest) =
      if depth = 1 then some body.length else (blockCommentLoop (depth - 1) rest).map
        (· + body.length) := by
  induction h generalizing depth rest with
  | close =>
    by_cases hone : depth = 1
    · simp [blockCommentLoop, hone]
    · have hzero : ¬depth - 1 = 0 := by omega
      simp [blockCommentLoop, hone, hzero]
  | @char nested c body hopen hclose hbody ih =>
    have hhead : (body ++ rest).head? = body.head? := List.head?_append_of_ne_nil _ hbody.ne_nil
    rw [List.cons_append, blockCommentLoop_char (by rwa [hhead]) (by rwa [hhead]),
      ih rest hdepth hfits]
    by_cases hone : depth = 1
    · rw [if_pos hone, if_pos hone]
      rfl
    · rw [if_neg hone, if_neg hone, Option.map_map]
      rfl
  | @comment nested inner body hinner hbody ihinner ihbody =>
    have hmax : ¬depth + 1 = 2 ^ 31 := by omega
    have hdeeper : ¬depth + 1 = 1 := by omega
    rw [List.cons_append, List.cons_append, List.append_assoc, blockCommentLoop, if_neg hmax,
      ihinner (body ++ rest) (by omega) (by omega), if_neg hdeeper, Nat.add_sub_cancel,
      ihbody rest hdepth hfits]
    by_cases hone : depth = 1
    · simp [hone]
      omega
    · simp only [if_neg hone, Option.map_map]
      congr 1
      funext n
      simp only [Function.comp_apply, List.length_cons, List.length_append]
      omega

/-- **Block comments.** A block comment is blanked, with those nested in it. -/
theorem strip_blockComment (blankLiterals : Bool) {nested : Nat} {body : List Char}
    (rest : List Char)
    (h : Inside nested body) (hfits : nested + 1 < 2 ^ 31) :
    stripRustComments ('/' :: '*' :: body ++ rest) blankLiterals =
      (stripRustComments rest blankLiterals).map (blank ('/' :: '*' :: body) ++ ·) := by
  have hend : blockCommentEnd ('/' :: '*' :: (body ++ rest)) =
      some ('/' :: '*' :: body).length := by
    have hbody := blockCommentLoop_inside rest h Nat.one_pos (by omega)
    have hmax : ¬0 + 1 = 2 ^ 31 := by decide
    rw [blockCommentEnd, blockCommentLoop, if_neg hmax, Nat.zero_add, hbody, if_pos rfl]
    rfl
  have hscan : scanPiece (('/' :: '*' :: body) ++ rest) =
      some (.comment, ('/' :: '*' :: body).length) := by
    rw [List.cons_append, List.cons_append, scanPiece_block, hend]
    rfl
  exact stripRustComments_piece blankLiterals (List.cons_ne_nil _ _) hscan

/-! ## Literals -/

/-- A literal at the front, taken for one, is blanked where literals are. -/
theorem strip_literal (blankLiterals : Bool) {piece rest : List Char} (hne : piece ≠ [])
    (h : scanPiece (piece ++ rest) = some (.literal, piece.length)) :
    stripRustComments (piece ++ rest) blankLiterals =
      (stripRustComments rest blankLiterals).map
        ((if blankLiterals then blank piece else piece) ++ ·) :=
  stripRustComments_piece blankLiterals hne h

/-- A string ends at its closing quote. -/
theorem stringLoop_items {items : List Char} (rest : List Char) (h : StringItems items) :
    stringLoop (items ++ '"' :: rest) = items.length + 1 := by
  induction h with
  | nil => simp [stringLoop]
  | @char c items hquote hslash hitems ih =>
    rw [List.cons_append, stringLoop, ih, List.length_cons]
    · intro d more hd _
      exact hslash hd
    · exact hquote
  | @escape c items hitems ih =>
    rw [List.cons_append, List.cons_append, stringLoop, ih, List.length_cons, List.length_cons]

/-- The scan finds the end of a string literal. -/
theorem scanPiece_string {items : List Char} (rest : List Char) (h : StringItems items) :
    scanPiece ('"' :: (items ++ ['"']) ++ rest) =
      some (.literal, ('"' :: (items ++ ['"'])).length) := by
  have hend : stringEnd ('"' :: (items ++ ['"']) ++ rest) = ('"' :: (items ++ ['"'])).length := by
    simp [stringEnd, stringLoop_items rest h]
  rw [← hend]
  simp [scanPiece]

/-- Hashes at the front end before a quote. -/
theorem replicate_prefix_of_append {n : Nat} {content rest : List Char}
    (h : List.replicate n '#' <+: content ++ '"' :: rest) : List.replicate n '#' <+: content := by
  induction content generalizing n with
  | nil =>
    cases n with
    | zero => exact List.nil_prefix
    | succ n =>
      rw [List.replicate_succ, List.nil_append, List.cons_prefix_cons] at h
      exact absurd h.1 (by decide)
  | cons c content ih =>
    cases n with
    | zero => exact List.nil_prefix
    | succ n =>
      rw [List.replicate_succ, List.cons_append, List.cons_prefix_cons] at h
      rw [List.replicate_succ, List.cons_prefix_cons]
      exact ⟨h.1, ih h.2⟩

/-- The closing of a raw string literal is found where it stands: it cannot begin before. -/
theorem closingLoop_content {hashes : Nat} {content : List Char} (rest : List Char)
    (h : ¬('"' :: List.replicate hashes '#') <:+: content) :
    closingLoop ('"' :: List.replicate hashes '#')
      (content ++ ('"' :: List.replicate hashes '#') ++ rest) =
      content.length + (hashes + 1) := by
  induction content with
  | nil =>
    have hclosing : ('"' :: List.replicate hashes '#').isPrefixOf
        ('"' :: (List.replicate hashes '#' ++ rest)) = true :=
      List.isPrefixOf_iff_prefix.2 (List.prefix_append _ rest)
    rw [List.nil_append, List.cons_append, closingLoop, if_pos hclosing]
    simp
  | cons c content ih =>
    have hno : ¬(('"' :: List.replicate hashes '#').isPrefixOf
        (c :: (content ++ ('"' :: List.replicate hashes '#') ++ rest)) = true) := by
      intro hclosing
      have hfront := List.isPrefixOf_iff_prefix.1 hclosing
      rw [List.cons_prefix_cons, List.append_assoc, List.cons_append] at hfront
      have hcontent := replicate_prefix_of_append hfront.2
      refine h (List.IsPrefix.isInfix ?_)
      rw [List.cons_prefix_cons]
      exact ⟨hfront.1, hcontent⟩
    rw [List.cons_append, List.cons_append, closingLoop, if_neg hno,
      ih fun hwithin => h (hwithin.trans (List.infix_cons List.infix_rfl)), List.length_cons]
    omega

/-- The body of a raw string literal. -/
def rawBody (hashes : Nat) (content : List Char) : List Char :=
  List.replicate hashes '#' ++ '"' :: (content ++ '"' :: List.replicate hashes '#')

/-- A raw string ends at its closing quote and hashes. -/
theorem rawStringEnd_raw {content chars rest : List Char} {hashes length : Nat}
    (hletters : rawStringPrefix chars = some (length, rawBody hashes content ++ rest))
    (h : ¬('"' :: List.replicate hashes '#') <:+: content) :
    rawStringEnd chars = some (length + (rawBody hashes content).length) := by
  have hbody : rawBody hashes content ++ rest =
      List.replicate hashes '#' ++ '"' ::
        (content ++ ('"' :: List.replicate hashes '#') ++ rest) := by
    simp [rawBody]
  have htake : (rawBody hashes content ++ rest).takeWhile (fun c => decide (c = '#')) =
      List.replicate hashes '#' := by
    rw [hbody, List.takeWhile_append_of_pos (by simp)]
    simp
  have hdrop : (rawBody hashes content ++ rest).drop hashes =
      '"' :: (content ++ ('"' :: List.replicate hashes '#') ++ rest) := by
    rw [hbody, List.drop_left' List.length_replicate]
  simp only [rawStringEnd, hletters, htake, List.length_replicate, hdrop,
    closingLoop_content rest h]
  simp only [rawBody, List.length_append, List.length_cons, List.length_replicate,
    Option.some.injEq]
  omega

theorem rawStringPrefix_r {chars : List Char} (h : chars.head? ≠ some 'b') :
    rawStringPrefix ('r' :: chars) = some (1, chars) := by
  cases chars with
  | nil => rfl
  | cons c rest =>
    have hc : c ≠ 'b' := fun hc => h (by rw [hc]; rfl)
    simp [rawStringPrefix, hc]

/-- A raw string is scanned as a literal. -/
theorem scanPiece_of_rawStringEnd {c : Char} {rest : List Char} {length : Nat}
    (hc : c = 'r' ∨ c = 'b')
    (h : rawStringEnd (c :: rest) = some length) :
    scanPiece (c :: rest) = some (.literal, length) := by
  rcases hc with rfl | rfl <;> simp [scanPiece, h]

/-- The scan finds the end of a raw string literal, from its `r` or `br` on. -/
theorem scanPiece_raw {letters content : List Char} {hashes : Nat} (rest : List Char)
    (hletters : letters = ['r'] ∨ letters = ['b', 'r'])
    (h : ¬('"' :: List.replicate hashes '#') <:+: content) :
    scanPiece (letters ++ rawBody hashes content ++ rest) =
      some (.literal, (letters ++ rawBody hashes content).length) := by
  have hhead : (rawBody hashes content ++ rest).head? ≠ some 'b' := by
    cases hashes <;> simp [rawBody, List.replicate_succ]
  rw [List.append_assoc, List.length_append]
  rcases hletters with rfl | rfl
  · exact scanPiece_of_rawStringEnd (.inl rfl) (rawStringEnd_raw (rawStringPrefix_r hhead) h)
  · exact scanPiece_of_rawStringEnd (.inr rfl) (rawStringEnd_raw rfl h)

/-- The scan finds the end of a character literal. -/
theorem scanPiece_char {c : Char} (rest : List Char) (hquote : c ≠ '\'') (hslash : c ≠ '\\') :
    scanPiece (['\'', c, '\''] ++ rest) = some (.literal, ['\'', c, '\''].length) := by
  have hend : charLiteralEnd ('\'' :: c :: '\'' :: rest) = some 3 := by
    rw [charLiteralEnd]
    · exact hquote
    · exact hslash
  rw [List.cons_append, List.cons_append, List.cons_append, scanPiece_quote, List.nil_append, hend]
  rfl

/-- The scan finds the end of a character literal with an escape, unless it is the escaped quote. -/
theorem scanPiece_escape {c : Char} {more : List Char} (rest : List Char) (hc : c ≠ '\'')
    (hmore : '\'' ∉ more) :
    scanPiece ('\'' :: '\\' :: c :: (more ++ ['\'']) ++ rest) =
      some (.literal, ('\'' :: '\\' :: c :: (more ++ ['\''])).length) := by
  have hall : ∀ d ∈ c :: more, decide (d ≠ '\'') = true := by
    intro d hd
    have hne : d ≠ '\'' := by
      rintro rfl
      rcases List.mem_cons.1 hd with h | h
      · exact hc h.symm
      · exact hmore h
    simp [hne]
  have htake : (c :: (more ++ ['\'']) ++ rest).takeWhile (fun d => decide (d ≠ '\'')) = c ::
      more := by
    have hassoc : c :: (more ++ ['\'']) ++ rest = (c :: more) ++ '\'' :: rest := by simp
    rw [hassoc, List.takeWhile_append_of_pos hall]
    simp
  rw [List.cons_append, List.cons_append, scanPiece_quote]
  simp only [charLiteralEnd, htake, List.length_cons, List.length_append, List.length_nil,
    Option.some.injEq,
    Prod.mk.injEq, true_and]
  omega

/-- The escaped quote is taken for the end of its character literal. -/
theorem scanPiece_escapedQuote (rest : List Char) :
    scanPiece (['\'', '\\', '\''] ++ rest) = some (.literal, ['\'', '\\', '\''].length) := by
  simp [scanPiece_quote, charLiteralEnd]

/-- A prefix letter before a quote is copied. -/
theorem strip_letters (blankLiterals : Bool) {letters rest : List Char}
    (hletters : letters ∈ [[], ['b'], ['c']])
    (hrest : rest.head? = some '"' ∨ rest.head? = some '\'') :
    stripRustComments (letters ++ rest) blankLiterals =
      (stripRustComments rest blankLiterals).map (letters ++ ·) := by
  have hb : rawStringEnd ('b' :: rest) = none := by
    cases rest with
    | nil => simp at hrest
    | cons d rest =>
      have hd : d ≠ 'r' := by
        rintro rfl
        simp at hrest
      simp [rawStringEnd, rawStringPrefix, hd]
  simp only [List.mem_cons, List.not_mem_nil, or_false] at hletters
  rcases hletters with rfl | rfl | rfl
  · simp
  · exact strip_code blankLiterals (scanPiece_code (by decide) (by decide) (by simp) hb)
  · exact strip_code blankLiterals (scanPiece_code (by decide) (by decide) (by simp)
      (rawStringEnd_of_ne (by decide) (by decide)))

/-- The prefix letters may stay or not. -/
def LettersOut (blankLiterals : Bool) (letters letters' : List Char) : Prop :=
  List.Forall₂ (fun c d => d = c ∨ d = ' ') letters letters' ∧
    (blankLiterals = false → letters' = letters)

theorem LettersOut.refl (blankLiterals : Bool) (letters : List Char) :
    LettersOut blankLiterals letters letters :=
  ⟨List.forall₂_same.2 fun _ _ => .inl rfl, fun _ => rfl⟩

/-- Blanked letters are letters or blanks. -/
theorem lettersOut_blank (blankLiterals : Bool) {letters : List Char} (h : '\n' ∉ letters) :
    LettersOut blankLiterals letters (if blankLiterals then blank letters else letters) := by
  cases blankLiterals with
  | false => exact .refl false letters
  | true =>
    refine ⟨?_, fun hfalse => by cases hfalse⟩
    induction letters with
    | nil => exact .nil
    | cons c letters ih =>
      rw [List.mem_cons, not_or] at h
      refine .cons (.inr ?_) (ih h.2)
      simp [Ne.symm h.1]

theorem LettersOut.cons {blankLiterals : Bool} {c : Char} {letters letters' : List Char}
    (h : LettersOut blankLiterals letters letters') : LettersOut blankLiterals (c :: letters)
    (c :: letters') :=
  ⟨.cons (.inl rfl) h.1, fun hfalse => by rw [h.2 hfalse]⟩

theorem blank_append (text text' : List Char) : blank (text ++ text') = blank text ++ blank text' :=
  List.map_append

/-- A string or character literal, behind its prefix letter. -/
theorem strip_quoted (blankLiterals : Bool) {letters body rest : List Char}
    (hletters : letters ∈ [[], ['b'], ['c']])
    (hquote : body.head? = some '"' ∨ body.head? = some '\'')
    (h : scanPiece (body ++ rest) = some (.literal, body.length)) :
    stripRustComments (letters ++ body ++ rest) blankLiterals =
      (stripRustComments rest blankLiterals).map
        (letters ++ (if blankLiterals then blank body else body) ++ ·) := by
  have hne : body ≠ [] := by
    rintro rfl
    simp at hquote
  have hhead : (body ++ rest).head? = body.head? := List.head?_append_of_ne_nil _ hne
  rw [List.append_assoc, strip_letters blankLiterals hletters (by rwa [hhead]),
    strip_literal blankLiterals hne h,
    Option.map_map]
  congr 1
  funext out
  exact (List.append_assoc _ _ _).symm

/-- A raw string literal from its `r` or `br` on. -/
theorem strip_raw (blankLiterals : Bool) {letters content : List Char} {hashes : Nat}
    (rest : List Char)
    (hletters : letters = ['r'] ∨ letters = ['b', 'r'])
    (h : ¬('"' :: List.replicate hashes '#') <:+: content) :
    ∃ letters', LettersOut blankLiterals letters letters' ∧
      stripRustComments (letters ++ rawBody hashes content ++ rest) blankLiterals =
        (stripRustComments rest blankLiterals).map
          (letters' ++ (if blankLiterals then blank (rawBody hashes content)
            else rawBody hashes content) ++ ·) := by
  have hnewline : '\n' ∉ letters := by
    rcases hletters with rfl | rfl <;> decide
  have hne : letters ++ rawBody hashes content ≠ [] := by
    rcases hletters with rfl | rfl <;> simp
  refine ⟨_, lettersOut_blank blankLiterals hnewline, ?_⟩
  rw [strip_literal blankLiterals hne (scanPiece_raw rest hletters h)]
  cases blankLiterals with
  | false => rfl
  | true => simp only [if_true, blank_append]

/-- **Literals.** A literal is blanked where literals are and copied where not, up to its prefix
letters. -/
theorem strip_literalBody (blankLiterals : Bool) {letters body : List Char} (rest : List Char)
    (h : LiteralBody letters body)
    (hescaped : body = ['\'', '\\', '\'', '\''] → blankLiterals = false ∧ LeavesQuote rest) :
    ∃ letters', LettersOut blankLiterals letters letters' ∧
      stripRustComments (letters ++ body ++ rest) blankLiterals =
        (stripRustComments rest blankLiterals).map
          (letters' ++ (if blankLiterals then blank body else body) ++ ·) := by
  have hletter : letters ∈ [[], ['b']] → letters ∈ [[], ['b'], ['c']] := by
    simp only [List.mem_cons, List.not_mem_nil, or_false]
    exact fun h => h.elim .inl fun h => .inr (.inl h)
  cases h with
  | string hletters hitems =>
    exact ⟨letters, .refl _ _,
      strip_quoted blankLiterals hletters (.inl rfl) (scanPiece_string rest hitems)⟩
  | @raw content hashes hletters hcontent =>
    simp only [List.mem_cons, List.not_mem_nil, or_false] at hletters
    rcases hletters with rfl | rfl | rfl
    · exact strip_raw blankLiterals rest (.inl rfl) hcontent
    · exact strip_raw blankLiterals rest (.inr rfl) hcontent
    · obtain ⟨letters', hletters', hstrip⟩ := strip_raw blankLiterals rest (.inl rfl) hcontent
      refine ⟨'c' :: letters', hletters'.cons, ?_⟩
      have hscan : scanPiece ('c' :: (['r'] ++ rawBody hashes content ++ rest)) = some (.code, 1) :=
        scanPiece_code (by decide) (by decide) (by simp)
          (rawStringEnd_of_ne (by decide) (by decide))
      exact (strip_code blankLiterals hscan).trans (by rw [hstrip, Option.map_map]; rfl)
  | @char c hletters hc =>
    simp only [List.mem_cons, not_or] at hc
    exact ⟨letters, .refl _ _,
      strip_quoted blankLiterals (hletter hletters) (.inr rfl) (scanPiece_char rest hc.1 hc.2.1)⟩
  | @escape more c hletters hquote hmore hslash =>
    by_cases hc : c = '\''
    · -- the quote behind it is left over, and copied
      obtain rfl := hquote hc
      subst hc
      obtain ⟨rfl, hleaves⟩ := hescaped rfl
      refine ⟨letters, .refl _ _, ?_⟩
      have hpiece := strip_quoted false (hletter hletters) (.inr rfl)
          (scanPiece_escapedQuote ('\'' :: rest))
      rw [strip_quote false hleaves, Option.map_map] at hpiece
      simpa [Function.comp_def] using hpiece
    · exact ⟨letters, .refl _ _,
        strip_quoted blankLiterals (hletter hletters) (.inr rfl) (scanPiece_escape rest hc hmore)⟩

/-! ## The whole text -/

/-- A blanked literal with its letters. -/
theorem LettersOut.blanked {blankLiterals : Bool} {letters letters' body suffix : List Char}
    (h : LettersOut blankLiterals letters letters') (hsuffix : blankLiterals = true → suffix = []) :
    (Token.literal letters body suffix).Blanked blankLiterals
      (letters' ++ (if blankLiterals then blank body else body) ++ suffix) := by
  cases blankLiterals with
  | false => simp [Token.Blanked, h.2 rfl]
  | true => exact ⟨letters', h.1, by simp [hsuffix rfl]⟩

/-- **Tokens.** A token is blanked or copied as it should be, and the scan goes on behind it. -/
theorem strip_token {ident : IdentChars} (blankLiterals : Bool) {token : Token} {rest : List Char}
    (h : Lexeme ident token rest) (hclean : token.Clean blankLiterals rest) :
    ∃ out, token.Blanked blankLiterals out ∧
      stripRustComments (token.text ++ rest) blankLiterals =
        (stripRustComments rest blankLiterals).map (out ++ ·) := by
  cases h with
  | @mark c _ hc hquote hsingle hslash =>
    have hr : c ≠ 'r' := fun h => IdentChars.ne_of_continues
      ((ident.continues_ascii 'r' (by decide)).trans (by decide)) hc h.symm
    have hb : c ≠ 'b' := fun h => IdentChars.ne_of_continues
      ((ident.continues_ascii 'b' (by decide)).trans (by decide)) hc h.symm
    exact ⟨[c], rfl, strip_code blankLiterals
      (scanPiece_code hquote hsingle hslash (rawStringEnd_of_ne hr hb))⟩
  | word hne hword hrest hopens => exact ⟨_, rfl, strip_word blankLiterals hword hrest hclean⟩
  | lifetime hc hword hrest hquote =>
    exact ⟨_, rfl, strip_lifetime blankLiterals hc hword hrest hquote hclean⟩
  | lineComment hbody hrest => exact ⟨_, rfl, strip_lineComment blankLiterals hbody hrest⟩
  | blockComment hbody =>
    obtain ⟨nested, hfits, hnested⟩ := hclean _ rfl
    exact ⟨_, rfl, strip_blockComment blankLiterals rest hnested hfits⟩
  | literal hbody hrest =>
    obtain ⟨letters', hletters', hstrip⟩ := strip_literalBody blankLiterals rest hbody hclean.1
    refine ⟨_, hletters'.blanked hclean.2.1, ?_⟩
    rw [Token.text, List.append_nil, hstrip]
    simp only [List.append_nil]
  | @suffixed letters body word _ c hbody hc hword hrest =>
    have hall : ∀ d ∈ c :: word, ident.continues d = true :=
      List.forall_mem_cons.2 ⟨ident.continues_of_starts c hc, hword⟩
    obtain ⟨letters', hletters', hstrip⟩ :=
      strip_literalBody blankLiterals (c :: word ++ rest) hbody hclean.1
    refine ⟨_, hletters'.blanked hclean.2.1, ?_⟩
    rw [Token.text, List.append_assoc, hstrip, strip_word blankLiterals hall hrest hclean.2.2,
      Option.map_map]
    simp only [Function.comp_def, List.append_assoc]

/-- **Texts.** On a text that lexes, and cleanly so, the scan blanks what it should. -/
theorem strip_tokens {ident : IdentChars} (blankLiterals : Bool) {tokens : List Token}
    (h : Lexes ident tokens)
    (hclean : Clean blankLiterals tokens) :
    ∃ out, stripRustComments (textOf tokens) blankLiterals = some out ∧
      Blanked blankLiterals tokens out := by
  induction tokens with
  | nil => exact ⟨[], rfl, [], .nil, rfl⟩
  | cons token tokens ih =>
    obtain ⟨piece, hpiece, hstrip⟩ := strip_token blankLiterals h.1 hclean.1
    obtain ⟨_, hout, outs, houts, rfl⟩ := ih h.2 hclean.2
    have htext : textOf (token :: tokens) = token.text ++ textOf tokens := rfl
    refine ⟨piece ++ outs.flatten, ?_, piece :: outs, .cons hpiece houts, rfl⟩
    rw [htext, hstrip, hout]
    rfl

/-- **What is blanked.** A text that lexes cleanly comes out with the same length and the same
newlines, its comments blanked, its literals blanked or copied, and everything else as it was; and a
text is got through without a panic exactly where no position reached has a block comment that gets
too deep or, where literals are blanked, an escaped character literal that is not closed. -/
theorem stripRustComments_lexical (ident : IdentChars) (text : List Char) (blankLiterals : Bool) :
    (∀ tokens, Lexes ident tokens → textOf tokens = text → Clean blankLiterals tokens →
      ∃ out, stripRustComments text blankLiterals = some out ∧ SameLines text out ∧
        Blanked blankLiterals tokens out) ∧
    ((stripRustComments text blankLiterals).isSome = true ↔
      ∀ chars, Reached text chars → Safe blankLiterals chars) := by
  refine ⟨?_, stripRustComments_isSome blankLiterals text⟩
  rintro tokens hlexes rfl hclean
  obtain ⟨out, hout, hblanked⟩ := strip_tokens blankLiterals hlexes hclean
  exact ⟨out, hout, stripRustComments_sameLines hout, hblanked⟩

/-- The identifiers of an ASCII text. -/
def asciiIdent : IdentChars where
  starts := fun c => c.isAlpha || c == '_'
  continues := fun c => c.isAlphanum || c == '_'
  continues_of_starts := by
    intro c h
    rw [Bool.or_eq_true] at h ⊢
    exact h.imp (fun halpha => by simp [Char.isAlphanum, halpha]) id
  starts_ascii := fun _ _ => rfl
  continues_ascii := fun _ _ => rfl

/-- The text `'a/*/**/*/r#"x"#'\n'//e`, token by token. -/
def sampleTokens : List Token :=
  [.code ['\'', 'a'], .comment ['/', '*', '/', '*', '*', '/', '*', '/'],
    .literal ['r'] ['#', '"', 'x', '"', '#'] [], .literal [] ['\'', '\\', 'n', '\''] [],
      .comment ['/', '/', 'e']]

theorem sampleTokens_inside : Inside 1 ['/', '*', '*', '/', '*', '/'] := .comment .close .close

theorem sampleTokens_lexes : Lexes asciiIdent sampleTokens := by
  have hnext : ∀ {p : Char → Bool} {c : Char} (rest : List Char), p c = false →
      ∀ d ∈ (c :: rest).head?, p d = false := by
    intro p c rest hc d hd
    rwa [← Option.some.inj hd]
  refine ⟨.lifetime (by decide) (by simp) (hnext _ (by decide)) (by decide),
    .blockComment sampleTokens_inside, ?_, ?_, .lineComment (by decide) (by simp [textOf]), trivial⟩
  · exact .literal (@LiteralBody.raw ['r'] ['x'] 1 (by decide) (by decide)) (hnext _ (by decide))
  · exact .literal (@LiteralBody.escape [] [] 'n' (by decide) (by decide) (by decide) (by decide))
      (hnext _ (by decide))

theorem sampleTokens_clean : Clean true sampleTokens := by
  have hnotGlued : ∀ rest, ¬Glued [] rest := by
    rintro rest ⟨h, -⟩
    simp at h
  refine ⟨?_, ?_, ⟨?_, fun _ => rfl, hnotGlued _⟩, ⟨?_, fun _ => rfl, hnotGlued _⟩, ?_, trivial⟩
  · rintro ⟨-, h⟩
    exact absurd h (by simp [AtHashedQuote, textOf, Token.text])
  · intro body hbody
    simp only [List.cons.injEq, true_and] at hbody
    exact ⟨1, by decide, hbody ▸ sampleTokens_inside⟩
  · exact fun h => absurd h (by decide)
  · exact fun h => absurd h (by decide)
  · intro body hbody
    simp at hbody

/-- A text with nested comments, a raw string and a character. -/
theorem stripRustComments_lexical_sample :
    ∃ out, stripRustComments (textOf sampleTokens) true = some out ∧
      SameLines (textOf sampleTokens) out ∧
      Blanked true sampleTokens out :=
  (stripRustComments_lexical asciiIdent _ true).1 sampleTokens sampleTokens_lexes
    rfl sampleTokens_clean

/-- The character literal of a single quote keeps its last character, and an escaped character
literal that is not closed makes the scan panic. -/
theorem stripRustComments_escapedQuote :
    (Lexes asciiIdent [.literal [] ['\'', '\\', '\'', '\''] []] ∧
      ¬∃ out, stripRustComments (textOf [.literal [] ['\'', '\\', '\'', '\''] []]) true = some out ∧
        SameLines (textOf [.literal [] ['\'', '\\', '\'', '\''] []]) out ∧
        Blanked true [.literal [] ['\'', '\\', '\'', '\''] []] out) ∧
    stripRustComments ['\'', '\\'] true = none := by
  have hkeeps : stripRustComments (textOf [.literal [] ['\'', '\\', '\'', '\''] []]) true =
      some [' ', ' ', ' ', '\''] := by decide
  refine ⟨⟨⟨.literal
    (@LiteralBody.escape [] [] '\'' (by decide) (by decide) (by decide) (by decide))
    (by simp [textOf]),
    trivial⟩, ?_⟩, by decide⟩
  rintro ⟨_, hout, -, outs, houts, rfl⟩
  cases houts with
  | cons hliteral hnil =>
    cases hnil
    obtain ⟨letters', hletters, rfl⟩ := hliteral
    cases hletters
    rw [hkeeps] at hout
    exact absurd hout (by decide)

end RtpMux.CheckGate
