import RtpMux.HashMap
import RtpMux.Tools.JsonNumbers

/-!
# The load of an opt-in surface (`tools/check_gate/env_tier.rs`)

A surface's load is a sum of products of its sizes. `load_expression` reads and computes it in one
descent, in checked 64-bit arithmetic. However an expression is spelt, with whatever space and with
parentheses that it does not need, it is computed exactly, and refused only where a name has no size
or a part of it has no 64-bit value.
-/

namespace RtpMux.EnvTier

open Numerals (I64 parseI64)
open Text (isWhitespace isAsciiDigit isAsciiAlphabetic isAsciiAlphanumeric)

/-! ## The parser -/

/-- Why there is no value. -/
inductive Stop where
  /-- `None` -/
  | refused
  /-- Not a result of the source: the model's recursion ran out of fuel. -/
  | outOfFuel
  deriving DecidableEq

/-- `LoadParser`: the text from its position on and the names read so far. -/
structure LoadParser where
  rest : List Char
  names : Finset String

namespace LoadParser

/-- `skip_space`. -/
def skipSpace (p : LoadParser) : LoadParser := { p with rest := p.rest.dropWhile isWhitespace }

end LoadParser

open LoadParser (skipSpace)

/-- What a part of the parser returns. -/
abbrev Result := Except Stop (I64 × LoadParser)

/-- A number as an `i64`, if it is one. -/
def checked (n : Int) : Except Stop I64 :=
  if h : -2 ^ 63 ≤ n ∧ n < 2 ^ 63 then .ok ⟨n, h⟩ else .error .refused

/-- `checked_add`. -/
def checkedAdd (a b : I64) : Except Stop I64 := checked (a.1 + b.1)

/-- `checked_mul`. -/
def checkedMul (a b : I64) : Except Stop I64 := checked (a.1 * b.1)

/-- A character that a name may begin with. -/
def isNameStart (character : Char) : Bool := isAsciiAlphabetic character || character = '_'

/-- A character that may stand in a name. -/
def isNamePart (character : Char) : Bool := isAsciiAlphanumeric character || character = '_'

/-- The digits of a literal and what stands behind it. An underscore is dropped where a digit stands
before it. -/
def scanLiteral : Bool → List Char → List Char × List Char
  | _, [] => ([], [])
  | previousDigit, character :: rest =>
    if isAsciiDigit character then
      let (digits, rest) := scanLiteral true rest
      (character :: digits, rest)
    else if character = '_' ∧ previousDigit = true then scanLiteral false rest
    else ([], character :: rest)

/-- The literals and the names of `LoadParser::factor`. -/
def atom (sizes : HashMap String I64) (p : LoadParser) : Result :=
  match p.rest with
  | [] => .error .refused
  | character :: _ =>
    if isAsciiDigit character then
      let (digits, rest) := scanLiteral false p.rest
      match parseI64 digits with
      | some value => .ok (value, { p with rest })
      | none => .error .refused
    else if isNameStart character then
      let name := String.ofList (p.rest.takeWhile isNamePart)
      match sizes.lookup name with
      | some value => .ok (value, ⟨p.rest.dropWhile isNamePart, insert name p.names⟩)
      | none => .error .refused
    else .error .refused

section Parser

variable (sizes : HashMap String I64)

mutual

/-- `expression`. -/
def expression : Nat → LoadParser → Result
  | 0, _ => .error .outOfFuel
  | fuel + 1, p => do
    let (value, p) ← term fuel p
    sums fuel value p

/-- The loop of `expression`. -/
def sums : Nat → I64 → LoadParser → Result
  | 0, _, _ => .error .outOfFuel
  | fuel + 1, value, p =>
    match (skipSpace p).rest with
    | '+' :: rest => do
      let (summand, p) ← term fuel { p with rest }
      let value ← checkedAdd value summand
      sums fuel value p
    | _ => .ok (value, skipSpace p)

/-- `term`. -/
def term : Nat → LoadParser → Result
  | 0, _ => .error .outOfFuel
  | fuel + 1, p => do
    let (value, p) ← factor fuel p
    products fuel value p

/-- The loop of `term`. -/
def products : Nat → I64 → LoadParser → Result
  | 0, _, _ => .error .outOfFuel
  | fuel + 1, value, p =>
    match (skipSpace p).rest with
    | '*' :: rest => do
      let (scale, p) ← factor fuel { p with rest }
      let value ← checkedMul value scale
      products fuel value p
    | _ => .ok (value, skipSpace p)

/-- `factor`. -/
def factor : Nat → LoadParser → Result
  | 0, _ => .error .outOfFuel
  | fuel + 1, p =>
    match (skipSpace p).rest with
    | '(' :: rest => do
      let (value, p) ← expression fuel { p with rest }
      match (skipSpace p).rest with
      | ')' :: rest => .ok (value, { p with rest })
      | _ => .error .refused
    | _ => atom sizes (skipSpace p)

end

/-- `load_expression`. The fuel is three for each character: a factor, its term and their
expression. -/
def loadExpression (text : List Char) : Except Stop (I64 × Finset String) := do
  let (value, p) ← expression sizes (3 * text.length + 3) ⟨text, ∅⟩
  if p.rest = [] then .ok (value, p.names) else .error .refused

end Parser

/-! ## It ends -/

/-- A result that came with fuel to spare, and short of `n` characters. -/
def Within (n : Nat) (r : Result) : Prop :=
  r ≠ .error .outOfFuel ∧ ∀ value p, r = .ok (value, p) → p.rest.length < n

namespace Within

variable {n m : Nat} {r : Result}

theorem refused : Within n (.error .refused) := ⟨by simp, fun _ _ h => by cases h⟩

theorem ok {value : I64} {p : LoadParser} (h : p.rest.length < n) : Within n (.ok (value, p)) :=
  ⟨by simp, fun _ _ hr => by cases hr; exact h⟩

/-- A result within a bound is within a larger one. -/
theorem mono (h : Within n r) (hle : n ≤ m) : Within m r :=
  ⟨h.1, fun value p hr => (h.2 value p hr).trans_le hle⟩

/-- Two parts in a row, each within its bound. -/
theorem bind {f : I64 × LoadParser → Result} (h : Within n r)
    (hf : ∀ value p, p.rest.length < n → Within m (f (value, p))) : Within m (r >>= f) := by
  cases r with
  | error stop =>
    refine ⟨fun hstop => h.1 ?_, fun _ _ hr => by cases hr⟩
    cases hstop
    rfl
  | ok result => exact hf result.1 result.2 (h.2 _ _ rfl)

/-- A checked value costs no text. -/
theorem checked {k : Int} {f : I64 → Result} (hf : ∀ value, Within n (f value)) :
    Within n (EnvTier.checked k >>= f) := by
  unfold EnvTier.checked
  split
  · exact hf _
  · exact refused

end Within

/-- Skipping white space lengthens nothing. -/
theorem length_skipSpace_le (p : LoadParser) : (skipSpace p).rest.length ≤ p.rest.length :=
  List.length_dropWhile_le _ _

/-- Scanning a literal lengthens nothing. -/
theorem length_scanLiteral_le (previousDigit : Bool) (text : List Char) :
    (scanLiteral previousDigit text).2.length ≤ text.length := by
  fun_induction scanLiteral previousDigit text with
  | case1 => exact le_rfl
  | case2 _ character rest _ digits after heq ih =>
    rw [heq] at ih
    exact ih.trans (Nat.le_succ _)
  | case3 _ character rest _ _ ih => exact ih.trans (Nat.le_succ _)
  | case4 => exact le_rfl

/-- An atom consumes something or is refused. -/
theorem within_atom (sizes : HashMap String I64) (p : LoadParser) :
    Within p.rest.length (atom sizes p) := by
  obtain ⟨text, names⟩ := p
  cases text with
  | nil => exact .refused
  | cons character rest =>
    simp only [atom]
    split
    · next hdigit =>
      -- the first digit is read
      split
      · next value _ =>
        refine .ok ?_
        simpa only [scanLiteral, hdigit, if_true, List.length_cons,
          Nat.lt_succ_iff] using length_scanLiteral_le true rest
      · exact .refused
    · split
      · next hstart =>
        have hpart : isNamePart character = true := by
          simp only [isNameStart, isNamePart, isAsciiAlphanumeric, Bool.or_eq_true] at hstart ⊢
          tauto
        split
        · next value _ =>
          refine .ok ?_
          rw [List.dropWhile_cons_of_pos hpart, List.length_cons, Nat.lt_succ_iff]
          exact List.length_dropWhile_le _ _
        · exact .refused
      · exact .refused

/-- The five functions at some fuel: each ends where the fuel is three for each character and a
little more. -/
structure Ends (sizes : HashMap String I64) (fuel : Nat) : Prop where
  expression : ∀ p : LoadParser, 3 * p.rest.length + 3 ≤ fuel →
    Within p.rest.length (expression sizes fuel p)
  sums : ∀ (value : I64) (p : LoadParser), 3 * p.rest.length + 1 ≤ fuel →
    Within (p.rest.length + 1) (sums sizes fuel value p)
  term : ∀ p : LoadParser, 3 * p.rest.length + 2 ≤ fuel → Within p.rest.length (term sizes fuel p)
  products : ∀ (value : I64) (p : LoadParser), 3 * p.rest.length + 1 ≤ fuel →
    Within (p.rest.length + 1) (products sizes fuel value p)
  factor : ∀ p : LoadParser, 3 * p.rest.length + 1 ≤ fuel →
    Within p.rest.length (factor sizes fuel p)

section Ends

variable {sizes : HashMap String I64} {fuel : Nat}

/-- An expression ends within its text, if all below does. -/
theorem within_expression (h : Ends sizes fuel) (p : LoadParser)
    (hfuel : 3 * p.rest.length + 3 ≤ fuel + 1) :
    Within p.rest.length (expression sizes (fuel + 1) p) := by
  rw [expression]
  refine (h.term p (by omega)).bind fun value q hq => ?_
  exact (h.sums value q (by omega)).mono hq

/-- A term ends within its text, if all below does. -/
theorem within_term (h : Ends sizes fuel) (p : LoadParser)
    (hfuel : 3 * p.rest.length + 2 ≤ fuel + 1) :
    Within p.rest.length (term sizes (fuel + 1) p) := by
  rw [term]
  refine (h.factor p (by omega)).bind fun value q hq => ?_
  exact (h.products value q (by omega)).mono hq

/-- The summands end within their text, if all below does. -/
theorem within_sums (h : Ends sizes fuel) (value : I64) (p : LoadParser)
    (hfuel : 3 * p.rest.length + 1 ≤ fuel + 1) :
    Within (p.rest.length + 1) (sums sizes (fuel + 1) value p) := by
  have hskip := length_skipSpace_le p
  rw [sums]
  split
  · next rest heq =>
    rw [heq, List.length_cons] at hskip
    refine (h.term ⟨rest, p.names⟩ (by simp only; omega)).bind fun summand q hq => ?_
    simp only at hq
    exact .checked fun sum => (h.sums sum q (by omega)).mono (by omega)
  · exact .ok (by omega)

/-- The factors end within their text, if all below does. -/
theorem within_products (h : Ends sizes fuel) (value : I64) (p : LoadParser)
    (hfuel : 3 * p.rest.length + 1 ≤ fuel + 1) :
    Within (p.rest.length + 1) (products sizes (fuel + 1) value p) := by
  have hskip := length_skipSpace_le p
  rw [products]
  split
  · next rest heq =>
    rw [heq, List.length_cons] at hskip
    refine (h.factor ⟨rest, p.names⟩ (by simp only; omega)).bind fun scale q hq => ?_
    simp only at hq
    exact .checked fun product => (h.products product q (by omega)).mono (by omega)
  · exact .ok (by omega)

/-- A factor ends within its text, if all below does. -/
theorem within_factor (h : Ends sizes fuel) (p : LoadParser)
    (hfuel : 3 * p.rest.length + 1 ≤ fuel + 1) :
    Within p.rest.length (factor sizes (fuel + 1) p) := by
  have hskip := length_skipSpace_le p
  rw [factor]
  split
  · next rest heq =>
    rw [heq, List.length_cons] at hskip
    refine (h.expression ⟨rest, p.names⟩ (by simp only; omega)).bind fun value q hq => ?_
    have hskip' := length_skipSpace_le q
    simp only at hq ⊢
    split
    · next rest' heq' =>
      rw [heq', List.length_cons] at hskip'
      exact .ok (by simp only; omega)
    · exact .refused
  · exact (within_atom sizes (skipSpace p)).mono hskip

end Ends

/-- The parser ends at every fuel that covers its text. -/
theorem ends (sizes : HashMap String I64) (fuel : Nat) : Ends sizes fuel := by
  induction fuel with
  | zero =>
    exact ⟨fun _ h => by omega, fun _ _ h => by omega, fun _ h => by omega, fun _ _ h => by omega,
      fun _ h => by omega⟩
  | succ fuel ih =>
    exact ⟨within_expression ih, within_sums ih, within_term ih, within_products ih,
      within_factor ih⟩

/-- **It ends.** The parser answers on every text. -/
theorem loadExpression_ne_outOfFuel (sizes : HashMap String I64) (text : List Char) :
    loadExpression sizes text ≠ .error .outOfFuel := by
  have hwithin := ((ends sizes _).expression ⟨text, ∅⟩ le_rfl).1
  unfold loadExpression
  cases hresult : expression sizes (3 * text.length + 3) ⟨text, ∅⟩ with
  | error stop =>
    intro hstop
    cases hstop
    exact hwithin hresult
  | ok result =>
    change (if result.2.rest = [] then Except.ok (result.1, result.2.names)
      else Except.error Stop.refused) ≠ _
    split <;> simp

/-! ## Expressions -/

/-- A decimal literal as the source may spell it: digits, with single underscores between them. -/
def isLiteral : Bool → List Char → Bool
  | previousDigit, [] => previousDigit
  | previousDigit, character :: rest =>
    if isAsciiDigit character then isLiteral true rest
    else character = '_' && previousDigit && isLiteral false rest

/-- The text of a literal, with single underscores between digits. -/
abbrev Literal := { text : List Char // isLiteral false text = true }

/-- A name: a letter or an underscore, and then these and digits. -/
abbrev Name := { text : List Char // (text.head?.any isNameStart && text.all isNamePart) = true }

/-- A load expression. -/
inductive Load where
  | literal (text : Literal)
  | name (text : Name)
  | add (left right : Load)
  | mul (left right : Load)

/-- The number that a literal spells. -/
def Literal.value (text : Literal) : Int := Numerals.valueOf 10 (text.1.filter (· ≠ '_'))

namespace Load

/-- The exact value. A name without a size counts for nothing. -/
def value (sizes : HashMap String I64) : Load → Int
  | literal text => text.value
  | name text => ((sizes.lookup (String.ofList text.1)).map Subtype.val).getD 0
  | add left right => left.value sizes + right.value sizes
  | mul left right => left.value sizes * right.value sizes

/-- The sizes that an expression names. -/
def names : Load → Finset String
  | literal _ => ∅
  | name text => {String.ofList text.1}
  | add left right | mul left right => left.names ∪ right.names

/-- An expression and all that it is made of. -/
def subtrees : Load → List Load
  | literal text => [literal text]
  | name text => [name text]
  | add left right => add left right :: (left.subtrees ++ right.subtrees)
  | mul left right => mul left right :: (left.subtrees ++ right.subtrees)

end Load

/-- The number is in the range of an `i64`. -/
def FitsI64 (n : Int) : Prop := -2 ^ 63 ≤ n ∧ n < 2 ^ 63

instance (n : Int) : Decidable (FitsI64 n) := inferInstanceAs (Decidable (_ ∧ _))

/-- Every name has a size, and every part a 64-bit value. -/
def Load.Computes (sizes : HashMap String I64) (load : Load) : Prop :=
  (∀ name ∈ load.names, (sizes.lookup name).isSome) ∧
    ∀ part ∈ load.subtrees, FitsI64 (part.value sizes)

instance (sizes : HashMap String I64) (load : Load) : Decidable (load.Computes sizes) :=
  inferInstanceAs (Decidable (_ ∧ _))

/-- A row of whitespace. -/
def Blank (space : List Char) : Prop := ∀ c ∈ space, isWhitespace c = true

/-- The spellings of an expression where an operand of some precedence may stand: 0 in a sum's
place, 1 in a product's and 2 in a factor's. Both operators are left associative, so a right operand
stands one higher. -/
inductive Spells : Nat → Load → List Char → Prop where
  | literal (precedence : Nat) (text : Literal) : Spells precedence (.literal text) text.1
  | name (precedence : Nat) (text : Name) : Spells precedence (.name text) text.1
  | add {left right : Load} {s s' space space' : List Char} : Spells 0 left s → Blank space →
    Blank space' →
      Spells 1 right s' → Spells 0 (.add left right) (s ++ (space ++ '+' :: (space' ++ s')))
  | mul {precedence : Nat} {left right : Load} {s s' space space' : List Char} : precedence ≤ 1 →
    Spells 1 left s →
      Blank space → Blank space' → Spells 2 right s' →
      Spells precedence (.mul left right) (s ++ (space ++ '*' :: (space' ++ s')))
  | parens (precedence : Nat) {load : Load} {s space space' : List Char} : Spells 0 load s →
    Blank space → Blank space' →
      Spells precedence load ('(' :: (space ++ (s ++ (space' ++ [')']))))

/-! ## Every spelling is computed -/

section Computes

variable (sizes : HashMap String I64)

/-- The value of an expression in checked arithmetic, left before right. -/
def Load.eval : Load → Except Stop I64
  | literal text => checked text.value
  | name text =>
    match sizes.lookup (String.ofList text.1) with
    | some value => .ok value
    | none => .error .refused
  | add left right => do
    let a ← left.eval
    let b ← right.eval
    checkedAdd a b
  | mul left right => do
    let a ← left.eval
    let b ← right.eval
    checkedMul a b

/-- No name and no literal goes on here. -/
def Ended (rest : List Char) : Prop := ∀ c ∈ rest.head?, isNamePart c = false

/-- `factor` reads the spelling `s` of a load, and computes it. -/
def ReadsFactor (load : Load) (s : List Char) : Prop :=
  ∀ fuel space rest names, 3 * s.length + 1 ≤ fuel → Blank space → Ended rest →
    factor sizes fuel ⟨space ++ (s ++ rest), names⟩ =
      load.eval sizes >>= fun value => .ok (value, ⟨rest, names ∪ load.names⟩)

/-- A term is read up to its end, and the loop goes on from there. -/
def ReadsTerm (load : Load) (s : List Char) : Prop :=
  ∀ fuel space rest names, 3 * s.length + 2 ≤ fuel → Blank space → Ended rest →
    ∃ left, fuel ≤ left + 3 * s.length + 1 ∧ term sizes fuel ⟨space ++ (s ++ rest), names⟩ =
      load.eval sizes >>= fun value => products sizes left value ⟨rest, names ∪ load.names⟩

/-- The same of a sum, which must not go on as a product. -/
def ReadsExpression (load : Load) (s : List Char) : Prop :=
  ∀ fuel space rest names, 3 * s.length + 3 ≤ fuel → Blank space → Ended rest →
    (rest.dropWhile isWhitespace).head? ≠ some '*' →
      ∃ left, fuel ≤ left + 3 * s.length + 1 ∧ expression sizes fuel ⟨space ++ (s ++ rest), names⟩ =
        load.eval sizes >>= fun value => sums sizes left value ⟨rest, names ∪ load.names⟩

variable {sizes}

theorem dropWhile_blank {space : List Char} (h : Blank space) (text : List Char) :
    (space ++ text).dropWhile isWhitespace = text.dropWhile isWhitespace :=
  List.dropWhile_append_of_pos h

theorem isNamePart_of_isWhitespace {c : Char} (h : isWhitespace c = true) :
    isNamePart c = false := by
  by_contra hpart
  simp only [isNamePart, Bool.not_eq_false, Bool.or_eq_true, decide_eq_true_eq] at hpart
  rcases hpart with hpart | rfl
  · rw [Text.not_whitespace_of_alphanumeric hpart] at h
    cases h
  · cases h

theorem isWhitespace_of_isNamePart {c : Char} (h : isNamePart c = true) :
    isWhitespace c = false := by
  by_contra hspace
  rw [isNamePart_of_isWhitespace (by simpa using hspace)] at h
  cases h

/-- White space in front of an ended text ends a token as well. -/
theorem ended_blank {space : List Char} (h : Blank space) {rest : List Char} (hrest : Ended rest) :
    Ended (space ++ rest) := by
  cases space with
  | nil => exact hrest
  | cons c space =>
    rintro c' ⟨⟩
    exact isNamePart_of_isWhitespace (h _ List.mem_cons_self)

theorem ended_cons {c : Char} (h : isNamePart c = false) (rest : List Char) :
    Ended (c :: rest) := by
  rintro c' ⟨⟩
  exact h

/-! ### The loops -/

/-- The loop over summands begins with white space. -/
theorem sums_skipSpace (fuel : Nat) (value : I64) (p : LoadParser) :
    sums sizes fuel value (skipSpace p) = sums sizes fuel value p := by
  have hskip : skipSpace (skipSpace p) = skipSpace p := by
    simp only [skipSpace, List.dropWhile_idempotent]
  have hnames : (skipSpace p).names = p.names := rfl
  cases fuel with
  | zero => rw [sums, sums]
  | succ fuel => rw [sums, sums, hskip, hnames]

/-- Without a star the product is over. -/
theorem products_stop {fuel : Nat} (hfuel : 0 < fuel) (value : I64) {p : LoadParser}
    (h : (skipSpace p).rest.head? ≠ some '*') :
    products sizes fuel value p = .ok (value, skipSpace p) := by
  obtain ⟨fuel, rfl⟩ := Nat.exists_eq_succ_of_ne_zero hfuel.ne'
  rw [products]
  split
  · next heq =>
    rw [heq] at h
    exact absurd rfl h
  · rfl

/-- Without a plus the sum is over. -/
theorem sums_stop {fuel : Nat} (hfuel : 0 < fuel) (value : I64) {p : LoadParser}
    (h : (skipSpace p).rest.head? ≠ some '+') :
    sums sizes fuel value p = .ok (value, skipSpace p) := by
  obtain ⟨fuel, rfl⟩ := Nat.exists_eq_succ_of_ne_zero hfuel.ne'
  rw [sums]
  split
  · next heq =>
    rw [heq] at h
    exact absurd rfl h
  · rfl

/-- A star asks for a further factor. -/
theorem products_step (fuel : Nat) (value : I64) {space : List Char} (h : Blank space)
    (rest : List Char)
    (names : Finset String) :
    products sizes (fuel + 1) value ⟨space ++ '*' :: rest, names⟩ = (do
      let (scale, p) ← factor sizes fuel ⟨rest, names⟩
      let value ← checkedMul value scale
      products sizes fuel value p) := by
  have hskip : (space ++ '*' :: rest).dropWhile isWhitespace = '*' :: rest := dropWhile_blank h _
  simp only [products, skipSpace, hskip]

/-- A plus asks for a further term. -/
theorem sums_step (fuel : Nat) (value : I64) {space : List Char} (h : Blank space)
    (rest : List Char)
    (names : Finset String) :
    sums sizes (fuel + 1) value ⟨space ++ '+' :: rest, names⟩ = (do
      let (summand, p) ← term sizes fuel ⟨rest, names⟩
      let value ← checkedAdd value summand
      sums sizes fuel value p) := by
  have hskip : (space ++ '+' :: rest).dropWhile isWhitespace = '+' :: rest := dropWhile_blank h _
  simp only [sums, skipSpace, hskip]

/-! ### Names and literals -/

/-- Without a parenthesis a factor is an atom. -/
theorem factor_of_ne {fuel : Nat} (hfuel : 0 < fuel) {p : LoadParser}
    (h : (skipSpace p).rest.head? ≠ some '(') :
    factor sizes fuel p = atom sizes (skipSpace p) := by
  obtain ⟨fuel, rfl⟩ := Nat.exists_eq_succ_of_ne_zero hfuel.ne'
  rw [factor]
  split
  · next heq =>
    rw [heq] at h
    exact absurd rfl h
  · rfl

/-- A literal is scanned to its end. -/
theorem scanLiteral_append {previousDigit : Bool} {text rest : List Char}
    (h : isLiteral previousDigit text = true)
    (hrest : Ended rest) :
    scanLiteral previousDigit (text ++ rest) = (text.filter (· ≠ '_'), rest) := by
  induction text generalizing previousDigit with
  | nil =>
    rw [isLiteral] at h
    subst h
    cases rest with
    | nil => rfl
    | cons c rest =>
      have hpart := hrest c rfl
      simp only [isNamePart, isAsciiAlphanumeric, Bool.or_eq_false_iff,
        decide_eq_false_iff_not] at hpart
      simp [scanLiteral, hpart.1.2, hpart.2]
  | cons c text ih =>
    rw [isLiteral] at h
    rw [List.cons_append, scanLiteral]
    split at h
    · next hdigit =>
      have hne : c ≠ '_' := by
        rintro rfl
        cases hdigit
      rw [if_pos hdigit, ih h]
      simp [hne]
    · next hdigit =>
      simp only [Bool.and_eq_true, decide_eq_true_eq] at h
      rw [if_neg hdigit, if_pos h.1, ih h.2]
      simp [h.1.1]

theorem filter_isDigit {previousDigit : Bool} {text : List Char}
    (h : isLiteral previousDigit text = true) :
    ∀ c ∈ text.filter (· ≠ '_'), isAsciiDigit c = true := by
  induction text generalizing previousDigit with
  | nil => simp
  | cons c text ih =>
    rw [isLiteral] at h
    split at h
    · next hdigit =>
      intro d hd
      obtain ⟨hmem, hne⟩ := List.mem_filter.1 hd
      rcases List.mem_cons.1 hmem with rfl | hmem
      · exact hdigit
      · exact ih h d (List.mem_filter.2 ⟨hmem, hne⟩)
    · next hdigit =>
      simp only [Bool.and_eq_true, decide_eq_true_eq] at h
      rw [List.filter_cons_of_neg (by simp [h.1.1])]
      exact ih h.2

/-- The first character of a literal is a digit. -/
theorem exists_digit (text : Literal) : ∃ c rest, text.1 = c :: rest ∧ isAsciiDigit c = true := by
  obtain ⟨text, h⟩ := text
  cases text with
  | nil => cases h
  | cons c rest =>
    refine ⟨c, rest, rfl, ?_⟩
    simp only [isLiteral] at h
    split at h
    · next hdigit => exact hdigit
    · simp at h

/-- The digits of a literal, without underscores, are its value. -/
theorem readInt_literal (text : Literal) :
    Numerals.readInt (text.1.filter (· ≠ '_')) = some text.value := by
  obtain ⟨c, rest, htext, hdigit⟩ := exists_digit text
  have hne : text.1.filter (· ≠ '_') ≠ [] := by
    have hc : c ≠ '_' := by
      rintro rfl
      cases hdigit
    rw [htext, List.filter_cons_of_pos (by simpa using hc)]
    simp
  have hread := JsonReader.readInt_signed false ⟨text.1.filter (· ≠ '_'), filter_isDigit text.2⟩ hne
  simpa only [JsonTree.signText, Bool.false_eq_true, if_false, List.nil_append,
    Literal.value] using hread

theorem parseI64_literal (text : Literal) {α : Type} (f : I64 → Except Stop α) :
    (match parseI64 (text.1.filter (· ≠ '_')) with
      | some value => f value
      | none => .error .refused) = checked text.value >>= f := by
  rw [parseI64, readInt_literal, Option.bind_some, checked]
  split
  · next value heq =>
    split at heq
    · next hfits =>
      cases heq
      rw [dif_pos hfits]
      rfl
    · cases heq
  · next heq =>
    split at heq
    · cases heq
    · next hfits =>
      rw [dif_neg hfits]
      rfl

/-- White space in front of a token is skipped. -/
theorem skipSpace_token {space : List Char} (hspace : Blank space) {c : Char}
    (hc : isWhitespace c = false)
    (rest : List Char) (names : Finset String) :
    skipSpace ⟨space ++ c :: rest, names⟩ = ⟨c :: rest, names⟩ := by
  have hskip : (space ++ c :: rest).dropWhile isWhitespace = c :: rest := by
    rw [dropWhile_blank hspace, List.dropWhile_cons_of_neg (by simp [hc])]
  simp only [skipSpace, hskip]

theorem isNamePart_of_isAsciiDigit {c : Char} (h : isAsciiDigit c = true) :
    isNamePart c = true := by
  simp [isNamePart, isAsciiAlphanumeric, h]

theorem ne_paren_of_isNamePart {c : Char} (h : isNamePart c = true) : c ≠ '(' := by
  rintro rfl
  cases h

/-- A literal is read as a factor. -/
theorem readsFactor_literal (text : Literal) : ReadsFactor sizes (.literal text) text.1 := by
  intro fuel space rest names hfuel hspace hrest
  obtain ⟨c, chars, htext, hdigit⟩ := exists_digit text
  have hpart := isNamePart_of_isAsciiDigit hdigit
  have hscan := scanLiteral_append text.2 hrest
  rw [htext, List.cons_append] at hscan
  have hskip := skipSpace_token hspace (isWhitespace_of_isNamePart hpart) (chars ++ rest) names
  rw [htext, List.cons_append, factor_of_ne (by omega), hskip]
  · simp only [atom, hdigit, if_true, hscan, ← htext, Load.eval, Load.names, Finset.union_empty]
    exact parseI64_literal text fun value => .ok (value, LoadParser.mk rest names)
  · rw [hskip]
    simpa using ne_paren_of_isNamePart hpart

theorem isAsciiDigit_of_isNameStart {c : Char} (h : isNameStart c = true) :
    isAsciiDigit c = false := by
  rw [Bool.eq_false_iff]
  intro hdigit
  simp only [isAsciiDigit, Bool.and_eq_true, decide_eq_true_eq] at hdigit
  have hnine : c.toNat ≤ 57 := Text.toNat_le_of_le hdigit.2
  simp only [isNameStart, isAsciiAlphabetic, Bool.or_eq_true, Bool.and_eq_true,
    decide_eq_true_eq] at h
  rcases h with (hsmall | hcapital) | rfl
  · have hge : 97 ≤ c.toNat := Text.toNat_le_of_le hsmall.1
    omega
  · have hge : 65 ≤ c.toNat := Text.toNat_le_of_le hcapital.1
    omega
  · exact absurd hnine (by decide)

/-- A name is read up to its end. -/
theorem span_name {name rest : List Char} (h : ∀ c ∈ name, isNamePart c = true)
    (hrest : Ended rest) :
    (name ++ rest).takeWhile isNamePart = name ∧ (name ++ rest).dropWhile isNamePart = rest := by
  have hstop : rest.takeWhile isNamePart = [] ∧ rest.dropWhile isNamePart = rest := by
    cases rest with
    | nil => exact ⟨rfl, rfl⟩
    | cons c rest => simp [hrest c rfl]
  rw [List.takeWhile_append_of_pos h, List.dropWhile_append_of_pos h, hstop.1, hstop.2,
    List.append_nil]
  exact ⟨rfl, rfl⟩

/-- A name is read as a factor. -/
theorem readsFactor_name (text : Name) : ReadsFactor sizes (.name text) text.1 := by
  intro fuel space rest names hfuel hspace hrest
  obtain ⟨text, htext⟩ := text
  simp only [Bool.and_eq_true, List.all_eq_true] at htext
  obtain ⟨hstart, hall⟩ := htext
  cases text with
  | nil => cases hstart
  | cons c chars =>
    have hpart := hall c List.mem_cons_self
    have hstart : isNameStart c = true := hstart
    have hdigit := isAsciiDigit_of_isNameStart hstart
    obtain ⟨htake, hdrop⟩ := span_name hall hrest
    rw [List.cons_append] at htake hdrop
    have hskip := skipSpace_token hspace (isWhitespace_of_isNamePart hpart) (chars ++ rest) names
    simp only at hfuel ⊢
    rw [List.cons_append, factor_of_ne (by omega), hskip]
    · simp only [atom, hdigit, hstart, Bool.false_eq_true, if_false, if_true, hdrop, Load.eval,
        Load.names]
      rw [htake, Finset.union_comm]
      cases sizes.lookup (String.ofList (c :: chars)) with
      | some value => rfl
      | none => rfl
    · rw [hskip]
      simpa using ne_paren_of_isNamePart hpart

/-- The text between the parentheses is an expression of its own. -/
theorem readsFactor_parens {load : Load} {s space space' : List Char}
    (h : ReadsExpression sizes load s)
    (hspace : Blank space) (hspace' : Blank space') :
    ReadsFactor sizes load ('(' :: (space ++ (s ++ (space' ++ [')'])))) := by
  intro fuel before rest names hfuel hbefore hrest
  simp only [List.length_cons, List.length_append, List.length_nil] at hfuel
  obtain ⟨fuel, rfl⟩ : ∃ n, fuel = n + 1 := ⟨fuel - 1, by omega⟩
  have hclose : (space' ++ ')' :: rest).dropWhile isWhitespace = ')' :: rest := by
    rw [dropWhile_blank hspace']
    rfl
  obtain ⟨left, hleft, hread⟩ := h fuel space (space' ++ ')' :: rest) names (by omega) hspace
    (ended_blank hspace' (ended_cons (by rfl) rest)) (by rw [hclose]; simp)
  have hskip := skipSpace_token hbefore (c := '(') (by rfl)
      (space ++ (s ++ (space' ++ ')' :: rest))) names
  have htext : '(' :: (space ++ (s ++ (space' ++ [')']))) ++ rest = '(' ::
      (space ++ (s ++ (space' ++ ')' :: rest))) := by
    simp
  rw [htext, factor, hskip]
  simp only [hread, bind_assoc]
  refine bind_congr fun value => ?_
  rw [sums_stop (by omega)]
  · simp only [skipSpace, hclose]
    rfl
  · simp [skipSpace, hclose]

/-- What is read as a factor is read as a term. -/
theorem ReadsFactor.term {load : Load} {s : List Char} (h : ReadsFactor sizes load s) :
    ReadsTerm sizes load s := by
  intro fuel space rest names hfuel hspace hrest
  obtain ⟨fuel, rfl⟩ : ∃ n, fuel = n + 1 := ⟨fuel - 1, by omega⟩
  refine ⟨fuel, by omega, ?_⟩
  rw [EnvTier.term, h fuel space rest names (by omega) hspace hrest, bind_assoc]
  rfl

/-- A product is read as a term. -/
theorem readsTerm_mul {left right : Load} {s s' space space' : List Char}
    (h : ReadsTerm sizes left s)
    (hspace : Blank space) (hspace' : Blank space') (h' : ReadsFactor sizes right s') :
    ReadsTerm sizes (.mul left right) (s ++ (space ++ '*' :: (space' ++ s'))) := by
  intro fuel before rest names hfuel hbefore hrest
  simp only [List.length_cons, List.length_append] at hfuel ⊢
  obtain ⟨fuel', hleft, hread⟩ :=
    h fuel before (space ++ '*' :: (space' ++ (s' ++ rest))) names (by omega) hbefore
    (ended_blank hspace (ended_cons (by rfl) _))
  obtain ⟨fuel', rfl⟩ : ∃ n, fuel' = n + 1 := ⟨fuel' - 1, by omega⟩
  refine ⟨fuel', by omega, ?_⟩
  have htext : s ++ (space ++ '*' :: (space' ++ s')) ++ rest = s ++
      (space ++ '*' :: (space' ++ (s' ++ rest))) := by simp
  rw [htext, hread, Load.eval, bind_assoc]
  refine bind_congr fun a => ?_
  rw [products_step fuel' a hspace, h' fuel' space' rest _ (by omega) hspace' hrest, bind_assoc,
    bind_assoc]
  refine bind_congr fun b => ?_
  simp only [Load.names, Finset.union_assoc]
  rfl

/-- What is read as a term is read as an expression. -/
theorem ReadsTerm.expression {load : Load} {s : List Char} (h : ReadsTerm sizes load s) :
    ReadsExpression sizes load s := by
  intro fuel space rest names hfuel hspace hrest hstar
  obtain ⟨fuel, rfl⟩ : ∃ n, fuel = n + 1 := ⟨fuel - 1, by omega⟩
  obtain ⟨left, hleft, hread⟩ := h fuel space rest names (by omega) hspace hrest
  refine ⟨fuel, by omega, ?_⟩
  rw [EnvTier.expression, hread, bind_assoc]
  refine bind_congr fun value => ?_
  rw [products_stop (p := ⟨rest, names ∪ load.names⟩) (by omega) value hstar]
  exact sums_skipSpace fuel value _

/-- A sum is read as an expression. -/
theorem readsExpression_add {left right : Load} {s s' space space' : List Char}
    (h : ReadsExpression sizes left s)
    (hspace : Blank space) (hspace' : Blank space') (h' : ReadsTerm sizes right s') :
    ReadsExpression sizes (.add left right) (s ++ (space ++ '+' :: (space' ++ s'))) := by
  intro fuel before rest names hfuel hbefore hrest hstar
  simp only [List.length_cons, List.length_append] at hfuel ⊢
  have hplus : (space ++ '+' :: (space' ++ (s' ++ rest))).dropWhile isWhitespace = '+' ::
      (space' ++ (s' ++ rest)) := by
    rw [dropWhile_blank hspace]
    rfl
  obtain ⟨fuel', hleft, hread⟩ :=
    h fuel before (space ++ '+' :: (space' ++ (s' ++ rest))) names (by omega) hbefore
    (ended_blank hspace (ended_cons (by rfl) _)) (by rw [hplus]; simp)
  obtain ⟨fuel', rfl⟩ : ∃ n, fuel' = n + 1 := ⟨fuel' - 1, by omega⟩
  refine ⟨fuel', by omega, ?_⟩
  have htext : s ++ (space ++ '+' :: (space' ++ s')) ++ rest = s ++
      (space ++ '+' :: (space' ++ (s' ++ rest))) := by simp
  rw [htext, hread, Load.eval, bind_assoc]
  refine bind_congr fun a => ?_
  obtain ⟨left', hleft', hread'⟩ :=
    h' fuel' space' rest (names ∪ left.names) (by omega) hspace' hrest
  rw [sums_step fuel' a hspace, hread', bind_assoc, bind_assoc]
  refine bind_congr fun b => ?_
  rw [products_stop (p := ⟨rest, names ∪ left.names ∪ right.names⟩) (by omega) b hstar]
  rw [Load.names, ← Finset.union_assoc]
  change (checkedAdd a b >>= fun value => sums sizes fuel' value (skipSpace _)) = _
  exact bind_congr fun value => sums_skipSpace fuel' value _

/-- What is read where an operand of some precedence may stand. -/
def Reads (sizes : HashMap String I64) (load : Load) (s : List Char) : Nat → Prop
  | 0 => ReadsExpression sizes load s
  | 1 => ReadsTerm sizes load s
  | _ => ReadsFactor sizes load s

/-- What is read as a factor is read at every precedence. -/
theorem ReadsFactor.reads {load : Load} {s : List Char} (h : ReadsFactor sizes load s) :
    (precedence : Nat) → Reads sizes load s precedence
  | 0 => h.term.expression
  | 1 => h.term
  | _ + 2 => h

/-- What spells a load is read as it. -/
theorem Spells.reads {precedence : Nat} {load : Load} {s : List Char}
    (h : Spells precedence load s) :
    Reads sizes load s precedence := by
  induction h with
  | literal precedence text => exact (readsFactor_literal text).reads precedence
  | name precedence text => exact (readsFactor_name text).reads precedence
  | add _ hspace hspace' _ ih ih' => exact readsExpression_add ih hspace hspace' ih'
  | @mul precedence _ _ _ _ _ _ hprecedence _ hspace hspace' _ ih ih' =>
    have hterm := readsTerm_mul ih hspace hspace' ih'
    match precedence, hprecedence with
    | 0, _ => exact hterm.expression
    | 1, _ => exact hterm
  | parens precedence _ hspace hspace' ih =>
    exact (readsFactor_parens ih hspace hspace').reads precedence

/-- A spelling is evaluated as the expression that it spells. -/
theorem loadExpression_of_spells {load : Load} {s before after : List Char} (h : Spells 0 load s)
    (hbefore : Blank before)
    (hafter : Blank after) : loadExpression sizes (before ++ (s ++ after)) =
      (load.eval sizes).map fun value => (value, load.names) := by
  have hend : after.dropWhile isWhitespace = [] := by
    rw [List.dropWhile_eq_nil_iff]
    exact hafter
  have hended : Ended after := by
    cases after with
    | nil => simp [Ended]
    | cons c after =>
      exact ended_cons (isNamePart_of_isWhitespace (hafter c List.mem_cons_self)) after
  have hreads : ReadsExpression sizes load s := h.reads
  obtain ⟨left, hleft, hread⟩ := hreads (3 * (before ++ (s ++ after)).length + 3) before after ∅
    (by simp only [List.length_append]; omega) hbefore hended (by simp [hend])
  simp only [List.length_append] at hleft
  rw [loadExpression, hread]
  cases load.eval sizes with
  | error stop => rfl
  | ok value =>
    change (sums sizes left value ⟨after, ∅ ∪ load.names⟩ >>= _) = _
    rw [sums_stop (by omega) value (by simp [skipSpace, hend])]
    simp [skipSpace, hend, Except.map, bind, Except.bind]

/-! ### Checked and exact values -/

/-- A result that is a number exactly where a condition holds, and refused elsewhere. -/
def Decides (condition : Prop) (n : Int) (r : Except Stop I64) : Prop :=
  (condition → ∃ h, r = .ok ⟨n, h⟩) ∧ (¬ condition → r = .error .refused)

/-- A checked value is kept where it fits. -/
theorem decides_checked (n : Int) : Decides (FitsI64 n) n (checked n) :=
  ⟨fun h => ⟨h, dif_pos h⟩, fun h => dif_neg h⟩

/-- An operator of checked arithmetic: both operands have a value and so has the result. -/
theorem Decides.bind {a b : Int} {c c' : Prop} {r r' : Except Stop I64} (op : Int → Int → Int)
    (h : Decides c a r)
    (h' : Decides c' b r') : Decides (c ∧ c' ∧ FitsI64 (op a b)) (op a b) (do
      let a ← r
      let b ← r'
      checked (op a.1 b.1)) := by
  by_cases hc : c
  · obtain ⟨ha, rfl⟩ := h.1 hc
    by_cases hc' : c'
    · obtain ⟨hb, rfl⟩ := h'.1 hc'
      have hop := decides_checked (op a b)
      exact ⟨fun hfits => hop.1 hfits.2.2, fun hfits => hop.2 fun hfits' => hfits ⟨hc, hc', hfits'⟩⟩
    · rw [h'.2 hc']
      exact ⟨fun hfits => absurd hfits.2.1 hc', fun _ => rfl⟩
  · rw [h.2 hc]
    exact ⟨fun hfits => absurd hfits.1 hc, fun _ => rfl⟩

/-- A literal is computed where it fits. -/
theorem computes_literal {text : Literal} : (Load.literal text).Computes sizes ↔
    FitsI64 text.value := by
  simp [Load.Computes, Load.names, Load.subtrees, Load.value]

/-- A name that has a size has a 64-bit value. -/
theorem computes_name {text : Name} :
    (Load.name text).Computes sizes ↔ (sizes.lookup (String.ofList text.1)).isSome := by
  simp only [Load.Computes, Load.names, Load.subtrees, Load.value, Finset.mem_singleton, forall_eq,
    List.mem_singleton,
    and_iff_left_iff_imp]
  intro h
  obtain ⟨value, hvalue⟩ := Option.isSome_iff_exists.1 h
  rw [hvalue]
  exact value.2

/-- A node is computed where both sides are and the node itself fits. -/
theorem computes_node {load left right : Load} (hnames : load.names = left.names ∪ right.names)
    (hsubtrees : load.subtrees = load :: (left.subtrees ++ right.subtrees)) :
    load.Computes sizes ↔ left.Computes sizes ∧ right.Computes sizes ∧
      FitsI64 (load.value sizes) := by
  simp only [Load.Computes, hnames, hsubtrees, Finset.mem_union, List.mem_cons, List.mem_append,
    or_imp, forall_and, forall_eq]
  tauto

/-- The evaluation gives the value exactly where it is computed. -/
theorem eval_decides (load : Load) : Decides (load.Computes sizes) (load.value sizes)
    (load.eval sizes) := by
  induction load with
  | literal text =>
    rw [computes_literal]
    exact decides_checked text.value
  | name text =>
    rw [computes_name, Load.eval, Load.value]
    cases hsize : sizes.lookup (String.ofList text.1) with
    | some value => exact ⟨fun _ => ⟨value.2, rfl⟩, fun h => absurd rfl h⟩
    | none => exact ⟨fun h => absurd h (by simp), fun _ => rfl⟩
  | add left right ih ih' =>
    rw [computes_node rfl rfl]
    exact ih.bind (· + ·) ih'
  | mul left right ih ih' =>
    rw [computes_node rfl rfl]
    exact ih.bind (· * ·) ih'

/-- **Every spelling is computed.** Where each name has a size and each part a 64-bit value, the
result is the exact value and the names of the expression; elsewhere there is none. -/
theorem loadExpression_computes (sizes : HashMap String I64) {load : Load}
    {s before after : List Char}
    (h : Spells 0 load s) (hbefore : Blank before) (hafter : Blank after) :
    (load.Computes sizes → ∃ value, value.1 = load.value sizes ∧
        loadExpression sizes (before ++ (s ++ after)) = .ok (value, load.names)) ∧
      (¬ load.Computes sizes →
        loadExpression sizes (before ++ (s ++ after)) = .error .refused) := by
  rw [loadExpression_of_spells h hbefore hafter]
  refine ⟨fun hcomputes => ?_, fun hcomputes => ?_⟩
  · obtain ⟨hfits, heval⟩ := (eval_decides load).1 hcomputes
    rw [heval]
    exact ⟨_, rfl, rfl⟩
  · rw [(eval_decides load).2 hcomputes]
    rfl

/-- A product with a space in front, an underscore in a literal and parentheses that it does not
need. -/
theorem loadExpression_computes_product :
    loadExpression (AList.singleton "n" ⟨2, by decide⟩) " ((2)*(n + 1_0))".toList =
      .ok (⟨24, by decide⟩, {"n"}) := by
  let two : Literal := ⟨['2'], by decide⟩
  let n : Name := ⟨['n'], by decide⟩
  let ten : Literal := ⟨['1', '_', '0'], by decide⟩
  have hblank : Blank [] := by simp [Blank]
  have hspace : Blank [' '] := by
    intro c hc
    cases List.mem_singleton.1 hc
    decide
  have hsum : Spells 0 (.add (.name n) (.literal ten)) "n + 1_0".toList :=
    .add (.name 0 n) hspace hspace (.literal 1 ten)
  have hspells : Spells 0 (.mul (.literal two) (.add (.name n) (.literal ten)))
      "((2)*(n + 1_0))".toList :=
    .parens 0 (.mul (by decide) (.parens 1 (.literal 0 two) hblank hblank) hblank hblank
      (.parens 2 hsum hblank hblank)) hblank hblank
  obtain ⟨value, hvalue, hresult⟩ :=
    (loadExpression_computes (AList.singleton "n" ⟨2, by decide⟩) hspells hspace hblank).1
    (by decide)
  have htext : " ((2)*(n + 1_0))".toList = [' '] ++ ("((2)*(n + 1_0))".toList ++ []) := by decide
  have hvalue : value = ⟨24, by decide⟩ := Subtype.ext (hvalue.trans (by decide))
  rw [htext, hresult, hvalue]
  decide

end Computes

end RtpMux.EnvTier
