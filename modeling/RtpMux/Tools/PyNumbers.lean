import RtpMux.Tools.ArmLines
import RtpMux.Tools.LoadExpression

/-!
# Python's `int()` and `float()`

Two tools read a token as Python does, each with a port of its own: `tools/mandate_check/value.rs`
takes the underscores out and leaves the rest to the standard library, `tools/check_gate/mod.rs` and
`tools/check_gate/perf.rs` take the sign off first. They are compared with each other and with
Python over the ASCII tokens without whitespace.

They fall apart in three places: at two underscores in a row or one beside a letter, which the first
ports let pass, at the least `i64`, which has no absolute value, and at two signs, of which
`perf.rs` takes one and the standard library the other.
-/

namespace RtpMux

open Numerals (I64 parseI64)
open Text (isAsciiDigit isAsciiAlphanumeric toAsciiLowercase)

/-! ## The standard library's floats -/

/-- A text without its sign. -/
def dropSign : List Char → List Char
  | '+' :: rest => rest
  | '-' :: rest => rest
  | text => text

/-- A row of digits, at least one. -/
def isDigits (text : List Char) : Bool := text ≠ [] && text.all isAsciiDigit

/-- An exponent, or nothing. -/
def isExponent : List Char → Bool
  | [] => true
  | mark :: rest => (mark = 'e' || mark = 'E') && isDigits (dropSign rest)

/-- Digits with a point before, between or behind them, and an exponent. -/
def isFloatNumber (text : List Char) : Bool :=
  let whole := text.takeWhile isAsciiDigit
  match text.dropWhile isAsciiDigit with
  | '.' :: rest =>
    (whole ≠ [] || rest.takeWhile isAsciiDigit ≠ []) && isExponent (rest.dropWhile isAsciiDigit)
  | rest => whole ≠ [] && isExponent rest

/-- An infinity or no number, in letters of any case. -/
def isFloatWord (text : List Char) : Bool :=
  text.map toAsciiLowercase ∈ ["inf".toList, "infinity".toList, "nan".toList]

/-- The texts that `str::parse::<f64>` takes. -/
def isF64 (text : List Char) : Bool := isFloatWord (dropSign text) || isFloatNumber (dropSign text)

namespace MandateCheck

variable {F : Type}

/-- What the standard library's documentation says of ASCII letters and of the floats it parses. -/
structure Prims.Documented (prims : Prims F) : Prop where
  isAlphanumeric : ∀ c : Char, c.toNat < 128 → prims.isAlphanumeric c = isAsciiAlphanumeric c
  parseF64 : ∀ text, (prims.parseF64 text).isSome = isF64 text

end MandateCheck

/-! ## The ports of `check_gate` -/

namespace CheckGate

/-- One round of `py_int` over the digits: what it keeps, and whether a digit stands last. -/
def intStep : List Char × Bool → Char → Option (List Char × Bool)
  | (cleaned, previousDigit), character =>
    if isAsciiDigit character then some (cleaned ++ [character], true)
    else if character = '_' ∧ previousDigit = true then some (cleaned ++ [character], false)
    else none

/-- The sign and the digits of a text. -/
def splitSign : List Char → Int × List Char
  | '+' :: digits => (1, digits)
  | '-' :: digits => (-1, digits)
  | digits => (1, digits)

/-- `py_int` of `check_gate/mod.rs`. -/
def pyInt (text : List Char) : Option Int :=
  let (sign, digits) := splitSign (Text.trim text)
  match digits.foldlM intStep ([], false) with
  | some (cleaned, true) => (parseI64 (cleaned.filter (· ≠ '_'))).map fun value => sign * value.1
  | _ => none

/-- What `py_float` takes of `f64` besides. -/
structure FloatOps (F : Type) where
  infinity : F
  nan : F
  /-- `sign * value`, where the sign is `-1.0` or `1.0` -/
  timesSign : (negative : Bool) → F → F

/-- Whether the underscore at an index stands between two digits. -/
def betweenDigits (chars : List Char) (index : Nat) : Bool :=
  ((if index = 0 then none else chars[index - 1]?).any isAsciiDigit) &&
    (chars[index + 1]?.any isAsciiDigit)

/-- `py_float` of `check_gate/perf.rs`. -/
def pyFloat {F : Type} (prims : MandateCheck.Prims F) (ops : FloatOps F) (text : List Char) :
    Option F :=
  let lower := (Text.trim text).map toAsciiLowercase
  if lower = [] then none
  else
    let negative := lower.head? = some '-'
    let rest := dropSign lower
    if rest = "inf".toList ∨
      rest = "infinity".toList then some (ops.timesSign negative ops.infinity)
    else if rest = "nan".toList then some ops.nan
    else if (List.range rest.length).all fun index =>
      rest[index]? ≠ some '_' || betweenDigits rest index then
      (prims.parseF64 (rest.filter (· ≠ '_'))).map (ops.timesSign negative)
    else none

end CheckGate

/-! ## Python -/

/-- A token: ASCII, and nothing that counts as whitespace here or, as the four separators do, in
Python. -/
def IsToken (text : List Char) : Prop :=
  ∀ c ∈ text, c.toNat < 128 ∧ Text.isWhitespace c = false ∧ ¬ (0x1c ≤ c.toNat ∧ c.toNat ≤ 0x1f)

/-- Every underscore stands between two characters of a kind. Before the text stands `before`. -/
def JoinedFrom (p : Char → Bool) (before : Option Char) (text : List Char) : Prop :=
  ∀ index, text[index]? = some '_' →
    ((if index = 0 then before else text[index - 1]?).any p) = true ∧
      (text[index + 1]?.any p) = true

/-- Every underscore stands between two digits, where Python lets it stand. -/
abbrev Grouped (text : List Char) : Prop := JoinedFrom isAsciiDigit none text

/-- Every underscore stands between letters, digits and underscores. -/
abbrev Loose (text : List Char) : Prop :=
  JoinedFrom (fun c => isAsciiAlphanumeric c || c = '_') none text

/-- The text that is parsed: without its underscores. -/
def withoutUnderscores (text : List Char) : List Char := text.filter (· ≠ '_')

/-- The integer that Python reads in a token: a sign and digits, with underscores between them. -/
def PythonInt (text : List Char) (n : Int) : Prop :=
  Grouped text ∧ Numerals.readInt (withoutUnderscores text) = some n

/-- The tokens that Python reads as a float. -/
def PythonFloat (text : List Char) : Prop := Grouped text ∧ isF64 (withoutUnderscores text) = true

section Joined

variable {p q : Char → Bool} {before before' : Option Char} {text : List Char}

theorem joinedFrom_nil : JoinedFrom p before [] := fun _ h => by simp at h

/-- Underscores stand between digits, character by character. -/
theorem joinedFrom_cons {c : Char} : JoinedFrom p before (c :: text) ↔
    (c = '_' → before.any p = true ∧ text.head?.any p = true) ∧ JoinedFrom p (some c) text := by
  refine ⟨fun h => ⟨fun hc => ?_, fun index hindex => ?_⟩, fun ⟨hc, h⟩ index hindex => ?_⟩
  · have hfirst := h 0 (by simp [hc])
    simpa [List.head?_eq_getElem?] using hfirst
  · have hnext := h (index + 1) (by simpa using hindex)
    cases index with
    | zero => simpa using hnext
    | succ index => simpa using hnext
  · cases index with
    | zero =>
      have hfirst := hc (by simpa using hindex)
      simpa [List.head?_eq_getElem?] using hfirst
    | succ index =>
      have hnext := h index (by simpa using hindex)
      cases index with
      | zero => simpa using hnext
      | succ index => simpa using hnext

theorem JoinedFrom.mono (h : JoinedFrom p before text) (hpq : ∀ c, p c = true → q c = true) :
    JoinedFrom q before text := by
  have hany {o : Option Char} (ho : o.any p = true) : o.any q = true := by
    cases o with
    | none => cases ho
    | some c => exact hpq c ho
  exact fun index hindex => ⟨hany (h index hindex).1, hany (h index hindex).2⟩

theorem joinedFrom_congr (h : before.any p = before'.any p) : JoinedFrom p before text ↔
    JoinedFrom p before' text := by
  cases text with
  | nil => exact ⟨fun _ => joinedFrom_nil, fun _ => joinedFrom_nil⟩
  | cons c text => rw [joinedFrom_cons, joinedFrom_cons, h]

theorem joinedFrom_of_not_mem (h : '_' ∉ text) : JoinedFrom p before text :=
  fun _ hindex => absurd (List.mem_of_getElem? hindex) h

/-- The test of the sources, index by index. -/
theorem all_range_iff {test : Nat → Bool}
    (htest : ∀ index, test index = true ↔
      ((if index = 0 then none else text[index - 1]?).any p) = true ∧
        (text[index + 1]?.any p) = true) :
    ((List.range text.length).all fun index => text[index]? ≠ some '_' || test index) = true ↔
      JoinedFrom p none text := by
  simp only [List.all_eq_true, List.mem_range, Bool.or_eq_true, decide_eq_true_eq, htest]
  refine ⟨fun h index hindex => ?_, fun h index _ => ?_⟩
  · have hlt : index < text.length := (List.getElem?_eq_some_iff.1 hindex).1
    exact (h index hlt).resolve_left (not_not_intro hindex)
  · by_cases hindex : text[index]? = some '_'
    · exact .inr (h index hindex)
    · exact .inl hindex

end Joined

/-! ## The ports without their underscores -/

section Ports

variable {F : Type} {prims : MandateCheck.Prims F} {text : List Char}

/-- A token is trimmed. -/
theorem trim_token (h : IsToken text) : Text.trim text = text := by
  have hnone : ∀ c ∈ text, Text.isWhitespace c = false := fun c hc => (h c hc).2.1
  have hfront : text.dropWhile Text.isWhitespace = text := by
    cases text with
    | nil => rfl
    | cons c text => simp [hnone c List.mem_cons_self]
  rw [Text.trim, hfront, Text.trimEnd, List.rdropWhile_eq_self_iff]
  intro hne
  simp [hnone _ (List.getLast_mem hne)]

/-- `strip_underscores` of a token. -/
theorem stripUnderscores_eq (hprims : prims.Documented) (h : IsToken text)
    [Decidable (Loose text)] :
    MandateCheck.stripUnderscores prims text = if Loose text then some (withoutUnderscores text)
      else none := by
  have hclean : '_' ∉ withoutUnderscores text := by simp [withoutUnderscores]
  have hpart (o : Option Char) (ho : ∀ c ∈ o, c ∈ text) :
      o.any (fun c => prims.isAlphanumeric c || c = '_') = o.any fun c =>
        isAsciiAlphanumeric c || c = '_' := by
    cases o with
    | none => rfl
    | some c => simp [hprims.isAlphanumeric c (h c (ho c rfl)).1]
  have htest := @all_range_iff (fun c => isAsciiAlphanumeric c || c = '_') text
    (MandateCheck.joinsDigits prims text) fun index => by
      rw [MandateCheck.joinsDigits, Bool.and_eq_true, hpart _ fun c hc => ?_,
        hpart _ fun c hc => List.mem_of_getElem? hc]
      split at hc
      · cases hc
      · exact List.mem_of_getElem? hc
  unfold MandateCheck.stripUnderscores
  split
  · next hmem =>
    have hsame : withoutUnderscores text = text :=
      List.filter_eq_self.2 fun c hc => by simpa using fun heq : c = '_' => hmem (heq ▸ hc)
    rw [if_pos (joinedFrom_of_not_mem hmem), hsame]
  · by_cases hloose : Loose text
    · rw [if_pos hloose, if_pos (htest.2 hloose)]
      exact if_neg hclean
    · rw [if_neg hloose, if_neg fun hall => hloose (htest.1 hall)]

/-- The integer that `mandate_check` reads of a token. -/
theorem mandate_pyInt_eq (hprims : prims.Documented) (h : IsToken text) [Decidable (Loose text)] :
    MandateCheck.pyInt prims text = if Loose text then parseI64 (withoutUnderscores text)
      else none := by
  rw [MandateCheck.pyInt, stripUnderscores_eq hprims h]
  split <;> rfl

/-- When `mandate_check` reads a token as a float. -/
theorem mandate_pyFloat_isSome (hprims : prims.Documented) (h : IsToken text) :
    (MandateCheck.pyFloat prims text).isSome = true ↔ Loose text ∧
      isF64 (withoutUnderscores text) = true := by
  classical
  rw [MandateCheck.pyFloat, stripUnderscores_eq hprims h]
  by_cases hloose : Loose text
  · rw [if_pos hloose, Option.bind_some, hprims.parseF64]
    exact (and_iff_right hloose).symm
  · rw [if_neg hloose]
    simp [hloose]

end Ports

/-! ## Integers -/

section Integers

open EnvTier (isLiteral)
open Numerals (readInt readNat valueOf)

variable {text digits : List Char}

/-- The loop of `check_gate`'s `py_int` keeps a literal as it is, and anything else stops it. -/
theorem foldlM_intStep (cleaned : List Char) (previousDigit : Bool) (digits : List Char) :
    (∃ kept, digits.foldlM CheckGate.intStep (cleaned, previousDigit) = some (kept, true)) ↔
      isLiteral previousDigit digits = true := by
  induction digits generalizing cleaned previousDigit with
  | nil => simp [isLiteral]
  | cons c digits ih =>
    rw [List.foldlM_cons, CheckGate.intStep, isLiteral]
    by_cases hdigit : isAsciiDigit c = true
    · rw [if_pos hdigit, if_pos hdigit]
      exact ih _ true
    · rw [if_neg hdigit, if_neg hdigit]
      by_cases hunder : c = '_' ∧ previousDigit = true
      · rw [if_pos hunder]
        simpa [hunder.1, hunder.2] using ih (cleaned ++ [c]) false
      · rw [if_neg hunder]
        simp only [Option.bind_eq_bind, Option.bind_none, reduceCtorEq, exists_false,
          Bool.and_eq_true, decide_eq_true_eq,
          false_iff]
        exact fun h => hunder h.1

/-- The loop keeps the digits without their underscores. -/
theorem foldlM_intStep_kept {cleaned kept digits : List Char} {previousDigit lastDigit : Bool}
    (h : digits.foldlM CheckGate.intStep (cleaned, previousDigit) = some (kept, lastDigit)) :
    kept = cleaned ++ digits := by
  induction digits generalizing cleaned previousDigit with
  | nil =>
    cases h
    exact (List.append_nil _).symm
  | cons c digits ih =>
    rw [List.foldlM_cons, CheckGate.intStep] at h
    split at h
    · rw [ih h, List.append_assoc]
      rfl
    · split at h
      · rw [ih h, List.append_assoc]
        rfl
      · cases h

/-- A literal is digits with underscores between them. -/
theorem isLiteral_iff {before : Option Char} {previousDigit : Bool}
    (hbefore : before.any isAsciiDigit = previousDigit) :
    isLiteral previousDigit digits = true ↔
      JoinedFrom isAsciiDigit before digits ∧
        (∀ c ∈ withoutUnderscores digits, isAsciiDigit c = true) ∧
        (digits = [] → previousDigit = true) := by
  induction digits generalizing before previousDigit with
  | nil => simp [isLiteral, joinedFrom_nil, withoutUnderscores]
  | cons c digits ih =>
    rw [isLiteral, joinedFrom_cons]
    by_cases hdigit : isAsciiDigit c = true
    · have hne : c ≠ '_' := by
        rintro rfl
        cases hdigit
      have hwithout : withoutUnderscores (c :: digits) = c :: withoutUnderscores digits := by
        simp [withoutUnderscores, hne]
      have hcarry : (some c).any isAsciiDigit = true := hdigit
      rw [if_pos hdigit, ih hcarry, hwithout]
      simp [hne, hdigit]
    · rw [if_neg hdigit, hbefore]
      by_cases hunder : c = '_'
      · subst hunder
        have hwithout : withoutUnderscores ('_' :: digits) = withoutUnderscores digits := by
          simp [withoutUnderscores]
        have hafter : isAsciiDigit '_' = false := by rfl
        have hcarry : (some '_').any isAsciiDigit = false := hafter
        rw [Bool.and_eq_true, ih hcarry, hwithout]
        -- what stands behind the underscore is no underscore, so it is a digit
        have hhead (hjoined : JoinedFrom isAsciiDigit (some '_') digits)
            (hall : ∀ c ∈ withoutUnderscores digits, isAsciiDigit c = true) :
            digits ≠ [] ↔ digits.head?.any isAsciiDigit = true := by
          cases digits with
          | nil => simp
          | cons d digits =>
            have hd : d ≠ '_' :=
              fun hd => by simpa [hafter] using ((joinedFrom_cons.1 hjoined).1 hd).1
            simpa using hall d (by simp [withoutUnderscores, hd])
        simp only [decide_true, forall_const, reduceCtorEq, false_implies, and_true,
          Bool.false_eq_true, imp_false]
        constructor
        · rintro ⟨hprevious, hjoined, hall, hne⟩
          exact ⟨⟨⟨hprevious, (hhead hjoined hall).1 hne⟩, hjoined⟩, hall⟩
        · rintro ⟨⟨⟨hprevious, hany⟩, hjoined⟩, hall⟩
          exact ⟨hprevious, hjoined, hall, (hhead hjoined hall).2 hany⟩
      · have hwithout : withoutUnderscores (c :: digits) = c :: withoutUnderscores digits := by
          simp [withoutUnderscores, hunder]
        simp [hunder, hdigit, hwithout]

/-- What Python takes for the digits of an integer is a literal. -/
theorem grouped_readNat {v : Nat} : Grouped digits ∧ readNat (withoutUnderscores digits) = some v ↔
    isLiteral false digits = true ∧ v = valueOf 10 (withoutUnderscores digits) := by
  have hten (c : Char) : Numerals.isDigit 10 c = isAsciiDigit c := Numerals.isDigit_ten c
  have hread : readNat (withoutUnderscores digits) = some v ↔ withoutUnderscores digits ≠ [] ∧
      (∀ c ∈ withoutUnderscores digits, isAsciiDigit c = true) ∧
        v = valueOf 10 (withoutUnderscores digits) := by
    rw [readNat, Option.ite_none_right_eq_some]
    rw [List.all_eq_true, Option.some_inj, and_assoc, eq_comm]
    simp only [hten]
  have hne (hgrouped : Grouped digits) : withoutUnderscores digits ≠ [] ↔ digits ≠ [] := by
    cases digits with
    | nil => rfl
    | cons c digits =>
      have hc : c ≠ '_' := fun hc => by simpa using ((joinedFrom_cons.1 hgrouped).1 hc).1
      simp [withoutUnderscores, hc]
  rw [hread, isLiteral_iff (by rfl : (none : Option Char).any isAsciiDigit = false)]
  simp only [Bool.false_eq_true, imp_false]
  constructor
  · rintro ⟨hgrouped, hnil, hall, hv⟩
    exact ⟨⟨hgrouped, hall, (hne hgrouped).1 hnil⟩, hv⟩
  · rintro ⟨⟨hgrouped, hall, hnil⟩, hv⟩
    exact ⟨hgrouped, (hne hgrouped).2 hnil, hall, hv⟩

/-- A numeral that is read and fits. -/
theorem parseI64_map_eq {u : List Char} {f : Int → Int} {n : Int} :
    ((parseI64 u).map fun value => f value.1) = some n ↔ ∃ m, readInt u = some m ∧
      EnvTier.FitsI64 m ∧ f m = n := by
  rw [parseI64]
  cases readInt u with
  | none => simp
  | some m =>
    by_cases hfits : -2 ^ 63 ≤ m ∧ m < 2 ^ 63
    · rw [Option.bind_some, dif_pos hfits]
      simp only [Option.map_some, Option.some.injEq, exists_eq_left']
      exact (and_iff_right hfits).symm
    · rw [Option.bind_some, dif_neg hfits]
      simp only [Option.map_none, reduceCtorEq, Option.some.injEq, exists_eq_left', false_iff]
      exact fun h => hfits h.1

/-- The digits of an integer, behind its sign. -/
theorem foldlM_intStep_iff {sign n : Int} : (match digits.foldlM CheckGate.intStep ([], false) with
      | some (cleaned, true) =>
        (parseI64 (cleaned.filter (· ≠ '_'))).map fun value => sign * value.1
      | _ => none) = some n ↔
    ∃ v : Nat, (Grouped digits ∧ readNat (withoutUnderscores digits) = some v) ∧ EnvTier.FitsI64 v ∧
      sign * v = n := by
  by_cases hliteral : isLiteral false digits = true
  · obtain ⟨kept, hkept⟩ := (foldlM_intStep [] false digits).2 hliteral
    have hsame : kept = digits := foldlM_intStep_kept hkept
    have hread : readInt (digits.filter (· ≠ '_')) =
        some (valueOf 10 (withoutUnderscores digits) : Int) :=
      EnvTier.readInt_literal ⟨digits, hliteral⟩
    rw [hkept, hsame]
    simp only [grouped_readNat, hliteral, true_and]
    rw [parseI64_map_eq, hread]
    simp
  · have hnone : ¬ ∃ v : Nat, (Grouped digits ∧ readNat (withoutUnderscores digits) = some v) ∧
        EnvTier.FitsI64 v ∧
        sign * v = n := by
      rintro ⟨v, hv, -⟩
      exact hliteral (grouped_readNat.1 hv).1
    refine iff_of_false ?_ hnone
    split
    · next kept hkept => exact absurd ((foldlM_intStep [] false digits).1 ⟨kept, hkept⟩) hliteral
    · simp

/-- A text that begins with no sign is read as it is. -/
theorem readInt_unsigned {u : List Char} (h : ∀ c ∈ u.head?, c ≠ '+' ∧ c ≠ '-') :
    readInt u = (readNat u).map Int.ofNat := by
  unfold readInt
  split
  · exact absurd rfl (h '-' rfl).2
  · exact absurd rfl (h '+' rfl).1
  · rfl

theorem grouped_cons {c : Char} (hc : c ≠ '_') (hdigit : isAsciiDigit c = false) :
    Grouped (c :: text) ↔ Grouped text := by
  have hnone : (some c).any isAsciiDigit = (none : Option Char).any isAsciiDigit := hdigit
  rw [Grouped, joinedFrom_cons, joinedFrom_congr hnone]
  simp [hc]

theorem without_cons {c : Char} (hc : c ≠ '_') :
    withoutUnderscores (c :: text) = c :: withoutUnderscores text := by
  simp [withoutUnderscores, hc]

/-- The digits behind a sign are those of an integer that has it. -/
theorem signed_iff {sign n : Int} (hsign : sign = 1 ∨ sign = -1)
    (hgrouped : Grouped text ↔ Grouped digits)
    (hread : Grouped digits → readInt (withoutUnderscores text) =
      (readNat (withoutUnderscores digits)).map fun v : Nat => sign * (v : Int)) :
    (∃ v : Nat, (Grouped digits ∧ readNat (withoutUnderscores digits) = some v) ∧
      EnvTier.FitsI64 v ∧ sign * v = n) ↔
      PythonInt text n ∧ -2 ^ 63 < n ∧ n < 2 ^ 63 := by
  rw [PythonInt, hgrouped]
  refine ⟨?_, ?_⟩
  · rintro ⟨v, ⟨hd, hv⟩, hfits, rfl⟩
    refine ⟨⟨hd, by rw [hread hd, hv]; rfl⟩, ?_⟩
    have hlt : (v : Int) < 2 ^ 63 := hfits.2
    rcases hsign with rfl | rfl <;> omega
  · rintro ⟨⟨hd, hn⟩, hbounds⟩
    rw [hread hd, Option.map_eq_some_iff] at hn
    obtain ⟨v, hv, rfl⟩ := hn
    refine ⟨v, ⟨hd, hv⟩, ⟨by omega, ?_⟩, rfl⟩
    rcases hsign with rfl | rfl <;> omega

/-- A sign is split off, or there is none. -/
theorem splitSign_cases (text : List Char) :
    (∃ digits, text = '+' :: digits ∧ CheckGate.splitSign text = (1, digits)) ∨
      (∃ digits, text = '-' :: digits ∧ CheckGate.splitSign text = (-1, digits)) ∨
        (∀ c ∈ text.head?, c ≠ '+' ∧ c ≠ '-') ∧ CheckGate.splitSign text = (1, text) := by
  unfold CheckGate.splitSign
  split
  · next digits => exact .inl ⟨digits, rfl, rfl⟩
  · next digits => exact .inr (.inl ⟨digits, rfl, rfl⟩)
  · next hplus hminus =>
    refine .inr (.inr ⟨fun c hc => ?_, rfl⟩)
    obtain ⟨digits, rfl⟩ := List.head?_eq_some_iff.1 hc
    exact ⟨fun heq => hplus digits (heq ▸ rfl), fun heq => hminus digits (heq ▸ rfl)⟩

/-- **`py_int` of `check_gate`** reads what Python reads, but for the least `i64`. -/
theorem checkGate_pyInt_iff (h : IsToken text) {n : Int} :
    CheckGate.pyInt text = some n ↔ PythonInt text n ∧ -2 ^ 63 < n ∧ n < 2 ^ 63 := by
  rw [CheckGate.pyInt, trim_token h]
  rcases splitSign_cases text with ⟨digits, rfl, hsplit⟩ | ⟨digits, rfl, hsplit⟩ | ⟨hhead, hsplit⟩
  · rw [hsplit, ← signed_iff (.inl rfl) (grouped_cons (by decide) (by rfl)) fun _ => ?_]
    · exact foldlM_intStep_iff
    · rw [without_cons (by decide), readInt]
      simp only [one_mul]
      rfl
  · rw [hsplit, ← signed_iff (.inr rfl) (grouped_cons (by decide) (by rfl)) fun _ => ?_]
    · exact foldlM_intStep_iff
    · rw [without_cons (by decide), readInt]
      simp only [neg_one_mul]
      cases readNat (withoutUnderscores digits) <;> rfl
  · rw [hsplit, ← signed_iff (.inl rfl) Iff.rfl fun hgrouped => ?_]
    · exact foldlM_intStep_iff
    · rw [readInt_unsigned]
      · simp only [one_mul]
        rfl
      · cases text with
        | nil => simp [withoutUnderscores]
        | cons c text =>
          have hc : c ≠ '_' := fun hc => by simpa using ((joinedFrom_cons.1 hgrouped).1 hc).1
          rw [without_cons hc]
          exact hhead

/-- **`py_int` of `mandate_check`** reads a text without its underscores. -/
theorem mandate_pyInt_iff {F : Type} {prims : MandateCheck.Prims F} (hprims : prims.Documented)
    (h : IsToken text) {n : Int} :
    (MandateCheck.pyInt prims text).map Subtype.val = some n ↔
      Loose text ∧ readInt (withoutUnderscores text) = some n ∧ EnvTier.FitsI64 n := by
  classical
  rw [mandate_pyInt_eq hprims h]
  by_cases hloose : Loose text
  · rw [if_pos hloose]
    simpa [hloose] using parseI64_map_eq (f := id) (u := withoutUnderscores text) (n := n)
  · rw [if_neg hloose]
    simp [hloose]

end Integers

/-! ## Floats -/

section Floats

variable {text : List Char}

/-- A sign. -/
def isSign (c : Char) : Bool := c = '+' || c = '-'

/-- A capital letter is one of twenty-six. -/
theorem exists_capital {c : Char} (h : ('A' ≤ c && c ≤ 'Z') = true) :
    ∃ n < 26, c = Char.ofNat (65 + n) := by
  simp only [Bool.and_eq_true, decide_eq_true_eq] at h
  have hge : 65 ≤ c.toNat := Text.toNat_le_of_le h.1
  have hle : c.toNat ≤ 90 := Text.toNat_le_of_le h.2
  refine ⟨c.toNat - 65, by omega, ?_⟩
  rw [Nat.add_sub_cancel' hge, Char.ofNat_toNat]

/-- Folding the case of a letter changes nothing that a number is made of, and is done once. -/
theorem toAsciiLowercase_spec (c : Char) :
    isAsciiDigit (toAsciiLowercase c) = isAsciiDigit c ∧
      (∀ d ∈ ['+', '-', '.', '_'], toAsciiLowercase c = d ↔ c = d) ∧
        (toAsciiLowercase c = 'e' ∨ toAsciiLowercase c = 'E' ↔ c = 'e' ∨ c = 'E') ∧
          toAsciiLowercase (toAsciiLowercase c) = toAsciiLowercase c := by
  by_cases h : ('A' ≤ c && c ≤ 'Z') = true
  · obtain ⟨n, hn, rfl⟩ := exists_capital h
    have hall : ∀ n < 26, isAsciiDigit (toAsciiLowercase (Char.ofNat (65 + n))) =
        isAsciiDigit (Char.ofNat (65 + n)) ∧
        (['+', '-', '.', '_'].all fun d => toAsciiLowercase (Char.ofNat (65 + n)) ≠ d ∧
          Char.ofNat (65 + n) ≠ d) = true ∧
          (toAsciiLowercase (Char.ofNat (65 + n)) = 'e' ∨
            toAsciiLowercase (Char.ofNat (65 + n)) = 'E' ↔
            Char.ofNat (65 + n) = 'e' ∨ Char.ofNat (65 + n) = 'E') ∧
            toAsciiLowercase (toAsciiLowercase (Char.ofNat (65 + n))) =
              toAsciiLowercase (Char.ofNat (65 + n)) := by
      decide +kernel
    obtain ⟨hdigit, hother, hmark, htwice⟩ := hall n hn
    refine ⟨hdigit, fun d hd => ?_, hmark, htwice⟩
    have hne := of_decide_eq_true (List.all_eq_true.1 hother d hd)
    exact iff_of_false hne.1 hne.2
  · have hsame : toAsciiLowercase c = c := if_neg h
    rw [hsame]
    exact ⟨rfl, fun _ _ => Iff.rfl, Iff.rfl, hsame⟩

theorem digit_comp_lowercase : isAsciiDigit ∘ toAsciiLowercase = isAsciiDigit :=
  funext fun c => (toAsciiLowercase_spec c).1

theorem isSign_toAsciiLowercase (c : Char) : isSign (toAsciiLowercase c) = isSign c := by
  have hplus := (toAsciiLowercase_spec c).2.1 '+' (by decide)
  have hminus := (toAsciiLowercase_spec c).2.1 '-' (by decide)
  simp only [isSign, hplus, hminus]

theorem dropSign_cons (c : Char) (rest : List Char) :
    dropSign (c :: rest) = if isSign c then rest else c :: rest := by
  unfold dropSign
  split
  · next heq =>
    cases heq
    rfl
  · next heq =>
    cases heq
    rfl
  · next hplus hminus =>
    have hsign : isSign c = false := by
      simp only [isSign, Bool.or_eq_false_iff, decide_eq_false_iff_not]
      exact ⟨fun hc => hplus rest (hc ▸ rfl), fun hc => hminus rest (hc ▸ rfl)⟩
    rw [if_neg (by simp [hsign])]

theorem dropSign_map (text : List Char) :
    dropSign (text.map toAsciiLowercase) = (dropSign text).map toAsciiLowercase := by
  cases text with
  | nil => rfl
  | cons c rest =>
    rw [List.map_cons, dropSign_cons, dropSign_cons, isSign_toAsciiLowercase]
    split <;> rfl

theorem isDigits_map (text : List Char) : isDigits (text.map toAsciiLowercase) = isDigits text := by
  simp [isDigits, digit_comp_lowercase]

theorem isExponent_map (text : List Char) :
    isExponent (text.map toAsciiLowercase) = isExponent text := by
  cases text with
  | nil => rfl
  | cons mark rest =>
    have hmark : (decide (toAsciiLowercase mark = 'e') || decide (toAsciiLowercase mark = 'E')) =
        (decide (mark = 'e') || decide (mark = 'E')) := by
      rw [Bool.eq_iff_iff]
      simpa using (toAsciiLowercase_spec mark).2.2.1
    rw [List.map_cons, isExponent, isExponent, hmark, dropSign_map, isDigits_map]

/-- A float's number, by its point. -/
theorem isFloatNumber_eq (text : List Char) : isFloatNumber text =
    if (text.dropWhile isAsciiDigit).head? = some '.' then
      (text.takeWhile isAsciiDigit ≠
        [] || (text.dropWhile isAsciiDigit).tail.takeWhile isAsciiDigit ≠ []) &&
        isExponent ((text.dropWhile isAsciiDigit).tail.dropWhile isAsciiDigit)
    else text.takeWhile isAsciiDigit ≠ [] && isExponent (text.dropWhile isAsciiDigit) := by
  unfold isFloatNumber
  split
  · next rest heq => simp [heq]
  · next hpoint =>
    rw [if_neg]
    intro hhead
    obtain ⟨rest, hrest⟩ := List.head?_eq_some_iff.1 hhead
    exact hpoint rest hrest

/-- A float's number in small letters. -/
theorem isFloatNumber_map (text : List Char) :
    isFloatNumber (text.map toAsciiLowercase) = isFloatNumber text := by
  have hpoint (l : List Char) : (l.map toAsciiLowercase).head? = some '.' ↔ l.head? = some '.' := by
    cases l with
    | nil => simp
    | cons c l => simpa using (toAsciiLowercase_spec c).2.1 '.' (by decide)
  simp only [isFloatNumber_eq, List.takeWhile_map, List.dropWhile_map, digit_comp_lowercase, hpoint,
    ← List.map_tail,
    isExponent_map, ne_eq, List.map_eq_nil_iff]

theorem isFloatWord_map (text : List Char) :
    isFloatWord (text.map toAsciiLowercase) = isFloatWord text := by
  have htwice : toAsciiLowercase ∘ toAsciiLowercase = toAsciiLowercase :=
    funext fun c => (toAsciiLowercase_spec c).2.2.2
  rw [isFloatWord, isFloatWord, List.map_map, htwice]

/-- A float in small letters. -/
theorem isF64_map (text : List Char) : isF64 (text.map toAsciiLowercase) = isF64 text := by
  rw [isF64, isF64, dropSign_map, isFloatWord_map, isFloatNumber_map]

/-- Groups in small letters. -/
theorem grouped_map (text : List Char) : Grouped (text.map toAsciiLowercase) ↔ Grouped text := by
  have hany (o : Option Char) : (o.map toAsciiLowercase).any isAsciiDigit = o.any isAsciiDigit := by
    cases o with
    | none => rfl
    | some c => exact (toAsciiLowercase_spec c).1
  have hunder (o : Option Char) : o.map toAsciiLowercase = some '_' ↔ o = some '_' := by
    cases o with
    | none => simp
    | some c => simpa using (toAsciiLowercase_spec c).2.1 '_' (by decide)
  refine forall_congr' fun index => ?_
  rw [List.getElem?_map, List.getElem?_map, List.getElem?_map, hunder, hany]
  split
  · rfl
  · rw [hany]

/-- Underscores removed in small letters. -/
theorem withoutUnderscores_map (text : List Char) :
    withoutUnderscores (text.map toAsciiLowercase) =
      (withoutUnderscores text).map toAsciiLowercase := by
  have hunder : (fun c : Char => decide (c ≠ '_')) ∘ toAsciiLowercase = fun c =>
    decide (c ≠ '_') := by
    funext c
    simpa [not_iff_not] using (toAsciiLowercase_spec c).2.1 '_' (by decide)
  rw [withoutUnderscores, withoutUnderscores, List.filter_map, hunder]

/-- What `py_float` of `check_gate` takes behind the sign that it took off. -/
theorem checkGate_pyFloat_isSome {F : Type} {prims : MandateCheck.Prims F}
    (hprims : prims.Documented)
    (ops : CheckGate.FloatOps F) (h : IsToken text) :
    (CheckGate.pyFloat prims ops text).isSome = true ↔ isFloatWord (dropSign text) = true ∨
      PythonFloat (dropSign text) := by
  have htest := @all_range_iff isAsciiDigit (dropSign (text.map toAsciiLowercase))
    (CheckGate.betweenDigits (dropSign (text.map toAsciiLowercase))) fun index => by
      rw [CheckGate.betweenDigits, Bool.and_eq_true]
  rw [dropSign_map] at htest
  replace htest := htest.trans (grouped_map (dropSign text))
  have hword : isFloatWord (dropSign text) = true ↔
      (dropSign text).map toAsciiLowercase = "inf".toList ∨
      (dropSign text).map toAsciiLowercase = "infinity".toList ∨
        (dropSign text).map toAsciiLowercase = "nan".toList := by
    simp only [isFloatWord, decide_eq_true_eq, List.mem_cons, List.not_mem_nil, or_false]
  simp only [CheckGate.pyFloat, trim_token h, dropSign_map]
  split
  · next hnil =>
    obtain rfl : text = [] := by simpa using hnil
    exact iff_of_false (by simp)
      (by rintro (hempty | ⟨-, hempty⟩) <;> exact absurd hempty (by decide))
  · split
    · next hinf => exact iff_of_true rfl (.inl (hword.2 (hinf.imp_right .inl)))
    · next hinf =>
      split
      · next hnan => exact iff_of_true rfl (.inl (hword.2 (.inr (.inr hnan))))
      · next hnan =>
        have hnone : ¬ isFloatWord (dropSign text) = true := fun h => by
          rcases hword.1 h with h | h | h
          · exact hinf (.inl h)
          · exact hinf (.inr h)
          · exact hnan h
        have hparse := hprims.parseF64 (((dropSign text).map toAsciiLowercase).filter (· ≠ '_'))
        have hwithout := withoutUnderscores_map (dropSign text)
        rw [withoutUnderscores] at hwithout
        rw [hwithout, isF64_map] at hparse
        rw [or_iff_right hnone, PythonFloat]
        split
        · next hall =>
          rw [Option.isSome_map, hwithout, hparse]
          exact (and_iff_right (htest.1 hall)).symm
        · next hall =>
          exact iff_of_false (by simp) fun hfloat => hall (htest.2 hfloat.1)

/-! ### Two signs -/

/-- A text that begins with two signs. -/
def TwoSigns (text : List Char) : Prop := ∃ sign sign' rest, text = sign :: sign' :: rest ∧
    isSign sign = true ∧ isSign sign' = true

theorem isSign_ne_underscore {c : Char} (h : isSign c = true) :
    c ≠ '_' ∧ isAsciiDigit c = false := by
  simp only [isSign, Bool.or_eq_true, decide_eq_true_eq] at h
  rcases h with rfl | rfl <;> exact ⟨by decide, by rfl⟩

/-- A sign begins no number and no word. -/
theorem not_float_of_isSign {c : Char} (h : isSign c = true) (rest : List Char) :
    isFloatWord (c :: rest) = false ∧ isFloatNumber (c :: rest) = false := by
  simp only [isSign, Bool.or_eq_true, decide_eq_true_eq] at h
  rcases h with rfl | rfl
  · exact ⟨by simp [isFloatWord, toAsciiLowercase], by simp [isFloatNumber_eq, isAsciiDigit]⟩
  · exact ⟨by simp [isFloatWord, toAsciiLowercase], by simp [isFloatNumber_eq, isAsciiDigit]⟩

/-- A word has no underscores. -/
theorem pythonFloat_of_word (h : isFloatWord text = true) (hsign : dropSign text = text) :
    PythonFloat text := by
  have hmem : '_' ∉ text := by
    intro hmem
    have hmap : '_' ∈ text.map toAsciiLowercase := List.mem_map.2 ⟨'_', hmem, by decide⟩
    simp only [isFloatWord, decide_eq_true_eq, List.mem_cons, List.not_mem_nil, or_false] at h
    rcases h with h | h | h <;> rw [h] at hmap <;> exact absurd hmap (by decide)
  have hsame : withoutUnderscores text = text :=
    List.filter_eq_self.2 fun c hc => by simpa using fun heq : c = '_' => hmem (heq ▸ hc)
  refine ⟨joinedFrom_of_not_mem hmem, ?_⟩
  rw [hsame, isF64, hsign, h]
  rfl

theorem dropSign_of_head (h : ∀ c ∈ text.head?, isSign c = false) : dropSign text = text := by
  cases text with
  | nil => rfl
  | cons c rest => rw [dropSign_cons, if_neg (by simp [h c rfl])]

/-- Groups do not begin with an underscore. -/
theorem head_withoutUnderscores (h : Grouped text) :
    (withoutUnderscores text).head? = text.head? := by
  cases text with
  | nil => rfl
  | cons c text =>
    have hc : c ≠ '_' := fun hc => by simpa using ((joinedFrom_cons.1 h).1 hc).1
    rw [without_cons hc, List.head?_cons, List.head?_cons]

/-- Behind one sign, Python reads what it reads without. -/
theorem pythonFloat_cons {sign : Char} {rest : List Char} (hsign : isSign sign = true) :
    PythonFloat (sign :: rest) ↔ PythonFloat rest ∧ ∀ c ∈ rest.head?, isSign c = false := by
  have hgrouped := @grouped_cons rest _ (isSign_ne_underscore hsign).1
      (isSign_ne_underscore hsign).2
  rw [PythonFloat, PythonFloat, hgrouped, without_cons (isSign_ne_underscore hsign).1, isF64,
    dropSign_cons, if_pos hsign,
    and_assoc]
  refine and_congr_right fun hrest => ?_
  rw [← head_withoutUnderscores hrest]
  cases hwithout : withoutUnderscores rest with
  | nil => simp [isF64, dropSign]
  | cons c more =>
    by_cases hc : isSign c = true
    · obtain ⟨hword, hnumber⟩ := not_float_of_isSign hc more
      simp [hword, hnumber, hc]
    · simp [isF64, dropSign_cons, hc]

/-- A text begins with a sign or it does not. -/
theorem isSign_head_cases (text : List Char) :
    (∀ c ∈ text.head?, isSign c = false) ∨ ∃ sign rest, text = sign :: rest ∧
      isSign sign = true := by
  cases text with
  | nil => exact .inl (by simp)
  | cons c rest =>
    cases hsign : isSign c with
    | true => exact .inr ⟨c, rest, rfl, hsign⟩
    | false => exact .inl (by simpa using hsign)

/-- **`py_float` of `check_gate`** takes what Python takes, and that with a sign more. -/
theorem checkGate_pyFloat_iff {F : Type} {prims : MandateCheck.Prims F} (hprims : prims.Documented)
    (ops : CheckGate.FloatOps F) (h : IsToken text) :
    (CheckGate.pyFloat prims ops text).isSome = true ↔
      PythonFloat text ∨ TwoSigns text ∧ PythonFloat text.tail := by
  rw [checkGate_pyFloat_isSome hprims ops h]
  have hword {rest : List Char} (hrest : ∀ c ∈ rest.head?, isSign c = false)
      (hword : isFloatWord rest = true) :
      PythonFloat rest := pythonFloat_of_word hword (dropSign_of_head hrest)
  rcases isSign_head_cases text with hhead | ⟨sign, rest, rfl, hsign⟩
  · have htwo : ¬ TwoSigns text := by
      rintro ⟨sign, sign', rest, rfl, hsign, -⟩
      rw [hhead sign rfl] at hsign
      cases hsign
    rw [dropSign_of_head hhead]
    exact ⟨fun hfloat => .inl (hfloat.elim (hword hhead) id),
      fun hfloat => .inr (hfloat.resolve_right fun hand => htwo hand.1)⟩
  · rw [dropSign_cons, if_pos hsign, pythonFloat_cons hsign, List.tail_cons]
    rcases isSign_head_cases rest with hrest | ⟨sign', more, rfl, hsign'⟩
    · exact ⟨fun hfloat => .inl ⟨hfloat.elim (hword hrest) id, hrest⟩,
        fun hfloat => .inr (hfloat.elim And.left And.right)⟩
    · rw [(not_float_of_isSign hsign' more).1]
      exact ⟨fun hfloat => .inr ⟨⟨sign, sign', more, rfl, hsign, hsign'⟩,
        hfloat.resolve_left (by simp)⟩,
        fun hfloat => .inr (hfloat.elim And.left And.right)⟩

end Floats

/-! ## The ports agree -/

section Agree

variable {F : Type} {prims : MandateCheck.Prims F} {text : List Char}

/-- What the ports make of a token: the same integer, and a float of the same tokens, in each case
of those that Python takes. -/
structure Agrees (prims : MandateCheck.Prims F) (ops : CheckGate.FloatOps F) (text : List Char) :
    Prop where
  int : (MandateCheck.pyInt prims text).map Subtype.val = CheckGate.pyInt text
  /-- where the value fits an `i64` -/
  intPython : (MandateCheck.pyInt prims text).isSome = true ↔ ∃ n, PythonInt text n ∧
    EnvTier.FitsI64 n
  float : (MandateCheck.pyFloat prims text).isSome = (CheckGate.pyFloat prims ops text).isSome
  floatPython : (MandateCheck.pyFloat prims text).isSome = true ↔ PythonFloat text

/-- The tokens that the ports agree on. -/
structure Regular (text : List Char) : Prop where
  /-- no spelling of the least `i64` -/
  notLeast : ¬ PythonInt text (-2 ^ 63)
  /-- in a float, no underscores among letters, digits and underscores but between two digits -/
  grouped : Loose text → isF64 (withoutUnderscores text) = true → Grouped text
  /-- no float behind a sign and a second sign of its own -/
  oneSign : TwoSigns text → ¬ PythonFloat text.tail

/-- What is read as an integer is read as a float. -/
theorem isF64_of_readInt {u : List Char} {n : Int} (h : Numerals.readInt u = some n) :
    isF64 u = true := by
  have hnumber {digits : List Char} {v : Nat} (hv : Numerals.readNat digits = some v) :
      isFloatNumber digits = true := by
    rw [Numerals.readNat, Option.ite_none_right_eq_some] at hv
    obtain ⟨⟨hne, hall⟩, -⟩ := hv
    have hall : ∀ c ∈ digits, isAsciiDigit c = true := fun c hc => by
      have hdigit := List.all_eq_true.1 hall c hc
      rwa [Numerals.isDigit_ten] at hdigit
    rw [isFloatNumber_eq, List.dropWhile_eq_nil_iff.2 hall, List.takeWhile_eq_self_iff.2 hall]
    simp [hne, isExponent]
  rcases isSign_head_cases u with hhead | ⟨sign, rest, rfl, hsign⟩
  · rw [readInt_unsigned fun c hc => by simpa [isSign] using hhead c hc,
      Option.map_eq_some_iff] at h
    obtain ⟨v, hv, -⟩ := h
    rw [isF64, dropSign_of_head hhead, hnumber hv, Bool.or_true]
  · have hsome : ∃ v, Numerals.readNat rest = some v := by
      cases hread : Numerals.readNat rest with
      | some v => exact ⟨v, rfl⟩
      | none =>
        simp only [isSign, Bool.or_eq_true, decide_eq_true_eq] at hsign
        rcases hsign with rfl | rfl <;> simp [Numerals.readInt, hread] at h
    obtain ⟨v, hv⟩ := hsome
    rw [isF64, dropSign_cons, if_pos hsign, hnumber hv, Bool.or_true]

/-- Grouped digits are loosely grouped. -/
theorem Grouped.loose (h : Grouped text) : Loose text :=
  h.mono fun c hc => by simp [isAsciiAlphanumeric, hc]

/-- A token with two signs is no float. -/
theorem TwoSigns.not_pythonFloat (h : TwoSigns text) : ¬ PythonFloat text := by
  obtain ⟨sign, sign', rest, rfl, hsign, hsign'⟩ := h
  intro hfloat
  have hhead := ((pythonFloat_cons hsign).1 hfloat).2 sign' rfl
  rw [hsign'] at hhead
  cases hhead

/-- The integers of the two ports, compared at a regular token. -/
theorem Regular.int_iff (hprims : prims.Documented) (h : IsToken text) (hregular : Regular text)
    {n : Int} :
    (MandateCheck.pyInt prims text).map Subtype.val = some n ↔ PythonInt text n ∧
      EnvTier.FitsI64 n := by
  rw [mandate_pyInt_iff hprims h, PythonInt, and_assoc]
  refine ⟨fun ⟨hloose, hread, hfits⟩ => ⟨hregular.grouped hloose (isF64_of_readInt hread),
    hread, hfits⟩,
    fun ⟨hgrouped, hread, hfits⟩ => ⟨hgrouped.loose, hread, hfits⟩⟩

/-- On a regular token the ports agree. -/
theorem Regular.agrees (hprims : prims.Documented) (ops : CheckGate.FloatOps F) (h : IsToken text)
    (hregular : Regular text) : Agrees prims ops text := by
  have hfloat : (MandateCheck.pyFloat prims text).isSome = true ↔ PythonFloat text := by
    rw [mandate_pyFloat_isSome hprims h]
    exact ⟨fun ⟨hloose, hf64⟩ => ⟨hregular.grouped hloose hf64, hf64⟩,
      fun ⟨hgrouped, hf64⟩ => ⟨hgrouped.loose, hf64⟩⟩
  refine ⟨?_, ?_, ?_, hfloat⟩
  · refine Option.ext fun n => ?_
    rw [hregular.int_iff hprims h, checkGate_pyInt_iff h]
    refine and_congr_right fun hint => ?_
    have hne : n ≠ -2 ^ 63 := fun hn => hregular.notLeast (hn ▸ hint)
    rw [EnvTier.FitsI64]
    omega
  · rw [← Option.isSome_map, Option.isSome_iff_exists]
    exact exists_congr fun n => hregular.int_iff hprims h
  · rw [Bool.eq_iff_iff, hfloat, checkGate_pyFloat_iff hprims ops h]
    exact ⟨.inl, fun hor => hor.resolve_right fun hand => hregular.oneSign hand.1 hand.2⟩

/-- **The ports of `int()` and `float()`.** They agree with each other and with Python at the
regular tokens and at no others. -/
theorem ports_agree_iff (hprims : prims.Documented) (ops : CheckGate.FloatOps F)
    (h : IsToken text) :
    Agrees prims ops text ↔ Regular text := by
  refine ⟨fun hagrees => ⟨fun hleast => ?_, fun hloose hf64 => ?_, fun htwo htail => ?_⟩,
    fun hregular => hregular.agrees hprims ops h⟩
  · have hread : (MandateCheck.pyInt prims text).map Subtype.val = some (-2 ^ 63) :=
      (mandate_pyInt_iff hprims h).2 ⟨hleast.1.loose, hleast.2, by decide⟩
    rw [hagrees.int, checkGate_pyInt_iff h] at hread
    omega
  · exact (hagrees.floatPython.1 ((mandate_pyFloat_isSome hprims h).2 ⟨hloose, hf64⟩)).1
  · have hsome := (checkGate_pyFloat_iff hprims ops h).2 (.inr ⟨htwo, htail⟩)
    rw [← hagrees.float] at hsome
    exact htwo.not_pythonFloat (hagrees.floatPython.1 hsome)

theorem i64_zero : -2 ^ 63 ≤ (0 : Int) ∧ (0 : Int) < 2 ^ 63 := by
  decide

/-- Floats that are whole numbers, of the texts that are floats. -/
def asciiPrims : MandateCheck.Prims Int where
  isAlphanumeric := isAsciiAlphanumeric
  parseF64 text := if isF64 text then some ((Numerals.readInt text).getD 0) else none
  isFinite _ := true
  asI64 n := if h : -2 ^ 63 ≤ n ∧ n < 2 ^ 63 then ⟨n, h⟩ else ⟨0, i64_zero⟩

/-- Whole numbers as floats, with the infinity out of reach. -/
def asciiOps : CheckGate.FloatOps Int where
  infinity := 2 ^ 1024
  nan := 0
  timesSign negative n := if negative then -n else n

theorem documented_asciiPrims : asciiPrims.Documented where
  isAlphanumeric _ _ := rfl
  parseF64 text := by
    cases htext : isF64 text <;> simp [asciiPrims, htext]

theorem isToken_of_all (h : (text.all fun c =>
    c.toNat < 128 ∧ Text.isWhitespace c = false ∧ ¬ (0x1c ≤ c.toNat ∧ c.toNat ≤ 0x1f)) = true) :
      IsToken text := fun c hc => of_decide_eq_true (List.all_eq_true.1 h c hc)

/-- `-1_0` is regular. -/
theorem ports_agree_iff_grouped : Agrees asciiPrims asciiOps ['-', '1', '_', '0'] := by
  have htoken : IsToken ['-', '1', '_', '0'] := isToken_of_all (by decide)
  refine (ports_agree_iff documented_asciiPrims asciiOps htoken).2 ⟨?_, fun _ _ => ?_, ?_⟩
  · rintro ⟨-, hread⟩
    exact absurd hread (by decide)
  · simp [Grouped, joinedFrom_cons, joinedFrom_nil, isAsciiDigit]
  · rintro ⟨sign, sign', rest, heq, -, hsign⟩
    cases heq
    exact absurd hsign (by decide)

/-- Two underscores, the least `i64` and two signs. -/
theorem ports_disagree :
    (IsToken ['1', '_', '_', '2'] ∧ ¬ Agrees asciiPrims asciiOps ['1', '_', '_', '2']) ∧
      (IsToken "-9223372036854775808".toList ∧
        ¬ Agrees asciiPrims asciiOps "-9223372036854775808".toList) ∧
        (IsToken ['-', '-', '1'] ∧ ¬ Agrees asciiPrims asciiOps ['-', '-', '1']) := by
  refine ⟨⟨isToken_of_all (by decide), fun h => ?_⟩, ⟨isToken_of_all (by decide), fun h => ?_⟩,
    ⟨isToken_of_all (by decide), fun h => ?_⟩⟩
  · exact absurd h.int (by decide)
  · exact absurd h.int (by decide +kernel)
  · exact absurd h.float (by decide)

end Agree

end RtpMux
