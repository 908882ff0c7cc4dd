import Mathlib.Data.List.Lex
import Mathlib.Data.String.Basic

/-!
# Numerals of one width

Texts are compared character by character, numbers are not: `10` is before `2`. Numerals padded with
zeros to one width are compared alike as texts and as numbers, and so are texts that are made of
such fields one after the other. Nothing here is about a particular program.
-/

namespace RtpMux.FixedWidth

/-! ## Texts of one length -/

section Lex

variable {α : Type*} [LinearOrder α] {a a' b b' : List α}

/-- A difference in fields of one length decides, whatever follows. -/
theorem append_lt_append (hlength : a.length = a'.length) (h : a < a') : a ++ b < a' ++ b' := by
  induction a generalizing a' with
  | nil =>
    cases a' with
    | nil => exact absurd h (lt_irrefl _)
    | cons x a' => cases hlength
  | cons x a ih =>
    cases a' with
    | nil => cases hlength
    | cons x' a' =>
      rcases List.cons_lt_cons_iff.mp h with hx | ⟨rfl, hrest⟩
      · exact List.cons_lt_cons_iff.mpr (.inl hx)
      · exact List.cons_lt_cons_iff.mpr (.inr ⟨rfl, ih (Nat.succ.inj hlength) hrest⟩)

/-- Equal fields leave the decision to what follows. -/
theorem append_lt_append_left_iff (a : List α) : a ++ b < a ++ b' ↔ b < b' := by
  induction a with
  | nil => exact Iff.rfl
  | cons x a ih =>
    rw [List.cons_append, List.cons_append, List.cons_lt_cons_iff, ih]
    simp

end Lex

/-! ## Padded numerals -/

/-- `{:0width}`: a numeral with zeros in front. -/
def pad (width n : Nat) : List Char :=
  List.replicate (width - (Nat.toDigits 10 n).length) '0' ++ Nat.toDigits 10 n

/-- The last `width` digits of a number. -/
def digits : Nat → Nat → List Char
  | 0, _ => []
  | width + 1, n => digits width (n / 10) ++ [Nat.digitChar (n % 10)]

@[simp] theorem length_digits (width n : Nat) : (digits width n).length = width := by
  induction width generalizing n with
  | zero => rfl
  | succ width ih => simp [digits, ih]

theorem digits_zero (width : Nat) : digits width 0 = List.replicate width '0' := by
  induction width with
  | zero => rfl
  | succ width ih =>
    rw [digits, Nat.zero_div, Nat.zero_mod, ih, List.replicate_succ']
    rfl

/-- A number that fits has all its digits. -/
theorem pad_eq_digits {width n : Nat} (hwidth : 0 < width) (h : n < 10 ^ width) :
    pad width n = digits width n := by
  induction width generalizing n with
  | zero => cases hwidth
  | succ width ih =>
    by_cases hsmall : n < 10
    · rw [pad, Nat.toDigits_of_lt_base hsmall, digits, Nat.div_eq_of_lt hsmall,
        Nat.mod_eq_of_lt hsmall, digits_zero]
      rfl
    · have hdigits : Nat.toDigits 10 n = Nat.toDigits 10 (n / 10) ++ [Nat.digitChar (n % 10)] :=
        Nat.toDigits_of_base_le (by decide) (Nat.le_of_not_lt hsmall)
      have hpos : 0 < width := by
        refine Nat.pos_of_ne_zero ?_
        rintro rfl
        exact hsmall (by simpa using h)
      have hdiv : n / 10 < 10 ^ width := by
        rw [Nat.pow_succ] at h
        exact Nat.div_lt_of_lt_mul (by omega)
      rw [digits, ← ih hpos hdiv, pad, pad, hdigits, ← List.append_assoc, List.length_append,
        List.length_singleton,
        Nat.succ_sub_succ]

/-- A number that fits is written in its width. -/
theorem length_pad {width n : Nat} (hwidth : 0 < width) (h : n < 10 ^ width) :
    (pad width n).length = width := by
  rw [pad_eq_digits hwidth h, length_digits]

theorem digitChar_lt : ∀ m < 10, ∀ n < m, Nat.digitChar n < Nat.digitChar m := by
  decide

/-- **Digits of one width are in the order of the numbers.** -/
theorem digits_lt {width m n : Nat} (hn : n < 10 ^ width) (h : m < n) :
    digits width m < digits width n := by
  induction width generalizing m n with
  | zero => simp at hn; omega
  | succ width ih =>
    rw [digits, digits]
    by_cases hdiv : m / 10 = n / 10
    · rw [hdiv, append_lt_append_left_iff]
      refine List.cons_lt_cons_iff.mpr (.inl (digitChar_lt _ (Nat.mod_lt _ (by decide)) _ ?_))
      omega
    · have hdiv' : n / 10 < 10 ^ width := by
        rw [Nat.pow_succ] at hn
        exact Nat.div_lt_of_lt_mul (by omega)
      exact append_lt_append (by simp) (ih hdiv' (by omega))

/-- Numbers of one width are in the order of their texts. -/
theorem pad_lt {width m n : Nat} (hwidth : 0 < width) (hn : n < 10 ^ width) (h : m < n) :
    pad width m < pad width n := by
  rw [pad_eq_digits hwidth hn, pad_eq_digits hwidth (h.trans hn)]
  exact digits_lt hn h

/-- **Records of padded numerals.** If the first numbers decide or the rest does, the texts are in
that order. -/
theorem pad_append_lt {width m n : Nat} {rest rest' : List Char} (hwidth : 0 < width)
    (hn : n < 10 ^ width)
    (h : m < n ∨ m = n ∧ rest < rest') : pad width m ++ rest < pad width n ++ rest' := by
  rcases h with h | ⟨rfl, h⟩
  · refine append_lt_append ?_ (pad_lt hwidth hn h)
    rw [length_pad hwidth hn, length_pad hwidth (h.trans hn)]
  · exact (append_lt_append_left_iff _).mpr h

end RtpMux.FixedWidth
