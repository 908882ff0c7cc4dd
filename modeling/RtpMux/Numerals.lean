import Mathlib.Algebra.Group.Int.Defs
import Mathlib.Algebra.Group.Nat.Defs
import Mathlib.Data.Nat.Init
import Mathlib.Data.List.Basic
import Mathlib.Data.List.Induction

/-!
# Numerals

Digits in a radix of at most sixteen, and the number that a row of them spells. `Nat.toDigits`
writes the numeral of a number; `valueOf` reads it back, whatever zeros stand in front.
-/

namespace RtpMux.Numerals

/-- The value of a character as a digit, if it is one in this radix. -/
def digitValue (radix : Nat) (c : Char) : Option Nat :=
  let value : Option Nat :=
    if '0' ≤ c ∧ c ≤ '9' then some (c.toNat - 48)
    else if 'a' ≤ c ∧ c ≤ 'z' then some (c.toNat - 87)
    else if 'A' ≤ c ∧ c ≤ 'Z' then some (c.toNat - 55)
    else none
  value.filter (· < radix)

/-- A character is a digit in this radix. -/
def isDigit (radix : Nat) (c : Char) : Bool := (digitValue radix c).isSome

/-- The number that a row of digits spells. -/
def valueOf (radix : Nat) (digits : List Char) : Nat :=
  digits.foldl (fun acc c => radix * acc + (digitValue radix c).getD 0) 0

/-- A row of decimal digits, at least one. -/
def readNat (digits : List Char) : Option Nat :=
  if digits ≠ [] ∧ digits.all (isDigit 10) then some (valueOf 10 digits) else none

/-- The same with a sign in front, or none. -/
def readInt : List Char → Option Int
  | '-' :: digits => (readNat digits).map fun n => -(n : Int)
  | '+' :: digits => (readNat digits).map Int.ofNat
  | digits => (readNat digits).map Int.ofNat

/-- `i64`. -/
abbrev I64 := { n : Int // -2 ^ 63 ≤ n ∧ n < 2 ^ 63 }

/-- `str::parse::<i64>`. -/
def parseI64 (text : List Char) : Option I64 :=
  (readInt text).bind fun n => if h : -2 ^ 63 ≤ n ∧ n < 2 ^ 63 then some ⟨n, h⟩ else none

theorem isDigit_ten (c : Char) : isDigit 10 c = (decide ('0' ≤ c) && decide (c ≤ '9')) := by
  have hle {c d : Char} (h : c ≤ d) : c.toNat ≤ d.toNat :=
    UInt32.le_iff_toNat_le.1 (Char.le_def.1 h)
  unfold isDigit digitValue
  by_cases hdigit : '0' ≤ c ∧ c ≤ '9'
  · have hnine : c.toNat ≤ 57 := hle hdigit.2
    simp only [hdigit.1, hdigit.2, and_self, if_true, decide_true, Bool.and_self]
    have hlt : c.toNat - 48 < 10 := by omega
    simp [Option.filter, hlt]
  · have hfalse : (decide ('0' ≤ c) && decide (c ≤ '9')) = false := by simpa using hdigit
    rw [hfalse, if_neg hdigit]
    split
    · next hlower =>
      have hge : 97 ≤ c.toNat := hle hlower.1
      have hlarge : ¬ c.toNat - 87 < 10 := by omega
      simp [Option.filter, hlarge]
    · split
      · next hupper =>
        have hge : 65 ≤ c.toNat := hle hupper.1
        have hlarge : ¬ c.toNat - 55 < 10 := by omega
        simp [Option.filter, hlarge]
      · rfl

/-- The last digit counts once, the others a radix more. -/
theorem valueOf_append_singleton (radix : Nat) (digits : List Char) (c : Char) :
    valueOf radix (digits ++ [c]) = radix * valueOf radix digits + (digitValue radix c).getD 0 := by
  simp [valueOf]

/-- A numeral of n digits is below the n-th power of the radix. -/
theorem valueOf_lt {radix : Nat} (h : 0 < radix) (digits : List Char) :
    valueOf radix digits < radix ^ digits.length := by
  induction digits using List.reverseRecOn with
  | nil => exact Nat.one_pos
  | append_singleton digits c ih =>
    have hdigit : (digitValue radix c).getD 0 < radix := by
      cases hvalue : digitValue radix c with
      | none => exact h
      | some value =>
        obtain ⟨-, hlt⟩ := Option.filter_eq_some_iff.1 hvalue
        exact of_decide_eq_true hlt
    rw [valueOf_append_singleton, List.length_append, List.length_singleton, Nat.pow_succ,
      Nat.mul_comm _ radix]
    calc radix * valueOf radix digits + (digitValue radix c).getD 0
        < radix * valueOf radix digits + radix := Nat.add_lt_add_left hdigit _
      _ = radix * (valueOf radix digits + 1) := by rw [Nat.mul_succ]
      _ ≤ radix * radix ^ digits.length := Nat.mul_le_mul_left radix ih

/-- The fold that reads digits, from any start. -/
theorem foldl_digits (radix acc : Nat) (digits : List Char) :
    digits.foldl (fun acc c => radix * acc + (digitValue radix c).getD 0) acc =
      acc * radix ^ digits.length + valueOf radix digits := by
  induction digits generalizing acc with
  | nil => simp [valueOf]
  | cons c digits ih =>
    rw [valueOf, List.foldl_cons, List.foldl_cons, ih, ih, List.length_cons, Nat.mul_zero,
      Nat.zero_add, Nat.add_mul,
      Nat.pow_succ', Nat.add_assoc, Nat.mul_assoc, Nat.mul_left_comm]

/-- The value of two runs of digits. -/
theorem valueOf_append (radix : Nat) (front digits : List Char) :
    valueOf radix (front ++ digits) = valueOf radix front * radix ^ digits.length +
      valueOf radix digits := by
  rw [valueOf, List.foldl_append, foldl_digits]
  rfl

/-- Leading zeros count nothing. -/
theorem valueOf_replicate_zero (radix n : Nat) (digits : List Char) :
    valueOf radix (List.replicate n '0' ++ digits) = valueOf radix digits := by
  have hzero : (digitValue radix '0').getD 0 = 0 := by
    cases radix <;> rfl
  induction n with
  | zero => rfl
  | succ n ih =>
    rw [List.replicate_succ, List.cons_append, ← ih, valueOf, List.foldl_cons, hzero]
    rfl

/-- Trailing zeros multiply. -/
theorem valueOf_append_zeros (radix : Nat) (digits : List Char) (n : Nat) :
    valueOf radix (digits ++ List.replicate n '0') = valueOf radix digits * radix ^ n := by
  have hzero := valueOf_replicate_zero radix n []
  rw [List.append_nil] at hzero
  rw [valueOf_append, hzero, List.length_replicate]
  rfl

/-- A digit is read back. -/
theorem digitValue_digitChar {radix n : Nat} (hradix : radix ≤ 16) (hn : n < radix) :
    digitValue radix n.digitChar = some n := by
  have hall : ∀ radix ≤ 16, ∀ n < radix, digitValue radix n.digitChar = some n := by decide
  exact hall radix hradix n hn

/-- **Reading back.** A numeral spells the number it was written for. -/
theorem valueOf_toDigits {radix : Nat} (hone : 1 < radix) (hradix : radix ≤ 16) (n : Nat) :
    valueOf radix (Nat.toDigits radix n) = n := by
  induction n using Nat.strong_induction_on with
  | _ n ih =>
    by_cases hsmall : n < radix
    · rw [Nat.toDigits_of_lt_base hsmall]
      simp [valueOf, digitValue_digitChar hradix hsmall]
    · rw [Nat.toDigits_of_base_le hone (Nat.le_of_not_lt hsmall), valueOf_append_singleton,
        ih _ (Nat.div_lt_self (by omega) hone),
          digitValue_digitChar hradix (Nat.mod_lt n (by omega)),
        Option.getD_some]
      exact Nat.div_add_mod n radix

/-- What spells a number are digits. -/
theorem isDigit_of_mem_toDigits {radix n : Nat} {c : Char} (hone : 1 < radix) (hradix : radix ≤ 16)
    (h : c ∈ Nat.toDigits radix n) : isDigit radix c = true := by
  induction n using Nat.strong_induction_on with
  | _ n ih =>
    by_cases hsmall : n < radix
    · rw [Nat.toDigits_of_lt_base hsmall, List.mem_singleton] at h
      rw [h, isDigit, digitValue_digitChar hradix hsmall]
      rfl
    · rw [Nat.toDigits_of_base_le hone (Nat.le_of_not_lt hsmall), List.mem_append,
        List.mem_singleton] at h
      rcases h with h | rfl
      · exact ih _ (Nat.div_lt_self (by omega) hone) h
      · rw [isDigit, digitValue_digitChar hradix (Nat.mod_lt n (by omega))]
        rfl

end RtpMux.Numerals
