import Mathlib.Logic.Relation
import Mathlib.Order.Basic

/-!
# Counted iteration of a relation

`Iterate r n` is the `n`-fold composition of a relation with itself, and
`Counted r low high` the union of the compositions from `low` to `high`. A step that
stays where it is (`r a a`) pads a composition, so what a counted iteration reaches
without such steps, `Counted (Advance r)`, is all of it exactly when there is nothing to pad:
no lower count, or no step that stays while the lower count is not reached
(`counted_cases_of_not_stay`).
-/

namespace RtpMux

universe u

variable {α : Type u} {r : α → α → Prop} {a b c : α} {n low high : Nat}

/-- The `n`-fold composition of `r`. -/
def Iterate (r : α → α → Prop) : Nat → α → α → Prop
  | 0 => Eq
  | n + 1 => Relation.Comp r (Iterate r n)

/-- Some composition of `r` whose count lies between `low` and `high`. -/
def Counted (r : α → α → Prop) (low high : Nat) (a b : α) : Prop :=
  ∃ n, low ≤ n ∧ n ≤ high ∧ Iterate r n a b

/-- The steps of `r` that move. -/
def Advance (r : α → α → Prop) (a b : α) : Prop := r a b ∧ b ≠ a

/-- A larger relation composes to a larger one. -/
theorem Iterate.imp {s : α → α → Prop} (h : ∀ a b, r a b → s a b) (hn : Iterate r n a b) :
    Iterate s n a b := by
  induction n generalizing a with
  | zero => exact hn
  | succ n ih =>
    obtain ⟨c, hac, hcb⟩ := hn
    exact ⟨c, h a c hac, ih hcb⟩

/-- Leaving out the steps that stay makes a composition shorter and changes nothing else. -/
theorem Iterate.advance (h : Iterate r n a b) : ∃ m ≤ n, Iterate (Advance r) m a b := by
  induction n generalizing a with
  | zero => exact ⟨0, Nat.le_refl 0, h⟩
  | succ n ih =>
    obtain ⟨c, hac, hcb⟩ := h
    obtain ⟨m, hm, hadv⟩ := ih hcb
    by_cases hca : c = a
    · subst hca
      exact ⟨m, by omega, hadv⟩
    · exact ⟨m + 1, by omega, c, ⟨hac, hca⟩, hadv⟩

/-- Without a lower count, steps that stay add nothing. -/
theorem counted_zero_iff : Counted (Advance r) 0 high a b ↔ Counted r 0 high a b := by
  constructor
  · rintro ⟨n, hlow, hhigh, hn⟩
    exact ⟨n, hlow, hhigh, hn.imp fun _ _ h => h.1⟩
  · rintro ⟨n, -, hhigh, hn⟩
    obtain ⟨m, hm, hadv⟩ := hn.advance
    exact ⟨m, Nat.zero_le m, by omega, hadv⟩

/-- A counted iteration is over, or makes a step and goes on with both counts one lower. -/
theorem counted_cases : Counted r low high a b ↔
    low = 0 ∧ a = b ∨ 1 ≤ high ∧ ∃ c, r a c ∧ Counted r (low - 1) (high - 1) c b := by
  constructor
  · rintro ⟨n, hlow, hhigh, hn⟩
    cases n with
    | zero => exact .inl ⟨by omega, hn⟩
    | succ n =>
      obtain ⟨c, hac, hcb⟩ := hn
      exact .inr ⟨by omega, c, hac, n, by omega, by omega, hcb⟩
  · rintro (⟨rfl, rfl⟩ | ⟨hhigh, c, hac, n, hlow, hn, hcb⟩)
    · exact ⟨0, Nat.le_refl 0, Nat.zero_le high, rfl⟩
    · exact ⟨n + 1, by omega, by omega, c, hac, hcb⟩

/-- The next step of a counted iteration moves, if it could not stay while a step is owed. -/
theorem counted_cases_of_not_stay (h : 1 ≤ low → low ≤ high → ¬ r a a) : Counted r low high a b ↔
    low = 0 ∧ a = b ∨ 1 ≤ high ∧ ∃ c, Advance r a c ∧ Counted r (low - 1) (high - 1) c b := by
  constructor
  · intro hc
    by_cases hlow : low = 0
    · -- with nothing owed, leave out the steps that stay
      subst hlow
      refine (counted_cases.1 (counted_zero_iff.2 hc)).imp_right ?_
      rintro ⟨hhigh, c, hac, hcb⟩
      exact ⟨hhigh, c, hac, counted_zero_iff.1 hcb⟩
    · refine (counted_cases.1 hc).imp_right ?_
      rintro ⟨hhigh, c, hac, n, hn, hn', hcb⟩
      refine ⟨hhigh, c, ⟨hac, ?_⟩, n, hn, hn', hcb⟩
      rintro rfl
      exact h (by omega) (by omega) hac
  · refine fun hc => counted_cases.2 (hc.imp_right ?_)
    rintro ⟨hhigh, c, hac, hcb⟩
    exact ⟨hhigh, c, hac.1, hcb⟩

section Order

variable [PartialOrder α]

/-- Steps that never go back compose to one that never goes back. -/
theorem Iterate.le (hle : ∀ a b, r a b → a ≤ b) (h : Iterate r n a b) : a ≤ b := by
  induction n generalizing a with
  | zero => exact le_of_eq h
  | succ n ih =>
    obtain ⟨c, hac, hcb⟩ := h
    exact (hle a c hac).trans (ih hcb)

end Order

end RtpMux
