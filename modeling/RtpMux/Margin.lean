import Mathlib.Algebra.Order.Field.Basic
import Mathlib.Algebra.Order.Field.Rat
import Mathlib.Order.SuccPred.Relation
import Mathlib.Algebra.Order.SuccPred
import Mathlib.Data.Nat.SuccPred
import Mathlib.Tactic.Ring
import Mathlib.Tactic.Linarith
import Mathlib.Data.Finset.Card

/-!
# Winning by a margin, in two costs

A choice is judged by two costs, a *scaled* one `x` and a *shifted* one `y`. One
choice beats another by scaling `x` down while `y` may rise a little, or by shifting
`y` down while `x` may be scaled up. Each rule lets the other cost get worse, so the
relation is neither transitive nor monotone in any one quantity.

The terms of such a relation (`Terms`) carry the reason why it has no cycle: a
win on `y` takes back at least as much of `y` as `wins` wins on `x` may give away,
and `wins` wins on `x` followed by one win on `y` leave `x` strictly smaller. So
along a chain with `R` wins on `x` and `L` wins on `y` that comes back to the same
`y`, the wins on `x` outnumber `wins * L`, and `x` has shrunk (`Terms.acyclic`). A
chain therefore never repeats a choice, and within a finite set it is no longer than
the set (`Terms.chain_lt_card`).
-/

namespace RtpMux

/-- The terms on which one choice beats another. -/
structure Terms (K : Type) [Field K] [LinearOrder K] where
  /-- the factor a win on `x` must reach -/
  gain : K
  /-- how much `y` may rise in a win on `x` -/
  give : K
  /-- the factor `x` may rise by in a win on `y` -/
  slack : K
  /-- how much `y` must drop in a win on `y` -/
  drop : K
  /-- how many wins on `x` pay for one win on `y` -/
  wins : ℕ
  gain_nonneg : 0 ≤ gain
  gain_lt_one : gain < 1
  slack_nonneg : 0 ≤ slack
  give_pos : 0 < give
  /-- one win on `y` takes back what `wins` wins on `x` gave away -/
  pays : wins * give ≤ drop
  /-- `wins` wins on `x` and one win on `y` make a profit on `x` -/
  profit : gain ^ wins * slack < 1

namespace Terms

variable {K : Type} [Field K] [LinearOrder K] {α : Type}

/-- Consecutive losses along a sequence add up. -/
theorem transGen_of_seq {r : α → α → Prop} {s : ℕ → α} {n : ℕ}
    (h : ∀ i < n, r (s i) (s (i + 1))) {i j : ℕ} (hij : i < j) (hj : j ≤ n) :
    Relation.TransGen r (s i) (s j) := by
  have hindex : Relation.TransGen (fun k l => r (s k) (s l)) i j := by
    apply transGen_of_succ_of_lt _ _ hij
    intro k hk
    exact h k (lt_of_lt_of_le hk.2 hj)
  exact hindex.lift s fun _ _ hr => hr

variable (T : Terms K) (x y : α → K)

/-- `s` loses to `t`: `t` wins on `x` or on `y` by the margin the terms ask for. -/
def LosesTo (s t : α) : Prop :=
  (x t ≤ x s * T.gain ∧ y t ≤ y s + T.give) ∨ (y t + T.drop ≤ y s ∧ x t ≤ x s * T.slack)

variable {T x y} [IsStrictOrderedRing K]

/-- One step multiplies the bound on `x` by the winner's factor. -/
theorem scaled_step {a b c f p : K} (hf : 0 ≤ f) (hb : b ≤ a * p) (hc : c ≤ b * f) :
    c ≤ a * (p * f) :=
  calc c ≤ b * f := hc
    _ ≤ a * p * f := mul_le_mul_of_nonneg_right hb hf
    _ = a * (p * f) := mul_assoc a p f

/-- What a chain of wins has done to both costs, counted by the rule of each win. -/
theorem chain_bound {s t : α} (h : Relation.TransGen (T.LosesTo x y) s t) :
    ∃ R L : ℕ, 0 < R + L ∧ x t ≤ x s * (T.gain ^ R * T.slack ^ L) ∧
      y t + L * T.drop ≤ y s + R * T.give := by
  induction h with
  | single h =>
    rcases h with ⟨hx, hy⟩ | ⟨hy, hx⟩
    · exact ⟨1, 0, Nat.one_pos, by simpa using hx, by simpa using hy⟩
    · exact ⟨0, 1, Nat.one_pos, by simpa using hx, by simpa using hy⟩
  | tail _ h ih =>
    obtain ⟨R, L, hpos, hx, hy⟩ := ih
    rcases h with ⟨hx', hy'⟩ | ⟨hy', hx'⟩
    · refine ⟨R + 1, L, by omega, ?_, ?_⟩
      · have := scaled_step T.gain_nonneg hx hx'
        rwa [mul_right_comm, ← pow_succ] at this
      · push_cast
        linarith
    · refine ⟨R, L + 1, by omega, ?_, ?_⟩
      · have := scaled_step T.slack_nonneg hx hx'
        rwa [mul_assoc (T.gain ^ R), ← pow_succ] at this
      · push_cast
        linarith

/-- A chain that comes back in `y` has at least `wins` wins on `x` for each on `y`. -/
theorem wins_mul_le {R L : ℕ} {a : K} (h : a + L * T.drop ≤ a + R * T.give) :
    T.wins * L ≤ R := by
  have hdrop : (L : K) * (T.wins * T.give) ≤ L * T.drop :=
    mul_le_mul_of_nonneg_left T.pays (Nat.cast_nonneg L)
  have hgive : ((T.wins * L : ℕ) : K) * T.give ≤ R * T.give := by
    push_cast
    linarith
  exact_mod_cast le_of_mul_le_mul_right hgive T.give_pos

/-- With that many wins on `x` the factor on `x` is below one. -/
theorem factor_lt_one {R L : ℕ} (hpos : 0 < R + L) (h : T.wins * L ≤ R) :
    T.gain ^ R * T.slack ^ L < 1 := by
  obtain ⟨d, rfl⟩ := Nat.exists_eq_add_of_le h
  have hsplit : T.gain ^ (T.wins * L + d) * T.slack ^ L
      = (T.gain ^ T.wins * T.slack) ^ L * T.gain ^ d := by
    rw [pow_add, pow_mul, mul_pow]
    ring
  have hround : 0 ≤ T.gain ^ T.wins * T.slack :=
    mul_nonneg (pow_nonneg T.gain_nonneg _) T.slack_nonneg
  rw [hsplit]
  rcases Nat.eq_zero_or_pos L with rfl | hL
  · have hd : d ≠ 0 := by omega
    simpa using pow_lt_one₀ T.gain_nonneg T.gain_lt_one hd
  · calc (T.gain ^ T.wins * T.slack) ^ L * T.gain ^ d
        ≤ (T.gain ^ T.wins * T.slack) ^ L * 1 :=
          mul_le_mul_of_nonneg_left (pow_le_one₀ T.gain_nonneg T.gain_lt_one.le)
            (pow_nonneg hround L)
      _ < 1 := by
          rw [mul_one]
          exact pow_lt_one₀ hround T.profit hL.ne'

/-- **No cycle.** No choice with a positive cost `x` loses to itself through any
number of wins, whichever rules they use. -/
theorem acyclic {s : α} (hx : 0 < x s) : ¬ Relation.TransGen (T.LosesTo x y) s s := by
  intro h
  obtain ⟨R, L, hpos, hxs, hys⟩ := chain_bound h
  have hlt : x s * (T.gain ^ R * T.slack ^ L) < x s * 1 :=
    mul_lt_mul_of_pos_left (factor_lt_one hpos (wins_mul_le hys)) hx
  rw [mul_one] at hlt
  exact absurd hxs (not_le.mpr hlt)

/-- **A chain within a finite set is shorter than the set**: it never comes back to
a choice it has left. -/
theorem chain_lt_card [DecidableEq α] {P : Finset α} {s : ℕ → α} {n : ℕ}
    (hmem : ∀ i ≤ n, s i ∈ P) (hpos : ∀ a ∈ P, 0 < x a)
    (h : ∀ i < n, T.LosesTo x y (s i) (s (i + 1))) : n < P.card := by
  have hne : ∀ {i j : ℕ}, i < j → j ≤ n → s i ≠ s j := by
    intro i j hij hj heq
    have hcycle := transGen_of_seq h hij hj
    rw [heq] at hcycle
    exact acyclic (hpos _ (hmem j hj)) hcycle
  have hcard : (Finset.range (n + 1)).card ≤ P.card := by
    apply Finset.card_le_card_of_injOn s
    · intro i hi
      exact hmem i (by simpa [Nat.lt_succ_iff] using hi)
    · intro i hi j hj heq
      simp only [Finset.coe_range, Set.mem_Iio, Nat.lt_succ_iff] at hi hj
      rcases Nat.lt_trichotomy i j with hij | hij | hij
      · exact absurd heq (hne hij hj)
      · exact hij
      · exact absurd heq.symm (hne hij hi)
  simpa [Nat.succ_le_iff] using hcard

end Terms

end RtpMux
