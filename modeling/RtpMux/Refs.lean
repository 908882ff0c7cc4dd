import Mathlib.Data.List.Basic
import Mathlib.Logic.Relation

/-!
# Strong references

A reference-counted allocation is alive as long as something holds it: a root, or an
allocation that is itself alive and points at it. `Refs.Live root link` is that closure for
allocations which own at most one other allocation, `link p = some x` saying that `p` owns `x`.

Allocations are numbered in order of birth. Where an allocation only ever owns a younger one,
the closure can be computed in one pass: `Refs.liveBelow root link n` lists the live ones among
the first `n`, and `Refs.isLive` decides `Refs.Live`.
-/

namespace RtpMux

namespace Refs

variable {root : Nat → Prop} {link : Nat → Option Nat}

/-- An allocation is alive. -/
inductive Live (root : Nat → Prop) (link : Nat → Option Nat) : Nat → Prop where
  /-- a root holds it -/
  | root {x : Nat} : root x → Live root link x
  /-- a live allocation owns it -/
  | link {p x : Nat} : Live root link p → link p = some x → Live root link x

/-- What holds a live allocation is, in the end, a root. -/
theorem Live.exists_root {x : Nat} (h : Live root link x) :
    ∃ z, root z ∧ Relation.ReflTransGen (fun p x => link p = some x) z x := by
  induction h with
  | root hx => exact ⟨_, hx, .refl⟩
  | link _ hlink ih =>
    obtain ⟨z, hz, hpath⟩ := ih
    exact ⟨z, hz, hpath.tail hlink⟩

/-- A live allocation stays live when no reference goes away. -/
theorem Live.mono {root' : Nat → Prop} {link' : Nat → Option Nat}
    (hroot : ∀ x, root x → Live root' link' x)
    (hlink : ∀ p x, link p = some x → link' p = some x) {x : Nat} (h : Live root link x) :
    Live root' link' x := by
  induction h with
  | root hx => exact hroot _ hx
  | link _ hl ih => exact .link ih (hlink _ _ hl)

section Decide

variable (root) (link) [DecidablePred root]

/-- Add `n` to the live allocations born before it, if it is alive. -/
def liveNext (n : Nat) (below : List Nat) : List Nat :=
  if root n ∨ ∃ p ∈ below, link p = some n then n :: below else below

/-- The live allocations among the first `n`, in one pass in order of birth. -/
def liveBelow : Nat → List Nat
  | 0 => []
  | n + 1 => liveNext root link n (liveBelow n)

/-- `strong_count > 0`. -/
def isLive (x : Nat) : Bool := x ∈ liveBelow root link (x + 1)

variable {root} {link}

/-- The next node is live if it is a root, or if a live older node links to it. -/
theorem mem_liveBelow_succ {x n : Nat} :
    x ∈ liveBelow root link (n + 1) ↔
      x ∈ liveBelow root link n ∨
        x = n ∧ (root n ∨ ∃ p ∈ liveBelow root link n, link p = some n) := by
  simp only [liveBelow, liveNext]
  split
  · rename_i hlive
    simp only [List.mem_cons]
    constructor
    · rintro (rfl | h)
      · exact .inr ⟨rfl, hlive⟩
      · exact .inl h
    · rintro (h | ⟨rfl, -⟩)
      · exact .inr h
      · exact .inl rfl
  · rename_i hdead
    constructor
    · exact .inl
    · rintro (h | ⟨-, hlive⟩)
      · exact h
      · exact absurd hlive hdead

/-- What the pass lists is alive, whoever owns whom. -/
theorem live_of_mem_liveBelow {n : Nat} :
    ∀ {x : Nat}, x ∈ liveBelow root link n → Live root link x := by
  induction n with
  | zero => simp [liveBelow]
  | succ n ih =>
    intro x hx
    rcases mem_liveBelow_succ.mp hx with hx | ⟨rfl, hroot | ⟨p, hp, hlink⟩⟩
    · exact ih hx
    · exact .root hroot
    · exact .link (ih hp) hlink

/-- What the computation calls live is reached from a root. -/
theorem live_of_isLive {x : Nat} (h : isLive root link x = true) : Live root link x :=
  live_of_mem_liveBelow (of_decide_eq_true h)

/-- The pass is exact if an allocation only owns younger ones. -/
theorem mem_liveBelow_iff (hyounger : ∀ p x, link p = some x → p < x) {n : Nat} :
    ∀ {x : Nat}, x ∈ liveBelow root link n ↔ x < n ∧ Live root link x := by
  induction n with
  | zero => simp [liveBelow]
  | succ n ih =>
    intro x
    constructor
    · intro hx
      refine ⟨?_, live_of_mem_liveBelow hx⟩
      rcases mem_liveBelow_succ.mp hx with hx | ⟨rfl, -⟩
      · exact Nat.lt_succ_of_lt (ih.mp hx).1
      · exact Nat.lt_succ_self _
    · rintro ⟨hlt, hlive⟩
      rw [mem_liveBelow_succ, ih]
      rcases Nat.lt_succ_iff_lt_or_eq.mp hlt with hlt | rfl
      · exact .inl ⟨hlt, hlive⟩
      · refine .inr ⟨rfl, ?_⟩
        cases hlive with
        | root hroot => exact .inl hroot
        | link hp hlink => exact .inr ⟨_, ih.mpr ⟨hyounger _ _ hlink, hp⟩, hlink⟩

/-- With links from older to younger the computation finds exactly what is reached from a root. -/
theorem isLive_iff (hyounger : ∀ p x, link p = some x → p < x) {x : Nat} :
    isLive root link x = true ↔ Live root link x := by
  rw [isLive, decide_eq_true_iff, mem_liveBelow_iff hyounger]
  exact and_iff_right (Nat.lt_succ_self x)

end Decide

end Refs

end RtpMux
