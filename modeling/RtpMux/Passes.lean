import Mathlib.Data.Finset.Insert
import Mathlib.Data.Set.Basic

/-!
# Passes until nothing changes

A loop that goes over its data again and again, and ends after a pass that changed nothing. A pass
answers with the new state and whether it changed something. Where every pass that does so makes a
number grow that cannot grow for ever, the loop ends, and its last pass is one that changed nothing.

Such passes often fill sets and note in a flag whether an element was new. `Grows` says what a piece
of such a pass does: which elements it adds, and that the flag tells whether there was a new one.
Pieces one after the other add up.
-/

namespace RtpMux

universe u v

/-! ## The loop -/

section Loop

variable {σ : Type u}

/-- Pass by pass until one changes nothing; none is out of fuel. -/
def untilQuiet (pass : σ → σ × Bool) : Nat → σ → Option σ
  | 0, _ => none
  | fuel + 1, s => if (pass s).2 then untilQuiet pass fuel (pass s).1 else some (pass s).1

/-- More fuel makes no difference. -/
theorem untilQuiet_mono {pass : σ → σ × Bool} {n m : Nat} {s r : σ}
    (h : untilQuiet pass n s = some r) (hle : n ≤ m) :
    untilQuiet pass m s = some r := by
  induction n generalizing m s with
  | zero => cases h
  | succ n ih =>
    obtain ⟨m, rfl⟩ : ∃ m', m = m' + 1 := ⟨m - 1, by omega⟩
    rw [untilQuiet] at h ⊢
    split at h
    · rename_i hchanged
      rw [if_pos hchanged]
      exact ih h (by omega)
    · rename_i hquiet
      rw [if_neg hquiet]
      exact h

/-- **The loop ends** with a pass that changed nothing, in a state that its invariant holds of. -/
theorem untilQuiet_ends {pass : σ → σ × Bool} {Inv : σ → Prop} {rank : σ → Nat} {bound : Nat}
    (hinv : ∀ s, Inv s → Inv (pass s).1) (hbound : ∀ s, Inv s → rank s ≤ bound)
    (hrank : ∀ s, Inv s → (pass s).2 = true → rank s < rank (pass s).1) (fuel : Nat) {s : σ}
    (hs : Inv s)
    (hfuel : bound - rank s < fuel) :
    ∃ last, Inv last ∧ (pass last).2 = false ∧ untilQuiet pass fuel s = some (pass last).1 := by
  induction fuel generalizing s with
  | zero => omega
  | succ fuel ih =>
    rw [untilQuiet]
    by_cases hchanged : (pass s).2 = true
    · have hless := hrank s hs hchanged
      have hmost := hbound _ (hinv s hs)
      rw [if_pos hchanged]
      exact ih (hinv s hs) (by omega)
    · rw [if_neg hchanged]
      exact ⟨s, hs, by simpa using hchanged, rfl⟩

end Loop

/-! ## Sets that grow -/

section Grows

variable {α : Type u} {β : Type v} [DecidableEq α]

/-- A set with a flag for "something was new" takes up the elements of `new`. -/
structure Grows (new : Set α) (before after : Finset α × Bool) : Prop where
  mem : ∀ x, x ∈ after.1 ↔ x ∈ before.1 ∨ x ∈ new
  flag : after.2 = true ↔ before.2 = true ∨ ∃ x ∈ new, x ∉ before.1

omit [DecidableEq α] in
theorem Grows.refl (s : Finset α × Bool) : Grows ∅ s s := ⟨by simp, by simp⟩

omit [DecidableEq α] in
/-- Two passes in a row find what either finds. -/
theorem Grows.trans {new new' : Set α} {a b c : Finset α × Bool} (h : Grows new a b)
    (h' : Grows new' b c) :
    Grows (new ∪ new') a c := by
  refine ⟨fun x => ?_, ?_⟩
  · rw [h'.mem, h.mem, Set.mem_union, or_assoc]
  · rw [h'.flag, h.flag]
    constructor
    · rintro ((hflag | ⟨x, hx, hnot⟩) | ⟨x, hx, hnot⟩)
      · exact .inl hflag
      · exact .inr ⟨x, .inl hx, hnot⟩
      · exact .inr ⟨x, .inr hx, fun hmem => hnot ((h.mem x).2 (.inl hmem))⟩
    · rintro (hflag | ⟨x, hx, hnot⟩)
      · exact .inl (.inl hflag)
      · by_cases hnew : x ∈ new
        · exact .inl (.inr ⟨x, hnew, hnot⟩)
        · refine .inr ⟨x, hx.resolve_left hnew, fun hmem => ?_⟩
          exact ((h.mem x).1 hmem).elim hnot hnew

/-- `if set.insert(x) { changed = true; }`. -/
def note (x : α) (s : Finset α × Bool) : Finset α × Bool :=
  if x ∈ s.1 then s else (insert x s.1, true)

/-- Noting an element finds it. -/
theorem grows_note (x : α) (s : Finset α × Bool) : Grows {x} s (note x s) := by
  rw [note]
  split
  · rename_i hmem
    refine ⟨fun y => ?_, ?_⟩
    · constructor
      · exact .inl
      · rintro (h | rfl)
        · exact h
        · exact hmem
    · simp [hmem]
  · rename_i hnot
    refine ⟨fun y => ?_, ?_⟩
    · simp [or_comm]
    · simp [hnot]

/-- The same, where there may be nothing to insert. -/
def noteOption : Option α → Finset α × Bool → Finset α × Bool
  | some x, s => note x s
  | none, s => s

/-- Noting what a search found finds it. -/
theorem grows_noteOption (found : Option α) (s : Finset α × Bool) :
    Grows {x | found = some x} s (noteOption found s) := by
  cases found with
  | none => simpa [noteOption] using Grows.refl s
  | some x => simpa [noteOption, eq_comm] using grows_note x s

omit [DecidableEq α] in
/-- A loop whose turns each add something adds all of it. -/
theorem grows_foldl {step : Finset α × Bool → β → Finset α × Bool} {new : β → Set α}
    (hstep : ∀ s x, Grows (new x) s (step s x)) (l : List β) (s : Finset α × Bool) :
    Grows {y | ∃ x ∈ l, y ∈ new x} s (l.foldl step s) := by
  induction l generalizing s with
  | nil => simpa using Grows.refl s
  | cons x l ih =>
    have hset : {y | ∃ x' ∈ x :: l, y ∈ new x'} = new x ∪ {y | ∃ x' ∈ l, y ∈ new x'} := by
      ext y
      simp
    rw [hset]
    exact (hstep s x).trans (ih _)

end Grows

end RtpMux
