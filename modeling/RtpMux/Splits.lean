import Mathlib.Data.List.AList
import RtpMux.HashMap

/-!
# Walks over a list, seen from one element

A loop that goes through a list once treats an element by what came before it, or keeps of several
elements the first or the last. Such facts are stated by splitting the list at the element, `earlier
++ x :: later`. This file has the rule for a list that grows at its end, the first element with a
property, and what a map holds that was filled by one insertion after the other: of each key, the
last value.
-/

namespace RtpMux

universe u v

variable {α : Type u}

/-- An element of a longer list is its last one, or lies before it. -/
theorem append_singleton_eq_iff {xs earlier later : List α} {x y : α} :
    xs ++ [x] = earlier ++ y :: later ↔
      (later = [] ∧ xs = earlier ∧ x = y) ∨
        ∃ later', later = later' ++ [x] ∧ xs = earlier ++ y :: later' := by
  rcases List.eq_nil_or_concat later with rfl | ⟨later', z, rfl⟩
  · simp
  · rw [List.concat_eq_append, ← List.cons_append, ← List.append_assoc, List.append_singleton_inj]
    simp only [List.append_singleton_inj]
    constructor
    · rintro ⟨rfl, rfl⟩
      exact .inr ⟨later', ⟨rfl, rfl⟩, rfl⟩
    · rintro (⟨h, -⟩ | ⟨_, ⟨rfl, rfl⟩, rfl⟩)
      · simp at h
      · exact ⟨rfl, rfl⟩

/-- The first element that has a property. -/
theorem exists_first {p : α → Prop} {l : List α} (h : ∃ x ∈ l, p x) :
    ∃ earlier x later, l = earlier ++ x :: later ∧ (∀ y ∈ earlier, ¬ p y) ∧ p x := by
  induction l with
  | nil => simp at h
  | cons y ys ih =>
    by_cases hy : p y
    · exact ⟨[], y, ys, rfl, by simp, hy⟩
    · obtain ⟨earlier, x, later, rfl, hfirst, hx⟩ := ih (by simpa [hy] using h)
      exact ⟨y :: earlier, x, later, rfl, by simpa [hy] using hfirst, hx⟩

/-! ## Filling a map -/

section Fill

variable {K : Type u} {V : Type v} [DecidableEq K]

/-- Insert one entry after the other. -/
def fill (entries : List (K × V)) : HashMap K V :=
  entries.foldl (fun m entry => m.insert entry.1 entry.2) ∅

/-- `value` is the last one that `key` is given. -/
def IsLast (entries : List (K × V)) (key : K) (value : V) : Prop :=
  ∃ earlier later, entries = earlier ++ (key, value) :: later ∧ ∀ entry ∈ later, entry.1 ≠ key

/-- The last entry of a key is the one that is looked up. -/
theorem lookup_fill_append (entries : List (K × V)) (entry : K × V) (key : K) :
    (fill (entries ++ [entry])).lookup key =
      if key = entry.1 then some entry.2 else (fill entries).lookup key := by
  rw [fill, List.foldl_append, List.foldl_cons, List.foldl_nil, HashMap.lookup_insert_eq]
  rfl

/-- **A filled map** holds the last value of each key. -/
theorem lookup_fill_eq_some_iff {entries : List (K × V)} {key : K} {value : V} :
    (fill entries).lookup key = some value ↔ IsLast entries key value := by
  induction entries using List.reverseRecOn with
  | nil => simp [fill, IsLast]
  | append_singleton entries entry ih =>
    rw [lookup_fill_append]
    simp only [IsLast, append_singleton_eq_iff]
    by_cases h : key = entry.1
    · subst h
      rw [if_pos rfl, Option.some.injEq]
      constructor
      · rintro rfl
        exact ⟨entries, [], .inl ⟨rfl, rfl, rfl⟩, by simp⟩
      · rintro ⟨earlier, later, ⟨-, -, hentry⟩ | ⟨later', rfl, -⟩, hlast⟩
        · exact congrArg Prod.snd hentry
        · exact absurd rfl (hlast entry (by simp))
    · rw [if_neg h, ih]
      constructor
      · rintro ⟨earlier, later, rfl, hlast⟩
        refine ⟨earlier, later ++ [entry], .inr ⟨later, rfl, rfl⟩, fun e he => ?_⟩
        rcases List.mem_append.1 he with he | he
        · exact hlast e he
        · rw [List.mem_singleton.1 he]
          exact fun h' => h h'.symm
      · rintro ⟨earlier, later, ⟨-, -, rfl⟩ | ⟨later', rfl, hentries⟩, hlast⟩
        · exact absurd rfl h
        · exact ⟨earlier, later', hentries, fun e he => hlast e (by simp [he])⟩

/-- A key is filled if some entry has it. -/
theorem lookup_fill_isSome_iff {entries : List (K × V)} {key : K} :
    ((fill entries).lookup key).isSome = true ↔ ∃ entry ∈ entries, entry.1 = key := by
  induction entries using List.reverseRecOn with
  | nil => simp [fill]
  | append_singleton entries entry ih =>
    rw [lookup_fill_append]
    by_cases h : key = entry.1
    · simp [h]
    · have h' : ¬ entry.1 = key := fun h' => h h'.symm
      simp [h, h', ih, or_and_right, exists_or]

end Fill

end RtpMux
