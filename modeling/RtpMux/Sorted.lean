import Mathlib.Data.Finset.Card
import Mathlib.Data.List.Sort
import RtpMux.HashMap

/-!
# Ordered sets and maps

A program that prints what it found keeps it in ordered sets and maps. Here an ordered set is the
sorted list of what was put in, once each, and an ordered map is walked by its sorted entries. The
order matters to what is printed and to nothing that is proved, so the lemmas say what is in the
lists.
-/

namespace RtpMux

universe u v

variable {K : Type u} {V : Type v} [LinearOrder K]

/-- The elements of a list as an ordered set. -/
def sortedSet (l : List K) : List K := l.dedup.insertionSort (· ≤ ·)

@[simp] theorem mem_sortedSet {l : List K} {x : K} : x ∈ sortedSet l ↔ x ∈ l := by
  rw [sortedSet, List.mem_insertionSort, List.mem_dedup]

/-- A sorted set has no element twice. -/
theorem nodup_sortedSet (l : List K) : (sortedSet l).Nodup :=
  (List.perm_insertionSort _ _).nodup_iff.2 (List.nodup_dedup l)

/-! ## Stable sorting -/

section Stable

variable {α : Type u} {r s : α → α → Prop} [DecidableRel r] [Std.Total r] [IsTrans α r] {l : List α}

/-- An insertion keeps a stable order. -/
theorem pairwise_orderedInsert_stable {a : α} (hl : l.Pairwise fun b c => r b c ∧ (r c b → s b c))
    (ha : ∀ b ∈ l, s a b) : (l.orderedInsert r a).Pairwise fun b c => r b c ∧ (r c b → s b c) := by
  induction l with
  | nil => exact List.pairwise_singleton _ _
  | cons b l ih =>
    obtain ⟨hb, hl⟩ := List.pairwise_cons.mp hl
    rw [List.orderedInsert_cons]
    split
    · next hab =>
      refine List.pairwise_cons.mpr ⟨fun c hc => ⟨?_, fun _ => ha c hc⟩,
        List.pairwise_cons.mpr ⟨hb, hl⟩⟩
      rcases List.mem_cons.mp hc with rfl | hc
      · exact hab
      · exact trans_of r hab (hb c hc).1
    · next hab =>
      have hba : r b a := (Std.Total.total a b).resolve_left hab
      refine List.pairwise_cons.mpr ⟨fun c hc => ?_,
        ih hl fun c hc => ha c (List.mem_cons_of_mem _ hc)⟩
      rcases List.mem_orderedInsert r |>.mp hc with rfl | hc
      · exact ⟨hba, fun h => absurd h hab⟩
      · exact hb c hc

/-- **A stable sort.** Elements that are equal in the order of the sort stay in the order they
had. -/
theorem pairwise_insertionSort_stable (hl : l.Pairwise s) :
    (l.insertionSort r).Pairwise fun b c => r b c ∧ (r c b → s b c) := by
  induction l with
  | nil => exact List.Pairwise.nil
  | cons a l ih =>
    obtain ⟨ha, hl⟩ := List.pairwise_cons.mp hl
    exact pairwise_orderedInsert_stable (ih hl) fun b hb => ha b ((List.mem_insertionSort r).mp hb)

end Stable

namespace HashMap

/-- The entries of a map in the order of the keys. -/
def sorted (m : HashMap K V) : List (K × V) :=
  (m.entries.map fun e => (e.1, e.2)).insertionSort fun a b => a.1 ≤ b.1

/-- The sorted entries of a map are its entries. -/
@[simp] theorem mem_sorted {m : HashMap K V} {k : K} {v : V} :
    (k, v) ∈ m.sorted ↔ m.lookup k = some v := by
  rw [sorted, List.mem_insertionSort, List.mem_map, lookup_eq_some_iff]
  constructor
  · rintro ⟨⟨k', v'⟩, he, heq⟩
    cases heq
    exact he
  · intro he
    exact ⟨⟨k, v⟩, he, rfl⟩

/-- The keys of the sorted entries are distinct. -/
theorem nodup_keys_sorted (m : HashMap K V) : (m.sorted.map Prod.fst).Nodup := by
  have hperm :=
    (List.perm_insertionSort (fun a b : K × V => a.1 ≤ b.1) (m.entries.map fun e => (e.1, e.2))).map
    Prod.fst
  rw [List.map_map] at hperm
  exact hperm.nodup_iff.2 m.nodupKeys

end HashMap

end RtpMux
