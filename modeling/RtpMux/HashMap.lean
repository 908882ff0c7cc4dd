import Mathlib.Algebra.GroupWithZero.Nat
import Mathlib.Data.Finmap
import Mathlib.Data.Finset.Basic
import Mathlib.Algebra.BigOperators.Group.List.Basic
import Mathlib.Algebra.Order.BigOperators.Group.List
import Mathlib.Algebra.BigOperators.Group.Finset.Basic
import Mathlib.Algebra.Order.Group.Multiset

/-!
# Finite maps

A hash map is modelled by Mathlib's `AList` at a constant family: an association
list without duplicate keys. Only what a client of a hash map can observe is
used, so nothing depends on the order of the list.

This file adds what `AList` lacks and programs need:

* `lookup` after `insert` and `erase` as one conditional equation each, the form
  in which case analyses over keys go through;
* `retain`, the filter of a map;
* `total f m`, the sum of `f` over the values of `m` in a commutative monoid. How
  `total` moves under `insert` and `erase` is the accounting rule of every
  "each resource sits in exactly one place" argument.
-/

namespace RtpMux

universe u v w

/-- A finite map from `K` to `V`: an association list without duplicate keys. -/
abbrev HashMap (K : Type u) (V : Type v) : Type (max u v) := AList fun _ : K => V

namespace HashMap

variable {K : Type u} {V : Type v} [DecidableEq K]

@[grind =] theorem lookup_insert_eq (m : HashMap K V) (a k : K) (b : V) :
    (m.insert a b).lookup k = if k = a then some b else m.lookup k := by
  by_cases h : k = a
  · subst h
    simp
  · simp [h, AList.lookup_insert_ne h]

@[grind =] theorem lookup_erase_eq (m : HashMap K V) (a k : K) :
    (m.erase a).lookup k = if k = a then none else m.lookup k := by
  by_cases h : k = a
  · subst h
    simp
  · simp [h, AList.lookup_erase_ne h]

/-! ## Filtering -/

/-- Keep the entries that satisfy `p`. -/
def retain (p : K → V → Bool) (m : HashMap K V) : HashMap K V where
  entries := m.entries.filter fun e => p e.1 e.2
  nodupKeys := List.NodupKeys.sublist List.filter_sublist m.nodupKeys

omit [DecidableEq K] in
/-- The entries that `retain` keeps are those that pass its test. -/
theorem mem_entries_retain {p : K → V → Bool} {m : HashMap K V} {e : Sigma fun _ : K => V} :
    e ∈ (retain p m).entries ↔ e ∈ m.entries ∧ p e.1 e.2 = true := by
  simp [retain]

/-- A key is looked up to a value exactly where the pair is an entry. -/
theorem lookup_eq_some_iff {m : HashMap K V} {k : K} {v : V} :
    m.lookup k = some v ↔ (⟨k, v⟩ : Sigma fun _ : K => V) ∈ m.entries :=
  AList.mem_lookup_iff

@[grind =] theorem lookup_retain (p : K → V → Bool) (m : HashMap K V) (k : K) :
    (retain p m).lookup k = (m.lookup k).filter (p k) := by
  apply Option.ext
  intro v
  rw [lookup_eq_some_iff, mem_entries_retain, Option.filter_eq_some_iff, lookup_eq_some_iff]

/-! ## Changing values in place -/

/-- Change the value of a key, if it has one. -/
def modify (k : K) (f : V → V) (m : HashMap K V) : HashMap K V :=
  match m.lookup k with
  | some v => m.insert k (f v)
  | none => m

@[grind =] theorem lookup_modify (k k' : K) (f : V → V) (m : HashMap K V) :
    (modify k f m).lookup k' = if k' = k then (m.lookup k').map f else m.lookup k' := by
  unfold modify
  split
  · rename_i v hv
    rw [lookup_insert_eq]
    split
    · rename_i hk
      rw [hk, hv, Option.map_some]
    · rfl
  · rename_i hv
    split
    · rename_i hk
      rw [hk, hv, Option.map_none]
    · rfl

omit [DecidableEq K] in
/-- Mapping the values keeps the keys. -/
theorem keys_map_entries (f : K → V → V) (l : List (Sigma fun _ : K => V)) :
    (l.map fun e => (⟨e.1, f e.1 e.2⟩ : Sigma fun _ : K => V)).keys = l.keys := by
  simp [List.keys]

/-- Change every value. -/
def mapVal (f : K → V → V) (m : HashMap K V) : HashMap K V where
  entries := m.entries.map fun e => ⟨e.1, f e.1 e.2⟩
  nodupKeys := by
    rw [List.NodupKeys, keys_map_entries]
    exact m.nodupKeys

@[grind =] theorem lookup_mapVal (f : K → V → V) (m : HashMap K V) (k : K) :
    (mapVal f m).lookup k = (m.lookup k).map (f k) := by
  apply Option.ext
  intro v
  rw [lookup_eq_some_iff, Option.map_eq_some_iff]
  constructor
  · intro h
    obtain ⟨⟨k', w⟩, hw, he⟩ := List.mem_map.mp h
    cases he
    exact ⟨w, lookup_eq_some_iff.mpr hw, rfl⟩
  · rintro ⟨w, hw, rfl⟩
    exact List.mem_map.mpr ⟨⟨k, w⟩, lookup_eq_some_iff.mp hw, rfl⟩

/-! ## Sums over the entries -/

variable {M : Type w} [AddCommMonoid M]

/-- The sum of `f` over the keys and values of a map. -/
def tally (f : K → V → M) (m : HashMap K V) : M := (m.entries.map fun e => f e.1 e.2).sum

/-- The sum of `f` over the values of a map. -/
def total (f : V → M) (m : HashMap K V) : M := (m.entries.map fun e => f e.2).sum

omit [DecidableEq K] in
@[simp] theorem total_empty (f : V → M) : total f (∅ : HashMap K V) = 0 := rfl

/-- Taking an entry out takes its summand off the sum. -/
theorem tally_erase {f : K → V → M} {m : HashMap K V} {k : K} {v : V} (h : m.lookup k = some v) :
    f k v + tally f (m.erase k) = tally f m := by
  obtain ⟨v', l₁, l₂, hnotin, hm, hk⟩ := List.exists_of_kerase
    (a := k) (l := m.entries) (List.mem_keys_of_mem (lookup_eq_some_iff.mp h))
  have hv : v' = v := by
    have hmem : (⟨k, v'⟩ : Sigma fun _ : K => V) ∈ m.entries := by rw [hm]; simp
    have := lookup_eq_some_iff.mpr hmem
    rw [h] at this
    exact (Option.some.inj this).symm
  subst hv
  have he : (m.erase k).entries = l₁ ++ l₂ := hk
  simp only [tally, he, hm, List.map_append, List.map_cons, List.sum_append, List.sum_cons]
  exact add_left_comm _ _ _

/-- Storing under a key replaces whatever was there. -/
theorem tally_insert_erase (f : K → V → M) (m : HashMap K V) (k : K) (v : V) :
    tally f (m.insert k v) = f k v + tally f (m.erase k) := by
  simp [tally, AList.entries_insert, AList.erase]

/-- Erasing a key that is not there does nothing. -/
theorem erase_of_lookup_none {m : HashMap K V} {k : K} (h : m.lookup k = none) :
    m.erase k = m := by
  apply AList.ext
  exact List.kerase_of_notMem_keys (AList.lookup_eq_none.mp h)

/-- Storing under a free key adds a summand. -/
theorem tally_insert_new {f : K → V → M} {m : HashMap K V} {k : K} (v : V)
    (h : m.lookup k = none) : tally f (m.insert k v) = f k v + tally f m := by
  rw [tally_insert_erase, erase_of_lookup_none h]

/-- Overwriting an entry exchanges the old summand for the new one. -/
theorem tally_insert {f : K → V → M} {m : HashMap K V} {k : K} {v : V} (v' : V)
    (h : m.lookup k = some v) :
    f k v + tally f (m.insert k v') = f k v' + tally f m := by
  rw [tally_insert_erase, ← tally_erase h]
  exact add_left_comm _ _ _

omit [DecidableEq K] in
/-- Two tallies agree if their terms agree on the entries. -/
theorem tally_congr {f g : K → V → M} {m : HashMap K V}
    (h : ∀ e ∈ m.entries, f e.1 e.2 = g e.1 e.2) : tally f m = tally g m := by
  unfold tally
  rw [List.map_congr_left h]

/-- Two summands that differ at one key only. -/
theorem tally_exchange {f g : K → V → M} {m : HashMap K V} {k : K} {v : V}
    (h : m.lookup k = some v) (hne : ∀ k' v', k' ≠ k → f k' v' = g k' v') :
    g k v + tally f m = f k v + tally g m := by
  have hrest : tally f (m.erase k) = tally g (m.erase k) := by
    refine tally_congr fun e he => hne _ _ ?_
    rintro rfl
    have := lookup_eq_some_iff.mpr he
    simp at this
  rw [← tally_erase h, ← tally_erase h, hrest]
  exact add_left_comm _ _ _

/-- What is in a sum of multisets is in one of them. -/
theorem mem_tally {α : Type w} {f : K → V → Multiset α} {m : HashMap K V} {a : α}
    (h : a ∈ tally f m) : ∃ k v, m.lookup k = some v ∧ a ∈ f k v := by
  have hlist : ∀ l : List (Sigma fun _ : K => V), a ∈ (l.map fun e => f e.1 e.2).sum →
      ∃ e ∈ l, a ∈ f e.1 e.2 := by
    intro l
    induction l with
    | nil => exact fun h => absurd h (Multiset.notMem_zero a)
    | cons e l ih =>
      intro h
      rw [List.map_cons, List.sum_cons, Multiset.mem_add] at h
      rcases h with h | h
      · exact ⟨e, List.mem_cons_self, h⟩
      · obtain ⟨e', he', ha⟩ := ih h
        exact ⟨e', List.mem_cons_of_mem e he', ha⟩
  obtain ⟨⟨k, v⟩, he, ha⟩ := hlist _ h
  exact ⟨k, v, lookup_eq_some_iff.mpr he, ha⟩

omit [DecidableEq K] in
/-- A tally of a sum is the sum of the tallies. -/
theorem tally_add (f g : K → V → M) (m : HashMap K V) :
    tally (fun k v => f k v + g k v) m = tally f m + tally g m :=
  List.sum_map_add

omit [DecidableEq K] in
/-- The size of a tally of multisets is the tally of the sizes. -/
theorem card_tally {α : Type w} (f : K → V → Multiset α) (m : HashMap K V) :
    (tally f m).card = tally (fun k v => (f k v).card) m := by
  simp only [tally]
  induction m.entries with
  | nil => rfl
  | cons e l ih => rw [List.map_cons, List.sum_cons, Multiset.card_add, ih, List.map_cons,
      List.sum_cons]

/-- Counting a multiset of keys key by key counts all of it. -/
theorem tally_count {g : Multiset K} {m : HashMap K V} (h : ∀ k ∈ g, m.lookup k ≠ none) :
    tally (fun k _ => g.count k) m = g.card := by
  have hkeys : tally (fun k _ => g.count k) m = (m.keys.map (g.count ·)).sum := by
    simp [tally, AList.keys, List.keys, List.map_map, Function.comp_def]
  rw [hkeys, ← List.sum_toFinset _ m.keys_nodup]
  refine Multiset.sum_count_eq_card fun k hk => ?_
  rw [List.mem_toFinset]
  exact AList.mem_keys.mp (AList.lookup_isSome.mp (Option.isSome_iff_ne_none.mpr (h k hk)))

/-! The same for sums that do not look at the keys. -/

/-- What an entry gives to a total goes with it. -/
theorem total_erase {f : V → M} {m : HashMap K V} {k : K} {v : V} (h : m.lookup k = some v) :
    f v + total f (m.erase k) = total f m :=
  tally_erase (f := fun _ => f) h

/-- An inserted entry gives its part to a total without its key. -/
theorem total_insert_erase (f : V → M) (m : HashMap K V) (k : K) (v : V) :
    total f (m.insert k v) = f v + total f (m.erase k) :=
  tally_insert_erase (fun _ => f) m k v

/-- A new key adds to a total what its value gives. -/
theorem total_insert_new {f : V → M} {m : HashMap K V} {k : K} (v : V) (h : m.lookup k = none) :
    total f (m.insert k v) = f v + total f m :=
  tally_insert_new (f := fun _ => f) v h

/-- An entry that is overwritten gives its part to a total anew. -/
theorem total_insert {f : V → M} {m : HashMap K V} {k : K} {v : V} (v' : V)
    (h : m.lookup k = some v) :
    f v + total f (m.insert k v') = f v' + total f m :=
  tally_insert (f := fun _ => f) v' h

/-- An entry is part of the sum. -/
theorem le_total {f : V → Nat} {m : HashMap K V} {k : K} {v : V} (h : m.lookup k = some v) :
    f v ≤ total f m := by
  rw [← total_erase h]
  exact Nat.le_add_right _ _

/-- A positive sum has a positive summand. -/
theorem exists_of_total_pos {f : V → Nat} {m : HashMap K V} (h : 0 < total f m) :
    ∃ k v, m.lookup k = some v ∧ 0 < f v := by
  by_contra hnone
  push Not at hnone
  have hzero : total f m = 0 := by
    refine List.sum_eq_zero fun n hn => ?_
    obtain ⟨⟨k, v⟩, he, rfl⟩ := List.mem_map.mp hn
    exact Nat.le_zero.mp (hnone k v (lookup_eq_some_iff.mpr he))
  omega

omit [DecidableEq K] in
/-- How many entries satisfy `p`, as the length of the list of their keys. -/
theorem total_eq_length (m : HashMap K V) (p : V → Prop) [DecidablePred p] :
    total (fun v => if p v then 1 else 0) m =
      ((m.entries.filter fun e => p e.2).map Sigma.fst).length := by
  simp only [total, List.length_map]
  induction m.entries with
  | nil => rfl
  | cons e l ih =>
    by_cases he : p e.2
    · simp [he, ih, Nat.add_comm]
    · simp [he, ih]

omit [DecidableEq K] in
/-- The keys of the entries that pass a test are distinct. -/
theorem nodup_keys_filter (m : HashMap K V) (p : V → Prop) [DecidablePred p] :
    ((m.entries.filter fun e => p e.2).map Sigma.fst).Nodup :=
  List.NodupKeys.sublist List.filter_sublist m.nodupKeys

/-- The entries that satisfy `p` are no more than the keys they can have. -/
theorem total_le_length {m : HashMap K V} {p : V → Prop} [DecidablePred p] (l : List K)
    (h : ∀ k v, m.lookup k = some v → p v → k ∈ l) :
    total (fun v => if p v then 1 else 0) m ≤ l.length := by
  rw [total_eq_length]
  refine (List.subperm_of_subset (nodup_keys_filter m p) ?_).length_le
  intro k hk
  obtain ⟨⟨_, v⟩, he, rfl⟩ := List.mem_map.mp hk
  obtain ⟨he, hp⟩ := List.mem_filter.mp he
  exact h _ v (lookup_eq_some_iff.mpr he) (of_decide_eq_true hp)

/-- The entries of one map that satisfy `p` are no more than those of another that satisfy `q`, if
they can be told apart there. -/
theorem total_le_of_injOn {K' : Type u} {V' : Type v} [DecidableEq K'] {m : HashMap K V}
    {m' : HashMap K' V'} {p : V → Prop} {q : V' → Prop} [DecidablePred p] [DecidablePred q]
    (f : K → K')
    (hinj : ∀ k k' v v', m.lookup k = some v → p v → m.lookup k' = some v' → p v' →
      f k = f k' → k = k')
    (hmaps : ∀ k v, m.lookup k = some v → p v → ∃ v', m'.lookup (f k) = some v' ∧ q v') :
    total (fun v => if p v then 1 else 0) m ≤ total (fun v => if q v then 1 else 0) m' := by
  rw [total_eq_length, total_eq_length, ← List.length_map f]
  refine (List.subperm_of_subset ((nodup_keys_filter m p).map_on ?_) ?_).length_le
  · intro k hk k' hk' heq
    obtain ⟨⟨_, v⟩, he, rfl⟩ := List.mem_map.mp hk
    obtain ⟨⟨_, v'⟩, he', rfl⟩ := List.mem_map.mp hk'
    obtain ⟨he, hp⟩ := List.mem_filter.mp he
    obtain ⟨he', hp'⟩ := List.mem_filter.mp he'
    exact hinj _ _ v v' (lookup_eq_some_iff.mpr he) (of_decide_eq_true hp)
      (lookup_eq_some_iff.mpr he') (of_decide_eq_true hp') heq
  · intro k' hk'
    obtain ⟨k, hk, rfl⟩ := List.mem_map.mp hk'
    obtain ⟨⟨_, v⟩, he, rfl⟩ := List.mem_map.mp hk
    obtain ⟨he, hp⟩ := List.mem_filter.mp he
    obtain ⟨v', hv', hq⟩ := hmaps _ v (lookup_eq_some_iff.mpr he) (of_decide_eq_true hp)
    exact List.mem_map.mpr ⟨⟨_, v'⟩,
      List.mem_filter.mpr ⟨lookup_eq_some_iff.mp hv', decide_eq_true hq⟩, rfl⟩

end HashMap

end RtpMux
