import Mathlib.Order.FixedPoints
import Mathlib.Order.CompletePartialOrder
import RtpMux.Tools.Forwarders

/-!
# The key positions are the least solution

What the key positions of the forwarders are is said by one equation: an entry has the positions
that its forwarders read themselves, and those of the parameters they pass on at a key position. Its
right side grows with the positions, so there is a least solution. `forwarder_key_positions` ends
with it: no pass leaves it, since a view that is out of date holds only fewer positions, and a pass
that finds nothing new has looked at the positions as they are at the end.
-/

namespace RtpMux.CheckGate

open Pyre (Regex Match)

/-! ## The equation -/

/-- A set of positions for each entry. -/
abbrev Entries := List Char × List Char → Set Nat

/-- There is a forwarder of this name in this file. -/
def IsEntry (forwarders : List Forwarder) (key : List Char × List Char) : Prop :=
  ∃ f ∈ forwarders, f.key = key

/-- The positions of a callee, seen from a file: its entry there if it has one, and else those of
all files. -/
def calleeKeys (forwarders : List Forwarder) (entries : Entries) (path callee : List Char) :
    Set Nat :=
  {index | IsEntry forwarders (path, callee) ∧ index ∈ entries (path, callee) ∨
    ¬ IsEntry forwarders (path, callee) ∧ ∃ file, IsEntry forwarders (file, callee) ∧
      index ∈ entries (file, callee)}

/-- The positions that a forwarder reads itself. -/
def Forwarder.readsAt (f : Forwarder) : Set Nat :=
  {position | ∃ read ∈ envReadRe.findIter (String.ofList f.quietBody),
    parameterPosition (callArguments f.quietBody (read.stop - 1)) f.params = some position}

/-- The positions that a forwarder passes on, where `keys` are those of what it calls. -/
def Forwarder.passesAt (f : Forwarder) (readers : Finset (List Char)) (keys : List Char → Set Nat) :
    Set Nat :=
  {position | ∃ found ∈ callRe.findIter (String.ofList f.quietBody), ∃ callee,
    (found.groups[0]?).join = some callee ∧
    callee.toList ∈ readers ∧ ∃ index ∈ keys callee.toList, f.passedAt found index = some position}

/-- The right side of the equation. -/
def keyStep (forwarders : List Forwarder) (readers : Finset (List Char)) : Entries →o Entries where
  toFun entries key := {position | ∃ f ∈ forwarders, f.key = key ∧
    (position ∈ f.readsAt ∨ position ∈ f.passesAt readers (calleeKeys forwarders entries f.path))}
  monotone' := by
    rintro entries entries' hle key position
        ⟨f, hf, hkey, hreads | ⟨found, hfound, callee, hcallee, hreader, index, hindex, hat⟩⟩
    · exact ⟨f, hf, hkey, .inl hreads⟩
    · refine ⟨f, hf, hkey, .inr ⟨found, hfound, callee, hcallee, hreader, index, ?_, hat⟩⟩
      rcases hindex with ⟨hentry, hmem⟩ | ⟨hentry, file, hfile, hmem⟩
      · exact .inl ⟨hentry, hle _ hmem⟩
      · exact .inr ⟨hentry, file, hfile, hle _ hmem⟩

/-- The positions that a map holds. -/
def entriesOf (byFile : ByFile) : Entries :=
  fun key => {position | ∃ slot ∈ byFile.lookup key, position ∈ slot}

/-- A map with the entries of the forwarders and no others. -/
def HasEntries (forwarders : List Forwarder) (byFile : ByFile) : Prop :=
  ∀ key, (byFile.lookup key).isSome = true ↔ IsEntry forwarders key

/-- A missing entry has no positions. -/
theorem mem_getD_iff {byFile : ByFile} {key : List Char × List Char} {position : Nat} :
    position ∈ (byFile.lookup key).getD ∅ ↔ position ∈ entriesOf byFile key := by
  rw [entriesOf]
  cases byFile.lookup key <;> simp

/-! ## The first loop -/

/-- The direct reads are added to a slot. -/
theorem Forwarder.mem_directReads (f : Forwarder) (slot : Finset Nat) (position : Nat) :
    position ∈ f.directReads slot ↔ position ∈ slot ∨ position ∈ f.readsAt := by
  rw [Forwarder.directReads, Forwarder.readsAt]
  induction envReadRe.findIter (String.ofList f.quietBody) generalizing slot with
  | nil => simp
  | cons read reads ih =>
    rw [List.foldl_cons, ih]
    cases hread : parameterPosition (callArguments f.quietBody (read.stop - 1)) f.params with
    | none => simp [hread]
    | some p =>
      simp only [Finset.mem_insert, Set.mem_ofPred_eq, List.exists_mem_cons_iff, hread,
        Option.some.injEq]
      rw [or_assoc, or_left_comm, @eq_comm _ position p]

/-- One turn of the first loop. -/
theorem entriesOf_insert (byFile : ByFile) (key key' : List Char × List Char) (slot : Finset Nat) :
    entriesOf (byFile.insert key slot) key' = if key' = key then (slot : Set Nat)
      else entriesOf byFile key' := by
  ext position
  simp only [entriesOf, HashMap.lookup_insert_eq]
  split <;> simp

/-- Before the first pass every forwarder has its entry, with the direct reads in it. -/
theorem directPositions_spec (forwarders : List Forwarder) :
    HasEntries forwarders (directPositions forwarders) ∧
      ∀ key position, position ∈ entriesOf (directPositions forwarders) key ↔
        ∃ f ∈ forwarders, f.key = key ∧ position ∈ f.readsAt := by
  induction forwarders using List.reverseRecOn with
  | nil =>
    exact ⟨fun key => by simp [directPositions, IsEntry],
      fun key position => by simp [directPositions, entriesOf]⟩
  | append_singleton forwarders f ih =>
    have hlast : directPositions (forwarders ++ [f]) = (directPositions forwarders).insert f.key
        (f.directReads (((directPositions forwarders).lookup f.key).getD ∅)) := by
      rw [directPositions, List.foldl_append]
      rfl
    rw [hlast]
    refine ⟨fun key => ?_, fun key position => ?_⟩
    · rw [HashMap.lookup_insert_eq]
      have hkey := ih.1 key
      simp only [IsEntry] at hkey ⊢
      split
      · rename_i heq
        simp [heq]
      · rename_i hne
        simp [hkey, Ne.symm hne]
    · rw [entriesOf_insert]
      split
      · rename_i heq
        rw [Finset.mem_coe, f.mem_directReads, mem_getD_iff, ih.2, heq]
        simp [or_and_right, exists_or]
      · rename_i hne
        rw [ih.2]
        simp [or_and_right, exists_or, Ne.symm hne]

/-! ## The positions of a name -/

/-- Adding up the positions of a name over the files. -/
theorem foldl_addPositions (l : List (Sigma fun _ : List Char × List Char => Finset Nat))
    (byName : HashMap (List Char) (Finset Nat)) (name : List Char) :
    (((l.foldl addPositions byName).lookup name).isSome = true ↔
        (byName.lookup name).isSome = true ∨ ∃ e ∈ l, e.1.2 = name) ∧
      ∀ position, position ∈ ((l.foldl addPositions byName).lookup name).getD ∅ ↔
        position ∈ (byName.lookup name).getD ∅ ∨ ∃ e ∈ l, e.1.2 = name ∧ position ∈ e.2 := by
  induction l generalizing byName with
  | nil => simp
  | cons e l ih =>
    obtain ⟨hsome, hmem⟩ := ih (addPositions byName e)
    refine ⟨hsome.trans ?_, fun position => (hmem position).trans ?_⟩
    · rw [addPositions, HashMap.lookup_insert_eq]
      split
      · rename_i heq
        simp [heq]
      · rename_i hne
        simp [Ne.symm hne]
    · rw [addPositions, HashMap.lookup_insert_eq]
      split
      · rename_i heq
        subst heq
        simp [or_assoc]
      · rename_i hne
        simp [Ne.symm hne]

/-- A name has an entry if some file has one for it. -/
theorem isSome_byNameOf_iff (byFile : ByFile) (name : List Char) :
    ((byNameOf byFile).lookup name).isSome = true ↔
      ∃ file, (byFile.lookup (file, name)).isSome = true := by
  refine (foldl_addPositions byFile.entries ∅ name).1.trans ⟨?_, ?_⟩
  · rintro (h | ⟨⟨⟨file, name'⟩, slot⟩, he, rfl⟩)
    · simp at h
    · exact ⟨file, Option.isSome_iff_exists.2 ⟨slot, HashMap.lookup_eq_some_iff.2 he⟩⟩
  · rintro ⟨file, h⟩
    obtain ⟨slot, hslot⟩ := Option.isSome_iff_exists.1 h
    exact .inr ⟨_, HashMap.lookup_eq_some_iff.1 hslot, rfl⟩

/-- The positions of a name are those of all files. -/
theorem mem_byNameOf_iff (byFile : ByFile) (name : List Char) (position : Nat) :
    position ∈ ((byNameOf byFile).lookup name).getD ∅ ↔
      ∃ file, position ∈ entriesOf byFile (file, name) := by
  refine ((foldl_addPositions byFile.entries ∅ name).2 position).trans ⟨?_, ?_⟩
  · rintro (h | ⟨⟨⟨file, name'⟩, slot⟩, he, rfl, hp⟩)
    · simp at h
    · exact ⟨file, slot, HashMap.lookup_eq_some_iff.2 he, hp⟩
  · rintro ⟨file, slot, hslot, hp⟩
    exact .inr ⟨_, HashMap.lookup_eq_some_iff.1 hslot, rfl, hp⟩

/-! ## One forwarder -/

/-- What a pass sees of the callees of a forwarder. -/
def seenKeys (byFile : ByFile) (byName : HashMap (List Char) (Finset Nat))
    (path callee : List Char) : Set Nat :=
  calleePositions byFile byName path callee

/-- A call adds the positions that it passes on. -/
theorem grows_passCall (readers : Finset (List Char)) (byName : HashMap (List Char) (Finset Nat))
    (byFile : ByFile) (f : Forwarder) (slot : Finset Nat × Bool) (found : Match) :
    Grows {position | ∃ callee, (found.groups[0]?).join = some callee ∧ callee.toList ∈ readers ∧
      ∃ index ∈ seenKeys byFile byName f.path callee.toList, f.passedAt found index =
        some position} slot
        (passCall readers byFile byName f slot found) := by
  rw [passCall]
  split
  · rename_i hnone
    simpa [hnone] using Grows.refl slot
  · rename_i callee hcallee
    split
    · rename_i hreader
      simpa [hcallee, hreader] using Grows.refl slot
    · rename_i hreader
      rw [not_not] at hreader
      have hgrows := grows_foldl (fun slot index => grows_noteOption (f.passedAt found index) slot)
        ((calleePositions byFile byName f.path callee.toList).sort (· ≤ ·)) slot
      simpa [hcallee, hreader, seenKeys] using hgrows

/-- **One forwarder** adds to its entry what it passes on, as the pass sees it. -/
theorem passForwarder_spec (readers : Finset (List Char))
    (byName : HashMap (List Char) (Finset Nat)) {s : ByFile × Bool} {f : Forwarder}
    (hentry : (s.1.lookup f.key).isSome = true) :
    (∀ key, key ≠ f.key → (passForwarder readers byName s f).1.lookup key = s.1.lookup key) ∧
      ∃ slot, (passForwarder readers byName s f).1.lookup f.key = some slot ∧
        Grows (f.passesAt readers (seenKeys s.1 byName f.path)) ((s.1.lookup f.key).getD ∅, s.2)
          (slot, (passForwarder readers byName s f).2) := by
  have hsame : ∀ key, (s.1.insert f.key ((s.1.lookup f.key).getD ∅)).lookup key =
      s.1.lookup key := by
    intro key
    obtain ⟨slot, hslot⟩ := Option.isSome_iff_exists.1 hentry
    rw [HashMap.lookup_insert_eq]
    split
    · rename_i heq
      subst heq
      rw [hslot, Option.getD_some]
    · rfl
  have hseen : ∀ callee,
      calleePositions (s.1.insert f.key ((s.1.lookup f.key).getD ∅)) byName f.path callee =
      calleePositions s.1 byName f.path callee := by
    intro callee
    rw [calleePositions, hsame, calleePositions]
  -- the calls are generalized so that no comparison of folds runs the pattern over the body
  simp only [passForwarder, Forwarder.passesAt]
  generalize callRe.findIter (String.ofList f.quietBody) = calls
  refine ⟨fun key hne => ?_, (calls.foldl
    (passCall readers (s.1.insert f.key ((s.1.lookup f.key).getD ∅)) byName f)
      ((s.1.lookup f.key).getD ∅, s.2)).1, ?_, ?_⟩
  · simp only [HashMap.lookup_insert_eq, if_neg hne]
  · simp only [HashMap.lookup_insert_eq, if_true]
  · have hgrows := grows_foldl
        (grows_passCall readers byName (s.1.insert f.key ((s.1.lookup f.key).getD ∅)) f)
      calls ((s.1.lookup f.key).getD ∅, s.2)
    simp only [seenKeys, hseen] at hgrows
    exact hgrows

/-! ## One pass -/

/-- What a stretch of a pass does, over the forwarders of a list. -/
structure Passed (readers : Finset (List Char)) (byName : HashMap (List Char) (Finset Nat))
    (l : List Forwarder)
    (s s' : ByFile × Bool) : Prop where
  keys : ∀ key, (s'.1.lookup key).isSome = (s.1.lookup key).isSome
  grows : entriesOf s.1 ≤ entriesOf s'.1
  /-- a set of positions that no forwarder passes anything out of is not left -/
  within : ∀ bound : Entries, entriesOf s.1 ≤ bound →
    (∀ byFile : ByFile, (∀ key, (byFile.lookup key).isSome =
    (s.1.lookup key).isSome) → entriesOf byFile ≤ bound →
      ∀ f ∈ l, f.passesAt readers (seenKeys byFile byName f.path) ⊆ bound f.key) →
        entriesOf s'.1 ≤ bound
  /-- the flag is set where something was new -/
  loud : s'.2 = true → s.2 = true ∨ ∃ key position, position ∈ entriesOf s'.1 key ∧
    position ∉ entriesOf s.1 key
  /-- and where it is not set, nothing has changed and nothing that is passed on is missing -/
  quiet : s'.2 = false → s.2 = false ∧ (∀ key, s'.1.lookup key = s.1.lookup key) ∧
    ∀ f ∈ l, f.passesAt readers (seenKeys s.1 byName f.path) ⊆ entriesOf s.1 f.key

section Stretch

variable {forwarders : List Forwarder} {readers : Finset (List Char)}
  {byName : HashMap (List Char) (Finset Nat)}

/-- A forwarder's turn adds what its calls pass on. -/
theorem passed_forwarder {s : ByFile × Bool} {f : Forwarder}
    (hentry : (s.1.lookup f.key).isSome = true) :
    Passed readers byName [f] s (passForwarder readers byName s f) := by
  obtain ⟨hothers, slot, hslot, hgrows⟩ := passForwarder_spec readers byName hentry
  generalize passForwarder readers byName s f = after at hothers hslot hgrows ⊢
  have hentries : ∀ key position, position ∈ entriesOf after.1 key ↔
      position ∈ entriesOf s.1 key ∨ key = f.key ∧
        position ∈ f.passesAt readers (seenKeys s.1 byName f.path) := by
    intro key position
    by_cases hkey : key = f.key
    · subst hkey
      rw [← mem_getD_iff, hslot, Option.getD_some, hgrows.mem, mem_getD_iff]
      simp
    · simp [entriesOf, hothers key hkey, hkey]
  refine ⟨fun key => ?_, fun key position h => (hentries key position).2 (.inl h),
    fun bound hle hpasses key position h => ?_,
    fun h => ?_, fun h => ?_⟩
  · by_cases hkey : key = f.key
    · rw [hkey, hslot, hentry]
      rfl
    · rw [hothers key hkey]
  · rcases (hentries key position).1 h with hold | ⟨rfl, hnew⟩
    · exact hle key hold
    · exact hpasses s.1 (fun _ => rfl) hle f (List.mem_singleton_self f) hnew
  · rcases hgrows.flag.1 h with h | ⟨position, hnew, hnot⟩
    · exact .inl h
    · rw [mem_getD_iff] at hnot
      exact .inr ⟨f.key, position, (hentries _ _).2 (.inr ⟨rfl, hnew⟩), hnot⟩
  · have hflag : ¬ (s.2 = true ∨ ∃ position ∈ f.passesAt readers (seenKeys s.1 byName f.path),
        position ∉ (s.1.lookup f.key).getD ∅) := fun hor => by
      rw [hgrows.flag.2 hor] at h
      cases h
    rw [not_or] at hflag
    have hall : f.passesAt readers (seenKeys s.1 byName f.path) ⊆ entriesOf s.1 f.key := by
      intro position hnew
      by_contra hnot
      exact hflag.2 ⟨position, hnew, fun hmem => hnot (mem_getD_iff.1 hmem)⟩
    refine ⟨by simpa using hflag.1, fun key => ?_, fun g hg => by rwa [List.mem_singleton.1 hg]⟩
    by_cases hkey : key = f.key
    · obtain ⟨old, hold⟩ := Option.isSome_iff_exists.1 hentry
      have hsame : slot = old := by
        ext position
        rw [hgrows.mem, hold, Option.getD_some, or_iff_left_iff_imp]
        intro hnew
        have hmem := hall hnew
        rwa [← mem_getD_iff, hold, Option.getD_some] at hmem
      rw [hkey, hslot, hsame, hold]
    · exact hothers key hkey

/-- What a file sees depends on the lookups only. -/
theorem seenKeys_congr {byFile byFile' : ByFile} (h : ∀ key, byFile'.lookup key = byFile.lookup key)
    (path : List Char) :
    seenKeys byFile' byName path = seenKeys byFile byName path := by
  funext callee
  rw [seenKeys, seenKeys, calleePositions, h, calleePositions]

theorem entriesOf_congr {byFile byFile' : ByFile}
    (h : ∀ key, byFile'.lookup key = byFile.lookup key) :
    entriesOf byFile' = entriesOf byFile := by
  funext key
  rw [entriesOf, h, entriesOf]

/-- Stretches one after the other. -/
theorem Passed.cons {l : List Forwarder} {s s' s'' : ByFile × Bool} {f : Forwarder}
    (hf : Passed readers byName [f] s s')
    (hl : Passed readers byName l s' s'') : Passed readers byName (f :: l) s s'' := by
  refine ⟨fun key => (hl.keys key).trans (hf.keys key), hf.grows.trans hl.grows,
    fun bound hle hpasses => ?_, fun h => ?_,
    fun h => ?_⟩
  · refine hl.within bound (hf.within bound hle fun byFile hkeys hbyFile g hg => ?_)
      fun byFile hkeys hbyFile g hg => ?_
    · rw [List.mem_singleton.1 hg]
      exact hpasses byFile hkeys hbyFile f List.mem_cons_self
    · exact hpasses byFile (fun key => (hkeys key).trans (hf.keys key)) hbyFile g
        (List.mem_cons_of_mem _ hg)
  · rcases hl.loud h with h | ⟨key, position, hmem, hnot⟩
    · rcases hf.loud h with h | ⟨key, position, hmem, hnot⟩
      · exact .inl h
      · exact .inr ⟨key, position, hl.grows key hmem, hnot⟩
    · exact .inr ⟨key, position, hmem, fun hold => hnot (hf.grows key hold)⟩
  · obtain ⟨hquiet, hsame, hall⟩ := hl.quiet h
    obtain ⟨hquiet', hsame', hall'⟩ := hf.quiet hquiet
    refine ⟨hquiet', fun key => (hsame key).trans (hsame' key), fun g hg => ?_⟩
    rcases List.mem_cons.1 hg with rfl | hg
    · exact hall' g (List.mem_singleton_self g)
    · have hg := hall g hg
      rwa [seenKeys_congr hsame', entriesOf_congr hsame'] at hg

/-- **A stretch of a pass.** -/
theorem passed_foldl (l : List Forwarder) {s : ByFile × Bool}
    (hl : ∀ f ∈ l, (s.1.lookup f.key).isSome = true) :
    Passed readers byName l s (l.foldl (passForwarder readers byName) s) := by
  induction l generalizing s with
  | nil =>
    exact ⟨fun key => rfl, le_rfl, fun bound hle _ => hle, fun h => .inl h,
      fun h => ⟨h, fun key => rfl, by simp⟩⟩
  | cons f l ih =>
    have hf : Passed readers byName [f] s (passForwarder readers byName s f) :=
      passed_forwarder (hl f List.mem_cons_self)
    refine hf.cons (ih fun g hg => ?_)
    rw [hf.keys]
    exact hl g (List.mem_cons_of_mem _ hg)

/-! ## Below the least solution -/

/-- The least solution of the equation. -/
noncomputable def leastKeys (forwarders : List Forwarder) (readers : Finset (List Char)) :
    Entries :=
  OrderHom.lfp (keyStep forwarders readers)

/-- The least positions are a fixed point. -/
theorem keyStep_leastKeys :
    keyStep forwarders readers (leastKeys forwarders readers) = leastKeys forwarders readers :=
  OrderHom.map_lfp _

/-- A view of positions within the least solution shows no more than the least solution does. -/
theorem seenKeys_subset {byFile : ByFile} (hkeys : HasEntries forwarders byFile)
    (hbelow : entriesOf byFile ≤ leastKeys forwarders readers) (hnames : ∀ name position,
      position ∈ (byName.lookup name).getD ∅ → ∃ file, IsEntry forwarders (file, name) ∧
        position ∈ leastKeys forwarders readers (file, name)) (path callee : List Char) :
    seenKeys byFile byName path callee ⊆
      calleeKeys forwarders (leastKeys forwarders readers) path callee := by
  intro index hindex
  have hindex : index ∈ ((byFile.lookup (path, callee)).or (byName.lookup callee)).getD ∅ := hindex
  cases hlookup : byFile.lookup (path, callee) with
  | some slot =>
    rw [hlookup, Option.some_or, Option.getD_some] at hindex
    exact .inl ⟨(hkeys _).1 (by rw [hlookup]; rfl), hbelow _ ⟨slot, hlookup, hindex⟩⟩
  | none =>
    rw [hlookup, Option.none_or] at hindex
    have hnot : ¬ IsEntry forwarders (path, callee) := fun h => by
      have hsome := (hkeys _).2 h
      rw [hlookup] at hsome
      cases hsome
    exact .inr ⟨hnot, hnames callee index hindex⟩

/-- More positions at the callees give more at the caller. -/
theorem passesAt_mono {f : Forwarder} {keys keys' : List Char → Set Nat}
    (h : ∀ callee, keys callee ⊆ keys' callee) :
    f.passesAt readers keys ⊆ f.passesAt readers keys' := by
  rintro position ⟨found, hfound, callee, hcallee, hreader, index, hindex, hat⟩
  exact ⟨found, hfound, callee, hcallee, hreader, index, h _ hindex, hat⟩

end Stretch

/-! ## The loop -/

section Loop

variable {forwarders : List Forwarder} {readers : Finset (List Char)}

/-- What holds between the passes. -/
structure KeyInv (forwarders : List Forwarder) (readers : Finset (List Char)) (s : KeyPositions) :
    Prop where
  keys : HasEntries forwarders s.byFile
  reads : ∀ f ∈ forwarders, f.readsAt ⊆ entriesOf s.byFile f.key
  below : entriesOf s.byFile ≤ leastKeys forwarders readers

/-- The direct reads are below the least positions. -/
theorem keyInv_direct : KeyInv forwarders readers ⟨directPositions forwarders, ∅⟩ := by
  obtain ⟨hkeys, hentries⟩ := directPositions_spec forwarders
  refine ⟨hkeys, fun f hf position h => (hentries f.key position).2 ⟨f, hf, rfl, h⟩,
    fun key position h => ?_⟩
  obtain ⟨f, hf, rfl, hreads⟩ := (hentries key position).1 h
  rw [← keyStep_leastKeys]
  exact ⟨f, hf, rfl, .inl hreads⟩

/-- A pass takes every forwarder's turn. -/
theorem passed_keyPass {s : KeyPositions} (hs : KeyInv forwarders readers s) :
    Passed readers (byNameOf s.byFile) forwarders (s.byFile, false)
      ((keyPass forwarders readers s).1.byFile, (keyPass forwarders readers s).2) :=
  passed_foldl forwarders fun f hf => (hs.keys f.key).2 ⟨f, hf, rfl⟩

/-- A pass stays below the least positions. -/
theorem keyInv_keyPass {s : KeyPositions} (hs : KeyInv forwarders readers s) :
    KeyInv forwarders readers (keyPass forwarders readers s).1 := by
  have hpass := passed_keyPass hs
  refine ⟨fun key => ?_, fun f hf => (hs.reads f hf).trans (hpass.grows f.key), ?_⟩
  · rw [hpass.keys]
    exact hs.keys key
  · refine hpass.within _ hs.below fun byFile hkeys hbelow f hf position h => ?_
    have hentries : HasEntries forwarders byFile := fun key => by
      rw [hkeys]
      exact hs.keys key
    -- the names are those at the start of the pass: out of date, and within the least solution all
    -- the same
    have hnames : ∀ name position, position ∈ ((byNameOf s.byFile).lookup name).getD ∅ → ∃ file,
        IsEntry forwarders (file, name) ∧ position ∈ leastKeys forwarders readers (file, name) := by
      intro name position hmem
      obtain ⟨file, slot, hslot, hposition⟩ := (mem_byNameOf_iff s.byFile name position).1 hmem
      exact ⟨file, (hs.keys _).1 (Option.isSome_iff_exists.2 ⟨slot, hslot⟩),
        hs.below _ ⟨slot, hslot, hposition⟩⟩
    rw [← keyStep_leastKeys]
    exact ⟨f, hf, rfl, .inr (passesAt_mono (seenKeys_subset hentries hbelow hnames f.path) h)⟩

/-- **After a pass that found nothing new** the positions are the least solution. -/
theorem entriesOf_of_quiet {s : KeyPositions} (hs : KeyInv forwarders readers s)
    (hquiet : (keyPass forwarders readers s).2 = false) :
    (∀ key, (keyPass forwarders readers s).1.byFile.lookup key = s.byFile.lookup key) ∧
      entriesOf s.byFile = leastKeys forwarders readers := by
  obtain ⟨-, hsame, hall⟩ := (passed_keyPass hs).quiet hquiet
  refine ⟨hsame, le_antisymm hs.below (OrderHom.lfp_le _ ?_)⟩
  rintro key position ⟨f, hf, rfl, h | h⟩
  · exact hs.reads f hf h
  · refine hall f hf (passesAt_mono (fun callee index hindex => ?_) h)
    show index ∈ ((s.byFile.lookup (f.path, callee)).or ((byNameOf s.byFile).lookup callee)).getD ∅
    rcases hindex with ⟨hentry, slot, hslot, hmem⟩ | ⟨hentry, file, -, hmem⟩
    · have hslot : s.byFile.lookup (f.path, callee) = some slot := hslot
      rwa [hslot, Option.some_or, Option.getD_some]
    · have hnone : s.byFile.lookup (f.path, callee) = none := by
        rw [← Option.not_isSome_iff_eq_none]
        exact fun h => hentry ((hs.keys _).1 h)
      rw [hnone, Option.none_or, mem_byNameOf_iff]
      exact ⟨file, hmem⟩

/-! ### Its end -/

/-- Every parameter of every forwarder. -/
def allPositions (forwarders : List Forwarder) : Finset ((List Char × List Char) × Nat) :=
  (forwarders.flatMap fun f => (List.range f.params.length).map fun position => (f.key,
    position)).toFinset

/-- All positions are those of a forwarder's parameters. -/
theorem mem_allPositions_iff {entry : (List Char × List Char) × Nat} :
    entry ∈ allPositions forwarders ↔ ∃ f ∈ forwarders, f.key = entry.1 ∧
      entry.2 < f.params.length := by
  obtain ⟨key, position⟩ := entry
  simp only [allPositions, List.mem_toFinset, List.mem_flatMap, List.mem_map, List.mem_range,
    Prod.mk.injEq]
  constructor
  · rintro ⟨f, hf, p, hp, hkey, rfl⟩
    exact ⟨f, hf, hkey, hp⟩
  · rintro ⟨f, hf, hkey, hp⟩
    exact ⟨f, hf, position, hp, hkey, rfl⟩

/-- A parameter's position is one of the list. -/
theorem parameterPosition_lt {argument : List Char} {params : List (List Char)} {position : Nat}
    (h : parameterPosition argument params = some position) : position < params.length :=
  (List.findIdx?_eq_some_iff_getElem.1 h).1

/-- The least positions are positions of parameters. -/
theorem leastKeys_within {key : List Char × List Char} {position : Nat}
    (h : position ∈ leastKeys forwarders readers key) :
    (key, position) ∈ allPositions forwarders := by
  rw [← keyStep_leastKeys] at h
  obtain ⟨f, hf, hkey, hposition⟩ := h
  refine mem_allPositions_iff.2 ⟨f, hf, hkey, ?_⟩
  rcases hposition with ⟨read, -, hread⟩ | ⟨found, -, callee, -, -, index, -, hat⟩
  · exact parameterPosition_lt hread
  · rw [Forwarder.passedAt] at hat
    split at hat
    · exact parameterPosition_lt hat
    · cases hat

/-- How many positions have been found. -/
def keyRank (forwarders : List Forwarder) (s : KeyPositions) : Nat :=
  ((allPositions forwarders).filter fun entry => entry.2 ∈ (s.byFile.lookup entry.1).getD ∅).card

/-- A pass that changes something raises the rank. -/
theorem keyRank_lt {s : KeyPositions} (hs : KeyInv forwarders readers s)
    (hloud : (keyPass forwarders readers s).2 = true) :
    keyRank forwarders s < keyRank forwarders (keyPass forwarders readers s).1 := by
  have hpass := passed_keyPass hs
  obtain ⟨key, position, hmem, hnot⟩ := (hpass.loud hloud).resolve_left Bool.false_ne_true
  refine Finset.card_lt_card (Finset.ssubset_iff_of_subset ?_ |>.2 ⟨(key, position), ?_, ?_⟩)
  · intro entry hentry
    rw [Finset.mem_filter, mem_getD_iff] at hentry ⊢
    exact ⟨hentry.1, hpass.grows _ hentry.2⟩
  · rw [Finset.mem_filter, mem_getD_iff]
    exact ⟨leastKeys_within ((keyInv_keyPass hs).below _ hmem), hmem⟩
  · rw [Finset.mem_filter, mem_getD_iff]
    exact fun h => hnot h.2

end Loop

/-! ## The result -/

/-- What `forwarder_key_positions` is to find. -/
structure IsKeyPositions (forwarders : List Forwarder) (readers : Finset (List Char))
    (r : KeyPositions) : Prop where
  /-- an entry for each forwarder, and no other -/
  keys : HasEntries forwarders r.byFile
  /-- the positions solve the equation -/
  solves : keyStep forwarders readers (entriesOf r.byFile) = entriesOf r.byFile
  /-- and are within every other solution -/
  least : ∀ entries : Entries, keyStep forwarders readers entries = entries →
    entriesOf r.byFile ≤ entries
  /-- a name has an entry where a forwarder has that name -/
  names : ∀ name, (r.byName.lookup name).isSome = true ↔ ∃ file, IsEntry forwarders (file, name)
  /-- the positions of a name are those of all its entries -/
  union : ∀ name position, position ∈ (r.byName.lookup name).getD ∅ ↔
    ∃ file, position ∈ entriesOf r.byFile (file, name)

/-- A pass that changes nothing has reached the least positions. -/
theorem isKeyPositions_of_quiet {forwarders : List Forwarder} {readers : Finset (List Char)}
    {s : KeyPositions}
    (hs : KeyInv forwarders readers s) (hquiet : (keyPass forwarders readers s).2 = false) :
    IsKeyPositions forwarders readers (keyPass forwarders readers s).1 := by
  obtain ⟨hsame, hleast⟩ := entriesOf_of_quiet hs hquiet
  have hentries : entriesOf (keyPass forwarders readers s).1.byFile =
      leastKeys forwarders readers :=
    (entriesOf_congr hsame).trans hleast
  refine ⟨(keyInv_keyPass hs).keys, ?_, fun entries hsolves => ?_, fun name => ?_,
    fun name position => ?_⟩
  · rw [hentries, keyStep_leastKeys]
  · rw [hentries]
    exact OrderHom.lfp_le _ hsolves.le
  · refine (isSome_byNameOf_iff s.byFile name).trans ⟨?_, ?_⟩
    · rintro ⟨file, h⟩
      exact ⟨file, (hs.keys _).1 h⟩
    · rintro ⟨file, h⟩
      exact ⟨file, (hs.keys _).2 h⟩
  · rw [entriesOf_congr hsame]
    exact mem_byNameOf_iff s.byFile name position

/-- The loop ends, with what is to be found. -/
theorem forwarderKeyPositions_ends (forwarders : List Forwarder) (readers : Finset (List Char)) :
    ∃ fuel r, (∀ n, fuel ≤ n → forwarderKeyPositions n forwarders readers = some r) ∧
      IsKeyPositions forwarders readers r := by
  have hstart : KeyInv forwarders readers ⟨directPositions forwarders, ∅⟩ := keyInv_direct
  have hbound : ∀ s, KeyInv forwarders readers s →
      keyRank forwarders s ≤ (allPositions forwarders).card :=
    fun s _ => Finset.card_filter_le _ _
  obtain ⟨last, hlast, hquiet, hend⟩ := untilQuiet_ends (fun s hs => keyInv_keyPass hs) hbound
    (fun s hs hloud => keyRank_lt hs hloud) ((allPositions forwarders).card + 1) hstart
      (Nat.lt_succ_of_le (Nat.sub_le _ _))
  exact ⟨_, _, fun n hn => untilQuiet_mono hend hn, isKeyPositions_of_quiet hlast hquiet⟩

/-! ## The order of the forwarders -/

/-- The same positions under the same entries and names. -/
def SamePositions (r r' : KeyPositions) : Prop :=
  (∀ key, r.byFile.lookup key = r'.byFile.lookup key) ∧
    ∀ name, r.byName.lookup name = r'.byName.lookup name

/-- Two options of sets are the same where both are there or neither is, with the same elements. -/
theorem option_ext {a b : Option (Finset Nat)} (hsome : a.isSome = true ↔ b.isSome = true)
    (hmem : ∀ position, position ∈ a.getD ∅ ↔ position ∈ b.getD ∅) : a = b := by
  cases a with
  | none =>
    cases b with
    | none => rfl
    | some b => simp at hsome
  | some a =>
    cases b with
    | none => simp at hsome
    | some b => exact congrArg some (Finset.ext hmem)

/-- There is one result only. -/
theorem IsKeyPositions.unique {forwarders : List Forwarder} {readers : Finset (List Char)}
    {r r' : KeyPositions}
    (h : IsKeyPositions forwarders readers r) (h' : IsKeyPositions forwarders readers r') :
    SamePositions r r' := by
  have hentries : entriesOf r.byFile = entriesOf r'.byFile :=
    le_antisymm (h.least _ h'.solves) (h'.least _ h.solves)
  refine ⟨fun key => option_ext ((h.keys key).trans (h'.keys key).symm) fun position => ?_,
    fun name =>
    option_ext ((h.names name).trans (h'.names name).symm) fun position => ?_⟩
  · rw [mem_getD_iff, mem_getD_iff, hentries]
  · rw [h.union, h'.union, hentries]

theorem isEntry_perm {forwarders order : List Forwarder} (h : order.Perm forwarders) :
    IsEntry order = IsEntry forwarders := by
  funext key
  simp only [IsEntry, h.mem_iff]

/-- The order of the forwarders does not matter to a step. -/
theorem keyStep_perm {forwarders order : List Forwarder} (readers : Finset (List Char))
    (h : order.Perm forwarders) :
    keyStep order readers = keyStep forwarders readers := by
  have hcallee : calleeKeys order = calleeKeys forwarders := by
    funext entries path callee
    rw [calleeKeys, isEntry_perm h, calleeKeys]
  ext entries key position
  simp only [keyStep, hcallee, h.mem_iff]

/-- **The key positions are the least solution**: the loop ends with it, and in every order of the
forwarders with the same positions. -/
theorem key_positions_least (forwarders : List Forwarder) (readers : Finset (List Char)) :
    ∃ fuel r, (∀ n, fuel ≤ n → forwarderKeyPositions n forwarders readers = some r) ∧
      IsKeyPositions forwarders readers r ∧
        ∀ order : List Forwarder, order.Perm forwarders →
          ∃ fuel' r', (∀ n, fuel' ≤ n → forwarderKeyPositions n order readers = some r') ∧
            SamePositions r r' := by
  obtain ⟨fuel, r, hend, hr⟩ := forwarderKeyPositions_ends forwarders readers
  refine ⟨fuel, r, hend, hr, fun order horder => ?_⟩
  obtain ⟨fuel', r', hend', hr'⟩ := forwarderKeyPositions_ends order readers
  refine ⟨fuel', r', hend', hr.unique ⟨?_, ?_, ?_, ?_, hr'.union⟩⟩
  · intro key
    rw [← isEntry_perm horder]
    exact hr'.keys key
  · rw [← keyStep_perm readers horder]
    exact hr'.solves
  · rw [← keyStep_perm readers horder]
    exact hr'.least
  · intro name
    rw [← isEntry_perm horder]
    exact hr'.names name

end RtpMux.CheckGate
