import RtpMux.Tools.PyreDenotation
import Mathlib.Data.List.Chain
import Mathlib.Data.List.Find

/-!
# All matches of a pattern

`find_iter` searches, goes on behind the match it found, and one character further where that match
was empty. Python goes on at the end of the match in either case, and passes over the empty match
there only. The two agree exactly where Python never finds a match at the end of an empty one: where
a pattern can also match something at the place of an empty match, `find_iter` does not see it.
-/

namespace RtpMux.Pyre

/-! ## The loop -/

/-- The loop of `find_iter`. An empty match moves the scan one character further. -/
def Regex.findIterLoop (r : Regex) (chars : List Char) : Nat → Nat → List Found
  | 0, _ => []
  | fuel + 1, position =>
    if position ≤ chars.length then
      match r.searchFrom chars position with
      | none => []
      | some found =>
        found :: r.findIterLoop chars fuel (if found.stop = found.start then found.stop +
          1 else found.stop)
    else []

/-- What `find_iter` finds, before its groups are read. -/
def Regex.findIterFound (r : Regex) (text : String) : List Found :=
  r.findIterLoop (r.seen text.toList) (text.toList.length + 2) 0

/-- `find_iter`. -/
def Regex.findIter (r : Regex) (text : String) : List Match :=
  (r.findIterFound text).map (r.materialize text.toList)

/-- The loop of `replace_all`, from behind the match before. -/
def replaceLoop (chars replacement : List Char) : Nat → List Match → List Char
  | consumed, [] => chars.drop consumed
  | consumed, found :: rest =>
    (chars.take found.start).drop consumed ++ replacement ++
      replaceLoop chars replacement found.stop rest

/-- `replace_all`. -/
def Regex.replaceAll (r : Regex) (text replacement : String) : String :=
  String.ofList (replaceLoop text.toList replacement.toList 0 (r.findIter text))

/-! ## Python's matches -/

/-- All matches at a start, in the order of the backtracking. -/
def Regex.matchesAt (r : Regex) (chars : List Char) (start : Nat) : List Found :=
  (results r.root chars start r.emptyCaptures).map fun success => ⟨start, success.2, success.1⟩

/-- The one match that may not follow `previous`: the empty one at its end, where it is itself
empty. -/
def excluded (previous : Option Found) (m : Found) : Bool :=
  match previous with
  | none => false
  | some p => p.stop = p.start && m.start = p.stop && m.stop = p.stop

/-- The next match: the least start from the end of `previous` on, and the first of the matches
there. -/
def Regex.nextMatch (r : Regex) (chars : List Char) (previous : Option Found) : Option Found :=
  let first := (previous.map Found.stop).getD 0
  (List.range' first (chars.length + 1 - first)).findSome? fun start =>
    (r.matchesAt chars start).find? fun m => !excluded previous m

/-- The matches after `previous`, to the last one. -/
inductive Regex.IsIteration (r : Regex) (chars : List Char) : Option Found → List Found → Prop
  | done {previous : Option Found} : r.nextMatch chars previous = none →
    r.IsIteration chars previous []
  | next {previous : Option Found} {m : Found} {ms : List Found} : r.nextMatch chars previous =
    some m →
      r.IsIteration chars (some m) ms → r.IsIteration chars previous (m :: ms)

/-- Python's `finditer`, with at least as much fuel as there can be matches. -/
def Regex.pythonLoop (r : Regex) (chars : List Char) : Nat → Option Found → List Found
  | 0, _ => []
  | fuel + 1, previous =>
    match r.nextMatch chars previous with
    | none => []
    | some m => m :: r.pythonLoop chars fuel (some m)

/-- All matches, as Python goes on from one to the next. -/
def Regex.pythonIter (r : Regex) (chars : List Char) : List Found :=
  r.pythonLoop chars (2 * chars.length + 3) none

/-! ## One search -/

/-- With nothing more to match, the first success counts. -/
theorem findSome_accepted_acceptAny (successes : List Success) :
    successes.findSome? (accepted acceptAny) = successes.head? := by
  cases successes <;> rfl

/-- An attempt that accepts every end finds the first match. -/
theorem Regex.attempt_eq_head (r : Regex) (chars : List Char) (start : Nat) :
    r.attempt chars start acceptAny = (r.matchesAt chars start).head? := by
  rw [Regex.attempt,
    run_eq_firstAccepted r.root chars start r.emptyCaptures acceptAny restores_acceptAny,
    firstAccepted, findSome_accepted_acceptAny, Regex.matchesAt]
  cases results r.root chars start r.emptyCaptures <;> rfl

/-- A match begins where it is tried. -/
theorem Regex.start_of_mem {r : Regex} {chars : List Char} {start : Nat} {m : Found}
    (h : m ∈ r.matchesAt chars start) : m.start = start := by
  obtain ⟨success, -, rfl⟩ := List.mem_map.1 h
  rfl

/-- A match goes forward. -/
theorem Regex.forward_of_mem {r : Regex} {chars : List Char} {start : Nat} {m : Found}
    (h : m ∈ r.matchesAt chars start) : Forward chars m.start m.stop := by
  obtain ⟨success, hmem, rfl⟩ := List.mem_map.1 h
  exact engineDenotes_forward r.root chars start success.2
    ((mem_results_iff r.root chars start r.emptyCaptures success.2).1 ⟨success.1, hmem⟩)

/-- What a walk over starts finds: the match stands at one of them. -/
structure IsFoundFrom (chars : List Char) (first : Nat) (m : Found) : Prop where
  start : first ≤ m.start
  bound : m.start ≤ chars.length
  forward : Forward chars m.start m.stop

/-- A match lies inside the text. -/
theorem IsFoundFrom.stop_le {chars : List Char} {first : Nat} {m : Found}
    (h : IsFoundFrom chars first m) :
    m.start ≤ m.stop ∧ m.stop ≤ chars.length := by
  obtain ⟨-, hbound, hle, hstop⟩ := h
  omega

/-- A search finds what is there. -/
theorem Regex.searchFrom_isFound {r : Regex} {chars : List Char} {first : Nat} {m : Found}
    (h : r.searchFrom chars first = some m) : IsFoundFrom chars first m := by
  obtain ⟨start, hstart, hm⟩ := List.exists_of_findSome?_eq_some h
  rw [List.mem_range'_1] at hstart
  rw [r.attempt_eq_head] at hm
  have hmem := List.mem_of_mem_head? hm
  have heq := Regex.start_of_mem hmem
  exact ⟨by omega, by omega, Regex.forward_of_mem hmem⟩

/-- The next match is there. -/
theorem Regex.nextMatch_isFound {r : Regex} {chars : List Char} {previous : Option Found}
    {m : Found}
    (h : r.nextMatch chars previous = some m) :
    IsFoundFrom chars ((previous.map Found.stop).getD 0) m ∧ excluded previous m = false := by
  obtain ⟨start, hstart, hm⟩ := List.exists_of_findSome?_eq_some h
  rw [List.mem_range'_1] at hstart
  have hmem := List.mem_of_find?_eq_some hm
  have heq := Regex.start_of_mem hmem
  have hnot := List.find?_some hm
  exact ⟨⟨by omega, by omega, Regex.forward_of_mem hmem⟩, by simpa using hnot⟩

/-- Where the scan goes on. -/
def position (previous : Option Found) : Nat :=
  match previous with
  | none => 0
  | some p => if p.stop = p.start then p.stop + 1 else p.stop

theorem find?_of_all {α : Type} {p : α → Bool} {xs : List α} (h : ∀ x ∈ xs, p x = true) :
    xs.find? p = xs.head? := by
  cases xs with
  | nil => rfl
  | cons x xs => rw [List.find?_cons_of_pos (h x (by simp)), List.head?_cons]

theorem findSome?_congr {α β : Type} {f g : α → Option β} {xs : List α} (h : ∀ x ∈ xs, f x = g x) :
    xs.findSome? f = xs.findSome? g := by
  induction xs with
  | nil => rfl
  | cons x xs ih =>
    rw [List.findSome?_cons, List.findSome?_cons, h x (by simp),
      ih fun y hy => h y (List.mem_cons_of_mem _ hy)]

/-- A search takes the first start that has a match. -/
theorem Regex.searchFrom_eq (r : Regex) (chars : List Char) (first : Nat) :
    r.searchFrom chars first =
      (List.range' first (chars.length + 1 - first)).findSome? fun start =>
        (r.matchesAt chars start).head? := by
  simp only [Regex.searchFrom, r.attempt_eq_head]

/-- Behind a match that is not empty nothing is passed over. -/
theorem Regex.nextMatch_of_not_empty {r : Regex} {chars : List Char} {previous : Option Found}
    (h : ∀ p, previous = some p → p.stop ≠ p.start) :
    r.nextMatch chars previous = r.searchFrom chars (position previous) := by
  have hfirst : (previous.map Found.stop).getD 0 = position previous := by
    cases previous with
    | none => rfl
    | some p => simp [position, h p rfl]
  have hnone (m : Found) : (!excluded previous m) = true := by
    cases previous with
    | none => rfl
    | some p => simp [excluded, h p rfl]
  rw [Regex.searchFrom_eq, Regex.nextMatch, hfirst]
  simp only [find?_of_all fun m _ => hnone m]

/-- Behind an empty match the other matches at its place come first, and then what the scan would
find. -/
theorem Regex.nextMatch_of_empty {r : Regex} {chars : List Char} {p : Found}
    (hempty : p.stop = p.start)
    (hbound : p.stop ≤ chars.length) :
    r.nextMatch chars (some p) =
      ((r.matchesAt chars p.stop).find? (·.stop ≠ p.stop)).or
        (r.searchFrom chars (position (some p))) := by
  have hrange : List.range' p.stop (chars.length + 1 - p.stop) =
      p.stop :: List.range' (p.stop + 1) (chars.length + 1 - (p.stop + 1)) := by
    rw [show chars.length + 1 - p.stop = chars.length - p.stop + 1 by omega, List.range'_succ]
    congr 2
    omega
  have hhere : (r.matchesAt chars p.stop).find? (fun m => !excluded (some p) m) =
      (r.matchesAt chars p.stop).find? (·.stop ≠ p.stop) := by
    refine List.find?_congr fun m hm => ?_
    simp [excluded, hempty, Regex.start_of_mem hm]
  have hlater : (List.range' (p.stop + 1) (chars.length + 1 - (p.stop + 1))).findSome? (fun start =>
      (r.matchesAt chars start).find? fun m => !excluded (some p) m) =
        r.searchFrom chars (p.stop + 1) := by
    rw [Regex.searchFrom_eq]
    refine findSome?_congr fun start hstart => ?_
    rw [List.mem_range'_1] at hstart
    refine find?_of_all fun m hm => ?_
    have hstart' := Regex.start_of_mem hm
    have hne : ¬ m.start = p.stop := by omega
    simp [excluded, hne]
  have hposition : position (some p) = p.stop + 1 := if_pos hempty
  rw [Regex.nextMatch, Option.map_some, Option.getD_some, hrange, List.findSome?_cons, hhere,
    hlater, hposition]
  cases (r.matchesAt chars p.stop).find? (·.stop ≠ p.stop) <;> rfl

/-- Two matches in a row do not restart: none begins where an empty one before it ended. -/
def NoRestart (m n : Found) : Prop := m.stop = m.start → n.start ≠ m.stop

/-- The scan finds Python's next match, if that is no restart. -/
theorem Regex.searchFrom_of_nextMatch {r : Regex} {chars : List Char} {previous : Option Found}
    (hbound : ∀ p, previous = some p → p.stop ≤ chars.length)
    (hnext : ∀ p m, previous = some p → r.nextMatch chars previous = some m → NoRestart p m) :
    r.searchFrom chars (position previous) = r.nextMatch chars previous := by
  by_cases hempty : ∃ p, previous = some p ∧ p.stop = p.start
  · obtain ⟨p, rfl, hp⟩ := hempty
    rw [Regex.nextMatch_of_empty hp (hbound p rfl)]
    cases hother : (r.matchesAt chars p.stop).find? (·.stop ≠ p.stop) with
    | none => rfl
    | some m =>
      have hrestart :=
        hnext p m rfl (by rw [Regex.nextMatch_of_empty hp (hbound p rfl), hother]; rfl) hp
      exact absurd (Regex.start_of_mem (List.mem_of_find?_eq_some hother)) hrestart
  · exact (Regex.nextMatch_of_not_empty fun p hp hstop => hempty ⟨p, hp, hstop⟩).symm

/-! ## The loop and the iteration -/

/-- Nothing found ends the iteration. -/
theorem Regex.findIterLoop_of_none {r : Regex} {chars : List Char} {first : Nat}
    (h : r.searchFrom chars first = none) (fuel : Nat) : r.findIterLoop chars fuel first = [] := by
  cases fuel with
  | zero => rfl
  | succ fuel =>
    rw [Regex.findIterLoop]
    split
    · rw [h]
    · rfl

/-- A match goes on behind its end. -/
theorem Regex.findIterLoop_of_some {r : Regex} {chars : List Char} {first fuel : Nat} {m : Found}
    (h : r.searchFrom chars first = some m) :
    r.findIterLoop chars (fuel + 1) first = m :: r.findIterLoop chars fuel (position (some m)) := by
  have hfound := Regex.searchFrom_isFound h
  rw [Regex.findIterLoop, if_pos (hfound.start.trans hfound.bound), h]
  rfl

/-- Each match moves the scan. -/
theorem lt_position {chars : List Char} {first : Nat} {m : Found} (h : IsFoundFrom chars first m) :
    first < position (some m) ∧ position (some m) ≤ chars.length + 1 := by
  have hstart := h.start
  have hstop := h.stop_le
  unfold position
  dsimp only
  split
  · omega
  · omega

/-- **The loop ends.** More fuel than one unit for each place finds nothing more. -/
theorem Regex.findIterLoop_fuel (r : Regex) (chars : List Char) {fuel fuel' first : Nat}
    (h : chars.length + 2 ≤ fuel + first) (h' : chars.length + 2 ≤ fuel' + first) :
    r.findIterLoop chars fuel first = r.findIterLoop chars fuel' first := by
  induction fuel generalizing fuel' first with
  | zero =>
    have hpast : ¬ first ≤ chars.length := by omega
    cases fuel' with
    | zero => rfl
    | succ fuel' => rw [Regex.findIterLoop, Regex.findIterLoop, if_neg hpast]
  | succ fuel ih =>
    cases hsearch : r.searchFrom chars first with
    | none => rw [Regex.findIterLoop_of_none hsearch, Regex.findIterLoop_of_none hsearch]
    | some m =>
      have hfound := Regex.searchFrom_isFound hsearch
      obtain ⟨hlt, hle⟩ := lt_position hfound
      obtain ⟨fuel', rfl⟩ : ∃ n, fuel' = n + 1 :=
        ⟨fuel' - 1, by have := hfound.start; have := hfound.bound; omega⟩
      rw [Regex.findIterLoop_of_some hsearch, Regex.findIterLoop_of_some hsearch]
      exact congrArg (m :: ·) (ih (by omega) (by omega))

/-- Each match begins where the scan went on from the one before, or later. -/
theorem Regex.findIterLoop_ordered (r : Regex) (chars : List Char) (fuel first : Nat) :
    (∀ m ∈ r.findIterLoop chars fuel first, IsFoundFrom chars first m) ∧
      (r.findIterLoop chars fuel first).Pairwise fun m n => position (some m) ≤ n.start := by
  induction fuel generalizing first with
  | zero => exact ⟨fun m hm => absurd hm List.not_mem_nil, .nil⟩
  | succ fuel ih =>
    cases hsearch : r.searchFrom chars first with
    | none =>
      rw [Regex.findIterLoop_of_none hsearch]
      exact ⟨fun m hm => absurd hm List.not_mem_nil, .nil⟩
    | some found =>
      have hfound := Regex.searchFrom_isFound hsearch
      have hlt := (lt_position hfound).1
      obtain ⟨hlater, hpairwise⟩ := ih (position (some found))
      rw [Regex.findIterLoop_of_some hsearch]
      refine ⟨fun m hm => ?_, .cons (fun m hm => (hlater m hm).start) hpairwise⟩
      rcases List.mem_cons.1 hm with rfl | hm
      · exact hfound
      · have hm := hlater m hm
        exact ⟨hlt.le.trans hm.start, hm.bound, hm.forward⟩

/-- Each match is one of those at its start. -/
theorem Regex.mem_findIterLoop {r : Regex} {chars : List Char} {fuel first : Nat} {m : Found}
    (h : m ∈ r.findIterLoop chars fuel first) : m ∈ r.matchesAt chars m.start := by
  induction fuel generalizing first with
  | zero => cases h
  | succ fuel ih =>
    cases hsearch : r.searchFrom chars first with
    | none =>
      rw [Regex.findIterLoop_of_none hsearch] at h
      cases h
    | some found =>
      rw [Regex.findIterLoop_of_some hsearch] at h
      rcases List.mem_cons.1 h with rfl | hm
      · obtain ⟨start, -, hattempt⟩ := List.exists_of_findSome?_eq_some hsearch
        rw [r.attempt_eq_head] at hattempt
        have hmem := List.mem_of_mem_head? hattempt
        rwa [Regex.start_of_mem hmem]
      · exact ih hm

theorem stop_le_position (m : Found) : m.stop ≤ position (some m) := by
  unfold position
  dsimp only
  split
  · omega
  · omega

/-- No match of the loop is a restart. -/
theorem Regex.findIterLoop_noRestart (r : Regex) (chars : List Char) (fuel first : Nat) :
    (r.findIterLoop chars fuel first).IsChain NoRestart := by
  refine ((r.findIterLoop_ordered chars fuel first).2.imp fun {m n} h hempty => ?_).isChain
  have hposition : position (some m) = m.stop + 1 := if_pos hempty
  omega

/-- How far an iteration has come: the end of its last match, and a little further where that was
empty. -/
def rank : Option Found → Nat
  | none => 0
  | some p => 2 * p.stop + if p.stop = p.start then 2 else 1

/-- The next match is further on. -/
theorem rank_lt {r : Regex} {chars : List Char} {previous : Option Found} {m : Found}
    (h : r.nextMatch chars previous = some m) : rank previous < rank (some m) := by
  obtain ⟨⟨hstart, hbound, hle, hstop⟩, hexcluded⟩ := Regex.nextMatch_isFound h
  cases previous with
  | none =>
    simp only [rank]
    split
    · omega
    · omega
  | some p =>
    simp only [excluded, Bool.and_eq_false_iff, decide_eq_false_iff_not] at hexcluded
    simp only [Option.map_some, Option.getD_some] at hstart
    simp only [rank]
    split
    · split
      · omega
      · omega
    · split
      · omega
      · omega

/-- **Python's iteration ends**, and is an iteration. -/
theorem Regex.isIteration_pythonLoop (r : Regex) (chars : List Char) {fuel : Nat}
    {previous : Option Found}
    (hbound : ∀ p, previous = some p → p.stop ≤ chars.length)
    (h : 2 * chars.length + 3 ≤ fuel + rank previous) :
    r.IsIteration chars previous (r.pythonLoop chars fuel previous) := by
  induction fuel generalizing previous with
  | zero =>
    cases previous with
    | none =>
      simp only [rank] at h
      omega
    | some p =>
      have hp := hbound p rfl
      simp only [rank] at h
      split at h
      · omega
      · omega
  | succ fuel ih =>
    rw [Regex.pythonLoop]
    cases hnext : r.nextMatch chars previous with
    | none => exact .done hnext
    | some m =>
      have hlt := rank_lt hnext
      refine .next hnext (ih (fun p hp => ?_) (by omega))
      cases hp
      exact (Regex.nextMatch_isFound hnext).1.stop_le.2

/-- An iteration is one. -/
theorem Regex.IsIteration.unique {r : Regex} {chars : List Char} {previous : Option Found}
    {ms ns : List Found}
    (hm : r.IsIteration chars previous ms) (hn : r.IsIteration chars previous ns) : ms = ns := by
  induction hm generalizing ns with
  | done hnone =>
    cases hn with
    | done => rfl
    | next hsome =>
      rw [hnone] at hsome
      cases hsome
  | next hsome _ ih =>
    cases hn with
    | done hnone =>
      rw [hsome] at hnone
      cases hnone
    | next hsome' hrest =>
      rw [hsome] at hsome'
      cases hsome'
      rw [ih hrest]

/-- An iteration without a restart is what the loop finds. -/
theorem Regex.IsIteration.findIterLoop {r : Regex} {chars : List Char} {previous : Option Found}
    {ms : List Found}
    (h : r.IsIteration chars previous ms) (hbound : ∀ p, previous = some p → p.stop ≤ chars.length)
    (hchain : (previous.toList ++ ms).IsChain NoRestart) {fuel : Nat}
    (hfuel : chars.length + 2 ≤ fuel + position previous) :
    r.findIterLoop chars fuel (position previous) = ms := by
  induction h generalizing fuel with
  | done hnone =>
    refine Regex.findIterLoop_of_none ?_ fuel
    rw [Regex.searchFrom_of_nextMatch hbound fun p m _ hsome => ?_, hnone]
    rw [hnone] at hsome
    cases hsome
  | @next previous m ms hsome hrest ih =>
    have hsearch : r.searchFrom chars (position previous) = some m := by
      rw [Regex.searchFrom_of_nextMatch hbound fun p n hp hn => ?_, hsome]
      rw [hsome] at hn
      cases hn
      rw [hp] at hchain
      exact (List.isChain_cons_cons.1 hchain).1
    have hfound := Regex.searchFrom_isFound hsearch
    obtain ⟨hlt, hle⟩ := lt_position hfound
    obtain ⟨fuel, rfl⟩ : ∃ n, fuel = n + 1 :=
      ⟨fuel - 1, by have := hfound.start; have := hfound.bound; omega⟩
    rw [Regex.findIterLoop_of_some hsearch, ih ?_ ?_ (by omega)]
    · rintro p ⟨⟩
      exact hfound.stop_le.2
    · cases previous with
      | none => exact hchain
      | some p => exact (List.isChain_cons_cons.1 hchain).2

/-! ## Replacing -/

/-- A text in which each match, from `consumed` on, is replaced by a text of its own. -/
def splice (chars : List Char) : Nat → List (Found × List Char) → List Char
  | consumed, [] => chars.drop consumed
  | consumed, (m, word) :: rest =>
    (chars.take m.start).drop consumed ++ word ++ splice chars m.stop rest

/-- The text of a match. -/
def Found.own (m : Found) (chars : List Char) : List Char := (chars.take m.stop).drop m.start

/-- Replacing is splicing. -/
theorem replaceLoop_eq_splice (r : Regex) (chars replacement : List Char) (consumed : Nat)
    (ms : List Found) :
    replaceLoop chars replacement consumed (ms.map (r.materialize chars)) =
      splice chars consumed (ms.map fun m => (m, replacement)) := by
  induction ms generalizing consumed with
  | nil => rfl
  | cons m ms ih =>
    simp only [List.map_cons, replaceLoop, splice, ih]
    rfl

/-- Ordered spans cut a text into pieces that make it up again. -/
theorem splice_own {chars : List Char} {consumed : Nat} {ms : List Found}
    (hfound : ∀ m ∈ ms, consumed ≤ m.start ∧ m.start ≤ m.stop ∧ m.stop ≤ chars.length)
    (hordered : ms.Pairwise fun m n => m.stop ≤ n.start) :
    splice chars consumed (ms.map fun m => (m, m.own chars)) = chars.drop consumed := by
  induction ms generalizing consumed with
  | nil => rfl
  | cons m ms ih =>
    obtain ⟨hstart, hle, hstop⟩ := hfound m (by simp)
    have hrest : splice chars m.stop (ms.map fun m => (m, m.own chars)) = chars.drop m.stop :=
      ih (fun n hn => ⟨List.rel_of_pairwise_cons hordered hn,
        (hfound n (List.mem_cons_of_mem _ hn)).2⟩)
        hordered.of_cons
    have hcut {i j : Nat} (h : i ≤ j) : (chars.take j).drop i ++ chars.drop j = chars.drop i := by
      rw [List.drop_take, ← Nat.add_sub_of_le h, Nat.add_sub_cancel_left, ← List.drop_drop,
        List.take_append_drop]
    rw [List.map_cons, splice, hrest, Found.own, List.append_assoc, hcut hle, hcut hstart]

/-! ## The matches in Python -/

/-- **Python's `finditer`.** The loop ends with the matches `ms`, whose spans are in order; the
first is that of a search and each further one is the next, to the last; and `replace_all` replaces
just their spans. -/
structure Regex.IsFinditer (r : Regex) (text : String) (ms : List Found) : Prop where
  ends : ∀ fuel, text.toList.length + 2 ≤ fuel → r.findIterLoop (r.seen text.toList) fuel 0 = ms
  spans : ms.Pairwise (fun m n => m.stop ≤ n.start) ∧
    ∀ m ∈ ms, m.start ≤ m.stop ∧ m.stop ≤ text.toList.length
  first : ms.head? = r.searchFrom (r.seen text.toList) 0
  iteration : r.IsIteration (r.seen text.toList) none ms
  replaced : ∀ replacement : String,
    (r.replaceAll text replacement).toList =
      splice text.toList 0 (ms.map fun m => (m, replacement.toList))
  kept : splice text.toList 0 (ms.map fun m => (m, m.own text.toList)) = text.toList

theorem Regex.length_seen (r : Regex) (chars : List Char) :
    (r.seen chars).length = chars.length := by
  unfold Regex.seen
  split
  · exact List.length_map _
  · rfl

/-- Python's iteration is one. -/
theorem Regex.isIteration_pythonIter (r : Regex) (chars : List Char) :
    r.IsIteration chars none (r.pythonIter chars) :=
  r.isIteration_pythonLoop chars (by simp) (by simp [rank])

/-- **`find_iter`.** It is Python's exactly where Python never restarts at an empty match. -/
theorem find_iter_iff (r : Regex) (text : String) :
    r.IsFinditer text (r.findIterFound text) ↔
      (r.pythonIter (r.seen text.toList)).IsChain NoRestart := by
  have hlength := r.length_seen text.toList
  have hpython := r.isIteration_pythonIter (r.seen text.toList)
  obtain ⟨hfound, hpairwise⟩ :=
    r.findIterLoop_ordered (r.seen text.toList) (text.toList.length + 2) 0
  constructor
  · intro h
    rw [hpython.unique h.iteration]
    exact r.findIterLoop_noRestart _ _ _
  · intro hchain
    have heq : r.findIterFound text = r.pythonIter (r.seen text.toList) :=
      hpython.findIterLoop (by simp) hchain (by rw [hlength]; exact Nat.le_refl _)
    have hspans : ∀ m ∈ r.findIterFound text, m.start ≤ m.stop ∧ m.stop ≤ text.toList.length := by
      intro m hm
      have hstop := (hfound m hm).stop_le
      omega
    have hordered : (r.findIterFound text).Pairwise fun m n => m.stop ≤ n.start :=
      hpairwise.imp fun {m n} h => (stop_le_position m).trans h
    refine ⟨fun fuel hfuel => ?_, ⟨hordered, hspans⟩, ?_, heq ▸ hpython, fun replacement => ?_, ?_⟩
    · exact r.findIterLoop_fuel _ (by omega) (by omega)
    · unfold Regex.findIterFound
      cases hsearch : r.searchFrom (r.seen text.toList) 0 with
      | none => rw [Regex.findIterLoop_of_none hsearch, List.head?_nil]
      | some m => rw [Regex.findIterLoop_of_some hsearch, List.head?_cons]
    · rw [Regex.replaceAll, Regex.findIter, replaceLoop_eq_splice, String.toList_ofList]
    · exact splice_own (fun m hm => ⟨Nat.zero_le _, hspans m hm⟩) hordered

/-- `a*?` on `a`: Python finds the empty match, then `a` at the same place, then the empty match
behind it. The loop does not find `a`. -/
theorem find_iter_misses_restart :
    ∃ r, Regex.new "a*?" false = .ok r ∧
      (r.findIterFound "a").map (fun m => (m.start, m.stop)) = [(0, 0), (1, 1)] ∧
      (r.pythonIter "a".toList).map (fun m => (m.start, m.stop)) = [(0, 0), (0, 1), (1, 1)] ∧
      ¬ r.IsFinditer "a" (r.findIterFound "a") := by
  have hfound : (Regex.mk (.repeat (.char 'a') 0 unbounded false)
      [] 0 false |>.findIterFound "a").map
      (fun m => (m.start, m.stop)) = [(0, 0), (1, 1)] := by decide +kernel
  have hpython : (Regex.mk (.repeat (.char 'a') 0 unbounded false)
      [] 0 false |>.pythonIter "a".toList).map
      (fun m => (m.start, m.stop)) = [(0, 0), (0, 1), (1, 1)] := by decide +kernel
  refine ⟨⟨.repeat (.char 'a') 0 unbounded false, [], 0, false⟩, rfl, hfound, hpython, fun h => ?_⟩
  have heq := (Regex.isIteration_pythonIter _ _).unique h.iteration
  rw [← heq] at hfound
  cases hfound.symm.trans hpython

end RtpMux.Pyre
