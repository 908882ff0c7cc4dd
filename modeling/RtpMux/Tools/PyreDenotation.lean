import Mathlib.Order.Nat
import RtpMux.Iteration
import RtpMux.Tools.PyreResults

/-!
# What a pattern denotes

A pattern denotes a relation between positions of a text: leaves are what the matcher's
own leaf cases accept, `concat` is composition, `alt` is union, a lookahead is a
zero-width test, and `repeat` is the union of the compositions its counts allow.

The engine matches the same relation with one change: an iteration of `repeat` that does
not advance is cut off, also below the lower count (`mem_results_iff`). Both
relations are `DenotesWith` at two readings of `repeat`, so the comparison of the engine
with the standard meaning is the comparison of `Counted r` with `Counted (Advance r)`.
-/

namespace RtpMux.Pyre

/-- A reading of `repeat`: from the inner relation and the counts to a relation. -/
abbrev Repetition := (Nat → Nat → Prop) → Nat → Nat → Nat → Nat → Prop

mutual

/-- The relation of a pattern, for one reading of `repeat`. -/
def DenotesWith (rep : Repetition) (text : List Char) : Node → Nat → Nat → Prop
  | .group _ inner => DenotesWith rep text inner
  | .look inner positive => fun i j =>
    j = i ∧ ((∃ e, DenotesWith rep text inner i e) ↔ positive = true)
  | .concat items => DenotesAllWith rep text items
  | .alt branches => DenotesAnyWith rep text branches
  | .repeat inner min max _ => rep (DenotesWith rep text inner) min max
  | .char expected => fun i j => leafStop (.char expected) text i = some j
  | .any => fun i j => leafStop .any text i = some j
  | .cls negate items => fun i j => leafStop (.cls negate items) text i = some j
  | .start multiline => fun i j => leafStop (.start multiline) text i = some j
  | .stop multiline => fun i j => leafStop (.stop multiline) text i = some j
  | .wordBoundary => fun i j => leafStop .wordBoundary text i = some j
  | .notWordBoundary => fun i j => leafStop .notWordBoundary text i = some j
  | .textStart => fun i j => leafStop .textStart text i = some j
  | .textEnd => fun i j => leafStop .textEnd text i = some j

/-- The composition of a list of patterns. -/
def DenotesAllWith (rep : Repetition) (text : List Char) : List Node → Nat → Nat → Prop
  | [] => Eq
  | first :: rest => Relation.Comp (DenotesWith rep text first) (DenotesAllWith rep text rest)

/-- The union of a list of patterns. -/
def DenotesAnyWith (rep : Repetition) (text : List Char) : List Node → Nat → Nat → Prop
  | [] => fun _ _ => False
  | branch :: branches => fun i j =>
    DenotesWith rep text branch i j ∨ DenotesAnyWith rep text branches i j

end

/-- **The standard denotation**: `repeat` is the union of the compositions from `min` to `max`,
empty iterations counted. -/
def Denotes (node : Node) (text : List Char) : Nat → Nat → Prop := DenotesWith Counted text node

/-- The engine's reading: iterations that do not advance are cut off. -/
def EngineDenotes (node : Node) (text : List Char) : Nat → Nat → Prop :=
  DenotesWith (fun r => Counted (Advance r)) text node

/-! ## Where a pattern can end -/

/-- A step of the text: forward, and not past its end. -/
def Forward (text : List Char) (i j : Nat) : Prop := i ≤ j ∧ (i < j → j ≤ text.length)

theorem Forward.refl (text : List Char) (i : Nat) : Forward text i i := ⟨Nat.le_refl i, by omega⟩

/-- Forward twice is forward. -/
theorem Forward.trans {text : List Char} {i j e : Nat} (h₁ : Forward text i j)
    (h₂ : Forward text j e) : Forward text i e := by
  unfold Forward at *
  omega

/-- Forward many times is forward. -/
theorem Forward.iterate {text : List Char} {r : Nat → Nat → Prop} {n i j : Nat}
    (hr : ∀ i j, r i j → Forward text i j) (h : Iterate r n i j) : Forward text i j := by
  induction n generalizing i with
  | zero =>
    obtain rfl : i = j := h
    exact Forward.refl text i
  | succ n ih =>
    obtain ⟨c, hic, hcj⟩ := h
    exact (hr i c hic).trans (ih hcj)

/-- A leaf goes forward. -/
theorem leafStop_forward {node : Node} {text : List Char} {i j : Nat}
    (h : leafStop node text i = some j) : Forward text i j := by
  unfold leafStop at h
  unfold Forward
  split at h <;> grind

mutual

/-- What the engine takes goes forward. -/
theorem engineDenotes_forward : (node : Node) → (text : List Char) → (i j : Nat) →
    EngineDenotes node text i j → Forward text i j
  | .group _ inner, text, i, j, h => engineDenotes_forward inner text i j h
  | .look _ _, text, i, j, h => by
    simp only [EngineDenotes, DenotesWith] at h
    obtain ⟨rfl, -⟩ := h
    exact Forward.refl text j
  | .concat items, text, i, j, h => engineDenotesAll_forward items text i j h
  | .alt branches, text, i, j, h => engineDenotesAny_forward branches text i j h
  | .repeat inner _ _ _, text, i, j, h => by
    simp only [EngineDenotes, DenotesWith] at h
    obtain ⟨n, -, -, hn⟩ := h
    exact Forward.iterate (fun i j h => engineDenotes_forward inner text i j h.1) hn
  | .char _, _, _, _, h | .any, _, _, _, h | .cls _ _, _, _, _, h | .start _, _, _, _, h
  | .stop _, _, _, _, h | .wordBoundary, _, _, _, h | .notWordBoundary, _, _, _, h
  | .textStart, _, _, _, h | .textEnd, _, _, _, h => leafStop_forward h

/-- What the engine takes in a row goes forward. -/
theorem engineDenotesAll_forward : (items : List Node) → (text : List Char) → (i j : Nat) →
    DenotesAllWith (fun r => Counted (Advance r)) text items i j → Forward text i j
  | [], text, i, j, h => by
    obtain rfl : i = j := h
    exact Forward.refl text i
  | first :: rest, text, i, j, h => by
    obtain ⟨c, hic, hcj⟩ := h
    exact (engineDenotes_forward first text i c hic).trans
      (engineDenotesAll_forward rest text c j hcj)

/-- What the engine takes of alternatives goes forward. -/
theorem engineDenotesAny_forward : (branches : List Node) → (text : List Char) → (i j : Nat) →
    DenotesAnyWith (fun r => Counted (Advance r)) text branches i j → Forward text i j
  | [], _, _, _, h => h.elim
  | branch :: branches, text, i, j, h =>
    h.elim (engineDenotes_forward branch text i j) (engineDenotesAny_forward branches text i j)

end

/-! ## The engine's relation -/

/-- Some success ends at `e`. -/
def EndsAt (successes : List Success) (e : Nat) : Prop := ∃ caps, (caps, e) ∈ successes

theorem endsAt_append {xs ys : List Success} {e : Nat} :
    EndsAt (xs ++ ys) e ↔ EndsAt xs e ∨ EndsAt ys e := by
  simp only [EndsAt, List.mem_append, exists_or]

theorem endsAt_leafResults {stop : Option Nat} {caps : Captures} {e : Nat} :
    EndsAt (leafResults stop caps) e ↔ stop = some e := by
  cases stop <;> simp [EndsAt, leafResults, eq_comm]

theorem endsAt_nonempty {xs : List Success} : (!xs.isEmpty) = true ↔ ∃ e, EndsAt xs e := by
  cases xs with
  | nil => simp [EndsAt]
  | cons success rest => simpa using ⟨success.2, success.1, List.mem_cons_self⟩

/-- The ends of results in a row. -/
theorem endsAt_flatMap {xs : List Success} {f : Success → List Success} {g : Nat → Prop} {e : Nat}
    (hf : ∀ success ∈ xs, (EndsAt (f success) e ↔ g success.2)) :
    EndsAt (xs.flatMap f) e ↔ ∃ c, EndsAt xs c ∧ g c := by
  constructor
  · rintro ⟨caps, h⟩
    obtain ⟨success, hmem, h⟩ := List.mem_flatMap.1 h
    exact ⟨success.2, ⟨success.1, hmem⟩, (hf success hmem).1 ⟨caps, h⟩⟩
  · rintro ⟨c, ⟨innerCaps, hmem⟩, hg⟩
    obtain ⟨caps, h⟩ := (hf (innerCaps, c) hmem).2 hg
    exact ⟨caps, List.mem_flatMap.2 ⟨_, hmem, h⟩⟩

/-- **One `repeat`, with its fuel.** With fuel for every position left, the successes from `count`
iterations on are the counted advancing iterations that remain. -/
theorem endsAt_repeatResults {text : List Char} {inner : Nat → Captures → List Success}
    {r : Nat → Nat → Prop} (hr : ∀ i j, r i j → Forward text i j)
    (hi : ∀ pos caps e, EndsAt (inner pos caps) e ↔ r pos e) {min max : Nat} {greedy : Bool}
    {e fuel pos count : Nat} {caps : Captures} (hfuel : text.length - pos < fuel)
    (hcount : count ≤ max) :
    EndsAt (repeatResults inner fuel pos caps count min max greedy) e ↔
      ∃ n, min ≤ count + n ∧ count + n ≤ max ∧ Iterate (Advance r) n pos e := by
  induction fuel generalizing pos caps count with
  | zero => omega
  | succ fuel ih =>
    have hhere : EndsAt (if min ≤ count then [(caps, pos)] else []) e ↔ min ≤ count ∧ pos = e := by
      split <;> simp [EndsAt, *, eq_comm]
    have hmore : EndsAt (if count < max then
          (inner pos caps).flatMap fun success =>
            if success.2 = pos then []
            else repeatResults inner fuel success.2 success.1 (count + 1) min max greedy
        else []) e ↔
        count < max ∧ ∃ c, r pos c ∧ c ≠ pos ∧
          ∃ n, min ≤ count + 1 + n ∧ count + 1 + n ≤ max ∧ Iterate (Advance r) n c e := by
      by_cases hlt : count < max
      · rw [if_pos hlt, endsAt_flatMap (g := fun c => c ≠ pos ∧ ∃ n, min ≤ count + 1 + n ∧
          count + 1 + n ≤ max ∧ Iterate (Advance r) n c e)]
        · simp only [hi, hlt, true_and]
        · intro success hmem
          have hfwd := hr pos success.2 ((hi pos caps success.2).1 ⟨success.1, hmem⟩)
          unfold Forward at hfwd
          by_cases hne : success.2 = pos
          · simp [hne, EndsAt]
          · rw [if_neg hne, ih (by omega) (by omega)]
            simp [hne]
      · simp [hlt, EndsAt]
    have hsplit : EndsAt (repeatResults inner (fuel + 1) pos caps count min max greedy) e ↔
        (min ≤ count ∧ pos = e) ∨ count < max ∧ ∃ c, r pos c ∧ c ≠ pos ∧
          ∃ n, min ≤ count + 1 + n ∧ count + 1 + n ≤ max ∧ Iterate (Advance r) n c e := by
      rw [← hhere, ← hmore, repeatResults]
      cases greedy
      · exact endsAt_append
      · exact endsAt_append.trans or_comm
    rw [hsplit]
    -- no further iteration, or one that advances followed by the rest
    constructor
    · rintro (⟨hmin, rfl⟩ | ⟨hlt, c, hrc, hne, n, hmin, hmax, hn⟩)
      · exact ⟨0, hmin, hcount, rfl⟩
      · exact ⟨n + 1, by omega, by omega, c, ⟨hrc, hne⟩, hn⟩
    · rintro ⟨n, hmin, hmax, hn⟩
      cases n with
      | zero => exact .inl ⟨hmin, hn⟩
      | succ n =>
        obtain ⟨c, ⟨hrc, hne⟩, hn⟩ := hn
        exact .inr ⟨by omega, c, hrc, hne, n, by omega, by omega, hn⟩

mutual

/-- **The engine's language.** The ends `run` offers are those of the advancing reading. -/
theorem mem_results_iff : (node : Node) → (text : List Char) → (pos : Nat) → (caps : Captures) →
    (e : Nat) → (EndsAt (results node text pos caps) e ↔ EngineDenotes node text pos e)
  | .group none inner, text, pos, caps, e => by
    rw [results]
    exact mem_results_iff inner text pos caps e
  | .group (some index) inner, text, pos, caps, e => by
    rw [results]
    refine Iff.trans ?_ (mem_results_iff inner text pos caps e)
    simp [EndsAt]
  | .look inner positive, text, pos, caps, e => by
    have hnonempty : (!(results inner text pos caps).isEmpty) = true ↔
        ∃ e, EngineDenotes inner text pos e := by
      simp only [← mem_results_iff inner text pos caps]
      exact endsAt_nonempty
    rw [results]
    simp only [EngineDenotes, DenotesWith] at hnonempty ⊢
    rw [← hnonempty]
    by_cases h : (!(results inner text pos caps).isEmpty) = positive
    · simp [EndsAt, h]
    · simp only [h, EndsAt, if_false, List.not_mem_nil, exists_false, false_iff]
      rintro ⟨-, hiff⟩
      exact h (Bool.eq_iff_iff.2 hiff)
  | .concat items, text, pos, caps, e => by
    rw [results]
    exact mem_concatResults_iff items text pos caps e
  | .alt branches, text, pos, caps, e => by
    rw [results]
    exact mem_alternativesResults_iff branches text pos caps e
  | .repeat inner min max greedy, text, pos, caps, e => by
    rw [results, endsAt_repeatResults (fun i j => engineDenotes_forward inner text i j)
      (fun pos caps e => mem_results_iff inner text pos caps e) (by omega) (Nat.zero_le max)]
    simp only [Nat.zero_add]
    rfl
  | .char _, _, _, _, _ | .any, _, _, _, _ | .cls _ _, _, _, _, _ | .start _, _, _, _, _
  | .stop _, _, _, _, _ | .wordBoundary, _, _, _, _ | .notWordBoundary, _, _, _, _
  | .textStart, _, _, _, _ | .textEnd, _, _, _, _ => by
    rw [results]
    exact endsAt_leafResults

/-- The results of a concatenation end where the engine says. -/
theorem mem_concatResults_iff : (items : List Node) → (text : List Char) → (pos : Nat) →
    (caps : Captures) → (e : Nat) → (EndsAt (concatResults items text pos caps) e ↔
      DenotesAllWith (fun r => Counted (Advance r)) text items pos e)
  | [], text, pos, caps, e => by
    simp [concatResults, DenotesAllWith, EndsAt, eq_comm]
  | first :: rest, text, pos, caps, e => by
    rw [concatResults, endsAt_flatMap
      (g := fun c => DenotesAllWith (fun r => Counted (Advance r)) text rest c e)
      fun success _ => mem_concatResults_iff rest text success.2 success.1 e]
    simp only [mem_results_iff first text pos caps]
    rfl

/-- The results of alternatives end where the engine says. -/
theorem mem_alternativesResults_iff : (branches : List Node) → (text : List Char) → (pos : Nat) →
    (caps : Captures) → (e : Nat) → (EndsAt (alternativesResults branches text pos caps) e ↔
      DenotesAnyWith (fun r => Counted (Advance r)) text branches pos e)
  | [], text, pos, caps, e => by
    simp [alternativesResults, DenotesAnyWith, EndsAt]
  | branch :: branches, text, pos, caps, e => by
    rw [alternativesResults, endsAt_append, mem_results_iff branch text pos caps e,
      mem_alternativesResults_iff branches text pos caps e]
    rfl

end

/-- A repetition that has made `count` iterations goes on as the repetition that is left. -/
theorem endsAt_repeat_left {text : List Char} {inner : Node} {min max count pos e : Nat}
    {greedy : Bool} {caps : Captures} (hcount : count ≤ max) :
    EndsAt (repeatResults (fun pos caps => results inner text pos caps) (text.length - pos + 1) pos
        caps count min max greedy) e ↔
      EngineDenotes (.repeat inner (min - count) (max - count) greedy) text pos e := by
  rw [endsAt_repeatResults (fun i j => engineDenotes_forward inner text i j)
    (fun pos caps e => mem_results_iff inner text pos caps e) (by omega) hcount]
  simp only [EngineDenotes, DenotesWith, Counted]
  refine exists_congr fun n => ?_
  constructor
  · rintro ⟨hmin, hmax, hn⟩
    exact ⟨by omega, by omega, hn⟩
  · rintro ⟨hmin, hmax, hn⟩
    exact ⟨by omega, by omega, hn⟩

/-! ## Where the two relations agree -/

/-- The matches a match of `node` at `pos` is made of, itself included: a list of patterns goes on
where its first one ends, a repetition after an iteration that advances with one iteration less,
which is how the engine goes on (`endsAt_repeat_left`). -/
inductive Reaches (text : List Char) : Node → Nat → Node → Nat → Prop
  | refl {node : Node} {pos : Nat} : Reaches text node pos node pos
  | group {index : Option Nat} {inner m : Node} {pos q : Nat} :
      Reaches text inner pos m q → Reaches text (.group index inner) pos m q
  | look {inner m : Node} {positive : Bool} {pos q : Nat} :
      Reaches text inner pos m q → Reaches text (.look inner positive) pos m q
  | first {first m : Node} {rest : List Node} {pos q : Nat} :
      Reaches text first pos m q → Reaches text (.concat (first :: rest)) pos m q
  | rest {first m : Node} {rest : List Node} {pos c q : Nat} :
      Denotes first text pos c → Reaches text (.concat rest) c m q →
        Reaches text (.concat (first :: rest)) pos m q
  | branch {branch m : Node} {branches : List Node} {pos q : Nat} :
      branch ∈ branches → Reaches text branch pos m q → Reaches text (.alt branches) pos m q
  | iteration {inner m : Node} {min max : Nat} {greedy : Bool} {pos q : Nat} :
      1 ≤ max → Reaches text inner pos m q → Reaches text (.repeat inner min max greedy) pos m q
  | again {inner m : Node} {min max : Nat} {greedy : Bool} {pos c q : Nat} :
      1 ≤ max → Advance (Denotes inner text) pos c →
        Reaches text (.repeat inner (min - 1) (max - 1) greedy) c m q →
        Reaches text (.repeat inner min max greedy) pos m q

/-- Reaching is transitive. -/
theorem Reaches.trans {text : List Char} {node m n : Node} {pos q p : Nat}
    (h : Reaches text node pos m q) (hm : Reaches text m q n p) : Reaches text node pos n p := by
  induction h with
  | refl => exact hm
  | group _ ih => exact .group (ih hm)
  | look _ ih => exact .look (ih hm)
  | first _ ih => exact .first (ih hm)
  | rest hc _ ih => exact .rest hc (ih hm)
  | branch hmem _ ih => exact .branch hmem (ih hm)
  | iteration hmax _ ih => exact .iteration hmax (ih hm)
  | again hmax hc _ ih => exact .again hmax hc (ih hm)

/-- No repetition reached from `node` at `pos` owes an iteration at a position where its inner
pattern matches the empty string. It owes one when it asks for one, and allows as many as it
asks for. -/
def NoEmptyIteration (node : Node) (text : List Char) (pos : Nat) : Prop :=
  ∀ inner min max greedy q, Reaches text node pos (.repeat inner min max greedy) q →
    1 ≤ min → min ≤ max → ¬ Denotes inner text q q

/-- What is reached has no empty iteration either. -/
theorem NoEmptyIteration.of_reaches {node m : Node} {text : List Char} {pos q : Nat}
    (h : NoEmptyIteration node text pos) (hm : Reaches text node pos m q) :
    NoEmptyIteration m text q :=
  fun inner min max greedy p hp => h inner min max greedy p (hm.trans hp)

/-- The two readings of one `repeat` agree when those of its inner pattern do, wherever an iteration
begins. The induction is on the iterations that are left. -/
theorem counted_advance_iff {inner : Node} {text : List Char} {greedy : Bool}
    (ih : ∀ i, NoEmptyIteration inner text i →
      ∀ j, EngineDenotes inner text i j ↔ Denotes inner text i j) {max : Nat} :
    ∀ {min i : Nat}, NoEmptyIteration (.repeat inner min max greedy) text i → ∀ j,
      Counted (Advance (EngineDenotes inner text)) min max i j ↔
        Counted (Denotes inner text) min max i j := by
  induction max with
  | zero =>
    intro min i _ j
    rw [counted_cases, counted_cases]
    simp
  | succ max ihmax =>
    intro min i h j
    have hinner : ∀ c, Advance (EngineDenotes inner text) i c ↔ Advance (Denotes inner text) i c :=
      fun c => and_congr_left fun _ =>
        ih i (h.of_reaches (.iteration (Nat.succ_pos max) .refl)) c
    rw [counted_cases, counted_cases_of_not_stay (h inner min (max + 1) greedy i .refl)]
    refine or_congr_right (and_congr_right fun hmax => exists_congr fun c => ?_)
    rw [hinner c]
    refine and_congr_right fun hc => ?_
    exact ihmax (h.of_reaches (.again hmax hc .refl)) j

mutual

/-- Without empty iterations the engine takes what the node denotes. -/
theorem engineDenotes_iff : (node : Node) → (text : List Char) → (i : Nat) →
    NoEmptyIteration node text i → ∀ j, EngineDenotes node text i j ↔ Denotes node text i j
  | .group _ inner, text, i, h, j =>
    engineDenotes_iff inner text i (h.of_reaches (.group .refl)) j
  | .look inner _, text, i, h, j => by
    have ih := engineDenotes_iff inner text i (h.of_reaches (.look .refl))
    simp only [EngineDenotes, Denotes] at ih
    simp only [EngineDenotes, Denotes, DenotesWith, ih]
  | .concat items, text, i, h, j => engineDenotesAll_iff items text i h j
  | .alt branches, text, i, h, j =>
    engineDenotesAny_iff branches text i (fun _ hm => h.of_reaches (.branch hm .refl)) j
  | .repeat inner _ _ _, text, i, h, j =>
    counted_advance_iff (fun i => engineDenotes_iff inner text i) h j
  | .char _, _, _, _, _ | .any, _, _, _, _ | .cls _ _, _, _, _, _ | .start _, _, _, _, _
  | .stop _, _, _, _, _ | .wordBoundary, _, _, _, _ | .notWordBoundary, _, _, _, _
  | .textStart, _, _, _, _ | .textEnd, _, _, _, _ => Iff.rfl

/-- Without empty iterations the engine takes in a row what the nodes denote. -/
theorem engineDenotesAll_iff : (items : List Node) → (text : List Char) → (i : Nat) →
    NoEmptyIteration (.concat items) text i → ∀ j,
    DenotesAllWith (fun r => Counted (Advance r)) text items i j ↔
      DenotesAllWith Counted text items i j
  | [], _, _, _, _ => Iff.rfl
  | first :: rest, text, i, h, j => by
    have hfirst := engineDenotes_iff first text i (h.of_reaches (.first .refl))
    have hrest : ∀ c, Denotes first text i c →
        (DenotesAllWith (fun r => Counted (Advance r)) text rest c j ↔
          DenotesAllWith Counted text rest c j) :=
      fun c hc => engineDenotesAll_iff rest text c (h.of_reaches (.rest hc .refl)) j
    simp only [DenotesAllWith, Relation.Comp]
    refine exists_congr fun c => ?_
    exact (and_congr_left fun _ => hfirst c).trans (and_congr_right fun hc => hrest c hc)

/-- Without empty iterations the engine takes what one of the alternatives denotes. -/
theorem engineDenotesAny_iff : (branches : List Node) → (text : List Char) → (i : Nat) →
    (∀ branch ∈ branches, NoEmptyIteration branch text i) → ∀ j,
    DenotesAnyWith (fun r => Counted (Advance r)) text branches i j ↔
      DenotesAnyWith Counted text branches i j
  | [], _, _, _, _ => Iff.rfl
  | branch :: branches, text, i, h, j =>
    or_congr (engineDenotes_iff branch text i (h branch List.mem_cons_self) j)
      (engineDenotesAny_iff branches text i (fun b hm => h b (List.mem_cons_of_mem _ hm)) j)

end

-- a repetition that is never reached does no harm: `b(a?){3}` on `a`
example : NoEmptyIteration (.concat [.char 'b', .repeat (.repeat (.char 'a') 0 1 true) 3 3 true])
    ['a'] 0 := by
  intro inner min max greedy q h
  cases h with
  | first h => cases h
  | rest hc _ =>
    have hnone : leafStop (.char 'b') ['a'] 0 = none := by decide
    rw [Denotes, DenotesWith, hnone] at hc
    cases hc

end RtpMux.Pyre
