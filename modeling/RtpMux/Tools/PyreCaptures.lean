import RtpMux.Tools.PyreWords

/-!
# What a match captures

A pattern without numbered groups leaves the captures alone, so its results are its ends
(`mem_results_groupFree`). Around such parts, the captures of a result are read off one node
at a time: a group sets its slot, concatenation threads them, alternation passes on those of
a branch, and an optional part either passes on its inner's or keeps what was there.
-/

namespace RtpMux.Pyre

mutual

/-- No numbered group occurs in the pattern. -/
def groupFree : Node → Bool
  | .group index inner => index.isNone && groupFree inner
  | .look _ _ => true
  | .concat items => allGroupFree items
  | .alt branches => allGroupFree branches
  | .repeat inner _ _ _ => groupFree inner
  | .char _ | .any | .cls _ _ | .start _ | .stop _ | .wordBoundary | .notWordBoundary | .textStart
  | .textEnd => true

/-- No node of a list has a group. -/
def allGroupFree : List Node → Bool
  | [] => true
  | node :: nodes => groupFree node && allGroupFree nodes

end

theorem allGroupFree_cons (node : Node) (nodes : List Node) :
    allGroupFree (node :: nodes) = (groupFree node && allGroupFree nodes) := rfl

/-- A leaf fills no group. -/
theorem mem_leafResults {stop : Option Nat} {caps c : Captures} {e : Nat}
    (h : (c, e) ∈ leafResults stop caps) : c = caps := by
  cases stop with
  | none => exact absurd h List.not_mem_nil
  | some stop => exact congrArg Prod.fst (List.mem_singleton.1 h)

/-- A repetition without groups fills none. -/
theorem mem_repeatResults_groupFree {inner : Nat → Captures → List Success}
    (hi : ∀ pos caps c e, (c, e) ∈ inner pos caps → c = caps) {fuel pos count min max : Nat}
    {greedy : Bool} {caps c : Captures} {e : Nat}
    (h : (c, e) ∈ repeatResults inner fuel pos caps count min max greedy) : c = caps := by
  induction fuel generalizing pos caps count with
  | zero => simp [repeatResults] at h
  | succ fuel ih =>
    have hmore (h : (c, e) ∈ (if count < max then (inner pos caps).flatMap fun success =>
        if success.2 = pos then []
        else repeatResults inner fuel success.2 success.1 (count + 1) min max greedy
        else [])) : c = caps := by
      split at h
      · obtain ⟨success, hmem, h⟩ := List.mem_flatMap.1 h
        split at h
        · simp at h
        · rw [ih h]
          exact hi pos caps success.1 success.2 hmem
      · simp at h
    have hhere (h : (c, e) ∈ (if min ≤ count then [(caps, pos)] else [])) : c = caps := by
      split at h
      · exact congrArg Prod.fst (List.mem_singleton.1 h)
      · exact absurd h List.not_mem_nil
    unfold repeatResults at h
    cases greedy with
    | true => exact (List.mem_append.1 h).elim hmore hhere
    | false => exact (List.mem_append.1 h).elim hhere hmore

mutual

/-- A node without groups fills none. -/
theorem captures_of_groupFree : (node : Node) → (text : List Char) → groupFree node = true →
    ∀ pos caps c e, (c, e) ∈ results node text pos caps → c = caps
  | .group none inner, text, hf, pos, caps, c, e, h => by
    rw [results] at h
    exact captures_of_groupFree inner text hf pos caps c e h
  | .group (some _) _, _, hf, _, _, _, _, _ => nomatch hf
  | .look _ _, _, _, _, _, _, _, h => by
    rw [results] at h
    split at h
    · exact congrArg Prod.fst (List.mem_singleton.1 h)
    · exact absurd h List.not_mem_nil
  | .concat items, text, hf, pos, caps, c, e, h => by
    rw [results] at h
    exact captures_of_allGroupFree items text hf pos caps c e h
  | .alt branches, text, hf, pos, caps, c, e, h => by
    rw [results] at h
    exact captures_of_anyGroupFree branches text hf pos caps c e h
  | .repeat inner _ _ _, text, hf, pos, caps, c, e, h => by
    rw [results] at h
    exact mem_repeatResults_groupFree
      (captures_of_groupFree inner text hf) h
  | .char _, _, _, _, _, _, _, h | .any, _, _, _, _, _, _, h | .cls _ _, _, _, _, _, _, _, h
  | .start _, _, _, _, _, _, _, h | .stop _, _, _, _, _, _, _, h
  | .wordBoundary, _, _, _, _, _, _, h | .notWordBoundary, _, _, _, _, _, _, h
  | .textStart, _, _, _, _, _, _, h | .textEnd, _, _, _, _, _, _, h => by
    rw [results] at h
    exact mem_leafResults h

/-- A concatenation without groups fills none. -/
theorem captures_of_allGroupFree : (items : List Node) → (text : List Char) →
    allGroupFree items = true → ∀ pos caps c e, (c, e) ∈ concatResults items text pos caps →
      c = caps
  | [], _, _, _, _, _, _, h => by
    rw [concatResults] at h
    exact congrArg Prod.fst (List.mem_singleton.1 h)
  | first :: rest, text, hf, pos, caps, c, e, h => by
    rw [allGroupFree_cons, Bool.and_eq_true] at hf
    rw [concatResults] at h
    obtain ⟨success, hmem, h⟩ := List.mem_flatMap.1 h
    rw [captures_of_allGroupFree rest text hf.2 success.2 success.1 c e h]
    exact captures_of_groupFree first text hf.1 pos caps success.1 success.2 hmem

/-- Alternatives without groups fill none. -/
theorem captures_of_anyGroupFree : (branches : List Node) → (text : List Char) →
    allGroupFree branches = true →
    ∀ pos caps c e, (c, e) ∈ alternativesResults branches text pos caps → c = caps
  | [], _, _, _, _, _, _, h => by
    rw [alternativesResults] at h
    simp at h
  | branch :: branches, text, hf, pos, caps, c, e, h => by
    rw [allGroupFree_cons, Bool.and_eq_true] at hf
    rw [alternativesResults] at h
    exact (List.mem_append.1 h).elim
      (captures_of_groupFree branch text hf.1 pos caps c e)
      (captures_of_anyGroupFree branches text hf.2 pos caps c e)

end

/-- **Results without groups.** -/
theorem mem_results_groupFree {node : Node} {text : List Char} {pos e : Nat} {caps c : Captures}
    (hf : groupFree node = true) :
    (c, e) ∈ results node text pos caps ↔ c = caps ∧ EngineDenotes node text pos e := by
  rw [← mem_results_iff node text pos caps e]
  constructor
  · intro h
    exact ⟨captures_of_groupFree node text hf pos caps c e h, c, h⟩
  · rintro ⟨rfl, c', h⟩
    have := captures_of_groupFree node text hf pos c c' e h
    rwa [this] at h

/-! ## Results around groups -/

/-- A group fills its entry with what it took. -/
theorem mem_results_group {index : Nat} {inner : Node} {text : List Char} {pos e : Nat}
    {caps c : Captures} :
    (c, e) ∈ results (.group (some index) inner) text pos caps ↔
      ∃ c', (c', e) ∈ results inner text pos caps ∧ c = c'.set index (some (pos, e)) := by
  rw [results]
  simp only [List.mem_map, Prod.mk.injEq, Prod.exists]
  constructor
  · rintro ⟨c', e', h, rfl, rfl⟩
    exact ⟨c', h, rfl⟩
  · rintro ⟨c', h, rfl⟩
    exact ⟨c', e, h, rfl, rfl⟩

theorem mem_results_groupNone {inner : Node} {text : List Char} {pos e : Nat} {caps c : Captures} :
    (c, e) ∈ results (.group none inner) text pos caps ↔ (c, e) ∈ results inner text pos caps := by
  rw [results]

theorem mem_results_concat {items : List Node} {text : List Char} {pos e : Nat}
    {caps c : Captures} :
    (c, e) ∈ results (.concat items) text pos caps ↔
      (c, e) ∈ concatResults items text pos caps := by
  rw [results]

theorem mem_concatResults_nil {text : List Char} {pos e : Nat} {caps c : Captures} :
    (c, e) ∈ concatResults [] text pos caps ↔ c = caps ∧ pos = e := by
  rw [concatResults]
  simp [eq_comm]

/-- A concatenation goes on where its first node ends. -/
theorem mem_concatResults_cons {first : Node} {rest : List Node} {text : List Char} {pos e : Nat}
    {caps c : Captures} :
    (c, e) ∈ concatResults (first :: rest) text pos caps ↔
      ∃ c' m, (c', m) ∈ results first text pos caps ∧ (c, e) ∈ concatResults rest text m c' := by
  rw [concatResults]
  simp [List.mem_flatMap]

/-- A first node without groups leaves the captures. -/
theorem mem_concatResults_groupFree (first : Node) {rest : List Node} {text : List Char}
    {pos e : Nat}
    {caps c : Captures} (hf : groupFree first = true) :
    (c, e) ∈ concatResults (first :: rest) text pos caps ↔
      ∃ m, EngineDenotes first text pos m ∧ (c, e) ∈ concatResults rest text m caps := by
  simp only [mem_concatResults_cons, mem_results_groupFree hf]
  constructor
  · rintro ⟨c', m, ⟨rfl, hm⟩, h⟩
    exact ⟨m, hm, h⟩
  · rintro ⟨m, hm, h⟩
    exact ⟨caps, m, ⟨rfl, hm⟩, h⟩

/-- A first group fills its entry and no other. -/
theorem mem_concatResults_group {index : Nat} (inner : Node) {rest : List Node} {text : List Char}
    {pos e : Nat} {caps c : Captures} (hf : groupFree inner = true) :
    (c, e) ∈ concatResults (.group (some index) inner :: rest) text pos caps ↔
      ∃ m, EngineDenotes inner text pos m ∧
        (c, e) ∈ concatResults rest text m (caps.set index (some (pos, m))) := by
  simp only [mem_concatResults_cons, mem_results_group, mem_results_groupFree hf]
  constructor
  · rintro ⟨c', m, ⟨c'', ⟨rfl, hm⟩, rfl⟩, h⟩
    exact ⟨m, hm, h⟩
  · rintro ⟨m, hm, h⟩
    exact ⟨_, m, ⟨caps, ⟨rfl, hm⟩, rfl⟩, h⟩

/-- Two concatenations in a row. -/
theorem mem_concatResults_append {front back : List Node} {text : List Char} {pos e : Nat}
    {caps c : Captures} :
    (c, e) ∈ concatResults (front ++ back) text pos caps ↔
      ∃ c' m, (c', m) ∈ concatResults front text pos caps ∧
        (c, e) ∈ concatResults back text m c' := by
  induction front generalizing pos caps with
  | nil => simp [mem_concatResults_nil]
  | cons first front ih =>
    rw [List.cons_append]
    simp only [mem_concatResults_cons, ih]
    constructor
    · rintro ⟨c₁, m₁, hfirst, c', m, hfront, hback⟩
      exact ⟨c', m, ⟨c₁, m₁, hfirst, hfront⟩, hback⟩
    · rintro ⟨c', m, ⟨c₁, m₁, hfirst, hfront⟩, hback⟩
      exact ⟨c₁, m₁, hfirst, c', m, hfront, hback⟩

/-- A concatenation goes forward. -/
theorem forward_of_mem_concatResults {items : List Node} {text : List Char} {pos e : Nat}
    {caps c : Captures}
    (h : (c, e) ∈ concatResults items text pos caps) : Forward text pos e :=
  engineDenotes_forward (.concat items) text pos e
    ((mem_results_iff (.concat items) text pos caps e).1 ⟨c, mem_results_concat.2 h⟩)

/-- A sequence with a literal in it gets on. -/
theorem lt_of_mem_concatResults_char {front back : List Node} {x : Char} {text : List Char}
    {pos e : Nat}
    {caps c : Captures} (h : (c, e) ∈ concatResults (front ++ .char x :: back) text pos caps) :
    pos < e := by
  obtain ⟨c', m, hfront, hback⟩ := mem_concatResults_append.1 h
  obtain ⟨m', hchar, hrest⟩ := (mem_concatResults_groupFree (.char x) rfl).1 hback
  have hstep : m' = m + 1 := by
    rw [char_reads, reads_cons, reads_nil] at hchar
    exact hchar.2.symm
  have hle := (forward_of_mem_concatResults hfront).1
  have hle' := (forward_of_mem_concatResults hrest).1
  omega

/-- What a numbered group captures is there at the end, where no other group stands behind it. -/
theorem mem_concatResults_around {front back : List Node} {index : Nat} {inner : Node}
    {text : List Char} {pos e : Nat}
    {caps c : Captures} (hinner : groupFree inner = true) (hback : allGroupFree back = true)
    (h : (c, e) ∈ concatResults (front ++ .group (some index) inner :: back) text pos caps) :
    ∃ c' i j, (c', i) ∈ concatResults front text pos caps ∧ Forward text i j ∧
      (c, e) ∈ concatResults back text j c ∧ c = c'.set index (some (i, j)) := by
  obtain ⟨c', i, hfront, hrest⟩ := mem_concatResults_append.1 h
  obtain ⟨j, hdenotes, hbehind⟩ := (mem_concatResults_group inner hinner).1 hrest
  have hcaptures := captures_of_allGroupFree back text hback j _ c e hbehind
  refine ⟨c', i, j, hfront, engineDenotes_forward inner text i j hdenotes, ?_, hcaptures⟩
  rwa [hcaptures] at hbehind ⊢

/-- Literals in front of a sequence read their word. -/
theorem mem_concatResults_literal {word : List Char} {rest : List Node} {text : List Char}
    {pos e : Nat} {caps c : Captures} :
    (c, e) ∈ concatResults (word.map .char ++ rest) text pos caps ↔
      ∃ m, Reads text pos word m ∧ (c, e) ∈ concatResults rest text m caps := by
  induction word generalizing pos with
  | nil => simp [reads_nil]
  | cons x word ih =>
    have hsplit (j : Nat) : Reads text pos (x :: word) j ↔
        ∃ m, Reads text pos [x] m ∧ Reads text m word j :=
      reads_append (u := [x])
    rw [List.map_cons, List.cons_append, mem_concatResults_groupFree _ rfl]
    simp only [char_reads, ih, hsplit]
    constructor
    · rintro ⟨m, hm, m', hm', h⟩
      exact ⟨m', ⟨m, hm, hm'⟩, h⟩
    · rintro ⟨m', ⟨m, hm, hm'⟩, h⟩
      exact ⟨m, hm, m', hm', h⟩

/-- The end of the text takes nothing. -/
theorem mem_stop_results {text : List Char} {i e : Nat} {caps c : Captures} :
    (c, e) ∈ concatResults [.stop false] text i caps ↔
      c = caps ∧ i = e ∧ atStop false text i = true := by
  rw [mem_concatResults_groupFree _ rfl]
  simp only [engineDenotes_stop, mem_concatResults_nil]
  constructor
  · rintro ⟨m, ⟨hstop, rfl⟩, rfl, rfl⟩
    exact ⟨rfl, rfl, hstop⟩
  · rintro ⟨rfl, rfl, hstop⟩
    exact ⟨i, ⟨hstop, rfl⟩, rfl, rfl⟩

/-- An optional part keeps the captures and the position, or is its inner pattern and advances. -/
theorem mem_results_optional {inner : Node} {text : List Char} {pos e : Nat} {caps c : Captures} :
    (c, e) ∈ results (.repeat inner 0 1 true) text pos caps ↔
      (c = caps ∧ pos = e) ∨ ((c, e) ∈ results inner text pos caps ∧ e ≠ pos) := by
  have hlast {fuel m : Nat} {c' : Captures} :
      repeatResults (fun pos caps => results inner text pos caps) (fuel + 1) m c' 1 0 1 true =
        [(c', m)] := by
    simp [repeatResults]
  rw [results, repeatResults]
  simp only [Nat.zero_lt_one, if_true, Nat.le_refl, List.mem_append, List.mem_flatMap]
  rw [or_comm]
  refine or_congr (by simp [@eq_comm _ e pos]) ⟨?_, ?_⟩
  · rintro ⟨⟨c', m⟩, hmem, h⟩
    split at h
    · simp at h
    · rename_i hne
      have hfwd := engineDenotes_forward inner text pos m
        ((mem_results_iff inner text pos caps m).1 ⟨c', hmem⟩)
      obtain ⟨fuel, hfuel⟩ : ∃ fuel, text.length - pos = fuel + 1 := by
        unfold Forward at hfwd
        simp only at hne
        exact ⟨text.length - pos - 1, by omega⟩
      rw [hfuel, hlast] at h
      simp only [List.mem_singleton, Prod.mk.injEq] at h
      obtain ⟨rfl, rfl⟩ := h
      exact ⟨hmem, hne⟩
  · rintro ⟨hmem, hne⟩
    have hfwd := engineDenotes_forward inner text pos e
      ((mem_results_iff inner text pos caps e).1 ⟨c, hmem⟩)
    obtain ⟨fuel, hfuel⟩ : ∃ fuel, text.length - pos = fuel + 1 := by
      unfold Forward at hfwd
      exact ⟨text.length - pos - 1, by omega⟩
    refine ⟨(c, e), hmem, ?_⟩
    rw [if_neg hne, hfuel, hlast]
    simp

/-! ## Anchored searches with their captures -/

/-- The start is at the beginning only. -/
theorem results_start (text : List Char) (pos : Nat) (caps : Captures) :
    results (.start false) text pos caps = if pos = 0 then [(caps, pos)] else [] := by
  rw [results, leafStop, atStart]
  by_cases h : pos = 0 <;> simp [h, leafResults]

/-- A pattern that begins with `^` is found at the start of the text, with its first result. -/
theorem searchFrom_anchored {r : Regex} {rest : List Node}
    (hroot : r.root = .concat (.start false :: rest)) (text : List Char) :
    r.searchFrom text 0 =
      (concatResults rest text 0 r.emptyCaptures).head?.map fun success =>
        ⟨0, success.2, success.1⟩ := by
  have hattempt (start : Nat) : r.attempt text start acceptAny =
      if start = 0 then (concatResults rest text 0 r.emptyCaptures).head?.map fun success =>
        ⟨0, success.2, success.1⟩ else none := by
    rw [attempt_acceptAny, hroot, results, concatResults, results_start]
    by_cases h : start = 0
    · subst h
      simp
    · simp [h]
  rw [Regex.searchFrom, Nat.sub_zero, List.range'_succ, List.findSome?_cons, hattempt 0, if_pos rfl]
  cases (concatResults rest text 0 r.emptyCaptures).head? with
  | some success => rfl
  | none =>
    simp only [Option.map_none, List.findSome?_eq_none_iff]
    intro start hmem
    rw [hattempt, if_neg]
    have := List.left_le_of_mem_range' hmem
    omega

/-- A pattern that minds the case sees the text itself. -/
theorem seen_ofList {r : Regex} (h : r.ignorecase = false) (text : List Char) :
    r.seen (String.ofList text).toList = text := by
  simp [Regex.seen, h]

/-- A named group of a found match is the slice of its span. -/
theorem named_materialize {r : Regex} {name : String} (index : Nat)
    (hname : r.names.lookup name = some (index + 1)) (text : List Char) (found : Found) :
    (r.materialize text found).named name =
      ((found.captures[index + 1]?).join).map (slice text) := by
  simp only [Match.named, Regex.materialize, hname, Option.bind_eq_bind, Option.bind_some,
    Nat.add_sub_cancel, List.getElem?_map, List.getElem?_drop, Nat.add_comm 1 index]
  cases found.captures[index + 1]? with
  | none => rfl
  | some entry => cases entry <;> rfl

/-- A slice is the word that was read. -/
theorem slice_of_reads {text word : List Char} {i j : Nat} (h : Reads text i word j) :
    slice text (i, j) = String.ofList word := by
  obtain ⟨⟨rest, hrest⟩, rfl⟩ := h
  rw [slice, List.drop_take, ← hrest, Nat.add_sub_cancel_left, List.take_left]

end RtpMux.Pyre
