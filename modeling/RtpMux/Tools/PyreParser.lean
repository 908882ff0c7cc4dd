import RtpMux.Tools.Pyre

/-!
# Reading a pattern

The parser of patterns calls itself in a circle of six functions, from an alternation down to an
atom and from a group in parentheses up again, and every turn of the circle reads a character. So it
needs at most six calls for each character that is left, and the fuel with which a pattern is
compiled is never used up.
-/

namespace RtpMux.Pyre

/-! ## Quantifiers -/

/-- The upper count behind the lower one. -/
def Pattern.highCount (p : Pattern) (low : List Char) (s : Parser) :
    Except RegexError (Nat × Parser) :=
  if p.peek s = some ',' then
    let s := s.advance 1
    let text := p.digits s
    if text = [] then .ok (unbounded, s.advance text.length)
    else match parseUsize text with
      | some high => .ok (high, s.advance text.length)
      | none => .error (.badQuantifier (String.ofList text))
  else match parseUsize low with
    | some high => .ok (high, s)
    | none => .error (.badQuantifier (String.ofList low))

/-- A brace opens a counted quantifier. -/
theorem quantifier_brace {p : Pattern} {s : Parser} (h : p.peek s = some '{') :
    p.quantifier s =
      let low := p.digits (s.advance 1)
      if low = [] then .ok none
      else
        (p.highCount low ((s.advance 1).advance low.length)).bind fun (high, s) =>
          if p.peek s ≠ some '}' then .ok none
          else match parseUsize low with
            | some low => .ok (some (low, high, s.advance 1))
            | none => .error (.badQuantifier (String.ofList low)) := by
  unfold Pattern.quantifier Pattern.highCount
  rw [h]
  simp only [bind, Except.bind, pure, Except.pure]
  split
  · rfl
  · by_cases hcomma : p.peek ((s.advance 1).advance (p.digits (s.advance 1)).length) = some ','
    · simp only [hcomma, if_true]
      split
      · rfl
      · cases parseUsize
          (p.digits (((s.advance 1).advance (p.digits (s.advance 1)).length).advance 1)) <;> rfl
    · simp only [hcomma, if_false]
      cases parseUsize (p.digits (s.advance 1)) <;> rfl

/-- The quantifiers of one character. -/
def quantifiers : List (Char × Nat × Nat) := [('*', 0, unbounded), ('+', 1, unbounded), ('?', 0, 1)]

/-- A quantifier of one character. -/
theorem quantifier_char {p : Pattern} {s : Parser} {c : Char} {min max : Nat}
    (h : (c, min, max) ∈ quantifiers)
    (hpeek : p.peek s = some c) : p.quantifier s = .ok (some (min, max, s.advance 1)) := by
  simp only [quantifiers, List.mem_cons, List.not_mem_nil, or_false, Prod.mk.injEq] at h
  unfold Pattern.quantifier
  rcases h with ⟨rfl, rfl, rfl⟩ | ⟨rfl, rfl, rfl⟩ | ⟨rfl, rfl, rfl⟩
  · rw [hpeek]
    rfl
  · rw [hpeek]
    rfl
  · rw [hpeek]
    rfl

/-- No quantifier. -/
theorem quantifier_none {p : Pattern} {s : Parser}
    (h : ∀ c, p.peek s = some c → c ≠ '*' ∧ c ≠ '+' ∧ c ≠ '?' ∧ c ≠ '{') :
    p.quantifier s = .ok none := by
  unfold Pattern.quantifier
  split
  · next hc => exact absurd rfl (h _ hc).1
  · next hc => exact absurd rfl (h _ hc).2.1
  · next hc => exact absurd rfl (h _ hc).2.2.1
  · next hc => exact absurd rfl (h _ hc).2.2.2
  · rfl

/-! ## Results -/

/-- The parser went on from `s` by at least `n` characters, or stopped with an error of the
source. -/
structure Progress {α : Type} (s : Parser) (n : Nat) (r : Except RegexError (α × Parser)) :
    Prop where
  fuel : r ≠ .error .outOfFuel
  advances : ∀ x t, r = .ok (x, t) → s.pos + n ≤ t.pos

namespace Progress

variable {α β : Type} {s t : Parser} {n m : Nat} {r : Except RegexError (α × Parser)}

/-- A result that has advanced far enough. -/
theorem ok {x : α} (h : s.pos + n ≤ t.pos) : Progress s n (.ok (x, t)) :=
  ⟨by simp, fun _ _ hr => by cases hr; exact h⟩

/-- An error, but for the lack of fuel. -/
theorem error {e : RegexError} (h : e ≠ .outOfFuel) :
    Progress s n (.error e : Except RegexError (α × Parser)) :=
  ⟨by simpa using h, fun _ _ hr => by cases hr⟩

/-- Counted from a place further back. -/
theorem from_le (h : Progress t m r) (hle : s.pos + n ≤ t.pos + m) : Progress s n r :=
  ⟨h.fuel, fun x u hr => hle.trans (h.advances x u hr)⟩

/-- Two parts in a row. -/
theorem bind {f : α × Parser → Except RegexError (β × Parser)} (h : Progress s n r)
    (hf : ∀ x t, s.pos + n ≤ t.pos → Progress s m (f (x, t))) : Progress s m (r >>= f) := by
  cases r with
  | error e =>
    refine .error fun he => h.fuel ?_
    rw [he]
  | ok got => exact hf got.1 got.2 (h.advances _ _ rfl)

end Progress

/-! ## Parts without a group -/

variable {p : Pattern} {s : Parser}

@[simp] theorem Parser.pos_advance (s : Parser) (n : Nat) : (s.advance n).pos = s.pos + n := rfl

theorem pos_lt_of_peek {c : Char} (h : p.peek s = some c) : s.pos < p.chars.length :=
  (List.getElem?_eq_some_iff.1 h).1

/-- An escape takes a character. -/
theorem progress_escape (p : Pattern) (s : Parser) : Progress s 1 (p.escape s) := by
  unfold Pattern.escape
  split
  · exact .error (by decide)
  · dsimp only
    split
    · exact .ok le_rfl
    · exact .ok le_rfl
    · exact .ok le_rfl
    · exact .ok le_rfl
    · split
      · exact .ok le_rfl
      · exact .ok le_rfl

/-- The items of a class are read up to the bracket, which is taken. -/
theorem progress_classItems {fuel : Nat} (items : List ClassItem)
    (hfuel : p.chars.length - s.pos < fuel) :
    Progress s 1 (p.classItems fuel items s) := by
  induction fuel generalizing items s with
  | zero => omega
  | succ fuel ih =>
    -- every turn of the loop reads at least one character
    have hturn {c : Char} (hpeek : p.peek s = some c) (items : List ClassItem) {n : Nat}
        (hn : 1 ≤ n) :
        Progress s 1 (p.classItems fuel items (s.advance n)) := by
      have hlt := pos_lt_of_peek hpeek
      exact (ih items (by rw [Parser.pos_advance]; omega)).from_le
        (by rw [Parser.pos_advance]; omega)
    unfold Pattern.classItems
    split
    · exact .error (by decide)
    · exact .ok le_rfl
    · next hpeek =>
      split
      · exact .error (by decide)
      · split
        · exact hturn hpeek _ (by decide)
        · exact hturn hpeek _ (by decide)
    · next hpeek =>
      split
      · split
        · exact hturn hpeek _ (by decide)
        · exact hturn hpeek _ (by decide)
      · exact hturn hpeek _ (by decide)

/-- A class takes a character. -/
theorem progress_cls (p : Pattern) (s : Parser) : Progress s 1 (p.cls s) := by
  unfold Pattern.cls
  have hstart : s.pos ≤ (if p.peek s = some '^' then s.advance 1 else s).pos := by
    split
    · exact Nat.le_succ _
    · exact le_rfl
  have hitems :=
    (progress_classItems (p := p) (s := if p.peek s = some '^' then s.advance 1 else s) []
    (Nat.lt_succ_of_le (Nat.sub_le _ _))).from_le (Nat.add_le_add_right hstart 1)
  exact hitems.bind fun items t ht => .ok ht

/-- An upper count takes what it takes. -/
theorem progress_highCount (p : Pattern) (low : List Char) (s : Parser) :
    Progress s 0 (p.highCount low s) := by
  unfold Pattern.highCount
  split
  · dsimp only
    split
    · exact .ok (by simp only [Parser.pos_advance]; omega)
    · split
      · exact .ok (by simp only [Parser.pos_advance]; omega)
      · exact .error (by simp)
  · split
    · exact .ok le_rfl
    · exact .error (by simp)

/-- What is behind an atom is read, or the atom is all there is. -/
theorem progress_quantifier {α : Type} {n : Nat}
    {f : Option (Nat × Nat × Parser) → Except RegexError (α × Parser)}
    (hnone : Progress s n (f none))
    (hsome : ∀ min max t, s.pos ≤ t.pos → Progress s n (f (some (min, max, t)))) :
    Progress s n (p.quantifier s >>= f) := by
  by_cases hbrace : p.peek s = some '{'
  · rw [quantifier_brace hbrace]
    dsimp only
    split
    · exact hnone
    · -- the counts, and a closing brace behind them
      have hhigh := progress_highCount p (p.digits (s.advance 1))
          ((s.advance 1).advance (p.digits (s.advance 1)).length)
      cases hread : p.highCount (p.digits (s.advance 1))
        ((s.advance 1).advance (p.digits (s.advance 1)).length) with
      | error e =>
        refine .error fun he => hhigh.fuel ?_
        rw [hread, he]
      | ok got =>
        obtain ⟨high, t⟩ := got
        have hpos := hhigh.advances high t hread
        simp only [Parser.pos_advance] at hpos
        simp only [Except.bind]
        split
        · exact hnone
        · split
          · exact hsome _ _ _ (by rw [Parser.pos_advance]; omega)
          · exact .error (by simp)
  · by_cases hchar : ∃ c min max, (c, min, max) ∈ quantifiers ∧ p.peek s = some c
    · obtain ⟨c, min, max, hmem, hpeek⟩ := hchar
      rw [quantifier_char hmem hpeek]
      exact hsome min max _ (Nat.le_succ _)
    · rw [quantifier_none fun c hpeek => ?_]
      · exact hnone
      · refine ⟨?_, ?_, ?_, ?_⟩
        · rintro rfl
          exact hchar ⟨'*', 0, unbounded, by simp [quantifiers], hpeek⟩
        · rintro rfl
          exact hchar ⟨'+', 1, unbounded, by simp [quantifiers], hpeek⟩
        · rintro rfl
          exact hchar ⟨'?', 0, 1, by simp [quantifiers], hpeek⟩
        · rintro rfl
          exact hbrace hpeek

/-! ## The circle -/

/-- The functions of the circle at some fuel: each ends where the fuel is six for each character
that is left, and a little more for the way down to an atom. -/
structure Ends (p : Pattern) (fuel : Nat) : Prop where
  alternation : ∀ s : Parser, 6 * (p.chars.length - s.pos) + 5 ≤ fuel →
    Progress s 0 (p.alternation fuel s)
  branches : ∀ s : Parser, 6 * (p.chars.length - s.pos) + 4 ≤ fuel →
    Progress s 0 (p.branches fuel s)
  sequence : ∀ s : Parser, 6 * (p.chars.length - s.pos) + 4 ≤ fuel →
    Progress s 0 (p.sequence fuel s)
  items : ∀ s : Parser, 6 * (p.chars.length - s.pos) + 3 ≤ fuel → Progress s 0 (p.items fuel s)
  quantified : ∀ s : Parser, 6 * (p.chars.length - s.pos) + 2 ≤ fuel →
    Progress s 1 (p.quantified fuel s)
  atom : ∀ s : Parser, 6 * (p.chars.length - s.pos) + 1 ≤ fuel → Progress s 1 (p.atom fuel s)
  closeGroup : ∀ (index : Option Nat) (s : Parser), 6 * (p.chars.length - s.pos) + 6 ≤ fuel →
    Progress s 1 (p.closeGroup fuel index s)
  closeLook : ∀ (positive : Bool) (s : Parser), 6 * (p.chars.length - s.pos) + 6 ≤ fuel →
    Progress s 1 (p.closeLook fuel positive s)

section Ends

variable {fuel : Nat} (h : Ends p fuel)

include h

/-- An alternation ends, if all below does. -/
theorem progress_alternation (s : Parser) (hfuel : 6 * (p.chars.length - s.pos) + 5 ≤ fuel + 1) :
    Progress s 0 (p.alternation (fuel + 1) s) := by
  rw [Pattern.alternation]
  refine (h.sequence s (by omega)).bind fun branch t ht => ?_
  refine ((h.branches t (by omega)).from_le ht).bind fun branches u hu => ?_
  dsimp only
  split
  · exact .ok hu
  · exact .ok hu

/-- The branches end, if all below does. -/
theorem progress_branches (s : Parser) (hfuel : 6 * (p.chars.length - s.pos) + 4 ≤ fuel + 1) :
    Progress s 0 (p.branches (fuel + 1) s) := by
  rw [Pattern.branches]
  split
  · next hbar =>
    have hlt := pos_lt_of_peek hbar
    have hadvance : (s.advance 1).pos = s.pos + 1 := rfl
    refine ((h.sequence (s.advance 1) (by omega)).from_le (n := 1) (by omega)).bind
      fun branch t ht => ?_
    refine ((h.branches t (by omega)).from_le (n := 0) (by omega)).bind fun branches u hu => ?_
    exact .ok hu
  · exact .ok le_rfl

/-- A sequence ends, if all below does. -/
theorem progress_sequence (s : Parser) (hfuel : 6 * (p.chars.length - s.pos) + 4 ≤ fuel + 1) :
    Progress s 0 (p.sequence (fuel + 1) s) := by
  rw [Pattern.sequence]
  refine (h.items s (by omega)).bind fun items t ht => ?_
  dsimp only
  split
  · exact .ok ht
  · exact .ok ht

/-- The items end, if all below does. -/
theorem progress_items (s : Parser) (hfuel : 6 * (p.chars.length - s.pos) + 3 ≤ fuel + 1) :
    Progress s 0 (p.items (fuel + 1) s) := by
  rw [Pattern.items]
  split
  · exact .ok le_rfl
  · next c hpeek =>
    have hlt := pos_lt_of_peek hpeek
    split
    · exact .ok le_rfl
    · refine (h.quantified s (by omega)).bind fun item t ht => ?_
      refine ((h.items t (by omega)).from_le (n := 0) (by omega)).bind fun items u hu => ?_
      exact .ok hu

/-- A quantified item takes a character, if all below ends. -/
theorem progress_quantified (s : Parser) (hfuel : 6 * (p.chars.length - s.pos) + 2 ≤ fuel + 1) :
    Progress s 1 (p.quantified (fuel + 1) s) := by
  rw [Pattern.quantified]
  refine (h.atom s (by omega)).bind fun atom t ht => ?_
  refine (progress_quantifier (n := 0) (.ok le_rfl) fun min max u hu => ?_).from_le ht
  dsimp only
  split
  · exact .ok (by rw [Parser.pos_advance]; omega)
  · exact .ok hu

/-- An atom takes a character, if all below ends. -/
theorem progress_atom (s : Parser) (hfuel : 6 * (p.chars.length - s.pos) + 1 ≤ fuel + 1) :
    Progress s 1 (p.atom (fuel + 1) s) := by
  -- whatever opens a group, its inside begins at least one character further on
  have hgroup {t : Parser} (index : Option Nat) (hlt : s.pos < p.chars.length)
      (ht : s.pos + 1 ≤ t.pos) :
      Progress s 1 (p.closeGroup fuel index t) :=
    (h.closeGroup index t (by omega)).from_le (by omega)
  have hlook {t : Parser} (positive : Bool) (hlt : s.pos < p.chars.length)
      (ht : s.pos + 1 ≤ t.pos) :
      Progress s 1 (p.closeLook fuel positive t) :=
    (h.closeLook positive t (by omega)).from_le (by omega)
  unfold Pattern.atom
  split
  · exact .error (by decide)
  · next hpeek =>
    have hlt := pos_lt_of_peek hpeek
    dsimp only
    split
    · split
      · exact hgroup _ hlt (by simp only [Parser.pos_advance]; omega)
      · exact hlook _ hlt (by simp only [Parser.pos_advance]; omega)
      · exact hlook _ hlt (by simp only [Parser.pos_advance]; omega)
      · split
        · split
          · exact .error (by decide)
          · exact hgroup _ hlt (by simp only [Parser.pos_advance]; omega)
        · exact .error (by simp)
      · exact .error (by simp)
    · exact hgroup _ hlt le_rfl
  · exact (progress_cls p (s.advance 1)).from_le (by rw [Parser.pos_advance]; omega)
  · exact .ok le_rfl
  · exact .ok le_rfl
  · exact .ok le_rfl
  · exact (progress_escape p (s.advance 1)).from_le (by rw [Parser.pos_advance]; omega)
  · exact .error (by decide)
  · exact .error (by decide)
  · exact .error (by decide)
  · exact .ok le_rfl

/-- A group takes its parenthesis, if all below ends. -/
theorem progress_closeGroup (index : Option Nat) (s : Parser)
    (hfuel : 6 * (p.chars.length - s.pos) + 6 ≤ fuel + 1) :
    Progress s 1 (p.closeGroup (fuel + 1) index s) := by
  rw [Pattern.closeGroup]
  refine (h.alternation s (by omega)).bind fun inner t ht => ?_
  dsimp only
  split
  · exact .error (by decide)
  · exact .ok (Nat.add_le_add_right ht 1)

/-- A look-around takes its parenthesis, if all below ends. -/
theorem progress_closeLook (positive : Bool) (s : Parser)
    (hfuel : 6 * (p.chars.length - s.pos) + 6 ≤ fuel + 1) :
    Progress s 1 (p.closeLook (fuel + 1) positive s) := by
  rw [Pattern.closeLook]
  refine (h.alternation s (by omega)).bind fun inner t ht => ?_
  dsimp only
  split
  · exact .error (by decide)
  · exact .ok (Nat.add_le_add_right ht 1)

end Ends

/-- The parser ends at every fuel that covers its text. -/
theorem ends (p : Pattern) (fuel : Nat) : Ends p fuel := by
  induction fuel with
  | zero =>
    exact ⟨fun _ h => by omega, fun _ h => by omega, fun _ h => by omega, fun _ h => by omega,
      fun _ h => by omega,
      fun _ h => by omega, fun _ _ h => by omega, fun _ _ h => by omega⟩
  | succ fuel ih =>
    exact ⟨progress_alternation ih, progress_branches ih, progress_sequence ih, progress_items ih,
      progress_quantified ih,
      progress_atom ih, progress_closeGroup ih, progress_closeLook ih⟩

/-- **The fuel is enough.** Whatever the pattern, it is compiled or refused with an error of the
source. -/
theorem Regex.newWithFlags_ne_outOfFuel (pattern : String) (flags : Flags) :
    Regex.newWithFlags pattern flags ≠ .error .outOfFuel := by
  have hprogress :=
    (ends ⟨pattern.toList, flags.ignorecase, flags.multiline⟩
      (7 * (pattern.toList.length + 1))).alternation
    ⟨0, 0, []⟩ (by simp only; omega)
  unfold Regex.newWithFlags Regex.newOfChars
  simp only [bind, Except.bind]
  split
  · next e hread =>
    intro he
    cases he
    exact hprogress.fuel hread
  · split
    · simp
    · simp [pure, Except.pure]

end RtpMux.Pyre
