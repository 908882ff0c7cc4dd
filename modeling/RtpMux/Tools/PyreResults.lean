import RtpMux.Tools.Pyre

/-!
# The ends a match attempt goes through

Backtracking with continuations is a walk over a list: `results node text pos caps` holds
every end `run` offers to its continuation, in the order it offers them and with the
captures it offers them with, and `run` stops at the first one that is accepted
(`run_eq_firstAccepted`). What the continuation does with a refused end must not show,
so it has to leave the captures as it got them (`Restores`), as every continuation the
source builds does.
-/

namespace RtpMux.Pyre

/-- An end position with the captures it was reached with. -/
abbrev Success := Captures × Nat

/-- What `k` makes of one success: the captures and the end it accepts with. -/
def accepted (k : Cont) (success : Success) : Option Success :=
  match k success.1 success.2 with
  | (some stop, caps) => some (caps, stop)
  | (none, _) => none

/-- The outcome of a search that found `found`; a refusal leaves the captures `caps`. -/
def Outcome.ofOption (found : Option Success) (caps : Captures) : Outcome :=
  match found with
  | some (caps, stop) => (some stop, caps)
  | none => (none, caps)

/-- Offer the successes to `k` in order, and stop at the first one it accepts. -/
def firstAccepted (k : Cont) (successes : List Success) (caps : Captures) : Outcome :=
  Outcome.ofOption (successes.findSome? (accepted k)) caps

/-- A refusal gives the captures back as they were. -/
def Restores (k : Cont) : Prop := ∀ caps stop, (k caps stop).1 = none → (k caps stop).2 = caps

/-- The successes of a leaf. -/
def leafResults (stop : Option Nat) (caps : Captures) : List Success :=
  match stop with
  | some stop => [(caps, stop)]
  | none => []

/-- The successes of `repeatFrom`, over those of the inner node. -/
def repeatResults (inner : Nat → Captures → List Success) :
    Nat → Nat → Captures → (count min max : Nat) → (greedy : Bool) → List Success
  | 0, _, _, _, _, _, _ => []
  | fuel + 1, pos, caps, count, min, max, greedy =>
    let more : List Success :=
      if count < max then
        (inner pos caps).flatMap fun success =>
          if success.2 = pos then []
          else repeatResults inner fuel success.2 success.1 (count + 1) min max greedy
      else []
    let here : List Success := if min ≤ count then [(caps, pos)] else []
    if greedy then more ++ here else here ++ more

mutual

/-- The successes of `run`, in the order it tries them. -/
def results : Node → List Char → Nat → Captures → List Success
  | .group none inner, text, pos, caps => results inner text pos caps
  | .group (some index) inner, text, pos, caps =>
    (results inner text pos caps).map fun success =>
      (success.1.set index (some (pos, success.2)), success.2)
  | .look inner positive, text, pos, caps =>
    if (!(results inner text pos caps).isEmpty) = positive then [(caps, pos)] else []
  | .concat items, text, pos, caps => concatResults items text pos caps
  | .alt branches, text, pos, caps => alternativesResults branches text pos caps
  | .repeat inner min max greedy, text, pos, caps =>
    repeatResults (fun pos caps => results inner text pos caps) (text.length - pos + 1) pos caps 0
      min max greedy
  | .char expected, text, pos, caps => leafResults (leafStop (.char expected) text pos) caps
  | .any, text, pos, caps => leafResults (leafStop .any text pos) caps
  | .cls negate items, text, pos, caps => leafResults (leafStop (.cls negate items) text pos) caps
  | .start multiline, text, pos, caps => leafResults (leafStop (.start multiline) text pos) caps
  | .stop multiline, text, pos, caps => leafResults (leafStop (.stop multiline) text pos) caps
  | .wordBoundary, text, pos, caps => leafResults (leafStop .wordBoundary text pos) caps
  | .notWordBoundary, text, pos, caps => leafResults (leafStop .notWordBoundary text pos) caps
  | .textStart, text, pos, caps => leafResults (leafStop .textStart text pos) caps
  | .textEnd, text, pos, caps => leafResults (leafStop .textEnd text pos) caps

/-- The successes of a concatenation, in the order in which they are tried. -/
def concatResults : List Node → List Char → Nat → Captures → List Success
  | [], _, pos, caps => [(caps, pos)]
  | first :: rest, text, pos, caps =>
    (results first text pos caps).flatMap fun success => concatResults rest text success.2 success.1

/-- The successes of the branches, one branch after the other. -/
def alternativesResults : List Node → List Char → Nat → Captures → List Success
  | [], _, _, _ => []
  | branch :: branches, text, pos, caps =>
    results branch text pos caps ++ alternativesResults branches text pos caps

end

/-! ## Walking a list of successes -/

@[simp] theorem orElse_some (stop : Nat) (caps : Captures) (next : Captures → Outcome) :
    Outcome.orElse (some stop, caps) next = (some stop, caps) := rfl

@[simp] theorem orElse_none (caps : Captures) (next : Captures → Outcome) :
    Outcome.orElse (none, caps) next = next caps := rfl

@[simp] theorem ofOption_orElse_refuse (found : Option Success) (caps : Captures) :
    (Outcome.ofOption found caps).orElse (fun _ => (none, caps)) = Outcome.ofOption found caps := by
  cases found <;> rfl

theorem ofOption_orElse (found other : Option Success) (caps : Captures) :
    (Outcome.ofOption found caps).orElse (fun _ => Outcome.ofOption other caps) =
      Outcome.ofOption (found.or other) caps := by
  cases found <;> rfl

@[simp] theorem accepted_ofOption (f : Success → Option Success) (success : Success) :
    accepted (fun caps stop => Outcome.ofOption (f (caps, stop)) caps) success = f success := by
  obtain ⟨caps, stop⟩ := success
  simp only [accepted]
  cases f (caps, stop) <;> rfl

/-- An outcome of a restoring continuation is the one of what it accepts. -/
theorem Restores.eq_ofOption {k : Cont} (hk : Restores k) (caps : Captures) (stop : Nat) :
    k caps stop = Outcome.ofOption (accepted k (caps, stop)) caps := by
  have h := hk caps stop
  unfold accepted
  match hc : k caps stop with
  | (some e, c) => rfl
  | (none, c) =>
    simp only [hc, forall_const] at h
    rw [h]
    rfl

/-- A continuation that refuses with what it got restores. -/
theorem restores_ofOption (f : Success → Option Success) :
    Restores fun caps stop => Outcome.ofOption (f (caps, stop)) caps := by
  intro caps stop h
  cases hf : f (caps, stop) with
  | none => simp [Outcome.ofOption, hf]
  | some found => simp [Outcome.ofOption, hf] at h

theorem restores_firstAccepted (k : Cont) (f : Success → List Success) :
    Restores fun caps stop => firstAccepted k (f (caps, stop)) caps :=
  restores_ofOption fun success => (f success).findSome? (accepted k)

theorem restores_acceptAny : Restores acceptAny := by
  intro caps stop h
  simp [acceptAny] at h

@[simp] theorem firstAccepted_orElse_refuse (k : Cont) (successes : List Success)
    (caps : Captures) :
    (firstAccepted k successes caps).orElse (fun _ => (none, caps)) =
      firstAccepted k successes caps :=
  ofOption_orElse_refuse _ _

/-- What follows a refused walk starts from the captures the walk began with. -/
theorem firstAccepted_orElse_caps (k : Cont) (successes : List Success) (caps : Captures)
    (next : Captures → Outcome) :
    (firstAccepted k successes caps).orElse next =
      (firstAccepted k successes caps).orElse fun _ => next caps := by
  unfold firstAccepted
  cases successes.findSome? (accepted k) <;> rfl

/-- The first accepted of two lists. -/
theorem firstAccepted_append (k : Cont) (xs ys : List Success) (caps : Captures) :
    firstAccepted k (xs ++ ys) caps =
      (firstAccepted k xs caps).orElse fun _ => firstAccepted k ys caps := by
  rw [firstAccepted, firstAccepted, List.findSome?_append]
  exact (ofOption_orElse _ _ _).symm

/-- A walk over a `flatMap` is a walk whose continuation is a walk. -/
theorem firstAccepted_flatMap (k : Cont) (f : Success → List Success) (xs : List Success)
    (caps : Captures) :
    firstAccepted k (xs.flatMap f) caps =
      firstAccepted (fun caps stop => firstAccepted k (f (caps, stop)) caps) xs caps := by
  have h : accepted (fun caps stop => firstAccepted k (f (caps, stop)) caps) =
      fun success => (f success).findSome? (accepted k) := by
    funext success
    exact accepted_ofOption (fun success => (f success).findSome? (accepted k)) success
  rw [firstAccepted, firstAccepted, h]
  congr 1
  induction xs with
  | nil => rfl
  | cons success rest ih =>
    rw [List.flatMap_cons, List.findSome?_append, ih, List.findSome?_cons]
    cases (f success).findSome? (accepted k) <;> rfl

/-- A single success is accepted or not. -/
theorem firstAccepted_singleton {k : Cont} (hk : Restores k) (caps : Captures) (stop : Nat) :
    firstAccepted k [(caps, stop)] caps = k caps stop := by
  rw [hk.eq_ofOption]
  cases h : accepted k (caps, stop) <;> simp [firstAccepted, h]

/-! ## `run` walks its results -/

/-- A matcher that offers `successes pos caps` to every continuation that restores. -/
def Walks (matcher : Nat → Captures → Cont → Outcome) (successes : Nat → Captures → List Success) :
    Prop :=
  ∀ pos caps k, Restores k → matcher pos caps k = firstAccepted k (successes pos caps) caps

/-- A leaf has one success at most. -/
theorem leaf_eq_firstAccepted (stop : Option Nat) (caps : Captures) {k : Cont} (hk : Restores k) :
    leaf stop caps k = firstAccepted k (leafResults stop caps) caps := by
  cases stop with
  | none => rfl
  | some stop => exact (firstAccepted_singleton hk caps stop).symm

/-- Setting an entry to itself changes nothing. -/
theorem set_getD_self (caps : Captures) (index : Nat) :
    caps.set index (caps.getD index none) = caps := by
  by_cases h : index < caps.length
  · rw [List.getD_eq_getElem?_getD, List.getElem?_eq_getElem h, Option.getD_some,
      List.set_getElem_self]
  · rw [List.set_eq_of_length_le (by omega)]

/-- A repetition walks its successes. -/
theorem repeatFrom_walks {inner : Nat → Captures → Cont → Outcome}
    {successes : Nat → Captures → List Success} (hi : Walks inner successes)
    (fuel pos : Nat) (caps : Captures) (count min max : Nat) (greedy : Bool) {k : Cont}
    (hk : Restores k) :
    repeatFrom inner fuel pos caps count min max greedy k =
      firstAccepted k (repeatResults successes fuel pos caps count min max greedy) caps := by
  induction fuel generalizing pos caps count with
  | zero => rfl
  | succ fuel ih =>
    have hhere : (if min ≤ count then k caps pos else (none, caps)) =
        firstAccepted k (if min ≤ count then [(caps, pos)] else []) caps := by
      split
      · exact (firstAccepted_singleton hk caps pos).symm
      · rfl
    -- the continuation of one iteration walks what the remaining iterations offer
    let rest : Success → List Success := fun success =>
      if success.2 = pos then []
      else repeatResults successes fuel success.2 success.1 (count + 1) min max greedy
    have hstep : (fun (innerCaps : Captures) (stop : Nat) =>
        if stop = pos then (none, innerCaps)
        else (repeatFrom inner fuel stop innerCaps (count + 1) min max greedy k).orElse
          fun _ => (none, innerCaps)) =
        fun caps stop => firstAccepted k (rest (caps, stop)) caps := by
      funext innerCaps stop
      by_cases h : stop = pos
      · simp [rest, h, firstAccepted, Outcome.ofOption]
      · simp [rest, h, ih]
    have hmore : (if count < max then
          inner pos caps fun caps stop => firstAccepted k (rest (caps, stop)) caps
        else (none, caps)) =
        firstAccepted k (if count < max then (successes pos caps).flatMap rest else []) caps := by
      split
      · rw [firstAccepted_flatMap]
        exact hi pos caps _ (restores_firstAccepted k rest)
      · rfl
    unfold repeatFrom repeatResults
    simp only [hstep, hhere]
    cases greedy with
    | true => simp only [if_true, hmore, firstAccepted_append, rest]
    | false =>
      have hlazy : (if count < max then
            (inner pos caps fun caps stop => firstAccepted k (rest (caps, stop)) caps).orElse
              fun _ => (none, caps)
          else (none, caps)) =
          firstAccepted k (if count < max then (successes pos caps).flatMap rest else []) caps := by
        rw [← firstAccepted_orElse_refuse, ← hmore]
        split <;> rfl
      simp only [Bool.false_eq_true, if_false, firstAccepted_orElse_caps, hlazy,
        firstAccepted_append, rest]

mutual

/-- **The engine walks its results.** -/
theorem run_eq_firstAccepted : (node : Node) → (text : List Char) →
    Walks (run node text) (results node text)
  | .group none inner, text, pos, caps, k, hk => by
    simpa only [run, results] using run_eq_firstAccepted inner text pos caps k hk
  | .group (some index) inner, text, pos, caps, k, hk => by
    -- a refused end puts the group back, so the continuation inside restores too
    have hset (caps : Captures) (stop : Nat) :
        (k (caps.set index (some (pos, stop))) stop).orElse
            (fun c => (none, c.set index (caps.getD index none))) =
          Outcome.ofOption (accepted k (caps.set index (some (pos, stop)), stop)) caps := by
      rw [hk.eq_ofOption]
      cases accepted k (caps.set index (some (pos, stop)), stop) with
      | some found => rfl
      | none => simp only [Outcome.ofOption, orElse_none, List.set_set, set_getD_self]
    simp only [run, results, hset]
    rw [run_eq_firstAccepted inner text pos caps _ (restores_ofOption fun success =>
      accepted k (success.1.set index (some (pos, success.2)), success.2))]
    rw [firstAccepted_orElse_caps, set_getD_self, firstAccepted_orElse_refuse]
    simp only [firstAccepted, List.findSome?_map, Function.comp_def]
    congr 2
    funext success
    exact accepted_ofOption (fun success =>
      accepted k (success.1.set index (some (pos, success.2)), success.2)) success
  | .look inner positive, text, pos, caps, k, hk => by
    have hprobe : (run inner text pos caps fun caps stop => (some stop, caps)).1.isSome =
        !(results inner text pos caps).isEmpty := by
      refine (congrArg (fun outcome => outcome.1.isSome)
        (run_eq_firstAccepted inner text pos caps _ restores_acceptAny)).trans ?_
      cases results inner text pos caps <;> rfl
    simp only [run, results, hprobe]
    split
    · exact (firstAccepted_singleton hk caps pos).symm
    · rfl
  | .concat items, text, pos, caps, k, hk => by
    simpa only [run, results] using concat_eq_firstAccepted items text pos caps k hk
  | .alt branches, text, pos, caps, k, hk => by
    simpa only [run, results] using alternatives_eq_firstAccepted branches text pos caps k hk
  | .repeat inner min max greedy, text, pos, caps, k, hk => by
    simpa only [run, results] using
      repeatFrom_walks (run_eq_firstAccepted inner text) _ pos caps 0 min max greedy hk
  | .char expected, text, pos, caps, k, hk => by
    simpa only [run, results] using leaf_eq_firstAccepted _ caps hk
  | .any, text, pos, caps, k, hk => by
    simpa only [run, results] using leaf_eq_firstAccepted _ caps hk
  | .cls negate items, text, pos, caps, k, hk => by
    simpa only [run, results] using leaf_eq_firstAccepted _ caps hk
  | .start multiline, text, pos, caps, k, hk => by
    simpa only [run, results] using leaf_eq_firstAccepted _ caps hk
  | .stop multiline, text, pos, caps, k, hk => by
    simpa only [run, results] using leaf_eq_firstAccepted _ caps hk
  | .wordBoundary, text, pos, caps, k, hk => by
    simpa only [run, results] using leaf_eq_firstAccepted _ caps hk
  | .notWordBoundary, text, pos, caps, k, hk => by
    simpa only [run, results] using leaf_eq_firstAccepted _ caps hk
  | .textStart, text, pos, caps, k, hk => by
    simpa only [run, results] using leaf_eq_firstAccepted _ caps hk
  | .textEnd, text, pos, caps, k, hk => by
    simpa only [run, results] using leaf_eq_firstAccepted _ caps hk

/-- A concatenation walks its successes. -/
theorem concat_eq_firstAccepted : (items : List Node) → (text : List Char) →
    Walks (concat items text) (concatResults items text)
  | [], text, pos, caps, k, hk => by
    simpa only [concat, concatResults] using (firstAccepted_singleton hk caps pos).symm
  | first :: rest, text, pos, caps, k, hk => by
    have hrest : (fun (innerCaps : Captures) (stop : Nat) =>
        (concat rest text stop innerCaps k).orElse fun _ => (none, innerCaps)) =
        fun caps stop => firstAccepted k (concatResults rest text stop caps) caps := by
      funext innerCaps stop
      rw [concat_eq_firstAccepted rest text stop innerCaps k hk, firstAccepted_orElse_refuse]
    simp only [concat, concatResults, hrest, firstAccepted_flatMap]
    rw [run_eq_firstAccepted first text pos caps _
      (restores_firstAccepted k fun success => concatResults rest text success.2 success.1),
      firstAccepted_orElse_refuse]

/-- Alternatives walk their successes. -/
theorem alternatives_eq_firstAccepted : (branches : List Node) → (text : List Char) →
    Walks (alternatives branches text) (alternativesResults branches text)
  | [], text, pos, caps, k, _ => by
    simp only [alternatives, alternativesResults]
    rfl
  | branch :: branches, text, pos, caps, k, hk => by
    simp only [alternatives, alternativesResults, firstAccepted_append]
    rw [run_eq_firstAccepted branch text pos caps k hk,
      alternatives_eq_firstAccepted branches text pos caps k hk]

end

end RtpMux.Pyre
