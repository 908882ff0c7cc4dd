import RtpMux.Tools.PyreIter

/-!
# The dot and the newline

Under `re.S` a dot is rewritten into a class of all characters. Without it a dot stays what it is,
and matches a newline too, where it is to match everything else. `strictRun` is the matcher up to
that: it goes through the same steps and gives up (`none`) as soon as a dot is tried at a newline.
Where it does not give up, the dot is the class of all characters but the newline.
-/

namespace RtpMux.Pyre

/-! ## Another node for the dot -/

mutual

/-- The pattern with `dot` for each of its dots. -/
def substDot (dot : Node) : Node → Node
  | .any => dot
  | .group index inner => .group index (substDot dot inner)
  | .look inner positive => .look (substDot dot inner) positive
  | .concat items => .concat (substDotAll dot items)
  | .alt branches => .alt (substDotAll dot branches)
  | .repeat inner min max greedy => .repeat (substDot dot inner) min max greedy
  | other => other

/-- The same for each node of a list. -/
def substDotAll (dot : Node) : List Node → List Node
  | [] => []
  | node :: nodes => substDot dot node :: substDotAll dot nodes

end

mutual

/-- A dot in place of the dot is nothing new. -/
theorem substDot_any : (node : Node) → substDot .any node = node
  | .any => rfl
  | .group _ inner => by rw [substDot, substDot_any inner]
  | .look inner _ => by rw [substDot, substDot_any inner]
  | .concat items => by rw [substDot, substDotAll_any items]
  | .alt branches => by rw [substDot, substDotAll_any branches]
  | .repeat inner _ _ _ => by rw [substDot, substDot_any inner]
  | .char _ | .cls _ _ | .start _ | .stop
    _ | .wordBoundary | .notWordBoundary | .textStart | .textEnd => rfl

theorem substDotAll_any : (nodes : List Node) → substDotAll .any nodes = nodes
  | [] => rfl
  | node :: nodes => by rw [substDotAll, substDot_any node, substDotAll_any nodes]

end

mutual

/-- Once a class stands for the dots there are none left. -/
theorem substDot_cls (dot : Node) (negate : Bool) (items : List ClassItem) :
    (node : Node) → substDot dot (substDot (.cls negate items) node) =
      substDot (.cls negate items) node
  | .any => rfl
  | .group _ inner => by rw [substDot, substDot, substDot_cls dot negate items inner]
  | .look inner _ => by rw [substDot, substDot, substDot_cls dot negate items inner]
  | .concat nodes => by rw [substDot, substDot, substDotAll_cls dot negate items nodes]
  | .alt branches => by rw [substDot, substDot, substDotAll_cls dot negate items branches]
  | .repeat inner _ _ _ => by rw [substDot, substDot, substDot_cls dot negate items inner]
  | .char _ | .cls _ _ | .start _ | .stop
    _ | .wordBoundary | .notWordBoundary | .textStart | .textEnd => rfl

/-- A second substitution finds no dot. -/
theorem substDotAll_cls (dot : Node) (negate : Bool) (items : List ClassItem) :
    (nodes : List Node) → substDotAll dot (substDotAll (.cls negate items) nodes) =
      substDotAll (.cls negate items) nodes
  | [] => rfl
  | node :: nodes => by
    rw [substDotAll, substDotAll, substDot_cls dot negate items node,
      substDotAll_cls dot negate items nodes]

end

mutual

/-- `re.S` puts the class of all characters for the dot. -/
theorem rewriteDotall_eq : (node : Node) → rewriteDotall node = substDot (.cls false [.dotAny]) node
  | .any => rfl
  | .group _ inner => by rw [substDot, rewriteDotall, rewriteDotall_eq inner]
  | .look inner _ => by rw [substDot, rewriteDotall, rewriteDotall_eq inner]
  | .concat items => by rw [substDot, rewriteDotall, rewriteDotallAll_eq items]
  | .alt branches => by rw [substDot, rewriteDotall, rewriteDotallAll_eq branches]
  | .repeat inner _ _ _ => by rw [substDot, rewriteDotall, rewriteDotall_eq inner]
  | .char _ | .cls _ _ | .start _ | .stop
    _ | .wordBoundary | .notWordBoundary | .textStart | .textEnd => rfl

/-- The source's rewriting is the substitution of a class. -/
theorem rewriteDotallAll_eq : (nodes : List Node) → rewriteDotallAll nodes = substDotAll
    (.cls false [.dotAny]) nodes
  | [] => rfl
  | node :: nodes =>
    by rw [rewriteDotallAll, substDotAll, rewriteDotall_eq node, rewriteDotallAll_eq nodes]

end

mutual

/-- Nodes that match alike can stand for each other. -/
theorem run_substDot_congr {dot dot' : Node} {text : List Char} (h : run dot text = run dot' text) :
    (node : Node) → run (substDot dot node) text = run (substDot dot' node) text
  | .any => h
  | .group none inner => by
    funext pos caps k
    simp only [substDot, run, run_substDot_congr h inner]
  | .group (some index) inner => by
    funext pos caps k
    simp only [substDot, run, run_substDot_congr h inner]
  | .look inner _ => by
    funext pos caps k
    simp only [substDot, run, run_substDot_congr h inner]
  | .concat items => by
    funext pos caps k
    simp only [substDot, run, concat_substDot_congr h items]
  | .alt branches => by
    funext pos caps k
    simp only [substDot, run, alternatives_substDot_congr h branches]
  | .repeat inner _ _ _ => by
    funext pos caps k
    simp only [substDot, run, run_substDot_congr h inner]
  | .char _ | .cls _ _ | .start _ | .stop
    _ | .wordBoundary | .notWordBoundary | .textStart | .textEnd => rfl

/-- Two dots that run alike run alike in a concatenation. -/
theorem concat_substDot_congr {dot dot' : Node} {text : List Char}
    (h : run dot text = run dot' text) :
    (items : List Node) → concat (substDotAll dot items) text = concat (substDotAll dot' items) text
  | [] => rfl
  | first :: rest => by
    funext pos caps k
    simp only [substDotAll, concat, run_substDot_congr h first, concat_substDot_congr h rest]

/-- Two dots that run alike run alike in alternatives. -/
theorem alternatives_substDot_congr {dot dot' : Node} {text : List Char}
    (h : run dot text = run dot' text) :
    (branches : List Node) →
      alternatives (substDotAll dot branches) text = alternatives (substDotAll dot' branches) text
  | [] => rfl
  | branch :: branches => by
    funext pos caps k
    simp only [substDotAll, alternatives, run_substDot_congr h branch,
      alternatives_substDot_congr h branches]

end

/-! ## The matcher that gives up -/

/-- A continuation of the strict matcher. -/
abbrev StrictCont := Captures → Nat → Option Outcome

/-- `Outcome.orElse`, of what was not given up. -/
def strictOrElse (outcome : Option Outcome) (next : Captures → Option Outcome) : Option Outcome :=
  outcome.bind fun
    | (some stop, caps) => some (some stop, caps)
    | (none, caps) => next caps

/-- A leaf, which the dot is not. -/
def strictLeaf (stop : Option Nat) (caps : Captures) (k : StrictCont) : Option Outcome :=
  match stop with
  | some stop => k caps stop
  | none => some (none, caps)

/-- `repeatFrom`. -/
def strictRepeatFrom (inner : Nat → Captures → StrictCont → Option Outcome) :
    Nat → Nat → Captures → (count min max : Nat) → (greedy : Bool) → StrictCont → Option Outcome
  | 0, _, caps, _, _, _, _, _ => some (none, caps)
  | fuel + 1, pos, caps, count, min, max, greedy, k =>
    let expand (caps : Captures) : Option Outcome :=
      inner pos caps fun innerCaps stop =>
        if stop = pos then some (none, innerCaps)
        else strictOrElse (strictRepeatFrom inner fuel stop innerCaps (count + 1) min max greedy k)
          fun _ => some (none, innerCaps)
    if greedy then
      strictOrElse (if count < max then expand caps else some (none, caps))
        fun _ => if min ≤ count then k caps pos else some (none, caps)
    else
      strictOrElse (if min ≤ count then k caps pos else some (none, caps)) fun caps =>
        if count < max then strictOrElse (expand caps) fun _ =>
          some (none, caps) else some (none, caps)

mutual

/-- `run`, which gives up where a dot is tried at a newline. -/
def strictRun : Node → List Char → Nat → Captures → StrictCont → Option Outcome
  | .any, text, pos, caps, k =>
    if text[pos]? = some '\n' then none else strictLeaf (leafStop .any text pos) caps k
  | .group none inner, text, pos, caps, k => strictRun inner text pos caps k
  | .group (some index) inner, text, pos, caps, k =>
    let saved := caps.getD index none
    strictOrElse
      (strictRun inner text pos caps fun innerCaps stop =>
        let previous := innerCaps.getD index none
        strictOrElse (k (innerCaps.set index (some (pos, stop))) stop)
          fun caps => some (none, caps.set index previous))
      fun caps => some (none, caps.set index saved)
  | .look inner positive, text, pos, caps, k =>
    (strictRun inner text pos caps fun caps stop => some (some stop, caps)).bind fun probe =>
      if probe.1.isSome = positive then k caps pos else some (none, caps)
  | .concat items, text, pos, caps, k => strictConcat items text pos caps k
  | .alt branches, text, pos, caps, k => strictAlternatives branches text pos caps k
  | .repeat inner min max greedy, text, pos, caps, k =>
    strictRepeatFrom (fun pos caps k => strictRun inner text pos caps k)
      (text.length - pos + 1) pos caps 0
      min max greedy k
  | .char expected, text, pos, caps, k => strictLeaf (leafStop (.char expected) text pos) caps k
  | .cls negate items, text, pos, caps, k =>
    strictLeaf (leafStop (.cls negate items) text pos) caps k
  | .start multiline, text, pos, caps, k => strictLeaf (leafStop (.start multiline) text pos) caps k
  | .stop multiline, text, pos, caps, k => strictLeaf (leafStop (.stop multiline) text pos) caps k
  | .wordBoundary, text, pos, caps, k => strictLeaf (leafStop .wordBoundary text pos) caps k
  | .notWordBoundary, text, pos, caps, k => strictLeaf (leafStop .notWordBoundary text pos) caps k
  | .textStart, text, pos, caps, k => strictLeaf (leafStop .textStart text pos) caps k
  | .textEnd, text, pos, caps, k => strictLeaf (leafStop .textEnd text pos) caps k

/-- `concat`, undefined where a dot is tried at a newline. -/
def strictConcat : List Node → List Char → Nat → Captures → StrictCont → Option Outcome
  | [], _, pos, caps, k => k caps pos
  | first :: rest, text, pos, caps, k =>
    strictOrElse
      (strictRun first text pos caps fun innerCaps stop =>
        strictOrElse (strictConcat rest text stop innerCaps k) fun _ => some (none, innerCaps))
      fun _ => some (none, caps)

/-- `alternatives`, undefined where a dot is tried at a newline. -/
def strictAlternatives : List Node → List Char → Nat → Captures → StrictCont → Option Outcome
  | [], _, _, caps, _ => some (none, caps)
  | branch :: branches, text, pos, caps, k =>
    strictOrElse (strictRun branch text pos caps k) fun _ =>
      strictAlternatives branches text pos caps k

end

/-- Where the strict matcher gets through, the other comes to the same. -/
def Follows (strict : Option Outcome) (outcome : Outcome) : Prop :=
  ∀ x, strict = some x → outcome = x

theorem follows_some (outcome : Outcome) : Follows (some outcome) outcome :=
  fun _ h => Option.some.inj h

/-- A second try follows where the first does. -/
theorem Follows.orElse {strict : Option Outcome} {outcome : Outcome}
    {next : Captures → Option Outcome}
    {next' : Captures → Outcome} (h : Follows strict outcome)
    (hnext : ∀ caps, Follows (next caps) (next' caps)) :
    Follows (strictOrElse strict next) (outcome.orElse next') := by
  intro x hx
  cases strict with
  | none => cases hx
  | some y =>
    rw [h y rfl]
    obtain ⟨_ | stop, caps⟩ := y
    · exact hnext caps x hx
    · exact Option.some.inj hx

theorem Follows.ite {p : Prop} [Decidable p] {a b : Option Outcome} {a' b' : Outcome}
    (ha : Follows a a')
    (hb : Follows b b') : Follows (if p then a else b) (if p then a' else b') := by
  split
  · exact ha
  · exact hb

/-- Continuations that come to the same. -/
def FollowsAll (k : StrictCont) (k' : Cont) : Prop :=
  ∀ caps stop, Follows (k caps stop) (k' caps stop)

/-- A leaf follows. -/
theorem follows_leaf {stop : Option Nat} {caps : Captures} {k : StrictCont} {k' : Cont}
    (hk : FollowsAll k k') :
    Follows (strictLeaf stop caps k) (leaf stop caps k') := by
  cases stop with
  | none => exact follows_some _
  | some stop => exact hk caps stop

/-- A repetition follows. -/
theorem follows_repeatFrom {inner : Nat → Captures → StrictCont → Option Outcome}
    {inner' : Nat → Captures → Cont → Outcome}
    (hinner : ∀ pos caps k k', FollowsAll k k' → Follows (inner pos caps k) (inner' pos caps k'))
    (fuel pos : Nat) (caps : Captures) (count min max : Nat) (greedy : Bool) {k : StrictCont}
    {k' : Cont}
    (hk : FollowsAll k k') :
    Follows (strictRepeatFrom inner fuel pos caps count min max greedy k)
      (repeatFrom inner' fuel pos caps count min max greedy k') := by
  induction fuel generalizing pos caps count with
  | zero => exact follows_some _
  | succ fuel ih =>
    have hexpand (caps : Captures) : Follows
        (inner pos caps fun innerCaps stop =>
          if stop = pos then some (none, innerCaps)
          else strictOrElse (strictRepeatFrom inner fuel stop innerCaps
            (count + 1) min max greedy k)
            fun _ => some (none, innerCaps))
        (inner' pos caps fun innerCaps stop =>
          if stop = pos then (none, innerCaps)
          else (repeatFrom inner' fuel stop innerCaps (count + 1) min max greedy k').orElse
            fun _ => (none, innerCaps)) := by
      refine hinner pos caps _ _ fun innerCaps stop => .ite (follows_some _) ?_
      exact (ih stop innerCaps (count + 1)).orElse fun _ => follows_some _
    have hhere (caps : Captures) :
        Follows (if min ≤ count then k caps pos else some (none, caps))
          (if min ≤ count then k' caps pos else (none, caps)) :=
      .ite (hk caps pos) (follows_some _)
    unfold strictRepeatFrom repeatFrom
    refine .ite ?_ ?_
    · exact (Follows.ite (hexpand caps) (follows_some _)).orElse fun _ => hhere caps
    · refine (hhere caps).orElse fun caps => .ite ?_ (follows_some _)
      exact (hexpand caps).orElse fun _ => follows_some _

/-- A node that is as good as a dot everywhere but at a newline. -/
structure DotLike (text : List Char) (dot : Node) : Prop where
  run : ∀ pos caps k, run dot text pos caps k = leaf (leafStop dot text pos) caps k
  stop : ∀ pos, text[pos]? ≠ some '\n' → leafStop dot text pos = leafStop .any text pos

mutual

/-- **The strict matcher** comes to what the matcher comes to, whichever of the nodes stands for the
dot. -/
theorem follows_run {text : List Char} {dot : Node} (hdot : DotLike text dot) :
    (node : Node) → (pos : Nat) →
    (caps : Captures) → (k : StrictCont) → (k' : Cont) → FollowsAll k k' →
    Follows (strictRun node text pos caps k) (run (substDot dot node) text pos caps k')
  | .any, pos, caps, k, k', hk => by
    rw [strictRun, substDot, hdot.run]
    split
    · intro x hx
      cases hx
    · next hpos =>
      rw [hdot.stop pos hpos]
      exact follows_leaf hk
  | .group none inner, pos, caps, k, k', hk => by
    simp only [strictRun, substDot, run]
    exact follows_run hdot inner pos caps k k' hk
  | .group (some index) inner, pos, caps, k, k', hk => by
    simp only [strictRun, substDot, run]
    refine (follows_run hdot inner pos caps _ _ fun innerCaps stop => ?_).orElse fun _ =>
      follows_some _
    exact (hk _ stop).orElse fun _ => follows_some _
  | .look inner positive, pos, caps, k, k', hk => by
    simp only [strictRun, substDot, run]
    intro x hx
    obtain ⟨probe, hprobe, hx⟩ := Option.bind_eq_some_iff.1 hx
    have hrun := follows_run hdot inner pos caps _ (fun caps stop => (some stop, caps))
      (fun _ _ => follows_some _) probe hprobe
    rw [hrun]
    exact Follows.ite (hk caps pos) (follows_some _) x hx
  | .concat items, pos, caps, k, k', hk => by
    simp only [strictRun, substDot, run]
    exact follows_concat hdot items pos caps k k' hk
  | .alt branches, pos, caps, k, k', hk => by
    simp only [strictRun, substDot, run]
    exact follows_alternatives hdot branches pos caps k k' hk
  | .repeat inner min max greedy, pos, caps, k, k', hk => by
    simp only [strictRun, substDot, run]
    exact follows_repeatFrom (follows_run hdot inner) _ pos caps 0 min max greedy hk
  | .char _, _, _, _, _, hk | .cls _ _, _, _, _, _, hk | .start _, _, _, _, _, hk | .stop _, _, _,
    _, _, hk
  | .wordBoundary, _, _, _, _, hk | .notWordBoundary, _, _, _, _, hk | .textStart, _, _, _, _, hk
  | .textEnd, _, _, _, _, hk => by
    simp only [strictRun, substDot, run]
    exact follows_leaf hk

/-- A concatenation follows. -/
theorem follows_concat {text : List Char} {dot : Node} (hdot : DotLike text dot) :
    (items : List Node) →
    (pos : Nat) → (caps : Captures) → (k : StrictCont) → (k' : Cont) → FollowsAll k k' →
    Follows (strictConcat items text pos caps k) (concat (substDotAll dot items) text pos caps k')
  | [], pos, caps, k, k', hk => hk caps pos
  | first :: rest, pos, caps, k, k', hk => by
    simp only [strictConcat, substDotAll, concat]
    refine (follows_run hdot first pos caps _ _ fun innerCaps stop => ?_).orElse fun _ =>
      follows_some _
    exact (follows_concat hdot rest stop innerCaps k k' hk).orElse fun _ => follows_some _

/-- Alternatives follow. -/
theorem follows_alternatives {text : List Char} {dot : Node} (hdot : DotLike text dot) :
    (branches : List Node) →
    (pos : Nat) → (caps : Captures) → (k : StrictCont) → (k' : Cont) → FollowsAll k k' →
    Follows (strictAlternatives branches text pos caps k)
      (alternatives (substDotAll dot branches) text pos caps k')
  | [], _, _, _, _, _ => follows_some _
  | branch :: branches, pos, caps, k, k', hk => by
    simp only [strictAlternatives, substDotAll, alternatives]
    refine (follows_run hdot branch pos caps k k' hk).orElse fun _ => ?_
    exact follows_alternatives hdot branches pos caps k k' hk

end

/-! ## The functions of a pattern -/

/-- The match that an outcome at a start stands for. -/
def foundAt (start : Nat) : Outcome → Option Found
  | (some stop, captures) => some ⟨start, stop, captures⟩
  | (none, _) => none

/-- `Regex.attempt`. -/
def Regex.strictAttempt (r : Regex) (text : List Char) (k : Cont) (start : Nat) :
    Option (Option Found) :=
  (strictRun r.root text start r.emptyCaptures fun caps stop => some (k caps stop)).map
    (foundAt start)

/-- The first match over some starts. -/
def Regex.strictSearch (r : Regex) (text : List Char) : List Nat → Option (Option Found)
  | [] => some none
  | start :: starts =>
    (r.strictAttempt text acceptAny start).bind fun
      | some m => some (some m)
      | none => r.strictSearch text starts

/-- `Regex.searchFrom`. -/
def Regex.strictSearchFrom (r : Regex) (text : List Char) (first : Nat) : Option (Option Found) :=
  r.strictSearch text (List.range' first (text.length + 1 - first))

/-- `Regex.findIterLoop`. -/
def Regex.strictFindIterLoop (r : Regex) (text : List Char) : Nat → Nat → Option (List Found)
  | 0, _ => some []
  | fuel + 1, first =>
    if first ≤ text.length then
      (r.strictSearchFrom text first).bind fun
        | none => some []
        | some m => (r.strictFindIterLoop text fuel (position (some m))).map (m :: ·)
    else some []

/-- While `search`, `full_match` and `find_iter` run on a text, no dot is tried at a newline. -/
def Regex.dotsClear (r : Regex) (text : String) : Bool :=
  let seen := r.seen text.toList
  (r.strictSearchFrom seen 0).isSome &&
    (r.strictAttempt seen (acceptOnly text.toList.length) 0).isSome &&
    (r.strictFindIterLoop seen (text.toList.length + 2) 0).isSome

/-- The same pattern with another node for its dots. -/
def Regex.withDot (r : Regex) (dot : Node) : Regex := { r with root := substDot dot r.root }

/-- The four functions give the same on a text. -/
structure SameResults (r r' : Regex) (text : String) : Prop where
  search : r.search text = r'.search text
  fullMatch : r.fullMatch text = r'.fullMatch text
  findIter : r.findIter text = r'.findIter text
  replaceAll : ∀ replacement, r.replaceAll text replacement = r'.replaceAll text replacement

section

variable {r : Regex} {text : List Char} {dot : Node} (hdot : DotLike text dot)

include hdot

/-- A strict attempt is an attempt with any dot. -/
theorem attempt_of_strict {k : Cont} {start : Nat} {m : Option Found}
    (h : r.strictAttempt text k start = some m) :
    (r.withDot dot).attempt text start k = m := by
  obtain ⟨outcome, houtcome, rfl⟩ := Option.map_eq_some_iff.1 h
  have hrun := follows_run hdot r.root start r.emptyCaptures _ k (fun caps stop => follows_some _)
      outcome houtcome
  have hattempt : (r.withDot dot).attempt text start k =
      foundAt start (run (substDot dot r.root) text start r.emptyCaptures k) := rfl
  rw [hattempt, hrun]

/-- A strict search is a search with any dot. -/
theorem searchFrom_of_strict {first : Nat} {m : Option Found}
    (h : r.strictSearchFrom text first = some m) :
    (r.withDot dot).searchFrom text first = m := by
  unfold Regex.strictSearchFrom at h
  unfold Regex.searchFrom
  generalize List.range' first (text.length + 1 - first) = starts at h
  induction starts with
  | nil => exact Option.some.inj h
  | cons start starts ih =>
    obtain ⟨found, hfound, hrest⟩ := Option.bind_eq_some_iff.1 h
    rw [List.findSome?_cons, attempt_of_strict hdot hfound]
    cases found with
    | none => exact ih hrest
    | some found => exact Option.some.inj hrest

/-- A strict iteration is an iteration with any dot. -/
theorem findIterLoop_of_strict {fuel first : Nat} {ms : List Found}
    (h : r.strictFindIterLoop text fuel first = some ms) :
    (r.withDot dot).findIterLoop text fuel first = ms := by
  induction fuel generalizing first ms with
  | zero => exact Option.some.inj h
  | succ fuel ih =>
    rw [Regex.strictFindIterLoop] at h
    split at h
    · obtain ⟨found, hfound, hrest⟩ := Option.bind_eq_some_iff.1 h
      have hsearch := searchFrom_of_strict hdot hfound
      cases found with
      | none =>
        rw [Regex.findIterLoop_of_none hsearch]
        exact Option.some.inj hrest
      | some m =>
        obtain ⟨rest, hloop, rfl⟩ := Option.map_eq_some_iff.1 hrest
        rw [Regex.findIterLoop_of_some hsearch, ih hloop]
    · next hpast =>
      rw [Regex.findIterLoop, if_neg hpast]
      exact Option.some.inj h

end

/-- Patterns that search and iterate alike have the same results. -/
theorem sameResults_of_findIter {r r' : Regex} {text : String} (hnames : r.names = r'.names)
    (hsearch : r.searchFrom (r.seen text.toList) 0 = r'.searchFrom (r'.seen text.toList) 0)
    (hfull : r.attempt (r.seen text.toList) 0 (acceptOnly text.toList.length) =
      r'.attempt (r'.seen text.toList) 0 (acceptOnly text.toList.length))
    (hiter : r.findIterFound text = r'.findIterFound text) : SameResults r r' text := by
  have hmaterialize : r.materialize = r'.materialize := by
    funext chars found
    rw [Regex.materialize, Regex.materialize, hnames]
  have hfindIter : r.findIter text = r'.findIter text := by
    rw [Regex.findIter, Regex.findIter, hiter, hmaterialize]
  refine ⟨?_, ?_, hfindIter, fun replacement => ?_⟩
  · rw [Regex.search, Regex.search, hsearch, hmaterialize]
  · rw [Regex.fullMatch, Regex.fullMatch, hfull, hmaterialize]
  · rw [Regex.replaceAll, Regex.replaceAll, hfindIter]

theorem withDot_any (r : Regex) : r.withDot .any = r := by
  rw [Regex.withDot, substDot_any]

/-- The class of all characters but the newline. -/
def notNewline : Node := .cls true [.range '\n' '\n']

theorem dotLike_any (text : List Char) : DotLike text .any :=
  ⟨fun _ _ _ => by rw [run], fun _ _ => rfl⟩

theorem dotLike_notNewline (text : List Char) : DotLike text notNewline := by
  refine ⟨fun _ _ _ => by rw [notNewline, run], fun pos hpos => ?_⟩
  simp only [notNewline, leafStop]
  cases hc : text[pos]? with
  | none =>
    have hpast : ¬ pos < text.length := by simpa using hc
    simp [hpast]
  | some c =>
    have hlt : pos < text.length := (List.getElem?_eq_some_iff.1 hc).1
    have hne : c ≠ '\n' := fun h => hpos (by rw [hc, h])
    have hno : ¬ ('\n' ≤ c ∧ c ≤ '\n') := fun h => hne (Char.le_antisymm h.2 h.1)
    have hclass : classMatches [.range '\n' '\n'] true c = true := by
      have hrange : (decide ('\n' ≤ c) && decide (c ≤ '\n')) = false := by
        rw [Bool.eq_false_iff, ne_eq, Bool.and_eq_true, decide_eq_true_eq, decide_eq_true_eq]
        exact hno
      simp only [classMatches, List.any_cons, List.any_nil, Bool.or_false, hrange]
      rfl
    simp [hclass, hlt]

/-- A class of all characters. -/
def allOf (negate : Bool) (items : List ClassItem) : Prop := ∀ c, classMatches items negate c = true

/-- A class that takes everything runs like the dot under dotall. -/
theorem run_all {negate : Bool} {items : List ClassItem} (h : allOf negate items)
    (text : List Char) :
    run (.cls negate items) text = run (.cls false [.dotAny]) text := by
  have hleaf (pos : Nat) : leafStop (.cls negate items) text pos =
      leafStop (.cls false [.dotAny]) text pos := by
    have hdot : ∀ c, classMatches [.dotAny] false c = true := fun _ => rfl
    simp only [leafStop]
    cases text[pos]? with
    | none => rfl
    | some c => simp [h c, hdot c]
  funext pos caps k
  rw [run, run, hleaf]

/-- Nodes that match alike give the same results. -/
theorem sameResults_of_run {dot dot' : Node} (h : ∀ text, run dot text = run dot' text) (r : Regex)
    (text : String) :
    SameResults (r.withDot dot) (r.withDot dot') text := by
  have hattempt : (r.withDot dot).attempt = (r.withDot dot').attempt := by
    funext text start k
    simp only [Regex.attempt, Regex.withDot, run_substDot_congr (h text) r.root]
    rfl
  have hsearch : (r.withDot dot).searchFrom = (r.withDot dot').searchFrom := by
    funext text first
    rw [Regex.searchFrom, Regex.searchFrom, hattempt]
  have hloop (chars : List Char) (fuel first : Nat) :
      (r.withDot dot).findIterLoop chars fuel first =
        (r.withDot dot').findIterLoop chars fuel first := by
    induction fuel generalizing first with
    | zero => rfl
    | succ fuel ih => simp only [Regex.findIterLoop, hsearch, ih]
  refine sameResults_of_findIter rfl ?_ ?_ ?_
  · rw [hsearch]
    rfl
  · rw [hattempt]
    rfl
  · exact hloop _ _ _

/-- Where no dot is tried at a newline it is the class of all other characters. -/
theorem sameResults_of_dotsClear {r : Regex} {text : String} (h : r.dotsClear text = true) :
    SameResults r (r.withDot notNewline) text := by
  have hany := dotLike_any (r.seen text.toList)
  have hclass := dotLike_notNewline (r.seen text.toList)
  simp only [Regex.dotsClear, Bool.and_eq_true, Option.isSome_iff_exists] at h
  obtain ⟨⟨⟨found, hsearch⟩, full, hfull⟩, ms, hloop⟩ := h
  have hseen : (r.withDot notNewline).seen = r.seen := rfl
  refine sameResults_of_findIter rfl ?_ ?_ ?_
  · have hleft := searchFrom_of_strict hany hsearch
    rw [withDot_any] at hleft
    rw [hseen, hleft, searchFrom_of_strict hclass hsearch]
  · have hleft := attempt_of_strict hany hfull
    rw [withDot_any] at hleft
    rw [hseen, hleft, attempt_of_strict hclass hfull]
  · have hleft := findIterLoop_of_strict hany hloop
    rw [withDot_any] at hleft
    rw [Regex.findIterFound, Regex.findIterFound, hseen, hleft, findIterLoop_of_strict hclass hloop]

end RtpMux.Pyre
