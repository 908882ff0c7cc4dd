import RtpMux.Tools.PyreDenotation

/-!
# The captures behind a refused match

The matcher with all that its continuations can do: they are closures with a state of their own,
they change the captures in place and answer yes or no. An index behind the end of the captures
panics, and a walk that would not end is out of fuel. Whatever the pattern, a refused attempt leaves
the captures as they were, calls the continuation only between its own position and the end of the
text, and ends; and it panics only where a group has no slot.

`Pyre.run` is the same matcher at a continuation without a state (`run_ofCont`).
-/

namespace RtpMux.Pyre.Stateful

/-- Why there is no result. -/
inductive Stop where
  /-- an index behind the end of the captures -/
  | panic
  | outOfFuel
  deriving DecidableEq

/-- Whether the continuation accepted, the captures then, and the state of the continuation. -/
abbrev Result (σ : Type) := Except Stop (Bool × Captures × σ)

/-- `FnMut(&mut Captures, usize) -> bool`. -/
abbrev Cont (σ : Type) := Nat → Captures → σ → Result σ

variable {σ : Type}

/-- No match, with the captures as they are. -/
def refuse (caps : Captures) (s : σ) : Result σ := .ok (false, caps, s)

/-- Where an attempt was refused, go on with what it left. -/
def orElse (r : Result σ) (next : Captures → σ → Result σ) : Result σ :=
  match r with
  | .ok (false, caps, s) => next caps s
  | r => r

/-- `caps[index]`. -/
def load (caps : Captures) (index : Nat) : Except Stop (Option (Nat × Nat)) :=
  match caps[index]? with
  | some entry => .ok entry
  | none => .error .panic

/-- `caps[index] = entry`. -/
def store (caps : Captures) (index : Nat) (entry : Option (Nat × Nat)) : Except Stop Captures :=
  if index < caps.length then .ok (caps.set index entry) else .error .panic

/-- `caps[index] = entry`, and no. -/
def refuseWith (index : Nat) (entry : Option (Nat × Nat)) (caps : Captures) (s : σ) : Result σ :=
  (store caps index entry).map fun caps => (false, caps, s)

/-- A leaf hands its end to the continuation, or refuses. -/
def leaf (stop : Option Nat) (k : Cont σ) (caps : Captures) (s : σ) : Result σ :=
  match stop with
  | some stop => k stop caps s
  | none => refuse caps s

/-- `repeat`, over the matcher of its inner node. -/
def repeatFrom (inner : Nat → Cont σ → Captures → σ → Result σ) :
    Nat → Nat → (count min max : Nat) → (greedy : Bool) → Cont σ → Captures → σ → Result σ
  | 0, _, _, _, _, _, _, _, _ => .error .outOfFuel
  | fuel + 1, pos, count, min, max, greedy, k, caps, s =>
    let expand : Captures → σ → Result σ :=
      inner pos fun stop innerCaps s =>
        -- an empty repetition cannot make progress
        if stop = pos then refuse innerCaps s
        else orElse (repeatFrom inner fuel stop (count + 1) min max greedy k innerCaps s) fun _ s =>
          refuse innerCaps s
    let here : Captures → σ → Result σ :=
      fun caps s => if min ≤ count then k pos caps s else refuse caps s
    if greedy then orElse (if count < max then expand caps s else refuse caps s) fun _ s =>
      here caps s
    else
      orElse (here caps s) fun caps s =>
        if count < max then orElse (expand caps s) fun _ s => refuse caps s else refuse caps s

mutual

/-- `run`. -/
def run : Node → List Char → Nat → Cont σ → Captures → σ → Result σ
  | .group none inner, text, pos, k, caps, s => run inner text pos k caps s
  | .group (some index) inner, text, pos, k, caps, s =>
    (load caps index).bind fun saved =>
      orElse (run inner text pos (fun stop innerCaps s =>
        (load innerCaps index).bind fun previous =>
          (store innerCaps index (some (pos, stop))).bind fun innerCaps =>
            orElse (k stop innerCaps s) (refuseWith index previous)) caps s)
              (refuseWith index saved)
  | .look inner positive, text, pos, k, caps, s =>
    -- the lookahead runs on a copy of the captures
    (run inner text pos (fun _ probe s => .ok (true, probe, s)) caps s).bind fun (matched, _, _) =>
      if matched = positive then k pos caps s else refuse caps s
  | .concat items, text, pos, k, caps, s => concat items text pos k caps s
  | .alt branches, text, pos, k, caps, s => alternatives branches text pos k caps s
  | .repeat inner min max greedy, text, pos, k, caps, s =>
    repeatFrom (fun pos k caps s => run inner text pos k caps s) (text.length - pos + 1) pos 0 min
      max greedy k caps s
  | .char expected, text, pos, k, caps, s => leaf (leafStop (.char expected) text pos) k caps s
  | .any, text, pos, k, caps, s => leaf (leafStop .any text pos) k caps s
  | .cls negate items, text, pos, k, caps, s =>
    leaf (leafStop (.cls negate items) text pos) k caps s
  | .start multiline, text, pos, k, caps, s => leaf (leafStop (.start multiline) text pos) k caps s
  | .stop multiline, text, pos, k, caps, s => leaf (leafStop (.stop multiline) text pos) k caps s
  | .wordBoundary, text, pos, k, caps, s => leaf (leafStop .wordBoundary text pos) k caps s
  | .notWordBoundary, text, pos, k, caps, s => leaf (leafStop .notWordBoundary text pos) k caps s
  | .textStart, text, pos, k, caps, s => leaf (leafStop .textStart text pos) k caps s
  | .textEnd, text, pos, k, caps, s => leaf (leafStop .textEnd text pos) k caps s

/-- The nodes of a concatenation, one behind the other. -/
def concat : List Node → List Char → Nat → Cont σ → Captures → σ → Result σ
  | [], _, pos, k, caps, s => k pos caps s
  | first :: rest, text, pos, k, caps, s =>
    orElse (run first text pos (fun stop innerCaps s =>
      orElse (concat rest text stop k innerCaps s) fun _ s => refuse innerCaps s) caps s)
        fun _ s => refuse caps s

/-- The loop over the branches of an alternation. -/
def alternatives : List Node → List Char → Nat → Cont σ → Captures → σ → Result σ
  | [], _, _, _, caps, s => refuse caps s
  | branch :: branches, text, pos, k, caps, s =>
    orElse (run branch text pos k caps s) fun _ s => alternatives branches text pos k caps s

end

mutual

/-- How many slots the groups of a pattern need. -/
def slots : Node → Nat
  | .group none inner => slots inner
  | .group (some index) inner => max (index + 1) (slots inner)
  | .look inner _ => slots inner
  | .concat items => slotsAll items
  | .alt branches => slotsAll branches
  | .repeat inner _ _ _ => slots inner
  | _ => 0

/-- The largest slot of the nodes of a list. -/
def slotsAll : List Node → Nat
  | [] => 0
  | node :: nodes => max (slots node) (slotsAll nodes)

end

/-! ## What a call comes to -/

/-- A result, or a panic where one is allowed; where it is a refusal, with the captures as they
were. -/
inductive Settled (panics : Prop) (caps : Captures) : Result σ → Prop where
  | panic : panics → Settled panics caps (.error .panic)
  | accepted (caps' : Captures) (s : σ) : Settled panics caps (.ok (true, caps', s))
  | refused (s : σ) : Settled panics caps (.ok (false, caps, s))

/-- A continuation that settles at every position from `pos` on, given captures of this length. -/
def Settles (panics : Prop) (length : Nat) (text : List Char) (pos : Nat) (k : Cont σ) : Prop :=
  ∀ stop, pos ≤ stop → stop ≤ text.length → ∀ caps : Captures, caps.length = length →
    ∀ s, Settled panics caps (k stop caps s)

variable {panics : Prop} {length : Nat} {text : List Char} {pos : Nat} {k : Cont σ}
  {caps : Captures} {s : σ}

theorem Settles.later {stop : Nat} (h : Settles panics length text pos k) (hle : pos ≤ stop) :
    Settles panics length text stop k := fun e he => h e (hle.trans he)

/-- A second try settles where the first is refused. -/
theorem Settled.orElse {r : Result σ} {next : Captures → σ → Result σ} (h : Settled panics caps r)
    (hnext : ∀ s, Settled panics caps (next caps s)) : Settled panics caps (orElse r next) := by
  cases h with
  | panic h => exact .panic h
  | accepted caps' s => exact .accepted caps' s
  | refused s => exact hnext s

theorem settled_refuse : Settled panics caps (refuse caps s) := .refused s

/-- A leaf settles. -/
theorem settled_leaf {stop : Option Nat} (hk : Settles panics length text pos k)
    (hlength : caps.length = length)
    (hstop : ∀ e ∈ stop, pos ≤ e ∧ e ≤ text.length) : Settled panics caps (leaf stop k caps s) := by
  cases stop with
  | none => exact settled_refuse
  | some e => exact hk e (hstop e rfl).1 (hstop e rfl).2 caps hlength s

/-- **Repetitions settle** where their inner node does and the fuel lasts for the rest of the
text. -/
theorem settled_repeatFrom {inner : Nat → Cont σ → Captures → σ → Result σ}
    (hinner : ∀ pos k, pos ≤ text.length → Settles panics length text pos k →
      ∀ caps : Captures, caps.length = length →
      ∀ s, Settled panics caps (inner pos k caps s))
    (fuel count min max : Nat) (greedy : Bool) (hpos : pos ≤ text.length)
    (hfuel : text.length - pos < fuel)
    (hk : Settles panics length text pos k) (hlength : caps.length = length) :
    Settled panics caps (repeatFrom inner fuel pos count min max greedy k caps s) := by
  induction fuel generalizing pos count caps s with
  | zero => omega
  | succ fuel ih =>
    have hexpand : ∀ s, Settled panics caps (inner pos (fun stop innerCaps s =>
        if stop = pos then refuse innerCaps s
        else Stateful.orElse (repeatFrom inner fuel stop (count + 1) min max greedy k innerCaps s)
          fun _ s => refuse innerCaps s) caps s) := by
      refine hinner pos _ hpos (fun stop hle hstop innerCaps hinnerLength s => ?_) caps hlength
      split
      · exact settled_refuse
      · next hne =>
        exact (ih (count + 1) hstop (by omega) (hk.later hle) hinnerLength).orElse fun s =>
          settled_refuse
    have hhere : ∀ s, Settled panics caps
        (if min ≤ count then k pos caps s else refuse caps s) := by
      intro s
      split
      · exact hk pos le_rfl hpos caps hlength s
      · exact settled_refuse
    rw [repeatFrom]
    cases greedy with
    | true =>
      refine Settled.orElse ?_ hhere
      split
      · exact hexpand s
      · exact settled_refuse
    | false =>
      refine (hhere s).orElse fun s => ?_
      split
      · exact (hexpand s).orElse fun s => settled_refuse
      · exact settled_refuse

/-- The end of a leaf lies at its position or one behind it. -/
theorem leafStop_le {node : Node} {stop : Nat} (hpos : pos ≤ text.length)
    (h : stop ∈ leafStop node text pos) :
    pos ≤ stop ∧ stop ≤ text.length := by
  obtain ⟨hle, hlt⟩ := leafStop_forward h
  exact ⟨hle, (Nat.lt_or_ge pos stop).elim hlt fun h => h.trans hpos⟩

theorem load_of_lt {index : Nat} (h : index < caps.length) :
    load caps index = .ok (caps.get ⟨index, h⟩) := by
  rw [load, List.getElem?_eq_getElem h]
  rfl

theorem store_of_lt {index : Nat} (h : index < caps.length) (entry : Option (Nat × Nat)) :
    store caps index entry = .ok (caps.set index entry) := if_pos h

/-- Putting back what was there. -/
theorem refuseWith_get {index : Nat} (h : index < caps.length) (entry : Option (Nat × Nat)) :
    refuseWith index (caps.get ⟨index, h⟩) (caps.set index entry) s = refuse caps s := by
  rw [refuseWith, store_of_lt (by simpa using h), List.set_set, List.get_eq_getElem,
    List.set_getElem_self]
  rfl

/-- Restoring an entry that was not changed is refusing. -/
theorem refuseWith_self {index : Nat} (h : index < caps.length) :
    refuseWith index (caps.get ⟨index, h⟩) caps s = refuse caps s := by
  rw [refuseWith, store_of_lt h, List.get_eq_getElem, List.set_getElem_self]
  rfl

/-- The continuation inside of a group: it puts its span in and takes it out again where it is
refused. -/
theorem settled_groupCont {index stop : Nat} (hk : Settles panics length text pos k)
    (hle : pos ≤ stop)
    (hstop : stop ≤ text.length) (hlength : caps.length = length)
    (hpanics : length < index + 1 → panics) :
    Settled panics caps ((load caps index).bind fun previous =>
      (store caps index (some (pos, stop))).bind fun innerCaps =>
        orElse (k stop innerCaps s) (refuseWith index previous)) := by
  by_cases h : index < caps.length
  · rw [load_of_lt h, store_of_lt h]
    show Settled panics caps (orElse (k stop (caps.set index (some (pos, stop))) s) _)
    have hsettled := hk stop hle hstop (caps.set index (some (pos, stop)))
        (by rw [List.length_set, hlength]) s
    generalize k stop (caps.set index (some (pos, stop))) s = r at hsettled ⊢
    cases hsettled with
    | panic h => exact .panic h
    | accepted caps' s => exact .accepted caps' s
    | refused s =>
      show Settled panics caps (refuseWith index _ _ s)
      rw [refuseWith_get h]
      exact settled_refuse
  · have hload : load caps index = .error .panic := by
      rw [load, List.getElem?_eq_none (by omega)]
    rw [hload]
    exact .panic (hpanics (by omega))

mutual

/-- **The matcher settles**, and panics only where a group has no slot. -/
theorem settled_run : (node : Node) → (text : List Char) → (pos : Nat) → (k : Cont σ) →
    (caps : Captures) → (s : σ) →
    pos ≤ text.length → Settles panics length text pos k → caps.length = length →
      (length < slots node → panics) →
    Settled panics caps (run node text pos k caps s)
  | .group none inner, text, pos, k, caps, s, hpos, hk, hlength, hpanics => by
    rw [run]
    exact settled_run inner text pos k caps s hpos hk hlength hpanics
  | .group (some index) inner, text, pos, k, caps, s, hpos, hk, hlength, hpanics => by
    rw [slots] at hpanics
    rw [run]
    by_cases h : index < caps.length
    · rw [load_of_lt h]
      refine Settled.orElse
        (settled_run inner text pos _ caps s hpos
        (fun stop hle hstop innerCaps hinner s => ?_) hlength
        fun hless => hpanics (by omega)) fun s => ?_
      · exact settled_groupCont hk hle hstop hinner fun hless => hpanics (by omega)
      · rw [refuseWith_self h]
        exact settled_refuse
    · have hload : load caps index = .error .panic := by
        rw [load, List.getElem?_eq_none (by omega)]
      rw [hload]
      exact .panic (hpanics (by omega))
  | .look inner positive, text, pos, k, caps, s, hpos, hk, hlength, hpanics => by
    rw [run]
    have hprobe := settled_run inner text pos (fun _ probe s => .ok (true, probe, s)) caps s hpos
      (fun stop _ _ innerCaps _ s => .accepted innerCaps s) hlength hpanics
    generalize run inner text pos (fun _ probe s => .ok (true, probe, s)) caps s = r at hprobe ⊢
    cases hprobe with
    | panic h => exact .panic h
    | accepted caps' s' =>
      show Settled panics caps (if true = positive then k pos caps s else refuse caps s)
      split
      · exact hk pos le_rfl hpos caps hlength s
      · exact settled_refuse
    | refused s' =>
      show Settled panics caps (if false = positive then k pos caps s else refuse caps s)
      split
      · exact hk pos le_rfl hpos caps hlength s
      · exact settled_refuse
  | .concat items, text, pos, k, caps, s, hpos, hk, hlength, hpanics => by
    rw [run]
    exact settled_concat items text pos k caps s hpos hk hlength hpanics
  | .alt branches, text, pos, k, caps, s, hpos, hk, hlength, hpanics => by
    rw [run]
    exact settled_alternatives branches text pos k caps s hpos hk hlength hpanics
  | .repeat inner min max greedy, text, pos, k, caps, s, hpos, hk, hlength, hpanics => by
    rw [run]
    exact settled_repeatFrom
      (fun pos k hpos hk caps hlength s => settled_run inner text pos k caps s hpos hk hlength
      hpanics)
      _ 0 min max greedy hpos (Nat.lt_succ_self _) hk hlength
  | .char _, text, pos, k, caps, s, hpos, hk, hlength, _ | .any, text, pos, k, caps, s, hpos, hk,
    hlength, _
  | .cls _ _, text, pos, k, caps, s, hpos, hk, hlength, _ | .start _, text, pos, k, caps, s, hpos,
    hk, hlength, _
  | .stop _, text, pos, k, caps, s, hpos, hk, hlength, _ | .wordBoundary, text, pos, k, caps, s,
    hpos, hk, hlength, _
  | .notWordBoundary, text, pos, k, caps, s, hpos, hk, hlength, _ | .textStart, text, pos, k, caps,
    s, hpos, hk, hlength, _
  | .textEnd, text, pos, k, caps, s, hpos, hk, hlength, _ => by
    rw [run]
    exact settled_leaf hk hlength fun e => leafStop_le hpos

/-- A concatenation settles. -/
theorem settled_concat : (items : List Node) → (text : List Char) → (pos : Nat) → (k : Cont σ) →
    (caps : Captures) →
    (s : σ) → pos ≤ text.length → Settles panics length text pos k → caps.length = length →
    (length < slotsAll items → panics) → Settled panics caps (concat items text pos k caps s)
  | [], text, pos, k, caps, s, hpos, hk, hlength, _ => by
    rw [concat]
    exact hk pos le_rfl hpos caps hlength s
  | first :: rest, text, pos, k, caps, s, hpos, hk, hlength, hpanics => by
    rw [slotsAll] at hpanics
    rw [concat]
    refine Settled.orElse
      (settled_run first text pos _ caps s hpos
      (fun stop hle hstop innerCaps hinner s => ?_) hlength
      fun hless => hpanics (by omega)) fun s => settled_refuse
    exact (settled_concat rest text stop k innerCaps s hstop (hk.later hle) hinner
      fun hless => hpanics (by omega)).orElse
      fun s => settled_refuse

/-- Alternatives settle. -/
theorem settled_alternatives : (branches : List Node) → (text : List Char) → (pos : Nat) →
    (k : Cont σ) →
    (caps : Captures) → (s : σ) → pos ≤ text.length → Settles panics length text pos k →
      caps.length = length →
    (length < slotsAll branches → panics) →
      Settled panics caps (alternatives branches text pos k caps s)
  | [], text, pos, k, caps, s, _, _, _, _ => by
    rw [alternatives]
    exact settled_refuse
  | branch :: branches, text, pos, k, caps, s, hpos, hk, hlength, hpanics => by
    rw [slotsAll] at hpanics
    rw [alternatives]
    refine Settled.orElse
      (settled_run branch text pos k caps s hpos hk hlength fun hless => hpanics (by omega))
      fun s => ?_
    exact settled_alternatives branches text pos k caps s hpos hk hlength fun hless =>
      hpanics (by omega)

end

/-! ## Where the continuation is called -/

/-- Two continuations that do the same from `pos` to the end of the text. -/
def Agree (text : List Char) (pos : Nat) (k k' : Cont σ) : Prop :=
  ∀ stop, pos ≤ stop → stop ≤ text.length → ∀ caps s, k stop caps s = k' stop caps s

theorem Agree.later {stop : Nat} {k' : Cont σ} (h : Agree text pos k k') (hle : pos ≤ stop) :
    Agree text stop k k' :=
  fun e he => h e (hle.trans he)

/-- A leaf sees its continuation ahead only. -/
theorem leaf_congr {stop : Option Nat} {k' : Cont σ} (h : Agree text pos k k')
    (hstop : ∀ e ∈ stop, pos ≤ e ∧ e ≤ text.length) : leaf stop k caps s = leaf stop k' caps s := by
  cases stop with
  | none => rfl
  | some e => exact h e (hstop e rfl).1 (hstop e rfl).2 caps s

/-- A repetition sees its continuation ahead only. -/
theorem repeatFrom_congr {inner : Nat → Cont σ → Captures → σ → Result σ}
    (hinner : ∀ pos k k', pos ≤ text.length → Agree text pos k k' →
      ∀ caps s, inner pos k caps s = inner pos k' caps s)
    {k' : Cont σ} (fuel count min max : Nat) (greedy : Bool) (hpos : pos ≤ text.length)
    (h : Agree text pos k k') :
    repeatFrom inner fuel pos count min max greedy k caps s =
      repeatFrom inner fuel pos count min max greedy k' caps s := by
  induction fuel generalizing pos count caps s with
  | zero => rfl
  | succ fuel ih =>
    have hexpand : ∀ caps s, inner pos (fun stop innerCaps s =>
        if stop = pos then refuse innerCaps s
        else orElse (repeatFrom inner fuel stop (count + 1) min max greedy k innerCaps s)
          fun _ s => refuse innerCaps s) caps s =
        inner pos (fun stop innerCaps s =>
          if stop = pos then refuse innerCaps s
          else orElse (repeatFrom inner fuel stop (count + 1) min max greedy k' innerCaps s)
            fun _ s => refuse innerCaps s) caps s := by
      refine hinner pos _ _ hpos fun stop hle hstop innerCaps s => ?_
      rw [ih (count + 1) hstop (h.later hle)]
    rw [repeatFrom, repeatFrom]
    simp only [hexpand, h pos le_rfl hpos]

mutual

/-- **The continuation is called from the position to the end of the text only**: what it does
elsewhere makes no difference. -/
theorem run_congr : (node : Node) → (text : List Char) → (pos : Nat) → (k k' : Cont σ) →
    (caps : Captures) → (s : σ) →
    pos ≤ text.length → Agree text pos k k' →
      run node text pos k caps s = run node text pos k' caps s
  | .group none inner, text, pos, k, k', caps, s, hpos, h => by
    rw [run, run]
    exact run_congr inner text pos k k' caps s hpos h
  | .group (some index) inner, text, pos, k, k', caps, s, hpos, h => by
    rw [run, run]
    congr 1
    funext saved
    rw [run_congr inner text pos _ _ caps s hpos fun stop hle hstop innerCaps s => ?_]
    simp only [h stop hle hstop]
  | .look inner positive, text, pos, k, k', caps, s, hpos, h => by
    rw [run, run]
    simp only [h pos le_rfl hpos]
  | .concat items, text, pos, k, k', caps, s, hpos, h => by
    rw [run, run]
    exact concat_congr items text pos k k' caps s hpos h
  | .alt branches, text, pos, k, k', caps, s, hpos, h => by
    rw [run, run]
    exact alternatives_congr branches text pos k k' caps s hpos h
  | .repeat inner min max greedy, text, pos, k, k', caps, s, hpos, h => by
    rw [run, run]
    exact repeatFrom_congr
      (fun pos k k' hpos h caps s => run_congr inner text pos k k' caps s hpos h) _ 0 min max greedy
      hpos h
  | .char _, text, pos, k, k', caps, s, hpos, h | .any, text, pos, k, k', caps, s, hpos, h
  | .cls _ _, text, pos, k, k', caps, s, hpos, h | .start _, text, pos, k, k', caps, s, hpos, h
  | .stop _, text, pos, k, k', caps, s, hpos, h | .wordBoundary, text, pos, k, k', caps, s, hpos, h
  | .notWordBoundary, text, pos, k, k', caps, s, hpos, h | .textStart, text, pos, k, k', caps,
    s, hpos, h
  | .textEnd, text, pos, k, k', caps, s, hpos, h => by
    rw [run, run]
    exact leaf_congr h fun e => leafStop_le hpos

/-- A concatenation sees its continuation ahead only. -/
theorem concat_congr : (items : List Node) → (text : List Char) → (pos : Nat) → (k k' : Cont σ) →
    (caps : Captures) →
    (s : σ) → pos ≤ text.length → Agree text pos k k' →
      concat items text pos k caps s = concat items text pos k' caps s
  | [], text, pos, k, k', caps, s, hpos, h => by
    rw [concat, concat]
    exact h pos le_rfl hpos caps s
  | first :: rest, text, pos, k, k', caps, s, hpos, h => by
    rw [concat, concat,
      run_congr first text pos _ _ caps s hpos fun stop hle hstop innerCaps s => ?_]
    rw [concat_congr rest text stop k k' innerCaps s hstop (h.later hle)]

/-- Alternatives see their continuation ahead only. -/
theorem alternatives_congr : (branches : List Node) → (text : List Char) → (pos : Nat) →
    (k k' : Cont σ) →
    (caps : Captures) → (s : σ) → pos ≤ text.length → Agree text pos k k' →
    alternatives branches text pos k caps s = alternatives branches text pos k' caps s
  | [], text, pos, k, k', caps, s, _, _ => by rw [alternatives, alternatives]
  | branch :: branches, text, pos, k, k', caps, s, hpos, h => by
    rw [alternatives, alternatives, run_congr branch text pos k k' caps s hpos h]
    congr 1
    funext _ s
    exact alternatives_congr branches text pos k k' caps s hpos h

end

/-! ## The frame -/

/-- A closure that always answers. -/
def total (k : Nat → Captures → σ → Bool × Captures × σ) : Cont σ :=
  fun stop caps s => .ok (k stop caps s)

/-- The same closure from `pos` to the end of the text, and one that does not end everywhere
else. -/
def within (text : List Char) (pos : Nat) (k : Cont σ) : Cont σ := fun stop caps s =>
  if pos ≤ stop ∧ stop ≤ text.length then k stop caps s else .error .outOfFuel

/-- What holds of a matcher at a position: `panics` is where it may panic. -/
structure Frames (panics : Prop) (text : List Char) (pos : Nat)
    (matcher : Cont σ → Captures → σ → Result σ) (k : Cont σ)
    (caps : Captures) (s : σ) : Prop where
  /-- it ends -/
  ends : matcher k caps s = .error .panic ∧ panics ∨
    ∃ accepted caps' s', matcher k caps s = .ok (accepted, caps', s')
  /-- it calls the continuation between the position and the end of the text only -/
  calls : matcher k caps s = matcher (within text pos k) caps s
  /-- and where it answers no, the captures are as they were -/
  restores : ∀ caps' s', matcher k caps s = .ok (false, caps', s') → caps' = caps

theorem agree_within : Agree text pos k (within text pos k) := fun stop hle hstop caps s => by
  rw [within, if_pos ⟨hle, hstop⟩]

theorem Settled.frames {matcher : Cont σ → Captures → σ → Result σ}
    (h : Settled panics caps (matcher k caps s))
    (hcalls : matcher k caps s = matcher (within text pos k) caps s) :
    Frames panics text pos matcher k caps s := by
  refine ⟨?_, hcalls, fun caps' s' heq => ?_⟩
  · generalize matcher k caps s = r at h
    cases h with
    | panic h => exact .inl ⟨rfl, h⟩
    | accepted caps' s => exact .inr ⟨true, caps', s, rfl⟩
    | refused s => exact .inr ⟨false, caps, s, rfl⟩
  · rw [heq] at h
    cases h
    rfl

theorem settles_total {k : Nat → Captures → σ → Bool × Captures × σ}
    (hk : ∀ stop caps s, (k stop caps s).1 = false → (k stop caps s).2.1 = caps) :
    Settles panics length text pos (total k) := by
  intro stop _ _ caps _ s
  have hrestores := hk stop caps s
  rw [total]
  generalize k stop caps s = answer at hrestores ⊢
  obtain ⟨accepted, caps', s'⟩ := answer
  cases accepted with
  | true => exact .accepted caps' s'
  | false =>
    obtain rfl : caps' = caps := hrestores rfl
    exact .refused s'

/-- **The captures are restored** by `run`, `concat` and `repeat`, whatever the continuation keeps
for itself. -/
theorem captures_restored (node : Node) (items : List Node) (count min max : Nat) (greedy : Bool)
    (text : List Char)
    (pos : Nat) (hpos : pos ≤ text.length) (k : Nat → Captures → σ → Bool × Captures × σ)
    (hk : ∀ stop caps s, (k stop caps s).1 = false → (k stop caps s).2.1 = caps) (caps : Captures)
    (s : σ) :
    Frames (caps.length < slots node) text pos (run node text pos) (total k) caps s ∧
      Frames (caps.length < slotsAll items) text pos (concat items text pos) (total k) caps s ∧
        ∀ fuel, text.length - pos < fuel →
          Frames (caps.length < slots node) text pos
            (repeatFrom (run node text) fuel pos count min max greedy) (total k) caps
            s := by
  refine ⟨?_, ?_, fun fuel hfuel => ?_⟩
  · exact (settled_run node text pos _ caps s hpos (settles_total hk) rfl id).frames
      (run_congr node text pos _ _ caps s hpos agree_within)
  · exact (settled_concat items text pos _ caps s hpos (settles_total hk) rfl id).frames
      (concat_congr items text pos _ _ caps s hpos agree_within)
  · refine (settled_repeatFrom (fun pos k hpos hk caps' hlength s => ?_) fuel count min max greedy
      hpos hfuel
      (settles_total hk) rfl).frames
        (repeatFrom_congr (fun pos k k' hpos h caps s => ?_) fuel count min max greedy hpos
        agree_within)
    · exact settled_run node text pos k caps' s hpos hk hlength id
    · exact run_congr node text pos k k' caps s hpos h

/-- `(a)|b` on `ab` with a continuation that takes no end but the last: it counts its calls. -/
theorem captures_restored_counting :
    run (.alt [.group (some 1) (.char 'a'), .char 'b']) "ab".toList 0
        (total fun stop caps calls => (stop = 2, caps, calls + 1)) [none, some (0, 0)] 0 =
      .ok (false, [none, some (0, 0)], 1) := by
  have hframes :=
    (captures_restored (.alt [.group (some 1) (.char 'a'), .char 'b']) [] 0 0 0 true "ab".toList 0
      (by decide)
    (fun stop caps calls => (stop = 2, caps, calls + 1)) (fun _ _ _ _ => rfl)
      [none, some (0, 0)] 0).1
  obtain ⟨caps', s', hresult⟩ : ∃ caps' s',
      run (.alt [.group (some 1) (.char 'a'), .char 'b']) "ab".toList 0
      (total fun stop caps calls => (stop = 2, caps, calls + 1)) [none, some (0, 0)] 0 =
        .ok (false, caps', s') :=
    ⟨_, _, rfl⟩
  rw [hresult, hframes.restores caps' s' hresult]
  cases hresult
  rfl

/-! ## Continuations without a state -/

/-- An outcome of `Pyre.run` as a result. What an accepted end does to the state is up to the
continuation. -/
def ofOutcome (accept : Nat → σ → σ) (outcome : Outcome) (s : σ) : Result σ :=
  match outcome with
  | (some stop, caps) => .ok (true, caps, accept stop s)
  | (none, caps) => .ok (false, caps, s)

/-- A continuation of `Pyre.run` as a closure that keeps the end it accepts. -/
def ofCont (k : Pyre.Cont) : Cont (Option Nat) :=
  fun stop caps s => ofOutcome (fun stop _ => some stop) (k caps stop) s

/-- An outcome and its result, where a refusal leaves the captures. -/
structure Matches (accept : Nat → σ → σ) (caps : Captures) (outcome : Outcome) (r : σ → Result σ) :
    Prop where
  result : ∀ s, r s = ofOutcome accept outcome s
  restores : outcome.1 = none → outcome.2 = caps

/-- Two continuations that do the same from `pos` to the end of the text, given captures of this
length. -/
def MatchesCont (accept : Nat → σ → σ) (length : Nat) (text : List Char) (pos : Nat)
    (k₀ : Pyre.Cont) (k : Cont σ) : Prop :=
  ∀ stop, pos ≤ stop → stop ≤ text.length → ∀ caps : Captures, caps.length = length →
    Matches accept caps (k₀ caps stop) (k stop caps)

section OfCont

variable {accept : Nat → σ → σ} {k₀ : Pyre.Cont}

theorem MatchesCont.later {stop : Nat} (h : MatchesCont accept length text pos k₀ k)
    (hle : pos ≤ stop) :
    MatchesCont accept length text stop k₀ k := fun e he => h e (hle.trans he)

theorem matches_refuse : Matches accept caps (none, caps) (refuse caps) :=
  ⟨fun _ => rfl, fun _ => rfl⟩

/-- A second try matches where the first is refused. -/
theorem Matches.orElse {outcome : Outcome} {r : σ → Result σ} (h : Matches accept caps outcome r)
    {next₀ : Captures → Outcome} {next : Captures → σ → Result σ}
    (hnext : Matches accept caps (next₀ caps) (next caps)) :
    Matches accept caps (outcome.orElse next₀) fun s => orElse (r s) next := by
  obtain ⟨_ | stop, caps'⟩ := outcome
  · obtain rfl : caps' = caps := h.restores rfl
    refine ⟨fun s => ?_, hnext.restores⟩
    rw [h.result]
    exact hnext.result s
  · refine ⟨fun s => ?_, fun h => by cases h⟩
    rw [h.result]
    rfl

/-- The same where what comes next takes no notice of the captures that were left. -/
theorem Matches.orElse_const {outcome outcome' : Outcome} {r r' : σ → Result σ}
    (h : Matches accept caps outcome r)
    (h' : Matches accept caps outcome' r') :
    Matches accept caps (outcome.orElse fun _ => outcome') fun s =>
      Stateful.orElse (r s) fun _ s => r' s :=
  h.orElse h'

/-- A leaf matches the pure one. -/
theorem matches_leaf {stop : Option Nat} (hk : MatchesCont accept length text pos k₀ k)
    (hlength : caps.length = length)
    (hstop : ∀ e ∈ stop, pos ≤ e ∧ e ≤ text.length) : Matches accept caps (Pyre.leaf stop caps k₀)
    (leaf stop k caps) := by
  cases stop with
  | none => exact matches_refuse
  | some e => exact hk e (hstop e rfl).1 (hstop e rfl).2 caps hlength

/-- The continuation inside of a group. -/
theorem matches_groupCont {index stop : Nat} (hk : MatchesCont accept length text pos k₀ k)
    (hle : pos ≤ stop)
    (hstop : stop ≤ text.length) (hlength : caps.length = length) (hindex : index < length) :
    Matches accept caps ((k₀ (caps.set index (some (pos, stop))) stop).orElse
      fun c => (none, c.set index (caps.getD index none))) fun s =>
        (load caps index).bind fun previous =>
          (store caps index (some (pos, stop))).bind fun innerCaps =>
            orElse (k stop innerCaps s) (refuseWith index previous) := by
  have h : index < caps.length := by omega
  obtain ⟨hresult, hrestores⟩ :=
    hk stop hle hstop (caps.set index (some (pos, stop))) (by rw [List.length_set, hlength])
  simp only [load_of_lt h, store_of_lt h]
  show Matches accept caps _ fun s =>
    orElse (k stop (caps.set index (some (pos, stop))) s) (refuseWith index (caps.get ⟨index, h⟩))
  generalize k₀ (caps.set index (some (pos, stop))) stop = outcome at hresult hrestores ⊢
  obtain ⟨_ | e, caps'⟩ := outcome
  · obtain rfl : caps' = caps.set index (some (pos, stop)) := hrestores rfl
    refine ⟨fun s => ?_, fun _ => ?_⟩
    · rw [hresult]
      show refuseWith index (caps.get ⟨index, h⟩) (caps.set index (some (pos, stop))) s = _
      rw [refuseWith_get h, orElse_none, List.set_set, set_getD_self]
      rfl
    · rw [orElse_none, List.set_set, set_getD_self]
  · refine ⟨fun s => ?_, fun h => by cases h⟩
    rw [hresult]
    rfl

/-- A repetition matches the pure one. -/
theorem matches_repeatFrom {inner₀ : Nat → Captures → Pyre.Cont → Outcome}
    {inner : Nat → Cont σ → Captures → σ → Result σ}
    (hinner : ∀ pos k₀ k, pos ≤ text.length → MatchesCont accept length text pos k₀ k →
      ∀ caps : Captures, caps.length = length →
      Matches accept caps (inner₀ pos caps k₀) (inner pos k caps))
    (fuel count min max : Nat) (greedy : Bool) (hpos : pos ≤ text.length)
    (hfuel : text.length - pos < fuel)
    (hk : MatchesCont accept length text pos k₀ k) (hlength : caps.length = length) :
    Matches accept caps (Pyre.repeatFrom inner₀ fuel pos caps count min max greedy k₀)
      (repeatFrom inner fuel pos count min max greedy k caps) := by
  induction fuel generalizing pos count caps with
  | zero => omega
  | succ fuel ih =>
    have hexpand : Matches accept caps (inner₀ pos caps fun innerCaps stop =>
        if stop = pos then (none, innerCaps)
        else (Pyre.repeatFrom inner₀ fuel stop innerCaps (count + 1) min max greedy k₀).orElse
          fun _ => (none, innerCaps))
        (inner pos (fun stop innerCaps s =>
          if stop = pos then refuse innerCaps s
          else Stateful.orElse (repeatFrom inner fuel stop (count + 1) min max greedy k innerCaps s)
            fun _ s => refuse innerCaps s) caps) := by
      refine hinner pos _ _ hpos (fun stop hle hstop innerCaps hinnerLength => ?_) caps hlength
      split
      · exact matches_refuse
      · next hne =>
          exact (ih (count + 1) hstop (by omega) (hk.later hle) hinnerLength).orElse_const
            matches_refuse
    have hhere : Matches accept caps (if min ≤ count then k₀ caps pos else (none, caps))
        fun s => if min ≤ count then k pos caps s else refuse caps s := by
      split
      · exact hk pos le_rfl hpos caps hlength
      · exact matches_refuse
    cases greedy with
    | true =>
      refine Matches.orElse_const ?_ hhere
      split
      · exact hexpand
      · exact matches_refuse
    | false =>
      refine hhere.orElse ?_
      split
      · exact hexpand.orElse_const matches_refuse
      · exact matches_refuse

mutual

/-- The stateful matcher matches the pure one. -/
theorem matches_run : (accept : Nat → σ → σ) → (node : Node) → (text : List Char) → (pos : Nat) →
    (k₀ : Pyre.Cont) → (k : Cont σ) →
    (caps : Captures) → pos ≤ text.length → MatchesCont accept length text pos k₀ k →
      caps.length = length →
    slots node ≤ length →
      Matches accept caps (Pyre.run node text pos caps k₀) (run node text pos k caps)
  | accept, .group none inner, text, pos, k₀, k, caps, hpos, hk, hlength, hslots => by
    -- the entry is restored to what it was before the group, as the source does
    have hinner := matches_run accept inner text pos k₀ k caps hpos hk hlength hslots
    simpa only [Pyre.run, run] using hinner
  | accept, .group (some index) inner, text, pos, k₀, k, caps, hpos, hk, hlength, hslots => by
    rw [slots] at hslots
    have h : index < caps.length := by omega
    have hindex : index < length := by omega
    have hput : Matches accept caps (none, caps.set index (caps.getD index none))
        (refuseWith index (caps.get ⟨index, h⟩) caps) := by
      rw [set_getD_self]
      exact ⟨fun s => refuseWith_self h, fun _ => rfl⟩
    have hinner := matches_run accept inner text pos _ _ caps hpos
        (fun stop hle hstop innerCaps hinner =>
      matches_groupCont hk hle hstop hinner hindex) hlength (by omega)
    have hgroup : Matches accept caps
        (Outcome.orElse _ fun c => (none, c.set index (caps.getD index none))) _ :=
      hinner.orElse hput
    refine ⟨fun s => ?_, ?_⟩
    · rw [run, load_of_lt h, Pyre.run]
      exact hgroup.result s
    · rw [Pyre.run]
      exact hgroup.restores
  | accept, .look inner positive, text, pos, k₀, k, caps, hpos, hk, hlength, hslots => by
    have hprobe := matches_run (fun _ s => s) inner text pos (fun caps stop => (some stop, caps))
      (fun _ probe s => .ok (true, probe, s)) caps hpos
        (fun stop _ _ innerCaps _ => ⟨fun s => rfl, fun h => by cases h⟩)
        hlength hslots
    have hhere : Matches accept caps
        (if (Pyre.run inner text pos caps fun caps stop => (some stop, caps)).1.isSome = positive
        then k₀ caps pos else (none, caps)) fun s =>
          if (Pyre.run inner text pos caps fun caps stop => (some stop, caps)).1.isSome =
            positive then k pos caps s
          else refuse caps s := by
      split
      · exact hk pos le_rfl hpos caps hlength
      · exact matches_refuse
    refine ⟨fun s => ?_, ?_⟩
    · rw [run, hprobe.result, Pyre.run, ← hhere.result]
      generalize (Pyre.run inner text pos caps fun caps stop => (some stop, caps)) = outcome
      obtain ⟨_ | e, caps'⟩ := outcome <;> rfl
    · rw [Pyre.run]
      exact hhere.restores
  | accept, .concat items, text, pos, k₀, k, caps, hpos, hk, hlength, hslots => by
    have hinner := matches_concat accept items text pos k₀ k caps hpos hk hlength hslots
    simpa only [Pyre.run, run] using hinner
  | accept, .alt branches, text, pos, k₀, k, caps, hpos, hk, hlength, hslots => by
    have hinner := matches_alternatives accept branches text pos k₀ k caps hpos hk hlength hslots
    simpa only [Pyre.run, run] using hinner
  | accept, .repeat inner min max greedy, text, pos, k₀, k, caps, hpos, hk, hlength, hslots => by
    have hinner := matches_repeatFrom (fun pos k₀ k hpos hk caps hlength =>
      matches_run accept inner text pos k₀ k caps hpos hk hlength hslots)
        (text.length - pos + 1) 0 min max greedy hpos
        (Nat.lt_succ_self _) hk hlength
    simpa only [Pyre.run, run] using hinner
  | accept, .char _, text, pos, k₀, k, caps, hpos, hk, hlength, _ | accept, .any, text, pos, k₀, k,
    caps, hpos, hk, hlength, _
  | accept, .cls _ _, text, pos, k₀, k, caps, hpos, hk, hlength, _ | accept, .start _, text, pos,
    k₀, k, caps, hpos, hk, hlength, _
  | accept, .stop _, text, pos, k₀, k, caps, hpos, hk, hlength, _ | accept, .wordBoundary, text,
    pos, k₀, k, caps, hpos, hk, hlength, _
  | accept, .notWordBoundary, text, pos, k₀, k, caps, hpos, hk, hlength, _
  | accept, .textStart, text, pos, k₀, k, caps, hpos, hk, hlength, _ | accept, .textEnd, text, pos,
    k₀, k, caps, hpos, hk, hlength, _ => by
    simpa only [Pyre.run, run] using matches_leaf hk hlength fun e => leafStop_le hpos

/-- A concatenation matches the pure one. -/
theorem matches_concat : (accept : Nat → σ → σ) → (items : List Node) → (text : List Char) →
    (pos : Nat) → (k₀ : Pyre.Cont) →
    (k : Cont σ) → (caps : Captures) → pos ≤ text.length → MatchesCont accept length text pos k₀ k →
    caps.length = length → slotsAll items ≤ length →
    Matches accept caps (Pyre.concat items text pos caps k₀) (concat items text pos k caps)
  | accept, [], text, pos, k₀, k, caps, hpos, hk, hlength, _ => by
    simpa only [Pyre.concat, concat] using hk pos le_rfl hpos caps hlength
  | accept, first :: rest, text, pos, k₀, k, caps, hpos, hk, hlength, hslots => by
    rw [slotsAll] at hslots
    have hinner := Matches.orElse_const
        (matches_run accept first text pos _ _ caps hpos (fun stop hle hstop innerCaps hinner =>
      (matches_concat accept rest text stop k₀ k innerCaps hstop (hk.later hle) hinner
        (by omega)).orElse_const matches_refuse) hlength
        (by omega)) matches_refuse
    simpa only [Pyre.concat, concat] using hinner

/-- Alternatives match the pure ones. -/
theorem matches_alternatives : (accept : Nat → σ → σ) → (branches : List Node) →
    (text : List Char) → (pos : Nat) → (k₀ : Pyre.Cont) →
    (k : Cont σ) → (caps : Captures) → pos ≤ text.length → MatchesCont accept length text pos k₀ k →
    caps.length = length → slotsAll branches ≤ length →
    Matches accept caps (Pyre.alternatives branches text pos caps k₀)
      (alternatives branches text pos k caps)
  | accept, [], text, pos, k₀, k, caps, _, _, _, _ => by
    simpa only [Pyre.alternatives, alternatives] using matches_refuse
  | accept, branch :: branches, text, pos, k₀, k, caps, hpos, hk, hlength, hslots => by
    rw [slotsAll] at hslots
    have hinner := Matches.orElse_const
        (matches_run accept branch text pos k₀ k caps hpos hk hlength (by omega))
      (matches_alternatives accept branches text pos k₀ k caps hpos hk hlength (by omega))
    simpa only [Pyre.alternatives, alternatives] using hinner

end

/-- **The two matchers are one**: `Pyre.run` is this one at a continuation that keeps the end it
accepts. -/
theorem run_ofCont (node : Node) (hpos : pos ≤ text.length) (hk : Restores k₀)
    (hslots : slots node ≤ caps.length)
    (s : Option Nat) :
    run node text pos (ofCont k₀) caps s =
      ofOutcome (fun stop _ => some stop) (Pyre.run node text pos caps k₀) s :=
  (matches_run _ node text pos k₀ (ofCont k₀) caps hpos
    (fun stop _ _ caps _ => ⟨fun _ => rfl, hk caps stop⟩) rfl
    hslots).result s

end OfCont

end RtpMux.Pyre.Stateful
