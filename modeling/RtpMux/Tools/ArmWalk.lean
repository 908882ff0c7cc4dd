import Mathlib.Data.List.Permutation
import RtpMux.Tools.ArmLines
import RtpMux.Tools.MandateWalk

/-!
# The walk over the arm lines

Seen from an event, what becomes of it does not depend on the walk (`contribution`): it depends on
the line and on the first verdict line behind it. The walk puts exactly these contributions out
(`armWalk_spec`). The sort in the end is stable, but it is the attributions that it keeps in order
and not the events: an arm that waits is attributed behind one that is printed later and carries its
section.
-/

namespace RtpMux.MandateCheck

open Pyre (Regex)

variable {F : Type}

/-! ## What becomes of an event -/

/-- Where an arm line ends up: among the arms, with the line that attributes it, among the notes or
as a problem. -/
inductive Contribution (F : Type) where
  | arm (line : Nat) (arm : Arm F)
  | note (arm : Arm F)
  | problem (text : String)

/-- The id on an event that is a verdict line. -/
def verdictOn (raw : Str) : Option String :=
  let line := Text.trimEnd raw.1.toList
  if startsLikeMandate line then mandateOn line else none

/-- The first verdict line among the events from number `n` on, with its number. -/
def nextVerdict (n : Nat) : List Str → Option (Nat × String)
  | [] => none
  | raw :: later =>
    match verdictOn raw with
    | some id => some (n, id)
    | none => nextVerdict (n + 1) later

/-- What becomes of an arm that waits, by the next verdict line. -/
def waiting (parsed : Arm F) (next : Option (Nat × String)) : Contribution F :=
  match next with
  | some (line, id) =>
    if parsed.note then .note { parsed with mandate := some id }
      else .arm line (parsed.attributed id)
  | none => if parsed.note then .note parsed else .problem (unattributed parsed)

/-- What becomes of the arm of event `n`. -/
def contribution (n : Nat) (parsed : Arm F) (next : Option (Nat × String)) : Contribution F :=
  match parsed.sectionToken with
  | some section' => .arm n (parsed.attributed section')
  | none => waiting parsed next

section Contributions

variable (prims : Prims F)

/-- The arm on an event that does not start like a verdict. -/
def armOn (raw : Str) : Option (Arm F) :=
  let line := Text.trimEnd raw.1.toList
  if startsLikeMandate line then none else parseArmLine prims (String.ofList line)

/-- What becomes of the events from number `n` on, one contribution for each arm line. -/
def contributions (n : Nat) : List Str → List (Nat × Contribution F)
  | [] => []
  | raw :: later =>
    match armOn prims raw with
    | some parsed =>
      (n, contribution n parsed (nextVerdict (n + 1) later)) :: contributions (n + 1) later
    | none => contributions (n + 1) later

end Contributions

/-- An arm with its event and the line that attributes it. -/
structure Attribution (F : Type) where
  event : Nat
  line : Nat
  arm : Arm F

/-- The attribution of an arm line, at its event. -/
def attribution? : Nat × Contribution F → Option (Attribution F)
  | (event, .arm line arm) => some ⟨event, line, arm⟩
  | _ => none

/-- The arm of a note. -/
def note? : Nat × Contribution F → Option (Arm F)
  | (_, .note arm) => some arm
  | _ => none

/-- The text of a problem. -/
def problem? : Nat × Contribution F → Option String
  | (_, .problem text) => some text
  | _ => none

/-- The order of the attributions: by the line, and by the event for one line. -/
def ByLine (a b : Attribution F) : Prop := a.line < b.line ∨ a.line = b.line ∧ a.event < b.event

/-- The order in which the lines were printed. -/
def ByEvent (a b : Attribution F) : Prop := a.event < b.event

/-! ## One event -/

/-- What the walk does with an event. -/
inductive ArmStep (prims : Prims F) (w : ArmWalk F) (raw : Str) : ArmWalk F → Prop
  | verdict {id : String} (hverdict : verdictOn raw = some id) (harm : armOn prims raw = none) :
    ArmStep prims w raw (flush id w)
  | skipped (hverdict : verdictOn raw = none) (harm : armOn prims raw = none) :
    ArmStep prims w raw w
  | token {parsed : Arm F} {section' : String} (hverdict : verdictOn raw = none)
    (harm : armOn prims raw = some parsed) (htoken : parsed.sectionToken = some section') :
    ArmStep prims w raw { w with arms := w.arms ++ [parsed.attributed section'] }
  | waits {parsed : Arm F} (hverdict : verdictOn raw = none) (harm : armOn prims raw = some parsed)
    (htoken : parsed.sectionToken = none) : ArmStep prims w raw { w with
      pending := w.pending ++ [parsed] }

/-- A verdict line is no arm line. -/
theorem armOn_of_verdictOn (prims : Prims F) {raw : Str} {id : String}
    (h : verdictOn raw = some id) :
    armOn prims raw = none := by
  by_cases hstart : startsLikeMandate (Text.trimEnd raw.1.toList)
  · simp [armOn, hstart]
  · simp [verdictOn, hstart] at h

/-- The body of the loop, by what is on the event. -/
theorem armStep_eq (prims : Prims F) (w : ArmWalk F) (raw : Str) :
    armStep prims w raw =
      match verdictOn raw, armOn prims raw with
      | some id, _ => flush id w
      | none, none => w
      | none, some parsed =>
        match parsed.sectionToken with
        | some section' => { w with arms := w.arms ++ [parsed.attributed section'] }
        | none => { w with pending := w.pending ++ [parsed] } := by
  by_cases hstart : startsLikeMandate (Text.trimEnd raw.1.toList)
  · simp only [armStep, verdictOn, armOn, hstart, if_true]
    cases mandateOn (Text.trimEnd raw.1.toList) <;> rfl
  · simp only [armStep, verdictOn, armOn, hstart, Bool.false_eq_true, if_false]
    cases parseArmLine prims (String.ofList (Text.trimEnd raw.1.toList)) <;> rfl

/-- What one line does to the walk. -/
theorem armStep_cases (prims : Prims F) (w : ArmWalk F) (raw : Str) :
    ArmStep prims w raw (armStep prims w raw) := by
  rw [armStep_eq]
  cases hverdict : verdictOn raw with
  | some id => exact .verdict hverdict (armOn_of_verdictOn prims hverdict)
  | none =>
    cases harm : armOn prims raw with
    | none => exact .skipped hverdict harm
    | some parsed =>
      dsimp only
      cases htoken : parsed.sectionToken with
      | some section' => exact .token hverdict harm htoken
      | none => exact .waits hverdict harm htoken

/-! ## What waits -/

/-- The contributions of what waits, by the next verdict line. -/
def waitingAll (pending : List (Nat × Arm F)) (next : Option (Nat × String)) :
    List (Nat × Contribution F) :=
  pending.map fun p => (p.1, waiting p.2 next)

theorem waitingAll_cons (p : Nat × Arm F) (pending : List (Nat × Arm F))
    (next : Option (Nat × String)) :
    waitingAll (p :: pending) next = (p.1, waiting p.2 next) :: waitingAll pending next := rfl

/-- `flush` puts the arms that wait at the end of the lists. -/
theorem flush_eq (id : String) (line : Nat) {w : ArmWalk F} {pending : List (Nat × Arm F)}
    (hpending : w.pending = pending.map Prod.snd) :
    flush id w =
      ⟨w.arms ++ ((waitingAll pending (some (line, id))).filterMap attribution?).map
        Attribution.arm,
        w.notes ++ (waitingAll pending (some (line, id))).filterMap note?, []⟩ := by
  have hfold : ∀ (rest : List (Nat × Arm F)) (w : ArmWalk F),
      (rest.map Prod.snd).foldl (flushEntry id) w =
        ⟨w.arms ++ ((waitingAll rest (some (line, id))).filterMap attribution?).map Attribution.arm,
          w.notes ++ (waitingAll rest (some (line, id))).filterMap note?, w.pending⟩ := by
    intro rest
    induction rest with
    | nil => simp [waitingAll]
    | cons p rest ih =>
      intro w
      rw [List.map_cons, List.foldl_cons, ih, waitingAll_cons, flushEntry, waiting]
      by_cases hnote : p.2.note
      · rw [if_pos hnote, if_pos hnote]
        simp [attribution?, note?, List.filterMap_cons]
      · rw [if_neg hnote, if_neg hnote]
        simp [attribution?, note?, List.filterMap_cons]
  rw [flush, hpending, hfold]

/-- Arms that a section ends are no problems. -/
theorem problems_waitingAll (pending : List (Nat × Arm F)) (next : Nat × String) :
    (waitingAll pending (some next)).filterMap problem? = [] := by
  rw [List.filterMap_eq_nil_iff]
  intro c hc
  obtain ⟨p, -, rfl⟩ := List.mem_map.mp hc
  by_cases hnote : p.2.note <;> simp [waiting, hnote, problem?]

/-- Arms that no section ends are attributed to none. -/
theorem attributions_waitingAll_none (pending : List (Nat × Arm F)) :
    (waitingAll pending none).filterMap attribution? = [] := by
  rw [List.filterMap_eq_nil_iff]
  intro c hc
  obtain ⟨p, -, rfl⟩ := List.mem_map.mp hc
  by_cases hnote : p.2.note <;> simp [waiting, hnote, attribution?]

/-- What still waits in the end is a note or a problem. -/
theorem settle_eq (pending : List (Nat × Arm F)) (s : List (Arm F) × List String) :
    (pending.map Prod.snd).foldl settleEntry s =
      (s.1 ++ (waitingAll pending none).filterMap note?,
        s.2 ++ (waitingAll pending none).filterMap problem?) := by
  induction pending generalizing s with
  | nil => simp [waitingAll]
  | cons p rest ih =>
    rw [List.map_cons, List.foldl_cons, ih, waitingAll_cons, settleEntry, waiting]
    by_cases hnote : p.2.note <;> simp [hnote, note?, problem?, List.filterMap_cons]

/-- The arms that one line attributes are in the order of their events. -/
theorem attributions_waitingAll {pending : List (Nat × Arm F)}
    (hsorted : pending.Pairwise fun p q => p.1 < q.1)
    (line : Nat) (id : String) :
    ((waitingAll pending (some (line, id))).filterMap attribution?).Pairwise ByLine ∧
      ∀ a ∈ (waitingAll pending (some (line, id))).filterMap attribution?, a.line = line := by
  have hof : ∀ p : Nat × Arm F, ∀ a, attribution? (p.1, waiting p.2 (some (line, id))) = some a →
      a.line = line ∧ a.event = p.1 := by
    intro p a ha
    by_cases hnote : p.2.note
    · simp [waiting, hnote, attribution?] at ha
    · simp only [waiting, hnote, attribution?, Bool.false_eq_true, if_false,
        Option.some.injEq] at ha
      rw [← ha]
      exact ⟨rfl, rfl⟩
  refine ⟨?_, ?_⟩
  · rw [waitingAll, List.filterMap_map, List.pairwise_filterMap]
    refine hsorted.imp fun {p q} hpq a ha b hb => ?_
    obtain ⟨haline, haevent⟩ := hof p a ha
    obtain ⟨hbline, hbevent⟩ := hof q b hb
    exact .inr ⟨by rw [haline, hbline], by rw [haevent, hbevent]; exact hpq⟩
  · intro a ha
    obtain ⟨c, hc, hca⟩ := List.mem_filterMap.mp ha
    obtain ⟨p, -, rfl⟩ := List.mem_map.mp hc
    exact (hof p a hca).1

/-! ## The whole walk -/

/-- A walk from `w` to `final` has put these contributions out, and the events it saw are from
number `n` on. -/
structure WalkSpec (w final : ArmWalk F) (all : List (Nat × Contribution F)) (n : Nat) : Prop where
  settled : ∀ problems, final.pending.foldl settleEntry (final.notes, problems) =
    (w.notes ++ all.filterMap note?, problems ++ all.filterMap problem?)
  pushed : ∃ pushed : List (Attribution F), final.arms = w.arms ++ pushed.map Attribution.arm ∧
    pushed.Perm (all.filterMap attribution?) ∧ pushed.Pairwise ByLine ∧ ∀ a ∈ pushed, n ≤ a.line

/-- Event `n` has put out `front`, and the walk behind it the rest. -/
theorem WalkSpec.prepend {w next final : ArmWalk F} {all : List (Nat × Contribution F)} {n : Nat}
    (hspec : WalkSpec next final all (n + 1)) (front : List (Nat × Contribution F))
    (harms : next.arms = w.arms ++ (front.filterMap attribution?).map Attribution.arm)
    (hnotes : next.notes = w.notes ++ front.filterMap note?)
    (hproblems : front.filterMap problem? = [])
    (hsorted : (front.filterMap attribution?).Pairwise ByLine)
    (hline : ∀ a ∈ front.filterMap attribution?, a.line = n) :
    WalkSpec w final (front ++ all) n := by
  obtain ⟨hsettled, pushed, hfinal, hperm, hpushed, hfrom⟩ := hspec
  refine ⟨fun problems => ?_, front.filterMap attribution? ++ pushed, ?_, ?_, ?_, ?_⟩
  · rw [hsettled, hnotes]
    simp [hproblems]
  · rw [hfinal, harms]
    simp
  · rw [List.filterMap_append]
    exact hperm.append_left _
  · refine List.pairwise_append.mpr ⟨hsorted, hpushed, fun a ha b hb => .inl ?_⟩
    have hle := hfrom b hb
    have heq := hline a ha
    omega
  · intro a ha
    rcases List.mem_append.mp ha with ha | ha
    · exact (hline a ha).ge
    · exact Nat.le_of_succ_le (hfrom a ha)

/-- Only the order of the attributions may differ. -/
theorem WalkSpec.congr {w final : ArmWalk F} {all all' : List (Nat × Contribution F)} {n : Nat}
    (hspec : WalkSpec w final all n) (hnotes : all.filterMap note? = all'.filterMap note?)
    (hproblems : all.filterMap problem? = all'.filterMap problem?)
    (hperm : (all.filterMap attribution?).Perm (all'.filterMap attribution?)) :
    WalkSpec w final all' n := by
  obtain ⟨hsettled, pushed, hfinal, hpushed, hrest⟩ := hspec
  refine ⟨fun problems => ?_, pushed, hfinal, hpushed.trans hperm, hrest⟩
  rw [hsettled, hnotes, hproblems]

/-- **The walk.** What waited at the start and every arm line behind it end where the event says. -/
theorem armWalk_spec (prims : Prims F) (rest : List Str) {w : ArmWalk F}
    {pending : List (Nat × Arm F)} {n : Nat}
    (hpending : w.pending = pending.map Prod.snd) (hsorted : pending.Pairwise fun p q => p.1 < q.1)
    (hbefore : ∀ p ∈ pending, p.1 < n) :
    WalkSpec w (rest.foldl (armStep prims) w)
      (waitingAll pending (nextVerdict n rest) ++ contributions prims n rest)
      n := by
  -- the pending arms are general: a verdict settles them, an arm line adds to them
  induction rest generalizing w pending n with
  | nil =>
    refine ⟨fun problems => ?_, [], ?_⟩
    · rw [List.foldl_nil, hpending, settle_eq]
      simp [nextVerdict, contributions]
    · simp [nextVerdict, contributions, attributions_waitingAll_none]
  | cons raw rest ih =>
    have hlater : ∀ p ∈ pending, p.1 < n + 1 := fun p hp => Nat.lt_succ_of_lt (hbefore p hp)
    rw [List.foldl_cons]
    generalize hnext : armStep prims w raw = next
    cases hnext ▸ armStep_cases prims w raw with
    | verdict hverdict harm =>
      rename_i id
      have hflush := flush_eq id n hpending
      obtain ⟨hfirst, hline⟩ := attributions_waitingAll hsorted n id
      have hrest := @ih (flush id w) [] (n + 1) (by rw [hflush]; rfl) List.Pairwise.nil (by simp)
      simp only [nextVerdict, hverdict, contributions, harm]
      exact hrest.prepend _ (by rw [hflush]) (by rw [hflush]) (problems_waitingAll pending _)
        hfirst hline
    | skipped hverdict harm =>
      simp only [nextVerdict, hverdict, contributions, harm]
      exact (ih hpending hsorted hlater).prepend [] (by simp) (by simp) rfl List.Pairwise.nil
        (by simp)
    | token hverdict harm htoken =>
      rename_i parsed section'
      have hrest := @ih { w with arms := w.arms ++ [parsed.attributed section'] } pending
          (n + 1) hpending hsorted hlater
      have hspec : WalkSpec w _ ([(n, .arm n (parsed.attributed section'))] ++ _) n :=
        hrest.prepend _ rfl (by simp [note?]) rfl (List.pairwise_singleton _ _)
          (by simp [attribution?])
      simp only [nextVerdict, hverdict, contributions, harm, contribution, htoken]
      refine hspec.congr (by simp [note?, List.filterMap_cons])
        (by simp [problem?, List.filterMap_cons]) ?_
      simp only [List.singleton_append, List.filterMap_cons, List.filterMap_append, attribution?]
      exact List.perm_middle.symm
    | waits hverdict harm htoken =>
      rename_i parsed
      have hrest := @ih { w with
          pending := w.pending ++ [parsed] } (pending ++ [(n, parsed)]) (n + 1)
        (by simp [hpending])
        (List.pairwise_append.mpr ⟨hsorted, List.pairwise_singleton _ _, fun p hp q hq => by
          rw [List.mem_singleton.mp hq]
          exact hbefore p hp⟩)
        (by
          intro p hp
          rcases List.mem_append.mp hp with hp | hp
          · exact hlater p hp
          · rw [List.mem_singleton.mp hp]
            exact Nat.lt_succ_self n)
      have hspec := hrest.prepend (w := w) [] (by simp) (by simp) rfl List.Pairwise.nil (by simp)
      simp only [nextVerdict, hverdict, contributions, harm, contribution, htoken]
      simpa [waitingAll] using hspec

/-! ## Verdict lines -/

/-- The pattern finds the id of a verdict line. -/
theorem mandateOn_eq_some_iff {line : List Char} (hnl : ∀ text, line ≠ text ++ ['\n'])
    (hlen : line.length ≤ Pyre.unbounded) (id : String) :
    mandateOn line = some id ↔ ∃ verdict tail, Verdict line id.toList verdict tail := by
  rw [mandateOn]
  cases hfound : mandateLineRe.search (String.ofList line) with
  | none =>
    rw [Option.bind_none]
    refine ⟨fun h => (nomatch h), ?_⟩
    rintro ⟨verdict, tail, hv⟩
    exact absurd hv (not_verdict_of_search hlen hfound id.toList verdict tail)
  | some found =>
    obtain ⟨id', verdict, tail, hv, hid, -, -⟩ := verdict_of_search hnl hlen hfound
    rw [Option.bind_some, hid, Option.some.injEq]
    constructor
    · rintro rfl
      rw [String.toList_ofList]
      exact ⟨verdict, tail, hv⟩
    · rintro ⟨verdict', tail', hv'⟩
      rw [(hv.unique hv').1, String.ofList_toList]

/-- A verdict line starts like a mandate line. -/
theorem Verdict.startsLikeMandate {line id verdict tail : List Char}
    (h : Verdict line id verdict tail) :
    startsLikeMandate line = true := by
  rw [MandateCheck.startsLikeMandate, h.1, Bool.and_eq_true, List.isPrefixOf_iff_prefix]
  refine ⟨decide_eq_true fun heq => ?_, List.prefix_append _ _⟩
  have hlength := congrArg List.length heq
  simp only [List.length_append, String.reduceToList, List.length_cons, List.length_nil] at hlength
  omega

/-- The id on an event is that of the grammar. -/
theorem verdictOn_eq_some_iff (raw : Str) (id : String) :
    verdictOn raw = some id ↔
      ∃ verdict tail, Verdict (Text.trimEnd raw.1.toList) id.toList verdict tail := by
  have hlen : (Text.trimEnd raw.1.toList).length ≤ Pyre.unbounded := by
    have hle := Text.length_trimEnd_le raw.1.toList
    have hraw := raw.2
    simp only [Pyre.unbounded]
    omega
  rw [← mandateOn_eq_some_iff (fun text => Text.trimEnd_ne_append _ text rfl) hlen, verdictOn]
  split
  · exact Iff.rfl
  · next hstart =>
    refine ⟨fun h => absurd h (Option.some_ne_none _).symm, fun h => ?_⟩
    obtain ⟨verdict, tail, hv⟩ :=
      (mandateOn_eq_some_iff (fun text => Text.trimEnd_ne_append _ text rfl) hlen id).mp h
    exact absurd hv.startsLikeMandate hstart

/-! ## The result -/

/-- What the arms, notes and problems of a run of events are, with `tie` between the arms of one
id. -/
structure ArmLinesMeet (prims : Prims F) (tie : Attribution F → Attribution F → Prop)
    (events : List Str)
    (given : List String) : Prop where
  /-- the verdict lines that are waited for are those of the grammar -/
  verdicts : ∀ raw ∈ events, ∀ id : String,
    verdictOn raw = some id ↔
      ∃ verdict tail, Verdict (Text.trimEnd raw.1.toList) id.toList verdict tail
  notes : (parseArmLines prims events given).notes = (contributions prims 0 events).filterMap note?
  problems : (parseArmLines prims events given).problems =
    given ++ (contributions prims 0 events).filterMap problem?
  arms : ∃ attributions : List (Attribution F),
    (parseArmLines prims events given).arms = attributions.map Attribution.arm ∧
    attributions.Perm ((contributions prims 0 events).filterMap attribution?) ∧
    attributions.Pairwise fun a b => idLe a.arm b.arm = true ∧ (a.arm.id = b.arm.id → tie a b)

theorem idLe_of_id_eq {left right : Arm F} (h : left.id = right.id) : idLe left right = true := by
  rw [idLe, h]
  cases right.id <;> simp

theorem idLe_total (left right : Arm F) : idLe left right = true ∨ idLe right left = true := by
  simp only [idLe]
  cases left.id with
  | none => exact .inl rfl
  | some l =>
    cases right.id with
    | none => exact .inr rfl
    | some r => simpa using le_total l r

/-- The order by identifiers is transitive. -/
theorem idLe_trans {a b c : Arm F} (h : idLe a b = true) (h' : idLe b c = true) :
    idLe a c = true := by
  simp only [idLe] at h h' ⊢
  cases ha : a.id with
  | none => rfl
  | some l =>
    cases hb : b.id with
    | none => simp [ha, hb] at h
    | some m =>
      cases hc : c.id with
      | none => simp [hb, hc] at h'
      | some r =>
        simp only [ha, hb, hc, decide_eq_true_eq] at h h' ⊢
        exact h.trans h'

/-- Every arm line ends in exactly one place: its section token, the next verdict line or neither
decides which. The arms are sorted by id, and for one id in the order in which they were
attributed. -/
theorem arm_lines_conserved (prims : Prims F) (events : List Str) (problems : List String) :
    ArmLinesMeet prims ByLine events problems := by
  have hspec := @armWalk_spec F prims events ⟨[], [], []⟩ [] 0 rfl List.Pairwise.nil (by simp)
  obtain ⟨hsettled, pushed, harms, hperm, hpushed, -⟩ := hspec
  have hall : waitingAll ([] : List (Nat × Arm F)) (nextVerdict 0 events) = [] := rfl
  rw [hall, List.nil_append] at hsettled hperm
  refine ⟨fun raw _ id => verdictOn_eq_some_iff raw id, ?_, ?_, ?_⟩
  · rw [parseArmLines]
    dsimp only
    rw [hsettled]
    rfl
  · rw [parseArmLines]
    dsimp only
    rw [hsettled]
    rfl
  · let r : Attribution F → Attribution F → Prop := fun a b => idLe a.arm b.arm = true
    have : Std.Total r := ⟨fun a b => idLe_total a.arm b.arm⟩
    have : IsTrans (Attribution F) r := ⟨fun a b c => idLe_trans⟩
    refine ⟨pushed.insertionSort r, ?_, (List.perm_insertionSort r pushed).trans hperm, ?_⟩
    · rw [parseArmLines]
      dsimp only
      rw [harms, List.nil_append]
      exact (List.map_insertionSort r (fun left right => idLe left right = true)
        Attribution.arm pushed
        fun a _ b _ => Iff.rfl).symm
    · exact (pairwise_insertionSort_stable hpushed).imp fun ⟨hle, htie⟩ =>
        ⟨hle, fun heq => htie (idLe_of_id_eq heq.symm)⟩

/-- A pattern that begins with a character finds nothing in a text that begins otherwise. -/
theorem search_eq_none_of_beginsWith {r : Regex} {c : Char} (hbegins : beginsWith c r = true)
    {text : String}
    (h : text.toList.head? ≠ some c) : r.search text = none := by
  rw [beginsWith, Bool.and_eq_true, Bool.not_eq_true'] at hbegins
  obtain ⟨hcase, hroot⟩ := hbegins
  split at hroot
  · next first rest hroot' =>
    obtain rfl : first = c := by simpa using hroot
    have hseen : r.seen text.toList = text.toList := by rw [Regex.seen, hcase]; rfl
    have hnone : Pyre.concatResults (.char first :: rest) text.toList 0 r.emptyCaptures = [] := by
      refine List.eq_nil_iff_forall_not_mem.mpr ?_
      rintro ⟨captures, stop⟩ hmem
      refine h ?_
      obtain ⟨m, hreads, -⟩ := (@Pyre.mem_concatResults_literal [first] rest _ _ _ _ _).mp hmem
      rw [List.head?_eq_getElem?]
      exact (Pyre.reads_cons.mp hreads).1
    rw [Regex.search, hseen, Pyre.searchFrom_anchored hroot', hnone]
    rfl
  · cases hroot

/-- A body that does not begin with its first letter is no bulk repetition. -/
theorem armBulkRepRe_search_eq_none {body : String} (h : body.toList.head? ≠ some 'd') :
    armBulkRepRe.search body = none := by
  have hany := armBulkRepPattern_begins
  cases hnew : Regex.new armBulkRepPattern false with
  | ok r =>
    rw [armBulkRepRe, Pyre.compiled_of_new hnew]
    rw [hnew] at hany
    exact search_eq_none_of_beginsWith hany h
  | error e =>
    rw [hnew] at hany
    cases hany

/-- An arm line with a label and tokens. -/
theorem parseArmLine_eq (prims : Prims F) {line : String} {label body : List Char}
    (hfound : ((armLineRe.search line).map fun found =>
      (Text.trim ((found.named "label").getD "").toList,
        Text.trim ((found.named "body").getD "").toList)) =
        some (label, body))
    (hlabel : label ≠ []) (hbody : body.head? ≠ some 'd') :
    parseArmLine prims line =
      some (parseArmBody prims (String.ofList label) (String.ofList body) none) := by
  obtain ⟨found, hsearch, hparts⟩ := Option.map_eq_some_iff.mp hfound
  obtain ⟨rfl, rfl⟩ := Prod.mk.inj hparts
  have hname : String.ofList (Text.trim ((found.named "label").getD "").toList) ≠ "" := by
    simpa using hlabel
  rw [parseArmLine, hsearch, Option.map_some]
  dsimp only
  rw [if_neg hname, armBulkRepRe_search_eq_none (by simpa using hbody)]
  rfl

/-- Floats that are whole numbers. -/
def wholePrims : Prims Int where
  isAlphanumeric := Text.isAsciiAlphanumeric
  parseF64 text := (Numerals.parseI64 text).map Subtype.val
  isFinite _ := true
  asI64 n := if h : -2 ^ 63 ≤ n ∧ n < 2 ^ 63 then ⟨n, h⟩ else ⟨0, by decide⟩

/-- An arm that waits. -/
def waitingLine : Str := ⟨"[mandate-smoke x] p50=1", by decide⟩

/-- One of the same label, printed later, that carries its section. -/
def tokenLine : Str := ⟨"[mandate-smoke x] section=M1 p50=2", by decide⟩

/-- The verdict line of that section. -/
def sectionLine : Str := ⟨"MANDATE M1 PASS a=1", by decide⟩

theorem armOn_waitingLine : ∃ a : Arm Int, armOn wholePrims waitingLine = some a ∧ a.note = false ∧
    a.label = "x" ∧ a.sectionToken = none ∧ a.rawLine = "[mandate-smoke x] p50=1" := by
  refine ⟨parseArmBody wholePrims "x" "p50=1" none, ?_, ?_⟩
  · rw [armOn, if_neg (by decide +kernel)]
    exact @parseArmLine_eq Int wholePrims _ ['x'] "p50=1".toList (by decide +kernel) (by decide)
      (by decide)
  · decide +kernel

theorem armOn_tokenLine : ∃ b : Arm Int, armOn wholePrims tokenLine = some b ∧ b.label = "x" ∧
    b.sectionToken = some "M1" ∧ b.rawLine = "[mandate-smoke x] section=M1 p50=2" := by
  refine ⟨parseArmBody wholePrims "x" "section=M1 p50=2" none, ?_, ?_⟩
  · rw [armOn, if_neg (by decide +kernel)]
    exact @parseArmLine_eq Int wholePrims _ ['x'] "section=M1 p50=2".toList (by decide +kernel)
      (by decide) (by decide)
  · decide +kernel

theorem verdictOn_sectionLine : verdictOn sectionLine = some "M1" := by
  refine (verdictOn_eq_some_iff sectionLine "M1").mpr ⟨"PASS".toList, " a=1".toList, ?_, ?_,
    .inl rfl, ?_⟩
  · simp only [sectionLine, String.reduceToList]
    rfl
  · exact ⟨'M', ['1'], by decide, by decide, fun c hc => by cases List.mem_singleton.mp hc; decide⟩
  · intro c rest heq
    obtain rfl : ' ' = c := (List.cons.inj heq).1
    rfl

/-- An arm that waits, one of the same label that carries its section, and the verdict line of that
section. -/
structure OutOfOrder (prims : Prims F) (first second last : Str) (a b : Arm F) (id : String) :
    Prop where
  firstArm : armOn prims first = some a
  secondArm : armOn prims second = some b
  firstVerdict : verdictOn first = none
  secondVerdict : verdictOn second = none
  lastVerdict : verdictOn last = some id
  note : a.note = false
  waits : a.sectionToken = none
  carries : b.sectionToken = some id
  label : a.label = b.label

namespace OutOfOrder

variable {prims : Prims F} {first second last : Str} {a b : Arm F} {id : String}

/-- The walk lists the later arm first. -/
theorem arms (h : OutOfOrder prims first second last a b id) :
    (parseArmLines prims [first, second, last] []).arms = [b.attributed id, a.attributed id] := by
  have hlast := armOn_of_verdictOn prims h.lastVerdict
  simp [parseArmLines, armStep_eq, h.firstArm, h.secondArm, hlast, h.firstVerdict, h.secondVerdict,
    h.lastVerdict, h.waits, h.carries,
    flush, flushEntry, h.note, idLe, Arm.attributed, h.label]

/-- The lines attribute the earlier arm first. -/
theorem attributions (h : OutOfOrder prims first second last a b id) :
    (contributions prims 0 [first, second, last]).filterMap attribution? =
      [⟨0, 2, a.attributed id⟩, ⟨1, 1, b.attributed id⟩] := by
  have hlast := armOn_of_verdictOn prims h.lastVerdict
  simp [contributions, nextVerdict, contribution, waiting, attribution?, h.firstArm, h.secondArm,
    hlast, h.lastVerdict,
    h.secondVerdict, h.waits, h.carries, h.note]

end OutOfOrder

/-- Of two arms of one id, the one that is printed first comes second. -/
theorem arm_ties_not_by_event :
    ¬ ∀ (prims : Prims Int) (events : List Str) (problems : List String),
      ArmLinesMeet prims ByEvent events problems := by
  intro h
  obtain ⟨a, ha, hnote, halabel, hatoken, haraw⟩ := armOn_waitingLine
  obtain ⟨b, hb, hblabel, hbtoken, hbraw⟩ := armOn_tokenLine
  have hsection : verdictOn sectionLine = some "M1" := verdictOn_sectionLine
  have hwaiting : verdictOn waitingLine = none := by decide +kernel
  have htoken : verdictOn tokenLine = none := by decide +kernel
  have horder : OutOfOrder wholePrims waitingLine tokenLine sectionLine a b "M1" :=
    ⟨ha, hb, hwaiting, htoken, hsection, hnote, hatoken, hbtoken, halabel.trans hblabel.symm⟩
  obtain ⟨attributions, harms, hperm, hsorted⟩ :=
    (h wholePrims [waitingLine, tokenLine, sectionLine] []).arms
  rw [horder.arms] at harms
  rw [horder.attributions] at hperm
  have hne : (b.attributed "M1").rawLine ≠ (a.attributed "M1").rawLine := by
    change b.rawLine ≠ a.rawLine
    rw [haraw, hbraw]
    decide
  rcases List.perm_pair.mp hperm with rfl | rfl
  · exact hne (congrArg Arm.rawLine (List.cons_eq_cons.mp harms).1)
  · obtain ⟨-, htie⟩ := List.rel_of_pairwise_cons hsorted (List.mem_singleton_self _)
    have hids : (b.attributed "M1").id = (a.attributed "M1").id := by
      simp [Arm.attributed, halabel, hblabel]
    exact absurd (htie hids) (Nat.not_lt_zero 1)

end RtpMux.MandateCheck
