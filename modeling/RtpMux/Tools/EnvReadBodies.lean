import Mathlib.Data.List.ReduceOption
import RtpMux.Tools.EnvReads
import RtpMux.Tools.KeyPositions
import RtpMux.Tools.PyreCaptures

/-!
# The bodies that `rust_env_read_names` takes

The offset of a match counts characters, and is used to cut the text at a byte; what is found from
there counts bytes, and is used to cut the list of characters. Where all characters up to the brace
are ASCII the two are the same, nothing panics, and the body of a function is the text from its
brace to the one that closes it. Elsewhere the cut may be within a character, the brace may lie
behind the end, or another stretch of the text is taken for the body.
-/

namespace RtpMux.Pyre

/-! ## Patterns with a group -/

/-- A sequence in front of its group `index`, the pattern of the group, and what is behind. -/
def splitGroup (index : Nat) : List Node → Option (List Node × Node × List Node)
  | [] => none
  | .group (some i) inner :: rest =>
    if i = index then some ([], inner, rest)
    else (splitGroup index rest).map fun s => (.group (some i) inner :: s.1, s.2)
  | item :: rest => (splitGroup index rest).map fun s => (item :: s.1, s.2)

/-- A split concatenation is its front, the group and its back. -/
theorem splitGroup_eq {index : Nat} {items front back : List Node} {inner : Node}
    (h : splitGroup index items = some (front, inner, back)) :
    items = front ++ .group (some index) inner :: back := by
  fun_induction splitGroup index items generalizing front with
  | case1 => cases h
  | case2 inner' rest =>
    cases h
    rfl
  | case3 i inner' rest hne ih =>
    obtain ⟨⟨front', inner₁, back₁⟩, hs, heq⟩ := Option.map_eq_some_iff.1 h
    cases heq
    rw [ih hs]
    rfl
  | case4 item rest hitem ih =>
    obtain ⟨⟨front', inner₁, back₁⟩, hs, heq⟩ := Option.map_eq_some_iff.1 h
    cases heq
    rw [ih hs]
    rfl

/-- A literal stands in the sequence. -/
def hasChar (items : List Node) : Bool := items.any fun item => match item with
  | .char _ => true
  | _ => false

/-- A concatenation with a literal character. -/
theorem hasChar_iff {items : List Node} : hasChar items = true ↔
    ∃ x front back, items = front ++ .char x :: back := by
  rw [hasChar, List.any_eq_true]
  constructor
  · rintro ⟨item, hmem, hitem⟩
    obtain ⟨front, back, rfl⟩ := List.append_of_mem hmem
    cases item with
    | char x => exact ⟨x, front, back, rfl⟩
    | _ => cases hitem
  · rintro ⟨x, front, back, rfl⟩
    exact ⟨.char x, by simp, rfl⟩

/-- A sequence around its group `index`, with no other group behind it and `p` of its two ends. -/
def Regex.splits (index : Nat) (p : List Node → List Node → Bool) (r : Regex) : Bool :=
  match r.root with
  | .concat items =>
    (splitGroup index items).any fun s => p s.1 s.2.2 && groupFree s.2.1 && allGroupFree s.2.2
  | _ => false

/-- A property of a compiled pattern, checked on its characters. -/
theorem compiled_of_check {pattern : String} {chars : List Char}
    {h : (Regex.new pattern false).isOk = true}
    {p : Regex → Bool} (hchars : pattern.toList = chars)
    (hp : (Regex.newOfChars chars ⟨false, false, false⟩).toOption.any p = true) :
    p (compiled pattern h) = true := by
  cases hr : Regex.newOfChars chars ⟨false, false, false⟩ with
  | ok r =>
    rw [hr] at hp
    rw [compiled_of_new ((Regex.newWithFlags_eq hchars _).trans hr)]
    exact hp
  | error e =>
    rw [hr] at hp
    cases hp

/-- What `find_iter` finds with a pattern, by its characters and those of the text. -/
theorem findIter_compiled {pattern : String} {chars : List Char}
    {h : (Regex.new pattern false).isOk = true}
    (hchars : pattern.toList = chars) {text : List Char} {ms : List Match}
    (hms : (Regex.newOfChars chars ⟨false, false, false⟩).toOption.any (fun r =>
      (r.findIterLoop (r.seen text) (text.length + 2) 0).map (r.materialize text) == ms) = true) :
    (compiled pattern h).findIter (String.ofList text) = ms := by
  rw [Regex.findIter, Regex.findIterFound, String.toList_ofList]
  exact beq_iff_eq.1 (compiled_of_check
    (p := fun r => (r.findIterLoop (r.seen text) (text.length + 2) 0).map (r.materialize text) ==
      ms) hchars hms)

/-- What is found with such a pattern: the front up to `i`, the group up to `j`, and the rest. -/
theorem Regex.found_of_splits {r : Regex} {index : Nat} {p : List Node → List Node → Bool}
    (hr : r.splits index p = true) {text : String} {m : Found} (hm : m ∈ r.findIterFound text) :
    ∃ front back c i j, p front back = true ∧ m.captures = c.set index (some (i, j)) ∧
      (c, i) ∈ concatResults front (r.seen text.toList) m.start r.emptyCaptures ∧
      Forward (r.seen text.toList) i j ∧
      (m.captures, m.stop) ∈ concatResults back (r.seen text.toList) j m.captures := by
  obtain ⟨⟨captures, stop⟩, hmem, heq⟩ := List.mem_map.1 (Regex.mem_findIterLoop hm)
  have hstop : stop = m.stop := congrArg Found.stop heq
  have hcaptures : captures = m.captures := congrArg Found.captures heq
  rw [hstop, hcaptures] at hmem
  unfold Regex.splits at hr
  split at hr
  · next items hroot =>
    obtain ⟨⟨front, inner, back⟩, hsplit, hcheck⟩ := (Option.any_eq_true _ _).1 hr
    simp only [Bool.and_eq_true] at hcheck
    obtain ⟨⟨hp, hinner⟩, hback⟩ := hcheck
    rw [hroot, mem_results_concat, splitGroup_eq hsplit] at hmem
    obtain ⟨c, i, j, hfront, hforward, hbehind, hset⟩ := mem_concatResults_around hinner hback hmem
    exact ⟨front, back, c, i, j, hp, hset, hfront, hforward, hbehind⟩
  · cases hr

/-- A concatenation with a literal character consumes something. -/
theorem lt_of_hasChar {items : List Node} {text : List Char} {pos e : Nat} {caps c : Captures}
    (hitems : hasChar items = true) (h : (c, e) ∈ concatResults items text pos caps) : pos < e := by
  obtain ⟨x, front, back, rfl⟩ := hasChar_iff.1 hitems
  exact lt_of_mem_concatResults_char h

end RtpMux.Pyre

namespace RtpMux.CheckGate

open Pyre

/-! ## Matches -/

/-- The group of `fnRe` is its only one, and `fn` is in front of it. -/
theorem fnRe_splits :
    (fnRe.splits 1 (fun front _ => allGroupFree front && hasChar front) && fnRe.groupCount == 1) =
    true :=
  compiled_of_check (p := fun r => r.splits 1
    (fun front _ => allGroupFree front && hasChar front) && r.groupCount == 1)
    String.toList_ofList (by decide +kernel)

theorem callRe_splits : callRe.splits 1 (fun _ back => hasChar back) = true :=
  compiled_of_check String.toList_ofList (by decide +kernel)

theorem constStrRe_splits : constStrRe.splits 2 (fun front _ => hasChar front) = true :=
  compiled_of_check String.toList_ofList (by decide +kernel)

/-- A match ends inside the text. -/
theorem stop_le_of_mem {r : Regex} {text : List Char} {m : Match}
    (hm : m ∈ r.findIter (String.ofList text)) :
    m.stop ≤ text.length := by
  obtain ⟨found, hfound, rfl⟩ := List.mem_map.1 hm
  have hle := (((r.findIterLoop_ordered _ _ _).1 found hfound).stop_le).2
  rwa [r.length_seen, String.toList_ofList] at hle

/-- A function that was found is not empty, and has a name. -/
theorem fnRe_found {text : List Char} {m : Match} (hm : m ∈ fnRe.findIter (String.ofList text)) :
    m.stop ≠ 0 ∧ ∃ name, (m.groups[0]?).join = some name := by
  obtain ⟨found, hfound, rfl⟩ := List.mem_map.1 hm
  obtain ⟨hsplits, hcount⟩ := (Bool.and_eq_true _ _).mp fnRe_splits
  obtain ⟨front, back, c, i, j, hp, hcaptures, hfront, hforward, hback⟩ :=
    Regex.found_of_splits hsplits hfound
  obtain ⟨hfree, hchar⟩ := (Bool.and_eq_true _ _).mp hp
  have hlt := lt_of_hasChar hchar hfront
  have hle := hforward.1
  have hle' := (forward_of_mem_concatResults hback).1
  refine ⟨?_, slice (String.ofList text).toList (i, j), ?_⟩
  · show found.stop ≠ 0
    omega
  · have hempty : c = [none, none] := by
      rw [captures_of_allGroupFree front _ hfree _ _ _ _ hfront, Regex.emptyCaptures,
        beq_iff_eq.1 hcount]
      rfl
    rw [Regex.materialize, hcaptures, hempty]
    rfl

/-- A call does not end at the text's beginning. -/
theorem callRe_found {text : List Char} {m : Match}
    (hm : m ∈ callRe.findIter (String.ofList text)) : m.stop ≠ 0 := by
  obtain ⟨found, hfound, rfl⟩ := List.mem_map.1 hm
  obtain ⟨front, back, c, i, j, hp, -, -, -, hback⟩ := Regex.found_of_splits callRe_splits hfound
  have hlt := lt_of_hasChar hp hback
  show found.stop ≠ 0
  omega

/-- The literal of a constant is within the text and behind the start of its declaration. -/
theorem constStrRe_found {text : List Char} {m : Found}
    (hm : m ∈ constStrRe.findIterFound (String.ofList text))
    {literal : Nat × Nat} (hliteral : (m.captures[2]?).join = some literal) :
    m.start < literal.1 ∧ literal.1 ≤ text.length := by
  obtain ⟨front, back, c, i, j, hp, hcaptures, hfront, hforward, hback⟩ :=
    Regex.found_of_splits constStrRe_splits hm
  have hlt := lt_of_hasChar hp hfront
  have hinside := (forward_of_mem_concatResults hfront).2 hlt
  rw [Regex.length_seen, String.toList_ofList] at hinside
  obtain rfl : literal = (i, j) := by
    rw [hcaptures, List.getElem?_set] at hliteral
    split at hliteral
    · split at hliteral
      · exact (Option.some.inj hliteral).symm
      · cases hliteral
    · next hne => exact absurd rfl hne
  exact ⟨hlt, hinside⟩

/-! ## Braces -/

/-- How many more braces are opened than closed. -/
def braceBalance (text : List Char) : Int := text.count '{' - text.count '}'

theorem braceBalance_cons (c : Char) (text : List Char) :
    braceBalance (c :: text) = (if c = '{' then 1 else if c = '}' then -1 else 0) +
      braceBalance text := by
  simp only [braceBalance, List.count_cons, beq_iff_eq]
  split
  · next heq => simp [heq]; omega
  · split
    · simp; omega
    · simp

/-- The first `needle` at an offset or behind it. -/
structure IsFirst (quiet : List Char) (offset : Nat) (needle : Char) (i : Nat) : Prop where
  behind : offset ≤ i
  here : quiet[i]? = some needle
  first : ∀ j, offset ≤ j → j < i → quiet[j]? ≠ some needle

/-- The body behind an offset: from the first `{` up to the `}` that closes it. -/
structure IsFnBody (quiet : List Char) (offset start stop : Nat) : Prop where
  opens : IsFirst quiet offset '{' start
  after : start < stop
  nested : ∀ i, start < i → i ≤ stop → 0 < braceBalance ((quiet.drop start).take (i - start))
  closes : braceBalance ((quiet.drop start).take (stop + 1 - start)) = 0

theorem ofInt_sub_one_eq_zero {depth : Int} (hpos : 0 < depth) (hlt : depth < 2 ^ 31) :
    Int32.ofInt depth - 1 = 0 ↔ depth = 1 := by
  have hsub : Int32.ofInt depth - 1 = Int32.ofInt (depth - 1) := by simp
  rw [hsub]
  constructor
  · intro h
    have hint := congrArg Int32.toInt h
    rw [Int32.toInt_ofInt_of_le (by omega) (by omega)] at hint
    have hzero : Int32.toInt 0 = 0 := rfl
    omega
  · rintro rfl
    rfl

/-- The scan stops where the depth, as long as it fits, gets back to zero. -/
theorem closingBrace_eq {text : List Char} {depth : Int} {n : Nat} (hpos : 0 < depth)
    (hlt : depth < 2 ^ 31)
    (hnested : ∀ i, 0 < i → i ≤ n → 0 < depth + braceBalance (text.take i) ∧
      depth + braceBalance (text.take i) < 2 ^ 31)
    (hcloses : depth + braceBalance (text.take (n + 1)) = 0) (hn : n < text.length) :
    closingBrace (Int32.ofInt depth) text = some n := by
  induction text generalizing depth n with
  | nil => cases hn
  | cons c rest ih =>
    have hstep (i : Nat) : braceBalance ((c :: rest).take (i + 1)) =
        (if c = '{' then 1 else if c = '}' then -1 else 0) + braceBalance (rest.take i) := by
      rw [List.take_succ_cons, braceBalance_cons]
    have hzero : braceBalance (rest.take 0) = 0 := rfl
    -- one character further on, at the depth that it leads to
    have hnext (depth' : Int)
        (hdepth' : depth' = depth + (if c = '{' then 1 else if c = '}' then -1 else 0))
        (hne : depth' ≠ 0) : (closingBrace (Int32.ofInt depth') rest).map (· + 1) = some n := by
      cases n with
      | zero =>
        rw [hstep, hzero] at hcloses
        omega
      | succ n =>
        have hone := hnested 1 Nat.one_pos (by omega)
        rw [hstep, hzero] at hone
        refine Option.map_eq_some_iff.2
          ⟨n, ih (by omega) (by omega) (fun i hi hin => ?_) ?_ (by simpa using hn), rfl⟩
        · have hi' := hnested (i + 1) (by omega) (by omega)
          rw [hstep] at hi'
          omega
        · rw [hstep] at hcloses
          omega
    rw [closingBrace]
    split
    · next hopen =>
      have hdepth : Int32.ofInt depth + 1 = Int32.ofInt (depth + 1) := by simp
      rw [hdepth]
      exact hnext (depth + 1) (by rw [if_pos hopen]) (by omega)
    · next hopen =>
      split
      · next hclose =>
        split
        · next hlast =>
          cases n with
          | zero => rfl
          | succ n =>
            have hone := hnested 1 Nat.one_pos (by omega)
            rw [hstep, hzero, if_neg hopen, if_pos hclose,
              (ofInt_sub_one_eq_zero hpos hlt).1 hlast] at hone
            omega
        · next hlast =>
          have hdepth : Int32.ofInt depth - 1 = Int32.ofInt (depth - 1) := by simp
          rw [hdepth]
          refine hnext (depth - 1) (by rw [if_neg hopen, if_pos hclose]; rfl) fun hzero => hlast ?_
          exact (ofInt_sub_one_eq_zero hpos hlt).2 (by omega)
      · next hclose =>
          exact hnext depth (by rw [if_neg hopen, if_neg hclose, Int.add_zero]) (by omega)

/-- A closing brace stands inside the text. -/
theorem closingBrace_lt {depth : Int32} {text : List Char} {n : Nat}
    (h : closingBrace depth text = some n) :
    n < text.length := by
  induction text generalizing depth n with
  | nil => cases h
  | cons c rest ih =>
    have hmap {depth' : Int32} (h : (closingBrace depth' rest).map (· + 1) = some n) : n <
        (c :: rest).length := by
      obtain ⟨m, hm, rfl⟩ := Option.map_eq_some_iff.1 h
      exact Nat.succ_lt_succ (ih hm)
    rw [closingBrace] at h
    split at h
    · exact hmap h
    · split at h
      · split at h
        · cases h
          exact Nat.succ_pos _
        · exact hmap h
      · exact hmap h

/-- The end of a body is behind its start and inside the text. -/
theorem braceEndChars_bounds {chars : List Char} {start : Nat} (hstart : start < chars.length) :
    start ≤ braceEndChars chars start ∧ braceEndChars chars start ≤ chars.length := by
  rw [braceEndChars]
  split
  · next length hlength =>
    have hlt := closingBrace_lt hlength
    rw [List.length_drop] at hlt
    omega
  · omega

/-- The end of a body that does not nest too deep. -/
theorem braceEndChars_of_isFnBody {quiet : List Char} {offset start stop : Nat}
    (hbody : IsFnBody quiet offset start stop)
    (hshallow : ∀ i, start < i → i ≤ stop →
      braceBalance ((quiet.drop start).take (i - start)) < 2 ^ 31) :
    braceEndChars quiet start = stop := by
  obtain ⟨rest, hrest⟩ : ∃ rest, quiet.drop start = '{' :: rest := by
    have hhead := hbody.opens.here
    rw [← List.head?_drop] at hhead
    cases hdrop : quiet.drop start with
    | nil => simp [hdrop] at hhead
    | cons c rest =>
      rw [hdrop, List.head?_cons, Option.some.injEq] at hhead
      exact ⟨rest, by rw [hhead]⟩
  have hafter := hbody.after
  have htake (i : Nat) : braceBalance ((quiet.drop start).take (i + 1)) = 1 +
      braceBalance (rest.take i) := by
    rw [hrest, List.take_succ_cons, braceBalance_cons, if_pos rfl]
  have hdeep (i : Nat) (hi : start + i + 1 ≤ stop) : 0 < 1 + braceBalance (rest.take i) ∧
      1 + braceBalance (rest.take i) < 2 ^ 31 := by
    have hpos := hbody.nested (start + i + 1) (by omega) hi
    have hlt := hshallow (start + i + 1) (by omega) hi
    rw [show start + i + 1 - start = i + 1 by omega, htake] at hpos hlt
    exact ⟨hpos, hlt⟩
  have hcloses : 1 + braceBalance (rest.take (stop - start - 1 + 1)) = 0 := by
    have hcloses := hbody.closes
    rwa [show stop + 1 - start = stop - start - 1 + 1 + 1 by omega, htake] at hcloses
  have hinside : stop - start - 1 < rest.length := by
    by_contra hout
    have hdeep := hdeep (stop - start - 1) (by omega)
    rw [List.take_of_length_le (by omega)] at hcloses hdeep
    omega
  have hscan : closingBrace 0 (quiet.drop start) = some (stop - start) := by
    have hone : (0 : Int32) + 1 = Int32.ofInt 1 := rfl
    rw [hrest, closingBrace, if_pos rfl, hone,
      closingBrace_eq (by omega) (by omega) (fun i hi hin => hdeep i (by omega)) hcloses hinside,
        Option.map_some]
    exact congrArg some (by omega)
  rw [braceEndChars, hscan]
  show start + (stop - start) = stop
  omega

/-! ## Functions and closures -/

/-- ASCII is in front of an offset, and from there to the first `needle`, if there is one. -/
structure AsciiUpTo (quiet : List Char) (offset : Nat) (needle : Char) : Prop where
  front : ∀ c ∈ quiet.take offset, Utf8.IsAscii c
  behind : needle ∈ quiet.drop offset → ∀ c ∈ (quiet.drop offset).takeWhile (· ≠ needle),
    Utf8.IsAscii c

/-- Both searches are by characters then. -/
theorem AsciiUpTo.search {quiet : List Char} {offset : Nat} {needle : Char}
    (h : AsciiUpTo quiet offset needle)
    (hoffset : offset ≤ quiet.length) : Utf8.sliceFrom quiet offset = some (quiet.drop offset) ∧
      Utf8.find needle (quiet.drop offset) = (quiet.drop offset).findIdx? (· = needle) :=
  ⟨Utf8.sliceFrom_of_ascii hoffset h.front, Utf8.find_of_ascii h.behind⟩

/-- A first place is one. -/
theorem IsFirst.unique {quiet : List Char} {offset i j : Nat} {needle : Char}
    (hi : IsFirst quiet offset needle i)
    (hj : IsFirst quiet offset needle j) : i = j := by
  rcases Nat.lt_trichotomy i j with hlt | heq | hlt
  · exact absurd hi.here (hj.first i hi.behind hlt)
  · exact heq
  · exact absurd hj.here (hi.first j hj.behind hlt)

theorem IsFirst.lt_length {quiet : List Char} {offset i : Nat} {needle : Char}
    (h : IsFirst quiet offset needle i) :
    i < quiet.length := (List.getElem?_eq_some_iff.1 h.here).1

/-- What a search by characters finds. -/
theorem isFirst_of_findIdx? {quiet : List Char} {offset n : Nat} {needle : Char}
    (h : (quiet.drop offset).findIdx? (· = needle) = some n) :
    IsFirst quiet offset needle (offset + n) := by
  obtain ⟨hn, hneedle, hfirst⟩ := List.findIdx?_eq_some_iff_getElem.1 h
  refine ⟨Nat.le_add_right _ _, ?_, fun j hj hjn heq => ?_⟩
  · rw [← List.getElem?_drop, List.getElem?_eq_getElem hn]
    exact congrArg some (of_decide_eq_true hneedle)
  · have hbefore := hfirst (j - offset) (by omega)
    rw [← Nat.add_sub_cancel' hj, ← List.getElem?_drop, List.getElem?_eq_getElem (by omega),
      Option.some.injEq] at heq
    exact hbefore (decide_eq_true heq)

/-- Both forms of a body are of one length. -/
def Forwarder.Even (f : Forwarder) : Prop := f.codeBody.length = f.quietBody.length

variable {s : Scanned}

/-- Both texts are sliced alike. -/
theorem bothSlices_eq (hlength : s.code.length = s.quiet.length) {start stop : Nat}
    (hle : start ≤ stop)
    (hstop : stop ≤ s.quiet.length) : bothSlices s.code s.quiet start stop =
      some ((s.code.drop start).take (stop - start), (s.quiet.drop start).take (stop - start)) := by
  rw [bothSlices, slice?_of_le hle (hlength ▸ hstop), slice?_of_le hle hstop]
  rfl

/-- The turn for a function: nothing where no brace is behind it. -/
theorem fnForwarder_cases (hlength : s.code.length = s.quiet.length) {found : Match}
    (hfound : found ∈ fnRe.findIter (String.ofList s.quiet))
    (hascii : AsciiUpTo s.quiet found.stop '{') :
    (s.fnForwarder found = some none ∧ ∀ i, ¬ IsFirst s.quiet found.stop '{' i) ∨
      ∃ f start, s.fnForwarder found = some (some f) ∧ f.Even ∧
        IsFirst s.quiet found.stop '{' start ∧
        slice? s.code start (braceEndChars s.quiet start) = some f.codeBody ∧
        slice? s.quiet start (braceEndChars s.quiet start) = some f.quietBody := by
  obtain ⟨hslice, hfind⟩ := hascii.search (stop_le_of_mem hfound)
  obtain ⟨hpos, name, hname⟩ := fnRe_found hfound
  rw [Scanned.fnForwarder, hname]
  dsimp only
  rw [hslice, Option.bind_some, hfind]
  cases hindex : (s.quiet.drop found.stop).findIdx? (· = '{') with
  | none =>
    refine .inl ⟨rfl, fun i hi => ?_⟩
    have hnone := List.findIdx?_eq_none_iff.1 hindex '{' ?_
    · cases hnone
    · have hhere := hi.here
      rw [← Nat.add_sub_cancel' hi.behind, ← List.getElem?_drop] at hhere
      exact List.mem_of_getElem? hhere
  | some n =>
    have hfirst := isFirst_of_findIdx? hindex
    obtain ⟨hle, hend⟩ := braceEndChars_bounds hfirst.lt_length
    dsimp only
    rw [if_neg hpos, bothSlices_eq hlength hle hend]
    refine .inr ⟨_, _, rfl, ?_, hfirst, slice?_of_le hle (hlength ▸ hend), slice?_of_le hle hend⟩
    show List.length _ = List.length _
    rw [List.length_take, List.length_take, List.length_drop, List.length_drop, hlength]

/-- A search from inside the text finds a place inside the text. -/
theorem findChar_eq {chars : List Char} {needle : Char} {start : Nat}
    (hstart : start ≤ chars.length) :
    ∃ found, findChar chars needle start = some found ∧ ∀ i ∈ found, start ≤ i ∧
      i < chars.length := by
  refine ⟨_, if_pos hstart, fun i hi => ?_⟩
  obtain ⟨n, hn, rfl⟩ := Option.map_eq_some_iff.1 hi
  exact ⟨Nat.le_add_right _ _, (isFirst_of_findIdx? hn).lt_length⟩

/-- A header that ends within the text has a body of one length in both forms, or none. -/
theorem closureBody_cases (hlength : s.code.length = s.quiet.length) {headerEnd : Nat}
    (hend : headerEnd ≤ s.quiet.length) :
    ∃ body, closureBody s.code s.quiet headerEnd = some body ∧
      ∀ b ∈ body, b.1.length = b.2.length := by
  have hboth {start stop : Nat} (hle : start ≤ stop) (hstop : stop ≤ s.quiet.length) :
      ∃ body, (bothSlices s.code s.quiet start stop).map some = some body ∧
        ∀ b ∈ body, b.1.length = b.2.length := by
    rw [bothSlices_eq hlength hle hstop]
    refine ⟨_, rfl, fun b hb => ?_⟩
    cases hb
    rw [List.length_take, List.length_take, List.length_drop, List.length_drop, hlength]
  obtain ⟨brace, hbrace, hinside⟩ := @findChar_eq s.quiet '{' headerEnd hend
  obtain ⟨semi, hsemi, hinside'⟩ := @findChar_eq s.quiet ';' headerEnd hend
  rw [closureBody, hbrace, Option.bind_some, hsemi, Option.bind_some]
  split
  · next i hi =>
    obtain ⟨-, hlt⟩ := hinside i (Option.filter_eq_some_iff.1 hi).1
    exact hboth (braceEndChars_bounds hlt).1 (braceEndChars_bounds hlt).2
  · cases semi with
    | some i =>
      obtain ⟨hle, hlt⟩ := hinside' i rfl
      exact hboth hle hlt.le
    | none => exact ⟨none, rfl, fun b hb => by cases hb⟩

/-- A closure is no forwarder, or one whose texts are equally long. -/
theorem closureForwarder_cases (hlength : s.code.length = s.quiet.length) {found : Match}
    (hfound : found ∈ closureRe.findIter (String.ofList s.quiet))
    (hascii : AsciiUpTo s.quiet found.stop '|') :
    ∃ answer, s.closureForwarder found = some answer ∧ ∀ f ∈ answer, f.Even := by
  have hnone : ∃ answer : Option Forwarder, some (none : Option Forwarder) = some answer ∧
      ∀ f ∈ answer, f.Even :=
    ⟨none, rfl, fun f hf => by cases hf⟩
  obtain ⟨hslice, hfind⟩ := hascii.search (stop_le_of_mem hfound)
  rw [Scanned.closureForwarder]
  split
  · exact hnone
  · rw [hslice, Option.bind_some, hfind]
    split
    · exact hnone
    · next bar hbar =>
      have hfirst := isFirst_of_findIdx? hbar
      have hlt := hfirst.lt_length
      obtain ⟨body, hbody, heven⟩ := @closureBody_cases s hlength (found.stop + bar + 1) hlt
      dsimp only
      rw [hbody, Option.bind_some]
      cases body with
      | none => exact hnone
      | some b =>
        rw [slice?_of_le hfirst.behind hlt.le]
        refine ⟨_, rfl, fun f hf => ?_⟩
        cases hf
        exact heven b rfl

/-! ## Sources -/

/-- Turns that all have an answer. -/
theorem exists_mapM {α β : Type} {f : α → Option β} {P : α → β → Prop} {l : List α}
    (h : ∀ x ∈ l, ∃ y, f x = some y ∧ P x y) :
    ∃ ys, l.mapM f = some ys ∧ (∀ x ∈ l, ∃ y ∈ ys, f x = some y ∧ P x y) ∧
      ∀ y ∈ ys, ∃ x ∈ l, f x = some y ∧ P x y := by
  induction l with
  | nil =>
    exact ⟨[], rfl, fun x hx => (List.not_mem_nil hx).elim, fun y hy => (List.not_mem_nil hy).elim⟩
  | cons x l ih =>
    obtain ⟨y, hy, hp⟩ := h x List.mem_cons_self
    obtain ⟨ys, hys, hleft, hright⟩ := ih fun x hx => h x (List.mem_cons_of_mem _ hx)
    refine ⟨y :: ys, by rw [List.mapM_cons, hy, hys]; rfl, fun x' hx' => ?_, fun y' hy' => ?_⟩
    · rcases List.mem_cons.1 hx' with rfl | hx'
      · exact ⟨y, List.mem_cons_self, hy, hp⟩
      · obtain ⟨y', hy', heq⟩ := hleft x' hx'
        exact ⟨y', List.mem_cons_of_mem _ hy', heq⟩
    · rcases List.mem_cons.1 hy' with rfl | hy'
      · exact ⟨x, List.mem_cons_self, hy, hp⟩
      · obtain ⟨x', hx', heq⟩ := hright y' hy'
        exact ⟨x', List.mem_cons_of_mem _ hx', heq⟩

/-- A fold whose steps succeed succeeds. -/
theorem foldlM_isSome {α β : Type} {f : β → α → Option β} {l : List α}
    (h : ∀ x ∈ l, ∀ b, (f b x).isSome = true)
    (b : β) : (l.foldlM f b).isSome = true := by
  induction l generalizing b with
  | nil => rfl
  | cons x l ih =>
    obtain ⟨b', hb'⟩ := Option.isSome_iff_exists.1 (h x List.mem_cons_self b)
    rw [List.foldlM_cons, hb', Option.bind_eq_bind, Option.bind_some]
    exact ih (fun x hx => h x (List.mem_cons_of_mem _ hx)) b'

/-- The offsets of a source are the same in bytes and in characters wherever one is taken for the
other, and its functions do not nest too deep. -/
structure OffsetsAgree (s : Scanned) : Prop where
  fns : ∀ found ∈ fnRe.findIter (String.ofList s.quiet), AsciiUpTo s.quiet found.stop '{'
  closures : ∀ found ∈ closureRe.findIter (String.ofList s.quiet), AsciiUpTo s.quiet found.stop '|'
  shallow : ∀ found ∈ fnRe.findIter (String.ofList s.quiet), ∀ start stop,
    IsFnBody s.quiet found.stop start stop →
    ∀ i, start < i → i ≤ stop → braceBalance ((s.quiet.drop start).take (i - start)) < 2 ^ 31

/-- Where the offsets agree, a scanned file has its forwarders, with texts equally long. -/
theorem forwarders_spec (hlength : s.code.length = s.quiet.length) (h : OffsetsAgree s) :
    ∃ fs, s.forwarders = some fs ∧ (∀ f ∈ fs, f.Even) ∧
      ∀ found ∈ fnRe.findIter (String.ofList s.quiet), ∀ f, s.fnForwarder found = some (some f) →
        f ∈ fs := by
  obtain ⟨fns, hfns, hleft, hright⟩ :=
    exists_mapM (f := s.fnForwarder) (P := fun _ answer => ∀ f ∈ answer, f.Even)
    (l := fnRe.findIter (String.ofList s.quiet)) fun found hfound => by
      obtain ⟨hnone, -⟩ | ⟨f, start, hsome, heven, -⟩ :=
        fnForwarder_cases hlength hfound (h.fns found hfound)
      · exact ⟨none, hnone, fun f hf => by cases hf⟩
      · exact ⟨some f, hsome, fun f' hf' => by cases hf'; exact heven⟩
  obtain ⟨closures, hclosures, -, hright'⟩ := exists_mapM fun found hfound =>
    closureForwarder_cases hlength hfound (h.closures found hfound)
  refine ⟨fns.reduceOption ++
    closures.reduceOption, by rw [Scanned.forwarders, hfns, Option.bind_some, hclosures]; rfl,
    fun f hf => ?_, fun found hfound f hf => ?_⟩
  · rcases List.mem_append.1 hf with hf | hf
    · obtain ⟨found, -, -, heven⟩ := hright (some f) (List.reduceOption_mem_iff.1 hf)
      exact heven f rfl
    · obtain ⟨found, -, -, heven⟩ := hright' (some f) (List.reduceOption_mem_iff.1 hf)
      exact heven f rfl
  · obtain ⟨answer, hmem, heq, -⟩ := hleft found hfound
    rw [hf, Option.some.injEq] at heq
    rw [← heq] at hmem
    exact List.mem_append_left _ (List.reduceOption_mem_iff.2 hmem)

/-- What is asked of a source: its blanking does not panic, and its offsets agree. -/
def RustSource.Fine (source : RustSource) : Prop :=
  (∀ chars, Reached source.raw chars → Safe true chars) ∧ ∀ s, source.scan = some s → OffsetsAgree s

/-- A fine file is scanned. -/
theorem scan_spec {source : RustSource} (h : source.Fine) :
    ∃ s, source.scan = some s ∧ s.code.length = s.quiet.length ∧ OffsetsAgree s := by
  have hquiet := (stripRustComments_isSome true source.raw).2 h.1
  have hcode := (stripRustComments_isSome false source.raw).2 fun chars hchars =>
    ⟨(h.1 chars hchars).1, fun hfalse => absurd hfalse Bool.false_ne_true⟩
  obtain ⟨quiet, hquiet⟩ := Option.isSome_iff_exists.1 hquiet
  obtain ⟨code, hcode⟩ := Option.isSome_iff_exists.1 hcode
  have hscan : source.scan = some ⟨source.path, code, quiet⟩ := by
    rw [RustSource.scan, hcode, Option.bind_some, hquiet]
    rfl
  refine ⟨_, hscan, ?_, h.2 _ hscan⟩
  show code.length = quiet.length
  rw [← (stripRustComments_sameLines hcode).length_eq,
    ← (stripRustComments_sameLines hquiet).length_eq]

/-- Fine files are gathered. -/
theorem gather_spec {sources : List RustSource} (h : ∀ source ∈ sources, source.Fine) :
    ∃ scanned forwarders, gather sources = some (scanned, forwarders) ∧
      (∀ s ∈ scanned, s.code.length = s.quiet.length ∧ OffsetsAgree s) ∧
        (∀ f ∈ forwarders, f.Even) ∧
      ∀ s ∈ scanned, ∀ found ∈ fnRe.findIter (String.ofList s.quiet), ∀ f, s.fnForwarder found =
        some (some f) →
        f ∈ forwarders := by
  obtain ⟨scanned, hscanned, -, hfine⟩ :=
    exists_mapM fun source hsource => scan_spec (h source hsource)
  have hagree : ∀ s ∈ scanned, s.code.length = s.quiet.length ∧ OffsetsAgree s := by
    intro s hs
    obtain ⟨source, -, -, hs⟩ := hfine s hs
    exact hs
  obtain ⟨lists, hlists, hleft, hright⟩ :=
    exists_mapM fun s hs => forwarders_spec (hagree s hs).1 (hagree s hs).2
  refine ⟨scanned, lists.flatten, by rw [gather, hscanned, Option.bind_some, hlists]; rfl, hagree,
    fun f hf => ?_,
    fun s hs found hfound f hf => ?_⟩
  · obtain ⟨fs, hfs, hf⟩ := List.mem_flatten.1 hf
    obtain ⟨s, -, -, heven, -⟩ := hright fs hfs
    exact heven f hf
  · obtain ⟨fs, hfs, -, -, hrecorded⟩ := hleft s hs
    exact List.mem_flatten.2 ⟨fs, hfs, hrecorded found hfound f hf⟩

/-! ## The rest of the run -/

/-- What a part of a pass does: readers stay, new ones are forwarders, and the flag tells of a new
one. -/
theorem readersPass_spec (forwarders l : List Forwarder) (hl : ∀ f ∈ l, f ∈ forwarders)
    (s : Finset (List Char) × Bool) :
    let after := l.foldl (fun s forwarder =>
      if forwarder.name ∈ s.1 then s
      else if forwarder.callsReader s.1 then (insert forwarder.name s.1, true)
      else s) s
    s.1 ⊆ after.1 ∧ after.1 ⊆ s.1 ∪ (forwarders.map Forwarder.name).toFinset ∧
      (after.2 = true → s.2 = true ∨ s.1.card < after.1.card) := by
  induction l generalizing s with
  | nil => exact ⟨Finset.Subset.refl _, Finset.subset_union_left, .inl⟩
  | cons f l ih =>
    have hrest := ih (fun f hf => hl f (List.mem_cons_of_mem _ hf))
    rw [List.foldl_cons]
    split
    · exact hrest s
    · next hnew =>
      split
      · obtain ⟨hgrows, hwithin, -⟩ := hrest (insert f.name s.1, true)
        have hname : f.name ∈ (forwarders.map Forwarder.name).toFinset :=
          List.mem_toFinset.2 (List.mem_map_of_mem (hl f List.mem_cons_self))
        refine ⟨(Finset.subset_insert _ _).trans hgrows, fun name hmem => ?_, fun _ => .inr ?_⟩
        · rcases Finset.mem_union.1 (hwithin hmem) with hmem | hmem
          · rcases Finset.mem_insert.1 hmem with rfl | hmem
            · exact Finset.mem_union_right _ hname
            · exact Finset.mem_union_left _ hmem
          · exact Finset.mem_union_right _ hmem
        · have hcard := Finset.card_le_card hgrows
          rw [Finset.card_insert_of_notMem hnew] at hcard
          omega
      · exact hrest s

/-- The fixed point of the readers is reached. -/
theorem envReaders_ends (forwarders : List Forwarder) :
    ∃ enough readers, ∀ fuel, enough ≤ fuel → envReaders fuel forwarders = some readers := by
  have hpass (readers : Finset (List Char)) :=
    readersPass_spec forwarders forwarders (fun _ hf => hf) (readers, false)
  have hstart :
      ((forwarders.filter fun forwarder => envReadRe.isMatch
      (String.ofList forwarder.quietBody)).map
      Forwarder.name).toFinset ⊆ (forwarders.map Forwarder.name).toFinset := by
    intro name hname
    obtain ⟨f, hf, rfl⟩ := List.mem_map.1 (List.mem_toFinset.1 hname)
    exact List.mem_toFinset.2 (List.mem_map_of_mem (List.mem_of_mem_filter hf))
  obtain ⟨last, -, -, hend⟩ := @untilQuiet_ends _ (readersPass forwarders)
    (fun readers => readers ⊆ (forwarders.map Forwarder.name).toFinset) Finset.card
    (forwarders.map Forwarder.name).toFinset.card
    (fun readers hreaders => (hpass readers).2.1.trans
      (Finset.union_subset hreaders (Finset.Subset.refl _)))
    (fun readers hreaders => Finset.card_le_card hreaders)
    (fun readers _ hloud => ((hpass readers).2.2 hloud).resolve_left Bool.false_ne_true)
    ((forwarders.map Forwarder.name).toFinset.card + 1) _ hstart
      (Nat.lt_succ_of_le (Nat.sub_le _ _))
  exact ⟨_, _, fun fuel hfuel => untilQuiet_mono hend hfuel⟩

/-- The reads of a scanned file are found. -/
theorem envReads_isSome (hlength : s.code.length = s.quiet.length) (shown : List Char → List Char)
    (found : EnvReads) : (s.envReads shown found).isSome = true := by
  rw [Scanned.envReads, Option.isSome_map]
  refine foldlM_isSome (fun m hm aliases => ?_) ∅
  rw [Scanned.noteAlias]
  split
  · next name literal _ hliteral =>
    obtain ⟨hlt, hinside⟩ := constStrRe_found hm hliteral
    rw [hlength] at hinside
    rw [bothSlices_eq hlength (by omega) (by omega)]
    rfl
  · rfl

/-- A span of an argument begins before its end. -/
theorem argumentSpansFrom_bounds {text : List Char} {depth : Int32} {start index : Nat}
    (hstart : start ≤ index) :
    ∀ span ∈ argumentSpansFrom depth start index text, span.1 ≤ span.2 ∧
      span.2 ≤ index + text.length := by
  induction text generalizing depth start index with
  | nil => exact fun span hspan => (List.not_mem_nil hspan).elim
  | cons c rest ih =>
    have hrest {depth : Int32} {start : Nat} (hstart : start ≤ index + 1) :
        ∀ span ∈ argumentSpansFrom depth start (index + 1) rest,
          span.1 ≤ span.2 ∧ span.2 ≤ index + (c :: rest).length := by
      intro span hspan
      have := ih hstart span hspan
      rw [List.length_cons]
      omega
    have hhere : (start, index).1 ≤ (start, index).2 ∧
        (start, index).2 ≤ index + (c :: rest).length :=
      ⟨hstart, Nat.le_add_right _ _⟩
    rw [argumentSpansFrom]
    split
    · exact hrest (by omega)
    · split
      · split
        · split
          · intro span hspan
            rw [List.mem_singleton.1 hspan]
            exact hhere
          · exact fun span hspan => (List.not_mem_nil hspan).elim
        · exact hrest (by omega)
      · split
        · intro span hspan
          rcases List.mem_cons.1 hspan with rfl | hspan
          · exact hhere
          · exact hrest (Nat.le_refl _) span hspan
        · exact hrest (by omega)

/-- A span of an argument lies inside the text. -/
theorem argumentSpans_bounds {text : List Char} {openIndex : Nat} :
    ∀ span ∈ argumentSpans text openIndex, span.1 ≤ span.2 ∧ span.2 ≤ text.length := by
  rw [argumentSpans]
  cases hdrop : text.drop openIndex with
  | nil => exact fun span hspan => (List.not_mem_nil hspan).elim
  | cons c rest =>
    have hlength := congrArg List.length hdrop
    rw [List.length_drop, List.length_cons] at hlength
    have hrest {depth : Int32} : ∀ span ∈
        argumentSpansFrom depth (openIndex + 1) (openIndex + 1) rest,
        span.1 ≤ span.2 ∧ span.2 ≤ text.length := by
      intro span hspan
      have := argumentSpansFrom_bounds (Nat.le_refl _) span hspan
      omega
    -- nothing ends at the first character, where the depth is 0
    rw [argumentSpansFrom]
    split
    · exact hrest
    · split
      · rw [if_neg (by decide)]
        exact hrest
      · rw [if_neg (by rintro ⟨-, hdepth⟩; exact absurd hdepth (by decide))]
        exact hrest

/-- The literals of a call are found. -/
theorem callLiterals_isSome {f : Forwarder} (hf : f.Even) (shown : List Char → List Char)
    (readers : Finset (List Char)) (keys : KeyPositions) {call : Match}
    (hcall : call ∈ callRe.findIter (String.ofList f.quietBody)) (found : EnvReads) :
    (f.callLiterals shown readers keys found call).isSome = true := by
  rw [Forwarder.callLiterals]
  split
  · rfl
  · dsimp only
    split
    · rfl
    · rw [if_neg (callRe_found hcall)]
      refine foldlM_isSome (fun index _ found => ?_) found
      rw [Forwarder.literalsAt]
      split
      · rfl
      · next start stop hspan =>
        obtain ⟨hle, hstop⟩ := argumentSpans_bounds (start, stop) (List.mem_of_getElem? hspan)
        rw [slice?_of_le hle (hf.symm ▸ hstop)]
        rfl

/-- The run ends, once the bodies are there. -/
theorem rustEnvReadNames_ends (shown : List Char → List Char) {sources : List RustSource}
    {scanned : List Scanned}
    {forwarders : List Forwarder} (hgather : gather sources = some (scanned, forwarders))
    (hlength : ∀ s ∈ scanned, s.code.length = s.quiet.length) (heven : ∀ f ∈ forwarders, f.Even) :
    ∃ enough names, ∀ fuel, enough ≤ fuel → rustEnvReadNames fuel shown sources = some names := by
  obtain ⟨enough, readers, hreaders⟩ := envReaders_ends forwarders
  obtain ⟨enough', keys, hkeys, -⟩ := forwarderKeyPositions_ends forwarders readers
  have hfound := foldlM_isSome (fun s hs found => envReads_isSome (hlength s hs) shown found) ∅
  obtain ⟨found, hfound⟩ := Option.isSome_iff_exists.1 hfound
  have hnames := foldlM_isSome (f := Forwarder.envReads shown readers keys) (fun f hf found =>
    foldlM_isSome (fun call hcall found => callLiterals_isSome (heven f hf) shown readers keys hcall
      found) found) found
  obtain ⟨names, hnames⟩ := Option.isSome_iff_exists.1 hnames
  refine ⟨max enough enough', names, fun fuel hfuel => ?_⟩
  rw [rustEnvReadNames, hgather, Option.bind_some]
  dsimp only
  rw [hreaders fuel (by omega), Option.bind_some, hkeys fuel (by omega), Option.bind_some, hfound,
    Option.bind_some,
    hnames]

/-! ## The result -/

/-- A run ends without a panic, and for each function whose body is closed a forwarder with this
body is recorded. -/
def TakesBodies (shown : List Char → List Char) (sources : List RustSource) : Prop :=
  ∃ scanned forwarders, gather sources = some (scanned, forwarders) ∧
    (∃ enough names, ∀ fuel, enough ≤ fuel → rustEnvReadNames fuel shown sources = some names) ∧
    ∀ s ∈ scanned, ∀ found ∈ fnRe.findIter (String.ofList s.quiet), ∀ start stop,
      IsFnBody s.quiet found.stop start stop →
        ∃ f ∈ forwarders, s.fnForwarder found = some (some f) ∧
          slice? s.code start stop = some f.codeBody ∧
          slice? s.quiet start stop = some f.quietBody

/-- **Bodies.** No panic, and the bodies of the functions, where the offsets agree. -/
theorem bodies_taken (shown : List Char → List Char) (sources : List RustSource)
    (h : ∀ source ∈ sources, source.Fine) : TakesBodies shown sources := by
  obtain ⟨scanned, forwarders, hgather, hagree, heven, hrecorded⟩ := gather_spec h
  refine ⟨scanned, forwarders, hgather,
    rustEnvReadNames_ends shown hgather (fun s hs => (hagree s hs).1) heven, ?_⟩
  intro s hs found hfound start stop hbody
  obtain ⟨hlength, hoffsets⟩ := hagree s hs
  obtain ⟨-, hnone⟩ | ⟨f, start', hsome, -, hfirst, hcode, hquiet⟩ :=
    fnForwarder_cases hlength hfound (hoffsets.fns found hfound)
  · exact absurd hbody.opens (hnone start)
  · obtain rfl := hfirst.unique hbody.opens
    rw [braceEndChars_of_isFnBody hbody
      (hoffsets.shallow found hfound start' stop hbody)] at hcode hquiet
    exact ⟨f, hrecorded s hs found hfound f hsome, hsome, hcode, hquiet⟩

/-- A text of ASCII characters is ASCII up to anywhere. -/
theorem asciiUpTo_of_ascii {quiet : List Char} (h : ∀ c ∈ quiet, Utf8.IsAscii c) (offset : Nat)
    (needle : Char) :
    AsciiUpTo quiet offset needle :=
  ⟨fun c hc => h c (List.mem_of_mem_take hc),
    fun _ c hc => h c (List.mem_of_mem_drop ((List.takeWhile_sublist _).subset hc))⟩

/-- A text that is not too long does not nest too deep. -/
theorem braceBalance_lt {text : List Char} (h : text.length < 2 ^ 31) (start n : Nat) :
    braceBalance ((text.drop start).take n) < 2 ^ 31 := by
  have hcount : ((text.drop start).take n).count '{' ≤ text.length :=
    List.count_le_length.trans (((List.take_sublist _ _).trans (List.drop_sublist _ _)).length_le)
  rw [braceBalance]
  omega

/-- A function with a closure in it, and braces in a literal and in a comment. -/
def plain : RustSource :=
  ⟨"lib.rs".toList, "fn f() \x7b \"\x7d\"; let g = |k| k; /* \x7b */ \x7d".toList⟩

/-- A source without comments. -/
def plainCode : List Char := "fn f() \x7b \"\x7d\"; let g = |k| k;         \x7d".toList

/-- The same source with its literals blanked. -/
def plainQuiet : List Char := "fn f() \x7b    ; let g = |k| k;         \x7d".toList

/-- A file with one plain function. -/
theorem bodies_taken_plain : (∀ source ∈ [plain], source.Fine) ∧ TakesBodies id [plain] := by
  have hcode : stripRustComments plain.raw false = some plainCode := by decide +kernel
  have hquiet : stripRustComments plain.raw true = some plainQuiet := by decide +kernel
  have hascii : plainQuiet.all (fun c => decide (Utf8.IsAscii c)) = true := by decide +kernel
  have hfine : plain.Fine := by
    refine ⟨(stripRustComments_isSome true _).1 (by rw [hquiet]; rfl), fun s hs => ?_⟩
    obtain rfl : s = ⟨plain.path, plainCode, plainQuiet⟩ := by
      rw [RustSource.scan, hcode, Option.bind_some, hquiet] at hs
      exact (Option.some.inj hs).symm
    have hquiet (c : Char) (hc : c ∈ plainQuiet) : Utf8.IsAscii c :=
      of_decide_eq_true (List.all_eq_true.1 hascii c hc)
    refine ⟨fun found _ => asciiUpTo_of_ascii hquiet found.stop '{',
      fun found _ => asciiUpTo_of_ascii hquiet found.stop '|', fun found _ start stop _ i _ _ => ?_⟩
    exact braceBalance_lt (by decide +kernel) start _
  have hall : ∀ source ∈ [plain], source.Fine := by
    intro source hsource
    rw [List.mem_singleton.1 hsource]
    exact hfine
  exact ⟨hall, bodies_taken id [plain] hall⟩

/-- Two characters of two bytes in front of a function. -/
def accented : RustSource := ⟨"lib.rs".toList, "type Éé = u8; fn f() \x7b\x7d".toList⟩

/-- The brace is at byte 23 of a text with 23 characters. -/
theorem bodies_not_taken : ¬ TakesBodies id [accented] := by
  rintro ⟨scanned, forwarders, hgather, -⟩
  have hcode : stripRustComments accented.raw false = some accented.raw := by decide +kernel
  have hquiet : stripRustComments accented.raw true = some accented.raw := by decide +kernel
  have hfns : fnRe.findIter (String.ofList accented.raw) = [⟨14, 19, [some "f"], []⟩] :=
    findIter_compiled String.toList_ofList (by decide +kernel)
  have hpanic : (Scanned.fnForwarder ⟨accented.path, accented.raw, accented.raw⟩ ⟨14, 19,
      [some "f"], []⟩).isNone =
      true := by decide +kernel
  have hscan : accented.scan = some ⟨accented.path, accented.raw, accented.raw⟩ := by
    rw [RustSource.scan, hcode, Option.bind_some, hquiet]
    rfl
  have hnone : Scanned.forwarders ⟨accented.path, accented.raw, accented.raw⟩ = none := by
    rw [Scanned.forwarders, hfns, List.mapM_cons, Option.isNone_iff_eq_none.1 hpanic]
    rfl
  have hscans : [accented].mapM RustSource.scan =
      some [⟨accented.path, accented.raw, accented.raw⟩] := by
    rw [List.mapM_cons, hscan]
    rfl
  rw [gather, hscans, Option.bind_some, List.mapM_cons, hnone] at hgather
  cases hgather

end RtpMux.CheckGate
