import RtpMux.Tools.Imports
import RtpMux.Tools.PyreCaptures

/-!
# The statements of a source

What the pattern of `parse_imports` finds in lines of the form `use <body>;`: the bodies, in order.
The blanks behind `use` are taken greedily and the body lazily, so a body ends at the first
semicolon.
-/

namespace RtpMux.CheckGate

open Pyre (Regex Node Captures Success concatResults results repeatResults leafResults leafStop
  unbounded)

/-! ## The pattern -/

/-- The pattern behind `use`. -/
def bodyNodes : List Node :=
  [.repeat (.cls false [.space]) 1 unbounded true,
    .group (some 1) (.repeat (.cls false [.dotAny]) 1 unbounded false),
    .char ';']

/-- The visibility in front of `use`. -/
def visibilityNode : Node :=
  .group none (.concat [.char 'p', .char 'u', .char 'b',
    .repeat (.group none (.concat [.char '(', .repeat (.cls true [.range ')' ')']) 0 unbounded true,
      .char ')'])) 0 1 true,
    .repeat (.cls false [.space]) 1 unbounded true])

theorem useRe_eq_of_new {r : Regex}
    (hnew : Regex.newWithFlags useRePattern ⟨true, true, false⟩ = .ok r) : useRe = r := by
  unfold useRe
  split
  next hok => exact Except.ok.inj (hok.symm.trans hnew)

theorem useRe_eq : useRe =
    ⟨.concat (.start true :: .repeat (.cls false [.space]) 0 unbounded true ::
      .repeat visibilityNode 0 1 true ::
      .char 'u' :: .char 's' :: .char 'e' :: bodyNodes), [], 1, false⟩ :=
  useRe_eq_of_new (Pyre.newWithFlags_eq_ok String.toList_ofList (by decide +kernel))

/-! ## The results of its parts -/

theorem concatResults_char {c : Char} {rest : List Node} {text : List Char} {pos : Nat}
    {caps : Captures} :
    concatResults (.char c :: rest) text pos caps =
      if text[pos]? = some c then concatResults rest text (pos + 1) caps else [] := by
  rw [concatResults, results, leafStop]
  split <;> simp [leafResults]

theorem results_cls {negate : Bool} {items : List Pyre.ClassItem} {text : List Char} {pos : Nat}
    {caps : Captures} :
    results (.cls negate items) text pos caps =
      if (text[pos]?).any (Pyre.classMatches items negate) then [(caps, pos + 1)] else [] := by
  rw [results, leafStop]
  split <;> rfl

/-- A part that may be left out and cannot be read here is left out. -/
theorem results_repeat_nil {inner : Node} {max : Nat} {text : List Char} {pos : Nat}
    {caps : Captures}
    (h : results inner text pos caps = []) :
    results (.repeat inner 0 max true) text pos caps = [(caps, pos)] := by
  rw [results, repeatResults]
  simp [h]

/-- One blank is read as one. -/
theorem results_blank {text : List Char} {pos : Nat} {caps : Captures}
    (hblank : text[pos]? = some ' ')
    (hnext : (text[pos + 1]?).any Pyre.isSpace = false) :
    results (.repeat (.cls false [.space]) 1 unbounded true) text pos caps = [(caps, pos + 1)] := by
  have hlt : pos < text.length := (List.getElem?_eq_some_iff.mp hblank).1
  obtain ⟨fuel, hfuel⟩ : ∃ fuel, text.length - pos + 1 = fuel + 1 + 1 :=
    ⟨text.length - pos - 1, by omega⟩
  have hspace : ∀ c, Pyre.classMatches [.space] false c = Pyre.isSpace c := by
    intro c
    simp [Pyre.classMatches]
  have hmore : results (.cls false [.space]) text (pos + 1) caps = [] := by
    rw [results_cls, if_neg]
    simpa [funext hspace] using hnext
  have hone : results (.cls false [.space]) text pos caps = [(caps, pos + 1)] := by
    rw [results_cls, if_pos]
    simp [hblank, hspace, Pyre.isSpace, Text.isAsciiWhitespace]
  rw [results, hfuel, repeatResults]
  simp [hone, repeatResults, hmore, unbounded]

/-- The first semicolon ends the body: the lazy repetition offers its ends in order. -/
theorem head_lazy {text post : List Char} (caps : Captures) (start : Nat)
    (hlen : text.length ≤ unbounded) (word : List Char)
    (fuel pos count : Nat) (hword : ';' ∉ word) (htext : text.drop pos = word ++ ';' :: post)
    (hfuel : word.length < fuel) (hcount : count ≤ pos) (hone : word = [] → 1 ≤ count) :
    ((repeatResults (fun pos caps => results (.cls false [.dotAny]) text pos caps) fuel pos caps
      count 1 unbounded false
      ).flatMap fun success =>
        concatResults [.char ';'] text success.2
          (success.1.set 1 (some (start, success.2)))).head? =
      some (caps.set 1 (some (start, pos + word.length)), pos + word.length + 1) := by
  induction word generalizing fuel pos count with
  | nil =>
    obtain ⟨fuel, rfl⟩ : ∃ fuel', fuel = fuel' + 1 := ⟨fuel - 1, by omega⟩
    have hsemi : text[pos]? = some ';' := by rw [← List.head?_drop, htext]; rfl
    have hhere : concatResults [.char ';'] text pos (caps.set 1 (some (start, pos))) =
        [(caps.set 1 (some (start, pos)), pos + 1)] := by
      rw [concatResults_char, if_pos hsemi, concatResults]
    rw [repeatResults]
    simp [hone rfl, hhere]
  | cons c word ih =>
    obtain ⟨fuel, rfl⟩ : ∃ fuel', fuel = fuel' + 1 := ⟨fuel - 1, by omega⟩
    have hc : text[pos]? = some c := by rw [← List.head?_drop, htext]; rfl
    have hlt : pos < text.length := (List.getElem?_eq_some_iff.mp hc).1
    have hnot : c ≠ ';' := fun h => hword (by simp [h])
    have hinner : results (.cls false [.dotAny]) text pos caps = [(caps, pos + 1)] := by
      rw [results_cls, if_pos]
      simp [hc, Pyre.classMatches]
    have hdrop : text.drop (pos + 1) = word ++ ';' :: post := by
      rw [← List.drop_drop, htext]
      rfl
    have hrest := ih fuel (pos + 1) (count + 1) (fun h => hword (List.mem_cons_of_mem _ h)) hdrop
      (by simpa using hfuel) (by omega) (fun _ => by omega)
    -- nothing ends here: the character is no semicolon
    have hhere : concatResults [.char ';'] text pos (caps.set 1 (some (start, pos))) = [] := by
      rw [concatResults_char, if_neg]
      simpa [hc] using hnot
    have hmax : count < unbounded := by omega
    have hadvance : pos + 1 + word.length = pos + (c :: word).length := by simp; omega
    rw [hadvance] at hrest
    rw [repeatResults, ← hrest]
    by_cases hmin : 1 ≤ count <;> simp [hmax, hinner, hmin, hhere]

/-! ## One statement -/

/-- `use <body>;`. -/
def useLine (body : List Char) : List Char := "use ".toList ++ (body ++ [';'])

/-- A body that is read as it stands. -/
structure IsBody (body : List Char) : Prop where
  first : ∃ c rest, body = c :: rest ∧ Pyre.isSpace c = false
  plain : ';' ∉ body

theorem attempt_eq_none {text : List Char} {pos : Nat} (h : Pyre.atStart true text pos = false) :
    useRe.attempt text pos Pyre.acceptAny = none := by
  rw [Pyre.attempt_acceptAny, useRe_eq, results, concatResults, results, leafStop]
  simp [h, leafResults]

/-- **A statement at the start of a line** is found, with its body. -/
theorem attempt_useLine {text pre body post : List Char} (hbody : IsBody body)
    (hlen : text.length ≤ unbounded)
    (htext : text = pre ++ (useLine body ++ post))
    (hstart : Pyre.atStart true text pre.length = true) :
    useRe.attempt text pre.length Pyre.acceptAny =
      some ⟨pre.length, pre.length + (useLine body).length,
        [none, some (pre.length + 4, pre.length + 4 + body.length)]⟩ := by
  obtain ⟨⟨c, rest, rfl, hc⟩, hplain⟩ := hbody
  have hdrop : text.drop pre.length = 'u' :: 's' :: 'e' :: ' ' :: ((c :: rest) ++ ';' :: post) := by
    rw [htext, List.drop_left]
    simp [useLine]
  have hat : ∀ i, text[pre.length + i]? =
      ('u' :: 's' :: 'e' :: ' ' :: ((c :: rest) ++ ';' :: post))[i]? := by
    intro i
    rw [← List.getElem?_drop, hdrop]
  have hu : text[pre.length]? = some 'u' := hat 0
  have hs : text[pre.length + 1]? = some 's' := hat 1
  have he : text[pre.length + 1 + 1]? = some 'e' := hat 2
  have hblank : text[pre.length + 1 + 1 + 1]? = some ' ' := hat 3
  have hfirst : text[pre.length + 1 + 1 + 1 + 1]? = some c := hat 4
  have hnospace : results (.cls false [.space]) text pre.length useRe.emptyCaptures = [] := by
    rw [results_cls, hu]
    rfl
  have hnopub : results visibilityNode text pre.length useRe.emptyCaptures = [] := by
    rw [visibilityNode, results, results, concatResults_char, hu]
    rfl
  have hbody' : text.drop (pre.length + 4) = (c :: rest) ++ ';' :: post := by
    rw [← List.drop_drop, hdrop]
    rfl
  have hfuel : (c :: rest).length < text.length - (pre.length + 4) + 1 := by
    have hlength := congrArg List.length hbody'
    simp only [List.length_drop, List.length_append, List.length_cons] at hlength
    simp only [List.length_cons]
    omega
  have hlazy := head_lazy useRe.emptyCaptures (pre.length + 4) hlen (c :: rest) _ (pre.length + 4) 0
      hplain hbody' hfuel
    (Nat.zero_le _) (by simp)
  have hroot : useRe.root =
      .concat (.start true :: .repeat (.cls false [.space]) 0 unbounded true ::
      .repeat visibilityNode 0 1 true :: .char 'u' :: .char 's' :: .char 'e' :: bodyNodes) := by
    rw [useRe_eq]
  have hanchor : results (.start true) text pre.length useRe.emptyCaptures =
      [(useRe.emptyCaptures, pre.length)] := by
    rw [results, leafStop, if_pos hstart]
    rfl
  have hempty : useRe.emptyCaptures = [none, none] := by
    rw [useRe_eq]
    rfl
  have hgroup : concatResults [.group (some 1) (.repeat (.cls false [.dotAny]) 1 unbounded false),
      .char ';'] text
      (pre.length + 1 + 1 + 1 + 1) useRe.emptyCaptures =
        (repeatResults (fun pos caps => results (.cls false [.dotAny])
        text pos caps) (text.length - (pre.length + 4) + 1) (pre.length + 4) useRe.emptyCaptures 0 1
          unbounded false
          ).flatMap fun success => concatResults [.char ';'] text success.2
            (success.1.set 1 (some (pre.length + 4, success.2))) := by
    rw [concatResults, results, results, List.flatMap_map]
  rw [Pyre.attempt_acceptAny, hroot, results, concatResults, hanchor, List.flatMap_singleton,
    concatResults,
    results_repeat_nil hnospace, List.flatMap_singleton, concatResults, results_repeat_nil hnopub,
      List.flatMap_singleton,
    concatResults_char, if_pos hu, concatResults_char, if_pos hs, concatResults_char, if_pos he,
      bodyNodes, concatResults,
    results_blank hblank (by simpa [hfirst] using hc), List.flatMap_singleton, hgroup, hlazy,
      Option.map_some, hempty]
  simp [useLine]
  omega

/-! ## Lines of statements -/

/-- A file of such statements, one on a line. -/
def useLines (bodies : List (List Char)) : List Char := ['\n'].intercalate (bodies.map useLine)

theorem searchFrom_hit {text : List Char} {pos : Nat} {found : Pyre.Found}
    (hpos : pos ≤ text.length)
    (h : useRe.attempt text pos Pyre.acceptAny = some found) :
    useRe.searchFrom text pos = some found := by
  obtain ⟨count, hcount⟩ : ∃ count, text.length + 1 - pos = count + 1 :=
    ⟨text.length - pos, by omega⟩
  rw [Regex.searchFrom, hcount, List.range'_succ, List.findSome?_cons, h]

theorem searchFrom_skip {text : List Char} {pos : Nat} (hpos : pos ≤ text.length)
    (h : useRe.attempt text pos Pyre.acceptAny = none) :
    useRe.searchFrom text pos = useRe.searchFrom text (pos + 1) := by
  obtain ⟨count, hcount⟩ : ∃ count, text.length + 1 - pos = count + 1 :=
    ⟨text.length - pos, by omega⟩
  have hnext : text.length + 1 - (pos + 1) = count := by omega
  rw [Regex.searchFrom, hcount, List.range'_succ, List.findSome?_cons, h, Regex.searchFrom, hnext]

/-- Behind a statement there is none before the next line. -/
theorem attempt_behind {text pre body post : List Char}
    (htext : text = pre ++ (useLine body ++ post)) :
    useRe.attempt text (pre.length + (useLine body).length) Pyre.acceptAny = none := by
  refine attempt_eq_none ?_
  have hlast : text[pre.length + (useLine body).length - 1]? = some ';' := by
    have hsplit : text = (pre ++ ("use ".toList ++ body)) ++ ';' :: post := by simp [htext, useLine]
    have hindex : pre.length + (useLine body).length - 1 =
        (pre ++ ("use ".toList ++ body)).length := by
      simp [useLine]
    rw [hindex, hsplit, List.getElem?_append_right le_rfl, Nat.sub_self]
    rfl
  have hpos : pre.length + (useLine body).length ≠ 0 := by simp [useLine]
  rw [Pyre.atStart, Pyre.charBefore, if_neg hpos, hlast, decide_eq_false hpos]
  rfl

/-- The bodies that a list of matches has in its first group. -/
def bodiesOf (text : List Char) (found : List Pyre.Found) : List (Option String) :=
  found.map fun f => (f.captures[1]?).join.map (Pyre.slice text)

/-- One statement is found, and the search goes on behind it. -/
theorem findIterLoop_useLine {text pre body post : List Char} {fuel : Nat} (hbody : IsBody body)
    (hlen : text.length ≤ unbounded) (htext : text = pre ++ (useLine body ++ post))
    (hstart : Pyre.atStart true text pre.length = true) :
    bodiesOf text (useRe.findIterLoop text (fuel + 1) pre.length) =
      some (String.ofList body) ::
        bodiesOf text (useRe.findIterLoop text fuel (pre.length + (useLine body).length)) := by
  have hle : pre.length ≤ text.length := by simp [htext]
  have hslice : Pyre.slice text (pre.length + 4, pre.length + 4 + body.length) =
      String.ofList body := by
    have hsplit : text = (pre ++ "use ".toList) ++ (body ++ ';' :: post) := by simp [htext, useLine]
    rw [Pyre.slice, List.drop_take, hsplit]
    have hfour : pre.length + 4 = (pre ++ "use ".toList).length := by simp
    rw [hfour, Nat.add_sub_cancel_left, List.drop_left, List.take_left]
  have hne : pre.length + (useLine body).length ≠ pre.length := by simp [useLine]
  rw [Regex.findIterLoop, if_pos hle, searchFrom_hit hle (attempt_useLine hbody hlen htext hstart)]
  dsimp only
  rw [if_neg hne, bodiesOf, List.map_cons, ← bodiesOf]
  simp [hslice]

/-- **The bodies of lines of statements** are found in order. -/
theorem findIterLoop_useLines {text : List Char} (hlen : text.length ≤ unbounded) (body : List Char)
    (bodies : List (List Char)) {pre : List Char} {fuel : Nat}
    (hbodies : ∀ b ∈ body :: bodies, IsBody b)
    (htext : text = pre ++ useLines (body :: bodies))
    (hstart : Pyre.atStart true text pre.length = true)
    (hfuel : bodies.length + 1 < fuel) :
    bodiesOf text (useRe.findIterLoop text fuel pre.length) = (body :: bodies).map fun b =>
      some (String.ofList b) := by
  induction bodies generalizing body pre fuel with
  | nil =>
    obtain ⟨fuel, rfl⟩ : ∃ fuel', fuel = fuel' + 1 + 1 := ⟨fuel - 2, by simp at hfuel; omega⟩
    have hsplit : text = pre ++ (useLine body ++ []) := by simpa [useLines] using htext
    have hend : pre.length + (useLine body).length = text.length := by simp [hsplit]
    have hnone : useRe.searchFrom text text.length = none := by
      have hattempt := attempt_behind hsplit
      rw [hend] at hattempt
      rw [searchFrom_skip le_rfl hattempt, Regex.searchFrom, Nat.sub_self]
      rfl
    rw [findIterLoop_useLine (hbodies body List.mem_cons_self) hlen hsplit hstart, hend,
      Regex.findIterLoop,
      if_pos le_rfl, hnone]
    rfl
  | cons next bodies ih =>
    obtain ⟨fuel, rfl⟩ : ∃ fuel', fuel = fuel' + 1 + 1 := ⟨fuel - 2, by simp at hfuel; omega⟩
    have hsplit : text = pre ++ (useLine body ++ '\n' :: useLines (next :: bodies)) := by
      simpa [useLines, List.intercalate_cons_cons] using htext
    have hnext : text = (pre ++ (useLine body ++ ['\n'])) ++ useLines (next :: bodies) := by
      simp [hsplit]
    have hlength : (pre ++ (useLine body ++ ['\n'])).length = pre.length +
        (useLine body).length + 1 := by
      simp [Nat.add_assoc]
    have hstart' : Pyre.atStart true text (pre ++ (useLine body ++ ['\n'])).length = true := by
      have hbefore : text[pre.length + (useLine body).length]? = some '\n' := by
        have hhead : text = (pre ++ useLine body) ++ '\n' :: useLines (next :: bodies) := by
          simp [hsplit]
        rw [← List.length_append, hhead, List.getElem?_append_right le_rfl, Nat.sub_self]
        rfl
      rw [hlength, Pyre.atStart, Pyre.charBefore, if_neg (Nat.succ_ne_zero _), Nat.add_sub_cancel,
        hbefore]
      simp
    have hrest := ih next (fun b hb => hbodies b (List.mem_cons_of_mem _ hb)) hnext hstart'
      (show bodies.length + 1 < fuel + 1 by simpa using hfuel)
    have hle : pre.length + (useLine body).length + 1 ≤ text.length := by
      rw [← hlength]
      simp [hnext]
    -- the newline between two statements is passed by
    have hskip : useRe.findIterLoop text (fuel + 1) (pre.length + (useLine body).length) =
        useRe.findIterLoop text (fuel + 1) (pre.length + (useLine body).length + 1) := by
      rw [Regex.findIterLoop, Regex.findIterLoop, if_pos (Nat.le_of_succ_le hle), if_pos hle,
        searchFrom_skip (Nat.le_of_succ_le hle) (attempt_behind hsplit)]
    rw [hlength, ← hskip] at hrest
    rw [findIterLoop_useLine (hbodies body List.mem_cons_self) hlen hsplit hstart, hrest]
    rfl

/-- The first groups of the matches, read from their captures. -/
theorem firstGroups_eq (text : List Char) :
    (useRe.findIter (String.ofList text)).filterMap (fun found => (found.groups[0]?).join) =
      (bodiesOf text (useRe.findIterLoop text (text.length + 2) 0)).filterMap id := by
  have hcase : useRe.ignorecase = false := by rw [useRe_eq]
  rw [Regex.findIter, Regex.findIterFound, Pyre.seen_ofList hcase, String.toList_ofList, bodiesOf,
    List.filterMap_map,
    List.filterMap_map]
  refine List.filterMap_congr fun found _ => ?_
  simp only [Function.comp_apply, Regex.materialize, id]
  rw [List.getElem?_map, List.getElem?_drop]
  cases found.captures[1]? with
  | none => rfl
  | some entry => rfl

/-- **The statements of a source** that is lines of statements. -/
theorem statements_useLines {bodies : List (List Char)} (hbodies : ∀ b ∈ bodies, IsBody b)
    (hlen : (useLines bodies).length ≤ unbounded) :
    (useRe.findIter (String.ofList (useLines bodies))).filterMap
      (fun found => (found.groups[0]?).join) =
      bodies.map String.ofList := by
  rw [firstGroups_eq]
  cases bodies with
  | nil => decide +kernel
  | cons body bodies =>
    have hfuel : bodies.length + 1 < (useLines (body :: bodies)).length + 2 := by
      have hlength : ∀ bodies : List (List Char), bodies.length ≤ (useLines bodies).length := by
        intro bodies
        induction bodies with
        | nil => exact Nat.zero_le _
        | cons body bodies ih =>
          cases bodies with
          | nil => simp [useLines, useLine]
          | cons next bodies =>
            rw [useLines, List.map_cons, List.map_cons, List.intercalate_cons_cons, ← List.map_cons,
              ← useLines]
            simp only [List.length_append, List.length_cons] at ih ⊢
            omega
      have hle := hlength (body :: bodies)
      simp only [List.length_cons] at hle
      omega
    have hall : bodiesOf
        _ (useRe.findIterLoop (useLines (body :: bodies)) _ ([] : List Char).length) = _ :=
      findIterLoop_useLines hlen body bodies hbodies rfl rfl hfuel
    rw [List.length_nil] at hall
    rw [hall, List.filterMap_map]
    exact congrFun List.filterMap_eq_map' (body :: bodies)

end RtpMux.CheckGate
