import RtpMux.Tools.PyreDenotation

/-!
# Reading a pattern as a grammar of words

A pattern relates positions; a grammar speaks of the word that stands between them. `Reads text i
word j` says that `word` stands in `text` from `i` to `j`. Literals, classes and repeated classes
each read a word of the obvious kind, concatenation reads the words one after the other, and `$`
ends the text up to one final newline. An anchored search of such a pattern is then a statement
about the whole text.
-/

namespace RtpMux.Pyre

open Text (isAsciiAlphabetic)

/-! ## Compiled patterns

A tree that a pattern compiles to is checked against the tree that is written down by running the
parser. -/

mutual

/-- Whether two patterns are the same tree. -/
def Node.same : Node → Node → Bool
  | .char a, .char b => a == b
  | .any, .any => true
  | .cls n is, .cls m js => n == m && is == js
  | .start a, .start b => a == b
  | .stop a, .stop b => a == b
  | .wordBoundary, .wordBoundary => true
  | .notWordBoundary, .notWordBoundary => true
  | .group i a, .group j b => i == j && a.same b
  | .look a p, .look b q => a.same b && p == q
  | .textStart, .textStart => true
  | .textEnd, .textEnd => true
  | .concat as, .concat bs => Node.sameAll as bs
  | .alt as, .alt bs => Node.sameAll as bs
  | .repeat a min max greedy, .repeat b min' max' greedy' =>
    a.same b && (min == min' && max == max' && greedy == greedy')
  | _, _ => false

/-- The same for lists of nodes. -/
def Node.sameAll : List Node → List Node → Bool
  | [], [] => true
  | a :: as, b :: bs => a.same b && Node.sameAll as bs
  | _, _ => false

end

mutual

/-- Nodes that are compared as the same are equal. -/
theorem Node.eq_of_same : (a b : Node) → a.same b = true → a = b
  | .char _, b, h | .any, b, h | .cls _ _, b, h | .start _, b, h | .stop _, b, h
  | .wordBoundary, b, h | .notWordBoundary, b, h | .textStart, b, h | .textEnd, b, h => by
    cases b <;> simp_all [Node.same]
  | .group i a, b, h => by
    cases b with
    | group j b =>
      simp only [Node.same, Bool.and_eq_true, beq_iff_eq] at h
      rw [h.1, Node.eq_of_same a b h.2]
    | _ => simp [Node.same] at h
  | .look a p, b, h => by
    cases b with
    | look b q =>
      simp only [Node.same, Bool.and_eq_true, beq_iff_eq] at h
      rw [h.2, Node.eq_of_same a b h.1]
    | _ => simp [Node.same] at h
  | .concat as, b, h => by
    cases b with
    | concat bs => rw [Node.eq_of_sameAll as bs h]
    | _ => simp [Node.same] at h
  | .alt as, b, h => by
    cases b with
    | alt bs => rw [Node.eq_of_sameAll as bs h]
    | _ => simp [Node.same] at h
  | .repeat a _ _ _, b, h => by
    cases b with
    | «repeat» b =>
      simp only [Node.same, Bool.and_eq_true, beq_iff_eq] at h
      rw [Node.eq_of_same a b h.1, h.2.1.1, h.2.1.2, h.2.2]
    | _ => simp [Node.same] at h

theorem Node.eq_of_sameAll : (as bs : List Node) → Node.sameAll as bs = true → as = bs
  | [], [], _ => rfl
  | [], _ :: _, h => nomatch h
  | _ :: _, [], h => nomatch h
  | a :: as, b :: bs, h => by
    simp only [Node.sameAll, Bool.and_eq_true] at h
    rw [Node.eq_of_same a b h.1, Node.eq_of_sameAll as bs h.2]

end

/-- Whether two compiled patterns are the same. -/
def Regex.same (r s : Regex) : Bool :=
  r.root.same s.root && r.names == s.names && r.groupCount == s.groupCount &&
    r.ignorecase == s.ignorecase

/-- Patterns that are compared as the same are equal. -/
theorem Regex.eq_of_same {r s : Regex} (h : r.same s = true) : r = s := by
  simp only [Regex.same, Bool.and_eq_true, beq_iff_eq] at h
  obtain ⟨⟨⟨hroot, hnames⟩, hcount⟩, hcase⟩ := h
  have hroot := Node.eq_of_same _ _ hroot
  cases r
  cases s
  simp_all

/-- A pattern is what its characters compile to. -/
theorem newWithFlags_eq_ok {pattern : String} {chars : List Char} {flags : Flags} {r : Regex}
    (hchars : pattern.toList = chars)
    (hr : (Regex.newOfChars chars flags).toOption.any (·.same r) = true) :
    Regex.newWithFlags pattern flags = .ok r := by
  rw [Regex.newWithFlags_eq hchars]
  cases h : Regex.newOfChars chars flags with
  | ok s =>
    rw [h] at hr
    rw [Regex.eq_of_same hr]
  | error e =>
    rw [h] at hr
    cases hr

theorem compiled_of_new {pattern : String} {h : (Regex.new pattern false).isOk = true} {r : Regex}
    (hnew : Regex.new pattern false = .ok r) : compiled pattern h = r := by
  unfold compiled
  split
  next hok _ => exact Except.ok.inj (hok.symm.trans hnew)

/-- A compiled pattern is what its characters compile to. -/
theorem compiled_eq {pattern : String} {chars : List Char}
    {h : (Regex.new pattern false).isOk = true} {r : Regex}
    (hchars : pattern.toList = chars)
    (hr : (Regex.newOfChars chars ⟨false, false, false⟩).toOption.any (·.same r) = true) :
    compiled pattern h = r :=
  compiled_of_new (newWithFlags_eq_ok hchars hr)

/-! ## Words in a text -/

/-- `word` stands in `text` from position `i` to position `j`. -/
def Reads (text : List Char) (i : Nat) (word : List Char) (j : Nat) : Prop :=
  word <+: text.drop i ∧ j = i + word.length

theorem reads_nil {text : List Char} {i j : Nat} : Reads text i [] j ↔ i = j := by
  simp [Reads, eq_comm]

/-- Two words in a row. -/
theorem reads_append {text : List Char} {i j : Nat} {u v : List Char} :
    Reads text i (u ++ v) j ↔ ∃ m, Reads text i u m ∧ Reads text m v j := by
  unfold Reads
  constructor
  · rintro ⟨⟨rest, hrest⟩, rfl⟩
    refine ⟨i + u.length, ⟨⟨v ++ rest, by simpa using hrest⟩, rfl⟩, ⟨rest, ?_⟩, by
      simp [Nat.add_assoc]⟩
    rw [← List.drop_drop, ← hrest, List.append_assoc, List.drop_left]
  · rintro ⟨m, ⟨⟨r₁, h₁⟩, rfl⟩, ⟨r₂, h₂⟩, rfl⟩
    refine ⟨⟨r₂, ?_⟩, by simp [Nat.add_assoc]⟩
    rw [← List.drop_drop, ← h₁, List.drop_left] at h₂
    rw [← h₁, ← h₂, List.append_assoc]

/-- A word is read character by character. -/
theorem reads_cons {text : List Char} {i j : Nat} {c : Char} {word : List Char} :
    Reads text i (c :: word) j ↔ text[i]? = some c ∧ Reads text (i + 1) word j := by
  have hone : Reads text i [c] (i + 1) ↔ text[i]? = some c := by
    rw [← List.head?_drop]
    cases h : text.drop i <;> simp [Reads, h, eq_comm]
  rw [← List.singleton_append, reads_append, ← hone]
  constructor
  · rintro ⟨m, h, h'⟩
    obtain rfl : m = i + 1 := h.2
    exact ⟨h, h'⟩
  · rintro ⟨h, h'⟩
    exact ⟨i + 1, h, h'⟩

/-- A text read from its start up to an end or a final newline. -/
theorem reads_atStop {text word : List Char} :
    (∃ j, Reads text 0 word j ∧ atStop false text j = true) ↔
      text = word ∨ text = word ++ ['\n'] := by
  constructor
  · rintro ⟨j, ⟨⟨rest, hrest⟩, rfl⟩, hstop⟩
    rw [List.drop_zero] at hrest
    subst hrest
    rcases rest with _ | ⟨c, _ | ⟨d, rest⟩⟩
    · simp
    · simpa [atStop] using hstop
    · simp [atStop] at hstop
  · rintro (rfl | rfl)
    · exact ⟨text.length, ⟨by simp, by simp⟩, by simp [atStop]⟩
    · exact ⟨word.length, ⟨by simp, by simp⟩, by simp [atStop]⟩

/-! ## The parts of a pattern -/

theorem engineDenotes_repeat {inner : Node} {text : List Char} {min max i j : Nat} {greedy : Bool} :
    EngineDenotes (.repeat inner min max greedy) text i j ↔
      Counted (Advance (EngineDenotes inner text)) min max i j := Iff.rfl

theorem engineDenotes_concat_cons {first : Node} {rest : List Node} {text : List Char} {i j : Nat} :
    EngineDenotes (.concat (first :: rest)) text i j ↔
      ∃ m, EngineDenotes first text i m ∧ EngineDenotes (.concat rest) text m j := Iff.rfl

theorem engineDenotes_concat_nil {text : List Char} {i j : Nat} :
    EngineDenotes (.concat []) text i j ↔ i = j := Iff.rfl

theorem engineDenotes_stop {text : List Char} {multiline : Bool} {i j : Nat} :
    EngineDenotes (.stop multiline) text i j ↔ atStop multiline text i = true ∧ i = j := by
  simp only [EngineDenotes, DenotesWith, leafStop]
  by_cases h : atStop multiline text i = true <;> simp [h]

/-- What a character takes. -/
theorem char_reads {text : List Char} {c : Char} {i j : Nat} :
    EngineDenotes (.char c) text i j ↔ Reads text i [c] j := by
  simp only [EngineDenotes, DenotesWith, leafStop, reads_cons, reads_nil]
  split <;> simp [*]

/-- What a class takes. -/
theorem cls_reads {text : List Char} {negate : Bool} {items : List ClassItem} {i j : Nat} :
    EngineDenotes (.cls negate items) text i j ↔
      ∃ c, classMatches items negate c = true ∧ Reads text i [c] j := by
  simp only [EngineDenotes, DenotesWith, leafStop, reads_cons, reads_nil]
  cases h : text[i]? with
  | none => simp
  | some c => by_cases hc : classMatches items negate c = true <;> simp [hc]

theorem any_reads {text : List Char} {i j : Nat} :
    EngineDenotes .any text i j ↔ ∃ c, true = true ∧ Reads text i [c] j := by
  simp only [EngineDenotes, DenotesWith, leafStop, reads_cons, reads_nil]
  by_cases h : i < text.length
  · simp [h]
  · simp [h]

/-- What a literal takes. -/
theorem literal_reads {text word : List Char} {i j : Nat} :
    EngineDenotes (.concat (word.map .char)) text i j ↔ Reads text i word j := by
  induction word generalizing i with
  | nil => rw [List.map_nil, engineDenotes_concat_nil, reads_nil]
  | cons x word ih =>
    rw [List.map_cons, engineDenotes_concat_cons]
    simp only [char_reads, ih]
    exact (reads_append (u := [x])).symm

/-- What two alternatives take. -/
theorem engineDenotes_alt_pair {a b : Node} {text : List Char} {i j : Nat} :
    EngineDenotes (.alt [a, b]) text i j ↔ EngineDenotes a text i j ∨ EngineDenotes b text i j := by
  simp only [EngineDenotes, DenotesWith, DenotesAnyWith, or_false]

/-! ## Repeated characters -/

section Repeated

variable {text : List Char} {node : Node} {p : Char → Bool}
  (hnode : ∀ i j, EngineDenotes node text i j ↔ ∃ c, p c = true ∧ Reads text i [c] j)
include hnode

/-- What a repeated character takes. -/
theorem iterate_reads {n i j : Nat} :
    Iterate (Advance (EngineDenotes node text)) n i j ↔
      ∃ word, word.length = n ∧ (∀ c ∈ word, p c = true) ∧ Reads text i word j := by
  induction n generalizing i with
  | zero =>
    simp only [Iterate, List.length_eq_zero_iff]
    constructor
    · rintro rfl
      exact ⟨[], rfl, by simp, reads_nil.2 rfl⟩
    · rintro ⟨word, rfl, -, h⟩
      exact reads_nil.1 h
  | succ n ih =>
    simp only [Iterate, Relation.Comp, Advance, hnode, ih]
    constructor
    · rintro ⟨m, ⟨⟨c, hc, hm⟩, -⟩, word, rfl, hword, hj⟩
      refine ⟨c :: word, rfl, by simpa [hc] using hword, ?_⟩
      exact reads_append.2 ⟨m, hm, hj⟩
    · rintro ⟨word, hlen, hword, hj⟩
      obtain ⟨c, word, rfl⟩ := List.exists_cons_of_length_eq_add_one hlen
      simp only [List.mem_cons, forall_eq_or_imp] at hword
      rw [← List.singleton_append, reads_append] at hj
      obtain ⟨m, hm, hj⟩ := hj
      refine ⟨m, ⟨⟨c, hword.1, hm⟩, ?_⟩, word, by simpa using hlen, hword.2, hj⟩
      rw [hm.2]
      simp

/-- A character pattern repeated without an upper count reads any word of it that is long enough. -/
theorem repeat_reads {min i j : Nat} {greedy : Bool} (hlen : text.length ≤ unbounded) :
    EngineDenotes (.repeat node min unbounded greedy) text i j ↔
      ∃ word, min ≤ word.length ∧ (∀ c ∈ word, p c = true) ∧ Reads text i word j := by
  simp only [engineDenotes_repeat, Counted, iterate_reads hnode]
  constructor
  · rintro ⟨n, hmin, -, word, rfl, hword, hj⟩
    exact ⟨word, hmin, hword, hj⟩
  · rintro ⟨word, hmin, hword, hj⟩
    refine ⟨word.length, hmin, ?_, word, rfl, hword, hj⟩
    have := hj.1.length_le
    rw [List.length_drop] at this
    omega

end Repeated

/-- What a repeated class takes. -/
theorem repeat_cls_reads {text : List Char} {negate : Bool} {items : List ClassItem} {min i j : Nat}
    {greedy : Bool} (hlen : text.length ≤ unbounded) :
    EngineDenotes (.repeat (.cls negate items) min unbounded greedy) text i j ↔
      ∃ word, min ≤ word.length ∧ (∀ c ∈ word, classMatches items negate c = true) ∧
        Reads text i word j :=
  repeat_reads (fun _ _ => cls_reads) hlen

/-- What a repeated dot takes. -/
theorem repeat_any_reads {text : List Char} {i j : Nat} {greedy : Bool}
    (hlen : text.length ≤ unbounded) :
    EngineDenotes (.repeat .any 0 unbounded greedy) text i j ↔ ∃ word, Reads text i word j := by
  rw [repeat_reads (p := fun _ => true) (fun _ _ => any_reads) hlen]
  simp

/-! ## Names -/

/-- A character of `head` followed by characters of `tail`. -/
def IsName (head tail : Char → Bool) (name : List Char) : Prop :=
  ∃ first rest, name = first :: rest ∧ head first = true ∧ ∀ c ∈ rest, tail c = true

theorem range_self (c d : Char) : (decide (d ≤ c) && decide (c ≤ d)) = decide (c = d) := by
  by_cases h : c = d
  · simp [h]
  · have : ¬ (d ≤ c ∧ c ≤ d) := fun h' => h (Char.le_antisymm h'.2 h'.1)
    simpa [h] using this

/-- The class of letters. -/
theorem alphabetic_class (c : Char) :
    classMatches [.range 'A' 'Z', .range 'a' 'z'] false c = isAsciiAlphabetic c := by
  simp [classMatches, isAsciiAlphabetic, Bool.or_comm]

/-- A class followed by another, repeated, reads a name. -/
theorem name_reads {text : List Char} {n₁ n₂ : Bool} {items₁ items₂ : List ClassItem} {i j : Nat}
    {greedy : Bool} (hlen : text.length ≤ unbounded) :
    EngineDenotes (.concat [.cls n₁ items₁, .repeat (.cls n₂ items₂) 0 unbounded greedy]) text i j ↔
      ∃ name, IsName (classMatches items₁ n₁) (classMatches items₂ n₂) name ∧
        Reads text i name j := by
  simp only [engineDenotes_concat_cons, engineDenotes_concat_nil, cls_reads, repeat_cls_reads hlen]
  constructor
  · rintro ⟨m, ⟨first, hfirst, hm⟩, m', ⟨rest, -, hrest, hm'⟩, rfl⟩
    exact ⟨first :: rest, ⟨first, rest, rfl, hfirst, hrest⟩, reads_append.2 ⟨m, hm, hm'⟩⟩
  · rintro ⟨name, ⟨first, rest, rfl, hfirst, hrest⟩, hj⟩
    rw [← List.singleton_append, reads_append] at hj
    obtain ⟨m, hm, hj⟩ := hj
    exact ⟨m, ⟨first, hfirst, hm⟩, j, ⟨rest, Nat.zero_le _, hrest, hj⟩, rfl⟩

/-! ## Anchored searches -/

/-- An attempt that accepts every end takes the first one offered. -/
theorem attempt_acceptAny (r : Regex) (text : List Char) (start : Nat) :
    r.attempt text start acceptAny =
      (results r.root text start r.emptyCaptures).head?.map fun success =>
        ⟨start, success.2, success.1⟩ := by
  rw [Regex.attempt, run_eq_firstAccepted r.root _ start r.emptyCaptures _ restores_acceptAny]
  cases results r.root text start r.emptyCaptures <;> rfl

/-- A pattern matches a text if it takes a part of it. -/
theorem isMatch_iff (r : Regex) (text : String) :
    r.isMatch text = true ↔
      ∃ start ≤ (r.seen text.toList).length, ∃ e,
        EngineDenotes r.root (r.seen text.toList) start e := by
  have hattempt (start : Nat) : (r.attempt (r.seen text.toList) start acceptAny).isSome = true ↔
      ∃ e, EngineDenotes r.root (r.seen text.toList) start e := by
    simp only [← mem_results_iff r.root _ _ r.emptyCaptures, attempt_acceptAny]
    rw [← endsAt_nonempty]
    cases results r.root (r.seen text.toList) start r.emptyCaptures <;> simp
  simp only [Regex.isMatch, Regex.searchFrom, List.findSome?_isSome_iff, hattempt, List.mem_range']
  constructor
  · rintro ⟨start, ⟨i, hi, rfl⟩, h⟩
    exact ⟨0 + 1 * i, by omega, h⟩
  · rintro ⟨start, hstart, h⟩
    exact ⟨start, ⟨start, by omega, by omega⟩, h⟩

/-- A pattern that begins with `^` matches somewhere exactly when its rest matches from the
start. -/
theorem isMatch_anchored {r : Regex} {rest : List Node}
    (hroot : r.root = .concat (.start false :: rest))
    (text : String) :
    r.isMatch text = true ↔ ∃ e, EngineDenotes (.concat rest) (r.seen text.toList) 0 e := by
  rw [isMatch_iff, hroot]
  simp only [EngineDenotes, DenotesWith, DenotesAllWith, Relation.Comp, leafStop, atStart]
  constructor
  · rintro ⟨start, -, e, c, hc, h⟩
    by_cases hs : start = 0
    · subst hs
      simp only [decide_true, Bool.true_or, if_true, Option.some.injEq] at hc
      subst hc
      exact ⟨e, h⟩
    · simp [hs] at hc
  · rintro ⟨e, h⟩
    exact ⟨0, Nat.zero_le _, e, 0, by simp, h⟩

end RtpMux.Pyre
