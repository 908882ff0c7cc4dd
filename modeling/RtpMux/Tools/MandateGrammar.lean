import RtpMux.Tools.MandateLines

/-!
# The grammar of a verdict line

`Verdict line id verdict tail` spells out what the pattern of a verdict line accepts on a line
without a newline, and `KeyValue token key value` what the pattern of a measurement accepts. A
search finds a match exactly on these, with the id, the verdict and the key as its named groups
(`verdict_of_search`, `keyValue_of_search`, and their converses). The group of the values is pinned
down only up to the blanks around it, which is all its reader looks at.
-/

namespace RtpMux.MandateCheck

open Pyre
open Text (isAsciiAlphabetic isAsciiAlphanumeric isAsciiDigit)

/-- The characters of an id or a key behind its first one. -/
def wordChar (c : Char) : Bool := isAsciiAlphanumeric c || c = '_'

/-- The first character of a key. -/
def keyHead (c : Char) : Bool := isAsciiAlphabetic c || c = '_'

/-- A character that separates the parts of a line. -/
def isBlank (c : Char) : Bool := c = ' ' || c = '\t'

/-- What may stand behind the verdict: nothing, or something set off by a blank. -/
def SetOff (tail : List Char) : Prop := ∀ c rest, tail = c :: rest → isBlank c = true

/-- A verdict line with its parts. -/
def Verdict (line id verdict tail : List Char) : Prop :=
  line = "MANDATE ".toList ++ (id ++ ([' '] ++ (verdict ++ tail))) ∧
    IsName isAsciiAlphabetic wordChar id ∧
    (verdict = "PASS".toList ∨ verdict = "FAIL".toList) ∧ SetOff tail

/-- A measurement with its parts. -/
def KeyValue (token key value : List Char) : Prop :=
  token = key ++ (['='] ++ value) ∧ IsName keyHead wordChar key ∧ value ≠ []

/-! ## The classes -/

/-- The class of a mandate's characters in the pattern. -/
theorem wordChar_class (c : Char) :
    classMatches [.range 'A' 'Z', .range 'a' 'z', .range '0' '9', .range '_' '_'] false c =
      wordChar c := by
  simp only [classMatches, List.any_cons, List.any_nil, range_self, wordChar, isAsciiAlphanumeric,
    isAsciiAlphabetic, isAsciiDigit]
  grind

/-- The class of a key's first character in the pattern. -/
theorem keyHead_class (c : Char) :
    classMatches [.range 'A' 'Z', .range 'a' 'z', .range '_' '_'] false c = keyHead c := by
  simp only [classMatches, List.any_cons, List.any_nil, range_self, keyHead, isAsciiAlphabetic]
  grind

/-- The class of blanks in the pattern. -/
theorem blank_class (c : Char) :
    classMatches [.range ' ' ' ', .range '\t' '\t'] false c = isBlank c := by
  simp only [classMatches, List.any_cons, List.any_nil, range_self, isBlank]
  grind

theorem isWhitespace_of_isBlank {c : Char} (h : isBlank c = true) : Text.isWhitespace c = true := by
  simp only [isBlank, Bool.or_eq_true, decide_eq_true_eq] at h
  rcases h with rfl | rfl <;> rfl

/-! ## The line -/

/-- The pattern of the id. -/
def idNode : Node :=
  .concat [.cls false [.range 'A' 'Z', .range 'a' 'z'],
    .repeat (.cls false [.range 'A' 'Z', .range 'a' 'z', .range '0' '9', .range '_' '_']) 0
      unbounded true]

/-- The pattern of the verdict. -/
def verdictNode : Node :=
  .alt [.concat ("PASS".toList.map .char), .concat ("FAIL".toList.map .char)]

/-- The pattern behind the verdict. -/
def tailNodes : List Node :=
  [.repeat (.group none (.concat [.repeat (.cls false [.range ' ' ' ', .range '\t' '\t']) 1
      unbounded true, .group (some 3) (.repeat .any 0 unbounded false)])) 0 1 true,
    .repeat (.cls false [.range ' ' ' ', .range '\t' '\t']) 0 unbounded true, .stop false]

/-- The pattern behind `^`. -/
def lineNodes : List Node :=
  "MANDATE ".toList.map Node.char ++
    .group (some 1) idNode :: .char ' ' :: .group (some 2) verdictNode :: tailNodes

/-- The pattern of a verdict line, parsed. -/
theorem mandateLineRe_eq : mandateLineRe =
    ⟨.concat (.start false :: lineNodes), [("values", 3), ("verdict", 2), ("mandate", 1)], 3,
      false⟩ :=
  compiled_eq String.toList_ofList (by decide +kernel)

/-- Behind the verdict: the captures and the word the rest of the pattern reads. -/
inductive TailRead (text : List Char) (i j : Nat) (caps : Captures) : Captures → List Char → Prop
  | blanks {blanks : List Char} (hb : ∀ c ∈ blanks, isBlank c = true) (h : Reads text i blanks j) :
      TailRead text i j caps caps blanks
  | values {before values after : List Char} {p q : Nat} (hne : before ≠ [])
      (hb : ∀ c ∈ before, isBlank c = true) (ha : ∀ c ∈ after, isBlank c = true)
      (hp : Reads text i before p) (hq : Reads text p values q) (hj : Reads text q after j) :
      TailRead text i j caps (caps.set 3 (some (p, q))) (before ++ (values ++ after))

/-- What the pattern's tail takes. -/
theorem mem_tail_iff {text : List Char} {i e : Nat} {caps c : Captures}
    (hlen : text.length ≤ unbounded) :
    (c, e) ∈ concatResults tailNodes text i caps ↔
      ∃ word, TailRead text i e caps c word ∧ atStop false text e = true := by
  have hblanks {i j least : Nat} : EngineDenotes
      (.repeat (.cls false [.range ' ' ' ', .range '\t' '\t']) least unbounded true) text i j ↔
      ∃ word, least ≤ word.length ∧ (∀ c ∈ word, isBlank c = true) ∧ Reads text i word j := by
    simp only [repeat_cls_reads hlen, blank_class]
  -- the optional part: blanks and the values, in group 3
  have hvalues {m : Nat} {c' : Captures} :
      (c', m) ∈ results (.group none (.concat [.repeat (.cls false [.range ' ' ' ',
        .range '\t' '\t']) 1 unbounded true, .group (some 3) (.repeat .any 0 unbounded false)]))
        text i caps ↔
      ∃ p before values, 1 ≤ before.length ∧ (∀ c ∈ before, isBlank c = true) ∧
        Reads text i before p ∧ Reads text p values m ∧ c' = caps.set 3 (some (p, m)) := by
    rw [mem_results_groupNone, mem_results_concat, mem_concatResults_groupFree _ rfl]
    simp only [hblanks, mem_concatResults_group (.repeat .any 0 unbounded false) rfl,
      repeat_any_reads hlen, mem_concatResults_nil]
    constructor
    · rintro ⟨p, ⟨before, hne, hb, hp⟩, q, ⟨values, hq⟩, rfl, rfl⟩
      exact ⟨p, before, values, hne, hb, hp, hq, rfl⟩
    · rintro ⟨p, before, values, hne, hb, hp, hq, rfl⟩
      exact ⟨p, ⟨before, hne, hb, hp⟩, m, ⟨values, hq⟩, rfl, rfl⟩
  rw [tailNodes, mem_concatResults_cons]
  simp only [mem_results_optional, hvalues, mem_concatResults_groupFree
    (.repeat (.cls false [.range ' ' ' ', .range '\t' '\t']) 0 unbounded true) rfl, hblanks,
    mem_stop_results]
  constructor
  · rintro ⟨c', m, ⟨rfl, rfl⟩ | ⟨⟨p, before, values, hne, hb, hp, hq, rfl⟩, -⟩, m',
        ⟨after, -, ha, hj⟩,
      rfl, rfl, hstop⟩
    · exact ⟨after, .blanks ha hj, hstop⟩
    · exact ⟨_, .values (List.ne_nil_of_length_pos hne) hb ha hp hq hj, hstop⟩
  · rintro ⟨word, htail, hstop⟩
    cases htail with
    | blanks hb h =>
      exact ⟨caps, i, .inl ⟨rfl, rfl⟩, e, ⟨word, Nat.zero_le _, hb, h⟩, rfl, rfl, hstop⟩
    | @values before values after p q hne hb ha hp hq hj =>
      have hpos : 0 < before.length := List.length_pos_of_ne_nil hne
      refine ⟨_, q, .inr ⟨⟨p, before, values, hpos, hb, hp, hq, rfl⟩, ?_⟩, e,
        ⟨after, Nat.zero_le _, ha, hj⟩, rfl, rfl, hstop⟩
      have := hp.2
      have := hq.2
      omega

/-- The tail is read up to the end. -/
theorem TailRead.reads {text word : List Char} {i j : Nat} {caps c : Captures}
    (h : TailRead text i j caps c word) : Reads text i word j := by
  cases h with
  | blanks _ h => exact h
  | values _ _ _ hp hq hj => exact reads_append.2 ⟨_, hp, reads_append.2 ⟨_, hq, hj⟩⟩

/-- The tail is set off by a blank, or empty. -/
theorem TailRead.setOff {text word : List Char} {i j : Nat} {caps c : Captures}
    (h : TailRead text i j caps c word) : SetOff word := by
  intro d rest hword
  cases h with
  | blanks hb _ => exact hb d (by simp [hword])
  | values hne hb _ _ _ _ =>
    obtain ⟨b, bs, rfl⟩ := List.exists_cons_of_ne_nil hne
    rw [List.cons_append, List.cons.injEq] at hword
    rw [← hword.1]
    exact hb b List.mem_cons_self

/-- The span of the values, as text. -/
def valuesText (text : List Char) (captures : Captures) : List Char :=
  (((captures[3]?).join.map (slice text)).getD "").toList

/-- The tokens of the values are those of everything behind the verdict. -/
theorem TailRead.tokens {text word : List Char} {i j : Nat} {caps c : Captures}
    (h : TailRead text i j caps c word) (hcaps : caps[3]? = some none) :
    Text.splitWhitespace (valuesText text c) = Text.splitWhitespace word := by
  have hws {s : List Char} (hs : ∀ c ∈ s, isBlank c = true) : ∀ c ∈ s, Text.isWhitespace c = true :=
    fun c hc => isWhitespace_of_isBlank (hs c hc)
  cases h with
  | blanks hb _ =>
    have := Text.splitWhitespace_append_right [] (hws hb)
    simp only [List.nil_append] at this
    rw [this]
    simp [valuesText, hcaps]
  | values hne hb ha hp hq hj =>
    have hlt : 3 < caps.length := (List.getElem?_eq_some_iff.1 hcaps).1
    rw [Text.splitWhitespace_append_left (hws hb), Text.splitWhitespace_append_right _ (hws ha)]
    simp [valuesText, hlt, slice_of_reads hq]

/-- The tail fills its own group only. -/
theorem TailRead.captures {text word : List Char} {i j : Nat} {caps c : Captures}
    (h : TailRead text i j caps c word) {n : Nat} (hn : n ≠ 3) : (c)[n]? = caps[n]? := by
  cases h with
  | blanks _ _ => rfl
  | values _ _ _ _ _ _ => rw [List.getElem?_set_ne (Ne.symm hn)]

/-- What the pattern takes as a mandate's identifier. -/
theorem id_reads {text : List Char} {i j : Nat} (hlen : text.length ≤ unbounded) :
    EngineDenotes idNode text i j ↔
      ∃ id, IsName isAsciiAlphabetic wordChar id ∧ Reads text i id j := by
  have halpha := funext alphabetic_class
  have hword := funext wordChar_class
  rw [idNode, name_reads hlen, halpha, hword]

/-- What the pattern takes as a verdict. -/
theorem verdict_reads {text : List Char} {i j : Nat} :
    EngineDenotes verdictNode text i j ↔
      ∃ verdict, (verdict = "PASS".toList ∨ verdict = "FAIL".toList) ∧ Reads text i verdict j := by
  rw [verdictNode, engineDenotes_alt_pair, literal_reads, literal_reads]
  simp only [or_and_right, exists_or, exists_eq_left]

/-- The results of the pattern on a line, part by part. -/
theorem mem_line_iff {line : List Char} (hlen : line.length ≤ unbounded) {caps c : Captures}
    {e : Nat} :
    (c, e) ∈ concatResults lineNodes line 0 caps ↔
      ∃ m₀ m₁ m₂ m₃ id verdict tail, Reads line 0 "MANDATE ".toList m₀ ∧
        (IsName isAsciiAlphabetic wordChar id ∧ Reads line m₀ id m₁) ∧ Reads line m₁ [' '] m₂ ∧
        ((verdict = "PASS".toList ∨ verdict = "FAIL".toList) ∧ Reads line m₂ verdict m₃) ∧
        TailRead line m₃ e ((caps.set 1 (some (m₀, m₁))).set 2 (some (m₂, m₃))) c tail ∧
        atStop false line e = true := by
  unfold lineNodes
  refine mem_concatResults_literal.trans ?_
  simp only [mem_concatResults_group idNode rfl,
    mem_concatResults_group verdictNode rfl,
    mem_concatResults_groupFree (.char ' ') rfl, char_reads, id_reads hlen, verdict_reads,
    mem_tail_iff hlen]
  constructor
  · rintro ⟨m₀, h₀, m₁, ⟨id, hid⟩, m₂, h₂, m₃, ⟨verdict, hv⟩, tail, htail⟩
    exact ⟨m₀, m₁, m₂, m₃, id, verdict, tail, h₀, hid, h₂, hv, htail⟩
  · rintro ⟨m₀, m₁, m₂, m₃, id, verdict, tail, h₀, hid, h₂, hv, htail⟩
    exact ⟨m₀, h₀, m₁, ⟨id, hid⟩, m₂, h₂, m₃, ⟨verdict, hv⟩, tail, htail⟩

/-- A line the pattern reads is a verdict line, and its groups are the line's parts. -/
theorem verdict_of_mem {line : List Char} (hnl : ∀ text, line ≠ text ++ ['\n'])
    (hlen : line.length ≤ unbounded)
    {c : Captures} {e : Nat}
    (h : (c, e) ∈ concatResults lineNodes line 0 [none, none, none, none]) :
    ∃ id verdict tail, Verdict line id verdict tail ∧
      ((c)[1]?).join.map (slice line) = some (String.ofList id) ∧
      ((c)[2]?).join.map (slice line) = some (String.ofList verdict) ∧
      Text.splitWhitespace (valuesText line c) = Text.splitWhitespace tail := by
  rw [mem_line_iff hlen] at h
  obtain ⟨m₀, m₁, m₂, m₃, id, verdict, tail, h₀, ⟨hname, hid⟩, h₂, ⟨hv, hverdict⟩, htail, hstop⟩ :=
    h
  have hread : Reads line 0 ("MANDATE ".toList ++ (id ++ ([' '] ++ (verdict ++ tail)))) e :=
    reads_append.2 ⟨m₀, h₀, reads_append.2 ⟨m₁, hid, reads_append.2 ⟨m₂, h₂,
      reads_append.2 ⟨m₃, hverdict, htail.reads⟩⟩⟩⟩
  have hline := reads_atStop.1 ⟨e, hread, hstop⟩
  refine ⟨id, verdict, tail, ⟨?_, hname, hv, htail.setOff⟩, ?_, ?_, htail.tokens rfl⟩
  · rcases hline with hline | hline
    · exact hline
    · exact absurd hline (hnl _)
  · rw [htail.captures (by decide)]
    simp [slice_of_reads hid]
  · rw [htail.captures (by decide)]
    simp [slice_of_reads hverdict]

/-- A verdict line is taken by the pattern. -/
theorem mem_of_verdict {line id verdict tail : List Char} (hlen : line.length ≤ unbounded)
    (h : Verdict line id verdict tail) (caps : Captures) :
    ∃ success, success ∈ concatResults lineNodes line 0 caps := by
  obtain ⟨hline, hname, hv, htail⟩ := h
  have hread : ∃ e, Reads line 0 ("MANDATE ".toList ++ (id ++ ([' '] ++ (verdict ++ tail)))) e ∧
      atStop false line e = true := reads_atStop.2 (.inl hline)
  simp only [reads_append] at hread
  obtain ⟨e, ⟨m₀, h₀, m₁, hid, m₂, h₂, m₃, hverdict, h₃⟩, hstop⟩ := hread
  have hsplit : ∃ c,
      TailRead line m₃ e ((caps.set 1 (some (m₀, m₁))).set 2 (some (m₂, m₃))) c tail := by
    cases tail with
    | nil => exact ⟨_, .blanks (by simp) h₃⟩
    | cons b rest =>
      -- one blank, and everything behind it as the values
      rw [← List.singleton_append, reads_append] at h₃
      obtain ⟨p, hp, hq⟩ := h₃
      have hblank : ∀ c ∈ [b], isBlank c = true := by simpa using htail b rest rfl
      have hvalues : TailRead line m₃ e ((caps.set 1 (some (m₀, m₁))).set 2 (some (m₂, m₃))) _
          ([b] ++ (rest ++ [])) := .values (by simp) hblank (by simp) hp hq (reads_nil.2 rfl)
      exact ⟨_, by simpa using hvalues⟩
  obtain ⟨c, hc⟩ := hsplit
  exact ⟨(c, e), (mem_line_iff hlen).2 ⟨m₀, m₁, m₂, m₃, id, verdict, tail, h₀, ⟨hname, hid⟩, h₂,
    ⟨hv, hverdict⟩, hc, hstop⟩⟩

/-- The pattern is tried at the line's beginning only. -/
theorem mandateLineRe_search (line : List Char) :
    mandateLineRe.search (String.ofList line) =
      (concatResults lineNodes line 0 [none, none, none, none]).head?.map fun success =>
        mandateLineRe.materialize line ⟨0, success.2, success.1⟩ := by
  rw [mandateLineRe_eq, Regex.search, searchFrom_anchored rfl, seen_ofList rfl]
  simp only [Regex.emptyCaptures, List.replicate, Option.map_map, String.toList_ofList]
  rfl

/-- **The pattern of a verdict line**, where it finds nothing. -/
theorem not_verdict_of_search {line : List Char} (hlen : line.length ≤ unbounded)
    (h : mandateLineRe.search (String.ofList line) = none) (id verdict tail : List Char) :
    ¬ Verdict line id verdict tail := by
  rw [mandateLineRe_search, Option.map_eq_none_iff, List.head?_eq_none_iff] at h
  intro hv
  obtain ⟨success, hmem⟩ := mem_of_verdict hlen hv [none, none, none, none]
  simp [h] at hmem

/-- **The pattern of a verdict line**, where it finds one. -/
theorem verdict_of_search {line : List Char} (hnl : ∀ text, line ≠ text ++ ['\n'])
    (hlen : line.length ≤ unbounded)
    {found : Match} (h : mandateLineRe.search (String.ofList line) = some found) :
    ∃ id verdict tail, Verdict line id verdict tail ∧
      found.named "mandate" = some (String.ofList id) ∧
      found.named "verdict" = some (String.ofList verdict) ∧
      Text.splitWhitespace ((found.named "values").getD "").toList = Text.splitWhitespace tail := by
  rw [mandateLineRe_search, Option.map_eq_some_iff] at h
  obtain ⟨⟨c, e⟩, hhead, rfl⟩ := h
  obtain ⟨id, verdict, tail, hv, hid, hverdict, htokens⟩ :=
    verdict_of_mem hnl hlen (List.mem_of_head? hhead)
  rw [mandateLineRe_eq]
  refine ⟨id, verdict, tail, hv, ?_, ?_, ?_⟩
  · rw [named_materialize 0 rfl]
    exact hid
  · rw [named_materialize 1 rfl]
    exact hverdict
  · rw [named_materialize 2 rfl]
    exact htokens

/-! ## The measurement -/

/-- The pattern of a key. -/
def keyNode : Node :=
  .concat [.cls false [.range 'A' 'Z', .range 'a' 'z', .range '_' '_'],
    .repeat (.cls false [.range 'A' 'Z', .range 'a' 'z', .range '0' '9', .range '_' '_']) 0
      unbounded true]

/-- The pattern of a value. -/
def valueNode : Node := .repeat (.cls false [.notSpace]) 1 unbounded true

/-- The pattern behind `^`. -/
def tokenNodes : List Node :=
  [.group (some 1) keyNode, .char '=', .group (some 2) valueNode, .stop false]

/-- The pattern of a value, parsed. -/
theorem valueRe_eq :
    valueRe = ⟨.concat (.start false :: tokenNodes), [("value", 2), ("key", 1)], 2, false⟩ :=
  compiled_eq String.toList_ofList (by decide +kernel)

/-- The results of the pattern on a token, part by part. -/
theorem mem_token_iff {token : List Char} (hlen : token.length ≤ unbounded) {caps c : Captures}
    {e : Nat} :
    (c, e) ∈ concatResults tokenNodes token 0 caps ↔
      ∃ m₁ m₂ key value, (IsName keyHead wordChar key ∧ Reads token 0 key m₁) ∧
        Reads token m₁ ['='] m₂ ∧
        (1 ≤ value.length ∧ (∀ c ∈ value, (!isSpace c) = true) ∧ Reads token m₂ value e) ∧
        c = (caps.set 1 (some (0, m₁))).set 2 (some (m₂, e)) ∧ atStop false token e = true := by
  have hkey {i j : Nat} : EngineDenotes keyNode token i j ↔
      ∃ key, IsName keyHead wordChar key ∧ Reads token i key j := by
    rw [keyNode, name_reads hlen, funext keyHead_class, funext wordChar_class]
  have hclass (c : Char) : classMatches [.notSpace] false c = !isSpace c := by
    simp [classMatches]
  have hvalue {i j : Nat} : EngineDenotes valueNode token i j ↔
      ∃ value, 1 ≤ value.length ∧ (∀ c ∈ value, (!isSpace c) = true) ∧ Reads token i value j := by
    rw [valueNode, repeat_cls_reads hlen, funext hclass]
  unfold tokenNodes
  simp only [mem_concatResults_group keyNode rfl,
    mem_concatResults_group valueNode rfl,
    mem_concatResults_groupFree (.char '=') rfl, char_reads, hkey, hvalue,
    mem_stop_results]
  constructor
  · rintro ⟨m₁, ⟨key, hk⟩, m₂, h₂, m₃, ⟨value, hv⟩, rfl, rfl, hstop⟩
    exact ⟨m₁, m₂, key, value, hk, h₂, hv, rfl, hstop⟩
  · rintro ⟨m₁, m₂, key, value, hk, h₂, hv, rfl, hstop⟩
    exact ⟨m₁, ⟨key, hk⟩, m₂, h₂, e, ⟨value, hv⟩, rfl, rfl, hstop⟩

/-- A token that the pattern takes is a key and a value. -/
theorem keyValue_of_mem {token : List Char} (hnl : '\n' ∉ token) (hlen : token.length ≤ unbounded)
    {c : Captures} {e : Nat} (h : (c, e) ∈ concatResults tokenNodes token 0 [none, none, none]) :
    ∃ key value, KeyValue token key value ∧
      ((c)[1]?).join.map (slice token) = some (String.ofList key) ∧
      ((c)[2]?).join.map (slice token) = some (String.ofList value) := by
  rw [mem_token_iff hlen] at h
  obtain ⟨m₁, m₂, key, value, ⟨hname, hkey⟩, h₂, ⟨hne, -, hvalue⟩, rfl, hstop⟩ := h
  have hread : Reads token 0 (key ++ (['='] ++ value)) e :=
    reads_append.2 ⟨m₁, hkey, reads_append.2 ⟨m₂, h₂, hvalue⟩⟩
  refine ⟨key, value, ⟨?_, hname, List.ne_nil_of_length_pos hne⟩, ?_, ?_⟩
  · exact (reads_atStop.1 ⟨e, hread, hstop⟩).resolve_right fun hline =>
      hnl (hline ▸ List.mem_append_right _ List.mem_cons_self)
  · simp [slice_of_reads hkey]
  · simp [slice_of_reads hvalue]

/-- A key and a value are taken by the pattern. -/
theorem mem_of_keyValue {token key value : List Char} (hlen : token.length ≤ unbounded)
    (hws : ∀ c ∈ token, Text.isWhitespace c = false) (h : KeyValue token key value)
    (caps : Captures) : ∃ success, success ∈ concatResults tokenNodes token 0 caps := by
  obtain ⟨htoken, hname, hne⟩ := h
  have hread : ∃ e, Reads token 0 (key ++ (['='] ++ value)) e ∧ atStop false token e = true :=
    reads_atStop.2 (.inl htoken)
  simp only [reads_append] at hread
  obtain ⟨e, ⟨m₁, hkey, m₂, h₂, hvalue⟩, hstop⟩ := hread
  have hspace : ∀ c ∈ value, (!isSpace c) = true := by
    intro c hc
    have hcw := hws c (by simp [htoken, hc])
    by_contra h
    simp only [Bool.not_eq_true, Bool.not_eq_false'] at h
    rw [Text.isWhitespace_of_ascii h] at hcw
    exact absurd hcw (by decide)
  exact ⟨(_, e), (mem_token_iff hlen).2 ⟨m₁, m₂, key, value, ⟨hname, hkey⟩, h₂,
    ⟨List.length_pos_of_ne_nil hne, hspace, hvalue⟩, rfl, hstop⟩⟩

/-- The pattern is tried at the token's beginning only. -/
theorem valueRe_search (token : List Char) :
    valueRe.search (String.ofList token) =
      (concatResults tokenNodes token 0 [none, none, none]).head?.map fun success =>
        valueRe.materialize token ⟨0, success.2, success.1⟩ := by
  rw [valueRe_eq, Regex.search, searchFrom_anchored rfl, seen_ofList rfl]
  simp only [Regex.emptyCaptures, List.replicate, Option.map_map, String.toList_ofList]
  rfl

/-- **The pattern of a measurement**, where it finds nothing. -/
theorem not_keyValue_of_search {token : List Char} (hws : ∀ c ∈ token, Text.isWhitespace c = false)
    (hlen : token.length ≤ unbounded) (h : valueRe.search (String.ofList token) = none)
    (key value : List Char) : ¬ KeyValue token key value := by
  rw [valueRe_search, Option.map_eq_none_iff, List.head?_eq_none_iff] at h
  intro hkv
  obtain ⟨success, hmem⟩ := mem_of_keyValue hlen hws hkv [none, none, none]
  simp [h] at hmem

/-- **The pattern of a measurement**, where it finds one. -/
theorem keyValue_of_search {token : List Char} (hnl : '\n' ∉ token)
    (hlen : token.length ≤ unbounded) {found : Match}
    (h : valueRe.search (String.ofList token) = some found) :
    ∃ key value, KeyValue token key value ∧ found.named "key" = some (String.ofList key) ∧
      found.named "value" = some (String.ofList value) := by
  rw [valueRe_search, Option.map_eq_some_iff] at h
  obtain ⟨⟨c, e⟩, hhead, rfl⟩ := h
  obtain ⟨key, value, hkv, hkey, hvalue⟩ := keyValue_of_mem hnl hlen (List.mem_of_head? hhead)
  rw [valueRe_eq]
  refine ⟨key, value, hkv, ?_, ?_⟩
  · rw [named_materialize 0 rfl]
    exact hkey
  · rw [named_materialize 1 rfl]
    exact hvalue

end RtpMux.MandateCheck
