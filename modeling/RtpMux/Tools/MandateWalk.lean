import RtpMux.Splits
import RtpMux.Tools.MandateGrammar

/-!
# No verdict line is dropped

The walk over the lines of an output, seen through what one line can do to it (`LineStep`): a line
that does not start like a verdict is skipped, one that does is refused with a problem or
recorded, and a recorded line brings problems of its own exactly when its measurements are wrong.
From it the invariant of the walk (`Walked`): the records are the first lines that name a declared
id, and there is no problem as long as every line that starts like a verdict is a good one.

A verdict line is one whose first token is `MANDATE`. The walk looks only at lines that begin with
the word directly, with a space behind it, so a line that is indented, or that has a tab where
the space should be, is a verdict line that leaves no trace (`verdict_lines_iff`).
-/

namespace RtpMux.MandateCheck

open Pyre (unbounded)

variable {V : Type} (coerceValue : String → V)

/-! ## What a line says -/

/-- The first whitespace-delimited token of the line is `MANDATE`. -/
def ClaimsVerdict (rawLine : List Char) : Prop :=
  (Text.splitWhitespace rawLine).head? = some "MANDATE".toList

/-- The line is grammatical and names `id`. -/
def Names (rawLine : List Char) (id : String) : Prop :=
  ∃ verdict tail, Verdict (Text.trimEnd rawLine) id.toList verdict tail

/-- At least one token, all of them measurements, and no key repeated. -/
def Measured (tail : List Char) : Prop :=
  Text.splitWhitespace tail ≠ [] ∧
    ∃ keys : List (List Char), keys.Nodup ∧
      List.Forall₂ (fun token key => ∃ value, KeyValue token key value)
        (Text.splitWhitespace tail) keys

/-- A verdict line without a problem, behind the lines `earlier`. -/
def Good (ids : List String) (earlier : List (List Char)) (rawLine : List Char) : Prop :=
  ∃ id ∈ ids, (∀ line ∈ earlier, ¬ Names line id) ∧
    ∃ verdict tail, Verdict (Text.trimEnd rawLine) id.toList verdict tail ∧ Measured tail

/-! ## The parts of a line are unique -/

/-- An identifier has no blank. -/
theorem space_not_mem_id {id : List Char} (h : Pyre.IsName Text.isAsciiAlphabetic wordChar id) :
    ' ' ∉ id := by
  obtain ⟨first, rest, rfl, hfirst, hrest⟩ := h
  intro hmem
  rcases List.mem_cons.1 hmem with rfl | hmem
  · exact absurd hfirst (by decide)
  · exact absurd (hrest ' ' hmem) (by decide)

/-- A line is read as a verdict in one way. -/
theorem Verdict.unique {line id verdict tail id' verdict' tail' : List Char}
    (h : Verdict line id verdict tail) (h' : Verdict line id' verdict' tail') :
    id = id' ∧ verdict = verdict' ∧ tail = tail' := by
  obtain ⟨hline, hid, hv, -⟩ := h
  obtain ⟨hline', hid', hv', -⟩ := h'
  have heq := List.append_cancel_left (hline.symm.trans hline')
  have hs : Text.splitOnce ' ' (id ++ ' ' :: (verdict ++ tail)) = some (id, verdict ++ tail) :=
    Text.splitOnce_eq_some_iff.2 ⟨space_not_mem_id hid, rfl⟩
  have hs' : Text.splitOnce ' ' (id ++ ' ' :: (verdict ++ tail)) = some (id', verdict' ++ tail') :=
    Text.splitOnce_eq_some_iff.2 ⟨space_not_mem_id hid', heq⟩
  rw [hs, Option.some.injEq, Prod.mk.injEq] at hs'
  have hlen {verdict : List Char} (hv : verdict = "PASS".toList ∨ verdict = "FAIL".toList) :
      verdict.length = 4 := by
    rcases hv with rfl | rfl <;> rfl
  obtain ⟨h₁, h₂⟩ := List.append_inj hs'.2 ((hlen hv).trans (hlen hv').symm)
  exact ⟨hs'.1, h₁, h₂⟩

/-- A token is read as a key and a value in one way. -/
theorem keyValue_key_unique {token key value key' value' : List Char}
    (h : KeyValue token key value) (h' : KeyValue token key' value') :
    key = key' ∧ value = value' := by
  have hnot {key : List Char} (hk : Pyre.IsName keyHead wordChar key) : '=' ∉ key := by
    obtain ⟨first, rest, rfl, hfirst, hrest⟩ := hk
    intro hmem
    rcases List.mem_cons.1 hmem with rfl | hmem
    · exact absurd hfirst (by decide)
    · exact absurd (hrest '=' hmem) (by decide)
  have hs := Text.splitOnce_eq_some_iff.2 ⟨hnot h.2.1, h.1⟩
  have hs' := Text.splitOnce_eq_some_iff.2 ⟨hnot h'.2.1, h'.1⟩
  simpa using hs.symm.trans hs'

/-! ## The measurements of a line -/

/-- What one token does: a measurement with a new key is appended, everything else is a problem. -/
inductive TokenStep (acc : List (String × V) × List String) (token : List Char) :
    List (String × V) × List String → Prop
  | measured {key value : List Char} (h : KeyValue token key value)
      (hnew : String.ofList key ∉ acc.1.map Prod.fst) (v : V) :
      TokenStep acc token (acc.1 ++ [(String.ofList key, v)], acc.2)
  | refused (problem : String)
      (h : ∀ key value, KeyValue token key value → String.ofList key ∈ acc.1.map Prod.fst) :
      TokenStep acc token (acc.1, acc.2 ++ [problem])

theorem lookup_isSome_iff {values : List (String × V)} {key : String} :
    (values.lookup key).isSome = true ↔ key ∈ values.map Prod.fst := by
  induction values with
  | nil => simp
  | cons entry rest ih =>
    obtain ⟨k, v⟩ := entry
    by_cases h : key = k
    · simp [h]
    · have : (key == k) = false := by simpa using h
      simp [List.lookup_cons, this, ih, h]

/-- What a token does to the values. -/
theorem parseValue_step (mandate : String) (lineNumber : Nat)
    (acc : List (String × V) × List String)
    {token : List Char} (hws : ∀ c ∈ token, Text.isWhitespace c = false)
    (hlen : token.length ≤ unbounded) :
    TokenStep acc token (parseValue coerceValue mandate lineNumber acc token) := by
  have hnl : '\n' ∉ token := fun h => absurd (hws _ h) (by decide)
  unfold parseValue
  cases hfound : valueRe.search (String.ofList token) with
  | none =>
    exact .refused _ fun key value h => absurd h (not_keyValue_of_search hws hlen hfound key value)
  | some found =>
    obtain ⟨key, value, hkv, hkey, -⟩ := keyValue_of_search hnl hlen hfound
    simp only [hkey, Option.getD_some]
    split
    · rename_i hrep
      have hseen (key' value' : List Char) (h : KeyValue token key' value') :
          String.ofList key' ∈ acc.1.map Prod.fst := by
        rw [(keyValue_key_unique h hkv).1]
        exact lookup_isSome_iff.1 hrep
      exact .refused _ hseen
    · rename_i hnew
      exact .measured hkv (fun h => hnew (lookup_isSome_iff.2 h)) _

/-- The tokens that are left bring no problem when they are measurements with new, distinct keys. -/
theorem parseValue_fold (mandate : String) (lineNumber : Nat) {tokens : List (List Char)}
    (hws : ∀ token ∈ tokens, ∀ c ∈ token, Text.isWhitespace c = false)
    (hlen : ∀ token ∈ tokens, token.length ≤ unbounded) (acc : List (String × V) × List String) :
    (tokens.foldl (parseValue coerceValue mandate lineNumber) acc).2 = [] ↔
      acc.2 = [] ∧ ∃ keys : List (List Char), keys.Nodup ∧
        (∀ key ∈ keys, String.ofList key ∉ acc.1.map Prod.fst) ∧
        List.Forall₂ (fun token key => ∃ value, KeyValue token key value) tokens keys := by
  induction tokens generalizing acc with
  | nil => simp
  | cons token rest ih =>
    simp only [List.mem_cons, forall_eq_or_imp] at hws hlen
    rw [List.foldl_cons, ih hws.2 hlen.2]
    have hstep := parseValue_step coerceValue mandate lineNumber acc hws.1 hlen.1
    generalize parseValue coerceValue mandate lineNumber acc token = next at hstep
    cases hstep with
    | @measured key value hkv hnew v =>
      refine and_congr_right fun _ => ?_
      constructor
      · rintro ⟨keys, hnodup, hfresh, hall⟩
        refine ⟨key :: keys, List.nodup_cons.2 ⟨fun hmem => ?_, hnodup⟩, ?_,
          .cons ⟨value, hkv⟩ hall⟩
        · exact absurd (hfresh key hmem) (by simp)
        · simp only [List.mem_cons, forall_eq_or_imp]
          exact ⟨hnew, fun k hk h => hfresh k hk (by simp [h])⟩
      · rintro ⟨keys, hnodup, hfresh, hall⟩
        cases hall with
        | @cons _ key' _ keys hfirst hall =>
          obtain ⟨value', hkv'⟩ := hfirst
          obtain rfl := (keyValue_key_unique hkv hkv').1
          simp only [List.mem_cons, forall_eq_or_imp] at hfresh
          obtain ⟨hnot, hnodup⟩ := List.nodup_cons.1 hnodup
          refine ⟨keys, hnodup, fun k hk hmem => ?_, hall⟩
          rw [List.map_append, List.mem_append] at hmem
          rcases hmem with hmem | hmem
          · exact hfresh.2 k hk hmem
          · have heq : k = key := String.ofList_injective (List.mem_singleton.1 hmem)
            exact hnot (heq ▸ hk)
    | refused problem h =>
      simp only [List.append_eq_nil_iff, List.cons_ne_nil, and_false, false_and, false_iff]
      rintro ⟨-, keys, -, hfresh, hall⟩
      cases hall with
      | cons hfirst hall =>
        obtain ⟨value, hkv⟩ := hfirst
        exact hfresh _ List.mem_cons_self (h _ value hkv)

/-- A token removes no value. -/
theorem TokenStep.values_ne_nil {acc next : List (String × V) × List String} {token : List Char}
    (h : TokenStep acc token next) (hacc : acc.1 ≠ []) : next.1 ≠ [] := by
  cases h with
  | measured _ _ _ => simp
  | refused _ _ => exact hacc

/-- The tokens remove no value. -/
theorem parseValue_fold_values (mandate : String) (lineNumber : Nat) {tokens : List (List Char)}
    (hws : ∀ token ∈ tokens, ∀ c ∈ token, Text.isWhitespace c = false)
    (hlen : ∀ token ∈ tokens, token.length ≤ unbounded) (acc : List (String × V) × List String)
    (hacc : acc.1 ≠ []) :
    (tokens.foldl (parseValue coerceValue mandate lineNumber) acc).1 ≠ [] := by
  induction tokens generalizing acc with
  | nil => exact hacc
  | cons token rest ih =>
    simp only [List.mem_cons, forall_eq_or_imp] at hws hlen
    have hstep := parseValue_step coerceValue mandate lineNumber acc hws.1 hlen.1
    rw [List.foldl_cons]
    exact ih hws.2 hlen.2 _ (hstep.values_ne_nil hacc)

/-- **The measurements of a line.** They bring no problem exactly when they are measured. -/
theorem parseValues_iff (mandate : String) {text : List Char} (lineNumber : Nat)
    (hlen : text.length ≤ unbounded) :
    (parseValues coerceValue mandate text lineNumber).2 = [] ↔ Measured text := by
  have hws : ∀ token ∈ Text.splitWhitespace text, ∀ c ∈ token, Text.isWhitespace c = false :=
    fun token h => Text.not_whitespace_of_mem_token h
  have hbound : ∀ token ∈ Text.splitWhitespace text, token.length ≤ unbounded :=
    fun token h => (Text.length_le_of_mem_token h).trans hlen
  have hfold := parseValue_fold coerceValue mandate lineNumber hws hbound ([], [])
  simp only [List.map_nil, List.not_mem_nil, not_false_eq_true, implies_true, true_and] at hfold
  unfold parseValues Measured
  rw [← hfold]
  by_cases hvalues : ((Text.splitWhitespace text).foldl
      (parseValue coerceValue mandate lineNumber) ([], [])).1 = []
  · simp only [hvalues, if_true]
    simp only [List.append_eq_nil_iff, List.cons_ne_nil, and_false, false_iff, not_and]
    intro hne hnone
    -- a first token without a problem leaves a value behind
    obtain ⟨token, rest, htokens⟩ := List.exists_cons_of_ne_nil hne
    rw [htokens] at hws hbound hvalues
    obtain ⟨keys, -, hall⟩ := hfold.1 hnone
    rw [htokens] at hall
    simp only [List.mem_cons, forall_eq_or_imp] at hws hbound
    rw [List.foldl_cons] at hvalues
    have hstep := parseValue_step coerceValue mandate lineNumber ([], []) hws.1 hbound.1
    refine parseValue_fold_values coerceValue mandate lineNumber hws.2 hbound.2 _ ?_ hvalues
    generalize parseValue coerceValue mandate lineNumber ([], []) token = next at hstep
    cases hstep with
    | measured _ _ _ => simp
    | refused _ h =>
      cases hall with
      | cons hfirst _ =>
        obtain ⟨value, hkv⟩ := hfirst
        exact absurd (h _ value hkv) (by simp)
  · simp only [hvalues, if_false]
    refine ⟨fun h => ⟨fun hnil => ?_, h⟩, And.right⟩
    rw [hnil] at hvalues
    exact hvalues rfl

/-! ## What one line does -/

/-- The steps of the walk. -/
inductive LineStep (ids : List String) (s : Parsed V) (rawLine : List Char) (lineNumber : Nat) :
    Parsed V → Prop
  /-- The line does not start like a verdict. -/
  | skipped (h : startsLikeVerdict (Text.trimEnd rawLine) = false) :
      LineStep ids s rawLine lineNumber s
  /-- Not grammatical, an id that is not declared, or one that has a record already. -/
  | refused (h : startsLikeVerdict (Text.trimEnd rawLine) = true)
      (hbad : ∀ id ∈ ids, Names rawLine id → (s.records.lookup id).isSome = true)
      (problem : String) :
      LineStep ids s rawLine lineNumber { s with problems := s.problems ++ [problem] }
  /-- A record, with the problems of its measurements. -/
  | recorded {id : String} {verdict tail : List Char}
      (h : startsLikeVerdict (Text.trimEnd rawLine) = true) (hid : id ∈ ids)
      (hnew : s.records.lookup id = none)
      (hv : Verdict (Text.trimEnd rawLine) id.toList verdict tail) {problems : List String}
      (hproblems : problems = [] ↔ Measured tail) :
      LineStep ids s rawLine lineNumber
        { records := s.records.insert id ⟨String.ofList verdict,
            (parseValues coerceValue id tail lineNumber).1, String.ofList (Text.trimEnd rawLine)⟩
          problems := s.problems ++ problems }

/-- What a verdict line does to the walk. -/
theorem parseVerdict_step (ids : List String) (s : Parsed V) {rawLine : List Char}
    (lineNumber : Nat) {id : String} {verdict tail valuesText : List Char}
    (hstart : startsLikeVerdict (Text.trimEnd rawLine) = true)
    (hv : Verdict (Text.trimEnd rawLine) id.toList verdict tail)
    (htokens : Text.splitWhitespace valuesText = Text.splitWhitespace tail)
    (hlen : tail.length ≤ unbounded) :
    LineStep coerceValue ids s rawLine lineNumber
      (parseVerdict coerceValue ids s id (String.ofList verdict) valuesText
        (Text.trimEnd rawLine) lineNumber) := by
  -- every reading of the line names this id
  have honly {id' : String} (hnames : Names rawLine id') : id' = id := by
    obtain ⟨verdict', tail', hv'⟩ := hnames
    exact String.toList_inj.1 (hv'.unique hv).1
  have hvalues : parseValues coerceValue id valuesText lineNumber =
      parseValues coerceValue id tail lineNumber := by
    unfold parseValues
    rw [htokens]
  unfold parseVerdict
  split
  · rename_i hnot
    exact .refused hstart (fun id' hmem hnames => absurd (honly hnames ▸ hmem) hnot) _
  · rename_i hmem
    split
    · rename_i hseen
      exact .refused hstart (fun id' _ hnames => honly hnames ▸ hseen) _
    · rename_i hnew
      rw [hvalues]
      exact .recorded hstart (not_not.1 hmem) (by simpa using hnew) hv
        (parseValues_iff coerceValue id lineNumber hlen)

/-- What a line does to the walk. -/
theorem parseMandateLine_step (ids : List String) (s : Parsed V) {rawLine : List Char}
    (lineNumber : Nat) (hlen : rawLine.length ≤ unbounded) :
    LineStep coerceValue ids s rawLine lineNumber
      (parseMandateLine coerceValue ids s rawLine lineNumber) := by
  have hnl' : ∀ text, Text.trimEnd rawLine ≠ text ++ ['\n'] :=
    fun text => Text.trimEnd_ne_append rawLine text rfl
  have hlen' := (Text.length_trimEnd_le rawLine).trans hlen
  simp only [parseMandateLine]
  cases hstart : startsLikeVerdict (Text.trimEnd rawLine) with
  | false =>
    simp only [Bool.not_false, if_true]
    exact .skipped hstart
  | true =>
    simp only [Bool.not_true, Bool.false_eq_true, if_false]
    cases hfound : mandateLineRe.search (String.ofList (Text.trimEnd rawLine)) with
    | none =>
      refine .refused hstart (fun id _ hnames => ?_) _
      obtain ⟨verdict, tail, hv⟩ := hnames
      exact absurd hv (not_verdict_of_search hlen' hfound id.toList verdict tail)
    | some found =>
      obtain ⟨id, verdict, tail, hv, hid, hverdict, htokens⟩ := verdict_of_search hnl' hlen' hfound
      have htail : tail.length ≤ unbounded := by
        have := congrArg List.length hv.1
        simp only [List.length_append] at this
        omega
      rw [← String.toList_ofList (l := id)] at hv
      simp only [hid, hverdict, Option.getD_some]
      exact parseVerdict_step coerceValue ids s lineNumber hstart hv htokens htail

/-! ## The walk -/

/-- The record of a line that names `id`. -/
def RecordOf (lineNumber : Nat) (rawLine : List Char) (id : String)
    (record : MandateRecord V) : Prop :=
  ∃ verdict tail, Verdict (Text.trimEnd rawLine) id.toList verdict tail ∧
    record = ⟨String.ofList verdict, (parseValues coerceValue id tail lineNumber).1,
      String.ofList (Text.trimEnd rawLine)⟩

/-- `record` is that of the first of the lines that names `id`. -/
def FirstRecord (lines : List (List Char)) (id : String) (record : MandateRecord V) : Prop :=
  ∃ earlier rawLine later, lines = earlier ++ rawLine :: later ∧
    (∀ line ∈ earlier, ¬ Names line id) ∧
    RecordOf coerceValue (earlier.length + 1) rawLine id record

/-- Every line that `claims` to be a verdict is a good one. -/
def AllGood (claims : List Char → Prop) (ids : List String) (lines : List (List Char)) : Prop :=
  ∀ earlier rawLine later, lines = earlier ++ rawLine :: later → claims rawLine →
    Good ids earlier rawLine

/-- What has been collected behind `lines`. -/
structure Walked (ids : List String) (lines : List (List Char)) (s : Parsed V) : Prop where
  records : ∀ id record, s.records.lookup id = some record ↔
    id ∈ ids ∧ FirstRecord coerceValue lines id record
  problems : s.problems = [] ↔
    AllGood (fun line => startsLikeVerdict (Text.trimEnd line) = true) ids lines

/-- A record's line names its mandate. -/
theorem RecordOf.names {lineNumber : Nat} {rawLine : List Char} {id : String}
    {record : MandateRecord V} (h : RecordOf coerceValue lineNumber rawLine id record) :
    Names rawLine id := by
  obtain ⟨verdict, tail, hv, -⟩ := h
  exact ⟨verdict, tail, hv⟩

theorem startsLikeVerdict_of_names {rawLine : List Char} {id : String} (h : Names rawLine id) :
    startsLikeVerdict (Text.trimEnd rawLine) = true := by
  obtain ⟨verdict, tail, hline, -⟩ := h
  rw [startsLikeVerdict, Bool.or_eq_true]
  right
  rw [List.isPrefixOf_iff_prefix, hline]
  exact List.prefix_append _ _

/-- A record is the first one, or that of the last line. -/
theorem firstRecord_append {lines : List (List Char)} {rawLine : List Char} {id : String}
    {record : MandateRecord V} :
    FirstRecord coerceValue (lines ++ [rawLine]) id record ↔
      FirstRecord coerceValue lines id record ∨
        ((∀ line ∈ lines, ¬ Names line id) ∧
          RecordOf coerceValue (lines.length + 1) rawLine id record) := by
  simp only [FirstRecord, append_singleton_eq_iff]
  constructor
  · rintro ⟨earlier, x, later, ⟨rfl, rfl, rfl⟩ | ⟨later', rfl, rfl⟩, hfirst, hrecord⟩
    · exact .inr ⟨hfirst, hrecord⟩
    · exact .inl ⟨earlier, x, later', rfl, hfirst, hrecord⟩
  · rintro (⟨earlier, x, later, rfl, hfirst, hrecord⟩ | ⟨hfirst, hrecord⟩)
    · exact ⟨earlier, x, later ++ [rawLine], .inr ⟨later, rfl, rfl⟩, hfirst, hrecord⟩
    · exact ⟨lines, rawLine, [], .inl ⟨rfl, rfl, rfl⟩, hfirst, hrecord⟩

/-- All lines are good, and the last one. -/
theorem allGood_append {claims : List Char → Prop} {ids : List String} {lines : List (List Char)}
    {rawLine : List Char} :
    AllGood claims ids (lines ++ [rawLine]) ↔
      AllGood claims ids lines ∧ (claims rawLine → Good ids lines rawLine) := by
  simp only [AllGood, append_singleton_eq_iff]
  constructor
  · intro h
    exact ⟨fun earlier x later hl => h earlier x (later ++ [rawLine]) (.inr ⟨later, rfl, hl⟩),
      h lines rawLine [] (.inl ⟨rfl, rfl, rfl⟩)⟩
  · rintro ⟨h, hlast⟩ earlier x later (⟨rfl, rfl, rfl⟩ | ⟨later', rfl, hl⟩)
    · exact hlast
    · exact h earlier x later' hl

/-- A declared id has a record exactly when some line names it. -/
theorem Walked.lookup_isSome {ids : List String} {lines : List (List Char)} {s : Parsed V}
    (h : Walked coerceValue ids lines s) {id : String} (hid : id ∈ ids) :
    (s.records.lookup id).isSome = true ↔ ∃ line ∈ lines, Names line id := by
  rw [Option.isSome_iff_exists]
  constructor
  · rintro ⟨record, hr⟩
    obtain ⟨-, earlier, rawLine, later, rfl, -, hrecord⟩ := (h.records id record).1 hr
    exact ⟨rawLine, by simp, hrecord.names⟩
  · intro hex
    obtain ⟨earlier, rawLine, later, rfl, hfirst, verdict, tail, hv⟩ := exists_first hex
    exact ⟨_, (h.records id _).2 ⟨hid, earlier, rawLine, later, rfl, hfirst, verdict, tail,
      hv, rfl⟩⟩

/-- **One line keeps the invariant.** -/
theorem Walked.step {ids : List String} {lines : List (List Char)} {s s' : Parsed V}
    {rawLine : List Char} (h : Walked coerceValue ids lines s)
    (hstep : LineStep coerceValue ids s rawLine (lines.length + 1) s') :
    Walked coerceValue ids (lines ++ [rawLine]) s' := by
  cases hstep with
  | skipped hstart =>
    have hnot (id : String) : ¬ Names rawLine id := fun hn => by
      rw [startsLikeVerdict_of_names hn] at hstart
      exact absurd hstart (by decide)
    constructor
    · intro id record
      rw [h.records, firstRecord_append]
      refine and_congr_right fun _ => (or_iff_left fun hr => hnot id hr.2.names).symm
    · rw [h.problems, allGood_append]
      simp [hstart]
  | refused hstart hbad problem =>
    -- a declared id that this line names has been named before
    have hearlier {id : String} (hid : id ∈ ids) (hn : Names rawLine id) :
        ∃ line ∈ lines, Names line id :=
      (h.lookup_isSome coerceValue hid).1 (hbad id hid hn)
    constructor
    · intro id record
      rw [h.records, firstRecord_append]
      refine and_congr_right fun hid => (or_iff_left fun hr => ?_).symm
      obtain ⟨line, hmem, hn⟩ := hearlier hid hr.2.names
      exact hr.1 line hmem hn
    · rw [allGood_append]
      simp only [List.append_eq_nil_iff, List.cons_ne_nil, and_false, hstart, forall_const,
        false_iff,
        not_and]
      rintro - ⟨id, hid, hfirst, verdict, tail, hv, -⟩
      obtain ⟨line, hmem, hn⟩ := hearlier hid ⟨verdict, tail, hv⟩
      exact hfirst line hmem hn
  | @recorded id₀ verdict tail hstart hid hnew hv problems hproblems =>
    have hfirst : ∀ line ∈ lines, ¬ Names line id₀ := by
      intro line hmem hn
      have := (h.lookup_isSome coerceValue hid).2 ⟨line, hmem, hn⟩
      simp [hnew] at this
    have honly {id : String} (hn : Names rawLine id) : id = id₀ := by
      obtain ⟨verdict', tail', hv'⟩ := hn
      exact String.toList_inj.1 (hv'.unique hv).1
    constructor
    · intro id record
      rw [HashMap.lookup_insert_eq, firstRecord_append]
      by_cases hne : id = id₀
      · subst hne
        rw [if_pos rfl]
        have hnone : ¬ FirstRecord coerceValue lines id record := fun hr => by
          have := (h.records id record).2 ⟨hid, hr⟩
          simp [hnew] at this
        constructor
        · intro heq
          exact ⟨hid, .inr ⟨hfirst, verdict, tail, hv, (Option.some.inj heq).symm⟩⟩
        · rintro ⟨-, hr | ⟨-, verdict', tail', hv', rfl⟩⟩
          · exact absurd hr hnone
          · obtain ⟨-, rfl, rfl⟩ := hv.unique hv'
            rfl
      · rw [if_neg hne, h.records]
        exact and_congr_right fun _ => (or_iff_left fun hr => hne (honly hr.2.names)).symm
    · rw [List.append_eq_nil_iff, h.problems, allGood_append, hproblems]
      refine and_congr_right fun _ => ?_
      simp only [hstart, forall_const]
      constructor
      · intro hm
        exact ⟨id₀, hid, hfirst, verdict, tail, hv, hm⟩
      · rintro ⟨id, -, -, verdict', tail', hv', hm⟩
        obtain ⟨-, -, rfl⟩ := hv'.unique hv
        exact hm

/-- The last line comes last. -/
theorem parseMandateLinesFrom_append (ids : List String) (s : Parsed V) (lineNumber : Nat)
    (lines : List (List Char)) (rawLine : List Char) :
    parseMandateLinesFrom coerceValue ids s lineNumber (lines ++ [rawLine]) =
      parseMandateLine coerceValue ids (parseMandateLinesFrom coerceValue ids s lineNumber lines)
        rawLine (lineNumber + lines.length) := by
  induction lines generalizing s lineNumber with
  | nil => rfl
  | cons line rest ih =>
    rw [List.cons_append, parseMandateLinesFrom, ih, parseMandateLinesFrom, List.length_cons,
      Nat.add_right_comm, Nat.add_assoc]

/-- **The whole walk.** -/
theorem walked (ids : List String) {lines : List (List Char)}
    (hlines : ∀ line ∈ lines, line.length ≤ unbounded) :
    Walked coerceValue ids lines (parseMandateLinesFrom coerceValue ids ⟨∅, []⟩ 1 lines) := by
  induction lines using List.reverseRecOn with
  | nil =>
    constructor
    · intro id record
      simp [parseMandateLinesFrom, FirstRecord]
    · simp [parseMandateLinesFrom, AllGood]
  | append_singleton lines rawLine ih =>
    rw [parseMandateLinesFrom_append, Nat.add_comm]
    exact (ih fun line hmem => hlines line (by simp [hmem])).step coerceValue
      (parseMandateLine_step coerceValue ids _ _ (hlines rawLine (by simp)))

/-! ## The lines of a text -/

theorem length_le_of_mem_pySplitlinesFrom (current rest : List Char) :
    ∀ line ∈ pySplitlinesFrom current rest, line.length ≤ current.length + rest.length := by
  fun_induction pySplitlinesFrom current rest with
  | case1 => simp
  | case2 current => simp
  | case3 current rest ih =>
    intro line hmem
    rcases List.mem_cons.1 hmem with rfl | hmem
    · omega
    · have hlen := ih line hmem
      simp only [List.length_nil, List.length_cons] at hlen ⊢
      omega
  | case4 current c rest _ _ ih =>
    intro line hmem
    rcases List.mem_cons.1 hmem with rfl | hmem
    · omega
    · have hlen := ih line hmem
      simp only [List.length_nil, List.length_cons] at hlen ⊢
      omega
  | case5 current c rest _ _ ih =>
    intro line hmem
    have hlen := ih line hmem
    simp only [List.length_append, List.length_cons, List.length_nil] at hlen ⊢
    omega

theorem length_le_of_mem_pySplitlines (text : Str) :
    ∀ line ∈ pySplitlines text.1.toList, line.length ≤ unbounded := by
  intro line hmem
  have hlen := length_le_of_mem_pySplitlinesFrom [] text.1.toList line hmem
  have := text.2
  simp only [List.length_nil, unbounded] at hlen ⊢
  omega

/-- A line that starts like a verdict claims to be one. -/
theorem claimsVerdict_of_starts {rawLine : List Char}
    (h : startsLikeVerdict (Text.trimEnd rawLine) = true) : ClaimsVerdict rawLine := by
  have hword : Text.splitWhitespace "MANDATE".toList = ["MANDATE".toList] := by decide +kernel
  unfold ClaimsVerdict
  rw [← Text.splitWhitespace_trimEnd]
  simp only [startsLikeVerdict, Bool.or_eq_true, decide_eq_true_eq, List.isPrefixOf_iff_prefix] at h
  rcases h with h | ⟨rest, h⟩
  · rw [h, hword]
    rfl
  · have hspace : "MANDATE ".toList ++ rest = "MANDATE".toList ++ ' ' :: rest := by
      have : "MANDATE ".toList = "MANDATE".toList ++ [' '] := by decide +kernel
      rw [this, List.append_assoc, List.singleton_append]
    rw [← h, hspace, Text.splitWhitespace_append_cons (by decide), hword]
    rfl

/-! ## Lines that are not dropped -/

/-- A line took the walk from `s` to `s'` with a new record or a new problem. -/
def Yields (s s' : Parsed V) : Prop :=
  (∃ id record, s.records.lookup id = none ∧ s'.records.lookup id = some record) ∨
    s.problems.length < s'.problems.length

/-- Every line that claims a verdict yields a record or a problem. -/
def NoLineDropped (ids : List String) (lines : List (List Char)) : Prop :=
  ∀ earlier rawLine later, lines = earlier ++ rawLine :: later → ClaimsVerdict rawLine →
    Yields (parseMandateLinesFrom coerceValue ids ⟨∅, []⟩ 1 earlier)
      (parseMandateLinesFrom coerceValue ids ⟨∅, []⟩ 1 (earlier ++ [rawLine]))

/-- A line that does not start like a verdict is skipped. -/
theorem parseMandateLine_skip (ids : List String) (s : Parsed V) {rawLine : List Char}
    (lineNumber : Nat) (h : ¬ startsLikeVerdict (Text.trimEnd rawLine) = true) :
    parseMandateLine coerceValue ids s rawLine lineNumber = s := by
  simp only [parseMandateLine, h, Bool.not_false, if_true]

theorem not_yields_self (s : Parsed V) : ¬ Yields s s := by
  rintro (⟨id, record, hnone, hsome⟩ | hlt)
  · simp [hnone] at hsome
  · omega

/-- A line that starts like a verdict yields something. -/
theorem LineStep.yields {ids : List String} {s s' : Parsed V} {rawLine : List Char}
    {lineNumber : Nat}
    (h : LineStep coerceValue ids s rawLine lineNumber s')
    (hstart : startsLikeVerdict (Text.trimEnd rawLine) = true) : Yields s s' := by
  cases h with
  | skipped hnot => exact absurd hstart (by simp [hnot])
  | refused _ _ problem => exact .inr (by simp)
  | @recorded id _ _ _ _ hnew _ _ _ =>
    exact .inl ⟨id, _, hnew, by rw [HashMap.lookup_insert_eq, if_pos rfl]⟩

/-- The walk drops no verdict line, its records are the first lines that name the declared ids, and
it has no problem exactly when every verdict line is good. -/
structure WalkMeets (text : String) (ids : List String) : Prop where
  yields : NoLineDropped coerceValue ids (pySplitlines text.toList)
  records : ∀ id record, (parseMandateLines coerceValue text ids).records.lookup id = some record ↔
    id ∈ ids ∧ FirstRecord coerceValue (pySplitlines text.toList) id record
  problems : (parseMandateLines coerceValue text ids).problems = [] ↔
    AllGood ClaimsVerdict ids (pySplitlines text.toList)

/-- **Verdict lines.** The walk over an output does all of this exactly when every line whose first
token is `MANDATE` begins with that word directly, and nothing but a space follows it. -/
theorem verdict_lines_iff (text : Str) (ids : List String) :
    WalkMeets coerceValue text.1 ids ↔
      ∀ rawLine ∈ pySplitlines text.1.toList, ClaimsVerdict rawLine →
        Text.trimEnd rawLine = "MANDATE".toList ∨ "MANDATE ".toList <+: Text.trimEnd rawLine := by
  have hstarts (rawLine : List Char) : startsLikeVerdict (Text.trimEnd rawLine) = true ↔
      Text.trimEnd rawLine = "MANDATE".toList ∨ "MANDATE ".toList <+: Text.trimEnd rawLine := by
    simp only [startsLikeVerdict, Bool.or_eq_true, decide_eq_true_eq, List.isPrefixOf_iff_prefix]
  simp only [← hstarts]
  have hlines := length_le_of_mem_pySplitlines text
  have hwalked := walked coerceValue ids hlines
  constructor
  · -- a line that is passed by leaves the state as it is
    intro h rawLine hmem hclaims
    by_contra hnot
    obtain ⟨earlier, later, hsplit⟩ := List.append_of_mem hmem
    have hyield := h.yields earlier rawLine later hsplit hclaims
    rw [parseMandateLinesFrom_append, parseMandateLine_skip coerceValue ids _ _ hnot] at hyield
    exact not_yields_self _ hyield
  · intro h
    refine ⟨?_, hwalked.records, ?_⟩
    · intro earlier rawLine later hsplit hclaims
      have hmem : rawLine ∈ pySplitlines text.1.toList := by simp [hsplit]
      rw [parseMandateLinesFrom_append]
      exact (parseMandateLine_step coerceValue ids _ _ (hlines rawLine hmem)).yields coerceValue
        (h rawLine hmem hclaims)
    · refine hwalked.problems.trans ⟨fun hgood earlier rawLine later hsplit hclaims => ?_,
        fun hgood earlier rawLine later hsplit hstart => ?_⟩
      · exact hgood earlier rawLine later hsplit (h rawLine (by simp [hsplit]) hclaims)
      · exact hgood earlier rawLine later hsplit (claimsVerdict_of_starts hstart)

/-- A tab behind the word: the line claims a verdict and leaves no trace. -/
theorem tabbed_verdict_dropped :
    ¬ WalkMeets (fun value => value) "MANDATE\tM1 PASS a=1" ["M1"] := by
  intro h
  have hlines : pySplitlines "MANDATE\tM1 PASS a=1".toList = ["MANDATE\tM1 PASS a=1".toList] := by
    decide +kernel
  have hclaims : ClaimsVerdict "MANDATE\tM1 PASS a=1".toList := by
    unfold ClaimsVerdict
    decide +kernel
  have hyield := h.yields [] _ [] hlines hclaims
  rw [parseMandateLinesFrom_append, parseMandateLine_skip _ _ _ _ (by decide +kernel)] at hyield
  exact not_yields_self _ hyield

end RtpMux.MandateCheck
