import RtpMux.Tools.JsonNumbers

/-!
# The codec of the report

`tools/json.rs`: a parser that keeps the members of an object in an ordered map, and three writers,
indented, compact, and compact for a list of members that may name a key twice. Each is the inverse
of the parser, whatever the depth of the value, and what is left of a text that one of them wrote
for an array, an object or a string is never read.
-/

namespace RtpMux.JsonCodec

open Text (isAsciiDigit)
open JsonTree JsonReader
open Numerals (parseI64)

variable {F : Type}

/-! ## The codec -/

/-- `BTreeMap::insert`, on the entries in the order of their keys. -/
def btreeInsert {V : Type} : List (String × V) → String → V → List (String × V)
  | [], key, value => [(key, value)]
  | (k, v) :: entries, key, value =>
    if key < k then (key, value) :: (k, v) :: entries
    else if key = k then (key, value) :: entries
    else (k, v) :: btreeInsert entries key value

/-- The parser of `json.rs`. -/
def json (floats : Floats F) : Dialect F where
  refusesControl := false
  insert := btreeInsert
  convert text isFloat :=
    if isFloat then (floats.parse text).map .float else (parseI64 text).map .int

/-- `format_float`. -/
def formatFloat (floats : Floats F) (value : F) : List Char :=
  if floats.isNan value then "NaN".toList
  else if floats.isInfinite value then
    if floats.isPositive value then "Infinity".toList else "-Infinity".toList
  else
    let text := floats.display value
    if text.contains '.' || text.contains 'e' || text.contains 'E' then text else text ++ ['.', '0']

/-- A character of `write_string`. -/
def writeChar (c : Char) : List Char :=
  match escapeLetter c with
  | some letter => ['\\', letter]
  | none => if c.toNat < 0x20 then ['\\', 'u'] ++ hex4 c.toNat else [c]

/-- How `json.rs` writes characters and floats. -/
def jsonStyle (floats : Floats F) : Style F := ⟨writeChar, formatFloat floats⟩

/-- A value of `json.rs`: the keys of each of its objects are in order, each once. -/
structure Json (F : Type) where
  value : Value F
  sorted : value.All (fun _ => True) (fun _ => True) fun keys => keys.Pairwise (· < ·)

/-- `parse`. -/
def parse (floats : Floats F) (text : String) : Except Error (Value F) := (json floats).parse text

/-- `to_string`. -/
def toString (floats : Floats F) (v : Json F) : String :=
  String.ofList ((jsonStyle floats).write (.indented 2) false v.value 0)

/-- `to_compact`. -/
def toCompact (floats : Floats F) (v : Json F) : String :=
  String.ofList ((jsonStyle floats).write .compact false v.value 0)

/-- `object_compact`. -/
def objectCompact (floats : Floats F) (members : List (String × Json F)) : String :=
  String.ofList (Layout.compact.bracketed 0 '{' '}'
    (members.map fun member =>
      (jsonStyle floats).member member.1
        ((jsonStyle floats).write .compact false member.2.value 1)))

/-! ## The ordered map -/

section

variable {V : Type}

/-- A key behind all others is appended. -/
theorem btreeInsert_append {entries : List (String × V)} {key : String}
    (h : ∀ e ∈ entries, e.1 < key) (value : V) :
    btreeInsert entries key value = entries ++ [(key, value)] := by
  induction entries with
  | nil => rfl
  | cons entry entries ih =>
    have hlt : entry.1 < key := h entry (by simp)
    rw [btreeInsert, if_neg (not_lt_of_gt hlt), if_neg (ne_of_gt hlt),
      ih fun e he => h e (List.mem_cons_of_mem _ he),
      List.cons_append]

/-- A map's insertion and its lookup. -/
theorem lookup_btreeInsert (entries : List (String × V)) (key : String) (value : V) (k : String) :
    (btreeInsert entries key value).lookup k = if k = key then some value
      else entries.lookup k := by
  induction entries with
  | nil =>
    by_cases hk : k = key
    · simp [btreeInsert, hk]
    · simp [btreeInsert, List.lookup_cons, hk, beq_false_of_ne hk]
  | cons entry entries ih =>
    obtain ⟨e, v⟩ := entry
    rw [btreeInsert]
    split
    · by_cases hk : k = key
      · simp [hk]
      · rw [List.lookup_cons, beq_false_of_ne hk, if_neg hk]
    · split
      · next heq =>
        subst heq
        by_cases hk : k = key
        · simp [hk]
        · rw [List.lookup_cons, List.lookup_cons, beq_false_of_ne hk, if_neg hk]
      · next hne =>
        by_cases hk : k = e
        · have hkey : k ≠ key := fun heq => hne (heq.symm.trans hk)
          simp [hk, hk ▸ hkey]
        · rw [List.lookup_cons, List.lookup_cons, beq_false_of_ne hk, ih]

/-- A map's insertion adds its key and no other. -/
theorem mem_keys_btreeInsert {entries : List (String × V)} {key : String} {value : V} {k : String}
    (h : k ∈ (btreeInsert entries key value).map Prod.fst) :
    k = key ∨ k ∈ entries.map Prod.fst := by
  induction entries with
  | nil => simpa [btreeInsert] using h
  | cons entry entries ih =>
    rw [btreeInsert] at h
    split at h
    · simpa using h
    · split at h
      · next heq =>
        rw [List.map_cons, List.mem_cons] at h
        rcases h with rfl | h
        · exact .inl rfl
        · exact .inr (List.mem_cons_of_mem _ h)
      · rw [List.map_cons, List.mem_cons] at h
        rcases h with rfl | h
        · exact .inr (by simp)
        · exact (ih h).imp_right (List.mem_cons_of_mem _)

/-- The keys of an ordered map. -/
def IsOrdered (entries : List (String × V)) : Prop := (entries.map Prod.fst).Pairwise (· < ·)

/-- A map's insertion keeps the order. -/
theorem isOrdered_btreeInsert {entries : List (String × V)} (h : IsOrdered entries) (key : String)
    (value : V) :
    IsOrdered (btreeInsert entries key value) := by
  induction entries with
  | nil => simp [btreeInsert, IsOrdered]
  | cons entry entries ih =>
    obtain ⟨e, v⟩ := entry
    rw [IsOrdered, List.map_cons, List.pairwise_cons] at h
    rw [btreeInsert]
    split
    · next hlt =>
      rw [IsOrdered, List.map_cons, List.map_cons, List.pairwise_cons, List.pairwise_cons]
      refine ⟨fun k hk => ?_, h⟩
      rcases List.mem_cons.1 hk with rfl | hk
      · exact hlt
      · exact lt_trans hlt (h.1 k hk)
    · split
      · next heq =>
        subst heq
        rw [IsOrdered, List.map_cons, List.pairwise_cons]
        exact h
      · next hge hne =>
        have hgt : e < key := lt_of_le_of_ne (not_lt.1 hge) (Ne.symm hne)
        rw [IsOrdered, List.map_cons, List.pairwise_cons]
        refine ⟨fun k hk => ?_, ih h.2⟩
        rcases mem_keys_btreeInsert hk with rfl | hk
        · exact hgt
        · exact h.1 k hk

end

/-- Entries in order are inserted one behind the other. -/
theorem insertAll_ordered (floats : Floats F) (entries more : List (String × Value F))
    (h : IsOrdered (entries ++ more)) :
    (json floats).insertAll entries more = entries ++ more := by
  induction more generalizing entries with
  | nil => simp [Dialect.insertAll]
  | cons entry more ih =>
    have hsplit : entries ++ entry :: more = (entries ++ [entry]) ++ more := by simp
    have hlt : ∀ e ∈ entries, e.1 < entry.1 := by
      intro e he
      rw [IsOrdered, List.map_append, List.pairwise_append] at h
      exact h.2.2 e.1 (List.mem_map_of_mem he) entry.1 (by simp)
    have hinsert : (json floats).insert entries entry.1 entry.2 = entries ++ [entry] :=
      btreeInsert_append hlt entry.2
    rw [hsplit] at h ⊢
    rw [← ih _ h, ← hinsert]
    rfl

/-- Members with ascending keys are kept as they are. -/
theorem keeps_json (floats : Floats F) : Keeps (json floats) fun keys => keys.Pairwise (· < ·) := by
  intro members hmembers
  exact insertAll_ordered floats [] members hmembers

/-! ## The writers and the parser -/

/-- Every character is written as an element that is read back. -/
theorem exists_element (floats : Floats F) (c : Char) :
    ∃ element : Element, element.text = writeChar c ∧
      (json floats).evalElement element = some c := by
  unfold writeChar
  cases hletter : escapeLetter c with
  | some letter => exact exists_shortElement (json floats) hletter
  | none =>
    dsimp only
    split
    · next hcontrol =>
      obtain ⟨element, htext, heval⟩ :=
        exists_unicodeElement (json floats) (show c.toNat < 2 ^ 16 by omega)
      exact ⟨element, htext, by rw [heval, charFromU32_toNat]⟩
    · exact ⟨.bare c (ordinary_of_escapeLetter hletter), rfl, by simp [Dialect.evalElement, json]⟩

/-- A written character is read back. -/
theorem elements_writeChar (floats : Floats F) (c : Char) :
    ∃ elements, elementsText elements = writeChar c ∧
    GivesWhen ((json floats).evalElements elements) True [c] := by
  obtain ⟨element, htext, heval⟩ := exists_element floats c
  refine ⟨[element], ?_, .of_holds trivial ?_⟩
  · simp [elementsText, htext]
  · simp [Dialect.evalElements, heval]

/-- A finite float is written as a numeral with a point or an exponent, and read back. -/
theorem exists_floatNumeral {floats : Floats F} (h : floats.DisplaysExactly) {x : F}
    (hx : floats.IsFinite x) :
    ∃ n : Numeral, n.text = formatFloat floats x ∧ (json floats).convert n.text (isFloat n) =
      some (.float x) := by
  obtain ⟨n, hdisplay, hdecimal, hnearest⟩ := h x hx
  have hformat : formatFloat floats x = if isFloat n then n.text else n.text ++ ['.', '0'] := by
    simp only [formatFloat, hx.1, hx.2, Bool.false_eq_true, if_false, hdisplay, contains_text]
  rw [hformat]
  cases hfloat : isFloat n with
  | true =>
    refine ⟨n, rfl, ?_⟩
    rw [hfloat]
    change (floats.parse n.text).map Value.float = _
    rw [Floats.parse_text, if_pos hdecimal, hnearest]
    rfl
  | false =>
    refine ⟨withPoint n, text_withPoint hfloat, ?_⟩
    change (floats.parse (withPoint n).text).map Value.float = _
    rw [Floats.parse_text, if_pos (isDecimal_withPoint hdecimal), magnitude_withPoint hfloat]
    change some (Value.float (floats.nearest n.negative (magnitude n))) = _
    rw [hnearest]

/-- What the writer writes the reader reads. -/
theorem reads_json {floats : Floats F} (h : floats.DisplaysExactly) :
    Reads (json floats) (jsonStyle floats) floats.IsFinite fun _ => True where
  char := elements_writeChar floats
  float _ hx := exists_floatNumeral h hx
  int value := by
    refine ⟨intNumeral value, text_intNumeral value, ?_⟩
    change (parseI64 (intNumeral value).text).map Value.int = _
    rw [text_intNumeral, parseI64_intText]
    rfl

/-- Every float of a value is finite. -/
def FiniteFloats (floats : Floats F) (value : Value F) : Prop :=
  value.All floats.IsFinite (fun _ => True) fun _ => True

/-- Insertions keep the order. -/
theorem isOrdered_insertAll (floats : Floats F) {entries : List (String × Value F)}
    (h : IsOrdered entries)
    (more : List (String × Value F)) : IsOrdered ((json floats).insertAll entries more) := by
  induction more generalizing entries with
  | nil => exact h
  | cons entry more ih => exact ih (isOrdered_btreeInsert h entry.1 entry.2)

/-- The last member of a key is the one in the map. -/
theorem lookup_insertAll (floats : Floats F) (entries more : List (String × Value F))
    (key : String) :
    ((json floats).insertAll entries more).lookup key =
      (more.reverse.lookup key).or (entries.lookup key) := by
  induction more generalizing entries with
  | nil => simp [Dialect.insertAll]
  | cons entry more ih =>
    obtain ⟨k, v⟩ := entry
    change ((json floats).insertAll (btreeInsert entries k v) more).lookup key = _
    rw [ih, lookup_btreeInsert, List.reverse_cons, List.lookup_append, Option.or_assoc]
    congr 1
    by_cases hkey : key = k
    · simp [hkey]
    · simp [hkey, List.lookup_cons, beq_false_of_ne hkey]

theorem lookup_values (members : List (String × Json F)) (key : String) :
    (members.map fun m => (m.1, m.2.value)).lookup key = (members.lookup key).map Json.value := by
  induction members with
  | nil => rfl
  | cons member members ih =>
    rw [List.map_cons, List.lookup_cons, List.lookup_cons, ih]
    cases key == member.1 <;> rfl

/-- A part of a text from its beginning on, and not all of it. -/
def IsProperPrefix (front text : String) : Prop := front.toList <+: text.toList ∧ front ≠ text

section

variable {floats : Floats F} (hdisplay : floats.DisplaysExactly)

include hdisplay

/-- A writer's text is that of a tree, which evaluates to the value. -/
theorem exists_tree (layout : Layout) (v : Json F) (hfinite : FiniteFloats floats v.value) :
    ∃ t : Tree, t.text = (jsonStyle floats).write layout false v.value 0 ∧
      (json floats).evalTree t = some v.value := by
  have hproper : v.value.All floats.IsFinite (fun _ => True) fun keys => keys.Pairwise (· < ·) :=
    Value.All.combine (fun _ hx _ => hx) (fun _ _ _ => trivial) (fun _ _ hkeys => hkeys) hfinite
      v.sorted
  obtain ⟨t, htext, hgives⟩ :=
    (reads_json hdisplay).value (keeps_json floats) layout v.value 0 hproper
  have hplain : v.value.Plain fun _ => True :=
    Value.all_of_forall (fun _ => trivial) (fun _ _ _ => trivial) (fun _ => trivial) v.value
  exact ⟨t, htext, hgives.gives hplain⟩

/-- A written value is read back. -/
theorem parse_written (layout : Layout) (v : Json F) (hfinite : FiniteFloats floats v.value) :
    parse floats (String.ofList ((jsonStyle floats).write layout false v.value 0)) =
      .ok v.value := by
  obtain ⟨t, htext, heval⟩ := exists_tree hdisplay layout v hfinite
  rw [parse, ← toOption_eq_some, ← htext, parse_text, heval]

/-- The entries of an ordered map of members, the last of each key. -/
theorem parse_objectCompact (members : List (String × Json F))
    (hfinite : ∀ m ∈ members, FiniteFloats floats m.2.value) :
    parse floats (objectCompact floats members) =
      .ok (.object ((json floats).insertAll [] (members.map fun m => (m.1, m.2.value)))) := by
  have hproper : Value.AllMembers floats.IsFinite (fun _ => True)
      (fun keys => keys.Pairwise (· < ·))
      (members.map fun m => (m.1, m.2.value)) := by
    rw [Value.allMembers_iff]
    intro member hmember
    obtain ⟨m, hm, rfl⟩ := List.mem_map.1 hmember
    refine ⟨trivial, ?_⟩
    exact Value.All.combine (fun _ hx _ => hx) (fun _ _ _ => trivial) (fun _ _ hkeys => hkeys)
      (hfinite m hm) m.2.sorted
  obtain ⟨pairs, htext, hgives⟩ :=
    (reads_json hdisplay).members (keeps_json floats) .compact
      (members.map fun m => (m.1, m.2.value)) 1 hproper
  have hplain := hgives.gives
    (Value.allMembers_of_forall (fun _ => trivial) (fun _ _ _ => trivial) (fun _ => trivial) _)
  have hwritten : objectCompact floats members =
      String.ofList (objectTree .compact 0 pairs).text := by
    rw [text_objectTree, htext, writeMembers_eq, List.map_map, List.map_map]
    rfl
  rw [hwritten, parse, ← toOption_eq_some, parse_text, Dialect.evalTree_objectTree, hplain]
  rfl

/-- **Round trip.** What `to_string` and `to_compact` write for a value with finite floats is read
as that value, and what `object_compact` writes for a list of members as the ordered map of them,
the last of each key. -/
theorem json_round_trip :
    (∀ v : Json F, FiniteFloats floats v.value →
      parse floats (toString floats v) = .ok v.value ∧
        parse floats (toCompact floats v) = .ok v.value) ∧
    ∀ members : List (String × Json F), (∀ m ∈ members, FiniteFloats floats m.2.value) →
      ∃ entries, parse floats (objectCompact floats members) = .ok (.object entries) ∧
        IsOrdered entries ∧
        ∀ key, entries.lookup key = (members.reverse.lookup key).map Json.value := by
  refine ⟨fun v hfinite => ⟨?_, ?_⟩,
    fun members hfinite => ⟨_, parse_objectCompact hdisplay members hfinite, ?_, ?_⟩⟩
  · exact parse_written hdisplay (.indented 2) v hfinite
  · exact parse_written hdisplay .compact v hfinite
  · exact isOrdered_insertAll floats (show IsOrdered [] from .nil) _
  · intro key
    rw [lookup_insertAll, ← List.map_reverse, lookup_values, List.lookup_nil, Option.or_none]

end

/-- A value with every kind of part. -/
def sample : Json Int :=
  ⟨.object [("a", .array [.int ⟨-7, by decide⟩, .float 3, .null]), ("b", .str "x\n")], by
    simp only [Value.All, Value.AllMembers, Value.AllItems, and_true, List.map_cons, List.map_nil]
    decide⟩

theorem finiteFloats_wholeFloats (value : Value Int) : FiniteFloats wholeFloats value :=
  Value.all_of_forall (fun _ => ⟨rfl, rfl⟩) (fun _ => trivial) (fun _ => trivial) value

/-- Over the floats that are whole numbers. -/
theorem json_round_trip_sample : wholeFloats.DisplaysExactly ∧
    FiniteFloats wholeFloats sample.value ∧
    toCompact wholeFloats sample = "\x7b\"a\": [-7, 3.0, null], \"b\": \"x\\n\"\x7d" ∧
    parse wholeFloats (toString wholeFloats sample) = .ok sample.value ∧
    parse wholeFloats (toCompact wholeFloats sample) = .ok sample.value ∧
    ∃ entries, parse wholeFloats (objectCompact wholeFloats [("a", sample), ("a", sample)]) =
      .ok (.object entries) ∧
      IsOrdered entries ∧ entries.lookup "a" = some sample.value := by
  obtain ⟨hvalues, hmembers⟩ := json_round_trip displaysExactly_wholeFloats
  obtain ⟨hstring, hcompact⟩ := hvalues sample (finiteFloats_wholeFloats _)
  obtain ⟨entries, hparse, hordered, hlookup⟩ :=
    hmembers [("a", sample), ("a", sample)] fun m _ => finiteFloats_wholeFloats m.2.value
  have hlast := hlookup "a"
  exact ⟨displaysExactly_wholeFloats, finiteFloats_wholeFloats _, by decide +kernel, hstring,
    hcompact, entries, hparse,
    hordered, hlast⟩

/-- **No truncated document.** No proper prefix of what is written for a string, an array or an
object is read. -/
theorem truncated_never_read {floats : Floats F} (hdisplay : floats.DisplaysExactly) (v : Json F)
    (hfinite : FiniteFloats floats v.value) (henclosed : v.value.isEnclosed = true)
    (front : String) (hfront : IsProperPrefix front (toString floats v) ∨
      IsProperPrefix front (toCompact floats v))
    (value : Value F) : parse floats front ≠ .ok value := by
  have hcut (layout : Layout)
      (h : IsProperPrefix front (String.ofList ((jsonStyle floats).write layout false v.value 0))) :
      parse floats front ≠ .ok value := by
    obtain ⟨t, htext, -⟩ := exists_tree hdisplay layout v hfinite
    obtain ⟨⟨cut, hsplit⟩, hne⟩ := h
    rw [String.toList_ofList, ← htext] at hsplit
    have hcut : cut ≠ [] := by
      rintro rfl
      rw [List.append_nil, htext] at hsplit
      exact hne (by rw [← hsplit, String.ofList_toList])
    obtain ⟨c, rest, hhead, hopens⟩ := write_enclosed (jsonStyle floats) layout henclosed 0
    rw [← htext] at hhead
    have hclosed : t.isClosed = true := by rw [← Tree.opensClosed_head hhead, hopens]
    have hnot := not_parse_cut (json floats) hclosed hsplit.symm hcut value
    rwa [String.ofList_toList] at hnot
  exact hfront.elim (hcut (.indented 2)) (hcut .compact)

/-- The sample without its last two characters. -/
theorem truncated_never_read_sample : sample.value.isEnclosed = true ∧
    IsProperPrefix "\x7b\"a\": [-7, 3.0, null], \"b\": \"x\\n" (toCompact wholeFloats sample) ∧
    ∀ value, parse wholeFloats "\x7b\"a\": [-7, 3.0, null], \"b\": \"x\\n" ≠ .ok value := by
  have hfront : IsProperPrefix "\x7b\"a\": [-7, 3.0, null], \"b\": \"x\\n"
      (toCompact wholeFloats sample) := by
    refine ⟨?_, ?_⟩
    · rw [← List.isPrefixOf_iff_prefix]
      decide +kernel
    · decide +kernel
  exact ⟨rfl, hfront,
    truncated_never_read displaysExactly_wholeFloats sample (finiteFloats_wholeFloats _) rfl _
    (.inr hfront)⟩

end RtpMux.JsonCodec
