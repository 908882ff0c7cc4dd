import RtpMux.Tools.JsonCodec
import RtpMux.Tools.PyJsonCanonical
import RtpMux.Tools.PyJsonGrammar

/-!
# The two JSON readers (`tools/json.rs`, `tools/pyjson.rs`)

Both read the same trees. `pyjson.rs` refuses more of them, keeps a member where its key stood
first, and falls back to a float for an integer that no `i64` holds; `json.rs` keeps members in the
order of their keys. What the first reads without that fallback the second reads as the same value
with its members sorted.
-/

namespace RtpMux.JsonAgreement

open JsonTree JsonReader
open Text (isAsciiDigit)
open JsonCodec (json btreeInsert IsOrdered isOrdered_btreeInsert)
open Numerals (readInt parseI64)
open Pyjson (pyjson insertFirst)

/-! ## Objects -/

section Insert

variable {V : Type}

/-- A map's insertion replaces the entry of its key. -/
theorem btreeInsert_perm {entries : List (String × V)} (h : IsOrdered entries) (key : String)
    (value : V) :
    (btreeInsert entries key value).Perm ((key, value) :: entries.filter fun e => e.1 ≠ key) := by
  induction entries with
  | nil => exact .refl _
  | cons entry entries ih =>
    obtain ⟨e, v⟩ := entry
    rw [IsOrdered, List.map_cons, List.pairwise_cons] at h
    have hbehind : ∀ e' ∈ entries, e < e'.1 := fun e' he' => h.1 e'.1 (List.mem_map_of_mem he')
    have hkeep (hle : key ≤ e) : entries.filter (fun e => e.1 ≠ key) = entries := by
      rw [List.filter_eq_self]
      intro e' he'
      exact decide_eq_true (ne_of_gt (lt_of_le_of_lt hle (hbehind e' he')))
    rw [btreeInsert]
    split
    · next hlt =>
      rw [List.filter_cons_of_pos (by simpa using ne_of_gt hlt), hkeep hlt.le]
    · split
      · next heq =>
        rw [List.filter_cons_of_neg (by simpa using heq.symm), hkeep heq.le]
      · next hne =>
        rw [List.filter_cons_of_pos (by simpa using Ne.symm hne)]
        exact ((ih h.2).cons _).trans (.swap _ _ _)

/-- A dictionary's insertion replaces the entry of its key. -/
theorem insertFirst_perm {members : List (String × V)} (h : (members.map Prod.fst).Nodup)
    (key : String) (value : V) :
    (insertFirst members key value).Perm ((key, value) :: members.filter fun m => m.1 ≠ key) := by
  induction members with
  | nil => exact .refl _
  | cons member members ih =>
    obtain ⟨name, v⟩ := member
    rw [List.map_cons, List.nodup_cons] at h
    rw [insertFirst]
    split
    · next heq =>
      have hkeep : members.filter (fun m => m.1 ≠ key) = members := by
        rw [List.filter_eq_self]
        intro m hm
        refine decide_eq_true fun hkey => h.1 ?_
        rw [heq, ← hkey]
        exact List.mem_map.mpr ⟨m, hm, rfl⟩
      rw [List.filter_cons_of_neg (by simpa using heq), hkeep, heq]
    · next hne =>
      rw [List.filter_cons_of_pos (by simpa using hne)]
      exact ((ih h.2).cons _).trans (.swap _ _ _)

/-- A dictionary's insertion keeps the keys distinct. -/
theorem nodup_insertFirst {members : List (String × V)} (h : (members.map Prod.fst).Nodup)
    (key : String) (value : V) :
    ((insertFirst members key value).map Prod.fst).Nodup := by
  rw [((insertFirst_perm h key value).map Prod.fst).nodup_iff, List.map_cons, List.nodup_cons]
  refine ⟨?_, h.sublist ((List.filter_sublist).map _)⟩
  simp

/-- A dictionary's insertion commutes with a map of the values. -/
theorem insertFirst_map {W : Type} (f : V → W) (members : List (String × V)) (key : String)
    (value : V) :
    (insertFirst members key value).map (fun m => (m.1, f m.2)) =
      insertFirst (members.map fun m => (m.1, f m.2)) key (f value) := by
  induction members with
  | nil => rfl
  | cons member members ih =>
    rw [List.map_cons, insertFirst, insertFirst]
    split
    · rfl
    · rw [List.map_cons, ih]

/-- Entries in the order of their keys, each once. -/
theorem isOrdered_ordered {entries : List (String × V)} (h : (entries.map Prod.fst).Nodup) :
    IsOrdered (ordered true entries) := by
  have hnodup : ((ordered true entries).map Prod.fst).Nodup :=
    ((perm_ordered true entries).map Prod.fst).nodup_iff.mpr h
  have hle : ((ordered true entries).map Prod.fst).Pairwise (· ≤ ·) :=
    List.pairwise_map.mpr (pairwise_ordered entries)
  exact hle.imp₂ (fun _ _ hle hne => lt_of_le_of_ne hle hne) hnodup

/-- Sorting what is sorted does nothing. -/
theorem ordered_of_isOrdered {entries : List (String × V)} (h : IsOrdered entries) :
    ordered true entries = entries := by
  have hle : entries.Pairwise fun a b => a.1 ≤ b.1 := (List.pairwise_map.mp h).imp le_of_lt
  exact hle.insertionSort_eq

/-- The two containers hold the same after an insertion. -/
theorem btreeInsert_ordered {members : List (String × V)} (h : (members.map Prod.fst).Nodup)
    (key : String)
    (value : V) : btreeInsert (ordered true members) key value = ordered true
    (insertFirst members key value) := by
  have hordered := isOrdered_ordered h
  have hperm : (btreeInsert (ordered true members) key value).Perm
      (insertFirst members key value) := by
    refine (btreeInsert_perm hordered key value).trans
      (.trans ?_ (insertFirst_perm h key value).symm)
    exact ((perm_ordered true members).filter _).cons _
  rw [← ordered_of_isOrdered (isOrdered_btreeInsert hordered key value)]
  exact ordered_perm hperm (nodup_insertFirst h key value)

end Insert

variable {F : Type}

/-- Inserting members into a map or into a dictionary comes to the same, once it is sorted. -/
theorem insertAll_agree (floats : Floats F) (members more : List (String × Value F))
    (h : (members.map Prod.fst).Nodup) :
    (json floats).insertAll (ordered true (Value.orderedMembers true members))
      (Value.orderedMembers true more) =
      ordered true (Value.orderedMembers true ((pyjson floats).insertAll members more)) := by
  induction more generalizing members with
  | nil => rfl
  | cons member more ih =>
    obtain ⟨key, value⟩ := member
    have hkeys : ((Value.orderedMembers true members).map Prod.fst).Nodup := by
      rw [map_fst_orderedMembers]
      exact h
    have hinsert : btreeInsert (ordered true (Value.orderedMembers true members)) key
        (value.ordered true) =
        ordered true (Value.orderedMembers true (insertFirst members key value)) := by
      rw [btreeInsert_ordered hkeys, orderedMembers_eq, orderedMembers_eq,
        insertFirst_map (fun value : Value F => value.ordered true)]
    have hnext := ih (insertFirst members key value) (nodup_insertFirst h key value)
    rw [← hinsert] at hnext
    exact hnext

/-! ## Strings and numbers -/

/-- An element that the one reader takes the other takes alike. -/
theorem evalElement_agree {floats : Floats F} {element : Element} {c : Char}
    (h : (pyjson floats).evalElement element = some c) :
    (json floats).evalElement element = some c := by
  cases element with
  | bare character hbare =>
    simp only [Dialect.evalElement, json, Bool.false_eq_true, false_and, if_false]
    simp only [Dialect.evalElement] at h
    split at h
    · cases h
    · exact h
  | short _ _ | unicode _ _ _ _ => exact h

/-- Elements that the one reader takes the other takes alike. -/
theorem evalElements_agree {floats : Floats F} {elements : List Element} {text : List Char}
    (h : (pyjson floats).evalElements elements = some text) :
    (json floats).evalElements elements = some text := by
  induction elements generalizing text with
  | nil => exact h
  | cons element elements ih =>
    rw [Dialect.evalElements, Option.bind_eq_some_iff] at h
    obtain ⟨c, hc, hrest⟩ := h
    obtain ⟨more, hmore, rfl⟩ := Option.map_eq_some_iff.mp hrest
    rw [Dialect.evalElements, evalElement_agree hc, Option.bind_some, ih hmore, Option.map_some]

/-- A name that the one reader takes the other takes alike. -/
theorem evalName_agree {floats : Floats F} {name : Name} {key : String}
    (h : (pyjson floats).evalName name = some key) : (json floats).evalName name = some key := by
  obtain ⟨text, htext, rfl⟩ := Option.map_eq_some_iff.mp h
  rw [Dialect.evalName, evalElements_agree htext, Option.map_some]

/-- An `i64` holds the numeral, if it is an integer. -/
def FitsI64 (n : Numeral) : Prop := isFloat n = false → ∀ k, readInt n.text = some k → -2 ^ 63 ≤ k ∧
    k < 2 ^ 63

/-- A numeral that fits is converted alike. -/
theorem convert_agree {floats : Floats F} {n : Numeral} (hfits : FitsI64 n) {value : Value F}
    (h : (pyjson floats).convert n.text (isFloat n) = some value) :
    (json floats).convert n.text (isFloat n) = some (value.ordered true) := by
  cases hfloat : isFloat n with
  | true =>
    rw [hfloat] at h
    obtain ⟨x, hx, rfl⟩ := Option.map_eq_some_iff.mp h
    exact Option.map_eq_some_iff.mpr ⟨x, hx, rfl⟩
  | false =>
    -- a sign without digits is refused by both
    have hdecimal : IsDecimal n := by
      by_contra hnot
      rw [Pyjson.convert_text, if_neg hnot] at h
      cases h
    have hread := readInt_signed n.negative n.whole ((Pyjson.isDecimal_iff hfloat).1 hdecimal)
    rw [← Pyjson.text_of_whole hfloat] at hread
    have hparse : ∃ k, parseI64 n.text = some k :=
      ⟨⟨_, hfits hfloat _ hread⟩, by rw [parseI64, hread, Option.bind_some,
        dif_pos (hfits hfloat _ hread)]⟩
    obtain ⟨k, hk⟩ := hparse
    simp only [pyjson, hfloat, Bool.false_eq_true, if_false, hk, Option.some.injEq] at h
    simp only [json, Bool.false_eq_true, if_false, hk, Option.map_some, ← h]
    rfl

/-! ## Trees -/

theorem fits_of_append {P : Numeral → Prop} {tokens more : List Token}
    (h : ∀ n, Token.number n ∈ tokens ++ more → P n) :
    (∀ n, Token.number n ∈ tokens → P n) ∧ ∀ n, Token.number n ∈ more → P n :=
  ⟨fun n hn => h n (List.mem_append_left _ hn), fun n hn => h n (List.mem_append_right _ hn)⟩

mutual

/-- A tree that the one reader takes the other takes alike, up to the order of its members. -/
theorem evalTree_agree {floats : Floats F} :
    (t : Tree) → (∀ n, Token.number n ∈ t.tokens → FitsI64 n) →
    ∀ {value : Value F}, (pyjson floats).evalTree t = some value →
      (json floats).evalTree t = some (value.ordered true)
  | .word .null, _, _, h | .word .true, _, _, h | .word .false, _, _, h => by
    cases h
    rfl
  | .str elements, _, _, h => by
    obtain ⟨text, htext, rfl⟩ := Option.map_eq_some_iff.mp h
    rw [Dialect.evalTree, evalElements_agree htext]
    rfl
  | .number n, hfits, _, h => convert_agree (hfits n List.mem_cons_self) h
  | .emptyArray _, _, _, h => by
    cases h
    rfl
  | .array items, hfits, _, h => by
    obtain ⟨values, hvalues, rfl⟩ := Option.map_eq_some_iff.mp h
    rw [Dialect.evalTree, evalItems_agree items hfits hvalues]
    rfl
  | .emptyObject _, _, _, h => by
    cases h
    rfl
  | .object members, hfits, _, h => by
    obtain ⟨values, hvalues, rfl⟩ := Option.map_eq_some_iff.mp h
    rw [Dialect.evalTree, evalMembers_agree members hfits hvalues, Option.map_some]
    exact congrArg (fun members => some (Value.object members))
      (insertAll_agree floats [] values List.nodup_nil)

/-- Items that the one reader takes the other takes alike. -/
theorem evalItems_agree {floats : Floats F} :
    (items : Items) → (∀ n, Token.number n ∈ items.tokens → FitsI64 n) →
    ∀ {values : List (Value F)}, (pyjson floats).evalItems items = some values →
      (json floats).evalItems items = some (Value.orderedItems true values)
  | .last before item after, hfits, _, h => by
    obtain ⟨value, hvalue, rfl⟩ := Option.map_eq_some_iff.mp h
    have hitem := (@fits_of_append _ (.blank before :: item.tokens) _ hfits).1
    rw [Dialect.evalItems,
      evalTree_agree item (fun n hn => hitem n (List.mem_cons_of_mem _ hn)) hvalue]
    rfl
  | .cons before item after items, hfits, _, h => by
    rw [Dialect.evalItems, Option.bind_eq_some_iff] at h
    obtain ⟨value, hvalue, hrest⟩ := h
    obtain ⟨values, hvalues, rfl⟩ := Option.map_eq_some_iff.mp hrest
    obtain ⟨hitem, hitems⟩ := @fits_of_append _ (.blank before :: item.tokens) _ hfits
    rw [Dialect.evalItems,
      evalTree_agree item (fun n hn => hitem n (List.mem_cons_of_mem _ hn)) hvalue,
      Option.bind_some, evalItems_agree items (fun n hn => hitems n (List.mem_cons_of_mem _ hn))
        hvalues]
    rfl

/-- Members that the one reader takes the other takes alike. -/
theorem evalMembers_agree {floats : Floats F} : (members : Members) →
    (∀ n, Token.number n ∈ members.tokens → FitsI64 n) → ∀ {values : List (String × Value F)},
      (pyjson floats).evalMembers members = some values →
        (json floats).evalMembers members = some (Value.orderedMembers true values)
  | .last name tree after, hfits, _, h => by
    rw [Dialect.evalMembers, Option.bind_eq_some_iff] at h
    obtain ⟨key, hkey, hrest⟩ := h
    obtain ⟨value, hvalue, rfl⟩ := Option.map_eq_some_iff.mp hrest
    have htree := (fits_of_append (fits_of_append hfits).2).1
    rw [Dialect.evalMembers, evalName_agree hkey, Option.bind_some,
      evalTree_agree tree htree hvalue]
    rfl
  | .cons name tree after members, hfits, _, h => by
    rw [Dialect.evalMembers, Option.bind_eq_some_iff] at h
    obtain ⟨key, hkey, hrest⟩ := h
    rw [Option.bind_eq_some_iff] at hrest
    obtain ⟨value, hvalue, hmore⟩ := hrest
    obtain ⟨values, hvalues, rfl⟩ := Option.map_eq_some_iff.mp hmore
    obtain ⟨htree, hmembers⟩ := fits_of_append (fits_of_append hfits).2
    rw [Dialect.evalMembers, evalName_agree hkey, Option.bind_some,
      evalTree_agree tree htree hvalue,
      Option.bind_some, evalMembers_agree members
        (fun n hn => hmembers n (List.mem_cons_of_mem _ hn)) hvalues]
    rfl

end

/-! ## Texts -/

/-- No integer literal of a text is outside `i64`. -/
def IntegersFit (text : String) : Prop :=
  ∀ document : Document, document.text = text.toList → ∀ n, Token.number n ∈ document.tokens →
    FitsI64 n

/-- **The two readers agree.** -/
theorem readers_agree (floats : Floats F) (text : String) (j : Value F)
    (hparse : Pyjson.parse floats text = .ok j)
    (hfits : IntegersFit text) :
    JsonCodec.parse floats text = .ok (j.ordered true) ∧ (j.ordered true).Similar j := by
  obtain ⟨document, htext, heval⟩ := (parse_iff _ _ _).mp hparse
  have htree : ∀ n, Token.number n ∈ document.tree.tokens → FitsI64 n := fun n hn =>
    hfits document htext n (List.mem_cons_of_mem _ (List.mem_append_left _ hn))
  refine ⟨(parse_iff _ _ _).mpr ⟨document, htext, ?_⟩, Value.similar_ordered true j⟩
  exact evalTree_agree document.tree htree heval

/-- A member of one letter and one digit. -/
def nameOf (c : Char) (h : c ≠ '"' ∧ c ≠ '\\') : Name :=
  ⟨blankNone, [.bare c h], blankNone, blankNone⟩

/-- The numeral of one digit. -/
def digitOf (c : Char) (h : isAsciiDigit c = true) : Numeral :=
  ⟨false, ⟨[c], List.all_eq_true.1 (by simpa using h)⟩, none, none, .inr (by simp)⟩

/-- The keys of `repeated` are not in order, and the first of them comes twice. -/
def repeatedTree : Document :=
  documentOf (.object (.cons (nameOf 'b' (by decide)) (.number (digitOf '1' rfl)) blankNone
    (.cons (nameOf 'a' (by decide)) (.number (digitOf '2' rfl)) blankNone
      (.last (nameOf 'b' (by decide)) (.number (digitOf '3' rfl)) blankNone))))

/-- A text that names a key twice. -/
def repeated : String := "\x7b\"b\":1,\"a\":2,\"b\":3\x7d"

/-- An object with a key twice. -/
theorem readers_agree_repeated :
    Pyjson.parse wholeFloats repeated =
      .ok (.object [("b", .int ⟨3, by decide⟩), ("a", .int ⟨2, by decide⟩)]) ∧
      IntegersFit repeated ∧
      JsonCodec.parse wholeFloats repeated =
        .ok (.object [("a", .int ⟨2, by decide⟩), ("b", .int ⟨3, by decide⟩)]) := by
  have htext : repeatedTree.text = repeated.toList := by decide
  have hread : Pyjson.parse wholeFloats repeated =
      .ok (.object [("b", .int ⟨3, by decide⟩), ("a", .int ⟨2, by decide⟩)]) :=
    (parse_iff _ _ _).2 ⟨repeatedTree, htext, rfl⟩
  have hfits : IntegersFit repeated := by
    intro document hdocument n hn
    obtain rfl : document = repeatedTree := Document.text_injective (hdocument.trans htext.symm)
    obtain rfl | rfl | rfl : n = digitOf '1' rfl ∨ n = digitOf '2' rfl ∨ n = digitOf '3' rfl := by
      simpa [Document.tokens, Tree.tokens, Members.tokens, repeatedTree, documentOf,
        Name.tokens] using hn
    all_goals
      intro _ k hk
      cases hk
      decide
  exact ⟨hread, hfits, (readers_agree wholeFloats repeated _ hread hfits).1⟩

end RtpMux.JsonAgreement
