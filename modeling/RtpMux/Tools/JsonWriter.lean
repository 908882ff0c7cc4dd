import Mathlib.Data.List.Sort
import Mathlib.Data.String.Basic
import RtpMux.Tools.JsonEval

/-!
# Writing JSON

The writers of `tools/json.rs` and `tools/pyjson.rs`. All of them put the members and items of a
value between brackets with commas; they differ in the whitespace between, in how a character and a
float are written, and in whether keys are sorted first. What a writer puts out is the text of a
tree, and where a parser takes the writer's characters and floats it evaluates that tree to the
value.
-/

namespace RtpMux.JsonReader

open Text (isAsciiDigit isAsciiWhitespace)
open JsonTree
open Numerals (I64)

variable {F : Type}

/-! ## The writer -/

/-- A row of spaces. -/
def spaces (n : Nat) : List Char := List.replicate n ' '

/-- The whitespace behind an opening bracket, behind a comma and before a closing bracket, by the
depth. -/
structure Layout where
  opening : Nat → Blank
  next : Nat → Blank
  closing : Nat → Blank

/-- No whitespace. -/
def blankNone : Blank := ⟨[], fun _ h => by cases h⟩

/-- One space. -/
def blankSpace : Blank := ⟨[' '], fun _ h => by cases List.mem_singleton.1 h; rfl⟩

/-- A new line, and spaces up to an indentation. -/
def blankLine (indent : Nat) : Blank :=
  ⟨'\n' :: spaces indent, fun c h => by
    rcases List.mem_cons.1 h with rfl | h
    · rfl
    · rw [List.eq_of_mem_replicate h]
      rfl⟩

/-- All on one line, with a space behind each comma. -/
def Layout.compact : Layout := ⟨fun _ => blankNone, fun _ => blankSpace, fun _ => blankNone⟩

/-- One line for each item and member, indented by `step` for each bracket around it. -/
def Layout.indented (step : Nat) : Layout :=
  ⟨fun depth => blankLine ((depth + 1) * step), fun depth => blankLine ((depth + 1) * step),
    fun depth => blankLine (depth * step)⟩

/-- Texts between two brackets. -/
def Layout.bracketed (layout : Layout) (depth : Nat) (opening closing : Char) :
    List (List Char) → List Char
  | [] => [opening, closing]
  | text :: texts =>
    opening :: ((layout.opening depth).chars ++ (text ++
      (texts.flatMap (fun text => ',' :: ((layout.next depth).chars ++ text)) ++
        ((layout.closing depth).chars ++ [closing]))))

/-- How a writer writes a character of a string, and a float. -/
structure Style (F : Type) where
  char : Char → List Char
  float : F → List Char

/-- `write_string`. -/
def Style.string (s : Style F) (text : String) : List Char :=
  '"' :: (text.toList.flatMap s.char ++ ['"'])

/-- A member, its value written already. -/
def Style.member (s : Style F) (key : String) (value : List Char) : List Char :=
  s.string key ++ ([':', ' '] ++ value)

/-- The entries as they are written, in the order of their keys if asked for. The sort is stable. -/
def ordered {α : Type} (sortKeys : Bool) (entries : List (String × α)) : List (String × α) :=
  if sortKeys then entries.insertionSort fun a b => a.1 ≤ b.1 else entries

/-- `{number}` of an `i64`. -/
def intText (value : I64) : List Char := signText (value.1 < 0) ++ Nat.toDigits 10 value.1.natAbs

mutual

/-- A value at a depth. The order of the members does not depend on their values, so these are
written first. -/
def Style.write (s : Style F) (layout : Layout) (sortKeys : Bool) : Value F → Nat → List Char
  | .null, _ => "null".toList
  | .bool true, _ => "true".toList
  | .bool false, _ => "false".toList
  | .int value, _ => intText value
  | .float value, _ => s.float value
  | .str text, _ => s.string text
  | .array items, depth =>
    layout.bracketed depth '[' ']' (s.writeItems layout sortKeys items (depth + 1))
  | .object members, depth =>
    layout.bracketed depth '{' '}'
      ((ordered sortKeys (s.writeMembers layout sortKeys members (depth + 1))).map
        fun (key, value) => s.member key value)

/-- The texts of the items of an array. -/
def Style.writeItems (s : Style F) (layout : Layout) (sortKeys : Bool) : List (Value F) → Nat →
    List (List Char)
  | [], _ => []
  | item :: items, depth =>
    s.write layout sortKeys item depth :: s.writeItems layout sortKeys items depth

/-- The keys and the texts of the members of an object. -/
def Style.writeMembers (s : Style F) (layout : Layout) (sortKeys : Bool) :
    List (String × Value F) → Nat → List (String × List Char)
  | [], _ => []
  | (key, value) :: members, depth =>
    (key, s.write layout sortKeys value depth) :: s.writeMembers layout sortKeys members depth

end

mutual

/-- The value with the members of each of its objects in the order that they are written in. -/
def Value.ordered (sortKeys : Bool) : Value F → Value F
  | .array items => .array (orderedItems sortKeys items)
  | .object members => .object (JsonReader.ordered sortKeys (orderedMembers sortKeys members))
  | other => other

/-- The items, each with its members in order. -/
def Value.orderedItems (sortKeys : Bool) : List (Value F) → List (Value F)
  | [] => []
  | item :: items => item.ordered sortKeys :: orderedItems sortKeys items

/-- The members where they stand, each value with its own members in order. -/
def Value.orderedMembers (sortKeys : Bool) : List (String × Value F) → List (String × Value F)
  | [] => []
  | (key, value) :: members => (key, value.ordered sortKeys) :: orderedMembers sortKeys members

end

mutual

/-- What holds of every float, of every string and key, and of the keys of every object. -/
def Value.All (float : F → Prop) (string : String → Prop) (keys : List String → Prop) :
    Value F → Prop
  | .float value => float value
  | .str text => string text
  | .array items => AllItems float string keys items
  | .object members => keys (members.map Prod.fst) ∧ AllMembers float string keys members
  | _ => True

/-- The three conditions hold of every item. -/
def Value.AllItems (float : F → Prop) (string : String → Prop) (keys : List String → Prop) :
    List (Value F) → Prop
  | [] => True
  | item :: items => item.All float string keys ∧ AllItems float string keys items

/-- The three conditions hold of every member, that on strings of its key too. -/
def Value.AllMembers (float : F → Prop) (string : String → Prop) (keys : List String → Prop) :
    List (String × Value F) → Prop
  | [] => True
  | (key, value) :: members =>
    string key ∧ value.All float string keys ∧ AllMembers float string keys members

end

mutual

/-- What holds of each part for two reasons. -/
theorem Value.All.combine {f f₁ f₂ : F → Prop} {t t₁ t₂ : String → Prop}
    {k k₁ k₂ : List String → Prop}
    (hf : ∀ x, f₁ x → f₂ x → f x) (ht : ∀ x, t₁ x → t₂ x → t x) (hk : ∀ x, k₁ x → k₂ x → k x) :
    {value : Value F} → value.All f₁ t₁ k₁ → value.All f₂ t₂ k₂ → value.All f t k
  | .null, _, _ | .bool _, _, _ | .int _, _, _ => trivial
  | .float x, h₁, h₂ => hf x h₁ h₂
  | .str x, h₁, h₂ => ht x h₁ h₂
  | .array _, h₁, h₂ => Value.AllItems.combine hf ht hk h₁ h₂
  | .object _, h₁, h₂ => ⟨hk _ h₁.1 h₂.1, Value.AllMembers.combine hf ht hk h₁.2 h₂.2⟩

/-- Two properties of all items are one. -/
theorem Value.AllItems.combine {f f₁ f₂ : F → Prop} {t t₁ t₂ : String → Prop}
    {k k₁ k₂ : List String → Prop}
    (hf : ∀ x, f₁ x → f₂ x → f x) (ht : ∀ x, t₁ x → t₂ x → t x) (hk : ∀ x, k₁ x → k₂ x → k x) :
    {items : List (Value F)} → AllItems f₁ t₁ k₁ items → AllItems f₂ t₂ k₂ items →
      AllItems f t k items
  | [], _, _ => trivial
  | _ :: _, h₁, h₂ =>
    ⟨Value.All.combine hf ht hk h₁.1 h₂.1, Value.AllItems.combine hf ht hk h₁.2 h₂.2⟩

/-- Two properties of all members are one. -/
theorem Value.AllMembers.combine {f f₁ f₂ : F → Prop} {t t₁ t₂ : String → Prop}
    {k k₁ k₂ : List String → Prop}
    (hf : ∀ x, f₁ x → f₂ x → f x) (ht : ∀ x, t₁ x → t₂ x → t x) (hk : ∀ x, k₁ x → k₂ x → k x) :
    {members : List (String × Value F)} → AllMembers f₁ t₁ k₁ members →
      AllMembers f₂ t₂ k₂ members →
      AllMembers f t k members
  | [], _, _ => trivial
  | (key, _) :: _, h₁, h₂ =>
    ⟨ht key h₁.1 h₂.1, Value.All.combine hf ht hk h₁.2.1 h₂.2.1,
      Value.AllMembers.combine hf ht hk h₁.2.2 h₂.2.2⟩

end

mutual

/-- What holds of everything holds in every value. -/
theorem Value.all_of_forall {f : F → Prop} {t : String → Prop} {k : List String → Prop}
    (hf : ∀ x, f x) (ht : ∀ x, t x)
    (hk : ∀ x, k x) : (value : Value F) → value.All f t k
  | .null | .bool _ | .int _ => trivial
  | .float x => hf x
  | .str x => ht x
  | .array items => Value.allItems_of_forall hf ht hk items
  | .object members => ⟨hk _, Value.allMembers_of_forall hf ht hk members⟩

theorem Value.allItems_of_forall {f : F → Prop} {t : String → Prop} {k : List String → Prop}
    (hf : ∀ x, f x)
    (ht : ∀ x, t x) (hk : ∀ x, k x) : (items : List (Value F)) → AllItems f t k items
  | [] => trivial
  | item :: items => ⟨Value.all_of_forall hf ht hk item, Value.allItems_of_forall hf ht hk items⟩

theorem Value.allMembers_of_forall {f : F → Prop} {t : String → Prop} {k : List String → Prop}
    (hf : ∀ x, f x)
    (ht : ∀ x, t x) (hk : ∀ x, k x) : (members : List (String × Value F)) → AllMembers f t k members
  | [] => trivial
  | (key, value) :: members =>
    ⟨ht key, Value.all_of_forall hf ht hk value, Value.allMembers_of_forall hf ht hk members⟩

end

/-- A property of all members, member by member. -/
theorem Value.allMembers_iff {f : F → Prop} {t : String → Prop} {k : List String → Prop}
    {members : List (String × Value F)} :
    AllMembers f t k members ↔ ∀ member ∈ members, t member.1 ∧ member.2.All f t k := by
  induction members with
  | nil => simp [AllMembers]
  | cons member members ih => rw [AllMembers, ih, List.forall_mem_cons, and_assoc]

mutual

/-- Unsorted, a value stays as it is. -/
theorem Value.ordered_false : (value : Value F) → value.ordered false = value
  | .null | .bool _ | .int _ | .float _ | .str _ => rfl
  | .array items => by rw [Value.ordered, Value.orderedItems_false items]
  | .object members => by
    rw [Value.ordered, Value.orderedMembers_false members]
    rfl

theorem Value.orderedItems_false : (items : List (Value F)) → Value.orderedItems false items = items
  | [] => rfl
  | item :: items =>
    by rw [Value.orderedItems, Value.ordered_false item, Value.orderedItems_false items]

theorem Value.orderedMembers_false : (members : List (String × Value F)) →
    Value.orderedMembers false members = members
  | [] => rfl
  | (key, value) :: members => by
    rw [Value.orderedMembers, Value.ordered_false value, Value.orderedMembers_false members]

end

/-! ## The tree of what is written -/

/-- Items with the same whitespace behind each comma. -/
def buildItems (first next closing : Blank) : Tree → List Tree → Items
  | item, [] => .last first item closing
  | item, more :: items => .cons first item blankNone (buildItems next next closing more items)

/-- The text of items with their blanks. -/
theorem text_buildItems (first next closing : Blank) (item : Tree) (items : List Tree) :
    (buildItems first next closing item items).text = first.chars ++ (item.text ++
      ((items.map Tree.text).flatMap (fun text => ',' :: (next.chars ++ text)) ++
        (closing.chars ++ [']']))) := by
  induction items generalizing first item with
  | nil => rfl
  | cons more items ih =>
    rw [buildItems, Items.text, ih]
    simp [blankNone]

/-- The members of an object with the blanks of its layout. -/
def buildMembers (first next closing : Blank) : List Element × Tree →
    List (List Element × Tree) → Members
  | (key, value), [] => .last ⟨first, key, blankNone, blankSpace⟩ value closing
  | (key, value), more :: members =>
    .cons ⟨first, key, blankNone, blankSpace⟩ value blankNone
      (buildMembers next next closing more members)

/-- A member as it is written. -/
def memberText (member : List Element × Tree) : List Char :=
  quoted member.1 ++ ([':', ' '] ++ member.2.text)

/-- The text of members with their blanks. -/
theorem text_buildMembers (first next closing : Blank) (member : List Element × Tree)
    (members : List (List Element × Tree)) :
    (buildMembers first next closing member members).text = first.chars ++ (memberText member ++
      ((members.map memberText).flatMap (fun text => ',' :: (next.chars ++ text)) ++
        (closing.chars ++ ['}']))) := by
  induction members generalizing first member with
  | nil => simp [buildMembers, Members.text, Name.text, memberText, blankNone, blankSpace]
  | cons more members ih =>
    rw [buildMembers, Members.text, ih]
    simp [Name.text, memberText, blankNone, blankSpace]

/-- An array of trees. -/
def arrayTree (layout : Layout) (depth : Nat) : List Tree → Tree
  | [] => .emptyArray blankNone
  | item :: items =>
    .array (buildItems (layout.opening depth) (layout.next depth) (layout.closing depth) item items)

/-- The tree of an array has the text that the writer writes. -/
theorem text_arrayTree (layout : Layout) (depth : Nat) (items : List Tree) :
    (arrayTree layout depth items).text = layout.bracketed depth '[' ']' (items.map Tree.text) := by
  cases items with
  | nil => rfl
  | cons item items =>
    rw [arrayTree, Tree.text, text_buildItems]
    rfl

/-- The object that a layout writes. -/
def objectTree (layout : Layout) (depth : Nat) : List (List Element × Tree) → Tree
  | [] => .emptyObject blankNone
  | member :: members =>
    .object (buildMembers (layout.opening depth) (layout.next depth)
      (layout.closing depth) member members)

/-- The tree of an object has the text that the writer writes. -/
theorem text_objectTree (layout : Layout) (depth : Nat) (members : List (List Element × Tree)) :
    (objectTree layout depth members).text =
      layout.bracketed depth '{' '}' (members.map memberText) := by
  cases members with
  | nil => rfl
  | cons member members =>
    rw [objectTree, Tree.text, text_buildMembers]
    rfl

namespace Dialect

variable (d : Dialect F)

/-- The values of a list of trees. -/
def evalTrees : List Tree → Option (List (Value F))
  | [] => some []
  | tree :: trees => (d.evalTree tree).bind fun value => (evalTrees trees).map (value :: ·)

/-- The keys and values of a list of members. -/
def evalPairs : List (List Element × Tree) → Option (List (String × Value F))
  | [] => some []
  | (key, tree) :: pairs =>
    (d.evalElements key).bind fun key =>
      (d.evalTree tree).bind fun value => (evalPairs pairs).map ((String.ofList key, value) :: ·)

/-- The blanks between items mean nothing. -/
theorem evalItems_build (first next closing : Blank) (item : Tree) (items : List Tree) :
    d.evalItems (buildItems first next closing item items) = d.evalTrees (item :: items) := by
  induction items generalizing first item with
  | nil =>
    simp only [buildItems, evalItems, evalTrees]
    cases d.evalTree item <;> rfl
  | cons more items ih => rw [buildItems, evalItems, ih, ← evalTrees]

/-- The blanks between members mean nothing. -/
theorem evalMembers_build (first next closing : Blank) (member : List Element × Tree)
    (members : List (List Element × Tree)) :
    d.evalMembers (buildMembers first next closing member members) =
      d.evalPairs (member :: members) := by
  induction members generalizing first member with
  | nil =>
    simp only [buildMembers, evalMembers, evalPairs, evalName]
    cases d.evalElements member.1 with
    | none => rfl
    | some key =>
      simp only [Option.map_some, Option.bind_some]
      cases d.evalTree member.2 <;> rfl
  | cons more members ih =>
    rw [buildMembers, evalMembers, ih, evalName, Option.bind_map]
    rfl

/-- The tree of an array means the array of its items. -/
theorem evalTree_arrayTree (layout : Layout) (depth : Nat) (items : List Tree) :
    d.evalTree (arrayTree layout depth items) = (d.evalTrees items).map .array := by
  cases items with
  | nil => rfl
  | cons item items => rw [arrayTree, evalTree, evalItems_build]

/-- The tree of an object means its members, inserted one after the other. -/
theorem evalTree_objectTree (layout : Layout) (depth : Nat) (members : List (List Element × Tree)) :
    d.evalTree (objectTree layout depth members) =
      (d.evalPairs members).map fun members => .object (d.insertAll [] members) := by
  cases members with
  | nil => rfl
  | cons member members => rw [objectTree, evalTree, evalMembers_build]

end Dialect

/-! ## Sorting first -/

/-- Entries are put in the same order whatever their values. -/
theorem ordered_map {α β : Type} (sortKeys : Bool) (f : α → β) (entries : List (String × α)) :
    ordered sortKeys (entries.map fun e => (e.1, f e.2)) = (ordered sortKeys entries).map fun e =>
      (e.1, f e.2) := by
  unfold ordered
  split
  · exact (List.map_insertionSort (fun a b : String × α => a.1 ≤ b.1)
      (fun a b : String × β => a.1 ≤ b.1)
      (fun e => (e.1, f e.2)) entries fun _ _ _ _ => Iff.rfl).symm
  · rfl

/-- The members are written one by one. -/
theorem writeMembers_eq (s : Style F) (layout : Layout) (sortKeys : Bool)
    (members : List (String × Value F)) (depth : Nat) :
    s.writeMembers layout sortKeys members depth =
      members.map fun member => (member.1, s.write layout sortKeys member.2 depth) := by
  induction members with
  | nil => rfl
  | cons member members ih => rw [Style.writeMembers, ih, List.map_cons]

mutual

/-- To sort as the members are written is to sort them all first. -/
theorem write_ordered (s : Style F) (layout : Layout) (sortKeys : Bool) :
    (value : Value F) → (depth : Nat) →
    s.write layout sortKeys value depth = s.write layout false (value.ordered sortKeys) depth
  | .null, _ | .bool true, _ | .bool false, _ | .int _, _ | .float _, _ | .str _, _ => rfl
  | .array items, depth => by
    rw [Style.write, Value.ordered, Style.write, writeItems_ordered s layout sortKeys items]
  | .object members, depth => by
    rw [Style.write, Value.ordered, Style.write, writeMembers_ordered s layout sortKeys members]
    rw [writeMembers_eq, writeMembers_eq,
      ordered_map sortKeys fun value => s.write layout false value (depth + 1)]
    rfl

/-- Writing items sorted is writing the sorted items. -/
theorem writeItems_ordered (s : Style F) (layout : Layout) (sortKeys : Bool) :
    (items : List (Value F)) →
    (depth : Nat) → s.writeItems layout sortKeys items depth =
      s.writeItems layout false (Value.orderedItems sortKeys items) depth
  | [], _ => rfl
  | item :: items, depth => by
    rw [Style.writeItems, Value.orderedItems, Style.writeItems,
      write_ordered s layout sortKeys item,
      writeItems_ordered s layout sortKeys items]

/-- Writing members sorted is writing the sorted members. -/
theorem writeMembers_ordered (s : Style F) (layout : Layout) (sortKeys : Bool) :
    (members : List (String × Value F)) →
    (depth : Nat) → s.writeMembers layout sortKeys members depth =
      s.writeMembers layout false (Value.orderedMembers sortKeys members) depth
  | [], _ => rfl
  | (key, value) :: members, depth => by
    rw [Style.writeMembers, Value.orderedMembers, Style.writeMembers,
      write_ordered s layout sortKeys value,
      writeMembers_ordered s layout sortKeys members]

end

/-! ## Reading back what is written -/

/-- An evaluation that gives a value just where a condition holds. -/
structure GivesWhen {α : Type} (result : Option α) (condition : Prop) (a : α) : Prop where
  gives : condition → result = some a
  refuses : ¬ condition → result = none

namespace GivesWhen

variable {α β γ : Type} {result : Option α} {condition : Prop} {a : α}

theorem always (a : α) : GivesWhen (some a) True a := ⟨fun _ => rfl, fun h => absurd trivial h⟩

theorem of_holds (h : condition) (hresult : result = some a) : GivesWhen result condition a :=
  ⟨fun _ => hresult, fun hnot => absurd h hnot⟩

/-- A condition carries over to a function of the result. -/
theorem map (h : GivesWhen result condition a) (f : α → β) :
    GivesWhen (result.map f) condition (f a) := by
  refine ⟨fun hc => ?_, fun hc => ?_⟩
  · rw [h.gives hc, Option.map_some]
  · rw [h.refuses hc, Option.map_none]

/-- Two in a row give where both give. -/
theorem bind (h : GivesWhen result condition a) {next : α → Option β} {condition' : Prop} {b : β}
    (h' : GivesWhen (next a) condition' b) :
    GivesWhen (result.bind next) (condition ∧ condition') b := by
  refine ⟨fun hc => ?_, fun hc => ?_⟩
  · rw [h.gives hc.1, Option.bind_some, h'.gives hc.2]
  · by_cases hfirst : condition
    · rw [h.gives hfirst, Option.bind_some, h'.refuses fun hsecond => hc ⟨hfirst, hsecond⟩]
    · rw [h.refuses hfirst, Option.bind_none]

/-- A condition may be replaced by an equivalent one. -/
theorem congr (h : GivesWhen result condition a) {condition' : Prop}
    (hiff : condition' ↔ condition) :
    GivesWhen result condition' a :=
  ⟨fun hc => h.gives (hiff.1 hc), fun hc => h.refuses (mt hiff.2 hc)⟩

end GivesWhen

/-- A parser takes what a writer writes: each integer, the floats of a kind, and of the characters
just the plain ones. -/
structure Reads (d : Dialect F) (s : Style F) (float : F → Prop) (plain : Char → Prop) : Prop where
  char : ∀ c, ∃ elements, elementsText elements = s.char c ∧
    GivesWhen (d.evalElements elements) (plain c) [c]
  float : ∀ x, float x → ∃ n : Numeral, n.text = s.float x ∧
    d.convert n.text (isFloat n) = some (.float x)
  int : ∀ value, ∃ n : Numeral, n.text = intText value ∧
    d.convert n.text (isFloat n) = some (.int value)

/-- Elements are evaluated one after the other. -/
theorem evalElements_append (d : Dialect F) (elements more : List Element) :
    d.evalElements (elements ++ more) =
      (d.evalElements elements).bind fun text => (d.evalElements more).map (text ++ ·) := by
  induction elements with
  | nil => simp [Dialect.evalElements]
  | cons element elements ih =>
    rw [List.cons_append, Dialect.evalElements, Dialect.evalElements, ih]
    cases d.evalElement element with
    | none => rfl
    | some character =>
      cases d.evalElements elements with
      | none => rfl
      | some text => cases d.evalElements more <;> rfl

/-- Every character of every string and key is plain. -/
def Value.Plain (plain : Char → Prop) (value : Value F) : Prop :=
  value.All (fun _ => True) (fun text => ∀ c ∈ text.toList, plain c) fun _ => True

section

variable {d : Dialect F} {s : Style F} {float : F → Prop} {plain : Char → Prop}
  (h : Reads d s float plain)

include h

/-- The characters of a text are read back. -/
theorem Reads.chars (text : List Char) : ∃ elements, elementsText elements = text.flatMap s.char ∧
    GivesWhen (d.evalElements elements) (∀ c ∈ text, plain c) text := by
  induction text with
  | nil => exact ⟨[], rfl, (GivesWhen.always []).congr (by simp)⟩
  | cons c text ih =>
    obtain ⟨front, hfront, hc⟩ := h.char c
    obtain ⟨rest, hrest, htext⟩ := ih
    refine ⟨front ++ rest, ?_, ?_⟩
    · rw [elementsText, List.flatMap_append, ← elementsText, ← elementsText, hfront, hrest,
        List.flatMap_cons]
    · rw [evalElements_append]
      exact (hc.bind (htext.map ([c] ++ ·))).congr List.forall_mem_cons

/-- The elements of a string or a key. -/
theorem Reads.string (text : String) : ∃ elements, quoted elements = s.string text ∧
    GivesWhen (d.evalElements elements) (∀ c ∈ text.toList, plain c) text.toList := by
  obtain ⟨elements, htext, hgives⟩ := h.chars text.toList
  refine ⟨elements, ?_, hgives⟩
  rw [quoted, htext]
  rfl

end

/-- Members whose keys are in order are put into an object as they are. -/
def Keeps (d : Dialect F) (keys : List String → Prop) : Prop :=
  ∀ members : List (String × Value F), keys (members.map Prod.fst) →
    d.insertAll [] members = members

mutual

/-- The tree of what is written. -/
theorem Reads.value {d : Dialect F} {s : Style F} {float : F → Prop} {plain : Char → Prop}
    (h : Reads d s float plain)
    {keys : List String → Prop} (hkeeps : Keeps d keys) (layout : Layout) : (value : Value F) →
    (depth : Nat) → value.All float (fun _ => True) keys →
    ∃ t : Tree, t.text = s.write layout false value depth ∧
      GivesWhen (d.evalTree t) (value.Plain plain) value
  | .null, _, _ => ⟨.word .null, rfl, .always _⟩
  | .bool true, _, _ => ⟨.word .true, rfl, .always _⟩
  | .bool false, _, _ => ⟨.word .false, rfl, .always _⟩
  | .int value, _, _ => by
    obtain ⟨n, htext, hvalue⟩ := h.int value
    refine ⟨.number n, htext, ?_⟩
    rw [Dialect.evalTree, hvalue]
    exact .always _
  | .float value, _, hproper => by
    obtain ⟨n, htext, hvalue⟩ := h.float value hproper
    refine ⟨.number n, htext, ?_⟩
    rw [Dialect.evalTree, hvalue]
    exact .always _
  | .str text, _, _ => by
    obtain ⟨elements, htext, hgives⟩ := h.string text
    refine ⟨.str elements, htext, ?_⟩
    have hmap := hgives.map fun text => Value.str (F := F) (String.ofList text)
    rw [String.ofList_toList] at hmap
    exact hmap
  | .array items, depth, hproper => by
    obtain ⟨trees, htext, hgives⟩ := h.items hkeeps layout items (depth + 1) hproper
    refine ⟨arrayTree layout depth trees, ?_, ?_⟩
    · rw [text_arrayTree, htext, Style.write]
    · rw [Dialect.evalTree_arrayTree]
      exact hgives.map Value.array
  | .object members, depth, hproper => by
    obtain ⟨pairs, htext, hgives⟩ := h.members hkeeps layout members (depth + 1) hproper.2
    refine ⟨objectTree layout depth pairs, ?_, ?_⟩
    · rw [text_objectTree, htext, Style.write]
      rfl
    · rw [Dialect.evalTree_objectTree]
      have hmap := hgives.map fun members => Value.object (d.insertAll [] members)
      rw [hkeeps members hproper.1] at hmap
      exact hmap.congr (by simp [Value.Plain, Value.All])

/-- The items of an array are read back. -/
theorem Reads.items {d : Dialect F} {s : Style F} {float : F → Prop} {plain : Char → Prop}
    (h : Reads d s float plain)
    {keys : List String → Prop} (hkeeps : Keeps d keys) (layout : Layout) :
    (items : List (Value F)) → (depth : Nat) → Value.AllItems float (fun _ => True) keys items →
    ∃ trees : List Tree, trees.map Tree.text = s.writeItems layout false items depth ∧
      GivesWhen (d.evalTrees trees)
        (Value.AllItems (fun _ => True) (fun text => ∀ c ∈ text.toList, plain c)
          (fun _ => True) items) items
  | [], _, _ => ⟨[], rfl, .always _⟩
  | item :: items, depth, hproper => by
    obtain ⟨tree, htext, hgives⟩ := h.value hkeeps layout item depth hproper.1
    obtain ⟨trees, htexts, hmore⟩ := h.items hkeeps layout items depth hproper.2
    refine ⟨tree :: trees, ?_, hgives.bind (hmore.map (item :: ·))⟩
    rw [List.map_cons, htext, htexts, Style.writeItems]

/-- The members of an object are read back. -/
theorem Reads.members {d : Dialect F} {s : Style F} {float : F → Prop} {plain : Char → Prop}
    (h : Reads d s float plain)
    {keys : List String → Prop} (hkeeps : Keeps d keys) (layout : Layout) :
    (members : List (String × Value F)) → (depth : Nat) →
    Value.AllMembers float (fun _ => True) keys members →
    ∃ pairs : List (List Element × Tree),
      pairs.map memberText = (s.writeMembers layout false members depth).map
        (fun m => s.member m.1 m.2) ∧
      GivesWhen (d.evalPairs pairs)
        (Value.AllMembers (fun _ => True) (fun text => ∀ c ∈ text.toList, plain c)
          (fun _ => True) members) members
  | [], _, _ => ⟨[], rfl, .always _⟩
  | (key, value) :: members, depth, hproper => by
    obtain ⟨elements, hkey, hgives⟩ := h.string key
    obtain ⟨tree, htext, hvalue⟩ := h.value hkeeps layout value depth hproper.2.1
    obtain ⟨pairs, htexts, hmore⟩ := h.members hkeeps layout members depth hproper.2.2
    refine ⟨(elements, tree) :: pairs, ?_, ?_⟩
    · rw [List.map_cons, htexts, Style.writeMembers, List.map_cons, memberText, hkey, htext]
      rfl
    · rw [Dialect.evalPairs]
      refine hgives.bind (hvalue.bind ?_)
      rw [String.ofList_toList]
      exact hmore.map ((key, value) :: ·)

end

/-- A tree by itself. -/
def documentOf (t : Tree) : Document := ⟨blankNone, t, blankNone⟩

/-- A document without blanks around its tree. -/
theorem text_documentOf (t : Tree) : (documentOf t).text = t.text := by
  simp [documentOf, Document.text, blankNone]

/-- A tree's text is read as what the tree evaluates to. -/
theorem parse_text (d : Dialect F) (t : Tree) :
    (d.parse (String.ofList t.text)).toOption = d.evalTree t := by
  cases htree : d.evalTree t with
  | none =>
    cases hparse : d.parse (String.ofList t.text) with
    | error e => rfl
    | ok value =>
      obtain ⟨document, htext, heval⟩ := (parse_iff d _ _).1 hparse
      rw [String.toList_ofList, ← text_documentOf t] at htext
      rw [Document.text_injective htext] at heval
      rw [Dialect.evalDocument, documentOf, htree] at heval
      cases heval
  | some value =>
    rw [toOption_eq_some, parse_iff]
    refine ⟨documentOf t, ?_, htree⟩
    rw [text_documentOf, String.toList_ofList]

/-- **Round trip.** What is written is read as the value with its members in the order they are
written in, just where every character is one that the parser takes. -/
theorem Reads.parse_write {d : Dialect F} {s : Style F} {float : F → Prop} {plain : Char → Prop}
    (h : Reads d s float plain) {keys : List String → Prop} (hkeeps : Keeps d keys)
    (layout : Layout) (sortKeys : Bool)
    {value : Value F} (hvalue : (value.ordered sortKeys).All float (fun _ => True) keys) :
    GivesWhen (d.parse (String.ofList (s.write layout sortKeys value 0))).toOption
      ((value.ordered sortKeys).Plain plain) (value.ordered sortKeys) := by
  obtain ⟨t, htext, hgives⟩ := h.value hkeeps layout (value.ordered sortKeys) 0 hvalue
  rw [write_ordered, ← htext, parse_text]
  exact hgives

/-- A cut text of a closed tree is refused. -/
theorem not_parse_cut (d : Dialect F) {t : Tree} (hclosed : t.isClosed = true)
    {front cut : List Char}
    (htext : t.text = front ++ cut) (hcut : cut ≠ []) (value : Value F) :
    d.parse (String.ofList front) ≠ .ok value := by
  intro hparse
  obtain ⟨document, hdocument, -⟩ := (parse_iff d _ _).1 hparse
  rw [String.toList_ofList] at hdocument
  rw [← hdocument] at htext
  exact hcut (Tree.eq_nil_of_document hclosed htext)

/-! ## Escapes -/

/-- The letter that both writers put behind a backslash for a character. -/
def escapeLetter (c : Char) : Option Char :=
  match c with
  | '"' => some '"'
  | '\\' => some '\\'
  | '\n' => some 'n'
  | '\r' => some 'r'
  | '\t' => some 't'
  | '\x08' => some 'b'
  | '\x0c' => some 'f'
  | _ => none

/-- `{:04x}`. -/
def hex4 (code : Nat) : List Char :=
  List.replicate (4 - (Nat.toDigits 16 code).length) '0' ++ Nat.toDigits 16 code

/-- A short escape is read back. -/
theorem shortEscape_escapeLetter {c letter : Char} (h : escapeLetter c = some letter) :
    letter ≠ 'u' ∧ shortEscape letter = some c := by
  unfold escapeLetter at h
  split at h
  all_goals
    cases h
  all_goals exact ⟨by decide, rfl⟩

/-- A character without a short escape is neither a quote nor a backslash. -/
theorem ordinary_of_escapeLetter {c : Char} (h : escapeLetter c = none) : c ≠ '"' ∧ c ≠ '\\' := by
  constructor
  all_goals
    rintro rfl
    cases h

theorem length_hex4 {code : Nat} (h : code < 2 ^ 16) : (hex4 code).length = 4 := by
  have hle : (Nat.toDigits 16 code).length ≤ 4 :=
    (Nat.length_toDigits_le_iff (by decide) (by decide)).2 h
  rw [hex4, List.length_append, List.length_replicate]
  omega

/-- What is written of a code are hexadecimal digits. -/
theorem isDigit_of_mem_hex4 {code : Nat} {c : Char} (h : c ∈ hex4 code) :
    Numerals.isDigit 16 c = true := by
  rcases List.mem_append.1 h with h | h
  · rw [List.eq_of_mem_replicate h]
    rfl
  · exact Numerals.isDigit_of_mem_toDigits (by decide) (by decide) h

/-- Four digits are read as the number they were written for. -/
theorem fromStrRadix16_hex4 (code : Nat) : fromStrRadix16 (hex4 code) = some code := by
  have hne : hex4 code ≠ [] := by simp [hex4, Nat.toDigits_ne_nil]
  have hall : (hex4 code).all (Numerals.isDigit 16) = true := by
    rw [List.all_eq_true]
    exact fun c hc => isDigit_of_mem_hex4 hc
  have hvalue : Numerals.valueOf 16 (hex4 code) = code := by
    rw [hex4, Numerals.valueOf_replicate_zero, Numerals.valueOf_toDigits (by decide) (by decide)]
  -- a plus sign is no digit
  have hdigits : dropPlus (hex4 code) = hex4 code := by
    unfold dropPlus
    split
    · next digits heq =>
      have hplus := @isDigit_of_mem_hex4 code '+' (by rw [heq]; simp)
      cases hplus
    · rfl
  rw [fromStrRadix16, hdigits, if_pos ⟨hne, hall⟩, hvalue]

theorem charFromU32_toNat (c : Char) : charFromU32 c.toNat = some c := by
  have hvalid : c.toNat.isValidChar := c.valid
  rw [charFromU32, if_pos hvalid, Char.ofNat_toNat]

/-- The element for a character that has a letter. -/
theorem exists_shortElement (d : Dialect F) {c letter : Char} (h : escapeLetter c = some letter) :
    ∃ element : Element, element.text = ['\\', letter] ∧ d.evalElement element = some c := by
  obtain ⟨hu, hshort⟩ := shortEscape_escapeLetter h
  exact ⟨.short letter hu, rfl, hshort⟩

/-- The element for a code of at most four digits. -/
theorem exists_unicodeElement (d : Dialect F) {code : Nat} (h : code < 2 ^ 16) :
    ∃ element : Element, element.text = ['\\', 'u'] ++ hex4 code ∧
      d.evalElement element = charFromU32 code := by
  obtain ⟨a, b, c, e, heq⟩ := List.length_eq_four.1 (length_hex4 h)
  refine ⟨.unicode a b c e, by rw [heq]; rfl, ?_⟩
  rw [Dialect.evalElement, ← heq, unicodeEscape, fromStrRadix16_hex4]
  dsimp only
  cases charFromU32 code with
  | none => rfl
  | some character => rfl

/-! ## Brackets and quotes -/

/-- A string, an array or an object. -/
def Value.isEnclosed : Value F → Bool
  | .str _ | .array _ | .object _ => true
  | _ => false

/-- A bracketed text begins with its bracket. -/
theorem bracketed_head (layout : Layout) (depth : Nat) (opening closing : Char)
    (texts : List (List Char)) :
    ∃ rest, layout.bracketed depth opening closing texts = opening :: rest := by
  cases texts with
  | nil => exact ⟨_, rfl⟩
  | cons text texts => exact ⟨_, rfl⟩

/-- It begins with its own bracket or quote. -/
theorem write_enclosed (s : Style F) (layout : Layout) {value : Value F}
    (h : value.isEnclosed = true) (depth : Nat) :
    ∃ c rest, s.write layout false value depth = c :: rest ∧ opensClosed c = true := by
  cases value with
  | null | bool _ | int _ | float _ => cases h
  | str text => exact ⟨'"', _, by rw [Style.write, Style.string], rfl⟩
  | array items =>
    obtain ⟨rest, hrest⟩ :=
      bracketed_head layout depth '[' ']' (s.writeItems layout false items (depth + 1))
    exact ⟨'[', rest, by rw [Style.write, hrest], rfl⟩
  | object members =>
    rw [Style.write]
    obtain ⟨rest, hrest⟩ := bracketed_head layout depth '{' '}' _
    exact ⟨'{', rest, hrest, rfl⟩

/-! ## Up to the order of members -/

/-- Sorting permutes. -/
theorem perm_ordered {α : Type} (sortKeys : Bool) (entries : List (String × α)) :
    (ordered sortKeys entries).Perm entries := by
  unfold ordered
  split
  · exact List.perm_insertionSort _ _
  · exact .refl _

theorem orderedMembers_eq (sortKeys : Bool) (members : List (String × Value F)) :
    Value.orderedMembers sortKeys members = members.map fun member =>
      (member.1, member.2.ordered sortKeys) := by
  induction members with
  | nil => rfl
  | cons member members ih => rw [Value.orderedMembers, ih, List.map_cons]

/-- Sorting below keeps the keys. -/
theorem map_fst_orderedMembers (sortKeys : Bool) (members : List (String × Value F)) :
    (Value.orderedMembers sortKeys members).map Prod.fst = members.map Prod.fst := by
  rw [orderedMembers_eq, List.map_map]
  rfl

/-- Two values that differ in the order of the members of their objects. -/
inductive Value.Similar : Value F → Value F → Prop
  | same (value : Value F) : Similar value value
  | array {items items' : List (Value F)} : List.Forall₂ Similar items items' →
    Similar (.array items) (.array items')
  | object {members members' shuffled : List (String × Value F)} : members.map Prod.fst =
    members'.map Prod.fst →
      List.Forall₂ Similar (members.map Prod.snd) (members'.map Prod.snd) → members.Perm shuffled →
        Similar (.object shuffled) (.object members')

mutual

/-- A value is similar to its sorted form. -/
theorem Value.similar_ordered (sortKeys : Bool) :
    (value : Value F) → (value.ordered sortKeys).Similar value
  | .null | .bool _ | .int _ | .float _ | .str _ => .same _
  | .array items => .array (Value.similar_orderedItems sortKeys items)
  | .object members => by
    refine .object (map_fst_orderedMembers sortKeys members) ?_ (perm_ordered sortKeys _).symm
    exact Value.similar_orderedMembers sortKeys members

theorem Value.similar_orderedItems (sortKeys : Bool) : (items : List (Value F)) →
    List.Forall₂ Value.Similar (Value.orderedItems sortKeys items) items
  | [] => .nil
  | item :: items =>
    .cons (Value.similar_ordered sortKeys item) (Value.similar_orderedItems sortKeys items)

theorem Value.similar_orderedMembers (sortKeys : Bool) : (members : List (String × Value F)) →
    List.Forall₂ Value.Similar ((Value.orderedMembers sortKeys members).map Prod.snd)
      (members.map Prod.snd)
  | [] => .nil
  | (_, value) :: members =>
    .cons (Value.similar_ordered sortKeys value) (Value.similar_orderedMembers sortKeys members)

end

mutual

/-- What does not depend on the order of the keys holds in either order. -/
theorem Value.all_ordered {f : F → Prop} {t : String → Prop} {k : List String → Prop}
    (hk : ∀ {keys keys' : List String}, keys.Perm keys' → (k keys ↔ k keys')) (sortKeys : Bool) :
    (value : Value F) → ((value.ordered sortKeys).All f t k ↔ value.All f t k)
  | .null | .bool _ | .int _ | .float _ | .str _ => .rfl
  | .array items => Value.allItems_ordered hk sortKeys items
  | .object members => by
    have hperm := perm_ordered sortKeys (Value.orderedMembers sortKeys members)
    rw [Value.ordered, Value.All, Value.All, hk (hperm.map Prod.fst), map_fst_orderedMembers,
      ← Value.allMembers_ordered hk sortKeys members]
    refine and_congr_right fun _ => ?_
    rw [Value.allMembers_iff, Value.allMembers_iff]
    exact forall_congr' fun member => by rw [hperm.mem_iff]

/-- Sorting keeps what holds in all items. -/
theorem Value.allItems_ordered {f : F → Prop} {t : String → Prop} {k : List String → Prop}
    (hk : ∀ {keys keys' : List String}, keys.Perm keys' → (k keys ↔ k keys')) (sortKeys : Bool) :
    (items : List (Value F)) →
      (Value.AllItems f t k (Value.orderedItems sortKeys items) ↔ Value.AllItems f t k items)
  | [] => .rfl
  | item :: items =>
    and_congr (Value.all_ordered hk sortKeys item) (Value.allItems_ordered hk sortKeys items)

/-- Sorting keeps what holds in all members. -/
theorem Value.allMembers_ordered {f : F → Prop} {t : String → Prop} {k : List String → Prop}
    (hk : ∀ {keys keys' : List String}, keys.Perm keys' → (k keys ↔ k keys')) (sortKeys : Bool) :
    (members : List (String × Value F)) →
      (Value.AllMembers f t k (Value.orderedMembers sortKeys members) ↔
        Value.AllMembers f t k members)
  | [] => .rfl
  | (_, value) :: members =>
    and_congr .rfl (and_congr (Value.all_ordered hk sortKeys value)
      (Value.allMembers_ordered hk sortKeys members))

end

end RtpMux.JsonReader
