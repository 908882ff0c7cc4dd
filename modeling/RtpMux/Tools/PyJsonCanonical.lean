import RtpMux.PrefixCode
import RtpMux.Tools.PyJson

/-!
# Sorted dumps (`tools/pyjson.rs`)

`dumps` with sorted keys writes the same text for two values just if they are the same up to the
order of members. One direction is that sorting forgets the order. The other is that a text is the
text of one value only: the first character tells the kind, a number ends where no numeral goes on,
a string at its quote, and the rest at commas and brackets. The parser is no help here, since it
refuses the surrogate pairs that the writer puts out; the escapes are read by a decoder of their
own.
-/

namespace RtpMux.JsonReader

open Text (isAsciiDigit isAsciiWhitespace)
open JsonTree
open PrefixCode (IsPrefixCode Told told_separated ends_separated)

variable {F : Type}

/-! ## What a text begins with -/

/-- The kinds of values that the first character tells apart. -/
inductive Lead where
  | null
  | true
  | false
  | number
  | string
  | array
  | object
deriving DecidableEq

/-- The kind of value that a first character announces. -/
def leadOf : Char → Lead
  | 'n' => .null
  | 't' => .true
  | 'f' => .false
  | '"' => .string
  | '[' => .array
  | '{' => .object
  | _ => .number

/-- The kind of a value. -/
def Value.lead : Value F → Lead
  | .null => .null
  | .bool true => .true
  | .bool false => .false
  | .int _ | .float _ => .number
  | .str _ => .string
  | .array _ => .array
  | .object _ => .object

theorem leadOf_digit {c : Char} (h : isAsciiDigit c = true) : leadOf c = .number := by
  unfold leadOf
  split
  all_goals first | rfl | cases h

/-- A numeral begins like a number. -/
theorem numeral_head (n : Numeral) : ∃ c rest, n.text = c :: rest ∧ leadOf c = .number ∧
    c ≠ ']' := by
  obtain ⟨negative, whole, fraction, power, hbegins⟩ := n
  cases negative with
  | true => exact ⟨'-', _, rfl, rfl, by decide⟩
  | false =>
    obtain ⟨c, cs, hc⟩ := List.exists_cons_of_ne_nil (hbegins.resolve_left (by decide))
    have hdigit : isAsciiDigit c = true := whole.all c (by simp [hc])
    refine ⟨c, _, by simp [Numeral.text, signText, hc]; rfl, leadOf_digit hdigit, ?_⟩
    rintro rfl
    cases hdigit

/-! ## Brackets -/

theorem not_mem_blank {space : Blank} {c : Char} (h : isAsciiWhitespace c = false) :
    c ∉ space.chars := by
  intro hmem
  rw [space.all c hmem] at h
  cases h

/-- A text that may stand behind a value in brackets. -/
theorem blank_append_ne {space : Blank} {c e : Char} {x y : List Char}
    (hc : isAsciiWhitespace c = false)
    (hne : c ≠ e) : c :: x ≠ space.chars ++ e :: y := by
  intro heq
  cases hchars : space.chars with
  | nil =>
    rw [hchars] at heq
    exact hne (List.cons.inj heq).1
  | cons b bs =>
    rw [hchars] at heq
    refine @not_mem_blank space _ hc ?_
    rw [hchars, (List.cons.inj heq).1]
    exact List.mem_cons_self

theorem bracketed_cons_append {α : Type} (write : α → List Char) (layout : Layout) (depth : Nat)
    (opening closing : Char) (a : α) (as : List α) (x : List Char) :
    layout.bracketed depth opening closing ((a :: as).map write) ++ x =
      opening :: ((layout.opening depth).chars ++ (write a ++
        (as.flatMap (fun a => (',' :: (layout.next depth).chars) ++ write a) ++
          (((layout.closing depth).chars ++ [closing]) ++ x)))) := by
  simp [Layout.bracketed, List.flatMap_map]

/-- Texts in brackets are told apart if each of them is. -/
theorem told_bracketed {α : Type} {write : α → List Char} {valid : α → Prop} (layout : Layout)
    (depth : Nat)
    {opening closing : Char} (hclosing : isAsciiWhitespace closing = false) (hcomma : closing ≠ ',')
    (hnumeral : isNumeralChar closing = false)
    (hhead : ∀ a, valid a → ∃ c rest, write a = c :: rest ∧ c ≠ closing) {as bs : List α}
    (has : ∀ a ∈ as, Told write valid (Run.Ends isNumeralChar) a) (hvalid : ∀ a ∈ as, valid a)
    (hbs : ∀ b ∈ bs, valid b) {x y : List Char}
    (heq : layout.bracketed depth opening closing (as.map write) ++ x =
      layout.bracketed depth opening closing (bs.map write) ++ y) : as = bs ∧ x = y := by
  have hsep : ∀ z, Run.Ends isNumeralChar ((',' :: (layout.next depth).chars) ++ z) :=
    fun _ => Run.ends_cons rfl
  have hstop : ∀ z, Run.Ends isNumeralChar (((layout.closing depth).chars ++ [closing]) ++ z) := by
    intro z
    rw [List.append_assoc]
    exact ends_blank _ hnumeral z
  have hne : ∀ z z',
      (',' :: (layout.next depth).chars) ++ z ≠ ((layout.closing depth).chars ++ [closing]) ++
        z' := by
    intro z z'
    rw [List.append_assoc]
    exact blank_append_ne rfl hcomma.symm
  -- an empty pair of brackets is closed at once, where the others have a text
  have hempty : ∀ {a : α} {z z' : List Char}, valid a →
      closing :: z ≠ (layout.opening depth).chars ++ (write a ++ z') := by
    intro a z z' ha
    obtain ⟨c, rest, hwrite, hc⟩ := hhead a ha
    rw [hwrite]
    exact blank_append_ne hclosing hc.symm
  cases as with
  | nil =>
    cases bs with
    | nil => exact ⟨rfl, (List.cons.inj (List.cons.inj heq).2).2⟩
    | cons b bs =>
      rw [bracketed_cons_append] at heq
      exact absurd (List.cons.inj heq).2 (hempty (hbs b List.mem_cons_self))
  | cons a as =>
    cases bs with
    | nil =>
      rw [bracketed_cons_append] at heq
      exact absurd (List.cons.inj heq).2.symm (hempty (hvalid a List.mem_cons_self))
    | cons b bs =>
      rw [bracketed_cons_append, bracketed_cons_append] at heq
      obtain ⟨rfl, hrest⟩ :=
        has a List.mem_cons_self (hbs b List.mem_cons_self) (ends_separated hsep hstop as x)
        (ends_separated hsep hstop bs y) (List.append_cancel_left (List.cons.inj heq).2)
      obtain ⟨rfl, hxy⟩ :=
        told_separated hsep hstop hne (fun a ha => has a (List.mem_cons_of_mem _ ha))
        (fun b hb => hbs b (List.mem_cons_of_mem _ hb)) hrest
      exact ⟨rfl, hxy⟩

section Injective

variable {d : Dialect F} {s : Style F} {float : F → Prop} {plain : Char → Prop}
  {keys : List String → Prop}

/-- The values that are told apart. -/
def Value.Valid (float : F → Prop) (keys : List String → Prop) (value : Value F) : Prop :=
  value.All float (fun _ => True) keys

/-- A number is the text of a numeral that is read as it. -/
theorem Reads.number (h : Reads d s float plain) (layout : Layout) {value : Value F}
    (hvalid : value.Valid float keys)
    (hlead : value.lead = .number) (depth : Nat) :
    ∃ n : Numeral, n.text = s.write layout false value depth ∧
      d.convert n.text (isFloat n) = some value := by
  cases value with
  | int value => exact h.int value
  | float value => exact h.float value hvalid
  | bool value => cases value <;> cases hlead
  | null | str _ | array _ | object _ => cases hlead

/-- A written value begins as its kind does. -/
theorem Reads.write_head (h : Reads d s float plain) (layout : Layout) {value : Value F}
    (hvalid : value.Valid float keys) (depth : Nat) :
    ∃ c rest, s.write layout false value depth = c :: rest ∧ leadOf c = value.lead ∧ c ≠ ']' := by
  by_cases hnumber : value.lead = .number
  · obtain ⟨n, htext, -⟩ := h.number layout hvalid hnumber depth
    rw [← htext, hnumber]
    exact numeral_head n
  · cases value with
    | null => exact ⟨_, _, rfl, rfl, by decide⟩
    | bool value => cases value <;> exact ⟨_, _, rfl, rfl, by decide⟩
    | int _ | float _ => exact absurd rfl hnumber
    | str text => exact ⟨_, _, by rw [Style.write, Style.string], rfl, by decide⟩
    | array items =>
      obtain ⟨rest, hrest⟩ :=
        bracketed_head layout depth '[' ']' (s.writeItems layout false items (depth + 1))
      exact ⟨'[', rest, by rw [Style.write, hrest], rfl, by decide⟩
    | object members =>
      rw [Style.write]
      obtain ⟨rest, hrest⟩ := bracketed_head layout depth '{' '}' _
      exact ⟨'{', rest, hrest, rfl, by decide⟩

/-! ## What is told by a text -/

/-- Characters that can be told apart, none of which is written with a quote in front. -/
structure Style.TellsChars (s : Style F) : Prop where
  code : IsPrefixCode s.char
  quote : ∀ c, ∃ e rest, s.char c = e :: rest ∧ e ≠ '"'

/-- A written string is told from every other. -/
theorem Style.TellsChars.string (hs : s.TellsChars) {a b : String} {x y : List Char}
    (heq : s.string a ++ x = s.string b ++ y) : a = b ∧ x = y := by
  simp only [Style.string, List.cons_append, List.append_assoc, List.nil_append] at heq
  obtain ⟨htext, hxy⟩ := hs.code.flatMap_append hs.quote (List.cons.inj heq).2
  exact ⟨String.toList_injective htext, hxy⟩

/-- The items are written one by one. -/
theorem writeItems_eq (s : Style F) (layout : Layout) (sortKeys : Bool) (items : List (Value F))
    (depth : Nat) :
    s.writeItems layout sortKeys items depth = items.map fun item =>
      s.write layout sortKeys item depth := by
  induction items with
  | nil => rfl
  | cons item items ih => rw [Style.writeItems, ih, List.map_cons]

/-- A property of all items, item by item. -/
theorem Value.allItems_iff {f : F → Prop} {t : String → Prop} {k : List String → Prop}
    {items : List (Value F)} :
    AllItems f t k items ↔ ∀ item ∈ items, item.All f t k := by
  induction items with
  | nil => simp [AllItems]
  | cons item items ih => rw [AllItems, ih, List.forall_mem_cons]

/-- An object is written as its members in braces. -/
theorem write_object (s : Style F) (layout : Layout) (members : List (String × Value F))
    (depth : Nat) :
    s.write layout false (.object members) depth = layout.bracketed depth '{' '}'
      (members.map fun member => s.member member.1
        (s.write layout false member.2 (depth + 1))) := by
  rw [Style.write, writeMembers_eq, ordered, if_neg (by decide), List.map_map]
  rfl

/-- The text of a value and an end behind it. -/
abbrev Tells (s : Style F) (layout : Layout) (float : F → Prop) (keys : List String → Prop)
    (depth : Nat)
    (value : Value F) : Prop :=
  Told (fun value => s.write layout false value depth) (Value.Valid float keys)
    (Run.Ends isNumeralChar) value

/-- Values written alike are of one kind. -/
theorem Reads.lead_eq (h : Reads d s float plain) (layout : Layout) {v w : Value F}
    (hv : v.Valid float keys)
    (hw : w.Valid float keys) (depth : Nat) {x y : List Char}
    (heq : s.write layout false v depth ++ x = s.write layout false w depth ++ y) :
    v.lead = w.lead := by
  obtain ⟨c, rest, hc, hlead, -⟩ := h.write_head layout hv depth
  obtain ⟨e, rest', he, hlead', -⟩ := h.write_head layout hw depth
  rw [hc, he] at heq
  rw [← hlead, ← hlead', (List.cons.inj heq).1]

/-- Numbers are told apart by what they are read as. -/
theorem Reads.tells_number (h : Reads d s float plain) (layout : Layout) {v : Value F}
    (hv : v.Valid float keys)
    (hlead : v.lead = .number) (depth : Nat) : Tells s layout float keys depth v := by
  intro w x y hw hx hy heq
  obtain ⟨n, hn, hvalue⟩ := h.number layout hv hlead depth
  obtain ⟨m, hm, hvalue'⟩ :=
    h.number layout hw ((h.lead_eq layout hv hw depth heq).symm.trans hlead) depth
  have hread := n.read_text hx
  rw [hn, heq] at hread
  dsimp only at hread
  rw [← hm, m.read_text hy] at hread
  cases hread
  exact ⟨Option.some.inj (hvalue.symm.trans hvalue'), rfl⟩

mutual

/-- **The text of a value is its own.** -/
theorem Reads.tells (h : Reads d s float plain) (hs : s.TellsChars) (layout : Layout) :
    (v : Value F) → (depth : Nat) → v.Valid float keys → Tells s layout float keys depth v
  | .int value, depth, hv => h.tells_number layout hv rfl depth
  | .float value, depth, hv => h.tells_number layout hv rfl depth
  | .null, depth, hv => by
    intro w x y hw hx hy heq
    have hlead := h.lead_eq layout hv hw depth heq
    cases w with
    | null => exact ⟨rfl, List.append_cancel_left heq⟩
    | bool b => cases b <;> cases hlead
    | int _ | float _ | str _ | array _ | object _ => cases hlead
  | .bool b, depth, hv => by
    intro w x y hw hx hy heq
    have hlead := h.lead_eq layout hv hw depth heq
    cases w with
    | bool b' =>
      obtain rfl : b = b' := by
        cases b <;> cases b' <;> first | rfl | cases hlead
      exact ⟨rfl, List.append_cancel_left heq⟩
    | null | int _ | float _ | str _ | array _ | object _ => cases b <;> cases hlead
  | .str text, depth, hv => by
    intro w x y hw hx hy heq
    have hlead := h.lead_eq layout hv hw depth heq
    cases w with
    | str text' =>
      obtain ⟨rfl, hxy⟩ := hs.string heq
      exact ⟨rfl, hxy⟩
    | bool b => cases b <;> cases hlead
    | null | int _ | float _ | array _ | object _ => cases hlead
  | .array items, depth, hv => by
    intro w x y hw hx hy heq
    have hlead := h.lead_eq layout hv hw depth heq
    cases w with
    | array items' =>
      dsimp only at heq
      rw [Style.write, Style.write, writeItems_eq, writeItems_eq] at heq
      obtain ⟨rfl, hxy⟩ := told_bracketed layout depth rfl (by decide) rfl
        (fun v hv => by
          obtain ⟨c, rest, hwrite, -, hc⟩ := h.write_head layout hv (depth + 1)
          exact ⟨c, rest, hwrite, hc⟩)
        (h.tells_items hs layout items (depth + 1) hv) (Value.allItems_iff.mp hv)
          (Value.allItems_iff.mp hw) heq
      exact ⟨rfl, hxy⟩
    | bool b => cases b <;> cases hlead
    | null | int _ | float _ | str _ | object _ => cases hlead
  | .object members, depth, hv => by
    intro w x y hw hx hy heq
    have hlead := h.lead_eq layout hv hw depth heq
    cases w with
    | object members' =>
      dsimp only at heq
      rw [write_object, write_object] at heq
      have hmember : ∀ member ∈ members, Told (fun member : String × Value F =>
          s.member member.1 (s.write layout false member.2 (depth + 1)))
            (fun member => member.2.Valid float keys)
            (Run.Ends isNumeralChar) member := by
        intro member hmem b x y hb hx hy heq
        simp only [Style.member, List.append_assoc] at heq
        obtain ⟨hkey, hrest⟩ := hs.string heq
        obtain ⟨hvalue, hxy⟩ :=
          h.tells_members hs layout members (depth + 1) hv.2 member hmem hb hx hy
          (List.append_cancel_left hrest)
        exact ⟨Prod.ext hkey hvalue, hxy⟩
      obtain ⟨rfl, hxy⟩ := told_bracketed layout depth rfl (by decide) rfl
        (fun _ _ => ⟨'"', _, rfl, by decide⟩) hmember
          (fun m hm => (Value.allMembers_iff.mp hv.2 m hm).2)
        (fun m hm => (Value.allMembers_iff.mp hw.2 m hm).2) heq
      exact ⟨rfl, hxy⟩
    | bool b => cases b <;> cases hlead
    | null | int _ | float _ | str _ | array _ => cases hlead

/-- Items written alike are equal. -/
theorem Reads.tells_items (h : Reads d s float plain) (hs : s.TellsChars) (layout : Layout) :
    (items : List (Value F)) → (depth : Nat) → Value.AllItems float (fun _ => True) keys items →
      ∀ item ∈ items, Tells s layout float keys depth item
  | [], _, _ => fun _ hmem => nomatch hmem
  | item :: items, depth, hv => by
    intro other hmem
    rcases List.mem_cons.mp hmem with heq | hmem
    · rw [heq]
      exact h.tells hs layout item depth hv.1
    · exact h.tells_items hs layout items depth hv.2 other hmem

/-- Members written alike are equal. -/
theorem Reads.tells_members (h : Reads d s float plain) (hs : s.TellsChars) (layout : Layout) :
    (members : List (String × Value F)) → (depth : Nat) →
      Value.AllMembers float (fun _ => True) keys members →
      ∀ member ∈ members, Tells s layout float keys depth member.2
  | [], _, _ => fun _ hmem => nomatch hmem
  | (key, value) :: members, depth, hv => by
    intro other hmem
    rcases List.mem_cons.mp hmem with heq | hmem
    · rw [heq]
      exact h.tells hs layout value depth hv.2.1
    · exact h.tells_members hs layout members depth hv.2.2 other hmem

end

end Injective

/-! ## Sorted members -/

/-- Sorted members ascend. -/
theorem pairwise_ordered {α : Type} (entries : List (String × α)) :
    (ordered true entries).Pairwise fun a b => a.1 ≤ b.1 := by
  have htotal : Std.Total fun a b : String × α => a.1 ≤ b.1 := ⟨fun a b => le_total a.1 b.1⟩
  have htrans : IsTrans (String × α) fun a b => a.1 ≤ b.1 := ⟨fun _ _ _ => le_trans⟩
  exact List.pairwise_insertionSort _ entries

/-- Sorting forgets the order of members with distinct keys. -/
theorem ordered_perm {α : Type} {entries entries' : List (String × α)} (h : entries.Perm entries')
    (hkeys : (entries'.map Prod.fst).Nodup) : ordered true entries = ordered true entries' := by
  have hperm := ((perm_ordered true entries).trans h).trans (perm_ordered true entries').symm
  refine List.Perm.eq_of_pairwise (fun a b ha hb hab hba => ?_) (pairwise_ordered entries)
    (pairwise_ordered entries') hperm
  have ha' : a ∈ entries' := h.mem_iff.mp ((perm_ordered true entries).mem_iff.mp ha)
  exact List.inj_on_of_nodup_map hkeys ha' ((perm_ordered true entries').mem_iff.mp hb)
    (le_antisymm hab hba)

mutual

/-- Values that differ in the order of members are sorted alike. -/
theorem Value.Similar.ordered_congr {f : F → Prop} {t : String → Prop} :
    (w : Value F) → w.All f t List.Nodup →
    ∀ {v : Value F}, v.Similar w → v.ordered true = w.ordered true
  | .null, _, _, h | .bool _, _, _, h | .int _, _, _, h | .float _, _, _, h | .str _, _, _, h => by
    cases h
    rfl
  | .array items, hw, _, h => by
    cases h with
    | same => rfl
    | array hitems =>
      rw [Value.ordered, Value.ordered, Value.Similar.orderedItems_congr items hw hitems]
  | .object members', hw, _, h => by
    cases h with
    | same => rfl
    | @object members _ shuffled hkeys hvalues hperm =>
      have hmembers := Value.Similar.orderedMembers_congr members' hw.2 hkeys hvalues
      have hshuffled : (orderedMembers true shuffled).Perm (orderedMembers true members) := by
        rw [orderedMembers_eq, orderedMembers_eq]
        exact hperm.symm.map _
      rw [Value.ordered, Value.ordered, ← hmembers]
      refine congrArg Value.object (ordered_perm hshuffled ?_)
      rw [hmembers, map_fst_orderedMembers]
      exact hw.1

/-- Similar items are sorted into equal ones. -/
theorem Value.Similar.orderedItems_congr {f : F → Prop} {t : String → Prop} :
    (items' : List (Value F)) →
    AllItems f t List.Nodup items' → ∀ {items : List (Value F)}, List.Forall₂ Similar items items' →
      orderedItems true items = orderedItems true items'
  | [], _, _, h => by
    cases h
    rfl
  | item' :: items', hw, _, h => by
    cases h with
    | cons hitem hitems =>
      rw [orderedItems, orderedItems, Value.Similar.ordered_congr item' hw.1 hitem,
        Value.Similar.orderedItems_congr items' hw.2 hitems]

/-- Similar members are sorted into equal ones. -/
theorem Value.Similar.orderedMembers_congr {f : F → Prop} {t : String → Prop} :
    (members' : List (String × Value F)) → AllMembers f t List.Nodup members' →
      ∀ {members : List (String × Value F)}, members.map Prod.fst = members'.map Prod.fst →
        List.Forall₂ Similar (members.map Prod.snd) (members'.map Prod.snd) →
          orderedMembers true members = orderedMembers true members'
  | [], _, members, hkeys, _ => by
    rw [List.map_eq_nil_iff.mp hkeys]
  | (key', value') :: members', hw, members, hkeys, hvalues => by
    cases members with
    | nil => cases hkeys
    | cons member members =>
      cases hvalues with
      | cons hvalue hvalues =>
        obtain ⟨hkey, hkeys⟩ := List.cons.inj hkeys
        have hhead := Value.Similar.ordered_congr value' hw.2.1 hvalue
        rw [orderedMembers, orderedMembers,
          Value.Similar.orderedMembers_congr members' hw.2.2 hkeys hvalues, hhead]
        exact congrArg (fun key => (key, value'.ordered true) :: orderedMembers true members') hkey

end

/-- One of two lists can be put in an order in which their images are the same. -/
theorem exists_perm_of_map_perm {α β : Type} {g : α → β} {l l' : List α}
    (h : (l.map g).Perm (l'.map g)) :
    ∃ m : List α, m.Perm l ∧ m.map g = l'.map g := by
  have hl : List.Forall₂ (fun b a => b = g a) (l.map g) l := by
    rw [List.forall₂_map_left_iff]
    exact List.forall₂_same.mpr fun _ _ => rfl
  obtain ⟨m, hm, hperm⟩ := List.perm_comp_forall₂ h.symm hl
  refine ⟨m, hperm, ?_⟩
  have heq : List.Forall₂ (· = ·) (l'.map g) (m.map g) := List.forall₂_map_right_iff.mpr hm
  exact (List.forall₂_eq_eq_eq ▸ heq).symm

mutual

/-- Values that are sorted alike differ in the order of members. -/
theorem Value.similar_of_ordered_eq : (w : Value F) → ∀ {v : Value F},
    v.ordered true = w.ordered true → v.Similar w
  | .null, v, h | .bool _, v, h | .int _, v, h | .float _, v, h | .str _, v, h => by
    cases v with
    | array _ | object _ => cases h
    | null | bool _ | int _ | float _ | str _ => cases h <;> exact .same _
  | .array items', v, h => by
    cases v with
    | array items => exact .array (Value.similar_of_orderedItems_eq items' (Value.array.inj h))
    | null | bool _ | int _ | float _ | str _ | object _ => cases h
  | .object members', v, h => by
    cases v with
    | object shuffled =>
      have hperm : (orderedMembers true shuffled).Perm (orderedMembers true members') :=
        ((perm_ordered true _).symm.trans (.of_eq (Value.object.inj h))).trans (perm_ordered true _)
      rw [orderedMembers_eq, orderedMembers_eq] at hperm
      obtain ⟨members, hshuffled, heq⟩ := exists_perm_of_map_perm hperm
      obtain ⟨hkeys, hvalues⟩ := Value.similar_of_orderedMembers_eq members' heq
      exact .object hkeys hvalues hshuffled
    | null | bool _ | int _ | float _ | str _ | array _ => cases h

/-- Items that are sorted into equal ones are similar. -/
theorem Value.similar_of_orderedItems_eq : (items' : List (Value F)) → ∀ {items : List (Value F)},
    orderedItems true items = orderedItems true items' → List.Forall₂ Similar items items'
  | [], items, h => by
    cases items with
    | nil => exact .nil
    | cons item items => cases h
  | item' :: items', items, h => by
    cases items with
    | nil => cases h
    | cons item items =>
      obtain ⟨hitem, hitems⟩ := List.cons.inj h
      exact .cons (Value.similar_of_ordered_eq item' hitem)
        (Value.similar_of_orderedItems_eq items' hitems)

/-- Members that are sorted into equal ones are similar. -/
theorem Value.similar_of_orderedMembers_eq : (members' : List (String × Value F)) →
    ∀ {members : List (String × Value F)}, members.map (fun m => (m.1, m.2.ordered true)) =
      members'.map (fun m => (m.1, m.2.ordered true)) →
        members.map Prod.fst = members'.map Prod.fst ∧
          List.Forall₂ Similar (members.map Prod.snd) (members'.map Prod.snd)
  | [], members, h => by
    rw [List.map_eq_nil_iff.mp h]
    exact ⟨rfl, .nil⟩
  | (key', value') :: members', members, h => by
    cases members with
    | nil => cases h
    | cons member members =>
      obtain ⟨hmember, hmembers⟩ := List.cons.inj h
      obtain ⟨hkeys, hvalues⟩ := Value.similar_of_orderedMembers_eq members' hmembers
      obtain ⟨hkey, hvalue⟩ := Prod.mk.inj hmember
      exact ⟨congrArg₂ List.cons hkey hkeys,
        .cons (Value.similar_of_ordered_eq value' hvalue) hvalues⟩

end

end RtpMux.JsonReader

namespace RtpMux.Pyjson

open JsonTree JsonReader
open PrefixCode (IsPrefixCode isPrefixCode_of_read)
open Pyformat (FloatEngine)

variable {F : Type}

/-! ## Characters -/

/-- The character in front that was written as escapes, two for one beyond four digits. -/
def readWritten : List Char → Option (Char × List Char)
  | '\\' :: 'u' :: a :: b :: c :: d :: rest =>
    (fromStrRadix16 [a, b, c, d]).bind fun high =>
      if 0xd800 ≤ high ∧ high < 0xdc00 then
        match rest with
        | _ :: _ :: a :: b :: c :: d :: rest =>
          (fromStrRadix16 [a, b, c, d]).map fun low =>
            (Char.ofNat (0x10000 + (high - 0xd800) * 2 ^ 10 + (low - 0xdc00)), rest)
        | _ => none
      else some (Char.ofNat high, rest)
  | '\\' :: letter :: rest => (shortEscape letter).map (·, rest)
  | c :: rest => some (c, rest)
  | [] => none

/-- A unit that was written is read back. -/
theorem readWritten_unit {code : Nat} (hcode : code < 2 ^ 16) (x : List Char) :
    readWritten ((['\\', 'u'] ++ hex4 code) ++ x) =
      if 0xd800 ≤ code ∧ code < 0xdc00 then
        match x with
        | _ :: _ :: a :: b :: c :: d :: rest =>
          (fromStrRadix16 [a, b, c, d]).map fun low =>
            (Char.ofNat (0x10000 + (code - 0xd800) * 2 ^ 10 + (low - 0xdc00)), rest)
        | _ => none
      else some (Char.ofNat code, x) := by
  obtain ⟨a, b, c, e, heq⟩ := List.length_eq_four.1 (length_hex4 hcode)
  have hvalue := fromStrRadix16_hex4 code
  rw [heq] at hvalue ⊢
  simp only [List.cons_append, List.nil_append, readWritten, hvalue, Option.bind_some]

/-- A short escape that was written is read back. -/
theorem readWritten_short {c letter : Char} (h : escapeLetter c = some letter) (x : List Char) :
    readWritten ('\\' :: letter :: x) = some (c, x) := by
  obtain ⟨hu, hshort⟩ := shortEscape_escapeLetter h
  simp [readWritten, hu, hshort]

/-- A character that was written is read back. -/
theorem readWritten_writeChar (c : Char) (x : List Char) :
    readWritten (writeChar c ++ x) = some (c, x) := by
  have hvalid : c.toNat.isValidChar := c.valid
  unfold Nat.isValidChar at hvalid
  unfold writeChar
  cases hletter : escapeLetter c with
  | some letter => exact readWritten_short hletter x
  | none =>
    have hunit (hbasic : c.toNat ≤ 0xffff) : readWritten ((['\\', 'u'] ++ hex4 c.toNat) ++ x) =
        some (c, x) := by
      rw [readWritten_unit (by omega), if_neg (by omega), Char.ofNat_toNat]
    dsimp only
    split
    · exact hunit (by omega)
    · split
      · have hne := (ordinary_of_escapeLetter hletter).2
        simp [readWritten, hne]
      · split
        · next hbasic => exact hunit hbasic
        · next hbeyond =>
          have hoffset := offset_lt c
          have hlow : 0xdc00 + (c.toNat - 0x10000) % 2 ^ 10 < 2 ^ 16 := by omega
          obtain ⟨a, b, e, f, heq⟩ := List.length_eq_four.1 (length_hex4 hlow)
          have hvalue := fromStrRadix16_hex4 (0xdc00 + (c.toNat - 0x10000) % 2 ^ 10)
          rw [List.append_assoc, readWritten_unit (by omega), if_pos ⟨by omega, by omega⟩]
          rw [heq] at hvalue ⊢
          simp only [List.cons_append, List.nil_append, hvalue, Option.map_some]
          have hcode : 0x10000 + (0xd800 + (c.toNat - 0x10000) >>> 10 - 0xd800) * 2 ^ 10 +
              (0xdc00 + (c.toNat - 0x10000) % 2 ^ 10 - 0xdc00) = c.toNat := by
            rw [Nat.shiftRight_eq_div_pow]
            omega
          rw [hcode, Char.ofNat_toNat]

/-- A written character does not begin with a quote. -/
theorem writeChar_head (c : Char) : ∃ e rest, writeChar c = e :: rest ∧ e ≠ '"' := by
  unfold writeChar
  cases hletter : escapeLetter c with
  | some letter => exact ⟨_, _, rfl, by decide⟩
  | none =>
    dsimp only
    split
    · exact ⟨_, _, rfl, by decide⟩
    · split
      · exact ⟨c, [], rfl, (ordinary_of_escapeLetter hletter).1⟩
      · split
        · exact ⟨_, _, rfl, by decide⟩
        · exact ⟨_, _, rfl, by decide⟩

/-- The writer tells characters apart. -/
theorem tellsChars_pyjson (engine : FloatEngine F) (floats : Floats F) :
    (pyjsonStyle engine floats).TellsChars :=
  ⟨isPrefixCode_of_read readWritten_writeChar, writeChar_head⟩

/-! ## Sorted dumps -/

/-- **Sorted dumps are canonical.** -/
theorem sorted_dumps_eq_iff {engine : FloatEngine F} {floats : Floats F}
    (hprints : Prints engine floats)
    (v w : Value F) (hv : IsProper floats v) (hw : IsProper floats w) (indent : Option Nat) :
    dumps engine floats v true indent = dumps engine floats w true indent ↔ v.Similar w := by
  have hperm {keys keys' : List String} (h : keys.Perm keys') : keys.Nodup ↔ keys'.Nodup :=
    h.nodup_iff
  have hsorted (value : Value F) : dumps engine floats value true indent =
      String.ofList ((pyjsonStyle engine floats).write (layoutOf indent) false
        (value.ordered true) 0) := by
    rw [dumps, write_ordered]
  rw [hsorted, hsorted]
  constructor
  · intro heq
    have htold := (reads_pyjson hprints).tells (tellsChars_pyjson engine floats) (layoutOf indent)
        (v.ordered true) 0
      ((Value.all_ordered hperm true v).2 hv)
    have hsame : v.ordered true = w.ordered true ∧ ([] : List Char) = [] :=
      htold ((Value.all_ordered hperm true w).2 hw) Run.ends_nil Run.ends_nil
        (congrArg (· ++ []) (String.ofList_injective heq))
    exact Value.similar_of_ordered_eq w hsame.1
  · intro hsimilar
    rw [Value.Similar.ordered_congr w hw hsimilar]

/-- A report and the same with its members the other way round, a character beyond four digits among
them. -/
def swapped : Value Int × Value Int :=
  (.object [("arm", .str "😀"), ("runs", .array [.float 3, .int ⟨3, by decide⟩])],
    .object [("runs", .array [.float 3, .int ⟨3, by decide⟩]), ("arm", .str "😀")])

/-- An object and the same with its members swapped. -/
theorem sorted_dumps_eq_iff_swapped : Prints wholeEngine wholeFloats ∧
    IsProper wholeFloats swapped.1 ∧
    IsProper wholeFloats swapped.2 ∧
      (dumps wholeEngine wholeFloats swapped.1 true none =
        dumps wholeEngine wholeFloats swapped.2 true none ↔
        swapped.1.Similar swapped.2) ∧ swapped.1.Similar swapped.2 := by
  have hfirst : IsProper wholeFloats swapped.1 := by
    simp only [IsProper, swapped, Value.All, Value.AllMembers, Value.AllItems, and_true, true_and,
      List.map_cons,
      List.map_nil]
    exact ⟨by decide, by decide⟩
  have hsecond : IsProper wholeFloats swapped.2 := by
    simp only [IsProper, swapped, Value.All, Value.AllMembers, Value.AllItems, and_true, true_and,
      List.map_cons,
      List.map_nil]
    exact ⟨by decide, by decide⟩
  refine ⟨prints_whole, hfirst, hsecond,
    sorted_dumps_eq_iff prints_whole _ _ hfirst hsecond none, ?_⟩
  exact .object rfl (List.forall₂_same.mpr fun _ _ => .same _) (List.Perm.swap _ _ [])

end RtpMux.Pyjson
