import RtpMux.Tools.Imports

/-!
# The items of an import

Paths as they are written in a `use` statement, the module that `normalize_module` makes of one, and
what one item of a statement adds: with a module in front of it, and without one. The crate root has
the empty name, which `parse_imports` takes for no module at all.
-/

namespace RtpMux.CheckGate

/-! ## Segments -/

/-- A segment of a path: no blank in it, and no character that takes a statement apart. -/
structure IsSegment (s : List Char) : Prop where
  ne_nil : s ≠ []
  plain : ∀ c ∈ s, Text.isWhitespace c = false ∧ c ∉ ":,;\x7b\x7d*".toList

/-- A segment that stands for the place of a module. -/
def pathKeywords : List (List Char) := ["crate".toList, "self".toList, "super".toList]

/-- A segment that can name an item. -/
structure IsIdent (s : List Char) : Prop extends IsSegment s where
  notKeyword : s ∉ pathKeywords

instance (s : List Char) : Decidable (IsSegment s) :=
  decidable_of_iff (s ≠ [] ∧
    s.all (fun c => !Text.isWhitespace c && !":,;\x7b\x7d*".toList.contains c) = true)
    ⟨fun h => ⟨h.1, fun c hc => by simpa using List.all_eq_true.1 h.2 c hc⟩,
      fun h => ⟨h.ne_nil, List.all_eq_true.2 fun c hc => by simpa using h.plain c hc⟩⟩

instance (s : List Char) : Decidable (IsIdent s) :=
  decidable_of_iff (IsSegment s ∧ s ∉ pathKeywords) ⟨fun h => ⟨h.1, h.2⟩,
    fun h => ⟨h.toIsSegment, h.notKeyword⟩⟩

/-- A segment of a path. -/
abbrev Segment := { s : List Char // IsSegment s }

/-- An identifier. -/
abbrev Ident := { s : List Char // IsIdent s }

/-! ## Splitting and joining paths -/

theorem splitPath_word {s : List Char} (hs : ':' ∉ s) : splitPath s = [s] := by
  induction s with
  | nil => rfl
  | cons c s ih =>
    have hc : c ≠ ':' := fun h => hs (by simp [h])
    rw [splitPath, ih (fun h => hs (List.mem_cons_of_mem _ h))]
    intro rest h
    exact absurd h hc

/-- The first segment of a path is split off. -/
theorem splitPath_append {s : List Char} (hs : ':' ∉ s) (rest : List Char) :
    splitPath (s ++ ':' :: ':' :: rest) = s :: splitPath rest := by
  induction s with
  | nil => rfl
  | cons c s ih =>
    have hc : c ≠ ':' := fun h => hs (by simp [h])
    rw [List.cons_append, splitPath, ih (fun h => hs (List.mem_cons_of_mem _ h))]
    intro rest h
    exact absurd h hc

/-- **Splitting undoes joining**, where no segment has a colon of its own. -/
theorem splitPath_joinPath {segments : List (List Char)} (hne : segments ≠ [])
    (hs : ∀ s ∈ segments, ':' ∉ s) :
    splitPath (joinPath segments) = segments := by
  induction segments with
  | nil => exact absurd rfl hne
  | cons s segments ih =>
    cases segments with
    | nil => rw [joinPath, List.intercalate_singleton, splitPath_word (hs s List.mem_cons_self)]
    | cons t segments =>
      have hrest := ih (List.cons_ne_nil _ _) (fun u hu => hs u (List.mem_cons_of_mem _ hu))
      rw [joinPath, List.intercalate_cons_cons, ← joinPath, List.append_assoc]
      exact (splitPath_append (hs s List.mem_cons_self) _).trans (congrArg _ hrest)

theorem joinPath_eq_nil_iff {segments : List (List Char)} (hs : ∀ s ∈ segments, s ≠ []) :
    joinPath segments = [] ↔ segments = [] := by
  cases segments with
  | nil => simp [joinPath]
  | cons s segments =>
    have hne := hs s List.mem_cons_self
    cases segments with
    | nil => simp [joinPath, hne]
    | cons t segments => simp [joinPath, List.intercalate_cons_cons]

/-- The characters of a joined text are those of the separators and of the parts. -/
theorem mem_intercalate {c : Char} {separator : List Char} {parts : List (List Char)}
    (h : c ∈ separator.intercalate parts) :
    c ∈ separator ∨ ∃ part ∈ parts, c ∈ part := by
  induction parts with
  | nil => simp at h
  | cons part parts ih =>
    cases parts with
    | nil => exact .inr ⟨part, List.mem_cons_self, by simpa using h⟩
    | cons next parts =>
      rw [List.intercalate_cons_cons, List.append_assoc] at h
      rcases List.mem_append.1 h with h | h
      · exact .inr ⟨part, List.mem_cons_self, h⟩
      · rcases List.mem_append.1 h with h | h
        · exact .inl h
        · rcases ih h with h | ⟨other, hother, h⟩
          · exact .inl h
          · exact .inr ⟨other, List.mem_cons_of_mem _ hother, h⟩

theorem IsSegment.colon {s : List Char} (h : IsSegment s) : ':' ∉ s :=
  fun hc => (h.plain _ hc).2 (by decide)

/-- Two paths with one text are one path. -/
theorem joinPath_inj {p q : List (List Char)} (hp : ∀ s ∈ p, IsSegment s)
    (hq : ∀ s ∈ q, IsSegment s) :
    joinPath p = joinPath q ↔ p = q := by
  constructor
  · intro h
    by_cases hnil : p = []
    · subst hnil
      exact ((joinPath_eq_nil_iff fun s hs => (hq s hs).ne_nil).1 h.symm).symm
    · have hqnil : q ≠ [] := by
        rintro rfl
        exact hnil ((joinPath_eq_nil_iff fun s hs => (hp s hs).ne_nil).1 h)
      rw [← splitPath_joinPath hnil fun s hs => (hp s hs).colon, h,
        splitPath_joinPath hqnil fun s hs => (hq s hs).colon]
  · rintro rfl
    rfl

/-! ## The module of a path -/

/-- `normalize_module` on segments. -/
def resolve (current : List (List Char)) : List (List Char) → List (List Char)
  | [] => current
  | first :: rest =>
    if first = "crate".toList then rest
    else if first ∈ externalRootStems then first :: rest
    else (climb current (first :: rest)).1 ++ (climb current (first :: rest)).2

/-- The module of a joined path. Pieces may be empty: in front of a leading `::` and behind a
closing one. -/
theorem normalizeModule_joinPath {pieces current : List (List Char)} (hne : pieces ≠ [])
    (hs : ∀ s ∈ pieces, ':' ∉ s)
    (hcurrent : ∀ s ∈ current, IsSegment s) :
    normalizeModule (joinPath pieces) (joinPath current) =
      joinPath (resolve current (pieces.filter (· ≠ []))) := by
  have hsplit : (if joinPath current = [] then [] else splitPath (joinPath current)) = current := by
    by_cases hnil : current = []
    · simp [hnil, joinPath]
    · rw [if_neg fun h => hnil ((joinPath_eq_nil_iff fun s hs => (hcurrent s hs).ne_nil).1 h),
        splitPath_joinPath hnil fun s hs => (hcurrent s hs).colon]
  rw [normalizeModule, splitPath_joinPath hne hs, hsplit]
  cases pieces.filter (· ≠ []) with
  | nil => rfl
  | cons first rest =>
    simp only [resolve]
    split_ifs <;> rfl

/-- A path that begins with an identifier climbs nowhere. -/
theorem climb_ident (current q : List (List Char)) {s : List Char} (hs : s ∉ pathKeywords) :
    climb current (s :: q) = (current, s :: q) := by
  simp only [pathKeywords, List.mem_cons, not_or] at hs
  rw [climb, if_neg hs.2.2.1, if_neg hs.2.1]

/-- Behind a first segment, identifiers are taken as they are. -/
theorem climb_append (current p q : List (List Char)) (hq : ∀ s ∈ q, s ∉ pathKeywords) :
    (climb current (p ++ q)).1 ++ (climb current (p ++ q)).2 = (climb current p).1 ++
      (climb current p).2 ++ q := by
  induction p generalizing current with
  | nil =>
    cases q with
    | nil => simp [climb]
    | cons s q =>
      rw [List.nil_append, climb_ident current q (hq s List.mem_cons_self), climb, List.append_nil]
  | cons s p ih =>
    rw [List.cons_append, climb, climb]
    split_ifs
    · exact ih _
    · exact ih _
    · simp

/-- Resolving sees only the front of a path. -/
theorem resolve_append (current q : List (List Char)) {p : List (List Char)} (hp : p ≠ [])
    (hq : ∀ s ∈ q, s ∉ pathKeywords) : resolve current (p ++ q) = resolve current p ++ q := by
  obtain ⟨first, p, rfl⟩ := List.exists_cons_of_ne_nil hp
  have hclimb := climb_append current (first :: p) q hq
  rw [List.cons_append] at hclimb ⊢
  rw [resolve, resolve]
  split_ifs
  · rfl
  · rfl
  · exact hclimb

/-- A path is read from the crate root where it is written in the root or starts with an external
crate. -/
def IsLocal (current q : List (List Char)) : Prop :=
  current = [] ∨ ∃ first ∈ q.head?, first ∈ externalRootStems

/-- A path of identifiers by itself is one of the current module, or external. -/
theorem resolve_idents (current : List (List Char)) {q : List (List Char)}
    (hq : ∀ s ∈ q, s ∉ pathKeywords) (hne : q ≠ []) :
    resolve current q = q ∧ IsLocal current q ∨ resolve current q = current ++ q ∧
      ¬ IsLocal current q := by
  obtain ⟨first, q, rfl⟩ := List.exists_cons_of_ne_nil hne
  have hfirst := hq first List.mem_cons_self
  have hcrate : first ≠ "crate".toList := fun h => hfirst (by simp [pathKeywords, h])
  rw [resolve, if_neg hcrate, climb_ident current q hfirst]
  by_cases hext : first ∈ externalRootStems
  · exact .inl ⟨if_pos hext, .inr ⟨first, rfl, hext⟩⟩
  · rw [if_neg hext]
    by_cases hroot : current = []
    · exact .inl ⟨by simp [hroot], .inl hroot⟩
    · refine .inr ⟨rfl, ?_⟩
      rintro (h | ⟨_, hhead, h⟩)
      · exact hroot h
      · cases hhead
        exact hext h

/-- A path that resolves to itself is local. -/
theorem resolve_eq_self_iff {current q : List (List Char)} (hq : ∀ s ∈ q, s ∉ pathKeywords)
    (hne : q ≠ []) :
    resolve current q = q ↔ IsLocal current q := by
  rcases resolve_idents current hq hne with ⟨h, hlocal⟩ | ⟨h, hlocal⟩
  · exact iff_of_true h hlocal
  · refine iff_of_false ?_ hlocal
    intro heq
    exact hlocal (.inl (by simpa using h.symm.trans heq))

theorem resolve_ne_nil {current q : List (List Char)} (hq : ∀ s ∈ q, s ∉ pathKeywords)
    (hne : q ≠ []) :
    resolve current q ≠ [] := by
  rcases resolve_idents current hq hne with ⟨h, -⟩ | ⟨h, -⟩ <;> simp [h, hne]

/-- Climbing keeps the segments. -/
theorem isSegment_climb {current p : List (List Char)} (hcurrent : ∀ s ∈ current, IsSegment s)
    (hp : ∀ s ∈ p, IsSegment s) :
    ∀ s ∈ (climb current p).1 ++ (climb current p).2, IsSegment s := by
  induction p generalizing current with
  | nil => simpa [climb] using hcurrent
  | cons t p ih =>
    have hrest : ∀ s ∈ p, IsSegment s := fun s hs => hp s (List.mem_cons_of_mem _ hs)
    rw [climb]
    split_ifs
    · exact ih (fun s hs => hcurrent s (List.mem_of_mem_dropLast hs)) hrest
    · exact ih hcurrent hrest
    · intro s hs
      exact (List.mem_append.1 hs).elim (hcurrent s) (hp s)

/-- Resolving keeps the segments. -/
theorem isSegment_resolve {current p : List (List Char)} (hcurrent : ∀ s ∈ current, IsSegment s)
    (hp : ∀ s ∈ p, IsSegment s) : ∀ s ∈ resolve current p, IsSegment s := by
  cases p with
  | nil => exact hcurrent
  | cons first p =>
    rw [resolve]
    split_ifs
    · exact fun s hs => hp s (List.mem_cons_of_mem _ hs)
    · exact hp
    · exact isSegment_climb hcurrent hp

/-! ## Items -/

/-- What a path may end in, with the path in front of it: a name, or everything there is. -/
inductive UseItem where
  | name (path : List Ident) (name : Ident)
  | glob (path : List Ident)

/-- The texts of the segments of a path. -/
def texts (path : List Ident) : List (List Char) := path.map Subtype.val

/-- The modules in front of an item's name. -/
def UseItem.path : UseItem → List Ident
  | name path _ => path
  | glob path => path

/-- The last segment. -/
def UseItem.stem : UseItem → List Char
  | name _ n => n.1
  | glob _ => ['*']

/-- The segments of an item, its name or star the last. -/
def UseItem.segments (item : UseItem) : List (List Char) := texts item.path ++ [item.stem]

/-- An item as it is written. -/
def UseItem.text (item : UseItem) : List Char := joinPath item.segments

theorem isIdent_texts {path : List Ident} {s : List Char} (hs : s ∈ texts path) : IsIdent s := by
  obtain ⟨t, -, rfl⟩ := List.mem_map.1 hs
  exact t.2

theorem texts_eq_nil_iff {path : List Ident} : texts path = [] ↔ path = [] := List.map_eq_nil_iff

/-- A path is known by its texts. -/
theorem texts_inj {p q : List Ident} : texts p = texts q ↔ p = q :=
  (List.map_injective_iff.2 Subtype.val_injective).eq_iff

/-- The characters of a text that can stand in a list of items: no blank, no comma and no brace. -/
def IsPlain (s : List Char) : Prop := ∀ c ∈ s, Text.isWhitespace c = false ∧ c ∉ ",;\x7b\x7d".toList

theorem IsSegment.isPlain {s : List Char} (h : IsSegment s) : IsPlain s := fun c hc => by
  have hplain := h.plain c hc
  simp_all

/-- A path of plain segments is plain. -/
theorem isPlain_joinPath {segments : List (List Char)} (h : ∀ s ∈ segments, IsPlain s) :
    IsPlain (joinPath segments) := by
  intro c hc
  rcases mem_intercalate hc with hc | ⟨s, hs, hc⟩
  · obtain rfl : c = ':' := by simpa using hc
    decide
  · exact h s hs c hc

theorem UseItem.isPlain_stem (item : UseItem) : IsPlain item.stem := by
  cases item with
  | name path name => exact name.2.toIsSegment.isPlain
  | glob path =>
    intro c hc
    obtain rfl : c = '*' := List.mem_singleton.1 hc
    decide

theorem UseItem.isPlain_segments (item : UseItem) : ∀ s ∈ item.segments, IsPlain s := by
  intro s hs
  rcases List.mem_append.1 hs with hs | hs
  · exact (isIdent_texts hs).toIsSegment.isPlain
  · rw [List.mem_singleton.1 hs]
    exact item.isPlain_stem

/-! ## Reading one item -/

/-- A text with no white space at its ends is trimmed. -/
theorem trim_eq {s : List Char} (hhead : ∀ c ∈ s.head?, Text.isWhitespace c = false)
    (hlast : ∀ c ∈ s.getLast?, Text.isWhitespace c = false) : Text.trim s = s := by
  have hstart : s.dropWhile Text.isWhitespace = s := by
    cases s with
    | nil => rfl
    | cons c s => rw [List.dropWhile_cons_of_neg (by simp [hhead c rfl])]
  rw [Text.trim, hstart, Text.trimEnd, List.rdropWhile_eq_self_iff]
  intro hne
  simpa using hlast _ (List.getLast?_eq_some_getLast hne)

theorem IsPlain.trim {s : List Char} (hs : IsPlain s) : Text.trim s = s :=
  trim_eq (fun c hc => (hs c (List.mem_of_mem_head? hc)).1)
    (fun c hc => (hs c (List.mem_of_mem_getLast? hc)).1)

theorem IsPlain.blank {s : List Char} (hs : IsPlain s) : ' ' ∉ s := fun h => by
  have := (hs ' ' h).1
  revert this
  decide

theorem splitOnceWord_blank {word s : List Char} (hs : ' ' ∉ s) :
    Text.splitOnceWord (' ' :: word) s = none := by
  induction s with
  | nil => rfl
  | cons c s ih =>
    have hc : ' ' ≠ c := fun h => hs (h ▸ List.mem_cons_self)
    simp [Text.splitOnceWord, ih (fun h => hs (List.mem_cons_of_mem _ h)), hc]

/-- A plain item has no `as`. -/
theorem itemOf_plain {s : List Char} (hs : IsPlain s) : itemOf s = s := by
  have hnone : Text.splitOnceWord " as ".toList s = none := splitOnceWord_blank hs.blank
  rw [itemOf, hnone, hs.trim]

/-- The blank behind a comma is passed by. -/
theorem itemOf_blank {s : List Char} (hs : IsPlain s) : itemOf (' ' :: s) = s := by
  have hnone : Text.splitOnceWord " as ".toList (' ' :: s) = none := by
    have hrest : Text.splitOnceWord " as ".toList s = none := splitOnceWord_blank hs.blank
    have hshort : " as ".toList.isPrefixOf (' ' :: s) = false := by
      rw [Bool.eq_false_iff]
      intro h
      obtain ⟨rest, hrest⟩ := List.isPrefixOf_iff_prefix.1 h
      have hs' : s = "as ".toList ++ rest := (List.cons.inj hrest).2.symm
      exact hs.blank (by simp [hs'])
    rw [Text.splitOnceWord, hshort, if_neg Bool.false_ne_true, hrest, Option.map_none]
  have htrim : Text.trim (' ' :: s) = Text.trim s := by
    rw [Text.trim, List.dropWhile_cons_of_pos (by decide), Text.trim]
  rw [itemOf, hnone, htrim, hs.trim]

/-- What the walk sees of a text: only what is left of it between the blanks. -/
theorem importItem_congr {currentModule t t' : List Char} (s : ImportState)
    (h : itemOf t = itemOf t') :
    importItem currentModule s t = importItem currentModule s t' := by
  rw [importItem, importItem, h]

/-- Two paths are joined by colons. -/
theorem joinPath_append {p q : List (List Char)} (hp : p ≠ []) (hq : q ≠ []) :
    joinPath (p ++ q) = joinPath p ++ "::".toList ++ joinPath q := by
  induction p with
  | nil => exact absurd rfl hp
  | cons t p ih =>
    obtain ⟨u, q, rfl⟩ := List.exists_cons_of_ne_nil hq
    cases p with
    | nil => simp [joinPath, List.intercalate_cons_cons]
    | cons v p =>
      have hrest := ih (List.cons_ne_nil _ _)
      simp only [joinPath, List.cons_append, List.intercalate_cons_cons] at hrest ⊢
      rw [hrest]
      simp

theorem joinPath_append_singleton {pieces : List (List Char)} (hne : pieces ≠ []) (s : List Char) :
    joinPath (pieces ++ [s]) = joinPath pieces ++ "::".toList ++ s := by
  rw [joinPath_append hne (List.cons_ne_nil _ _)]
  simp [joinPath]

/-- A path that ends with a star is a glob. -/
theorem isGlob_star {pieces : List (List Char)} (hne : pieces ≠ []) :
    isGlob (joinPath (pieces ++ [['*']])) = true := by
  have hsuffix : "::*".toList.isSuffixOf (joinPath pieces ++ "::*".toList) = true :=
    List.isSuffixOf_iff_suffix.2 (List.suffix_append _ _)
  rw [joinPath_append_singleton hne, isGlob, List.append_assoc]
  exact Bool.or_eq_true_iff.2 (.inr hsuffix)

/-- What stands in front of `::*`. -/
theorem take_star {pieces : List (List Char)} (hne : pieces ≠ []) :
    (joinPath (pieces ++ [['*']])).take ((joinPath (pieces ++ [['*']])).length - 3) =
      joinPath pieces := by
  have hlength : (joinPath pieces ++ ("::".toList ++ ['*'])).length - 3 =
      (joinPath pieces).length := by simp
  rw [joinPath_append_singleton hne, List.append_assoc, hlength, List.take_left]

/-- A text that ends in a name is no glob. -/
theorem isGlob_name (pieces : List (List Char)) {s : List Char} (hs : IsSegment s) :
    isGlob (joinPath (pieces ++ [s])) = false := by
  have hlast : (joinPath (pieces ++ [s])).getLast? = s.getLast? := by
    by_cases hne : pieces = []
    · simp [hne, joinPath]
    · rw [joinPath_append_singleton hne, List.getLast?_append_of_ne_nil _ hs.ne_nil]
  have hstar : (joinPath (pieces ++ [s])).getLast? ≠ some '*' := by
    rw [hlast]
    intro h
    exact (hs.plain '*' (List.mem_of_getLast? h)).2 (by decide)
  rw [isGlob, Bool.or_eq_false_iff]
  refine ⟨?_, ?_⟩
  · rw [decide_eq_false_iff_not]
    intro h
    exact hstar (by rw [h]; rfl)
  · rw [Bool.eq_false_iff]
    intro h
    obtain ⟨front, hfront⟩ := List.isSuffixOf_iff_suffix.1 h
    exact hstar (by rw [← hfront, List.getLast?_append]; rfl)

theorem joinPath_append_ne_nil (pieces : List (List Char)) {s : List Char} (hs : s ≠ []) :
    joinPath (pieces ++ [s]) ≠ [] := by
  by_cases hne : pieces = []
  · simpa [hne, joinPath] using hs
  · rw [joinPath_append_singleton hne]
    simp

section Item

variable {currentModule : List Char} {m : HashMap (List Char) (List Char)}
  {globs pieces : List (List Char)} {s base : List Char}

/-- In front of a module, every item that is no glob is a name of its own. -/
theorem importItem_name_of_base (hbase : base ≠ []) (hs : IsSegment s)
    (hplain : IsPlain (joinPath (pieces ++ [s]))) :
    importItem currentModule ⟨m, globs, base⟩ (joinPath (pieces ++ [s])) =
      some ⟨m.insert (joinPath (pieces ++ [s])) base, globs, base⟩ := by
  rw [importItem, itemOf_plain hplain]
  dsimp only
  rw [if_neg (joinPath_append_ne_nil pieces hs.ne_nil), isGlob_name pieces hs,
    if_neg Bool.false_ne_true, if_pos hbase]

/-- In front of a module, every glob is one of that module. -/
theorem importItem_glob_of_base (hbase : base ≠ [])
    (hplain : IsPlain (joinPath (pieces ++ [['*']]))) :
    importItem currentModule ⟨m, globs, base⟩ (joinPath (pieces ++ [['*']])) =
      some ⟨m, globs ++ [base], base⟩ := by
  have hglob : isGlob (joinPath (pieces ++ [['*']])) = true := by
    by_cases hne : pieces = []
    · subst hne
      decide
    · exact isGlob_star hne
  rw [importItem, itemOf_plain hplain]
  dsimp only
  rw [if_neg (joinPath_append_ne_nil pieces (by decide)), if_pos hglob, if_neg (fun h => hbase h.1),
    if_neg hbase, if_neg hbase]

/-- Without a module, a name is one of the path in front of it; a bare name is passed by. -/
theorem importItem_name_of_root (hs : IsSegment s) (hplain : IsPlain (joinPath (pieces ++ [s])))
    (hcolon : ∀ t ∈ pieces, ':' ∉ t) :
    importItem currentModule ⟨m, globs, []⟩ (joinPath (pieces ++ [s])) =
      some ⟨if pieces = [] then m else m.insert s (normalizeModule (joinPath pieces) currentModule),
        globs, []⟩ := by
  have hsplit : splitPath (joinPath (pieces ++ [s])) = pieces ++ [s] := by
    refine splitPath_joinPath (by simp) fun t ht => ?_
    rcases List.mem_append.1 ht with ht | ht
    · exact hcolon t ht
    · rw [List.mem_singleton.1 ht]
      exact hs.colon
  rw [importItem, itemOf_plain hplain]
  dsimp only
  rw [if_neg (joinPath_append_ne_nil pieces hs.ne_nil), isGlob_name pieces hs,
    if_neg Bool.false_ne_true, if_neg (by simp),
    hsplit, List.getLast?_append_of_ne_nil _ (List.cons_ne_nil _ _), List.dropLast_concat]
  cases pieces with
  | nil => rfl
  | cons first pieces => rfl

/-- Without a module, a glob is one of the path in front of it, and the items behind it are read in
front of that. -/
theorem importItem_glob_of_root (hne : pieces ≠ [])
    (hplain : IsPlain (joinPath (pieces ++ [['*']])))
    (hpieces : IsPlain (joinPath pieces)) :
    importItem currentModule ⟨m, globs, []⟩ (joinPath (pieces ++ [['*']])) =
      some ⟨m, if normalizeModule (joinPath pieces) currentModule = [] then globs
        else globs ++ [normalizeModule (joinPath pieces) currentModule],
          normalizeModule (joinPath pieces) currentModule⟩ := by
  have hlength : ¬ (([] : List Char) = [] ∧ (joinPath (pieces ++ [['*']])).length < 3) := by
    rw [joinPath_append_singleton hne]
    simp
  rw [importItem, itemOf_plain hplain]
  dsimp only
  rw [if_neg (joinPath_append_ne_nil pieces (by decide)), if_pos (isGlob_star hne), if_neg hlength,
    if_pos rfl, take_star hne,
    hpieces.trim]

/-- Without a module, the three bytes in front of a bare `*` are not there. -/
theorem importItem_star_of_root : importItem currentModule ⟨m, globs, []⟩
    (joinPath ([] ++ [['*']])) = none := rfl

end Item

end RtpMux.CheckGate
