import RtpMux.Splits
import RtpMux.Tools.ImportItems
import RtpMux.Tools.UseStatements

/-!
# Braced imports

`use P::{i, j};` and the lines `use P::i;` and `use P::j;` import the same in Rust. `parse_imports`
reads the first with the module `P` in front of every item and the others item by item. What each
form gives is computed here, and when the two agree: at the root a bare name is lost in braces and a
bare `*` panics, and elsewhere a path inside the braces becomes a part of the name.
-/

namespace RtpMux.CheckGate

open Pyre (unbounded)

/-! ## The items of a braced statement -/

section Braced

variable {current : List (List Char)}

/-- What the names among the items bind, in front of a module. -/
def basedEntries (base : List Char) (items : List UseItem) : List (List Char × List Char) :=
  items.filterMap fun item => match item with
    | .name _ _ => some (item.text, base)
    | .glob _ => none

/-- The globs that a braced import adds: the module of the braces for each star. -/
def basedGlobs (base : List Char) (items : List UseItem) : List (List Char) :=
  items.filterMap fun item => match item with
    | .name _ _ => none
    | .glob _ => some base

theorem fill_append (entries : List (List Char × List Char)) (entry : List Char × List Char) :
    fill (entries ++ [entry]) = (fill entries).insert entry.1 entry.2 := by
  rw [fill, List.foldl_append]
  rfl

theorem UseItem.isPlain (item : UseItem) : IsPlain item.text :=
  isPlain_joinPath item.isPlain_segments

/-- **In front of a module** every item adds one entry or one glob of it. -/
theorem foldlM_based {currentModule base : List Char} (hbase : base ≠ []) (items : List UseItem)
    (entries : List (List Char × List Char)) (globs : List (List Char)) :
    (items.map UseItem.text).foldlM (importItem currentModule) ⟨fill entries, globs, base⟩ =
      some ⟨fill (entries ++ basedEntries base items), globs ++ basedGlobs base items, base⟩ := by
  induction items generalizing entries globs with
  | nil => simp [basedEntries, basedGlobs]
  | cons item items ih =>
    rw [List.map_cons, List.foldlM_cons]
    cases item with
    | name path n =>
      have hstep : importItem currentModule ⟨fill entries, globs, base⟩ (UseItem.name path n).text =
          some ⟨fill (entries ++ [((UseItem.name path n).text, base)]), globs, base⟩ := by
        rw [fill_append]
        exact importItem_name_of_base hbase n.2.toIsSegment (UseItem.name path n).isPlain
      rw [hstep, Option.bind_eq_bind, Option.bind_some, ih, List.append_assoc]
      rfl
    | glob path =>
      have hstep : importItem currentModule ⟨fill entries, globs, base⟩ (UseItem.glob path).text =
          some ⟨fill entries, globs ++ [base], base⟩ :=
        importItem_glob_of_base hbase (UseItem.glob path).isPlain
      rw [hstep, Option.bind_eq_bind, Option.bind_some, ih, List.append_assoc]
      rfl

/-- A name with the path in front of it, as an item. -/
def nameItem (entry : Ident × List Ident) : UseItem := .name entry.2 entry.1

/-- What names bind without a module: a bare one nothing. -/
def rootEntries (current : List (List Char)) (names : List (Ident × List Ident)) :
    List (List Char × List Char) :=
  names.filterMap fun entry =>
    if entry.2 = [] then none else some (entry.1.1, joinPath (resolve current (texts entry.2)))

theorem normalizeModule_texts (hcurrent : ∀ s ∈ current, IsSegment s) {path : List Ident}
    (hne : path ≠ []) :
    normalizeModule (joinPath (texts path)) (joinPath current) =
      joinPath (resolve current (texts path)) := by
  have hfilter : (texts path).filter (· ≠ []) = texts path :=
    List.filter_eq_self.2 fun s hs => by simpa using (isIdent_texts hs).ne_nil
  rw [normalizeModule_joinPath (fun h => hne (texts_eq_nil_iff.1 h))
    (fun s hs => (isIdent_texts hs).toIsSegment.colon) hcurrent,
    hfilter]

/-- **Without a module** names bind by the paths in front of them. -/
theorem foldlM_names (hcurrent : ∀ s ∈ current, IsSegment s) (names : List (Ident × List Ident))
    (entries : List (List Char × List Char)) (globs : List (List Char)) :
    ((names.map nameItem).map UseItem.text).foldlM (importItem (joinPath current))
      ⟨fill entries, globs, []⟩ =
      some ⟨fill (entries ++ rootEntries current names), globs, []⟩ := by
  induction names generalizing entries with
  | nil => simp [rootEntries]
  | cons entry names ih =>
    obtain ⟨n, path⟩ := entry
    have hstep : importItem (joinPath current) ⟨fill entries, globs, []⟩ (nameItem (n, path)).text =
        some ⟨fill (entries ++ rootEntries current [(n, path)]), globs, []⟩ := by
      refine (importItem_name_of_root n.2.toIsSegment (UseItem.name path n).isPlain fun s hs =>
        (isIdent_texts hs).toIsSegment.colon).trans ?_
      by_cases hpath : path = []
      · simp [rootEntries, hpath, UseItem.path, texts]
      · rw [if_neg (show ¬ texts (UseItem.name path n).path =
          [] from fun h => hpath (texts_eq_nil_iff.1 h))]
        have hentries : rootEntries current [(n, path)] =
            [(n.1, joinPath (resolve current (texts path)))] := by
          simp [rootEntries, hpath]
        rw [hentries, fill_append]
        exact congrArg (fun module =>
          some (ImportState.mk ((fill entries).insert n.1 module) globs []))
          (normalizeModule_texts hcurrent hpath)
    have happend : rootEntries current ((n, path) :: names) = rootEntries current [(n, path)] ++
        rootEntries current names :=
      List.filterMap_append (l := [(n, path)])
    rw [List.map_cons, List.map_cons, List.foldlM_cons, hstep, Option.bind_eq_bind,
      Option.bind_some, ih, happend,
      List.append_assoc]

end Braced

/-! ## Statements -/

/-- A path as it stands in front of the items. -/
structure UsePath where
  /-- whether it starts with `::` -/
  leading : Bool
  first : Segment
  rest : List Segment

namespace UsePath

/-- The segments of a path. -/
def segments (path : UsePath) : List (List Char) := (path.first :: path.rest).map Subtype.val

/-- The segments with the empty piece in front of a leading `::`. -/
def pieces (path : UsePath) : List (List Char) :=
  (if path.leading then [[]] else []) ++ path.segments

/-- A path as it is written. -/
def text (path : UsePath) : List Char := joinPath path.pieces

/-- `P::{i, j}`. -/
def braced (path : UsePath) (items : List UseItem) : List Char :=
  path.text ++ "::\x7b".toList ++ ", ".toList.intercalate (items.map UseItem.text) ++ "\x7d".toList

/-- `P::i`. -/
def separate (path : UsePath) (item : UseItem) : List Char := path.text ++ "::".toList ++ item.text

theorem isSegment_segments (path : UsePath) : ∀ s ∈ path.segments, IsSegment s := by
  intro s hs
  obtain ⟨t, -, rfl⟩ := List.mem_map.1 hs
  exact t.2

theorem pieces_ne_nil (path : UsePath) : path.pieces ≠ [] := by simp [pieces, segments]

theorem mem_pieces {path : UsePath} {s : List Char} (h : s ∈ path.pieces) :
    s = [] ∨ IsSegment s := by
  rcases List.mem_append.1 h with h | h
  · split at h
    · exact .inl (List.mem_singleton.1 h)
    · simp at h
  · exact .inr (path.isSegment_segments s h)

theorem filter_pieces (path : UsePath) : path.pieces.filter (· ≠ []) = path.segments := by
  have hsegments : path.segments.filter (· ≠ []) = path.segments :=
    List.filter_eq_self.2 fun s hs => by simpa using (path.isSegment_segments s hs).ne_nil
  rw [pieces, List.filter_append, hsegments]
  cases path.leading <;> rfl

theorem colon_pieces (path : UsePath) : ∀ s ∈ path.pieces, ':' ∉ s := by
  intro s hs
  rcases mem_pieces hs with rfl | h
  · simp
  · exact h.colon

theorem isPlain_pieces (path : UsePath) : ∀ s ∈ path.pieces, IsPlain s := by
  intro s hs
  rcases mem_pieces hs with rfl | h
  · simp [IsPlain]
  · exact h.isPlain

/-- The text of a path is plain. -/
theorem isPlain_text (path : UsePath) : IsPlain path.text := isPlain_joinPath path.isPlain_pieces

theorem text_ne_nil (path : UsePath) : path.text ≠ [] := by
  rw [text, pieces]
  cases path.leading with
  | false =>
    intro h
    simpa [segments] using (joinPath_eq_nil_iff fun s hs => (path.isSegment_segments s hs).ne_nil).1
      h
  | true => simp [segments, joinPath, List.intercalate_cons_cons]

end UsePath

section Statement

variable {current : List (List Char)}

/-- A comma and a blank are a comma, with the blank in front of the next item. -/
theorem intercalate_blank (text : List Char) (texts : List (List Char)) :
    ", ".toList.intercalate (text :: texts) = [','].intercalate (text :: texts.map (' ' :: ·)) := by
  induction texts generalizing text with
  | nil => simp
  | cons next texts ih =>
    rw [List.intercalate_cons_cons, ih, List.map_cons, List.intercalate_cons_cons,
      List.intercalate_cons_cons_left]
    simp

/-- A blank in front of an item is trimmed away. -/
theorem foldlM_blank (currentModule : List Char) (s : ImportState) (items : List UseItem) :
    ((items.map UseItem.text).map (' ' :: ·)).foldlM (importItem currentModule) s =
      (items.map UseItem.text).foldlM (importItem currentModule) s := by
  induction items generalizing s with
  | nil => rfl
  | cons item items ih =>
    simp only [List.map_cons, List.foldlM_cons]
    rw [importItem_congr s ((itemOf_blank item.isPlain).trans (itemOf_plain item.isPlain).symm)]
    exact congrArg _ (funext ih)

/-- The blanks behind the commas make no difference to the walk over the items. -/
theorem foldlM_splitOn (currentModule : List Char) (s : ImportState) (items : List UseItem) :
    ((", ".toList.intercalate (items.map UseItem.text)).splitOn ',').foldlM
      (importItem currentModule) s =
      (items.map UseItem.text).foldlM (importItem currentModule) s := by
  cases items with
  | nil => rfl
  | cons item items =>
    have hcomma : ∀ item : UseItem, ',' ∉ item.text :=
      fun item h => (item.isPlain ',' h).2 (by decide)
    have hsplit : ([','].intercalate (item.text :: (items.map UseItem.text).map (' ' :: ·))).splitOn
        ',' =
        item.text :: (items.map UseItem.text).map (' ' :: ·) := by
      refine List.splitOn_intercalate ',' ?_ (List.cons_ne_nil _ _)
      intro text htext
      rcases List.mem_cons.1 htext with rfl | htext
      · exact hcomma item
      · rw [List.map_map] at htext
        obtain ⟨next, -, rfl⟩ := List.mem_map.1 htext
        simpa using hcomma next
    rw [List.map_cons, intercalate_blank, hsplit, List.foldlM_cons, List.foldlM_cons]
    exact congrArg _ (funext fun s => foldlM_blank currentModule s items)

/-- **A braced statement** is the walk over its items in front of the module of its path. -/
theorem importStatement_braced (hcurrent : ∀ s ∈ current, IsSegment s) (s : ImportState)
    (path : UsePath)
    (items : List UseItem) :
    importStatement (joinPath current) s (path.braced items) =
      (items.map UseItem.text).foldlM (importItem (joinPath current))
        { s with baseModule := joinPath (resolve current path.segments) } := by
  have htrim : Text.trim (path.braced items) = path.braced items := by
    refine trim_eq (fun c hc => ?_) (fun c hc => ?_)
    · rw [UsePath.braced, List.append_assoc, List.append_assoc,
        List.head?_append_of_ne_nil _ path.text_ne_nil] at hc
      exact (path.isPlain_text c (List.mem_of_mem_head? hc)).1
    · rw [UsePath.braced, List.getLast?_append_of_ne_nil _ (by decide)] at hc
      cases hc
      decide
  have hbase : joinPath (path.pieces ++ [[]]) = path.text ++ "::".toList := by
    rw [joinPath_append_singleton path.pieces_ne_nil, List.append_nil, UsePath.text]
  have hplain : IsPlain (path.text ++ "::".toList) := by
    rw [← hbase]
    refine isPlain_joinPath fun s hs => ?_
    rcases List.mem_append.1 hs with hs | hs
    · exact path.isPlain_pieces s hs
    · simp [List.mem_singleton.1 hs, IsPlain]
  have hsplit : Text.splitOnce '{' (path.braced items) =
      some (path.text ++ "::".toList, ", ".toList.intercalate (items.map UseItem.text) ++
        "\x7d".toList) := by
    rw [Text.splitOnce_eq_some_iff]
    refine ⟨fun h => (hplain '{' h).2 (by decide), ?_⟩
    simp [UsePath.braced]
  have hclose : Text.splitOnce '}' (", ".toList.intercalate (items.map UseItem.text) ++
      "\x7d".toList).reverse =
      some ([], (", ".toList.intercalate (items.map UseItem.text)).reverse) := by
    rw [Text.splitOnce_eq_some_iff]
    simp
  have hmodule : normalizeModule (path.text ++ "::".toList) (joinPath current) =
      joinPath (resolve current path.segments) := by
    rw [← hbase, normalizeModule_joinPath (by simp) _ hcurrent, List.filter_append,
      path.filter_pieces]
    · simp
    · intro s hs
      rcases List.mem_append.1 hs with hs | hs
      · exact path.colon_pieces s hs
      · simp [List.mem_singleton.1 hs]
  rw [importStatement, htrim, statementParts, hsplit]
  dsimp only
  rw [hclose, hplain.trim, hmodule]
  dsimp only
  rw [List.reverse_reverse, foldlM_splitOn]

end Statement

/-! ## Lines of their own -/

section Separate

variable {current : List (List Char)}

/-- What the names bind, each with a statement of its own, where `module` is that of the path in
front. -/
def separateEntries (module : List (List Char)) (items : List UseItem) :
    List (List Char × List Char) :=
  items.filterMap fun item => match item with
    | .name path n => some (n.1, joinPath (module ++ texts path))
    | .glob _ => none

/-- The globs that the same items add as imports of their own. -/
def separateGlobs (module : List (List Char)) (items : List UseItem) : List (List Char) :=
  items.filterMap fun item => match item with
    | .name _ _ => none
    | .glob path =>
      if module ++ texts path = [] then none else some (joinPath (module ++ texts path))

/-- A separate import is one path. -/
theorem separate_eq (path : UsePath) (item : UseItem) :
    path.separate item = joinPath (path.pieces ++ texts item.path ++ [item.stem]) := by
  rw [List.append_assoc, joinPath_append path.pieces_ne_nil (by simp)]
  rfl

theorem isPlain_separate (path : UsePath) (item : UseItem) : IsPlain (path.separate item) := by
  rw [separate_eq, List.append_assoc]
  refine isPlain_joinPath fun s hs => ?_
  rcases List.mem_append.1 hs with hs | hs
  · exact path.isPlain_pieces s hs
  · exact item.isPlain_segments s hs

/-- A statement without braces is one item without a module. -/
theorem importStatement_separate (currentModule : List Char) (s : ImportState) (path : UsePath)
    (item : UseItem) :
    importStatement currentModule s (path.separate item) =
      importItem currentModule { s with baseModule := [] } (path.separate item) := by
  have hplain := isPlain_separate path item
  have hbrace : Text.splitOnce '{' (path.separate item) = none :=
    Text.splitOnce_eq_none_iff.2 fun h => (hplain '{' h).2 (by decide)
  have hcomma : (path.separate item).splitOn ',' = [path.separate item] := by
    have hsingle : ([','].intercalate [path.separate item]).splitOn ',' = [path.separate item] :=
      List.splitOn_intercalate ',' (by simpa using fun h => (hplain ',' h).2 (by decide))
        (List.cons_ne_nil _ _)
    rwa [List.intercalate_singleton] at hsingle
  rw [importStatement, hplain.trim, statementParts, hbrace]
  dsimp only
  rw [hcomma, List.foldlM_cons]
  simp

/-- The module of the path in front of an item and the path within it. -/
theorem normalizeModule_pieces (hcurrent : ∀ s ∈ current, IsSegment s) (path : UsePath)
    (inner : List Ident) :
    normalizeModule (joinPath (path.pieces ++ texts inner)) (joinPath current) =
      joinPath (resolve current path.segments ++ texts inner) := by
  have hinner : (texts inner).filter (· ≠ []) = texts inner :=
    List.filter_eq_self.2 fun s hs => by simpa using (isIdent_texts hs).ne_nil
  rw [normalizeModule_joinPath (by simp [path.pieces_ne_nil]) _ hcurrent, List.filter_append,
    path.filter_pieces, hinner,
    resolve_append current _ (by simp [UsePath.segments]) fun s hs => (isIdent_texts hs).notKeyword]
  intro s hs
  rcases List.mem_append.1 hs with hs | hs
  · exact path.colon_pieces s hs
  · exact (isIdent_texts hs).toIsSegment.colon

/-- **Lines of their own** bind every name and take every glob by its full path. -/
theorem foldlM_separate (hcurrent : ∀ s ∈ current, IsSegment s) (path : UsePath)
    (items : List UseItem)
    (entries : List (List Char × List Char)) (globs : List (List Char)) (base : List Char) :
    ∃ base', (items.map path.separate).foldlM (importStatement (joinPath current))
      ⟨fill entries, globs, base⟩ =
      some ⟨fill (entries ++ separateEntries (resolve current path.segments) items),
        globs ++ separateGlobs (resolve current path.segments) items, base'⟩ := by
  have hne (inner : List Ident) : path.pieces ++ texts inner ≠ [] := by simp [path.pieces_ne_nil]
  -- the entries so far are general, since each item appends to them
  induction items generalizing entries globs base with
  | nil => exact ⟨base, by simp [separateEntries, separateGlobs]⟩
  | cons item items ih =>
    cases item with
    | name inner n =>
      obtain ⟨base', hrest⟩ :=
        ih (entries ++ [(n.1, joinPath (resolve current path.segments ++ texts inner))]) globs []
      have hstep : importStatement (joinPath current) ⟨fill entries, globs, base⟩
          (path.separate (.name inner n)) =
          some ⟨fill (entries ++ [(n.1, joinPath (resolve current path.segments ++ texts inner))]),
            globs, []⟩ := by
        have hplain := isPlain_separate path (.name inner n)
        rw [importStatement_separate, separate_eq, fill_append]
        rw [separate_eq] at hplain
        refine (importItem_name_of_root n.2.toIsSegment hplain fun s hs => ?_).trans ?_
        · rcases List.mem_append.1 hs with hs | hs
          · exact path.colon_pieces s hs
          · exact (isIdent_texts hs).toIsSegment.colon
        · rw [if_neg (hne _), normalizeModule_pieces hcurrent]
          rfl
      refine ⟨base', ?_⟩
      rw [List.map_cons, List.foldlM_cons, hstep, Option.bind_eq_bind, Option.bind_some, hrest,
        List.append_assoc]
      rfl
    | glob inner =>
      have hstep : importStatement (joinPath current) ⟨fill entries, globs, base⟩
          (path.separate (.glob inner)) =
          some ⟨fill entries, globs ++ separateGlobs (resolve current path.segments) [.glob inner],
            joinPath (resolve current path.segments ++ texts inner)⟩ := by
        have hplain := isPlain_separate path (.glob inner)
        have hpieces : IsPlain (joinPath (path.pieces ++ texts inner)) := by
          refine isPlain_joinPath fun s hs => ?_
          rcases List.mem_append.1 hs with hs | hs
          · exact path.isPlain_pieces s hs
          · exact (isIdent_texts hs).toIsSegment.isPlain
        have hnil : joinPath (resolve current path.segments ++ texts inner) = [] ↔
            resolve current path.segments ++ texts inner = [] := by
          refine joinPath_eq_nil_iff fun s hs => ?_
          rcases List.mem_append.1 hs with hs | hs
          · exact (isSegment_resolve hcurrent path.isSegment_segments s hs).ne_nil
          · exact (isIdent_texts hs).ne_nil
        rw [importStatement_separate, separate_eq]
        rw [separate_eq] at hplain
        refine (importItem_glob_of_root (hne _) hplain hpieces).trans ?_
        have hmodule := normalizeModule_pieces hcurrent path inner
        simp only [UseItem.path, hmodule]
        by_cases hroot : resolve current path.segments ++ texts inner = []
        · rw [if_pos (hnil.2 hroot)]
          simp only [separateGlobs, List.filterMap_cons, if_pos hroot, List.filterMap_nil,
            List.append_nil]
        · rw [if_neg fun h => hroot (hnil.1 h)]
          simp only [separateGlobs, List.filterMap_cons, if_neg hroot, List.filterMap_nil]
      obtain ⟨base', hrest⟩ :=
        ih entries (globs ++ separateGlobs (resolve current path.segments) [.glob inner])
        (joinPath (resolve current path.segments ++ texts inner))
      have happend : separateGlobs (resolve current path.segments) (.glob inner :: items) =
          separateGlobs (resolve current path.segments) [.glob inner] ++
            separateGlobs (resolve current path.segments) items :=
        List.filterMap_append (l := [UseItem.glob inner])
      refine ⟨base', ?_⟩
      rw [List.map_cons, List.foldlM_cons, hstep, Option.bind_eq_bind, Option.bind_some, hrest,
        happend, List.append_assoc]
      rfl

end Separate

/-! ## Comparing the two forms -/

section Compare

variable {current : List (List Char)}

/-- The same names bound to the same modules. -/
def SameEntries (a b : List (List Char × List Char)) : Prop :=
  ∀ name, (fill a).lookup name = (fill b).lookup name

/-- What is looked up was filled in. -/
theorem mem_of_lookup_fill {entries : List (List Char × List Char)} {key value : List Char}
    (h : (fill entries).lookup key = some value) : (key, value) ∈ entries := by
  obtain ⟨earlier, later, rfl, -⟩ := lookup_fill_eq_some_iff.1 h
  simp

/-- A name with a colon in it is none that lines of their own bind. -/
theorem lookup_separate_colon {module : List (List Char)} {items : List UseItem} {key : List Char}
    (hkey : ':' ∈ key) :
    (fill (separateEntries module items)).lookup key = none := by
  rw [← Option.not_isSome_iff_eq_none]
  intro h
  obtain ⟨value, hvalue⟩ := Option.isSome_iff_exists.1 h
  obtain ⟨item, -, hitem⟩ := List.mem_filterMap.1 (mem_of_lookup_fill hvalue)
  cases item with
  | name path n =>
    cases hitem
    exact n.2.toIsSegment.colon hkey
  | glob path => cases hitem

theorem mem_basedEntries {base : List Char} {items : List UseItem} {path : List Ident} {n : Ident}
    (h : UseItem.name path n ∈ items) :
    ((UseItem.name path n).text, base) ∈ basedEntries base items :=
  List.mem_filterMap.2 ⟨_, h, rfl⟩

/-- In front of a module, a path within an item ends up in the name. -/
theorem path_eq_nil_of_same {base : List Char} (front : List (List Char × List Char))
    {module : List (List Char)}
    {items tail : List UseItem}
    (hsame : SameEntries (front ++ basedEntries base tail) (separateEntries module items))
    {path : List Ident} {n : Ident} (h : UseItem.name path n ∈ tail) : path = [] := by
  by_contra hpath
  have hcolon : ':' ∈ (UseItem.name path n).text := by
    have htext : (UseItem.name path n).text = joinPath (texts path) ++ "::".toList ++ n.1 :=
      joinPath_append_singleton (fun h => hpath (texts_eq_nil_iff.1 h)) n.1
    simp [htext]
  have hbound : ((fill (front ++ basedEntries base tail)).lookup
      (UseItem.name path n).text).isSome = true :=
    lookup_fill_isSome_iff.2 ⟨_, List.mem_append_right _ (mem_basedEntries h), rfl⟩
  rw [hsame, lookup_separate_colon hcolon] at hbound
  cases hbound

/-- **In front of a module** the two forms agree just where no item has a path of its own. -/
theorem agree_based {module : List (List Char)} (hmodule : ∀ s ∈ module, IsSegment s)
    (hne : module ≠ [])
    (items : List UseItem) :
    SameEntries (basedEntries (joinPath module) items) (separateEntries module items) ∧
        basedGlobs (joinPath module) items = separateGlobs module items ↔
      ∀ item ∈ items, item.path = [] := by
  have hroot (path : List Ident) : module ++ texts path ≠ [] := by simp [hne]
  constructor
  · rintro ⟨hentries, hglobs⟩ item hitem
    cases item with
    | name path n => exact path_eq_nil_of_same [] hentries hitem
    | glob path =>
      have hmem : joinPath (module ++ texts path) ∈ separateGlobs module items :=
        List.mem_filterMap.2 ⟨_, hitem, if_neg (hroot path)⟩
      rw [← hglobs] at hmem
      obtain ⟨other, -, hother⟩ := List.mem_filterMap.1 hmem
      cases other with
      | name _ _ => cases hother
      | glob _ =>
        have hall : ∀ s ∈ module ++ texts path, IsSegment s := by
          intro s hs
          rcases List.mem_append.1 hs with hs | hs
          · exact hmodule s hs
          · exact (isIdent_texts hs).toIsSegment
        have heq := (joinPath_inj hmodule hall).1 (Option.some.inj hother)
        exact texts_eq_nil_iff.1 (List.self_eq_append_right.1 heq)
  · intro h
    have hentries : basedEntries (joinPath module) items = separateEntries module items := by
      refine List.filterMap_congr fun item hitem => ?_
      have hpath := h item hitem
      cases item with
      | name path n =>
        obtain rfl : path = [] := hpath
        simp [UseItem.text, UseItem.segments, UseItem.path, UseItem.stem, texts, joinPath]
      | glob path => rfl
    have hglobs : basedGlobs (joinPath module) items = separateGlobs module items := by
      refine List.filterMap_congr fun item hitem => ?_
      have hpath := h item hitem
      cases item with
      | name path n => rfl
      | glob path =>
        obtain rfl : path = [] := hpath
        simp [texts, hne]
    exact ⟨fun name => by rw [hentries], hglobs⟩

/-! ### At the crate root -/

/-- The names in front of the first glob. -/
def leadingNames : List UseItem → List (Ident × List Ident)
  | .name path n :: items => (n, path) :: leadingNames items
  | _ => []

/-- The items from the first glob on. -/
def behindNames : List UseItem → List UseItem
  | .name _ _ :: items => behindNames items
  | items => items

/-- A list of items is its leading names and the rest. -/
theorem leadingNames_append (items : List UseItem) :
    (leadingNames items).map nameItem ++ behindNames items = items := by
  induction items with
  | nil => rfl
  | cons item items ih =>
    cases item with
    | name path n => exact congrArg _ ih
    | glob path => rfl

/-- Behind the leading names there is nothing, or a glob first. -/
theorem behindNames_cases (items : List UseItem) :
    behindNames items = [] ∨ ∃ path tail, behindNames items = .glob path :: tail := by
  induction items with
  | nil => exact .inl rfl
  | cons item items ih =>
    cases item with
    | name path n => exact ih
    | glob path => exact .inr ⟨path, items, rfl⟩

/-- What names bind with statements of their own, at the root. -/
theorem separateEntries_names (names : List (Ident × List Ident)) :
    separateEntries [] (names.map nameItem) = names.map fun entry =>
      (entry.1.1, joinPath (texts entry.2)) := by
  rw [separateEntries, List.filterMap_map]
  exact congrFun List.filterMap_eq_map' names

section Names

variable {names : List (Ident × List Ident)} {n : Ident} {path : List Ident}

/-- Of the separate imports of one name the last counts. -/
theorem lookup_separate_names (h : IsLast names n path) :
    (fill (separateEntries [] (names.map nameItem))).lookup n.1 = some (joinPath (texts path)) := by
  obtain ⟨earlier, later, rfl, hlater⟩ := h
  rw [separateEntries_names, List.map_append, List.map_cons, lookup_fill_eq_some_iff]
  refine ⟨_, _, rfl, fun entry hentry => ?_⟩
  obtain ⟨other, hother, rfl⟩ := List.mem_map.1 hentry
  exact fun h => hlater other hother (Subtype.ext h)

/-- Of the braced names of one name the last counts, resolved. -/
theorem lookup_rootEntries (h : IsLast names n path) (hpath : path ≠ []) :
    (fill (rootEntries current names)).lookup n.1 =
      some (joinPath (resolve current (texts path))) := by
  obtain ⟨earlier, later, rfl, hlater⟩ := h
  have hsplit : rootEntries current (earlier ++ (n, path) :: later) =
      rootEntries current earlier ++ (n.1, joinPath (resolve current (texts path))) ::
        rootEntries current later := by
    simp [rootEntries, hpath]
  rw [hsplit, lookup_fill_eq_some_iff]
  refine ⟨_, _, rfl, fun entry hentry => ?_⟩
  obtain ⟨other, hother, hentry⟩ := List.mem_filterMap.1 hentry
  split at hentry
  · cases hentry
  · cases hentry
    exact fun h => hlater other hother (Subtype.ext h)

/-- No name is bound to the root when it is written without a module. -/
theorem rootEntries_ne_nil {entry : List Char × List Char} (h : entry ∈ rootEntries current names)
    (hcurrent : ∀ s ∈ current, IsSegment s) : entry.2 ≠ [] := by
  obtain ⟨other, -, hentry⟩ := List.mem_filterMap.1 h
  split at hentry
  · cases hentry
  · rename_i hpath
    cases hentry
    have hne : texts other.2 ≠ [] := fun h => hpath (texts_eq_nil_iff.1 h)
    rw [Ne, joinPath_eq_nil_iff]
    · exact resolve_ne_nil (fun s hs => (isIdent_texts hs).notKeyword) hne
    · exact fun s hs =>
        (isSegment_resolve hcurrent (fun s hs => (isIdent_texts hs).toIsSegment) s hs).ne_nil

end Names

/-- **Names at the root** are bound alike just where the last path of each is there and read from
the root. -/
theorem agree_names (hcurrent : ∀ s ∈ current, IsSegment s) (names : List (Ident × List Ident)) :
    SameEntries (rootEntries current names) (separateEntries [] (names.map nameItem)) ↔
      ∀ n path, IsLast names n path → path ≠ [] ∧ IsLocal current (texts path) := by
  have hinj (path : List Ident) : joinPath (resolve current (texts path)) = joinPath (texts path) ↔
      resolve current (texts path) = texts path :=
    joinPath_inj (isSegment_resolve hcurrent fun s hs => (isIdent_texts hs).toIsSegment)
      fun s hs => (isIdent_texts hs).toIsSegment
  constructor
  · intro hsame n path hlast
    have hlookup := (hsame n.1).trans (lookup_separate_names hlast)
    have hpath : path ≠ [] := by
      rintro rfl
      exact rootEntries_ne_nil (mem_of_lookup_fill hlookup) hcurrent rfl
    rw [lookup_rootEntries hlast hpath, Option.some.injEq, hinj] at hlookup
    exact ⟨hpath, (resolve_eq_self_iff (fun s hs => (isIdent_texts hs).notKeyword)
      fun h => hpath (texts_eq_nil_iff.1 h)).1 hlookup⟩
  · intro h key
    by_cases hbound : ∃ entry ∈ names, entry.1.1 = key
    · obtain ⟨⟨n, path⟩, hmem, rfl⟩ := hbound
      obtain ⟨last, hlookup⟩ := Option.isSome_iff_exists.1 (lookup_fill_isSome_iff.2 ⟨_, hmem, rfl⟩)
      have hlast := lookup_fill_eq_some_iff.1 hlookup
      obtain ⟨hpath, hlocal⟩ := h n last hlast
      rw [lookup_rootEntries hlast hpath, lookup_separate_names hlast,
        (resolve_eq_self_iff (fun s hs => (isIdent_texts hs).notKeyword)
          fun h => hpath (texts_eq_nil_iff.1 h)).2 hlocal]
    · have hroot : (fill (rootEntries current names)).lookup key = none := by
        rw [← Option.not_isSome_iff_eq_none, lookup_fill_isSome_iff]
        rintro ⟨entry, hentry, rfl⟩
        obtain ⟨other, hother, hentry⟩ := List.mem_filterMap.1 hentry
        split at hentry
        · cases hentry
        · cases hentry
          exact hbound ⟨other, hother, rfl⟩
      have hseparate : (fill (separateEntries [] (names.map nameItem))).lookup key = none := by
        rw [← Option.not_isSome_iff_eq_none, lookup_fill_isSome_iff, separateEntries_names]
        rintro ⟨entry, hentry, rfl⟩
        obtain ⟨other, hother, rfl⟩ := List.mem_map.1 hentry
        exact hbound ⟨other, hother, rfl⟩
      rw [hroot, hseparate]

end Compare

/-! ### Behind a glob at the root -/

section Behind

variable {current : List (List Char)} {base : List Char}

theorem separateEntries_append (module : List (List Char)) (items items' : List UseItem) :
    separateEntries module (items ++ items') = separateEntries module items ++
      separateEntries module items' :=
  List.filterMap_append

theorem separateGlobs_names (module : List (List Char)) (names : List (Ident × List Ident))
    (items : List UseItem) :
    separateGlobs module (names.map nameItem ++ items) = separateGlobs module items := by
  rw [separateGlobs, List.filterMap_append, List.filterMap_map]
  exact congrArg (· ++ _) (List.filterMap_eq_nil_iff.2 fun _ _ => rfl)

/-- The separate imports have no more globs than the braced one. -/
theorem length_separateGlobs_le (base : List Char) (module : List (List Char))
    (items : List UseItem) :
    (separateGlobs module items).length ≤ (basedGlobs base items).length := by
  induction items with
  | nil => exact le_rfl
  | cons item items ih =>
    cases item with
    | name path n => exact ih
    | glob path =>
      have hbased : basedGlobs base (.glob path :: items) = base :: basedGlobs base items := rfl
      rw [hbased, List.length_cons, separateGlobs, List.filterMap_cons, ← separateGlobs]
      split
      · exact ih.trans (Nat.le_succ _)
      · exact Nat.succ_le_succ ih

/-- Globs that are read alike are all there, and all of the module in front. -/
theorem glob_of_same {items : List UseItem} (h : basedGlobs base items = separateGlobs [] items)
    {path : List Ident}
    (hitem : UseItem.glob path ∈ items) : joinPath (texts path) = base := by
  induction items with
  | nil => simp at hitem
  | cons item items ih =>
    cases item with
    | name other n => exact ih h (by simpa using hitem)
    | glob other =>
      have hbased : basedGlobs base (.glob other :: items) = base :: basedGlobs base items := rfl
      have hother : separateGlobs [] (.glob other :: items) =
          (if texts other = [] then [] else [joinPath (texts other)]) ++
            separateGlobs [] items := by
        simp only [separateGlobs, List.filterMap_cons, List.nil_append]
        split <;> simp_all
      rw [hbased, hother] at h
      split at h
      · -- a glob of the root is passed by: then there is one too few
        have hlength := congrArg List.length h
        have hle := length_separateGlobs_le base [] items
        simp only [List.length_cons, List.nil_append] at hlength
        omega
      · obtain ⟨hhead, htail⟩ := List.cons.inj h
        rcases List.mem_cons.1 hitem with heq | hitem
        · cases heq
          exact hhead.symm
        · exact ih htail hitem

/-- Behind a glob no name is bound alike: in front of the module of the glob it is that module's, by
itself the root's. -/
theorem not_name_of_same {front entries : List (List Char × List Char)} {tail : List UseItem}
    (hbase : base ≠ [])
    (hsame : SameEntries (front ++ basedEntries base tail) (entries ++ separateEntries [] tail))
    (hpaths : ∀ path n, UseItem.name path n ∈ tail → path = []) {path : List Ident} {n : Ident}
    (h : UseItem.name path n ∈ tail) : False := by
  have hlookup {a b : List (List Char × List Char)} {value : List Char} (hb : (n.1, value) ∈ b)
      (hvalue : ∀ entry ∈ b, entry.2 = value) : (fill (a ++ b)).lookup n.1 = some value := by
    obtain ⟨last, hlast⟩ := Option.isSome_iff_exists.1 (lookup_fill_isSome_iff.2 ⟨_, hb, rfl⟩)
    obtain ⟨earlier, later, rfl, hlater⟩ := lookup_fill_eq_some_iff.1 hlast
    have hvalue' : last = value := hvalue (n.1, last) (by simp)
    rw [lookup_fill_eq_some_iff, ← hvalue', ← List.append_assoc]
    exact ⟨a ++ earlier, later, rfl, hlater⟩
  obtain rfl := hpaths path n h
  have hbraced : (fill (front ++ basedEntries base tail)).lookup n.1 = some base := by
    refine hlookup (List.mem_filterMap.2 ⟨_, h, ?_⟩) fun entry hentry => ?_
    · simp [UseItem.text, UseItem.segments, UseItem.path, UseItem.stem, texts, joinPath]
    · obtain ⟨other, -, hother⟩ := List.mem_filterMap.1 hentry
      cases other with
      | name _ _ =>
        cases hother
        rfl
      | glob _ => cases hother
  have hseparate : (fill (entries ++ separateEntries [] tail)).lookup n.1 = some [] := by
    refine hlookup (List.mem_filterMap.2 ⟨_, h, ?_⟩) fun entry hentry => ?_
    · simp [texts, joinPath]
    · obtain ⟨other, hmem, hother⟩ := List.mem_filterMap.1 hentry
      cases other with
      | name path' n' =>
        obtain rfl := hpaths path' n' hmem
        cases hother
        rfl
      | glob _ => cases hother
  rw [hsame, hseparate] at hbraced
  exact hbase (Option.some.inj hbraced).symm

/-- **Behind a glob at the root** the two forms agree just where the same glob follows, read from
the root. -/
theorem agree_behind (hcurrent : ∀ s ∈ current, IsSegment s) (names : List (Ident × List Ident))
    (path : List Ident)
    (hpath : path ≠ []) (tail : List UseItem) :
    (SameEntries (rootEntries current names ++
      basedEntries (joinPath (resolve current (texts path))) tail)
          (separateEntries [] (names.map nameItem ++ .glob path :: tail)) ∧
        joinPath (resolve current (texts path)) ::
          basedGlobs (joinPath (resolve current (texts path))) tail =
          separateGlobs [] (names.map nameItem ++ .glob path :: tail)) ↔
      (∀ n inner, IsLast names n inner → inner ≠ [] ∧ IsLocal current (texts inner)) ∧
        IsLocal current (texts path) ∧
        ∀ item ∈ tail, item = .glob path := by
  have hne : texts path ≠ [] := fun h => hpath (texts_eq_nil_iff.1 h)
  have hsegment : ∀ path : List Ident, ∀ s ∈ texts path, IsSegment s :=
    fun path s hs => (isIdent_texts hs).toIsSegment
  have hkeyword : ∀ s ∈ texts path, s ∉ pathKeywords := fun s hs => (isIdent_texts hs).notKeyword
  have hresolve : ∀ s ∈ resolve current (texts path), IsSegment s :=
    isSegment_resolve hcurrent (hsegment path)
  have hbase : joinPath (resolve current (texts path)) ≠ [] := by
    rw [Ne, joinPath_eq_nil_iff fun s hs => (hresolve s hs).ne_nil]
    exact resolve_ne_nil hkeyword hne
  have hglobs : separateGlobs [] (names.map nameItem ++ .glob path :: tail) =
      joinPath (texts path) :: separateGlobs [] tail := by
    rw [separateGlobs_names]
    simp [separateGlobs, hne]
  have hentries : separateEntries [] (names.map nameItem ++ .glob path :: tail) =
      separateEntries [] (names.map nameItem) ++ separateEntries [] tail := by
    rw [separateEntries_append]
    rfl
  -- globs alone bind no name
  have hnone (htail : ∀ item ∈ tail, item = .glob path) :
      basedEntries (joinPath (resolve current (texts path))) tail = [] ∧
        separateEntries [] tail = [] :=
    ⟨List.filterMap_eq_nil_iff.2 fun item hitem => by rw [htail item hitem],
      List.filterMap_eq_nil_iff.2 fun item hitem => by rw [htail item hitem]⟩
  rw [hglobs, List.cons.injEq, joinPath_inj hresolve (hsegment path),
    resolve_eq_self_iff hkeyword hne]
  constructor
  · rintro ⟨hsame, hlocal, hrest⟩
    have hpaths : ∀ inner n, UseItem.name inner n ∈ tail → inner = [] :=
      fun inner n h => path_eq_nil_of_same _ hsame h
    rw [hentries] at hsame
    have htail : ∀ item ∈ tail, item = .glob path := by
      intro item hitem
      cases item with
      | name inner n => exact (not_name_of_same hbase hsame hpaths hitem).elim
      | glob inner =>
        have hinner := glob_of_same hrest hitem
        rw [(resolve_eq_self_iff hkeyword hne).2 hlocal, joinPath_inj (hsegment _) (hsegment _),
          texts_inj] at hinner
        rw [hinner]
    refine ⟨?_, hlocal, htail⟩
    rw [(hnone htail).1, (hnone htail).2, List.append_nil, List.append_nil] at hsame
    exact (agree_names hcurrent names).1 hsame
  · rintro ⟨hnames, hlocal, htail⟩
    refine ⟨?_, hlocal, List.filterMap_congr fun item hitem => ?_⟩
    · rw [hentries, (hnone htail).1, (hnone htail).2, List.append_nil, List.append_nil]
      exact (agree_names hcurrent names).2 hnames
    · rw [htail item hitem, (resolve_eq_self_iff hkeyword hne).2 hlocal]
      simp [hne]

end Behind

/-! ## The two forms -/

/-- Both readings end, with the same names bound to the same modules and the same globs. -/
def SameImports (a b : Option (HashMap (List Char) (List Char) × List (List Char))) : Prop :=
  ∃ m m' globs, a = some (m, globs) ∧ b = some (m', globs) ∧ ∀ name, m.lookup name = m'.lookup name

/-- Two imports are the same if their entries look up alike and their globs are equal. -/
theorem sameImports_some_iff {a b : List (List Char × List Char)}
    {globs globs' : List (List Char)} :
    SameImports (some (fill a, globs)) (some (fill b, globs')) ↔ SameEntries a b ∧
      globs = globs' := by
  constructor
  · rintro ⟨m, m', both, hm, hm', hsame⟩
    obtain ⟨rfl, rfl⟩ := Prod.mk.inj (Option.some.inj hm)
    obtain ⟨rfl, rfl⟩ := Prod.mk.inj (Option.some.inj hm')
    exact ⟨hsame, rfl⟩
  · rintro ⟨hsame, rfl⟩
    exact ⟨_, _, _, rfl, rfl, hsame⟩

/-- When a braced statement imports what lines of their own do, `module` being that of the path in
front.

At the root every name needs a path of its own that is read from the root, and the items end in one
glob of that kind at most, which may be repeated; elsewhere no item has a path of its own. -/
def BracesAgree (current module : List (List Char)) (items : List UseItem) : Prop :=
  if module = [] then
    (∀ n path, IsLast (leadingNames items) n path → path ≠ [] ∧ IsLocal current (texts path)) ∧
      ∃ path, ∀ item ∈ behindNames items, item = .glob path ∧ path ≠ [] ∧
        IsLocal current (texts path)
  else ∀ item ∈ items, item.path = []

theorem isBody_of_plain {path : UsePath} {rest : List Char} (hrest : ';' ∉ rest) :
    IsBody (path.text ++ rest) := by
  obtain ⟨c, tail, htext⟩ := List.exists_cons_of_ne_nil path.text_ne_nil
  have hc : Pyre.isSpace c = false := by
    rw [Bool.eq_false_iff]
    intro h
    have hplain := (path.isPlain_text c (by simp [htext])).1
    rw [Text.isWhitespace_of_ascii h] at hplain
    cases hplain
  refine ⟨⟨c, tail ++ rest, by simp [htext], hc⟩, ?_⟩
  intro h
  rcases List.mem_append.1 h with h | h
  · exact (path.isPlain_text ';' h).2 (by decide)
  · exact hrest h

/-- A separate import is the body of one statement. -/
theorem isBody_separate (path : UsePath) (item : UseItem) : IsBody (path.separate item) := by
  rw [UsePath.separate, List.append_assoc]
  refine isBody_of_plain fun h => ?_
  rcases List.mem_append.1 h with h | h
  · exact absurd h (by decide)
  · exact (item.isPlain ';' h).2 (by decide)

/-- A braced import is the body of one statement. -/
theorem isBody_braced (path : UsePath) (items : List UseItem) : IsBody (path.braced items) := by
  have hitems : ';' ∉ ", ".toList.intercalate (items.map UseItem.text) := by
    intro h
    rcases mem_intercalate h with h | ⟨text, htext, h⟩
    · exact absurd h (by decide)
    · obtain ⟨item, -, rfl⟩ := List.mem_map.1 htext
      exact (item.isPlain ';' h).2 (by decide)
  rw [UsePath.braced, List.append_assoc, List.append_assoc]
  refine isBody_of_plain fun h => ?_
  rcases List.mem_append.1 h with h | h
  · exact absurd h (by decide)
  · rcases List.mem_append.1 h with h | h
    · exact hitems h
    · exact absurd h (by decide)

/-- What is imported by lines of statements. -/
theorem parseImports_useLines {bodies : List (List Char)} (hbodies : ∀ b ∈ bodies, IsBody b)
    (hlen : (useLines bodies).length ≤ unbounded) (currentModule : List Char) :
    parseImports (String.ofList (useLines bodies)) currentModule =
      (bodies.foldlM (importStatement currentModule) ⟨fill [], [], []⟩).map fun s =>
        (s.imports, s.globs) := by
  rw [parseImports, statements_useLines hbodies hlen, List.foldlM_map]
  simp only [String.toList_ofList]
  rfl

section Main

variable {current : List (List Char)} (hcurrent : ∀ s ∈ current, IsSegment s) (path : UsePath)
  (items : List UseItem)
include hcurrent

/-- What lines of their own import. -/
theorem parseImports_separate (hlen : (useLines (items.map path.separate)).length ≤ unbounded) :
    parseImports (String.ofList (useLines (items.map path.separate))) (joinPath current) =
      some (fill (separateEntries (resolve current path.segments) items),
        separateGlobs (resolve current path.segments) items) := by
  obtain ⟨base, hfold⟩ := foldlM_separate hcurrent path items [] [] []
  have hbodies : ∀ b ∈ items.map path.separate, IsBody b := by
    intro b hb
    obtain ⟨item, -, rfl⟩ := List.mem_map.1 hb
    exact isBody_separate path item
  rw [parseImports_useLines hbodies hlen, hfold]
  rfl

/-- What a braced statement imports: its items in front of the module of its path. -/
theorem parseImports_braced (hlen : (useLines [path.braced items]).length ≤ unbounded) :
    parseImports (String.ofList (useLines [path.braced items])) (joinPath current) =
      ((items.map UseItem.text).foldlM (importItem (joinPath current))
        ⟨fill [], [], joinPath (resolve current path.segments)⟩).map
          fun s => (s.imports, s.globs) := by
  have hbodies : ∀ b ∈ [path.braced items], IsBody b := by
    intro b hb
    rw [List.mem_singleton.1 hb]
    exact isBody_braced path items
  rw [parseImports_useLines hbodies hlen, List.foldlM_cons, importStatement_braced hcurrent]
  simp

omit path in
/-- **At the root**, item by item. -/
theorem agree_root :
    SameImports (((items.map UseItem.text).foldlM (importItem (joinPath current)) ⟨fill [], [],
      []⟩).map
      fun s => (s.imports, s.globs))
        (some (fill (separateEntries [] items), separateGlobs [] items)) ↔
    BracesAgree current [] items := by
  rw [BracesAgree, if_pos rfl]
  have hsplit := leadingNames_append items
  generalize leadingNames items = names at hsplit ⊢
  have hfront := foldlM_names hcurrent names [] []
  rw [List.nil_append] at hfront
  -- the first glob leaves a base behind, so the items after it are read otherwise than before it
  rcases behindNames_cases items with hbehind | ⟨path, tail, hbehind⟩
  · rw [hbehind, List.append_nil] at hsplit
    rw [hbehind, ← hsplit, hfront, ← agree_names hcurrent names]
    have hglobs := separateGlobs_names [] names []
    rw [List.append_nil] at hglobs
    rw [hglobs, Option.map_some, sameImports_some_iff]
    constructor
    · rintro ⟨hsame, -⟩
      exact ⟨hsame, [], by simp⟩
    · rintro ⟨hsame, -⟩
      exact ⟨hsame, rfl⟩
  · rw [hbehind] at hsplit
    rw [hbehind, ← hsplit, List.map_append, List.foldlM_append, hfront, Option.bind_eq_bind,
      Option.bind_some,
      List.map_cons, List.foldlM_cons]
    by_cases hpath : path = []
    · subst hpath
      refine iff_of_false ?_ ?_
      · rintro ⟨m, m', globs, hm, -⟩
        have hstep : importItem (joinPath current) ⟨fill (rootEntries current names), [], []⟩
            (UseItem.glob []).text = none :=
          importItem_star_of_root
        rw [hstep] at hm
        cases hm
      · rintro ⟨-, path, hall⟩
        obtain ⟨heq, hne, -⟩ := hall (.glob []) List.mem_cons_self
        cases heq
        exact hne rfl
    · have hne : texts path ≠ [] := fun h => hpath (texts_eq_nil_iff.1 h)
      have hsegment : ∀ s ∈ resolve current (texts path), IsSegment s :=
        isSegment_resolve hcurrent fun s hs => (isIdent_texts hs).toIsSegment
      have hbase : joinPath (resolve current (texts path)) ≠ [] := by
        rw [Ne, joinPath_eq_nil_iff fun s hs => (hsegment s hs).ne_nil]
        exact resolve_ne_nil (fun s hs => (isIdent_texts hs).notKeyword) hne
      have hstep : importItem (joinPath current) ⟨fill (rootEntries current names), [], []⟩
          (UseItem.glob path).text =
          some ⟨fill (rootEntries current names), [joinPath (resolve current (texts path))],
            joinPath (resolve current (texts path))⟩ := by
        refine (importItem_glob_of_root hne (UseItem.glob path).isPlain
          (isPlain_joinPath fun s hs => (isIdent_texts hs).toIsSegment.isPlain)).trans ?_
        rw [normalizeModule_texts hcurrent hpath, if_neg hbase]
        rfl
      rw [hstep, Option.bind_eq_bind, Option.bind_some, foldlM_based hbase, Option.map_some,
        sameImports_some_iff,
        List.singleton_append, agree_behind hcurrent names path hpath tail]
      constructor
      · rintro ⟨hnames, hlocal, htail⟩
        refine ⟨hnames, path, fun item hitem => ⟨?_, hpath, hlocal⟩⟩
        rcases List.mem_cons.1 hitem with rfl | hitem
        · rfl
        · exact htail item hitem
      · rintro ⟨hnames, path', hall⟩
        obtain ⟨heq, -, hlocal⟩ := hall (.glob path) List.mem_cons_self
        cases heq
        exact ⟨hnames, hlocal, fun item hitem => (hall item (List.mem_cons_of_mem _ hitem)).1⟩

end Main

/-- **Braced imports** are the same as lines of their own, with no panic, just where
`BracesAgree`. -/
theorem braced_imports_iff (current : List Segment) (path : UsePath) (items : List UseItem)
    (hbraced : (useLines [path.braced items]).length < 2 ^ 63)
    (hseparate : (useLines (items.map path.separate)).length < 2 ^ 63) :
    SameImports
        (parseImports (String.ofList (useLines [path.braced items]))
          (joinPath (current.map Subtype.val)))
        (parseImports (String.ofList (useLines (items.map path.separate)))
          (joinPath (current.map Subtype.val))) ↔
      BracesAgree (current.map Subtype.val) (resolve (current.map Subtype.val) path.segments)
        items := by
  have hcurrent : ∀ s ∈ current.map Subtype.val, IsSegment s := by
    intro s hs
    obtain ⟨t, -, rfl⟩ := List.mem_map.1 hs
    exact t.2
  generalize current.map Subtype.val = current at hcurrent ⊢
  have hbound {n : Nat} (h : n < 2 ^ 63) : n ≤ unbounded := h.le.trans (by decide)
  rw [parseImports_braced hcurrent path items (hbound hbraced),
    parseImports_separate hcurrent path items (hbound hseparate)]
  have hmodule := isSegment_resolve hcurrent path.isSegment_segments
  by_cases hroot : resolve current path.segments = []
  · rw [hroot]
    exact agree_root hcurrent items
  · have hbase : joinPath (resolve current path.segments) ≠ [] := by
      rwa [Ne, joinPath_eq_nil_iff fun s hs => (hmodule s hs).ne_nil]
    rw [foldlM_based hbase, Option.map_some, sameImports_some_iff, BracesAgree, if_neg hroot]
    exact agree_based hmodule hroot items

/-- `use crate::testkit::{spawn, *};`. -/
theorem braced_imports_iff_flat :
    SameImports (parseImports "use crate::testkit::\x7bspawn, *\x7d;" [])
      (parseImports "use crate::testkit::spawn;\nuse crate::testkit::*;" []) := by
  refine (braced_imports_iff [] ⟨false, ⟨"crate".toList, by decide⟩,
    [⟨"testkit".toList, by decide⟩]⟩
    [.name [] ⟨"spawn".toList, by decide⟩, .glob []] (by decide) (by decide)).2 ?_
  rw [BracesAgree, if_neg (by decide)]
  simp [UseItem.path]

/-- `use crate::{spawn};` binds nothing, where `use crate::spawn;` binds the name to the root. -/
theorem braced_imports_differ :
    ¬ SameImports (parseImports "use crate::\x7bspawn\x7d;" [])
      (parseImports "use crate::spawn;" []) := by
  rintro ⟨m, m', globs, hm, hm', hsame⟩
  have hbraced : (parseImports "use crate::\x7bspawn\x7d;" []).map
      (fun r => r.1.lookup "spawn".toList) = some none := by
    decide +kernel
  have hseparate : (parseImports "use crate::spawn;" []).map (fun r => r.1.lookup "spawn".toList) =
      some (some []) := by
    decide +kernel
  rw [hm, Option.map_some, hsame] at hbraced
  rw [hm', Option.map_some] at hseparate
  rw [Option.some.inj hbraced] at hseparate
  cases hseparate

end RtpMux.CheckGate
