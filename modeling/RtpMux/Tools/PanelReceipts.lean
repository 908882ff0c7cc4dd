import RtpMux.Sorted
import RtpMux.Tools.Json
import RtpMux.Tools.JsonCodec

/-!
# The panel read record (`tools/mandate_check/receipt.rs`)

A run renders panels, and the operator declares which of them were read: in a flag, in a file, in an
environment variable, or in a file beside the run. `collect` gathers the declaration, `evaluate`
holds it against the panels of the run and refuses a run whose declaration does not cover them.

The file system is a parameter: what reading a file gives, and whether there is one.
-/

namespace RtpMux.PanelReceipts

open JsonCodec (btreeInsert lookup_btreeInsert isOrdered_btreeInsert IsOrdered)

/-! ## Names of panels -/

/-- `Path::file_name`: the last component, unless that is `..`; empty components and `.` are
none. -/
def fileName (path : List Char) : Option (List Char) :=
  match ((path.splitOn '/').filter fun part => part ≠ [] && part ≠ ['.']).getLast? with
  | some ['.', '.'] => none
  | part => part

/-- `str::strip_suffix`. -/
def stripSuffix (suffix text : List Char) : Option (List Char) :=
  if suffix.isSuffixOf text then some (text.take (text.length - suffix.length)) else none

/-- The suffix of a drawn panel. -/
def svg : List Char := ['.', 's', 'v', 'g']

/-- The suffix of a rendered panel. -/
def png : List Char := ['.', 'p', 'n', 'g']

/-- `path.ends_with(".svg")`. -/
def isSvg (path : String) : Bool := svg.isSuffixOf path.toList

/-- `path.ends_with(".png")`. -/
def isPng (path : String) : Bool := png.isSuffixOf path.toList

/-- The stem of a file name. -/
def stem (base : List Char) : List Char :=
  match stripSuffix svg base with
  | some stem => stem
  | none => (stripSuffix png base).getD base

/-- `panel_name`. -/
def panelName (path : String) : String :=
  String.ofList (stem ((fileName path.toList).getD path.toList))

/-! ## The panels of a run -/

/-- One turn of `rendered_panels`. -/
def renderedPanel (rendered : List (String × String)) (path : String) : List (String × String) :=
  if !(isSvg path || isPng path) then rendered
  else
    let replace := match rendered.lookup (panelName path) with
      | none => true
      | some existing => isSvg path && !isSvg existing
    if replace then btreeInsert rendered (panelName path) path else rendered

/-- `rendered_panels`: each panel once, with its first path. -/
def renderedPanels (plots : List String) : List (String × String) := plots.foldl renderedPanel []

/-! ## The declaration -/

/-- `Receipt`. The names are a `BTreeSet`, in order. -/
structure Receipt where
  names : List String
  sources : List String
  provided : Bool
  strict : Bool

/-- `names.extend(more)`. -/
def Receipt.extend (receipt : Receipt) (more : List String) : Receipt :=
  { receipt with names := sortedSet (receipt.names ++ more) }

/-- What stands between two names. -/
def isSeparator (c : Char) : Bool := c = ',' || Text.isWhitespace c

/-- The names in a list, by commas and whitespace. -/
def splitNames (raw : List Char) : List String :=
  ((raw.splitOnP isSeparator).filter fun name => !name.isEmpty).map fun name =>
    panelName (String.ofList name)

/-- The file system: a file's text or why it cannot be read, and whether a path is a file. -/
structure Files where
  read : String → Except String String
  isFile : String → Bool

/-- The names in the text of a record file. -/
def namesOfText (text : List Char) : List String :=
  (Text.lines text).flatMap fun line => splitNames (Text.trim (line.takeWhile (· ≠ '#')))

/-- `read_names_file`. -/
def readNamesFile (files : Files) (path : String) : Except String (List String) :=
  match files.read path with
  | .ok text => .ok (namesOfText text.toList)
  | .error error => .error s!"the panel read-receipt file {path} cannot be read: {error}"

/-- `ENV_PANELS_READ`. -/
def envPanelsRead : String := "MANDATE_PANELS_READ"

/-- `RECEIPT_FILENAME`. -/
def receiptFilename : String := "panels-read.txt"

/-- A record file, as `collect` takes it. -/
def Receipt.readFile (files : Files) (state : Receipt × List String) (source path : String) :
    Receipt × List String :=
  let receipt := { state.1 with provided := true, sources := state.1.sources ++ [source] }
  match readNamesFile files path with
  | .ok names => (receipt.extend names, state.2)
  | .error problem => (receipt, state.2 ++ [problem])

/-- `collect`. -/
def collect (files : Files) (explicit : List String) (file env defaultFile : Option String)
    (strict : Bool) :
    Receipt × List String :=
  let state : Receipt × List String := (⟨[], [], false, strict⟩, [])
  let state :=
    if explicit.isEmpty then state
    else
      let receipt := { state.1 with
        provided := true
        sources := state.1.sources ++ ["--panels-read"] }
      (explicit.foldl (fun receipt item => receipt.extend (splitNames item.toList)) receipt,
        state.2)
  let state := match file with
    | some path => Receipt.readFile files state s!"--panels-read-file {path}" path
    | none => state
  let state := match env.filter fun raw => !(Text.trim raw.toList).isEmpty with
    | some raw =>
      let receipt := { state.1 with
        provided := true
        sources := state.1.sources ++ ["$" ++ envPanelsRead] }
      (receipt.extend (splitNames raw.toList), state.2)
    | none => state
  if state.1.provided then state
  else match defaultFile.filter files.isFile with
    | some path => Receipt.readFile files state path path
    | none => state

/-! ## The refusals -/

/-- `DECLARATION`. -/
def declaration : String :=
  "the read mark is the operator's declaration about their own reading, not evidence that a panel was read"

/-- `py_list`. -/
def pyList (items : List String) : String := ", ".intercalate (items.map Text.reprStr)

/-- The rendered panels that the declaration names, and those it does not. -/
def readPanels (receipt : Receipt) (rendered : List (String × String)) : List String :=
  (rendered.map Prod.fst).filter (· ∈ receipt.names)

/-- The rendered panels that the receipt does not name. -/
def unreadPanels (receipt : Receipt) (rendered : List (String × String)) : List String :=
  (rendered.map Prod.fst).filter (· ∉ receipt.names)

/-- The names of the declaration that the run did not render. -/
def unknownPanels (receipt : Receipt) (rendered : List (String × String)) : List String :=
  receipt.names.filter (· ∉ rendered.map Prod.fst)

/-- The refusals of `evaluate`. -/
def refusals (receipt : Receipt) (rendered : List (String × String)) : List String :=
  let read := readPanels receipt rendered
  let unread := unreadPanels receipt rendered
  let unknown := unknownPanels receipt rendered
  (if unknown.isEmpty then [] else
    [s!"the panel read record names {unknown.length} panel(s) this run did not render " ++
      s!"({pyList unknown}); a name that matches no rendered panel is a hole, not a reading, " ++
      s!"so the declaration cannot be true as given"]) ++
  (if receipt.provided && !unread.isEmpty then
    [s!"the panel read record covers {read.length} of the {rendered.length} " ++
      s!"rendered panel(s) and leaves " ++
      s!"{unread.length} unread ({pyList unread}); the run refuses PASS because " ++
      s!"an unread panel is not evidence, however green the verdict line"] else []) ++
  if !receipt.provided && receipt.strict && !rendered.isEmpty then
    [s!"--require-panels-read was given and no record is present (no --panels-read, " ++
      s!"no --panels-read-file, no ${envPanelsRead}, no {receiptFilename} beside the run), " ++
      s!"so the {rendered.length} rendered panel(s) ({pyList unread}) are unread; the run refuses PASS"] else []

/-- `note`. -/
def note (receipt : Receipt) (rendered : List (String × String)) (read unread : List String) :
    String :=
  if !receipt.provided then
    let strict := if receipt.strict then " --require-panels-read was given, so this run refuses"
      else "; pass --require-panels-read to refuse a run with no record"
    s!"panels: {rendered.length} rendered, 0 read (no record: no --panels-read, " ++
      s!"no --panels-read-file, no ${envPanelsRead} and no {receiptFilename} beside the run) " ++
      s!"-- PASS (panels unread: {unread.length}){strict}; {declaration}"
  else
    let sources := ", ".intercalate receipt.sources
    if unread.isEmpty then
      s!"panels: {rendered.length} rendered, {read.length} read (record: {sources}); {declaration}"
    else
      s!"panels: {rendered.length} rendered, {read.length} read, {unread.length} unread " ++
        s!"({pyList unread}) (record: {sources})"

/-- The entry of a panel. -/
def panelEntry (receipt : Receipt) (panel : String × String) : Json :=
  let entry := btreeInsert [] "name" (Json.str panel.1)
  let entry := btreeInsert entry "path" (Json.str panel.2)
  .object (btreeInsert entry "read" (.bool (panel.1 ∈ receipt.names)))

/-- `str_list`. -/
def strList (items : List String) : Json := .array (items.map .str)

/-- The record of `evaluate`. -/
def record (receipt : Receipt) (rendered : List (String × String)) : Json :=
  let read := readPanels receipt rendered
  let unread := unreadPanels receipt rendered
  let map := btreeInsert [] "declaration" (Json.str declaration)
  let map := btreeInsert map "provided" (.bool receipt.provided)
  let map := btreeInsert map "strict" (.bool receipt.strict)
  let map := btreeInsert map "sources" (strList receipt.sources)
  let map := btreeInsert map "panels" (.array (rendered.map (panelEntry receipt)))
  let map := btreeInsert map "read" (strList read)
  let map := btreeInsert map "unread" (strList unread)
  let map := btreeInsert map "unknown" (strList (unknownPanels receipt rendered))
  .object (btreeInsert map "note" (.str (note receipt rendered read unread)))

/-- `evaluate`: the record, and the refusals. -/
def evaluate (receipt : Receipt) (rendered : List (String × String)) : Json × List String :=
  (record receipt rendered, refusals receipt rendered)

/-- The line of a panel's entry. -/
def panelLine (entry : Json) : String :=
  let path := ((entry.get "path").bind Json.asStr).getD ""
  let mark := match entry.get "read" with
    | some (.bool true) => "read"
    | _ => "UNREAD"
  s!"panel: {path}  {mark}"

/-- `panel_lines`. -/
def panelLines (record : Json) : List String :=
  (((record.get "panels").bind Json.asArray).getD []).map panelLine

/-- `verdict_clause`. -/
def verdictClause (record : Json) : String :=
  let len (key : String) : Nat := (((record.get key).bind Json.asArray).map List.length).getD 0
  let rendered := (((record.get "panels").bind Json.asArray).map List.length).getD
      (len "read" + len "unread")
  let (read, unread) := (len "read", len "unread")
  if unread = 0 then s!"panels read: {read}/{rendered}" else s!"panels unread: {unread}"

/-- What a run makes of the plots of its mandates and of the operator's declaration: the record of
its report, and the problems that refuse it. -/
def gate (files : Files) (explicit : List String) (file env defaultFile : Option String)
    (strict : Bool)
    (plots : List String) : Json × List String :=
  let (receipt, problems) := collect files explicit file env defaultFile strict
  let (record, refused) := evaluate receipt (renderedPanels plots)
  (record, problems ++ refused)

/-! ## The panels of a run -/

/-- The panels: plots with one of the two suffixes. -/
def isPanel (path : String) : Bool := isSvg path || isPng path

/-- A run rendered a panel of this name. -/
def Rendered (plots : List String) (name : String) : Prop :=
  ∃ path ∈ plots, isPanel path = true ∧ panelName path = name

/-- The path a panel is shown by: its first SVG, or its first PNG if it has no SVG. -/
def shownPath (plots : List String) (name : String) : Option String :=
  (plots.find? fun path => isSvg path && panelName path = name).or
    (plots.find? fun path => isPng path && panelName path = name)

/-- The panels are collected plot by plot. -/
theorem renderedPanels_concat (plots : List String) (path : String) :
    renderedPanels (plots ++ [path]) = renderedPanel (renderedPanels plots) path := by
  simp [renderedPanels]

/-- The panels are ordered by their names. -/
theorem isOrdered_renderedPanels (plots : List String) : IsOrdered (renderedPanels plots) := by
  induction plots using List.reverseRecOn with
  | nil => exact List.Pairwise.nil
  | append_singleton plots path ih =>
    rw [renderedPanels_concat, renderedPanel]
    dsimp only
    split_ifs
    · exact ih
    · exact isOrdered_btreeInsert ih _ _
    · exact ih

/-- A panel has a path if it was rendered. -/
theorem isSome_shownPath {plots : List String} {name : String} :
    (shownPath plots name).isSome = true ↔ Rendered plots name := by
  simp only [shownPath, Option.isSome_or, Bool.or_eq_true, List.find?_isSome, Bool.and_eq_true,
    decide_eq_true_eq, Rendered, isPanel]
  constructor
  · rintro (⟨path, hmem, hkind, hname⟩ | ⟨path, hmem, hkind, hname⟩)
    · exact ⟨path, hmem, .inl hkind, hname⟩
    · exact ⟨path, hmem, .inr hkind, hname⟩
  · rintro ⟨path, hmem, hkind | hkind, hname⟩
    · exact .inl ⟨path, hmem, hkind, hname⟩
    · exact .inr ⟨path, hmem, hkind, hname⟩

/-- Whether the path shown for a name is an SVG says whether there is one. -/
theorem isSvg_of_shownPath {plots : List String} {name path : String}
    (h : shownPath plots name = some path) :
    isSvg path = (plots.find? fun path => isSvg path && panelName path = name).isSome := by
  cases hsvg : plots.find? fun path => isSvg path && panelName path = name with
  | some found =>
    have hfound := List.find?_some hsvg
    rw [shownPath, hsvg, Option.some_or] at h
    obtain rfl := Option.some.inj h
    simp only [Bool.and_eq_true] at hfound
    exact hfound.1
  | none =>
    rw [shownPath, hsvg, Option.none_or] at h
    have hnone := List.find?_eq_none.mp hsvg path (List.mem_of_find?_eq_some h)
    have hname := List.find?_some h
    simp only [Bool.and_eq_true] at hname
    rw [hname.2, Bool.and_true] at hnone
    simpa using hnone

/-- A panel's path is that of its last plot. -/
theorem lookup_renderedPanels (plots : List String) (name : String) :
    (renderedPanels plots).lookup name = shownPath plots name := by
  induction plots using List.reverseRecOn with
  | nil => rfl
  | append_singleton plots path ih =>
    have hshown : shownPath (plots ++ [path]) name =
        ((plots.find? fun path => isSvg path && panelName path = name).or
          (if isSvg path && panelName path = name then some path else none)).or
        ((plots.find? fun path => isPng path && panelName path = name).or
          (if isPng path && panelName path = name then some path else none)) := by
      simp only [shownPath, List.find?_append, List.find?_singleton]
    rw [renderedPanels_concat, hshown, renderedPanel]
    by_cases hname : panelName path = name
    · subst hname
      rw [ih]
      have hkind := @isSvg_of_shownPath plots (panelName path)
      rw [shownPath] at hkind ⊢
      -- what was shown so far, by its two kinds
      cases hsvg : plots.find? fun p => isSvg p && panelName p = panelName path with
      | some shown =>
        have hshownSvg := hkind (by rw [hsvg]; rfl)
        rw [hsvg] at hshownSvg
        simp only [Option.some_or, hshownSvg]
        simp [ih, shownPath, hsvg]
      | none =>
        cases hpng : plots.find? fun p => isPng p && panelName p = panelName path with
        | some shown =>
          have hshownSvg := hkind (by rw [hsvg, hpng]; rfl)
          rw [hsvg] at hshownSvg
          cases isSvg path <;> simp [hshownSvg, ih, shownPath, hsvg, hpng, lookup_btreeInsert]
        | none =>
          cases isSvg path <;> cases isPng path <;> simp [ih, shownPath, hsvg, hpng,
            lookup_btreeInsert]
    · have hsame : ∀ entries : List (String × String),
          (btreeInsert entries (panelName path) path).lookup name = entries.lookup name := by
        intro entries
        rw [lookup_btreeInsert, if_neg (Ne.symm hname)]
      simp only [hname, decide_false, Bool.and_false, Bool.false_eq_true, if_false, Option.or_none]
      split_ifs
      · exact ih
      · rw [hsame]
        exact ih
      · exact ih

/-- The panels are those that were rendered. -/
theorem mem_keys_renderedPanels {plots : List String} {name : String} :
    name ∈ (renderedPanels plots).map Prod.fst ↔ Rendered plots name := by
  rw [← isSome_shownPath, ← lookup_renderedPanels, List.lookup_isSome_iff, List.mem_map]
  simp only [beq_iff_eq]
  exact exists_congr fun _ => and_congr_right fun _ => eq_comm

/-! ## The sources of a declaration -/

/-- Where a declaration may come from. -/
inductive Source where
  | flags (items : List String)
  | file (path : String)
  | env (raw : String)

/-- The names a source declares; none if it cannot be read. -/
def Source.names (files : Files) : Source → Option (List String)
  | flags items => some (items.flatMap fun item => splitNames item.toList)
  | file path => (readNamesFile files path).toOption
  | env raw => some (splitNames raw.toList)

/-- The sources that count. The file beside the run is one only where the operator gave no other. -/
def sources (files : Files) (explicit : List String) (file env defaultFile : Option String) :
    List Source :=
  let given := (if explicit.isEmpty then [] else [Source.flags explicit]) ++
      file.toList.map Source.file ++
    (env.toList.filter fun raw => !(Text.trim raw.toList).isEmpty).map Source.env
  if given.isEmpty then (defaultFile.toList.filter files.isFile).map .file else given

/-- What `collect` has after these sources: whether there was one, their names, and a problem for
each that cannot be read. -/
structure Collected (files : Files) (strict : Bool) (given : List Source)
    (state : Receipt × List String) :
    Prop where
  strict : state.1.strict = strict
  provided : state.1.provided = !given.isEmpty
  names : ∀ name, name ∈ state.1.names ↔
    ∃ source ∈ given, ∃ names, source.names files = some names ∧ name ∈ names
  problems : state.2 = [] ↔ ∀ source ∈ given, (source.names files).isSome = true

section

variable {files : Files} {strict : Bool} {given : List Source} {state : Receipt × List String}

/-- A receipt is extended by names. -/
theorem mem_names_extend {receipt : Receipt} {more : List String} {name : String} :
    name ∈ (receipt.extend more).names ↔ name ∈ receipt.names ∨ name ∈ more := by
  rw [Receipt.extend, mem_sortedSet, List.mem_append]

/-- A source whose names are known is collected. -/
theorem Collected.add (h : Collected files strict given state) {source : Source}
    {names : List String}
    (hnames : source.names files = some names) {receipt : Receipt}
    (hstrict : receipt.strict = state.1.strict)
    (hprovided : receipt.provided = true)
    (hreceipt : ∀ name, name ∈ receipt.names ↔ name ∈ state.1.names ∨ name ∈ names) :
    Collected files strict (given ++ [source]) (receipt, state.2) := by
  refine ⟨hstrict.trans h.strict, by simp [hprovided], ?_, ?_⟩
  · intro name
    rw [hreceipt, h.names]
    constructor
    · rintro (⟨source', hmem, names', hnames', hname⟩ | hname)
      · exact ⟨source', List.mem_append_left _ hmem, names', hnames', hname⟩
      · exact ⟨source, by simp, names, hnames, hname⟩
    · rintro ⟨source', hmem, names', hnames', hname⟩
      rcases List.mem_append.mp hmem with hmem | hmem
      · exact .inl ⟨source', hmem, names', hnames', hname⟩
      · obtain rfl := List.mem_singleton.mp hmem
        obtain rfl := Option.some.inj (hnames.symm.trans hnames')
        exact .inr hname
  · show state.2 = [] ↔ _
    rw [h.problems]
    simp [or_imp, forall_and, hnames]

/-- A receipt file adds its names. -/
theorem Collected.readFile (h : Collected files strict given state) (source path : String) :
    Collected files strict (given ++ [Source.file path])
      (Receipt.readFile files state source path) := by
  rw [Receipt.readFile]
  cases hread : readNamesFile files path with
  | ok names =>
    refine h.add (by rw [Source.names, hread]; rfl) rfl rfl ?_
    intro name
    exact mem_names_extend
  | error problem =>
    have hnone : Source.names files (.file path) = none := by rw [Source.names, hread]; rfl
    refine ⟨h.strict, by simp, ?_, ?_⟩
    · intro name
      show name ∈ state.1.names ↔ _
      rw [h.names]
      simp [or_and_right, exists_or, hnone]
    · simp [or_imp, forall_and, hnone]

theorem mem_names_foldl {items : List String} {receipt : Receipt} {name : String} :
    name ∈ (items.foldl (fun receipt item => receipt.extend (splitNames item.toList))
      receipt).names ↔
      name ∈ receipt.names ∨ name ∈ items.flatMap fun item => splitNames item.toList := by
  induction items generalizing receipt with
  | nil => simp
  | cons item items ih =>
    rw [List.foldl_cons, ih, mem_names_extend, List.flatMap_cons, List.mem_append, or_assoc]

theorem foldl_extend_fields {items : List String} {receipt : Receipt} :
    (items.foldl (fun receipt item => receipt.extend (splitNames item.toList)) receipt).strict =
      receipt.strict ∧
      (items.foldl (fun receipt item => receipt.extend (splitNames item.toList)) receipt).provided =
        receipt.provided := by
  induction items generalizing receipt with
  | nil => exact ⟨rfl, rfl⟩
  | cons item items ih => exact ih

/-- The flags give their names. -/
theorem Collected.explicit (explicit : List String) :
    Collected files strict (if explicit.isEmpty then [] else [.flags explicit])
      (if explicit.isEmpty then (⟨[], [], false, strict⟩, [])
      else (explicit.foldl (fun receipt item => receipt.extend (splitNames item.toList))
        ⟨[], ["--panels-read"], true, strict⟩, [])) := by
  have hnone : Collected files strict [] (⟨[], [], false, strict⟩, []) :=
    ⟨rfl, rfl, by simp, by simp⟩
  split_ifs
  · exact hnone
  · refine @Collected.add _ _ _ _ hnone (.flags explicit) _ rfl _ foldl_extend_fields.1
      foldl_extend_fields.2 ?_
    intro name
    exact mem_names_foldl

/-- The environment adds its names. -/
theorem Collected.env (h : Collected files strict given state) (raw : String) :
    Collected files strict (given ++ [Source.env raw])
      (Receipt.extend ⟨state.1.names, state.1.sources ++ ["$" ++ envPanelsRead], true,
        state.1.strict⟩
        (splitNames raw.toList), state.2) := by
  refine h.add rfl rfl rfl ?_
  intro name
  exact mem_names_extend

/-- **`collect`** takes exactly the sources that count. -/
theorem collected (files : Files) (explicit : List String) (file env defaultFile : Option String)
    (strict : Bool) :
    Collected files strict (sources files explicit file env defaultFile)
      (collect files explicit file env defaultFile strict) := by
  have hlast : ∀ {given : List Source} {state : Receipt × List String},
      Collected files strict given state →
      Collected files strict
        (if given.isEmpty then (defaultFile.toList.filter files.isFile).map .file else given)
        (if state.1.provided then state
        else match defaultFile.filter files.isFile with
          | some path => Receipt.readFile files state path path
          | none => state) := by
    intro given state h
    have hprovided := h.provided
    cases given with
    | cons source given =>
      rw [if_neg (by simp : ¬(source :: given).isEmpty = true),
        if_pos (show state.1.provided = true from hprovided)]
      exact h
    | nil =>
      rw [if_pos (by rfl : ([] : List Source).isEmpty = true), if_neg (by rw [hprovided]; decide)]
      cases defaultFile with
      | none => exact h
      | some path =>
        cases hfile : files.isFile path with
        | true => simpa [Option.filter, hfile] using h.readFile path path
        | false => simpa [Option.filter, hfile] using h
  have henv : ∀ {given : List Source} {state : Receipt × List String},
      Collected files strict given state →
      Collected files strict
        (given ++ (env.toList.filter fun raw => !(Text.trim raw.toList).isEmpty).map .env)
        (match env.filter fun raw => !(Text.trim raw.toList).isEmpty with
          | some raw =>
            let receipt := { state.1 with
              provided := true
              sources := state.1.sources ++ ["$" ++ envPanelsRead] }
            (receipt.extend (splitNames raw.toList), state.2)
          | none => state) := by
    intro given state h
    cases env with
    | none => simpa using h
    | some raw =>
      cases hblank : (Text.trim raw.toList).isEmpty with
      | true => simpa [Option.filter, hblank] using h
      | false => simpa [Option.filter, hblank] using h.env raw
  refine hlast (henv ?_)
  cases file with
  | none => simpa using Collected.explicit explicit
  | some path => simpa using (Collected.explicit explicit).readFile _ path

end

/-! ## The gate -/

/-- When nothing is refused. -/
theorem refusals_eq_nil_iff {receipt : Receipt} {rendered : List (String × String)} :
    refusals receipt rendered = [] ↔ unknownPanels receipt rendered = [] ∧
      (receipt.provided = true → unreadPanels receipt rendered = []) ∧
      (receipt.provided = false → receipt.strict = true → rendered = []) := by
  cases hprovided : receipt.provided <;> cases hstrict : receipt.strict <;>
    simp [refusals, hprovided, hstrict]

/-- No panel is unknown if all declared ones were rendered. -/
theorem unknownPanels_eq_nil_iff {receipt : Receipt} {plots : List String} :
    unknownPanels receipt (renderedPanels plots) = [] ↔
      ∀ name ∈ receipt.names, Rendered plots name := by
  simp only [unknownPanels, List.filter_eq_nil_iff, decide_eq_true_eq, not_not,
    mem_keys_renderedPanels]

/-- No panel is unread if all rendered ones are declared. -/
theorem unreadPanels_eq_nil_iff {receipt : Receipt} {plots : List String} :
    unreadPanels receipt (renderedPanels plots) = [] ↔ ∀ name, Rendered plots name →
      name ∈ receipt.names := by
  simp only [unreadPanels, List.filter_eq_nil_iff, decide_eq_true_eq, not_not,
    mem_keys_renderedPanels]

/-- No panel was rendered if no plot is one. -/
theorem renderedPanels_eq_nil_iff {plots : List String} :
    renderedPanels plots = [] ↔ ∀ path ∈ plots, isPanel path = false := by
  rw [← @List.map_eq_nil_iff _ _ Prod.fst, List.eq_nil_iff_forall_not_mem]
  simp only [mem_keys_renderedPanels, Rendered, not_exists, not_and]
  constructor
  · intro h path hmem
    cases hpanel : isPanel path with
    | true => exact absurd rfl (h _ path hmem hpanel)
    | false => rfl
  · intro h name path hmem hpanel
    rw [h path hmem] at hpanel
    cases hpanel

/-- The line that shows a panel. -/
def shownLine (path : String) (read : Bool) : String :=
  let mark := if read then "read" else "UNREAD"
  s!"panel: {path}  {mark}"

/-- The line of a panel's entry in the record. -/
theorem panelLine_panelEntry (receipt : Receipt) (panel : String × String) :
    panelLine (panelEntry receipt panel) = shownLine panel.2 (panel.1 ∈ receipt.names) := by
  have hpath : (panelEntry receipt panel).get "path" = some (.str panel.2) := by
    simp [panelEntry, Json.get, Json.asObject, lookup_btreeInsert]
  have hread : (panelEntry receipt panel).get "read" = some (.bool (panel.1 ∈ receipt.names)) := by
    simp [panelEntry, Json.get, Json.asObject, lookup_btreeInsert]
  rw [panelLine, hpath, hread]
  cases hmem : decide (panel.1 ∈ receipt.names) <;> rfl

theorem get_panels_record (receipt : Receipt) (rendered : List (String × String)) :
    (record receipt rendered).get "panels" = some (.array (rendered.map (panelEntry receipt))) := by
  simp [record, Json.get, Json.asObject, lookup_btreeInsert]

/-- The lines of a record, one for each panel. -/
theorem panelLines_record (receipt : Receipt) (rendered : List (String × String)) :
    panelLines (record receipt rendered) =
      rendered.map fun panel => shownLine panel.2 (panel.1 ∈ receipt.names) := by
  rw [panelLines, get_panels_record]
  simp only [Option.bind_some, Json.asArray, Option.getD_some, List.map_map]
  exact List.map_congr_left fun panel _ => panelLine_panelEntry receipt panel

/-- The clause of a run that left `unread` of its panels undeclared. -/
def shownClause (unread rendered : Nat) : String :=
  if unread = 0 then s!"panels read: {rendered}/{rendered}" else s!"panels unread: {unread}"

/-- The panels are read or unread. -/
theorem length_readPanels (receipt : Receipt) (rendered : List (String × String)) :
    (readPanels receipt rendered).length + (unreadPanels receipt rendered).length =
      rendered.length := by
  have hsplit := List.length_eq_length_filter_add (l := rendered.map Prod.fst) fun name =>
    name ∈ receipt.names
  rw [List.length_map] at hsplit
  simp only [readPanels, unreadPanels, decide_not]
  exact hsplit.symm

/-- The clause of a record tells how many are unread. -/
theorem verdictClause_record (receipt : Receipt) (rendered : List (String × String)) :
    verdictClause (record receipt rendered) =
      shownClause (unreadPanels receipt rendered).length rendered.length := by
  have hread : (record receipt rendered).get "read" =
      some (strList (readPanels receipt rendered)) := by
    simp [record, Json.get, Json.asObject, lookup_btreeInsert]
  have hunread : (record receipt rendered).get "unread" =
      some (strList (unreadPanels receipt rendered)) := by
    simp [record, Json.get, Json.asObject, lookup_btreeInsert]
  have hlength := length_readPanels receipt rendered
  simp only [verdictClause, shownClause, get_panels_record, hread, hunread, Option.bind_some,
    strList,
    Json.asArray, Option.map_some, Option.getD_some, List.length_map]
  split_ifs with hnone
  · rw [hnone, Nat.add_zero] at hlength
    rw [hlength]
  · rfl

/-- The names an operator declares to have read. -/
def declared (files : Files) (explicit : List String) (file env defaultFile : Option String) :
    List String :=
  (sources files explicit file env defaultFile).flatMap fun source => (source.names files).getD []

/-- What the gate promises. -/
structure GateSound (files : Files) (explicit : List String) (file env defaultFile : Option String)
    (strict : Bool)
    (plots : List String) : Prop where
  /-- it passes a run without a declaration unless the operator asked for one, and otherwise a run
  whose sources can all be read and declare exactly the panels that were rendered -/
  passes : (gate files explicit file env defaultFile strict plots).2 = [] ↔
    if (sources files explicit file env defaultFile).isEmpty then
      strict = true → ∀ path ∈ plots, isPanel path = false
    else (∀ source ∈ sources files explicit file env defaultFile,
      (source.names files).isSome = true) ∧
      ∀ name, name ∈ declared files explicit file env defaultFile ↔ Rendered plots name
  /-- whatever it decides, it shows every rendered panel once, by its first SVG or else its first
  PNG, marks those that were not declared, and counts them in the verdict line -/
  shows : ∃ names : List String, names.Pairwise (· < ·) ∧
    (∀ name, name ∈ names ↔ Rendered plots name) ∧
    (panelLines (gate files explicit file env defaultFile strict plots).1 = names.map fun name =>
      shownLine ((shownPath plots name).getD "")
        (name ∈ declared files explicit file env defaultFile)) ∧
    verdictClause (gate files explicit file env defaultFile strict plots).1 = shownClause
      (names.filter (· ∉ declared files explicit file env defaultFile)).length names.length

/-- An entry of an ordered map is the one its key finds. -/
theorem lookup_of_mem {entries : List (String × String)} (h : IsOrdered entries)
    {panel : String × String}
    (hmem : panel ∈ entries) : entries.lookup panel.1 = some panel.2 := by
  obtain ⟨before, after, rfl⟩ := List.append_of_mem hmem
  refine List.lookup_eq_some_iff.mpr ⟨before, after, rfl, ?_⟩
  intro other hother
  rw [IsOrdered, List.map_append, List.pairwise_append] at h
  have hlt := h.2.2 other.1 (List.mem_map_of_mem hother) panel.1 (by simp)
  simp [ne_of_gt hlt]

/-- The declared names are those of all four sources. -/
theorem mem_declared {files : Files} {explicit : List String} {file env defaultFile : Option String}
    {name : String} :
    name ∈ declared files explicit file env defaultFile ↔
      ∃ source ∈ sources files explicit file env defaultFile, ∃ names,
        source.names files = some names ∧ name ∈ names := by
  rw [declared, List.mem_flatMap]
  refine exists_congr fun source => and_congr_right fun _ => ?_
  cases source.names files <;> simp

/-- **The gate of the panel read record**, for every run and every declaration. -/
theorem panels_read_gate (files : Files) (explicit : List String)
    (file env defaultFile : Option String)
    (strict : Bool) (plots : List String) :
    GateSound files explicit file env defaultFile strict plots := by
  have hc := collected files explicit file env defaultFile strict
  set state := collect files explicit file env defaultFile strict with hstate
  have hgate : gate files explicit file env defaultFile strict plots =
      (record state.1 (renderedPanels plots), state.2 ++ refusals state.1 (renderedPanels plots)) :=
        rfl
  have hnames : ∀ name, name ∈ state.1.names ↔
      name ∈ declared files explicit file env defaultFile := by
    intro name
    rw [hc.names, mem_declared]
  refine ⟨?_, ?_⟩
  · rw [hgate, List.append_eq_nil_iff, hc.problems, refusals_eq_nil_iff, unknownPanels_eq_nil_iff,
      unreadPanels_eq_nil_iff, renderedPanels_eq_nil_iff, hc.provided, hc.strict]
    simp only [hnames]
    cases hsources : (sources files explicit file env defaultFile).isEmpty with
    | true =>
      have hnil := List.isEmpty_iff.mp hsources
      have hnone : ∀ name, name ∉ declared files explicit file env defaultFile := by
        intro name hname
        obtain ⟨source, hmem, -⟩ := mem_declared.mp hname
        rw [hnil] at hmem
        cases hmem
      simp [hnil, hnone]
    | false =>
      simp only [Bool.not_false, Bool.false_eq_true, if_false, forall_const, false_implies,
        Bool.true_eq_false, and_true]
      refine and_congr_right fun _ => ?_
      constructor
      · rintro ⟨hknown, hread⟩ name
        exact ⟨hknown name, hread name⟩
      · intro h
        exact ⟨fun name => (h name).mp, fun name => (h name).mpr⟩
  · refine ⟨(renderedPanels plots).map Prod.fst, isOrdered_renderedPanels plots,
      fun name => mem_keys_renderedPanels,
      ?_, ?_⟩
    · rw [hgate, panelLines_record, List.map_map]
      refine List.map_congr_left fun panel hpanel => ?_
      have hpath : shownPath plots panel.1 = some panel.2 := by
        rw [← lookup_renderedPanels]
        exact lookup_of_mem (isOrdered_renderedPanels plots) hpanel
      simp only [Function.comp_apply, hpath, Option.getD_some, hnames]
    · rw [hgate, verdictClause_record, unreadPanels, List.length_map]
      simp only [hnames]

end RtpMux.PanelReceipts
