import RtpMux.Search
import RtpMux.Tools.Imports

/-!
# The call graph of a target (`tools/check_gate/scan.rs`)

The functions of a target by identity, by name and by module and name, with the imports and the
globs of each module. A call is resolved to the functions it may mean: where its path leads, in the
module, through an import, through a glob, or by the bare name anywhere. A name that a module does
not define itself is looked for through its re-exports, which may form cycles (`throughViews`), and
`reachable` collects what is called from some seeds.

Both are searches of `RtpMux.Search`: one step of the first follows an import of the name or a glob,
one step of the second a call.
-/

namespace RtpMux.CheckGate

open Pyre (Regex)

/-- A function of the target's sources, with its body. -/
structure SourceFunction where
  identity : List Char
  module : List Char
  name : List Char
  body : List Char

/-- A table from keys to the identities of functions: no list is empty, and every identity is
known. -/
def Lists {K : Type} [DecidableEq K] (functions : HashMap (List Char) SourceFunction)
    (m : HashMap K (List (List Char))) : Prop :=
  ∀ key found, m.lookup key = some found → found ≠ [] ∧
    ∀ identity ∈ found, (functions.lookup identity).isSome = true

/-- The call graph of a target. -/
structure TargetGraph where
  functions : HashMap (List Char) SourceFunction
  byName : HashMap (List Char) (List (List Char))
  byModuleName : HashMap (List Char × List Char) (List (List Char))
  imports : HashMap (List Char) (HashMap (List Char) (List Char))
  globs : HashMap (List Char) (List (List Char))
  byName_lists : Lists functions byName
  byModuleName_lists : Lists functions byModuleName

/-- `entry(key).or_default()` with one more at the end. -/
def pushEntry {K V : Type} [DecidableEq K] (m : HashMap K (List V)) (key : K) (value : V) :
    HashMap K (List V) :=
  m.insert key ((m.lookup key).getD [] ++ [value])

/-- A function that is added is listed and known. -/
theorem Lists.pushEntry {K : Type} [DecidableEq K] {functions : HashMap (List Char) SourceFunction}
    {m : HashMap K (List (List Char))} (h : Lists functions m) (key : K)
    (function : SourceFunction) :
    Lists (functions.insert function.identity function) (pushEntry m key function.identity) := by
  have hmono : ∀ identity, (functions.lookup identity).isSome = true →
      ((functions.insert function.identity function).lookup identity).isSome = true := by
    intro identity hknown
    rw [HashMap.lookup_insert_eq]
    split
    · rfl
    · exact hknown
  intro key' found hfound
  rw [CheckGate.pushEntry, HashMap.lookup_insert_eq] at hfound
  split at hfound
  · obtain rfl := Option.some.inj hfound
    refine ⟨by simp, fun identity hmem => ?_⟩
    rcases List.mem_append.mp hmem with hmem | hmem
    · refine hmono identity ?_
      cases hold : m.lookup key with
      | none => simp [hold] at hmem
      | some old => exact (h key old hold).2 identity (by simpa [hold] using hmem)
    · rw [List.mem_singleton.mp hmem, HashMap.lookup_insert_eq, if_pos rfl]
      rfl
  · obtain ⟨hne, hknown⟩ := h key' found hfound
    exact ⟨hne, fun identity hmem => hmono identity (hknown identity hmem)⟩

namespace TargetGraph

/-- The graph of no files. -/
def empty : TargetGraph := ⟨∅, ∅, ∅, ∅, ∅, by simp [Lists], by simp [Lists]⟩

/-- The loop of `new` over the functions. -/
def addFunction (g : TargetGraph) (function : SourceFunction) : TargetGraph where
  functions := g.functions.insert function.identity function
  byName := pushEntry g.byName function.name function.identity
  byModuleName := pushEntry g.byModuleName (function.module, function.name) function.identity
  imports := g.imports
  globs := g.globs
  byName_lists := g.byName_lists.pushEntry function.name function
  byModuleName_lists := g.byModuleName_lists.pushEntry (function.module, function.name) function

/-- The loop of `new` over the sources: the imports and globs of a module are added to those it
has. -/
def addSource (g : TargetGraph) (module : List Char) (text : String) : Option TargetGraph :=
  (parseImports text module).map fun (imports, globs) =>
    { g with
      imports := g.imports.insert module
        (imports.entries.foldl (fun m entry => m.insert entry.1 entry.2)
        ((g.imports.lookup module).getD ∅))
      globs := g.globs.insert module ((g.globs.lookup module).getD [] ++ globs) }

/-- `TargetGraph::new`, over the sources that have a module and could be read. -/
def new (functions : List SourceFunction) (sources : List (List Char × String)) :
    Option TargetGraph :=
  sources.foldlM (fun g source => g.addSource source.1 source.2) (functions.foldl addFunction empty)

/-! ## Views -/

section Views

variable (g : TargetGraph) (name : List Char)

/-- What `module` imports `name` from. -/
def imported (module : List Char) : Option (List Char) :=
  (g.imports.lookup module).bind fun m => m.lookup name

/-- The globs of a module, in the order of its files. -/
def globsOf (module : List Char) : List (List Char) := (g.globs.lookup module).getD []

/-- The loop of `through_views` over the globs, with the search of a module. -/
def throughGlobs (visit : List Char → Finset (List Char) →
    Option (List (List Char) × Finset (List Char))) :
    List (List Char) → Finset (List Char) → Option (List (List Char) × Finset (List Char))
  | [], seen => some ([], seen)
  | glob :: rest, seen =>
    match g.byModuleName.lookup (glob, name) with
    | some found => some (found, seen)
    | none =>
      match visit glob seen with
      | none => none
      | some (found, seen) =>
        if found ≠ [] then some (found, seen) else throughGlobs visit rest seen

/-- `through_views`, with the set of modules that were visited; none is out of fuel. -/
def throughViews : Nat → List Char → Finset (List Char) →
    Option (List (List Char) × Finset (List Char))
  | 0, _, _ => none
  | fuel + 1, module, seen =>
    if module ∈ seen then some ([], seen)
    else
      match g.imported name module with
      | none => g.throughGlobs name (throughViews fuel) (g.globsOf module) (insert module seen)
      | some imported =>
        let found := (g.byModuleName.lookup (imported, name)).getD []
        if found ≠ [] then some (found, insert module seen)
        else
          match throughViews fuel imported (insert module seen) with
          | none => none
          | some (found, seen) =>
            if found ≠ [] then some (found, seen)
            else g.throughGlobs name (throughViews fuel) (g.globsOf module) seen

/-- The modules that have an import or a glob. -/
def modules : Finset (List Char) := g.imports.keys.toFinset ∪ g.globs.keys.toFinset

/-- `through_views` from nothing visited. One round for each module is enough. -/
def views (module : List Char) : List (List Char) :=
  (g.throughViews name (g.modules.card + 1) module ∅).elim [] Prod.fst

end Views

/-! ## Calls -/

/-- `rsplit_once("::")`. -/
def rsplitPath (path : List Char) : Option (List Char × List Char) :=
  (Text.splitOnceWord [':', ':'] path.reverse).map fun (after, before) =>
    (before.reverse, after.reverse)

/-- What a module has under a name, itself or through its views: the branch of a qualified path and
of a glob. -/
def inModule (g : TargetGraph) (name module : List Char) : Option (List (List Char)) :=
  match g.byModuleName.lookup (module, name) with
  | some found => some found
  | none =>
    let found := g.views name module
    if found ≠ [] then some found else none

/-- The same for the module of an import. -/
def inImported (g : TargetGraph) (name module : List Char) : Option (List (List Char)) :=
  let found := (g.byModuleName.lookup (module, name)).getD []
  if found ≠ [] then some found
  else
    let found := g.views name module
    if found ≠ [] then some found else none

/-- `resolve`: the functions that a call written as `path` in `module` may mean. -/
def resolve (g : TargetGraph) (module path : List Char) : List (List Char) :=
  let name := ((rsplitPath path).map Prod.snd).getD path
  match (rsplitPath path).bind fun (head, _) => g.inModule name (normalizeModule head module) with
  | some found => found
  | none =>
    match g.byModuleName.lookup (module, name) with
    | some found => found
    | none =>
      match (g.imported name module).bind (g.inImported name) with
      | some found => found
      | none =>
        match (g.globsOf module).findSome? (g.inModule name) with
        | some found => found
        | none => (g.byName.lookup name).getD []

/-- The pattern of a call compiles. -/
theorem callRe_isOk :
    (Regex.new "([A-Za-z_][A-Za-z0-9_]*(?:::[A-Za-z_][A-Za-z0-9_]*)*)\\s*\\(" false).isOk = true :=
  Regex.new_isOk String.toList_ofList (by decide +kernel)

/-- `call_re`. -/
def callRe : Regex :=
  Pyre.compiled "([A-Za-z_][A-Za-z0-9_]*(?:::[A-Za-z_][A-Za-z0-9_]*)*)\\s*\\(" callRe_isOk

/-- The calls in a body. -/
def callsOf (body : List Char) : List (List Char) :=
  (callRe.findIter (String.ofList body)).filterMap fun found =>
    (found.groups[0]?).join.map String.toList

/-- What the calls in a function's body may mean. -/
def callees (g : TargetGraph) (function : SourceFunction) : List (List Char) :=
  (callsOf function.body).flatMap fun call => g.resolve function.module call

/-- The loop of `reachable`, with the top of the stack in front; none is out of fuel. -/
def reachableFrom (g : TargetGraph) : Nat → List (List Char) → Finset (List Char) →
    Option (Finset (List Char))
  | 0, _, _ => none
  | _ + 1, [], seen => some seen
  | fuel + 1, identity :: stack, seen =>
    match g.functions.lookup identity with
    | none => reachableFrom g fuel stack seen
    | some function =>
      if identity ∈ seen then reachableFrom g fuel stack seen
      else reachableFrom g fuel
        (((g.callees function).filter (· ∉ insert identity seen)).reverse ++ stack)
        (insert identity seen)

/-- `reachable`: the last seed is taken first. -/
def reachable (g : TargetGraph) (fuel : Nat) (seeds : List (List Char)) :
    Option (Finset (List Char)) :=
  g.reachableFrom fuel seeds.reverse ∅

/-! ## The views are a depth-first search -/

section Search

variable (g : TargetGraph) (name : List Char)

/-- The modules one step away: what the name is imported from, and the globs. -/
def viewSteps (module : List Char) : List (List Char) :=
  (g.imported name module).toList ++ g.globsOf module

/-- A module that defines the name. -/
def defines (module : List Char) : Option (List (List Char)) := g.byModuleName.lookup (module, name)

/-- The answer of a search as the source returns it. -/
def answerOf (result : Option (List (List Char)) × Finset (List Char)) :
    List (List Char) × Finset (List Char) :=
  (result.1.getD [], result.2)

/-- The loop over the globs is the library's loop over the steps. -/
theorem throughGlobs_eq
    {visit : List Char → Finset (List Char) → Option (List (List Char) × Finset (List Char))}
    {visit' : List Char → Finset (List Char) →
      Option (Option (List (List Char)) × Finset (List Char))}
    (hvisit : ∀ m seen, visit m seen = (visit' m seen).map answerOf)
    (hanswer : ∀ m seen b seen', visit' m seen = some (some b, seen') → b ≠ [])
    (globs : List (List Char))
    (seen : Finset (List Char)) :
    g.throughGlobs name visit globs seen =
      (Search.visitAll (g.defines name) visit' globs seen).map answerOf := by
  induction globs generalizing seen with
  | nil => rfl
  | cons glob rest ih =>
    rw [throughGlobs, Search.visitAll, defines]
    cases g.byModuleName.lookup (glob, name) with
    | some found => rfl
    | none =>
      dsimp only
      rw [hvisit]
      cases hresult : visit' glob seen with
      | none => rfl
      | some result =>
        obtain ⟨answer, seen'⟩ := result
        cases answer with
        | none => exact ih seen'
        | some b => simp [answerOf, hanswer glob seen b seen' hresult]

/-- An answer is a list of functions, and not an empty one. -/
theorem answer_ne_nil {fuel : Nat} {module : List Char} {seen seen' : Finset (List Char)}
    {b : List (List Char)}
    (h : Search.search (g.viewSteps name) (g.defines name) fuel module seen =
      some (some b, seen')) : b ≠ [] := by
  obtain ⟨c, -, hc⟩ := Search.search_sound h
  exact (g.byModuleName_lists _ _ hc).1

/-- `through_views` is the library's search over the view steps. -/
theorem throughViews_eq (fuel : Nat) (module : List Char) (seen : Finset (List Char)) :
    g.throughViews name fuel module seen =
      (Search.search (g.viewSteps name) (g.defines name) fuel module seen).map answerOf := by
  induction fuel generalizing module seen with
  | zero => rfl
  | succ fuel ih =>
    have hglobs := g.throughGlobs_eq name ih fun _ _ _ _ h => g.answer_ne_nil name h
    rw [throughViews, Search.search]
    by_cases hseen : module ∈ seen
    · rw [if_pos hseen, if_pos hseen]
      rfl
    · rw [if_neg hseen, if_neg hseen, viewSteps]
      cases himported : g.imported name module with
      | none => exact hglobs _ _
      | some imported =>
        change _ = (Search.visitAll _ _ (imported :: g.globsOf module) _).map answerOf
        rw [Search.visitAll, defines]
        dsimp only
        cases hfound : g.byModuleName.lookup (imported, name) with
        | some found =>
          rw [if_pos (by simpa using (g.byModuleName_lists _ _ hfound).1)]
          rfl
        | none =>
          rw [if_neg (by simp), ih]
          cases hresult : Search.search (g.viewSteps name) (g.defines name) fuel imported
            (insert module seen) with
          | none => rfl
          | some result =>
            obtain ⟨answer, seen'⟩ := result
            cases answer with
            | none => exact hglobs _ _
            | some b => simp [answerOf, g.answer_ne_nil name hresult]

/-- A module that has steps is one of the graph's. -/
theorem mem_modules_of_viewSteps {module : List Char} (h : g.viewSteps name module ≠ []) :
    module ∈ g.modules := by
  rw [modules, Finset.mem_union, List.mem_toFinset, List.mem_toFinset, ← AList.mem_keys,
    ← AList.mem_keys]
  by_contra hnot
  push Not at hnot
  refine h ?_
  rw [viewSteps, imported, globsOf, AList.lookup_eq_none.mpr hnot.1,
    AList.lookup_eq_none.mpr hnot.2]
  rfl

/-- One step of a chain of views: the module imports the name from the next, or globs it. -/
def View (m m' : List Char) : Prop := g.imported name m = some m' ∨ m' ∈ g.globsOf m

/-- The search's steps are the views of a module. -/
theorem step_viewSteps : Search.Step (g.viewSteps name) = g.View name := by
  funext m m'
  simp [Search.Step, viewSteps, View]

/-- **Views.** With one round for each module the search ends, and it finds something exactly if a
chain of views leads to a module that defines the name. -/
theorem throughViews_spec (module : List Char) {fuel : Nat} (hfuel : g.modules.card < fuel) :
    ∃ found seen, g.throughViews name fuel module ∅ = some (found, seen) ∧
      (found ≠ [] ↔ ∃ m, Relation.TransGen (g.View name) module m ∧
        (g.defines name m).isSome = true) := by
  obtain ⟨answer, seen, hsearch, hiff⟩ :=
    @Search.search_spec _ _ _ _ (g.defines name) _ (fun m => g.mem_modules_of_viewSteps name)
      _ module hfuel
  refine ⟨answer.getD [], seen, by rw [throughViews_eq, hsearch]; rfl, ?_⟩
  rw [← step_viewSteps, ← hiff]
  cases answer with
  | none => simp
  | some b => simpa using g.answer_ne_nil name hsearch

end Search

/-! ## What is resolved is known -/

section Known

variable (g : TargetGraph)

/-- An identity that the graph has a function for. -/
def Known (identity : List Char) : Prop := (g.functions.lookup identity).isSome = true

/-- What a module's views name is known. -/
theorem known_of_views {name module : List Char} :
    ∀ identity ∈ g.views name module, g.Known identity := by
  intro identity hmem
  rw [views, throughViews_eq] at hmem
  cases hsearch : Search.search (g.viewSteps name) (g.defines name)
    (g.modules.card + 1) module ∅ with
  | none => simp [hsearch] at hmem
  | some result =>
    obtain ⟨answer, seen⟩ := result
    cases answer with
    | none => simp [hsearch, answerOf] at hmem
    | some found =>
      obtain ⟨m, -, hm⟩ := Search.search_sound hsearch
      exact (g.byModuleName_lists _ _ hm).2 identity (by simpa [hsearch, answerOf] using hmem)

/-- What is found in a module is known. -/
theorem known_of_inModule {name module : List Char} {found : List (List Char)}
    (h : g.inModule name module = some found) :
    ∀ identity ∈ found, g.Known identity := by
  unfold inModule at h
  split at h
  · next hlookup =>
    obtain rfl := Option.some.inj h
    exact (g.byModuleName_lists _ _ hlookup).2
  · dsimp only at h
    split at h
    · obtain rfl := Option.some.inj h
      exact g.known_of_views
    · cases h

/-- What is found through an import is known. -/
theorem known_of_inImported {name module : List Char} {found : List (List Char)}
    (h : g.inImported name module = some found) : ∀ identity ∈ found, g.Known identity := by
  have hsame : g.inModule name module = g.inImported name module := by
    rw [inModule, inImported]
    cases hlookup : g.byModuleName.lookup (module, name) with
    | none => simp
    | some found => simp [(g.byModuleName_lists _ _ hlookup).1]
  exact g.known_of_inModule (hsame.trans h)

/-- Whatever a call is resolved to is a function of the graph. -/
theorem known_of_resolve {module path : List Char} :
    ∀ identity ∈ g.resolve module path, g.Known identity := by
  unfold resolve
  dsimp only
  split
  · next found h =>
    obtain ⟨parts, -, hfound⟩ := Option.bind_eq_some_iff.mp h
    exact g.known_of_inModule hfound
  · split
    · next found h => exact (g.byModuleName_lists _ _ h).2
    · split
      · next found h =>
        obtain ⟨imported, -, hfound⟩ := Option.bind_eq_some_iff.mp h
        exact g.known_of_inImported hfound
      · split
        · next found h =>
          obtain ⟨glob, -, hfound⟩ := List.exists_of_findSome?_eq_some h
          exact g.known_of_inModule hfound
        · intro identity hmem
          generalize ((rsplitPath path).map Prod.snd).getD path = name at hmem
          cases hlookup : g.byName.lookup name with
          | none => simp [hlookup] at hmem
          | some found =>
            exact (g.byName_lists _ _ hlookup).2 identity (by simpa [hlookup] using hmem)

end Known

/-! ## Reachable functions -/

/-- A set of known functions that holds the known seeds and everything its members' calls are
resolved to. -/
structure CallClosed (g : TargetGraph) (seeds : List (List Char)) (s : Set (List Char)) : Prop where
  known : ∀ identity ∈ s, g.Known identity
  seeds : ∀ identity ∈ seeds, g.Known identity → identity ∈ s
  calls : ∀ identity ∈ s, ∀ function, g.functions.lookup identity = some function →
    ∀ call ∈ callsOf function.body, ∀ callee ∈ g.resolve function.module call, callee ∈ s

/-- What a function leads to, where it is known. -/
def next (g : TargetGraph) (identity : List Char) : Option (List (List Char)) :=
  (g.functions.lookup identity).map g.callees

/-- A function has a list of calls exactly where it is known. -/
theorem isSome_next (g : TargetGraph) (identity : List Char) : (g.next identity).isSome = true ↔
    g.Known identity := by
  rw [next, Option.isSome_map, Known]

/-- `reachable` is the library's closure over the calls. -/
theorem reachableFrom_eq (g : TargetGraph) (fuel : Nat) (stack : List (List Char))
    (seen : Finset (List Char)) :
    g.reachableFrom fuel stack seen = Search.closure g.next fuel stack seen := by
  induction fuel generalizing stack seen with
  | zero => rfl
  | succ fuel ih =>
    cases stack with
    | nil => rfl
    | cons identity stack =>
      rw [reachableFrom, Search.closure, next]
      cases g.functions.lookup identity with
      | none => exact ih _ _
      | some function =>
        dsimp only [Option.map_some]
        split
        · exact ih _ _
        · exact ih _ _

/-- A set that calls do not leave is one that the library calls closed. -/
theorem callClosed_iff (g : TargetGraph) (seeds : List (List Char)) (s : Set (List Char)) :
    g.CallClosed seeds s ↔ Search.IsClosed g.next seeds s := by
  constructor
  · rintro ⟨hknown, hseeds, hcalls⟩
    refine ⟨fun a ha => (g.isSome_next a).mpr (hknown a ha),
      fun a ha h => hseeds a ha ((g.isSome_next a).mp h), ?_⟩
    intro a ha succs hnext b hb _
    obtain ⟨function, hfunction, rfl⟩ := Option.map_eq_some_iff.mp hnext
    obtain ⟨call, hcall, hmem⟩ := List.mem_flatMap.mp hb
    exact hcalls a ha function hfunction call hcall b hmem
  · rintro ⟨hknown, hseeds, hsuccs⟩
    refine ⟨fun a ha => (g.isSome_next a).mp (hknown a ha),
      fun a ha h => hseeds a ha ((g.isSome_next a).mpr h), ?_⟩
    intro a ha function hfunction call hcall callee hcallee
    refine hsuccs a ha (g.callees function) (by rw [next, hfunction]; rfl) callee
      (List.mem_flatMap.mpr ⟨call, hcall, hcallee⟩) ?_
    exact (g.isSome_next callee).mpr (g.known_of_resolve callee hcallee)

/-- The call graph is searched to the end whatever cycles it has: `reachable` returns the least set
of known functions with the seeds that its calls do not lead out of, and `through_views` finds a
name exactly if a chain of imports of the name and globs leads to a module that defines it. -/
theorem call_graph_searched (g : TargetGraph) :
    (∀ seeds, ∃ bound, ∀ fuel, bound < fuel → ∃ s, g.reachable fuel seeds = some s ∧
      IsLeast {t | g.CallClosed seeds t} (s : Set (List Char))) ∧
    ∀ module name, ∃ bound, ∀ fuel, bound < fuel → ∃ found seen,
      g.throughViews name fuel module ∅ = some (found, seen) ∧
      (found ≠ [] ↔ ∃ m, Relation.TransGen (g.View name) module m ∧
        (g.defines name m).isSome = true) := by
  refine ⟨fun seeds => ⟨Search.cost g.next g.functions.keys.toFinset seeds.reverse ∅,
    fun fuel hfuel => ?_⟩,
    fun module name => ⟨g.modules.card, fun fuel hfuel => g.throughViews_spec name module hfuel⟩⟩
  have hnodes : ∀ a, (g.next a).isSome = true → a ∈ g.functions.keys.toFinset := by
    intro a ha
    rw [List.mem_toFinset, ← AList.mem_keys, ← AList.lookup_isSome]
    exact (g.isSome_next a).mp ha
  have hstack : ∀ a, a ∈ seeds.reverse ↔ a ∈ seeds := fun a => List.mem_reverse
  obtain ⟨final, hfinal, hleast⟩ := Search.closure_spec hnodes hstack hfuel
  refine ⟨final, by rw [reachable, reachableFrom_eq, hfinal], ?_⟩
  simpa only [callClosed_iff] using hleast

/-- Two functions that call each other, and two modules that import each other whole; the second
has a function `k`. -/
def cyclic : TargetGraph :=
  { ([⟨"a::f".toList, [], ['f'], "\x7b g(); \x7d".toList⟩,
        ⟨"a::g".toList, [], ['g'], "\x7b f(); \x7d".toList⟩,
        ⟨"n::k".toList, ['n'], ['k'], "\x7b\x7d".toList⟩].foldl addFunction empty) with
    globs := ((∅ : HashMap (List Char) (List (List Char))).insert ['m'] [['n']]).insert ['n']
      [['m']] }

/-- The cycle of calls is walked once, and so is the cycle of globs, on which `k` is found. -/
theorem call_graph_searched_cyclic :
    (∃ fuel s, cyclic.reachable fuel ["a::f".toList] = some s ∧
      IsLeast {t | cyclic.CallClosed ["a::f".toList] t} (s : Set (List Char))) ∧
    ∃ fuel found seen, cyclic.throughViews ['k'] fuel ['m'] ∅ = some (found, seen) ∧
      found ≠ [] := by
  obtain ⟨hcalls, hviews⟩ := call_graph_searched cyclic
  obtain ⟨bound, h⟩ := hcalls ["a::f".toList]
  obtain ⟨s, hs⟩ := h (bound + 1) (Nat.lt_succ_self bound)
  obtain ⟨bound', h'⟩ := hviews ['m'] ['k']
  obtain ⟨found, seen, hfound, hiff⟩ := h' (bound' + 1) (Nat.lt_succ_self bound')
  refine ⟨⟨bound + 1, s, hs⟩, bound' + 1, found, seen, hfound, hiff.2 ⟨['n'], .single ?_, ?_⟩⟩
  · exact .inr (by decide)
  · decide

end TargetGraph

end RtpMux.CheckGate
