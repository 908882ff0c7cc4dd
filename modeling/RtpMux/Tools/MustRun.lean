import Mathlib.Data.List.Sort
import RtpMux.Splits
import RtpMux.Tools.Json

/-!
# The arms a release must have run

A gate text declares, in a fenced block, the arms that the release gate must run. The check reads
the report of the last run and lists what is wrong with it: a declared arm that is not classified,
a report that is absent or of another tree, an arm that did not run, failed or timed out, and an arm
nobody declared.

The report's file system side is an input: where the report was found and what reading it gave, and
the current revision and tree.

The recorded arms are collected in a map by identity, so of two entries for one arm only the last
is looked at (`must_run_sound_iff`).
-/

namespace RtpMux.CheckGate

/-! ## The gate text -/

/-- `Layout::fenced_block`: the body of the first fenced block of that name. -/
def fencedBlock (text : List Char) (name : String) : Option (List Char) := do
  let (_, rest) ← Text.splitOnceWord ("```" ++ name ++ "\n").toList text
  let (body, _) ← Text.splitOnceWord "```".toList rest
  pure body

/-- `MustRunArm`. -/
structure MustRunArm where
  target : String
  test : String
deriving DecidableEq

/-- The `target::test` identity of an arm. -/
def MustRunArm.identity (arm : MustRunArm) : String := arm.target ++ "::" ++ arm.test

/-- One line of a must-run block, with the arms before it. -/
def parseMustRunLine (arms : List MustRunArm) (raw : List Char) (lineNumber : Nat) :
    Except String (List MustRunArm) :=
  let line := Text.trim (raw.takeWhile (· ≠ '#'))
  if line = [] then .ok arms
  else
    let token := (Text.splitWhitespace line).headD []
    match Text.splitOnceWord "::".toList token with
    | none =>
      .error ("gate-must-run line " ++ toString lineNumber ++ " names " ++
        Text.reprStr (String.ofList token) ++ " without `<target>::<test>`")
    | some (target, test) =>
      if target = [] ∨ test = [] then
        .error ("gate-must-run line " ++ toString lineNumber ++ " names " ++
          Text.reprStr (String.ofList token) ++ " without a target and a test")
      else
        let arm : MustRunArm := ⟨String.ofList target, String.ofList test⟩
        if arm ∈ arms then .error ("gate-must-run declares " ++ Text.reprStr arm.identity ++
          " twice")
        else .ok (arms ++ [arm])

/-- The lines of a must-run block, from line `lineNumber` on. -/
def parseMustRunFrom (arms : List MustRunArm) (lineNumber : Nat) :
    List (List Char) → Except String (List MustRunArm)
  | [] => .ok arms
  | raw :: rest => do
    let arms ← parseMustRunLine arms raw lineNumber
    parseMustRunFrom arms (lineNumber + 1) rest

/-- `parse_must_run_block`: the declared arms in order. -/
def parseMustRunBlock (body : List Char) : Except String (List MustRunArm) :=
  parseMustRunFrom [] 1 (Text.lines body)

/-- `declared_must_run`: the arms a gate text declares, if it has the block. -/
def declaredMustRun (text : List Char) : Except String (Option (List MustRunArm)) :=
  match fencedBlock text "gate-must-run" with
  | none => .ok none
  | some body => do
    let arms ← parseMustRunBlock body
    if arms = [] then
      .error
        "the ```gate-must-run block is empty; a declaration with no arm requires nothing and means nothing"
    else pure (some arms)

/-- The names the gate manifest classifies as ignored scenarios. -/
def classifiedNames (text : List Char) : List String :=
  match fencedBlock text "gate-manifest" with
  | none => []
  | some body =>
    ((Text.lines body).map fun line =>
      Text.trim (match Text.splitOnceWord " = ".toList line with
        | some (name, _) => name
        | none => line)).filter (!·.isEmpty) |>.map String.ofList

/-! ## The report -/

/-- What reading the report's path gave. -/
inductive ReportFile where
  | absent
  | unreadable
  | invalidJson
  | parsed (payload : Json)

variable (reprFloat : ℚ → String)

/-- `read_mandate_report`: the payload of a report this checker can read, or why there is none. -/
def readMandateReport (path : String) (file : ReportFile) : Except String Json :=
  let problem (text : String) := "the mandate-check report " ++ path ++ text
  match file with
  | .absent =>
    .error (problem (" does not exist; pass --mandate-check-json a report this run produced, " ++
      "or omit it to skip the drift comparison"))
  | .unreadable => .error (problem " cannot be read")
  | .invalidJson => .error (problem " cannot be read: invalid JSON")
  | .parsed payload =>
    if payload.asObject.isNone then
      .error (problem " is not a JSON object, so its schema and timings cannot be read")
    else
      let schema := payload.get "schema"
      if (schema.bind Json.asStr).any fun s => "mandate-check/".toList.isPrefixOf s.toList then
        .ok payload
      else
        .error (problem (" declares schema " ++ Json.repr reprFloat schema ++
          ", not a mandate-check report this checker can read"))

/-- The entries of the recorded step that name an arm, with its identity. -/
def recordedEntries (mustRun : Json) : List (String × Json) :=
  (((mustRun.get "arms").bind Json.asArray).getD []).filterMap fun entry =>
    match (entry.get "target").bind Json.asStr, (entry.get "test").bind Json.asStr with
    | some target, some test => some (target ++ "::" ++ test, entry)
    | _, _ => none

/-- The recorded arms by identity. A later entry takes the place of an earlier one. -/
def recordedArms (mustRun : Json) : HashMap String Json :=
  fill (recordedEntries mustRun)

/-- The entry says that its run timed out. -/
def timedOut (entry : Json) : Bool :=
  match entry.get "timed_out" with
  | some (.bool true) => true
  | _ => false

/-- The entry says that its run exited with zero. -/
def exitedZero (entry : Json) : Bool :=
  match entry.get "exit_code" with
  | some (.int 0) => true
  | _ => false

/-- What is wrong with the revision or the tree of the recorded step. -/
def revisionProblems (path : String) (mustRun : Json)
    (currentRevision currentTree : Option String) :
    List String :=
  let recordedRevision := (mustRun.get "revision").bind Json.asStr
  let recordedTree := (mustRun.get "tree_id").bind Json.asStr
  let step := "the must_run step of " ++ path
  match recordedTree, currentTree with
  | some recorded, some current =>
    if recorded ≠ current then
      [step ++ " was recorded against tree " ++ recorded ++ " but this checkout is tree " ++
        current ++
        "; a run recorded against another revision is not evidence for this one"]
    else []
  | some recorded, none =>
    [step ++ " records tree " ++ recorded ++
      " but this checkout's tree cannot be resolved, so the recorded revision cannot be checked"]
  | none, _ =>
    match recordedRevision, currentRevision with
    | some recorded, some current =>
      if recorded ≠ current then
        [step ++ " was recorded against revision " ++ recorded ++ " but this checkout is " ++
          current ++
          "; a run recorded against another revision is not evidence for this one"]
      else []
    | some recorded, none =>
      [step ++ " records revision " ++ recorded ++
        " but this checkout's revision cannot be resolved, so the recorded revision cannot be checked"]
    | none, _ =>
      [step ++
        " records no revision or tree, so it cannot be attributed to the revision being released"]

/-- What is wrong with the recorded run of one declared arm. -/
def armProblems (path : String) (recorded : HashMap String Json) (arm : MustRunArm) : List String :=
  match recorded.lookup arm.identity with
  | none =>
    ["the must_run step of " ++ path ++ " did not execute the declared arm " ++
      Text.reprStr arm.identity]
  | some entry =>
    (if timedOut entry then
      ["the must_run arm " ++ Text.reprStr arm.identity ++ " timed out in " ++ path] else []) ++
    if !exitedZero entry then
      ["the must_run arm " ++ Text.reprStr arm.identity ++ " exited " ++
        Json.repr reprFloat (entry.get "exit_code") ++ " in " ++ path] else []

/-- What is wrong with the recorded step. -/
def stepProblems (path : String) (declared : List MustRunArm) (mustRun : Json)
    (currentRevision currentTree : Option String) : List String :=
  let required : List String :=
    match mustRun.get "required" with
    | some (.bool true) => []
    | _ => ["the mandate-check report " ++ path ++
        " records a must_run step that is not marked required, so its absence elsewhere would not be caught"]
  let recorded := recordedArms mustRun
  let undeclared := ((recorded.keys.insertionSort (· ≤ ·)).filter fun identity =>
      !declared.any fun arm => arm.identity = identity).map fun identity =>
    "the must_run step of " ++ path ++ " executed " ++ Text.reprStr identity ++
      " which the ```gate-must-run block does not declare"
  required ++ revisionProblems path mustRun currentRevision currentTree ++
    declared.flatMap (armProblems reprFloat path recorded) ++ undeclared

/-- `must_run_problems`, on the gate text, the report as it was found, and the checkout. -/
def mustRunProblems (manifest : String) (manifestText : List Char) (explicit : Option String)
    (report : Option (String × ReportFile)) (currentRevision currentTree : Option String) :
    List String :=
  match declaredMustRun manifestText with
  | .error problem => [problem]
  | .ok none => []
  | .ok (some declared) =>
    let names := ", ".intercalate (declared.map MustRunArm.identity)
    let classified := classifiedNames manifestText
    let unclassified := (declared.filter fun arm => arm.identity ∉ classified).map fun arm =>
      "gate-must-run names " ++ Text.reprStr arm.identity ++
        " which the gate-manifest block does not classify as an ignored scenario"
    unclassified ++
      match report with
      | none =>
        let source := match explicit with
          | some path => "the --mandate-check-json report " ++ path ++ " does not exist"
          | none => "no --mandate-check-json was given and no run is archived under " ++
              ".net-perf-history/mandate-check/latest"
        ["no mandate-check report exists for this revision: " ++ manifest ++
          " declares MUST-RUN arms (" ++ names ++ ") but " ++ source ++ "; the step never ran"]
      | some (path, file) =>
        match readMandateReport reprFloat path file with
        | .error problem => [problem]
        | .ok payload =>
          match payload.get "must_run" with
          | none =>
            ["the mandate-check report " ++ path ++
              " records no must_run step, so the MUST-RUN arms (" ++
              names ++ ") did not run on it"]
          | some mustRun =>
            if mustRun.asObject.isNone then
              ["the mandate-check report " ++ path ++ " records must_run as " ++
                Json.repr reprFloat (some mustRun) ++ ", not an object"]
            else stepProblems reprFloat path declared mustRun currentRevision currentTree

/-! ## What an empty list of problems shows -/

/-- The arm of this entry passed. -/
def Green (entry : Json) : Prop := exitedZero entry = true ∧ timedOut entry = false

instance (entry : Json) : Decidable (Green entry) := inferInstanceAs (Decidable (_ ∧ _))

/-- The step was recorded on the current tree, or without a tree at the current revision. -/
def RecordedHere (mustRun : Json) (currentRevision currentTree : Option String) : Prop :=
  match (mustRun.get "tree_id").bind Json.asStr with
  | some recorded => currentTree = some recorded
  | none => ∃ recorded, (mustRun.get "revision").bind Json.asStr = some recorded ∧
    currentRevision = some recorded

/-- The recorded step shows that the declared arms, and no others, ran here and passed. -/
structure IsEvidence (manifestText : List Char) (declared : List MustRunArm) (mustRun : Json)
    (currentRevision currentTree : Option String) : Prop where
  required : mustRun.get "required" = some (.bool true)
  here : RecordedHere mustRun currentRevision currentTree
  arms : ∀ identity, (∃ entry ∈ recordedEntries mustRun, entry.1 = identity) ↔
    ∃ arm ∈ declared, arm.identity = identity
  classified : ∀ arm ∈ declared, arm.identity ∈ classifiedNames manifestText
  green : ∀ arm ∈ declared, ∀ entry ∈ recordedEntries mustRun, entry.1 = arm.identity →
    Green entry.2

/-- The recorded step of a report that could be read. -/
def reportStep : Option (String × ReportFile) → Option Json
  | some (_, .parsed payload) => payload.get "must_run"
  | _ => none

/-- An entry passed if a later one is for the same arm. -/
def RepeatsGreen (mustRun : Json) : Prop :=
  ∀ earlier entry later, recordedEntries mustRun = earlier ++ entry :: later →
    (∃ e ∈ later, e.1 = entry.1) → Green entry.2

theorem readMandateReport_eq_ok {path : String} {file : ReportFile} {payload : Json}
    (h : readMandateReport reprFloat path file = .ok payload) : file = .parsed payload := by
  cases file with
  | absent => simp [readMandateReport] at h
  | unreadable => simp [readMandateReport] at h
  | invalidJson => simp [readMandateReport] at h
  | parsed json =>
    simp only [readMandateReport] at h
    split_ifs at h
    rw [Except.ok.injEq] at h
    rw [h]

theorem revisionProblems_eq_nil {path : String} {mustRun : Json}
    {currentRevision currentTree : Option String}
    (h : revisionProblems path mustRun currentRevision currentTree = []) :
    RecordedHere mustRun currentRevision currentTree := by
  unfold revisionProblems at h
  unfold RecordedHere
  cases hr : (mustRun.get "tree_id").bind Json.asStr with
  | some recorded =>
    cases currentTree with
    | none => simp [hr] at h
    | some current => simpa [hr, eq_comm] using h
  | none =>
    cases hv : (mustRun.get "revision").bind Json.asStr with
    | none => simp [hr, hv] at h
    | some recorded =>
      cases currentRevision with
      | none => simp [hr, hv] at h
      | some current => simpa [hr, hv, eq_comm] using h

theorem armProblems_eq_nil {path : String} {recorded : HashMap String Json} {arm : MustRunArm}
    (h : armProblems reprFloat path recorded arm = []) :
    ∃ entry, recorded.lookup arm.identity = some entry ∧ Green entry := by
  unfold armProblems at h
  cases hr : recorded.lookup arm.identity with
  | none => simp [hr] at h
  | some entry => exact ⟨entry, rfl, by simpa [hr, Green, and_comm] using h⟩

/-- **A step without problems** is evidence as far as the last entry for each arm goes. -/
theorem stepProblems_eq_nil {path : String} {declared : List MustRunArm} {mustRun : Json}
    {currentRevision currentTree : Option String}
    (h : stepProblems reprFloat path declared mustRun currentRevision currentTree = []) :
    mustRun.get "required" = some (.bool true) ∧ RecordedHere mustRun currentRevision currentTree ∧
      (∀ arm ∈ declared, ∃ entry, (recordedArms mustRun).lookup arm.identity = some entry ∧
        Green entry) ∧
      ∀ identity, ((recordedArms mustRun).lookup identity).isSome = true →
        ∃ arm ∈ declared, arm.identity = identity := by
  simp only [stepProblems, List.append_eq_nil_iff, List.flatMap_eq_nil_iff, List.map_eq_nil_iff,
    List.filter_eq_nil_iff, List.mem_insertionSort] at h
  obtain ⟨⟨⟨hrequired, hrevision⟩, harms⟩, hundeclared⟩ := h
  refine ⟨?_, revisionProblems_eq_nil hrevision,
    fun arm harm => armProblems_eq_nil reprFloat (harms arm harm),
    fun identity hidentity => ?_⟩
  · split at hrequired
    · assumption
    · simp at hrequired
  · simpa using hundeclared identity (AList.mem_keys.2 (AList.lookup_isSome.1 hidentity))

/-- **Repeats.** All entries of an arm passed if its last one did and those before another did. -/
theorem green_iff_repeatsGreen {declared : List MustRunArm} {mustRun : Json}
    (hlast : ∀ arm ∈ declared, ∃ entry, (recordedArms mustRun).lookup arm.identity = some entry ∧
      Green entry)
    (hdeclared : ∀ identity, (∃ entry ∈ recordedEntries mustRun, entry.1 = identity) →
      ∃ arm ∈ declared, arm.identity = identity) :
    (∀ arm ∈ declared, ∀ entry ∈ recordedEntries mustRun, entry.1 = arm.identity → Green entry.2) ↔
      RepeatsGreen mustRun := by
  constructor
  · intro hgreen earlier entry later hsplit _
    have hentry : entry ∈ recordedEntries mustRun := by
      rw [hsplit]
      simp
    obtain ⟨arm, harm, hidentity⟩ := hdeclared entry.1 ⟨entry, hentry, rfl⟩
    exact hgreen arm harm entry hentry hidentity.symm
  · intro hrepeats arm harm entry hentry hidentity
    obtain ⟨earlier, later, hsplit⟩ := List.append_of_mem hentry
    by_cases hlater : ∃ e ∈ later, e.1 = entry.1
    · exact hrepeats earlier entry later hsplit hlater
    · push Not at hlater
      obtain ⟨last, hlookup, hgreen⟩ := hlast arm harm
      have hthis : (recordedArms mustRun).lookup arm.identity = some entry.2 := by
        refine lookup_fill_eq_some_iff.2 ⟨earlier, later, ?_, ?_⟩
        · rw [hsplit, ← hidentity]
        · rw [← hidentity]
          exact hlater
      rw [hthis, Option.some.injEq] at hlookup
      rw [hlookup]
      exact hgreen

/-- Without problems the arms are declared and classified and the report has a step. -/
theorem mustRunProblems_eq_nil {manifest : String} {manifestText : List Char}
    {explicit : Option String}
    {report : Option (String × ReportFile)} {currentRevision currentTree : Option String}
    (hblock : (fencedBlock manifestText "gate-must-run").isSome = true)
    (h : mustRunProblems reprFloat manifest manifestText explicit report currentRevision
      currentTree = []) :
    ∃ declared mustRun path, declaredMustRun manifestText = .ok (some declared) ∧
      reportStep report = some mustRun ∧
      (∀ arm ∈ declared, arm.identity ∈ classifiedNames manifestText) ∧
      stepProblems reprFloat path declared mustRun currentRevision currentTree = [] := by
  cases hdeclared : declaredMustRun manifestText with
  | error problem => simp [mustRunProblems, hdeclared] at h
  | ok arms =>
    cases arms with
    | none =>
      obtain ⟨body, hbody⟩ := Option.isSome_iff_exists.1 hblock
      rw [declaredMustRun, hbody] at hdeclared
      cases hparse : parseMustRunBlock body with
      | error problem => simp [hparse, bind, Except.bind] at hdeclared
      | ok arms =>
        simp only [hparse, bind, Except.bind] at hdeclared
        split_ifs at hdeclared
        simp [pure, Except.pure] at hdeclared
    | some declared =>
      simp only [mustRunProblems, hdeclared, List.append_eq_nil_iff, List.map_eq_nil_iff,
        List.filter_eq_nil_iff] at h
      obtain ⟨hclassified, h⟩ := h
      cases report with
      | none => simp at h
      | some found =>
        obtain ⟨path, file⟩ := found
        cases hread : readMandateReport reprFloat path file with
        | error problem => simp [hread] at h
        | ok payload =>
          simp only [hread] at h
          cases hstep : payload.get "must_run" with
          | none => simp [hstep] at h
          | some mustRun =>
            simp only [hstep] at h
            split_ifs at h
            have hfile := readMandateReport_eq_ok reprFloat hread
            exact ⟨declared, mustRun, path, rfl, by rw [hfile]; exact hstep,
              by simpa using hclassified, h⟩

/-- **Must-run soundness.** When the check finds no problem, the report is evidence for the declared
arms exactly if every entry that a later one of its arm displaces passed too. -/
theorem must_run_sound_iff {manifest : String} {manifestText : List Char} {explicit : Option String}
    {report : Option (String × ReportFile)} {currentRevision currentTree : Option String}
    (hblock : (fencedBlock manifestText "gate-must-run").isSome = true)
    (h : mustRunProblems reprFloat manifest manifestText explicit report currentRevision
      currentTree = []) :
    (∃ declared mustRun, declaredMustRun manifestText = .ok (some declared) ∧
        reportStep report = some mustRun ∧
        IsEvidence manifestText declared mustRun currentRevision currentTree) ↔
      ∀ mustRun, reportStep report = some mustRun → RepeatsGreen mustRun := by
  obtain ⟨declared, mustRun, path, hdeclared, hreport, hclassified, hstep⟩ :=
    mustRunProblems_eq_nil reprFloat hblock h
  obtain ⟨hrequired, hhere, hlast, hundeclared⟩ := stepProblems_eq_nil reprFloat hstep
  have harms (identity : String) : (∃ entry ∈ recordedEntries mustRun, entry.1 = identity) ↔
      ∃ arm ∈ declared, arm.identity = identity := by
    constructor
    · intro hentry
      exact hundeclared identity (lookup_fill_isSome_iff.2 hentry)
    · rintro ⟨arm, harm, rfl⟩
      obtain ⟨entry, hentry, -⟩ := hlast arm harm
      exact lookup_fill_isSome_iff.1 (Option.isSome_iff_exists.2 ⟨entry, hentry⟩)
  have hgreen := green_iff_repeatsGreen hlast fun identity => (harms identity).1
  rw [hreport]
  constructor
  · rintro ⟨declared', mustRun', hdeclared', hreport', hevidence⟩ mustRun'' hreport''
    rw [hdeclared, Except.ok.injEq, Option.some.injEq] at hdeclared'
    rw [Option.some.injEq] at hreport' hreport''
    subst hdeclared' hreport' hreport''
    exact hgreen.1 hevidence.green
  · intro hrepeats
    exact ⟨declared, mustRun, hdeclared, rfl, hrequired, hhere, harms, hclassified,
      hgreen.2 (hrepeats mustRun rfl)⟩

/-! ## A report with two entries for one arm -/

/-- A gate text that declares and classifies the arm `t::a`. -/
def exampleGate : List Char :=
  "```gate-must-run\nt::a\n```\n```gate-manifest\nt::a = x\n```\n".toList

/-- The entry of one run of an arm. -/
def exampleEntry (exitCode : Int) : Json :=
  .object [("target", .str "t"), ("test", .str "a"), ("exit_code", .int exitCode)]

/-- A required step on the tree `c` that ran `t::a` with these exit codes, one run after the
other. -/
def exampleStep (exitCodes : List Int) : Json :=
  .object [("required", .bool true), ("tree_id", .str "c"),
    ("arms", .array (exitCodes.map exampleEntry))]

/-- A report whose step has one entry for each of these exit codes. -/
def exampleReport (exitCodes : List Int) : Option (String × ReportFile) :=
  some ("r", .parsed (.object
    [("schema", .str "mandate-check/3"), ("must_run", exampleStep exitCodes)]))

/-- Where both runs of the arm passed, the report without problems is evidence. -/
theorem must_run_sound_twice_green :
    ∃ declared mustRun, declaredMustRun exampleGate = .ok (some declared) ∧
      reportStep (exampleReport [0, 0]) = some mustRun ∧
      IsEvidence exampleGate declared mustRun none (some "c") := by
  have hproblems : mustRunProblems (fun _ => "") "m" exampleGate none (exampleReport [0, 0]) none
      (some "c") = [] := by decide +kernel
  have hgreen : ∀ entry ∈ recordedEntries (exampleStep [0, 0]), Green entry.2 := by decide +kernel
  refine (must_run_sound_iff (fun _ => "") (by decide +kernel) hproblems).2 ?_
  intro mustRun hreport earlier entry later hsplit _
  have hstep : exampleStep [0, 0] = mustRun := Option.some.inj hreport
  refine hgreen entry ?_
  rw [hstep, hsplit]
  simp

/-- **A displaced failure.** The arm failed and then passed: no problem, and no evidence. -/
theorem failed_entry_displaced :
    mustRunProblems (fun _ => "") "m" exampleGate none (exampleReport [1, 0]) none (some "c") = [] ∧
      ¬ ∃ declared mustRun, declaredMustRun exampleGate = .ok (some declared) ∧
        reportStep (exampleReport [1, 0]) = some mustRun ∧
        IsEvidence exampleGate declared mustRun none (some "c") := by
  have hfailed : ¬ Green (exampleEntry 1) := by decide +kernel
  have hentries : recordedEntries (exampleStep [1, 0]) =
      [("t::a", exampleEntry 1), ("t::a", exampleEntry 0)] := by
    simp [recordedEntries, exampleStep, exampleEntry, Json.get, Json.asObject, Json.asArray,
      Json.asStr,
      List.lookup_cons]
  refine ⟨by decide +kernel, ?_⟩
  rintro ⟨declared, mustRun, -, hreport, hevidence⟩
  have hstep : exampleStep [1, 0] = mustRun := Option.some.inj hreport
  subst hstep
  have hmem : ("t::a", exampleEntry 1) ∈ recordedEntries (exampleStep [1, 0]) := by
    rw [hentries]
    simp
  obtain ⟨arm, harm, hidentity⟩ := (hevidence.arms "t::a").1 ⟨_, hmem, rfl⟩
  exact hfailed (hevidence.green arm harm _ hmem hidentity.symm)

end RtpMux.CheckGate
