import RtpMux.Tools.Text

/-!
# Lines of a data table (`tools/mandate_plot/mod.rs`)

`parse_csv_line` goes through a line once, inside or outside of quotes, and collects the field it is
in. A line is written in the usual way of such tables: fields with commas between them, each in
quotes with its own quotes doubled, or as it is where neither a comma nor a quote is in it.
Whichever way each field is written, the reader gives back the fields.
-/

namespace RtpMux.MandatePlot

/-! ## The reader -/

/-- The loop of `parse_csv_line`, with the fields so far, the one at hand and whether it is inside
of quotes. -/
def csvLoop (fields : List (List Char)) (current : List Char) : Bool → List Char → List (List Char)
  | _, [] => fields ++ [current]
  | true, '"' :: '"' :: rest => csvLoop fields (current ++ ['"']) true rest
  | true, '"' :: rest => csvLoop fields current false rest
  | true, c :: rest => csvLoop fields (current ++ [c]) true rest
  | false, c :: rest =>
    if c = '"' ∧ current = [] then csvLoop fields current true rest
    else if c = ',' then csvLoop (fields ++ [current]) [] false rest
    else csvLoop fields (current ++ [c]) false rest

/-- `parse_csv_line`: no field at all in a line of blanks. -/
def parseCsvLine (line : List Char) : List (List Char) :=
  if Text.trim line = [] then [] else csvLoop [] [] false line

/-! ## The writer -/

/-- A field and the way it is written. -/
structure CsvField where
  text : List Char
  quoted : Bool
  /-- what is written as it is has neither commas nor quotes -/
  plain : quoted = false → ',' ∉ text ∧ '"' ∉ text

/-- Every quote twice. -/
def doubleQuotes (text : List Char) : List Char :=
  text.flatMap fun c => if c = '"' then ['"', '"'] else [c]

/-- A field as it is written. -/
def CsvField.encode (field : CsvField) : List Char :=
  if field.quoted then '"' :: doubleQuotes field.text ++ ['"'] else field.text

/-- A line as it is written. -/
def encodeLine (fields : List CsvField) : List Char :=
  [','].intercalate (fields.map CsvField.encode)

/-! ## Reading what was written -/

/-- Inside of quotes, up to the closing one. What follows it is no quote. -/
theorem csvLoop_doubleQuotes (fields : List (List Char)) (current text rest : List Char)
    (hrest : rest.head? ≠ some '"') :
    csvLoop fields current true (doubleQuotes text ++ '"' :: rest) =
      csvLoop fields (current ++ text) false rest := by
  induction text generalizing current with
  | nil =>
    cases rest with
    | nil => simp [doubleQuotes, csvLoop]
    | cons c rest =>
      have hc : c ≠ '"' := by simpa using hrest
      simp [doubleQuotes, csvLoop, hc]
  | cons c text ih =>
    rw [doubleQuotes, List.flatMap_cons, ← doubleQuotes, List.append_assoc]
    by_cases hc : c = '"'
    · subst hc
      rw [if_pos rfl]
      have hpair : ['"', '"'] ++ (doubleQuotes text ++ '"' :: rest) = '"' :: '"' ::
          (doubleQuotes text ++ '"' :: rest) := rfl
      rw [hpair, csvLoop, ih, List.append_assoc]
      rfl
    · rw [if_neg hc, List.singleton_append, csvLoop, ih, List.append_assoc]
      · rfl
      · intro _ h
        exact absurd h hc
      · intro h
        exact hc h

/-- Outside of quotes, a text without commas and quotes is taken as it is. -/
theorem csvLoop_plain (fields : List (List Char)) (current text rest : List Char)
    (hcomma : ',' ∉ text) (hquote : '"' ∉ text) :
    csvLoop fields current false (text ++ rest) = csvLoop fields (current ++ text) false rest := by
  induction text generalizing current with
  | nil => simp
  | cons c text ih =>
    have hc : c ≠ ',' := fun h => hcomma (h ▸ List.mem_cons_self)
    have hq : c ≠ '"' := fun h => hquote (h ▸ List.mem_cons_self)
    rw [List.cons_append, csvLoop, if_neg (fun h => hq h.1), if_neg hc,
      ih _ (fun h => hcomma (List.mem_cons_of_mem _ h))
        (fun h => hquote (List.mem_cons_of_mem _ h))]
    simp

/-- **One field**, whichever way it is written. -/
theorem csvLoop_encode (fields : List (List Char)) (field : CsvField) (rest : List Char)
    (hrest : rest.head? ≠ some '"') :
    csvLoop fields [] false (field.encode ++ rest) = csvLoop fields field.text false rest := by
  rw [CsvField.encode]
  cases hquoted : field.quoted with
  | true =>
    rw [if_pos rfl, List.append_assoc, List.cons_append, csvLoop, if_pos ⟨rfl, rfl⟩,
      List.singleton_append,
      csvLoop_doubleQuotes fields [] field.text rest hrest, List.nil_append]
  | false =>
    obtain ⟨hcomma, hquote⟩ := field.plain hquoted
    rw [if_neg Bool.false_ne_true, csvLoop_plain fields [] field.text rest hcomma hquote,
      List.nil_append]

theorem csvLoop_encodeLine (read : List (List Char)) (field : CsvField) (fields : List CsvField) :
    csvLoop read [] false (encodeLine (field :: fields)) = read ++
      (field :: fields).map CsvField.text := by
  induction fields generalizing read field with
  | nil =>
    have hend := csvLoop_encode read field [] (by simp)
    simpa [encodeLine, csvLoop] using hend
  | cons next fields ih =>
    have hline : encodeLine (field :: next :: fields) = field.encode ++ ',' ::
        encodeLine (next :: fields) := by
      rw [encodeLine, List.map_cons, List.map_cons, List.intercalate_cons_cons, List.append_assoc]
      rfl
    rw [hline, csvLoop_encode read field _ (by simp), csvLoop, if_neg (by simp), if_pos rfl, ih]
    simp

/-- A line with a comma in it is not blank. -/
theorem trim_ne_nil_of_mem {line : List Char} {c : Char} (hmem : c ∈ line)
    (hc : Text.isWhitespace c = false) :
    Text.trim line ≠ [] := by
  intro h
  rw [Text.trim, Text.trimEnd, List.rdropWhile_eq_nil_iff] at h
  by_cases hall : ∀ d ∈ line, Text.isWhitespace d = true
  · rw [hall c hmem] at hc
    cases hc
  · have hne : line.dropWhile Text.isWhitespace ≠ [] := by
      rw [Ne, List.dropWhile_eq_nil_iff]
      exact hall
    have hhead := List.head_dropWhile_not Text.isWhitespace hne
    rw [h _ (List.head_mem hne)] at hhead
    cases hhead

/-- **A line of at least two fields** is read back as its fields, whichever way each is written. -/
theorem parseCsvLine_encodeLine (fields : List CsvField) (h : 2 ≤ fields.length) :
    parseCsvLine (encodeLine fields) = fields.map CsvField.text := by
  obtain ⟨field, next, fields, rfl⟩ : ∃ field next rest, fields = field :: next :: rest := by
    cases fields with
    | nil => simp at h
    | cons field fields =>
      cases fields with
      | nil => simp at h
      | cons next rest => exact ⟨field, next, rest, rfl⟩
  have hcomma : ',' ∈ encodeLine (field :: next :: fields) := by
    simp [encodeLine]
  rw [parseCsvLine, if_neg (trim_ne_nil_of_mem hcomma (by decide)), csvLoop_encodeLine,
    List.nil_append]

/-- An empty field, a field of quotes and commas, and a field that is written as it is. -/
theorem parseCsvLine_encodeLine_mixed :
    parseCsvLine "\"\",\"\"\",\"\"\",plain,".toList =
      ["".toList, "\",\"".toList, "plain".toList, "".toList] :=
  parseCsvLine_encodeLine [⟨"".toList, true, by simp⟩, ⟨"\",\"".toList, true, by simp⟩,
    ⟨"plain".toList, false, by decide⟩,
    ⟨"".toList, false, by decide⟩] (by decide)

end RtpMux.MandatePlot
