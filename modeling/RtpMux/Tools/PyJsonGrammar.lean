import RtpMux.Tools.PyJson

/-!
# The plot's parser and the grammar of JSON

The grammar of JSON as a set of documents, and the value that each denotes: the last value of a key
at its first place, a surrogate pair as the one character that it encodes, an integer beyond an
`i64` as a float. `pyjson.rs` leaves whitespace, numbers and escapes to library functions that take
more, and takes no surrogate at all. Apart from these two kinds of text it reads JSON, all of it and
nothing else.
-/

namespace RtpMux.Pyjson

open Text (isAsciiDigit)
open JsonTree JsonReader
open Numerals (valueOf readInt parseI64)

variable {F : Type}

/-! ## The grammar -/

/-- A character of `ws`. -/
def isJsonSpace (c : Char) : Bool := c = ' ' || c = '\t' || c = '\n' || c = '\r'

/-- `char`. -/
def isJsonElement : Element → Bool
  | .bare c _ => 0x20 ≤ c.toNat
  | .short c _ =>
    c = '"' || c = '\\' || c = '/' || c = 'b' || c = 'f' || c = 'n' || c = 'r' || c = 't'
  | .unicode a b c d => [a, b, c, d].all (Numerals.isDigit 16)

/-- `int`: a zero stands in front of no other digit. -/
def isJsonWhole (digits : List Char) : Bool :=
  digits ≠ [] && (digits.head? ≠ some '0' || digits.length = 1)

/-- `number`. -/
def isJsonNumeral (n : Numeral) : Bool :=
  isJsonWhole n.whole.chars && (n.fraction.all fun digits => digits.chars ≠ []) &&
    n.power.all fun power => power.digits.chars ≠ []

/-- What the grammar says of a token. -/
def isJson : Token → Bool
  | .blank space => space.chars.all isJsonSpace
  | .string elements => elements.all isJsonElement
  | .number n => isJsonNumeral n

/-! ## The value of a document -/

/-- The first half of a surrogate pair. -/
def isHigh (code : Nat) : Bool := 0xd800 ≤ code && code < 0xdc00

/-- The second half of a surrogate pair. -/
def isLow (code : Nat) : Bool := 0xdc00 ≤ code && code < 0xe000

/-- Either half. -/
def isSurrogate (code : Nat) : Bool := isHigh code || isLow code

/-- The code that an element stands for. -/
def codeOf : Element → Nat
  | .bare c _ => c.toNat
  | .short c _ => ((shortEscape c).getD c).toNat
  | .unicode a b c d => valueOf 16 [a, b, c, d]

/-- The character that a surrogate pair encodes. -/
def pairChar (high low : Nat) : Char :=
  Char.ofNat (0x10000 + (high - 0xd800) * 0x400 + (low - 0xdc00))

/-- The characters of a row of codes: none if a surrogate has no partner. -/
def decode : List Nat → Option (List Char)
  | [] => some []
  | code :: codes =>
    if isHigh code then
      match codes with
      | low :: codes => if isLow low then (decode codes).map (pairChar code low :: ·) else none
      | [] => none
    else if isLow code then none
    else (decode codes).map (Char.ofNat code :: ·)

/-- The text that a string denotes. -/
def denoteString (elements : List Element) : Option String :=
  (decode (elements.map codeOf)).map String.ofList

/-- An integer in the range of `i64`, or the float nearest to the number. -/
def denoteNumber (floats : Floats F) (n : Numeral) : Value F :=
  let value : Int :=
    if n.negative then -(valueOf 10 n.whole.chars : Int) else valueOf 10 n.whole.chars
  if h : isFloat n = false ∧ -2 ^ 63 ≤ value ∧ value < 2 ^ 63 then .int ⟨value, h.2⟩
  else .float (floats.nearest n.negative (magnitude n))

/-- Each key once, where it stands first, with its last value. -/
def collect {V : Type} (members : List (String × V)) : List (String × V) :=
  (members.map Prod.fst).eraseDups.filterMap fun key => (members.reverse.lookup key).map (key, ·)

mutual

/-- The value that a tree denotes. -/
def denoteTree (floats : Floats F) : Tree → Option (Value F)
  | .word .null => some .null
  | .word .true => some (.bool true)
  | .word .false => some (.bool false)
  | .str elements => (denoteString elements).map .str
  | .number n => some (denoteNumber floats n)
  | .emptyArray _ => some (.array [])
  | .array items => (denoteItems floats items).map .array
  | .emptyObject _ => some (.object [])
  | .object members => (denoteMembers floats members).map fun members => .object (collect members)

/-- The values that the items of an array denote. -/
def denoteItems (floats : Floats F) : Items → Option (List (Value F))
  | .last _ item _ => (denoteTree floats item).map fun value => [value]
  | .cons _ item _ items =>
    (denoteTree floats item).bind fun value => (denoteItems floats items).map (value :: ·)

/-- The keys and values that the members of an object denote, in the order of the text. -/
def denoteMembers (floats : Floats F) : Members → Option (List (String × Value F))
  | .last name value _ =>
    (denoteString name.key).bind fun key => (denoteTree floats value).map fun value =>
      [(key, value)]
  | .cons name value _ members =>
    (denoteString name.key).bind fun key =>
      (denoteTree floats value).bind fun value =>
        (denoteMembers floats members).map ((key, value) :: ·)

end

/-- The text is a JSON text without an unpaired surrogate, and this is its value. -/
def Denotes (floats : Floats F) (text : String) (value : Value F) : Prop :=
  ∃ document : Document, document.text = text.toList ∧
    (∀ token ∈ document.tokens, isJson token = true) ∧
    denoteTree floats document.tree = some value

/-! ## The two kinds of text -/

/-- Every surrogate has its partner. -/
def isPaired : List Nat → Bool
  | [] => true
  | code :: codes =>
    if isHigh code then
      match codes with
      | low :: codes => isLow low && isPaired codes
      | [] => false
    else !isLow code && isPaired codes

/-- No unpaired surrogate stands in a token. -/
def isWhole : Token → Bool
  | .string elements => isPaired (elements.map codeOf)
  | _ => true

/-- A surrogate stands in a token. -/
def hasSurrogate : Token → Bool
  | .string elements => elements.any fun element => isSurrogate (codeOf element)
  | _ => false

/-- An element that the library functions take: `from_str_radix` also takes a plus sign. -/
def isTolerated : Element → Bool
  | .unicode a b c d => (fromStrRadix16 [a, b, c, d]).any fun code => !isSurrogate code
  | element => isJsonElement element

/-- A token that they take: `is_ascii_whitespace` holds of a form feed, and `parse` of a number with
zeros in front, or without digits on one side of its point. -/
def isLoose : Token → Bool
  | .blank _ => true
  | .string elements => elements.all isTolerated
  | .number n => IsDecimal n

/-- A JSON text with a surrogate pair. -/
def HasPair (text : String) : Prop :=
  ∃ document : Document, document.text = text.toList ∧
    (∀ token ∈ document.tokens, isJson token = true ∧ isWhole token = true) ∧
    ∃ token ∈ document.tokens, hasSurrogate token = true

/-- A text outside the grammar, if only by what the library functions take. -/
def IsLooseText (text : String) : Prop :=
  ∃ document : Document, document.text = text.toList ∧
    (∀ token ∈ document.tokens, isLoose token = true) ∧
    ∃ token ∈ document.tokens, isJson token = false

/-! ## Objects -/

section

variable {V : Type}

theorem isSome_lookup {members : List (String × V)} {key : String}
    (h : key ∈ members.map Prod.fst) :
    (members.reverse.lookup key).isSome = true := by
  rw [Option.isSome_iff_ne_none, ne_eq, List.lookup_eq_none_iff]
  obtain ⟨member, hmember, rfl⟩ := List.mem_map.1 h
  intro hall
  have hne := hall member (List.mem_reverse.2 hmember)
  simp at hne

/-- A key takes its place in an object that has each key once. -/
theorem insertFirst_filterMap {keys : List String} (hnodup : keys.Nodup) (find : String → Option V)
    (hfind : ∀ k ∈ keys, (find k).isSome = true) (key : String) (value : V) :
    insertFirst (keys.filterMap fun k => (find k).map (k, ·)) key value =
      (if key ∈ keys then keys else keys ++ [key]).filterMap fun k =>
        (if k = key then some value else find k).map (k, ·) := by
  induction keys with
  | nil => simp [insertFirst]
  | cons k keys ih =>
    obtain ⟨v, hv⟩ := Option.isSome_iff_exists.1 (hfind k (by simp))
    have hhead : ((k :: keys).filterMap fun k => (find k).map (k, ·)) =
        (k, v) :: keys.filterMap fun k => (find k).map (k, ·) := by simp [hv]
    rw [hhead, insertFirst]
    obtain ⟨hnot, hnodup⟩ := List.nodup_cons.1 hnodup
    by_cases hk : k = key
    · subst hk
      have hrest : (keys.filterMap fun q => (if q = k then some value else find q).map (q, ·)) =
          keys.filterMap fun q => (find q).map (q, ·) := by
        refine List.filterMap_congr fun q hq => ?_
        have hne : q ≠ k := fun heq => hnot (heq ▸ hq)
        rw [if_neg hne]
      simp [hrest]
    · have hmem : key ∈ k :: keys ↔ key ∈ keys := by simp [Ne.symm hk]
      rw [if_neg hk, ih hnodup fun q hq => hfind q (List.mem_cons_of_mem _ hq)]
      by_cases hkey : key ∈ keys
      · simp [hkey, hk, hv]
      · simp [hkey, Ne.symm hk, hk, hv]

/-- A further key is new or not. -/
theorem eraseDups_concat (keys : List String) (key : String) :
    (keys ++ [key]).eraseDups = if key ∈ keys then keys.eraseDups else keys.eraseDups ++ [key] := by
  rw [List.eraseDups_append]
  by_cases hkey : key ∈ keys
  · simp [List.removeAll, hkey]
  · simp [List.removeAll, hkey, List.eraseDups_cons]

theorem nodup_eraseDups (keys : List String) : keys.eraseDups.Nodup := by
  induction keys using List.reverseRecOn with
  | nil => exact .nil
  | append_singleton keys key ih =>
    rw [eraseDups_concat]
    split
    · exact ih
    · next hkey =>
      have hnew : key ∉ keys.eraseDups := fun hmem => hkey (List.mem_eraseDups.1 hmem)
      rw [List.nodup_append]
      refine ⟨ih, List.nodup_singleton key, fun k hk q hq heq => ?_⟩
      rw [heq, List.mem_singleton.1 hq] at hk
      exact hnew hk

/-- A member that is inserted is collected. -/
theorem insertFirst_collect (members : List (String × V)) (key : String) (value : V) :
    insertFirst (collect members) key value = collect (members ++ [(key, value)]) := by
  have hmem (k : String) : k ∈ (members.map Prod.fst).eraseDups ↔ k ∈ members.map Prod.fst :=
    List.mem_eraseDups
  have hfind (k : String) : (members ++ [(key, value)]).reverse.lookup k =
      if k = key then some value else members.reverse.lookup k := by
    rw [List.reverse_append, List.reverse_singleton, List.singleton_append, List.lookup_cons]
    by_cases hk : k = key
    · simp [hk]
    · rw [beq_false_of_ne hk, if_neg hk]
  have hkeys : ((members ++ [(key, value)]).map Prod.fst).eraseDups =
      if key ∈ (members.map Prod.fst).eraseDups then (members.map Prod.fst).eraseDups
      else (members.map Prod.fst).eraseDups ++ [key] := by
    rw [List.map_append, List.map_singleton, eraseDups_concat]
    simp only [hmem]
  rw [collect, insertFirst_filterMap (nodup_eraseDups _) _ fun k hk => isSome_lookup
    ((hmem k).1 hk), collect, hkeys]
  simp only [hfind]

end

/-- A dictionary collects its members. -/
theorem insertAll_eq_collect (floats : Floats F) (members : List (String × Value F)) :
    (pyjson floats).insertAll [] members = collect members := by
  induction members using List.reverseRecOn with
  | nil => rfl
  | append_singleton members member ih =>
    have hsplit : (pyjson floats).insertAll [] (members ++ [member]) =
        insertFirst ((pyjson floats).insertAll [] members) member.1 member.2 := by
      rw [Dialect.insertAll, List.foldl_append]
      rfl
    rw [hsplit, ih, insertFirst_collect]

/-! ## Numbers -/

/-- A whole numeral is a decimal if it has a digit. -/
theorem isDecimal_iff {n : Numeral} (h : isFloat n = false) : IsDecimal n ↔ n.whole.chars ≠ [] := by
  simp only [isFloat, Bool.or_eq_false_iff, Option.isSome_eq_false_iff,
    Option.isNone_iff_eq_none] at h
  simp [IsDecimal, fractionDigits, h.1, h.2]

theorem text_of_whole {n : Numeral} (h : isFloat n = false) :
    n.text = signText n.negative ++ n.whole.chars := by
  simp only [isFloat, Bool.or_eq_false_iff, Option.isSome_eq_false_iff,
    Option.isNone_iff_eq_none] at h
  simp [Numeral.text, h.1, h.2, fractionText, powerText]

/-- A sign without digits is no integer. -/
theorem readInt_sign (negative : Bool) : readInt (signText negative) = none := by
  cases negative <;> rfl

/-- `Parser::number` takes the decimal numbers, and makes of each what it denotes. -/
theorem convert_text (floats : Floats F) (n : Numeral) :
    (pyjson floats).convert n.text (isFloat n) =
    if IsDecimal n then some (denoteNumber floats n) else none := by
  cases hfloat : isFloat n with
  | true =>
    change (floats.parse n.text).map Value.float = _
    rw [Floats.parse_text]
    by_cases hdecimal : IsDecimal n
    · simp [hdecimal, denoteNumber, hfloat]
    · simp [hdecimal]
  | false =>
    simp only [pyjson, Bool.false_eq_true, if_false, Floats.parse_text]
    by_cases hdecimal : IsDecimal n
    · have hread := readInt_signed n.negative n.whole ((isDecimal_iff hfloat).1 hdecimal)
      rw [← text_of_whole hfloat] at hread
      simp only [hdecimal, if_true, denoteNumber, hfloat, true_and, parseI64, hread,
        Option.bind_some]
      -- whether an `i64` holds it
      by_cases hrange : -2 ^ 63 ≤
        (if n.negative = true then -(valueOf 10 n.whole.chars : Int)
        else valueOf 10 n.whole.chars) ∧
          (if n.negative = true then -(valueOf 10 n.whole.chars : Int)
            else valueOf 10 n.whole.chars) < 2 ^ 63
      · rw [dif_pos hrange, dif_pos hrange]
      · rw [dif_neg hrange, dif_neg hrange]
        rfl
    · have hwhole : n.whole.chars = [] := by
        by_contra hne
        exact hdecimal ((isDecimal_iff hfloat).2 hne)
      have hread : parseI64 n.text = none := by
        rw [parseI64, text_of_whole hfloat, hwhole, List.append_nil, readInt_sign]
        rfl
      simp [hdecimal, hread]

/-- A number of the grammar is decimal. -/
theorem isDecimal_of_isJsonNumeral {n : Numeral} (h : isJsonNumeral n = true) : IsDecimal n := by
  simp only [isJsonNumeral, isJsonWhole, Bool.and_eq_true, decide_eq_true_eq] at h
  exact ⟨.inl h.1.1.1, h.2⟩

/-! ## Strings -/

/-- Units are decoded if their surrogates are paired. -/
theorem isSome_decode (codes : List Nat) : (decode codes).isSome = isPaired codes := by
  fun_induction decode codes with
  | case1 => rfl
  | case2 code hhigh low codes hlow ih => simp [isPaired.eq_def (code :: _), hhigh, hlow, ih]
  | case3 code hhigh low codes hlow => simp [isPaired.eq_def (code :: _), hhigh, hlow]
  | case4 code hhigh => simp [isPaired.eq_def [code], hhigh]
  | case5 code codes hhigh hlow => simp [isPaired.eq_def (code :: _), hhigh, hlow]
  | case6 code codes hhigh hlow ih => simp [isPaired.eq_def (code :: _), hhigh, hlow, ih]

/-- Units without surrogates are decoded one by one. -/
theorem decode_of_plain {codes : List Nat} (h : ∀ code ∈ codes, isSurrogate code = false) :
    decode codes = some (codes.map Char.ofNat) := by
  induction codes with
  | nil => rfl
  | cons code codes ih =>
    have hcode := h code (by simp)
    simp only [isSurrogate, Bool.or_eq_false_iff] at hcode
    rw [decode.eq_def]
    simp [hcode.1, hcode.2, ih fun c hc => h c (List.mem_cons_of_mem _ hc)]

theorem isSurrogate_iff (code : Nat) : isSurrogate code = true ↔ 0xd800 ≤ code ∧ code < 0xe000 := by
  simp only [isSurrogate, isHigh, isLow, Bool.or_eq_true, Bool.and_eq_true, decide_eq_true_eq]
  omega

/-- A character is no surrogate. -/
theorem isSurrogate_toNat (c : Char) : isSurrogate c.toNat = false := by
  have hvalid : c.toNat.isValidChar := c.valid
  unfold Nat.isValidChar at hvalid
  rw [← Bool.not_eq_true, isSurrogate_iff]
  omega

theorem shortEscape_of_isJson {c : Char} {h : c ≠ 'u'} (hjson : isJsonElement (.short c h) = true) :
    (shortEscape c).isSome = true := by
  simp only [isJsonElement, Bool.or_eq_true, decide_eq_true_eq] at hjson
  rcases hjson with ((((((rfl | rfl) | rfl) | rfl) | rfl) | rfl) | rfl) | rfl <;> rfl

theorem isJson_of_shortEscape {c : Char} {h : c ≠ 'u'} (hshort : (shortEscape c).isSome = true) :
    isJsonElement (.short c h) = true := by
  unfold shortEscape at hshort
  split at hshort <;> first | rfl | cases hshort

/-- Four hexadecimal digits. -/
theorem fromStrRadix16_of_isJson {a b c d : Char} (h : isJsonElement (.unicode a b c d) = true) :
    fromStrRadix16 [a, b, c, d] = some (codeOf (.unicode a b c d)) := by
  have hplus : dropPlus [a, b, c, d] = [a, b, c, d] := by
    unfold dropPlus
    split
    · next heq =>
      obtain ⟨rfl, -⟩ := List.cons.inj heq
      simp [isJsonElement, show Numerals.isDigit 16 '+' = false from rfl] at h
    · rfl
  rw [fromStrRadix16, hplus]
  exact if_pos ⟨by simp, h⟩

/-- A unit is a character unless it is a surrogate. -/
theorem charFromU32_of_lt {code : Nat} (h : code < 2 ^ 16) :
    charFromU32 code = if isSurrogate code then none else some (Char.ofNat code) := by
  unfold charFromU32 Nat.isValidChar
  by_cases hsurrogate : isSurrogate code = true
  · rw [if_pos hsurrogate, if_neg]
    rw [isSurrogate_iff] at hsurrogate
    omega
  · rw [if_neg hsurrogate, if_pos]
    rw [isSurrogate_iff] at hsurrogate
    omega

/-- Four hexadecimal digits are a unit. -/
theorem fromStrRadix16_lt {text : List Char} (hlength : text.length = 4) {code : Nat}
    (h : fromStrRadix16 text = some code) :
    code < 2 ^ 16 := by
  unfold fromStrRadix16 at h
  dsimp only at h
  split at h
  · obtain rfl := Option.some.inj h
    have hshort : (dropPlus text).length ≤ 4 := by
      unfold dropPlus
      split
      · next digits => simp only [List.length_cons] at hlength; omega
      · exact hlength.le
    calc valueOf 16 (dropPlus text)
        < 16 ^ (dropPlus text).length := Numerals.valueOf_lt (by decide) _
      _ ≤ 16 ^ 4 := Nat.pow_le_pow_right (by decide) hshort
  · cases h

/-- Four characters behind `\u`: the code they spell, unless it is a surrogate. -/
theorem evalElement_unicode (floats : Floats F) (a b c d : Char) :
    (pyjson floats).evalElement (.unicode a b c d) =
    (fromStrRadix16 [a, b, c, d]).bind fun code =>
      if isSurrogate code then none else some (Char.ofNat code) := by
  rw [Dialect.evalElement, unicodeEscape]
  cases hcode : fromStrRadix16 [a, b, c, d] with
  | none => rfl
  | some code =>
    dsimp only
    rw [Option.bind_some, ← charFromU32_of_lt (fromStrRadix16_lt rfl hcode)]
    cases charFromU32 code <;> rfl

/-- The parser takes the elements that the library functions take. -/
theorem isSome_evalElement (floats : Floats F) (element : Element) :
    ((pyjson floats).evalElement element).isSome = isTolerated element := by
  cases element with
  | bare c h =>
    by_cases hcontrol : c.toNat < 0x20
    · simp [Dialect.evalElement, pyjson, isTolerated, isJsonElement, hcontrol]
    · simp [Dialect.evalElement, isTolerated, isJsonElement, hcontrol, Nat.le_of_not_lt hcontrol]
  | short c h =>
    rw [Bool.eq_iff_iff]
    exact ⟨isJson_of_shortEscape (h := h), shortEscape_of_isJson (h := h)⟩
  | unicode a b c d =>
    rw [evalElement_unicode, isTolerated]
    cases fromStrRadix16 [a, b, c, d] with
    | none => rfl
    | some code =>
      rw [Option.bind_some, Option.any_some]
      cases isSurrogate code <;> rfl

/-- An element of the grammar that is no surrogate is read as its character. -/
theorem evalElement_of_isJson (floats : Floats F) {element : Element}
    (hjson : isJsonElement element = true)
    (hplain : isSurrogate (codeOf element) = false) :
    (pyjson floats).evalElement element = some (Char.ofNat (codeOf element)) := by
  cases element with
  | bare c h =>
    have hcontrol : ¬ c.toNat < 0x20 := Nat.not_lt.2 (of_decide_eq_true hjson)
    simp [Dialect.evalElement, hcontrol, codeOf]
  | short c h =>
    obtain ⟨character, hcharacter⟩ := Option.isSome_iff_exists.1 (shortEscape_of_isJson hjson)
    simp [Dialect.evalElement, codeOf, hcharacter]
  | unicode a b c d =>
    rw [evalElement_unicode, fromStrRadix16_of_isJson hjson, Option.bind_some, hplain,
      if_neg (by decide)]

/-- The reader takes a proper element unless it is a surrogate. -/
theorem isTolerated_of_isJson {element : Element} (h : isJsonElement element = true) :
    isTolerated element = !isSurrogate (codeOf element) := by
  cases element with
  | bare c _ => simp [isTolerated, h, codeOf, isSurrogate_toNat]
  | short c _ => simp [isTolerated, h, codeOf, isSurrogate_toNat]
  | unicode a b c d => rw [isTolerated, fromStrRadix16_of_isJson h, Option.any_some]

/-- The reader takes a string if it takes its elements. -/
theorem isSome_evalElements (floats : Floats F) (elements : List Element) :
    ((pyjson floats).evalElements elements).isSome = elements.all isTolerated := by
  induction elements with
  | nil => rfl
  | cons element elements ih =>
    rw [Dialect.evalElements, List.all_cons, ← isSome_evalElement floats, ← ih]
    cases (pyjson floats).evalElement element with
    | none => rfl
    | some character => simp

/-- The reader decodes proper elements without surrogates. -/
theorem evalElements_of_isJson (floats : Floats F) {elements : List Element}
    (hjson : elements.all isJsonElement = true)
    (hplain : (elements.any fun element => isSurrogate (codeOf element)) = false) :
    (pyjson floats).evalElements elements = decode (elements.map codeOf) := by
  rw [List.all_eq_true] at hjson
  rw [List.any_eq_false] at hplain
  have hcode (element : Element) (h : element ∈ elements) : isSurrogate (codeOf element) = false :=
    Bool.eq_false_iff.2 (hplain element h)
  have hdecode : decode (elements.map codeOf) = some ((elements.map codeOf).map Char.ofNat) := by
    refine decode_of_plain fun code h => ?_
    obtain ⟨element, helement, rfl⟩ := List.mem_map.1 h
    exact hcode element helement
  rw [hdecode]
  clear hplain hdecode
  induction elements with
  | nil => rfl
  | cons element elements ih =>
    rw [Dialect.evalElements,
      evalElement_of_isJson floats (hjson element (by simp)) (hcode element (by simp)),
      ih (fun e he => hjson e (List.mem_cons_of_mem _ he)) fun e he =>
        hcode e (List.mem_cons_of_mem _ he)]
    rfl

/-! ## Trees -/

/-- Two in a row give a result where both do. -/
theorem isSome_bind {α β : Type} (x : Option α) {f : α → Option β} {given : Bool}
    (h : ∀ a, (f a).isSome = given) :
    (x.bind f).isSome = (x.isSome && given) := by
  cases x with
  | none => rfl
  | some a => simp [h a]

mutual

/-- The parser takes the trees whose tokens the library functions take. -/
theorem isSome_evalTree (floats : Floats F) :
    (t : Tree) → ((pyjson floats).evalTree t).isSome = t.tokens.all isLoose
  | .word .null | .word .true | .word .false => rfl
  | .str elements => by
    rw [Dialect.evalTree, Option.isSome_map, isSome_evalElements]
    simp [Tree.tokens, isLoose]
  | .number n => by
    rw [Dialect.evalTree, convert_text]
    by_cases hdecimal : IsDecimal n
    · simp [hdecimal, Tree.tokens, isLoose]
    · simp [hdecimal, Tree.tokens, isLoose]
  | .emptyArray _ => rfl
  | .array items => by
    rw [Dialect.evalTree, Option.isSome_map, isSome_evalItems floats items, Tree.tokens]
  | .emptyObject _ => rfl
  | .object members => by
    rw [Dialect.evalTree, Option.isSome_map, isSome_evalMembers floats members, Tree.tokens]

/-- The reader takes items if their tokens are loose. -/
theorem isSome_evalItems (floats : Floats F) : (items : Items) →
    ((pyjson floats).evalItems items).isSome = items.tokens.all isLoose
  | .last _ item _ => by
    rw [Dialect.evalItems, Option.isSome_map, isSome_evalTree floats item]
    simp [Items.tokens, isLoose]
  | .cons _ item _ items => by
    rw [Dialect.evalItems, isSome_bind _ fun _ => Option.isSome_map, isSome_evalTree floats item,
      isSome_evalItems floats items]
    simp [Items.tokens, isLoose]

/-- The reader takes members if their tokens are loose. -/
theorem isSome_evalMembers (floats : Floats F) : (members : Members) →
    ((pyjson floats).evalMembers members).isSome = members.tokens.all isLoose
  | .last name value _ => by
    rw [Dialect.evalMembers, isSome_bind _ fun _ => Option.isSome_map, Dialect.evalName,
      Option.isSome_map,
      isSome_evalElements, isSome_evalTree floats value]
    simp [Members.tokens, Name.tokens, isLoose]
  | .cons name value _ members => by
    rw [Dialect.evalMembers, isSome_bind _ fun _ => isSome_bind _ fun _ => Option.isSome_map,
      Dialect.evalName,
      Option.isSome_map, isSome_evalElements, isSome_evalTree floats value,
        isSome_evalMembers floats members]
    simp [Members.tokens, Name.tokens, isLoose]

end

/-- A string means something if its surrogates are paired. -/
theorem isSome_denoteString (elements : List Element) :
    (denoteString elements).isSome = isPaired (elements.map codeOf) := by
  rw [denoteString, Option.isSome_map, isSome_decode]

mutual

/-- A tree denotes a value where every surrogate in it is paired. -/
theorem isSome_denoteTree (floats : Floats F) :
    (t : Tree) → (denoteTree floats t).isSome = t.tokens.all isWhole
  | .word .null | .word .true | .word .false => rfl
  | .str elements => by
    rw [denoteTree, Option.isSome_map, isSome_denoteString]
    simp [Tree.tokens, isWhole]
  | .number n => rfl
  | .emptyArray _ => rfl
  | .array items => by
    rw [denoteTree, Option.isSome_map, isSome_denoteItems floats items, Tree.tokens]
  | .emptyObject _ => rfl
  | .object members => by
    rw [denoteTree, Option.isSome_map, isSome_denoteMembers floats members, Tree.tokens]

/-- Items mean something if their tokens are whole. -/
theorem isSome_denoteItems (floats : Floats F) : (items : Items) →
    (denoteItems floats items).isSome = items.tokens.all isWhole
  | .last _ item _ => by
    rw [denoteItems, Option.isSome_map, isSome_denoteTree floats item]
    simp [Items.tokens, isWhole]
  | .cons _ item _ items => by
    rw [denoteItems, isSome_bind _ fun _ => Option.isSome_map, isSome_denoteTree floats item,
      isSome_denoteItems floats items]
    simp [Items.tokens, isWhole]

/-- Members mean something if their tokens are whole. -/
theorem isSome_denoteMembers (floats : Floats F) : (members : Members) →
    (denoteMembers floats members).isSome = members.tokens.all isWhole
  | .last name value _ => by
    rw [denoteMembers, isSome_bind _ fun _ => Option.isSome_map, isSome_denoteString,
      isSome_denoteTree floats value]
    simp [Members.tokens, Name.tokens, isWhole]
  | .cons name value _ members => by
    rw [denoteMembers, isSome_bind _ fun _ => isSome_bind _ fun _ => Option.isSome_map,
      isSome_denoteString,
      isSome_denoteTree floats value, isSome_denoteMembers floats members]
    simp [Members.tokens, Name.tokens, isWhole]

end

/-- A token that the grammar and the parser agree on. -/
def isCommon (token : Token) : Bool := isJson token && !hasSurrogate token

/-- The reader takes a common string as what it means. -/
theorem evalElements_of_isCommon (floats : Floats F) {elements : List Element}
    (h : isCommon (.string elements) = true) :
    ((pyjson floats).evalElements elements).map String.ofList = denoteString elements := by
  simp only [isCommon, isJson, hasSurrogate, Bool.and_eq_true, Bool.not_eq_true'] at h
  rw [evalElements_of_isJson floats h.1 h.2, denoteString]

mutual

/-- The parser makes of such a tree what it denotes. -/
theorem evalTree_of_isCommon (floats : Floats F) : (t : Tree) → t.tokens.all isCommon = true →
    (pyjson floats).evalTree t = denoteTree floats t
  | .word .null, _ | .word .true, _ | .word .false, _ => rfl
  | .str elements, h => by
    have hstring : isCommon (.string elements) = true := by simpa [Tree.tokens] using h
    rw [Dialect.evalTree, denoteTree, ← evalElements_of_isCommon floats hstring, Option.map_map]
    rfl
  | .number n, h => by
    have hnumber : isJsonNumeral n = true := by
      simpa [Tree.tokens, isCommon, isJson, hasSurrogate] using h
    rw [Dialect.evalTree, denoteTree, convert_text, if_pos (isDecimal_of_isJsonNumeral hnumber)]
  | .emptyArray _, _ => rfl
  | .array items, h => by
    rw [Dialect.evalTree, denoteTree, evalItems_of_isCommon floats items h]
  | .emptyObject _, _ => rfl
  | .object members, h => by
    rw [Dialect.evalTree, denoteTree, evalMembers_of_isCommon floats members h]
    simp only [insertAll_eq_collect]

/-- The reader takes common items as what they mean. -/
theorem evalItems_of_isCommon (floats : Floats F) :
    (items : Items) → items.tokens.all isCommon = true →
    (pyjson floats).evalItems items = denoteItems floats items
  | .last _ item _, h => by
    simp only [Items.tokens, List.all_cons, List.all_append, Bool.and_eq_true] at h
    rw [Dialect.evalItems, denoteItems, evalTree_of_isCommon floats item h.2.1]
  | .cons _ item _ items, h => by
    simp only [Items.tokens, List.all_cons, List.all_append, Bool.and_eq_true] at h
    rw [Dialect.evalItems, denoteItems, evalTree_of_isCommon floats item h.2.1,
      evalItems_of_isCommon floats items h.2.2.2]

/-- The reader takes common members as what they mean. -/
theorem evalMembers_of_isCommon (floats : Floats F) : (members : Members) →
    members.tokens.all isCommon = true →
    (pyjson floats).evalMembers members = denoteMembers floats members
  | .last name value _, h => by
    simp only [Members.tokens, Name.tokens, List.all_cons, List.all_append, Bool.and_eq_true] at h
    rw [Dialect.evalMembers, denoteMembers, Dialect.evalName,
      evalElements_of_isCommon floats h.1.2.1,
      evalTree_of_isCommon floats value h.2.1]
  | .cons name value _ members, h => by
    simp only [Members.tokens, Name.tokens, List.all_cons, List.all_append, Bool.and_eq_true] at h
    rw [Dialect.evalMembers, denoteMembers, Dialect.evalName,
      evalElements_of_isCommon floats h.1.2.1,
      evalTree_of_isCommon floats value h.2.1, evalMembers_of_isCommon floats members h.2.2.2]

end

/-! ## Texts -/

/-- A token of the grammar is taken unless a surrogate stands in it. -/
theorem isLoose_of_isJson {token : Token} (h : isJson token = true) :
    isLoose token = !hasSurrogate token := by
  cases token with
  | blank space => rfl
  | string elements =>
    rw [isJson, List.all_eq_true] at h
    rw [isLoose, hasSurrogate, List.not_any_eq_all_not, Bool.eq_iff_iff, List.all_eq_true,
      List.all_eq_true]
    exact forall₂_congr fun element helement => by rw [isTolerated_of_isJson (h element helement)]
  | number n => simp [isLoose, hasSurrogate, isDecimal_of_isJsonNumeral h]

section

variable (floats : Floats F) (document : Document)

/-- The reader takes a document if its tokens are loose. -/
theorem evalDocument_isSome :
    ((pyjson floats).evalDocument document).isSome = true ↔
      ∀ token ∈ document.tokens, isLoose token = true := by
  rw [Dialect.evalDocument, isSome_evalTree, ← List.all_eq_true]
  simp [Document.tokens, isLoose]

/-- A document means something if its tokens are whole. -/
theorem denoteDocument_isSome :
    (denoteTree floats document.tree).isSome = true ↔
      ∀ token ∈ document.tokens, isWhole token = true := by
  rw [isSome_denoteTree, ← List.all_eq_true]
  simp [Document.tokens, isWhole]

end

/-- On a document of the grammar without surrogates. -/
theorem evalDocument_of_plain (floats : Floats F) {document : Document}
    (hjson : ∀ token ∈ document.tokens, isJson token = true)
    (hplain : ∀ token ∈ document.tokens, hasSurrogate token = false) :
    (pyjson floats).evalDocument document = denoteTree floats document.tree := by
  refine evalTree_of_isCommon floats document.tree (List.all_eq_true.2 fun token htoken => ?_)
  have hmem : token ∈ document.tokens := by simp [Document.tokens, htoken]
  rw [isCommon, hjson token hmem, hplain token hmem]
  rfl

/-- A text is read as a value just where it denotes that value. -/
def ReadsExactly (floats : Floats F) (text : String) : Prop :=
  ∀ value, parse floats text = .ok value ↔ Denotes floats text value

/-- The text of a document is read exactly unless it is of one of the two kinds. -/
theorem reads_document_iff (floats : Floats F) (document : Document) :
    (∀ value, (pyjson floats).evalDocument document = some value ↔
      (∀ token ∈ document.tokens, isJson token = true) ∧
        denoteTree floats document.tree = some value) ↔
    ¬ ((∀ token ∈ document.tokens, isJson token = true ∧ isWhole token = true) ∧
        ∃ token ∈ document.tokens, hasSurrogate token = true) ∧
      ¬ ((∀ token ∈ document.tokens, isLoose token = true) ∧ ∃ token ∈ document.tokens,
        isJson token = false) := by
  constructor
  · intro hreads
    refine ⟨fun ⟨hjson, token, htoken, hsurrogate⟩ => ?_, fun ⟨hloose, token, htoken, hnot⟩ => ?_⟩
    · -- a pair: the text denotes a value, and the parser stops at the first half
      obtain ⟨value, hvalue⟩ := Option.isSome_iff_exists.1
        ((denoteDocument_isSome floats document).2 fun token htoken => (hjson token htoken).2)
      have heval := (hreads value).2 ⟨fun token htoken => (hjson token htoken).1, hvalue⟩
      have hloose := (evalDocument_isSome floats document).1 (by rw [heval]; rfl) token htoken
      rw [isLoose_of_isJson (hjson token htoken).1, hsurrogate] at hloose
      cases hloose
    · obtain ⟨value, hvalue⟩ :=
        Option.isSome_iff_exists.1 ((evalDocument_isSome floats document).2 hloose)
      have hjson := ((hreads value).1 hvalue).1 token htoken
      rw [hnot] at hjson
      cases hjson
  · rintro ⟨hnopair, hnotloose⟩ value
    by_cases hjson : ∀ token ∈ document.tokens, isJson token = true
    · by_cases hplain : ∀ token ∈ document.tokens, hasSurrogate token = false
      · rw [evalDocument_of_plain floats hjson hplain]
        exact ⟨fun h => ⟨hjson, h⟩, And.right⟩
      · -- a surrogate, and so one without its partner: neither gives a value
        obtain ⟨token, htoken, hsurrogate⟩ : ∃ token ∈ document.tokens, hasSurrogate token =
            true := by
          simpa using hplain
        refine ⟨fun heval => ?_, fun ⟨_, hdenote⟩ => ?_⟩
        · have hloose := (evalDocument_isSome floats document).1 (by rw [heval]; rfl) token htoken
          rw [isLoose_of_isJson (hjson token htoken), hsurrogate] at hloose
          cases hloose
        · have hwhole := (denoteDocument_isSome floats document).1 (by rw [hdenote]; rfl)
          exact absurd ⟨fun t ht => ⟨hjson t ht, hwhole t ht⟩, token, htoken, hsurrogate⟩ hnopair
    · obtain ⟨token, htoken, hnot⟩ : ∃ token ∈ document.tokens, isJson token = false := by
        simpa using hjson
      refine ⟨fun heval => ?_, fun h => absurd h.1 hjson⟩
      have hloose := (evalDocument_isSome floats document).1 (by rw [heval]; rfl)
      exact absurd ⟨hloose, token, htoken, hnot⟩ hnotloose

/-- A text is that of one document. -/
theorem exists_document_iff {document : Document} {text : List Char} (h : document.text = text)
    {p : Document → Prop} :
    (∃ d : Document, d.text = text ∧ p d) ↔ p document := by
  refine ⟨fun ⟨d, htext, hd⟩ => ?_, fun hp => ⟨document, h, hp⟩⟩
  rwa [Document.text_injective (h.trans htext.symm)]

/-- **JSON.** A text is read just where it is JSON, as what it denotes, unless it holds a surrogate
pair or is outside the grammar by no more than what the library functions take. -/
theorem pyjson_reads_exactly_iff (floats : Floats F) (text : String) :
    ReadsExactly floats text ↔ ¬ HasPair text ∧ ¬ IsLooseText text := by
  unfold ReadsExactly Denotes HasPair IsLooseText parse
  simp only [parse_iff]
  by_cases hdocument : ∃ document : Document, document.text = text.toList
  · obtain ⟨document, htext⟩ := hdocument
    simp only [exists_document_iff htext]
    exact reads_document_iff floats document
  · have hnone {p : Document → Prop} : ¬ ∃ document : Document, document.text = text.toList ∧
        p document :=
      fun ⟨document, htext, _⟩ => hdocument ⟨document, htext⟩
    simp [hnone]

/-- `01`. -/
def zeroOne : Document :=
  documentOf (.number ⟨false, ⟨['0', '1'], List.all_eq_true.1 rfl⟩, none, none, .inr (by decide)⟩)

/-- `"\ud83d\ude00"`. -/
def emoji : Document := documentOf (.str [.unicode 'd' '8' '3' 'd', .unicode 'd' 'e' '0' '0'])

/-- A number with a zero in front is no JSON, and is read; a surrogate pair is JSON, and is not. -/
theorem pyjson_not_json :
    ¬ ReadsExactly wholeFloats "01" ∧ ¬ ReadsExactly wholeFloats "\"\\ud83d\\ude00\"" := by
  constructor
  · intro hreads
    have hread : parse wholeFloats "01" = .ok (.int ⟨1, by decide⟩) :=
      (parse_iff _ _ _).2 ⟨zeroOne, by decide, rfl⟩
    obtain ⟨document, htext, hjson, -⟩ := (hreads _).1 hread
    obtain rfl : document = zeroOne := Document.text_injective (htext.trans (by decide))
    have hnumber := List.all_eq_true.2 hjson
    revert hnumber
    decide
  · intro hreads
    have hread : (parse wholeFloats "\"\\ud83d\\ude00\"").toOption.isNone = true := by
      decide +kernel
    have hdenotes : Denotes wholeFloats "\"\\ud83d\\ude00\"" (.str "😀") := by
      have hstring : denoteString [.unicode 'd' '8' '3' 'd', .unicode 'd' 'e' '0' '0'] =
          some "😀" := by decide
      refine ⟨emoji, by decide, List.all_eq_true.1 (by decide), ?_⟩
      exact congrArg (Option.map Value.str) hstring
    rw [(hreads _).2 hdenotes] at hread
    cases hread

end RtpMux.Pyjson
