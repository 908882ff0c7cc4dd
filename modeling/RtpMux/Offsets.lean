import Mathlib.Data.List.Basic

/-!
# Offsets into lists and texts

A list is cut at offsets that must be in order and within it. A text in UTF-8 is cut and searched by
bytes, where the list of its characters is cut and searched by characters. The two offsets are the
same as long as the characters in front are ASCII, since no others take one byte. Nothing here is
about a particular program.
-/

namespace RtpMux

/-- `&list[start..stop]`. -/
def slice? {α : Type*} (l : List α) (start stop : Nat) : Option (List α) :=
  if start ≤ stop ∧ stop ≤ l.length then some ((l.drop start).take (stop - start)) else none

/-- A slice inside a list. -/
theorem slice?_of_le {α : Type*} {l : List α} {start stop : Nat} (hle : start ≤ stop)
    (hstop : stop ≤ l.length) :
    slice? l start stop = some ((l.drop start).take (stop - start)) := if_pos ⟨hle, hstop⟩

namespace Utf8

/-- `char::is_ascii`. -/
def IsAscii (c : Char) : Prop := c.utf8Size = 1

instance (c : Char) : Decidable (IsAscii c) := inferInstanceAs (Decidable (c.utf8Size = 1))

/-- `&text[offset..]`; none where the offset is within a character or outside the text. -/
def sliceFrom : List Char → Nat → Option (List Char)
  | text, 0 => some text
  | [], _ + 1 => none
  | c :: rest, offset + 1 =>
    if c.utf8Size ≤ offset + 1 then sliceFrom rest (offset + 1 - c.utf8Size) else none

/-- `text.find(c)`: the byte offset of the first one. -/
def find (c : Char) : List Char → Option Nat
  | [] => none
  | d :: rest => if d = c then some 0 else (find c rest).map (d.utf8Size + ·)

/-- Behind ASCII a byte offset is a character offset. -/
theorem sliceFrom_of_ascii {text : List Char} {offset : Nat} (hle : offset ≤ text.length)
    (hascii : ∀ c ∈ text.take offset, IsAscii c) :
    sliceFrom text offset = some (text.drop offset) := by
  induction text generalizing offset with
  | nil =>
    obtain rfl : offset = 0 := Nat.le_zero.mp hle
    rfl
  | cons c rest ih =>
    cases offset with
    | zero => rfl
    | succ offset =>
      have hc : c.utf8Size = 1 := hascii c List.mem_cons_self
      have hrest := ih (Nat.le_of_succ_le_succ hle) fun d hd => hascii d (List.mem_cons_of_mem _ hd)
      rw [sliceFrom, hc, if_pos (Nat.le_add_left 1 offset), Nat.add_sub_cancel, hrest,
        List.drop_succ_cons]

/-- The first one has the same offset in bytes and in characters, if there is one and ASCII is in
front of it. -/
theorem find_of_ascii {c : Char} {text : List Char}
    (hascii : c ∈ text → ∀ d ∈ text.takeWhile (· ≠ c), IsAscii d) :
    find c text = text.findIdx? (· = c) := by
  induction text with
  | nil => rfl
  | cons d rest ih =>
    rw [find, List.findIdx?_cons]
    by_cases heq : d = c
    · simp [heq]
    · simp only [heq, decide_false, Bool.false_eq_true, if_false]
      by_cases hmem : c ∈ rest
      · have hfront := hascii (List.mem_cons_of_mem _ hmem)
        rw [List.takeWhile_cons_of_pos (by simpa using heq)] at hfront
        have hd : d.utf8Size = 1 := hfront d List.mem_cons_self
        rw [ih fun _ e he => hfront e (List.mem_cons_of_mem _ he), hd]
        exact congrArg (Option.map · _) (funext fun n => Nat.add_comm 1 n)
      · have hnone : rest.findIdx? (fun e => decide (e = c)) = none := by
          rw [List.findIdx?_eq_none_iff]
          intro e he
          exact decide_eq_false fun h => hmem (h ▸ he)
        rw [ih fun h => absurd h hmem, hnone]
        rfl

end Utf8

end RtpMux
