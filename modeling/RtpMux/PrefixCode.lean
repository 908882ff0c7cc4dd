import Mathlib.Data.List.Basic

/-!
# Prefix codes

What is written word by word can be read in one way only if no word begins another with something
behind it. This carries over to words up to a mark, and to texts with separators between them.
Nothing here is about a particular program.
-/

namespace RtpMux.PrefixCode

variable {α β : Type*}

/-- A text begins with one word at most. -/
def IsPrefixCode (code : α → List β) : Prop := ∀ ⦃a b x y⦄, code a ++ x = code b ++ y →
    a = b ∧ x = y

/-- A code that can be read back, whatever is behind, is one. -/
theorem isPrefixCode_of_read {code : α → List β} {read : List β → Option (α × List β)}
    (h : ∀ a x, read (code a ++ x) = some (a, x)) : IsPrefixCode code := by
  intro a b x y heq
  have hread := h a x
  rw [heq, h b y] at hread
  cases hread
  exact ⟨rfl, rfl⟩

/-- Words up to a mark that begins none of them. -/
theorem IsPrefixCode.flatMap_append {code : α → List β} (h : IsPrefixCode code) {mark : β}
    (hmark : ∀ a, ∃ c rest, code a = c :: rest ∧ c ≠ mark) {as bs : List α} {x y : List β}
    (heq : as.flatMap code ++ mark :: x = bs.flatMap code ++ mark :: y) : as = bs ∧ x = y := by
  induction as generalizing bs with
  | nil =>
    cases bs with
    | nil => exact ⟨rfl, (List.cons.inj heq).2⟩
    | cons b bs =>
      obtain ⟨c, rest, hcode, hne⟩ := hmark b
      rw [List.flatMap_cons, hcode] at heq
      exact absurd (List.cons.inj heq).1.symm hne
  | cons a as ih =>
    cases bs with
    | nil =>
      obtain ⟨c, rest, hcode, hne⟩ := hmark a
      rw [List.flatMap_cons, hcode] at heq
      exact absurd (List.cons.inj heq).1 hne
    | cons b bs =>
      rw [List.flatMap_cons, List.flatMap_cons, List.append_assoc, List.append_assoc] at heq
      obtain ⟨rfl, hrest⟩ := h heq
      obtain ⟨rfl, hxy⟩ := ih hrest
      exact ⟨rfl, hxy⟩

/-- What is written for `a` with an end behind is written for nothing else. -/
def Told (write : α → List β) (valid : α → Prop) (ends : List β → Prop) (a : α) : Prop :=
  ∀ ⦃b x y⦄, valid b → ends x → ends y → write a ++ x = write b ++ y → a = b ∧ x = y

/-- What is behind a text begins with a separator or is the stop. -/
theorem ends_separated {write : α → List β} {ends : List β → Prop} {sep stop : List β}
    (hsep : ∀ x, ends (sep ++ x))
    (hstop : ∀ x, ends (stop ++ x)) (as : List α) (x : List β) :
    ends (as.flatMap (fun a => sep ++ write a) ++ (stop ++ x)) := by
  cases as with
  | nil => exact hstop x
  | cons a as =>
    rw [List.flatMap_cons, List.append_assoc, List.append_assoc]
    exact hsep _

/-- Texts with a separator in front of each, up to what no separator begins like. -/
theorem told_separated {write : α → List β} {valid : α → Prop} {ends : List β → Prop}
    {sep stop : List β}
    (hsep : ∀ x, ends (sep ++ x)) (hstop : ∀ x, ends (stop ++ x))
    (hne : ∀ x y, sep ++ x ≠ stop ++ y)
    {as bs : List α} (has : ∀ a ∈ as, Told write valid ends a) (hbs : ∀ b ∈ bs, valid b)
    {x y : List β}
    (heq : as.flatMap (fun a => sep ++ write a) ++ (stop ++ x) =
      bs.flatMap (fun b => sep ++ write b) ++ (stop ++ y)) :
    as = bs ∧ x = y := by
  induction as generalizing bs with
  | nil =>
    cases bs with
    | nil => exact ⟨rfl, List.append_cancel_left heq⟩
    | cons b bs =>
      rw [List.flatMap_cons, List.append_assoc, List.append_assoc] at heq
      exact absurd heq.symm (hne _ _)
  | cons a as ih =>
    cases bs with
    | nil =>
      rw [List.flatMap_cons, List.append_assoc, List.append_assoc] at heq
      exact absurd heq (hne _ _)
    | cons b bs =>
      rw [List.flatMap_cons, List.flatMap_cons, List.append_assoc, List.append_assoc,
        List.append_assoc,
        List.append_assoc] at heq
      obtain ⟨rfl, hrest⟩ :=
        has a List.mem_cons_self (hbs b List.mem_cons_self) (ends_separated hsep hstop as x)
          (ends_separated hsep hstop bs y) (List.append_cancel_left heq)
      obtain ⟨rfl, hxy⟩ := ih (fun a ha => has a (List.mem_cons_of_mem _ ha))
        (fun b hb => hbs b (List.mem_cons_of_mem _ hb)) hrest
      exact ⟨rfl, hxy⟩

end RtpMux.PrefixCode
