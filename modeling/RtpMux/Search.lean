import Mathlib.Algebra.BigOperators.Group.Finset.Basic
import Mathlib.Algebra.Order.BigOperators.Group.Finset
import Mathlib.Data.Finset.Card
import Mathlib.Logic.Relation
import Mathlib.Order.Bounds.Defs

/-!
# Searching a graph

Two ways to walk a graph with cycles. A depth-first search looks for the first node that answers,
threads one set of visited nodes through its branches and returns as soon as it has an answer: it
answers exactly if a node that does is reached by at least one step (`search_spec`). A work list
collects all that is reached from some seeds (`closure_spec`). Both are run with fuel, and both need
only as much as there are nodes and steps.

Nothing here is about a particular program.
-/

namespace RtpMux.Search

variable {α β : Type*} [DecidableEq α]

/-! ## Depth first -/

section Depth

variable (steps : α → List α) (hit : α → Option β)

/-- The search of the nodes one step away, in order. -/
def visitAll (visit : α → Finset α → Option (Option β × Finset α)) :
    List α → Finset α → Option (Option β × Finset α)
  | [], seen => some (none, seen)
  | a :: rest, seen =>
    match hit a with
    | some b => some (some b, seen)
    | none =>
      match visit a seen with
      | none => none
      | some (some b, seen') => some (some b, seen')
      | some (none, seen') => visitAll visit rest seen'

/-- The search from a node, for an answer behind at least one step. -/
def search : Nat → α → Finset α → Option (Option β × Finset α)
  | 0, _, _ => none
  | fuel + 1, a, seen =>
    if a ∈ seen then some (none, seen) else visitAll hit (search fuel) (steps a) (insert a seen)

/-- One step. -/
def Step (a b : α) : Prop := b ∈ steps a

/-- What a search without an answer has seen: it is closed, and no answer was one step away. -/
structure Closed (seen seen' : Finset α) : Prop where
  grows : seen ⊆ seen'
  closed : ∀ a ∈ seen', a ∉ seen → ∀ b ∈ steps a, hit b = none ∧ b ∈ seen'

variable {steps hit}

omit [DecidableEq α] in
theorem Closed.refl (seen : Finset α) : Closed steps hit seen seen :=
  ⟨Finset.Subset.refl _, fun _ ha hna => absurd ha hna⟩

/-- Two searches in a row. -/
theorem Closed.trans {seen seen' seen'' : Finset α} (h : Closed steps hit seen seen')
    (h' : Closed steps hit seen' seen'') : Closed steps hit seen seen'' := by
  refine ⟨h.grows.trans h'.grows, fun a ha hna b hb => ?_⟩
  by_cases ha' : a ∈ seen'
  · obtain ⟨hnone, hmem⟩ := h.closed a ha' hna b hb
    exact ⟨hnone, h'.grows hmem⟩
  · exact h'.closed a ha ha' b hb

/-- An answer is one that is reached by at least one step. -/
theorem search_sound {fuel : Nat} {a : α} {seen seen' : Finset α} {b : β}
    (h : search steps hit fuel a seen = some (some b, seen')) :
    ∃ c, Relation.TransGen (Step steps) a c ∧ hit c = some b := by
  induction fuel generalizing a seen seen' with
  | zero => cases h
  | succ fuel ih =>
    rw [search] at h
    split at h
    · cases h
    · have hall : ∀ (nodes : List α) (seen : Finset α), (∀ x ∈ nodes, Step steps a x) →
          visitAll hit (search steps hit fuel) nodes seen = some (some b, seen') →
          ∃ c, Relation.TransGen (Step steps) a c ∧ hit c = some b := by
        intro nodes
        induction nodes with
        | nil => exact fun _ _ h => nomatch h
        | cons x rest ihrest =>
          intro seen hsteps h
          rw [visitAll] at h
          split at h
          · next b' hx =>
            cases h
            exact ⟨x, .single (hsteps x List.mem_cons_self), hx⟩
          · split at h
            · cases h
            · next heq =>
              cases h
              obtain ⟨c, hc, hhit⟩ := ih heq
              exact ⟨c, hc.head (hsteps x List.mem_cons_self), hhit⟩
            · exact ihrest _ (fun y hy => hsteps y (List.mem_cons_of_mem _ hy)) h
      exact hall (steps a) _ (fun x hx => hx) h

/-- A search without an answer leaves a closed set. -/
theorem search_closed {fuel : Nat} {a : α} {seen seen' : Finset α}
    (h : search steps hit fuel a seen = some (none, seen')) : Closed steps hit seen seen' ∧
      a ∈ seen' := by
  induction fuel generalizing a seen seen' with
  | zero => cases h
  | succ fuel ih =>
    rw [search] at h
    split at h
    · next hmem =>
      cases h
      exact ⟨.refl seen, hmem⟩
    · next hmem =>
      have hall : ∀ (nodes : List α) (seen : Finset α),
          visitAll hit (search steps hit fuel) nodes seen = some (none, seen') →
          Closed steps hit seen seen' ∧ ∀ x ∈ nodes, hit x = none ∧ x ∈ seen' := by
        intro nodes
        induction nodes with
        | nil =>
          intro seen h
          cases h
          exact ⟨.refl _, by simp⟩
        | cons x rest ihrest =>
          intro seen h
          rw [visitAll] at h
          split at h
          · cases h
          · next hx =>
            split at h
            · cases h
            · cases h
            · next mid heq =>
              obtain ⟨hclosed, hxmid⟩ := ih heq
              obtain ⟨hclosed', hrest⟩ := ihrest mid h
              refine ⟨hclosed.trans hclosed', fun y hy => ?_⟩
              rcases List.mem_cons.mp hy with rfl | hy
              · exact ⟨hx, hclosed'.grows hxmid⟩
              · exact hrest y hy
      obtain ⟨hclosed, hnodes⟩ := hall (steps a) _ h
      refine ⟨⟨(Finset.subset_insert a seen).trans hclosed.grows, fun c hc hnc => ?_⟩,
        hclosed.grows (Finset.mem_insert_self a seen)⟩
      -- the node itself is the one that the set had before its steps were walked
      by_cases hca : c = a
      · rw [hca]
        exact hnodes
      · exact hclosed.closed c hc (by simp [hca, hnc])

/-- Fuel for every node that has a step is enough. -/
theorem search_isSome {nodes : Finset α} (hnodes : ∀ a, steps a ≠ [] → a ∈ nodes)
    {fuel : Nat} {a : α}
    {seen : Finset α} (hfuel : (nodes \ seen).card < fuel) :
    (search steps hit fuel a seen).isSome = true := by
  induction fuel generalizing a seen with
  | zero => omega
  | succ fuel ih =>
    rw [search]
    split
    · rfl
    · next hmem =>
      have hall : ∀ (l : List α) (seen : Finset α), (l ≠ [] → (nodes \ seen).card < fuel) →
          (visitAll hit (search steps hit fuel) l seen).isSome = true := by
        intro l
        induction l with
        | nil => exact fun _ _ => rfl
        | cons x rest ihrest =>
          intro seen hcard
          rw [visitAll]
          split
          · rfl
          · have hvisit := @ih x seen (hcard (by simp))
            split
            · next heq => rw [heq] at hvisit; cases hvisit
            · rfl
            · next mid heq =>
              refine ihrest mid fun _ => lt_of_le_of_lt (Finset.card_le_card ?_) (hcard (by simp))
              exact Finset.sdiff_subset_sdiff (Finset.Subset.refl _) (search_closed heq).1.grows
      refine hall (steps a) (insert a seen) fun hne => ?_
      have hlt : (nodes \ insert a seen).card < (nodes \ seen).card := by
        refine Finset.card_lt_card
          ⟨Finset.sdiff_subset_sdiff (Finset.Subset.refl _) (Finset.subset_insert a seen), ?_⟩
        intro hsub
        have ha := hsub (Finset.mem_sdiff.mpr ⟨hnodes a hne, hmem⟩)
        simp at ha
      omega

/-- **Depth-first search.** With fuel for every node the search ends, and it answers exactly if a
node that does is reached by at least one step. -/
theorem search_spec {nodes : Finset α} (hnodes : ∀ a, steps a ≠ [] → a ∈ nodes) {fuel : Nat} (a : α)
    (hfuel : nodes.card < fuel) :
    ∃ answer seen, search steps hit fuel a ∅ = some (answer, seen) ∧
      (answer.isSome = true ↔ ∃ c, Relation.TransGen (Step steps) a c ∧ (hit c).isSome = true) := by
  obtain ⟨⟨answer, seen⟩, hsearch⟩ :=
    Option.isSome_iff_exists.mp
      (@search_isSome _ _ _ steps hit nodes hnodes fuel a ∅ (by simpa using hfuel))
  refine ⟨answer, seen, hsearch, ?_⟩
  cases answer with
  | some b =>
    obtain ⟨c, hc, hhit⟩ := search_sound hsearch
    exact ⟨fun _ => ⟨c, hc, by rw [hhit]; rfl⟩, fun _ => rfl⟩
  | none =>
    obtain ⟨hclosed, ha⟩ := search_closed hsearch
    refine ⟨fun h => (nomatch h), ?_⟩
    have hnone : ∀ c, Relation.TransGen (Step steps) a c → hit c = none ∧ c ∈ seen := by
      intro c hc
      induction hc with
      | single hstep => exact hclosed.closed a ha (by simp) _ hstep
      | tail _ hstep ih => exact hclosed.closed _ ih.2 (by simp) _ hstep
    rintro ⟨c, hc, hhit⟩
    rw [(hnone c hc).1] at hhit
    cases hhit

end Depth

/-! ## A work list -/

section Closure

variable (next : α → Option (List α))

/-- Everything that is reached from a stack, where `next` knows a node. -/
def closure : Nat → List α → Finset α → Option (Finset α)
  | 0, _, _ => none
  | _ + 1, [], seen => some seen
  | fuel + 1, a :: stack, seen =>
    match next a with
    | none => closure fuel stack seen
    | some succs =>
      if a ∈ seen then closure fuel stack seen
      else closure fuel ((succs.filter (· ∉ insert a seen)).reverse ++ stack) (insert a seen)

/-- A set of known nodes that holds the known seeds and what its members lead to. -/
structure IsClosed (seeds : List α) (s : Set α) : Prop where
  known : ∀ a ∈ s, (next a).isSome = true
  seeds : ∀ a ∈ seeds, (next a).isSome = true → a ∈ s
  succs : ∀ a ∈ s, ∀ succs, next a = some succs → ∀ b ∈ succs, (next b).isSome = true → b ∈ s

/-- What the stack and the unseen nodes can still cost. -/
def cost (nodes : Finset α) (stack : List α) (seen : Finset α) : Nat :=
  stack.length + ∑ a ∈ nodes \ seen, ((next a).getD []).length

variable {next}

/-- Pushing the successors of a new node lowers the cost. -/
theorem cost_push {nodes seen : Finset α} {a : α} {stack succs : List α} (ha : a ∈ nodes)
    (hseen : a ∉ seen)
    (hnext : next a = some succs) :
    cost next nodes ((succs.filter (· ∉ insert a seen)).reverse ++ stack) (insert a seen) <
      cost next nodes (a :: stack) seen := by
  have hsplit : nodes \ seen = insert a (nodes \ insert a seen) := by
    ext x
    by_cases hx : x = a <;> simp [hx, ha, hseen]
  have hlength : (succs.filter (· ∉ insert a seen)).length ≤ succs.length :=
    List.length_filter_le _ _
  have hsum : ∑ x ∈ nodes \ seen, ((next x).getD []).length =
      succs.length + ∑ x ∈ nodes \ insert a seen, ((next x).getD []).length := by
    rw [hsplit, Finset.sum_insert (by simp), hnext]
    rfl
  unfold cost
  rw [hsum, List.length_append, List.length_reverse, List.length_cons]
  omega

variable (next) in
/-- What a run of the work list has added. -/
structure Collects (stack : List α) (seen final : Finset α) : Prop where
  grows : seen ⊆ final
  pending : ∀ a ∈ stack, (next a).isSome = true → a ∈ final
  known : ∀ a ∈ final, a ∉ seen → (next a).isSome = true
  succs : ∀ a ∈ final, a ∉ seen → ∀ succs, next a = some succs →
    ∀ b ∈ succs, (next b).isSome = true → b ∈ final
  least : ∀ s : Set α, (∀ a ∈ seen, a ∈ s) → IsClosed next stack s → ∀ a ∈ final, a ∈ s

omit [DecidableEq α] in
/-- A node that is unknown or was seen is dropped. -/
theorem Collects.skip {a : α} {stack : List α} {seen final : Finset α}
    (h : Collects next stack seen final)
    (ha : (next a).isSome = true → a ∈ seen) : Collects next (a :: stack) seen final := by
  refine ⟨h.grows, fun b hb hknown => ?_, h.known, h.succs, fun s hseen hclosed => ?_⟩
  · rcases List.mem_cons.mp hb with rfl | hb
    · exact h.grows (ha hknown)
    · exact h.pending b hb hknown
  · exact h.least s hseen ⟨hclosed.known, fun b hb => hclosed.seeds b (List.mem_cons_of_mem _ hb),
      hclosed.succs⟩

/-- A node that is new puts what it leads to on the stack. -/
theorem Collects.push {a : α} {stack succs : List α} {seen final : Finset α}
    (hnext : next a = some succs)
    (h : Collects next ((succs.filter (· ∉ insert a seen)).reverse ++ stack)
      (insert a seen) final) :
    Collects next (a :: stack) seen final := by
  have hafinal : a ∈ final := h.grows (Finset.mem_insert_self a seen)
  have haknown : (next a).isSome = true := by rw [hnext]; rfl
  refine ⟨(Finset.subset_insert a seen).trans h.grows, fun b hb hknown => ?_, fun b hb hnb => ?_,
    fun b hb hnb succs' hnext' c hc hknown => ?_, fun s hseen hclosed => ?_⟩
  · rcases List.mem_cons.mp hb with rfl | hb
    · exact hafinal
    · exact h.pending b (List.mem_append_right _ hb) hknown
  · by_cases hba : b = a
    · rw [hba]
      exact haknown
    · exact h.known b hb (by simp [hba, hnb])
  · by_cases hba : b = a
    · -- what the new node leads to was seen, or is on the stack now
      rw [hba, hnext, Option.some.injEq] at hnext'
      by_cases hcseen : c ∈ insert a seen
      · exact h.grows hcseen
      · refine h.pending c (List.mem_append_left _ ?_) hknown
        rw [List.mem_reverse, List.mem_filter]
        exact ⟨hnext' ▸ hc, by simpa using hcseen⟩
    · exact h.succs b hb (by simp [hba, hnb]) succs' hnext' c hc hknown
  · have has : a ∈ s := hclosed.seeds a List.mem_cons_self haknown
    refine h.least s (fun b hb => ?_) ⟨hclosed.known, fun b hb hknown => ?_, hclosed.succs⟩
    · rcases Finset.mem_insert.mp hb with rfl | hb
      · exact has
      · exact hseen b hb
    · rcases List.mem_append.mp hb with hb | hb
      · rw [List.mem_reverse, List.mem_filter] at hb
        exact hclosed.succs a has succs hnext b hb.1 hknown
      · exact hclosed.seeds b (List.mem_cons_of_mem _ hb) hknown

/-- With fuel for the stack and every edge of an unseen node the loop ends. -/
theorem closure_run {nodes : Finset α} (hnodes : ∀ a, (next a).isSome = true → a ∈ nodes)
    {fuel : Nat}
    {stack : List α} {seen : Finset α} (hfuel : cost next nodes stack seen < fuel) :
    ∃ final, closure next fuel stack seen = some final ∧ Collects next stack seen final := by
  induction fuel generalizing stack seen with
  | zero => omega
  | succ fuel ih =>
    cases stack with
    | nil =>
      exact ⟨seen, rfl, ⟨Finset.Subset.refl _, by simp, fun a ha hna => absurd ha hna,
        fun a ha hna => absurd ha hna, fun s hseen _ => hseen⟩⟩
    | cons a stack =>
      have hpop : cost next nodes stack seen < fuel := by
        unfold cost at hfuel ⊢
        rw [List.length_cons] at hfuel
        omega
      rw [closure]
      split
      · next hnone =>
        obtain ⟨final, hfinal, hcollects⟩ := ih hpop
        exact ⟨final, hfinal, hcollects.skip fun h => by rw [hnone] at h; cases h⟩
      · next succs hsome =>
        split
        · next hmem =>
          obtain ⟨final, hfinal, hcollects⟩ := ih hpop
          exact ⟨final, hfinal, hcollects.skip fun _ => hmem⟩
        · next hmem =>
          have ha : a ∈ nodes := hnodes a (by rw [hsome]; rfl)
          have hpush : cost next nodes _ (insert a seen) < cost next nodes (a :: stack) seen :=
            cost_push ha hmem hsome
          obtain ⟨final, hfinal, hcollects⟩ := ih (lt_of_lt_of_le hpush (Nat.le_of_lt_succ hfuel))
          exact ⟨final, hfinal, hcollects.push hsome⟩

/-- **Work list.** The loop ends, and it returns the least closed set. -/
theorem closure_spec {nodes : Finset α} (hnodes : ∀ a, (next a).isSome = true → a ∈ nodes)
    {fuel : Nat}
    {seeds stack : List α} (hstack : ∀ a, a ∈ stack ↔ a ∈ seeds)
    (hfuel : cost next nodes stack ∅ < fuel) :
    ∃ final, closure next fuel stack ∅ = some final ∧
      IsLeast {s | IsClosed next seeds s} (final : Set α) := by
  obtain ⟨final, hfinal, h⟩ := closure_run hnodes hfuel
  refine ⟨final, hfinal,
    ⟨fun a ha => h.known a ha (by simp), fun a ha => h.pending a ((hstack a).mpr ha),
    fun a ha => h.succs a ha (by simp)⟩, fun s hs => ?_⟩
  exact h.least s (by simp) ⟨hs.known, fun a ha => hs.seeds a ((hstack a).mp ha), hs.succs⟩

end Closure

end RtpMux.Search
