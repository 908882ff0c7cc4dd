import Mathlib.Data.List.Basic

/-!
# Machines and their runs

A system is given by an initial state and a partial step function: `step s e` is
the state after event `e`, or `none` when `e` is not enabled in `s`. Everything a
system of several parties can do is then the set of its runs over event lists, in
any order the step function allows.

A property of what has happened so far, rather than of the state alone, is stated over
the machine with a history (`withHistory`): the same steps, with a record beside the
state that no step reads.

Runs carry a side condition `C : σ → ε → Prop` on the steps they take, so that
"in every run whose steps all meet `C`" is a statement about `Run C`, and "in
every run" is the case `C := fun _ _ => True`, written `M.Reaches`.
-/

namespace RtpMux

universe u v w

/-- A state machine with an executable step function. -/
structure Machine (σ : Type u) (ε : Type v) where
  /-- the initial state -/
  init : σ
  /-- one event; `none` when it is not enabled -/
  step : σ → ε → Option σ

namespace Machine

variable {σ : Type u} {ε : Type v} (M : Machine σ ε)

/-- `M.Run C s es s'`: the events `es` lead from `s` to `s'`, and every step meets
the condition `C`. -/
inductive Run (C : σ → ε → Prop) : σ → List ε → σ → Prop where
  /-- the empty run -/
  | nil (s : σ) : Run C s [] s
  /-- one step, then a run -/
  | cons {s s' s'' : σ} {e : ε} {es : List ε} :
      C s e → M.step s e = some s' → Run C s' es s'' → Run C s (e :: es) s''

/-- A state is reachable through steps that meet `C`. -/
def ReachesWhere (C : σ → ε → Prop) (s : σ) : Prop := ∃ es, M.Run C M.init es s

/-- A state is reachable. -/
def Reaches (s : σ) : Prop := M.ReachesWhere (fun _ _ => True) s

/-- Run a list of events, checking the condition at every step. -/
def exec (C : σ → ε → Prop) [∀ s e, Decidable (C s e)] : σ → List ε → Option σ
  | s, [] => some s
  | s, e :: es => if C s e then (M.step s e).bind fun s' => exec C s' es else none

variable {M}

/-- **Invariant rule.** A predicate that every admissible step preserves holds at
the end of every admissible run that starts in it. -/
theorem Run.preserves {C : σ → ε → Prop} {I : σ → Prop}
    (hstep : ∀ s e s', I s → C s e → M.step s e = some s' → I s')
    {s s' : σ} {es : List ε} (h : M.Run C s es s') (hs : I s) : I s' := by
  induction h with
  | nil s => exact hs
  | cons hC hst _ ih => exact ih (hstep _ _ _ hs hC hst)

/-- The invariant rule from the initial state. -/
theorem ReachesWhere.invariant {C : σ → ε → Prop} {I : σ → Prop} (hinit : I M.init)
    (hstep : ∀ s e s', I s → C s e → M.step s e = some s' → I s')
    {s : σ} (h : M.ReachesWhere C s) : I s := by
  obtain ⟨es, hrun⟩ := h
  exact hrun.preserves hstep hinit

/-- The invariant rule without a side condition. -/
theorem Reaches.invariant {I : σ → Prop} (hinit : I M.init)
    (hstep : ∀ s e s', I s → M.step s e = some s' → I s')
    {s : σ} (h : M.Reaches s) : I s :=
  ReachesWhere.invariant hinit (fun s e s' hs _ hst => hstep s e s' hs hst) h

/-- Runs compose. -/
theorem Run.append {C : σ → ε → Prop} {s s' s'' : σ} {es es' : List ε}
    (h : M.Run C s es s') (h' : M.Run C s' es' s'') : M.Run C s (es ++ es') s'' := by
  induction h with
  | nil s => exact h'
  | cons hC hst _ ih => exact .cons hC hst (ih h')

/-- One more step from a reachable state. -/
theorem ReachesWhere.tail {C : σ → ε → Prop} {s s' : σ} {e : ε} (h : M.ReachesWhere C s)
    (hC : C s e) (hst : M.step s e = some s') : M.ReachesWhere C s' := by
  obtain ⟨es, hrun⟩ := h
  exact ⟨es ++ [e], hrun.append (.cons hC hst (.nil s'))⟩

/-- Executing a list of events produces a run. -/
theorem run_of_exec {C : σ → ε → Prop} [∀ s e, Decidable (C s e)] :
    ∀ {es : List ε} {s s' : σ}, M.exec C s es = some s' → M.Run C s es s' := by
  intro es
  induction es with
  | nil =>
    intro s s' h
    obtain rfl : s = s' := Option.some.inj h
    exact .nil s
  | cons e es ih =>
    intro s s' h
    simp only [exec] at h
    split at h
    · rename_i hC
      obtain ⟨t, hst, ht⟩ := Option.bind_eq_some_iff.mp h
      exact .cons hC hst (ih ht)
    · cases h

/-- A map of states and events that commutes with a step commutes with a run. -/
theorem exec_map {τ : Type w} {δ : Type*} {N : Machine τ δ} {f : σ → τ} {g : ε → δ}
    (h : ∀ s e, (M.step s e).map f = N.step (f s) (g e)) (es : List ε) :
    ∀ s, (M.exec (fun _ _ => True) s es).map f = N.exec (fun _ _ => True) (f s) (es.map g) := by
  induction es with
  | nil => exact fun s => rfl
  | cons e es ih =>
    intro s
    simp only [exec, List.map_cons, if_true, ← h s e]
    cases M.step s e with
    | none => rfl
    | some s' => exact ih s'

/-! ## Histories -/

/-- The machine with a history: `record s e` is applied to the history whenever `e`
is taken in `s`. -/
def withHistory {η : Type w} (M : Machine σ ε) (start : η) (record : σ → ε → η → η) :
    Machine (σ × η) ε where
  init := (M.init, start)
  step x e := (M.step x.1 e).map fun s' => (s', record x.1 e x.2)

section History

variable {η : Type w} {start : η} {record : σ → ε → η → η}

/-- A step with its history is a step, recorded. -/
theorem withHistory_step {x x' : σ × η} {e : ε}
    (h : (M.withHistory start record).step x e = some x') :
    M.step x.1 e = some x'.1 ∧ x'.2 = record x.1 e x.2 := by
  obtain ⟨s', hst, rfl⟩ := Option.map_eq_some_iff.mp h
  exact ⟨hst, rfl⟩

/-- Forgetting the history of a run leaves a run. -/
theorem Run.forget {C : σ → ε → Prop} {x x' : σ × η} {es : List ε}
    (h : (M.withHistory start record).Run (fun x e => C x.1 e) x es x') :
    M.Run C x.1 es x'.1 := by
  induction h with
  | nil x => exact .nil x.1
  | cons hC hst _ ih => exact .cons hC (withHistory_step hst).1 ih

/-- What is reached with a history is reached. -/
theorem ReachesWhere.forget {C : σ → ε → Prop} {x : σ × η}
    (h : (M.withHistory start record).ReachesWhere (fun x e => C x.1 e) x) :
    M.ReachesWhere C x.1 := by
  obtain ⟨es, hrun⟩ := h
  exact ⟨es, hrun.forget⟩

/-- A run with a history is a run without it. -/
theorem Reaches.forget {x : σ × η} (h : (M.withHistory start record).Reaches x) :
    M.Reaches x.1 :=
  ReachesWhere.forget h

/-- The invariant rule for a state with its history, on top of what is known of the
state alone. -/
theorem ReachesWhere.invariant_withHistory {C : σ → ε → Prop} {I : σ → Prop}
    {J : σ → η → Prop} (hI : ∀ s, M.ReachesWhere C s → I s) (hinit : J M.init start)
    (hstep : ∀ s h e s', I s → J s h → C s e → M.step s e = some s' → J s' (record s e h))
    {x : σ × η} (h : (M.withHistory start record).ReachesWhere (fun x e => C x.1 e) x) :
    J x.1 x.2 := by
  -- the run itself has to be carried along, for `I` at every state on the way
  have hboth : M.ReachesWhere C x.1 ∧ J x.1 x.2 := by
    refine h.invariant (I := fun x => M.ReachesWhere C x.1 ∧ J x.1 x.2) ⟨⟨[], .nil _⟩, hinit⟩ ?_
    rintro ⟨s, past⟩ e ⟨s', past'⟩ ⟨hs, hJ⟩ hC hst
    obtain ⟨hst, rfl⟩ := withHistory_step hst
    exact ⟨hs.tail hC hst, hstep s past e s' (hI s hs) hJ hC hst⟩
  exact hboth.2

/-- The same rule without a side condition. -/
theorem Reaches.invariant_withHistory {I : σ → Prop} {J : σ → η → Prop}
    (hI : ∀ s, M.Reaches s → I s) (hinit : J M.init start)
    (hstep : ∀ s h e s', I s → J s h → M.step s e = some s' → J s' (record s e h))
    {x : σ × η} (h : (M.withHistory start record).Reaches x) : J x.1 x.2 :=
  ReachesWhere.invariant_withHistory (C := fun _ _ => True) hI hinit
    (fun s past e s' hs hJ _ hst => hstep s past e s' hs hJ hst) h

end History

end Machine

end RtpMux
