import Mathlib.Order.WellFounded
import RtpMux.Machine

/-!
# Machines that halt

From a state a machine halts when no schedule of its events goes on for ever. It is shown by a rank
that every step lowers, in a well-founded order.
-/

namespace RtpMux

universe u v w

namespace Machine

variable {σ : Type u} {ε : Type v} (M : Machine σ ε)

/-- Every schedule from `s` is finite. -/
def Halts (s : σ) : Prop := Acc (fun s' s => ∃ e, M.step s e = some s') s

variable {M}

/-- A rank that every step lowers, in the states that satisfy `P`. -/
theorem halts_of_rank {β : Type w} {r : β → β → Prop} (hr : WellFounded r) (rank : σ → β)
    {P : σ → Prop} (hP : ∀ s e s', P s → M.step s e = some s' → P s')
    (hrank : ∀ s e s', P s → M.step s e = some s' → r (rank s') (rank s)) {s : σ} (hs : P s) :
    M.Halts s := by
  induction h : rank s using hr.induction generalizing s with
  | _ b ih =>
    refine Acc.intro s ?_
    rintro s' ⟨e, hst⟩
    exact ih (rank s') (h ▸ hrank s e s' hs hst) (hP s e s' hs hst) rfl

/-- No infinite schedule. -/
theorem Halts.not_infinite {s : σ} (h : M.Halts s) (f : ℕ → σ) (h0 : f 0 = s) :
    ∃ n, ∀ e, M.step (f n) e ≠ some (f (n + 1)) := by
  induction h generalizing f with
  | intro s _ ih =>
    by_contra hforever
    push Not at hforever
    obtain ⟨e, he⟩ := hforever 0
    rw [h0] at he
    obtain ⟨n, hn⟩ := ih (f 1) ⟨e, he⟩ (fun n => f (n + 1)) rfl
    obtain ⟨e', he'⟩ := hforever (n + 1)
    exact hn e' he'

end Machine

end RtpMux
