import Mathlib.Order.Basic

/-!
# Loops that end

A loop is given by what one round does to the state, with no result where
the condition of the loop fails. `LoopsTo step s s'` says that the loop,
entered in `s`, is left in `s'` after some number of rounds. What holds at
the end follows from an invariant of the rounds (`LoopsTo.inv`), and that
the loop ends at all from a measure that every round decreases
(`exists_loopsTo`).
-/

namespace HtcLeo

variable {σ : Type*} {step : σ → Option σ} {I : σ → Prop} {s s' : σ}

/-- The loop ends, in `s'`. -/
inductive LoopsTo (step : σ → Option σ) : σ → σ → Prop
  | stop {s : σ} (h : step s = none) : LoopsTo step s s
  | round {s s₁ s' : σ} (h : step s = some s₁) (rest : LoopsTo step s₁ s') : LoopsTo step s s'

theorem LoopsTo.inv (hstep : ∀ s s₁, I s → step s = some s₁ → I s₁) (h : LoopsTo step s s')
    (hs : I s) : I s' := by
  induction h with
  | stop h => exact hs
  | round h rest ih => exact ih (hstep _ _ hs h)

theorem LoopsTo.ends (h : LoopsTo step s s') : step s' = none := by
  induction h with
  | stop h => exact h
  | round h rest ih => exact ih

theorem LoopsTo.unique {s₁ s₂ : σ} (h₁ : LoopsTo step s s₁) (h₂ : LoopsTo step s s₂) :
    s₁ = s₂ := by
  induction h₁ with
  | stop h =>
      cases h₂ with
      | stop _ => rfl
      | round h' _ =>
          rw [h] at h'
          cases h'
  | round h rest ih =>
      cases h₂ with
      | stop h' =>
          rw [h] at h'
          cases h'
      | round h' rest' =>
          rw [h] at h'
          obtain rfl := Option.some.inj h'
          exact ih rest'

/-- A loop whose rounds keep an invariant and decrease a measure ends. -/
theorem exists_loopsTo (μ : σ → Nat)
    (hstep : ∀ s s₁, I s → step s = some s₁ → I s₁ ∧ μ s₁ < μ s) (hs : I s) :
    ∃ s', LoopsTo step s s' := by
  obtain ⟨n, hn⟩ : ∃ n, μ s < n := ⟨μ s + 1, Nat.lt_succ_self _⟩
  induction n generalizing s with
  | zero => exact absurd hn (Nat.not_lt_zero _)
  | succ n ih =>
      cases hround : step s with
      | none => exact ⟨s, .stop hround⟩
      | some s₁ =>
          obtain ⟨hs₁, hlt⟩ := hstep s s₁ hs hround
          obtain ⟨s', hs'⟩ := ih hs₁ (Nat.lt_of_lt_of_le hlt (Nat.lt_succ_iff.mp hn))
          exact ⟨s', .round hround hs'⟩

end HtcLeo
