import Mathlib.Order.Basic
import Mathlib.Data.Nat.Init
import Mathlib.Tactic.Common

/-!
# Loops that read an endless sequence of inputs

`rounds step s inputs n` is the state after `n` rounds of a loop that reads an input in each.

Main results: **`rounds_related`**, **`halts_of_measure`**.
-/

namespace Lib

variable {σ ω : Type} {step : σ → ω → σ} {s : σ} {inputs : ℕ → ω}

def rounds (step : σ → ω → σ) : σ → (ℕ → ω) → ℕ → σ
  | s, _, 0 => s
  | s, inputs, n + 1 => rounds step (step s (inputs 0)) (fun k => inputs (k + 1)) n

/-- A round more at the end. -/
theorem rounds_succ (s : σ) (inputs : ℕ → ω) (n : ℕ) :
    rounds step s inputs (n + 1) = step (rounds step s inputs n) (inputs n) := by
  induction n generalizing s inputs with
  | zero => rfl
  | succ n ih => exact ih (step s (inputs 0)) fun k => inputs (k + 1)

/-- A state that every round leaves alone stays. -/
theorem rounds_fixed (h : ∀ input, step s input = s) (n : ℕ) : rounds step s inputs n = s := by
  induction n with
  | zero => rfl
  | succ n ih => rw [rounds_succ, ih, h]

/-- A preorder that every round respects relates earlier states to later ones. -/
theorem rounds_related {R : σ → σ → Prop} (hrefl : ∀ s, R s s) (htrans : ∀ a b c, R a b → R b c → R a c)
    (hstep : ∀ s input, R s (step s input)) {m n : ℕ} (hle : m ≤ n) :
    R (rounds step s inputs m) (rounds step s inputs n) := by
  induction n, hle using Nat.le_induction with
  | base => exact hrefl _
  | succ n _ ih =>
    rw [rounds_succ]
    exact htrans _ _ _ ih (hstep _ _)

/-- **A measure that every round lowers ends the rounds**. -/
theorem halts_of_measure (I halted : σ → Prop) (μ : σ → ℕ)
    (hstep : ∀ s input, I s → halted (step s input) ∨ I (step s input) ∧ μ (step s input) < μ s)
    (hs : I s) : ∃ n, halted (rounds step s inputs n) := by
  induction hμ : μ s using Nat.strong_induction_on generalizing s inputs with
  | _ k ih =>
    subst hμ
    rcases hstep s (inputs 0) hs with hhalted | ⟨hI, hlt⟩
    · exact ⟨1, hhalted⟩
    · obtain ⟨n, hn⟩ := @ih _ hlt (step s (inputs 0)) (fun k => inputs (k + 1)) hI rfl
      exact ⟨n + 1, hn⟩

end Lib
