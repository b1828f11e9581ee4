import Mathlib.Tactic.Common

/-!
# Machines that read a buffer step by step

A step of an `Incremental` machine takes something off the front of the buffer, or only changes the
state; or the machine waits for more. `drain` makes steps as long as it can.

Main results: **`drain_append`**, **`drain_of_steps`**, **`feed_flatten`**.
-/

namespace Lib

variable {σ α : Type}

/-- A machine on a stream. A step does not look behind what it takes, and takes something or lowers
the rank. -/
structure Incremental (σ α : Type) where
  step : σ → List α → Option (σ × List α)
  rank : σ → ℕ
  stable : ∀ {s buf s' rest}, step s buf = some (s', rest) →
    ∀ more, step s (buf ++ more) = some (s', rest ++ more)
  shrinks : ∀ {s buf s' rest}, step s buf = some (s', rest) →
    rest.length < buf.length ∨ rest.length = buf.length ∧ rank s' < rank s

namespace Incremental

variable (m : Incremental σ α)

def drain (s : σ) (buf : List α) : σ × List α :=
  match h : m.step s buf with
  | none => (s, buf)
  | some (s', rest) =>
    have := m.shrinks h
    drain s' rest
termination_by (buf.length, m.rank s)
decreasing_by
  rcases this with h | ⟨h, h'⟩
  · exact Prod.Lex.left _ _ h
  · rw [h]
    exact Prod.Lex.right _ h'

variable {m} {s s' : σ} {buf rest : List α}

theorem drain_none (h : m.step s buf = none) : m.drain s buf = (s, buf) := by
  rw [drain]
  split
  · rfl
  · rename_i heq
    rw [h] at heq
    cases heq

theorem drain_some (h : m.step s buf = some (s', rest)) : m.drain s buf = m.drain s' rest := by
  rw [drain]
  split
  · rename_i heq
    rw [h] at heq
    cases heq
  · rename_i heq
    rw [h] at heq
    cases heq
    rfl

theorem length_drain_le (s : σ) (buf : List α) : (m.drain s buf).2.length ≤ buf.length := by
  induction s, buf using drain.induct m with
  | case1 s buf hstep => exact Nat.le_of_eq (congrArg (fun r => r.2.length) (drain_none hstep))
  | case2 s buf s' rest hstep _ ih =>
    rw [drain_some hstep]
    rcases m.shrinks hstep with h | h
    · exact Nat.le_trans ih (Nat.le_of_lt h)
    · exact Nat.le_trans ih (Nat.le_of_eq h.1)

/-- **The machine forgets where its input was divided**. -/
theorem drain_append (s : σ) (buf more : List α) :
    m.drain s (buf ++ more) = m.drain (m.drain s buf).1 ((m.drain s buf).2 ++ more) := by
  induction s, buf using drain.induct m with
  | case1 s buf hstep => rw [drain_none hstep]
  | case2 s buf s' rest hstep _ ih => rw [drain_some (m.stable hstep more), drain_some hstep, ih]

/-! ## Steps in a row -/

/-- Some steps take a state and a buffer to others. -/
inductive Steps (m : Incremental σ α) : σ → List α → σ → List α → Prop where
  | refl (s : σ) (buf : List α) : Steps m s buf s buf
  | step {s s' s'' : σ} {buf rest rest' : List α} :
      m.step s buf = some (s', rest) → Steps m s' rest s'' rest' → Steps m s buf s'' rest'

theorem Steps.single (h : m.step s buf = some (s', rest)) : m.Steps s buf s' rest :=
  .step h (.refl _ _)

theorem Steps.trans {s'' : σ} {rest' : List α} (h : m.Steps s buf s' rest)
    (h' : m.Steps s' rest s'' rest') : m.Steps s buf s'' rest' := by
  induction h with
  | refl => exact h'
  | step hstep _ ih => exact .step hstep (ih h')

theorem drain_of_steps (h : m.Steps s buf s' rest) : m.drain s buf = m.drain s' rest := by
  induction h with
  | refl => rfl
  | step hstep _ ih => rw [drain_some hstep, ih]

theorem Steps.append (h : m.Steps s buf s' rest) (more : List α) : m.Steps s (buf ++ more) s' (rest ++ more) := by
  induction h with
  | refl => exact .refl _ _
  | step hstep _ ih => exact .step (m.stable hstep more) ih

theorem Steps.invariant {P : σ → List α → Prop}
    (hstep : ∀ {s buf s' rest}, P s buf → m.step s buf = some (s', rest) → P s' rest) (h : m.Steps s buf s' rest)
    (hP : P s buf) : P s' rest := by
  induction h with
  | refl => exact hP
  | step hfirst _ ih => exact ih (hstep hP hfirst)

theorem Steps.linear {s'' : σ} {rest' : List α} (h : m.Steps s buf s' rest) (h' : m.Steps s buf s'' rest') :
    m.Steps s' rest s'' rest' ∨ m.Steps s'' rest' s' rest := by
  induction h with
  | refl => exact .inl h'
  | step hfirst hmore ih =>
    cases h' with
    | refl => exact .inr (.step hfirst hmore)
    | step hfirst' hmore' =>
      obtain ⟨rfl, rfl⟩ := Prod.mk.inj (Option.some.inj (hfirst.symm.trans hfirst'))
      exact ih hmore'

/-! ## Streams in pieces -/

/-- Each piece is put behind what is left, and drained. -/
def feed (m : Incremental σ α) : σ × List α → List (List α) → σ × List α
  | r, [] => r
  | r, piece :: pieces => feed m (m.drain r.1 (r.2 ++ piece)) pieces

/-- **Input in pieces is as good as input at once**. -/
theorem feed_flatten (r : σ × List α) (piece : List α) (pieces : List (List α)) :
    m.feed r (piece :: pieces) = m.feed r [(piece :: pieces).flatten] := by
  induction pieces generalizing r piece with
  | nil => simp [feed]
  | cons next pieces ih =>
    calc m.feed r (piece :: next :: pieces)
        = m.feed (m.drain r.1 (r.2 ++ piece)) (next :: pieces) := rfl
      _ = m.feed (m.drain r.1 (r.2 ++ piece)) [(next :: pieces).flatten] := ih _ _
      _ = m.drain r.1 (r.2 ++ piece ++ (next :: pieces).flatten) := (drain_append _ _ _).symm
      _ = m.feed r [(piece :: next :: pieces).flatten] := by simp [feed]

end Incremental

end Lib
