import Libjingle.Lib.Ring

/-!
# Computations that read memory

Main results: **`Reading.local_bind`**, **`Reading.Local.congr`**.
-/

namespace Lib

variable {α β γ : Type}

def Reading (α β : Type) : Type := (ℕ → α) → β × List ℕ

namespace Reading

/-- A value, without a read. -/
protected def pure (x : β) : Reading α β := fun _ => (x, [])

protected def bind (r : Reading α β) (f : β → Reading α γ) : Reading α γ := fun m =>
  ((f (r m).1 m).1, (r m).2 ++ (f (r m).1 m).2)

instance : Monad (Reading α) where
  pure := Reading.pure
  bind := Reading.bind

def cell (p : ℕ) : Reading α α := fun m => (m p, [p])

@[simp] theorem value_pure (x : β) (m : ℕ → α) : ((pure x : Reading α β) m).1 = x := rfl

@[simp] theorem reads_pure (x : β) (m : ℕ → α) : ((pure x : Reading α β) m).2 = [] := rfl

@[simp] theorem value_bind (r : Reading α β) (f : β → Reading α γ) (m : ℕ → α) :
    ((r >>= f) m).1 = (f (r m).1 m).1 := rfl

@[simp] theorem reads_bind (r : Reading α β) (f : β → Reading α γ) (m : ℕ → α) :
    ((r >>= f) m).2 = (r m).2 ++ (f (r m).1 m).2 := rfl

@[simp] theorem value_cell (p : ℕ) (m : ℕ → α) : (cell p m).1 = m p := rfl

@[simp] theorem reads_cell (p : ℕ) (m : ℕ → α) : (cell p m).2 = [p] := rfl

theorem bind_of_eq {r : Reading α β} {m : ℕ → α} {x : β} {reads : List ℕ} (h : r m = (x, reads))
    (f : β → Reading α γ) : (r >>= f) m = ((f x m).1, reads ++ (f x m).2) := by
  show ((f (r m).1 m).1, (r m).2 ++ (f (r m).1 m).2) = _
  rw [h]

/-- The `n` cells that start at `p` are read. -/
def cells : ℕ → ℕ → Reading α (List α)
  | _, 0 => pure []
  | p, n + 1 => do
    let x ← cell p
    let l ← cells (p + 1) n
    pure (x :: l)

theorem cells_eq (p n : ℕ) (m : ℕ → α) : cells p n m = (block m p n, List.range' p n) := by
  induction n generalizing p with
  | zero => rfl
  | succ n ih =>
    have hblock : block m p (n + 1) = m p :: block m (p + 1) n := by
      rw [Nat.add_comm, block_add]
      rfl
    have hcells : cells p (n + 1) m = (m p :: (cells (p + 1) n m).1, p :: ((cells (p + 1) n m).2 ++ [])) := rfl
    rw [hcells, ih, hblock, List.append_nil, List.range'_succ]

@[simp] theorem value_cells (p n : ℕ) (m : ℕ → α) : (cells p n m).1 = block m p n := by rw [cells_eq]

@[simp] theorem reads_cells (p n : ℕ) (m : ℕ → α) : (cells p n m).2 = List.range' p n := by rw [cells_eq]

/-- Only the cells that are read make a difference. -/
def Local (r : Reading α β) : Prop := ∀ m m', (∀ p ∈ (r m).2, m' p = m p) → r m' = r m

theorem local_pure (x : β) : (pure x : Reading α β).Local := fun _ _ _ => rfl

theorem local_cell (p : ℕ) : (cell p : Reading α α).Local := by
  intro m m' h
  have hp : m' p = m p := h p (List.mem_singleton_self p)
  simp only [cell, hp]

/-- A computation in two steps depends only on the cells that it reads. -/
theorem local_bind {r : Reading α β} {f : β → Reading α γ} (hr : r.Local) (hf : ∀ x, (f x).Local) :
    (r >>= f).Local := by
  intro m m' h
  have hfirst : r m' = r m := hr m m' fun p hp => h p (List.mem_append_left _ hp)
  have hrest : f (r m).1 m' = f (r m).1 m := hf _ m m' fun p hp => h p (List.mem_append_right _ hp)
  show ((f (r m').1 m').1, (r m').2 ++ (f (r m').1 m').2) = _
  rw [hfirst, hrest]
  rfl

theorem local_cells (p n : ℕ) : (cells p n : Reading α (List α)).Local := by
  induction n generalizing p with
  | zero => exact local_pure _
  | succ n ih => exact local_bind (local_cell p) fun _ => local_bind (ih (p + 1)) fun _ => local_pure _

theorem Local.ite {c : Prop} [Decidable c] {r r' : Reading α β} (hr : r.Local) (hr' : r'.Local) :
    (if c then r else r').Local := by
  split
  · exact hr
  · exact hr'

/-- **A computation cannot tell two memories apart** that agree where it reads. -/
theorem Local.congr {r : Reading α β} (hr : r.Local) {n : ℕ} {m m' : ℕ → α}
    (hinside : ∀ p ∈ (r m).2, p < n) (h : ∀ p < n, m' p = m p) : r m' = r m :=
  hr m m' fun p hp => h p (hinside p hp)

end Reading

end Lib
