import Mathlib.Tactic.Common
import Mathlib.Order.Basic
import Mathlib.Order.Defs.Unbundled

/-!
# Cached extremes

The extreme of a window, for a linear order `r`, is kept in a cache. An element that leaves the
window marks the cache as stale if it may be the extreme; the extreme is computed again only when
it is asked for. A stale value still bounds the window, so an element that passes it is the extreme.

Main results: **`Covers.evict`**, **`Covers.push`**, **`Covers.refresh`**.

* `Extreme r w x`: `x` is an element of `w` that is `r`-above all of `w`.
-/

namespace Lib

variable {α : Type} (r : α → α → Prop)

/-! ## Extremes -/

def Extreme (w : List α) (x : α) : Prop := x ∈ w ∧ ∀ y ∈ w, r x y

variable [DecidableRel r]

/-- The larger one of two elements. -/
def pick (x y : α) : α := if r x y then x else y

theorem extreme_foldl [IsLinearOrder α r] (w : List α) : ∀ x, Extreme r (x :: w) (w.foldl (pick r) x) := by
  induction w with
  | nil => exact fun x => ⟨List.mem_cons_self, fun y hy => by
      rw [List.mem_singleton.mp hy]
      exact refl_of r x⟩
  | cons y w ih =>
    intro x
    obtain ⟨hmem, habove⟩ := ih (pick r x y)
    have hpick : r (pick r x y) x ∧ r (pick r x y) y ∧ (pick r x y = x ∨ pick r x y = y) := by
      unfold pick
      split_ifs with h
      · exact ⟨refl_of r x, h, Or.inl rfl⟩
      · exact ⟨(total_of r x y).resolve_left h, refl_of r y, Or.inr rfl⟩
    have hself : r (w.foldl (pick r) (pick r x y)) (pick r x y) := habove _ List.mem_cons_self
    rw [List.foldl_cons]
    refine ⟨?_, ?_⟩
    · rcases List.mem_cons.mp hmem with heq | hmem
      · rw [heq]
        rcases hpick.2.2 with h | h <;> rw [h]
        · exact List.mem_cons_self
        · exact List.mem_cons_of_mem _ List.mem_cons_self
      · exact List.mem_cons_of_mem _ (List.mem_cons_of_mem _ hmem)
    · intro z hz
      rcases List.mem_cons.mp hz with rfl | hz
      · exact trans_of r hself hpick.1
      · rcases List.mem_cons.mp hz with rfl | hz
        · exact trans_of r hself hpick.2.1
        · exact habove z (List.mem_cons_of_mem _ hz)

/-! ## Caches -/

/-- An extreme that was computed earlier, and whether it may be out of date. -/
structure Cached (α : Type) where
  value : α
  stale : Bool
deriving DecidableEq

namespace Cached

/-- `x` leaves the window. -/
def evict (x : α) (c : Cached α) : Cached α := if r x c.value then { c with stale := true } else c

/-- `x` enters the window, or starts it if `alone`. -/
def push (alone : Bool) (x : α) (c : Cached α) : Cached α :=
  if alone ∨ r x c.value then { value := x, stale := false } else c

variable {r} in
theorem stale_of_push {alone : Bool} {x : α} {c : Cached α} (h : (c.push r alone x).stale = true) :
    c.stale = true := by
  unfold push at h
  split_ifs at h
  exact h

/-- The extreme of the window `x :: w` is asked for. -/
def refresh (x : α) (w : List α) (c : Cached α) : Cached α :=
  if c.stale then { value := w.foldl (pick r) x, stale := false } else c

variable {r} in
omit [DecidableRel r] in
/-- The value bounds the window, and is its extreme unless it is stale. -/
structure Covers (r : α → α → Prop) (w : List α) (c : Cached α) : Prop where
  above : ∀ y ∈ w, r c.value y
  fresh : c.stale = false → w ≠ [] → c.value ∈ w

namespace Covers

variable {r} {w : List α} {c : Cached α} {x : α}

omit [DecidableRel r] in
theorem extreme (h : Covers r w c) (hw : w ≠ []) (hfresh : c.stale = false) : Extreme r w c.value :=
  ⟨h.fresh hfresh hw, h.above⟩

variable [IsLinearOrder α r]

/-- The oldest element leaves the window; the value is stale if it was that one. -/
theorem evict (h : Covers r (x :: w) c) : Covers r w (c.evict r x) := by
  unfold Cached.evict
  split_ifs with hx
  · exact ⟨fun y hy => h.above y (List.mem_cons_of_mem _ hy),
      fun hs => absurd hs.symm Bool.false_ne_true⟩
  · refine ⟨fun y hy => h.above y (List.mem_cons_of_mem _ hy), fun hs _ => ?_⟩
    rcases List.mem_cons.mp (h.fresh hs (List.cons_ne_nil x w)) with heq | hmem
    · exact absurd (heq ▸ refl_of r x) hx
    · exact hmem

/-- A new element enters the window. -/
theorem push (h : Covers r w c) (alone : Bool) (halone : alone = true ↔ w = []) :
    Covers r (w ++ [x]) (c.push r alone x) := by
  unfold Cached.push
  split_ifs with hx
  · refine ⟨fun y hy => ?_, fun _ _ => List.mem_append_right _ List.mem_cons_self⟩
    rcases List.mem_append.mp hy with hy | hy
    · rcases hx with hx | hx
      · exact absurd hy (by rw [halone.mp hx]; exact List.not_mem_nil)
      · exact trans_of r hx (h.above y hy)
    · rw [List.mem_singleton.mp hy]
      exact refl_of r x
  · rw [not_or] at hx
    refine ⟨fun y hy => ?_, fun hs _ => ?_⟩
    · rcases List.mem_append.mp hy with hy | hy
      · exact h.above y hy
      · rw [List.mem_singleton.mp hy]
        exact (total_of r x c.value).resolve_left hx.2
    · exact List.mem_append_left _ (h.fresh hs fun hw => hx.1 (halone.mpr hw))

/-- A stale value is computed anew from the window. -/
theorem refresh {y : α} {v : List α} (h : Covers r w c) (hw : c.stale = true → w = y :: v) :
    Covers r w (c.refresh r y v) ∧ (c.refresh r y v).stale = false := by
  unfold Cached.refresh
  split_ifs with hs
  · obtain ⟨hmem, habove⟩ := extreme_foldl r v y
    rw [hw hs]
    exact ⟨⟨habove, fun _ _ => hmem⟩, rfl⟩
  · exact ⟨h, Bool.eq_false_iff.mpr hs⟩

end Covers

end Cached

end Lib
