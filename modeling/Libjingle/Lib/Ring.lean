import Mathlib.Data.BitVec

/-!
# Blocks of memory and ring addressing

Memory is a function from addresses to cells, so a pointer is the function of the cells that
follow it. A ring of capacity `cap` is the memory below `cap`, addressed modulo `cap`.

Main results: **`ringBlock_update`**, **`two_piece_read`**, **`two_piece_write`**.
-/

variable {p n cap : ℕ}

namespace Lib

variable {α : Type}

/-! ## Contiguous blocks -/

/-- The `n` cells that start at `p`. -/
def block (m : ℕ → α) (p n : ℕ) : List α := (List.range n).map fun i => m (p + i)

def memcpy (m : ℕ → α) (p : ℕ) (src : ℕ → α) (n : ℕ) : ℕ → α :=
  fun i => if p ≤ i ∧ i < p + n then src (i - p) else m i

@[simp] theorem length_block (m : ℕ → α) (p n : ℕ) : (block m p n).length = n := by
  simp [block]

@[simp] theorem block_zero (m : ℕ → α) (p : ℕ) : block m p 0 = [] := rfl

theorem block_add (m : ℕ → α) (p n k : ℕ) : block m p (n + k) = block m p n ++ block m (p + n) k := by
  simp only [block, List.range_add, List.map_append, List.map_map, Nat.add_assoc]
  rfl

theorem block_eq_append {m : ℕ → α} {x rest : List α} (h : block m p n = x ++ rest) :
    x = block m p x.length ∧ rest = block m (p + x.length) (n - x.length) := by
  have hlen := congrArg List.length h
  rw [length_block, List.length_append] at hlen
  obtain ⟨k, rfl⟩ : ∃ k, n = x.length + k := ⟨n - x.length, by omega⟩
  rw [block_add] at h
  obtain ⟨hx, hrest⟩ := List.append_inj h (length_block _ _ _)
  rw [Nat.add_sub_cancel_left]
  exact ⟨hx.symm, hrest.symm⟩

theorem drop_block (m : ℕ → α) (p n k : ℕ) : (block m p n).drop k = block m (p + k) (n - k) := by
  by_cases hk : k ≤ n
  · obtain ⟨j, rfl⟩ := Nat.exists_eq_add_of_le hk
    rw [block_add, List.drop_left' (length_block m p k), Nat.add_sub_cancel_left]
  · rw [List.drop_eq_nil_of_le (by rw [length_block]; omega), Nat.sub_eq_zero_of_le (by omega), block_zero]

theorem getElem_block (m : ℕ → α) (p n i : ℕ) (h : i < (block m p n).length) : (block m p n)[i] = m (p + i) := by
  simp [block]

theorem getElem?_block (m : ℕ → α) (p n i : ℕ) : (block m p n)[i]? = if i < n then some (m (p + i)) else none := by
  by_cases h : i < n
  · rw [if_pos h, List.getElem?_eq_getElem (by simpa using h), getElem_block]
  · rw [if_neg h, List.getElem?_eq_none (by simpa using h)]

theorem memcpy_of_mem {m src : ℕ → α} {i : ℕ} (h : p ≤ i ∧ i < p + n) :
    memcpy m p src n i = src (i - p) := if_pos h

theorem memcpy_of_not_mem {m src : ℕ → α} {i : ℕ} (h : ¬ (p ≤ i ∧ i < p + n)) :
    memcpy m p src n i = m i := if_neg h

@[simp] theorem memcpy_zero (m : ℕ → α) (p : ℕ) (src : ℕ → α) : memcpy m p src 0 = m := by
  funext i
  exact memcpy_of_not_mem (by omega)

theorem memcpy_congr {m src src' : ℕ → α} (h : ∀ i < n, src' i = src i) : memcpy m p src' n = memcpy m p src n := by
  funext i
  unfold memcpy
  split
  · exact h _ (by omega)
  · rfl

theorem block_congr {m m' : ℕ → α} (h : ∀ i < n, m' (p + i) = m (p + i)) : block m' p n = block m p n :=
  List.map_congr_left fun i hi => h i (List.mem_range.mp hi)

/-! ## Rings -/

def ringBlock (m : ℕ → α) (cap p n : ℕ) : List α :=
  (List.range n).map fun i => m ((p + i) % cap)

@[simp] theorem length_ringBlock (m : ℕ → α) (cap p n : ℕ) : (ringBlock m cap p n).length = n := by
  simp [ringBlock]

@[simp] theorem ringBlock_zero (m : ℕ → α) (cap p : ℕ) : ringBlock m cap p 0 = [] := rfl

theorem ringBlock_congr {m m' : ℕ → α} {p' : ℕ} (h : ∀ i < n, m ((p + i) % cap) = m' ((p' + i) % cap)) :
    ringBlock m cap p n = ringBlock m' cap p' n := by
  unfold ringBlock
  exact List.map_congr_left fun i hi => h i (List.mem_range.mp hi)

theorem ringBlock_mod (m : ℕ → α) (cap p n : ℕ) : ringBlock m cap (p % cap) n = ringBlock m cap p n :=
  ringBlock_congr fun i _ => by rw [Nat.mod_add_mod]

theorem ringBlock_add (m : ℕ → α) (cap p a b : ℕ) :
    ringBlock m cap p (a + b) = ringBlock m cap p a ++ ringBlock m cap (p + a) b := by
  simp only [ringBlock, List.range_add, List.map_append, List.map_map]
  congr 1
  exact List.map_congr_left fun i _ => by simp [Nat.add_assoc]

theorem take_ringBlock (m : ℕ → α) (cap p n k : ℕ) : (ringBlock m cap p n).take k = ringBlock m cap p (min k n) := by
  simp only [ringBlock, ← List.map_take, List.take_range]

theorem drop_ringBlock (m : ℕ → α) (cap p n k : ℕ) :
    (ringBlock m cap p n).drop k = ringBlock m cap (p + k) (n - k) := by
  by_cases h : k ≤ n
  · obtain ⟨b, rfl⟩ := Nat.exists_eq_add_of_le h
    rw [ringBlock_add, List.drop_left' (by simp), Nat.add_sub_cancel_left]
  · rw [List.drop_eq_nil_of_le (by simp; omega), Nat.sub_eq_zero_of_le (by omega),
      ringBlock_zero]

theorem ringBlock_eq_block {m : ℕ → α} (h : p + n ≤ cap) : ringBlock m cap p n = block m p n := by
  unfold ringBlock block
  refine List.map_congr_left fun i hi => ?_
  have := List.mem_range.mp hi
  rw [Nat.mod_eq_of_lt (by omega)]

/-- Two blocks, up to the end of the memory and from its start, are one of the ring. -/
theorem two_piece_read {m : ℕ → α} (hp : p < cap) (hn : n ≤ cap) :
    block m p (min n (cap - p)) ++ block m 0 (n - min n (cap - p)) = ringBlock m cap p n := by
  have hsplit : n = min n (cap - p) + (n - min n (cap - p)) := by omega
  conv_rhs => rw [hsplit, ringBlock_add]
  rw [ringBlock_eq_block (by omega)]
  congr 1
  by_cases h : n ≤ cap - p
  · rw [Nat.min_eq_left h, Nat.sub_self, block_zero, ringBlock_zero]
  · rw [Nat.min_eq_right (by omega), ← ringBlock_mod, Nat.add_sub_cancel' (by omega),
      Nat.mod_self, ringBlock_eq_block (by omega)]

/-- Two copies, up to the end of the memory and from its start, are one into the ring. -/
theorem two_piece_write (m src : ℕ → α) {i : ℕ} (hp : p < cap) (hn : n ≤ cap) (hi : i < cap) :
    memcpy (memcpy m p src (min n (cap - p))) 0 (fun j => src (min n (cap - p) + j))
      (n - min n (cap - p)) ((p + i) % cap) = if i < n then src i else m ((p + i) % cap) := by
  by_cases hw : p + i < cap
  · rw [Nat.mod_eq_of_lt hw, memcpy_of_not_mem (by omega)]
    split_ifs with h
    · rw [memcpy_of_mem (by omega), Nat.add_sub_cancel_left]
    · rw [memcpy_of_not_mem (by omega)]
  · have hmod : (p + i) % cap = p + i - cap := by
      rw [Nat.mod_eq_sub_mod (by omega), Nat.mod_eq_of_lt (by omega)]
    rw [hmod]
    split_ifs with h
    · rw [memcpy_of_mem (by omega)]
      congr 1
      omega
    · rw [memcpy_of_not_mem (by omega), memcpy_of_not_mem (by omega)]

/-! ## One cell -/

theorem ringBlock_succ (m : ℕ → α) (cap p n : ℕ) :
    ringBlock m cap p (n + 1) = m (p % cap) :: ringBlock m cap (p + 1) n := by
  rw [Nat.add_comm n 1, ringBlock_add]
  rfl

/-- The cell behind a block of the ring joins it. -/
theorem ringBlock_update (m : ℕ → α) (hn : n < cap) (x : α) :
    ringBlock (Function.update m ((p + n) % cap) x) cap p (n + 1) = ringBlock m cap p n ++ [x] := by
  rw [ringBlock_add]
  congr 1
  · refine ringBlock_congr fun i hi => Function.update_of_ne ?_ _ _
    intro heq
    have hmod : (p + n - (p + i)) % cap = 0 := Nat.sub_mod_eq_zero_of_mod_eq heq.symm
    rw [Nat.mod_eq_of_lt (by omega)] at hmod
    omega
  · exact congrArg (fun y => [y]) (Function.update_self _ _ _)

end Lib
