import Mathlib.Data.List.Basic
import Mathlib.Order.Lattice

/-!
# Sorting by a comparator that follows a key

A comparator `before` of a stable sort follows a key on a list if it tells on the members of the list
which key is smaller. It need not be lawful elsewhere.

Main results: **`pairwise_sortBy`**, **`sortBy_eq_self`**, **`sortBy_sortBy`**,
**`mergeSort_eq_evalSort`**.
-/

namespace Lib.Sorting

variable {α κ : Type} [LinearOrder κ]

/-- A stable sort by a comparator. -/
def sortBy (before : α → α → Bool) (l : List α) : List α := l.mergeSort fun a b => !before b a

def Follows (key : α → κ) (before : α → α → Bool) (l : List α) : Prop :=
  ∀ a ∈ l, ∀ b ∈ l, before a b = decide (key a < key b)

variable {key : α → κ} {before before' : α → α → Bool} {l l' : List α}

theorem mergeSort_congr {le le' : α → α → Bool} (h : ∀ a ∈ l, ∀ b ∈ l, le a b = le' a b) :
    l.mergeSort le = l.mergeSort le' := by
  have hmap := List.map_mergeSort (f := id) h
  rwa [List.map_id, List.map_id] at hmap

theorem perm_sortBy (before : α → α → Bool) (l : List α) : (sortBy before l).Perm l :=
  List.mergeSort_perm l _

theorem Follows.perm (h : Follows key before l) (hperm : l'.Perm l) : Follows key before l' :=
  fun a ha b hb => h a (hperm.mem_iff.mp ha) b (hperm.mem_iff.mp hb)

theorem Follows.sortBy_eq (h : Follows key before l) :
    sortBy before l = l.mergeSort fun a b => decide (key a ≤ key b) :=
  mergeSort_congr fun a ha b hb => by
    rw [h b hb a ha, ← decide_not]
    exact decide_eq_decide.mpr not_lt

/-- The sorted list is in the order of the keys. -/
theorem Follows.pairwise_sortBy (h : Follows key before l) : (sortBy before l).Pairwise fun a b => key a ≤ key b := by
  rw [h.sortBy_eq]
  have hsorted := @List.pairwise_mergeSort _ (fun a b => decide (key a ≤ key b))
    (fun a b c hab hbc => decide_eq_true (le_trans (of_decide_eq_true hab) (of_decide_eq_true hbc)))
    (fun a b => by
      rw [Bool.or_eq_true, decide_eq_true_iff, decide_eq_true_iff]
      exact le_total _ _) l
  exact hsorted.imp fun hab => of_decide_eq_true hab

/-- A list in the order of the keys stays as it is. -/
theorem Follows.sortBy_eq_self (h : Follows key before l) (hl : l.Pairwise fun a b => key a ≤ key b) :
    sortBy before l = l := by
  rw [h.sortBy_eq]
  exact List.mergeSort_of_pairwise (hl.imp fun hab => decide_eq_true hab)

/-- **Sorting again changes nothing**. -/
theorem Follows.sortBy_sortBy (h : Follows key before l) : sortBy before (sortBy before l) = sortBy before l :=
  (h.perm (perm_sortBy before l)).sortBy_eq_self h.pairwise_sortBy

/-! ## Evaluation -/

section Eval

variable (le : α → α → Bool)

/-- The inner loop of a merge. -/
def evalInsert (x : α) (rest : List α → List α) : List α → List α
  | [] => x :: rest []
  | y :: ys => if le x y then x :: rest (y :: ys) else y :: evalInsert x rest ys

def evalMerge : List α → List α → List α
  | [], ys => ys
  | x :: xs, ys => evalInsert le x (evalMerge xs) ys

/-- `fuel` bounds the depth of the halving. -/
def evalSort : ℕ → List α → List α
  | 0, xs => xs
  | _ + 1, [] => []
  | _ + 1, [x] => [x]
  | fuel + 1, x :: y :: xs =>
    let half := ((x :: y :: xs).length + 1) / 2
    evalMerge le (evalSort fuel ((x :: y :: xs).take half)) (evalSort fuel ((x :: y :: xs).drop half))

theorem evalMerge_eq (xs ys : List α) : evalMerge le xs ys = xs.merge ys le := by
  induction xs generalizing ys with
  | nil => rw [evalMerge, List.nil_merge]
  | cons x xs ih =>
    rw [evalMerge]
    induction ys with
    | nil => rw [evalInsert, ih, List.merge_right, List.merge_right]
    | cons y ys ihy =>
      rw [evalInsert, List.cons_merge_cons, ih, ihy]

theorem evalSort_eq {fuel : ℕ} {xs : List α} (h : xs.length ≤ fuel) : evalSort le fuel xs = xs.mergeSort le := by
  induction fuel generalizing xs with
  | zero =>
    rw [List.eq_nil_of_length_eq_zero (Nat.le_zero.mp h)]
    simp [evalSort]
  | succ fuel ih =>
    match xs with
    | [] => simp [evalSort]
    | [x] => simp [evalSort]
    | x :: y :: xs =>
      have hlen : (x :: y :: xs).length = xs.length + 2 := rfl
      rw [evalSort, List.mergeSort]
      simp only [List.MergeSort.Internal.splitInTwo_fst, List.MergeSort.Internal.splitInTwo_snd]
      rw [ih (by rw [List.length_take]; omega), ih (by rw [List.length_drop]; omega), evalMerge_eq]

theorem mergeSort_eq_evalSort (xs : List α) : xs.mergeSort le = evalSort le xs.length xs :=
  (evalSort_eq le le_rfl).symm

end Eval

end Lib.Sorting
