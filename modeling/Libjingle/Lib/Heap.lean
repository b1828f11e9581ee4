import Mathlib.Tactic.Common
import Mathlib.Data.Nat.Notation

/-!
# Binary heaps

The heap operations of a standard library, on an array and for a comparison `lt`: no element is less
than a child.

Main results: **`isHeap_push`**, **`isHeap_pop`**, **`isHeap_makeHeap`**, **`IsHeap.top`**.
-/

namespace Lib.Heap

variable {α : Type} (lt : α → α → Bool)

/-- A strict weak order. -/
structure StrictWeak : Prop where
  asymm : ∀ a b, lt a b = true → lt b a = false
  neg_trans : ∀ a b c, lt a b = false → lt b c = false → lt a c = false

def ltAt (xs : Array α) (i j : ℕ) : Bool :=
  match xs[i]?, xs[j]? with
  | some a, some b => lt a b
  | _, _ => false

def siftUp : ℕ → Array α → ℕ → Array α
  | 0, xs, _ => xs
  | fuel + 1, xs, i =>
    if ltAt lt xs ((i - 1) / 2) i then siftUp fuel (xs.swapIfInBounds ((i - 1) / 2) i) ((i - 1) / 2)
    else xs

def greaterChild (xs : Array α) (i : ℕ) : ℕ :=
  if ltAt lt xs (2 * i + 1) (2 * i + 2) then 2 * i + 2 else 2 * i + 1

def siftDown : ℕ → Array α → ℕ → Array α
  | 0, xs, _ => xs
  | fuel + 1, xs, i =>
    if ltAt lt xs i (greaterChild lt xs i) then
      siftDown fuel (xs.swapIfInBounds i (greaterChild lt xs i)) (greaterChild lt xs i)
    else xs

/-- An element is put at the end, and sifted up. -/
def push (xs : Array α) (x : α) : Array α := siftUp lt xs.size (xs.push x) xs.size

/-- The root is replaced by the last element. -/
def pop (xs : Array α) : Array α :=
  siftDown lt xs.size (xs.swapIfInBounds 0 (xs.size - 1)).pop 0

def heapify : ℕ → Array α → Array α
  | 0, xs => xs
  | k + 1, xs => heapify k (siftDown lt xs.size xs k)

/-- The first half is sifted down, from its end. -/
def makeHeap (xs : Array α) : Array α := heapify lt (xs.size / 2) xs

def Child (p c : ℕ) : Prop := c = 2 * p + 1 ∨ c = 2 * p + 2

def HeapFrom (k : ℕ) (xs : Array α) : Prop := ∀ p c, k ≤ p → Child p c → ltAt lt xs p c = false

/-- No element is less than a child of it. -/
abbrev IsHeap (xs : Array α) : Prop := HeapFrom lt 0 xs

variable {lt} {xs : Array α} {i j k : ℕ}

/-! ## Comparisons -/

theorem ltAt_of_size_le (h : xs.size ≤ j) (i : ℕ) : ltAt lt xs i j = false := by
  simp only [ltAt, Array.getElem?_eq_none h]
  split <;> simp_all

theorem lt_size_of_ltAt (h : ltAt lt xs i j = true) : i < xs.size ∧ j < xs.size := by
  constructor
  · by_contra hi
    rw [ltAt, Array.getElem?_eq_none (by omega)] at h
    cases h
  · by_contra hj
    rw [ltAt_of_size_le (by omega)] at h
    cases h

theorem ltAt_eq (hi : i < xs.size) (hj : j < xs.size) : ltAt lt xs i j = lt xs[i] xs[j] := by
  rw [ltAt, Array.getElem?_eq_getElem hi, Array.getElem?_eq_getElem hj]

/-- Where an element is after `a` and `b` were swapped. -/
def swapped (a b i : ℕ) : ℕ := if i = a then b else if i = b then a else i

theorem getElem?_swap (hi : i < xs.size) (hj : j < xs.size) (k : ℕ) :
    (xs.swapIfInBounds i j)[k]? = xs[swapped i j k]? := by
  unfold swapped
  by_cases hk : k < xs.size
  · rw [Array.swapIfInBounds_def, dif_pos hi, dif_pos hj,
      Array.getElem?_eq_getElem (by rwa [Array.size_swap]), Array.getElem_swap]
    split
    · rw [Array.getElem?_eq_getElem hj]
    · split
      · rw [Array.getElem?_eq_getElem hi]
      · rw [Array.getElem?_eq_getElem hk]
  · rw [if_neg (by omega), if_neg (by omega), Array.getElem?_eq_none (by simpa using hk),
      Array.getElem?_eq_none (by omega)]

theorem ltAt_swap {a b : ℕ} (ha : a < xs.size) (hb : b < xs.size) (i j : ℕ) :
    ltAt lt (xs.swapIfInBounds a b) i j = ltAt lt xs (swapped a b i) (swapped a b j) := by
  rw [ltAt, ltAt, getElem?_swap ha hb, getElem?_swap ha hb]

namespace StrictWeak

variable (hlt : StrictWeak lt)
include hlt

theorem ltAt_asymm (h : ltAt lt xs i j = true) : ltAt lt xs j i = false := by
  obtain ⟨hi, hj⟩ := lt_size_of_ltAt h
  rw [ltAt_eq hi hj] at h
  rw [ltAt_eq hj hi]
  exact hlt.asymm _ _ h

theorem ltAt_self (i : ℕ) : ltAt lt xs i i = false := by
  by_contra h
  rw [Bool.not_eq_false] at h
  exact absurd (hlt.ltAt_asymm h) (by simp [h])

theorem ltAt_neg_trans (hj : j < xs.size) (hij : ltAt lt xs i j = false)
    (hjk : ltAt lt xs j k = false) : ltAt lt xs i k = false := by
  by_contra h
  rw [Bool.not_eq_false] at h
  obtain ⟨hi, hk⟩ := lt_size_of_ltAt h
  rw [ltAt_eq hi hj] at hij
  rw [ltAt_eq hj hk] at hjk
  rw [ltAt_eq hi hk, hlt.neg_trans _ _ _ hij hjk] at h
  cases h

end StrictWeak

/-- **The top of a heap is nowhere exceeded**. -/
theorem IsHeap.top (hlt : StrictWeak lt) (h : IsHeap lt xs) (i : ℕ) : ltAt lt xs 0 i = false := by
  induction i using Nat.strongRecOn with
  | ind i ih =>
    rcases Nat.eq_zero_or_pos i with rfl | hpos
    · exact hlt.ltAt_self 0
    · by_cases hi : i < xs.size
      · have hparent : ltAt lt xs ((i - 1) / 2) i = false := h _ _ (Nat.zero_le _) (by
          unfold Child
          omega)
        exact hlt.ltAt_neg_trans (by omega) (ih _ (by omega)) hparent
      · exact ltAt_of_size_le (by omega) 0

/-! ## Sifting up -/

/-- A heap but for the element at `i`, which may be greater than its parent. -/
structure UpOrder (lt : α → α → Bool) (xs : Array α) (i : ℕ) : Prop where
  except : ∀ p c, Child p c → c ≠ i → ltAt lt xs p c = false
  grand : ∀ g c, Child g i → Child i c → ltAt lt xs g c = false

theorem UpOrder.move (hlt : StrictWeak lt) (h : UpOrder lt xs i) {p : ℕ} (hp : Child p i)
    (hless : ltAt lt xs p i = true) : UpOrder lt (xs.swapIfInBounds p i) p := by
  obtain ⟨hps, his⟩ := lt_size_of_ltAt hless
  have hback : ltAt lt xs i p = false := hlt.ltAt_asymm hless
  have hpi : p < i := by
    unfold Child at hp
    omega
  constructor
  · intro q d hd hne
    rw [ltAt_swap hps his]
    by_cases hqp : q = p
    · subst hqp
      by_cases hdi : d = i
      · subst hdi
        simpa [swapped, Nat.ne_of_gt hpi] using hback
      · have hd' : swapped q i d = d := by simp [swapped, hne, hdi]
        rw [hd', swapped, if_pos rfl]
        exact hlt.ltAt_neg_trans hps hback (h.except q d hd hdi)
    · have hdi : d ≠ i := by
        unfold Child at hp hd
        omega
      have hd' : swapped p i d = d := by simp [swapped, hne, hdi]
      rw [hd']
      by_cases hqi : q = i
      · subst hqi
        simpa [swapped, hqp] using h.grand p d hp hd
      · simpa [swapped, hqp, hqi] using h.except q d hd hdi
  · intro g c hg hc
    have hgp : g < p := by
      unfold Child at hg
      omega
    have habove : ltAt lt xs g p = false := h.except g p hg (Nat.ne_of_lt hpi)
    have hcp : c ≠ p := by
      unfold Child at hc
      omega
    have hg' : swapped p i g = g := by
      simp [swapped, Nat.ne_of_lt hgp, Nat.ne_of_lt (Nat.lt_trans hgp hpi)]
    rw [ltAt_swap hps his, hg']
    by_cases hci : c = i
    · simpa [swapped, hci, Nat.ne_of_gt hpi] using habove
    · simpa [swapped, hci, hcp] using hlt.ltAt_neg_trans hps habove (h.except p c hc hci)

theorem UpOrder.isHeap (h : UpOrder lt xs i) (hstop : ltAt lt xs ((i - 1) / 2) i = false) : IsHeap lt xs := by
  intro p c _ hc
  by_cases hci : c = i
  · have hp : p = (i - 1) / 2 := by
      unfold Child at hc
      omega
    rw [hci, hp]
    exact hstop
  · exact h.except p c hc hci

theorem siftUp_isHeap (hlt : StrictWeak lt) (fuel : ℕ) (h : UpOrder lt xs i) (hfuel : i ≤ fuel) :
    IsHeap lt (siftUp lt fuel xs i) := by
  induction fuel generalizing xs i with
  | zero =>
    obtain rfl : i = 0 := by omega
    exact h.isHeap (hlt.ltAt_self 0)
  | succ fuel ih =>
    rw [siftUp]
    split
    · rename_i hless
      have hpos : 0 < i := by
        by_contra hzero
        obtain rfl : i = 0 := by omega
        exact absurd hless (Bool.eq_false_iff.mp (hlt.ltAt_self 0))
      have hp : Child ((i - 1) / 2) i := by
        unfold Child
        omega
      exact ih (h.move hlt hp hless) (by omega)
    · rename_i hstop
      exact h.isHeap (Bool.eq_false_iff.mpr hstop)

theorem swap_perm (i j : ℕ) : (xs.swapIfInBounds i j).Perm xs := by
  rw [Array.swapIfInBounds_def]
  split
  · split
    · exact Array.swap_perm _ _
    · exact .refl _
  · exact .refl _

theorem siftUp_perm (fuel : ℕ) (xs : Array α) (i : ℕ) : (siftUp lt fuel xs i).Perm xs := by
  induction fuel generalizing xs i with
  | zero => exact .refl _
  | succ fuel ih =>
    rw [siftUp]
    split
    · exact (ih _ _).trans (swap_perm _ _)
    · exact .refl _

/-! ## Sifting down -/

/-- A heap from `k` on, but for the element at `i`, which may be less than its children. -/
structure DownOrder (lt : α → α → Bool) (k : ℕ) (xs : Array α) (i : ℕ) : Prop where
  except : ∀ p c, k ≤ p → Child p c → p ≠ i → ltAt lt xs p c = false
  grand : ∀ g c, k ≤ g → Child g i → Child i c → ltAt lt xs g c = false

theorem child_greaterChild (lt : α → α → Bool) (xs : Array α) (i : ℕ) : Child i (greaterChild lt xs i) := by
  unfold greaterChild Child
  split <;> simp

theorem greaterChild_le (hlt : StrictWeak lt) {c : ℕ} (hc : Child i c) :
    ltAt lt xs (greaterChild lt xs i) c = false := by
  unfold greaterChild
  split
  · rename_i hless
    rcases hc with rfl | rfl
    · exact hlt.ltAt_asymm hless
    · exact hlt.ltAt_self _
  · rename_i hless
    rcases hc with rfl | rfl
    · exact hlt.ltAt_self _
    · exact Bool.eq_false_iff.mpr hless

theorem DownOrder.move (hlt : StrictWeak lt) (h : DownOrder lt k xs i) (hk : k ≤ i)
    (hless : ltAt lt xs i (greaterChild lt xs i) = true) :
    DownOrder lt k (xs.swapIfInBounds i (greaterChild lt xs i)) (greaterChild lt xs i) := by
  obtain ⟨his, hcs⟩ := lt_size_of_ltAt hless
  have hsibling (d : ℕ) (hd : Child i d) : ltAt lt xs (greaterChild lt xs i) d = false :=
    greaterChild_le hlt hd
  have hchild : Child i (greaterChild lt xs i) := child_greaterChild lt xs i
  generalize greaterChild lt xs i = c at *
  have hic : i < c := by
    unfold Child at hchild
    omega
  constructor
  · intro p d hp hd hpc
    rw [ltAt_swap his hcs]
    by_cases hpi : p = i
    · subst hpi
      by_cases hdc : d = c
      · subst hdc
        simpa [swapped, Nat.ne_of_gt hic] using hlt.ltAt_asymm hless
      · have hdp : d ≠ p := by
          unfold Child at hd
          omega
        simpa [swapped, hdp, hdc] using hsibling d hd
    · have hdc : d ≠ c := by
        unfold Child at hd hchild
        omega
      have hp' : swapped i c p = p := by simp [swapped, hpi, hpc]
      rw [hp']
      by_cases hdi : d = i
      · subst hdi
        simpa [swapped] using h.grand p c hp hd hchild
      · simpa [swapped, hdi, hdc] using h.except p d hp hd hpi
  · intro g d hg hgc hcd
    obtain rfl : g = i := by
      unfold Child at hgc hchild
      omega
    have hd : d ≠ g ∧ d ≠ c := by
      unfold Child at hcd
      omega
    rw [ltAt_swap his hcs]
    simpa [swapped, hd.1, hd.2] using h.except c d (by omega) hcd (Nat.ne_of_gt hic)

theorem DownOrder.heapFrom (hlt : StrictWeak lt) (h : DownOrder lt k xs i)
    (hstop : ltAt lt xs i (greaterChild lt xs i) = false) : HeapFrom lt k xs := by
  intro p c hp hc
  by_cases hpi : p = i
  · subst hpi
    by_cases hsize : greaterChild lt xs p < xs.size
    · exact hlt.ltAt_neg_trans hsize hstop (greaterChild_le hlt hc)
    · refine ltAt_of_size_le ?_ p
      unfold greaterChild at hsize
      split at hsize
      · rename_i hless
        exact absurd (lt_size_of_ltAt hless).2 hsize
      · unfold Child at hc
        omega
  · exact h.except p c hp hc hpi

@[simp] theorem size_siftDown (fuel : ℕ) (xs : Array α) (i : ℕ) : (siftDown lt fuel xs i).size = xs.size := by
  induction fuel generalizing xs i with
  | zero => rfl
  | succ fuel ih =>
    rw [siftDown]
    split
    · rw [ih, Array.size_swapIfInBounds]
    · rfl

theorem siftDown_heapFrom (hlt : StrictWeak lt) (fuel : ℕ) (h : DownOrder lt k xs i) (hk : k ≤ i)
    (hfuel : xs.size ≤ i + fuel) : HeapFrom lt k (siftDown lt fuel xs i) := by
  induction fuel generalizing xs i with
  | zero =>
    show HeapFrom lt k xs
    refine h.heapFrom hlt (ltAt_of_size_le ?_ i)
    have := child_greaterChild lt xs i
    unfold Child at this
    omega
  | succ fuel ih =>
    have hchild := child_greaterChild lt xs i
    rw [siftDown]
    split
    · rename_i hless
      unfold Child at hchild
      refine ih (h.move hlt hk hless) (by omega) ?_
      rw [Array.size_swapIfInBounds]
      omega
    · rename_i hstop
      exact h.heapFrom hlt (Bool.eq_false_iff.mpr hstop)

theorem siftDown_perm (fuel : ℕ) (xs : Array α) (i : ℕ) : (siftDown lt fuel xs i).Perm xs := by
  induction fuel generalizing xs i with
  | zero => exact .refl _
  | succ fuel ih =>
    rw [siftDown]
    split
    · exact (ih _ _).trans (swap_perm _ _)
    · exact .refl _

/-! ## The operations -/

theorem push_perm (xs : Array α) (x : α) : (push lt xs x).Perm (xs.push x) := siftUp_perm _ _ _

theorem isHeap_push (hlt : StrictWeak lt) (h : IsHeap lt xs) (x : α) : IsHeap lt (push lt xs x) := by
  refine siftUp_isHeap hlt _ ⟨fun p c hc hne => ?_, fun g c _ hc => ?_⟩ (Nat.le_refl _)
  · by_cases hsize : c < xs.size
    · have hp : p < xs.size := by
        unfold Child at hc
        omega
      have hold := h p c (Nat.zero_le p) hc
      rw [ltAt_eq hp hsize] at hold
      rw [ltAt_eq (by rw [Array.size_push]; omega) (by rw [Array.size_push]; omega),
        Array.getElem_push_lt hp, Array.getElem_push_lt hsize]
      exact hold
    · refine ltAt_of_size_le ?_ p
      rw [Array.size_push]
      omega
  · refine ltAt_of_size_le ?_ g
    rw [Array.size_push]
    unfold Child at hc
    omega

theorem isHeap_empty : IsHeap lt #[] := fun p c _ _ => ltAt_of_size_le (Nat.zero_le c) p

/-- The last element is put in place of the first one. -/
def unrooted (xs : Array α) : Array α := (xs.swapIfInBounds 0 (xs.size - 1)).pop

theorem size_unrooted (xs : Array α) : (unrooted xs).size = xs.size - 1 := by
  rw [unrooted, Array.size_pop, Array.size_swapIfInBounds]

theorem ltAt_unrooted (hi : 0 < i) (hj : j < xs.size - 1) (hij : i < j) :
    ltAt lt (unrooted xs) i j = ltAt lt xs i j := by
  have hget (k : ℕ) (hk : 0 < k) (hks : k < xs.size - 1) : (unrooted xs)[k]? = xs[k]? := by
    rw [unrooted, Array.getElem?_pop, Array.size_swapIfInBounds, if_pos (by omega),
      getElem?_swap (by omega) (by omega), swapped, if_neg (by omega), if_neg (by omega)]
  rw [ltAt, ltAt, hget i hi (by omega), hget j (by omega) hj]

theorem isHeap_pop (hlt : StrictWeak lt) (h : IsHeap lt xs) : IsHeap lt (pop lt xs) := by
  have hsize := size_unrooted xs
  show IsHeap lt (siftDown lt xs.size (unrooted xs) 0)
  refine siftDown_heapFrom hlt _ ⟨fun p c _ hc hne => ?_, fun g c _ hg => ?_⟩ (Nat.le_refl _)
    (by omega)
  · by_cases hcs : c < xs.size - 1
    · rw [ltAt_unrooted (by omega) hcs (by unfold Child at hc; omega)]
      exact h p c (Nat.zero_le p) hc
    · exact ltAt_of_size_le (by omega) p
  · unfold Child at hg
    omega

theorem pop_perm (hsize : 0 < xs.size) : xs.toList.Perm (xs[0] :: (pop lt xs).toList) := by
  have hsift : (pop lt xs).toList.Perm (unrooted xs).toList := (siftDown_perm _ _ _).toList
  have hlast : (xs.swapIfInBounds 0 (xs.size - 1)).toList = (unrooted xs).toList ++ [xs[0]] := by
    have hpos : (xs.swapIfInBounds 0 (xs.size - 1)).size ≠ 0 := by
      rw [Array.size_swapIfInBounds]
      omega
    obtain ⟨ys, y, hys⟩ := Array.eq_push_of_size_ne_zero hpos
    have hsize' : ys.size = xs.size - 1 := by
      have := congrArg Array.size hys
      rw [Array.size_swapIfInBounds, Array.size_push] at this
      omega
    have hy : (xs.swapIfInBounds 0 (xs.size - 1))[xs.size - 1]? = some y := by
      rw [hys, Array.getElem?_push, hsize', if_pos rfl]
    have hfirst : swapped 0 (xs.size - 1) (xs.size - 1) = 0 := by
      unfold swapped
      split
      · omega
      · rw [if_pos rfl]
    rw [getElem?_swap hsize (by omega), hfirst, Array.getElem?_eq_getElem hsize] at hy
    rw [unrooted, hys, Array.pop_push, Array.toList_push, Option.some.inj hy]
  have hswap : xs.toList.Perm (xs.swapIfInBounds 0 (xs.size - 1)).toList := (swap_perm 0 _).symm.toList
  rw [hlast] at hswap
  exact hswap.trans (List.perm_append_comm.trans (hsift.symm.cons _))

theorem heapify_perm (k : ℕ) (xs : Array α) : (heapify lt k xs).Perm xs := by
  induction k generalizing xs with
  | zero => exact .refl _
  | succ k ih => exact (ih _).trans (siftDown_perm _ _ _)

theorem makeHeap_perm (xs : Array α) : (makeHeap lt xs).Perm xs := heapify_perm _ _

theorem isHeap_makeHeap (hlt : StrictWeak lt) (xs : Array α) : IsHeap lt (makeHeap lt xs) := by
  have hloop (k : ℕ) (xs : Array α) (h : HeapFrom lt k xs) : IsHeap lt (heapify lt k xs) := by
    induction k generalizing xs with
    | zero => exact h
    | succ k ih =>
      refine ih _ (siftDown_heapFrom hlt _ ⟨fun p c hp hc hne => ?_, fun g c hg hk => ?_⟩ (Nat.le_refl _)
        (Nat.le_add_left _ _))
      · exact h p c (by omega) hc
      · unfold Child at hk
        omega
  refine hloop _ _ fun p c hp hc => ltAt_of_size_le ?_ p
  unfold Child at hc
  omega

end Lib.Heap
