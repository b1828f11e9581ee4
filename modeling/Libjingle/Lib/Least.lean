import Mathlib.Data.List.Infix
import Mathlib.Order.Lattice

/-!
# The first of the least

Main results: **`FirstLeast.of_least`**, **`FirstLeast.least`**.
-/

namespace Lib

variable {ι α : Type} [LinearOrder α] {f : ι → α} {l : List ι} {m : α} {b : ι}

def least (f : ι → α) (l : List ι) (m : α) : Option ι × α :=
  l.foldl (fun o c => if f c < o.2 then (some c, f c) else o) (none, m)

@[simp] theorem least_nil (f : ι → α) (m : α) : least f [] m = (none, m) := rfl

theorem least_append_singleton (f : ι → α) (l : List ι) (m : α) (c : ι) :
    least f (l ++ [c]) m = if f c < (least f l m).2 then (some c, f c) else least f l m := by
  rw [least, List.foldl_append]
  rfl

theorem least_congr {g : ι → α} (h : ∀ c ∈ l, f c = g c) : least f l m = least g l m := by
  unfold least
  refine List.foldl_ext _ _ _ fun o c hc => ?_
  rw [h c hc]

/-- The element is the first with the least value. -/
def FirstLeast (f : ι → α) (l : List ι) (b : ι) : Prop :=
  ∃ pre post, l = pre ++ b :: post ∧ (∀ c ∈ pre, f b < f c) ∧ ∀ c ∈ post, f b ≤ f c

theorem FirstLeast.mem (h : FirstLeast f l b) : b ∈ l := by
  obtain ⟨pre, post, rfl, -, -⟩ := h
  exact List.mem_append_right _ List.mem_cons_self

theorem FirstLeast.le (h : FirstLeast f l b) {c : ι} (hc : c ∈ l) : f b ≤ f c := by
  obtain ⟨pre, post, rfl, hpre, hpost⟩ := h
  rcases List.mem_append.mp hc with hc | hc
  · exact (hpre c hc).le
  · rcases List.mem_cons.mp hc with rfl | hc
    · exact le_rfl
    · exact hpost c hc

theorem FirstLeast.congr {β : Type} [LinearOrder β] {g : ι → β} (h : FirstLeast f l b)
    (hlt : ∀ c ∈ l, f b < f c → g b < g c) (hle : ∀ c ∈ l, f b ≤ f c → g b ≤ g c) :
    FirstLeast g l b := by
  obtain ⟨pre, post, rfl, hpre, hpost⟩ := h
  refine ⟨pre, post, rfl, fun c hc => hlt c ?_ (hpre c hc), fun c hc => hle c ?_ (hpost c hc)⟩
  · exact List.mem_append_left _ hc
  · exact List.mem_append_right _ (List.mem_cons_of_mem _ hc)

theorem least_cases (f : ι → α) (l : List ι) (m : α) :
    (least f l m = (none, m) ∧ ∀ c ∈ l, m ≤ f c) ∨
      ∃ b, least f l m = (some b, f b) ∧ f b < m ∧ FirstLeast f l b := by
  induction l using List.reverseRecOn with
  | nil => exact .inl ⟨rfl, nofun⟩
  | append_singleton l c ih =>
    rw [least_append_singleton]
    rcases ih with ⟨hnone, hall⟩ | ⟨b, hsome, hb, hfirst⟩
    · rw [hnone]
      by_cases hc : f c < m
      · refine .inr ⟨c, if_pos hc, hc, l, [], rfl, fun d hd => hc.trans_le (hall d hd), nofun⟩
      · refine .inl ⟨if_neg hc, fun d hd => ?_⟩
        rcases List.mem_append.mp hd with hd | hd
        · exact hall d hd
        · rw [List.mem_singleton.mp hd]
          exact not_lt.mp hc
    · rw [hsome]
      by_cases hc : f c < f b
      · refine .inr ⟨c, if_pos hc, hc.trans hb, l, [], rfl, fun d hd => ?_, nofun⟩
        exact hc.trans_le (hfirst.le hd)
      · obtain ⟨pre, post, rfl, hpre, hpost⟩ := hfirst
        refine .inr ⟨b, if_neg hc, hb, pre, post ++ [c], by simp, hpre, fun d hd => ?_⟩
        rcases List.mem_append.mp hd with hd | hd
        · exact hpost d hd
        · rw [List.mem_singleton.mp hd]
          exact not_lt.mp hc

theorem FirstLeast.of_least (h : (least f l m).1 = some b) : f b < m ∧ FirstLeast f l b := by
  rcases least_cases f l m with ⟨hnone, -⟩ | ⟨b', hsome, hb⟩
  · rw [hnone] at h
    cases h
  · rw [hsome] at h
    cases h
    exact hb

theorem FirstLeast.eq {b' : ι} (h : FirstLeast f l b) (h' : FirstLeast f l b') : b = b' := by
  have heq : f b = f b' := le_antisymm (h.le h'.mem) (h'.le h.mem)
  obtain ⟨pre, post, rfl, hpre, -⟩ := h
  obtain ⟨pre', post', hsplit, hpre', -⟩ := h'
  rcases List.append_eq_append_iff.mp hsplit with ⟨mid, rfl, hmid⟩ | ⟨mid, rfl, hmid⟩
  · cases mid with
    | nil => exact (List.cons.inj hmid).1
    | cons d mid =>
      obtain rfl := (List.cons.inj hmid).1
      have hlt := hpre' b (List.mem_append_right _ List.mem_cons_self)
      exact absurd hlt (heq ▸ lt_irrefl _)
  · cases mid with
    | nil => exact ((List.cons.inj hmid).1).symm
    | cons d mid =>
      obtain rfl := (List.cons.inj hmid).1
      have hlt := hpre b' (List.mem_append_right _ List.mem_cons_self)
      exact absurd hlt (heq ▸ lt_irrefl _)

/-- **The search finds the first of the least**. -/
theorem FirstLeast.least (h : FirstLeast f l b) (hb : f b < m) : (least f l m).1 = some b := by
  rcases least_cases f l m with ⟨-, hall⟩ | ⟨b', hsome, -, hb'⟩
  · exact absurd hb (not_lt.mpr (hall b h.mem))
  · rw [hsome, hb'.eq h]

end Lib
