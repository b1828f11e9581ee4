import Mathlib.Algebra.BigOperators.Group.List.Basic
import Mathlib.Algebra.Order.Group.Unbundled.Abs
import Mathlib.Data.Int.Order.Basic
import Mathlib.Data.List.DropRight
import Libjingle.Lib.Extreme
import Libjingle.Lib.Ring

/-!
# Rolling statistics

The accumulator of integer samples. The samples live in a ring, the sum is kept by adding what
enters and subtracting what leaves, the extremes are caches. Sums of samples are doubles in the
source and integers here: they are exact as long as they stay below `2 ^ 53`.

Main results: **`tracks_run`**, **`rolling_statistics`**.
-/

namespace Libjingle.Rolling

open Lib

/-! ## The accumulator -/

/-- `RollingAccumulator`: the ring of samples, their sums, and the cached extremes. -/
structure RollingAccumulator where
  samples : ℕ → ℤ
  maxCount : ℕ
  count : ℕ
  nextIndex : ℕ
  sum : ℤ
  sum2 : ℤ
  max : Cached ℤ
  min : Cached ℤ

/-- `sample * sample` is a product of `int`s. -/
def square (sample : ℤ) : ℤ := (sample * sample).bmod (2 ^ 32)

/-- `Reset`. -/
def reset (a : RollingAccumulator) : RollingAccumulator :=
  { a with
    count := 0, nextIndex := 0, sum := 0, sum2 := 0
    max := { value := 0, stale := false }, min := { value := 0, stale := false } }

def init (maxCount : ℕ) : RollingAccumulator :=
  reset
    { samples := fun _ => 0, maxCount := maxCount, count := 0, nextIndex := 0, sum := 0, sum2 := 0
      max := { value := 0, stale := false }, min := { value := 0, stale := false } }

/-- The first half of `AddSample`: room for a sample. -/
def makeRoom (a : RollingAccumulator) : RollingAccumulator :=
  if a.count = a.maxCount then
    let sampleToRemove := a.samples a.nextIndex
    { a with
      sum := a.sum - sampleToRemove
      sum2 := a.sum2 - square sampleToRemove
      max := a.max.evict (· ≥ ·) sampleToRemove
      min := a.min.evict (· ≤ ·) sampleToRemove }
  else
    { a with count := a.count + 1 }

/-- The second half of `AddSample`. -/
def store (a : RollingAccumulator) (sample : ℤ) : RollingAccumulator :=
  { a with
    samples := Function.update a.samples a.nextIndex sample
    sum := a.sum + sample
    sum2 := a.sum2 + square sample
    max := a.max.push (· ≥ ·) (a.count == 1) sample
    min := a.min.push (· ≤ ·) (a.count == 1) sample
    nextIndex := (a.nextIndex + 1) % a.maxCount }

def addSample (a : RollingAccumulator) (sample : ℤ) : RollingAccumulator := store (makeRoom a) sample

/-- The sum as an `int`; undefined out of range. -/
def computeSum (a : RollingAccumulator) : Option ℤ :=
  if -2 ^ 31 ≤ a.sum ∧ a.sum < 2 ^ 31 then some a.sum else none

/-- The samples that the loops of the queries visit. -/
def others (a : RollingAccumulator) : List ℤ :=
  ringBlock a.samples a.maxCount (a.nextIndex + 1) (a.count - 1)

def computeMax (a : RollingAccumulator) : ℤ × RollingAccumulator :=
  let max := a.max.refresh (· ≥ ·) (a.samples a.nextIndex) (others a)
  (max.value, { a with max := max })

def computeMin (a : RollingAccumulator) : ℤ × RollingAccumulator :=
  let min := a.min.refresh (· ≤ ·) (a.samples a.nextIndex) (others a)
  (min.value, { a with min := min })

/-! ## Runs -/

/-- The member functions that a client calls. -/
inductive Call
  | addSample (sample : ℤ)
  | computeMax
  | computeMin
  | computeSum
  | reset
deriving DecidableEq

def Call.apply (a : RollingAccumulator) : Call → RollingAccumulator
  | addSample sample => Rolling.addSample a sample
  | computeMax => (Rolling.computeMax a).2
  | computeMin => (Rolling.computeMin a).2
  | computeSum => a
  | reset => Rolling.reset a

def run (a : RollingAccumulator) (calls : List Call) : RollingAccumulator := calls.foldl Call.apply a

def Call.samples (since : List ℤ) : Call → List ℤ
  | addSample sample => since ++ [sample]
  | reset => []
  | _ => since

def samplesSinceReset (calls : List Call) : List ℤ := calls.foldl Call.samples []

example : (computeMax (run (init 2) [.addSample 7, .addSample 3, .addSample 5])).1 = 5 := by decide

/-! ## The invariant -/

/-- The accumulator holds the end of `since`. A stale extreme is one of a full window. -/
structure Tracks (a : RollingAccumulator) (since : List ℤ) : Prop where
  pos : 0 < a.maxCount
  count : a.count = min since.length a.maxCount
  nextIndex : a.nextIndex = since.length % a.maxCount
  held : ringBlock a.samples a.maxCount (since.length - a.count) a.count = since.rtake a.count
  sum : a.sum = (since.rtake a.count).sum
  max : a.max.Covers (· ≥ ·) (since.rtake a.count)
  min : a.min.Covers (· ≤ ·) (since.rtake a.count)
  stale : a.max.stale = true ∨ a.min.stale = true → a.count = a.maxCount

theorem tracks_reset (a : RollingAccumulator) (hpos : 0 < a.maxCount) : Tracks (reset a) [] := by
  refine ⟨hpos, (Nat.zero_min _).symm, (Nat.zero_mod _).symm, ?_, rfl, ?_, ?_, ?_⟩
  · rw [List.rtake_nil]
    rfl
  · rw [List.rtake_nil]
    exact ⟨fun _ hy => absurd hy List.not_mem_nil, fun _ hne => absurd rfl hne⟩
  · rw [List.rtake_nil]
    exact ⟨fun _ hy => absurd hy List.not_mem_nil, fun _ hne => absurd rfl hne⟩
  · rintro (h | h) <;> exact absurd h Bool.false_ne_true

/-! ## Samples -/

/-- Between the halves of `AddSample`: a cell is free behind all samples but the oldest. -/
structure Roomy (a : RollingAccumulator) (since : List ℤ) : Prop where
  pos : 0 < a.count
  count : a.count = min (since.length + 1) a.maxCount
  nextIndex : a.nextIndex = since.length % a.maxCount
  held : ringBlock a.samples a.maxCount (since.length + 1 - a.count) (a.count - 1) =
    since.rtake (a.count - 1)
  sum : a.sum = (since.rtake (a.count - 1)).sum
  max : a.max.Covers (· ≥ ·) (since.rtake (a.count - 1))
  min : a.min.Covers (· ≤ ·) (since.rtake (a.count - 1))
  stale : a.max.stale = true ∨ a.min.stale = true → a.count = a.maxCount

variable {a : RollingAccumulator} {since : List ℤ}

theorem Tracks.nextIndex_full (h : Tracks a since) (hfull : a.count = a.maxCount) :
    a.nextIndex = (since.length - a.count) % a.maxCount := by
  have hcount := h.count
  rw [h.nextIndex, hfull, Nat.mod_eq_sub_mod (by omega)]

theorem Tracks.others_full (h : Tracks a since) (hfull : a.count = a.maxCount) :
    others a = ringBlock a.samples a.maxCount (since.length + 1 - a.count) (a.count - 1) := by
  have hcount := h.count
  have hstart : since.length + 1 - a.count = since.length - a.count + 1 := by omega
  rw [others, h.nextIndex_full hfull, hstart, ← ringBlock_mod, Nat.mod_add_mod, ringBlock_mod]

theorem Tracks.window_full (h : Tracks a since) (hfull : a.count = a.maxCount) :
    since.rtake a.count = a.samples a.nextIndex :: others a := by
  have hpos := h.pos
  have hcount := h.count
  obtain ⟨n, hn⟩ : ∃ n, a.count = n + 1 := ⟨a.count - 1, by omega⟩
  have hstart : since.length + 1 - a.count = since.length - a.count + 1 := by omega
  calc since.rtake a.count
      = ringBlock a.samples a.maxCount (since.length - a.count) (n + 1) := by rw [← h.held, hn]
    _ = a.samples a.nextIndex :: ringBlock a.samples a.maxCount (since.length - a.count + 1) n := by
      rw [ringBlock_succ, ← h.nextIndex_full hfull]
    _ = a.samples a.nextIndex :: others a := by
      rw [h.others_full hfull, hstart, hn, Nat.add_sub_cancel]

theorem Tracks.others_eq (h : Tracks a since) (hfull : a.count = a.maxCount) :
    others a = since.rtake (a.count - 1) := by
  have hpos := h.pos
  have hcount := h.count
  have htail := congrArg List.tail (h.window_full hfull)
  rw [List.tail_cons] at htail
  rw [← htail, List.rtake, List.rtake, List.tail_drop]
  congr 1
  omega

theorem roomy_makeRoom (h : Tracks a since) : Roomy (makeRoom a) since := by
  have hpos := h.pos
  have hcount := h.count
  unfold makeRoom
  by_cases hfull : a.count = a.maxCount
  · rw [if_pos hfull]
    have hwindow := h.window_full hfull
    rw [h.others_eq hfull] at hwindow
    have hkept : a.count = min (since.length + 1) a.maxCount := by omega
    refine ⟨by show 0 < a.count; omega, hkept, h.nextIndex, ?_, ?_, ?_, ?_, fun _ => hfull⟩
    · exact (h.others_full hfull).symm.trans (h.others_eq hfull)
    · show a.sum - a.samples a.nextIndex = _
      rw [h.sum, hwindow, List.sum_cons]
      exact add_sub_cancel_left _ _
    · exact (hwindow ▸ h.max).evict
    · exact (hwindow ▸ h.min).evict
  · rw [if_neg hfull]
    refine ⟨Nat.succ_pos _, ?_, h.nextIndex, ?_, ?_, ?_, ?_, fun hs => absurd (h.stale hs) hfull⟩
    · show a.count + 1 = min (since.length + 1) a.maxCount
      omega
    · show ringBlock a.samples a.maxCount (since.length + 1 - (a.count + 1)) (a.count + 1 - 1) = _
      rw [Nat.add_sub_cancel, Nat.add_sub_add_right]
      exact h.held
    · exact h.sum
    · exact h.max
    · exact h.min

theorem tracks_store (h : Roomy a since) (sample : ℤ) : Tracks (store a sample) (since ++ [sample]) := by
  have hpos := h.pos
  have hcount := h.count
  obtain ⟨n, hn⟩ : ∃ n, a.count = n + 1 := ⟨a.count - 1, by omega⟩
  have hwindow : (since ++ [sample]).rtake a.count = since.rtake (a.count - 1) ++ [sample] := by
    rw [hn, List.rtake_concat_succ, Nat.add_sub_cancel]
  have halone : (a.count == 1) = true ↔ since.rtake (a.count - 1) = [] := by
    rw [beq_iff_eq, List.rtake, List.drop_eq_nil_iff]
    omega
  have hlength : (since ++ [sample]).length = since.length + 1 := by
    rw [List.length_append, List.length_singleton]
  refine ⟨by show 0 < a.maxCount; omega, ?_, ?_, ?_, ?_, ?_, ?_, ?_⟩
  · rw [hlength]
    exact hcount
  · show (a.nextIndex + 1) % a.maxCount = (since ++ [sample]).length % a.maxCount
    rw [hlength, h.nextIndex, Nat.mod_add_mod]
  · show ringBlock (Function.update a.samples a.nextIndex sample) a.maxCount
        ((since ++ [sample]).length - a.count) a.count = (since ++ [sample]).rtake a.count
    have hcell : a.nextIndex = (since.length + 1 - a.count + n) % a.maxCount := by
      rw [h.nextIndex]
      congr 1
      omega
    have hheld := h.held
    rw [hlength, hwindow, hcell, hn]
    rw [hn, Nat.add_sub_cancel] at hheld
    rw [Nat.add_sub_cancel, ringBlock_update _ (by omega), ← hheld]
  · show a.sum + sample = ((since ++ [sample]).rtake a.count).sum
    rw [hwindow, List.sum_append, List.sum_singleton, h.sum]
  · exact hwindow ▸ h.max.push _ halone
  · exact hwindow ▸ h.min.push _ halone
  · have hmax : (store a sample).max.stale = true → a.max.stale = true := Cached.stale_of_push
    have hmin : (store a sample).min.stale = true → a.min.stale = true := Cached.stale_of_push
    exact fun hs => h.stale (hs.imp hmax hmin)

/-! ## Queries -/

theorem Tracks.computeMax (h : Tracks a since) :
    Tracks (computeMax a).2 since ∧ (computeMax a).2.max.stale = false := by
  obtain ⟨hmax, hfresh⟩ := h.max.refresh fun hs => h.window_full (h.stale (Or.inl hs))
  refine ⟨{ h with max := hmax, stale := fun hs => h.stale ?_ }, hfresh⟩
  exact Or.inr (hs.resolve_left (Bool.eq_false_iff.mp hfresh))

theorem Tracks.computeMin (h : Tracks a since) :
    Tracks (computeMin a).2 since ∧ (computeMin a).2.min.stale = false := by
  obtain ⟨hmin, hfresh⟩ := h.min.refresh fun hs => h.window_full (h.stale (Or.inr hs))
  refine ⟨{ h with min := hmin, stale := fun hs => h.stale ?_ }, hfresh⟩
  exact Or.inl (hs.resolve_right (Bool.eq_false_iff.mp hfresh))

/-! ## Runs -/

theorem tracks_apply (h : Tracks a since) : ∀ call : Call, Tracks (call.apply a) (call.samples since)
  | .addSample sample => tracks_store (roomy_makeRoom h) sample
  | .computeMax => h.computeMax.1
  | .computeMin => h.computeMin.1
  | .computeSum => h
  | .reset => tracks_reset a h.pos

theorem tracks_foldl (calls : List Call) : ∀ {a : RollingAccumulator} {since : List ℤ},
    Tracks a since → Tracks (run a calls) (calls.foldl Call.samples since) := by
  induction calls with
  | nil => exact fun h => h
  | cons call calls ih => exact fun h => ih (tracks_apply h call)

/-- **The accumulator tracks the last samples in every run**. -/
theorem tracks_run (maxCount : ℕ) (hpos : 1 ≤ maxCount) (calls : List Call) :
    Tracks (run (init maxCount) calls) (samplesSinceReset calls) :=
  tracks_foldl calls (tracks_reset _ hpos)

theorem maxCount_run (calls : List Call) : ∀ a, (run a calls).maxCount = a.maxCount := by
  induction calls with
  | nil => exact fun _ => rfl
  | cons call calls ih =>
    intro a
    refine (ih (call.apply a)).trans ?_
    cases call with
    | addSample sample =>
      show (makeRoom a).maxCount = a.maxCount
      unfold makeRoom
      split_ifs <;> rfl
    | _ => rfl

theorem mem_samplesSinceReset {calls : List Call} {x : ℤ} (h : x ∈ samplesSinceReset calls) :
    .addSample x ∈ calls := by
  induction calls using List.reverseRecOn with
  | nil => exact absurd h List.not_mem_nil
  | append_singleton calls call ih =>
    rw [samplesSinceReset, List.foldl_append, List.foldl_cons, List.foldl_nil] at h
    cases call with
    | addSample sample =>
      rcases List.mem_append.mp h with h | h
      · exact List.mem_append_left _ (ih h)
      · rw [List.mem_singleton.mp h]
        exact List.mem_append_right _ List.mem_cons_self
    | reset => exact absurd h List.not_mem_nil
    | _ => exact List.mem_append_left _ (ih h)

/-! ## The statistics -/

theorem abs_sum_le {w : List ℤ} {bound : ℤ} (h : ∀ x ∈ w, |x| ≤ bound) : |w.sum| ≤ w.length * bound := by
  induction w with
  | nil => rw [List.sum_nil, abs_zero, List.length_nil, Nat.cast_zero, zero_mul]
  | cons x w ih =>
    rw [List.sum_cons, List.length_cons, Nat.cast_succ, add_mul, one_mul, add_comm]
    have hrest := ih fun y hy => h y (List.mem_cons_of_mem _ hy)
    exact (abs_add_le _ _).trans (add_le_add hrest (h x List.mem_cons_self))

theorem computeSum_eq (h : Tracks a since) : computeSum a =
    if -2 ^ 31 ≤ (since.rtake a.count).sum ∧ (since.rtake a.count).sum < 2 ^ 31
      then some (since.rtake a.count).sum else none := by
  rw [computeSum, h.sum]

theorem length_window (h : Tracks a since) : (since.rtake a.count).length = a.count := by
  have hcount := h.count
  rw [List.rtake, List.length_drop]
  omega

/-- **The statistics are those of the last samples**, and the sum is exact. -/
theorem rolling_statistics (maxCount : ℕ) (hpos : 1 ≤ maxCount) (calls : List Call)
    (hsamples : ∀ x, .addSample x ∈ calls → |x| < 2 ^ 20) :
    let a := run (init maxCount) calls
    let since := samplesSinceReset calls
    let window := since.rtake a.count
    a.count = min since.length maxCount ∧ window.length = a.count ∧
      (0 < a.count → Extreme (· ≥ ·) window (computeMax a).1 ∧
        Extreme (· ≤ ·) window (computeMin a).1) ∧
      (a.sum = window.sum ∧ |a.sum| ≤ a.count * 2 ^ 20) ∧
      computeSum a = if -2 ^ 31 ≤ window.sum ∧ window.sum < 2 ^ 31 then some window.sum else none := by
  intro a since window
  have h : Tracks a since := tracks_run maxCount hpos calls
  have hlength : window.length = a.count := length_window h
  have hcapacity : a.maxCount = maxCount := maxCount_run calls (init maxCount)
  refine ⟨hcapacity ▸ h.count, hlength, fun hcount => ?_, ⟨h.sum, ?_⟩, computeSum_eq h⟩
  · have hne : window ≠ [] := List.ne_nil_of_length_pos (hlength ▸ hcount)
    exact ⟨h.computeMax.1.max.extreme hne h.computeMax.2, h.computeMin.1.min.extreme hne h.computeMin.2⟩
  · have hbound : ∀ x ∈ window, |x| ≤ 2 ^ 20 := fun x hx =>
      le_of_lt (hsamples x (mem_samplesSinceReset (List.mem_of_mem_drop hx)))
    calc |a.sum| = |window.sum| := congrArg _ h.sum
      _ ≤ window.length * 2 ^ 20 := abs_sum_le hbound
      _ = a.count * 2 ^ 20 := by rw [hlength]

theorem rolling_statistics_four :
    let a := run (init 2) [.addSample 7, .computeMax, .addSample (-3), .addSample 5]
    a.count = 2 ∧ (computeMax a).1 = 5 ∧ (computeMin a).1 = -3 ∧ computeSum a = some 2 ∧
      Extreme (· ≥ ·) [-3, 5] (computeMax a).1 := by
  refine ⟨by decide, by decide, by decide, by decide, ?_⟩
  have hsamples : ∀ x, Call.addSample x ∈ [Call.addSample 7, .computeMax, .addSample (-3), .addSample 5] →
      |x| < 2 ^ 20 := by
    intro x hx
    simp only [List.mem_cons, Call.addSample.injEq, List.not_mem_nil, or_false, reduceCtorEq,
      false_or] at hx
    rcases hx with rfl | rfl | rfl <;> decide
  exact ((rolling_statistics 2 (by decide) _ hsamples).2.2.1 (by decide)).1

/-- The sum of 2049 large samples is no `int`. -/
theorem sum_out_of_range :
    let calls := List.replicate 2049 (Call.addSample (2 ^ 20 - 1))
    (∀ x, .addSample x ∈ calls → |x| < 2 ^ 20) ∧
      samplesSinceReset calls = List.replicate 2049 (2 ^ 20 - 1) ∧
      computeSum (run (init 2049) calls) ≠ some (List.replicate 2049 (2 ^ 20 - 1)).sum := by
  intro calls
  have hadd : ∀ n (x : ℤ), samplesSinceReset (List.replicate n (.addSample x)) = List.replicate n x := by
    intro n x
    induction n with
    | zero => rfl
    | succ n ih =>
      rw [List.replicate_succ', samplesSinceReset, List.foldl_append, List.replicate_succ', ← ih]
      rfl
  have hsince : samplesSinceReset calls = List.replicate 2049 (2 ^ 20 - 1) := hadd 2049 _
  have h : Tracks (run (init 2049) calls) (samplesSinceReset calls) :=
    tracks_run 2049 (by decide) calls
  have hcount : (run (init 2049) calls).count = 2049 := by
    rw [h.count, hsince, List.length_replicate, show (run (init 2049) calls).maxCount = 2049 from
      maxCount_run calls (init 2049)]
    exact Nat.min_self 2049
  have hwindow : (samplesSinceReset calls).rtake 2049 = List.replicate 2049 (2 ^ 20 - 1) := by
    rw [hsince, List.rtake, List.length_replicate, Nat.sub_self, List.drop_zero]
  have hsum : (List.replicate 2049 (2 ^ 20 - 1 : ℤ)).sum = 2148530175 := by
    rw [List.sum_replicate]
    rfl
  refine ⟨fun x hx => ?_, hsince, ?_⟩
  · obtain ⟨-, heq⟩ := List.mem_replicate.mp hx
    cases heq
    decide
  · rw [computeSum_eq h, hcount, hwindow, hsum, if_neg (by decide)]
    exact (Option.some_ne_none _).symm

end Libjingle.Rolling
