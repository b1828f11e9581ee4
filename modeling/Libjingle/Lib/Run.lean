import Mathlib.Tactic.Common
import Mathlib.Data.List.Basic
import Mathlib.Data.List.Induction

/-!
# Runs of a step function

A system is a step function `σ → ω → σ`; a run is a list of inputs. `Guarded` says that every
step of a run meets a condition on the state before the step and the input.

Main results: **`run_invariant`**, **`guarded_iff_invariant_of`**, **`guarded_iff_property`**,
**`guarded_iff_after`**, **`guarded_congr`**, **`forward_simulation`**, **`lawful_append`**,
**`Lawful.pairwise`**, **`Lawful.count_le`**.
-/

namespace Lib

variable {σ ω : Type} (step : σ → ω → σ) (G : σ → ω → Prop)

/-- The state after some inputs. -/
def run (s : σ) (ops : List ω) : σ := ops.foldl step s

/-- Every step of the run meets `G`. -/
def Guarded : σ → List ω → Prop
  | _, [] => True
  | s, op :: ops => G s op ∧ Guarded (step s op) ops

instance Guarded.decidable [∀ s op, Decidable (G s op)] :
    ∀ (s : σ) (ops : List ω), Decidable (Guarded step G s ops)
  | _, [] => isTrue trivial
  | s, op :: ops =>
    have := Guarded.decidable (step s op) ops
    inferInstanceAs (Decidable (G s op ∧ Guarded step G (step s op) ops))

@[simp] theorem run_nil (s : σ) : run step s [] = s := rfl

@[simp] theorem run_cons (s : σ) (op : ω) (ops : List ω) : run step s (op :: ops) = run step (step s op) ops := rfl

theorem run_append (s : σ) (xs ys : List ω) :
    run step s (xs ++ ys) = run step (run step s xs) ys := List.foldl_append

variable {step G}

theorem guarded_append {s : σ} {xs ys : List ω} :
    Guarded step G s (xs ++ ys) ↔ Guarded step G s xs ∧ Guarded step G (run step s xs) ys := by
  induction xs generalizing s with
  | nil => simp [Guarded]
  | cons op xs ih => simp [Guarded, ih, and_assoc]

theorem guarded_of_forall {G : ω → Prop} {ops : List ω} (h : ∀ op ∈ ops, G op) (s : σ) :
    Guarded step (fun _ => G) s ops := by
  induction ops generalizing s with
  | nil => trivial
  | cons op ops ih =>
    exact ⟨h op List.mem_cons_self, ih (fun op' h' => h op' (List.mem_cons_of_mem _ h')) _⟩

theorem guarded_true (s : σ) (ops : List ω) : Guarded step (fun _ _ => True) s ops :=
  guarded_of_forall (fun _ _ => trivial) s

theorem guarded_and {G' : σ → ω → Prop} {s : σ} {ops : List ω} :
    Guarded step (fun s op => G s op ∧ G' s op) s ops ↔
      Guarded step G s ops ∧ Guarded step G' s ops := by
  induction ops generalizing s with
  | nil => simp [Guarded]
  | cons op ops ih =>
    simp only [Guarded, ih]
    tauto

/-- **What every step keeps, a run keeps**. -/
theorem run_invariant {I : σ → Prop} (hstep : ∀ s op, I s → G s op → I (step s op)) {s : σ}
    (hs : I s) {ops : List ω} (hG : Guarded step G s ops) : I (run step s ops) := by
  induction ops generalizing s with
  | nil => exact hs
  | cons op ops ih => exact ih (hstep s op hs hG.1) hG.2

/-- What no step changes, no run does. -/
theorem run_keeps {τ : Type} (π : σ → τ) (h : ∀ s op, π (step s op) = π s) (s : σ) (ops : List ω) :
    π (run step s ops) = π s :=
  run_invariant (I := fun s' => π s' = π s) (fun s' op hs' _ => (h s' op).trans hs') rfl
    (guarded_true s ops)

/-- Where a run is cut, the invariant and the guard of the next step hold. -/
theorem guarded_split {I : σ → Prop} (hstep : ∀ s op, I s → G s op → I (step s op)) {s : σ}
    (hs : I s) {pre post : List ω} {op : ω} (hG : Guarded step G s (pre ++ op :: post)) :
    I (run step s pre) ∧ G (run step s pre) op := by
  obtain ⟨hpre, hop, -⟩ := guarded_append.mp hG
  exact ⟨run_invariant hstep hs hpre, hop⟩

/-- The same, among runs whose steps are admissible. -/
theorem guarded_iff_invariant_of {A : σ → ω → Prop} {I : σ → Prop}
    (hstep : ∀ s op, I s → A s op → (I (step s op) ↔ G s op)) {s : σ} {ops : List ω}
    (hA : Guarded step A s ops) :
    (∀ pre, pre <+: ops → I (run step s pre)) ↔ I s ∧ Guarded step G s ops := by
  constructor
  · intro h
    refine ⟨h [] List.nil_prefix, ?_⟩
    induction ops generalizing s with
    | nil => trivial
    | cons op ops ih =>
      have hfirst : I (step s op) := h [op] ⟨ops, rfl⟩
      refine ⟨(hstep s op (h [] List.nil_prefix) hA.1).mp hfirst, ih hA.2 fun pre hpre => ?_⟩
      exact h (op :: pre) (List.cons_prefix_cons.mpr ⟨rfl, hpre⟩)
  · rintro ⟨hs, hG⟩ pre ⟨post, rfl⟩
    exact run_invariant (fun s op hs hop => (hstep s op hs hop.1).mpr hop.2) hs
      (guarded_append.mp (guarded_and.mpr ⟨hA, hG⟩)).1

/-- **An invariant holds throughout a run exactly if every step meets the guard**. -/
theorem guarded_iff_invariant {I : σ → Prop} (hstep : ∀ s op, I s → (I (step s op) ↔ G s op)) (s : σ) (ops : List ω) :
    (∀ pre, pre <+: ops → I (run step s pre)) ↔ I s ∧ Guarded step G s ops :=
  guarded_iff_invariant_of (fun s op hs _ => hstep s op hs) (guarded_true s ops)

/-- **A property holds throughout a run exactly if every step meets the guard**. -/
theorem guarded_iff_property {I P : σ → Prop} (hP : ∀ s, I s → P s)
    (hkeep : ∀ s op, I s → G s op → I (step s op)) (hneed : ∀ s op, I s → P (step s op) → G s op)
    {s : σ} (hs : I s) {ops : List ω} :
    (∀ pre, pre <+: ops → P (run step s pre)) ↔ Guarded step G s ops := by
  constructor
  · intro h
    induction ops generalizing s with
    | nil => trivial
    | cons op ops ih =>
      have hop : G s op := hneed s op hs (h [op] ⟨ops, rfl⟩)
      refine ⟨hop, ih (hkeep s op hs hop) fun pre hpre => ?_⟩
      exact h (op :: pre) (List.cons_prefix_cons.mpr ⟨rfl, hpre⟩)
  · rintro hG pre ⟨post, rfl⟩
    exact hP _ (run_invariant hkeep hs (guarded_append.mp hG).1)

/-- The same for a property that only holds after steps. -/
theorem guarded_iff_after {I P : σ → Prop} (hkeep : ∀ s op, I s → G s op → I (step s op))
    (hP : ∀ s op, I s → G s op → P (step s op)) (hneed : ∀ s op, I s → P (step s op) → G s op)
    {s : σ} (hs : I s) {ops : List ω} :
    (∀ pre op, pre ++ [op] <+: ops → P (run step s (pre ++ [op]))) ↔ Guarded step G s ops := by
  constructor
  · intro h
    induction ops generalizing s with
    | nil => trivial
    | cons op ops ih =>
      have hop : G s op := hneed s op hs (h [] op ⟨ops, rfl⟩)
      refine ⟨hop, ih (hkeep s op hs hop) fun pre op' hpre => ?_⟩
      exact h (op :: pre) op' (List.cons_prefix_cons.mpr ⟨rfl, hpre⟩)
  · rintro hG pre op ⟨post, rfl⟩
    rw [List.append_assoc] at hG
    obtain ⟨hpre, hop⟩ := guarded_split hkeep hs hG
    rw [run_append]
    exact hP _ op hpre hop

/-- Two guards that agree under the invariant guard the same runs. -/
theorem guarded_congr {I : σ → Prop} {G' : σ → ω → Prop} (hiff : ∀ s op, I s → (G s op ↔ G' s op))
    (hstep : ∀ s op, I s → G s op → I (step s op)) {s : σ} (hs : I s) {ops : List ω} :
    Guarded step G s ops ↔ Guarded step G' s ops := by
  induction ops generalizing s with
  | nil => exact Iff.rfl
  | cons op ops ih =>
    constructor
    · rintro ⟨hop, hrest⟩
      exact ⟨(hiff s op hs).mp hop, (ih (hstep s op hs hop)).mp hrest⟩
    · rintro ⟨hop, hrest⟩
      have hop' := (hiff s op hs).mpr hop
      exact ⟨hop', (ih (hstep s op hs hop')).mpr hrest⟩

/-! ## Observed runs and simulation -/

section Simulation

variable {τ ο : Type} (ostep : σ → ω → ο × σ) (spec : τ → ω → ο → τ → Prop)

/-- The inputs of a run, with the outputs. -/
def observe : σ → List ω → List (ω × ο)
  | _, [] => []
  | s, op :: ops => (op, (ostep s op).1) :: observe (ostep s op).2 ops

/-- The traces of a specification of state, input, output and next state. -/
inductive SpecTrace : τ → List (ω × ο) → τ → Prop where
  | nil (q : τ) : SpecTrace q [] q
  | cons {q q₁ q₂ : τ} {op : ω} {out : ο} {tr : List (ω × ο)} :
      spec q op out q₁ → SpecTrace q₁ tr q₂ → SpecTrace q ((op, out) :: tr) q₂

variable {ostep spec}

/-- **Forward simulation**: what a run shows is a trace of the specification. -/
theorem forward_simulation {R : σ → τ → Prop} (hstep : ∀ s q op, R s q → G s op →
      ∃ q', spec q op (ostep s op).1 q' ∧ R (ostep s op).2 q') {s : σ} {q : τ} (hR : R s q)
    {ops : List ω} (hG : Guarded (fun s op => (ostep s op).2) G s ops) :
    ∃ q', SpecTrace spec q (observe ostep s ops) q' ∧
      R (run (fun s op => (ostep s op).2) s ops) q' := by
  induction ops generalizing s q with
  | nil => exact ⟨q, .nil q, hR⟩
  | cons op ops ih =>
    obtain ⟨q₁, hspec, hR₁⟩ := hstep s q op hR hG.1
    obtain ⟨q₂, htr, hR₂⟩ := ih hR₁ hG.2
    exact ⟨q₂, .cons hspec htr, hR₂⟩

end Simulation

/-! ## Records -/

section Record

variable {α : Type} {allowed : List α → α → Prop}

/-- Each entry of a record is allowed after those before it. -/
def Lawful (allowed : List α → α → Prop) (record : List α) : Prop :=
  ∀ pre e post, record = pre ++ e :: post → allowed pre e

theorem lawful_nil : Lawful allowed [] := fun pre e post h => by
  cases pre <;> cases h

theorem lawful_append_singleton {record : List α} {e : α} :
    Lawful allowed (record ++ [e]) ↔ Lawful allowed record ∧ allowed record e := by
  constructor
  · intro h
    refine ⟨fun pre e' post hsplit => h pre e' (post ++ [e]) ?_, h record e [] rfl⟩
    rw [hsplit, List.append_assoc, List.cons_append]
  · rintro ⟨h, he⟩ pre e' post hsplit
    rcases List.eq_nil_or_concat post with rfl | ⟨post, last, rfl⟩
    · obtain ⟨rfl, hlast⟩ := List.append_inj' hsplit rfl
      obtain rfl := List.singleton_inj.mp hlast
      exact he
    · rw [List.concat_eq_append, ← List.cons_append, ← List.append_assoc] at hsplit
      exact h pre e' post (List.append_inj' hsplit rfl).1

theorem lawful_append {record entries : List α} (h : Lawful allowed record)
    (hentries : ∀ e ∈ entries, ∀ pre, allowed pre e) : Lawful allowed (record ++ entries) := by
  induction entries generalizing record with
  | nil => rwa [List.append_nil]
  | cons e entries ih =>
    rw [List.append_cons]
    exact ih (lawful_append_singleton.mpr ⟨h, hentries e List.mem_cons_self _⟩)
      fun e' he' => hentries e' (List.mem_cons_of_mem _ he')

theorem Lawful.exists_allowed {record : List α} (h : Lawful allowed record) {e : α} (he : e ∈ record) :
    ∃ pre, pre ⊆ record ∧ allowed pre e := by
  obtain ⟨pre, post, rfl⟩ := List.append_of_mem he
  exact ⟨pre, List.subset_append_left _ _, h pre e post rfl⟩

theorem Lawful.pairwise {record : List α} (h : Lawful allowed record) {R : α → α → Prop}
    (hR : ∀ pre e, allowed pre e → ∀ a ∈ pre, R a e) : record.Pairwise R := by
  induction record using List.reverseRecOn with
  | nil => exact .nil
  | append_singleton record e ih =>
    obtain ⟨hrecord, he⟩ := lawful_append_singleton.mp h
    exact List.pairwise_append.mpr ⟨ih hrecord, List.pairwise_singleton _ _,
      fun a ha e' he' => List.mem_singleton.mp he' ▸ hR record e he a ha⟩

theorem Lawful.count_le [DecidableEq α] {record : List α} (h : Lawful allowed record) {e : α} {n : ℕ}
    (hcount : ∀ pre, allowed pre e → pre.count e < n) : record.count e ≤ n := by
  induction record using List.reverseRecOn with
  | nil => exact Nat.zero_le n
  | append_singleton record e' ih =>
    obtain ⟨hrecord, he⟩ := lawful_append_singleton.mp h
    rw [List.count_append, List.count_singleton]
    split
    · rename_i heq
      obtain rfl := beq_iff_eq.mp heq
      exact hcount record he
    · exact ih hrecord

end Record

end Lib
