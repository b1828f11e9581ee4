import Mathlib.Tactic.Common
import Mathlib.Data.List.Basic

/-!
# Cutting packets off a stream

A `Cutter` takes the first packet off a buffer once the buffer holds all of it. `drain` takes off
packets as long as it can.

Main results: **`drain_append`**, **`drain_arrived`**, **`drain_exact`**.
-/

namespace Lib

variable {α π : Type}

/-- What takes a packet off the front of a buffer, or waits for more. It does not look at what
follows the packet. -/
structure Cutter (α π : Type) where
  cut : List α → Option (π × List α)
  shrinks : ∀ {buf p rest}, cut buf = some (p, rest) → rest.length < buf.length
  stable : ∀ {buf p rest}, cut buf = some (p, rest) → ∀ more, cut (buf ++ more) = some (p, rest ++ more)

namespace Cutter

variable (c : Cutter α π)

def drain (buf : List α) : List π × List α :=
  match h : c.cut buf with
  | none => ([], buf)
  | some (p, rest) =>
    have := c.shrinks h
    (p :: (drain rest).1, (drain rest).2)
termination_by buf.length

variable {c}

theorem drain_none {buf : List α} (h : c.cut buf = none) : c.drain buf = ([], buf) := by
  rw [drain]
  split
  · rfl
  · rename_i heq
    rw [h] at heq
    cases heq

theorem drain_some {buf rest : List α} {p : π} (h : c.cut buf = some (p, rest)) :
    c.drain buf = (p :: (c.drain rest).1, (c.drain rest).2) := by
  rw [drain]
  split
  · rename_i heq
    rw [h] at heq
    cases heq
  · rename_i heq
    rw [h] at heq
    cases heq
    rfl

theorem cut_drain (buf : List α) : c.cut (c.drain buf).2 = none := by
  induction buf using drain.induct c with
  | case1 buf hcut => rwa [drain_none hcut]
  | case2 buf p rest hcut _ ih =>
    rw [drain_some hcut]
    exact ih

/-- **What comes later does not matter for what has been cut**. -/
theorem drain_append (buf more : List α) :
    c.drain (buf ++ more) =
      ((c.drain buf).1 ++ (c.drain ((c.drain buf).2 ++ more)).1,
        (c.drain ((c.drain buf).2 ++ more)).2) := by
  induction buf using drain.induct c with
  | case1 buf hcut => simp [drain_none hcut]
  | case2 buf p rest hcut _ ih =>
    rw [drain_some (c.stable hcut more), drain_some hcut, ih]
    rfl

/-! ## Streams of frames -/

/-- The cutter reads back the packets that meet `ok`. -/
def Frames (c : Cutter α π) (ok : π → Prop) (frame : π → List α) : Prop :=
  ∀ p, ok p → c.cut (frame p) = some (p, [])

variable {ok : π → Prop} {frame : π → List α}

theorem Frames.cut_append (hf : c.Frames ok frame) {p : π} (hp : ok p) (rest : List α) :
    c.cut (frame p ++ rest) = some (p, rest) :=
  c.stable (hf p hp) rest

theorem Frames.cut_partial (hf : c.Frames ok frame) {p : π} (hp : ok p) {got missing : List α}
    (h : got ++ missing = frame p) (hmissing : missing ≠ []) : c.cut got = none := by
  cases hcut : c.cut got with
  | none => rfl
  | some r =>
    obtain ⟨q, rest⟩ := r
    have hwhole := c.stable hcut missing
    rw [h, hf p hp] at hwhole
    have hnil : [] = rest ++ missing := (Prod.mk.inj (Option.some.inj hwhole)).2
    exact absurd (List.append_eq_nil_iff.mp hnil.symm).2 hmissing

def wire (frame : π → List α) (ps : List π) : List α := (ps.map frame).flatten

@[simp] theorem wire_nil : wire frame [] = [] := rfl

@[simp] theorem wire_cons (p : π) (ps : List π) : wire frame (p :: ps) = frame p ++ wire frame ps := rfl

theorem wire_append (ps qs : List π) : wire frame (ps ++ qs) = wire frame ps ++ wire frame qs := by
  simp [wire]

/-- What has arrived of a stream of frames is cut into the first packets, and the rest is the start
of the next. -/
theorem drain_arrived (hf : c.Frames ok frame) {ps : List π} (hok : ∀ p ∈ ps, ok p)
    {arrived missing : List α} (h : arrived ++ missing = wire frame ps) :
    ∃ todo, ps = (c.drain arrived).1 ++ todo ∧
      (c.drain arrived).2 ++ missing = wire frame todo ∧
      ∀ p ∈ todo.head?, (c.drain arrived).2.length < (frame p).length := by
  induction ps generalizing arrived with
  | nil =>
    obtain ⟨rfl, rfl⟩ := List.append_eq_nil_iff.mp h
    have hcut : c.cut [] = none := by
      cases hcut : c.cut [] with
      | none => rfl
      | some r => exact absurd (c.shrinks hcut) (Nat.not_lt_zero _)
    rw [drain_none hcut]
    exact ⟨[], rfl, rfl, by simp⟩
  | cons p ps ih =>
    have hp : ok p := hok p List.mem_cons_self
    rw [wire_cons] at h
    rcases List.append_eq_append_iff.mp h with ⟨tail, hframe, hmissing⟩ | ⟨rest, harrived, hrest⟩
    · -- the first frame is incomplete, or has just arrived and nothing after it has
      by_cases htail : tail = []
      · subst htail
        rw [List.append_nil] at hframe
        have hnothing : [] ++ missing = wire frame ps := hmissing
        obtain ⟨todo, hps, hwire, hhead⟩ :=
          ih (fun q hq => hok q (List.mem_cons_of_mem _ hq)) hnothing
        have hcut : c.cut arrived = some (p, []) := hframe ▸ hf p hp
        refine ⟨todo, ?_, ?_, ?_⟩
        · rw [drain_some hcut, List.cons_append, ← hps]
        · rw [drain_some hcut, hwire]
        · rw [drain_some hcut]
          exact hhead
      · have hcut : c.cut arrived = none := hf.cut_partial hp hframe.symm htail
        rw [drain_none hcut]
        refine ⟨p :: ps, rfl, by rw [wire_cons, h], ?_⟩
        rintro q ⟨⟩
        rw [hframe, List.length_append]
        exact Nat.lt_add_of_pos_right (List.length_pos_of_ne_nil htail)
    · obtain ⟨todo, hps, hwire, hhead⟩ :=
        ih (fun q hq => hok q (List.mem_cons_of_mem _ hq)) hrest.symm
      have hcut : c.cut arrived = some (p, rest) := harrived ▸ hf.cut_append hp rest
      rw [drain_some hcut]
      exact ⟨todo, by rw [List.cons_append, ← hps], hwire, hhead⟩

variable (frame) in
theorem length_wire_take_le (ps : List π) {m n : ℕ} (h : m ≤ n) :
    (wire frame (ps.take m)).length ≤ (wire frame (ps.take n)).length := by
  obtain ⟨tail, htail⟩ : ps.take m <+: ps.take n := List.take_prefix_take_left h
  rw [← htail, wire_append, List.length_append]
  exact Nat.le_add_right _ _

/-- **A packet comes out as soon as its frame has arrived**. -/
theorem drain_exact (hf : c.Frames ok frame) {ps : List π} (hok : ∀ p ∈ ps, ok p)
    {arrived missing : List α} (h : arrived ++ missing = wire frame ps) {n : ℕ}
    (hn : n ≤ ps.length) :
    n ≤ (c.drain arrived).1.length ↔ (wire frame (ps.take n)).length ≤ arrived.length := by
  obtain ⟨todo, hps, hwire, hhead⟩ := drain_arrived hf hok h
  have hlen : arrived.length =
      (wire frame (c.drain arrived).1).length + (c.drain arrived).2.length := by
    have h₁ := congrArg List.length h
    have h₂ := congrArg List.length hwire
    rw [hps, wire_append] at h₁
    rw [List.length_append] at h₁ h₂
    rw [List.length_append] at h₁
    omega
  have htake : ps.take (c.drain arrived).1.length = (c.drain arrived).1 := by
    conv_lhs => rw [hps]
    exact List.take_left
  constructor
  · intro hle
    have := length_wire_take_le frame ps hle
    rw [htake] at this
    omega
  · intro hle
    by_contra hlt
    cases todo with
    | nil =>
      rw [hps, List.append_nil] at hn
      exact hlt hn
    | cons p todo =>
      have hnext := length_wire_take_le frame ps (Nat.not_le.mp hlt)
      have htake' : ps.take ((c.drain arrived).1.length + 1) = (c.drain arrived).1 ++ [p] := by
        conv_lhs => rw [hps]
        rw [List.take_length_add_append]
        rfl
      have hp := hhead p rfl
      rw [htake', wire_append, List.length_append, wire_cons, wire_nil, List.append_nil] at hnext
      omega

end Cutter

end Lib
