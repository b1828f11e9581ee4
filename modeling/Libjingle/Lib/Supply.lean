import Mathlib.Tactic.Common

/-!
# Programs that draw from a supply

A program has a state, in which there is a supply of values that it may draw, and it may stop with an error.

Main result: **`Replays.bind`**.
-/

namespace Lib

variable {σ ε ι α β γ δ : Type}

/-! ## Runs -/

section Runs

variable {x : StateT σ (Except ε) α} {g : α → StateT σ (Except ε) β} {s : σ}

/-- When a computation in two steps succeeds. -/
theorem bind_eq_ok {r : β × σ} : (x >>= g) s = .ok r ↔ ∃ a s', x s = .ok (a, s') ∧ g a s' = .ok r := by
  have hbind : (x >>= g) s = (x s >>= fun p => g p.1 p.2) := rfl
  rw [hbind]
  cases x s with
  | error e =>
    constructor
    · intro h
      cases h
    · rintro ⟨_, _, h, _⟩
      cases h
  | ok p =>
    refine ⟨fun h => ⟨p.1, p.2, rfl, h⟩, ?_⟩
    rintro ⟨_, _, heq, h⟩
    obtain rfl := Except.ok.inj heq
    exact h

/-- When a computation without effect succeeds. -/
theorem pure_eq_ok {a : α} {r : α × σ} : (pure a : StateT σ (Except ε) α) s = .ok r ↔ r = (a, s) :=
  ⟨fun h => (Except.ok.inj h).symm, fun h => h ▸ rfl⟩

/-- An error is no success. -/
theorem throw_ne_ok {e : ε} {r : α × σ} : (throw e : StateT σ (Except ε) α) s ≠ .ok r :=
  fun h => by cases h

end Runs

/-! ## Supplies -/

/-- States with a supply of values, which may be replaced. -/
class Supply (σ : Type) (ι : outParam Type) where
  withSupply : σ → List ι → σ

open Supply

variable [Supply σ ι]

def KeepsSupply (x : StateT σ (Except ε) α) : Prop :=
  ∀ s a s', x s = .ok (a, s') → ∀ items, x (withSupply s items) = .ok (a, withSupply s' items)

/-- What `x` returns, `y` returns something related to, for some values. -/
def Replays (x : StateT σ (Except ε) α) (y : StateT σ (Except ε) β) (R : α → β → Prop) : Prop :=
  ∀ s a s', x s = .ok (a, s') → ∃ drawn b, R a b ∧
    ∀ rest, y (withSupply s (drawn ++ rest)) = .ok (b, withSupply s' rest)

section Draws

variable {x : StateT σ (Except ε) α} {y : StateT σ (Except ε) β} {g : α → StateT σ (Except ε) γ}
  {k : β → StateT σ (Except ε) δ} {R R' : α → β → Prop} {Q : γ → δ → Prop}

theorem KeepsSupply.pure (a : α) : KeepsSupply (pure a : StateT σ (Except ε) α) := fun _ _ _ h items => by
  obtain ⟨rfl, rfl⟩ := Prod.mk.inj (pure_eq_ok.mp h)
  rfl

theorem KeepsSupply.throw (e : ε) : KeepsSupply (throw e : StateT σ (Except ε) α) :=
  fun _ _ _ h => absurd h throw_ne_ok

theorem KeepsSupply.bind (hx : KeepsSupply x) (hg : ∀ a, KeepsSupply (g a)) : KeepsSupply (x >>= g) :=
  fun s c s' h items => by
    obtain ⟨a, s₁, ha, hc⟩ := bind_eq_ok.mp h
    exact bind_eq_ok.mpr ⟨a, _, hx s a s₁ ha items, hg a s₁ c s' hc items⟩

theorem KeepsSupply.ite {P : Prop} [Decidable P] {x' : StateT σ (Except ε) α} (hx : KeepsSupply x)
    (hx' : KeepsSupply x') : KeepsSupply (if P then x else x') := by
  split_ifs
  · exact hx
  · exact hx'

theorem KeepsSupply.replays (hx : KeepsSupply x) : Replays x x Eq :=
  fun s a s' h => ⟨[], a, rfl, fun rest => hx s a s' h rest⟩

theorem Replays.mono (h : Replays x y R) (hR : ∀ a b, R a b → R' a b) : Replays x y R' := fun s a s' ha => by
  obtain ⟨drawn, b, hab, hb⟩ := h s a s' ha
  exact ⟨drawn, b, hR a b hab, hb⟩

theorem Replays.reached (h : Replays x y R) : Replays x y fun a b => R a b ∧ ∃ s s', x s = .ok (a, s') :=
  fun s a s' ha => by
    obtain ⟨drawn, b, hab, hb⟩ := h s a s' ha
    exact ⟨drawn, b, ⟨hab, s, s', ha⟩, hb⟩

theorem Replays.pure {a : α} {b : β} (h : R a b) :
    Replays (pure a : StateT σ (Except ε) α) (pure b : StateT σ (Except ε) β) R := fun s a' s' ha => by
  obtain ⟨rfl, rfl⟩ := Prod.mk.inj (pure_eq_ok.mp ha)
  exact ⟨[], b, h, fun _ => rfl⟩

theorem Replays.throw (e : ε) (y : StateT σ (Except ε) β) : Replays (throw e) y R :=
  fun _ _ _ h => absurd h throw_ne_ok

/-- **Two steps that replay others replay them one after the other**. -/
theorem Replays.bind (hx : Replays x y R) (hg : ∀ a b, R a b → Replays (g a) (k b) Q) :
    Replays (x >>= g) (y >>= k) Q := fun s c s' h => by
  obtain ⟨a, s₁, ha, hc⟩ := bind_eq_ok.mp h
  obtain ⟨drawn, b, hab, hb⟩ := hx s a s₁ ha
  obtain ⟨drawn', d, hcd, hd⟩ := hg a b hab s₁ c s' hc
  refine ⟨drawn ++ drawn', d, hcd, fun rest => bind_eq_ok.mpr ⟨b, _, ?_, hd rest⟩⟩
  rw [List.append_assoc]
  exact hb _

end Draws

end Lib
