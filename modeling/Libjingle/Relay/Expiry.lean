import Libjingle.Lib.Run
import Libjingle.Base.Time
import Libjingle.Relay.Server

/-!
# The lifetime of a binding

Main result: **`bindingExpiry_iff`**.
-/

namespace Libjingle.RelayServer

open Lib

variable {s s' : RelayServer} {i : RelayBindingId}

/-! ## The history of a binding -/

/-- What happens to a binding: it is used, its timer fires, time passes. -/
inductive BindingCall where
  | noteUsed
  | check
  | tick (ms : ℕ)
  deriving DecidableEq, Repr

/-- The server after a call on the binding `i`. -/
def call (i : RelayBindingId) (h : RelayServer × ℕ) : BindingCall → RelayServer × ℕ
  | .noteUsed => (h.1.noteUsed i, h.1.now)
  | .check => ((h.1.onMessage i).getD h.1, h.2)
  | .tick ms => ({ h.1 with now := h.1.now + ms }, h.2)

/-- A new binding, and the history that follows. -/
def history (s : RelayServer) (username : List Uint8) (lifetime : Uint32) (calls : List BindingCall) :
    RelayServer × ℕ :=
  run (call s.nextBinding) ((s.newBinding username lifetime).1, s.now) calls

/-- Whether the check of the timer ends the binding. -/
def signalsTimeout (s : RelayServer) (i : RelayBindingId) : Bool :=
  ((s.onMessage i).bind fun s' => s'.binding i).any fun b => b.disposed && b.timer.isNone

/-- The milliseconds since the last use, modulo `2 ^ 32`. -/
def elapsed (h : RelayServer × ℕ) : ℕ := (h.1.now - h.2) % 2 ^ 32

/-- The binding `i` was last used at the second component, and its clock reading says so. -/
structure LastUsed (i : RelayBindingId) (lifetime : Uint32) (h : RelayServer × ℕ) : Prop where
  before : h.2 ≤ h.1.now
  reading : ∃ b, h.1.binding i = some b ∧ b.lifetime = lifetime ∧ b.lastUsed = timeReading h.2

theorem updateBinding_self (s : RelayServer) (i : RelayBindingId) (f : RelayServerBinding → RelayServerBinding) :
    (s.updateBinding i f).binding i = (s.binding i).map f := if_pos rfl

theorem now_onMessage (h : s.onMessage i = some s') : s'.now = s.now := by
  unfold onMessage at h
  obtain ⟨b, -, h⟩ := Option.bind_eq_some_iff.mp h
  split_ifs at h <;> exact Option.some.inj h ▸ rfl

theorem LastUsed.call {lifetime : Uint32} (h : RelayServer × ℕ) (c : BindingCall)
    (hlast : LastUsed i lifetime h) : LastUsed i lifetime (call i h c) := by
  obtain ⟨hbefore, b, hb, hlifetime, hreading⟩ := hlast
  cases c with
  | noteUsed =>
    refine ⟨le_rfl, { b with lastUsed := h.1.time }, ?_, hlifetime, rfl⟩
    change (h.1.updateBinding i _).binding i = _
    rw [updateBinding_self, hb]
    rfl
  | check =>
    unfold RelayServer.call
    cases hmessage : h.1.onMessage i with
    | none => exact ⟨hbefore, b, hb, hlifetime, hreading⟩
    | some s' =>
      refine ⟨(now_onMessage hmessage).symm ▸ hbefore, ?_⟩
      unfold onMessage at hmessage
      rw [hb] at hmessage
      simp only [Option.bind_eq_bind, Option.bind_some] at hmessage
      split_ifs at hmessage
      · cases hmessage
        refine ⟨{ b with timer := none, disposed := true }, ?_, hlifetime, hreading⟩
        rw [Option.getD_some, updateBinding_self, hb]
        rfl
      · cases hmessage
        refine ⟨{ b with timer := some (h.1.now + b.lifetime.toNat) }, ?_, hlifetime, hreading⟩
        rw [Option.getD_some, updateBinding_self, hb]
        rfl
  | tick ms => exact ⟨Nat.le_add_right_of_le hbefore, b, hb, hlifetime, hreading⟩

theorem lastUsed_history (s : RelayServer) (username : List Uint8) (lifetime : Uint32) (calls : List BindingCall) :
    LastUsed s.nextBinding lifetime (s.history username lifetime calls) := by
  refine run_invariant (fun h c hlast _ => hlast.call h c) ?_ (guarded_true _ calls)
  refine ⟨le_rfl, ⟨username, turnMagicCookieValue, [], [], lifetime, s.time,
    some (s.now + lifetime.toNat), false⟩, if_pos rfl, rfl, rfl⟩

/-! ## A check -/

theorem signalsTimeout_eq {b : RelayServerBinding} (hb : s.binding i = some b) :
    s.signalsTimeout i = decide (b.lastUsed + b.lifetime ≤ s.time) := by
  unfold signalsTimeout onMessage
  rw [hb]
  simp only [Option.bind_eq_bind, Option.bind_some]
  by_cases h : s.time ≥ b.lastUsed + b.lifetime
  · rw [if_pos h, Option.bind_some, updateBinding_self, hb, decide_eq_true h]
    rfl
  · rw [if_neg h, Option.bind_some, updateBinding_self, hb, decide_eq_false h]
    simp

/-- The clock wraps before the end of a time that starts at `used`. -/
def WrapsIn (used ms : ℕ) : Prop := 2 ^ 32 ≤ used % 2 ^ 32 + ms

instance (used ms : ℕ) : Decidable (WrapsIn used ms) := inferInstanceAs (Decidable (_ ≤ _))

theorem reading_le_iff {used now : ℕ} (hle : used ≤ now) (lifetime : Uint32) :
    ((timeReading used + lifetime ≤ timeReading now) ↔ lifetime.toNat ≤ (now - used) % 2 ^ 32) ↔
      (WrapsIn used lifetime.toNat ↔ WrapsIn used ((now - used) % 2 ^ 32)) := by
  obtain ⟨ms, rfl⟩ := Nat.exists_eq_add_of_le hle
  have hlifetime := lifetime.isLt
  simp only [WrapsIn, timeReading, BitVec.le_def, BitVec.toNat_add, BitVec.toNat_ofNat]
  omega

/-! ## The lifetime that is given -/

theorem requestLifetime_of_value {request : StunMessage} {value : Uint32}
    (h : request.getValue attrLifetime = some value) :
    (requestLifetime request).toNat = min (value.toNat * 1000 % 2 ^ 32) maxLifetime.toNat := by
  unfold requestLifetime
  rw [h]
  dsimp only
  have hproduct : (value * 1000).toNat = value.toNat * 1000 % 2 ^ 32 := by
    rw [BitVec.toNat_mul]
    rfl
  rw [← hproduct]
  by_cases hless : value * 1000 < maxLifetime
  · rw [if_pos hless, min_eq_left (Nat.le_of_lt hless)]
  · rw [if_neg hless, min_eq_right (Nat.le_of_not_lt hless)]

/-- **When bindings expire as they should**: the clock wraps within both times or neither, and the
product with 1000 does not wrap below `MAX_LIFETIME`. -/
theorem bindingExpiry_iff (s : RelayServer) (username : List Uint8) (lifetime : Uint32)
    (calls : List BindingCall) (request : StunMessage) (value : Uint32)
    (hvalue : request.getValue attrLifetime = some value) :
    (((s.history username lifetime calls).1.signalsTimeout s.nextBinding = true ↔
          lifetime.toNat ≤ elapsed (s.history username lifetime calls)) ↔
        (WrapsIn (s.history username lifetime calls).2 lifetime.toNat ↔
          WrapsIn (s.history username lifetime calls).2
            (elapsed (s.history username lifetime calls)))) ∧
      ((requestLifetime request).toNat = min maxLifetime.toNat (value.toNat * 1000) ↔
        value.toNat * 1000 < 2 ^ 32 ∨ maxLifetime.toNat ≤ value.toNat * 1000 % 2 ^ 32) := by
  constructor
  · obtain ⟨hbefore, b, hb, hlifetime, hreading⟩ := lastUsed_history s username lifetime calls
    rw [signalsTimeout_eq hb, hlifetime, hreading, decide_eq_true_iff]
    exact reading_le_iff hbefore lifetime
  · rw [requestLifetime_of_value hvalue]
    have hmax : maxLifetime.toNat = 900000 := rfl
    rw [hmax]
    generalize value.toNat * 1000 = asked
    by_cases hwraps : asked < 2 ^ 32
    · rw [Nat.mod_eq_of_lt hwraps, min_comm]
      exact ⟨fun _ => .inl hwraps, fun _ => rfl⟩
    · have hmin : min 900000 asked = 900000 := min_eq_left (by omega)
      rw [hmin, or_iff_right hwraps]
      exact min_eq_right_iff

section Example

def exampleLate : RelayServer := { now := 2 ^ 32 - 900500 }

def exampleUsed : List BindingCall := [.tick 899500, .noteUsed, .tick 500]

def exampleLifetimeRequest (value : Uint32) : StunMessage :=
  ((StunMessage.new .relay).addAttribute ⟨attrLifetime, .uint32 value⟩).1

/-- The same history on a server at the time 0, and a request for a minute. -/
theorem bindingExpiry_iff_early :
    let h := history {} [] maxLifetime exampleUsed
    elapsed h = 500 ∧ h.1.signalsTimeout 0 = false ∧
      (requestLifetime (exampleLifetimeRequest 60)).toNat = min maxLifetime.toNat 60000 := by
  intro h
  have helapsed : elapsed h = 500 := by decide
  obtain ⟨hcheck, hrequest⟩ :=
    bindingExpiry_iff {} [] maxLifetime exampleUsed (exampleLifetimeRequest 60) 60 (by decide)
  have hright := hcheck.mpr (by decide)
  refine ⟨helapsed, ?_, ?_⟩
  · rw [← Bool.not_eq_true]
    intro hsignals
    exact absurd (hright.mp hsignals) (by decide)
  · exact hrequest.mpr (by decide)

/-- **A binding expires half a second after its use**, because the end of its lifetime wraps. -/
theorem bindingExpiry_wrong :
    let h := history exampleLate [] maxLifetime exampleUsed
    (elapsed h < 2 ^ 31 ∧ h.1.signalsTimeout 0 = true ∧ ¬ maxLifetime.toNat ≤ elapsed h) ∧
      (exampleLifetimeRequest 4294968).getValue attrLifetime = some 4294968 ∧
      (requestLifetime (exampleLifetimeRequest 4294968)).toNat = 704 ∧
      min maxLifetime.toNat ((4294968 : Uint32).toNat * 1000) = 900000 := by
  decide

end Example

end Libjingle.RelayServer
