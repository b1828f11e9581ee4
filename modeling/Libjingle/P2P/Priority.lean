import Libjingle.P2P.Compare

/-!
# The priority of a pair (`p2p/base/port.cc`)

Both agents form the same pairs, and compute their priorities each on its own, from the role.

Main results: **`priority_controlled`**, **`sameOrder`**, **`priority_exact_iff`**.
-/

namespace Libjingle.P2P

/-! ## The number -/

def rfc5245PairPriority (g d : ℕ) : ℕ := 2 ^ 32 * min g d + 2 * max g d + if g > d then 1 else 0

theorem toNat_low (high b : Uint32) (hb : b.toNat ≤ 1) :
    ((2 * high + b).setWidth 64).toNat =
      if high.toNat < 2 ^ 31 then 2 * high.toNat + b.toNat
      else 2 * high.toNat + b.toNat - 2 ^ 32 := by
  have hhigh := high.isLt
  rw [BitVec.toNat_setWidth, BitVec.toNat_add, BitVec.toNat_mul]
  have htwo : (2 : Uint32).toNat = 2 := rfl
  rw [htwo]
  split <;> omega

theorem toNat_min (g d : Uint32) : (if g < d then g else d).toNat = min g.toNat d.toNat := by
  split
  · rename_i h
    have hlt := BitVec.lt_def.mp h
    omega
  · rename_i h
    have hle := BitVec.le_def.mp (BitVec.not_lt.mp h)
    omega

theorem toNat_max (g d : Uint32) : (if g > d then g else d).toNat = max g.toNat d.toNat := by
  split
  · rename_i h
    have hlt := BitVec.lt_def.mp h
    omega
  · rename_i h
    have hle := BitVec.le_def.mp (BitVec.not_lt.mp h)
    omega

/-- **The priority is that of RFC 5245 while both are below 2 ^ 31**, and too small otherwise. -/
theorem toNat_priority (conn : Connection) :
    (conn.priority .controlling).toNat =
      if max conn.localPriority.toNat conn.remoteCandidate.priority.toNat < 2 ^ 31 then
        rfc5245PairPriority conn.localPriority.toNat conn.remoteCandidate.priority.toNat
      else rfc5245PairPriority conn.localPriority.toNat conn.remoteCandidate.priority.toNat - 2 ^ 32 := by
  generalize hg : conn.localPriority = g
  generalize hd : conn.remoteCandidate.priority = d
  have hwide := g.isLt
  have hwide' := d.isLt
  have hflag : (if g > d then (1 : Uint32) else 0).toNat = if g.toNat > d.toNat then 1 else 0 := by
    by_cases h : g > d
    · rw [if_pos h, if_pos (BitVec.lt_def.mp h)]
      rfl
    · rw [if_neg h, if_neg fun hlt => h (BitVec.lt_def.mpr hlt)]
      rfl
  have hlow := toNat_low (if g > d then g else d) (if g > d then 1 else 0)
    (by rw [hflag]; split <;> omega)
  rw [toNat_max, hflag] at hlow
  have hhigh : ((if g < d then g else d).setWidth 64 <<< 32).toNat = 2 ^ 32 * min g.toNat d.toNat := by
    rw [BitVec.toNat_shiftLeft, BitVec.toNat_setWidth, toNat_min, Nat.shiftLeft_eq]
    omega
  have hpriority : (conn.priority .controlling).toNat =
      (((if g < d then g else d).setWidth 64 <<< 32).toNat +
        ((2 * (if g > d then g else d) + if g > d then 1 else 0).setWidth 64).toNat) % 2 ^ 64 := by
    rw [← BitVec.toNat_add, ← hg, ← hd]
    rfl
  rw [hpriority, hlow, hhigh, rfc5245PairPriority]
  split <;> split <;> omega

/-! ## Both agents -/

/-- A pair at both agents: the local candidate of one is the remote one of the other. -/
structure SharedPair where
  controlling : Pair
  controlled : Pair
  controllingRole : controlling.port.iceRole = .controlling
  controlledRole : controlled.port.iceRole = .controlled
  localPriority : controlled.connection.remoteCandidate.priority = controlling.connection.localPriority
  remotePriority : controlled.connection.localPriority = controlling.connection.remoteCandidate.priority
  localGeneration : controlled.connection.remoteCandidate.generation = controlling.port.generation
  remoteGeneration : controlled.port.generation = controlling.connection.remoteCandidate.generation

namespace SharedPair

def g (p : SharedPair) : Uint32 := p.controlling.connection.localPriority

def d (p : SharedPair) : Uint32 := p.controlling.connection.remoteCandidate.priority

/-- Both ends compute the same priority. -/
theorem priority_controlled (p : SharedPair) : p.controlled.priority = p.controlling.priority := by
  unfold Pair.priority
  rw [p.controllingRole, p.controlledRole]
  unfold Connection.priority
  dsimp only
  rw [p.localPriority, p.remotePriority]

theorem generation_controlled (p : SharedPair) : p.controlled.generation = p.controlling.generation := by
  unfold Pair.generation
  rw [p.localGeneration, p.remoteGeneration, BitVec.add_comm]

theorem compare_controlled (p q : SharedPair) :
    compareConnectionCandidates p.controlled q.controlled =
      compareConnectionCandidates p.controlling q.controlling := by
  unfold compareConnectionCandidates
  rw [p.priority_controlled, q.priority_controlled, p.generation_controlled, q.generation_controlled]

def sorted (agent : SharedPair → Pair) (pairs : List SharedPair) : List SharedPair :=
  pairs.mergeSort fun p q => decide (0 ≤ compareConnectionCandidates (agent p) (agent q))

/-- **Both ends sort the pairs alike**. -/
theorem sameOrder (pairs : List SharedPair) : sorted controlled pairs = sorted controlling pairs := by
  unfold sorted
  simp only [compare_controlled]

/-- **When the priority is that of RFC 5245.** Both agents agree in any case. -/
theorem priority_exact_iff (pairs : List SharedPair) :
    ((∀ p ∈ pairs, p.controlling.priority.toNat = rfc5245PairPriority p.g.toNat p.d.toNat ∧
      p.controlled.priority = p.controlling.priority) ∧
        sorted controlled pairs = sorted controlling pairs) ↔
      ∀ p ∈ pairs, max p.g.toNat p.d.toNat < 2 ^ 31 := by
  have hexact (p : SharedPair) :
      p.controlling.priority.toNat = rfc5245PairPriority p.g.toNat p.d.toNat ↔
        max p.g.toNat p.d.toNat < 2 ^ 31 := by
    have hnum := toNat_priority p.controlling.connection
    unfold Pair.priority g d
    rw [p.controllingRole, hnum]
    split
    · rename_i h
      exact ⟨fun _ => h, fun _ => rfl⟩
    · rename_i h
      refine ⟨fun heq => ?_, fun hlt => absurd hlt h⟩
      -- the number is at least `2 ^ 32`, as the larger priority counts twice
      unfold rfc5245PairPriority at heq
      omega
  constructor
  · exact fun h p hp => (hexact p).mp (h.1 p hp).1
  · exact fun h => ⟨fun p hp => ⟨(hexact p).mpr (h p hp), p.priority_controlled⟩, sameOrder pairs⟩

section Example

def exampleShared (g d : Uint32) : SharedPair where
  controlling :=
    { examplePair 0 0 with
      connection :=
        { (examplePair 0 0).connection with
          localPriority := g
          remoteCandidate := { (examplePair 0 0).connection.remoteCandidate with priority := d } } }
  controlled :=
    { connection :=
        { (examplePair 0 0).connection with
          localPriority := d
          remoteCandidate := { (examplePair 0 0).connection.remoteCandidate with priority := g } }
      port := { (examplePair 0 0).port with iceRole := .controlled } }
  controllingRole := rfl
  controlledRole := rfl
  localPriority := rfl
  remotePriority := rfl
  localGeneration := rfl
  remoteGeneration := rfl

/-- **A priority of `2 ^ 31` is lost**: the pair comes after one of priority 1. -/
theorem priority_cut_off :
    let p := exampleShared 0x80000000 0
    p.controlling.priority = 1 ∧ (exampleShared 1 0).controlling.priority = 3 ∧
      p.controlling.priority.toNat ≠ rfc5245PairPriority p.g.toNat p.d.toNat :=
  ⟨by decide, by decide, by decide⟩

end Example

end SharedPair

end Libjingle.P2P
