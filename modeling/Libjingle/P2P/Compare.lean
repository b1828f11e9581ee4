import Libjingle.P2P.Connection

/-!
# The order of connections

Main results: **`connectionCompare_eq_key`**, **`connectionCompare_legal_iff`**,
**`hysteresis_iff`**.
-/

variable {x y : Uint32}

namespace Libjingle.P2P

variable {a b : Pair}

/-! ## Keys -/

namespace Pair

/-- The same write state and the same priority. -/
def Tied (a b : Pair) : Prop :=
  a.connection.writeState = b.connection.writeState ∧ a.priority = b.priority

instance : DecidableRel Tied := fun a b => by unfold Tied; infer_instance

/-- What `ConnectionCompare` looks at. -/
def key (a : Pair) : ℕ ×ₗ ℤ ×ₗ ℤ ×ₗ ℕ :=
  toLex (a.connection.writeState.toNat, toLex (-(a.priority.toNat : ℤ),
    toLex (-(a.generation.toNat : ℤ), a.connection.rtt.toNat)))

theorem key_lt_iff : a.key < b.key ↔
    a.connection.writeState.toNat < b.connection.writeState.toNat ∨
    a.connection.writeState.toNat = b.connection.writeState.toNat ∧ (b.priority < a.priority ∨
      a.priority = b.priority ∧ (b.generation < a.generation ∨
        a.generation = b.generation ∧ a.connection.rtt < b.connection.rtt)) := by
  simp only [key, Prod.Lex.toLex_lt_toLex, neg_lt_neg_iff, neg_inj, Nat.cast_lt, Nat.cast_inj,
    BitVec.lt_def, BitVec.toNat_inj]

end Pair

/-! ## Generations -/

theorem toInt_sub_pos_iff (h : y < x) : 0 < (x - y).toInt ↔ x.toNat < y.toNat + 2 ^ 31 := by
  have hy := BitVec.lt_def.mp h
  rw [BitVec.toInt_eq_toNat_cond]
  have hsub : (x - y).toNat = x.toNat - y.toNat := BitVec.toNat_sub_of_le (BitVec.le_of_lt h)
  rw [hsub]
  split <;> omega

theorem toInt_sub_neg_iff (h : y < x) : (y - x).toInt < 0 ↔ x.toNat ≤ y.toNat + 2 ^ 31 := by
  have hy := BitVec.lt_def.mp h
  have hx := x.isLt
  rw [BitVec.toInt_eq_toNat_cond]
  have hsub : (y - x).toNat = 2 ^ 32 - (x.toNat - y.toNat) := by
    rw [BitVec.toNat_sub]
    omega
  rw [hsub]
  split <;> omega

theorem toInt_sub_eq_zero_iff : (x - y).toInt = 0 ↔ x = y := by
  rw [← BitVec.toInt_zero (w := 32), BitVec.toInt_inj]
  constructor
  · intro h
    bv_omega
  · rintro rfl
    exact BitVec.sub_self _

/-- The younger generation is less than `2 ^ 31` ahead. -/
def GenerationsClose (a b : Pair) : Prop :=
  a.Tied b → b.generation < a.generation → a.generation.toNat < b.generation.toNat + 2 ^ 31

instance : DecidableRel GenerationsClose := fun a b => by unfold GenerationsClose; infer_instance

/-! ## `CompareConnections` -/

theorem WriteState.toNat_injective : Function.Injective WriteState.toNat := by
  intro x y h
  cases x <;> cases y <;> first | rfl | cases h

theorem compareConnections_tied (h : a.Tied b) : compareConnections a b = (a.generation - b.generation).toInt := by
  obtain ⟨hstate, hpriority⟩ := h
  simp [compareConnections, compareConnectionCandidates, hstate, hpriority]

theorem compareConnections_untied (h : ¬ a.Tied b) :
    compareConnections a b = 1 ∧ a.key < b.key ∨ compareConnections a b = -1 ∧ b.key < a.key := by
  unfold compareConnections compareConnectionCandidates
  rcases Nat.lt_trichotomy a.connection.writeState.toNat b.connection.writeState.toNat with
    hstate | hstate | hstate
  · rw [if_pos hstate]
    exact .inl ⟨rfl, Pair.key_lt_iff.mpr (.inl hstate)⟩
  · rw [if_neg (by omega), if_neg (by omega)]
    have hne : a.priority ≠ b.priority := fun heq => h ⟨WriteState.toNat_injective hstate, heq⟩
    by_cases hpriority : b.priority < a.priority
    · rw [if_pos hpriority]
      exact .inl ⟨rfl, Pair.key_lt_iff.mpr (.inr ⟨hstate, .inl hpriority⟩)⟩
    · have hlt : a.priority < b.priority :=
        BitVec.lt_of_le_ne (BitVec.not_lt.mp hpriority) hne
      rw [if_neg hpriority, if_pos hlt]
      exact .inr ⟨rfl, Pair.key_lt_iff.mpr (.inr ⟨hstate.symm, .inl hlt⟩)⟩
  · rw [if_neg (by omega), if_pos hstate]
    exact .inr ⟨rfl, Pair.key_lt_iff.mpr (.inl hstate)⟩

theorem compareConnections_eq_zero_iff : compareConnections a b = 0 ↔ a.Tied b ∧ a.generation = b.generation := by
  by_cases h : a.Tied b
  · rw [compareConnections_tied h, toInt_sub_eq_zero_iff]
    exact ⟨fun heq => ⟨h, heq⟩, And.right⟩
  · rcases compareConnections_untied h with ⟨heq, -⟩ | ⟨heq, -⟩
    all_goals
      rw [heq]
      exact ⟨nofun, fun hzero => absurd hzero.1 h⟩

theorem key_lt_iff_of_tied (h : a.Tied b) : a.key < b.key ↔
    b.generation < a.generation ∨ a.generation = b.generation ∧ a.connection.rtt < b.connection.rtt := by
  obtain ⟨hstate, hpriority⟩ := h
  rw [Pair.key_lt_iff, hstate, hpriority]
  simp

/-! ## `ConnectionCompare` -/

theorem connectionCompare_of_pos (h : 0 < compareConnections a b) : connectionCompare a b = true :=
  if_pos h

theorem connectionCompare_of_neg (h : compareConnections a b < 0) : connectionCompare a b = false := by
  unfold connectionCompare
  dsimp only
  rw [if_neg (by omega), if_pos h]

theorem connectionCompare_of_zero (h : compareConnections a b = 0) :
    connectionCompare a b = decide (a.connection.rtt < b.connection.rtt) := by
  unfold connectionCompare
  dsimp only
  rw [if_neg (by omega), if_neg (by omega)]

/-- **The comparison is that of keys**, while generations are close. -/
theorem connectionCompare_eq_key (hab : GenerationsClose a b) (hba : GenerationsClose b a) :
    connectionCompare a b = decide (a.key < b.key) := by
  by_cases htied : a.Tied b
  · have hcompare := compareConnections_tied htied
    rcases BitVec.lt_trichotomy a.generation b.generation with h | h | h
    · have hclose := hba ⟨htied.1.symm, htied.2.symm⟩ h
      have hneg := (toInt_sub_neg_iff h).mpr (Nat.le_of_lt hclose)
      have hkey : ¬ a.key < b.key := by
        rw [key_lt_iff_of_tied htied]
        rintro (hlt | ⟨heq, -⟩)
        · exact absurd hlt (BitVec.not_lt.mpr (BitVec.le_of_lt h))
        · exact absurd (heq ▸ h) (BitVec.lt_irrefl _)
      rw [connectionCompare_of_neg (hcompare ▸ hneg), decide_eq_false hkey]
    · have hzero := compareConnections_eq_zero_iff.mpr ⟨htied, h⟩
      rw [connectionCompare_of_zero hzero, decide_eq_decide, key_lt_iff_of_tied htied, h]
      simp
    · have hpos := (toInt_sub_pos_iff h).mpr (hab htied h)
      rw [connectionCompare_of_pos (hcompare ▸ hpos),
        decide_eq_true ((key_lt_iff_of_tied htied).mpr (.inl h))]
  · rcases compareConnections_untied htied with ⟨heq, hlt⟩ | ⟨heq, hlt⟩
    · rw [connectionCompare_of_pos (by omega), decide_eq_true hlt]
    · rw [connectionCompare_of_neg (by omega), decide_eq_false (not_lt.mpr hlt.le)]

theorem generationsClose_of_compare (h : a.Tied b → b.generation < a.generation →
    connectionCompare a b = true) : GenerationsClose a b := by
  intro htied hlt
  by_contra hfar
  have hnpos : ¬ 0 < (a.generation - b.generation).toInt := fun hpos =>
    hfar ((toInt_sub_pos_iff hlt).mp hpos)
  have hne : (a.generation - b.generation).toInt ≠ 0 := fun hzero =>
    BitVec.lt_irrefl _ (toInt_sub_eq_zero_iff.mp hzero ▸ hlt)
  have hneg : compareConnections a b < 0 := by
    rw [compareConnections_tied htied]
    omega
  rw [connectionCompare_of_neg hneg] at h
  exact absurd (h htied hlt) Bool.false_ne_true

def YoungerFirst (S : Set Pair) : Prop :=
  ∀ a ∈ S, ∀ b ∈ S, a.Tied b → b.generation < a.generation → connectionCompare a b = true

/-- **When the order of connections is legal for sorting**: generations of tied ones are less than
`2 ^ 31` apart. -/
theorem connectionCompare_legal_iff (S : Set Pair) :
    (IsStrictWeakOrder S (fun a b => connectionCompare a b = true) ∧ YoungerFirst S) ↔
      ∀ a ∈ S, ∀ b ∈ S, GenerationsClose a b := by
  constructor
  · rintro ⟨-, hyounger⟩ a ha b hb
    exact generationsClose_of_compare (hyounger a ha b hb)
  · intro hclose
    have hkey : ∀ a ∈ S, ∀ b ∈ S, (connectionCompare a b = true ↔ a.key < b.key) := by
      intro a ha b hb
      rw [connectionCompare_eq_key (hclose a ha b hb) (hclose b hb a ha), decide_eq_true_iff]
    have horder : (fun a b : S => connectionCompare a b = true) =
        Order.Preimage (fun a : S => (a : Pair).key) (· < ·) := by
      funext a b
      exact propext (hkey a a.2 b b.2)
    refine ⟨?_, fun a ha b hb htied hlt => (hkey a ha b hb).mpr ?_⟩
    · rw [horder]
      have hlt : IsStrictWeakOrder (ℕ ×ₗ ℤ ×ₗ ℤ ×ₗ ℕ) (· < ·) := isStrictWeakOrder_of_isOrderConnected
      infer_instance
    · exact (key_lt_iff_of_tied htied).mpr (.inl hlt)

/-! ## Connections that sort in a circle -/

section Example

def examplePair (generation rtt : Uint32) : Pair where
  connection :=
    { port := 1
      localPriority := 200
      remoteCandidate :=
        { id := []
          component := 1
          protocol := protoToString .udp
          address := .ofIP (.v4 0x0a000001) 1000
          priority := 100
          username := []
          password := []
          type := localPortType
          networkName := []
          generation := generation
          foundation := []
          relatedAddress := .ofIP .unspec 0 }
      rtt := rtt }
  port :=
    { session := 0
      type := localPortType
      network := ⟨0, text "eth0", 0⟩
      generation := 0
      sharedSocket := false
      iceProtocol := .rfc5245
      iceRole := .controlling
      tiebreaker := 0
      connections := [] }

/-- **Three generations that are far apart sort in a circle**. -/
theorem connectionCompare_cycle :
    let S : Set Pair := {examplePair 0 0, examplePair 0x60000000 0, examplePair 0xC0000000 0}
    ¬ (IsStrictWeakOrder S (fun a b => connectionCompare a b = true) ∧ YoungerFirst S) := by
  rintro S ⟨horder, -⟩
  have hold : examplePair 0 0 ∈ S := by simp [S]
  have hmid : examplePair 0x60000000 0 ∈ S := by simp [S]
  have hnew : examplePair 0xC0000000 0 ∈ S := by simp [S]
  have hfirst : connectionCompare (examplePair 0xC0000000 0) (examplePair 0x60000000 0) = true := by
    decide
  have hsecond : connectionCompare (examplePair 0x60000000 0) (examplePair 0 0) = true := by decide
  have hthird : connectionCompare (examplePair 0 0) (examplePair 0xC0000000 0) = true := by decide
  have hback := horder.trans ⟨_, hnew⟩ ⟨_, hmid⟩ ⟨_, hold⟩ hfirst hsecond
  have hcycle : connectionCompare (examplePair 0xC0000000 0) (examplePair 0xC0000000 0) = true :=
    horder.trans ⟨_, hnew⟩ ⟨_, hold⟩ ⟨_, hnew⟩ hback hthird
  exact absurd hcycle (by decide)

end Example

/-! ## `ShouldSwitch` -/

def Hysteresis (a b : Pair) : Prop :=
  ¬ (shouldSwitchPair a b = true ∧ shouldSwitchPair b a = true) ∧
    (compareConnections a b = 0 → shouldSwitchPair a b = true →
      b.connection.rtt.toNat + kMinImprovement ≤ a.connection.rtt.toNat)

def FarApart (a b : Pair) : Prop :=
  a.Tied b →
    (a.generation = b.generation →
      a.connection.rtt.toNat + kMinImprovement < b.connection.rtt.toNat ∨
        b.connection.rtt.toNat + kMinImprovement < a.connection.rtt.toNat) ∧
    a.generation - b.generation ≠ 0x80000000

instance : DecidableRel FarApart := fun a b => by unfold FarApart; infer_instance

theorem shouldSwitchPair_of_neg (h : compareConnections a b < 0) : shouldSwitchPair a b = true :=
  if_pos h

theorem shouldSwitchPair_of_pos (h : 0 < compareConnections a b) : shouldSwitchPair a b = false := by
  unfold shouldSwitchPair
  dsimp only
  rw [if_neg (by omega), if_pos h]

theorem shouldSwitchPair_of_zero (h : compareConnections a b = 0) :
    shouldSwitchPair a b =
      decide (b.connection.rtt.toNat ≤ a.connection.rtt.toNat + kMinImprovement) := by
  unfold shouldSwitchPair
  dsimp only
  rw [if_neg (by omega), if_neg (by omega)]

theorem compareConnections_of_key_lt (hne : ¬ a.Tied b) (h : a.key < b.key) : compareConnections a b = 1 := by
  rcases compareConnections_untied hne with ⟨heq, -⟩ | ⟨-, hlt⟩
  · exact heq
  · exact absurd (h.trans hlt) (lt_irrefl _)

theorem toInt_sub_both_neg_iff : ((x - y).toInt < 0 ∧ (y - x).toInt < 0) ↔ x - y = 0x80000000 := by
  have hopposite : y - x = -(x - y) := by bv_omega
  rw [hopposite]
  generalize x - y = z
  have hz := z.isLt
  rw [← BitVec.toNat_inj, BitVec.toInt_eq_toNat_cond, BitVec.toInt_eq_toNat_cond, BitVec.toNat_neg]
  have hnum : (0x80000000 : Uint32).toNat = 2147483648 := rfl
  rw [hnum]
  constructor
  · rintro ⟨hneg, hneg'⟩
    split at hneg <;> split at hneg' <;> omega
  · intro heq
    rw [heq]
    decide

theorem hysteresis_iff_of_ne (hne : compareConnections a b ≠ 0) (hne' : compareConnections b a ≠ 0) :
    Hysteresis a b ↔ ¬ (compareConnections a b < 0 ∧ compareConnections b a < 0) := by
  have hswitch : ∀ {a b : Pair}, compareConnections a b ≠ 0 →
      (shouldSwitchPair a b = true ↔ compareConnections a b < 0) := by
    intro a b h
    rcases lt_or_gt_of_ne h with hneg | hpos
    · simp only [shouldSwitchPair_of_neg hneg, hneg]
    · simp only [shouldSwitchPair_of_pos hpos, not_lt.mpr hpos.le, Bool.false_eq_true]
  unfold Hysteresis
  rw [hswitch hne, hswitch hne']
  exact and_iff_left fun hzero => absurd hzero hne

theorem hysteresis_iff_of_eq (hzero : compareConnections a b = 0) (hzero' : compareConnections b a = 0) :
    Hysteresis a b ↔ a.connection.rtt.toNat + kMinImprovement < b.connection.rtt.toNat ∨
      b.connection.rtt.toNat + kMinImprovement < a.connection.rtt.toNat := by
  unfold Hysteresis
  rw [shouldSwitchPair_of_zero hzero, shouldSwitchPair_of_zero hzero', decide_eq_true_iff,
    decide_eq_true_iff]
  simp only [hzero, forall_const]
  omega

/-- **The hysteresis works exactly for pairs far apart**. -/
theorem hysteresis_iff : Hysteresis a b ↔ FarApart a b := by
  by_cases htied : a.Tied b
  · have htied' : b.Tied a := ⟨htied.1.symm, htied.2.symm⟩
    by_cases hgen : a.generation = b.generation
    · have hself : a.generation - b.generation ≠ 0x80000000 := by
        rw [hgen, BitVec.sub_self]
        decide
      rw [hysteresis_iff_of_eq (compareConnections_eq_zero_iff.mpr ⟨htied, hgen⟩)
        (compareConnections_eq_zero_iff.mpr ⟨htied', hgen.symm⟩)]
      exact ⟨fun hrtt _ => ⟨fun _ => hrtt, hself⟩, fun hfar => (hfar htied).1 hgen⟩
    · have hne : compareConnections a b ≠ 0 := fun h => hgen (compareConnections_eq_zero_iff.mp h).2
      have hne' : compareConnections b a ≠ 0 := fun h => hgen (compareConnections_eq_zero_iff.mp h).2.symm
      rw [hysteresis_iff_of_ne hne hne', compareConnections_tied htied, compareConnections_tied htied',
        toInt_sub_both_neg_iff]
      exact ⟨fun hdiff _ => ⟨fun h => absurd h hgen, hdiff⟩, fun hfar => (hfar htied).2⟩
  · have htied' : ¬ b.Tied a := fun h => htied ⟨h.1.symm, h.2.symm⟩
    have hne : compareConnections a b ≠ 0 := fun h => htied (compareConnections_eq_zero_iff.mp h).1
    have hne' : compareConnections b a ≠ 0 := fun h => htied' (compareConnections_eq_zero_iff.mp h).1
    rw [hysteresis_iff_of_ne hne hne']
    refine ⟨fun _ h => absurd h htied, fun _ => ?_⟩
    rcases compareConnections_untied htied with ⟨heq, -⟩ | ⟨-, hlt⟩
    · omega
    · have hback := compareConnections_of_key_lt htied' hlt
      omega

end Libjingle.P2P
