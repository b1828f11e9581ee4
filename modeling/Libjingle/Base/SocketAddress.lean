import Libjingle.Base.Words
import Mathlib.Data.List.Lex
import Mathlib.Data.Prod.Lex

/-!
# Addresses (`base/ipaddress.cc`, `base/socketaddress.cc`)

An IP address is the number that its bytes stand for in network order, so `memcmp` on IPv6
addresses and the comparison of IPv4 addresses in host order are comparisons of numbers.
A host name is its bytes, and `std::string` compares these lexicographically.

* **`SocketAddress.less_iff`**, `SocketAddress.equal_iff`: `operator<` is a linear order up to
  `operator==`.
-/

namespace Libjingle

/-- `IPAddress`, by `family_`: `AF_UNSPEC`, `AF_INET`, `AF_INET6`. -/
inductive IPAddress where
  | unspec
  | v4 (addr : Uint32)
  | v6 (addr : BitVec 128)
  deriving DecidableEq, Repr

def IPAddress.less : IPAddress → IPAddress → Bool
  | .unspec, .unspec => false
  | .unspec, _ => true
  | .v4 a, .v4 b => a < b
  | .v4 _, .v6 _ => true
  | .v4 _, .unspec => false
  | .v6 a, .v6 b => a < b
  | .v6 _, _ => false

/-- `IPIsAny`. -/
def ipIsAny : IPAddress → Bool
  | .v4 addr => addr = 0
  | .v6 addr => addr = 0
  | .unspec => false

/-- `SocketAddress`: a host name, an address and a port. -/
structure SocketAddress where
  hostname : List Uint8
  ip : IPAddress
  port : Uint16
  deriving DecidableEq, Repr

namespace SocketAddress

def ofIP (ip : IPAddress) (port : Uint16) : SocketAddress := ⟨[], ip, port⟩

def equalIPs (a b : SocketAddress) : Bool := a.ip = b.ip && (!ipIsAny a.ip || a.hostname = b.hostname)

/-- `EqualPorts`. -/
def equalPorts (a b : SocketAddress) : Bool := a.port = b.port

def equal (a b : SocketAddress) : Bool := a.equalIPs b && a.equalPorts b

def less (a b : SocketAddress) : Bool :=
  if a.ip.less b.ip then true
  else if b.ip.less a.ip then false
  else if ipIsAny b.ip ∧ a.hostname < b.hostname then true
  else if ipIsAny b.ip ∧ b.hostname < a.hostname then false
  else a.port < b.port

end SocketAddress

abbrev SocketId := ℕ

/-! ## The order of socket addresses -/

def IPAddress.rank : IPAddress → ℕ
  | .unspec => 0
  | .v4 addr => 1 + addr.toNat
  | .v6 addr => 1 + 2 ^ 32 + addr.toNat

/-- `operator<` compares ranks. -/
theorem IPAddress.less_iff (a b : IPAddress) : a.less b = true ↔ a.rank < b.rank := by
  cases a with
  | unspec =>
    cases b <;> simp only [IPAddress.less, IPAddress.rank, true_iff, Bool.false_eq_true, false_iff] <;>
      omega
  | v4 x =>
    have hx := x.isLt
    cases b with
    | v4 y => simp [IPAddress.less, IPAddress.rank, BitVec.lt_def]
    | _ => simp only [IPAddress.less, IPAddress.rank, true_iff, Bool.false_eq_true, false_iff]; omega
  | v6 x =>
    cases b with
    | unspec => simp [IPAddress.less, IPAddress.rank]
    | v4 y =>
      have hy := y.isLt
      simp only [IPAddress.less, IPAddress.rank, Bool.false_eq_true, false_iff]
      omega
    | v6 y => simp [IPAddress.less, IPAddress.rank, BitVec.lt_def]

theorem IPAddress.rank_inj {a b : IPAddress} : a.rank = b.rank ↔ a = b := by
  refine ⟨fun h => ?_, fun h => h ▸ rfl⟩
  have hbound : ∀ x : Uint32, x.toNat < 2 ^ 32 := fun x => x.isLt
  cases a with
  | unspec =>
    cases b with
    | unspec => rfl
    | v4 y => simp only [IPAddress.rank] at h; omega
    | v6 y => simp only [IPAddress.rank] at h; omega
  | v4 x =>
    have hx := hbound x
    cases b with
    | unspec => simp only [IPAddress.rank] at h; omega
    | v4 y => rw [BitVec.eq_of_toNat_eq (Nat.add_left_cancel h)]
    | v6 y => simp only [IPAddress.rank] at h; omega
  | v6 x =>
    cases b with
    | unspec => simp only [IPAddress.rank] at h; omega
    | v4 y =>
      have hy := hbound y
      simp only [IPAddress.rank] at h
      omega
    | v6 y => rw [BitVec.eq_of_toNat_eq (Nat.add_left_cancel h)]

def hostRank (hostname : List Uint8) : List ℕ := hostname.map BitVec.toNat

theorem hostRank_lt (a b : List Uint8) : hostRank a < hostRank b ↔ a < b := by
  induction a generalizing b with
  | nil =>
    cases b with
    | nil => simp [hostRank]
    | cons y b => simp [hostRank]
  | cons x a ih =>
    cases b with
    | nil => simp [hostRank]
    | cons y b =>
      have := ih b
      unfold hostRank at this ⊢
      rw [List.map_cons, List.map_cons, List.cons_lt_cons_iff, List.cons_lt_cons_iff, this,
        BitVec.lt_def, BitVec.toNat_inj]

theorem hostRank_inj {a b : List Uint8} : hostRank a = hostRank b ↔ a = b :=
  (List.map_injective_iff.mpr fun _ _ h => BitVec.eq_of_toNat_eq h).eq_iff

namespace SocketAddress

def rank (a : SocketAddress) : ℕ ×ₗ (List ℕ ×ₗ ℕ) :=
  toLex (a.ip.rank, toLex (if ipIsAny a.ip then hostRank a.hostname else [], a.port.toNat))

theorem less_of_ip_eq {a b : SocketAddress} (h : a.ip = b.ip) : a.less b = true ↔ a.rank < b.rank := by
  have hirrefl : b.ip.less b.ip = false :=
    eq_false_of_ne_true fun hlt => lt_irrefl _ ((IPAddress.less_iff _ _).mp hlt)
  unfold less rank
  rw [h, hirrefl]
  simp only [Prod.Lex.toLex_lt_toLex, lt_irrefl, false_or, true_and, Bool.false_eq_true, if_false]
  by_cases hany : ipIsAny b.ip = true
  · simp only [hany, true_and, if_true, hostRank_lt, hostRank_inj]
    by_cases hlt : a.hostname < b.hostname
    · simp only [hlt, if_true, true_or]
    · by_cases hgt : b.hostname < a.hostname
      · have hne : a.hostname ≠ b.hostname := by
          rintro heq
          rw [heq] at hgt hlt
          exact hlt hgt
        simp only [hlt, hgt, hne, if_true, if_false, false_and, or_self, Bool.false_eq_true]
      · have heq : a.hostname = b.hostname := by
          rw [← hostRank_lt] at hlt hgt
          exact hostRank_inj.mp (le_antisymm (not_lt.mp hgt) (not_lt.mp hlt))
        have hself : ¬b.hostname < b.hostname := heq ▸ hlt
        simp only [heq, hself, if_false, false_or, true_and, decide_eq_true_eq, BitVec.lt_def]
  · simp only [hany, false_and, if_false, Bool.false_eq_true, lt_irrefl, false_or, true_and,
      decide_eq_true_eq, BitVec.lt_def]

theorem less_iff (a b : SocketAddress) : a.less b = true ↔ a.rank < b.rank := by
  have hrank : a.ip.rank ≠ b.ip.rank → (a.rank < b.rank ↔ a.ip.rank < b.ip.rank) := by
    intro hne
    unfold rank
    rw [Prod.Lex.toLex_lt_toLex]
    exact ⟨fun h => h.resolve_right fun h' => hne h'.1, .inl⟩
  rcases lt_trichotomy a.ip.rank b.ip.rank with hlt | heq | hgt
  · rw [hrank hlt.ne]
    unfold less
    rw [if_pos ((IPAddress.less_iff _ _).mpr hlt)]
    exact ⟨fun _ => hlt, fun _ => rfl⟩
  · exact less_of_ip_eq (IPAddress.rank_inj.mp heq)
  · rw [hrank hgt.ne']
    unfold less
    rw [if_neg (fun h => lt_asymm hgt ((IPAddress.less_iff _ _).mp h)),
      if_pos ((IPAddress.less_iff _ _).mpr hgt)]
    exact ⟨fun h => absurd h (by decide), fun h => absurd h (lt_asymm hgt)⟩

theorem equal_iff (a b : SocketAddress) : a.equal b = true ↔ a.rank = b.rank := by
  unfold equal equalIPs equalPorts rank
  simp only [Bool.and_eq_true, decide_eq_true_eq, Bool.or_eq_true, Bool.not_eq_true',
    EmbeddingLike.apply_eq_iff_eq, Prod.mk.injEq, IPAddress.rank_inj, BitVec.toNat_inj]
  rw [and_assoc]
  refine and_congr_right fun hip => and_congr_left fun _ => ?_
  rw [hip]
  by_cases hany : ipIsAny b.ip = true
  · simp only [hany, Bool.true_eq_false, false_or, if_true, hostRank_inj]
  · simp only [hany, Bool.false_eq_true, if_false, true_or]

end SocketAddress

/-! ## Pairs of addresses (`base/socketaddresspair.cc`) -/

/-- `SocketAddressPair`. -/
structure SocketAddressPair where
  source : SocketAddress
  destination : SocketAddress
  deriving DecidableEq, Repr

namespace SocketAddressPair

def equal (a b : SocketAddressPair) : Bool := a.source.equal b.source && a.destination.equal b.destination

def less (a b : SocketAddressPair) : Bool :=
  if a.source.less b.source then true
  else if b.source.less a.source then false
  else if a.destination.less b.destination then true
  else false

/-- The place of a pair in the lexicographic order. -/
def rank (a : SocketAddressPair) : (ℕ ×ₗ (List ℕ ×ₗ ℕ)) ×ₗ (ℕ ×ₗ (List ℕ ×ₗ ℕ)) :=
  toLex (a.source.rank, a.destination.rank)

theorem less_iff (a b : SocketAddressPair) : a.less b = true ↔ a.rank < b.rank := by
  unfold less rank
  rw [Prod.Lex.toLex_lt_toLex]
  split_ifs with hlt hgt hdest
  · exact ⟨fun _ => .inl ((SocketAddress.less_iff _ _).mp hlt), fun _ => rfl⟩
  · rw [SocketAddress.less_iff] at hlt hgt
    exact ⟨fun h => h.elim, fun h => (h.elim hlt fun h => hgt.ne' h.1).elim⟩
  all_goals
    rw [SocketAddress.less_iff] at hlt hgt hdest
    have heq : a.source.rank = b.source.rank := le_antisymm (not_lt.mp hgt) (not_lt.mp hlt)
  · exact ⟨fun _ => .inr ⟨heq, hdest⟩, fun _ => rfl⟩
  · exact ⟨fun h => h.elim, fun h => (h.elim hlt fun h => hdest h.2).elim⟩

theorem equal_iff (a b : SocketAddressPair) : a.equal b = true ↔ a.rank = b.rank := by
  simp only [equal, rank, Bool.and_eq_true, SocketAddress.equal_iff, EmbeddingLike.apply_eq_iff_eq,
    Prod.mk.injEq]

end SocketAddressPair

end Libjingle
