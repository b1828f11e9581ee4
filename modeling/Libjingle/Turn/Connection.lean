import Libjingle.Lib.SearchTree
import Libjingle.Base.SocketAddress

/-!
# The connections of a TURN server (`p2p/base/turnserver.cc`)

A client is known by a `Connection`, and the allocations are kept in a `std::map` under connections.

Main results: **`ordered_iff_oneWay`**, **`connection_less_both`**.
-/

variable {a b : Connection}

namespace Libjingle

open Lib

/-- `ProtocolType`. -/
inductive ProtocolType where
  | udp | tcp | ssltcp
  deriving DecidableEq, Repr

def ProtocolType.toNat : ProtocolType → ℕ
  | udp => 0
  | tcp => 1
  | ssltcp => 2

theorem ProtocolType.toNat_inj {a b : ProtocolType} : a.toNat = b.toNat ↔ a = b := by
  cases a <;> cases b <;> decide

/-- `TurnServer::Connection`: the key of an allocation. -/
structure Connection where
  src : SocketAddress
  dst : SocketAddress
  proto : ProtocolType
  socket : SocketId
  deriving DecidableEq, Repr

namespace Connection

/-- `Connection::operator==`. -/
def equal (a b : Connection) : Bool := a.src.equal b.src && a.dst.equal b.dst && a.proto = b.proto

/-- `Connection::operator<`. -/
def less (a b : Connection) : Bool :=
  a.src.less b.src || a.dst.less b.dst || a.proto.toNat < b.proto.toNat

def rank (a : Connection) : (ℕ ×ₗ (List ℕ ×ₗ ℕ)) ×ₗ ((ℕ ×ₗ (List ℕ ×ₗ ℕ)) ×ₗ ℕ) :=
  toLex (a.src.rank, toLex (a.dst.rank, a.proto.toNat))

theorem less_iff (a b : Connection) :
    a.less b = true ↔
      a.src.rank < b.src.rank ∨ a.dst.rank < b.dst.rank ∨ a.proto.toNat < b.proto.toNat := by
  simp only [less, Bool.or_eq_true, SocketAddress.less_iff, decide_eq_true_eq, or_assoc]

theorem equal_iff (a b : Connection) : a.equal b = true ↔ a.rank = b.rank := by
  simp only [equal, rank, Bool.and_eq_true, SocketAddress.equal_iff, decide_eq_true_eq,
    EmbeddingLike.apply_eq_iff_eq, Prod.mk.injEq, ProtocolType.toNat_inj, and_assoc]

/-- No part of `b` is less than that of `a`. -/
def Below (a b : Connection) : Prop :=
  b.src.less a.src = false ∧ b.dst.less a.dst = false ∧ ¬b.proto.toNat < a.proto.toNat

theorem below_iff (a b : Connection) : a.Below b ↔
    a.src.rank ≤ b.src.rank ∧ a.dst.rank ≤ b.dst.rank ∧ a.proto.toNat ≤ b.proto.toNat := by
  simp only [Below, ← Bool.not_eq_true, SocketAddress.less_iff, not_lt]

def OneWay (K : Connection → Prop) : Prop := ∀ a b, K a → K b → a.Below b ∨ b.Below a

theorem Below.rank_le (h : a.Below b) : a.rank ≤ b.rank := by
  obtain ⟨hsrc, hdst, hproto⟩ := (below_iff a b).mp h
  unfold rank
  rw [Prod.Lex.toLex_le_toLex, Prod.Lex.toLex_le_toLex]
  rcases hsrc.lt_or_eq with hlt | heq
  · exact .inl hlt
  · refine .inr ⟨heq, ?_⟩
    rcases hdst.lt_or_eq with hlt' | heq'
    · exact .inl hlt'
    · exact .inr ⟨heq', hproto⟩

theorem Below.not_less (h : a.Below b) : b.less a = false := by
  obtain ⟨hsrc, hdst, hproto⟩ := (below_iff a b).mp h
  rw [← Bool.not_eq_true, less_iff]
  rintro (h | h | h)
  · exact absurd h (not_lt.mpr hsrc)
  · exact absurd h (not_lt.mpr hdst)
  · exact absurd h (not_lt.mpr hproto)

theorem below_of_not_less (h : b.less a = false) : a.Below b := by
  rw [← Bool.not_eq_true, less_iff, not_or, not_or, not_lt, not_lt, not_lt] at h
  exact (below_iff a b).mpr h

theorem rank_eq_of_below (h : a.Below b) (h' : b.Below a) : a.rank = b.rank :=
  le_antisymm h.rank_le h'.rank_le

theorem not_less_of_rank_eq (h : a.rank = b.rank) : a.less b = false := by
  simp only [rank, EmbeddingLike.apply_eq_iff_eq, Prod.mk.injEq] at h
  rw [← Bool.not_eq_true, less_iff, h.1, h.2.1, h.2.2]
  simp only [lt_irrefl, or_self, not_false_eq_true]

theorem OneWay.ranked {K : Connection → Prop} (h : OneWay K) : Tree.Ranked less rank K := by
  intro a b ha hb
  constructor
  · intro hlt
    rcases h a b ha hb with hab | hba
    · refine lt_of_le_of_ne hab.rank_le fun heq => ?_
      rw [not_less_of_rank_eq heq] at hlt
      cases hlt
    · rw [hba.not_less] at hlt
      cases hlt
  · intro hlt
    by_contra hnot
    exact absurd (below_of_not_less (eq_false_of_ne_true hnot)).rank_le (not_le.mpr hlt)

/-- `operator<` is a strict weak ordering on `K`, and a map under it finds what was put. -/
structure OrderedOn (K : Connection → Prop) : Prop where
  irrefl : ∀ a, K a → a.less a = false
  asymm : ∀ a b, K a → K b → a.less b = true → b.less a = false
  trans : ∀ a b c, K a → K b → K c → a.less b = true → b.less c = true → a.less c = true
  incomp_trans : ∀ a b c, K a → K b → K c → a.less b = false ∧ b.less a = false →
    b.less c = false ∧ c.less b = false → a.less c = false ∧ c.less a = false
  incomp_iff : ∀ a b, K a → K b → (a.less b = false ∧ b.less a = false ↔ a.equal b = true)
  finds : ∀ (ops : List (Tree.Op Connection ℕ)) (t : Tree Connection ℕ) (k : Connection),
    (∀ op ∈ ops, K op.key) → K k → Tree.MapRun less ops t →
      t.find less k = Tree.lastValue equal k ops

theorem incomp_iff_rank (a b : Connection) : a.less b = false ∧ b.less a = false ↔ a.rank = b.rank :=
  ⟨fun h => rank_eq_of_below (below_of_not_less h.2) (below_of_not_less h.1),
    fun h => ⟨not_less_of_rank_eq h, not_less_of_rank_eq h.symm⟩⟩

theorem OneWay.orderedOn {K : Connection → Prop} (h : OneWay K) : OrderedOn K where
  irrefl a _ := not_less_of_rank_eq rfl
  asymm a b ha hb hab := by
    rcases h a b ha hb with hbelow | hbelow
    · exact hbelow.not_less
    · rw [hbelow.not_less] at hab
      cases hab
  trans a b c ha hb hc hab hbc := by
    rw [h.ranked a c ha hc]
    exact ((h.ranked a b ha hb).mp hab).trans ((h.ranked b c hb hc).mp hbc)
  incomp_trans a b c _ _ _ hab hbc := by
    rw [incomp_iff_rank] at hab hbc ⊢
    exact hab.trans hbc
  incomp_iff a b _ _ := by rw [incomp_iff_rank, equal_iff]
  finds ops t k hops hk hrun := Tree.find_of_mapRun h.ranked equal_iff hrun hops hk

/-- **`operator<` orders connections exactly if no two of them have parts that compare in opposite
directions.** -/
theorem ordered_iff_oneWay (K : Connection → Prop) : OrderedOn K ↔ OneWay K := by
  refine ⟨fun h a b ha hb => ?_, OneWay.orderedOn⟩
  cases hab : b.less a with
  | false => exact .inl (below_of_not_less hab)
  | true => exact .inr (below_of_not_less (h.asymm b a hb ha hab))

def udpClient : Connection := ⟨.ofIP (.v4 0x02020202) 1000, .ofIP .unspec 0, .udp, 0⟩

def udpClient' : Connection := ⟨.ofIP (.v4 0x03030303) 1000, .ofIP .unspec 0, .udp, 0⟩

def tcpClient : Connection := ⟨.ofIP (.v4 0x01010101) 1000, .ofIP (.v4 0x01010101) 1000, .tcp, 1⟩

/-- **Two clients that are less than each other.** -/
theorem connection_less_both :
    udpClient.less tcpClient = true ∧ tcpClient.less udpClient = true ∧
      ¬OrderedOn (fun _ => True) ∧
      ∃ ops t, Tree.MapRun less ops t ∧ Tree.lastValue equal tcpClient ops = some 1 ∧
        t.find less tcpClient = none := by
  refine ⟨by decide, by decide, fun h => ?_,
    [] ++ [.set tcpClient 1] ++ [.set udpClient 2] ++ [.set udpClient' 3],
    .node (.node .leaf tcpClient 1 .leaf) udpClient 2 (.node .leaf udpClient' 3 .leaf),
    ?_, by decide, by decide⟩
  · exact absurd (h.asymm udpClient tcpClient trivial trivial (by decide)) (by decide)
  · exact .set (.set (.set .nil rfl) rfl) (by decide)

end Connection

end Libjingle
