import Libjingle.Base.SocketAddress

/-!
# Addresses with host names (`base/socketaddress.{h,cc}`)

Main result: **`identity_iff`**.
-/

namespace Libjingle

/-! ## The functions -/

/-- `inet_pton` and `inet_ntop` of the system. -/
structure Inet where
  pton4 : List Uint8 → Option Uint32
  pton6 : List Uint8 → Option (BitVec 128)
  ntop4 : Uint32 → List Uint8
  ntop6 : BitVec 128 → List Uint8

/-- The string up to its first zero byte. -/
def cString (s : List Uint8) : List Uint8 := s.takeWhile (· ≠ 0)

def ipFromString (net : Inet) (str : List Uint8) : Option IPAddress :=
  match net.pton4 (cString str) with
  | some addr => some (.v4 addr)
  | none => (net.pton6 (cString str)).map .v6

def IPAddress.toString (net : Inet) : IPAddress → List Uint8
  | .unspec => []
  | .v4 addr => net.ntop4 addr
  | .v6 addr => net.ntop6 addr

/-- A `SocketAddress` with its scope and the flag for a literal address. -/
structure HostAddress extends SocketAddress where
  scopeId : ℤ
  literal : Bool
  deriving DecidableEq, Repr

namespace HostAddress

def clear : HostAddress where
  hostname := []
  literal := false
  ip := .unspec
  port := 0
  scopeId := 0

def setIP (a : HostAddress) (ip : IPAddress) : HostAddress :=
  { a with hostname := [], literal := false, ip := ip, scopeId := 0 }

def setHostname (net : Inet) (a : HostAddress) (hostname : List Uint8) : HostAddress :=
  match ipFromString net hostname with
  | some ip => { a with hostname := hostname, literal := true, ip := ip, scopeId := 0 }
  | none => { a with hostname := hostname, literal := false, ip := .unspec, scopeId := 0 }

def setResolvedIP (a : HostAddress) (ip : IPAddress) : HostAddress := { a with ip := ip, scopeId := 0 }

def setPort (a : HostAddress) (port : BitVec 32) : HostAddress := { a with port := port.setWidth 16 }

/-- `SetScopeID`. -/
def setScopeID (a : HostAddress) (id : ℤ) : HostAddress := { a with scopeId := id }

def isUnresolvedIP (a : HostAddress) : Bool := a.ip = .unspec && !a.literal && a.hostname ≠ []

/-- The addresses that the constructors and setters build. -/
inductive Built (net : Inet) : HostAddress → Prop
  | clear : Built net clear
  | setIP {a : HostAddress} (ip : IPAddress) (h : Built net a) : Built net (a.setIP ip)
  | setHostname {a : HostAddress} (hostname : List Uint8) (h : Built net a) :
    Built net (a.setHostname net hostname)
  | setResolvedIP {a : HostAddress} (ip : IPAddress) (h : Built net a) : Built net (a.setResolvedIP ip)
  | setPort {a : HostAddress} (port : BitVec 32) (h : Built net a) : Built net (a.setPort port)
  | setScopeID {a : HostAddress} (id : ℤ) (h : Built net a) : Built net (a.setScopeID id)

theorem Built.hostname {net : Inet} {a : HostAddress} (h : Built net a) (hliteral : a.literal = false)
    (hne : a.hostname ≠ []) : ipFromString net a.hostname = none := by
  induction h with
  | clear => exact absurd rfl hne
  | setIP ip h ih => exact absurd rfl hne
  | setHostname hostname h ih =>
    unfold HostAddress.setHostname at hliteral ⊢
    split at hliteral
    · cases hliteral
    · rename_i hnone
      rw [hnone]
  | setResolvedIP ip h ih => exact ih hliteral hne
  | setPort port h ih => exact ih hliteral hne
  | setScopeID id h ih => exact ih hliteral hne

/-! ## Identity -/

/-- `operator<`, as a relation. -/
def Less (a b : HostAddress) : Prop := a.less b.toSocketAddress = true

def Incomparable (a b : HostAddress) : Prop := ¬Less a b ∧ ¬Less b a

def Distinguished (a b : HostAddress) : Prop :=
  a.isUnresolvedIP = true → b.isUnresolvedIP = true → a.hostname ≠ b.hostname →
    a.equal b.toSocketAddress = false

theorem less_rank (a b : HostAddress) : Less a b ↔ a.rank < b.rank := SocketAddress.less_iff _ _

theorem incomparable_iff (a b : HostAddress) : Incomparable a b ↔ a.rank = b.rank := by
  unfold Incomparable
  rw [less_rank, less_rank, not_lt, not_lt]
  exact ⟨fun ⟨hba, hab⟩ => le_antisymm hab hba, fun h => ⟨h.ge, h.le⟩⟩

theorem less_strictWeakOrder : IsStrictWeakOrder HostAddress Less where
  irrefl a := fun h => lt_irrefl _ ((less_rank a a).mp h)
  trans a b c hab hbc :=
    (less_rank a c).mpr (((less_rank a b).mp hab).trans ((less_rank b c).mp hbc))
  incomp_trans a b c hab hbc :=
    (incomparable_iff a c).mpr (((incomparable_iff a b).mp hab).trans ((incomparable_iff b c).mp hbc))

theorem equal_of_unresolved {a b : HostAddress} (ha : a.isUnresolvedIP = true) (hb : b.isUnresolvedIP = true) :
    a.equal b.toSocketAddress = true ↔ a.port = b.port := by
  unfold isUnresolvedIP at ha hb
  simp only [Bool.and_eq_true, decide_eq_true_eq] at ha hb
  simp [SocketAddress.equal, SocketAddress.equalIPs, SocketAddress.equalPorts, ha.1.1, hb.1.1, ipIsAny]

/-- **The comparisons of addresses**: `operator<` is a strict weak order whose ties are the equal
ones; unresolved addresses are equal exactly if their ports are. -/
theorem identity_iff (a b : HostAddress) :
    IsStrictWeakOrder HostAddress Less ∧
      (Incomparable a b ↔ a.equal b.toSocketAddress = true) ∧
      (Distinguished a b ↔
        ¬(a.isUnresolvedIP = true ∧ b.isUnresolvedIP = true ∧ a.hostname ≠ b.hostname ∧ a.port = b.port)) := by
  refine ⟨less_strictWeakOrder, ?_, ?_⟩
  · rw [incomparable_iff, SocketAddress.equal_iff]
  · constructor
    · rintro h ⟨ha, hb, hne, hport⟩
      exact Bool.false_ne_true ((h ha hb hne).symm.trans ((equal_of_unresolved ha hb).mpr hport))
    · intro h ha hb hne
      exact eq_false_of_ne_true fun heq => h ⟨ha, hb, hne, (equal_of_unresolved ha hb).mp heq⟩

/-- Two unresolved addresses that are equal: `a:80` and `b:80`. -/
theorem unresolved_equal :
    ∃ a b : HostAddress, Built (Inet.mk (fun _ => none) (fun _ => none) (fun _ => []) (fun _ => [])) a ∧
      Built (Inet.mk (fun _ => none) (fun _ => none) (fun _ => []) (fun _ => [])) b ∧
      ¬Distinguished a b := by
  refine ⟨_, _, .setPort 80 (.setHostname [97] .clear), .setPort 80 (.setHostname [98] .clear), ?_⟩
  intro h
  exact absurd (h (by decide) (by decide) (by decide)) (by decide)

end HostAddress

end Libjingle
