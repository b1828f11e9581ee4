import Libjingle.P2P.References

/-!
# The role and the protocol of ports

Main results: **`ports_follow`**, **`stale_port`**.
-/

variable {port : Port}

namespace Libjingle.P2P.P2PTransportChannel

open Lib

variable {s s' : P2PTransportChannel} {Z : ℕ → Prop} {b : Prop}

def Follows (b : Prop) (s : P2PTransportChannel) (port : Port) : Prop :=
  port.iceRole = s.iceRole ∧ (s.protocolType ≠ .hybrid ∨ b → port.iceProtocol = s.protocolType)

/-- The invariant, for the ports of the channel, in `Z`, or with connections. -/
structure PortsFollow (Z : ℕ → Prop) (b : Prop) (s : P2PTransportChannel) : Prop where
  known : ∀ p, p ∈ s.ports ∨ Z p → ∀ port, s.portAt p = some port → Follows b s port
  owners : ∀ c ∈ s.connections, ∀ port, s.portOf c = some port → Follows b s port

theorem portOf_eq_some {c : ℕ} (h : s.portOf c = some port) :
    ∃ conn, s.connectionAt c = some conn ∧ s.portAt conn.port = some port :=
  Option.bind_eq_some_iff.mp h

namespace PortsFollow

theorem owner (h : PortsFollow Z b s) {c : ℕ} {conn : Connection} (hc : c ∈ s.connections)
    (hconn : s.connectionAt c = some conn) (hport : s.portAt conn.port = some port) :
    Follows b s port :=
  h.owners c hc port (Option.bind_eq_some_iff.mpr ⟨conn, hconn, hport⟩)

theorem mono (h : PortsFollow Z b s) (hrole : s'.iceRole = s.iceRole)
    (htype : s'.protocolType = s.protocolType) (hports : ∀ p ∈ s'.ports, p ∈ s.ports)
    (hportAt : ∀ p port', s'.portAt p = some port' →
      ∃ port, s.portAt p = some port ∧ port.iceRole = port'.iceRole ∧
        port.iceProtocol = port'.iceProtocol)
    (howner : ∀ c ∈ s'.connections, ∀ conn', s'.connectionAt c = some conn' →
      (conn'.port ∈ s.ports ∨ Z conn'.port) ∨
        c ∈ s.connections ∧ ∃ conn, s.connectionAt c = some conn ∧ conn.port = conn'.port) :
    PortsFollow Z b s' := by
  have hsame : ∀ port port' : Port, port.iceRole = port'.iceRole →
      port.iceProtocol = port'.iceProtocol → Follows b s port → Follows b s' port' := by
    intro port port' hr hp hfollows
    unfold Follows at hfollows ⊢
    rwa [hrole, htype, ← hr, ← hp]
  constructor
  · intro p hp port' hport'
    obtain ⟨port, hport, hr, hproto⟩ := hportAt p port' hport'
    exact hsame port port' hr hproto (h.known p (hp.imp (hports p) id) port hport)
  · intro c hc port' hport'
    obtain ⟨conn', hconn', hport'⟩ := portOf_eq_some hport'
    obtain ⟨port, hport, hr, hproto⟩ := hportAt _ port' hport'
    refine hsame port port' hr hproto ?_
    rcases howner c hc conn' hconn' with hknown | ⟨hmem, conn, hconn, howns⟩
    · exact h.known _ hknown port hport
    · exact h.owner hmem hconn (howns ▸ hport)

theorem of_eq (h : PortsFollow Z b s) (hrole : s'.iceRole = s.iceRole)
    (htype : s'.protocolType = s.protocolType) (hports : s'.ports = s.ports)
    (hportAt : s'.portAt = s.portAt) (hconnections : s'.connections = s.connections)
    (hconnectionAt : s'.connectionAt = s.connectionAt) : PortsFollow Z b s' :=
  h.mono hrole htype (fun _ hp => hports ▸ hp)
    (fun _ port hp => ⟨port, hportAt ▸ hp, rfl, rfl⟩)
    fun _ hc conn hconn => .inr ⟨hconnections ▸ hc, conn, hconnectionAt ▸ hconn, rfl⟩

theorem stirs (hstirs : Stirs s s') (h : PortsFollow Z b s) : PortsFollow Z b s' := by
  refine h.mono hstirs.iceRole hstirs.protocolType (fun _ hp => hstirs.ports ▸ hp)
    (fun _ port hp => ⟨port, hstirs.portAt ▸ hp, rfl, rfl⟩) fun c hc conn' hconn' => .inr ?_
  have howner := hstirs.owner c
  rw [hconn', Option.map_some] at howner
  exact ⟨hstirs.connections.mem_iff.mp hc, Option.map_eq_some_iff.mp howner.symm⟩

theorem portAt_update {p q : ℕ} {new port' : Port} (hport : s.portAt p = some port)
    (hrole : port.iceRole = new.iceRole) (hprotocol : port.iceProtocol = new.iceProtocol)
    (h : Function.update s.portAt p (some new) q = some port') :
    ∃ port, s.portAt q = some port ∧ port.iceRole = port'.iceRole ∧
      port.iceProtocol = port'.iceProtocol := by
  by_cases hq : q = p
  · subst hq
    rw [Function.update_self] at h
    cases h
    exact ⟨port, hport, hrole, hprotocol⟩
  · rw [Function.update_of_ne hq] at h
    exact ⟨port', h, rfl, rfl⟩

theorem adds {p : ℕ} (hport : s.portAt p = some port) (hp : p ∈ s.ports ∨ Z p)
    (h : PortsFollow Z b s) (candidate : Candidate) (new : NewConnection) :
    PortsFollow Z b ((s.newConnection p port candidate new).addConnection s.fresh) := by
  refine PortsFollow.stirs (s := { s.newConnection p port candidate new with
    connections := s.connections ++ [s.fresh] }) ?_ ?_
  · exact stirs_modifyConnection (fun _ => by rfl) _ _
  refine h.mono rfl rfl (fun _ hq => hq) (fun q port' hq => portAt_update hport (by rfl) (by rfl) hq) ?_
  intro c hc conn' hconn'
  change Function.update s.connectionAt s.fresh _ c = some conn' at hconn'
  by_cases hfresh : c = s.fresh
  · subst hfresh
    rw [Function.update_self] at hconn'
    cases hconn'
    exact .inl hp
  · rw [Function.update_of_ne hfresh] at hconn'
    have hmem : c ∈ s.connections := by
      rcases List.mem_append.mp hc with hmem | hmem
      · exact hmem
      · exact absurd (List.mem_singleton.mp hmem) hfresh
    exact .inr ⟨hmem, conn', hconn', rfl⟩

theorem onUseCandidate (h : PortsFollow Z b s) (c : ℕ) : PortsFollow Z b (s.onUseCandidate c) := by
  unfold P2PTransportChannel.onUseCandidate
  split
  · split
    · exact PortsFollow.stirs (stirs_requestSort _) (h.of_eq rfl rfl rfl rfl rfl rfl)
    · exact h
  · exact h.of_eq rfl rfl rfl rfl rfl rfl

theorem leavePort (h : PortsFollow Z b s) (conn : Connection) : PortsFollow Z b (s.leavePort conn) := by
  unfold P2PTransportChannel.leavePort
  split
  · rename_i port hport
    exact h.mono rfl rfl (fun _ hq => hq) (fun q port' hq => portAt_update hport (by rfl) (by rfl) hq)
      fun c hc conn' hconn' => .inr ⟨hc, conn', hconn', rfl⟩
  · exact h

theorem deleteConnection (h : PortsFollow Z b s) (c : ℕ) : PortsFollow Z b (s.deleteConnection c) := by
  unfold P2PTransportChannel.deleteConnection
  cases s.connectionAt c with
  | none => exact h
  | some conn =>
    have hleft := h.leavePort conn
    dsimp only
    generalize s.leavePort conn = t at hleft ⊢
    rw [Refs.onConnectionDestroyed_eq]
    refine hleft.mono rfl rfl (fun _ hq => hq) (fun _ port hq => ⟨port, hq, rfl, rfl⟩) ?_
    intro c' hc' conn' hconn'
    change Function.update t.connectionAt c none c' = some conn' at hconn'
    by_cases hne : c' = c
    · simp [hne] at hconn'
    · rw [Function.update_of_ne hne] at hconn'
      exact .inr ⟨List.mem_of_mem_erase hc', conn', hconn', rfl⟩

theorem closed : Closed Z (PortsFollow Z b) where
  stirs := .stirs
  adds := fun _ _ candidate new hport hp h => h.adds hport hp candidate new
  uses := fun c _ h => h.onUseCandidate c
  deletes := fun c h => h.deleteConnection c
  erases := fun _ _ h => h.of_eq rfl rfl rfl rfl rfl rfl

end PortsFollow

/-! ## Roles and protocols are set -/

def Reaches (s : P2PTransportChannel) (q : Port → Bool) : Prop :=
  ∀ c ∈ s.connections, ∀ conn ∈ s.connectionAt c,
    conn.port ∈ s.ports ∨ ∀ port ∈ s.portAt conn.port, q port = true

instance (s : P2PTransportChannel) (q : Port → Bool) : Decidable (s.Reaches q) := by
  unfold Reaches
  infer_instance

theorem PortsFollow.setPorts {f : Port → Port} {q : Port → Bool}
    (hset : ∀ p ∈ s.ports, ∀ port, s.portAt p = some port → Follows b s (f port))
    (hkept : ∀ c ∈ s.connections, ∀ conn port, s.connectionAt c = some conn →
      s.portAt conn.port = some port → q port = true → Follows b s port)
    (hreach : s.Reaches q) : PortsFollow (fun _ => False) b (s.setPorts f) := by
  have hlisted : ∀ p ∈ s.ports, ∀ port', (s.setPorts f).portAt p = some port' → Follows b s port' := by
    intro p hp port' hport'
    change (if p ∈ s.ports then (s.portAt p).map f else s.portAt p) = some port' at hport'
    rw [if_pos hp] at hport'
    obtain ⟨port, hport, rfl⟩ := Option.map_eq_some_iff.mp hport'
    exact hset p hp port hport
  constructor
  · intro p hp port' hport'
    exact hlisted p (hp.resolve_right id) port' hport'
  · intro c hc port' hport'
    obtain ⟨conn, hconn, hport'⟩ := portOf_eq_some hport'
    by_cases hp : conn.port ∈ s.ports
    · exact hlisted _ hp port' hport'
    · change (if conn.port ∈ s.ports then (s.portAt conn.port).map f else s.portAt conn.port) =
        some port' at hport'
      rw [if_neg hp] at hport'
      exact hkept c hc conn port' hconn hport' ((hreach c hc conn hconn).resolve_left hp port' hport')

theorem portsFollow_setIceRole (h : PortsFollow (fun _ => False) b s) {role : IceRole}
    (hreach : s.Reaches (·.iceRole == role)) : PortsFollow (fun _ => False) b (s.setIceRole role) := by
  unfold setIceRole
  split
  · refine PortsFollow.setPorts (s := { s with iceRole := role }) ?_ ?_ hreach
    · intro p hp port hport
      exact ⟨rfl, (h.known p (.inl hp) port hport).2⟩
    · intro c hc conn port hconn hport hq
      exact ⟨beq_iff_eq.mp hq, (h.owner hc hconn hport).2⟩
  · exact h

theorem portsFollow_setIceProtocolType (h : PortsFollow (fun _ => False) b s) {type : IceProtocolType}
    (hreach : s.Reaches (·.iceProtocol == type)) :
    PortsFollow (fun _ => False) b (s.setIceProtocolType type) := by
  refine PortsFollow.setPorts (s := { s with protocolType := type }) ?_ ?_ hreach
  · intro p hp port hport
    exact ⟨(h.known p (.inl hp) port hport).1, fun _ => rfl⟩
  · intro c hc conn port hconn hport hq
    exact ⟨(h.owner hc hconn hport).1, fun _ => beq_iff_eq.mp hq⟩

/-! ## Ports -/

theorem portsFollow_rememberPort (h : PortsFollow (fun _ => False) b s) (port : Port) :
    PortsFollow (fun _ => False) b (s.rememberPort port) := by
  have hportAt : ∀ p port', (s.rememberPort port).portAt p = some port' →
      Follows b s port' ∨ s.portAt p = some port' ∧ p ≠ s.fresh := by
    intro p port' hport'
    change Function.update s.portAt s.fresh _ p = some port' at hport'
    by_cases hp : p = s.fresh
    · subst hp
      rw [Function.update_self] at hport'
      cases hport'
      exact .inl ⟨rfl, fun _ => rfl⟩
    · rw [Function.update_of_ne hp] at hport'
      exact .inr ⟨hport', hp⟩
  constructor
  · intro p hp port' hport'
    rcases hportAt p port' hport' with hnew | ⟨hold, hne⟩
    · exact hnew
    · rcases List.mem_append.mp (hp.resolve_right id) with hmem | hmem
      · exact h.known p (.inl hmem) port' hold
      · exact absurd (List.mem_singleton.mp hmem) hne
  · intro c hc port' hport'
    obtain ⟨conn, hconn, hport'⟩ := portOf_eq_some hport'
    rcases hportAt _ port' hport' with hnew | ⟨hold, -⟩
    · exact hnew
    · exact h.owner hc hconn hold

theorem portsFollow_portTimeout (h : PortsFollow (fun _ => False) b s) (p : ℕ) :
    PortsFollow (fun _ => False) b (s.portTimeout p) := by
  unfold portTimeout
  split
  · exact h
  · split
    · refine h.mono rfl rfl (fun _ hq => List.mem_of_mem_erase hq) (fun q port' hq => ?_)
        fun c hc conn hconn => .inr ⟨hc, conn, hconn, rfl⟩
      change Function.update s.portAt p none q = some port' at hq
      by_cases hne : q = p
      · simp [hne] at hq
      · rw [Function.update_of_ne hne] at hq
        exact ⟨port', hq, rfl, rfl⟩
    · exact h

theorem portsFollow_inferProtocol (hinfer : ¬ b) (h : PortsFollow (fun _ => False) b s) (p : ℕ)
    (protocol : IceProtocolType) : PortsFollow (fun _ => False) b (s.step (.inferProtocol p protocol)) := by
  simp only [step]
  split
  · rename_i port hport
    split
    · rename_i hhybrid
      -- a port that the invariant is about infers nothing, unless the channel is in hybrid mode
      have hinferred : ∀ portq, Follows b s portq → portq = port →
          Follows b s (port.setIceProtocolType protocol) := by
        rintro portq hfollows rfl
        refine ⟨hfollows.1, fun htype => ?_⟩
        have hsame := hfollows.2 htype
        rw [Port.isHybridIce, beq_iff_eq] at hhybrid
        exact absurd (hsame.symm.trans hhybrid) (htype.resolve_right hinfer)
      have hportAt : ∀ q port', (∀ portq, s.portAt q = some portq → Follows b s portq) →
          Function.update s.portAt p (some (port.setIceProtocolType protocol)) q = some port' →
          Follows b s port' := by
        intro q port' hq hport'
        by_cases hqp : q = p
        · subst hqp
          rw [Function.update_self] at hport'
          cases hport'
          exact hinferred port (hq port hport) rfl
        · rw [Function.update_of_ne hqp] at hport'
          exact hq port' hport'
      constructor
      · exact fun q hq port' hport' => hportAt q port' (h.known q hq) hport'
      · intro c hc port' hport'
        obtain ⟨conn, hconn, hport'⟩ := portOf_eq_some hport'
        exact hportAt _ port' (fun _ hportq => h.owner hc hconn hportq) hport'
    · exact h
  · exact h

/-! ## Runs -/

def PortsReached (s : P2PTransportChannel) : Event → Prop
  | .setIceRole role => s.Reaches (·.iceRole == role)
  | .setIceProtocolType type => s.Reaches (·.iceProtocol == type)
  | .unknownAddress _ _ p _ _ _ _ _ _ =>
    p ∈ s.ports ∨ ∀ port ∈ s.portAt p, port.iceRole = s.iceRole ∧ port.iceProtocol = s.protocolType
  | _ => True

instance (s : P2PTransportChannel) (event : Event) : Decidable (PortsReached s event) := by
  unfold PortsReached
  split <;> infer_instance

def Infers : Event → Prop
  | .inferProtocol _ _ => True
  | _ => False

/-- **An event keeps the ports following the channel**. -/
theorem portsFollow_step (event : Event) (h : PortsFollow (fun _ => False) b s)
    (hreached : PortsReached s event) (hinfer : b → ¬ Infers event) :
    PortsFollow (fun _ => False) b (s.step event) := by
  by_cases hplain : IsPlain event
  · exact PortsFollow.closed.step_plain h hplain
  cases event with
  | portReady creates now port =>
    simp only [step]
    split
    · exact PortsFollow.closed.onPortReady (portsFollow_rememberPort h port)
    · exact h
  | portTimeout p => exact portsFollow_portTimeout h p
  | inferProtocol p protocol =>
    exact portsFollow_inferProtocol (fun hb => hinfer hb trivial) h p protocol
  | unknownAddress creates now p address proto stunMsg remoteUsername portMuxed new =>
    have hat : PortsFollow (· = p) b s := by
      refine ⟨?_, h.owners⟩
      rintro q (hq | rfl) port hport
      · exact h.known q (.inl hq) port hport
      · rcases hreached with hmem | hsame
        · exact h.known q (.inl hmem) port hport
        · exact ⟨(hsame port hport).1, fun _ => (hsame port hport).2⟩
    have hafter : PortsFollow (· = p) b
        (s.onUnknownAddress creates now p address proto stunMsg remoteUsername portMuxed new) :=
      PortsFollow.closed.onUnknownAddress hat rfl address proto stunMsg remoteUsername portMuxed new
    exact ⟨fun q hq => hafter.known q (.inl (hq.resolve_right id)), hafter.owners⟩
  | message m now =>
    cases m with
    | sort =>
      simp only [step]
      split
      · exact PortsFollow.stirs (stirs_sortConnections _ now) (h.of_eq rfl rfl rfl rfl rfl rfl)
      · exact h
    | ping => exact absurd (show Message.ping ≠ .sort by decide) hplain
    | delete c => exact absurd (show Message.delete c ≠ .sort by simp) hplain
  | setIceRole role => exact portsFollow_setIceRole h hreached
  | setIceProtocolType type => exact portsFollow_setIceProtocolType h hreached
  | signalingReady =>
    simp only [step, onSignalingReady]
    split
    · exact h.mono rfl rfl (fun _ hp => absurd hp List.not_mem_nil)
        (fun _ port hp => ⟨port, hp, rfl, rfl⟩) fun c hc conn hconn => .inr ⟨hc, conn, hconn, rfl⟩
    · exact h
  | reset connectRequested =>
    obtain ⟨hconnections, -⟩ := reset_eq s connectRequested
    have hports : (s.reset connectRequested).ports = [] := by
      unfold reset
      cases connectRequested <;> rfl
    constructor
    · exact fun p hp => absurd (hports ▸ hp.resolve_right id) List.not_mem_nil
    · exact fun c hc => absurd (hconnections ▸ hc) List.not_mem_nil
  | candidate | useCandidate | connection | setIceTiebreaker | setIceCredentials
  | setRemoteIceCredentials | setRemoteIceMode | setIncomingOnly | connect => exact absurd trivial hplain

/-- What a comparison relies on: the ports have the role and the protocol of the channel. -/
structure Comparable (b : Prop) (s : P2PTransportChannel) : Prop where
  follows : ∀ c ∈ s.connections, ∀ port, s.portOf c = some port → Follows b s port
  protocol : ∀ c ∈ s.connections, ∀ c' ∈ s.connections, ∀ pair pair', s.pairAt c = some pair →
    s.pairAt c' = some pair' → s.protocolType ≠ .hybrid ∨ b →
      pair.port.iceProtocol = pair'.port.iceProtocol
  priority : ∀ c ∈ s.connections, ∀ pair, s.pairAt c = some pair →
    pair.priority = pair.connection.priority s.iceRole

theorem PortsFollow.comparable (h : PortsFollow Z b s) : Comparable b s := by
  have hpair : ∀ c ∈ s.connections, ∀ pair, s.pairAt c = some pair → Follows b s pair.port := by
    intro c hc pair hpair
    obtain ⟨conn, hconn, hmap⟩ := Option.bind_eq_some_iff.mp hpair
    obtain ⟨port, hport, rfl⟩ := Option.map_eq_some_iff.mp hmap
    exact h.owner hc hconn hport
  exact {
    follows := h.owners
    protocol := fun c hc c' hc' pair pair' hp hp' htype =>
      ((hpair c hc pair hp).2 htype).trans ((hpair c' hc' pair' hp').2 htype).symm
    priority := fun c hc pair hp => by rw [Pair.priority, (hpair c hc pair hp).1] }

/-- **Ports follow the channel** if they are in `ports_`, or have the new value already, when the
role and the protocol are set. -/
theorem ports_follow (component : ℕ) (events : List Event) (h : Guarded step PortsReached (new component) events) :
    Comparable (∀ event ∈ events, ¬ Infers event) (run step (new component) events) := by
  have hinfers : Guarded step (fun _ event => (∀ event ∈ events, ¬ Infers event) → ¬ Infers event)
      (new component) events :=
    guarded_of_forall (fun event hmem hall => hall event hmem) _
  refine PortsFollow.comparable (Z := fun _ => False) (run_invariant ?_ ?_ (guarded_and.mpr ⟨h, hinfers⟩))
  · exact fun s event hs hG => portsFollow_step event hs hG.1 hG.2
  · exact ⟨fun p hp => absurd (hp.resolve_right id) List.not_mem_nil,
      fun c hc => absurd hc List.not_mem_nil⟩

def exampleSet : List Event := [.setIceRole .controlled, .setIceProtocolType .rfc5245]

def exampleRestart : List Event :=
  [.setIceCredentials (text "user") (text "password"),
    .setIceCredentials (text "other") (text "password"), .signalingReady]

theorem ports_follow_restart :
    Guarded step PortsReached (new 1) (exampleConnected ++ exampleSet ++ exampleRestart) ∧
      Comparable (∀ event ∈ exampleConnected ++ exampleSet ++ exampleRestart, ¬ Infers event)
        (run step (new 1) (exampleConnected ++ exampleSet ++ exampleRestart)) :=
  ⟨by decide, ports_follow 1 _ (by decide)⟩

/-- **After a restart the port of a connection that stays is not told of the role.** -/
theorem stale_port :
    2 ∈ (run step (new 1) (exampleConnected ++ exampleRestart ++ exampleSet)).connections ∧
      ∃ port, (run step (new 1) (exampleConnected ++ exampleRestart ++ exampleSet)).portOf 2 = some port ∧
        port.iceRole = .unknown ∧ port.iceProtocol = .hybrid ∧
        (run step (new 1) (exampleConnected ++ exampleRestart ++ exampleSet)).iceRole = .controlled ∧
        (run step (new 1) (exampleConnected ++ exampleRestart ++ exampleSet)).protocolType = .rfc5245 := by
  generalize hs : run step (new 1) (exampleConnected ++ exampleRestart ++ exampleSet) = s
  have hport : (s.portOf 2).any fun port => port.iceRole == .unknown && port.iceProtocol == .hybrid := by
    rw [← hs]
    decide
  obtain ⟨port, hport, htest⟩ := (Option.any_eq_true _ _).mp hport
  simp only [Bool.and_eq_true, beq_iff_eq] at htest
  refine ⟨?_, port, hport, htest.1, htest.2, ?_, ?_⟩ <;> rw [← hs] <;> decide

end Libjingle.P2P.P2PTransportChannel
