import Libjingle.P2P.Sort

/-!
# The references of a channel to connections

Main results: **`references_valid`**, **`pending_dangles`**.
-/

namespace Libjingle.P2P.P2PTransportChannel

open Lib

variable {s : P2PTransportChannel}

/-- The best and the pending best connection are in the list, which repeats none. -/
structure NoDangling (s : P2PTransportChannel) : Prop where
  best : ∀ c, s.bestConnection = some c → c ∈ s.connections
  pending : ∀ c, s.pendingBestConnection = some c → c ∈ s.connections
  nodup : s.connections.Nodup

/-- The list is that of the connections that exist, and ports have a session. -/
structure Refs (s : P2PTransportChannel) : Prop extends NoDangling s where
  mem_iff : ∀ c, c ∈ s.connections ↔ (s.connectionAt c).isSome
  below : ∀ c, (s.connectionAt c).isSome → c < s.fresh
  session : ∀ p port, s.portAt p = some port → port.session ∈ s.allocatorSessions

namespace Refs

theorem stirs {s' : P2PTransportChannel} (hstirs : Stirs s s') (h : Refs s) : Refs s' where
  best := by
    intro c hc
    apply hstirs.connections.mem_iff.mpr
    rcases hstirs.best c hc with hbest | hpending | hmem
    · exact h.best c hbest
    · exact h.pending c hpending
    · exact hmem
  pending := fun c hc => hstirs.connections.mem_iff.mpr (h.pending c (hstirs.pending c hc))
  nodup := hstirs.connections.nodup_iff.mpr h.nodup
  mem_iff := fun c => by
    rw [hstirs.connections.mem_iff, h.mem_iff, hstirs.isSome_connectionAt]
  below := fun c hc => by
    rw [hstirs.fresh]
    exact h.below c (hstirs.isSome_connectionAt c ▸ hc)
  session := fun p port hp => by
    rw [hstirs.sessions]
    exact h.session p port (hstirs.portAt ▸ hp)

theorem adds (h : Refs s) {p : ℕ} {port : Port} (hport : s.portAt p = some port)
    (candidate : Candidate) (new : NewConnection) :
    Refs ((s.newConnection p port candidate new).addConnection s.fresh) := by
  refine Refs.stirs (s := { s.newConnection p port candidate new with
    connections := s.connections ++ [s.fresh] }) ?_ ?_
  · exact stirs_modifyConnection (fun _ => by rfl) _ _
  have hfresh : s.fresh ∉ s.connections := fun hmem =>
    Nat.lt_irrefl _ (h.below _ ((h.mem_iff _).mp hmem))
  exact {
    best := fun c hc => List.mem_append_left _ (h.best c hc)
    pending := fun c hc => List.mem_append_left _ (h.pending c hc)
    nodup := List.Nodup.append h.nodup (List.nodup_singleton _)
      (List.disjoint_singleton.mpr hfresh)
    mem_iff := by
      intro c
      change c ∈ s.connections ++ [s.fresh] ↔ (Function.update s.connectionAt s.fresh _ c).isSome
      rw [List.mem_append, List.mem_singleton, h.mem_iff]
      by_cases hc : c = s.fresh
      · simp [hc]
      · simp [hc]
    below := by
      intro c hc
      change (Function.update s.connectionAt s.fresh _ c).isSome at hc
      change c < s.fresh + 1
      by_cases hcf : c = s.fresh
      · omega
      · rw [Function.update_of_ne hcf] at hc
        exact Nat.lt_succ_of_lt (h.below c hc)
    session := by
      intro q portq hq
      change Function.update s.portAt p _ q = some portq at hq
      by_cases hqp : q = p
      · subst hqp
        rw [Function.update_self] at hq
        cases hq
        exact h.session q port hport
      · rw [Function.update_of_ne hqp] at hq
        exact h.session q portq hq }

theorem onUseCandidate (h : Refs s) {c : ℕ} (hc : (s.connectionAt c).isSome) : Refs (s.onUseCandidate c) := by
  have hmem := (h.mem_iff c).mpr hc
  unfold P2PTransportChannel.onUseCandidate
  split
  · split
    · refine Refs.stirs (stirs_requestSort _) ?_
      exact { h with
        best := fun c' hc' => Option.some.inj hc' ▸ hmem
        pending := fun _ hc' => by cases hc' }
    · exact h
  · exact { h with pending := fun c' hc' => Option.some.inj hc' ▸ hmem }

theorem leavePort (h : Refs s) (conn : Connection) : Refs (s.leavePort conn) := by
  unfold P2PTransportChannel.leavePort
  split
  · rename_i port hport
    refine { h with session := fun q portq hq => ?_ }
    change Function.update s.portAt conn.port _ q = some portq at hq
    by_cases hqp : q = conn.port
    · subst hqp
      rw [Function.update_self] at hq
      cases hq
      exact h.session _ port hport
    · rw [Function.update_of_ne hqp] at hq
      exact h.session q portq hq
  · exact h

theorem onConnectionDestroyed_eq (s : P2PTransportChannel) (c : ℕ) :
    s.onConnectionDestroyed c =
      { s.forgetConnection c with
        bestConnection := if s.bestConnection = some c then none else s.bestConnection
        messages := (s.onConnectionDestroyed c).messages
        sortDirty := (s.onConnectionDestroyed c).sortDirty } := by
  unfold onConnectionDestroyed
  dsimp only
  by_cases hbest : s.bestConnection = some c
  · rw [if_pos (show (s.forgetConnection c).bestConnection = some c from hbest), if_pos hbest]
    unfold requestSort
    split <;> rfl
  · rw [if_neg (show ¬ (s.forgetConnection c).bestConnection = some c from hbest), if_neg hbest]
    rfl

theorem deleteConnection (h : Refs s) (c : ℕ) : Refs (s.deleteConnection c) := by
  unfold P2PTransportChannel.deleteConnection
  cases s.connectionAt c with
  | none => exact h
  | some conn =>
    have hleft := h.leavePort conn
    dsimp only
    generalize s.leavePort conn = t at hleft ⊢
    have hother : ∀ {x : Option ℕ} {c' : ℕ}, (∀ c, x = some c → c ∈ t.connections) →
        (if x = some c then none else x) = some c' → c' ∈ t.connections.erase c := by
      intro x c' hx hc'
      split_ifs at hc' with hxc
      have hne : c' ≠ c := fun heq => hxc (heq ▸ hc')
      exact (List.mem_erase_of_ne hne).mpr (hx c' hc')
    rw [onConnectionDestroyed_eq]
    exact {
      best := fun c' hc' => hother hleft.best hc'
      pending := fun c' hc' => hother hleft.pending hc'
      nodup := hleft.nodup.erase c
      mem_iff := by
        intro c'
        change c' ∈ t.connections.erase c ↔ (Function.update t.connectionAt c none c').isSome
        rw [hleft.nodup.mem_erase_iff, hleft.mem_iff]
        by_cases hc : c' = c
        · simp [hc]
        · simp [hc]
      below := by
        intro c' hc'
        change (Function.update t.connectionAt c none c').isSome at hc'
        by_cases hc : c' = c
        · simp [hc] at hc'
        · rw [Function.update_of_ne hc] at hc'
          exact hleft.below c' hc'
      session := hleft.session }

end Refs

theorem closed_refs : Closed (fun _ => True) Refs where
  stirs := .stirs
  adds := fun _ _ candidate new hport _ h => h.adds hport candidate new
  uses := fun _ hc h => h.onUseCandidate hc
  deletes := fun c h => h.deleteConnection c
  erases := fun _ _ h => { h with }

/-! ## Ports and sessions -/

theorem refs_rememberPort (h : Refs s) {port : Port} (hport : port.session ∈ s.allocatorSessions) :
    Refs (s.rememberPort port) where
  best := h.best
  pending := h.pending
  nodup := h.nodup
  mem_iff := h.mem_iff
  below := fun c hc => Nat.lt_succ_of_lt (h.below c hc)
  session := by
    intro q portq hq
    change Function.update s.portAt s.fresh _ q = some portq at hq
    by_cases hqp : q = s.fresh
    · subst hqp
      rw [Function.update_self] at hq
      cases hq
      exact hport
    · rw [Function.update_of_ne hqp] at hq
      exact h.session q portq hq

theorem Refs.ofPorts {s' : P2PTransportChannel} (h : Refs s) (hbest : s'.bestConnection = s.bestConnection)
    (hpending : s'.pendingBestConnection = s.pendingBestConnection)
    (hconnections : s'.connections = s.connections) (hconnectionAt : s'.connectionAt = s.connectionAt)
    (hfresh : s'.fresh = s.fresh) (hsessions : s'.allocatorSessions = s.allocatorSessions)
    (hport : ∀ p port', s'.portAt p = some port' →
      ∃ port, s.portAt p = some port ∧ port.session = port'.session) : Refs s' where
  best := fun c hc => hconnections ▸ h.best c (hbest ▸ hc)
  pending := fun c hc => hconnections ▸ h.pending c (hpending ▸ hc)
  nodup := hconnections ▸ h.nodup
  mem_iff := fun c => by rw [hconnections, hconnectionAt, h.mem_iff]
  below := fun c hc => by
    rw [hfresh]
    exact h.below c (hconnectionAt ▸ hc)
  session := fun p port' hp => by
    obtain ⟨port, hport, hsession⟩ := hport p port' hp
    rw [hsessions, ← hsession]
    exact h.session p port hport

theorem refs_setPorts (h : Refs s) {f : Port → Port} (hf : ∀ port, (f port).session = port.session) :
    Refs (s.setPorts f) := by
  refine h.ofPorts rfl rfl rfl rfl rfl rfl fun p port' hp => ?_
  change (if p ∈ s.ports then (s.portAt p).map f else s.portAt p) = some port' at hp
  split at hp
  · obtain ⟨port, hport, rfl⟩ := Option.map_eq_some_iff.mp hp
    exact ⟨port, hport, (hf port).symm⟩
  · exact ⟨port', hp, rfl⟩

theorem refs_portTimeout (h : Refs s) (p : ℕ) : Refs (s.portTimeout p) := by
  unfold portTimeout
  split
  · exact h
  · split
    · refine h.ofPorts rfl rfl rfl rfl rfl rfl fun q port' hq => ?_
      change Function.update s.portAt p none q = some port' at hq
      by_cases hqp : q = p
      · simp [hqp] at hq
      · rw [Function.update_of_ne hqp] at hq
        exact ⟨port', hq, rfl⟩
    · exact h

theorem refs_inferProtocol (h : Refs s) (p : ℕ) (protocol : IceProtocolType) :
    Refs (s.step (.inferProtocol p protocol)) := by
  simp only [step]
  split
  · rename_i port hport
    split
    · refine h.ofPorts rfl rfl rfl rfl rfl rfl fun q port' hq => ?_
      change Function.update s.portAt p _ q = some port' at hq
      by_cases hqp : q = p
      · subst hqp
        rw [Function.update_self] at hq
        cases hq
        exact ⟨port, hport, rfl⟩
      · rw [Function.update_of_ne hqp] at hq
        exact ⟨port', hq, rfl⟩
    · exact h
  · exact h

theorem refs_addAllocatorSession (h : Refs s) : Refs s.addAllocatorSession where
  best := h.best
  pending := h.pending
  nodup := h.nodup
  mem_iff := h.mem_iff
  below := fun c hc => Nat.lt_succ_of_lt (h.below c hc)
  session := fun p port hp => List.mem_append_left _ (h.session p port hp)

/-! ## Reset -/

theorem portAt_deleteSessions (h : Refs s) (p : ℕ) : s.deleteSessions.portAt p = none := by
  change (s.portAt p).filter _ = none
  cases hp : s.portAt p with
  | none => rfl
  | some port => simp [Option.filter, h.session p port hp]

theorem connectionAt_deleteSessions (h : Refs s) (c : ℕ) : s.deleteSessions.connectionAt c = none := by
  change (s.connectionAt c).filter (fun conn => (s.deleteSessions.portAt conn.port).isSome) = none
  cases s.connectionAt c with
  | none => rfl
  | some conn => simp [Option.filter, portAt_deleteSessions h]

theorem reset_eq (s : P2PTransportChannel) (connectRequested : Bool) :
    (s.reset connectRequested).connections = [] ∧
      (s.reset connectRequested).bestConnection = none ∧
      (s.reset connectRequested).pendingBestConnection = s.pendingBestConnection ∧
      (s.reset connectRequested).connectionAt = s.deleteSessions.connectionAt ∧
      (s.reset connectRequested).portAt = s.deleteSessions.portAt := by
  unfold reset
  cases connectRequested <;> exact ⟨rfl, rfl, rfl, rfl, rfl⟩

theorem refs_reset (h : Refs s) (hpending : s.pendingBestConnection = none) (connectRequested : Bool) :
    Refs (s.reset connectRequested) := by
  obtain ⟨hconnections, hbest, hkept, hconnectionAt, hportAt⟩ := reset_eq s connectRequested
  have hnone : ∀ c, ((s.reset connectRequested).connectionAt c).isSome = false := fun c => by
    rw [hconnectionAt, connectionAt_deleteSessions h]
    rfl
  exact {
    best := fun c hc => by
      rw [hbest] at hc
      cases hc
    pending := fun c hc => by
      rw [hkept, hpending] at hc
      cases hc
    nodup := hconnections ▸ List.nodup_nil
    mem_iff := fun c => by simp [hconnections, hnone]
    below := fun c hc => by simp [hnone] at hc
    session := fun p port hp => by
      rw [hportAt, portAt_deleteSessions h] at hp
      cases hp }

/-! ## Runs -/

/-- No connection is waited for when the channel is reset. -/
def NothingAwaited (s : P2PTransportChannel) : Event → Prop
  | .reset _ => s.pendingBestConnection = none
  | _ => True

instance (s : P2PTransportChannel) (event : Event) : Decidable (NothingAwaited s event) := by
  unfold NothingAwaited
  split <;> infer_instance

/-- **An event keeps the references sound** unless the awaited connection goes in a reset. -/
theorem refs_step (event : Event) (h : Refs s) (hawaited : NothingAwaited s event) : Refs (s.step event) := by
  by_cases hplain : IsPlain event
  · exact closed_refs.step_plain h hplain
  cases event with
  | portReady creates now port =>
    simp only [step]
    split
    · exact closed_refs.onPortReady (refs_rememberPort h ‹_›)
    · exact h
  | portTimeout p => exact refs_portTimeout h p
  | inferProtocol p protocol => exact refs_inferProtocol h p protocol
  | unknownAddress creates now p address proto stunMsg remoteUsername portMuxed new =>
    exact closed_refs.onUnknownAddress h trivial _ _ _ _ _ _
  | message m now =>
    cases m with
    | sort =>
      simp only [step]
      split
      · exact Refs.stirs (stirs_sortConnections _ now) { h with }
      · exact h
    | ping => exact absurd (show Message.ping ≠ .sort by decide) hplain
    | delete c => exact absurd (show Message.delete c ≠ .sort by simp) hplain
  | setIceRole role =>
    simp only [step, setIceRole]
    split
    · exact refs_setPorts (s := { s with iceRole := role }) { h with } fun _ => rfl
    · exact h
  | setIceProtocolType type =>
    exact refs_setPorts (s := { s with protocolType := type }) { h with } fun _ => rfl
  | signalingReady =>
    simp only [step, onSignalingReady]
    split
    · exact refs_addAllocatorSession (s := { s with waitingForSignaling := false }) { h with }
    · exact h
  | reset connectRequested => exact refs_reset h hawaited connectRequested
  | candidate | useCandidate | connection | setIceTiebreaker | setIceCredentials
  | setRemoteIceCredentials | setRemoteIceMode | setIncomingOnly | connect => exact absurd trivial hplain

theorem refs_new (component : ℕ) : Refs (new component) where
  best := fun _ h => by cases h
  pending := fun _ h => by cases h
  nodup := List.nodup_nil
  mem_iff := fun _ => ⟨fun h => absurd h List.not_mem_nil, fun h => by cases h⟩
  below := fun _ h => by cases h
  session := fun _ _ h => by cases h

/-- **There are no dangling references** in a run that resets the channel only while no connection
is waited for. -/
theorem references_valid (component : ℕ) (events : List Event)
    (h : Guarded step NothingAwaited (new component) events) :
    NoDangling (run step (new component) events) :=
  (run_invariant (fun _ event hs hawaited => refs_step event hs hawaited) (refs_new component)
    h).toNoDangling

def exampleChosen : List Event :=
  .setIceRole .controlled :: exampleConnected ++
    [.setIceProtocolType .rfc5245, .useCandidate 2, .connection 2 50 (.response 20 none)]

theorem references_valid_chosen :
    Guarded step NothingAwaited (new 1) (exampleChosen ++ [.reset true]) ∧
      NoDangling (run step (new 1) (exampleChosen ++ [.reset true])) :=
  ⟨by decide, references_valid 1 _ (by decide)⟩

def exampleAwaited : List Event :=
  .setIceRole .controlled :: exampleConnected ++
    [.setIceProtocolType .rfc5245, .useCandidate 2, .reset true]

/-- **The connection that is waited for is gone after `Reset`.** -/
theorem pending_dangles : ¬ NoDangling (run step (new 1) exampleAwaited) := by
  intro h
  have hpending : (run step (new 1) exampleAwaited).pendingBestConnection = some 2 := by
    decide
  have hconnections : (run step (new 1) exampleAwaited).connections = [] := by decide
  have hmem := h.pending 2 hpending
  rw [hconnections] at hmem
  exact absurd hmem List.not_mem_nil

end Libjingle.P2P.P2PTransportChannel
