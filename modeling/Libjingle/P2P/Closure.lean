import Libjingle.P2P.Channel

/-!
# Properties that the events of a channel keep

Most functions of the channel change the states of connections and post messages; few create or delete
connections.

Main results: **`ClosedUnder.createConnections`**, **`ClosedUnder.step_plain`**, **`ClosedUnder.step`**.
-/

namespace Libjingle.P2P.P2PTransportChannel

open Lib

variable {s s' : P2PTransportChannel}

/-! ## Changes within the connections -/

/-- Neither ports nor connections are concerned, and messages are only added. -/
structure Still (s s' : P2PTransportChannel) : Prop where
  ports : s'.ports = s.ports
  portAt : s'.portAt = s.portAt
  sessions : s'.allocatorSessions = s.allocatorSessions
  fresh : s'.fresh = s.fresh
  connections : s'.connections = s.connections
  connectionAt : s'.connectionAt = s.connectionAt
  protocolType : s'.protocolType = s.protocolType
  iceRole : s'.iceRole = s.iceRole
  best : s'.bestConnection = s.bestConnection
  pending : s'.pendingBestConnection = s.pendingBestConnection
  posted : ∀ m ∈ s.messages, m ∈ s'.messages
  dirty : s'.sortDirty = s.sortDirty
  wasWritable : s'.wasWritable = s.wasWritable
  writable : s'.writable = s.writable

theorem Still.refl (s : P2PTransportChannel) : Still s s :=
  ⟨rfl, rfl, rfl, rfl, rfl, rfl, rfl, rfl, rfl, rfl, fun _ => id, rfl, rfl, rfl⟩

theorem still_post (s : P2PTransportChannel) (m : Message) : Still s (s.post m) :=
  { Still.refl s with posted := fun _ => List.mem_append_left _ }

theorem still_answer (s : P2PTransportChannel) (p : ℕ) (address : SocketAddress) (a : BindingAnswer) :
    Still s (s.answer p address a) := { Still.refl s with }

def Mild (f : Connection → Connection) : Prop :=
  ∀ conn, (f conn).port = conn.port ∧ (f conn).writeState = conn.writeState ∧
    (f conn).pruned = conn.pruned

/-- A relation that contains what happens to the connections that there are. -/
structure Stirring (R : P2PTransportChannel → P2PTransportChannel → Prop) : Prop where
  refl : ∀ s, R s s
  trans : ∀ {s s' s''}, R s s' → R s' s'' → R s s''
  ports : ∀ {s s'}, R s s' → s'.ports = s.ports
  live : ∀ {s s'}, R s s' → ∀ c, (s'.connectionAt c).isSome = (s.connectionAt c).isSome
  still : ∀ {s s'}, Still s s' → R s s'
  modifies : ∀ s c {f}, Mild f → R s (s.modifyConnection c f)
  setReadState : ∀ s c value, R s (s.setReadState c value)
  timesOut : ∀ s c, R s (s.setWriteState c .timeout)
  restarts : ∀ s c, R s (s.restartChecks c)
  updates : ∀ s now, R s (s.updateConnectionStates now)
  sorts : ∀ s now, R s (s.sortConnections now)

namespace Stirring

variable {R : P2PTransportChannel → P2PTransportChannel → Prop}

theorem ite (hR : Stirring R) {c : Prop} [Decidable c] {t : P2PTransportChannel} (h : R s t) :
    R s (if c then t else s) := by
  split_ifs
  · exact h
  · exact hR.refl s

theorem receivedPing (hR : Stirring R) (s : P2PTransportChannel) (c : ℕ) (now : Uint32) :
    R s (s.receivedPing c now) := by
  refine hR.trans ?_ (hR.setReadState _ c _)
  exact hR.modifies s c fun _ => ⟨rfl, rfl, rfl⟩

theorem answer (hR : Stirring R) (s : P2PTransportChannel) (p : ℕ) (address : SocketAddress)
    (a : BindingAnswer) : R s (s.answer p address a) := hR.still (still_answer s p address a)

theorem sendBindingResponse (hR : Stirring R) (s : P2PTransportChannel) (p : ℕ)
    (address : SocketAddress) (now : Uint32) : R s (s.sendBindingResponse p address now) := by
  unfold P2PTransportChannel.sendBindingResponse
  refine hR.trans (hR.answer s p address .success) ?_
  dsimp only
  split
  · exact hR.receivedPing _ _ now
  · exact hR.refl _

theorem pingNext (hR : Stirring R) (s : P2PTransportChannel) (now : Uint32) : R s (s.pingNext now) := by
  unfold P2PTransportChannel.pingNext
  cases s.findNextPingableConnection now with
  | none => exact hR.refl s
  | some c =>
    refine hR.trans ?_ (hR.modifies _ c fun _ => ⟨rfl, rfl, rfl⟩)
    exact hR.modifies s c fun _ => ⟨rfl, rfl, rfl⟩

theorem onPing (hR : Stirring R) (s : P2PTransportChannel) (now : Uint32) : R s (s.onPing now) :=
  hR.trans (hR.updates s now) (hR.trans (hR.pingNext _ now) (hR.still (still_post _ .ping)))

theorem onRequestErrorResponse (hR : Stirring R) (s : P2PTransportChannel) (c code : ℕ) :
    R s (s.onRequestErrorResponse c code) := by
  unfold P2PTransportChannel.onRequestErrorResponse
  split_ifs
  · exact hR.refl s
  · refine hR.trans ?_ (hR.timesOut _ c)
    exact hR.modifies s c fun _ => ⟨rfl, rfl, rfl⟩

theorem onData (hR : Stirring R) (s : P2PTransportChannel) (c : ℕ) (now : Uint32) : R s (s.onData c now) := by
  unfold P2PTransportChannel.onData
  refine hR.ite (hR.trans ?_ (hR.restarts _ c))
  exact hR.modifies s c fun _ => ⟨rfl, rfl, rfl⟩

theorem onIndication (hR : Stirring R) (s : P2PTransportChannel) (c : ℕ) (now : Uint32) :
    R s (s.onIndication c now) := by
  unfold P2PTransportChannel.onIndication
  exact hR.ite (hR.receivedPing s c now)

end Stirring

/-! ## Properties that changes within the connections and new connections keep -/

/-- `I` is kept by changes within the connections, by a new one at a port of the channel or in `Z`,
by the choice of one by the other side, and by the end of one. -/
structure ClosedUnder (R : P2PTransportChannel → P2PTransportChannel → Prop) (Z : ℕ → Prop)
    (I : P2PTransportChannel → Prop) : Prop where
  stirring : Stirring R
  stirs : ∀ {s s'}, R s s' → I s → I s'
  adds : ∀ {s} p port candidate new, s.portAt p = some port → (p ∈ s.ports ∨ Z p) → I s →
    I ((s.newConnection p port candidate new).addConnection s.fresh)
  uses : ∀ {s} c, (s.connectionAt c).isSome → I s → I (s.onUseCandidate c)
  deletes : ∀ {s} c, I s → I (s.deleteConnection c)
  erases : ∀ {s} m, m ≠ .sort → I s → I { s with messages := s.messages.erase m }

theorem ports_modifyConnection (s : P2PTransportChannel) (c : ℕ) (f : Connection → Connection) :
    (s.modifyConnection c f).ports = s.ports := by
  unfold modifyConnection
  cases s.connectionAt c <;> rfl

namespace ClosedUnder

variable {R : P2PTransportChannel → P2PTransportChannel → Prop} {Z : ℕ → Prop}
  {I : P2PTransportChannel → Prop} {creates : Creates} {now : Uint32} {p : ℕ}

theorem ports_addConnection (port : Port) (candidate : Candidate) (new : NewConnection) :
    ((s.newConnection p port candidate new).addConnection s.fresh).ports = s.ports := by
  rw [addConnection, ports_modifyConnection]
  rfl

variable (creates now) in
theorem createConnection (hI : ClosedUnder R Z I) (hp : p ∈ s.ports ∨ Z p) (h : I s)
    (candidate : Candidate) (originPort : Option ℕ) (readable : Bool) :
    I (s.createConnection creates now p candidate originPort readable).2 ∧
      (s.createConnection creates now p candidate originPort readable).2.ports = s.ports := by
  unfold P2PTransportChannel.createConnection
  cases hport : s.portAt p with
  | none => exact ⟨h, rfl⟩
  | some port =>
    dsimp only
    cases port.getConnection candidate.address with
    | some c =>
      dsimp only
      split
      · exact ⟨h, rfl⟩
      · have hstirs : R s (if readable then s.receivedPing c now else s) :=
          hI.stirring.ite (hI.stirring.receivedPing s c now)
        exact ⟨hI.stirs hstirs h, hI.stirring.ports hstirs⟩
    | none =>
      dsimp only
      split
      · exact ⟨h, rfl⟩
      · cases creates p candidate (getOrigin p originPort) with
        | none => exact ⟨h, rfl⟩
        | some new =>
          have hadd := hI.adds p port candidate new hport hp h
          have hstirs := hI.stirring.ite (c := readable = true) (hI.stirring.receivedPing
            ((s.newConnection p port candidate new).addConnection s.fresh) s.fresh now)
          exact ⟨hI.stirs hstirs hadd,
            (hI.stirring.ports hstirs).trans (ports_addConnection port candidate new)⟩

theorem createAll (hI : ClosedUnder R Z I) (candidate : Candidate) (originPort : Option ℕ)
    (readable : Bool) {ports : List ℕ} (hports : ∀ p ∈ ports, p ∈ s.ports ∨ Z p) (created : Bool)
    (h : I s) :
    let r := ports.foldl (fun (r : Bool × P2PTransportChannel) p =>
      let (done, s) := r.2.createConnection creates now p candidate originPort readable
      (r.1 || (done && some p == originPort), s)) (created, s)
    I r.2 ∧ r.2.ports = s.ports := by
  induction ports generalizing s created with
  | nil => exact ⟨h, rfl⟩
  | cons p ports ih =>
    obtain ⟨hstep, hsame⟩ := hI.createConnection creates now (hports p List.mem_cons_self) h candidate
      originPort readable
    have hrest := fun q hq => hsame ▸ hports q (List.mem_cons_of_mem p hq)
    obtain ⟨hrun, hports'⟩ := ih hrest _ hstep
    exact ⟨hrun, hports'.trans hsame⟩

theorem rememberRemoteCandidate (hI : ClosedUnder R Z I) (h : I s) (candidate : Candidate)
    (originPort : Option ℕ) : I (s.rememberRemoteCandidate candidate originPort) := by
  refine hI.stirs (hI.stirring.still ?_) h
  unfold P2PTransportChannel.rememberRemoteCandidate
  dsimp only
  split_ifs
  · exact { Still.refl s with }
  · exact { Still.refl s with }

theorem createAtOrigin (hI : ClosedUnder R Z I) (h : I s) (candidate : Candidate)
    (originPort : Option ℕ) (horigin : ∀ p, originPort = some p → Z p) (readable : Bool) :
    I (s.createAtOrigin creates now candidate originPort readable).2 := by
  unfold P2PTransportChannel.createAtOrigin
  cases originPort with
  | none => exact h
  | some origin =>
    dsimp only
    split
    · exact (hI.createConnection creates now (.inr (horigin origin rfl)) h _ _ _).1
    · exact h

variable (creates now) in
theorem createConnections (hI : ClosedUnder R Z I) (h : I s) (candidate : Candidate)
    (originPort : Option ℕ) (horigin : ∀ p, originPort = some p → Z p) (readable : Bool) :
    I (s.createConnections creates now candidate originPort readable).2 := by
  unfold P2PTransportChannel.createConnections
  dsimp only
  split
  · exact h
  · refine hI.rememberRemoteCandidate (hI.createAtOrigin ?_ _ _ horigin _) _ _
    exact (hI.createAll _ _ _ (fun p hp => .inl (List.mem_reverse.mp hp)) false h).1

theorem onCandidate (hI : ClosedUnder R Z I) (h : I s) (candidate : Candidate) :
    I (s.onCandidate creates now candidate) :=
  hI.stirs (hI.stirring.sorts _ now)
    (hI.createConnections creates now h candidate none nofun false)

theorem onPortReady (hI : ClosedUnder R Z I) {port : Port} (h : I (s.rememberPort port)) :
    I (s.onPortReady creates now port) := by
  unfold P2PTransportChannel.onPortReady
  dsimp only
  refine hI.stirs (hI.stirring.sorts _ now) ?_
  have hmem : s.fresh ∈ (s.rememberPort port).ports :=
    List.mem_append_right _ (List.mem_singleton_self _)
  generalize hremote : (s.rememberPort port).remoteCandidates = remotes
  clear hremote
  generalize s.rememberPort port = t at h hmem
  induction remotes generalizing t with
  | nil => exact h
  | cons remote remotes ih =>
    obtain ⟨hstep, hsame⟩ := hI.createConnection creates now (.inl hmem) h remote.candidate
      remote.originPort false
    exact ih _ hstep (hsame ▸ hmem)

theorem answer (hI : ClosedUnder R Z I) (h : I s) (address : SocketAddress) (a : BindingAnswer) :
    I (s.answer p address a) := hI.stirs (hI.stirring.answer s p address a) h

theorem addPeerReflexive (hI : ClosedUnder R Z I) (h : I s) (hp : Z p) {port : Port}
    (hport : s.portAt p = some port) (address : SocketAddress) (stunMsg : StunMessage)
    (portMuxed : Bool) (candidate : Candidate) :
    I (s.addPeerReflexive creates now p port address stunMsg portMuxed candidate) := by
  unfold P2PTransportChannel.addPeerReflexive
  cases stunMsg.getValue attrPriority with
  | none => exact hI.answer h _ _
  | some priority =>
    dsimp only
    split
    · split
      · exact h
      · exact hI.answer h _ _
    · split
      · exact hI.answer h _ _
      · refine hI.stirs (hI.stirring.sorts _ now)
          (hI.stirs (hI.stirring.sendBindingResponse _ _ _ now) ?_)
        exact hI.stirs (hI.stirring.receivedPing _ _ now) (hI.adds p port _ _ hport (.inr hp) h)

theorem onUnknownAddress (hI : ClosedUnder R Z I) (h : I s) (hp : Z p) (address : SocketAddress)
    (proto : ProtocolType) (stunMsg : StunMessage) (remoteUsername : List Uint8) (portMuxed : Bool)
    (new : NewCandidate) :
    I (s.onUnknownAddress creates now p address proto stunMsg remoteUsername portMuxed new) := by
  unfold P2PTransportChannel.onUnknownAddress
  cases hport : s.portAt p with
  | none => exact h
  | some port =>
    dsimp only
    cases s.requestCandidate port address proto remoteUsername new with
    | none =>
      dsimp only
      split
      · exact h
      · exact hI.answer h _ _
    | some candidate =>
      dsimp only
      split
      · exact hI.addPeerReflexive h hp hport _ _ _ _
      · have hcreate := hI.createConnections creates now h candidate (some p)
          (fun q hq => Option.some.inj hq ▸ hp) true
        split
        · exact hI.answer hcreate _ _
        · exact hI.stirs (hI.stirring.sorts _ now)
            (hI.stirs (hI.stirring.sendBindingResponse _ _ _ now) hcreate)

theorem onConnectionEvent (hI : ClosedUnder R Z I) (h : I s) (c : ℕ) (event : ConnectionEvent)
    (hresponse : ∀ elapsed prflx, event = .response elapsed prflx →
      I (s.onRequestResponse c elapsed prflx now)) : I (s.onConnectionEvent c now event) := by
  cases event with
  | request useCandidate =>
    unfold P2PTransportChannel.onConnectionEvent onBindingRequest
    cases hc : s.connectionAt c with
    | none => exact h
    | some conn =>
      have hstirs := hI.stirring.trans
        (hI.stirring.sendBindingResponse s conn.port conn.remoteCandidate.address now)
        (hI.stirring.restarts _ c)
      have hlive := hI.stirring.live hstirs c
      rw [hc] at hlive
      dsimp only
      split
      · exact hI.uses c hlive (hI.stirs hstirs h)
      · exact hI.stirs hstirs h
  | response elapsed prflx => exact hresponse elapsed prflx rfl
  | errorResponse code => exact hI.stirs (hI.stirring.onRequestErrorResponse s c code) h
  | indication => exact hI.stirs (hI.stirring.onIndication s c now) h
  | data => exact hI.stirs (hI.stirring.onData s c now) h
  | destroy =>
    exact hI.stirs (hI.stirring.trans (hI.stirring.setReadState s c _) (hI.stirring.timesOut _ c)) h
  | connected value =>
    refine hI.stirs ?_ h
    exact hI.stirring.modifies s c fun _ => ⟨rfl, rfl, rfl⟩

end ClosedUnder

/-! ## Events -/

/-- The events that neither touch ports nor take a sort. -/
def IsPlain : Event → Prop
  | .candidate .. | .useCandidate _ | .connection .. | .setIceTiebreaker _ | .setIceCredentials ..
  | .setRemoteIceCredentials .. | .setRemoteIceMode _ | .setIncomingOnly _ | .connect => True
  | .message m _ => m ≠ .sort
  | _ => False

/-- **Every plain event keeps a property that the changes keep**. -/
theorem ClosedUnder.step_plain {R : P2PTransportChannel → P2PTransportChannel → Prop} {Z : ℕ → Prop}
    {I : P2PTransportChannel → Prop} (hI : ClosedUnder R Z I) (h : I s) {event : Event}
    (hplain : IsPlain event)
    (hresponse : ∀ c now elapsed prflx, event = .connection c now (.response elapsed prflx) →
      I (s.onRequestResponse c elapsed prflx now)) : I (s.step event) := by
  have hsame : ∀ {t : P2PTransportChannel}, Still s t → I t := fun ht =>
    hI.stirs (hI.stirring.still ht) h
  cases event with
  | candidate creates now candidate => exact hI.onCandidate h candidate
  | useCandidate c =>
    simp only [step]
    split
    · exact hI.uses c ‹_› h
    · exact h
  | connection c now event =>
    exact hI.onConnectionEvent h c event fun elapsed prflx heq =>
      hresponse c now elapsed prflx (by rw [heq])
  | message m now =>
    simp only [step]
    split
    · have herased := hI.erases m hplain h
      cases m with
      | sort => exact absurd rfl hplain
      | ping => exact hI.stirs (hI.stirring.onPing _ now) herased
      | delete c => exact hI.deletes c herased
    · exact h
  | setIceTiebreaker tiebreaker =>
    simp only [step, setIceTiebreaker]
    split
    · exact h
    · exact hsame { Still.refl s with }
  | setIceCredentials ufrag pwd =>
    simp only [step, setIceCredentials]
    split
    · exact hsame { Still.refl s with }
    · exact hsame { Still.refl s with }
  | setRemoteIceCredentials ufrag pwd =>
    simp only [step, setRemoteIceCredentials]
    split
    · exact hsame { Still.refl s with }
    · exact hsame { Still.refl s with }
  | setRemoteIceMode mode => exact hsame { Still.refl s with }
  | setIncomingOnly value => exact hsame { Still.refl s with }
  | connect => exact hsame { still_post s .ping with }
  | portReady | portTimeout | inferProtocol | unknownAddress | setIceRole | setIceProtocolType
  | signalingReady | reset => exact hplain.elim

/-- Ports and settings change, but no connection, message or note of the channel. -/
structure Aside (s s' : P2PTransportChannel) : Prop where
  connectionAt : s'.connectionAt = s.connectionAt
  messages : s'.messages = s.messages
  dirty : s'.sortDirty = s.sortDirty
  wasWritable : s'.wasWritable = s.wasWritable
  writable : s'.writable = s.writable

/-- **Every event keeps a property that the changes keep** and that does not look at the ports, if a
response, a sort and a reset keep it. -/
theorem ClosedUnder.step {R : P2PTransportChannel → P2PTransportChannel → Prop}
    {I : P2PTransportChannel → Prop} (hI : ClosedUnder R (fun _ => True) I)
    (h : I s) (haside : ∀ {s'}, Aside s s' → I s') (event : Event)
    (hresponse : ∀ c now elapsed prflx, event = .connection c now (.response elapsed prflx) →
      I (s.onRequestResponse c elapsed prflx now))
    (hsort : ∀ now, event = .message .sort now → I (s.step event))
    (hreset : ∀ connectRequested, I (s.reset connectRequested)) : I (s.step event) := by
  by_cases hplain : IsPlain event
  · exact hI.step_plain h hplain hresponse
  cases event with
  | portReady creates now port =>
    simp only [P2PTransportChannel.step]
    split
    · exact hI.onPortReady (haside ⟨rfl, rfl, rfl, rfl, rfl⟩)
    · exact h
  | portTimeout p =>
    simp only [P2PTransportChannel.step, portTimeout]
    split
    · exact h
    · split
      · exact haside ⟨rfl, rfl, rfl, rfl, rfl⟩
      · exact h
  | inferProtocol p protocol =>
    simp only [P2PTransportChannel.step]
    split
    · split
      · exact haside ⟨rfl, rfl, rfl, rfl, rfl⟩
      · exact h
    · exact h
  | unknownAddress creates now p address proto stunMsg remoteUsername portMuxed new =>
    exact hI.onUnknownAddress h trivial _ _ _ _ _ _
  | message m now =>
    cases m with
    | sort => exact hsort now rfl
    | ping => exact absurd (show Message.ping ≠ .sort by decide) hplain
    | delete c => exact absurd (show Message.delete c ≠ .sort by simp) hplain
  | setIceRole role =>
    simp only [P2PTransportChannel.step, setIceRole]
    split
    · exact haside ⟨rfl, rfl, rfl, rfl, rfl⟩
    · exact h
  | setIceProtocolType type => exact haside ⟨rfl, rfl, rfl, rfl, rfl⟩
  | signalingReady =>
    simp only [P2PTransportChannel.step, onSignalingReady]
    split
    · exact haside ⟨rfl, rfl, rfl, rfl, rfl⟩
    · exact h
  | reset connectRequested => exact hreset connectRequested
  | candidate | useCandidate | connection | setIceTiebreaker | setIceCredentials
  | setRemoteIceCredentials | setRemoteIceMode | setIncomingOnly | connect => exact absurd trivial hplain

end Libjingle.P2P.P2PTransportChannel
