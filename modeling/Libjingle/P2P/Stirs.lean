import Libjingle.P2P.Closure

/-!
# What the functions of the channel may change

Main results: **`stirs_sortConnections`**, **`Closed.step_plain`**.
-/

namespace Libjingle.P2P.P2PTransportChannel

open Lib

variable {s s' s'' : P2PTransportChannel}

/-! ## Changes within the connections -/

/-- A change of states, order and choice; ports stay, messages are added. -/
structure Stirs (s s' : P2PTransportChannel) : Prop where
  ports : s'.ports = s.ports
  portAt : s'.portAt = s.portAt
  sessions : s'.allocatorSessions = s.allocatorSessions
  fresh : s'.fresh = s.fresh
  connections : s'.connections.Perm s.connections
  owner : ∀ c, (s'.connectionAt c).map Connection.port = (s.connectionAt c).map Connection.port
  protocolType : s'.protocolType = s.protocolType
  iceRole : s'.iceRole = s.iceRole
  best : ∀ c, s'.bestConnection = some c →
    s.bestConnection = some c ∨ s.pendingBestConnection = some c ∨ c ∈ s.connections
  pending : ∀ c, s'.pendingBestConnection = some c → s.pendingBestConnection = some c
  posted : ∀ m ∈ s.messages, m ∈ s'.messages
  dirty : s'.sortDirty = true → s.sortDirty = true ∨ .sort ∈ s'.messages

namespace Stirs

theorem of_eq (hports : s'.ports = s.ports) (hportAt : s'.portAt = s.portAt)
    (hsessions : s'.allocatorSessions = s.allocatorSessions) (hfresh : s'.fresh = s.fresh)
    (hconnections : s'.connections = s.connections) (hconnectionAt : s'.connectionAt = s.connectionAt)
    (htype : s'.protocolType = s.protocolType) (hrole : s'.iceRole = s.iceRole)
    (hbest : s'.bestConnection = s.bestConnection)
    (hpending : s'.pendingBestConnection = s.pendingBestConnection)
    (hmessages : s'.messages = s.messages) (hdirty : s'.sortDirty = s.sortDirty) : Stirs s s' where
  ports := hports
  portAt := hportAt
  sessions := hsessions
  fresh := hfresh
  connections := hconnections ▸ .refl _
  owner := fun _ => by rw [hconnectionAt]
  protocolType := htype
  iceRole := hrole
  best := fun _ h => .inl (hbest ▸ h)
  pending := fun _ h => hpending ▸ h
  posted := fun _ h => hmessages ▸ h
  dirty := fun h => .inl (hdirty ▸ h)

theorem refl (s : P2PTransportChannel) : Stirs s s :=
  of_eq rfl rfl rfl rfl rfl rfl rfl rfl rfl rfl rfl rfl

theorem trans (h : Stirs s s') (h' : Stirs s' s'') : Stirs s s'' where
  ports := h'.ports.trans h.ports
  portAt := h'.portAt.trans h.portAt
  sessions := h'.sessions.trans h.sessions
  fresh := h'.fresh.trans h.fresh
  connections := h'.connections.trans h.connections
  owner := fun c => (h'.owner c).trans (h.owner c)
  protocolType := h'.protocolType.trans h.protocolType
  iceRole := h'.iceRole.trans h.iceRole
  best := by
    intro c hc
    rcases h'.best c hc with hbest | hpending | hmem
    · exact h.best c hbest
    · exact .inr (.inl (h.pending c hpending))
    · exact .inr (.inr (h.connections.mem_iff.mp hmem))
  pending := fun c hc => h.pending c (h'.pending c hc)
  posted := fun m hm => h'.posted m (h.posted m hm)
  dirty := by
    intro hdirty
    rcases h'.dirty hdirty with hs' | hsort
    · rcases h.dirty hs' with hs | hsort
      · exact .inl hs
      · exact .inr (h'.posted _ hsort)
    · exact .inr hsort

theorem ite {c : Prop} [Decidable c] {t t' : P2PTransportChannel} (h : c → Stirs s t)
    (h' : ¬ c → Stirs s t') : Stirs s (if c then t else t') := by
  split_ifs with hc
  · exact h hc
  · exact h' hc

theorem when {c : Prop} [Decidable c] {t : P2PTransportChannel} (h : Stirs s t) :
    Stirs s (if c then t else s) := .ite (fun _ => h) fun _ => .refl s

theorem foldl {α : Type} {f : P2PTransportChannel → α → P2PTransportChannel}
    (h : ∀ s a, Stirs s (f s a)) (l : List α) (s : P2PTransportChannel) : Stirs s (l.foldl f s) := by
  induction l generalizing s with
  | nil => exact .refl s
  | cons a l ih => exact (h s a).trans (ih (f s a))

end Stirs

theorem stirs_setConnection {c : ℕ} {conn conn' : Connection} (h : s.connectionAt c = some conn)
    (hport : conn'.port = conn.port) : Stirs s (s.setConnection c conn') := by
  refine { Stirs.refl s with owner := fun c' => ?_ }
  by_cases hc : c' = c
  · subst hc
    simp [setConnection, h, hport]
  · simp [setConnection, hc]

theorem stirs_modifyConnection {f : Connection → Connection} (hf : ∀ conn, (f conn).port = conn.port)
    (s : P2PTransportChannel) (c : ℕ) : Stirs s (s.modifyConnection c f) := by
  unfold modifyConnection
  cases h : s.connectionAt c with
  | none => exact .refl s
  | some conn => exact stirs_setConnection h (hf conn)

theorem stirs_post (s : P2PTransportChannel) (m : Message) : Stirs s (s.post m) :=
  { Stirs.refl s with
    posted := fun _ hm => List.mem_append_left _ hm
    dirty := .inl }

theorem stirs_requestSort (s : P2PTransportChannel) : Stirs s s.requestSort := by
  unfold requestSort
  refine .ite (fun _ => ?_) fun _ => .refl s
  exact { Stirs.refl s with
    posted := fun m hm => List.mem_append_left _ hm
    dirty := fun _ => .inr (List.mem_append_right _ (List.mem_singleton_self _)) }

theorem stirs_onConnectionStateChange (s : P2PTransportChannel) (c : ℕ) : Stirs s (s.onConnectionStateChange c) := by
  unfold onConnectionStateChange
  refine Stirs.trans (.ite (fun h => ?_) fun _ => .refl s) (stirs_requestSort _)
  exact { Stirs.refl s with
    best := fun c' hc' => .inr (.inl (by rw [h.2.2.1, ← hc']; rfl))
    pending := fun _ h => by cases h }

theorem stirs_checkTimeout (s : P2PTransportChannel) (c : ℕ) : Stirs s (s.checkTimeout c) := by
  unfold checkTimeout
  exact .when (stirs_post s _)

theorem stirs_setReadState (s : P2PTransportChannel) (c : ℕ) (value : ReadState) :
    Stirs s (s.setReadState c value) := by
  unfold setReadState
  cases h : s.connectionAt c with
  | none => exact .refl s
  | some conn =>
    have hset : Stirs s (s.setConnection c { conn with readState := value }) := stirs_setConnection h rfl
    exact hset.trans (.when ((stirs_onConnectionStateChange _ c).trans (stirs_checkTimeout _ c)))

theorem stirs_setWriteState (s : P2PTransportChannel) (c : ℕ) (value : WriteState) :
    Stirs s (s.setWriteState c value) := by
  unfold setWriteState
  cases h : s.connectionAt c with
  | none => exact .refl s
  | some conn =>
    have hset : Stirs s (s.setConnection c { conn with writeState := value }) := stirs_setConnection h rfl
    exact hset.trans (.when ((stirs_onConnectionStateChange _ c).trans (stirs_checkTimeout _ c)))

theorem stirs_receivedPing (s : P2PTransportChannel) (c : ℕ) (now : Uint32) : Stirs s (s.receivedPing c now) := by
  refine Stirs.trans ?_ (stirs_setReadState _ c _)
  exact stirs_modifyConnection (fun _ => by rfl) s c

theorem stirs_prune (s : P2PTransportChannel) (c : ℕ) : Stirs s (s.prune c) := by
  unfold prune
  refine .when (Stirs.trans ?_ (stirs_setWriteState _ c _))
  exact stirs_modifyConnection (fun _ => by rfl) s c

theorem stirs_updateState (s : P2PTransportChannel) (c : ℕ) (now : Uint32) : Stirs s (s.updateState c now) := by
  unfold updateState
  exact Stirs.trans (.when (stirs_setReadState s c _))
    (Stirs.trans (.when (stirs_setWriteState _ c _)) (.when (stirs_setWriteState _ c _)))

theorem stirs_updateConnectionStates (s : P2PTransportChannel) (now : Uint32) :
    Stirs s (s.updateConnectionStates now) :=
  .foldl (fun s c => stirs_updateState s c now) _ s

/-! ## A sort -/

theorem stirs_pruneNetwork (s : P2PTransportChannel) (network : ℕ) : Stirs s (s.pruneNetwork network) := by
  unfold pruneNetwork
  cases s.getBestConnectionOnNetwork network with
  | none => exact .refl s
  | some primier =>
    refine .when (.foldl (fun s c => ?_) _ s)
    split
    · exact .when (stirs_prune s c)
    · exact .refl s

theorem stirs_updateChannelState (s : P2PTransportChannel) : Stirs s s.updateChannelState :=
  .of_eq rfl rfl rfl rfl rfl rfl rfl rfl rfl rfl rfl rfl

theorem stirs_handleWritable (s : P2PTransportChannel) : Stirs s s.handleWritable :=
  .of_eq rfl rfl rfl rfl rfl rfl rfl rfl rfl rfl rfl rfl

theorem stirs_handleNotWritable (s : P2PTransportChannel) : Stirs s s.handleNotWritable := by
  unfold handleNotWritable
  exact .when (.of_eq rfl rfl rfl rfl rfl rfl rfl rfl rfl rfl rfl rfl)

theorem stirs_sortList (s : P2PTransportChannel) : Stirs s s.sortList :=
  { Stirs.refl s with
    connections := List.mergeSort_perm _ _
    best := fun _ => .inl }

theorem stirs_chooseBest (s : P2PTransportChannel) : Stirs s s.chooseBest := by
  unfold chooseBest
  refine .when ?_
  exact { Stirs.refl s with best := fun _ hc => .inr (.inr (List.mem_of_head? hc)) }

theorem stirs_noteWritable (s : P2PTransportChannel) : Stirs s s.noteWritable := by
  unfold noteWritable
  exact .ite (fun _ => stirs_handleWritable s) fun _ => stirs_handleNotWritable s

theorem stirs_sortAndSwitch (s : P2PTransportChannel) : Stirs s s.sortAndSwitch :=
  (stirs_sortList s).trans <| (stirs_chooseBest _).trans <|
    (Stirs.foldl stirs_pruneNetwork _ _).trans <|
      (stirs_noteWritable _).trans (stirs_updateChannelState _)

/-- **A sort stirs the connections and no more**. -/
theorem stirs_sortConnections (s : P2PTransportChannel) (now : Uint32) : Stirs s (s.sortConnections now) := by
  unfold sortConnections
  refine (stirs_updateConnectionStates s now).trans (.ite (fun _ => stirs_updateChannelState _) ?_)
  intro _
  refine Stirs.trans ?_ (stirs_sortAndSwitch _)
  exact { Stirs.refl _ with dirty := fun h => by cases h }

/-! ## The events of a connection -/

theorem stirs_restartChecks (s : P2PTransportChannel) (c : ℕ) : Stirs s (s.restartChecks c) := by
  unfold restartChecks
  exact .when (stirs_setWriteState s c _)

theorem stirs_maybeAddPrflxCandidate (s : P2PTransportChannel) (c : ℕ) (prflx : Option Uint32) :
    Stirs s (s.maybeAddPrflxCandidate c prflx) := by
  unfold maybeAddPrflxCandidate
  cases prflx with
  | none => exact .refl s
  | some priority =>
    refine Stirs.trans ?_ (stirs_onConnectionStateChange _ c)
    exact stirs_modifyConnection (fun _ => by rfl) s c

theorem stirs_becomeReadable (s : P2PTransportChannel) (c : ℕ) (now : Uint32) : Stirs s (s.becomeReadable c now) := by
  unfold becomeReadable
  exact .when (stirs_receivedPing s c now)

theorem stirs_onRequestResponse (s : P2PTransportChannel) (c : ℕ) (elapsed : Uint32)
    (prflx : Option Uint32) (now : Uint32) : Stirs s (s.onRequestResponse c elapsed prflx now) := by
  unfold onRequestResponse
  dsimp only
  -- from the last change to the first
  refine Stirs.trans ?_ (.when (stirs_maybeAddPrflxCandidate _ c prflx))
  refine Stirs.trans ?_ (stirs_modifyConnection (fun _ => by rfl) _ c)
  refine Stirs.trans ?_ (stirs_becomeReadable _ c now)
  refine Stirs.trans ?_ (stirs_modifyConnection (fun _ => by rfl) _ c)
  exact stirs_setWriteState s c .writable

theorem Still.stirs (h : Still s s') : Stirs s s' where
  ports := h.ports
  portAt := h.portAt
  sessions := h.sessions
  fresh := h.fresh
  connections := h.connections ▸ .refl _
  owner := fun _ => by rw [h.connectionAt]
  protocolType := h.protocolType
  iceRole := h.iceRole
  best := fun _ hbest => .inl (h.best ▸ hbest)
  pending := fun _ hpending => h.pending ▸ hpending
  posted := h.posted
  dirty := fun hdirty => .inl (h.dirty ▸ hdirty)

theorem Stirs.isSome_connectionAt (h : Stirs s s') (c : ℕ) :
    (s'.connectionAt c).isSome = (s.connectionAt c).isSome := by
  rw [← Option.isSome_map (f := Connection.port), h.owner, Option.isSome_map]

theorem stirring_stirs : Stirring Stirs where
  refl := .refl
  trans := .trans
  ports := Stirs.ports
  live := Stirs.isSome_connectionAt
  still := Still.stirs
  modifies := fun s c _ hf => stirs_modifyConnection (fun conn => (hf conn).1) s c
  setReadState := stirs_setReadState
  timesOut := fun s c => stirs_setWriteState s c .timeout
  restarts := stirs_restartChecks
  updates := stirs_updateConnectionStates
  sorts := stirs_sortConnections

/-! ## Properties that changes within the connections and new connections keep -/

/-- `I` is kept by changes within the connections, by a new one at a port of the channel or in `Z`,
by the choice of one by the other side, and by the end of one. -/
structure Closed (Z : ℕ → Prop) (I : P2PTransportChannel → Prop) : Prop where
  stirs : ∀ {s s'}, Stirs s s' → I s → I s'
  adds : ∀ {s} p port candidate new, s.portAt p = some port → (p ∈ s.ports ∨ Z p) → I s →
    I ((s.newConnection p port candidate new).addConnection s.fresh)
  uses : ∀ {s} c, (s.connectionAt c).isSome → I s → I (s.onUseCandidate c)
  deletes : ∀ {s} c, I s → I (s.deleteConnection c)
  erases : ∀ {s} m, m ≠ .sort → I s → I { s with messages := s.messages.erase m }

namespace Closed

variable {Z : ℕ → Prop} {I : P2PTransportChannel → Prop} {creates : Creates} {now : Uint32} {p : ℕ}

theorem under (hI : Closed Z I) : ClosedUnder Stirs Z I where
  stirring := stirring_stirs
  stirs := hI.stirs
  adds := hI.adds
  uses := hI.uses
  deletes := hI.deletes
  erases := hI.erases

theorem onPortReady (hI : Closed Z I) {port : Port} (h : I (s.rememberPort port)) :
    I (s.onPortReady creates now port) := hI.under.onPortReady h

theorem onUnknownAddress (hI : Closed Z I) (h : I s) (hp : Z p) (address : SocketAddress)
    (proto : ProtocolType) (stunMsg : StunMessage) (remoteUsername : List Uint8) (portMuxed : Bool)
    (new : NewCandidate) :
    I (s.onUnknownAddress creates now p address proto stunMsg remoteUsername portMuxed new) :=
  hI.under.onUnknownAddress h hp address proto stunMsg remoteUsername portMuxed new

/-- **Every plain event keeps a closed property**. -/
theorem step_plain (hI : Closed Z I) (h : I s) {event : Event} (hplain : IsPlain event) : I (s.step event) :=
  hI.under.step_plain h hplain fun c now elapsed prflx _ =>
    hI.stirs (stirs_onRequestResponse s c elapsed prflx now) h

end Closed

end Libjingle.P2P.P2PTransportChannel
