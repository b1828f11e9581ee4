import Libjingle.Signaling.Session

/-!
# What is silent

Functions of a session that neither send anything nor enter a state, and leave the candidates that wait as
they are.
-/

variable {f : TransportProxy → TransportProxy}

namespace Libjingle.Signaling

open Lib P2P

namespace Transports

variable (n : Transports)

def unsentAt (name : Name) : List Candidate :=
  ((n.proxyAt name).map TransportProxy.unsentCandidates).getD []

def sentAt (name : Name) : List Candidate :=
  ((n.proxyAt name).map TransportProxy.sentCandidates).getD []

/-- The same candidates wait to be sent. -/
def Waits (n n' : Transports) : Prop := ∀ name, n'.unsentAt name = n.unsentAt name

theorem Waits.refl : n.Waits n := fun _ => rfl

variable {n} in
theorem Waits.trans {n' n'' : Transports} (h : n.Waits n') (h' : n'.Waits n'') : n.Waits n'' :=
  fun name => (h' name).trans (h name)

theorem waits_modifyTransport (t : ℕ) (f : Transport → Transport) : n.Waits (n.modifyTransport t f) :=
  fun _ => rfl

theorem unsentAt_modifyProxy (name name' : Name) (hname : ∀ proxy, (f proxy).contentName = proxy.contentName) :
    (n.modifyProxy name f).unsentAt name' =
      ((n.proxyAt name').map fun proxy =>
        if name' = name then (f proxy).unsentCandidates else proxy.unsentCandidates).getD [] := by
  unfold unsentAt
  rw [proxyAt_modifyProxy n name name' hname, Option.map_map]
  simp only [Function.comp_def, apply_ite TransportProxy.unsentCandidates]

theorem waits_modifyProxy (name : Name) (hname : ∀ proxy, (f proxy).contentName = proxy.contentName)
    (hunsent : ∀ proxy, (f proxy).unsentCandidates = proxy.unsentCandidates) :
    n.Waits (n.modifyProxy name f) := by
  intro name'
  rw [unsentAt_modifyProxy n name name' hname]
  simp only [hunsent, ite_self]
  rfl

theorem waits_of_proxies {n n' : Transports} (h : n'.proxies = n.proxies) : n.Waits n' := by
  intro name
  unfold unsentAt proxyAt
  rw [h]

theorem waits_foldl {α : Type} {f : Transports → α → Transports}
    (h : ∀ (n : Transports) (a : α), n.Waits (f n a)) (l : List α) : n.Waits (l.foldl f n) :=
  run_invariant (I := n.Waits) (fun n' a h' _ => h'.trans (h n' a)) (.refl n) (guarded_true n l)

theorem waits_getOrCreateProxy (name : Name) : n.Waits (n.getOrCreateProxy name) := by
  unfold getOrCreateProxy
  split
  · exact .refl n
  rename_i hnone
  rw [Option.not_isSome_iff_eq_none] at hnone
  intro name'
  by_cases hname : name' = name
  · subst hname
    have htake : (n.proxies.takeWhile fun proxy => proxy.contentName < name').find?
        (fun proxy => proxy.contentName = name') = none := by
      rw [List.find?_eq_none]
      intro proxy hproxy
      exact List.find?_eq_none.mp hnone proxy (List.takeWhile_subset _ hproxy)
    unfold unsentAt
    rw [hnone]
    simp [proxyAt, List.find?_append, htake]
  · have hsplit := List.takeWhile_append_dropWhile (p := fun proxy => decide (proxy.contentName < name))
      (l := n.proxies)
    unfold unsentAt proxyAt
    conv_rhs => rw [← hsplit]
    simp only [List.find?_append, List.find?_cons, Ne.symm hname, decide_false]

theorem waits_completeNegotiation (name : Name) : n.Waits (n.completeNegotiation name) := by
  unfold completeNegotiation
  split
  · split
    · exact .refl n
    · refine .trans ?_ (waits_modifyProxy _ _ (fun _ => rfl) fun _ => rfl)
      exact waits_foldl n (fun n ch => waits_of_proxies (proxies_setupChannel n _ ch)) _
  · exact .refl n

theorem waits_connectChannels (name : Name) : n.Waits (n.connectChannels name) := by
  unfold connectChannels
  split
  · refine .trans ?_ (waits_modifyTransport _ _ _)
    unfold prepareChannels
    split
    · exact .refl n
    · refine .trans ?_ (waits_modifyProxy _ _ (fun _ => rfl) fun _ => rfl)
      split
      · exact .refl n
      · exact waits_foldl n (fun n ch => waits_of_proxies (proxies_getOrCreateImpl n _ _)) _
  · exact .refl n

theorem waits_createChannel (name : Name) (component : ℕ) : n.Waits (n.createChannel name component) := by
  unfold createChannel
  split
  · refine .trans ?_ (waits_modifyProxy _ _ (fun _ => rfl) fun _ => rfl)
    split
    · exact waits_of_proxies (proxies_setupChannel n _ _)
    · split
      · exact waits_of_proxies (proxies_getOrCreateImpl n _ _)
      · exact .refl n
  · exact .refl n

theorem waits_destroyChannel (name : Name) (component : ℕ) : n.Waits (n.destroyChannel name component) := by
  unfold destroyChannel
  split
  · split
    · refine .trans ?_ (waits_modifyProxy _ _ (fun _ => rfl) fun _ => rfl)
      refine .trans ?_ (waits_of_proxies (proxies_replaceImpl _ _ _ _))
      split
      · exact .refl n
      · exact waits_of_proxies (proxies_setupChannel n _ _)
    · exact .refl n
  · exact .refl n

theorem waits_setupMux (name : Name) (target : ℕ) : n.Waits (n.setupMux name target) := by
  have hchannel (n : Transports) (ch : ℕ × Option ℕ) : n.Waits (n.setupMuxChannel target ch) := by
    unfold setupMuxChannel
    split <;> exact waits_of_proxies (proxies_replaceImpl _ _ _ _)
  unfold setupMux
  split
  · split
    · exact .refl n
    · refine .trans ?_ (waits_modifyProxy _ _ (fun _ => rfl) fun _ => rfl)
      exact waits_foldl n hchannel _
  · exact .refl n

theorem waits_enableMuxing (localDescription remoteDescription : SessionDescription) :
    n.Waits (n.enableMuxing localDescription remoteDescription) := by
  unfold enableMuxing
  split
  · split
    · split
      · split
        · unfold setSelectedProxy
          split
          · refine waits_foldl n (fun n name => ?_) _
            split
            · exact waits_setupMux n name _
            · exact .refl n
          · exact .refl n
        · exact .refl n
      · exact .refl n
    · exact .refl n
  · exact .refl n

theorem waits_negotiate (action : ContentAction) (name : Name) :
    n.Waits (if action = .answer then n.completeNegotiation name else n) := by
  split
  · exact waits_completeNegotiation n name
  · exact .refl n

theorem waits_pushdownLocal (refuses : Name → Bool) (sdesc : SessionDescription) (action : ContentAction)
    (names : List Name) : n.Waits (pushdownLocal refuses sdesc action names n) := by
  induction names generalizing n with
  | nil => exact .refl n
  | cons name names ih =>
    simp only [pushdownLocal]
    split
    · have hfirst := waits_negotiate n action name
      generalize (if action = .answer then n.completeNegotiation name else n) = n₁ at hfirst ⊢
      refine hfirst.trans ?_
      split
      · exact .refl _
      · exact .trans (waits_connectChannels _ name) (ih _)
    · exact ih n

theorem waits_pushdownRemote (refuses : Name → Bool) (sdesc : SessionDescription) (action : ContentAction)
    (names : List Name) : n.Waits (pushdownRemote refuses sdesc action names n) := by
  induction names generalizing n with
  | nil => exact .refl n
  | cons name names ih =>
    simp only [pushdownRemote]
    split
    · have hfirst := waits_negotiate n action name
      generalize (if action = .answer then n.completeNegotiation name else n) = n₁ at hfirst ⊢
      refine hfirst.trans ?_
      split
      · exact .refl _
      · exact ih _
    · exact ih n

theorem waits_connectAll : n.Waits n.connectAll := waits_foldl n (fun n name => n.waits_connectChannels name) _

theorem waits_createProxies (tinfos : List TransportInfo) : n.Waits (n.createProxies tinfos).2 := by
  induction tinfos generalizing n with
  | nil => exact .refl n
  | cons tinfo tinfos ih =>
    unfold createProxies
    split
    · exact .refl n
    · exact .trans (waits_getOrCreateProxy n _) (ih _)

theorem waits_onRemoteCandidatesFor (contentName : Name) (candidates : List Candidate) :
    n.Waits (n.onRemoteCandidatesFor contentName candidates).2 := by
  unfold onRemoteCandidatesFor
  split
  · exact .refl n
  · refine .trans (waits_completeNegotiation n contentName) ?_
    dsimp only
    split
    · exact .refl _
    · exact .trans (waits_modifyTransport _ _ _) (waits_connectChannels _ contentName)

theorem waits_onRemoteCandidates (tinfos : List TransportInfo) : n.Waits (n.onRemoteCandidates tinfos).2 := by
  induction tinfos generalizing n with
  | nil => exact .refl n
  | cons tinfo tinfos ih =>
    have hfor := waits_onRemoteCandidatesFor n tinfo.contentName tinfo.candidates
    unfold onRemoteCandidates
    split <;> rename_i heq <;> rw [heq] at hfor
    · exact hfor
    · exact hfor.trans (ih _)

end Transports

namespace Session

/-! ## Sessions -/

/-- Nothing is sent or entered, and what waits is the same. -/
structure Silent (s s' : Session) : Prop where
  state : s'.state = s.state
  initiator : s'.initiator = s.initiator
  localDescription : s'.localDescription = s.localDescription
  initiateAcked : s'.initiateAcked = s.initiateAcked
  remoteName : s'.remoteName = s.remoteName
  history : s'.history = s.history
  waits : s.transports.Waits s'.transports

namespace Silent

variable {s s' s'' : Session}

theorem refl (s : Session) : s.Silent s := ⟨rfl, rfl, rfl, rfl, rfl, rfl, .refl _⟩

theorem trans (h : s.Silent s') (h' : s'.Silent s'') : s.Silent s'' :=
  ⟨h'.state.trans h.state, h'.initiator.trans h.initiator,
    h'.localDescription.trans h.localDescription, h'.initiateAcked.trans h.initiateAcked,
    h'.remoteName.trans h.remoteName, h'.history.trans h.history, h.waits.trans h'.waits⟩

theorem transports {n : Transports} (h : s.transports.Waits n) : s.Silent { s with transports := n } :=
  ⟨rfl, rfl, rfl, rfl, rfl, rfl, h⟩

end Silent

variable (s : Session) (env : Surroundings)

theorem silent_messages (messages : List Posted) : s.Silent { s with messages := messages } :=
  ⟨rfl, rfl, rfl, rfl, rfl, rfl, .refl _⟩

theorem silent_setError (error : Error) : s.Silent (s.setError error) := by
  unfold setError
  split <;> split <;> exact ⟨rfl, rfl, rfl, rfl, rfl, rfl, .refl _⟩

theorem silent_onTransportWritable (t : ℕ) : s.Silent (s.onTransportWritable t) := by
  unfold onTransportWritable
  dsimp only
  split <;> exact ⟨rfl, rfl, rfl, rfl, rfl, rfl, .refl _⟩

theorem silent_onSignal (sig : Signal) : s.Silent (s.onSignal sig) := by
  cases sig with
  | connecting t =>
    unfold onSignal onConnecting
    exact .trans (.transports (Transports.waits_modifyTransport _ t _)) (silent_onTransportWritable _ t)
  | writableState t state =>
    unfold onSignal onChannelWritableState
    dsimp only
    split
    · exact .trans (.transports (Transports.waits_modifyTransport _ t _)) (silent_onTransportWritable _ t)
    · exact .refl s

theorem silent_settleProtocol (protocol : SignalingProtocol) : s.Silent (s.settleProtocol protocol) := by
  unfold settleProtocol
  split
  · exact ⟨rfl, rfl, rfl, rfl, rfl, rfl, .refl _⟩
  · exact .refl s

theorem silent_maybeEnableMuxingSupport : s.Silent s.maybeEnableMuxingSupport := by
  unfold maybeEnableMuxingSupport
  split
  · exact .transports (Transports.waits_enableMuxing _ _ _)
  · exact .refl s

theorem silent_installRemote (init : ContentMessage) (action : ContentAction) :
    s.Silent (s.installRemote env init action) :=
  ⟨rfl, rfl, rfl, rfl, rfl, rfl, Transports.waits_pushdownRemote _ _ _ _ _⟩

theorem silent_onRemoteCandidates (tinfos : List TransportInfo) : s.Silent (s.onRemoteCandidates tinfos).2 :=
  .transports (Transports.waits_onRemoteCandidates _ tinfos)

theorem silent_onTransportInfoMessage (parsed : Except Name (List TransportInfo)) :
    s.Silent (s.onTransportInfoMessage parsed).2 := by
  unfold onTransportInfoMessage
  split
  · exact .refl s
  · exact silent_onRemoteCandidates s _

theorem silent_onDescriptionInfoMessage (parsed : Except Name (List Name)) :
    s.Silent (s.onDescriptionInfoMessage parsed).2 := by
  unfold onDescriptionInfoMessage
  split
  · exact .refl s
  · split <;> exact .refl s

theorem silent_createChannel (name : Name) (component : ℕ) :
    s.Silent { s with transports := (s.transports.getOrCreateProxy name).createChannel name component } :=
  .transports ((Transports.waits_getOrCreateProxy _ _).trans (Transports.waits_createChannel _ _ _))

theorem silent_destroyChannel (name : Name) (component : ℕ) :
    s.Silent { s with transports := s.transports.destroyChannel name component } :=
  .transports (Transports.waits_destroyChannel _ _ _)

end Session

end Libjingle.Signaling
