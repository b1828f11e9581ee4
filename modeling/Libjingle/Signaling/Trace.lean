import Libjingle.Signaling.Session

/-!
# What a refused message leaves behind

`OnIncomingMessage` answers with an error when a message is not allowed, cannot be parsed, or has a remote
candidate that does not fit. Candidates are looked at last.

Main result: **`leaves_no_trace_iff`**.
-/

variable {f : Transport → Transport} {s' : Session}

namespace Libjingle.Signaling

open Lib P2P

/-! ## The parts that decide -/

def Transport.bare (t : Transport) : Transport := { channels := t.channels }

theorem Transport.createChannel_bare (t : Transport) (component : ℕ) :
    (t.createChannel component).bare = t.bare.createChannel component := by
  change _ = if t.hasChannel component then _ else _
  unfold createChannel
  split <;> rfl

def TransportProxy.bare (proxy : TransportProxy) : TransportProxy where
  contentName := proxy.contentName
  transport := proxy.transport
  negotiated := proxy.negotiated
  channels := proxy.channels

namespace Transports

def bare (n : Transports) : Transports where
  proxies := n.proxies.map TransportProxy.bare
  transportAt t := (n.transportAt t).bare
  fresh := n.fresh

def fits (n : Transports) (tinfo : TransportInfo) : Bool :=
  match n.proxyAt tinfo.contentName with
  | none => false
  | some proxy => tinfo.candidates.all fun cand =>
    (verifyCandidate cand).isNone && (n.transportAt proxy.transport).hasChannel cand.component

/-- The contents up to the first that does not fit. -/
def fitting (n : Transports) : List TransportInfo → List TransportInfo
  | [] => []
  | tinfo :: tinfos =>
    let n := n.completeNegotiation tinfo.contentName
    if n.fits tinfo then tinfo :: fitting n tinfos else []

variable (n : Transports)

theorem proxyAt_bare (name : Name) : n.bare.proxyAt name = (n.proxyAt name).map TransportProxy.bare :=
  List.find?_map

theorem fits_bare (tinfo : TransportInfo) : n.bare.fits tinfo = n.fits tinfo := by
  unfold fits
  rw [proxyAt_bare]
  cases n.proxyAt tinfo.contentName <;> rfl

theorem modifyProxy_bare (name : Name) {f g : TransportProxy → TransportProxy}
    (h : ∀ proxy, (f proxy).bare = g proxy.bare) :
    (n.modifyProxy name f).bare = n.bare.modifyProxy name g := by
  have hproxies : (n.modifyProxy name f).bare.proxies = (n.bare.modifyProxy name g).proxies := by
    simp only [modifyProxy, bare, List.map_map]
    refine List.map_congr_left fun proxy _ => ?_
    simp only [Function.comp_apply, apply_ite TransportProxy.bare, h]
    rfl
  simp only [modifyProxy, bare] at hproxies ⊢
  rw [hproxies]

theorem modifyTransport_bare (t : ℕ) {g : Transport → Transport}
    (h : ∀ transport, (f transport).bare = g transport.bare) :
    (n.modifyTransport t f).bare = n.bare.modifyTransport t g := by
  have htransports : (n.modifyTransport t f).bare.transportAt =
      (n.bare.modifyTransport t g).transportAt := by
    funext t'
    by_cases ht : t' = t
    · subst ht
      simp [modifyTransport, bare, h]
    · simp [modifyTransport, bare, ht]
  simp only [modifyTransport, bare] at htransports ⊢
  rw [htransports]

theorem modifyProxy_bare_self (name : Name) {f : TransportProxy → TransportProxy}
    (h : ∀ proxy, (f proxy).bare = proxy.bare) : (n.modifyProxy name f).bare = n.bare := by
  rw [modifyProxy_bare n name (g := id) h]
  simp [modifyProxy]

theorem modifyTransport_bare_self (t : ℕ)
    (h : ∀ transport, (f transport).bare = transport.bare) : (n.modifyTransport t f).bare = n.bare := by
  rw [modifyTransport_bare n t (g := id) h]
  simp [modifyTransport]

/-! ## Negotiation -/

theorem getOrCreateImpl_bare (t component : ℕ) :
    (n.getOrCreateImpl t component).bare = n.bare.getOrCreateImpl t component := by
  have hchannel : (n.bare.transportAt t).hasChannel component =
    (n.transportAt t).hasChannel component := rfl
  unfold getOrCreateImpl
  rw [hchannel]
  split
  · rfl
  · exact modifyTransport_bare n t fun transport => transport.createChannel_bare component

theorem replaceImpl_bare (old new : Option ℕ) (component : ℕ) :
    (n.replaceImpl old new component).bare = n.bare.replaceImpl old new component := by
  unfold replaceImpl
  split
  · rfl
  · split
    · exact modifyTransport_bare n _ fun _ => rfl
    · rfl

theorem setupChannel_bare (t : ℕ) (ch : ℕ × Option ℕ) : (n.setupChannel t ch).bare = n.bare.setupChannel t ch := by
  unfold setupChannel
  rw [replaceImpl_bare, getOrCreateImpl_bare]

theorem completeNegotiation_bare (name : Name) :
    (n.completeNegotiation name).bare = n.bare.completeNegotiation name := by
  unfold completeNegotiation
  rw [proxyAt_bare]
  cases n.proxyAt name with
  | none => rfl
  | some proxy =>
    simp only [Option.map_some]
    change (if proxy.negotiated then n else _).bare = if proxy.negotiated then n.bare else _
    split
    · rfl
    · have hfold : proxy.channels.foldl (fun n ch => n.setupChannel proxy.transport ch) n.bare =
          (proxy.channels.foldl (fun n ch => n.setupChannel proxy.transport ch) n).bare :=
        List.foldl_hom bare fun n ch => (setupChannel_bare n proxy.transport ch).symm
      change _ = modifyProxy (proxy.channels.foldl (fun n ch => n.setupChannel proxy.transport ch)
        n.bare) name _
      rw [hfold]
      exact modifyProxy_bare _ name fun _ => by rfl

theorem fitting_bare (tinfos : List TransportInfo) : n.bare.fitting tinfos = n.fitting tinfos := by
  induction tinfos generalizing n with
  | nil => rfl
  | cons tinfo tinfos ih => simp only [fitting, ← completeNegotiation_bare, fits_bare, ih]

theorem proxyAt_completeNegotiation {name : Name} {proxy : TransportProxy} (h : n.proxyAt name = some proxy) :
    ∃ proxy', (n.completeNegotiation name).proxyAt name = some proxy' ∧
      proxy'.transport = proxy.transport ∧ proxy'.negotiated := by
  unfold completeNegotiation
  simp only [h]
  split
  · rename_i hnegotiated
    exact ⟨proxy, h, rfl, hnegotiated⟩
  · rw [proxyAt_modifyProxy _ _ _ fun _ => by rfl, proxyAt_setupChannels, h]
    simp

theorem proxyAt_completeNegotiation_none {name : Name} (h : n.proxyAt name = none) :
    (n.completeNegotiation name).proxyAt name = none := by
  unfold completeNegotiation
  simp only [h]

theorem connectChannels_bare {name : Name} {proxy : TransportProxy} (h : n.proxyAt name = some proxy)
    (hnegotiated : proxy.negotiated) : (n.connectChannels name).bare = n.bare := by
  have hprepare : (n.prepareChannels proxy).bare = n.bare := by
    unfold prepareChannels
    split
    · rfl
    · exact modifyProxy_bare_self n _ fun _ => by rfl
  unfold connectChannels
  simp only [h]
  rw [modifyTransport_bare_self _ _ fun transport => ?_, hprepare]
  unfold Transport.connectChannels
  split <;> rfl

/-! ## What is posted -/

def posted (t : ℕ) : List Candidate := (n.transportAt t).remoteCandidates

theorem posted_modifyTransport (t t' : ℕ)
    (h : ∀ transport, (f transport).remoteCandidates = transport.remoteCandidates) :
    (n.modifyTransport t f).posted t' = n.posted t' := by
  unfold posted modifyTransport
  by_cases ht : t' = t
  · subst ht
    simp [h]
  · simp [ht]

theorem posted_getOrCreateImpl (t component t' : ℕ) : (n.getOrCreateImpl t component).posted t' = n.posted t' := by
  unfold getOrCreateImpl
  split
  · rfl
  · refine posted_modifyTransport n t t' fun transport => ?_
    unfold Transport.createChannel
    split <;> rfl

theorem posted_replaceImpl (old new : Option ℕ) (component t' : ℕ) :
    (n.replaceImpl old new component).posted t' = n.posted t' := by
  unfold replaceImpl
  split
  · rfl
  · split
    · exact posted_modifyTransport n _ t' fun _ => rfl
    · rfl

theorem posted_completeNegotiation (name : Name) (t' : ℕ) : (n.completeNegotiation name).posted t' = n.posted t' := by
  unfold completeNegotiation
  split
  · split
    · rfl
    · refine run_keeps (fun n => n.posted t') (fun n ch => ?_) n _
      unfold setupChannel
      rw [posted_replaceImpl, posted_getOrCreateImpl]
  · rfl

theorem posted_connectChannels (name : Name) (t' : ℕ) : (n.connectChannels name).posted t' = n.posted t' := by
  unfold connectChannels
  split
  · rename_i proxy _
    rw [posted_modifyTransport _ _ _ fun transport => by unfold Transport.connectChannels; split <;> rfl]
    unfold prepareChannels
    split
    · rfl
    · change (if proxy.negotiated then n else _).posted t' = n.posted t'
      split
      · rfl
      · exact run_keeps (fun n => n.posted t') (fun n ch => posted_getOrCreateImpl n _ _ t') n _
  · rfl

/-! ## Remote candidates -/

theorem onRemoteCandidatesFor_of_fits {tinfo : TransportInfo}
    (h : (n.completeNegotiation tinfo.contentName).fits tinfo) :
    ∃ n' t, n.onRemoteCandidatesFor tinfo.contentName tinfo.candidates = (none, n') ∧
      n'.bare = (n.completeNegotiation tinfo.contentName).bare ∧
      ∀ t', n'.posted t' = n.posted t' ++ if t' = t then tinfo.candidates else [] := by
  unfold onRemoteCandidatesFor
  cases hproxy : n.proxyAt tinfo.contentName with
  | none => simp [fits, proxyAt_completeNegotiation_none n hproxy] at h
  | some proxy =>
    obtain ⟨proxy', hproxy', htransport, hnegotiated⟩ := proxyAt_completeNegotiation n hproxy
    have hnone : tinfo.candidates.findSome?
        ((n.completeNegotiation tinfo.contentName).candidateError proxy.transport tinfo.contentName)
          = none := by
      rw [List.findSome?_eq_none_iff]
      intro cand hcand
      simp only [fits, hproxy', List.all_eq_true, Bool.and_eq_true, Option.isNone_iff_eq_none] at h
      obtain ⟨hverify, hchannel⟩ := h cand hcand
      rw [htransport] at hchannel
      simp [candidateError, hverify, hchannel]
    simp only [hnone]
    refine ⟨_, proxy.transport, rfl, ?_, fun t' => ?_⟩
    · refine (connectChannels_bare _ ?_ hnegotiated).trans (modifyTransport_bare_self _ _ fun _ => rfl)
      rwa [proxyAt_modifyTransport]
    · rw [posted_connectChannels, ← posted_completeNegotiation n tinfo.contentName t']
      unfold posted modifyTransport
      by_cases ht : t' = proxy.transport
      · subst ht
        simp
      · simp [ht]

theorem onRemoteCandidatesFor_of_not_fits {tinfo : TransportInfo}
    (h : ¬ (n.completeNegotiation tinfo.contentName).fits tinfo) :
    ∃ error n', n.onRemoteCandidatesFor tinfo.contentName tinfo.candidates = (some error, n') ∧
      ∀ t, n'.posted t = n.posted t := by
  unfold onRemoteCandidatesFor
  cases hproxy : n.proxyAt tinfo.contentName with
  | none => exact ⟨_, n, rfl, fun _ => rfl⟩
  | some proxy =>
    obtain ⟨proxy', hproxy', htransport, -⟩ := proxyAt_completeNegotiation n hproxy
    cases hfind : tinfo.candidates.findSome?
        ((n.completeNegotiation tinfo.contentName).candidateError proxy.transport tinfo.contentName) with
    | some error =>
      simp only [hfind]
      exact ⟨error, _, rfl, posted_completeNegotiation n _⟩
    | none =>
      refine absurd ?_ h
      rw [List.findSome?_eq_none_iff] at hfind
      simp only [fits, hproxy', List.all_eq_true, Bool.and_eq_true, Option.isNone_iff_eq_none]
      intro cand hcand
      have hcand := hfind cand hcand
      unfold candidateError at hcand
      rw [Option.or_eq_none_iff, htransport.symm] at hcand
      refine ⟨hcand.1, ?_⟩
      have hchannel := hcand.2
      split at hchannel
      · assumption
      · cases hchannel

theorem onRemoteCandidates_fitting (tinfos : List TransportInfo) :
    ((n.onRemoteCandidates tinfos).1 = none ↔ n.fitting tinfos = tinfos) ∧
      ∃ more : ℕ → List Candidate,
        (∀ t, (n.onRemoteCandidates tinfos).2.posted t = n.posted t ++ more t) ∧
        ((∀ t, more t = []) ↔ ∀ tinfo ∈ n.fitting tinfos, tinfo.candidates = []) := by
  induction tinfos generalizing n with
  | nil => exact ⟨by simp [onRemoteCandidates, fitting], fun _ => [], by simp [onRemoteCandidates], by
      simp [fitting]⟩
  | cons tinfo tinfos ih =>
    by_cases hfits : (n.completeNegotiation tinfo.contentName).fits tinfo
    · obtain ⟨n', t, hfor, hbare, hposted⟩ := onRemoteCandidatesFor_of_fits n hfits
      obtain ⟨herror, more, hmore, hempty⟩ := ih n'
      have hfitting : n'.fitting tinfos = (n.completeNegotiation tinfo.contentName).fitting tinfos := by
        rw [← fitting_bare, hbare, fitting_bare]
      simp only [onRemoteCandidates, hfor, fitting, hfits, if_true, List.cons.injEq, true_and,
        ← hfitting, List.forall_mem_cons]
      refine ⟨herror, fun t' => (if t' = t then tinfo.candidates else []) ++ more t', fun t' => ?_, ?_⟩
      · rw [hmore, hposted, List.append_assoc]
      · simp only [List.append_eq_nil_iff, ite_eq_right_iff, forall_and, forall_eq, hempty]
    · obtain ⟨error, n', hfor, hposted⟩ := onRemoteCandidatesFor_of_not_fits n hfits
      simp only [onRemoteCandidates, hfor, fitting, hfits]
      exact ⟨by simp, fun _ => [], by simpa using hposted, by simp⟩

/-! ## Descriptions -/

theorem names_bare : n.bare.names = n.names := by
  simp only [names, bare, List.map_map]
  rfl

theorem pushdownRemote_bare (refuses : Name → Bool) (sdesc : SessionDescription) (action : ContentAction)
    (names : List Name) : (pushdownRemote refuses sdesc action names n).bare =
      pushdownRemote refuses sdesc action names n.bare := by
  induction names generalizing n with
  | nil => rfl
  | cons name names ih =>
    have hcomplete : (if action = .answer then n.completeNegotiation name else n).bare =
        if action = .answer then n.bare.completeNegotiation name else n.bare := by
      split
      · exact completeNegotiation_bare n name
      · rfl
    simp only [pushdownRemote]
    split
    · split
      · exact hcomplete
      · rw [ih, hcomplete]
    · exact ih n

theorem pushdownRemote_offer (refuses : Name → Bool) (sdesc : SessionDescription) (names : List Name) :
    pushdownRemote refuses sdesc .offer names n = n := by
  induction names with
  | nil => rfl
  | cons name names ih =>
    simp only [pushdownRemote, reduceCtorEq, if_false]
    split
    · split
      · rfl
      · exact ih
    · exact ih

theorem setupMuxChannel_bare (target : ℕ) (ch : ℕ × Option ℕ) :
    (n.setupMuxChannel target ch).bare = n.bare.setupMuxChannel target ch := by
  change _ = if (n.transportAt target).hasChannel ch.1 then _ else _
  unfold setupMuxChannel
  split
  · rw [replaceImpl_bare, modifyTransport_bare n target (g := fun t => t.createChannel ch.1)
      fun t => t.createChannel_bare ch.1]
  · exact replaceImpl_bare n ch.2 none ch.1

theorem setupMux_bare (name : Name) (target : ℕ) : (n.setupMux name target).bare = n.bare.setupMux name target := by
  unfold setupMux
  rw [proxyAt_bare]
  cases n.proxyAt name with
  | none => rfl
  | some proxy =>
    simp only [Option.map_some]
    change (if proxy.transport = target then n else _).bare =
      if proxy.transport = target then n.bare else _
    split
    · rfl
    · have hfold : proxy.channels.foldl (fun n ch => n.setupMuxChannel target ch) n.bare =
          (proxy.channels.foldl (fun n ch => n.setupMuxChannel target ch) n).bare :=
        List.foldl_hom bare fun n ch => (setupMuxChannel_bare n target ch).symm
      change _ = modifyProxy (proxy.channels.foldl (fun n ch => n.setupMuxChannel target ch) n.bare)
        name _
      rw [hfold]
      exact modifyProxy_bare _ name fun _ => by rfl

theorem setSelectedProxy_bare (contentName : Name) (group : ContentGroup) :
    (n.setSelectedProxy contentName group).bare = n.bare.setSelectedProxy contentName group := by
  unfold setSelectedProxy
  rw [proxyAt_bare]
  cases n.proxyAt contentName with
  | none => rfl
  | some selected =>
    have hnames : n.bare.proxies.map TransportProxy.contentName =
      n.proxies.map TransportProxy.contentName := names_bare n
    simp only [Option.map_some, hnames]
    refine (List.foldl_hom bare fun n name => ?_).symm
    split
    · exact (setupMux_bare n name selected.transport).symm
    · rfl

theorem enableMuxing_bare (localDescription remoteDescription : SessionDescription) :
    (n.enableMuxing localDescription remoteDescription).bare =
      n.bare.enableMuxing localDescription remoteDescription := by
  have hall : n.bare.proxies.all (·.negotiated) = n.proxies.all (·.negotiated) := by
    simp only [bare, List.all_map]
    rfl
  unfold enableMuxing
  rw [hall]
  split
  · split
    · split
      · split
        · exact setSelectedProxy_bare n _ _
        · rfl
      · rfl
    · rfl
  · rfl

theorem createProxies_fst (tinfos : List TransportInfo) :
    (n.createProxies tinfos).1 = tinfos.all fun tinfo => tinfo.transportType = nsGingleP2p := by
  induction tinfos generalizing n with
  | nil => rfl
  | cons tinfo tinfos ih =>
    unfold createProxies
    split <;> rename_i h
    · simp [h]
    · rw [ih]
      simp [not_not.mp h]

theorem posted_createProxies (tinfos : List TransportInfo) (t : ℕ) :
    (n.createProxies tinfos).2.posted t = n.posted t := by
  induction tinfos generalizing n with
  | nil => rfl
  | cons tinfo tinfos ih =>
    unfold createProxies
    split
    · rfl
    · rw [ih]
      unfold getOrCreateProxy
      split <;> rfl

end Transports

namespace Session

variable (s : Session) (env : Surroundings)

def answered (accept : ContentMessage) : Transports :=
  (s.installRemote env accept .answer).maybeEnableMuxingSupport.transports

/-- The state, the remote description, the peer and the candidates handed on agree. -/
structure SameTrace (s s' : Session) : Prop where
  state : s'.state = s.state
  remoteDescription : s'.remoteDescription = s.remoteDescription
  remoteName : s'.remoteName = s.remoteName
  posted : ∀ t, s'.transports.posted t = s.transports.posted t

def LeavesNoTrace (msg : SessionMessage) : Prop :=
  match msg.action with
  | .sessionInitiate (.ok init) =>
    s.state = .init → (init.transports.all fun tinfo => tinfo.transportType = nsGingleP2p) →
      (s.transports.createProxies init.transports).2.fitting init.transports = init.transports
  | .sessionAccept (.ok accept) =>
    s.state = .sentInitiate → (s.answered env accept).fitting accept.transports = accept.transports
  | .transportInfo (.ok tinfos) =>
    s.transports.fitting tinfos = tinfos ∨ ∀ tinfo ∈ s.transports.fitting tinfos, tinfo.candidates = []
  | _ => True

variable {s env}

theorem SameTrace.refl (s : Session) : s.SameTrace s := ⟨rfl, rfl, rfl, fun _ => rfl⟩

theorem state_setState_onRemoteCandidates (state : State) (tinfos : List TransportInfo) :
    ((s.setState state).onRemoteCandidates tinfos).2.state = state :=
  state_setState s state

theorem onRemoteCandidates_eq_none (tinfos : List TransportInfo) :
    (s.onRemoteCandidates tinfos).1 = none ↔ s.transports.fitting tinfos = tinfos := by
  rw [← (s.transports.onRemoteCandidates_fitting tinfos).1]
  exact Option.map_eq_none_iff

theorem sameTrace_setState_iff {state : State} {tinfos : List TransportInfo} (h : state ≠ s.state) :
    (((s'.setState state).onRemoteCandidates tinfos).1 ≠ none →
        s.SameTrace ((s'.setState state).onRemoteCandidates tinfos).2) ↔
      s'.transports.fitting tinfos = tinfos := by
  rw [← transports_setState s' state, ← onRemoteCandidates_eq_none]
  constructor
  · intro htrace
    by_contra herror
    have hstate := (htrace herror).state
    rw [state_setState_onRemoteCandidates] at hstate
    exact h hstate
  · exact fun hnone herror => absurd hnone herror

theorem sameTrace_onInitiateMessage (msg : SessionMessage) (init : ContentMessage) :
    ((s.onInitiateMessage env msg (.ok init)).1 ≠ none →
        s.SameTrace (s.onInitiateMessage env msg (.ok init)).2) ↔
      (s.state = .init → (init.transports.all fun tinfo => tinfo.transportType = nsGingleP2p) →
        (s.transports.createProxies init.transports).2.fitting init.transports = init.transports) := by
  by_cases hinit : s.state = .init
  · rw [← s.transports.createProxies_fst]
    simp only [onInitiateMessage, checkState_eq_none.mpr hinit]
    rcases hcreate : s.transports.createProxies init.transports with ⟨_ | _, n⟩
    · have hposted := s.transports.posted_createProxies init.transports
      rw [hcreate] at hposted
      simpa using (⟨rfl, rfl, rfl, hposted⟩ : s.SameTrace { s with transports := n })
    · simp only [Bool.not_true, Bool.false_eq_true, if_false, hinit, true_implies]
      rw [sameTrace_setState_iff (by rw [hinit]; decide)]
      simp only [note, installRemote, Transports.pushdownRemote_offer]
  · obtain ⟨error, herror⟩ := Option.ne_none_iff_exists'.mp (mt checkState_eq_none.mp hinit)
    simp only [onInitiateMessage, herror, hinit, false_implies, iff_true]
    exact fun _ => .refl s

theorem sendUnsent_bare (names : List Name) :
    (sendUnsent env names s).localDescription = s.localDescription ∧
      (sendUnsent env names s).transports.bare = s.transports.bare := by
  induction names generalizing s with
  | nil => exact ⟨rfl, rfl⟩
  | cons name names ih =>
    unfold sendUnsent
    split
    · split
      · exact ih
      · split <;> rename_i heq
        · rw [send_true heq]
          exact ⟨ih.1, ih.2.trans (Transports.modifyProxy_bare_self _ _ fun _ => rfl)⟩
        · rw [send_false heq]
          exact ⟨rfl, rfl⟩
    · exact ih

theorem onInitiateAcked_bare :
    (s.onInitiateAcked env).localDescription = s.localDescription ∧
      (s.onInitiateAcked env).transports.bare = s.transports.bare := by
  unfold onInitiateAcked
  split
  · exact ⟨rfl, rfl⟩
  · exact sendUnsent_bare (s := { s with initiateAcked := true }) _

theorem answered_bare (hlocal : s'.localDescription = s.localDescription)
    (hbare : s'.transports.bare = s.transports.bare) (accept : ContentMessage) :
    (s'.answered env accept).bare = (s.answered env accept).bare := by
  have hnames : s'.transports.names = s.transports.names := by
    rw [← Transports.names_bare, hbare, Transports.names_bare]
  simp only [answered, maybeEnableMuxingSupport, installRemote, hlocal, hnames]
  cases s.localDescription with
  | none => simp only [Transports.pushdownRemote_bare, hbare]
  | some localDescription => simp only [Transports.enableMuxing_bare, Transports.pushdownRemote_bare, hbare]

theorem fitting_answered (hlocal : s'.localDescription = s.localDescription)
    (hbare : s'.transports.bare = s.transports.bare) (accept : ContentMessage)
    (tinfos : List TransportInfo) :
    (s'.answered env accept).fitting tinfos = (s.answered env accept).fitting tinfos := by
  rw [← Transports.fitting_bare, answered_bare hlocal hbare, Transports.fitting_bare]

theorem sameTrace_onAcceptMessage (accept : ContentMessage) :
    ((s.onAcceptMessage env (.ok accept)).1 ≠ none →
        s.SameTrace (s.onAcceptMessage env (.ok accept)).2) ↔
      (s.state = .sentInitiate →
        (s.answered env accept).fitting accept.transports = accept.transports) := by
  by_cases hstate : s.state = .sentInitiate
  · simp only [onAcceptMessage, checkState_eq_none.mpr hstate, hstate, true_implies]
    rw [sameTrace_setState_iff (by rw [hstate]; decide)]
    change ((s.onInitiateAcked env).answered env accept).fitting accept.transports = _ ↔ _
    rw [fitting_answered onInitiateAcked_bare.1 onInitiateAcked_bare.2]
  · obtain ⟨error, herror⟩ := Option.ne_none_iff_exists'.mp (mt checkState_eq_none.mp hstate)
    simp only [onAcceptMessage, herror, hstate, false_implies, iff_true]
    exact fun _ => .refl s

theorem sameTrace_onTransportInfoMessage (tinfos : List TransportInfo) :
    ((s.onTransportInfoMessage (.ok tinfos)).1 ≠ none →
        s.SameTrace (s.onTransportInfoMessage (.ok tinfos)).2) ↔
      (s.transports.fitting tinfos = tinfos ∨
        ∀ tinfo ∈ s.transports.fitting tinfos, tinfo.candidates = []) := by
  obtain ⟨-, more, hmore, hempty⟩ := s.transports.onRemoteCandidates_fitting tinfos
  have hposted : s.SameTrace (s.onRemoteCandidates tinfos).2 ↔ ∀ t, more t = [] := by
    constructor
    · intro h t
      have := hmore t ▸ h.posted t
      simpa using this
    · intro h
      refine ⟨rfl, rfl, rfl, fun t => ?_⟩
      exact (hmore t).trans (by rw [h t, List.append_nil])
  rw [← hempty, ← hposted, ← onRemoteCandidates_eq_none]
  exact or_iff_not_imp_left.symm

theorem sameTrace_settleProtocol (protocol : SignalingProtocol) (s' : Session) :
    (s.settleProtocol protocol).SameTrace s' ↔ s.SameTrace s' := by
  unfold settleProtocol
  split
  · exact ⟨fun h => ⟨h.1, h.2, h.3, h.4⟩, fun h => ⟨h.1, h.2, h.3, h.4⟩⟩
  · rfl

theorem leavesNoTrace_settleProtocol (msg : SessionMessage) (protocol : SignalingProtocol) :
    (s.settleProtocol protocol).LeavesNoTrace env msg ↔ s.LeavesNoTrace env msg := by
  unfold settleProtocol
  split
  · unfold LeavesNoTrace
    split
    · rfl
    · rw [fitting_answered (s := s) (by rfl) (by rfl)]
    · rfl
    · rfl
  · rfl

theorem sameTrace_of_eq {error : Option MessageError} (h : error ≠ none → s' = s) :
    (error ≠ none → s.SameTrace s') ↔ True :=
  iff_true_intro fun herror => h herror ▸ .refl s

/-- **An error leaves no trace exactly if the candidates meet the condition.** -/
theorem leaves_no_trace_iff (s : Session) (env : Surroundings) (msg : SessionMessage) :
    ((s.onIncomingMessage env msg).1 ≠ none → s.SameTrace (s.onIncomingMessage env msg).2) ↔
      s.LeavesNoTrace env msg := by
  rw [← leavesNoTrace_settleProtocol msg msg.protocol, ← sameTrace_settleProtocol msg.protocol]
  unfold onIncomingMessage
  generalize s.settleProtocol msg.protocol = s
  rcases msg with ⟨sender, initiator, protocol, action⟩
  cases action with
  | sessionInitiate parsed =>
    cases parsed with
    | ok init => exact sameTrace_onInitiateMessage _ init
    | error text =>
      refine sameTrace_of_eq fun _ => ?_
      change (s.onInitiateMessage env _ (.error text)).2 = s
      unfold onInitiateMessage
      split <;> rfl
  | sessionAccept parsed =>
    cases parsed with
    | ok accept => exact sameTrace_onAcceptMessage accept
    | error text =>
      refine sameTrace_of_eq fun _ => ?_
      change (s.onAcceptMessage env (.error text)).2 = s
      unfold onAcceptMessage
      split <;> rfl
  | transportInfo parsed =>
    cases parsed with
    | ok tinfos => exact sameTrace_onTransportInfoMessage tinfos
    | error text => exact sameTrace_of_eq fun _ => rfl
  | sessionReject =>
    refine sameTrace_of_eq fun herror => ?_
    simp only [onRejectMessage] at herror ⊢
    split at herror
    · rfl
    · exact absurd rfl herror
  | descriptionInfo parsed =>
    refine sameTrace_of_eq fun _ => ?_
    simp only [onDescriptionInfoMessage]
    split
    · rfl
    · cases parsed <;> rfl
  | sessionTerminate reason => exact sameTrace_of_eq fun herror => absurd rfl herror
  | sessionInfo => exact sameTrace_of_eq fun _ => rfl
  | transportAccept => exact sameTrace_of_eq fun _ => rfl
  | unknown => exact sameTrace_of_eq fun _ => rfl

/-- An accept is answered with an error, as a candidate has port zero, but the session enters
`STATE_RECEIVEDACCEPT`. -/
theorem accept_leaves_trace : let candidate : Candidate :=
      ⟨[], 1, [], .ofIP (.v4 0x08080808) 0, 0, [], [], [], [], 0, [], .ofIP .unspec 0⟩
    let caller := run step (new (text "caller") (text "caller"))
      [({}, .createChannel (text "audio") 1), ({}, .initiate (text "callee") ⟨[text "audio"], [], []⟩)]
    let accept : ContentMessage := ⟨[text "audio"], [⟨text "audio", nsGingleP2p, [candidate]⟩], []⟩
    let msg : SessionMessage := ⟨text "callee", text "caller", .jingle, .sessionAccept (.ok accept)⟩
    caller.state = .sentInitiate ∧ (caller.onIncomingMessage {} msg).1 ≠ none ∧
      (caller.onIncomingMessage {} msg).2.state = .receivedAccept ∧
      ¬ ((caller.onIncomingMessage {} msg).1 ≠ none →
        caller.SameTrace (caller.onIncomingMessage {} msg).2) := by
  intro candidate caller accept msg
  have hbefore : caller.state = .sentInitiate := by decide
  have herror : (caller.onIncomingMessage {} msg).1 ≠ none := by
    rw [← Option.isSome_iff_ne_none]
    decide
  have hafter : (caller.onIncomingMessage {} msg).2.state = .receivedAccept := by decide
  refine ⟨hbefore, herror, hafter, fun h => ?_⟩
  have hstate := (h herror).state
  rw [hbefore, hafter] at hstate
  cases hstate

end Session

end Libjingle.Signaling
