import Libjingle.Signaling.Silent

/-!
# The candidates of an initiator reach its peer

An initiator keeps candidates until its initiate is acknowledged, and then sends them. When it is redirected
it sends the candidates again that it has recorded as sent.

Main result: **`candidates_delivered`**.
-/

variable {name : Name} {proxy : TransportProxy} {n : Transports}

namespace Libjingle.Signaling

open Lib P2P

/-! ## Records -/

/-- The candidates that were gathered. -/
def gathered (record : List Entry) : List (Name × Candidate) :=
  record.flatMap fun e =>
    match e with
    | .gathered name candidates => candidates.map (name, ·)
    | _ => []

def sentTo (recipient : Name) (record : List Entry) : List (Name × Candidate) :=
  record.flatMap fun e =>
    match e with
    | .sent name (.transportInfo contentName candidates) =>
      if name = recipient then candidates.map (contentName, ·) else []
    | _ => []

@[simp] theorem gathered_append (record record' : List Entry) :
    gathered (record ++ record') = gathered record ++ gathered record' := List.flatMap_append

@[simp] theorem sentTo_append (recipient : Name) (record record' : List Entry) :
    sentTo recipient (record ++ record') = sentTo recipient record ++ sentTo recipient record' :=
  List.flatMap_append

def Entry.quiet : Entry → Bool
  | .gathered _ _ | .acked _ => false
  | _ => true

def Entry.initiates : Entry → Bool
  | .sent _ (.sessionInitiate _) => true
  | _ => false

theorem gathered_of_quiet {entries : List Entry} (h : ∀ e ∈ entries, e.quiet) : gathered entries = [] := by
  rw [gathered, List.flatMap_eq_nil_iff]
  intro e he
  have hquiet := h e he
  cases e <;> first | rfl | cases hquiet

namespace Session

variable {s s' s'' : Session}

/-! ## Quiet steps -/

def Described (s : Session) : Prop := s.state = .sentInitiate → s.localDescription.isSome

/-- Nothing is done with candidates, and nothing is acknowledged. -/
structure Quiet (s s' : Session) : Prop where
  described : s.Described → s'.Described
  initiator : s'.initiator = s.initiator
  initiateAcked : s'.initiateAcked = s.initiateAcked
  remoteName : s.initiateAcked → s'.remoteName = s.remoteName
  waits : s.transports.Waits s'.transports
  history : ∃ entries : List Entry, (∀ e ∈ entries, e.quiet) ∧ s'.history = s.history ++ entries ∧
    (s'.state = .init → s.state = .init ∧ ∀ e ∈ entries, e.initiates = false)

namespace Quiet

theorem refl (s : Session) : s.Quiet s :=
  ⟨id, rfl, rfl, fun _ => rfl, .refl _, [], nofun, (List.append_nil _).symm, fun h => ⟨h, nofun⟩⟩

theorem trans (h : s.Quiet s') (h' : s'.Quiet s'') : s.Quiet s'' := by
  obtain ⟨entries, hquiet, hhistory, hinit⟩ := h.history
  obtain ⟨entries', hquiet', hhistory', hinit'⟩ := h'.history
  refine ⟨h'.described ∘ h.described, h'.initiator.trans h.initiator,
    h'.initiateAcked.trans h.initiateAcked, fun hacked => ?_, h.waits.trans h'.waits,
    entries ++ entries', ?_, ?_, fun hstate => ?_⟩
  · exact (h'.remoteName (h.initiateAcked ▸ hacked)).trans (h.remoteName hacked)
  · exact fun e he => (List.mem_append.mp he).elim (hquiet e) (hquiet' e)
  · rw [hhistory', hhistory, List.append_assoc]
  · obtain ⟨hs', hnone'⟩ := hinit' hstate
    obtain ⟨hs, hnone⟩ := hinit hs'
    exact ⟨hs, fun e he => (List.mem_append.mp he).elim (hnone e) (hnone' e)⟩

theorem of_silent (h : s.Silent s') : s.Quiet s' :=
  ⟨fun hs hstate => by rw [h.localDescription]; exact hs (h.state ▸ hstate), h.initiator,
    h.initiateAcked, fun _ => h.remoteName, h.waits, [], nofun, by rw [h.history, List.append_nil],
    fun hstate => ⟨h.state ▸ hstate, nofun⟩⟩

theorem transports (h : s.transports.Waits n) : s.Quiet { s with transports := n } :=
  of_silent (.transports h)

theorem describe (s : Session) (sdesc : SessionDescription) : s.Quiet { s with localDescription := some sdesc } :=
  ⟨fun _ _ => rfl, rfl, rfl, fun _ => rfl, .refl _, [], nofun, (List.append_nil _).symm,
    fun h => ⟨h, nofun⟩⟩

theorem note (s : Session) {e : Entry} (hquiet : e.quiet) (hinitiates : e.initiates = false) : s.Quiet (s.note e) :=
  ⟨id, rfl, rfl, fun _ => rfl, .refl _, [e], fun e' he' => by rwa [List.mem_singleton.mp he'], rfl,
    fun h => ⟨h, fun e' he' => by rwa [List.mem_singleton.mp he']⟩⟩

theorem setState (s : Session) {state : State} (h : state ≠ .init)
    (hdescribed : state = .sentInitiate → s.localDescription.isSome) : s.Quiet (s.setState state) := by
  have hinit : (s.setState state).state ≠ .init := by rwa [s.state_setState]
  by_cases hstate : state = s.state
  · rw [s.setState_of_eq hstate]
    exact refl s
  · have hfields : (s.setState state).initiator = s.initiator ∧
        (s.setState state).initiateAcked = s.initiateAcked ∧
        (s.setState state).remoteName = s.remoteName ∧
        (s.setState state).localDescription = s.localDescription := by
      simp [Session.setState, hstate, Session.note, post]
    refine ⟨fun _ hsent => ?_, hfields.1, hfields.2.1, fun _ => hfields.2.2.1, ?_, [.entered state], ?_,
      (s.setState_of_ne hstate).2, fun h => absurd h hinit⟩
    · rw [hfields.2.2.2]
      rw [state_setState] at hsent
      exact hdescribed hsent
    · rw [s.transports_setState]
      exact .refl _
    · simp [Entry.quiet]

theorem enter (s : Session) {e : Entry} {state : State} (hquiet : e.quiet) (h : state ≠ .init)
    (hdescribed : state = .sentInitiate → s.localDescription.isSome) :
    s.Quiet ((s.note e).setState state) := by
  have hrest := setState (s.note e) h hdescribed
  obtain ⟨entries, hentries, hhistory, -⟩ := hrest.history
  refine ⟨hrest.described, hrest.initiator, hrest.initiateAcked, hrest.remoteName, hrest.waits,
    e :: entries, ?_, ?_, ?_⟩
  · exact List.forall_mem_cons.mpr ⟨hquiet, hentries⟩
  · rw [hhistory]
    exact List.append_assoc _ _ _
  · intro hinit
    rw [state_setState] at hinit
    exact absurd hinit h

end Quiet

/-! ## The invariant -/

/-- Before the acknowledgement all candidates wait; after it all were sent. -/
structure Delivering (s : Session) : Prop where
  described : s.Described
  initiator : s.initiator
  begun : s.state = .init → s.initiateAcked = false ∧ ∀ e ∈ s.history, e.initiates = false
  unacked : s.initiateAcked = false → ∀ sender, .acked sender ∉ s.history
  waiting : s.initiateAcked = false → ∀ x ∈ gathered s.history, x.2 ∈ s.transports.unsentAt x.1
  delivered : s.initiateAcked → gathered s.history ⊆ sentTo s.remoteName s.history

theorem Delivering.quiet (hs : s.Delivering) (h : s.Quiet s') : s'.Delivering := by
  obtain ⟨entries, hquiet, hhistory, hinit⟩ := h.history
  have hgathered : gathered s'.history = gathered s.history := by
    rw [hhistory, gathered_append, gathered_of_quiet hquiet, List.append_nil]
  constructor
  · exact h.described hs.described
  · rw [h.initiator]
    exact hs.initiator
  · intro hstate
    obtain ⟨hbefore, hnone⟩ := hinit hstate
    obtain ⟨hacked, hfirst⟩ := hs.begun hbefore
    refine ⟨h.initiateAcked.trans hacked, fun e he => ?_⟩
    rw [hhistory] at he
    exact (List.mem_append.mp he).elim (hfirst e) (hnone e)
  · intro hacked sender hmem
    rw [hhistory] at hmem
    rcases List.mem_append.mp hmem with hmem | hmem
    · exact hs.unacked (h.initiateAcked ▸ hacked) sender hmem
    · cases hquiet _ hmem
  · intro hacked x hx
    rw [h.waits]
    exact hs.waiting (h.initiateAcked ▸ hacked) x (hgathered ▸ hx)
  · intro hacked
    rw [h.initiateAcked] at hacked
    rw [hgathered, h.remoteName hacked, hhistory, sentTo_append]
    exact List.Subset.trans (hs.delivered hacked) (List.subset_append_left _ _)

/-! ## Quiet functions -/

variable (s) (env : Surroundings)

theorem sendTo_quiet (recipient : Name) {action : Action} (h : (Entry.sent recipient action).initiates = false) :
    s.Quiet (s.sendTo env recipient action).2 := by
  unfold sendTo
  split
  · exact .note s rfl h
  · exact .refl s

theorem terminateWithReason_quiet (reason : Name) : s.Quiet (s.terminateWithReason reason).2 := by
  unfold terminateWithReason
  split
  · exact .refl s
  · exact .refl s
  · exact .setState s (by decide) nofun
  · exact .setState s (by decide) nofun
  · exact .enter s rfl (by decide) nofun

theorem onStateMessage_quiet : s.Quiet s.onStateMessage := by
  unfold onStateMessage
  split
  · exact .setState s (by decide) nofun
  · exact .setState s (by decide) nofun
  · exact .refl s

theorem destroy_quiet : s.Quiet s.destroy :=
  ⟨fun _ => nofun, rfl, rfl, fun _ => rfl, .refl _, [.entered .deinit], by simp [Entry.quiet], rfl, nofun⟩

theorem onMessage_quiet (m : Posted) : s.Quiet (s.onMessage m) := by
  refine .trans (.of_silent (silent_messages s (s.messages.erase m))) ?_
  cases m with
  | timeout => exact .of_silent (silent_setError _ .time)
  | error => exact terminateWithReason_quiet _ _
  | state =>
    unfold onMessage
    dsimp only
    refine .trans (onStateMessage_quiet _) ?_
    split
    · exact terminateWithReason_quiet _ _
    · exact terminateWithReason_quiet _ _
    · exact destroy_quiet _
    · exact destroy_quiet _
    · exact .refl _

theorem reject_quiet (reason : Name) : s.Quiet (s.reject reason).2 := by
  unfold reject
  split
  · exact .refl s
  · exact .enter s rfl (by decide) nofun

variable {s env}

theorem Delivering.quiet_of_init (hs : s.Delivering) (hinit : s.state = .init) (name : Name) :
    s.Quiet { s with remoteName := name } := by
  refine ⟨id, rfl, rfl, fun h => ?_, .refl _, [], nofun, (List.append_nil _).symm,
    fun h => ⟨h, nofun⟩⟩
  rw [(hs.begun hinit).1] at h
  cases h

theorem Delivering.initiate (hs : s.Delivering) (recipient : Name) (sdesc : SessionDescription) :
    (s.initiate env recipient sdesc).2.Delivering := by
  unfold Session.initiate
  split
  · exact hs
  rename_i hinit
  have hname := hs.quiet_of_init (not_not.mp hinit) recipient
  have hcreate : s.Quiet { s with
      remoteName := recipient
      localDescription := some sdesc
      transports := (s.transports.createProxies (getEmptyTransportInfos sdesc.contents)).2 } :=
    hname.trans (.trans (.describe _ sdesc) (.transports (Transports.waits_createProxies _ _)))
  dsimp only
  split
  · exact hs.quiet hcreate
  split <;> rename_i heq
  · rw [send_false heq]
    exact hs.quiet hcreate
  · rw [send_true heq]
    refine hs.quiet (hcreate.trans (.trans (.transports ?_) (.enter _ rfl (by decide) fun _ => rfl)))
    exact (Transports.waits_connectAll _).trans (Transports.waits_pushdownLocal _ _ _ _ _)

theorem accept_quiet (sdesc : SessionDescription) : s.Quiet (s.accept env sdesc).2 := by
  unfold accept
  split
  · exact .refl s
  have hlocal : s.Quiet { s with localDescription := some sdesc } := .describe s sdesc
  dsimp only
  split <;> rename_i heq
  · rw [send_false heq]
    exact hlocal
  · rw [send_true heq]
    refine .trans ?_ (.setState _ (by decide) nofun)
    refine .trans ?_ (.of_silent (silent_maybeEnableMuxingSupport _))
    exact (hlocal.trans (.note _ rfl rfl)).trans (.transports (Transports.waits_pushdownLocal _ _ _ _ _))

theorem Delivering.onInitiateMessage (hs : s.Delivering) (msg : SessionMessage)
    (parsed : Except Name ContentMessage) : (s.onInitiateMessage env msg parsed).2.Delivering := by
  unfold Session.onInitiateMessage
  split
  · exact hs
  rename_i hinit
  split
  · exact hs
  rename_i init
  dsimp only
  split
  · exact hs.quiet (.transports (Transports.waits_createProxies _ _))
  · have hname := hs.quiet_of_init (checkState_eq_none.mp hinit) msg.sender
    have hcreate : s.Quiet { s with
        transports := (s.transports.createProxies init.transports).2
        remoteName := msg.sender
        initiatorName := msg.initiator } :=
      hname.trans (.of_silent ⟨rfl, rfl, rfl, rfl, rfl, rfl, Transports.waits_createProxies _ _⟩)
    have hinstall := hcreate.trans (.of_silent (silent_installRemote _ env init .offer))
    refine hs.quiet (hinstall.trans (.trans ?_ (.of_silent (silent_onRemoteCandidates _ _))))
    exact .enter _ rfl (by decide) nofun

/-! ## What is sent on an acknowledgement and on a redirect -/

theorem mem_sentTo {recipient : Name} {candidates : List Candidate} {c : Candidate}
    {record : List Entry} (h : .sent recipient (.transportInfo name candidates) ∈ record)
    (hc : c ∈ candidates) : (name, c) ∈ sentTo recipient record := by
  refine List.mem_flatMap.mpr ⟨_, h, ?_⟩
  simpa using hc

def WritesInfos (env : Surroundings) : Prop :=
  ∀ name candidates, env.writes (.transportInfo name candidates)

theorem send_of_writes {action : Action} (h : env.writes action) :
    s.send env action = (true, s.note (.sent s.remoteName action)) := by
  simp [send, sendTo, h]

def sendFor (list : TransportProxy → List Candidate) (clear : TransportProxy → TransportProxy)
    (s : Session) (name : Name) : Session :=
  match s.transports.proxyAt name with
  | some proxy =>
    if list proxy = [] then s
    else
      { s.note (.sent s.remoteName (.transportInfo name (list proxy))) with
        transports := s.transports.modifyProxy name clear }
  | none => s

section Loop

variable {list : TransportProxy → List Candidate} {clear : TransportProxy → TransportProxy}

theorem sendFor_none (h : s.transports.proxyAt name = none) : sendFor list clear s name = s := by
  simp only [sendFor, h]

theorem sendFor_empty (h : s.transports.proxyAt name = some proxy) (hempty : list proxy = []) :
    sendFor list clear s name = s := by
  simp only [sendFor, h, hempty, if_true]

theorem sendFor_some (h : s.transports.proxyAt name = some proxy) (hsome : list proxy ≠ []) :
    sendFor list clear s name =
      { s.note (.sent s.remoteName (.transportInfo name (list proxy))) with
        transports := s.transports.modifyProxy name clear } := by
  simp only [sendFor, h, hsome, if_false]

end Loop

theorem resendAll_eq (hwrites : WritesInfos env) (names : List Name) (s : Session) :
    resendAll env names s = (true, run (sendFor TransportProxy.sentCandidates
      fun proxy => { proxy with sentCandidates := [] }) s names) := by
  induction names generalizing s with
  | nil => rfl
  | cons name names ih =>
    rw [run_cons]
    cases hproxy : s.transports.proxyAt name with
    | none =>
      rw [resendAll, hproxy, sendFor_none hproxy]
      exact ih s
    | some proxy =>
      by_cases hempty : proxy.sentCandidates = []
      · rw [sendFor_empty hproxy hempty]
        simp only [resendAll, hproxy, hempty, if_true, ih]
      · rw [sendFor_some hproxy hempty]
        simp only [resendAll, hproxy, hempty, if_false, send_of_writes (hwrites _ _), ih]
        rfl

theorem sendUnsent_eq (hwrites : WritesInfos env) (names : List Name) (s : Session) :
    sendUnsent env names s = run (sendFor TransportProxy.unsentCandidates
      fun proxy => { proxy with unsentCandidates := [] }) s names := by
  induction names generalizing s with
  | nil => rfl
  | cons name names ih =>
    rw [run_cons]
    cases hproxy : s.transports.proxyAt name with
    | none =>
      rw [sendUnsent, hproxy, sendFor_none hproxy]
      exact ih s
    | some proxy =>
      by_cases hempty : proxy.unsentCandidates = []
      · rw [sendFor_empty hproxy hempty]
        simp only [sendUnsent, hproxy, hempty, if_true, ih]
      · rw [sendFor_some hproxy hempty]
        simp only [sendUnsent, hproxy, hempty, if_false, send_of_writes (hwrites _ _), ih]
        rfl

/-- The session only sends, and no initiate: its state and its parties stay. -/
structure Sends (s s' : Session) : Prop where
  localDescription : s'.localDescription = s.localDescription
  initiator : s'.initiator = s.initiator
  state : s'.state = s.state
  initiateAcked : s'.initiateAcked = s.initiateAcked
  remoteName : s'.remoteName = s.remoteName
  history : ∃ entries : List Entry, (∀ e ∈ entries, e.quiet ∧ e.initiates = false) ∧
    s'.history = s.history ++ entries

theorem Sends.refl (s : Session) : s.Sends s :=
  ⟨rfl, rfl, rfl, rfl, rfl, [], nofun, (List.append_nil _).symm⟩

theorem Sends.trans (h : s.Sends s') (h' : s'.Sends s'') : s.Sends s'' := by
  obtain ⟨entries, hquiet, hhistory⟩ := h.history
  obtain ⟨entries', hquiet', hhistory'⟩ := h'.history
  refine ⟨h'.localDescription.trans h.localDescription, h'.initiator.trans h.initiator,
    h'.state.trans h.state, h'.initiateAcked.trans h.initiateAcked, h'.remoteName.trans h.remoteName, entries ++ entries',
    fun e he => (List.mem_append.mp he).elim (hquiet e) (hquiet' e), ?_⟩
  rw [hhistory', hhistory, List.append_assoc]

theorem Sends.sentTo_subset (h : s.Sends s') (recipient : Name) :
    sentTo recipient s.history ⊆ sentTo recipient s'.history := by
  obtain ⟨entries, -, hhistory⟩ := h.history
  rw [hhistory, sentTo_append]
  exact List.subset_append_left _ _

section Loop

variable {list : TransportProxy → List Candidate} {clear : TransportProxy → TransportProxy}

theorem sendFor_sends (name : Name) : s.Sends (sendFor list clear s name) := by
  cases hproxy : s.transports.proxyAt name with
  | none =>
    rw [sendFor_none hproxy]
    exact .refl s
  | some proxy =>
    by_cases hempty : list proxy = []
    · rw [sendFor_empty hproxy hempty]
      exact .refl s
    · rw [sendFor_some hproxy hempty]
      exact ⟨rfl, rfl, rfl, rfl, rfl, [.sent s.remoteName (.transportInfo name (list proxy))],
        by simp [Entry.quiet, Entry.initiates], rfl⟩

theorem mem_sentTo_sendFor {c : Candidate} (hproxy : s.transports.proxyAt name = some proxy) (hc : c ∈ list proxy) :
    (name, c) ∈ sentTo s.remoteName (sendFor list clear s name).history := by
  rw [sendFor_some hproxy (List.ne_nil_of_mem hc)]
  exact mem_sentTo (List.mem_append_right _ (List.mem_singleton_self _)) hc

theorem proxyAt_sendFor_of_ne (hclear : ∀ proxy, (clear proxy).contentName = proxy.contentName)
    {name' : Name} (h : name' ≠ name) :
    (sendFor list clear s name).transports.proxyAt name' = s.transports.proxyAt name' := by
  cases hproxy : s.transports.proxyAt name with
  | none => rw [sendFor_none hproxy]
  | some proxy =>
    by_cases hempty : list proxy = []
    · rw [sendFor_empty hproxy hempty]
    · rw [sendFor_some hproxy hempty]
      simp [Transports.proxyAt_modifyProxy _ _ _ hclear, h]

variable (list clear) in
theorem run_sendFor (hclear : ∀ proxy, (clear proxy).contentName = proxy.contentName)
    (names : List Name) (s : Session) :
    s.Sends (run (sendFor list clear) s names) ∧
      ∀ name ∈ names, ∀ proxy, s.transports.proxyAt name = some proxy → ∀ c ∈ list proxy,
        (name, c) ∈ sentTo s.remoteName (run (sendFor list clear) s names).history := by
  induction names generalizing s with
  | nil => exact ⟨.refl s, nofun⟩
  | cons name names ih =>
    rw [run_cons]
    have hfirst : s.Sends (sendFor list clear s name) := sendFor_sends name
    obtain ⟨hrest, hsent⟩ := ih (sendFor list clear s name)
    refine ⟨hfirst.trans hrest, fun name' hname' proxy hproxy c hc => ?_⟩
    by_cases h : name' = name
    · subst h
      exact hrest.sentTo_subset _ (mem_sentTo_sendFor hproxy hc)
    · have hmem : name' ∈ names := (List.mem_cons.mp hname').resolve_left h
      rw [← hfirst.remoteName]
      exact hsent name' hmem proxy ((proxyAt_sendFor_of_ne hclear h).trans hproxy) c hc

end Loop

theorem mem_list_iff {list : TransportProxy → List Candidate}
    {c : Candidate} : c ∈ ((n.proxyAt name).map list).getD [] ↔
      ∃ proxy, n.proxyAt name = some proxy ∧ c ∈ list proxy := by
  cases n.proxyAt name <;> simp

theorem mem_names (h : n.proxyAt name = some proxy) : name ∈ n.names := by
  refine List.mem_map.mpr ⟨proxy, List.mem_of_find?_eq_some h, ?_⟩
  simpa using List.find?_some h

theorem Sends.gathered_eq (h : s.Sends s') : gathered s'.history = gathered s.history := by
  obtain ⟨entries, hentries, hhistory⟩ := h.history
  rw [hhistory, gathered_append, gathered_of_quiet fun e he => (hentries e he).1, List.append_nil]

theorem delivering_of_acked (hdescribed : s.Described) (hinitiator : s.initiator)
    (hstate : s.state ≠ .init) (hacked : s.initiateAcked = true)
    (hdelivered : gathered s.history ⊆ sentTo s.remoteName s.history) : s.Delivering where
  described := hdescribed
  initiator := hinitiator
  begun h := absurd h hstate
  unacked h := absurd (hacked.symm.trans h) nofun
  waiting h := absurd (hacked.symm.trans h) nofun
  delivered _ := hdelivered

theorem delivering_onInitiateAcked (hwrites : WritesInfos env) (hdescribed : s.Described)
    (hinitiator : s.initiator) (hstate : s.state ≠ .init)
    (hwaiting : s.initiateAcked = false → ∀ x ∈ gathered s.history, x.2 ∈ s.transports.unsentAt x.1)
    (hdelivered : s.initiateAcked → gathered s.history ⊆ sentTo s.remoteName s.history) :
    (s.onInitiateAcked env).Delivering := by
  unfold onInitiateAcked
  split
  · rename_i hacked
    exact delivering_of_acked hdescribed hinitiator hstate hacked (hdelivered hacked)
  · rename_i hacked
    rw [Bool.not_eq_true] at hacked
    rw [sendAllUnsentTransportInfoMessages, sendUnsent_eq hwrites]
    obtain ⟨hsends, hsent⟩ := run_sendFor TransportProxy.unsentCandidates
      (fun proxy => { proxy with unsentCandidates := [] }) (fun _ => rfl)
      s.transports.names { s with initiateAcked := true }
    refine delivering_of_acked (fun h => ?_) (hsends.initiator.trans hinitiator)
      (by rw [hsends.state]; exact hstate) hsends.initiateAcked fun x hx => ?_
    · rw [hsends.localDescription]
      exact hdescribed (hsends.state.symm.trans h)
    · rw [hsends.gathered_eq] at hx
      obtain ⟨proxy, hproxy, hc⟩ := mem_list_iff.mp (hwaiting hacked x hx)
      rw [hsends.remoteName]
      exact hsent x.1 (mem_names hproxy) proxy hproxy x.2 hc

theorem Delivering.onInitiateAcked (hs : s.Delivering) (hwrites : WritesInfos env)
    (hstate : s.state ≠ .init) : (s.onInitiateAcked env).Delivering :=
  delivering_onInitiateAcked hwrites hs.described hs.initiator hstate hs.waiting hs.delivered

theorem Delivering.onInitiateResponse (hs : s.Delivering) (hwrites : WritesInfos env)
    (hstate : s.state ≠ .init) (sender : Name) : (s.onInitiateResponse env sender).Delivering := by
  have hgathered : gathered (s.note (.acked sender)).history = gathered s.history := by
    simp [note, gathered]
  refine delivering_onInitiateAcked hwrites hs.described hs.initiator hstate ?_ fun hacked => ?_
  · rw [hgathered]
    exact hs.waiting
  · rw [hgathered]
    refine List.Subset.trans (hs.delivered hacked) ?_
    simp [note]

theorem Delivering.live (hs : s.Delivering) (hacked : s.initiateAcked) : s.state ≠ .init := by
  intro hinit
  rw [(hs.begun hinit).1] at hacked
  cases hacked

theorem gathered_note (name : Name) (candidates : List Candidate) :
    gathered (s.note (.gathered name candidates)).history =
      gathered s.history ++ candidates.map (name, ·) := by
  simp [note, gathered]

theorem Delivering.addUnsent (hs : s.Delivering) (hacked : s.initiateAcked = false) (hproxy : s.transports.proxyAt name = some proxy)
    (candidates : List Candidate) :
    Delivering { s.note (.gathered name candidates) with
      transports := s.transports.modifyProxy name fun proxy =>
        { proxy with unsentCandidates := proxy.unsentCandidates ++ candidates } } := by
  have hentry : ∀ e ∈ s.history ++ [.gathered name candidates],
      e ∈ s.history ∨ e = .gathered name candidates := fun e he => by simpa using he
  constructor
  · exact hs.described
  · exact hs.initiator
  · refine fun hinit => ⟨hacked, fun e he => ?_⟩
    rcases hentry e he with he | rfl
    · exact (hs.begun hinit).2 e he
    · rfl
  · intro _ sender hmem
    rcases hentry _ hmem with hmem | heq
    · exact hs.unacked hacked sender hmem
    · cases heq
  · intro _ x hx
    change x ∈ gathered (s.note (.gathered name candidates)).history at hx
    rw [gathered_note] at hx
    rw [Transports.unsentAt_modifyProxy _ _ _ fun _ => by rfl, mem_list_iff]
    rcases List.mem_append.mp hx with hx | hx
    · obtain ⟨proxy', hproxy', hc⟩ := mem_list_iff.mp (hs.waiting hacked x hx)
      refine ⟨proxy', hproxy', ?_⟩
      split
      · exact List.mem_append_left _ hc
      · exact hc
    · obtain ⟨c, hc, rfl⟩ := List.mem_map.mp hx
      refine ⟨proxy, hproxy, ?_⟩
      rw [if_pos rfl]
      exact List.mem_append_right _ hc
  · exact fun h => absurd (hacked.symm.trans h) nofun

/-- **Candidates are sent, or wait to be**. -/
theorem Delivering.candidatesReady (hs : s.Delivering) (hwrites : WritesInfos env) (name : Name)
    (candidates : List Candidate) :
    (s.onTransportProxyCandidatesReady env name candidates).Delivering := by
  unfold onTransportProxyCandidatesReady
  split
  · exact hs
  rename_i proxy hproxy
  dsimp only
  by_cases hacked : s.initiateAcked
  · rw [if_neg (by simp [note, hacked]), send_of_writes (hwrites _ _)]
    obtain ⟨n, hn⟩ : ∃ n, (if proxy.negotiated then s.note (.gathered name candidates)
        else { s.note (.gathered name candidates) with
          transports := (s.note (.gathered name candidates)).transports.modifyProxy name fun proxy =>
            { proxy with sentCandidates := proxy.sentCandidates ++ candidates } }) =
        { s.note (.gathered name candidates) with transports := n } := by
      split
      · exact ⟨s.transports, rfl⟩
      · exact ⟨_, rfl⟩
    rw [hn]
    refine delivering_of_acked hs.described hs.initiator (hs.live hacked) hacked fun x hx => ?_
    have hx' : x ∈ gathered s.history ++ candidates.map (name, ·) := by
      rw [← gathered_note]
      simpa [note, gathered] using hx
    have hmono : sentTo s.remoteName s.history ⊆ sentTo s.remoteName (s.history ++
        [.gathered name candidates] ++ [.sent s.remoteName (.transportInfo name candidates)]) := by
      rw [List.append_assoc, sentTo_append]
      exact List.subset_append_left _ _
    rcases List.mem_append.mp hx' with hold | hnew
    · exact hmono (hs.delivered hacked hold)
    · obtain ⟨c, hc, rfl⟩ := List.mem_map.mp hnew
      exact mem_sentTo (List.mem_append_right _ (List.mem_singleton_self _)) hc
  · rw [Bool.not_eq_true] at hacked
    rw [if_pos ⟨hs.initiator, by simp [note, hacked]⟩]
    exact hs.addUnsent hacked hproxy candidates

/-! ## Redirects -/

theorem waits_resend (names : List Name) (s : Session) : s.transports.Waits (run (sendFor
    TransportProxy.sentCandidates fun proxy => { proxy with sentCandidates := [] }) s names).transports := by
  refine run_invariant (I := fun s' => s.transports.Waits s'.transports) (fun s' name hs' _ => ?_)
    (.refl _) (guarded_true s names)
  refine hs'.trans ?_
  unfold sendFor
  split
  · split
    · exact .refl _
    · exact Transports.waits_modifyProxy _ _ (fun _ => rfl) fun _ => rfl
  · exact .refl _

def Follows (s : Session) (target : Name) : Prop :=
  s.state = .sentInitiate ∧ bareJidsEqual s.remoteName target

def RecordedFor (s : Session) (target : Name) : Prop :=
  ∀ x ∈ gathered s.history, x.2 ∈ s.transports.sentAt x.1 ∨ x ∈ sentTo target s.history

instance (s : Session) (target : Name) : Decidable (s.RecordedFor target) :=
  inferInstanceAs (Decidable (∀ x ∈ gathered s.history, _))

theorem Delivering.resend (hs : s.Delivering) (hstate : s.state = .sentInitiate) (target : Name)
    (contents : List Name) (hrecorded : s.initiateAcked → s.RecordedFor target) :
    Delivering (run (sendFor TransportProxy.sentCandidates fun proxy => { proxy with sentCandidates := [] })
      ({ s with remoteName := target }.note (.sent target (.sessionInitiate contents)))
      s.transports.names) := by
  obtain ⟨hsends, hsent⟩ := run_sendFor TransportProxy.sentCandidates
    (fun proxy => { proxy with sentCandidates := [] }) (fun _ => rfl) s.transports.names
    ({ s with remoteName := target }.note (.sent target (.sessionInitiate contents)))
  have hwaits := waits_resend s.transports.names
    ({ s with remoteName := target }.note (.sent target (.sessionInitiate contents)))
  generalize run _ _ s.transports.names = s' at hsends hsent hwaits ⊢
  have hlive : s'.state ≠ .init := by
    rw [hsends.state]
    exact fun h => absurd (hstate.symm.trans h) nofun
  have hdescribed : s.Described → s'.Described := fun h _ => by
    rw [hsends.localDescription]
    exact h hstate
  by_cases hacked : s.initiateAcked
  · refine delivering_of_acked (hdescribed hs.described) (hsends.initiator.trans hs.initiator) hlive
      (hsends.initiateAcked.trans hacked) fun x hx => ?_
    rw [hsends.gathered_eq] at hx
    have hx' : x ∈ gathered s.history := by simpa [note, gathered] using hx
    rw [hsends.remoteName]
    rcases hrecorded hacked x hx' with hc | hsentTo
    · obtain ⟨proxy, hproxy, hc⟩ := mem_list_iff.mp hc
      exact hsent x.1 (mem_names hproxy) proxy hproxy x.2 hc
    · refine hsends.sentTo_subset target ?_
      exact (sentTo_append target s.history _).symm ▸ List.mem_append_left _ hsentTo
  · obtain ⟨entries, hentries, hhistory⟩ := hsends.history
    refine hs.quiet ⟨hdescribed, hsends.initiator, hsends.initiateAcked, fun h => absurd h hacked,
      hwaits, .sent target (.sessionInitiate contents) :: entries, ?_, ?_, fun h => absurd h hlive⟩
    · exact List.forall_mem_cons.mpr ⟨rfl, fun e he => (hentries e he).1⟩
    · rw [hhistory]
      exact List.append_assoc _ _ _

theorem Delivering.onRedirectError (hs : s.Delivering) (hwrites : WritesInfos env)
    (hinitiate : ∀ contents, env.writes (.sessionInitiate contents)) (target : Name)
    (hrecorded : s.initiateAcked → s.Follows target → s.RecordedFor target) :
    (s.onRedirectError env target).2.Delivering := by
  unfold Session.onRedirectError
  split
  · exact hs
  rename_i hstate
  rw [not_not] at hstate
  split
  · exact hs
  rename_i hbare
  rw [Bool.not_eq_true', Bool.not_eq_false] at hbare
  dsimp only
  split
  · rename_i hnone
    have hsome := hs.described hstate
    rw [hnone] at hsome
    cases hsome
  · rename_i sdesc _
    rw [send_of_writes (hinitiate _)]
    dsimp only
    rw [resendAllTransportInfoMessages, resendAll_eq hwrites]
    exact hs.resend hstate target sdesc.contents fun hacked => hrecorded hacked ⟨hstate, hbare⟩

/-! ## Runs -/

def Recorded (s : Session) (input : Surroundings × Event) : Prop :=
  WritesInfos input.1 ∧ (∀ contents, input.1.writes (.sessionInitiate contents)) ∧
    match input.2 with
    | .failedSend (some _) (.redirect target) =>
      s.initiateAcked → s.Follows target → s.RecordedFor target
    | _ => True

theorem Delivering.onFailedSend (hs : s.Delivering) (type : Option ActionType) (error : SendError)
    (h : s.Recorded (env, .failedSend type error)) : (s.onFailedSend env type error).Delivering := by
  obtain ⟨hwrites, hinitiate, hrecorded⟩ := h
  unfold Session.onFailedSend
  split
  · exact hs
  split
  · have hredirect := hs.onRedirectError hwrites hinitiate _ hrecorded
    split <;> rename_i heq <;> rw [heq] at hredirect
    · exact hredirect
    · exact hredirect.quiet (.of_silent (silent_setError _ .response))
  · exact hs
  · split
    · exact hs
    · split
      · exact hs.quiet (.of_silent (silent_setError s .response))
      · exact hs

theorem Delivering.onAcceptMessage (hs : s.Delivering) (hwrites : WritesInfos env)
    (parsed : Except Name ContentMessage) : (s.onAcceptMessage env parsed).2.Delivering := by
  unfold Session.onAcceptMessage
  split
  · exact hs
  rename_i hstate
  split
  · exact hs
  have hlive : s.state ≠ .init := by
    rw [checkState_eq_none.mp hstate]
    decide
  refine (hs.onInitiateAcked hwrites hlive).quiet (.trans ?_ (.of_silent (silent_onRemoteCandidates _ _)))
  refine .trans ?_ (.enter _ rfl (by decide) nofun)
  exact (Quiet.of_silent (silent_installRemote _ env _ .answer)).trans (.of_silent (silent_maybeEnableMuxingSupport _))

theorem Delivering.onIncomingMessage (hs : s.Delivering) (hwrites : WritesInfos env)
    (msg : SessionMessage) : (s.onIncomingMessage env msg).2.Delivering := by
  have hs₁ := hs.quiet (.of_silent (silent_settleProtocol s msg.protocol))
  unfold Session.onIncomingMessage
  dsimp only
  split
  · exact hs₁.onInitiateMessage msg _
  · exact hs₁
  · exact hs₁.onAcceptMessage hwrites _
  · unfold onRejectMessage
    split
    · exact hs₁
    · exact hs₁.quiet (.enter _ rfl (by decide) nofun)
  · exact hs₁.quiet (.enter _ rfl (by decide) nofun)
  · exact hs₁.quiet (.of_silent (silent_onTransportInfoMessage _ _))
  · exact hs₁
  · exact hs₁.quiet (.of_silent (silent_onDescriptionInfoMessage _ _))
  · exact hs₁

theorem Delivering.live_of_initiatedTo (hs : s.Delivering) (h : s.initiatedTo name) : s.state ≠ .init := by
  intro hinit
  obtain ⟨e, he, hsent⟩ := List.any_eq_true.mp h
  have hnone := (hs.begun hinit).2 e he
  unfold Entry.initiates at hnone
  split at hsent
  · cases hnone
  · cases hsent

/-- **Every event keeps the candidates delivered or waiting**. -/
theorem Delivering.handle (hs : s.Delivering) (ev : Event) (h : s.Recorded (env, ev)) :
    (s.handle env ev).Delivering := by
  have hwrites : WritesInfos env := h.1
  cases ev with
  | initiate recipient sdesc => exact hs.initiate recipient sdesc
  | accept sdesc => exact hs.quiet (accept_quiet sdesc)
  | reject reason => exact hs.quiet (reject_quiet s reason)
  | terminate reason => exact hs.quiet (terminateWithReason_quiet s reason)
  | sendInfo recipient => exact hs.quiet (.note s rfl rfl)
  | sendDescriptionInfo contents => exact hs.quiet (sendTo_quiet s env _ rfl)
  | incoming msg => exact hs.onIncomingMessage hwrites msg
  | initiateResponse sender =>
    simp only [Session.handle]
    split
    · rename_i hsent
      exact hs.onInitiateResponse hwrites (hs.live_of_initiatedTo hsent) sender
    · exact hs
  | failedSend type error => exact hs.onFailedSend type error h
  | setError error => exact hs.quiet (.of_silent (silent_setError s error))
  | signal sig => exact hs.quiet (.of_silent (silent_onSignal s sig))
  | candidatesReady name candidates => exact hs.candidatesReady hwrites name candidates
  | createChannel name component =>
    exact hs.quiet (.of_silent (silent_createChannel s name component))
  | destroyChannel name component =>
    exact hs.quiet (.of_silent (silent_destroyChannel s name component))
  | message m =>
    simp only [Session.handle]
    split
    · exact hs.quiet (onMessage_quiet s m)
    · exact hs

theorem Delivering.step (hs : s.Delivering) (input : Surroundings × Event) (h : s.Recorded input) :
    (s.step input).Delivering := by
  unfold Session.step
  split
  · exact hs
  · exact hs.handle input.2 h

theorem delivering_new (localName : Name) : (new localName localName).Delivering where
  described := nofun
  initiator := decide_eq_true rfl
  begun _ := ⟨rfl, nofun⟩
  unacked _ _ := nofun
  waiting _ := nofun
  delivered := nofun

/-- **Once its peer has acknowledged the initiate, an initiator has sent it all candidates.** -/
theorem candidates_delivered (localName : Name) (inputs : List (Surroundings × Event))
    (h : Guarded step Recorded (new localName localName) inputs) :
    let s := run step (new localName localName) inputs
    .acked s.remoteName ∈ s.history → gathered s.history ⊆ sentTo s.remoteName s.history := by
  intro s hacked
  have hs : s.Delivering := run_invariant (fun _ input hs h => hs.step input h) (delivering_new localName) h
  refine hs.delivered ?_
  by_contra hwaits
  exact hs.unacked (Bool.not_eq_true _ ▸ hwaits) s.remoteName hacked

theorem candidates_delivered_redirect : let candidate : Candidate :=
      ⟨[], 1, [], .ofIP (.v4 0x08080808) 2000, 0, [], [], [], [], 0, [], .ofIP .unspec 0⟩
    let s := run step (new (text "caller") (text "caller"))
      [({}, .createChannel (text "audio") 1),
        ({}, .initiate (text "callee@example/one") ⟨[text "audio"], [], []⟩),
        ({}, .initiateResponse (text "callee@example/one")),
        ({}, .candidatesReady (text "audio") [candidate]),
        ({}, .failedSend (some .transportInfo) (.redirect (text "callee@example/two"))),
        ({}, .initiateResponse (text "callee@example/two"))]
    s.remoteName = text "callee@example/two" ∧ gathered s.history = [(text "audio", candidate)] ∧
      gathered s.history ⊆ sentTo s.remoteName s.history := by
  intro candidate s
  have hacked : .acked s.remoteName ∈ s.history := by decide
  refine ⟨by decide, by decide, candidates_delivered (text "caller") _ ?_ hacked⟩
  have hwrites : WritesInfos {} ∧
    ∀ contents, ({} : Surroundings).writes (.sessionInitiate contents) :=
    ⟨fun _ _ => rfl, fun _ => rfl⟩
  refine ⟨⟨hwrites.1, hwrites.2, trivial⟩, ⟨hwrites.1, hwrites.2, trivial⟩,
    ⟨hwrites.1, hwrites.2, trivial⟩, ⟨hwrites.1, hwrites.2, trivial⟩,
    ⟨hwrites.1, hwrites.2, fun _ _ => ?_⟩, ⟨hwrites.1, hwrites.2, trivial⟩, trivial⟩
  decide

/-- A candidate gathered before the acknowledgement is not sent to the second peer. -/
theorem candidates_lost : let candidate : Candidate :=
      ⟨[], 1, [], .ofIP (.v4 0x08080808) 2000, 0, [], [], [], [], 0, [], .ofIP .unspec 0⟩
    let s := run step (new (text "caller") (text "caller"))
      [({}, .createChannel (text "audio") 1),
        ({}, .initiate (text "callee@example/one") ⟨[text "audio"], [], []⟩),
        ({}, .candidatesReady (text "audio") [candidate]),
        ({}, .initiateResponse (text "callee@example/one")),
        ({}, .failedSend (some .transportInfo) (.redirect (text "callee@example/two"))),
        ({}, .initiateResponse (text "callee@example/two"))]
    .acked s.remoteName ∈ s.history ∧ gathered s.history = [(text "audio", candidate)] ∧
      sentTo s.remoteName s.history = [] ∧
      ¬ (.acked s.remoteName ∈ s.history → gathered s.history ⊆ sentTo s.remoteName s.history) := by
  intro candidate s
  have hacked : .acked s.remoteName ∈ s.history := by decide
  have hgathered : gathered s.history = [(text "audio", candidate)] := by decide
  have hsent : sentTo s.remoteName s.history = [] := by decide
  refine ⟨hacked, hgathered, hsent, fun h => ?_⟩
  have hmem := h hacked (hgathered ▸ List.mem_singleton_self _)
  rw [hsent] at hmem
  cases hmem

end Session

end Libjingle.Signaling
