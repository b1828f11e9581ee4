import Libjingle.Signaling.Silent

/-!
# The order of the states of a session

The record of a session shows which messages were sent or acted on and which states were entered.

Main result: **`states_ordered`**.
-/

variable {state : State} {e : Entry}

namespace Libjingle.Signaling

open Lib

/-! ## Records -/

def Entry.ownState : Entry → Option State
  | .sent _ (.sessionReject _) => some .sentReject
  | .sent _ (.sessionTerminate _) => some .sentTerminate
  | .received .sessionReject => some .receivedReject
  | .received .sessionTerminate => some .receivedTerminate
  | _ => none

def Entry.neutral : Entry → Bool
  | .entered _ => false
  | e => e.ownState.isNone

def Begun (record : List Entry) : Prop :=
  (∃ recipient contents, .sent recipient (.sessionInitiate contents) ∈ record) ∨
    .received .sessionInitiate ∈ record

def Ended (record : List Entry) : Prop := ∃ e ∈ record, e.ownState.isSome

def JustEnded (record : List Entry) (state : State) : Prop :=
  ∃ e ∈ record.getLast?, e.ownState = some state

def State.once : State → Bool
  | .sentAccept | .receivedAccept | .inProgress => true
  | _ => false

def State.final : State → Bool
  | .sentTerminate | .receivedTerminate | .deinit => true
  | _ => false

def Allowed (record : List Entry) : Entry → Prop
  | .entered state =>
    (state.once → .entered state ∉ record ∧ Begun record) ∧
      (Ended record → state.final ∨ JustEnded record state)
  | .sent _ (.sessionReject _) => .received .sessionInitiate ∈ record
  | _ => True

theorem allowed_of_neutral (h : e.neutral) (record : List Entry) : Allowed record e := by
  unfold Allowed
  split
  · cases h
  · cases h
  · trivial

theorem Begun.append {record : List Entry} (h : Begun record) (entries : List Entry) : Begun (record ++ entries) := by
  obtain ⟨recipient, contents, h⟩ | h := h
  · exact .inl ⟨recipient, contents, List.mem_append_left _ h⟩
  · exact .inr (List.mem_append_left _ h)

theorem Ended.of_append {record entries : List Entry} (hentries : ∀ e ∈ entries, e.ownState = none)
    (h : Ended (record ++ entries)) : Ended record := by
  obtain ⟨e, he, hends⟩ := h
  rcases List.mem_append.mp he with he | he
  · exact ⟨e, he, hends⟩
  · rw [hentries e he] at hends
    cases hends

theorem ownState_of_neutral (h : e.neutral) : e.ownState = none := by
  cases e with
  | entered state => cases h
  | _ => simpa [Entry.neutral] using h

/-! ## Ranks -/

def State.rank : State → ℕ
  | .init => 0
  | .sentInitiate | .receivedInitiate => 1
  | .sentAccept | .receivedAccept => 2
  | .inProgress => 3
  | .sentReject | .receivedReject => 4
  | .sentTerminate => 5
  | .receivedTerminate => 6
  | .deinit => 7
  | _ => 8

theorem State.rank_of_once (h : state.once) : 2 ≤ state.rank ∧ state.rank ≤ 3 := by
  cases state <;> simp_all [State.once, State.rank]

namespace Session

variable {s s' s'' : Session}

/-- The history is lawful, and the state is the furthest that it has come to. -/
structure Ordered (s : Session) : Prop where
  lawful : Lawful Allowed s.history
  rank_le : ∀ state, .entered state ∈ s.history → state.rank ≤ s.state.rank
  begun : 1 ≤ s.state.rank → s.state.rank ≤ 3 → Begun s.history
  received : s.state = .receivedInitiate → .received .sessionInitiate ∈ s.history
  ended : Ended s.history → 4 ≤ s.state.rank
  bounded : s.state.rank ≤ 7

def Talks (s s' : Session) : Prop :=
  s'.state = s.state ∧ ∃ entries : List Entry, (∀ e ∈ entries, e.neutral) ∧
    s'.history = s.history ++ entries

namespace Talks

theorem of_eq (hstate : s'.state = s.state) (hhistory : s'.history = s.history) : s.Talks s' :=
  ⟨hstate, [], nofun, by rw [hhistory, List.append_nil]⟩

theorem of_silent (h : s.Silent s') : s.Talks s' := of_eq h.state h.history

theorem refl (s : Session) : s.Talks s := of_eq rfl rfl

theorem trans (h : s.Talks s') (h' : s'.Talks s'') : s.Talks s'' := by
  obtain ⟨hstate, entries, hentries, hhistory⟩ := h
  obtain ⟨hstate', entries', hentries', hhistory'⟩ := h'
  refine ⟨hstate'.trans hstate, entries ++ entries', fun e he => ?_, ?_⟩
  · exact (List.mem_append.mp he).elim (hentries e) (hentries' e)
  · rw [hhistory', hhistory, List.append_assoc]

theorem note (s : Session) (h : e.neutral) : s.Talks (s.note e) :=
  ⟨rfl, [e], fun _ he => by rwa [List.mem_singleton.mp he], rfl⟩

theorem mem (h : s.Talks s') (he : e ∈ s.history) : e ∈ s'.history := by
  obtain ⟨-, entries, -, hhistory⟩ := h
  rw [hhistory]
  exact List.mem_append_left _ he

end Talks

theorem Ordered.talks (hs : s.Ordered) (h : s.Talks s') : s'.Ordered := by
  obtain ⟨hstate, entries, hneutral, hhistory⟩ := h
  constructor
  · rw [hhistory]
    exact lawful_append hs.lawful fun e he => allowed_of_neutral (hneutral e he)
  · intro state hmem
    rw [hhistory] at hmem
    rw [hstate]
    rcases List.mem_append.mp hmem with hmem | hmem
    · exact hs.rank_le state hmem
    · cases hneutral _ hmem
  · rw [hstate, hhistory]
    exact fun h₁ h₃ => (hs.begun h₁ h₃).append entries
  · rw [hstate, hhistory]
    exact fun h => List.mem_append_left _ (hs.received h)
  · rw [hstate, hhistory]
    exact fun h => hs.ended (h.of_append fun e he => ownState_of_neutral (hneutral e he))
  · rw [hstate]
    exact hs.bounded

/-! ## States that are entered -/

theorem Ordered.advance (hs : s.Ordered) (hrank : s.state.rank < state.rank)
    (hthree : state.rank ≤ 3) (hbegun : Begun s.history)
    (hreceived : state = .receivedInitiate → .received .sessionInitiate ∈ s.history) :
    (s.setState state).Ordered := by
  have hne : state ≠ s.state := fun h => by rw [h] at hrank; omega
  have hopen : ¬ Ended s.history := fun h => by have := hs.ended h; omega
  obtain ⟨hstate, hhistory⟩ := s.setState_of_ne hne
  constructor
  · rw [hhistory, lawful_append_singleton]
    refine ⟨hs.lawful, fun _ => ⟨fun hmem => ?_, hbegun⟩, fun hend => absurd hend hopen⟩
    have := hs.rank_le state hmem
    omega
  · intro state' hmem
    rw [hhistory] at hmem
    rw [hstate]
    rcases List.mem_append.mp hmem with hmem | hmem
    · exact (hs.rank_le state' hmem).trans hrank.le
    · cases List.mem_singleton.mp hmem
      exact le_rfl
  · rw [hhistory]
    exact fun _ _ => hbegun.append _
  · rw [hstate, hhistory]
    exact fun h => List.mem_append_left _ (hreceived h)
  · rw [hhistory]
    exact fun h => absurd (h.of_append (by simp [Entry.ownState])) hopen
  · rw [hstate]
    omega

theorem Ordered.close (hs : s.Ordered) (hfinal : state.final)
    (hrank : s.state.rank < state.rank) (hstate : s'.state = state)
    (hhistory : s'.history = s.history ++ [.entered state]) : s'.Ordered := by
  have hlow : 5 ≤ state.rank ∧ state.rank ≤ 7 := by
    revert hfinal
    cases state <;> simp [State.final, State.rank]
  have honce : ¬ state.once := fun h => by have := State.rank_of_once h; omega
  constructor
  · rw [hhistory, lawful_append_singleton]
    exact ⟨hs.lawful, fun h => absurd h honce, fun _ => .inl hfinal⟩
  · intro state' hmem
    rw [hhistory] at hmem
    rw [hstate]
    rcases List.mem_append.mp hmem with hmem | hmem
    · exact (hs.rank_le state' hmem).trans hrank.le
    · cases List.mem_singleton.mp hmem
      exact le_rfl
  · rw [hstate]
    omega
  · intro h
    rw [hstate] at h
    rw [h] at hfinal
    cases hfinal
  · rw [hstate]
    omega
  · rw [hstate]
    omega

theorem rank_of_ownState (h : e.ownState = some state) : 4 ≤ state.rank ∧ state.rank ≤ 6 := by
  revert h
  unfold Entry.ownState
  split <;> rintro ⟨⟩ <;> decide

theorem Ordered.note (hs : s.Ordered) (hallowed : Allowed s.history e)
    (hstate : ∀ state, e ≠ .entered state) (hended : 4 ≤ s.state.rank) : (s.note e).Ordered where
  lawful := lawful_append_singleton.mpr ⟨hs.lawful, hallowed⟩
  rank_le state hmem := by
    rcases List.mem_append.mp hmem with hmem | hmem
    · exact hs.rank_le state hmem
    · exact absurd (List.mem_singleton.mp hmem).symm (hstate state)
  begun _ hthree := by
    have : s.state.rank ≤ 3 := hthree
    omega
  received h := List.mem_append_left _ (hs.received h)
  ended _ := hended
  bounded := hs.bounded

theorem Ordered.finish (hs : s.Ordered) (he : e.ownState = some state)
    (hallowed : Allowed s.history e) (hrank : s.state.rank ≤ state.rank) :
    ((s.note e).setState state).Ordered := by
  obtain ⟨hfour, hsix⟩ := rank_of_ownState he
  have hentered : ∀ state, e ≠ .entered state := fun state h => by rw [h] at he; cases he
  by_cases heq : state = s.state
  · rw [(s.note e).setState_of_eq heq]
    exact hs.note hallowed hentered (heq ▸ hfour)
  have honce : ¬ state.once := fun h => by have := State.rank_of_once h; omega
  have hlast : JustEnded (s.note e).history state := ⟨e, by simp [Session.note], he⟩
  obtain ⟨hstate, hhistory⟩ := (s.note e).setState_of_ne heq
  constructor
  · rw [hhistory, lawful_append_singleton]
    exact ⟨lawful_append_singleton.mpr ⟨hs.lawful, hallowed⟩, fun h => absurd h honce,
      fun _ => .inr hlast⟩
  · intro state' hmem
    rw [hhistory] at hmem
    rw [hstate]
    rcases List.mem_append.mp hmem with hmem | hmem
    · rcases List.mem_append.mp hmem with hmem | hmem
      · exact (hs.rank_le state' hmem).trans hrank
      · exact absurd (List.mem_singleton.mp hmem).symm (hentered state')
    · cases List.mem_singleton.mp hmem
      exact le_rfl
  · rw [hstate]
    omega
  · intro h
    rw [hstate] at h
    rw [h] at hfour
    exact absurd hfour (by decide)
  · rw [hstate]
    exact fun _ => hfour
  · rw [hstate]
    omega

/-! ## What is sent -/

variable (s) (env : Surroundings)

theorem sendTo_talks (recipient : Name) {action : Action} (h : (Entry.sent recipient action).neutral) :
    s.Talks (s.sendTo env recipient action).2 := by
  unfold sendTo
  split
  · exact .note s h
  · exact .refl s

theorem send_talks (action : Action) (h : (Entry.sent s.remoteName action).neutral) :
    s.Talks (s.send env action).2 := sendTo_talks s env s.remoteName h

theorem resendAll_talks (names : List Name) : s.Talks (resendAll env names s).2 := by
  induction names generalizing s with
  | nil => exact .refl s
  | cons name names ih =>
    cases hproxy : s.transports.proxyAt name with
    | none =>
      rw [resendAll, hproxy]
      exact ih s
    | some proxy =>
      have hsend := send_talks s env (.transportInfo name proxy.sentCandidates) rfl
      simp only [resendAll, hproxy]
      split
      · exact ih s
      · rcases hs : s.send env (.transportInfo name proxy.sentCandidates) with ⟨_ | _, s₁⟩ <;>
          rw [hs] at hsend
        · exact hsend
        · exact hsend.trans (.trans (.of_eq rfl rfl) (ih _))

theorem sendUnsent_talks (names : List Name) : s.Talks (sendUnsent env names s) := by
  induction names generalizing s with
  | nil => exact .refl s
  | cons name names ih =>
    cases hproxy : s.transports.proxyAt name with
    | none =>
      rw [sendUnsent, hproxy]
      exact ih s
    | some proxy =>
      have hsend := send_talks s env (.transportInfo name proxy.unsentCandidates) rfl
      simp only [sendUnsent, hproxy]
      split
      · exact ih s
      · rcases hs : s.send env (.transportInfo name proxy.unsentCandidates) with ⟨_ | _, s₁⟩ <;>
          rw [hs] at hsend
        · exact hsend
        · exact hsend.trans (.trans (.of_eq rfl rfl) (ih _))

theorem onInitiateAcked_talks : s.Talks (s.onInitiateAcked env) := by
  unfold onInitiateAcked
  split
  · exact .refl s
  · exact .trans (.of_eq rfl rfl) (sendUnsent_talks { s with initiateAcked := true } env _)

theorem onTransportProxyCandidatesReady_talks (name : Name) (candidates : List P2P.Candidate) :
    s.Talks (s.onTransportProxyCandidatesReady env name candidates) := by
  unfold onTransportProxyCandidatesReady
  split
  · exact .refl s
  · refine .trans (.note s (e := .gathered name candidates) rfl) ?_
    dsimp only
    split
    · exact .of_eq rfl rfl
    · refine .trans (.of_eq ?_ ?_) (send_talks _ env _ rfl) <;> split <;> rfl

theorem onRedirectError_talks (target : Name) : s.Talks (s.onRedirectError env target).2 := by
  unfold onRedirectError
  split
  · exact .refl s
  split
  · exact .refl s
  have hname : s.Talks { s with remoteName := target } := .of_eq rfl rfl
  refine hname.trans ?_
  dsimp only
  split
  · exact .refl _
  · rename_i sdesc _
    have hsend := send_talks { s with remoteName := target } env (.sessionInitiate sdesc.contents) rfl
    split <;> rename_i heq <;> rw [heq] at hsend
    · exact hsend
    · exact hsend.trans (resendAll_talks _ env _)

theorem onFailedSend_talks (type : Option ActionType) (error : SendError) :
    s.Talks (s.onFailedSend env type error) := by
  unfold onFailedSend
  split
  · exact .refl s
  split
  · rename_i target
    have h := onRedirectError_talks s env target
    rcases hr : s.onRedirectError env target with ⟨_ | _, s₁⟩ <;> rw [hr] at h
    · exact h.trans (.of_silent (silent_setError s₁ .response))
    · exact h
  · exact .refl s
  · split
    · exact .refl s
    · split
      · exact .of_silent (silent_setError s .response)
      · exact .refl s

/-! ## Steps -/

variable {s env}

theorem Ordered.advance_talks (hs : s.Ordered) (h : s.Talks s')
    (hrank : s.state.rank < state.rank) (hthree : state.rank ≤ 3) (hbegun : Begun s'.history)
    (hreceived : state = .receivedInitiate → .received .sessionInitiate ∈ s'.history) :
    (s'.setState state).Ordered :=
  (hs.talks h).advance (by rwa [h.1]) hthree hbegun hreceived

theorem Ordered.initiate (hs : s.Ordered) (recipient : Name) (sdesc : SessionDescription) :
    (s.initiate env recipient sdesc).2.Ordered := by
  unfold Session.initiate
  split
  · exact hs
  rename_i hinit
  rw [not_not] at hinit
  dsimp only
  split
  · exact hs.talks (.of_eq rfl rfl)
  split <;> rename_i heq
  · rw [send_false heq]
    exact hs.talks (.of_eq rfl rfl)
  · rw [send_true heq]
    have htalks := Talks.note s (e := .sent recipient (.sessionInitiate sdesc.contents)) rfl
    have hrank : s.state.rank < State.sentInitiate.rank := by rw [hinit]; decide
    refine hs.advance_talks (htalks.trans (.of_eq (by rfl) (by rfl))) hrank (by decide) ?_
      (fun h => by cases h)
    exact .inl ⟨_, _, List.mem_append_right _ (List.mem_singleton_self _)⟩

theorem Ordered.accept (hs : s.Ordered) (sdesc : SessionDescription) : (s.accept env sdesc).2.Ordered := by
  unfold Session.accept
  split
  · exact hs
  rename_i hstate
  rw [not_not] at hstate
  dsimp only
  split <;> rename_i heq
  · rw [send_false heq]
    exact hs.talks (.of_eq rfl rfl)
  · rw [send_true heq]
    have htalks := Talks.note s (e := .sent s.remoteName (.sessionAccept sdesc.contents)) rfl
    have hrank : s.state.rank < State.sentAccept.rank := by rw [hstate]; decide
    have hmux := htalks.trans (.trans (.of_eq (by rfl) (by rfl)) (.of_silent (silent_maybeEnableMuxingSupport
      { s.note (.sent s.remoteName (.sessionAccept sdesc.contents)) with
        localDescription := some sdesc
        transports := .pushdownLocal env.refuses sdesc .answer s.transports.names s.transports })))
    exact hs.advance_talks hmux hrank (by decide) (.inr (hmux.mem (hs.received hstate)))
      (fun h => by cases h)

theorem Ordered.reject (hs : s.Ordered) (reason : Name) : (s.reject reason).2.Ordered := by
  unfold Session.reject
  split
  · exact hs
  · rename_i h
    rw [not_and_or, not_not, not_not] at h
    have hstate : s.state = .receivedInitiate := by
      refine h.resolve_right fun hmodify => ?_
      have := hs.bounded
      rw [hmodify] at this
      exact absurd this (by decide)
    refine hs.finish rfl (hs.received hstate) ?_
    rw [hstate]
    decide

theorem Ordered.rank_le_six (hs : s.Ordered) (hlive : s.state ≠ .deinit) : s.state.rank ≤ 6 := by
  have hbounded := hs.bounded
  cases hstate : s.state <;> simp_all [State.rank]

theorem Ordered.terminateWithReason (hs : s.Ordered) (hlive : s.state ≠ .deinit) (reason : Name) :
    (s.terminateWithReason reason).2.Ordered := by
  have hclose (h : s.state.rank = 4) : (s.setState .sentTerminate).Ordered :=
    have hne : .sentTerminate ≠ s.state := fun heq => by rw [← heq] at h; cases h
    hs.close rfl (by rw [h]; decide) (s.setState_of_ne hne).1 (s.setState_of_ne hne).2
  unfold Session.terminateWithReason
  split
  · exact hs
  · exact hs
  · rename_i h
    exact hclose (by rw [h]; rfl)
  · rename_i h
    exact hclose (by rw [h]; rfl)
  · have hsix := hs.rank_le_six hlive
    have hrank : s.state.rank ≤ State.sentTerminate.rank := by
      cases hstate : s.state <;> simp_all [State.rank]
    exact hs.finish rfl trivial hrank

theorem Ordered.onInitiateMessage (hs : s.Ordered) (msg : SessionMessage)
    (parsed : Except Name ContentMessage) : (s.onInitiateMessage env msg parsed).2.Ordered := by
  unfold Session.onInitiateMessage
  split
  · exact hs
  rename_i hstate
  split
  · exact hs
  · rename_i init
    dsimp only
    split
    · exact hs.talks (.of_eq rfl rfl)
    · have hrank : s.state.rank < State.receivedInitiate.rank := by
        rw [checkState_eq_none.mp hstate]
        decide
      set s₁ : Session := { s with
        transports := (s.transports.createProxies init.transports).2
        remoteName := msg.sender
        initiatorName := msg.initiator }
      have hcreate : s.Talks s₁ := .of_eq rfl rfl
      have htalks := hcreate.trans (.trans (.of_silent (silent_installRemote s₁ env init .offer))
        (.note _ (e := .received .sessionInitiate) rfl))
      have hmem : .received .sessionInitiate ∈
          ((s₁.installRemote env init .offer).note (.received .sessionInitiate)).history :=
        List.mem_append_right _ (List.mem_singleton_self _)
      exact (hs.advance_talks htalks hrank (by decide) (.inr hmem) fun _ => hmem).talks
        (.of_silent (silent_onRemoteCandidates _ _))

theorem Ordered.onAcceptMessage (hs : s.Ordered) (parsed : Except Name ContentMessage) :
    (s.onAcceptMessage env parsed).2.Ordered := by
  unfold Session.onAcceptMessage
  split
  · exact hs
  rename_i hstate
  replace hstate := checkState_eq_none.mp hstate
  split
  · exact hs
  · rename_i accept
    have hrank : s.state.rank < State.receivedAccept.rank := by rw [hstate]; decide
    have htalks := (onInitiateAcked_talks s env).trans (.of_silent
      ((silent_installRemote _ env accept .answer).trans (silent_maybeEnableMuxingSupport _)))
    have hnote := htalks.trans (.note _ (e := .received .sessionAccept) rfl)
    have hbegun : Begun s.history := hs.begun (by rw [hstate]; decide) (by rw [hstate]; decide)
    refine (hs.advance_talks hnote hrank (by decide) ?_ nofun).talks (.of_silent (silent_onRemoteCandidates _ _))
    obtain ⟨-, entries, -, hhistory⟩ := hnote
    rw [hhistory]
    exact hbegun.append entries

theorem Ordered.onRejectMessage (hs : s.Ordered) : s.onRejectMessage.2.Ordered := by
  unfold Session.onRejectMessage
  split
  · exact hs
  · rename_i hstate
    refine hs.finish rfl trivial ?_
    rw [checkState_eq_none.mp hstate]
    decide

theorem Ordered.onTerminateMessage (hs : s.Ordered) (hlive : s.state ≠ .deinit) : s.onTerminateMessage.2.Ordered :=
  hs.finish rfl trivial (hs.rank_le_six hlive)

theorem Ordered.onIncomingMessage (hs : s.Ordered) (hlive : s.state ≠ .deinit)
    (msg : SessionMessage) : (s.onIncomingMessage env msg).2.Ordered := by
  have htalks := Talks.of_silent (silent_settleProtocol s msg.protocol)
  have hs₁ := hs.talks htalks
  unfold Session.onIncomingMessage
  dsimp only
  split
  · exact hs₁.onInitiateMessage msg _
  · exact hs₁
  · exact hs₁.onAcceptMessage _
  · exact hs₁.onRejectMessage
  · exact hs₁.onTerminateMessage (by rwa [htalks.1])
  · exact hs₁.talks (.of_silent (silent_onTransportInfoMessage _ _))
  · exact hs₁
  · exact hs₁.talks (.of_silent (silent_onDescriptionInfoMessage _ _))
  · exact hs₁

theorem Ordered.onStateMessage (hs : s.Ordered) : s.onStateMessage.Ordered := by
  have hprogress (h : s.state.rank = 2) : (s.setState .inProgress).Ordered :=
    hs.advance (by rw [h]; decide) (by decide) (hs.begun (by omega) (by omega)) (fun h => by cases h)
  unfold Session.onStateMessage
  split
  · rename_i h
    exact hprogress (by rw [h]; rfl)
  · rename_i h
    exact hprogress (by rw [h]; rfl)
  · exact hs

theorem onStateMessage_of_rank (h : s.state.rank ≠ 2) : s.onStateMessage = s := by
  unfold onStateMessage
  split
  · rename_i heq
    rw [heq] at h
    exact absurd rfl h
  · rename_i heq
    rw [heq] at h
    exact absurd rfl h
  · rfl

theorem Ordered.destroy (hs : s.Ordered) (hlive : s.state ≠ .deinit) : s.destroy.Ordered :=
  have hrank : s.state.rank < State.deinit.rank := Nat.lt_succ_of_le (hs.rank_le_six hlive)
  hs.close rfl hrank rfl rfl

theorem Ordered.onMessage (hs : s.Ordered) (hlive : s.state ≠ .deinit) (m : Posted) : (s.onMessage m).Ordered := by
  have herase : Ordered { s with messages := s.messages.erase m } := hs.talks (.of_eq rfl rfl)
  cases m with
  | timeout => exact herase.talks (.of_silent (silent_setError _ .time))
  | error => exact herase.terminateWithReason hlive strTerminateError
  | state =>
    unfold Session.onMessage
    dsimp only
    split
    · rename_i h
      rw [onStateMessage_of_rank (by rw [h]; decide)]
      exact herase.terminateWithReason hlive strTerminateSuccess
    · rename_i h
      rw [onStateMessage_of_rank (by rw [h]; decide)]
      exact herase.terminateWithReason hlive strTerminateSuccess
    · rename_i h
      rw [onStateMessage_of_rank (by rw [h]; decide)]
      exact herase.destroy hlive
    · rename_i h
      rw [onStateMessage_of_rank (by rw [h]; decide)]
      exact herase.destroy hlive
    · exact herase.onStateMessage

theorem Ordered.handle (hs : s.Ordered) (hlive : s.state ≠ .deinit) (ev : Event) : (s.handle env ev).Ordered := by
  cases ev with
  | initiate recipient sdesc => exact hs.initiate recipient sdesc
  | accept sdesc => exact hs.accept sdesc
  | reject reason => exact hs.reject reason
  | terminate reason => exact hs.terminateWithReason hlive reason
  | sendInfo recipient => exact hs.talks (.note s rfl)
  | sendDescriptionInfo contents => exact hs.talks (send_talks s env _ rfl)
  | incoming msg => exact hs.onIncomingMessage hlive msg
  | initiateResponse sender =>
    simp only [Session.handle]
    split
    · exact hs.talks (.trans (.note s rfl) (onInitiateAcked_talks _ env))
    · exact hs
  | failedSend type error => exact hs.talks (onFailedSend_talks s env type error)
  | setError error => exact hs.talks (.of_silent (silent_setError s error))
  | signal sig => exact hs.talks (.of_silent (silent_onSignal s sig))
  | candidatesReady name candidates =>
    exact hs.talks (onTransportProxyCandidatesReady_talks s env name candidates)
  | createChannel name component => exact hs.talks (.of_eq rfl rfl)
  | destroyChannel name component => exact hs.talks (.of_eq rfl rfl)
  | message m =>
    simp only [Session.handle]
    split
    · exact hs.onMessage hlive m
    · exact hs

theorem Ordered.step (hs : s.Ordered) (input : Surroundings × Event) : (s.step input).Ordered := by
  unfold Session.step
  split
  · exact hs
  · rename_i hlive
    exact hs.handle hlive input.2

theorem ordered_new (localName initiatorName : Name) : (new localName initiatorName).Ordered where
  lawful := lawful_nil
  rank_le _ h := by cases h
  begun h _ := absurd h (Nat.not_succ_le_zero 0)
  received h := by cases h
  ended h := by obtain ⟨e, he, -⟩ := h; cases he
  bounded := Nat.zero_le 7

theorem run_ordered (localName initiatorName : Name) (inputs : List (Surroundings × Event)) :
    (run step (new localName initiatorName) inputs).Ordered :=
  run_invariant (I := Ordered) (fun _ input hs _ => hs.step input)
    (ordered_new localName initiatorName) (guarded_true _ inputs)

/-- **In every run the states are well ordered**, but for the own state of the entry that has just
ended the session. -/
theorem states_ordered (localName initiatorName : Name) (inputs : List (Surroundings × Event)) :
    Lawful Allowed (run step (new localName initiatorName) inputs).history :=
  (run_ordered localName initiatorName inputs).lawful

/-- A session that has ended enters its own state after a reject, and `STATE_DEINIT` after a
terminate. -/
theorem states_after_the_end :
    let callee := new (text "callee") (text "caller")
    let incoming (action : IncomingAction) : Surroundings × Event :=
      ({}, .incoming ⟨text "caller", text "caller", .jingle, action⟩)
    let offer := incoming (.sessionInitiate (.ok ⟨[], [], []⟩))
    let rejected := run step callee [offer, ({}, .reject (text "busy"))]
    let destroyed := run step callee [offer, ({}, .terminate strTerminateSuccess), ({}, .message .state)]
    let refused := run step callee [offer, incoming .sessionReject]
    let terminatesOnly (record : List Entry) (e : Entry) : Prop :=
      ∀ state, e = .entered state → Ended record → state = .sentTerminate ∨ state = .receivedTerminate
    ¬ Lawful terminatesOnly rejected.history ∧ ¬ Lawful terminatesOnly destroyed.history ∧
      .entered .sentAccept ∉ refused.history ∧
      .entered .sentAccept ∈ (refused.step ({}, .accept ⟨[], [], []⟩)).history := by
  refine ⟨fun h => ?_, fun h => ?_, by decide, by decide⟩
  · have hreject := h [.received .sessionInitiate, .entered .receivedInitiate,
      .sent (text "caller") (.sessionReject (text "busy"))] (.entered .sentReject) [] (by decide)
    have := hreject .sentReject rfl ⟨.sent (text "caller") (.sessionReject (text "busy")), by simp, rfl⟩
    simp at this
  · have hdeinit := h [.received .sessionInitiate, .entered .receivedInitiate,
      .sent (text "caller") (.sessionTerminate strTerminateSuccess), .entered .sentTerminate]
      (.entered .deinit) [] (by decide)
    have := hdeinit .deinit rfl ⟨.sent (text "caller") (.sessionTerminate strTerminateSuccess), by simp, rfl⟩
    simp at this

end Session

end Libjingle.Signaling
