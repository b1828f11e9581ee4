import Libjingle.Signaling.Transports

/-!
# `Session` (`p2p/base/session.{h,cc}`)

A session with its transports, the messages that it has posted to the signaling thread, and a record of
what it has sent, acted on and signalled.

* `onIncomingResponse`, `onFailedSend`: the answers to what was sent.

Listeners to the signals of a session do not call back into it. What the parsers make of a message comes
with the message; whether an action can be written, and what the transports make of a description, comes
with the event, as `Surroundings`.
-/

namespace Libjingle.Signaling

open Lib P2P

/-! ## Messages -/

/-- `BaseSession::State`. -/
inductive State where
  | init | sentInitiate | receivedInitiate | sentPrAccept | sentAccept | receivedPrAccept
  | receivedAccept | sentModify | receivedModify | sentReject | receivedReject | sentRedirect
  | sentTerminate | receivedTerminate | inProgress | deinit
  deriving DecidableEq, Repr

/-- `BaseSession::Error`. -/
inductive Error where
  | none | time | response | network | content | transport
  deriving DecidableEq, Repr

/-- `SignalingProtocol`. -/
inductive SignalingProtocol where
  | jingle | gingle | hybrid
  deriving DecidableEq, Repr

/-- `ActionType`. -/
inductive ActionType where
  | unknown | sessionInitiate | sessionInfo | sessionAccept | sessionReject | sessionTerminate
  | transportInfo | transportAccept | descriptionInfo
  deriving DecidableEq, Repr

/-- An action that is sent, with what the model keeps of it. -/
inductive Action where
  | sessionInitiate (contents : List Name)
  | sessionInfo
  | sessionAccept (contents : List Name)
  | sessionReject (reason : Name)
  | sessionTerminate (reason : Name)
  | transportInfo (contentName : Name) (candidates : List Candidate)
  | descriptionInfo (contents : List Name)
  deriving DecidableEq, Repr

def strTerminateSuccess : Name := text "success"
def strTerminateError : Name := text "general-error"

/-- The stanza errors that a session answers with. -/
inductive StanzaError where
  | badRequest | notAllowed | notAcceptable
  deriving DecidableEq, Repr

/-- `MessageError`. -/
structure MessageError where
  type : StanzaError
  text : ErrorText

/-- The contents, transports and groups of a message. -/
structure ContentMessage where
  contents : List Name
  transports : List TransportInfo
  groups : List ContentGroup

/-- An incoming action, or the error of the parser. -/
inductive IncomingAction where
  | sessionInitiate (parsed : Except Name ContentMessage)
  | sessionInfo
  | sessionAccept (parsed : Except Name ContentMessage)
  | sessionReject
  | sessionTerminate (reason : Name)
  | transportInfo (parsed : Except Name (List TransportInfo))
  | transportAccept
  | descriptionInfo (parsed : Except Name (List Name))
  | unknown

/-- `SessionMessage`, with its content as parsed. -/
structure SessionMessage where
  sender : Name
  initiator : Name
  protocol : SignalingProtocol
  action : IncomingAction

/-- Messages posted to the signaling thread: `MSG_TIMEOUT`, `MSG_ERROR`, `MSG_STATE`. -/
inductive Posted where
  | timeout | error | state
  deriving DecidableEq, Repr

/-- An entry of the record. -/
inductive Entry where
  | sent (recipient : Name) (action : Action)
  | received (type : ActionType)
  | entered (state : State)
  | acked (sender : Name)
  | gathered (contentName : Name) (candidates : List Candidate)
  deriving DecidableEq, Repr

/-- What a session asks of the writers of stanzas and of the transports. -/
structure Surroundings where
  writes : Action → Bool := fun _ => true
  refuses : Name → Bool := fun _ => false

/-! ## Sessions -/

/-- `Session`, with a record of what it does. -/
structure Session where
  state : State := .init
  error : Error := .none
  initiator : Bool
  localDescription : Option SessionDescription := none
  remoteDescription : Option SessionDescription := none
  initiateAcked : Bool := false
  initiatorName : Name
  remoteName : Name := []
  currentProtocol : SignalingProtocol := .hybrid
  transports : Transports := {}
  messages : List Posted := []
  history : List Entry := []

namespace Session

def new (localName initiatorName : Name) : Session where
  initiator := initiatorName = localName
  initiatorName := initiatorName

variable (s : Session) (env : Surroundings)

def note (e : Entry) : Session := { s with history := s.history ++ [e] }

def post (m : Posted) : Session := { s with messages := s.messages ++ [m] }

def setState (state : State) : Session :=
  if state ≠ s.state then ({ s with state := state }.note (.entered state)).post .state else s

theorem setState_of_ne {state : State} (h : state ≠ s.state) :
    (s.setState state).state = state ∧
      (s.setState state).history = s.history ++ [.entered state] := by
  simp [setState, h, post, note]

theorem setState_of_eq {state : State} (h : state = s.state) : s.setState state = s := by
  simp [setState, h]

theorem state_setState (state : State) : (s.setState state).state = state := by
  by_cases h : state = s.state
  · rw [s.setState_of_eq h, h]
  · exact (s.setState_of_ne h).1

theorem transports_setState (state : State) : (s.setState state).transports = s.transports := by
  unfold setState
  split <;> rfl

def setError (error : Error) : Session :=
  let s := if error ≠ s.error then { s with error := error } else s
  if error ≠ .none then s.post .error else s

/-- `SendMessage`, to a recipient. -/
def sendTo (recipient : Name) (action : Action) : Bool × Session :=
  if env.writes action then (true, s.note (.sent recipient action)) else (false, s)

def send (action : Action) : Bool × Session := s.sendTo env s.remoteName action

variable {s env} in
theorem send_true {action : Action} {s' : Session} (h : s.send env action = (true, s')) :
    s' = s.note (.sent s.remoteName action) := by
  unfold send sendTo at h
  split at h <;> cases h
  rfl

variable {s env} in
theorem send_false {action : Action} {s' : Session} (h : s.send env action = (false, s')) : s' = s := by
  unfold send sendTo at h
  split at h <;> cases h
  rfl

/-- `SendRejectMessage`, `SendTerminateMessage`. -/
def sendPlain (action : Action) : Session := s.note (.sent s.remoteName action)

/-! ## Transport infos -/

/-- `ResendAllTransportInfoMessages`. -/
def resendAll : List Name → Session → Bool × Session
  | [], s => (true, s)
  | name :: names, s =>
    match s.transports.proxyAt name with
    | some proxy =>
      if proxy.sentCandidates = [] then resendAll names s
      else
        match s.send env (.transportInfo name proxy.sentCandidates) with
        | (true, s) =>
          resendAll names { s with
            transports := s.transports.modifyProxy name fun proxy => { proxy with sentCandidates := [] } }
        | (false, s) => (false, s)
    | none => resendAll names s

def resendAllTransportInfoMessages : Bool × Session := resendAll env s.transports.names s

def sendUnsent : List Name → Session → Session
  | [], s => s
  | name :: names, s =>
    match s.transports.proxyAt name with
    | some proxy =>
      if proxy.unsentCandidates = [] then sendUnsent names s
      else
        match s.send env (.transportInfo name proxy.unsentCandidates) with
        | (true, s) =>
          sendUnsent names { s with
            transports := s.transports.modifyProxy name fun proxy =>
              { proxy with unsentCandidates := [] } }
        | (false, s) => s
    | none => sendUnsent names s

def sendAllUnsentTransportInfoMessages : Session := sendUnsent env s.transports.names s

def onInitiateAcked : Session :=
  if s.initiateAcked then s
  else { s with initiateAcked := true }.sendAllUnsentTransportInfoMessages env

/-- `Session::OnTransportProxyCandidatesReady`. -/
def onTransportProxyCandidatesReady (name : Name) (candidates : List Candidate) : Session :=
  match s.transports.proxyAt name with
  | none => s
  | some proxy =>
    let s := s.note (.gathered name candidates)
    if s.initiator ∧ !s.initiateAcked then
      { s with
        transports := s.transports.modifyProxy name fun proxy =>
          { proxy with unsentCandidates := proxy.unsentCandidates ++ candidates } }
    else
      let s :=
        if proxy.negotiated then s
        else
          { s with
            transports := s.transports.modifyProxy name fun proxy =>
              { proxy with sentCandidates := proxy.sentCandidates ++ candidates } }
      (s.send env (.transportInfo name candidates)).2

/-! ## Calls of the client -/

def getEmptyTransportInfos (contents : List Name) : List TransportInfo :=
  contents.map fun name => ⟨name, nsGingleP2p, []⟩

/-- `Session::Initiate`. -/
def initiate (recipient : Name) (sdesc : SessionDescription) : Bool × Session :=
  if s.state ≠ .init then (false, s)
  else
    let s := { s with remoteName := recipient, localDescription := some sdesc }
    let (created, transports) := s.transports.createProxies (getEmptyTransportInfos sdesc.contents)
    let s := { s with transports := transports }
    if !created then (false, s)
    else
      match s.send env (.sessionInitiate sdesc.contents) with
      | (false, s) => (false, s)
      | (true, s) =>
        let transports := s.transports.connectAll
        let transports :=
          Transports.pushdownLocal env.refuses sdesc .offer transports.names transports
        (true, { s with transports := transports }.setState .sentInitiate)

def maybeEnableMuxingSupport : Session :=
  match s.localDescription, s.remoteDescription with
  | some localDescription, some remoteDescription =>
    { s with transports := s.transports.enableMuxing localDescription remoteDescription }
  | _, _ => s

/-- `Session::Accept`. -/
def accept (sdesc : SessionDescription) : Bool × Session :=
  if s.state ≠ .receivedInitiate then (false, s)
  else
    let s := { s with localDescription := some sdesc }
    match s.send env (.sessionAccept sdesc.contents) with
    | (false, s) => (false, s)
    | (true, s) =>
      let transports :=
        Transports.pushdownLocal env.refuses sdesc .answer s.transports.names s.transports
      (true, ({ s with transports := transports }.maybeEnableMuxingSupport).setState .sentAccept)

/-- `Session::Reject`. -/
def reject (reason : Name) : Bool × Session :=
  if s.state ≠ .receivedInitiate ∧ s.state ≠ .receivedModify then (false, s)
  else (true, (s.sendPlain (.sessionReject reason)).setState .sentReject)

/-- `Session::TerminateWithReason`. -/
def terminateWithReason (reason : Name) : Bool × Session :=
  match s.state with
  | .sentTerminate | .receivedTerminate => (false, s)
  | .sentReject | .receivedReject => (true, s.setState .sentTerminate)
  | _ => (true, (s.sendPlain (.sessionTerminate reason)).setState .sentTerminate)

def terminate : Bool × Session := s.terminateWithReason strTerminateSuccess

/-! ## Incoming messages -/

def checkState (expected : State) : Option MessageError :=
  if s.state ≠ expected then
    some ⟨.notAllowed, .plain (text "message not allowed in current state")⟩
  else none

variable {s} in
theorem checkState_eq_none {expected : State} : s.checkState expected = none ↔ s.state = expected := by
  simp [checkState]

def parseError (text : Name) : MessageError := ⟨.badRequest, .plain text⟩

def onRemoteCandidates (tinfos : List TransportInfo) : Option MessageError × Session :=
  let (error, transports) := s.transports.onRemoteCandidates tinfos
  (error.map fun text => ⟨.badRequest, text⟩, { s with transports := transports })

def installRemote (init : ContentMessage) (action : ContentAction) : Session :=
  let sdesc : SessionDescription := ⟨init.contents, init.transports, init.groups⟩
  { s with
    remoteDescription := some sdesc
    transports := Transports.pushdownRemote env.refuses sdesc action s.transports.names s.transports }

def onInitiateMessage (msg : SessionMessage) (parsed : Except Name ContentMessage) :
    Option MessageError × Session :=
  match s.checkState .init with
  | some error => (some error, s)
  | none =>
    match parsed with
    | .error text => (some (parseError text), s)
    | .ok init =>
      let (created, transports) := s.transports.createProxies init.transports
      let s := { s with transports := transports }
      if !created then
        (some ⟨.notAcceptable, .plain (text "No supported transport in offer.")⟩, s)
      else
        let s := { s with remoteName := msg.sender, initiatorName := msg.initiator }
        let s := s.installRemote env init .offer
        let s := (s.note (.received .sessionInitiate)).setState .receivedInitiate
        s.onRemoteCandidates init.transports

def onAcceptMessage (parsed : Except Name ContentMessage) : Option MessageError × Session :=
  match s.checkState .sentInitiate with
  | some error => (some error, s)
  | none =>
    match parsed with
    | .error text => (some (parseError text), s)
    | .ok accept =>
      let s := s.onInitiateAcked env
      let s := (s.installRemote env accept .answer).maybeEnableMuxingSupport
      let s := (s.note (.received .sessionAccept)).setState .receivedAccept
      s.onRemoteCandidates accept.transports

def onRejectMessage : Option MessageError × Session :=
  match s.checkState .sentInitiate with
  | some error => (some error, s)
  | none => (none, (s.note (.received .sessionReject)).setState .receivedReject)

def onTerminateMessage : Option MessageError × Session :=
  (none, (s.note (.received .sessionTerminate)).setState .receivedTerminate)

def onTransportInfoMessage (parsed : Except Name (List TransportInfo)) : Option MessageError × Session :=
  match parsed with
  | .error text => (some (parseError text), s)
  | .ok tinfos => s.onRemoteCandidates tinfos

def onDescriptionInfoMessage (parsed : Except Name (List Name)) : Option MessageError × Session :=
  match s.checkState .inProgress with
  | some error => (some error, s)
  | none =>
    match parsed with
    | .error text => (some (parseError text), s)
    | .ok _ => (none, s)

def settleProtocol (protocol : SignalingProtocol) : Session :=
  if s.currentProtocol = .hybrid then
    { s with currentProtocol := if protocol = .gingle then .gingle else .jingle }
  else s

/-- `Session::OnIncomingMessage`. -/
def onIncomingMessage (msg : SessionMessage) : Option MessageError × Session :=
  let s := s.settleProtocol msg.protocol
  match msg.action with
  | .sessionInitiate parsed => s.onInitiateMessage env msg parsed
  | .sessionInfo => (none, s)
  | .sessionAccept parsed => s.onAcceptMessage env parsed
  | .sessionReject => s.onRejectMessage
  | .sessionTerminate _ => s.onTerminateMessage
  | .transportInfo parsed => s.onTransportInfoMessage parsed
  | .transportAccept => (none, s)
  | .descriptionInfo parsed => s.onDescriptionInfoMessage parsed
  | .unknown => (some ⟨.badRequest, .plain (text "unknown session message type")⟩, s)

/-! ## Answers to what was sent -/

def onInitiateResponse (sender : Name) : Session := (s.note (.acked sender)).onInitiateAcked env

def onRedirectError (target : Name) : Bool × Session :=
  if s.state ≠ .sentInitiate then (false, s)
  else if !bareJidsEqual s.remoteName target then (false, s)
  else
    let s := { s with remoteName := target }
    match s.localDescription with
    | none => (false, s)
    | some sdesc =>
      match s.send env (.sessionInitiate sdesc.contents) with
      | (false, s) => (false, s)
      | (true, s) => s.resendAllTransportInfoMessages env

/-- What comes back for a message that could not be delivered. -/
inductive SendError where
  | redirect (target : Name)
  | error (type : Name)
  | noError
  deriving DecidableEq, Repr

/-- `Session::OnFailedSend`. -/
def onFailedSend (type : Option ActionType) (sendError : SendError) : Session :=
  match type with
  | none => s
  | some type =>
    match sendError with
    | .redirect target =>
      match s.onRedirectError env target with
      | (true, s) => s
      | (false, s) => s.setError .response
    | .noError => s
    | .error errorType =>
      if type = .transportInfo then s
      else if errorType ≠ text "continue" ∧ errorType ≠ text "wait" then s.setError .response
      else s

/-! ## Signals of transports -/

/-- `Session::OnTransportWritable`. -/
def onTransportWritable (t : ℕ) : Session :=
  let s := { s with messages := s.messages.filter fun m => m ≠ .timeout }
  let transport := s.transports.transportAt t
  if transport.hasChannels && !transport.writable then s.post .timeout else s

/-- What a transport signals. -/
inductive Signal where
  | connecting (t : ℕ)
  | writableState (t : ℕ) (state : TransportState)
  deriving DecidableEq, Repr

def onConnecting (t : ℕ) : Session :=
  { s with
    transports := s.transports.modifyTransport t fun transport =>
      { transport with signalledConnecting := true } }.onTransportWritable t

def onChannelWritableState (t : ℕ) (state : TransportState) : Session :=
  if (s.transports.transportAt t).writableState ≠ state then
    { s with
      transports := s.transports.modifyTransport t fun transport =>
        { transport with writableState := state } }.onTransportWritable t
  else s

def onSignal : Signal → Session
  | .connecting t => s.onConnecting t
  | .writableState t state => s.onChannelWritableState t state

/-! ## Posted messages -/

def destroy : Session := { s with state := .deinit, messages := [] }.note (.entered .deinit)

def onStateMessage : Session :=
  match s.state with
  | .sentAccept | .receivedAccept => s.setState .inProgress
  | _ => s

/-- `Session::OnMessage`. -/
def onMessage (m : Posted) : Session :=
  let s := { s with messages := s.messages.erase m }
  match m with
  | .timeout => s.setError .time
  | .error => (s.terminateWithReason strTerminateError).2
  | .state =>
    let origState := s.state
    let s := s.onStateMessage
    match origState with
    | .sentReject | .receivedReject => s.terminate.2
    | .sentTerminate | .receivedTerminate => s.destroy
    | _ => s

/-! ## Events -/

/-- What can happen to a session. -/
inductive Event where
  | initiate (recipient : Name) (sdesc : SessionDescription)
  | accept (sdesc : SessionDescription)
  | reject (reason : Name)
  | terminate (reason : Name)
  | sendInfo (recipient : Name)
  | sendDescriptionInfo (contents : List Name)
  | incoming (msg : SessionMessage)
  | initiateResponse (sender : Name)
  | failedSend (type : Option ActionType) (error : SendError)
  | setError (error : Error)
  | signal (sig : Signal)
  | candidatesReady (name : Name) (candidates : List Candidate)
  | createChannel (name : Name) (component : ℕ)
  | destroyChannel (name : Name) (component : ℕ)
  | message (m : Posted)

def initiatedTo (name : Name) : Bool :=
  s.history.any fun e =>
    match e with
    | .sent recipient (.sessionInitiate _) => recipient == name
    | _ => false

def handle : Event → Session
  | .initiate recipient sdesc => (s.initiate env recipient sdesc).2
  | .accept sdesc => (s.accept env sdesc).2
  | .reject reason => (s.reject reason).2
  | .terminate reason => (s.terminateWithReason reason).2
  | .sendInfo recipient => s.note (.sent recipient .sessionInfo)
  | .sendDescriptionInfo contents => (s.send env (.descriptionInfo contents)).2
  | .incoming msg => (s.onIncomingMessage env msg).2
  | .initiateResponse sender => if s.initiatedTo sender then s.onInitiateResponse env sender else s
  | .failedSend type error => s.onFailedSend env type error
  | .setError error => s.setError error
  | .signal sig => s.onSignal sig
  | .candidatesReady name candidates => s.onTransportProxyCandidatesReady env name candidates
  | .createChannel name component =>
    { s with transports := (s.transports.getOrCreateProxy name).createChannel name component }
  | .destroyChannel name component =>
    { s with transports := s.transports.destroyChannel name component }
  | .message m => if m ∈ s.messages then s.onMessage m else s

def step (input : Surroundings × Event) : Session :=
  if s.state = .deinit then s else s.handle input.1 input.2

end Session

end Libjingle.Signaling
