import Libjingle.Lib.Run
import Libjingle.Stun.Message

/-!
# ICE roles (`p2p/base/port.cc`, `p2p/base/transport.cc`, `p2p/base/session.cc`)

A message arrives as the `StunMessage` that was sent: the fingerprint and the message integrity, which
`GetStunMessage` and `OnReadPacket` check on its bytes, are not part of it. What was sent may arrive at
any time later, more than once, or never, and so may a signal.
-/

namespace Libjingle

open Lib StunMessage

/-! ## Constants -/

/-- The types and error codes of binding responses. -/
abbrev stunBindingResponse : Uint16 := 0x0101#16
abbrev stunBindingErrorResponse : Uint16 := 0x0111#16

abbrev stunErrorStaleCredentials : ℕ := 430
abbrev stunErrorRoleConflict : ℕ := 487
abbrev stunErrorGlobalFailure : ℕ := 600
def stunErrorReasonStaleCredentials : List Uint8 := text "Stale Credentials"
def stunErrorReasonRoleConflict : List Uint8 := text "Role Conflict"

/-! ## Ports -/

/-- `IceRole`. -/
inductive IceRole where
  | controlling | controlled | unknown
  deriving DecidableEq, Repr

/-- The members of `Port` that the checks of roles use. -/
structure IcePort where
  iceRole : IceRole
  tiebreaker : Uint64
  usernameFragment : List Uint8
  deriving DecidableEq, Repr

/-- What a port or a connection does: it sends a message, or it signals a role conflict. -/
inductive IceAction where
  | send (msg : StunMessage)
  | roleConflict
  deriving DecidableEq, Repr

/-- The value of an attribute of 64 bits. -/
def StunMessage.getValue64 (msg : StunMessage) (type : Uint16) : Option Uint64 :=
  (msg.getUInt64 type).map fun attr =>
    match attr.value with
    | .uint64 bits => bits
    | _ => 0

def StunMessage.errorCode (msg : StunMessage) : Option ℕ :=
  msg.getErrorCode.map fun attr =>
    match attr.value with
    | .errorCode eclass number _ => eclass.toNat * 100 + number.toNat
    | _ => 0

def bindingErrorResponse (request : StunMessage) (errorCode : ℕ) (reason : List Uint8) : StunMessage :=
  let response := (StunMessage.new .stun).setType stunBindingErrorResponse
  let response := (response.setTransactionID request.transactionId).1
  (response.addAttribute (stunErrorCodeAttribute errorCode reason)).1

/-- `Port::SendBindingResponse`, up to `AddMessageIntegrity`. -/
def bindingResponse (request : StunMessage) (addr : SocketAddress) : StunMessage :=
  let response := (StunMessage.new .stun).setType stunBindingResponse
  let response := (response.setTransactionID request.transactionId).1
  let response :=
    match request.getValue attrRetransmitCount with
    | some count => (response.addAttribute ⟨attrRetransmitCount, .uint32 count⟩).1
    | none => response
  (response.addAttribute ⟨attrXorMappedAddress, .xorAddress addr⟩).1

abbrev colon : Uint8 := 0x3a

def parseStunUsername (username : List Uint8) : Option (List Uint8 × List Uint8) :=
  if username.contains colon then
    some (username.takeWhile fun ch => ch ≠ colon, (username.dropWhile fun ch => ch ≠ colon).drop 1)
  else none

namespace IcePort

variable (port : IcePort)

def createStunUsername (remoteUsername : List Uint8) : List Uint8 :=
  remoteUsername ++ [colon] ++ port.usernameFragment

def getStunMessage (msg : StunMessage) : Except IceAction (List Uint8) :=
  match msg.getString attrUsername with
  | none => .error (.send (bindingErrorResponse msg stunErrorBadRequest stunErrorReasonBadRequest))
  | some username =>
    match parseStunUsername username with
    | none => .error (.send (bindingErrorResponse msg stunErrorUnauthorized stunErrorReasonUnauthorized))
    | some (localUfrag, remoteUfrag) =>
      if localUfrag ≠ port.usernameFragment then
        .error (.send (bindingErrorResponse msg stunErrorUnauthorized stunErrorReasonUnauthorized))
      else .ok remoteUfrag

/-- The answer to the side that has to switch. -/
def roleConflictResponse (msg : StunMessage) : IceAction :=
  .send (bindingErrorResponse msg stunErrorRoleConflict stunErrorReasonRoleConflict)

/-- `MaybeIceRoleConflict`: whether the request is handled further, and what is sent. -/
def maybeIceRoleConflict (stunMsg : StunMessage) (remoteUfrag : List Uint8) : Bool × List IceAction :=
  let controlling := stunMsg.getValue64 attrIceControlling
  -- a call to oneself
  if controlling = some port.tiebreaker ∧ port.usernameFragment = remoteUfrag then (true, [])
  else
    let (remoteIceRole, remoteTiebreaker) : IceRole × Uint64 :=
      match stunMsg.getValue64 attrIceControlled, controlling with
      | some value, _ => (.controlled, value)
      | none, some value => (.controlling, value)
      | none, none => (.unknown, 0)
    match port.iceRole with
    | .controlling =>
      if remoteIceRole = .controlling then
        if remoteTiebreaker ≥ port.tiebreaker then (true, [.roleConflict])
        else (false, [roleConflictResponse stunMsg])
      else (true, [])
    | .controlled =>
      if remoteIceRole = .controlled then
        if remoteTiebreaker < port.tiebreaker then (true, [.roleConflict])
        else (false, [roleConflictResponse stunMsg])
      else (true, [])
    | .unknown => (true, [])

end IcePort

/-! ## Endpoints -/

/-- What a session starts from; the fragments are those of its port and of the remote candidate. -/
structure IceConfig where
  initiator : Bool
  tiebreaker : Uint64
  usernameFragment : List Uint8
  remoteUsername : List Uint8
  remoteAddress : SocketAddress
  deriving DecidableEq, Repr

/-- A `BaseSession` with a `Transport`, a `P2PTransportChannel` and a `Port`, and the requests of
its connections. -/
structure IceEndpoint where
  initiator : Bool
  roleSwitch : Bool
  transportRole : IceRole
  channelRole : IceRole
  port : IcePort
  remoteUsername : List Uint8
  remoteAddress : SocketAddress
  requests : List (List Uint8)
  conflictSignals : ℕ
  deriving DecidableEq, Repr

/-- The role that a transport is given first. -/
def initialRole (initiator : Bool) : IceRole := if initiator then .controlling else .controlled

/-- The endpoint as it is set up. -/
def IceConfig.endpoint (config : IceConfig) : IceEndpoint where
  initiator := config.initiator
  roleSwitch := false
  transportRole := initialRole config.initiator
  channelRole := initialRole config.initiator
  port := ⟨initialRole config.initiator, config.tiebreaker, config.usernameFragment⟩
  remoteUsername := config.remoteUsername
  remoteAddress := config.remoteAddress
  requests := []
  conflictSignals := 0

namespace IceEndpoint

variable (e : IceEndpoint)

def setChannelRole (role : IceRole) : IceEndpoint :=
  if e.channelRole ≠ role then
    { e with channelRole := role, port := { e.port with iceRole := role } }
  else e

def setIceRole (role : IceRole) : IceEndpoint := ({ e with transportRole := role }).setChannelRole role

def onRoleConflict : IceEndpoint :=
  if e.roleSwitch then e
  else
    let role := if e.initiator then .controlled else .controlling
    ({ e with roleSwitch := true }).setIceRole role

/-- The first attributes of `ConnectionRequest::Prepare`. -/
def prepareUsername (transactionId : List Uint8) (retransmitCount : Option Uint32) : StunMessage :=
  let request := (StunMessage.new .ice).setType stunBindingRequest
  let request := (request.setTransactionID transactionId).1
  let username := e.port.createStunUsername e.remoteUsername
  let request := (request.addAttribute ⟨attrUsername, .byteString username⟩).1
  match retransmitCount with
  | some count => (request.addAttribute ⟨attrRetransmitCount, .uint32 count⟩).1
  | none => request

def addRole (request : StunMessage) (useCandidate : Bool) : StunMessage :=
  match e.port.iceRole with
  | .controlling =>
    let request := (request.addAttribute ⟨attrIceControlling, .uint64 e.port.tiebreaker⟩).1
    if useCandidate then (request.addAttribute ⟨attrUseCandidate, .byteString []⟩).1 else request
  | .controlled => (request.addAttribute ⟨attrIceControlled, .uint64 e.port.tiebreaker⟩).1
  | .unknown => request

/-- `ConnectionRequest::Prepare`, up to `AddMessageIntegrity`. -/
def prepare (transactionId : List Uint8) (retransmitCount : Option Uint32) (useCandidate : Bool)
    (priority : Uint32) : StunMessage :=
  let request := e.addRole (e.prepareUsername transactionId retransmitCount) useCandidate
  (request.addAttribute ⟨attrPriority, .uint32 priority⟩).1

def onConnectionRequestErrorResponse (response : StunMessage) : List IceAction :=
  let errorCode := response.errorCode.getD stunErrorGlobalFailure
  if errorCode = stunErrorRoleConflict then [.roleConflict] else []

/-- `CheckResponse` for a binding request: the first answer ends it. -/
def checkResponse (msg : StunMessage) : IceEndpoint × List IceAction :=
  if e.requests.contains msg.transactionId then
    let answered := { e with requests := e.requests.erase msg.transactionId }
    if some msg.type = getStunSuccessResponseType stunBindingRequest then (answered, [])
    else if some msg.type = getStunErrorResponseType stunBindingRequest then
      (answered, onConnectionRequestErrorResponse msg)
    else (e, [])
  else (e, [])

/-- `OnReadPacket` on a binding request. -/
def onBindingRequest (msg : StunMessage) : List IceAction :=
  match e.port.getStunMessage msg with
  | .error action => [action]
  | .ok remoteUfrag =>
    if remoteUfrag = e.remoteUsername then
      let (ret, actions) := e.port.maybeIceRoleConflict msg remoteUfrag
      if ret then actions ++ [.send (bindingResponse msg e.remoteAddress)] else actions
    else [.send (bindingErrorResponse msg stunErrorUnauthorized stunErrorReasonUnauthorized)]

/-- `Connection::OnReadPacket`; errors without a code are dropped. -/
def onReadPacket (msg : StunMessage) : IceEndpoint × List IceAction :=
  if msg.type = stunBindingRequest then (e, e.onBindingRequest msg)
  else if msg.type = stunBindingResponse then e.checkResponse msg
  else if msg.type = stunBindingErrorResponse ∧ msg.errorCode.isSome then e.checkResponse msg
  else (e, [])

def onUnknownAddress (address : SocketAddress) (stunMsg : StunMessage) (remoteUsername : List Uint8) :
    IceAction :=
  if remoteUsername ≠ e.remoteUsername then
    .send (bindingErrorResponse stunMsg stunErrorStaleCredentials stunErrorReasonStaleCredentials)
  else if (stunMsg.getUInt32 attrPriority).isNone then
    .send (bindingErrorResponse stunMsg stunErrorBadRequest stunErrorReasonBadRequest)
  else .send (bindingResponse stunMsg address)

/-- `Port::OnReadPacket` without a connection. -/
def onUnknownPacket (addr : SocketAddress) (msg : StunMessage) : List IceAction :=
  if msg.type = stunBindingRequest then
    match e.port.getStunMessage msg with
    | .error action => [action]
    | .ok remoteUsername =>
      let (ret, actions) := e.port.maybeIceRoleConflict msg remoteUsername
      if ret then actions ++ [e.onUnknownAddress addr msg remoteUsername] else actions
  else []

/-- The signals among the actions are posted. -/
def post (actions : List IceAction) : IceEndpoint :=
  { e with conflictSignals := e.conflictSignals + actions.count .roleConflict }

def role : IceRole := e.port.iceRole

end IceEndpoint

/-! ## Two endpoints -/

/-- The two agents. -/
inductive Side where
  | left | right
  deriving DecidableEq, Repr

/-- The agent at the other end. -/
def Side.other : Side → Side
  | left => right
  | right => left

/-- The endpoints, and the messages that each has sent so far. -/
structure IceNetwork where
  endpoint : Side → IceEndpoint
  sent : Side → List StunMessage

def IceAction.messages (actions : List IceAction) : List StunMessage :=
  actions.filterMap fun action =>
    match action with
    | send msg => some msg
    | roleConflict => none

namespace IceNetwork

/-- What happens in the network. -/
inductive Event where
  | ping (side : Side) (transactionId : List Uint8) (retransmitCount : Option Uint32)
      (useCandidate : Bool) (priority : Uint32)
  | deliver (side : Side) (n : ℕ)
  | unknown (side : Side) (n : ℕ) (addr : SocketAddress)
  | conflict (side : Side)
  | timeout (side : Side) (transactionId : List Uint8)
  deriving DecidableEq, Repr

variable (net : IceNetwork)

/-- An endpoint has changed, and has sent messages. -/
def update (side : Side) (e : IceEndpoint) (msgs : List StunMessage) : IceNetwork where
  endpoint := Function.update net.endpoint side e
  sent := Function.update net.sent side (net.sent side ++ msgs)

/-- What the endpoints do, if there is such a message or signal. -/
def step : Event → IceNetwork
  | .ping side transactionId retransmitCount useCandidate priority =>
    let e := net.endpoint side
    let request := e.prepare transactionId retransmitCount useCandidate priority
    net.update side { e with requests := e.requests ++ [request.transactionId] } [request]
  | .deliver side n =>
    match (net.sent side.other)[n]? with
    | none => net
    | some msg =>
      let (e, actions) := (net.endpoint side).onReadPacket msg
      net.update side (e.post actions) (IceAction.messages actions)
  | .unknown side n addr =>
    match (net.sent side.other)[n]? with
    | none => net
    | some msg =>
      let actions := (net.endpoint side).onUnknownPacket addr msg
      net.update side ((net.endpoint side).post actions) (IceAction.messages actions)
  | .conflict side =>
    if (net.endpoint side).conflictSignals > 0 then net.update side (net.endpoint side).onRoleConflict []
    else net
  | .timeout side transactionId =>
    let e := net.endpoint side
    net.update side { e with requests := e.requests.erase transactionId } []

def role (side : Side) : IceRole := (net.endpoint side).role

end IceNetwork

/-- The network before any message was sent. -/
def IceConfig.network (config : Side → IceConfig) : IceNetwork where
  endpoint side := (config side).endpoint
  sent _ := []

/-- How often the role of a side changes in a run. -/
def switches (side : Side) : IceNetwork → List IceNetwork.Event → ℕ
  | _, [] => 0
  | net, ev :: evs =>
    (if (net.step ev).role side ≠ net.role side then 1 else 0) + switches side (net.step ev) evs

end Libjingle
