import Libjingle.Turn.Server
import Libjingle.Signaling.Transports

/-!
# The TURN client (`p2p/base/turnport.cc`)

`TurnPort`: a port whose packets go through a TURN server. For every remote address there is an entry, with
a permission and a channel at the server.

Where the source asserts, or uses an attribute that is not there, a fault is recorded. A `TurnEntry*` is the
channel number of the entry, which only grows, and a `Connection*` is a number. Delays are left out.
-/

namespace Libjingle

open Lib StunMessage

/-! ## Objects -/

def isStunSuccessResponseType (type : Uint16) : Bool := type &&& kStunTypeMask = 0x100

abbrev turnChannelNumberStart : ℕ := 0x4000

/-- `TurnEntry::BindState`. -/
inductive BindState where
  | unbound | binding | bound
  deriving DecidableEq, Repr

/-- `TurnEntry`. -/
structure TurnEntry where
  channelId : ℕ
  address : SocketAddress
  state : BindState
  deriving DecidableEq, Repr

/-- The four kinds of `StunRequest`. -/
inductive TurnRequestKind where
  | allocate
  | refresh
  | createPermission (entry : Option ℕ) (extAddr : SocketAddress)
  | channelBind (entry : Option ℕ) (channelId : ℕ) (extAddr : SocketAddress)
  deriving DecidableEq, Repr

def TurnRequestKind.onEntryDestroyed (entry : ℕ) : TurnRequestKind → TurnRequestKind
  | createPermission e addr => createPermission (if e = some entry then none else e) addr
  | channelBind e channelId addr => channelBind (if e = some entry then none else e) channelId addr
  | kind => kind

/-- A pending `StunRequest` with its transaction id. -/
structure TurnRequest where
  id : List Uint8
  kind : TurnRequestKind
  deriving DecidableEq, Repr

def TurnRequestKind.type : TurnRequestKind → Uint16
  | allocate => stunAllocateRequest
  | refresh => turnRefreshRequest
  | createPermission .. => turnCreatePermissionRequest
  | channelBind .. => turnChannelBindRequest

/-- A candidate of the port, as `AddAddress` gets it. -/
structure LocalCandidate where
  type : List Uint8
  address : SocketAddress
  relatedAddress : SocketAddress
  deriving DecidableEq, Repr

/-- What the port does to the outside. -/
inductive TurnOutput where
  | connectionRead (conn : ℕ) (data : List Uint8)
  | portRead (data : List Uint8) (addr : SocketAddress)
  | candidateReady (cand : LocalCandidate)
  | portComplete
  | portError
  | createPermissionResult (addr : SocketAddress) (code : ℕ)
  | sendIndication (peer : SocketAddress) (data : List Uint8)
  | channelMessage (channelId : ℕ) (data : List Uint8)
  deriving DecidableEq, Repr

/-- The output hands data to the application. -/
def TurnOutput.isDelivery : TurnOutput → Bool
  | connectionRead .. | portRead .. => true
  | _ => false

/-- The assertions of the port. -/
inductive TurnFault where
  | entryExists
  | noEntry
  | noEntryToSend
  | noErrorCode
  | noHash
  | notBinding
  | requestExists
  deriving DecidableEq, Repr

/-- The surroundings of a port: the hash functions, its own address and its credentials. -/
structure TurnSurroundings where
  hmac : List Uint8 → List Uint8 → List Uint8
  md5 : List Uint8 → List Uint8
  ip : IPAddress
  username : List Uint8
  password : List Uint8

/-- `TurnPort`, with the members of `Port` that it uses. -/
structure TurnPort where
  realm : List Uint8
  nonce : List Uint8
  hash : List Uint8
  nextChannelNumber : ℕ
  entries : List TurnEntry
  connected : Bool
  candidates : List LocalCandidate
  connections : List (SocketAddress × ℕ)
  nextConnection : ℕ
  requests : List TurnRequest
  transactionIds : ℕ → List Uint8
  log : List TurnOutput
  faults : List TurnFault

namespace TurnPort

/-- A port as its constructor leaves it. -/
def new (transactionIds : ℕ → List Uint8) : TurnPort where
  realm := []
  nonce := []
  hash := []
  nextChannelNumber := turnChannelNumberStart
  entries := []
  connected := false
  candidates := []
  connections := []
  nextConnection := 0
  requests := []
  transactionIds := transactionIds
  log := []
  faults := []

variable (w : TurnSurroundings) (s : TurnPort)

/-- Something done to the outside. -/
def emit (o : TurnOutput) : TurnPort := { s with log := s.log ++ [o] }

/-- Record a fault unless `c` holds. -/
def check (fault : TurnFault) (c : Bool) : TurnPort :=
  if c then s else { s with faults := s.faults ++ [fault] }

/-! ## Requests -/

def sendRequest (kind : TurnRequestKind) : TurnPort :=
  let id := s.transactionIds 0
  let s := s.check .requestExists (s.requests.all fun r => r.id ≠ id)
  let s := s.check .noHash (kind = .allocate || s.hash ≠ [])
  { s with
    requests := (s.requests.filter fun r => r.id ≠ id) ++ [⟨id, kind⟩]
    transactionIds := fun n => s.transactionIds (n + 1) }

def sendCreatePermissionRequest (e : TurnEntry) : TurnPort :=
  s.sendRequest (.createPermission (some e.channelId) e.address)

def sendChannelBindRequest (e : TurnEntry) : TurnPort :=
  s.sendRequest (.channelBind (some e.channelId) e.channelId e.address)

def removeRequest (id : List Uint8) : TurnPort :=
  { s with requests := s.requests.filter fun r => r.id ≠ id }

/-! ## Entries -/

/-- `TurnPort::HasPermission`. -/
def hasPermission (ip : IPAddress) : Bool := s.entries.any fun e => e.address.ip = ip

def findEntry (addr : SocketAddress) : Option TurnEntry := s.entries.find? fun e => e.address.equal addr

def findEntryByChannel (channelId : ℕ) : Option TurnEntry :=
  s.entries.find? fun e => e.channelId = channelId

def createEntry (addr : SocketAddress) : TurnPort :=
  let s := s.check .entryExists (s.findEntry addr).isNone
  let entry : TurnEntry := ⟨s.nextChannelNumber, addr, .unbound⟩
  let s := { s with nextChannelNumber := s.nextChannelNumber + 1 }.sendCreatePermissionRequest entry
  { s with entries := s.entries ++ [entry] }

def destroyEntry (addr : SocketAddress) : TurnPort :=
  match s.findEntry addr with
  | none => s.check .noEntry false
  | some e =>
    { s with
      requests := s.requests.map fun r => { r with kind := r.kind.onEntryDestroyed e.channelId }
      entries := s.entries.filter fun e' => e'.channelId ≠ e.channelId }

/-! ## Connections -/

def getConnection (remoteAddr : SocketAddress) : Option ℕ :=
  (s.connections.find? fun e => e.1.equal remoteAddr).map Prod.snd

def isCompatibleAddress (addr : SocketAddress) : Bool :=
  match w.ip, addr.ip with
  | .unspec, .unspec => true
  | .v4 _, .v4 _ => true
  | .v6 a, .v6 b => Signaling.ipIsPrivate (.v6 a) = Signaling.ipIsPrivate (.v6 b)
  | _, _ => false

def hasRelay : Bool := s.candidates.any fun cand => cand.type = P2P.relayPortType

def addConnection (remoteAddr : SocketAddress) : TurnPort :=
  { s with
    connections := (s.connections.filter fun e => !e.1.equal remoteAddr) ++ [(remoteAddr, s.nextConnection)]
    nextConnection := s.nextConnection + 1 }

/-- `TurnPort::CreateConnection` goes beyond its first tests. -/
def accepts (address : P2P.Candidate) : Bool :=
  address.protocol = P2P.protoToString .udp && isCompatibleAddress w address.address

/-- `TurnPort::CreateConnection`. -/
def createConnection (address : P2P.Candidate) : TurnPort × Option ℕ :=
  if accepts w address then
    -- the entry is created before it is known that there is a candidate
    let s := s.createEntry address.address
    if s.hasRelay then (s.addConnection address.address, some s.nextConnection) else (s, none)
  else (s, none)

/-- `TurnPort::OnConnectionDestroyed`, then that of `Port`. -/
def onConnectionDestroyed (remoteAddr : SocketAddress) : TurnPort :=
  let s := s.destroyEntry remoteAddr
  { s with connections := s.connections.filter fun e => !e.1.equal remoteAddr }

/-! ## Sending -/

def setState (e : TurnEntry) (state : BindState) : TurnPort :=
  { s with
    entries := s.entries.map fun e' =>
      if e'.channelId = e.channelId then { e' with state := state } else e' }

/-- `TurnEntry::Send`. -/
def entrySend (e : TurnEntry) (data : List Uint8) (payload : Bool) : TurnPort :=
  if e.state ≠ .bound then
    let s := if e.state = .unbound ∧ payload then
      (s.sendChannelBindRequest e).setState e .binding else s
    s.emit (.sendIndication e.address data)
  else s.emit (.channelMessage e.channelId data)

/-- `TurnPort::SendTo`. -/
def sendTo (addr : SocketAddress) (data : List Uint8) (payload : Bool) : TurnPort :=
  match s.findEntry addr with
  | none => s.check .noEntryToSend false
  | some e => if s.connected then s.entrySend e data payload else s

/-! ## Responses -/

def setRealm (realm : List Uint8) : TurnPort :=
  if realm ≠ s.realm then
    { s with
      realm := realm
      hash := w.md5 (w.username ++ text ":" ++ realm ++ text ":" ++ w.password) }
  else s

def setNonce (nonce : List Uint8) : TurnPort := { s with nonce := nonce }

/-- Realm and nonce of a response, as far as they are there. -/
def updateNonce (response : StunMessage) : TurnPort × Bool :=
  match response.getString attrRealm with
  | none => (s, false)
  | some realm =>
    let s := s.setRealm w realm
    match response.getString attrNonce with
    | none => (s, false)
    | some nonce => (s.setNonce nonce, true)

def errorCode (response : StunMessage) : Option ℕ :=
  response.getErrorCode.map fun attr =>
    match attr.value with
    | .errorCode eclass number _ => eclass.toNat * 100 + number.toNat
    | _ => 0

def onAllocateSuccess (address stunAddress : SocketAddress) : TurnPort :=
  let cand : LocalCandidate := ⟨P2P.relayPortType, address, stunAddress⟩
  ({ s with connected := true, candidates := s.candidates ++ [cand] }.emit (.candidateReady cand)).emit
    .portComplete

def scheduleRefresh (lifetime : Uint32) : TurnPort :=
  if lifetime.toInt < 2 * 60 then s else s.sendRequest .refresh

def onAllocateResponse (response : StunMessage) : TurnPort :=
  match response.getSocketAddress attrXorMappedAddress, response.getSocketAddress attrXorRelayedAddress,
    response.getValue attrLifetime with
  | some mapped, some relayed, some lifetime => (s.onAllocateSuccess relayed mapped).scheduleRefresh lifetime
  | _, _, _ => s

/-- `TurnAllocateRequest::OnAuthChallenge`. -/
def onAuthChallenge (response : StunMessage) (code : ℕ) : TurnPort :=
  if code = stunErrorUnauthorized ∧ s.hash ≠ [] then s.emit .portError
  else
    match s.updateNonce w response with
    | (s, true) => s.sendRequest .allocate
    | (s, false) => s

def onAllocateError (response : StunMessage) (code : ℕ) : TurnPort :=
  if code = stunErrorUnauthorized then s.onAuthChallenge w response code else s.emit .portError

def onRefreshResponse (response : StunMessage) : TurnPort :=
  match response.getValue attrLifetime with
  | none => s
  | some lifetime => s.scheduleRefresh lifetime

def onRefreshError (response : StunMessage) (code : ℕ) : TurnPort :=
  if code = stunErrorStaleNonce then
    match s.updateNonce w response with
    | (s, true) => s.sendRequest .refresh
    | (s, false) => s
  else s

def onCreatePermissionError (e : TurnEntry) (response : StunMessage) (code : ℕ) : TurnPort :=
  if code = stunErrorStaleNonce then
    match s.updateNonce w response with
    | (s, true) => s.sendCreatePermissionRequest e
    | (s, false) => s
  else s.emit (.createPermissionResult e.address code)

def onChannelBindSuccess (e : TurnEntry) : TurnPort :=
  let s := s.check .notBinding (e.state ≠ .unbound)
  (s.setState e .bound).sendChannelBindRequest e

def onChannelBindError (e : TurnEntry) (response : StunMessage) (code : ℕ) : TurnPort :=
  if code = stunErrorStaleNonce then
    match s.updateNonce w response with
    | (s, true) => s.sendChannelBindRequest e
    | (s, false) => s
  else s

/-- The entry that a request points to. -/
def entryOf : Option ℕ → Option TurnEntry
  | none => none
  | some entry => s.findEntryByChannel entry

def onResponse (response : StunMessage) : TurnRequestKind → TurnPort
  | .allocate => s.onAllocateResponse response
  | .refresh => s.onRefreshResponse response
  | .createPermission entry _ =>
    match s.entryOf entry with
    | none => s
    | some e => s.emit (.createPermissionResult e.address 0)
  | .channelBind entry _ _ =>
    match s.entryOf entry with
    | none => s
    | some e => s.onChannelBindSuccess e

/-- What `OnErrorResponse` of the four kinds does with the code. -/
def errorHandler (response : StunMessage) : TurnRequestKind → Option (ℕ → TurnPort)
  | .allocate => some (s.onAllocateError w response)
  | .refresh => some (s.onRefreshError w response)
  | .createPermission entry _ => (s.entryOf entry).map fun e => s.onCreatePermissionError w e response
  | .channelBind entry _ _ => (s.entryOf entry).map fun e => s.onChannelBindError w e response

def onErrorResponse (response : StunMessage) (kind : TurnRequestKind) : TurnPort :=
  match s.errorHandler w response kind, errorCode response with
  | none, _ => s
  | some _, none => s.check .noErrorCode false
  | some handle, some code => handle code

/-- A look-up among the pending requests. -/
def findRequest (id : List Uint8) : Option TurnRequest := s.requests.find? fun r => r.id = id

/-- `StunRequestManager::CheckResponse` for a message. -/
def checkMessage (msg : StunMessage) : TurnPort :=
  match s.findRequest msg.transactionId with
  | none => s
  | some request =>
    if some msg.type = getStunSuccessResponseType request.kind.type then
      (s.onResponse msg request.kind).removeRequest request.id
    else if some msg.type = getStunErrorResponseType request.kind.type then
      (s.onErrorResponse w msg request.kind).removeRequest request.id
    else s

/-- `StunRequestManager::CheckResponse`. -/
def checkResponse (data : ℕ → Uint8) (size : ℕ) : TurnPort :=
  if size < 20 then s
  else
    match s.findRequest (block data 8 kStunTransactionIdLength) with
    | none => s
    | some _ =>
      match StunMessage.read .turn (block data 0 size) with
      | none => s
      | some (msg, _) => s.checkMessage w msg

/-! ## Packets -/

def dispatchPacket (data : List Uint8) (remoteAddr : SocketAddress) : TurnOutput :=
  match s.getConnection remoteAddr with
  | some conn => .connectionRead conn data
  | none => .portRead data remoteAddr

def handleDataIndication (data : ℕ → Uint8) (size : ℕ) : TurnPort :=
  match StunMessage.read .turn (block data 0 size) with
  | none => s
  | some (msg, _) =>
    match msg.getSocketAddress attrXorPeerAddress, msg.getString attrData with
    | some extAddr, some bytes =>
      if s.hasPermission extAddr.ip then s.emit (s.dispatchPacket bytes extAddr) else s
    | _, _ => s

def handleChannelData (channelId : ℕ) (data : ℕ → Uint8) (size : ℕ) : TurnPort :=
  let len := (getBE16 data 2).toNat
  if len > size - turnChannelHeaderSize then s
  else
    match s.findEntryByChannel channelId with
    | none => s
    | some e => s.emit (s.dispatchPacket (block data turnChannelHeaderSize len) e.address)

/-- `TurnPort::OnReadPacket`. -/
def onReadPacket (data : ℕ → Uint8) (size : ℕ) : TurnPort :=
  if size < turnChannelHeaderSize then s
  else
    let msgType := getBE16 data 0
    if isTurnChannelData msgType then s.handleChannelData msgType.toNat data size
    else if msgType = turnDataIndication then s.handleDataIndication data size
    else if isStunSuccessResponseType msgType ∧ !validateMessageIntegrity w.hmac data size s.hash then s
    else s.checkResponse w data size

/-! ## Calls -/

/-- What reaches the port. -/
inductive Op where
  | prepareAddress
  | createConnection (address : P2P.Candidate)
  | destroyConnection (conn : ℕ)
  | readPacket (data : ℕ → Uint8) (size : ℕ)
  | sendTo (addr : SocketAddress) (data : List Uint8) (payload : Bool)
  | timeout (id : List Uint8)

/-- `OnTimeout` of the four kinds. -/
def onTimeout (request : TurnRequest) : TurnPort :=
  (if request.kind = .allocate then s.emit .portError else s).removeRequest request.id

def step (s : TurnPort) : Op → TurnPort
  | .prepareAddress => s.sendRequest .allocate
  | .createConnection address => (s.createConnection w address).1
  | .destroyConnection conn =>
    match s.connections.find? fun e => e.2 = conn with
    | none => s
    | some e => s.onConnectionDestroyed e.1
  | .readPacket data size => s.onReadPacket w data size
  | .sendTo addr data payload => s.sendTo addr data payload
  | .timeout id =>
    match s.findRequest id with
    | none => s
    | some request => s.onTimeout request

end TurnPort

end Libjingle
