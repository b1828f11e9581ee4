import Libjingle.Stun.Message
import Libjingle.Turn.Connection

/-!
# The TURN server (`p2p/base/turnserver.cc`)

`Allocation*` is the number of an object. A step is `none` where the code dereferences a pointer to an
object that is not there. A posted message is the time at which it is due. What a step sends is a list
of `Sent`; HMAC-SHA1, HMAC-MD5 (in hex), the authentication hook and the outcome of creating an
external socket are parameters.
-/

namespace Libjingle

open Lib StunMessage

/-! ## Constants -/

abbrev kNonceTimeout : ℕ := 60 * 60 * 1000
abbrev kDefaultAllocationTimeout : ℕ := 10 * 60 * 1000
abbrev kPermissionTimeout : ℕ := 5 * 60 * 1000
abbrev kChannelTimeout : ℕ := 10 * 60 * 1000
abbrev kMinChannelNumber : ℕ := 0x4000
abbrev kMaxChannelNumber : ℕ := 0x7FFF
abbrev kNonceSize : ℕ := 40
abbrev turnChannelHeaderSize : ℕ := 4
abbrev ipprotoUdp : ℕ := 17

@[match_pattern] abbrev turnRefreshRequest : Uint16 := 0x0004#16
@[match_pattern] abbrev turnSendIndication : Uint16 := 0x0016#16
abbrev turnDataIndication : Uint16 := 0x0017#16
@[match_pattern] abbrev turnCreatePermissionRequest : Uint16 := 0x0008#16
@[match_pattern] abbrev turnChannelBindRequest : Uint16 := 0x0009#16

abbrev stunErrorAllocationMismatch : ℕ := 437
abbrev stunErrorWrongCredentials : ℕ := 441
abbrev stunErrorUnsupportedProtocol : ℕ := 442
def stunErrorReasonAllocationMismatch : List Uint8 := text "Allocation Mismatch"
def stunErrorReasonWrongCredentials : List Uint8 := text "Wrong Credentials"
def stunErrorReasonUnsupportedProtocol : List Uint8 := text "Unsupported Protocol"

/-- `IsTurnChannelData`. -/
def isTurnChannelData (msgType : Uint16) : Bool := msgType &&& 0xC000 = 0x4000

/-! ## Objects -/

abbrev AllocationId := ℕ

/-- `TurnServer::Permission`, with the time its posted message is due. -/
structure Permission where
  peer : IPAddress
  timer : ℕ
  deriving DecidableEq, Repr

/-- `TurnServer::Channel`, with the time its posted message is due. -/
structure Channel where
  id : ℕ
  peer : SocketAddress
  timer : ℕ
  deriving DecidableEq, Repr

/-- `TurnServer::Allocation`, with the times its posted messages are due. -/
structure Allocation where
  conn : Connection
  externalAddr : SocketAddress
  key : List Uint8
  transactionId : List Uint8 := []
  username : List Uint8 := []
  lastNonce : List Uint8 := []
  perms : List Permission := []
  channels : List Channel := []
  timers : List ℕ := []
  deriving DecidableEq, Repr

/-- A datagram that the server sends. -/
inductive Sent where
  | stun (conn : Connection) (msg : StunMessage)
  | dataIndication (alloc : AllocationId) (peer : SocketAddress) (conn : Connection) (msg : StunMessage)
  | channelMessage (alloc : AllocationId) (peer : SocketAddress) (conn : Connection) (buf : List Uint8)
  | external (alloc : AllocationId) (peer : SocketAddress) (data : List Uint8)
  deriving DecidableEq, Repr

/-- What a server is configured with, and the functions it calls. -/
structure TurnConfig where
  realm : List Uint8
  software : List Uint8
  nonceKey : List Uint8
  enableOtuNonce : Bool
  authHook : Option (List Uint8 → List Uint8 → List Uint8)
  hmacSha1 : List Uint8 → List Uint8 → List Uint8
  hmacMd5 : List Uint8 → List Uint8 → List Uint8

/-! ## Responses -/

/-- `InitResponse`. -/
def initResponse (req resp : StunMessage) : StunMessage :=
  match getStunSuccessResponseType req.type with
  | none => resp
  | some respType => ((resp.setType respType).setTransactionID req.transactionId).1

/-- `InitErrorResponse`. -/
def initErrorResponse (req : StunMessage) (code : ℕ) (reason : List Uint8) (resp : StunMessage) :
    StunMessage :=
  match getStunErrorResponseType req.type with
  | none => resp
  | some respType =>
    ((((resp.setType respType).setTransactionID req.transactionId).1).addAttribute
      (stunErrorCodeAttribute code reason)).1

namespace TurnConfig

variable (cfg : TurnConfig)

/-- `TurnServer::SendStun`, up to `Write`. -/
def withSoftware (msg : StunMessage) : StunMessage :=
  if cfg.software ≠ [] then (msg.addAttribute ⟨attrSoftware, .byteString cfg.software⟩).1 else msg

/-- `TurnServer::SendErrorResponse`. -/
def sendErrorResponse (conn : Connection) (req : StunMessage) (code : ℕ) (reason : List Uint8) : Sent :=
  .stun conn (cfg.withSoftware (initErrorResponse req code reason (.new .turn)))

/-! ## Nonces -/

/-- `hex_encode`, of half a byte. -/
def hexDigit (val : ℕ) : Uint8 := BitVec.ofNat 8 (if val < 10 then 0x30 + val else 0x61 + (val - 10))

/-- `hex_encode`. -/
def hexEncode (source : List Uint8) : List Uint8 :=
  source.flatMap fun b => [hexDigit (b.toNat / 16), hexDigit (b.toNat % 16)]

/-- `hex_decode` of a digit. -/
def hexValue (ch : Uint8) : Option ℕ :=
  let c := ch.toNat
  if 0x30 ≤ c ∧ c ≤ 0x39 then some (c - 0x30)
  else if 0x41 ≤ c ∧ c ≤ 0x5a then some (c - 0x41 + 10)
  else if 0x61 ≤ c ∧ c ≤ 0x7a then some (c - 0x61 + 10)
  else none

/-- `hex_decode`. -/
def hexDecode : List Uint8 → Option (List Uint8)
  | [] => some []
  | [_] => none
  | a :: b :: source => do
    let h₁ ← hexValue a
    let h₂ ← hexValue b
    let rest ← hexDecode source
    some (BitVec.ofNat 8 (h₁ * 16 ||| h₂) :: rest)

def memoryBytes (v : Uint32) : List Uint8 := (wordBytes 4 v).reverse

/-- `TurnServer::GenerateNonce`. -/
def generateNonce (now : ℕ) : List Uint8 :=
  let input := memoryBytes (BitVec.ofNat 32 now)
  hexEncode input ++ cfg.hmacMd5 cfg.nonceKey input

/-- `TurnServer::ValidateNonce`. -/
def validateNonce (now : ℕ) (nonce : List Uint8) : Bool :=
  if nonce.length ≠ kNonceSize then false
  else
    -- on eight characters, `hex_decode` fills the four bytes or returns 0
    match hexDecode (nonce.take 8) with
    | none => false
    | some p =>
      if nonce.drop 8 ≠ cfg.hmacMd5 cfg.nonceKey p then false
      else
        let timeThen : Uint32 := BitVec.ofNat 32 (beValue p.reverse)
        (BitVec.ofNat 32 now - timeThen).toInt < kNonceTimeout

def sendErrorResponseWithRealmAndNonce (now : ℕ) (conn : Connection) (msg : StunMessage) (code : ℕ)
    (reason : List Uint8) : Sent :=
  let resp := initErrorResponse msg code reason (.new .turn)
  let resp := (resp.addAttribute ⟨attrNonce, .byteString (cfg.generateNonce now)⟩).1
  let resp := (resp.addAttribute ⟨attrRealm, .byteString cfg.realm⟩).1
  .stun conn (cfg.withSoftware resp)

end TurnConfig

/-! ## Allocations -/

/-- The first element with a property, changed. -/
def updateFirst {α : Type} (p : α → Bool) (f : α → α) : List α → List α
  | [] => []
  | x :: xs => if p x then f x :: xs else x :: updateFirst p f xs

namespace Allocation

variable (cfg : TurnConfig) (now : ℕ) (self : AllocationId) (a : Allocation)

def findPermission (addr : IPAddress) : Option Permission := a.perms.find? fun perm => perm.peer = addr

def hasPermission (addr : IPAddress) : Bool := (a.findPermission addr).isSome

def refreshPermission (perm : Permission) : Permission := { perm with timer := now + kPermissionTimeout }

def addPermission (addr : IPAddress) : Allocation :=
  if a.hasPermission addr then
    { a with perms := updateFirst (fun perm => perm.peer = addr) (refreshPermission now) a.perms }
  else { a with perms := a.perms ++ [refreshPermission now ⟨addr, 0⟩] }

/-- `Allocation::FindChannel` by number. -/
def findChannel (id : ℕ) : Option Channel := a.channels.find? fun channel => channel.id = id

def findChannelByPeer (addr : SocketAddress) : Option Channel :=
  a.channels.find? fun channel => channel.peer.equal addr

/-- `Channel::Refresh`. -/
def refreshChannel (channel : Channel) : Channel := { channel with timer := now + kChannelTimeout }

def computeLifetime (msg : StunMessage) : ℕ :=
  let lifetime := kDefaultAllocationTimeout / 1000
  match msg.getValue attrLifetime with
  | none => lifetime
  | some value => if value.toNat < lifetime then value.toNat else lifetime

def sendResponse (msg : StunMessage) : Sent :=
  .stun a.conn (cfg.withSoftware (msg.addMessageIntegrity cfg.hmacSha1 a.key))

def sendBadRequestResponse (req : StunMessage) : Sent :=
  cfg.sendErrorResponse a.conn req stunErrorBadRequest stunErrorReasonBadRequest

def handleAllocateRequest (msg : StunMessage) : Option (Allocation × List Sent) := do
  let username ← msg.getString attrUsername
  let lifetimeSecs := computeLifetime msg
  let a := { a with
    transactionId := msg.transactionId
    username := username
    timers := a.timers ++ [now + lifetimeSecs * 1000] }
  let response := initResponse msg (.new .turn)
  let response := (response.addAttribute ⟨attrXorMappedAddress, .xorAddress a.conn.src⟩).1
  let response := (response.addAttribute ⟨attrXorRelayedAddress, .xorAddress a.externalAddr⟩).1
  let response := (response.addAttribute ⟨attrLifetime, .uint32 (BitVec.ofNat 32 lifetimeSecs)⟩).1
  some (a, [a.sendResponse cfg response])

def handleRefreshRequest (msg : StunMessage) : Allocation × List Sent :=
  let lifetimeSecs := computeLifetime msg
  let a := { a with timers := [now + lifetimeSecs * 1000] }
  let response := initResponse msg (.new .turn)
  let response := (response.addAttribute ⟨attrLifetime, .uint32 (BitVec.ofNat 32 lifetimeSecs)⟩).1
  (a, [a.sendResponse cfg response])

def handleSendIndication (msg : StunMessage) : List Sent :=
  match msg.getString attrData, msg.getSocketAddress attrXorPeerAddress with
  | some data, some peer => if a.hasPermission peer.ip then [.external self peer data] else []
  | _, _ => []

def handleCreatePermissionRequest (msg : StunMessage) : Allocation × List Sent :=
  match msg.getSocketAddress attrXorPeerAddress with
  | none => (a, [a.sendBadRequestResponse cfg msg])
  | some peer => (a.addPermission now peer.ip, [a.sendResponse cfg (initResponse msg (.new .turn))])

/-- `Allocation::HandleChannelBindRequest`. -/
def handleChannelBindRequest (msg : StunMessage) : Allocation × List Sent :=
  match msg.getValue attrChannelNumber, msg.getSocketAddress attrXorPeerAddress with
  | some number, some peer =>
    let channelId := number.toNat / 2 ^ 16
    if channelId < kMinChannelNumber ∨ channelId > kMaxChannelNumber then
      (a, [a.sendBadRequestResponse cfg msg])
    else
      let channel₁ := a.channels.findIdx? fun channel => channel.id = channelId
      let channel₂ := a.channels.findIdx? fun channel => channel.peer.equal peer
      if channel₁ ≠ channel₂ then (a, [a.sendBadRequestResponse cfg msg])
      else
        let channels :=
          if channel₁.isNone then a.channels ++ [refreshChannel now ⟨channelId, peer, 0⟩]
          else updateFirst (fun channel => channel.id = channelId) (refreshChannel now) a.channels
        (({ a with channels := channels }).addPermission now peer.ip,
          [a.sendResponse cfg (initResponse msg (.new .turn))])
  | _, _ => (a, [a.sendBadRequestResponse cfg msg])

def handleTurnMessage (msg : StunMessage) : Option (Allocation × List Sent) :=
  match msg.type with
  | stunAllocateRequest => a.handleAllocateRequest cfg now msg
  | turnRefreshRequest => some (a.handleRefreshRequest cfg now msg)
  | turnSendIndication => some (a, a.handleSendIndication self msg)
  | turnCreatePermissionRequest => some (a.handleCreatePermissionRequest cfg now msg)
  | turnChannelBindRequest => some (a.handleChannelBindRequest cfg now msg)
  | _ => some (a, [])

def handleChannelData (data : List Uint8) : List Sent :=
  match a.findChannel (BitVec.ofNat 16 (beValue (data.take 2)) : Uint16).toNat with
  | some channel => [.external self channel.peer (data.drop turnChannelHeaderSize)]
  | none => []

def onExternalPacket (data : List Uint8) (addr : SocketAddress) (transactionId : List Uint8) :
    List Sent :=
  match a.findChannelByPeer addr with
  | some channel =>
    [.channelMessage self addr a.conn (writeUInt16 (BitVec.ofNat 16 channel.id) ++
      writeUInt16 (BitVec.ofNat 16 data.length) ++ data)]
  | none =>
    if a.hasPermission addr.ip then
      let msg := ((StunMessage.new .turn).setType turnDataIndication).setTransactionID transactionId
      let msg := (msg.1.addAttribute ⟨attrXorPeerAddress, .xorAddress addr⟩).1
      let msg := (msg.addAttribute ⟨attrData, .byteString data⟩).1
      [.dataIndication self addr a.conn (cfg.withSoftware msg)]
    else []

end Allocation

/-! ## The server -/

/-- A socket towards the clients; one of TCP belongs to one client. -/
structure InternalSocket where
  id : SocketId
  proto : ProtocolType
  remote : SocketAddress
  deriving DecidableEq, Repr

/-- A packet: a pointer to its bytes, and the number of them. -/
structure RawPacket where
  data : ℕ → Uint8
  size : ℕ

def RawPacket.bytes (packet : RawPacket) : List Uint8 := block packet.data 0 packet.size

/-- `TurnServer`, with the heap that the pointers in its map lead to. -/
structure TurnServer where
  serverSockets : List InternalSocket := []
  allocations : Tree Connection AllocationId := .leaf
  heap : AllocationId → Option Allocation := fun _ => none
  next : AllocationId := 0
  now : ℕ := 0

namespace TurnServer

variable (cfg : TurnConfig) (s : TurnServer)

/-- A look-up in `server_sockets_`. -/
def findSocket (socket : SocketId) : Option InternalSocket :=
  s.serverSockets.find? fun entry => entry.id = socket

/-- `TurnServer::FindAllocation`. -/
def findAllocation (conn : Connection) : Option AllocationId :=
  s.allocations.find Connection.less conn

/-- The object at `p` has changed. -/
def store (p : AllocationId) (a : Option Allocation) : TurnServer :=
  { s with heap := fun q => if q = p then a else s.heap q }

/-- `TurnServer::GetKey`. -/
def getKey (msg : StunMessage) : List Uint8 :=
  match msg.getString attrUsername, cfg.authHook with
  | some username, some hook => hook username cfg.realm
  | _, _ => []

/-- `CheckAuthorization`, before it looks at the allocation. -/
def checkCredentials (conn : Connection) (msg : StunMessage) (packet : RawPacket) (key : List Uint8) :
    Except Sent (List Uint8) :=
  if (msg.getByteString attrMessageIntegrity).isNone then
    .error (cfg.sendErrorResponseWithRealmAndNonce s.now conn msg stunErrorUnauthorized
      stunErrorReasonUnauthorized)
  else
    match msg.getString attrUsername, msg.getString attrRealm, msg.getString attrNonce with
    | some _, some _, some nonce =>
      if !cfg.validateNonce s.now nonce then
        .error (cfg.sendErrorResponseWithRealmAndNonce s.now conn msg stunErrorStaleNonce
          stunErrorReasonStaleNonce)
      else if key = [] ∨
          validateMessageIntegrity cfg.hmacSha1 packet.data packet.size key = false then
        .error (cfg.sendErrorResponseWithRealmAndNonce s.now conn msg stunErrorUnauthorized
          stunErrorReasonUnauthorized)
      else .ok nonce
    | _, _, _ => .error (cfg.sendErrorResponse conn msg stunErrorBadRequest stunErrorReasonBadRequest)

/-- `TurnServer::CheckAuthorization`. -/
def checkAuthorization (conn : Connection) (msg : StunMessage) (packet : RawPacket)
    (key : List Uint8) : Option (TurnServer × List Sent × Bool) :=
  match s.checkCredentials cfg conn msg packet key with
  | .error response => some (s, [response], false)
  | .ok nonce =>
    match s.findAllocation conn with
    | none => some (s, [], true)
    | some p => do
      let a ← s.heap p
      if cfg.enableOtuNonce ∧ a.lastNonce = nonce then
        some (s, [cfg.sendErrorResponseWithRealmAndNonce s.now conn msg stunErrorStaleNonce
          stunErrorReasonStaleNonce], false)
      else some (s.store p (some { a with lastNonce := nonce }), [], true)

/-- `TurnServer::HandleBindingRequest`. -/
def handleBindingRequest (conn : Connection) (req : StunMessage) : Sent :=
  let response := initResponse req (.new .stun)
  let response := (response.addAttribute ⟨attrXorMappedAddress, .xorAddress conn.src⟩).1
  .stun conn (cfg.withSoftware response)

def createAllocation (conn : Connection) (key : List Uint8) (external : Option SocketAddress) :
    Option (TurnServer × AllocationId) := do
  let externalAddr ← external
  let s' := s.store s.next (some { conn, externalAddr, key })
  some ({ s' with allocations := s.allocations.set Connection.less conn s.next, next := s.next + 1 },
    s.next)

def handleTurnMessage (p : AllocationId) (msg : StunMessage) : Option (TurnServer × List Sent) := do
  let a ← s.heap p
  let (a, sent) ← a.handleTurnMessage cfg s.now p msg
  some (s.store p (some a), sent)

def handleAllocateRequest (conn : Connection) (msg : StunMessage) (key : List Uint8)
    (external : Option SocketAddress) : Option (TurnServer × List Sent) :=
  match msg.getValue attrRequestedTransport with
  | none => some (s, [cfg.sendErrorResponse conn msg stunErrorBadRequest stunErrorReasonBadRequest])
  | some transport =>
    let proto := transport.toNat / 2 ^ 24
    if proto ≠ ipprotoUdp then
      some (s, [cfg.sendErrorResponse conn msg stunErrorUnsupportedProtocol
        stunErrorReasonUnsupportedProtocol])
    else
      match s.createAllocation conn key external with
      | some (s, p) => s.handleTurnMessage cfg p msg
      | none => some (s, [cfg.sendErrorResponse conn msg stunErrorServerError
          (text "Failed to allocate socket")])

/-- `TurnServer::HandleStunMessage`, behind the authorization. -/
def dispatch (conn : Connection) (msg : StunMessage) (key : List Uint8) (allocation : Option AllocationId)
    (external : Option SocketAddress) : Option (TurnServer × List Sent) :=
  match allocation with
  | none =>
    if msg.type = stunAllocateRequest then s.handleAllocateRequest cfg conn msg key external
    else some (s, [cfg.sendErrorResponse conn msg stunErrorAllocationMismatch
      stunErrorReasonAllocationMismatch])
  | some p => do
    let a ← s.heap p
    if msg.type ≠ stunAllocateRequest ∨ msg.transactionId = a.transactionId then
      if isStunRequestType msg.type then do
        let username ← msg.getString attrUsername
        if username ≠ a.username then
          some (s, [cfg.sendErrorResponse conn msg stunErrorWrongCredentials
            stunErrorReasonWrongCredentials])
        else s.handleTurnMessage cfg p msg
      else s.handleTurnMessage cfg p msg
    else some (s, [cfg.sendErrorResponse conn msg stunErrorAllocationMismatch
      stunErrorReasonAllocationMismatch])

def messageKey (msg : StunMessage) (allocation : Option AllocationId) : Option (List Uint8) :=
  match allocation with
  | none => some (getKey cfg msg)
  | some p => (s.heap p).map Allocation.key

/-- `TurnServer::HandleStunMessage`. -/
def handleStunMessage (conn : Connection) (packet : RawPacket) (external : Option SocketAddress) :
    Option (TurnServer × List Sent) :=
  match StunMessage.read .turn packet.bytes with
  | none => some (s, [])
  | some (msg, rest) =>
    if rest.length > 0 then some (s, [])
    else if msg.type = stunBindingRequest then some (s, [handleBindingRequest cfg conn msg])
    else do
      let allocation := s.findAllocation conn
      let key ← s.messageKey cfg msg allocation
      if isStunRequestType msg.type then
        let (s, sent, ok) ← s.checkAuthorization cfg conn msg packet key
        if ok then s.dispatch cfg conn msg key allocation external else some (s, sent)
      else s.dispatch cfg conn msg key allocation external

/-- `TurnServer::OnInternalPacket`. -/
def onInternalPacket (socket : SocketId) (addr : SocketAddress) (packet : RawPacket)
    (external : Option SocketAddress) : Option (TurnServer × List Sent) :=
  if packet.size < turnChannelHeaderSize then some (s, [])
  else do
    let entry ← s.findSocket socket
    let conn : Connection := ⟨addr, entry.remote, entry.proto, socket⟩
    if !isTurnChannelData (getBE16 packet.data 0) then s.handleStunMessage cfg conn packet external
    else
      match s.findAllocation conn with
      | none => some (s, [])
      | some p => do
        let a ← s.heap p
        some (s, a.handleChannelData p packet.bytes)

def destroyInternalSocket (socket : SocketId) : TurnServer :=
  { s with serverSockets := s.serverSockets.filter fun entry => entry.id ≠ socket }

def onAllocationDestroyed (a : Allocation) : Option TurnServer := do
  let entry ← s.findSocket a.conn.socket
  let s := if entry.proto ≠ .udp then s.destroyInternalSocket a.conn.socket else s
  some { s with allocations := s.allocations.erase Connection.less a.conn }

/-- What can happen to the server. -/
inductive Event where
  | internalPacket (socket : SocketId) (addr : SocketAddress) (packet : RawPacket)
      (external : Option SocketAddress)
  | externalPacket (p : AllocationId) (data : List Uint8) (addr : SocketAddress)
      (transactionId : List Uint8)
  | addInternalSocket (entry : InternalSocket)
  | internalSocketClose (socket : SocketId)
  | allocationTimeout (p : AllocationId)
  | permissionTimeout (p : AllocationId) (perm : Permission)
  | channelTimeout (p : AllocationId) (channel : Channel)
  | tick (ms : ℕ)

/-- The event can happen. -/
def possible : Event → Bool
  | .internalPacket socket addr _ _ =>
    (s.findSocket socket).any fun entry => entry.proto = .udp || addr = entry.remote
  | .externalPacket p _ _ _ => (s.heap p).isSome
  | .addInternalSocket entry => (s.findSocket entry.id).isNone
  | .internalSocketClose socket => (s.findSocket socket).isSome
  | .allocationTimeout p => (s.heap p).any fun a => a.timers.any fun t => t ≤ s.now
  | .permissionTimeout p perm =>
    (s.heap p).any fun a => a.perms.any (fun x => x = perm) && perm.timer ≤ s.now
  | .channelTimeout p channel =>
    (s.heap p).any fun a => a.channels.any (fun x => x = channel) && channel.timer ≤ s.now
  | .tick _ => true

def step : Event → Option (TurnServer × List Sent)
  | .internalPacket socket addr packet external => s.onInternalPacket cfg socket addr packet external
  | .externalPacket p data addr transactionId => do
    let a ← s.heap p
    some (s, a.onExternalPacket cfg p data addr transactionId)
  | .addInternalSocket entry => some ({ s with serverSockets := s.serverSockets ++ [entry] }, [])
  | .internalSocketClose socket => some (s.destroyInternalSocket socket, [])
  | .allocationTimeout p => do
    let a ← s.heap p
    let s ← s.onAllocationDestroyed a
    some (s.store p none, [])
  | .permissionTimeout p perm => do
    let a ← s.heap p
    some (s.store p (some { a with perms := a.perms.erase perm }), [])
  | .channelTimeout p channel => do
    let a ← s.heap p
    some (s.store p (some { a with channels := a.channels.erase channel }), [])
  | .tick ms => some ({ s with now := s.now + ms }, [])

/-- The runs of a server. -/
inductive Run (cfg : TurnConfig) : List (TurnServer × Event × List Sent) → TurnServer → Prop where
  | start : Run cfg [] {}
  | step {trace : List (TurnServer × Event × List Sent)} {s s' : TurnServer} {ev : Event}
      {sent : List Sent} :
      Run cfg trace s → s.possible ev = true → s.step cfg ev = some (s', sent) →
      Run cfg (trace ++ [(s, ev, sent)]) s'

/-- The state after an event, and what was sent. -/
def after (cfg : TurnConfig) (s : TurnServer) (ev : Event) : TurnServer :=
  ((s.step cfg ev).getD (s, [])).1

def sentAt (cfg : TurnConfig) (s : TurnServer) (ev : Event) : List Sent :=
  ((s.step cfg ev).getD (s, [])).2

theorem step_eq_some {cfg : TurnConfig} {s : TurnServer} {ev : Event}
    (h : (s.step cfg ev).isSome = true) : s.step cfg ev = some (s.after cfg ev, s.sentAt cfg ev) := by
  obtain ⟨r, hr⟩ := Option.isSome_iff_exists.mp h
  rw [after, sentAt, hr]
  rfl

end TurnServer

/-! ## A server to look at -/

def exampleConfig : TurnConfig where
  realm := text "r"
  software := []
  nonceKey := []
  enableOtuNonce := false
  authHook := some fun _ _ => [1]
  hmacSha1 := fun _ _ => List.replicate 20 0
  hmacMd5 := fun _ _ => List.replicate 32 0x30

def exampleRequest (type : Uint16) (username : List Uint8) (attrs : List StunAttribute) : RawPacket :=
  let credentials : List StunAttribute := [⟨attrUsername, .byteString username⟩,
    ⟨attrRealm, .byteString (text "r")⟩, ⟨attrNonce, .byteString (List.replicate 40 0x30)⟩,
    ⟨attrMessageIntegrity, .byteString (List.replicate 20 0)⟩]
  let msg := (attrs ++ credentials).foldl (fun msg attr => (msg.addAttribute attr).1)
    ((StunMessage.new .turn).setType type)
  let bytes := msg.write.getD []
  ⟨packetData bytes, bytes.length⟩

def exampleAllocate (username : List Uint8) : RawPacket :=
  exampleRequest stunAllocateRequest username [⟨attrRequestedTransport, .uint32 0x11000000⟩]

def exampleRefresh (username : List Uint8) : RawPacket := exampleRequest turnRefreshRequest username []

def exampleSocket : InternalSocket := ⟨0, .udp, .ofIP .unspec 0⟩

def exampleClient : SocketAddress := .ofIP (.v4 0x01010101) 1000

def exampleAllocateEvent : TurnServer.Event :=
  .internalPacket 0 exampleClient (exampleAllocate (text "u")) (some (.ofIP (.v4 0x09090909) 5000))

def exampleFresh : TurnServer := { serverSockets := [exampleSocket] }

def exampleServer : TurnServer := exampleFresh.after exampleConfig exampleAllocateEvent

theorem run_exampleFresh : TurnServer.Run exampleConfig [({}, .addInternalSocket exampleSocket, [])] exampleFresh :=
  .step .start rfl rfl

theorem run_exampleServer : ∃ trace, TurnServer.Run exampleConfig trace exampleServer :=
  ⟨_, .step run_exampleFresh (by decide) (TurnServer.step_eq_some (by decide))⟩

end Libjingle
