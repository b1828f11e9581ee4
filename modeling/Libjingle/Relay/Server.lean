import Libjingle.Lib.SearchTree
import Libjingle.Stun.Message

/-!
# The relay server (`p2p/base/relayserver.{h,cc}`)

A step is `none` where the code dereferences a pointer to an object that is not there, or erases the
end of a map. The `ASSERT` of `AddConnection` is an output if it fails, and the code goes on, as it does in a
release build. That of `HandleStunSend`, for a single external socket, is about how the server was set up and is left
out: the first socket is used.
`Time()` is the time in 32 bits, and a posted message is the time at which it is due.
-/

namespace Libjingle

open Lib StunMessage

/-! ## Constants -/

/-- `MAX_LIFETIME`, fifteen minutes in milliseconds. -/
abbrev maxLifetime : Uint32 := 15 * 60 * 1000

/-- `USERNAME_LENGTH`. -/
abbrev usernameLength : ℕ := 16

def turnMagicCookieValue : List Uint8 := [0x72, 0xC6, 0x4B, 0xC6]

abbrev stunAllocateResponse : Uint16 := 0x0103#16
/-- `STUN_SEND_REQUEST`. -/
abbrev stunSendRequest : Uint16 := 0x0004#16
/-- `STUN_SEND_RESPONSE`. -/
abbrev stunSendResponse : Uint16 := 0x0104#16
abbrev stunDataIndication : Uint16 := 0x0115#16

/-! ## Objects -/

/-- The address of a `RelayServerConnection` on the heap. -/
abbrev RelayConnectionId := ℕ

/-- The address of a `RelayServerBinding` on the heap. -/
abbrev RelayBindingId := ℕ

/-- `RelayServerConnection`: the addresses that talk to each other over the binding. -/
structure RelayServerConnection where
  binding : RelayBindingId
  addrPair : SocketAddressPair
  socket : SocketId
  locked : Bool := false
  defaultDest : SocketAddress := .ofIP .unspec 0
  deriving DecidableEq, Repr

/-- `RelayServerBinding`, with the time its posted message is due. -/
structure RelayServerBinding where
  username : List Uint8
  magicCookie : List Uint8 := turnMagicCookieValue
  internalConnections : List RelayConnectionId := []
  externalConnections : List RelayConnectionId := []
  lifetime : Uint32
  lastUsed : Uint32
  timer : Option ℕ
  disposed : Bool := false
  deriving DecidableEq, Repr

/-- An `AsyncPacketSocket*`, and its local address. -/
structure RelaySocket where
  id : SocketId
  localAddr : SocketAddress
  deriving DecidableEq, Repr

/-- What comes out of a step. -/
inductive RelayOutput where
  | packet (conn : RelayConnectionId) (socket : SocketId) (data : List Uint8) (addr : SocketAddress)
  | indication (conn : RelayConnectionId) (socket : SocketId) (msg : StunMessage) (addr : SocketAddress)
  | stun (socket : SocketId) (msg : StunMessage) (addr : SocketAddress)
  | assertFailed
  deriving DecidableEq, Repr

def RelayServerBinding.hasMagicCookie (binding : RelayServerBinding) (bytes : List Uint8) : Bool :=
  if bytes.length < 24 + binding.magicCookie.length then false
  else (bytes.drop 24).take binding.magicCookie.length = binding.magicCookie

/-- `RelayServer`: its sockets, its maps and the heap behind them. -/
structure RelayServer where
  internalSockets : List RelaySocket := []
  externalSockets : List RelaySocket := []
  bindings : List Uint8 → Option RelayBindingId := fun _ => none
  connections : Tree SocketAddressPair RelayConnectionId := .leaf
  binding : RelayBindingId → Option RelayServerBinding := fun _ => none
  connection : RelayConnectionId → Option RelayServerConnection := fun _ => none
  nextBinding : RelayBindingId := 0
  nextConnection : RelayConnectionId := 0
  now : ℕ := 0

/-! ## Messages -/

/-- The message of `SendStunError`. -/
def relayErrorMessage (msg : StunMessage) (errorCode : ℕ) (errorDesc : List Uint8)
    (magicCookie : List Uint8) : StunMessage :=
  let errMsg := (StunMessage.new .relay).setType ((getStunErrorResponseType msg.type).getD 0xFFFF#16)
  let errMsg := (errMsg.setTransactionID msg.transactionId).1
  let cookie := if magicCookie = [] then turnMagicCookieValue else magicCookie
  let errMsg := (errMsg.addAttribute ⟨attrMagicCookie, .byteString cookie⟩).1
  (errMsg.addAttribute (stunErrorCodeAttribute errorCode errorDesc)).1

def handleRelayStun (bytes : List Uint8) (remoteAddr : SocketAddress) (socket : SocketId) :
    Except (List RelayOutput) (StunMessage × List Uint8) :=
  match StunMessage.read .relay bytes with
  | none => .error []
  | some (msg, _) =>
    match msg.getString attrUsername with
    | none => .error [.stun socket (relayErrorMessage msg 432 (text "Missing Username") []) remoteAddr]
    | some username => .ok (msg, username)

namespace RelayServer

variable (s : RelayServer)

/-! ## Changes to objects -/

def time : Uint32 := BitVec.ofNat 32 s.now

/-- A write through a pointer to a binding. -/
def updateBinding (i : RelayBindingId) (f : RelayServerBinding → RelayServerBinding) : RelayServer :=
  { s with binding := fun j => if j = i then (s.binding i).map f else s.binding j }

/-- A write through a pointer to a connection. -/
def updateConnection (c : RelayConnectionId) (f : RelayServerConnection → RelayServerConnection) :
    RelayServer :=
  { s with connection := fun d => if d = c then (s.connection c).map f else s.connection d }

def noteUsed (i : RelayBindingId) : RelayServer := s.updateBinding i fun b => { b with lastUsed := s.time }

def lock (c : RelayConnectionId) : RelayServer :=
  s.updateConnection c fun conn => { conn with locked := true }

def setDefaultDestination (c : RelayConnectionId) (addr : SocketAddress) : RelayServer :=
  s.updateConnection c fun conn => { conn with defaultDest := addr }

/-- `new RelayServerBinding`, under its user name. -/
def newBinding (username : List Uint8) (lifetime : Uint32) : RelayServer × RelayBindingId :=
  let binding : RelayServerBinding :=
    { username, lifetime, lastUsed := s.time, timer := some (s.now + lifetime.toNat) }
  ({ s with
      binding := fun j => if j = s.nextBinding then some binding else s.binding j
      bindings := fun u => if u = username then some s.nextBinding else s.bindings u
      nextBinding := s.nextBinding + 1 }, s.nextBinding)

def newConnection (binding : RelayBindingId) (addrPair : SocketAddressPair) (socket : SocketId) :
    RelayServer × RelayConnectionId :=
  let s' := s.noteUsed binding
  let conn : RelayServerConnection := { binding, addrPair, socket }
  ({ s' with
      connection := fun d => if d = s.nextConnection then some conn else s.connection d
      nextConnection := s.nextConnection + 1 }, s.nextConnection)

def addInternalConnection (i : RelayBindingId) (c : RelayConnectionId) : RelayServer :=
  s.updateBinding i fun b => { b with internalConnections := b.internalConnections ++ [c] }

def addExternalConnection (i : RelayBindingId) (c : RelayConnectionId) : RelayServer :=
  s.updateBinding i fun b => { b with externalConnections := b.externalConnections ++ [c] }

def findConnection (addrPair : SocketAddressPair) : Option RelayConnectionId :=
  s.connections.find SocketAddressPair.less addrPair

def addConnection (c : RelayConnectionId) : Option (RelayServer × List RelayOutput) := do
  let conn ← s.connection c
  let failed := if (s.findConnection conn.addrPair).isSome then [.assertFailed] else []
  some ({ s with connections := s.connections.set SocketAddressPair.less conn.addrPair c }, failed)

def removeConnection (c : RelayConnectionId) : Option RelayServer := do
  let conn ← s.connection c
  let _ ← s.findConnection conn.addrPair
  some { s with connections := s.connections.erase SocketAddressPair.less conn.addrPair }

def getInternalConnection (b : RelayServerBinding) (extAddr : SocketAddress) :
    Option RelayConnectionId :=
  (b.internalConnections.find? fun c =>
    (s.connection c).any fun conn => conn.locked && extAddr.equal conn.defaultDest).or
    b.internalConnections.head?

def getExternalConnection (b : RelayServerBinding) (extAddr : SocketAddress) :
    Option RelayConnectionId :=
  b.externalConnections.find? fun c =>
    (s.connection c).any fun conn => extAddr.equal conn.addrPair.source

/-! ## Sending -/

def send (c : RelayConnectionId) (data : List Uint8) : Option (RelayServer × List RelayOutput) := do
  let conn ← s.connection c
  some (s.noteUsed conn.binding, [.packet c conn.socket data conn.addrPair.source])

/-- `RelayServerConnection::Send(data, size, from_addr)`. -/
def sendFrom (c : RelayConnectionId) (data : List Uint8) (fromAddr : SocketAddress) :
    Option (RelayServer × List RelayOutput) := do
  let conn ← s.connection c
  let b ← s.binding conn.binding
  if conn.locked ∧ fromAddr.equal conn.defaultDest then s.send c data
  else
    let msg := (StunMessage.new .relay).setType stunDataIndication
    let msg := (msg.addAttribute ⟨attrMagicCookie, .byteString b.magicCookie⟩).1
    let msg := (msg.addAttribute ⟨attrSourceAddress2, .address (.ofIP fromAddr.ip fromAddr.port)⟩).1
    let size := (BitVec.ofNat 16 data.length).toNat
    let msg := (msg.addAttribute ⟨attrData, .byteString (data.take size)⟩).1
    some (s.noteUsed conn.binding, [.indication c conn.socket msg conn.addrPair.source])

def sendStun (c : RelayConnectionId) (msg : StunMessage) : Option (RelayServer × List RelayOutput) := do
  let conn ← s.connection c
  some (s.noteUsed conn.binding, [.stun conn.socket msg conn.addrPair.source])

def sendStunError (c : RelayConnectionId) (request : StunMessage) (errorCode : ℕ)
    (errorDesc : List Uint8) : Option (RelayServer × List RelayOutput) := do
  let conn ← s.connection c
  let b ← s.binding conn.binding
  some (s, [.stun conn.socket (relayErrorMessage request errorCode errorDesc b.magicCookie)
    conn.addrPair.source])

/-! ## Handlers -/

/-- `RelayServer::HandleStunAllocate(int_conn, request)`. -/
def answerAllocate (c : RelayConnectionId) (request : StunMessage) (random : ℕ) :
    Option (RelayServer × List RelayOutput) := do
  let conn ← s.connection c
  let b ← s.binding conn.binding
  let external ← s.externalSockets[random % s.externalSockets.length]?
  let response := (StunMessage.new .relay).setType stunAllocateResponse
  let response := (response.setTransactionID request.transactionId).1
  let response := (response.addAttribute ⟨attrMagicCookie, .byteString b.magicCookie⟩).1
  let addr : SocketAddress := .ofIP external.localAddr.ip external.localAddr.port
  let response := (response.addAttribute ⟨attrMappedAddress, .address addr⟩).1
  let response := (response.addAttribute ⟨attrLifetime, .uint32 (b.lifetime / 1000)⟩).1
  s.sendStun c response

def requestLifetime (request : StunMessage) : Uint32 :=
  match request.getValue attrLifetime with
  | none => maxLifetime
  | some value => if value * 1000 < maxLifetime then value * 1000 else maxLifetime

/-- The binding of a user name, which is made if there is none. -/
def bindingFor (username : List Uint8) (request : StunMessage) : RelayServer × RelayBindingId :=
  match s.bindings username with
  | some i => (s, i)
  | none => s.newBinding username (requestLifetime request)

/-- The last part of `HandleStunAllocate`. -/
def allocateConnection (i : RelayBindingId) (request : StunMessage) (ap : SocketAddressPair)
    (socket : SocketId) (random : ℕ) : Option (RelayServer × List RelayOutput) := do
  let (s, c) := s.newConnection i ap socket
  let (s, failed) ← (s.addInternalConnection i c).addConnection c
  let (s, out) ← s.answerAllocate c request random
  some (s, failed ++ out)

def handleStunAllocate (bytes : List Uint8) (ap : SocketAddressPair) (socket : SocketId)
    (random : ℕ) : Option (RelayServer × List RelayOutput) :=
  match handleRelayStun bytes ap.source socket with
  | .error out => some (s, out)
  | .ok (request, username) =>
    if request.type ≠ stunAllocateRequest then
      some (s, [.stun socket (relayErrorMessage request 600 (text "Operation Not Supported") [])
        ap.source])
    else
      let (s, i) := s.bindingFor username request
      s.allocateConnection i request ap socket random

/-- The external connection of `HandleStunSend`. -/
def externalConnectionFor (i : RelayBindingId) (extAddr : SocketAddress) :
    Option (RelayServer × RelayConnectionId × List RelayOutput) := do
  let b ← s.binding i
  match s.getExternalConnection b extAddr with
  | some e => some (s, e, [])
  | none =>
    let socket ← s.externalSockets.head?
    let (s, e) := s.newConnection i ⟨extAddr, socket.localAddr⟩ socket.id
    let (s, failed) ← (s.addExternalConnection i e).addConnection e
    some (s, e, failed)

/-- The last part of `HandleStunSend`. -/
def answerSend (c : RelayConnectionId) (request : StunMessage) (extAddr : SocketAddress) :
    Option (RelayServer × List RelayOutput) := do
  let conn ← s.connection c
  let b ← s.binding conn.binding
  match request.getValue attrOptions with
  | none => some (s, [])
  | some options =>
    if options &&& 0x01 ≠ 0 then
      let s := (s.setDefaultDestination c extAddr).lock c
      let response := (StunMessage.new .relay).setType stunSendResponse
      let response := (response.setTransactionID request.transactionId).1
      let response := (response.addAttribute ⟨attrMagicCookie, .byteString b.magicCookie⟩).1
      let response := (response.addAttribute ⟨attrOptions, .uint32 0x01⟩).1
      s.sendStun c response
    else some (s, [])

def sendIfLocked (e : RelayConnectionId) (data : List Uint8) :
    Option (RelayServer × List RelayOutput) := do
  let conn ← s.connection e
  if conn.locked then s.send e data else some (s, [])

def handleStunSend (c : RelayConnectionId) (request : StunMessage) :
    Option (RelayServer × List RelayOutput) :=
  match request.getSocketAddress attrDestinationAddress, request.getString attrData with
  | some addr, some data => do
    let conn ← s.connection c
    let extAddr : SocketAddress := .ofIP addr.ip addr.port
    let (s, e, failed) ← s.externalConnectionFor conn.binding extAddr
    let (s, sent) ← s.sendIfLocked e data
    let (s, out) ← s.answerSend c request extAddr
    some (s, failed ++ sent ++ out)
  | _, _ => s.sendStunError c request 400 (text "Bad Request")

/-- `RelayServer::HandleStun(int_conn, bytes, size)`. -/
def handleStun (c : RelayConnectionId) (bytes : List Uint8) (random : ℕ) :
    Option (RelayServer × List RelayOutput) := do
  let conn ← s.connection c
  match handleRelayStun bytes conn.addrPair.source conn.socket with
  | .error out => some (s, out)
  | .ok (request, username) =>
    let b ← s.binding conn.binding
    if username ≠ b.username then s.sendStunError c request 430 (text "Stale Credentials")
    else if request.type = stunSendRequest then s.handleStunSend c request
    else if request.type = stunAllocateRequest then s.answerAllocate c request random
    else s.sendStunError c request 600 (text "Operation Not Supported")

def onInternalPacket (socket : RelaySocket) (bytes : List Uint8) (remoteAddr : SocketAddress)
    (random : ℕ) : Option (RelayServer × List RelayOutput) :=
  let ap : SocketAddressPair := ⟨remoteAddr, socket.localAddr⟩
  match s.findConnection ap with
  | none => s.handleStunAllocate bytes ap socket.id random
  | some c => do
    let conn ← s.connection c
    let b ← s.binding conn.binding
    if b.hasMagicCookie bytes then s.handleStun c bytes random
    else if !conn.locked then some (s, [])
    else
      match s.getExternalConnection b conn.defaultDest with
      | some e => s.sendIfLocked e bytes
      | none => some (s, [])

def onExternalPacket (socket : RelaySocket) (bytes : List Uint8) (remoteAddr : SocketAddress) :
    Option (RelayServer × List RelayOutput) :=
  let ap : SocketAddressPair := ⟨remoteAddr, socket.localAddr⟩
  match s.findConnection ap with
  | some e => do
    let extConn ← s.connection e
    let b ← s.binding extConn.binding
    let c ← s.getInternalConnection b extConn.addrPair.source
    let (s, out) ← s.sendFrom c bytes extConn.addrPair.source
    some (s.lock e, out)
  | none =>
    match StunMessage.read .relay bytes with
    | none => some (s, [])
    | some (msg, _) =>
      match msg.getString attrUsername with
      | none => some (s, [])
      | some attr =>
        match s.bindings (attr.take usernameLength) with
        | none => some (s, [])
        | some i => do
          let (s, e) := s.newConnection i ap socket.id
          let (s, failed) ← (s.addExternalConnection i e).addConnection e
          let s := s.lock e
          let b ← s.binding i
          let c ← s.getInternalConnection b ap.source
          let (s, out) ← s.sendFrom c bytes ap.source
          some (s, failed ++ out)

/-! ## Expiry -/

/-- `RelayServerBinding::OnMessage`. -/
def onMessage (i : RelayBindingId) : Option RelayServer := do
  let b ← s.binding i
  if s.time ≥ b.lastUsed + b.lifetime then
    some (s.updateBinding i fun b => { b with timer := none, disposed := true })
  else some (s.updateBinding i fun b => { b with timer := some (s.now + b.lifetime.toNat) })

/-- The loops of `~RelayServerBinding` over its connections. -/
def deleteConnections : List RelayConnectionId → RelayServer → Option RelayServer
  | [], s => some s
  | c :: cs, s => do
    let s ← s.removeConnection c
    deleteConnections cs { s with connection := fun d => if d = c then none else s.connection d }

def removeBinding (username : List Uint8) : Option RelayServer := do
  let _ ← s.bindings username
  some { s with bindings := fun u => if u = username then none else s.bindings u }

def deleteBinding (i : RelayBindingId) : Option RelayServer := do
  let b ← s.binding i
  let s ← deleteConnections b.internalConnections s
  let s ← deleteConnections b.externalConnections s
  let s ← s.removeBinding b.username
  some { s with binding := fun j => if j = i then none else s.binding j }

/-! ## Runs -/

/-- What can happen to the server. -/
inductive Event where
  | internalPacket (socket : RelaySocket) (bytes : List Uint8) (remoteAddr : SocketAddress) (random : ℕ)
  | externalPacket (socket : RelaySocket) (bytes : List Uint8) (remoteAddr : SocketAddress)
  | addInternalSocket (socket : RelaySocket)
  | removeInternalSocket (socket : RelaySocket)
  | addExternalSocket (socket : RelaySocket)
  | removeExternalSocket (socket : RelaySocket)
  | lifetimeTimer (i : RelayBindingId)
  | dispose (i : RelayBindingId)
  | tick (ms : ℕ)

/-- The event can happen. -/
def possible : Event → Bool
  | .internalPacket socket _ _ _ => s.internalSockets.contains socket
  | .externalPacket socket _ _ => s.externalSockets.contains socket
  | .addInternalSocket socket => !s.internalSockets.any fun entry => entry.id = socket.id
  | .removeInternalSocket socket => s.internalSockets.contains socket
  | .addExternalSocket socket => !s.externalSockets.any fun entry => entry.id = socket.id
  | .removeExternalSocket socket => s.externalSockets.contains socket
  | .lifetimeTimer i => (s.binding i).any fun b => b.timer.any fun t => t ≤ s.now
  | .dispose i => (s.binding i).any fun b => b.disposed
  | .tick _ => true

def step : Event → Option (RelayServer × List RelayOutput)
  | .internalPacket socket bytes remoteAddr random => s.onInternalPacket socket bytes remoteAddr random
  | .externalPacket socket bytes remoteAddr => s.onExternalPacket socket bytes remoteAddr
  | .addInternalSocket socket => some ({ s with internalSockets := s.internalSockets ++ [socket] }, [])
  | .removeInternalSocket socket =>
    some ({ s with internalSockets := s.internalSockets.erase socket }, [])
  | .addExternalSocket socket => some ({ s with externalSockets := s.externalSockets ++ [socket] }, [])
  | .removeExternalSocket socket =>
    some ({ s with externalSockets := s.externalSockets.erase socket }, [])
  | .lifetimeTimer i => (s.onMessage i).map fun s => (s, [])
  | .dispose i => (s.deleteBinding i).map fun s => (s, [])
  | .tick ms => some ({ s with now := s.now + ms }, [])

/-- The runs of a server. -/
inductive Run : List (RelayServer × Event) → RelayServer → Prop where
  | start : Run [] {}
  | step {trace : List (RelayServer × Event)} {s s' : RelayServer} {ev : Event}
      {out : List RelayOutput} :
      Run trace s → s.possible ev = true → s.step ev = some (s', out) → Run (trace ++ [(s, ev)]) s'

/-- The state after an event, and what came out. -/
def after (s : RelayServer) (ev : Event) : RelayServer := ((s.step ev).getD (s, [])).1

def outputAt (s : RelayServer) (ev : Event) : List RelayOutput := ((s.step ev).getD (s, [])).2

theorem step_eq_some {s : RelayServer} {ev : Event} (h : (s.step ev).isSome = true) :
    s.step ev = some (s.after ev, s.outputAt ev) := by
  obtain ⟨r, hr⟩ := Option.isSome_iff_exists.mp h
  rw [after, outputAt, hr]
  rfl

end RelayServer

end Libjingle
