import Libjingle.P2P.Connection

/-!
# `P2PTransportChannel` (`p2p/base/p2ptransportchannel.{h,cc}`)

The channel with the ports and connections under it and the messages posted on the worker thread for
it and for its connections.

What a port makes of `CreateConnection` is given with the event. Signals to the transport are not
part of the model, nor are socket options; where a pointer is dereferenced that points to no object,
the object is passed over.
-/

namespace Libjingle.P2P

open Lib

abbrev stunErrorUnknownAttribute : ℕ := 420
def stunErrorReasonServerError : List Uint8 := text "Server Error"

/-- Messages on the worker thread: `MSG_SORT`, `MSG_PING`, and `MSG_DELETE` for a connection. -/
inductive Message where
  | sort | ping
  | delete (conn : ℕ)
  deriving DecidableEq, Repr

/-- The answer of a port to a binding request. -/
inductive BindingAnswer where
  | success
  | error (code : ℕ) (reason : List Uint8)
  deriving DecidableEq, Repr

/-- What the port chooses for a connection that it creates. -/
structure NewConnection where
  localPriority : Uint32
  connected : Bool

/-- What each port makes of `CreateConnection`. -/
abbrev Creates := ℕ → Candidate → CandidateOrigin → Option NewConnection

/-- `P2PTransportChannel`; the ports and connections that exist, the posted messages, and the
answers sent. -/
structure P2PTransportChannel where
  component : ℕ
  incomingOnly : Bool := false
  waitingForSignaling : Bool := false
  allocatorSessions : List ℕ := []
  ports : List ℕ := []
  connections : List ℕ := []
  bestConnection : Option ℕ := none
  pendingBestConnection : Option ℕ := none
  remoteCandidates : List RemoteCandidate := []
  sortDirty : Bool := false
  wasWritable : Bool := false
  readable : Bool := false
  writable : Bool := false
  iceUfrag : List Uint8 := []
  icePwd : List Uint8 := []
  remoteIceUfrag : List Uint8 := []
  remoteIcePwd : List Uint8 := []
  protocolType : IceProtocolType := .hybrid
  remoteIceMode : IceMode := .full
  iceRole : IceRole := .unknown
  tiebreaker : Uint64 := 0
  remoteCandidateGeneration : Uint32 := 0
  portAt : ℕ → Option Port := fun _ => none
  connectionAt : ℕ → Option Connection := fun _ => none
  fresh : ℕ := 0
  messages : List Message := []
  answers : List (ℕ × SocketAddress × BindingAnswer) := []

namespace P2PTransportChannel

def new (component : ℕ) : P2PTransportChannel where
  component := component

variable (s : P2PTransportChannel)

/-! ## Objects -/

/-- A connection written to the heap. -/
def setConnection (c : ℕ) (conn : Connection) : P2PTransportChannel :=
  { s with connectionAt := Function.update s.connectionAt c (some conn) }

/-- A port written to the heap. -/
def setPort (p : ℕ) (port : Port) : P2PTransportChannel :=
  { s with portAt := Function.update s.portAt p (some port) }

def test (c : ℕ) (q : Connection → Bool) : Bool := (s.connectionAt c).any q

def portOf (c : ℕ) : Option Port := (s.connectionAt c).bind fun conn => s.portAt conn.port

def pairAt (c : ℕ) : Option Pair :=
  (s.connectionAt c).bind fun conn => (s.portAt conn.port).map fun port => ⟨conn, port⟩

/-! ## Changes of state -/

def post (m : Message) : P2PTransportChannel := { s with messages := s.messages ++ [m] }

/-- `RequestSort`: one sort at a time is pending. -/
def requestSort : P2PTransportChannel :=
  if !s.sortDirty then { s.post .sort with sortDirty := true } else s

def switchBestConnectionTo (conn : Option ℕ) : P2PTransportChannel := { s with bestConnection := conn }

/-- `P2PTransportChannel::OnConnectionStateChange`. -/
def onConnectionStateChange (c : ℕ) : P2PTransportChannel :=
  let s :=
    if s.protocolType = .rfc5245 ∧ s.iceRole = .controlled ∧ s.pendingBestConnection = some c ∧
        s.test c (·.writable) then
      { s with pendingBestConnection := none }.switchBestConnectionTo (some c)
    else s
  s.requestSort

def checkTimeout (c : ℕ) : P2PTransportChannel :=
  if s.test c (·.isTimedOut) then s.post (.delete c) else s

/-- `Connection::set_read_state`, with the signal for a change. -/
def setReadState (c : ℕ) (value : ReadState) : P2PTransportChannel :=
  match s.connectionAt c with
  | none => s
  | some conn =>
    let s := s.setConnection c { conn with readState := value }
    if value ≠ conn.readState then (s.onConnectionStateChange c).checkTimeout c else s

/-- `Connection::set_write_state`, with the signal for a change. -/
def setWriteState (c : ℕ) (value : WriteState) : P2PTransportChannel :=
  match s.connectionAt c with
  | none => s
  | some conn =>
    let s := s.setConnection c { conn with writeState := value }
    if value ≠ conn.writeState then (s.onConnectionStateChange c).checkTimeout c else s

def modifyConnection (c : ℕ) (f : Connection → Connection) : P2PTransportChannel :=
  match s.connectionAt c with
  | none => s
  | some conn => s.setConnection c (f conn)

def receivedPing (c : ℕ) (now : Uint32) : P2PTransportChannel :=
  (s.modifyConnection c fun conn => { conn with lastPingReceived := now }).setReadState c .readable

/-- `Connection::Prune`. -/
def prune (c : ℕ) : P2PTransportChannel :=
  if s.test c (!·.pruned) then
    (s.modifyConnection c fun conn => { conn with pruned := true }).setWriteState c .timeout
  else s

/-- `Connection::UpdateState`. -/
def updateState (c : ℕ) (now : Uint32) : P2PTransportChannel :=
  let googleIce := (s.portOf c).any (·.isGoogleIce)
  let s := if s.test c (·.readTimesOut googleIce now) then s.setReadState c .timeout else s
  let s := if s.test c (·.becomesUnreliable now) then s.setWriteState c .unreliable else s
  if s.test c (·.writeTimesOut now) then s.setWriteState c .timeout else s

/-- `Connection::Ping`. -/
def pingOut (c : ℕ) (now : Uint32) : P2PTransportChannel :=
  s.modifyConnection c fun conn =>
    { conn with
      lastPingSent := now
      pingsSinceLastResponse := conn.pingsSinceLastResponse ++ [now]
      state := .inProgress }

/-! ## Sorting -/

def updateConnectionStates (now : Uint32) : P2PTransportChannel :=
  s.connections.foldl (fun s c => s.updateState c now) s

def updateChannelState : P2PTransportChannel :=
  { s with readable := s.connections.any fun c => s.test c fun conn => conn.readState == .readable }

/-- `ConnectionCompare`. -/
def sortsBefore (a b : ℕ) : Bool :=
  match s.pairAt a, s.pairAt b with
  | some a, some b => connectionCompare a b
  | _, _ => false

/-- `ShouldSwitch`; `none` is the null pointer. -/
def shouldSwitch (a b : Option ℕ) : Bool :=
  if a = b then false
  else
    match a.bind s.pairAt, b.bind s.pairAt with
    | some a, some b => shouldSwitchPair a b
    | _, _ => true

def networkOf (c : ℕ) : Option ℕ := (s.portOf c).map (·.network.id)

def getBestConnectionOnNetwork (network : ℕ) : Option ℕ :=
  if s.bestConnection.bind s.networkOf = some network then s.bestConnection
  else s.connections.find? fun c => s.networkOf c == some network

def pruneOthers (network primier : ℕ) : P2PTransportChannel :=
  s.connections.foldl (fun s c =>
    match s.pairAt primier, s.pairAt c with
    | some a, some b =>
      if c ≠ primier ∧ b.port.network.id = network ∧ compareConnectionCandidates a b ≥ 0 then s.prune c
      else s
    | _, _ => s) s

/-- The part of `SortConnections` for one network. -/
def pruneNetwork (network : ℕ) : P2PTransportChannel :=
  match s.getBestConnectionOnNetwork network with
  | none => s
  | some primier => if s.test primier (·.writable) then s.pruneOthers network primier else s

/-- `HandleWritable`. -/
def handleWritable : P2PTransportChannel := { s with wasWritable := true, writable := true }

def handleNotWritable : P2PTransportChannel :=
  if s.wasWritable then { s with wasWritable := false, writable := false } else s

def sortList : P2PTransportChannel :=
  { s with connections := s.connections.mergeSort fun a b => !s.sortsBefore b a }

def chooseBest : P2PTransportChannel :=
  let topConnection := s.connections.head?
  if (s.protocolType ≠ .rfc5245 ∨ s.iceRole = .controlling) ∧
      s.shouldSwitch s.bestConnection topConnection then
    s.switchBestConnectionTo topConnection
  else s

/-- The writable state after a sort. -/
def noteWritable : P2PTransportChannel :=
  if s.bestConnection.any fun c => s.test c (·.writable) then s.handleWritable else s.handleNotWritable

def sortAndSwitch : P2PTransportChannel :=
  let networks := (s.connections.filterMap s.networkOf).dedup
  (networks.foldl pruneNetwork s.sortList.chooseBest).noteWritable.updateChannelState

/-- `SortConnections`. -/
def sortConnections (now : Uint32) : P2PTransportChannel :=
  let s := s.updateConnectionStates now
  -- no pings are sent in hybrid mode, and there is no point in sorting
  if s.protocolType = .hybrid then s.updateChannelState
  else { s with sortDirty := false }.sortAndSwitch

/-! ## Pings -/

/-- `IsPingable`. -/
def isPingable (c : ℕ) : Bool :=
  s.test c fun conn =>
    conn.connected &&
      if s.writable then conn.writeState != .timeout
      else conn.writeState != .timeout || conn.readState != .timeout

abbrev maxCurrentWritableDelay : Uint32 := 900

def findNextPingableConnection (now : Uint32) : Option ℕ :=
  if s.bestConnection.any fun c => s.test c fun conn =>
      conn.writable && conn.lastPingSent + maxCurrentWritableDelay ≤ now then s.bestConnection
  else
    (s.connections.foldl (fun oldest c =>
      match s.connectionAt c with
      | some conn =>
        if s.isPingable c && conn.lastPingSent < oldest.2 then (some c, conn.lastPingSent) else oldest
      | none => oldest) ((none : Option ℕ), (0xFFFFFFFF : Uint32))).1

/-- The flag that `PingConnection` sets. -/
def usesCandidate (c : ℕ) : Bool :=
  if s.protocolType = .rfc5245 then
    if s.remoteIceMode = .full ∧ s.iceRole = .controlling then
      s.bestConnection = some c || s.bestConnection = none ||
        !(s.bestConnection.any fun b => s.test b (·.writable)) ||
        match s.pairAt c, s.bestConnection.bind s.pairAt with
        | some a, some b => a.priority > b.priority
        | _, _ => false
    else if s.remoteIceMode = .lite ∧ s.bestConnection = some c then
      s.bestConnection.any fun b => s.test b (·.writable)
    else false
  else false

/-- `PingConnection`. -/
def pingConnection (c : ℕ) (now : Uint32) : P2PTransportChannel :=
  let useCandidate := s.usesCandidate c
  (s.modifyConnection c fun conn => { conn with useCandidateAttr := useCandidate }).pingOut c now

def pingNext (now : Uint32) : P2PTransportChannel :=
  match s.findNextPingableConnection now with
  | some c => s.pingConnection c now
  | none => s

/-- `OnPing`. -/
def onPing (now : Uint32) : P2PTransportChannel :=
  ((s.updateConnectionStates now).pingNext now).post .ping

/-! ## New connections -/

def newConnection (p : ℕ) (port : Port) (remoteCandidate : Candidate) (new : NewConnection) :
    P2PTransportChannel :=
  { s with
    connectionAt := Function.update s.connectionAt s.fresh (some
      { port := p
        localPriority := new.localPriority
        remoteCandidate := remoteCandidate
        connected := new.connected })
    portAt := Function.update s.portAt p (some (port.addConnection remoteCandidate.address s.fresh))
    fresh := s.fresh + 1 }

/-- `AddConnection`. -/
def addConnection (c : ℕ) : P2PTransportChannel :=
  { s with connections := s.connections ++ [c] }.modifyConnection c fun conn =>
    { conn with remoteIceMode := s.remoteIceMode }

def createConnection (creates : Creates) (now : Uint32) (p : ℕ) (remoteCandidate : Candidate)
    (originPort : Option ℕ) (readable : Bool) : Bool × P2PTransportChannel :=
  match s.portAt p with
  | none => (false, s)
  | some port =>
    match port.getConnection remoteCandidate.address with
    | some c =>
      if !s.test c fun conn => remoteCandidate.isEquivalent conn.remoteCandidate then (false, s)
      else (true, if readable then s.receivedPing c now else s)
    | none =>
      let origin := getOrigin p originPort
      if origin = .message ∧ s.incomingOnly then (false, s)
      else
        match creates p remoteCandidate origin with
        | none => (false, s)
        | some new =>
          let c := s.fresh
          let s := (s.newConnection p port remoteCandidate new).addConnection c
          (true, if readable then s.receivedPing c now else s)

def getRemoteCandidateGeneration (candidate : Candidate) : Uint32 :=
  if s.protocolType = .google then candidate.generation else s.remoteCandidateGeneration

def isDuplicateRemoteCandidate (candidate : Candidate) : Bool :=
  s.remoteCandidates.any fun remote => remote.candidate.isEquivalent candidate

def rememberRemoteCandidate (candidate : Candidate) (originPort : Option ℕ) : P2PTransportChannel :=
  let s := { s with
    remoteCandidates :=
      s.remoteCandidates.filter fun remote => !(remote.candidate.generation < candidate.generation) }
  if s.isDuplicateRemoteCandidate candidate then s
  else { s with remoteCandidates := s.remoteCandidates ++ [⟨candidate, originPort⟩] }

def completeCandidate (candidate : Candidate) : Candidate :=
  { candidate with
    generation := s.getRemoteCandidateGeneration candidate
    username := if candidate.username = [] then s.remoteIceUfrag else candidate.username
    password := if candidate.password = [] then s.remoteIcePwd else candidate.password }

/-- The loop of `CreateConnections` over the ports. -/
def createAtPorts (creates : Creates) (now : Uint32) (candidate : Candidate) (originPort : Option ℕ)
    (readable : Bool) : Bool × P2PTransportChannel :=
  s.ports.reverse.foldl (fun r p =>
    let (done, s) := r.2.createConnection creates now p candidate originPort readable
    (r.1 || (done && some p == originPort), s)) (false, s)

def createAtOrigin (creates : Creates) (now : Uint32) (candidate : Candidate) (originPort : Option ℕ)
    (readable : Bool) : Bool × P2PTransportChannel :=
  match originPort with
  | none => (false, s)
  | some origin =>
    if origin ∉ s.ports then s.createConnection creates now origin candidate originPort readable
    else (false, s)

/-- `CreateConnections`. -/
def createConnections (creates : Creates) (now : Uint32) (remoteCandidate : Candidate)
    (originPort : Option ℕ) (readable : Bool) : Bool × P2PTransportChannel :=
  let candidate := s.completeCandidate remoteCandidate
  if originPort = none ∧ s.isDuplicateRemoteCandidate candidate then (true, s)
  else
    let r := s.createAtPorts creates now candidate originPort readable
    let r' := r.2.createAtOrigin creates now candidate originPort readable
    (r.1 || r'.1, r'.2.rememberRemoteCandidate candidate originPort)

/-! ## Ports -/

def rememberPort (port : Port) : P2PTransportChannel :=
  let port := port.setIceProtocolType s.protocolType
  let port := port.setIceRole s.iceRole
  let port := port.setIceTiebreaker s.tiebreaker
  { s with
    portAt := Function.update s.portAt s.fresh (some { port with connections := [] })
    fresh := s.fresh + 1
    ports := s.ports ++ [s.fresh] }

/-- `OnPortReady`. -/
def onPortReady (creates : Creates) (now : Uint32) (port : Port) : P2PTransportChannel :=
  let p := s.fresh
  let s := s.rememberPort port
  let s := s.remoteCandidates.foldl (fun s remote =>
    (s.createConnection creates now p remote.candidate remote.originPort false).2) s
  s.sortConnections now

def onPortDestroyed (p : ℕ) : P2PTransportChannel := { s with ports := s.ports.erase p }

def portTimeout (p : ℕ) : P2PTransportChannel :=
  match s.portAt p with
  | none => s
  | some port =>
    if port.connections = [] then
      { s.onPortDestroyed p with portAt := Function.update s.portAt p none }
    else s

def answer (p : ℕ) (address : SocketAddress) (a : BindingAnswer) : P2PTransportChannel :=
  { s with answers := s.answers ++ [(p, address, a)] }

def sendBindingResponse (p : ℕ) (address : SocketAddress) (now : Uint32) : P2PTransportChannel :=
  let s := s.answer p address .success
  match (s.portAt p).bind (·.getConnection address) with
  | some c => s.receivedPing c now
  | none => s

/-- What a peer reflexive candidate is made of: a random id, its foundation, and the precedence of
the address. -/
structure NewCandidate where
  id : List Uint8
  foundation : List Uint8
  addrPref : Uint32

def unknownCandidate (port : Port) (address : SocketAddress) (proto : ProtocolType)
    (remoteUsername remotePassword : List Uint8) (new : NewCandidate) : Candidate where
  id := new.id
  component := s.component
  protocol := protoToString proto
  address := address
  priority := getPriority iceTypePreferenceSrflx port.network.preference new.addrPref
    (BitVec.ofNat 32 s.component)
  username := remoteUsername
  password := remotePassword
  type :=
    if port.iceProtocol = .rfc5245 then prflxPortType
    else if port.type = relayPortType ∨ port.sharedSocket then stunPortType
    else port.type
  networkName := port.network.name
  generation := 0
  foundation := new.foundation
  relatedAddress := .ofIP .unspec 0

def ufragPerPort : Bool :=
  match s.remoteCandidates with
  | [] => false
  | first :: _ =>
    s.remoteCandidates.any fun remote => remote.candidate.username != first.candidate.username

def requestCandidate (port : Port) (address : SocketAddress) (proto : ProtocolType)
    (remoteUsername : List Uint8) (new : NewCandidate) : Option Candidate :=
  let known := s.remoteCandidates.filter fun remote => remote.candidate.username == remoteUsername
  let found := known.find? fun remote =>
    s.ufragPerPort ||
      (remote.candidate.address.equal address && remote.candidate.protocol == protoToString proto)
  match known.getLast?, found with
  | none, _ => none
  | some _, some remote =>
    some (if s.ufragPerPort then { remote.candidate with address := address } else remote.candidate)
  | some last, none =>
    some (s.unknownCandidate port address proto remoteUsername last.candidate.password new)

def addPeerReflexive (creates : Creates) (now : Uint32) (p : ℕ) (port : Port)
    (address : SocketAddress) (stunMsg : StunMessage) (portMuxed : Bool) (candidate : Candidate) :
    P2PTransportChannel :=
  match stunMsg.getValue attrPriority with
  | none => s.answer p address (.error stunErrorBadRequest stunErrorReasonBadRequest)
  | some priority =>
    let candidate := { candidate with priority := priority }
    if (port.getConnection candidate.address).isSome then
      if portMuxed then s
      else s.answer p address (.error stunErrorServerError stunErrorReasonServerError)
    else
      match creates p candidate .thisPort with
      | none => s.answer p address (.error stunErrorServerError stunErrorReasonServerError)
      | some new =>
        let c := s.fresh
        let s := (s.newConnection p port candidate new).addConnection c
        let s := s.receivedPing c now
        let s := s.sendBindingResponse p address now
        s.sortConnections now

/-- `OnUnknownAddress`. -/
def onUnknownAddress (creates : Creates) (now : Uint32) (p : ℕ) (address : SocketAddress)
    (proto : ProtocolType) (stunMsg : StunMessage) (remoteUsername : List Uint8) (portMuxed : Bool)
    (new : NewCandidate) : P2PTransportChannel :=
  match s.portAt p with
  | none => s
  | some port =>
    match s.requestCandidate port address proto remoteUsername new with
    | none =>
      if portMuxed then s
      else s.answer p address (.error stunErrorStaleCredentials stunErrorReasonStaleCredentials)
    | some candidate =>
      if port.iceProtocol = .rfc5245 then
        s.addPeerReflexive creates now p port address stunMsg portMuxed candidate
      else
        let (created, s) := s.createConnections creates now candidate (some p) true
        if !created then s.answer p address (.error stunErrorServerError stunErrorReasonServerError)
        else (s.sendBindingResponse p address now).sortConnections now

/-- `OnCandidate`. -/
def onCandidate (creates : Creates) (now : Uint32) (candidate : Candidate) : P2PTransportChannel :=
  (s.createConnections creates now candidate none false).2.sortConnections now

/-- `OnUseCandidate`. -/
def onUseCandidate (c : ℕ) : P2PTransportChannel :=
  if s.test c (·.writable) then
    if s.bestConnection ≠ some c then
      ({ s with pendingBestConnection := none }.switchBestConnectionTo (some c)).requestSort
    else s
  else { s with pendingBestConnection := some c }

/-! ## Destruction -/

/-- The connection is taken out of the list. -/
def forgetConnection (c : ℕ) : P2PTransportChannel :=
  { s with
    connections := s.connections.erase c
    pendingBestConnection :=
      if s.pendingBestConnection = some c then none else s.pendingBestConnection }

/-- `OnConnectionDestroyed`. -/
def onConnectionDestroyed (c : ℕ) : P2PTransportChannel :=
  let s := s.forgetConnection c
  if s.bestConnection = some c then (s.switchBestConnectionTo none).requestSort else s

def leavePort (conn : Connection) : P2PTransportChannel :=
  match s.portAt conn.port with
  | some port => s.setPort conn.port (port.removeConnection conn.remoteCandidate.address)
  | none => s

def deleteConnection (c : ℕ) : P2PTransportChannel :=
  match s.connectionAt c with
  | none => s
  | some conn =>
    let s := (s.leavePort conn).onConnectionDestroyed c
    { s with
      connectionAt := Function.update s.connectionAt c none
      messages := s.messages.filter fun m => m ≠ .delete c }

def deleteSessions : P2PTransportChannel :=
  let portAt := fun p => (s.portAt p).filter fun port => port.session ∉ s.allocatorSessions
  let connectionAt := fun c => (s.connectionAt c).filter fun conn => (portAt conn.port).isSome
  { s with
    portAt := portAt
    connectionAt := connectionAt
    messages := s.messages.filter fun m =>
      match m with
      | .delete c => (connectionAt c).isSome
      | _ => true
    allocatorSessions := [] }

/-! ## The channel as a whole -/

def allocate : P2PTransportChannel := { s with waitingForSignaling := true }

/-- `AddAllocatorSession`. -/
def addAllocatorSession : P2PTransportChannel :=
  { s with
    allocatorSessions := s.allocatorSessions ++ [s.fresh]
    fresh := s.fresh + 1
    ports := [] }

def onSignalingReady : P2PTransportChannel :=
  if s.waitingForSignaling then { s with waitingForSignaling := false }.addAllocatorSession else s

def setPorts (f : Port → Port) : P2PTransportChannel :=
  { s with portAt := fun p => if p ∈ s.ports then (s.portAt p).map f else s.portAt p }

/-- `SetIceRole`. -/
def setIceRole (role : IceRole) : P2PTransportChannel :=
  if s.iceRole ≠ role then { s with iceRole := role }.setPorts fun port => port.setIceRole role else s

def setIceTiebreaker (tiebreaker : Uint64) : P2PTransportChannel :=
  if s.ports ≠ [] then s else { s with tiebreaker := tiebreaker }

/-- `SetIceProtocolType`. -/
def setIceProtocolType (type : IceProtocolType) : P2PTransportChannel :=
  { s with protocolType := type }.setPorts fun port => port.setIceProtocolType type

def setIceCredentials (ufrag pwd : List Uint8) : P2PTransportChannel :=
  let iceRestart := s.iceUfrag ≠ [] ∧ s.icePwd ≠ [] ∧ (s.iceUfrag ≠ ufrag ∨ s.icePwd ≠ pwd)
  let s' := { s with iceUfrag := ufrag, icePwd := pwd }
  if iceRestart then s'.allocate else s'

def setRemoteIceCredentials (ufrag pwd : List Uint8) : P2PTransportChannel :=
  let iceRestart := s.remoteIceUfrag ≠ [] ∧ s.remoteIcePwd ≠ [] ∧
    (s.remoteIceUfrag ≠ ufrag ∨ s.remoteIcePwd ≠ pwd)
  let s' := { s with remoteIceUfrag := ufrag, remoteIcePwd := pwd }
  if iceRestart then { s' with remoteCandidateGeneration := s'.remoteCandidateGeneration + 1 } else s'

def setRemoteIceMode (mode : IceMode) : P2PTransportChannel := { s with remoteIceMode := mode }

/-- `Connect`. -/
def connect : P2PTransportChannel := s.allocate.post .ping

/-- `thread()->Clear(this)`. -/
def clearMessages : P2PTransportChannel :=
  { s with messages := s.messages.filter fun m => m ≠ .sort ∧ m ≠ .ping }

/-- `Reset`, which connects again if that was asked for. -/
def reset (connectRequested : Bool) : P2PTransportChannel :=
  let s := s.deleteSessions
  let s := { s with ports := [], connections := [], bestConnection := none, remoteCandidates := [] }
  let s := { s with readable := false, writable := false }
  let s := { s with waitingForSignaling := false, sortDirty := false }
  let s := if connectRequested then s.allocate else s
  s.clearMessages.post .ping

/-! ## Events -/

/-- `OnMessage`. -/
def onMessage (m : Message) (now : Uint32) : P2PTransportChannel :=
  let s := { s with messages := s.messages.erase m }
  match m with
  | .sort => s.sortConnections now
  | .ping => s.onPing now
  | .delete c => s.deleteConnection c

/-- What arrives for a connection. -/
inductive ConnectionEvent where
  | request (useCandidate : Bool)
  | response (elapsed : Uint32) (prflx : Option Uint32)
  | errorResponse (code : ℕ)
  | indication
  | data
  | destroy
  | connected (value : Bool)

/-- A connection that timed out starts up again. -/
def restartChecks (c : ℕ) : P2PTransportChannel :=
  if s.test c fun conn => !conn.pruned && conn.writeState == .timeout then s.setWriteState c .init else s

def onBindingRequest (c : ℕ) (useCandidate : Bool) (now : Uint32) : P2PTransportChannel :=
  match s.connectionAt c with
  | none => s
  | some conn =>
    let s := (s.sendBindingResponse conn.port conn.remoteCandidate.address now).restartChecks c
    if ((s.portAt conn.port).any fun port => port.isStandardIce && port.iceRole == .controlled) &&
        useCandidate then s.onUseCandidate c
    else s

def maybeAddPrflxCandidate (c : ℕ) (prflx : Option Uint32) : P2PTransportChannel :=
  match prflx with
  | some priority =>
    (s.modifyConnection c fun conn => { conn with localPriority := priority }).onConnectionStateChange c
  | none => s

def becomeReadable (c : ℕ) (now : Uint32) : P2PTransportChannel :=
  if s.test c fun conn => conn.remoteIceMode == .lite then s.receivedPing c now else s

def onRequestResponse (c : ℕ) (elapsed : Uint32) (prflx : Option Uint32) (now : Uint32) :
    P2PTransportChannel :=
  let s := s.setWriteState c .writable
  let s := s.modifyConnection c fun conn => { conn with state := .succeeded }
  let s := s.becomeReadable c now
  let s := s.modifyConnection c fun conn =>
    { conn with
      pingsSinceLastResponse := []
      lastPingResponseReceived := now
      rtt := (3 * conn.rtt + elapsed) / 4 }
  if (s.portOf c).any (·.isStandardIce) then s.maybeAddPrflxCandidate c prflx else s

/-- The error codes after which a connection tries again. -/
def isRecoverable (code : ℕ) : Bool :=
  code == stunErrorUnknownAttribute || code == stunErrorServerError || code == stunErrorUnauthorized ||
    code == stunErrorStaleCredentials || code == stunErrorRoleConflict

def onRequestErrorResponse (c : ℕ) (code : ℕ) : P2PTransportChannel :=
  if isRecoverable code then s
  else (s.modifyConnection c fun conn => { conn with state := .failed }).setWriteState c .timeout

def onData (c : ℕ) (now : Uint32) : P2PTransportChannel :=
  if s.test c fun conn => conn.readState == .readable then
    (s.modifyConnection c fun conn => { conn with lastDataReceived := now }).restartChecks c
  else s

def onIndication (c : ℕ) (now : Uint32) : P2PTransportChannel :=
  if ((s.portOf c).any (·.isStandardIce)) && s.test c fun conn => conn.readState == .readable then
    s.receivedPing c now
  else s

/-- The call that an arrival leads to. -/
def onConnectionEvent (c : ℕ) (now : Uint32) : ConnectionEvent → P2PTransportChannel
  | .request useCandidate => s.onBindingRequest c useCandidate now
  | .response elapsed prflx => s.onRequestResponse c elapsed prflx now
  | .errorResponse code => s.onRequestErrorResponse c code
  | .indication => s.onIndication c now
  | .data => s.onData c now
  | .destroy => (s.setReadState c .timeout).setWriteState c .timeout
  | .connected value => s.modifyConnection c fun conn => { conn with connected := value }

/-- What can happen to the channel. -/
inductive Event where
  | portReady (creates : Creates) (now : Uint32) (port : Port)
  | portTimeout (p : ℕ)
  | inferProtocol (p : ℕ) (protocol : IceProtocolType)
  | unknownAddress (creates : Creates) (now : Uint32) (p : ℕ) (address : SocketAddress)
      (proto : ProtocolType) (stunMsg : StunMessage) (remoteUsername : List Uint8) (portMuxed : Bool)
      (new : NewCandidate)
  | candidate (creates : Creates) (now : Uint32) (candidate : Candidate)
  | useCandidate (c : ℕ)
  | connection (c : ℕ) (now : Uint32) (event : ConnectionEvent)
  | message (m : Message) (now : Uint32)
  | setIceRole (role : IceRole)
  | setIceTiebreaker (tiebreaker : Uint64)
  | setIceProtocolType (type : IceProtocolType)
  | setIceCredentials (ufrag pwd : List Uint8)
  | setRemoteIceCredentials (ufrag pwd : List Uint8)
  | setRemoteIceMode (mode : IceMode)
  | setIncomingOnly (value : Bool)
  | connect
  | signalingReady
  | reset (connectRequested : Bool)

def step : Event → P2PTransportChannel
  | .portReady creates now port =>
    if port.session ∈ s.allocatorSessions then s.onPortReady creates now port else s
  | .portTimeout p => s.portTimeout p
  | .inferProtocol p protocol =>
    match s.portAt p with
    | some port => if port.isHybridIce then s.setPort p (port.setIceProtocolType protocol) else s
    | none => s
  | .unknownAddress creates now p address proto stunMsg remoteUsername portMuxed new =>
    s.onUnknownAddress creates now p address proto stunMsg remoteUsername portMuxed new
  | .candidate creates now candidate => s.onCandidate creates now candidate
  | .useCandidate c => if (s.connectionAt c).isSome then s.onUseCandidate c else s
  | .connection c now event => s.onConnectionEvent c now event
  | .message m now => if m ∈ s.messages then s.onMessage m now else s
  | .setIceRole role => s.setIceRole role
  | .setIceTiebreaker tiebreaker => s.setIceTiebreaker tiebreaker
  | .setIceProtocolType type => s.setIceProtocolType type
  | .setIceCredentials ufrag pwd => s.setIceCredentials ufrag pwd
  | .setRemoteIceCredentials ufrag pwd => s.setRemoteIceCredentials ufrag pwd
  | .setRemoteIceMode mode => s.setRemoteIceMode mode
  | .setIncomingOnly value => { s with incomingOnly := value }
  | .connect => s.connect
  | .signalingReady => s.onSignalingReady
  | .reset connectRequested => s.reset connectRequested

end P2PTransportChannel

end Libjingle.P2P
