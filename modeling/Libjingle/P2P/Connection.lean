import Libjingle.Ice.Session
import Libjingle.Turn.Connection

/-!
# Candidates, ports and connections (`p2p/base/candidate.h`, `p2p/base/port.{h,cc}`)

The members of a connection and of its port that the channel over them uses. Objects are on heaps, and
a pointer to one is a number.

* `compareConnections`, `connectionCompare`, `shouldSwitch`: how the channel compares connections.

A time is `talk_base::Time()`, in milliseconds, and wraps.
-/

namespace Libjingle.P2P

open Lib

/-! ## Candidates -/

/-- `IceProtocolType`. -/
inductive IceProtocolType where
  | google | hybrid | rfc5245
  deriving DecidableEq, Repr

/-- `IceMode`. -/
inductive IceMode where
  | full | lite
  deriving DecidableEq, Repr

/-- `Candidate`. -/
structure Candidate where
  id : List Uint8
  component : ℕ
  protocol : List Uint8
  address : SocketAddress
  priority : Uint32
  username : List Uint8
  password : List Uint8
  type : List Uint8
  networkName : List Uint8
  generation : Uint32
  foundation : List Uint8
  relatedAddress : SocketAddress
  deriving DecidableEq, Repr

def Candidate.isEquivalent (a b : Candidate) : Bool :=
  a.id == b.id && a.component == b.component && a.protocol == b.protocol &&
    a.address.equal b.address && a.username == b.username && a.password == b.password &&
    a.type == b.type && a.generation == b.generation && a.foundation == b.foundation &&
    a.relatedAddress.equal b.relatedAddress

/-- `RemoteCandidate`: a candidate and the port it came in on. -/
structure RemoteCandidate where
  candidate : Candidate
  originPort : Option ℕ

/-- `PortInterface::CandidateOrigin`. -/
inductive CandidateOrigin where
  | thisPort | otherPort | message
  deriving DecidableEq, Repr

/-- `GetOrigin`. -/
def getOrigin (port : ℕ) (originPort : Option ℕ) : CandidateOrigin :=
  match originPort with
  | none => .message
  | some origin => if port = origin then .thisPort else .otherPort

def localPortType : List Uint8 := text "local"
def stunPortType : List Uint8 := text "stun"
def prflxPortType : List Uint8 := text "prflx"
def relayPortType : List Uint8 := text "relay"

/-- `ProtoToString`. -/
def protoToString : ProtocolType → List Uint8
  | .udp => text "udp"
  | .tcp => text "tcp"
  | .ssltcp => text "ssltcp"

abbrev iceTypePreferenceSrflx : Uint32 := 100

def getPriority (typePreference networkAdapterPreference addrPref component : Uint32) : Uint32 :=
  let localPreference := networkAdapterPreference <<< 8 ||| addrPref
  typePreference <<< 24 ||| localPreference <<< 8 ||| (256 - component)

/-! ## Ports -/

/-- `talk_base::Network`, known by its number. -/
structure Network where
  id : ℕ
  name : List Uint8
  preference : Uint32
  deriving DecidableEq, Repr

/-- The members of `Port` that are used; `session` owns the port, `connections` is the
`AddressMap`. -/
structure Port where
  session : ℕ
  type : List Uint8
  network : Network
  generation : Uint32
  sharedSocket : Bool
  iceProtocol : IceProtocolType
  iceRole : IceRole
  tiebreaker : Uint64
  connections : List (SocketAddress × ℕ)

namespace Port

def getConnection (port : Port) (remoteAddr : SocketAddress) : Option ℕ :=
  (port.connections.find? fun e => e.1.equal remoteAddr).map Prod.snd

def addConnection (port : Port) (remoteAddr : SocketAddress) (conn : ℕ) : Port :=
  { port with
    connections := (port.connections.filter fun e => !e.1.equal remoteAddr) ++ [(remoteAddr, conn)] }

/-- `OnConnectionDestroyed`, as far as the map goes. -/
def removeConnection (port : Port) (remoteAddr : SocketAddress) : Port :=
  { port with connections := port.connections.filter fun e => !e.1.equal remoteAddr }

def setIceProtocolType (port : Port) (protocol : IceProtocolType) : Port :=
  { port with iceProtocol := protocol }

def setIceRole (port : Port) (role : IceRole) : Port := { port with iceRole := role }

def setIceTiebreaker (port : Port) (tiebreaker : Uint64) : Port := { port with tiebreaker := tiebreaker }

def isStandardIce (port : Port) : Bool := port.iceProtocol == .rfc5245

def isGoogleIce (port : Port) : Bool := port.iceProtocol == .google

def isHybridIce (port : Port) : Bool := port.iceProtocol == .hybrid

end Port

/-! ## Connections -/

/-- `Connection::ReadState`. -/
inductive ReadState where
  | init | readable | timeout
  deriving DecidableEq, Repr

/-- `Connection::WriteState`. -/
inductive WriteState where
  | writable | unreliable | init | timeout
  deriving DecidableEq, Repr

/-- The order of the write states, best first. -/
def WriteState.toNat : WriteState → ℕ
  | writable => 0
  | unreliable => 1
  | init => 2
  | timeout => 3

/-- `Connection::State`, of the connectivity check. -/
inductive CheckState where
  | waiting | inProgress | succeeded | failed
  deriving DecidableEq, Repr

abbrev connectionReadTimeout : Uint32 := 30 * 1000
abbrev connectionWriteTimeout : Uint32 := 15 * 1000
abbrev connectionWriteConnectTimeout : Uint32 := 5 * 1000
abbrev connectionWriteConnectFailures : ℕ := 5
abbrev minimumRtt : Uint32 := 100
abbrev maximumRtt : Uint32 := 3000

/-- The members of `Connection`; `localPriority` is the priority of the local candidate. -/
structure Connection where
  port : ℕ
  localPriority : Uint32
  remoteCandidate : Candidate
  readState : ReadState := .init
  writeState : WriteState := .init
  connected : Bool := true
  pruned : Bool := false
  useCandidateAttr : Bool := false
  remoteIceMode : IceMode := .full
  rtt : Uint32 := maximumRtt
  lastPingSent : Uint32 := 0
  lastPingReceived : Uint32 := 0
  lastDataReceived : Uint32 := 0
  lastPingResponseReceived : Uint32 := 0
  pingsSinceLastResponse : List Uint32 := []
  state : CheckState := .waiting

/-- `TooManyFailures`. -/
def tooManyFailures (pings : List Uint32) (maximumFailures : ℕ) (rttEstimate now : Uint32) : Bool :=
  if pings.length < maximumFailures then false
  else (pings.getD (maximumFailures - 1) 0 + rttEstimate) < now

/-- `TooLongWithoutResponse`. -/
def tooLongWithoutResponse (pings : List Uint32) (maximumTime now : Uint32) : Bool :=
  match pings with
  | [] => false
  | first :: _ => first + maximumTime < now

def conservativeRTTEstimate (rtt : Uint32) : Uint32 :=
  let capped := if 2 * rtt < maximumRtt then 2 * rtt else maximumRtt
  if capped > minimumRtt then capped else minimumRtt

namespace Connection

variable (c : Connection)

def writable : Bool := c.writeState == .writable

/-- The test of `CheckTimeout`. -/
def isTimedOut : Bool :=
  (c.readState == .timeout || c.readState == .init) && c.writeState == .timeout

/-- `Connection::priority`, the formula of RFC 5245. -/
def priority (role : IceRole) : Uint64 :=
  let pair (g d : Uint32) : Uint64 :=
    let low := if g < d then g else d
    let high := if g > d then g else d
    -- the second summand is one of 32 bits
    low.setWidth 64 <<< 32 + (2 * high + if g > d then 1 else 0).setWidth 64
  match role with
  | .unknown => 0
  | .controlling => pair c.localPriority c.remoteCandidate.priority
  | .controlled => pair c.remoteCandidate.priority c.localPriority

/-- The test of `UpdateState` for the read state. -/
def readTimesOut (googleIce : Bool) (now : Uint32) : Bool :=
  googleIce && c.readState == .readable &&
    c.lastPingReceived + connectionReadTimeout ≤ now &&
    c.lastDataReceived + connectionReadTimeout ≤ now

/-- The first test of `UpdateState` for the write state. -/
def becomesUnreliable (now : Uint32) : Bool :=
  c.writeState == .writable &&
    tooManyFailures c.pingsSinceLastResponse connectionWriteConnectFailures
      (conservativeRTTEstimate c.rtt) now &&
    tooLongWithoutResponse c.pingsSinceLastResponse connectionWriteConnectTimeout now

/-- The second test of `UpdateState` for the write state. -/
def writeTimesOut (now : Uint32) : Bool :=
  (c.writeState == .unreliable || c.writeState == .init) &&
    tooLongWithoutResponse c.pingsSinceLastResponse connectionWriteTimeout now

end Connection

/-! ## Comparisons (`p2p/base/p2ptransportchannel.cc`) -/

/-- A connection with its port, as the comparisons see it. -/
structure Pair where
  connection : Connection
  port : Port

namespace Pair

/-- The priority of the connection for the role of the port. -/
def priority (a : Pair) : Uint64 := a.connection.priority a.port.iceRole

def generation (a : Pair) : Uint32 := a.connection.remoteCandidate.generation + a.port.generation

end Pair

def compareConnectionCandidates (a b : Pair) : ℤ :=
  if a.priority > b.priority then 1
  else if a.priority < b.priority then -1
  else (a.generation - b.generation).toInt

/-- `CompareConnections`. -/
def compareConnections (a b : Pair) : ℤ :=
  if a.connection.writeState.toNat < b.connection.writeState.toNat then 1
  else if a.connection.writeState.toNat > b.connection.writeState.toNat then -1
  else compareConnectionCandidates a b

/-- `ConnectionCompare::operator()`. -/
def connectionCompare (a b : Pair) : Bool :=
  let cmp := compareConnections a b
  if cmp > 0 then true
  else if cmp < 0 then false
  else a.connection.rtt < b.connection.rtt

abbrev kMinImprovement : ℕ := 10

def shouldSwitchPair (a b : Pair) : Bool :=
  let prefsCmp := compareConnections a b
  if prefsCmp < 0 then true
  else if prefsCmp > 0 then false
  else b.connection.rtt.toNat ≤ a.connection.rtt.toNat + kMinImprovement

end Libjingle.P2P
