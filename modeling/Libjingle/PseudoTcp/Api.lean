import Libjingle.PseudoTcp.Process
import Libjingle.Lib.Run

/-!
# The interface of `PseudoTcp`

* The public functions: `connect`, `recv`, `send`, `close`, `notifyMTU`, `notifyClock`,
  `notifyPacket`, `setOption`, `getNextClock`.

Callbacks do not call back into the object.
-/

namespace Libjingle

open Lib

namespace PseudoTcp

variable (s : PseudoTcp)

/-- `PseudoTcp::Connect`; `false` is the result `-1`. -/
def connect : PseudoTcp × Bool :=
  if s.state ≠ .listen then ({ s with error := .einval }, false)
  else (((s.setState .synSent).queueConnectMessage).attemptSend .none, true)

def notifyMTU (mtu : Uint16) : PseudoTcp :=
  let s := { s with mtuAdvise := mtu.setWidth 32 }
  if s.state = .established then s.adjustMTU else s

/-- The retransmission part of `NotifyClock`. -/
def clockRetransmit (now : Uint32) : PseudoTcp × Bool :=
  if s.rtoBase ≠ 0 ∧ timeDiff (s.rtoBase + s.rxRto) now ≤ 0 then
    if s.snd.slist = [] then (s.check .clockEmpty false, true)
    else
      match s.transmitFront now with
      | (s, false) => (s.closedown .econnaborted, false)
      | (s, true) =>
        -- the limit is lower when connecting
        let rtoLimit := if s.state.isConnecting then defRto else maxRto
        ({ s with
            ssthresh := max32 (s.nInFlight / 2) (2 * s.mss)
            cwnd := s.mss
            rxRto := min32 rtoLimit (s.rxRto * 2)
            rtoBase := now }, true)
  else (s, true)

def clockProbe (now : Uint32) : PseudoTcp × Bool :=
  if s.snd.sndWnd = 0 ∧ timeDiff (s.snd.lastsend + s.rxRto) now ≤ 0 then
    if timeDiff now s.rcv.lastrecv ≥ 15000 then (s.closedown .econnaborted, false)
    else
      let s := (s.packet (s.snd.sndNxt - 1) 0 0 0).1
      ({ s with snd.lastsend := now, rxRto := min32 maxRto (s.rxRto * 2) }, true)
  else (s, true)

def clockAck (now : Uint32) : PseudoTcp :=
  if s.tAck ≠ 0 ∧ timeDiff (s.tAck + s.ackDelay) now ≤ 0 then (s.packet s.snd.sndNxt 0 0 0).1
  else s

def notifyClock (now : Uint32) : PseudoTcp :=
  if s.state = .closed then s
  else
    match s.clockRetransmit now with
    | (s, false) => s
    | (s, true) =>
      match s.clockProbe now with
      | (s, false) => s
      | (s, true) => s.clockAck now

def notifyPacket (buffer : ℕ → Uint8) (len : ℕ) : PseudoTcp × Bool :=
  if len > maxPacket.toNat then (s, false) else s.parse buffer (u32 len)

def getNextClock (now : Uint32) : Option ℤ :=
  if s.shutdown = .forceful then none
  else if s.shutdown = .graceful ∧
      (s.state ≠ .established ∨ (s.snd.sbuf.getBuffered = 0 ∧ s.tAck = 0)) then none
  else if s.state = .closed then some closedTimeout
  else
    let t := defaultTimeout
    let t := if s.tAck ≠ 0 then min t (timeDiff (s.tAck + s.ackDelay) now) else t
    let t := if s.rtoBase ≠ 0 then min t (timeDiff (s.rtoBase + s.rxRto) now) else t
    let t := if s.snd.sndWnd = 0 then min t (timeDiff (s.snd.lastsend + s.rxRto) now) else t
    some t

def setOption (opt : TcpOption) (value : ℤ) : PseudoTcp :=
  match opt with
  | .nodelay => { s with useNagling := value = 0 }
  | .ackdelay => { s with ackDelay := BitVec.ofInt 32 value }
  | .sndbuf =>
    (s.check .optionState (s.state = .listen)).resizeSendBuffer (BitVec.ofInt 32 value)
  | .rcvbuf =>
    (s.check .optionState (s.state = .listen)).resizeReceiveBuffer (BitVec.ofInt 32 value)

def widenWindow (available : Uint32) : PseudoTcp :=
  if available - s.rcv.rcvWnd ≥ min32 (s.rcv.rbufLen / 2) s.mss then
    let bWasClosed := s.rcv.rcvWnd = 0
    let s := { s with rcv.rcvWnd := available }
    if bWasClosed then s.attemptSend .immediateAck else s
  else s

def reopenWindow : PseudoTcp :=
  let available := u32 s.rcv.rbuf.getWriteRemaining
  (s.check .recvWindow (s.rcv.rcvWnd ≤ available)).widenWindow available

/-- `PseudoTcp::Recv`; `none` is `SOCKET_ERROR`. -/
def recv (len : ℕ) : PseudoTcp × Option (List Uint8) :=
  if s.state ≠ .established then ({ s with error := .enotconn }, none)
  else
    match s.rcv.rbuf.read len with
    | (.block, _, rbuf) =>
      ({ s with rcv.rbuf := rbuf, readEnable := true, error := .ewouldblock }, none)
    | (result, out, rbuf) =>
      let s := s.check .recvResult (result = .success)
      ({ s with rcv.rbuf := rbuf }.reopenWindow, some out)

def send (data : ℕ → Uint8) (len : ℕ) : PseudoTcp × Option ℕ :=
  if s.state ≠ .established then ({ s with error := .enotconn }, none)
  else if s.snd.sbuf.getWriteRemaining = 0 then
    ({ s with writeEnable := true, error := .ewouldblock }, none)
  else
    let r := s.queue data (u32 len) false
    (r.1.attemptSend .none, some r.2.toNat)

def close (force : Bool) : PseudoTcp :=
  { s with shutdown := if force then .forceful else .graceful }

/-! ## Runs -/

/-- The calls of the interface. -/
inductive Op where
  | connect
  | recv (len : ℕ)
  | send (data : ℕ → Uint8) (len : ℕ)
  | close (force : Bool)
  | notifyMTU (mtu : Uint16)
  | notifyClock (now : Uint32)
  | notifyPacket (buffer : ℕ → Uint8) (len : ℕ)
  | setOption (opt : TcpOption) (value : ℤ)

/-- One call. -/
def step (s : PseudoTcp) : Op → PseudoTcp
  | .connect => s.connect.1
  | .recv len => (s.recv len).1
  | .send data len => (s.send data len).1
  | .close force => s.close force
  | .notifyMTU mtu => s.notifyMTU mtu
  | .notifyClock now => s.notifyClock now
  | .notifyPacket buffer len => (s.notifyPacket buffer len).1
  | .setOption opt value => s.setOption opt value

/-- What a call does to the outside. -/
def newEvents (s : PseudoTcp) (op : Op) : List Event := (s.step op).log.drop s.log.length

/-! ## A concrete peer -/

def calmWorld : World := ⟨fun _ => 1, fun _ => .success, fun _ => 0⟩

def Op.packet (p : Packet) : Op := .notifyPacket (ptr p.toBytes) p.toBytes.length

def connectReply : Packet where
  conv := 0
  seq := 0
  ack := 4
  flags := flagCtl
  wnd := 61440
  tsval := 0
  tsecr := 0
  payload := [0, 3, 1, 0]

/-- A packet without payload. -/
def plainAck (ack : Uint32) : Packet where
  conv := 0
  seq := 4
  ack := ack
  flags := 0
  wnd := 61440
  tsval := 0
  tsecr := 0
  payload := []

/-- Data from a peer that has sent its CONNECT only. -/
def dataPacket (seq : Uint32) (payload : List Uint8) : Packet :=
  { plainAck 4 with seq := seq, payload := payload }

def dataSegment (seq : Uint32) (data : List Uint8) : Segment where
  conv := 0
  seq := seq
  ack := 4
  flags := 0
  wnd := 61440
  data := ptr data
  len := u32 data.length
  tsval := 0
  tsecr := 0

end PseudoTcp

end Libjingle
