import Libjingle.Fifo.Model
import Libjingle.Base.Time

/-!
# The state of a `PseudoTcp` (`p2p/base/pseudotcp.{h,cc}`)

* The network constants of `pseudotcp.cc` and the wire format of a packet (`Packet.toBytes`).

`faults` is not part of the source: it records every `ASSERT` that failed, every unsigned
subtraction that wrapped where the code relies on it not to, every use of an iterator at the end
of its list, and every cast to 16 bits that lost bits. Execution goes on after a fault, as it does
in a build without assertions.
-/

namespace Libjingle

open Lib

/-! ## Constants -/

/-- `PACKET_MAXIMUMS`, the standard MTUs. -/
def packetMaximums : List Uint16 :=
  [65535, 32000, 17914, 8166, 4352, 2002, 1492, 1006, 508, 296, 0]

abbrev maxPacket : Uint32 := 65535#32
abbrev minPacket : Uint32 := 296#32
abbrev headerSize : Uint32 := 24#32
/-- The header sizes of a packet together. -/
abbrev packetOverhead : Uint32 := 116#32
abbrev defaultRcvBufSize : Uint32 := 61440#32
abbrev defaultSndBufSize : Uint32 := 92160#32
abbrev minRto : Uint32 := 250#32
abbrev defRto : Uint32 := 3000#32
abbrev maxRto : Uint32 := 60000#32
abbrev defAckDelay : Uint32 := 100#32
abbrev flagCtl : Uint8 := 2#8
abbrev flagRst : Uint8 := 4#8
abbrev ctlConnect : Uint8 := 0#8
abbrev tcpOptEol : Uint8 := 0#8
abbrev tcpOptNoop : Uint8 := 1#8
abbrev tcpOptWndScale : Uint8 := 3#8
abbrev defaultTimeout : ℤ := 4000
abbrev closedTimeout : ℤ := 60000

/-! ## Helper functions -/

/-- `talk_base::_min` of words. -/
def min32 (a b : Uint32) : Uint32 := if a > b then b else a

/-- `talk_base::_max` of words. -/
def max32 (a b : Uint32) : Uint32 := if a < b then b else a

/-- `bound`. -/
def bound (lower middle upper : Uint32) : Uint32 := min32 (max32 lower middle) upper

/-- The cast of a `size_t` to `uint32`. -/
abbrev u32 (n : ℕ) : Uint32 := BitVec.ofNat 32 n

/-- `long_to_bytes`. -/
def longToBytes (v : Uint32) : List Uint8 :=
  [(v >>> 24).setWidth 8, (v >>> 16).setWidth 8, (v >>> 8).setWidth 8, v.setWidth 8]

/-- `short_to_bytes`. -/
def shortToBytes (v : Uint16) : List Uint8 := [(v >>> 8).setWidth 8, v.setWidth 8]

/-- `bytes_to_long`. -/
def bytesToLong (buffer : ℕ → Uint8) (p : ℕ) : Uint32 :=
  u32 ((buffer p).toNat * 0x1000000 + (buffer (p + 1)).toNat * 0x10000 +
    (buffer (p + 2)).toNat * 0x100 + (buffer (p + 3)).toNat)

/-- `bytes_to_short`. -/
def bytesToShort (buffer : ℕ → Uint8) (p : ℕ) : Uint16 :=
  BitVec.ofNat 16 ((buffer p).toNat * 0x100 + (buffer (p + 1)).toNat)

/-! ## Enumerations -/

/-- `PseudoTcp::TcpState`. -/
inductive TcpState where
  | listen | synSent | synReceived | established | closed
  deriving DecidableEq, Repr

def TcpState.isConnecting : TcpState → Bool
  | .listen | .synSent | .synReceived => true
  | .established | .closed => false

/-- `IPseudoTcpNotify::WriteResult`. -/
inductive WriteResult where
  | success | tooLarge | fail
  deriving DecidableEq, Repr

/-- `PseudoTcp::SendFlags`. -/
inductive SendFlags where
  | none | delayedAck | immediateAck
  deriving DecidableEq, Repr

/-- `PseudoTcp::Shutdown`. -/
inductive Shutdown where
  | none | graceful | forceful
  deriving DecidableEq, Repr

/-- The values of `m_error` and of the argument of `OnTcpClosed`. -/
inductive Errno where
  | ok | einval | enotconn | ewouldblock | econnaborted | econnreset
  deriving DecidableEq, Repr

/-- `PseudoTcp::Option`. -/
inductive TcpOption where
  | nodelay | ackdelay | rcvbuf | sndbuf
  deriving DecidableEq, Repr

/-! ## Segments and packets -/

/-- `PseudoTcp::Segment`, a parsed packet. -/
structure Segment where
  conv : Uint32
  seq : Uint32
  ack : Uint32
  flags : Uint8
  wnd : Uint16
  data : ℕ → Uint8
  len : Uint32
  tsval : Uint32
  tsecr : Uint32

/-- `PseudoTcp::SSegment`, an entry of the send queue. -/
structure SSegment where
  seq : Uint32
  len : Uint32
  xmit : Uint8
  bCtrl : Bool
  deriving DecidableEq, Repr

def SSegment.mk' (seq len : Uint32) (bCtrl : Bool) : SSegment := ⟨seq, len, 0, bCtrl⟩

def SSegment.flags (seg : SSegment) : Uint8 := if seg.bCtrl then flagCtl else 0

/-- `PseudoTcp::RSegment`, an entry of the reassembly list. -/
structure RSegment where
  seq : Uint32
  len : Uint32
  deriving DecidableEq, Repr

def RSegment.fin (r : RSegment) : Uint32 := r.seq + r.len

/-- What `packet` hands to `TcpWritePacket`, field by field. -/
structure Packet where
  conv : Uint32
  seq : Uint32
  ack : Uint32
  flags : Uint8
  wnd : Uint16
  tsval : Uint32
  tsecr : Uint32
  payload : List Uint8
  deriving DecidableEq, Repr

/-- The bytes of a packet as they are sent. -/
def Packet.toBytes (p : Packet) : List Uint8 :=
  longToBytes p.conv ++ longToBytes p.seq ++ longToBytes p.ack ++ [0, p.flags] ++
    shortToBytes p.wnd ++ longToBytes p.tsval ++ longToBytes p.tsecr ++ p.payload

/-- What a `PseudoTcp` does to its surroundings. -/
inductive Event where
  | tcpWritePacket (p : Packet) (result : WriteResult)
  | onTcpOpen
  | onTcpReadable
  | onTcpWriteable
  | onTcpClosed (err : Errno)
  | logState (st : TcpState)
  deriving DecidableEq, Repr

/-- The checks of the code, explicit (`ASSERT`) and implicit. -/
inductive Fault where
  | queueCtrl
  | packetSize
  | readResult
  | bytesRead
  | windowCast
  | negativeRtt
  | consumeRead
  | ackEmpty
  | transmitEnd
  | searchEnd
  | inFlight
  | writeOffset
  | consumeWrite
  | rcvWnd
  | recvWindow
  | recvResult
  | clockEmpty
  | resize
  | optionState
  deriving DecidableEq, Repr

/-! ## The object -/

/-- The incoming half of the control block. -/
structure Incoming where
  rlist : List RSegment
  rbufLen : Uint32
  rcvNxt : Uint32
  rcvWnd : Uint32
  lastrecv : Uint32
  rwndScale : Uint8
  rbuf : FifoBuffer

/-- The outgoing half of the control block. -/
structure Outgoing where
  slist : List SSegment
  sbufLen : Uint32
  sndNxt : Uint32
  sndWnd : Uint32
  lastsend : Uint32
  sndUna : Uint32
  swndScale : Uint8
  sbuf : FifoBuffer

/-- `PseudoTcp`, with the world around it and a log of what it does. -/
structure PseudoTcp where
  shutdown : Shutdown
  error : Errno
  -- TCB data
  state : TcpState
  conv : Uint32
  readEnable : Bool
  writeEnable : Bool
  outgoing : Bool
  lasttraffic : Uint32
  rcv : Incoming
  snd : Outgoing
  -- maximum segment size, estimated protocol level, largest segment sent
  mss : Uint32
  msslevel : Uint32
  largest : Uint32
  mtuAdvise : Uint32
  -- retransmit timer
  rtoBase : Uint32
  -- timestamp tracking
  tsRecent : Uint32
  tsLastack : Uint32
  -- round-trip calculation
  rxRttvar : Uint32
  rxSrtt : Uint32
  rxRto : Uint32
  -- congestion avoidance, fast retransmit and recovery, delayed acks
  ssthresh : Uint32
  cwnd : Uint32
  dupAcks : Uint8
  recover : Uint32
  tAck : Uint32
  -- configuration options
  useNagling : Bool
  ackDelay : Uint32
  supportWndScale : Bool
  -- surroundings
  clock : ℕ → Uint32
  results : ℕ → WriteResult
  heap : ℕ → Uint8
  log : List Event
  faults : List Fault

namespace PseudoTcp

/-- What the code asks of its surroundings. -/
structure World where
  clock : ℕ → Uint32
  results : ℕ → WriteResult
  heap : ℕ → Uint8

/-- `PseudoTcp::PseudoTcp`. -/
def new (w : World) (conv : Uint32) : PseudoTcp where
  shutdown := .none
  error := .ok
  state := .listen
  conv := conv
  readEnable := true
  writeEnable := false
  outgoing := false
  lasttraffic := w.clock 0
  rcv := {
    rlist := []
    rbufLen := defaultRcvBufSize
    rcvNxt := 0
    rcvWnd := defaultRcvBufSize
    lastrecv := w.clock 0
    rwndScale := 0
    rbuf := .new 61440 w.heap }
  snd := {
    slist := []
    sbufLen := defaultSndBufSize
    sndNxt := 0
    sndWnd := 1
    lastsend := w.clock 0
    sndUna := 0
    swndScale := 0
    sbuf := .new 92160 w.heap }
  mss := minPacket - packetOverhead
  msslevel := 0
  largest := 0
  mtuAdvise := maxPacket
  rtoBase := 0
  tsRecent := 0
  tsLastack := 0
  rxRttvar := 0
  rxSrtt := 0
  rxRto := defRto
  ssthresh := defaultRcvBufSize
  cwnd := 2 * (minPacket - packetOverhead)
  dupAcks := 0
  recover := 0
  tAck := 0
  useNagling := true
  ackDelay := defAckDelay
  supportWndScale := true
  clock := fun n => w.clock (n + 1)
  results := w.results
  heap := w.heap
  log := []
  faults := []

variable (s : PseudoTcp)

/-- `Now()`. -/
def now : Uint32 := s.clock 0

def tick : PseudoTcp := { s with clock := fun n => s.clock (n + 1) }

/-- Something done to the outside. -/
def emit (e : Event) : PseudoTcp := { s with log := s.log ++ [e] }

/-- Record a fault unless `c` holds. -/
def check (fault : Fault) (c : Bool) : PseudoTcp :=
  if c then s else { s with faults := s.faults ++ [fault] }

/-- An assignment to `m_state`, with its log line. -/
def setState (st : TcpState) : PseudoTcp := ({ s with state := st }).emit (.logState st)

def nInFlight : Uint32 := s.snd.sndNxt - s.snd.sndUna

/-- The window field of a packet. -/
def windowField : Uint16 := (s.rcv.rcvWnd >>> s.rcv.rwndScale.toNat).setWidth 16

end PseudoTcp

end Libjingle
