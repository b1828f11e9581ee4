import Libjingle.PseudoTcp.Send

/-!
# The receive path of `PseudoTcp`

`process` is cut into the pieces its comments mark, in the order of the source.
-/

namespace Libjingle

open Lib

namespace PseudoTcp

variable (s : PseudoTcp)

/-! ## Closing and opening -/

def closedown (err : Errno) : PseudoTcp := (s.setState .closed).emit (.onTcpClosed err)

/-- The search of `adjustMTU` from level `i` on. -/
def msslevelFrom (mtu : Uint32) : List Uint16 → ℕ → ℕ
  | m :: m' :: rest, i =>
    if m' > 0 then (if m.setWidth 32 ≤ mtu then i else msslevelFrom mtu (m' :: rest) (i + 1)) else i
  | _, i => i

def adjustMTU : PseudoTcp :=
  let mss := s.mtuAdvise - packetOverhead
  { s with
    msslevel := u32 (msslevelFrom s.mtuAdvise packetMaximums 0)
    mss := mss
    ssthresh := max32 s.ssthresh (2 * mss)
    cwnd := max32 s.cwnd mss }

def establish : PseudoTcp := ((s.setState .established).adjustMTU).emit .onTcpOpen

/-! ## Options -/

def resizeSendBuffer (newSize : Uint32) : PseudoTcp :=
  { s with
    snd.sbufLen := newSize
    snd.sbuf := (s.snd.sbuf.setCapacity newSize.toNat s.heap).2 }

def scaleDown : ℕ → Uint32 → Uint8 → Uint32 × Uint8
  | 0, newSize, scale => (newSize, scale)
  | fuel + 1, newSize, scale =>
    if newSize > 0xFFFF#32 then scaleDown fuel (newSize >>> 1) (scale + 1) else (newSize, scale)

def scaledSize (newSize : Uint32) : Uint32 :=
  (scaleDown 16 newSize 0).1 <<< (scaleDown 16 newSize 0).2.toNat

def resizeReceiveBuffer (newSize : Uint32) : PseudoTcp :=
  let scale := (scaleDown 16 newSize 0).2
  let size := scaledSize newSize
  let r := s.rcv.rbuf.setCapacity size.toNat s.heap
  let s := s.check .resize r.1
  { s with
    rcv.rbuf := r.2
    rcv.rbufLen := size
    rcv.rwndScale := scale
    ssthresh := size
    rcv.rcvWnd := u32 r.2.getWriteRemaining }

def applyOption (kind : Uint8) (data : List Uint8) : PseudoTcp :=
  if kind = tcpOptWndScale ∧ data.length = 1 then { s with snd.swndScale := data.headD 0 } else s

def parseOptionsLoop : ℕ → List Uint8 → List Uint8 → PseudoTcp → PseudoTcp × Option (List Uint8)
  | 0, _, kinds, s => (s, some kinds)
  | _ + 1, [], kinds, s => (s, some kinds)
  | fuel + 1, kind :: buf, kinds, s =>
    if kind = tcpOptEol then (s, some kinds)
    else if kind = tcpOptNoop then parseOptionsLoop fuel buf kinds s
    else
      let optLen := (buf.headD 0).toNat
      let buf := buf.drop 1
      if optLen ≤ buf.length then
        parseOptionsLoop fuel (buf.drop optLen) (kind :: kinds)
          (s.applyOption kind (buf.take optLen))
      else (s, none)

def parseOptions (data : List Uint8) : PseudoTcp :=
  match parseOptionsLoop data.length data [] s with
  | (s, some kinds) =>
    if tcpOptWndScale ∉ kinds ∧ s.rcv.rwndScale > 0 then
      { s.resizeReceiveBuffer defaultRcvBufSize with snd.swndScale := 0 }
    else s
  | (s, none) => s

/-! ## Control segments -/

def connectReceived : PseudoTcp :=
  match s.state with
  | .listen => (s.setState .synReceived).queueConnectMessage
  | .synSent => s.establish
  | _ => s

def control (seg : Segment) : PseudoTcp × Option Bool :=
  if seg.flags &&& flagCtl = 0 then (s, some false)
  else if seg.len = 0 then (s, none)
  else if seg.data 0 = ctlConnect then
    ((s.parseOptions (block seg.data 1 (seg.len - 1).toNat)).connectReceived, some true)
  else (s, none)

/-- The part of `process` for the timestamp. -/
def updateTimestamp (seg : Segment) : PseudoTcp :=
  if seg.seq ≤ s.tsLastack ∧ s.tsLastack < seg.seq + seg.len then { s with tsRecent := seg.tsval }
  else s

/-! ## Acknowledgements -/

/-- The round-trip part of `process`. -/
def updateRtt (tsecr now : Uint32) : PseudoTcp :=
  if tsecr = 0 then s
  else if timeDiff now tsecr < 0 then s.check .negativeRtt false
  else
    let rtt := now - tsecr
    let absErr := if rtt > s.rxSrtt then rtt - s.rxSrtt else s.rxSrtt - rtt
    let rttvar := if s.rxSrtt = 0 then rtt / 2 else (3 * s.rxRttvar + absErr) / 4
    let srtt := if s.rxSrtt = 0 then rtt else (7 * s.rxSrtt + rtt) / 8
    { s with
      rxRttvar := rttvar
      rxSrtt := srtt
      rxRto := bound minRto (srtt + max32 1 (4 * rttvar)) maxRto }

def freeAcked : List SSegment → Uint32 → Uint32 → List SSegment × Uint32 × Bool
  | [], nFree, largest => ([], largest, nFree = 0)
  | seg :: rest, nFree, largest =>
    if nFree = 0 then (seg :: rest, largest, true)
    else if nFree < seg.len then ({ seg with len := seg.len - nFree } :: rest, largest, true)
    else freeAcked rest (nFree - seg.len) (if seg.len > largest then seg.len else largest)

def announcedWindow (seg : Segment) : Uint32 := seg.wnd.setWidth 32 <<< s.snd.swndScale.toNat

/-- `m_snd_una` moves to `ack`, and bytes are freed. -/
def advanceUna (ack now : Uint32) : PseudoTcp :=
  let nAcked := ack - s.snd.sndUna
  let s := { s with snd.sndUna := ack, rtoBase := if ack = s.snd.sndNxt then 0 else now }
  let s := s.check .consumeRead (s.snd.sbuf.consumeReadAssert nAcked.toNat)
  let r := freeAcked s.snd.slist nAcked s.largest
  let s := s.check .ackEmpty r.2.2
  { s with
    snd.sbuf := s.snd.sbuf.consumeReadData nAcked.toNat
    snd.slist := r.1
    largest := r.2.1 }

def ackCongestion (nAcked now : Uint32) : PseudoTcp × Bool :=
  if s.dupAcks ≥ 3 then
    if s.snd.sndUna ≥ s.recover then
      ({ s with cwnd := min32 s.ssthresh (s.nInFlight + s.mss), dupAcks := 0 }, true)
    else
      match s.transmitFront now with
      | (s, true) => ({ s with cwnd := s.cwnd + (s.mss - min32 nAcked s.cwnd) }, true)
      | (s, false) => (s, false)
  else
    ({ s with
        dupAcks := 0
        cwnd := s.cwnd + (if s.cwnd < s.ssthresh then s.mss
          else max32 1 (s.mss * s.mss / s.cwnd)) }, true)

def duplicateAck (now : Uint32) : PseudoTcp × Bool :=
  let s := { s with dupAcks := s.dupAcks + 1 }
  if s.dupAcks = 3 then
    match s.transmitFront now with
    | (s, true) =>
      let ssthresh := max32 (s.nInFlight / 2) (2 * s.mss)
      ({ s with recover := s.snd.sndNxt, ssthresh := ssthresh, cwnd := ssthresh + 3 * s.mss }, true)
    | (s, false) => (s, false)
  else if s.dupAcks > 3 then ({ s with cwnd := s.cwnd + s.mss }, true)
  else (s, true)

def isValuable (ack : Uint32) : Bool := s.snd.sndUna < ack && ack ≤ s.snd.sndNxt

def handleAck (seg : Segment) (now : Uint32) : PseudoTcp × Bool :=
  if s.isValuable seg.ack then
    let nAcked := seg.ack - s.snd.sndUna
    let s := s.updateRtt seg.tsecr now
    let s := { s with snd.sndWnd := s.announcedWindow seg }
    (s.advanceUna seg.ack now).ackCongestion nAcked now
  else if seg.ack = s.snd.sndUna then
    let s := { s with snd.sndWnd := s.announcedWindow seg }
    if seg.len > 0 then (s, true)
    else if s.snd.sndUna ≠ s.snd.sndNxt then s.duplicateAck now
    else ({ s with dupAcks := 0 }, true)
  else (s, true)

/-- The acknowledgement part of `process`. -/
def processAck (seg : Segment) (now : Uint32) : PseudoTcp × Bool :=
  match s.handleAck seg now with
  | (s, true) => (s, true)
  | (s, false) => (s.closedown .econnaborted, false)

/-! ## Notifications -/

def openIfSynReceived (bConnect : Bool) : PseudoTcp :=
  if s.state = .synReceived ∧ !bConnect then s.establish else s

/-- Tell the user that the send queue has room again. -/
def notifyWriteable : PseudoTcp :=
  let kIdealRefillSize := (s.snd.sbufLen + s.rcv.rbufLen) / 2
  if s.writeEnable ∧ u32 s.snd.sbuf.getBuffered < kIdealRefillSize then
    { s with writeEnable := false }.emit .onTcpWriteable
  else s

/-- The end of `process`. -/
def notifyReadable (bNewData : Bool) : PseudoTcp :=
  if bNewData ∧ s.readEnable then { s with readEnable := false }.emit .onTcpReadable else s

/-! ## Payload -/

def ackFlags (seg : Segment) : SendFlags :=
  if seg.seq ≠ s.rcv.rcvNxt then .immediateAck
  else if seg.len ≠ 0 then (if s.ackDelay = 0 then .immediateAck else .delayedAck)
  else .none

def trimLeft (seg : Segment) : Segment :=
  if seg.seq < s.rcv.rcvNxt then
    let nAdjust := s.rcv.rcvNxt - seg.seq
    if nAdjust < seg.len then
      { seg with
        seq := seg.seq + nAdjust
        data := fun i => seg.data (nAdjust.toNat + i)
        len := seg.len - nAdjust }
    else { seg with len := 0 }
  else seg

/-- Bytes that do not fit the free space are cut off. -/
def trimRight (seg : Segment) : Segment :=
  let available := u32 s.rcv.rbuf.getWriteRemaining
  if seg.seq + seg.len - s.rcv.rcvNxt > available then
    let nAdjust := seg.seq + seg.len - s.rcv.rcvNxt - available
    { seg with len := if nAdjust < seg.len then seg.len - nAdjust else 0 }
  else seg

def trim (seg : Segment) : Segment := s.trimRight (s.trimLeft seg)

/-- Make `n` stored bytes readable. -/
def consume (n : Uint32) : PseudoTcp :=
  let s := s.check .consumeWrite (s.rcv.rbuf.consumeWriteAssert n.toNat)
  let s := s.check .rcvWnd (n ≤ s.rcv.rcvWnd)
  { s with
    rcv.rbuf := s.rcv.rbuf.consumeWriteBuffer n.toNat
    rcv.rcvNxt := s.rcv.rcvNxt + n
    rcv.rcvWnd := s.rcv.rcvWnd - n }

def recoverLoop : List RSegment → PseudoTcp → Bool → PseudoTcp × Bool
  | [], s, acked => ({ s with rcv.rlist := [] }, acked)
  | r :: rest, s, acked =>
    if r.seq ≤ s.rcv.rcvNxt then
      if r.fin > s.rcv.rcvNxt then recoverLoop rest (s.consume (r.fin - s.rcv.rcvNxt)) true
      else recoverLoop rest s acked
    else ({ s with rcv.rlist := r :: rest }, acked)

def insertRlist (rseg : RSegment) : List RSegment → List RSegment
  | [] => [rseg]
  | r :: rest => if r.seq < rseg.seq then r :: insertRlist rseg rest else rseg :: r :: rest

def ignoresData (seg : Segment) : Bool := seg.flags &&& flagCtl ≠ 0 || s.shutdown ≠ .none

def writePayload (seg : Segment) : PseudoTcp :=
  let r := s.rcv.rbuf.writeOffset seg.data seg.len.toNat (seg.seq - s.rcv.rcvNxt).toNat
  let s := s.check .writeOffset (r.1 = .success)
  { s with rcv.rbuf := r.2.2 }

def store (seg : Segment) (sflags : SendFlags) : PseudoTcp × SendFlags × Bool :=
  let s := s.writePayload seg
  if seg.seq = s.rcv.rcvNxt then
    let s := s.consume seg.len
    let r := recoverLoop s.rcv.rlist s false
    (r.1, if r.2 then .immediateAck else sflags, true)
  else ({ s with rcv.rlist := insertRlist ⟨seg.seq, seg.len⟩ s.rcv.rlist }, sflags, false)

def receive (seg : Segment) (sflags : SendFlags) : PseudoTcp × SendFlags × Bool :=
  if seg.len = 0 then (s, sflags, false)
  else if s.ignoresData seg then
    (if seg.seq = s.rcv.rcvNxt then { s with rcv.rcvNxt := s.rcv.rcvNxt + seg.len } else s,
      sflags, false)
  else s.store seg sflags

/-! ## The whole -/

def processData (seg : Segment) (bConnect : Bool) : PseudoTcp :=
  let s := (s.openIfSynReceived bConnect).notifyWriteable
  let r := s.receive (s.trim seg) (s.ackFlags seg)
  (r.1.attemptSend r.2.1).notifyReadable r.2.2

def processSegment (seg : Segment) (now : Uint32) : PseudoTcp × Bool :=
  match s.control seg with
  | (s, none) => (s, false)
  | (s, some bConnect) =>
    match (s.updateTimestamp seg).processAck seg now with
    | (s, false) => (s, false)
    | (s, true) => (s.processData seg bConnect, true)

def noteTraffic : PseudoTcp :=
  { s.tick with lasttraffic := s.now, rcv.lastrecv := s.now, outgoing := false }

def process (seg : Segment) : PseudoTcp × Bool :=
  if seg.conv ≠ s.conv then (s, false)
  else if s.state = .closed then (s.noteTraffic, false)
  else if seg.flags &&& flagRst ≠ 0 then (s.noteTraffic.closedown .econnreset, false)
  else s.noteTraffic.processSegment seg s.now

def parseSegment (buffer : ℕ → Uint8) (size : Uint32) : Segment where
  conv := bytesToLong buffer 0
  seq := bytesToLong buffer 4
  ack := bytesToLong buffer 8
  flags := buffer 13
  wnd := bytesToShort buffer 14
  data := fun i => buffer (24 + i)
  len := size - headerSize
  tsval := bytesToLong buffer 16
  tsecr := bytesToLong buffer 20

def parse (buffer : ℕ → Uint8) (size : Uint32) : PseudoTcp × Bool :=
  if size < 12 then (s, false) else s.process (parseSegment buffer size)

end PseudoTcp

end Libjingle
