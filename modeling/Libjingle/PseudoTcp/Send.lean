import Libjingle.PseudoTcp.State

/-!
# The send path of `PseudoTcp`

An iterator into `m_slist` is the split of the list at its position: `before ++ seg :: after`.
-/

namespace Libjingle

open Lib

/-- The memory behind a pointer to the first of `xs`. -/
def ptr (xs : List Uint8) : ℕ → Uint8 := fun i => xs.getD i 0

namespace PseudoTcp

variable (s : PseudoTcp)

/-! ## Queueing -/

def appendSegment (slist : List SSegment) (seq len : Uint32) (bCtrl : Bool) : List SSegment :=
  match slist.getLast? with
  | some last =>
    if last.bCtrl = bCtrl ∧ last.xmit = 0 then
      slist.dropLast ++ [{ last with len := last.len + len }]
    else slist ++ [.mk' seq len bCtrl]
  | none => [.mk' seq len bCtrl]

/-- `PseudoTcp::queue`. -/
def queue (data : ℕ → Uint8) (len : Uint32) (bCtrl : Bool) : PseudoTcp × Uint32 :=
  let available := u32 s.snd.sbuf.getWriteRemaining
  let s := s.check .queueCtrl (len ≤ available || !bCtrl)
  let len := if len > available then available else len
  let seq := s.snd.sndUna + u32 s.snd.sbuf.getBuffered
  let r := s.snd.sbuf.write data len.toNat
  ({ s with
      snd.slist := appendSegment s.snd.slist seq len bCtrl
      snd.sbuf := r.2.2 }, u32 r.2.1)

def connectMessage : List Uint8 :=
  [ctlConnect] ++ if s.supportWndScale then [tcpOptWndScale, 1, s.rcv.rwndScale] else []

/-- `PseudoTcp::queueConnectMessage`. -/
def queueConnectMessage : PseudoTcp :=
  let buf := s.connectMessage
  let s := { s with snd.sndWnd := u32 buf.length }
  (s.queue (ptr buf) (u32 buf.length) true).1

/-! ## Packets -/

def buildPacket (seq : Uint32) (flags : Uint8) (offset len : Uint32) : Packet where
  conv := s.conv
  seq := seq
  ack := s.rcv.rcvNxt
  flags := flags
  wnd := s.windowField
  tsval := s.now
  tsecr := s.tsRecent
  payload :=
    if len = 0 then [] else
      let out := (s.snd.sbuf.readOffset len.toNat offset.toNat).2
      out ++ block s.heap (headerSize.toNat + out.length) (len.toNat - out.length)

/-- `PseudoTcp::packet`. -/
def packet (seq : Uint32) (flags : Uint8) (offset len : Uint32) : PseudoTcp × WriteResult :=
  let p := s.buildPacket seq flags offset len
  let now := s.now
  let wres := s.results 0
  let r := s.snd.sbuf.readOffset len.toNat offset.toNat
  let s := s.check .packetSize (headerSize + len ≤ maxPacket)
  let s := s.tick
  let s := s.check .windowCast ((s.rcv.rcvWnd >>> s.rcv.rwndScale.toNat).toNat < 65536)
  let s := { s with tsLastack := s.rcv.rcvNxt }
  let s := s.check .readResult (len = 0 || r.1 = .success)
  let s := s.check .bytesRead (len = 0 || u32 r.2.length = len)
  let s := { s with results := fun n => s.results (n + 1) }
  let s := s.emit (.tcpWritePacket p wres)
  -- the result of an acknowledgement is not looked at
  if wres ≠ .success ∧ len ≠ 0 then (s, wres)
  else
    ({ s with
        tAck := 0
        snd.lastsend := if len > 0 then now else s.snd.lastsend
        lasttraffic := now
        outgoing := true }, .success)

/-- `m_mss` goes down to the next entry of the table. -/
def lowerMss (mtu : Uint16) : PseudoTcp :=
  { s with
    msslevel := s.msslevel + 1
    mss := mtu.setWidth 32 - packetOverhead
    cwnd := 2 * (mtu.setWidth 32 - packetOverhead) }

def retryPacket (seg : SSegment) : List Uint16 → Uint32 → PseudoTcp → PseudoTcp × Option Uint32
  | [], _, s => (s, none)
  | mtu :: rest, nTransmit, s =>
    if mtu = 0 then (s, none)
    else
      let s := s.lowerMss mtu
      let mss := s.mss
      if mss < nTransmit then
        match s.packet seg.seq seg.flags (seg.seq - s.snd.sndUna) mss with
        | (s, .success) => (s, some mss)
        | (s, .fail) => (s, none)
        | (s, .tooLarge) => retryPacket seg rest mss s
      else retryPacket seg rest nTransmit s

def transmitPacket (seg : SSegment) (nTransmit : Uint32) : PseudoTcp × Option Uint32 :=
  match s.packet seg.seq seg.flags (seg.seq - s.snd.sndUna) nTransmit with
  | (s, .success) => (s, some nTransmit)
  | (s, .fail) => (s, none)
  | (s, .tooLarge) => retryPacket seg (packetMaximums.drop (s.msslevel.toNat + 1)) nTransmit s

def transmitted (before : List SSegment) (seg : SSegment) (after : List SSegment)
    (n now : Uint32) : PseudoTcp :=
  let sent := if n < seg.len then { seg with len := n } else seg
  let after := if n < seg.len
    then { SSegment.mk' (seg.seq + n) (seg.len - n) seg.bCtrl with xmit := seg.xmit } :: after
    else after
  { s with
    snd.slist := before ++ { sent with xmit := sent.xmit + 1 } :: after
    snd.sndNxt := if seg.xmit = 0 then s.snd.sndNxt + sent.len else s.snd.sndNxt
    rtoBase := if s.rtoBase = 0 then now else s.rtoBase }

def transmit (before : List SSegment) (seg : SSegment) (after : List SSegment) (now : Uint32) :
    PseudoTcp × Bool :=
  if seg.xmit ≥ (if s.state = .established then 15 else 30) then (s, false)
  else
    match s.transmitPacket seg (min32 seg.len s.mss) with
    | (s, some n) => (s.transmitted before seg after n now, true)
    | (s, none) => (s, false)

def transmitFront (now : Uint32) : PseudoTcp × Bool :=
  match s.snd.slist with
  | [] => (s.check .transmitEnd false, true)
  | seg :: after => s.transmit [] seg after now

/-! ## Filling the window -/

/-- `nWindow` of `attemptSend`, with Limited Transmit. -/
def nWindow : Uint32 :=
  min32 s.snd.sndWnd (if s.dupAcks = 1 ∨ s.dupAcks = 2
    then s.cwnd + s.dupAcks.setWidth 32 * s.mss else s.cwnd)

/-- `nUseable` of `attemptSend`. -/
def nUseable : Uint32 := if s.nInFlight < s.nWindow then s.nWindow - s.nInFlight else 0

def nAvailable : Uint32 :=
  let n := min32 (u32 s.snd.sbuf.getBuffered - s.nInFlight) s.mss
  if n > s.nUseable then (if s.nUseable * 4 < s.nWindow then 0 else s.nUseable) else n

/-- Nagle's test of `attemptSend`. -/
def nagleHolds : Bool :=
  s.useNagling && s.snd.sndUna < s.snd.sndNxt && s.nAvailable < s.mss

def sendAck : SendFlags → PseudoTcp
  | .none => s
  | .immediateAck => (s.packet s.snd.sndNxt 0 0 0).1
  | .delayedAck =>
    if s.tAck ≠ 0 then (s.packet s.snd.sndNxt 0 0 0).1 else { s.tick with tAck := s.now }

def nextSegment (slist : List SSegment) : List SSegment × List SSegment :=
  slist.span fun seg => seg.xmit > 0

def sendSegment (before : List SSegment) (seg : SSegment) (after : List SSegment)
    (n now : Uint32) : PseudoTcp × Bool :=
  let first := if seg.len > n then { seg with len := n } else seg
  let after := if seg.len > n
    then SSegment.mk' (seg.seq + n) (seg.len - n) seg.bCtrl :: after else after
  { s with snd.slist := before ++ first :: after }.transmit before first after now

def sendLoop : ℕ → PseudoTcp → SendFlags → Uint32 → PseudoTcp
  | 0, s, _, _ => s
  | fuel + 1, s, sflags, now =>
    let s := s.check .inFlight (s.nInFlight ≤ u32 s.snd.sbuf.getBuffered)
    if s.nAvailable = 0 then s.sendAck sflags
    else if s.nagleHolds then s
    else
      match nextSegment s.snd.slist with
      | (_, []) => s.check .searchEnd false
      | (before, seg :: after) =>
        match s.sendSegment before seg after s.nAvailable now with
        | (s, true) => sendLoop fuel s .none now
        | (s, false) => s

def sendFuel (slist : List SSegment) : ℕ := (slist.map fun seg => seg.len.toNat + 1).sum + 1

/-- The object when the loop of `attemptSend` starts. -/
def beforeLoop : PseudoTcp :=
  if timeDiff s.now s.snd.lastsend > s.rxRto.toNat then { s.tick with cwnd := s.mss } else s.tick

/-- `PseudoTcp::attemptSend`. -/
def attemptSend (sflags : SendFlags) : PseudoTcp :=
  sendLoop (sendFuel s.snd.slist) s.beforeLoop sflags s.now

end PseudoTcp

end Libjingle
