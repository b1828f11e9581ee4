import Libjingle.PseudoTcp.Api

/-!
# `PseudoTcpChannel` (`session/tunnel/pseudotcpchannel.{h,cc}`)

A function that holds the lock takes no time. The results of `SendPacket`, and the estimated MTU, come
from outside.
-/

namespace Libjingle

/-- What flags a `MSG_ST_EVENT` carries. -/
inductive TunnelEvent where
  | opened | read | write
  | close (err : Errno)
  deriving DecidableEq, Repr

/-- Whether `SE_READ` is among them. -/
def TunnelEvent.reads : TunnelEvent → Bool
  | .opened | .read => true
  | .write | .close _ => false

/-- What is posted to the signalling thread. -/
inductive SignalMessage where
  | destroyChannel | destroy
  deriving DecidableEq, Repr

/-- The results of `Read` and `Write`. -/
inductive StreamOutcome (α : Type) where
  | success (a : α)
  | block
  | error (err : Errno)

/-- `PseudoTcpChannel`. -/
structure PseudoTcpChannel where
  -- the pointers that are not `NULL`
  worker : Bool
  channel : Bool
  stream : Bool
  tcp : Option PseudoTcp
  streamReadable : Bool
  pendingReadEvent : Bool
  readyToConnect : Bool
  -- on the worker thread: when each `MSG_WK_CLOCK` is due, and whether there is a `MSG_WK_PURGE`
  clocks : List ℕ
  purge : Bool
  -- on the stream thread, `MSG_ST_EVENT`
  events : List TunnelEvent
  -- on the signal thread
  signals : List SignalMessage
  now : ℕ

namespace PseudoTcpChannel

def connected (now : ℕ) (heap : ℕ → Uint8) (initiator : Bool) (options : List (TcpOption × ℤ)) :
    PseudoTcpChannel where
  worker := true
  channel := true
  stream := true
  tcp := some <| options.foldl (fun t o => t.setOption o.1 o.2)
    (PseudoTcp.new ⟨fun _ => timeReading now, fun _ => .success, heap⟩ 0)
  streamReadable := false
  pendingReadEvent := false
  readyToConnect := initiator
  clocks := []
  purge := false
  events := []
  signals := []
  now := now

variable (s : PseudoTcpChannel)

/-! ## Calls of the `PseudoTcp` -/

def callback : Event → PseudoTcpChannel
  | .onTcpOpen =>
    if s.stream then
      { s with streamReadable := true, pendingReadEvent := true, events := s.events ++ [.opened] }
    else s
  | .onTcpReadable =>
    if s.stream then
      { s with
        streamReadable := true
        pendingReadEvent := true
        events := if s.pendingReadEvent then s.events else s.events ++ [.read] }
    else s
  | .onTcpWriteable => if s.stream then { s with events := s.events ++ [.write] } else s
  | .onTcpClosed err => if s.stream then { s with events := s.events ++ [.close err] } else s
  | .tcpWritePacket _ _ | .logState _ => s

def call (t : PseudoTcp) (op : PseudoTcp.Op) : PseudoTcpChannel :=
  { (t.newEvents op).foldl callback s with tcp := some (t.step op) }

/-! ## The clock -/

def timeout : Option ℤ := s.tcp.bind fun t => t.getNextClock (timeReading s.now)

/-- `PseudoTcpChannel::AdjustClock`. -/
def adjustClock (clear : Bool) : PseudoTcpChannel :=
  match s.timeout with
  | some timeout =>
    { s with clocks := (if clear then [] else s.clocks) ++ [s.now + (max timeout 0).toNat] }
  | none =>
    { s with
      tcp := none
      readyToConnect := false
      signals := if s.channel then s.signals ++ [.destroyChannel] else s.signals }

def checkDestroy : PseudoTcpChannel :=
  if s.worker ∨ s.stream then s else { s with signals := s.signals ++ [.destroy] }

/-! ## The stream -/

/-- The `int` that `Recv` and `Send` return. -/
def sockResult : Option ℕ → ℤ
  | some n => (u32 n).toInt
  | none => -1

def blocked {α : Type} (err : Errno) : StreamOutcome α :=
  if err = .ewouldblock then .block else .error err

/-- `PseudoTcpChannel::Read`. -/
def read (len : ℕ) : PseudoTcpChannel × StreamOutcome (List Uint8) :=
  match s.tcp with
  | none => (s, .block)
  | some t =>
    let r := t.recv len
    let s := { s with streamReadable := false }.call t (.recv len)
    if sockResult (r.2.map List.length) > 0 then
      ({ s with
          streamReadable := true
          pendingReadEvent := true
          events := if s.pendingReadEvent then s.events else s.events ++ [.read] },
        .success (r.2.getD []))
    else (s, blocked r.1.error)

/-- `PseudoTcpChannel::Write`. -/
def write (data : ℕ → Uint8) (len : ℕ) : PseudoTcpChannel × StreamOutcome ℕ :=
  match s.tcp with
  | none => (s, .block)
  | some t =>
    let r := t.send data len
    let s := s.call t (.send data len)
    if sockResult r.2 > 0 then (s, .success (r.2.getD 0)) else (s, blocked r.1.error)

/-- `PseudoTcpChannel::Close`. -/
def close : PseudoTcpChannel :=
  let s := { s with stream := false, events := [] }
  match s.tcp with
  | some t => (s.call t (.close false)).adjustClock true
  | none => s.checkDestroy

/-! ## The channel -/

/-- A function that the `TransportChannel` calls. -/
def onChannel (op : PseudoTcp.Op) : PseudoTcpChannel :=
  if s.channel then
    match s.tcp with
    | none => s
    | some t => (s.call t op).adjustClock true
  else s

def onChannelWritableState (writable : Bool) : PseudoTcpChannel :=
  if s.channel ∧ s.tcp.isSome ∧ s.readyToConnect ∧ writable then
    { s with readyToConnect := false }.onChannel .connect
  else s

/-- `PseudoTcpChannel::OnChannelRead`. -/
def onChannelRead (data : ℕ → Uint8) (size : ℕ) : PseudoTcpChannel :=
  s.onChannel (.notifyPacket data size)

def onChannelConnectionChanged (mtu : Uint16) : PseudoTcpChannel := s.onChannel (.notifyMTU mtu)

def onChannelDestroyed : PseudoTcpChannel :=
  let s : PseudoTcpChannel := { s with
    signals := s.signals.filter (· ≠ .destroyChannel)
    clocks := []
    purge := true
    channel := false
    events :=
      if s.stream ∧ s.tcp.all (fun t => t.state ≠ .closed) then s.events ++ [.close .ok] else s.events }
  match s.tcp with
  | some t => (s.call t (.close true)).adjustClock true
  | none => s

/-! ## Messages -/

def dueClock : Option ℕ := s.clocks.min?.filter (· ≤ s.now)

/-- `OnMessage` on a `MSG_WK_CLOCK`. -/
def onClock : PseudoTcpChannel :=
  match s.tcp with
  | some t => (s.call t (.notifyClock (timeReading s.now))).adjustClock false
  | none => s

/-- `OnMessage` on the `MSG_WK_PURGE`. -/
def onPurge : PseudoTcpChannel := { s with worker := false }.checkDestroy

def onStreamEvent (e : TunnelEvent) : PseudoTcpChannel :=
  if e.reads then { s with pendingReadEvent := false } else s

/-! ## Runs -/

/-- The calls that reach the channel. -/
inductive Op where
  | read (len : ℕ)
  | write (data : ℕ → Uint8) (len : ℕ)
  | packet (data : ℕ → Uint8) (size : ℕ)
  | clock
  | mtu (mtu : Uint16)
  | writable (writable : Bool)
  | close
  | destroyed
  | purge
  | streamEvent

/-- The object after an operation. -/
def perform : Op → PseudoTcpChannel
  | .read len => if s.stream then (s.read len).1 else s
  | .write data len => if s.stream then (s.write data len).1 else s
  | .packet data size => s.onChannelRead data size
  | .clock =>
    match s.dueClock with
    | some due => { s with clocks := s.clocks.erase due }.onClock
    | none => s
  | .mtu mtu => s.onChannelConnectionChanged mtu
  | .writable writable => s.onChannelWritableState writable
  | .close => if s.stream then s.close else s
  | .destroyed => if s.channel then s.onChannelDestroyed else s
  | .purge => if s.purge then { s with purge := false }.onPurge else s
  | .streamEvent =>
    match s.events with
    | e :: events => { s with events := events }.onStreamEvent e
    | [] => s

/-- An operation, with the time since the one before and the results of `TcpWritePacket`. -/
structure Call where
  elapsed : ℕ
  results : ℕ → WriteResult
  op : Op

/-- Time passes before a call. -/
def enter (elapsed : ℕ) (results : ℕ → WriteResult) : PseudoTcpChannel :=
  { s with
    now := s.now + elapsed
    tcp := s.tcp.map fun t =>
      { t with clock := fun _ => timeReading (s.now + elapsed), results := results } }

/-- One call. -/
def step (s : PseudoTcpChannel) (c : Call) : PseudoTcpChannel :=
  (s.enter c.elapsed c.results).perform c.op

end PseudoTcpChannel

end Libjingle
