import Libjingle.Lib.Bytes
import Libjingle.Lib.Cutter
import Libjingle.Lib.Run
import Libjingle.Base.Words

/-!
# `AsyncTCPSocketBase` (`base/asynctcpsocket.cc`)

A packet socket over a connected stream socket. What waits to be sent is in the out buffer, what has
been received and not been reported is in the in buffer. The buffers are lists of the bytes in use;
`inpos` and `outpos` are their lengths. The socket is one that does not listen.

Main results: **`cutUp_step`**, **`carried_step`**, **`reported_eq`**, **`reported_iff`**.
-/

variable {s : AsyncTCPSocketBase} {pv : List Uint8}

namespace Libjingle

open Lib

/-! ## The stream socket -/

namespace StreamSocket

def send (accept : ℤ) (offered : List Uint8) : ℤ × List Uint8 :=
  if accept ≤ 0 then (accept, [])
  else (((offered.take accept.toNat).length : ℤ), offered.take accept.toNat)

/-- `Recv` into a buffer with place for `room` bytes. -/
def recv (len : ℤ) (room : ℕ) (stream : List Uint8) : Option (List Uint8) :=
  if len < 0 then none else some (stream.take (min len.toNat room))

end StreamSocket

/-! ## The socket -/

/-- The assertions on the buffers. -/
inductive BufferAssert where
  | appendToOutBuffer | flushOutBuffer | inputBufferOverflow
  deriving DecidableEq, Repr

/-- `AsyncTCPSocketBase`. -/
structure AsyncTCPSocketBase where
  insize : ℕ
  outsize : ℕ
  inbuf : List Uint8
  outbuf : List Uint8
  failed : List BufferAssert
  deriving DecidableEq, Repr

namespace AsyncTCPSocketBase

def new (maxPacketSize : ℕ) : AsyncTCPSocketBase where
  insize := maxPacketSize
  outsize := maxPacketSize
  inbuf := []
  outbuf := []
  failed := []

variable (s : AsyncTCPSocketBase)

/-- `inpos_`. -/
def inpos : ℕ := s.inbuf.length

/-- `outpos_`. -/
def outpos : ℕ := s.outbuf.length

def isOutBufferEmpty : Bool := s.outpos == 0

/-- `ClearOutBuffer`. -/
def clearOutBuffer : AsyncTCPSocketBase := { s with outbuf := [] }

/-- `ASSERT(c)`: execution goes on when it fails. -/
def check (c : Bool) (a : BufferAssert) : AsyncTCPSocketBase :=
  if c then s else { s with failed := s.failed ++ [a] }

def appendToOutBuffer (pv : List Uint8) : AsyncTCPSocketBase :=
  let s := s.check (s.outpos + pv.length < s.outsize) .appendToOutBuffer
  { s with outbuf := s.outbuf ++ pv }

def flushOutBuffer (accept : ℤ) : ℤ × List Uint8 × AsyncTCPSocketBase :=
  let (res, sent) := StreamSocket.send accept s.outbuf
  if res ≤ 0 then (res, sent, s)
  else if res.toNat ≤ s.outpos then (res, sent, { s with outbuf := s.outbuf.drop res.toNat })
  else (-1, sent, s.check false .flushOutBuffer)

/-- The end of `Send` in the subclasses. -/
def finishSend (cb : ℕ) (accept : ℤ) : ℤ × List Uint8 × AsyncTCPSocketBase :=
  let (res, sent, s) := s.flushOutBuffer accept
  if res ≤ 0 then (res, sent, s.clearOutBuffer) else (cb, sent, s)

def onWriteEvent (accept : ℤ) : List Uint8 × AsyncTCPSocketBase :=
  if s.outpos > 0 then (s.flushOutBuffer accept).2 else ([], s)

/-- `OnReadEvent`, where `Recv` delivers `received`. -/
def onReadEvent (processInput : List Uint8 → List (List Uint8) × List Uint8)
    (received : Option (List Uint8)) : List (List Uint8) × AsyncTCPSocketBase :=
  match received with
  | none => ([], s)
  | some bytes =>
    let (packets, rest) := processInput (s.inbuf ++ bytes)
    let s := { s with inbuf := rest }
    if s.inpos ≥ s.insize then
      (packets, { s.check false .inputBufferOverflow with inbuf := [] })
    else (packets, s)

end AsyncTCPSocketBase

/-- What a subclass of `AsyncTCPSocketBase` supplies. -/
structure PacketSocket where
  maxPacketSize : ℕ
  send : AsyncTCPSocketBase → List Uint8 → ℤ → ℤ × List Uint8 × AsyncTCPSocketBase
  processInput : List Uint8 → List (List Uint8) × List Uint8

/-! ## Two sockets and the stream between them -/

/-- A sender, the stream and a receiver, with the packets queued and reported. -/
structure Link where
  sender : AsyncTCPSocketBase
  stream : List Uint8
  receiver : AsyncTCPSocketBase
  queued : List (List Uint8)
  arrived : List Uint8
  reported : List (List Uint8)
  deriving DecidableEq, Repr

/-- A call of `Send`, a write event at the sender, a read event at the receiver. -/
inductive LinkOp where
  | send (pv : List Uint8) (accept : ℤ)
  | writeEvent (accept : ℤ)
  | readEvent (len : ℤ)
  deriving DecidableEq, Repr

namespace Link

variable (C : PacketSocket)

/-- A link without traffic. -/
def new : Link where
  sender := .new C.maxPacketSize
  stream := []
  receiver := .new C.maxPacketSize
  queued := []
  arrived := []
  reported := []

/-- `Send` queues the packet. -/
def queues (s : AsyncTCPSocketBase) (pv : List Uint8) (accept : ℤ) : Bool :=
  s.isOutBufferEmpty && 0 ≤ (C.send s pv accept).1 && (C.send s pv accept).2.1 ≠ []

def step (l : Link) : LinkOp → Link
  | .send pv accept =>
    let (_, sent, sender) := C.send l.sender pv accept
    { l with
      sender := sender
      stream := l.stream ++ sent
      queued := if queues C l.sender pv accept then l.queued ++ [pv] else l.queued }
  | .writeEvent accept =>
    let (sent, sender) := l.sender.onWriteEvent accept
    { l with sender := sender, stream := l.stream ++ sent }
  | .readEvent len =>
    let received := StreamSocket.recv len (l.receiver.insize - l.receiver.inpos) l.stream
    let (packets, receiver) := l.receiver.onReadEvent C.processInput received
    { l with
      stream := l.stream.drop (received.getD []).length
      receiver := receiver
      arrived := l.arrived ++ received.getD []
      reported := l.reported ++ packets }

end Link

/-! ## What the steps do -/

theorem StreamSocket.send_eq (accept : ℤ) (offered : List Uint8) :
    ∃ n, (send accept offered).2 = offered.take n ∧
      (send accept offered).1.toNat = (offered.take n).length ∧
      (0 < (send accept offered).1 ↔ offered.take n ≠ []) := by
  unfold send
  split_ifs with h
  · exact ⟨0, rfl, by simp only [List.take_zero, List.length_nil]; omega, by simpa using h⟩
  · refine ⟨accept.toNat, rfl, Int.toNat_natCast _, ?_⟩
    rw [← List.length_pos_iff]
    exact Int.natCast_pos

namespace AsyncTCPSocketBase

theorem flushOutBuffer_spec (s : AsyncTCPSocketBase) (accept : ℤ) :
    (s.flushOutBuffer accept).2.1 ++ (s.flushOutBuffer accept).2.2.outbuf = s.outbuf ∧
      (s.flushOutBuffer accept).2.2 =
        { s with outbuf := (s.flushOutBuffer accept).2.2.outbuf } ∧
      (0 < (s.flushOutBuffer accept).1 ↔ (s.flushOutBuffer accept).2.1 ≠ []) := by
  obtain ⟨n, hsent, hres, hpos⟩ := StreamSocket.send_eq accept s.outbuf
  have hle : (StreamSocket.send accept s.outbuf).1.toNat ≤ s.outpos := by
    rw [hres, List.length_take]
    exact Nat.min_le_right _ _
  simp only [flushOutBuffer, hsent]
  by_cases hneg : (StreamSocket.send accept s.outbuf).1 ≤ 0
  · rw [if_pos hneg]
    have hnil : s.outbuf.take n = [] := by
      by_contra h
      have := hpos.mpr h
      omega
    simp only [hnil, List.nil_append]
    exact ⟨trivial, trivial, by simpa using hneg⟩
  · rw [if_neg hneg, if_pos hle, hres]
    exact ⟨List.prefix_iff_eq_append.mp (List.take_prefix _ _), rfl, hpos⟩

theorem isOutBufferEmpty_iff (s : AsyncTCPSocketBase) : s.isOutBufferEmpty = true ↔ s.outbuf = [] := by
  simp [isOutBufferEmpty, outpos]

theorem finishSend_spec (s : AsyncTCPSocketBase) (cb : ℕ) (accept : ℤ) :
    (s.finishSend cb accept).2 = ([], s.clearOutBuffer) ∨
      ((s.finishSend cb accept).1 = cb ∧ (s.finishSend cb accept).2.1 ≠ [] ∧
        (s.finishSend cb accept).2.1 ++ (s.finishSend cb accept).2.2.outbuf = s.outbuf ∧
        (s.finishSend cb accept).2.2 = { s with outbuf := (s.finishSend cb accept).2.2.outbuf }) := by
  obtain ⟨hsplit, hsame, hpos⟩ := s.flushOutBuffer_spec accept
  unfold finishSend
  dsimp only
  by_cases hres : (s.flushOutBuffer accept).1 ≤ 0
  · left
    have hnil : (s.flushOutBuffer accept).2.1 = [] := by
      by_contra h
      have := hpos.mpr h
      omega
    rw [if_pos hres, hnil, hsame]
    rfl
  · right
    rw [if_neg hres]
    exact ⟨rfl, hpos.mp (by omega), hsplit, hsame⟩

theorem onWriteEvent_spec (s : AsyncTCPSocketBase) (accept : ℤ) :
    (s.onWriteEvent accept).1 ++ (s.onWriteEvent accept).2.outbuf = s.outbuf ∧
      (s.onWriteEvent accept).2 = { s with outbuf := (s.onWriteEvent accept).2.outbuf } := by
  unfold onWriteEvent
  split_ifs with h
  · exact ⟨(s.flushOutBuffer_spec accept).1, (s.flushOutBuffer_spec accept).2.1⟩
  · exact ⟨rfl, rfl⟩

theorem appendToOutBuffer_of_fits (h : s.outpos + pv.length < s.outsize) :
    s.appendToOutBuffer pv = { s with outbuf := s.outbuf ++ pv } := by
  unfold appendToOutBuffer check
  rw [if_pos (decide_eq_true h)]

theorem appendToOutBuffer_of_not_fits (h : ¬ s.outpos + pv.length < s.outsize) :
    s.appendToOutBuffer pv =
      { s with
        failed := s.failed ++ [.appendToOutBuffer]
        outbuf := s.outbuf ++ pv } := by
  unfold appendToOutBuffer check
  rw [if_neg (mt of_decide_eq_true h)]

theorem flushOutBuffer_all (h : s.outbuf ≠ []) :
    s.flushOutBuffer s.outpos = ((s.outpos : ℤ), s.outbuf, s.clearOutBuffer) := by
  have hpos : 0 < s.outpos := List.length_pos_iff.mpr h
  have hsend : StreamSocket.send s.outpos s.outbuf = ((s.outpos : ℤ), s.outbuf) := by
    rw [StreamSocket.send, if_neg (by omega), Int.toNat_natCast, outpos, List.take_length]
  simp only [flushOutBuffer, hsend]
  rw [if_neg (by omega), Int.toNat_natCast, if_pos (Nat.le_refl _), outpos, List.drop_length]
  rfl

end AsyncTCPSocketBase

/-! ## A subclass that speaks a framing -/

/-- The subclass writes `frame p`, and cuts it off with `c`. -/
structure Speaks (C : PacketSocket) (c : Cutter Uint8 (List Uint8)) (ok : List Uint8 → Prop)
    (frame : List Uint8 → List Uint8) : Prop where
  frames : c.Frames ok frame
  processInput : ∀ buf, C.processInput buf = c.drain buf
  fits : ∀ p, ok p → (frame p).length < C.maxPacketSize
  waits : ∀ buf, c.cut buf = none → buf.length < C.maxPacketSize

def SendsFrame (ok : List Uint8 → Prop) (frame : List Uint8 → List Uint8) (C : PacketSocket)
    (s : AsyncTCPSocketBase) (pv : List Uint8) (accept : ℤ) : Prop :=
  ((C.send s pv accept).2 = ([], s)) ∨
    (s.outbuf = [] ∧ ok pv ∧ 0 ≤ (C.send s pv accept).1 ∧ (C.send s pv accept).2.1 ≠ [] ∧
      (C.send s pv accept).2.1 ++ (C.send s pv accept).2.2.outbuf = frame pv ∧
      (C.send s pv accept).2.2 = { s with outbuf := (C.send s pv accept).2.2.outbuf })

theorem sendsFrame_of_finishSend {ok : List Uint8 → Prop} {frame : List Uint8 → List Uint8}
    {C : PacketSocket} {accept : ℤ} (hout : s.outbuf = [])
    (hok : ok pv)
    (h : C.send s pv accept = { s with outbuf := frame pv }.finishSend pv.length accept) :
    SendsFrame ok frame C s pv accept := by
  unfold SendsFrame
  rw [h]
  rcases AsyncTCPSocketBase.finishSend_spec { s with outbuf := frame pv } pv.length accept with
    hdrop | ⟨hres, hsent, hsplit, hsame⟩
  · left
    rw [hdrop, AsyncTCPSocketBase.clearOutBuffer, ← hout]
  · right
    exact ⟨hout, hok, hres ▸ Int.natCast_nonneg _, hsent, hsplit, hsame⟩

section Invariant

variable {C : PacketSocket} {c : Cutter Uint8 (List Uint8)} {ok : List Uint8 → Prop}
  {frame : List Uint8 → List Uint8} {l : Link}

/-- The receiving side: what the cutter makes of the bytes that have arrived. -/
structure CutUp (C : PacketSocket) (c : Cutter Uint8 (List Uint8)) (l : Link) : Prop where
  insize : l.receiver.insize = C.maxPacketSize
  cut : c.drain l.arrived = (l.reported, l.receiver.inbuf)
  failed : l.receiver.failed = []

/-- The sending side: all bytes are the frames of the queued packets. -/
structure Carried (C : PacketSocket) (ok : List Uint8 → Prop) (frame : List Uint8 → List Uint8)
    (l : Link) : Prop where
  outsize : l.sender.outsize = C.maxPacketSize
  ok : ∀ p ∈ l.queued, ok p
  carried : l.arrived ++ l.stream ++ l.sender.outbuf = Cutter.wire frame l.queued
  outpos : l.sender.outpos < l.sender.outsize
  failed : l.sender.failed = []

theorem CutUp.inpos_lt (hs : Speaks C c ok frame) {l : Link} (h : CutUp C c l) :
    l.receiver.inpos < l.receiver.insize := by
  rw [h.insize]
  apply hs.waits
  rw [← (Prod.mk.inj h.cut).2]
  exact Cutter.cut_drain l.arrived

theorem cutUp_new : CutUp C c (Link.new C) where
  insize := rfl
  cut := by
    have hcut : c.cut [] = none := by
      cases hcut : c.cut [] with
      | none => rfl
      | some r => exact absurd (c.shrinks hcut) (Nat.not_lt_zero _)
    exact Cutter.drain_none hcut
  failed := rfl

theorem carried_new (hs : Speaks C c ok frame) : Carried C ok frame (Link.new C) where
  outsize := rfl
  ok := fun _ hp => absurd hp List.not_mem_nil
  carried := rfl
  outpos := Nat.lt_of_le_of_lt (Nat.zero_le _) ((cutUp_new (c := c)).inpos_lt hs)
  failed := rfl

/-- An event keeps the receiver at what the cutter makes of the stream. -/
theorem cutUp_step (hs : Speaks C c ok frame) {l : Link} (h : CutUp C c l) (op : LinkOp) :
    CutUp C c (Link.step C l op) := by
  cases op with
  | send pv accept => exact ⟨h.insize, h.cut, h.failed⟩
  | writeEvent accept => exact ⟨h.insize, h.cut, h.failed⟩
  | readEvent len =>
    simp only [Link.step]
    cases StreamSocket.recv len (l.receiver.insize - l.receiver.inpos) l.stream with
    | none => exact ⟨h.insize, by simpa [AsyncTCPSocketBase.onReadEvent] using h.cut, h.failed⟩
    | some bytes =>
      have hdrain := Cutter.drain_append (c := c) l.arrived bytes
      rw [h.cut] at hdrain
      have hroom : ¬ (c.drain (l.receiver.inbuf ++ bytes)).2.length ≥ l.receiver.insize := by
        rw [h.insize]
        exact Nat.not_le.mpr (hs.waits _ (Cutter.cut_drain _))
      simp only [AsyncTCPSocketBase.onReadEvent, hs.processInput, AsyncTCPSocketBase.inpos,
        if_neg hroom, Option.getD_some]
      exact ⟨h.insize, hdrain, h.failed⟩

theorem StreamSocket.recv_append (len : ℤ) (room : ℕ) (stream : List Uint8) :
    (recv len room stream).getD [] ++ stream.drop ((recv len room stream).getD []).length = stream := by
  unfold recv
  split_ifs with h
  · rfl
  · exact (List.prefix_iff_eq_append.mp (List.take_prefix _ _))

theorem carried_step (hs : Speaks C c ok frame) {l : Link} (h : Carried C ok frame l) (op : LinkOp)
    (hop : ∀ pv accept, op = .send pv accept → SendsFrame ok frame C l.sender pv accept) :
    Carried C ok frame (Link.step C l op) := by
  cases op with
  | send pv accept =>
    rcases hop pv accept rfl with hnone | ⟨hempty, hok, hres, hsent, hframe, hsender⟩
    · have hq : Link.queues C l.sender pv accept = false := by simp [Link.queues, hnone]
      simp only [Link.step, hnone, hq, List.append_nil]
      exact ⟨h.outsize, h.ok, h.carried, h.outpos, h.failed⟩
    · have hq : Link.queues C l.sender pv accept = true := by
        simp [Link.queues, (l.sender.isOutBufferEmpty_iff).mpr hempty, hres, hsent]
      have hcarried := h.carried
      rw [hempty, List.append_nil] at hcarried
      simp only [Link.step, hq, if_true]
      refine ⟨?_, ?_, ?_, ?_, ?_⟩
      · exact hsender ▸ h.outsize
      · intro p hp
        rcases List.mem_append.mp hp with hp | hp
        · exact h.ok p hp
        · rwa [List.mem_singleton.mp hp]
      · rw [Cutter.wire_append, ← hcarried]
        simp only [List.append_assoc, hframe, Cutter.wire_cons, Cutter.wire_nil, List.append_nil]
      · have hsize : (C.send l.sender pv accept).2.2.outsize = C.maxPacketSize :=
          hsender ▸ h.outsize
        calc (C.send l.sender pv accept).2.2.outpos ≤ (frame pv).length := by
              rw [← hframe, List.length_append]
              exact Nat.le_add_left _ _
          _ < C.maxPacketSize := hs.fits pv hok
          _ = _ := hsize.symm
      · exact hsender ▸ h.failed
  | writeEvent accept =>
    obtain ⟨hsplit, hsender⟩ := l.sender.onWriteEvent_spec accept
    simp only [Link.step]
    refine ⟨?_, h.ok, ?_, ?_, ?_⟩
    · exact hsender ▸ h.outsize
    · rw [← h.carried, ← hsplit]
      simp only [List.append_assoc]
    · have hlen := congrArg List.length hsplit
      rw [List.length_append] at hlen
      have hout := h.outpos
      have hsize : (l.sender.onWriteEvent accept).2.outsize = l.sender.outsize := by rw [hsender]
      simp only [AsyncTCPSocketBase.outpos, hsize] at hout ⊢
      omega
    · exact hsender ▸ h.failed
  | readEvent len =>
    simp only [Link.step]
    refine ⟨h.outsize, h.ok, ?_, h.outpos, h.failed⟩
    rw [← h.carried]
    simp only [List.append_assoc]
    rw [← List.append_assoc ((StreamSocket.recv _ _ _).getD []), StreamSocket.recv_append]

/-! ## What has been reported -/

theorem Carried.arrived (hc : Carried C ok frame l) :
    l.arrived ++ (l.stream ++ l.sender.outbuf) = Cutter.wire frame l.queued := by
  rw [← List.append_assoc, hc.carried]

/-- **What is reported is what was queued, in order**. -/
theorem reported_eq (hs : Speaks C c ok frame) (h : CutUp C c l) (hc : Carried C ok frame l) :
    l.reported <+: l.queued := by
  obtain ⟨todo, hq, -⟩ := Cutter.drain_arrived hs.frames hc.ok hc.arrived
  rw [h.cut] at hq
  exact ⟨todo, hq.symm⟩

/-- **A packet is reported once its frame has arrived**. -/
theorem reported_iff (hs : Speaks C c ok frame) (h : CutUp C c l) (hc : Carried C ok frame l)
    {n : ℕ} (hn : n ≤ l.queued.length) :
    n ≤ l.reported.length ↔ (Cutter.wire frame (l.queued.take n)).length ≤ l.arrived.length := by
  have hexact := Cutter.drain_exact hs.frames hc.ok hc.arrived hn
  rwa [h.cut] at hexact

end Invariant

end Libjingle
