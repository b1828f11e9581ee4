import Libjingle.Tcp.Socket

/-!
# `AsyncTCPSocket` (`base/asynctcpsocket.cc`)

A packet is written with its length before it, in two bytes. `Send` takes packets of up to `kBufSize`
bytes, which is `kMaxPacketSize` and the two bytes more; a length field of two bytes ends before
`kMaxPacketSize`.

Main results: **`packets_delivered`**, **`lengthField_wraps`**.
-/

variable {p : List Uint8}

namespace Libjingle

open Lib

namespace AsyncTCPSocket

def kMaxPacketSize : ℕ := 64 * 1024

def kPacketLenSize : ℕ := 2

def kBufSize : ℕ := kMaxPacketSize + kPacketLenSize

def getBE16 (data : List Uint8) : Uint16 := BitVec.ofNat 16 (beValue (data.take 2))

/-- `Send`: the result, the bytes accepted, the socket. -/
def send (s : AsyncTCPSocketBase) (pv : List Uint8) (accept : ℤ) :
    ℤ × List Uint8 × AsyncTCPSocketBase :=
  if pv.length > kBufSize then (-1, [], s)
  -- a packet that finds the out buffer in use is dropped without a word
  else if !s.isOutBufferEmpty then (pv.length, [], s)
  else
    let pktLen : Uint16 := BitVec.ofNat 16 pv.length
    let s := s.appendToOutBuffer (wordBytes 2 pktLen)
    let s := s.appendToOutBuffer pv
    s.finishSend pv.length accept

/-- One round of the loop of `ProcessInput`. -/
def nextPacket (data : List Uint8) : Option (List Uint8 × List Uint8) :=
  if data.length < kPacketLenSize then none
  else
    let pktLen := (getBE16 data).toNat
    if data.length < kPacketLenSize + pktLen then none
    else some ((data.drop kPacketLenSize).take pktLen, data.drop (kPacketLenSize + pktLen))

theorem getBE16_append {data : List Uint8} (h : 2 ≤ data.length) (more : List Uint8) :
    getBE16 (data ++ more) = getBE16 data := by
  rw [getBE16, List.take_append_of_le_length h, getBE16]

theorem nextPacket_eq_some {data rest : List Uint8} :
    nextPacket data = some (p, rest) ↔
      kPacketLenSize + (getBE16 data).toNat ≤ data.length ∧
        p = (data.drop kPacketLenSize).take (getBE16 data).toNat ∧
        rest = data.drop (kPacketLenSize + (getBE16 data).toNat) := by
  unfold nextPacket
  dsimp only
  constructor
  · intro h
    split_ifs at h with h₁ h₂
    cases h
    exact ⟨Nat.not_lt.mp h₂, rfl, rfl⟩
  · rintro ⟨hlen, rfl, rfl⟩
    rw [if_neg (by omega), if_neg (by omega)]

/-- The loop of `ProcessInput` as a cutter. -/
def packetCutter : Cutter Uint8 (List Uint8) where
  cut := nextPacket
  shrinks := by
    intro data p rest h
    obtain ⟨hlen, -, rfl⟩ := nextPacket_eq_some.mp h
    rw [List.length_drop]
    unfold kPacketLenSize at *
    omega
  stable := by
    intro data p rest h more
    obtain ⟨hlen, rfl, rfl⟩ := nextPacket_eq_some.mp h
    have htwo : kPacketLenSize ≤ data.length := Nat.le_trans (Nat.le_add_right _ _) hlen
    have hbody : (getBE16 data).toNat ≤ (data.drop kPacketLenSize).length := by
      rw [List.length_drop]
      omega
    rw [nextPacket_eq_some, getBE16_append htwo, List.length_append,
      List.drop_append_of_le_length htwo, List.take_append_of_le_length hbody,
      List.drop_append_of_le_length hlen]
    exact ⟨by omega, rfl, rfl⟩

/-- `AsyncTCPSocket::ProcessInput`. -/
def processInput (data : List Uint8) : List (List Uint8) × List Uint8 := packetCutter.drain data

def packetSocket : PacketSocket where
  maxPacketSize := kBufSize
  send := send
  processInput := processInput

/-! ## Frames -/

/-- A packet on the wire. -/
def frame (p : List Uint8) : List Uint8 := wordBytes 2 (BitVec.ofNat 16 p.length) ++ p

def LengthFits (p : List Uint8) : Prop := p.length < 2 ^ 16

theorem getBE16_wordBytes (v : Uint16) (rest : List Uint8) : getBE16 (wordBytes 2 v ++ rest) = v := by
  rw [getBE16, List.take_left' (length_wordBytes 2 v)]
  exact ofNat_wordBytes 2 v

theorem frames : packetCutter.Frames LengthFits frame := by
  intro p hp
  have hlen : (frame p).length = kPacketLenSize + p.length := by
    rw [frame, List.length_append, length_wordBytes, kPacketLenSize]
  have hfield : (getBE16 (frame p)).toNat = p.length := by
    rw [frame, getBE16_wordBytes, BitVec.toNat_ofNat, Nat.mod_eq_of_lt hp]
  have hbody : (frame p).drop kPacketLenSize = p := List.drop_left' (length_wordBytes 2 _)
  change nextPacket (frame p) = some (p, [])
  refine nextPacket_eq_some.mpr ⟨?_, ?_, ?_⟩
  · rw [hfield, hlen]
  · rw [hfield, hbody, List.take_length]
  · rw [hfield, ← hlen, List.drop_length]

theorem speaks : Speaks packetSocket packetCutter LengthFits frame where
  frames := frames
  processInput := fun _ => rfl
  fits := by
    intro p hp
    unfold LengthFits at hp
    simp only [frame, List.length_append, length_wordBytes, packetSocket, kBufSize, kMaxPacketSize,
      kPacketLenSize]
    omega
  waits := by
    intro buf h
    change nextPacket buf = none at h
    have hfield := (getBE16 buf).isLt
    by_contra hlong
    have hwhole : kPacketLenSize + (getBE16 buf).toNat ≤ buf.length := by
      simp only [packetSocket, kBufSize, kMaxPacketSize, kPacketLenSize] at hlong ⊢
      omega
    rw [nextPacket_eq_some.mpr ⟨hwhole, rfl, rfl⟩] at h
    cases h

/-! ## What `Send` does -/

def Sendable (s : AsyncTCPSocketBase) (pv : List Uint8) : Prop :=
  LengthFits pv ∨ kBufSize < pv.length ∨ s.outbuf ≠ []

instance (s : AsyncTCPSocketBase) (pv : List Uint8) : Decidable (Sendable s pv) := by
  unfold Sendable LengthFits
  infer_instance

/-- `Send` sends the frame of a packet whose length fits. -/
theorem send_framed {s : AsyncTCPSocketBase} {pv : List Uint8} (hsize : s.outsize = kBufSize)
    (h : Sendable s pv) (accept : ℤ) : SendsFrame LengthFits frame packetSocket s pv accept := by
  by_cases hbig : pv.length > kBufSize
  · left
    change (send s pv accept).2 = ([], s)
    rw [send, if_pos hbig]
  by_cases hout : s.outbuf = []
  · have hfits : LengthFits pv := by
      rcases h with h | h | h
      · exact h
      · exact absurd h hbig
      · exact absurd hout h
    have hfield : s.appendToOutBuffer (wordBytes 2 (BitVec.ofNat 16 pv.length)) =
        { s with outbuf := wordBytes 2 (BitVec.ofNat 16 pv.length) } := by
      rw [AsyncTCPSocketBase.appendToOutBuffer_of_fits, hout, List.nil_append]
      rw [AsyncTCPSocketBase.outpos, hout, hsize, length_wordBytes]
      decide
    have hpacket : ({ s with outbuf := wordBytes 2 (BitVec.ofNat 16 pv.length) } :
        AsyncTCPSocketBase).appendToOutBuffer pv = { s with outbuf := frame pv } := by
      rw [AsyncTCPSocketBase.appendToOutBuffer_of_fits]
      · rfl
      · rw [AsyncTCPSocketBase.outpos, length_wordBytes, hsize, kBufSize, kMaxPacketSize,
          kPacketLenSize]
        unfold LengthFits at hfits
        omega
    refine sendsFrame_of_finishSend hout hfits ?_
    have hempty : s.isOutBufferEmpty = true := s.isOutBufferEmpty_iff.mpr hout
    change send s pv accept = _
    rw [send, if_neg hbig, hempty]
    dsimp only
    rw [hfield, hpacket]
    rfl
  · left
    have hbusy : s.isOutBufferEmpty = false := by
      simpa using mt s.isOutBufferEmpty_iff.mp hout
    change (send s pv accept).2 = ([], s)
    rw [send, if_neg hbig, hbusy]
    rfl

/-! ## Runs -/

def StepSendable (l : Link) : LinkOp → Prop
  | .send pv _ => Sendable l.sender pv
  | .writeEvent _ => True
  | .readEvent _ => True

instance (l : Link) (op : LinkOp) : Decidable (StepSendable l op) := by
  cases op <;> unfold StepSendable <;> infer_instance

/-- What the framing is for: packets come out as they went in, and the buffers hold. -/
structure Delivers (l : Link) : Prop where
  reported : l.reported <+: l.queued
  outpos : l.sender.outpos ≤ l.sender.outsize
  inpos : l.receiver.inpos ≤ l.receiver.insize
  sender_failed : l.sender.failed = []
  receiver_failed : l.receiver.failed = []

/-- **Packets are delivered in order**, if each has a length that the length field can hold. -/
theorem packets_delivered (ops : List LinkOp)
    (h : Guarded (Link.step packetSocket) StepSendable (Link.new packetSocket) ops) :
    Delivers (run (Link.step packetSocket) (Link.new packetSocket) ops) := by
  have hinv := run_invariant
    (I := fun l => CutUp packetSocket packetCutter l ∧ Carried packetSocket LengthFits frame l)
    (fun l op hl hop => by
      refine ⟨cutUp_step speaks hl.1 op, carried_step speaks hl.2 op ?_⟩
      rintro pv accept rfl
      exact send_framed hl.2.outsize hop accept)
    ⟨cutUp_new, carried_new speaks⟩ h
  exact {
    reported := reported_eq speaks hinv.1 hinv.2
    outpos := Nat.le_of_lt hinv.2.outpos
    inpos := Nat.le_of_lt (hinv.1.inpos_lt speaks)
    sender_failed := hinv.2.failed
    receiver_failed := hinv.1.failed }

def smallOps : List LinkOp :=
  [.send [1, 2, 3] 4, .send [9] 3, .readEvent 4, .writeEvent 10, .readEvent 10]

theorem packets_delivered_smallOps :
    Guarded (Link.step packetSocket) StepSendable (Link.new packetSocket) smallOps ∧
      Delivers (run (Link.step packetSocket) (Link.new packetSocket) smallOps) :=
  ⟨by decide, packets_delivered smallOps (by decide)⟩

/-! ## A packet of `kMaxPacketSize` bytes -/

/-- **The length of a packet of 64 kB is sent as 0**. -/
theorem send_wraps {s : AsyncTCPSocketBase} (hp : p.length = kMaxPacketSize)
    (hout : s.outbuf = []) (hsize : s.outsize = kBufSize) :
    send s p kBufSize =
      ((kMaxPacketSize : ℤ), 0 :: 0 :: p,
        { s with failed := s.failed ++ [BufferAssert.appendToOutBuffer], outbuf := [] }) := by
  have hempty : s.isOutBufferEmpty = true := s.isOutBufferEmpty_iff.mpr hout
  have hword : wordBytes 2 (BitVec.ofNat 16 p.length : Uint16) = [0, 0] := by
    rw [hp]
    decide
  have hfield : s.appendToOutBuffer [0, 0] = { s with outbuf := [0, 0] } := by
    rw [AsyncTCPSocketBase.appendToOutBuffer_of_fits, hout, List.nil_append]
    rw [AsyncTCPSocketBase.outpos, hout, hsize]
    decide
  have hpacket : ({ s with outbuf := [0, 0] } : AsyncTCPSocketBase).appendToOutBuffer p =
      { s with
        failed := s.failed ++ [.appendToOutBuffer]
        outbuf := 0 :: 0 :: p } := by
    rw [AsyncTCPSocketBase.appendToOutBuffer_of_not_fits]
    · rfl
    · rw [AsyncTCPSocketBase.outpos, hp, hsize, List.length_cons, List.length_singleton]
      unfold kBufSize kPacketLenSize
      omega
  have hall : (kBufSize : ℤ) = ((0 :: 0 :: p).length : ℕ) := by
    rw [List.length_cons, List.length_cons, hp]
    unfold kBufSize kPacketLenSize
    omega
  have hflush := AsyncTCPSocketBase.flushOutBuffer_all
    (s := { s with failed := s.failed ++ [.appendToOutBuffer], outbuf := 0 :: 0 :: p })
    (List.cons_ne_nil _ _)
  unfold send
  rw [if_neg (by rw [hp]; decide), hempty]
  dsimp only
  rw [hword, hfield, hpacket, AsyncTCPSocketBase.finishSend, hall]
  dsimp only [AsyncTCPSocketBase.outpos] at hflush
  have hpos : ¬ (((0 :: 0 :: p).length : ℕ) : ℤ) ≤ 0 := by
    rw [List.length_cons]
    omega
  simp only [hflush, hp]
  rw [if_neg hpos]
  rfl

theorem readEvent_zeros {l : Link} {rest : List Uint8} (hreceiver : l.receiver = .new kBufSize)
    (hstream : l.stream = 0 :: 0 :: rest) (hreported : l.reported = []) :
    (Link.step packetSocket l (.readEvent 2)).reported = [[]] := by
  have hroom : min (2 : ℤ).toNat (kBufSize - 0) = 2 := by decide
  have hrecv : StreamSocket.recv 2 (kBufSize - 0) (0 :: 0 :: rest) = some [0, 0] := by
    rw [StreamSocket.recv, if_neg (by decide), hroom]
    rfl
  have hdrain : packetCutter.drain [0, 0] = ([[]], []) := by
    rw [Cutter.drain_some (show packetCutter.cut [0, 0] = some ([], []) by decide),
      Cutter.drain_none (by decide)]
  have hevent : ((AsyncTCPSocketBase.new kBufSize).onReadEvent processInput (some [0, 0])).1 =
      [[]] := by
    have hroom' : ¬ ([] : List Uint8).length ≥ kBufSize := by decide
    simp only [AsyncTCPSocketBase.onReadEvent, AsyncTCPSocketBase.new, processInput,
      List.nil_append, hdrain, AsyncTCPSocketBase.inpos, if_neg hroom']
  have hstep : (Link.step packetSocket l (.readEvent 2)).reported =
      l.reported ++ (l.receiver.onReadEvent processInput
        (StreamSocket.recv 2 (l.receiver.insize - l.receiver.inpos) l.stream)).1 := rfl
  rw [hstep, hreported, hreceiver, hstream]
  exact (congrArg (fun r => ([] : List (List Uint8)) ++
    ((AsyncTCPSocketBase.new kBufSize).onReadEvent processInput r).1) hrecv).trans hevent

/-- The receiver gets the length field first. -/
def maxPacketOps (p : List Uint8) : List LinkOp := [.send p kBufSize, .readEvent 2]

theorem run_maxPacketOps (hp : p.length = kMaxPacketSize) :
    (run (Link.step packetSocket) (Link.new packetSocket) (maxPacketOps p)).queued = [p] ∧
      (run (Link.step packetSocket) (Link.new packetSocket) (maxPacketOps p)).reported = [[]] := by
  have hsend := send_wraps (s := .new kBufSize) hp rfl rfl
  have hqueues : Link.queues packetSocket (.new kBufSize) p kBufSize = true := by
    change ((AsyncTCPSocketBase.new kBufSize).isOutBufferEmpty &&
      decide (0 ≤ (send (.new kBufSize) p kBufSize).1) &&
      decide ((send (.new kBufSize) p kBufSize).2.1 ≠ [])) = true
    rw [hsend]
    simp [AsyncTCPSocketBase.isOutBufferEmpty, AsyncTCPSocketBase.new, AsyncTCPSocketBase.outpos]
  have hqueued : (Link.step packetSocket (Link.new packetSocket) (.send p kBufSize)).queued = [p] := by
    change (if Link.queues packetSocket (.new kBufSize) p kBufSize then [] ++ [p] else []) = [p]
    rw [if_pos hqueues]
    rfl
  have hstream : (Link.step packetSocket (Link.new packetSocket) (.send p kBufSize)).stream =
      0 :: 0 :: p := by
    change [] ++ (send (.new kBufSize) p kBufSize).2.1 = _
    rw [hsend]
    rfl
  exact ⟨hqueued, readEvent_zeros rfl hstream rfl⟩

/-- **The receiver reports an empty packet in place of one of 65536 bytes.** -/
theorem lengthField_wraps :
    ¬ (run (Link.step packetSocket) (Link.new packetSocket)
          (maxPacketOps (List.replicate kMaxPacketSize 0))).reported <+:
        (run (Link.step packetSocket) (Link.new packetSocket)
          (maxPacketOps (List.replicate kMaxPacketSize 0))).queued := by
  intro hpre
  have hlen : (List.replicate kMaxPacketSize (0 : Uint8)).length = kMaxPacketSize :=
    List.length_replicate
  obtain ⟨hqueued, hreported⟩ := run_maxPacketOps hlen
  rw [hqueued, hreported] at hpre
  have hnil : [] = List.replicate kMaxPacketSize (0 : Uint8) := (List.cons_prefix_cons.mp hpre).1
  rw [← hnil] at hlen
  exact absurd hlen (by decide)

end AsyncTCPSocket

end Libjingle
