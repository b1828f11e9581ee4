import Libjingle.Tcp.Socket

/-!
# `AsyncStunTCPSocket` (`p2p/base/asyncstuntcpsocket.cc`)

STUN messages and channel data messages are written as they are; both kinds carry their length in the
third and fourth byte. A channel data message is padded to a multiple of four bytes.

Main results: **`send_queues_whole`**, **`messages_delivered`**, **`received_whole`**.
-/

variable {p data : List Uint8}

namespace Libjingle

open Lib

namespace AsyncStunTCPSocket

def kMaxPacketSize : ℕ := 64 * 1024

def kStunHeaderSize : ℕ := 20

def kPacketLenSize : ℕ := 2

def kPacketLenOffset : ℕ := 2

def kBufSize : ℕ := kMaxPacketSize + kStunHeaderSize

def kTurnChannelDataHdrSize : ℕ := 4

def getBE16 (data : List Uint8) (pos : ℕ) : Uint16 :=
  BitVec.ofNat 16 (beValue ((data.drop pos).take 2))

/-- `AsyncStunTCPSocket::IsStunMessage`. -/
def isStunMessage (msgType : Uint16) : Bool := if msgType &&& 0xC000#16 ≠ 0 then false else true

/-- `AsyncStunTCPSocket::GetExpectedLength`. -/
def getExpectedLength (data : List Uint8) : ℕ × ℕ :=
  let pktLen := getBE16 data kPacketLenOffset
  let msgType := getBE16 data 0
  if isStunMessage msgType then (kStunHeaderSize + pktLen.toNat, 0)
  else
    let expectedPktLen := kTurnChannelDataHdrSize + pktLen.toNat
    (expectedPktLen, if expectedPktLen % 4 ≠ 0 then 4 - expectedPktLen % 4 else 0)

/-- `Send`: the result, the bytes accepted, the socket. -/
def send (s : AsyncTCPSocketBase) (pv : List Uint8) (accept : ℤ) :
    ℤ × List Uint8 × AsyncTCPSocketBase :=
  if pv.length > kBufSize ∨ pv.length < kPacketLenSize + kPacketLenOffset then (-1, [], s)
  -- a packet that finds the out buffer in use is dropped without a word
  else if !s.isOutBufferEmpty then (pv.length, [], s)
  else
    let (expectedPktLen, padBytes) := getExpectedLength pv
    -- only whole messages are accepted
    if pv.length ≠ expectedPktLen then (-1, [], s)
    else
      let s := s.appendToOutBuffer pv
      let s := s.appendToOutBuffer (List.replicate padBytes 0)
      s.finishSend pv.length accept

/-- One round of the loop of `ProcessInput`. -/
def nextPacket (data : List Uint8) : Option (List Uint8 × List Uint8) :=
  if data.length < kPacketLenOffset + kPacketLenSize then none
  else
    let (expectedPktLen, padBytes) := getExpectedLength data
    let actualLength := expectedPktLen + padBytes
    if data.length < actualLength then none
    else some (data.take expectedPktLen, data.drop actualLength)

/-! ## The lengths of a message -/

theorem getExpectedLength_append (h : 4 ≤ data.length) (more : List Uint8) :
    getExpectedLength (data ++ more) = getExpectedLength data := by
  have hfield : ∀ pos, pos + 2 ≤ data.length → getBE16 (data ++ more) pos = getBE16 data pos := by
    intro pos hpos
    rw [getBE16, List.drop_append_of_le_length (by omega),
      List.take_append_of_le_length (by rw [List.length_drop]; omega), getBE16]
  unfold getExpectedLength
  rw [hfield 0 (by omega), hfield kPacketLenOffset h]

theorem getExpectedLength_bounds (data : List Uint8) :
    4 ≤ (getExpectedLength data).1 ∧
      (getExpectedLength data).1 + (getExpectedLength data).2 < kBufSize := by
  have hfield := (getBE16 data kPacketLenOffset).isLt
  unfold getExpectedLength kBufSize kMaxPacketSize kStunHeaderSize kTurnChannelDataHdrSize
  dsimp only
  split_ifs
  all_goals dsimp only; omega

theorem nextPacket_eq_some {rest : List Uint8} :
    nextPacket data = some (p, rest) ↔
      4 ≤ data.length ∧
        (getExpectedLength data).1 + (getExpectedLength data).2 ≤ data.length ∧
        p = data.take (getExpectedLength data).1 ∧
        rest = data.drop ((getExpectedLength data).1 + (getExpectedLength data).2) := by
  unfold nextPacket kPacketLenOffset kPacketLenSize
  dsimp only
  constructor
  · intro h
    split_ifs at h with h₁ h₂
    cases h
    exact ⟨Nat.not_lt.mp h₁, Nat.not_lt.mp h₂, rfl, rfl⟩
  · rintro ⟨hheader, hlen, rfl, rfl⟩
    rw [if_neg (by omega), if_neg (by omega)]

/-- The loop of `ProcessInput` as a cutter. -/
def packetCutter : Cutter Uint8 (List Uint8) where
  cut := nextPacket
  shrinks := by
    intro data p rest h
    obtain ⟨hheader, hlen, -, rfl⟩ := nextPacket_eq_some.mp h
    have hpos := (getExpectedLength_bounds data).1
    rw [List.length_drop]
    omega
  stable := by
    intro data p rest h more
    obtain ⟨hheader, hlen, rfl, rfl⟩ := nextPacket_eq_some.mp h
    rw [nextPacket_eq_some, getExpectedLength_append hheader, List.length_append,
      List.take_append_of_le_length (by omega), List.drop_append_of_le_length hlen]
    exact ⟨by omega, by omega, rfl, rfl⟩

/-- `AsyncStunTCPSocket::ProcessInput`. -/
def processInput (data : List Uint8) : List (List Uint8) × List Uint8 := packetCutter.drain data

def packetSocket : PacketSocket where
  maxPacketSize := kBufSize
  send := send
  processInput := processInput

/-! ## Whole messages -/

/-- **A whole message, by its own length field.** -/
inductive WholeMessage : List Uint8 → Prop where
  | stun (type length : Uint16) (body : List Uint8) :
      type.toNat < 2 ^ 14 → body.length = 16 + length.toNat →
      WholeMessage (wordBytes 2 type ++ (wordBytes 2 length ++ body))
  | channelData (channel length : Uint16) (body : List Uint8) :
      2 ^ 14 ≤ channel.toNat → body.length = length.toNat →
      WholeMessage (wordBytes 2 channel ++ (wordBytes 2 length ++ body))

/-- The zeros after a message. -/
def padding (p : List Uint8) : ℕ :=
  if (getBE16 p 0).toNat < 2 ^ 14 then 0 else (4 - p.length % 4) % 4

/-- A packet on the wire. -/
def frame (p : List Uint8) : List Uint8 := p ++ List.replicate (padding p) 0

theorem and_topBits (type : Uint16) : type &&& 0xC000#16 = type >>> 14 <<< 14 := by
  have hmask : ∀ i < 16, (0xC000#16).getLsbD i = decide (14 ≤ i) := by decide
  ext i hi
  have hbit := hmask i hi
  rw [BitVec.getLsbD_eq_getElem hi] at hbit
  rw [BitVec.getElem_and, hbit, BitVec.getElem_shiftLeft]
  by_cases h : i < 14
  · simp [h]
  · simp [h, BitVec.getLsbD_eq_getElem, Nat.not_lt.mp h, show 14 + (i - 14) = i by omega, hi]

theorem isStunMessage_iff (type : Uint16) : isStunMessage type = true ↔ type.toNat < 2 ^ 14 := by
  have hlt := type.isLt
  have hzero : type &&& 0xC000#16 = 0 ↔ type.toNat < 2 ^ 14 := by
    rw [and_topBits, ← BitVec.toNat_inj]
    simp only [BitVec.toNat_shiftLeft, BitVec.toNat_ushiftRight, Nat.shiftRight_eq_div_pow,
      Nat.shiftLeft_eq, BitVec.ofNat_eq_ofNat, BitVec.toNat_ofNat, Nat.zero_mod]
    omega
  rw [← hzero, isStunMessage]
  split_ifs with h
  · exact ⟨False.elim, fun h' => absurd h' h⟩
  · exact ⟨fun _ => not_not.mp h, fun _ => rfl⟩

theorem getBE16_type (type length : Uint16) (body : List Uint8) :
    getBE16 (wordBytes 2 type ++ (wordBytes 2 length ++ body)) 0 = type := by
  rw [getBE16, List.drop_zero, List.take_left' (length_wordBytes 2 type)]
  exact ofNat_wordBytes 2 type

theorem getBE16_length (type length : Uint16) (body : List Uint8) :
    getBE16 (wordBytes 2 type ++ (wordBytes 2 length ++ body)) 2 = length := by
  rw [getBE16, List.drop_left' (length_wordBytes 2 type),
    List.take_left' (length_wordBytes 2 length)]
  exact ofNat_wordBytes 2 length

theorem getExpectedLength_of_whole (h : WholeMessage p) : getExpectedLength p = (p.length, padding p) := by
  cases h with
  | stun type length body htype hbody =>
    have hlen : (wordBytes 2 type ++ (wordBytes 2 length ++ body)).length = 20 + length.toNat := by
      simp only [List.length_append, length_wordBytes, hbody]
      omega
    simp only [getExpectedLength, padding, kPacketLenOffset, getBE16_type, getBE16_length, hlen,
      if_pos htype, if_pos ((isStunMessage_iff type).mpr htype), kStunHeaderSize]
  | channelData channel length body hchannel hbody =>
    have hlen : (wordBytes 2 channel ++ (wordBytes 2 length ++ body)).length = 4 + length.toNat := by
      simp only [List.length_append, length_wordBytes, hbody]
      omega
    have hkind : ¬ channel.toNat < 2 ^ 14 := Nat.not_lt.mpr hchannel
    simp only [getExpectedLength, padding, kPacketLenOffset, getBE16_type, getBE16_length, hlen,
      if_neg hkind, if_neg (mt (isStunMessage_iff channel).mp hkind), kTurnChannelDataHdrSize]
    congr 1
    split_ifs <;> omega

theorem whole_of_getExpectedLength (hheader : 4 ≤ p.length)
    (h : p.length = (getExpectedLength p).1) : WholeMessage p := by
  have hsplit : p = wordBytes 2 (getBE16 p 0) ++ (wordBytes 2 (getBE16 p 2) ++ p.drop 4) := by
    have htype : wordBytes 2 (getBE16 p 0) = p.take 2 :=
      wordBytes_ofNat (by rw [List.drop_zero, List.length_take]; omega)
    have hlength : wordBytes 2 (getBE16 p 2) = (p.drop 2).take 2 :=
      wordBytes_ofNat (by rw [List.length_take, List.length_drop]; omega)
    rw [htype, hlength, show 4 = 2 + 2 from rfl, ← List.drop_drop, List.take_append_drop,
      List.take_append_drop]
  have hbody : (p.drop 4).length = p.length - 4 := List.length_drop
  unfold getExpectedLength kPacketLenOffset kStunHeaderSize kTurnChannelDataHdrSize at h
  dsimp only at h
  rw [hsplit]
  by_cases hkind : isStunMessage (getBE16 p 0) = true
  · rw [if_pos hkind] at h
    exact .stun _ _ _ ((isStunMessage_iff _).mp hkind) (by omega)
  · rw [if_neg hkind] at h
    exact .channelData _ _ _ (Nat.not_lt.mp (mt (isStunMessage_iff _).mpr hkind)) (by omega)

theorem WholeMessage.header_le (h : WholeMessage p) : 4 ≤ p.length := by
  cases h <;> simp only [List.length_append, length_wordBytes] <;> omega

theorem length_frame (p : List Uint8) : (frame p).length = p.length + padding p := by
  rw [frame, List.length_append, List.length_replicate]

theorem length_frame_lt (h : WholeMessage p) : (frame p).length < kBufSize := by
  have hbound := (getExpectedLength_bounds p).2
  rwa [getExpectedLength_of_whole h, ← length_frame] at hbound

theorem frames : packetCutter.Frames WholeMessage frame := by
  intro p hp
  have hexpected : getExpectedLength (frame p) = (p.length, padding p) := by
    rw [frame, getExpectedLength_append hp.header_le, getExpectedLength_of_whole hp]
  have hlen := length_frame p
  change nextPacket (frame p) = some (p, [])
  refine nextPacket_eq_some.mpr ⟨?_, ?_, ?_, ?_⟩
  · have := hp.header_le
    omega
  · rw [hexpected, hlen]
  · rw [hexpected, frame, List.take_left]
  · rw [hexpected, ← hlen, List.drop_length]

theorem speaks : Speaks packetSocket packetCutter WholeMessage frame where
  frames := frames
  processInput := fun _ => rfl
  fits := fun _ hp => length_frame_lt hp
  waits := by
    intro buf h
    change nextPacket buf = none at h
    have hbounds := getExpectedLength_bounds buf
    by_contra hlong
    change ¬ buf.length < kBufSize at hlong
    rw [nextPacket_eq_some.mpr ⟨by omega, by omega, rfl, rfl⟩] at h
    cases h

/-! ## What `Send` does -/

/-- What `Send` queues is one whole message, into an empty buffer. -/
theorem send_queues_whole {s : AsyncTCPSocketBase} {pv : List Uint8} {accept : ℤ}
    (h : (send s pv accept).2 ≠ ([], s)) : WholeMessage pv ∧ s.outbuf = [] := by
  unfold send kPacketLenSize kPacketLenOffset at h
  dsimp only at h
  split_ifs at h with hsize hbusy hwhole
  · exact absurd rfl h
  · exact absurd rfl h
  · exact absurd rfl h
  · rw [Bool.not_eq_true', Bool.not_eq_false, s.isOutBufferEmpty_iff] at hbusy
    exact ⟨whole_of_getExpectedLength (by omega) (not_not.mp hwhole), hbusy⟩

theorem send_framed {s : AsyncTCPSocketBase} (hsize : s.outsize = kBufSize) (pv : List Uint8)
    (accept : ℤ) : SendsFrame WholeMessage frame packetSocket s pv accept := by
  by_cases hnone : (send s pv accept).2 = ([], s)
  · exact .inl hnone
  obtain ⟨hwhole, hout⟩ := send_queues_whole hnone
  have hfits := length_frame_lt hwhole
  have hlen := length_frame pv
  have hpacket : s.appendToOutBuffer pv = { s with outbuf := pv } := by
    rw [AsyncTCPSocketBase.appendToOutBuffer_of_fits, hout, List.nil_append]
    rw [AsyncTCPSocketBase.outpos, hout, List.length_nil, hsize]
    omega
  have hpadding : ({ s with outbuf := pv } : AsyncTCPSocketBase).appendToOutBuffer
      (List.replicate (padding pv) 0) = { s with outbuf := frame pv } := by
    rw [AsyncTCPSocketBase.appendToOutBuffer_of_fits]
    · rfl
    · change pv.length + _ < s.outsize
      rw [List.length_replicate, hsize]
      omega
  refine sendsFrame_of_finishSend hout hwhole ?_
  have hempty : s.isOutBufferEmpty = true := s.isOutBufferEmpty_iff.mpr hout
  have hheader := hwhole.header_le
  change send s pv accept = _
  rw [send, if_neg (by unfold kPacketLenSize kPacketLenOffset; omega), hempty,
    getExpectedLength_of_whole hwhole]
  dsimp only
  rw [hpacket, hpadding]
  simp

/-! ## Runs -/

/-- Of the packets queued those are reported whose bytes have arrived. -/
structure Delivers (l : Link) : Prop where
  whole : ∀ p ∈ l.queued, WholeMessage p
  arrived : l.arrived <+: Cutter.wire frame l.queued
  reported : l.reported <+: l.queued
  reported_iff : ∀ n ≤ l.queued.length,
    n ≤ l.reported.length ↔ (Cutter.wire frame (l.queued.take n)).length ≤ l.arrived.length
  outpos : l.sender.outpos ≤ l.sender.outsize
  inpos : l.receiver.inpos ≤ l.receiver.insize
  sender_failed : l.sender.failed = []
  receiver_failed : l.receiver.failed = []

/-- **The packets reported are the queued ones whose bytes have arrived**, and only whole messages
are queued. -/
theorem messages_delivered :
    (∀ s pv accept, (send s pv accept).2 ≠ ([], s) → WholeMessage pv) ∧
      ∀ ops : List LinkOp,
        Delivers (run (Link.step packetSocket) (Link.new packetSocket) ops) := by
  refine ⟨fun s pv accept h => (send_queues_whole h).1, fun ops => ?_⟩
  have hguarded : Guarded (Link.step packetSocket) (fun _ _ => True) (Link.new packetSocket) ops :=
    guarded_true _ ops
  have hinv := run_invariant
    (I := fun l => CutUp packetSocket packetCutter l ∧ Carried packetSocket WholeMessage frame l)
    (fun l op hl _ =>
      ⟨cutUp_step speaks hl.1 op, carried_step speaks hl.2 op fun pv accept _ =>
        send_framed hl.2.outsize pv accept⟩)
    ⟨cutUp_new, carried_new speaks⟩ hguarded
  exact {
    whole := hinv.2.ok
    arrived := ⟨_, hinv.2.arrived⟩
    reported := reported_eq speaks hinv.1 hinv.2
    reported_iff := fun _ hn => reported_iff speaks hinv.1 hinv.2 hn
    outpos := Nat.le_of_lt hinv.2.outpos
    inpos := Nat.le_of_lt (hinv.1.inpos_lt speaks)
    sender_failed := hinv.2.failed
    receiver_failed := hinv.1.failed }

/-! ## Any stream -/

def LiesIn (p framed : List Uint8) : Prop := ∃ pad, framed = p ++ pad ∧ pad.length = padding p

theorem nextPacket_whole {rest : List Uint8} (h : nextPacket data = some (p, rest)) :
    WholeMessage p ∧ ∃ framed, LiesIn p framed ∧ data = framed ++ rest := by
  obtain ⟨hheader, hle, rfl, rfl⟩ := nextPacket_eq_some.mp h
  have hmin := (getExpectedLength_bounds data).1
  have hlength : (data.take (getExpectedLength data).1).length = (getExpectedLength data).1 :=
    List.length_take_of_le (by omega)
  have hexpected : getExpectedLength data = getExpectedLength (data.take (getExpectedLength data).1) := by
    have happend := getExpectedLength_append (hmin.trans hlength.ge) (data.drop (getExpectedLength data).1)
    rwa [List.take_append_drop] at happend
  have hwhole : WholeMessage (data.take (getExpectedLength data).1) :=
    whole_of_getExpectedLength (hmin.trans hlength.ge) (by rw [← hexpected, hlength])
  have hpadding : (getExpectedLength data).2 = padding (data.take (getExpectedLength data).1) :=
    congrArg Prod.snd (hexpected.trans (getExpectedLength_of_whole hwhole))
  refine ⟨hwhole, data.take ((getExpectedLength data).1 + (getExpectedLength data).2),
    ⟨(data.drop (getExpectedLength data).1).take (getExpectedLength data).2, List.take_add, ?_⟩,
    (List.take_append_drop _ _).symm⟩
  rw [List.length_take, List.length_drop, ← hpadding]
  omega

theorem drain_whole (data : List Uint8) :
    (∀ p ∈ (packetCutter.drain data).1, WholeMessage p) ∧
      ∃ framed, List.Forall₂ LiesIn (packetCutter.drain data).1 framed ∧
        data = framed.flatten ++ (packetCutter.drain data).2 := by
  induction data using Cutter.drain.induct packetCutter with
  | case1 data hcut =>
    rw [Cutter.drain_none hcut]
    exact ⟨fun _ hp => absurd hp List.not_mem_nil, [], .nil, rfl⟩
  | case2 data p rest hcut _ ih =>
    obtain ⟨hwhole, first, hlies, hdata⟩ := nextPacket_whole hcut
    obtain ⟨hall, framed, hframed, hrest⟩ := ih
    rw [Cutter.drain_some hcut]
    refine ⟨List.forall_mem_cons.mpr ⟨hwhole, hall⟩, first :: framed, .cons hlies hframed, ?_⟩
    rw [List.flatten_cons, List.append_assoc, ← hrest]
    exact hdata

def arriving (stream : List Uint8) : Link := { Link.new packetSocket with stream := stream }

theorem cutUp_arriving (stream : List Uint8) (ops : List LinkOp) :
    CutUp packetSocket packetCutter (run (Link.step packetSocket) (arriving stream) ops) := by
  have hstart : CutUp packetSocket packetCutter (arriving stream) := ⟨rfl, cutUp_new.cut, rfl⟩
  exact run_invariant (I := fun l => CutUp packetSocket packetCutter l)
    (fun _ op h _ => cutUp_step speaks h op) hstart (guarded_true _ ops)

theorem reported_whole (stream : List Uint8) (ops : List LinkOp) :
    ∀ p ∈ (run (Link.step packetSocket) (arriving stream) ops).reported, WholeMessage p := by
  have hwhole := (drain_whole (run (Link.step packetSocket) (arriving stream) ops).arrived).1
  rwa [(cutUp_arriving stream ops).cut] at hwhole

/-- **Whatever arrives, and in whatever pieces, is cut into whole messages.** -/
theorem received_whole (stream : List Uint8) (ops : List LinkOp) :
    let l := run (Link.step packetSocket) (arriving stream) ops
    (∀ p ∈ l.reported, WholeMessage p) ∧
      (∃ framed, List.Forall₂ LiesIn l.reported framed ∧ l.arrived = framed.flatten ++ l.receiver.inbuf) ∧
      l.receiver.inpos < l.receiver.insize ∧ l.receiver.failed = [] := by
  intro l
  have hcut : CutUp packetSocket packetCutter l := cutUp_arriving stream ops
  have hframed := (drain_whole l.arrived).2
  rw [hcut.cut] at hframed
  exact ⟨reported_whole stream ops, hframed, hcut.inpos_lt speaks, hcut.failed⟩

end AsyncStunTCPSocket

end Libjingle
