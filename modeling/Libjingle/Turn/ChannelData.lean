import Libjingle.Stun.Signing
import Libjingle.Tcp.AsyncStunTCPSocket
import Libjingle.Turn.Permissions

/-!
# The payload of channel data

Main results: **`channelData_exact_iff`**, **`TurnServer.framed_exact`**.
-/

namespace Libjingle

open Lib StunMessage

/-- The length that the header of channel data declares. -/
def declaredLength (packet : RawPacket) : ℕ := (getBE16 packet.data 2).toNat

/-- The bytes that a channel message declares, if they are there. -/
def declaredPayload (p : AllocationId) (channel : Channel) (packet : RawPacket) : List Sent :=
  if declaredLength packet ≤ packet.size - turnChannelHeaderSize then
    [.external p channel.peer
      ((packet.bytes.drop turnChannelHeaderSize).take (declaredLength packet))]
  else []

variable {a : Allocation} {p : AllocationId} {packet : RawPacket} {channel : Channel}

@[simp] theorem length_bytes (packet : RawPacket) : packet.bytes.length = packet.size :=
  length_block packet.data 0 packet.size

theorem take_bytes {n : ℕ} (h : n ≤ packet.size) : packet.bytes.take n = block packet.data 0 n := by
  obtain ⟨k, hk⟩ := Nat.exists_eq_add_of_le h
  rw [RawPacket.bytes, hk, block_add]
  exact List.take_left' (length_block packet.data 0 n)

theorem handleChannelData_eq (hsize : turnChannelHeaderSize ≤ packet.size)
    (hchannel : a.findChannel (getBE16 packet.data 0).toNat = some channel) :
    a.handleChannelData p packet.bytes =
      [.external p channel.peer (packet.bytes.drop turnChannelHeaderSize)] := by
  have hheader : turnChannelHeaderSize = 4 := rfl
  have hfind : a.findChannel (BitVec.ofNat 16 (beValue (packet.bytes.take 2)) : Uint16).toNat =
      some channel := by
    rw [take_bytes (by omega)]
    exact hchannel
  unfold Allocation.handleChannelData
  rw [hfind]

theorem eq_declaredPayload_iff :
    [.external p channel.peer (packet.bytes.drop turnChannelHeaderSize)] =
        declaredPayload p channel packet ↔
      declaredLength packet = packet.size - turnChannelHeaderSize := by
  have hlength : (packet.bytes.drop turnChannelHeaderSize).length =
      packet.size - turnChannelHeaderSize := by
    rw [List.length_drop, length_bytes]
  unfold declaredPayload
  constructor
  · intro h
    split_ifs at h with hle
    have hpayload := (Sent.external.inj (List.singleton_inj.mp h)).2.2
    have hlengths := congrArg List.length hpayload
    rw [List.length_take, hlength] at hlengths
    omega
  · intro h
    rw [if_pos h.le, h, ← hlength, List.take_length]

namespace TurnServer

/-- **When the declared payload is relayed**: just if the packet declares all the bytes behind its
header. -/
theorem channelData_exact_iff (cfg : TurnConfig) (s : TurnServer) (socket : SocketId)
    (addr : SocketAddress) (packet : RawPacket) (external : Option SocketAddress) (entry : InternalSocket)
    (p : AllocationId) (a : Allocation) (channel : Channel) (hentry : s.findSocket socket = some entry)
    (hsize : turnChannelHeaderSize ≤ packet.size)
    (hdata : isTurnChannelData (getBE16 packet.data 0) = true)
    (hallocation : s.findAllocation ⟨addr, entry.remote, entry.proto, socket⟩ = some p)
    (ha : s.heap p = some a)
    (hchannel : a.findChannel (getBE16 packet.data 0).toNat = some channel) :
    ∃ sent, s.step cfg (.internalPacket socket addr packet external) = some (s, sent) ∧
      (sent = declaredPayload p channel packet ↔
        declaredLength packet = packet.size - turnChannelHeaderSize) := by
  refine ⟨a.handleChannelData p packet.bytes, ?_, ?_⟩
  · change s.onInternalPacket cfg socket addr packet external = _
    unfold onInternalPacket
    rw [if_neg (Nat.not_lt.mpr hsize), hentry]
    simp only [Option.bind_eq_bind, Option.bind_some, hdata, Bool.not_true, Bool.false_eq_true, if_false,
      hallocation, ha]
  · rw [handleChannelData_eq hsize hchannel]
    exact eq_declaredPayload_iff

end TurnServer

/-! ## Over TCP -/

theorem getBE16_packetData {d : List Uint8} {pos : ℕ} (h : pos + 2 ≤ d.length) :
    getBE16 (packetData d) pos = AsyncStunTCPSocket.getBE16 d pos := by
  have hpair : block (packetData d) pos 2 = (d.drop pos).take 2 := by
    obtain ⟨k, hk⟩ := Nat.exists_eq_add_of_le h
    have hdrop := drop_block (packetData d) 0 d.length pos
    rw [block_packetData, Nat.zero_add, show d.length - pos = 2 + k by omega, block_add] at hdrop
    rw [hdrop]
    exact (List.take_left' (length_block _ _ _)).symm
  rw [getBE16, hpair, AsyncStunTCPSocket.getBE16]

theorem declares_whole {d : List Uint8} (h : AsyncStunTCPSocket.WholeMessage d)
    (hdata : isTurnChannelData (getBE16 (packetData d) 0) = true) :
    turnChannelHeaderSize ≤ d.length ∧
      declaredLength ⟨packetData d, d.length⟩ = d.length - turnChannelHeaderSize := by
  have hheader : 4 ≤ d.length := h.header_le
  refine ⟨hheader, ?_⟩
  rw [declaredLength, getBE16_packetData (by omega)]
  rw [getBE16_packetData (by omega)] at hdata
  cases h with
  | stun type length body htype hbody =>
    rw [AsyncStunTCPSocket.getBE16_type] at hdata
    have hbits : type &&& 0xC000#16 = 0x4000#16 := of_decide_eq_true hdata
    have hstun := (AsyncStunTCPSocket.isStunMessage_iff type).mpr htype
    unfold AsyncStunTCPSocket.isStunMessage at hstun
    rw [hbits] at hstun
    exact absurd hstun (by decide)
  | channelData channel length body hchannel hbody =>
    rw [AsyncStunTCPSocket.getBE16_length, List.length_append, List.length_append, length_wordBytes,
      length_wordBytes, hbody, ← Nat.add_assoc]
    exact (Nat.add_sub_cancel_left _ _).symm

theorem TurnServer.step_channelData (cfg : TurnConfig) {s : TurnServer} {socket : SocketId}
    {addr : SocketAddress} (packet : RawPacket) (external : Option SocketAddress) {entry : InternalSocket}
    (hentry : s.findSocket socket = some entry) (hsize : turnChannelHeaderSize ≤ packet.size)
    (hdata : isTurnChannelData (getBE16 packet.data 0) = true)
    (hallocation : s.findAllocation ⟨addr, entry.remote, entry.proto, socket⟩ = some p)
    (ha : s.heap p = some a) (hchannel : a.findChannel (getBE16 packet.data 0).toNat = some channel) :
    s.step cfg (.internalPacket socket addr packet external) =
      some (s, [.external p channel.peer (packet.bytes.drop turnChannelHeaderSize)]) := by
  change s.onInternalPacket cfg socket addr packet external = _
  unfold onInternalPacket
  rw [if_neg (Nat.not_lt.mpr hsize), hentry, ← handleChannelData_eq hsize hchannel]
  simp only [Option.bind_eq_bind, Option.bind_some, hdata, Bool.not_true, Bool.false_eq_true, if_false,
    hallocation, ha]

/-- **Over TCP exactly the declared payload is relayed**, whatever bytes arrive and in whatever
pieces. -/
theorem TurnServer.framed_exact (cfg : TurnConfig) (s : TurnServer) (socket : SocketId) (addr : SocketAddress)
    (external : Option SocketAddress) (entry : InternalSocket) (p : AllocationId) (a : Allocation)
    (channel : Channel) (stream : List Uint8) (ops : List LinkOp) (d : List Uint8)
    (hreported : d ∈ (run (Link.step AsyncStunTCPSocket.packetSocket)
      (AsyncStunTCPSocket.arriving stream) ops).reported)
    (hentry : s.findSocket socket = some entry)
    (hdata : isTurnChannelData (getBE16 (packetData d) 0) = true)
    (hallocation : s.findAllocation ⟨addr, entry.remote, entry.proto, socket⟩ = some p)
    (ha : s.heap p = some a)
    (hchannel : a.findChannel (getBE16 (packetData d) 0).toNat = some channel) :
    s.step cfg (.internalPacket socket addr ⟨packetData d, d.length⟩ external) =
      some (s, declaredPayload p channel ⟨packetData d, d.length⟩) := by
  have hwhole := AsyncStunTCPSocket.reported_whole stream ops d hreported
  obtain ⟨hsize, hdeclared⟩ := declares_whole hwhole hdata
  rw [step_channelData cfg ⟨packetData d, d.length⟩ external hentry hsize hdata hallocation ha hchannel]
  exact congrArg (fun sent => some (s, sent)) (eq_declaredPayload_iff.mpr hdeclared)

section Example

def examplePaddedData : RawPacket := ⟨packetData [0x40, 0, 0, 1, 7, 0, 0, 0], 8⟩

def exampleShortData : RawPacket := ⟨packetData [0x40, 0, 0, 9, 7], 5⟩

def exampleBoundChannel : Channel := ⟨0x4000, examplePeer, kChannelTimeout⟩

def exampleBoundAllocation : Allocation :=
  (exampleBound.heap 0).getD ⟨⟨exampleClient, .ofIP .unspec 0, .udp, 0⟩, exampleClient, [], [], [], [], [],
    [], []⟩

theorem TurnServer.exampleBound_channel :
    exampleBound.findSocket 0 = some exampleSocket ∧
      exampleBound.findAllocation ⟨exampleClient, exampleSocket.remote, exampleSocket.proto, 0⟩ = some 0 ∧
      exampleBound.heap 0 = some exampleBoundAllocation ∧
      exampleBoundAllocation.findChannel (getBE16 exampleChannelData.data 0).toNat =
        some exampleBoundChannel := by
  decide +kernel

/-- A message that declares all its bytes. -/
theorem TurnServer.channelData_exact_iff_whole :
    exampleBound.step exampleConfig exampleChannelEvent =
      some (exampleBound, declaredPayload 0 exampleBoundChannel exampleChannelData) := by
  obtain ⟨hsocket, hallocation, hheap, hchannel⟩ := exampleBound_channel
  obtain ⟨sent, hstep, hexact⟩ := channelData_exact_iff exampleConfig exampleBound 0 exampleClient
    exampleChannelData none exampleSocket 0 exampleBoundAllocation exampleBoundChannel hsocket
    (by decide) (by decide) hallocation hheap hchannel
  exact hstep.trans (by rw [hexact.mpr (by decide)])

/-- **The padding is sent to the peer**, and a byte of the nine that are declared. -/
theorem TurnServer.channelData_padded :
    (exampleBound.sentAt exampleConfig (.internalPacket 0 exampleClient examplePaddedData none) =
        [.external 0 examplePeer [7, 0, 0, 0]] ∧
      declaredPayload 0 exampleBoundChannel examplePaddedData = [.external 0 examplePeer [7]]) ∧
    exampleBound.sentAt exampleConfig (.internalPacket 0 exampleClient exampleShortData none) =
        [.external 0 examplePeer [7]] ∧
      declaredPayload 0 exampleBoundChannel exampleShortData = [] := by
  decide +kernel

theorem reported_example : [0x40, 0, 0, 1, 7] ∈ (run (Link.step AsyncStunTCPSocket.packetSocket)
    (AsyncStunTCPSocket.arriving [0x40, 0, 0, 1, 7, 0, 0, 0]) [.readEvent 8]).reported := by
  have hcut : AsyncStunTCPSocket.packetCutter.drain [0x40, 0, 0, 1, 7, 0, 0, 0] = ([[0x40, 0, 0, 1, 7]], []) := by
    have hfirst : AsyncStunTCPSocket.packetCutter.cut [0x40, 0, 0, 1, 7, 0, 0, 0] = some ([0x40, 0, 0, 1, 7], []) := by
      decide
    rw [Cutter.drain_some hfirst, Cutter.drain_none (by decide)]
  change _ ∈ (AsyncTCPSocketBase.onReadEvent (.new AsyncStunTCPSocket.kBufSize)
    AsyncStunTCPSocket.packetCutter.drain (some [0x40, 0, 0, 1, 7, 0, 0, 0])).1
  unfold AsyncTCPSocketBase.onReadEvent
  dsimp only [AsyncTCPSocketBase.new, List.nil_append]
  rw [hcut]
  split_ifs <;> exact List.mem_singleton_self _

theorem TurnServer.framed_exact_padded :
    exampleBound.step exampleConfig
        (.internalPacket 0 exampleClient ⟨packetData [0x40, 0, 0, 1, 7], 5⟩ none) =
      some (exampleBound, declaredPayload 0 exampleBoundChannel ⟨packetData [0x40, 0, 0, 1, 7], 5⟩) :=
  framed_exact exampleConfig exampleBound 0 exampleClient none exampleSocket 0 exampleBoundAllocation
    exampleBoundChannel _ _ _ reported_example (by decide +kernel) (by decide) (by decide +kernel)
    (by decide +kernel) (by decide +kernel)

end Example

end Libjingle
