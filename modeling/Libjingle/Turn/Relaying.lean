import Libjingle.Stun.Attributes
import Libjingle.Turn.ChannelData
import Libjingle.Turn.Entries

/-!
# Data between a TURN client and a peer

Main results: **`TurnServer.step_sendTo`**, **`TurnPort.onReadPacket_external`**.
-/

variable {msg : StunMessage} {packet : RawPacket}

namespace Libjingle

open Lib StunMessage

/-! ## Messages that are read back -/

theorem Built.append {kind : MessageClass} {attr : StunAttribute} (h : Built kind msg)
    (hknown : attr.value.valueType = kind.getAttributeValueType attr.type) :
    Built kind (msg.addAttribute attr).1 ∧ (msg.addAttribute attr).1 = msg.append attr := by
  rw [← h.wellFormed.kind_eq] at hknown
  have hadd := addAttribute_eq_append hknown
  exact ⟨.addAttribute h (by rw [hadd]), by rw [hadd]⟩

/-- **A message that was written is read back**, as a packet and not as channel data. -/
theorem read_written {kind : MessageClass} (hbuilt : Built kind msg) (henc : msg.Encodable)
    (hid : msg.transactionId.length = kStunTransactionIdLength) :
    ∃ bytes, msg.write = some bytes ∧ 4 ≤ bytes.length ∧ getBE16 (packetData bytes) 0 = msg.type ∧
      read kind (block (packetData bytes) 0 bytes.length) =
        some ({ msg with attrs := msg.attrs.map StunAttribute.forgetHostname }, []) := by
  have hwf := hbuilt.wellFormed
  have htallied : Tallied msg := ⟨by rw [isValidTransactionId, hid]; rfl, hwf.length_eq⟩
  have hlegacy : msg.isLegacy = false := by rw [isLegacy, hid]; rfl
  obtain ⟨area, rounds, harea, hrounds, hattrs, hlen⟩ :=
    rounds_writeAttributes hwf.known henc.value (size_le_of_paddedSize henc.total)
  have hwrite : msg.write = some (msg.header ++ area) := (write_eq_some hlegacy).mpr ⟨area, harea, rfl⟩
  have hlength : msg.length.toNat = area.length := by
    have hle : msg.paddedSize < 2 ^ 16 := Nat.lt_succ_of_le henc.total
    rw [length_of_tallied htallied henc.total, BitVec.toNat_ofNat, Nat.mod_eq_of_lt hle, hlen]
    rfl
  have hid' : msg.transactionId = readTransactionId (writeUInt32 kStunMagicCookie) msg.transactionId := by
    have heq : BitVec.ofNat 32 (beValue (writeUInt32 kStunMagicCookie)) = kStunMagicCookie :=
      ofNat_wordBytes 4 kStunMagicCookie
    rw [readTransactionId, if_neg (not_not.mpr heq)]
  have hread : readRounds kind (msg.header ++ area) =
      some ({ msg with attrs := msg.attrs.map StunAttribute.forgetHostname }, rounds, []) :=
    readRounds_eq_some.mpr ⟨area, readHeader_eq_some.mpr ⟨_, _, rfl, length_wordBytes 4 _, hid,
      and_0x8000_of_lt hwf.type_lt, hlength, hid'⟩, hrounds, hwf.kind_eq, hattrs.symm, rfl⟩
  have hblock := block_packetData (msg.header ++ area)
  refine ⟨_, hwrite, ?_, ?_, by rw [hblock, StunMessage.read, hread, Option.map_some]⟩
  · simp only [header, List.length_append, length_writeUInt16]
    omega
  · simp only [header, List.append_assoc] at hblock ⊢
    exact getBE16_of_append hblock

/-! ## The two ways to send data -/

/-- The indications that carry data. -/
def dataIndication (type : Uint16) (transactionId : List Uint8) (peer : SocketAddress) (data : List Uint8) :
    StunMessage :=
  let msg := ((StunMessage.new .turn).setType type).setTransactionID transactionId
  let msg := (msg.1.addAttribute ⟨attrXorPeerAddress, .xorAddress peer⟩).1
  (msg.addAttribute ⟨attrData, .byteString data⟩).1

/-- Channel data as it is sent. -/
def channelMessage (channelId : ℕ) (data : List Uint8) : List Uint8 :=
  writeUInt16 (BitVec.ofNat 16 channelId) ++ writeUInt16 (BitVec.ofNat 16 data.length) ++ data

/-- What `TurnEntry::Send` writes. -/
def TurnOutput.bytes (transactionId : List Uint8) : TurnOutput → Option (List Uint8)
  | .sendIndication peer data => (dataIndication turnSendIndication transactionId peer data).write
  | .channelMessage channelId data => some (Libjingle.channelMessage channelId data)
  | _ => none

/-- What `TurnServer::Send` gets. -/
def Sent.bytes : Sent → Option (List Uint8)
  | .stun _ msg | .dataIndication _ _ _ msg => msg.write
  | .channelMessage _ _ _ buf => some buf
  | .external .. => none

variable {id : List Uint8} {peer : SocketAddress} {data : List Uint8} {type : Uint16}

theorem dataIndication_built (htype : type.toNat < 0x8000) (hid : id.length = kStunTransactionIdLength) :
    Built .turn (dataIndication type id peer data) ∧ (dataIndication type id peer data).type = type ∧
      (dataIndication type id peer data).transactionId = id ∧ (dataIndication type id peer data).attrs =
        [⟨attrXorPeerAddress, .xorAddress peer⟩, ⟨attrData, .byteString data⟩] := by
  have hvalid : isValidTransactionId id = true := by rw [isValidTransactionId, hid]; rfl
  have hset : ((StunMessage.new .turn).setType type).setTransactionID id =
      (⟨.turn, type, 0, id, []⟩, true) := if_pos hvalid
  have h : Built .turn (((StunMessage.new .turn).setType type).setTransactionID id).1 :=
    .setTransactionID (.setType .new htype) (by rw [hset]) fun h => by rw [hid] at h; cases h
  obtain ⟨h₁, heq₁⟩ := @Built.append _ _ ⟨attrXorPeerAddress, .xorAddress peer⟩ h rfl
  obtain ⟨h₂, heq₂⟩ := @Built.append _ _ ⟨attrData, .byteString data⟩ h₁ rfl
  rw [dataIndication]
  refine ⟨h₂, ?_⟩
  rw [heq₂, heq₁, hset]
  exact ⟨rfl, rfl, rfl⟩

theorem read_dataIndication {more : List StunAttribute} (hbuilt : Built .turn msg)
    (hid : msg.transactionId.length = kStunTransactionIdLength) (hpeer : peer.ip ≠ .unspec)
    (hname : peer.hostname = []) (hattrs : msg.attrs = ⟨attrXorPeerAddress, .xorAddress peer⟩ ::
      ⟨attrData, .byteString data⟩ :: more)
    (hmore : ∀ attr ∈ more, attr.value.Encodable msg.transactionId)
    (hsize : data.length + (more.map StunAttribute.paddedSize).sum ≤ 65504) :
    ∃ bytes msg', msg.write = some bytes ∧ turnChannelHeaderSize ≤ bytes.length ∧
      getBE16 (packetData bytes) 0 = msg.type ∧
      StunMessage.read .turn (block (packetData bytes) 0 bytes.length) = some (msg', []) ∧ msg'.type = msg.type ∧
      msg'.getString attrData = some data ∧ msg'.getSocketAddress attrXorPeerAddress = some peer := by
  have henc : msg.Encodable := by
    constructor
    · intro attr hattr
      rw [hattrs, List.mem_cons, List.mem_cons] at hattr
      rcases hattr with rfl | rfl | hattr
      · unfold StunValue.Encodable
        dsimp only
        split
        · trivial
        · exact hid
        · rename_i hunspec
          exact absurd hunspec hpeer
      · trivial
      · exact hmore attr hattr
    · have haddr : (StunValue.addressLength peer.ip).toNat ≤ 20 := by
        cases peer.ip with
        | unspec => exact Nat.zero_le _
        | v4 => exact Nat.le_of_ble_eq_true rfl
        | v6 => exact Nat.le_refl _
      rw [hattrs, List.map_cons, List.map_cons, List.sum_cons, List.sum_cons]
      simp only [StunAttribute.paddedSize, StunValue.size]
      omega
  obtain ⟨bytes, hwrite, hlen, htype, hread⟩ := read_written hbuilt henc hid
  have hpeer' : SocketAddress.ofIP peer.ip peer.port = peer := by
    cases peer
    cases hname
    rfl
  refine ⟨bytes, _, hwrite, hlen, htype, hread, rfl, ?_, ?_⟩
  · unfold getString getByteString getAttribute
    dsimp only
    rw [hattrs]
    rfl
  · unfold getSocketAddress getAddress getAttribute
    dsimp only
    rw [hattrs, ← hpeer']
    rfl

/-! ## Channel messages -/

theorem isTurnChannelData_ofNat {n : ℕ} (hmin : kMinChannelNumber ≤ n) (hmax : n ≤ kMaxChannelNumber) :
    isTurnChannelData (BitVec.ofNat 16 n) = true := by
  have hmin' : 2 ^ 14 ≤ n := hmin
  have hmax' : n < 2 ^ 15 := Nat.lt_succ_of_le hmax
  have htoNat : (BitVec.ofNat 16 n).toNat = n := by
    rw [BitVec.toNat_ofNat, Nat.mod_eq_of_lt (by omega)]
  refine decide_eq_true ((AsyncStunTCPSocket.and_topBits _).trans (BitVec.eq_of_toNat_eq ?_))
  rw [BitVec.toNat_shiftLeft, BitVec.toNat_ushiftRight, htoNat, Nat.shiftRight_eq_div_pow, Nat.shiftLeft_eq,
    show BitVec.toNat (0x4000 : Uint16) = 2 ^ 14 from rfl]
  omega

/-- A channel message in a packet: its channel, and the data behind the declared length. -/
structure CarriesData (packet : RawPacket) (channelId : ℕ) (data : List Uint8) : Prop where
  size : packet.size = turnChannelHeaderSize + data.length
  type : isTurnChannelData (getBE16 packet.data 0) = true
  channelId : (getBE16 packet.data 0).toNat = channelId
  length : (getBE16 packet.data 2).toNat = data.length
  data : block packet.data turnChannelHeaderSize data.length = data

theorem carriesData_channelMessage {n : ℕ} (hmin : kMinChannelNumber ≤ n) (hmax : n ≤ kMaxChannelNumber)
    (hsize : data.length ≤ 65504) :
    CarriesData ⟨packetData (channelMessage n data), (channelMessage n data).length⟩ n data := by
  have hlength : (channelMessage n data).length = 4 + data.length := by
    simp only [channelMessage, List.length_append, length_writeUInt16]
  have hn : n < 2 ^ 16 := hmax.trans_lt (by decide)
  have hblock := block_packetData (channelMessage n data)
  rw [channelMessage, List.append_assoc] at hblock
  obtain ⟨-, hrest⟩ := block_eq_append hblock
  obtain ⟨-, hdata⟩ := block_eq_append hrest.symm
  have htype := getBE16_of_append hblock
  have hfield := getBE16_of_append hrest.symm
  simp only [length_writeUInt16, Nat.zero_add, ← List.append_assoc] at htype hfield hdata
  rw [← channelMessage] at htype hfield hdata
  refine ⟨hlength, ?_, ?_, ?_, ?_⟩
  · rw [htype]
    exact isTurnChannelData_ofNat hmin hmax
  · rw [htype, BitVec.toNat_ofNat, Nat.mod_eq_of_lt hn]
  · rw [hfield, BitVec.toNat_ofNat, Nat.mod_eq_of_lt (by omega)]
  · rw [hlength] at hdata
    refine Eq.trans ?_ hdata.symm
    congr 1
    omega

theorem CarriesData.drop_bytes {channelId : ℕ} (h : CarriesData packet channelId data) :
    packet.bytes.drop turnChannelHeaderSize = data := by
  rw [RawPacket.bytes, drop_block, h.size, Nat.add_sub_cancel_left, Nat.zero_add, h.data]

/-! ## Both ends -/

/-- Client and server know the same peers. -/
structure Paired (port : TurnPort) (a : Allocation) : Prop where
  channels : ∀ c ∈ a.channels, kMinChannelNumber ≤ c.id ∧ c.id ≤ kMaxChannelNumber ∧ c.peer.hostname = [] ∧
    ∃ e, port.findEntryByChannel c.id = some e ∧ e.address = c.peer
  bound : ∀ e ∈ port.entries, e.state = .bound → ∃ c, a.findChannel e.channelId = some c ∧ c.peer = e.address
  entries : ∀ e ∈ port.entries, e.address.hostname = [] ∧ e.address.ip ≠ .unspec ∧
    a.hasPermission e.address.ip = true
  perms : ∀ perm ∈ a.perms, port.hasPermission perm.peer = true

variable {a : Allocation} {port : TurnPort}

theorem Paired.peer_eq {c : Channel} (h : Paired port a) (hfind : a.findChannelByPeer peer = some c)
    (hname : peer.hostname = []) : c ∈ a.channels ∧ c.peer = peer := by
  have hmem := List.mem_of_find?_eq_some hfind
  have hequal := List.find?_some hfind
  obtain ⟨-, -, hname', -⟩ := h.channels c hmem
  simp only [SocketAddress.equal, SocketAddress.equalIPs, SocketAddress.equalPorts, Bool.and_eq_true,
    decide_eq_true_eq] at hequal
  refine ⟨hmem, ?_⟩
  cases hc : c.peer with
  | mk hostname ip port =>
    rw [hc] at hequal hname'
    cases peer
    exact SocketAddress.mk.injEq .. |>.mpr ⟨hname'.trans hname.symm, hequal.1.1, hequal.2⟩

theorem TurnPort.onReadPacket_channel (w : TurnSurroundings) {channelId : ℕ} {e : TurnEntry}
    (h : CarriesData packet channelId data) (he : port.findEntryByChannel channelId = some e) :
    port.onReadPacket w packet.data packet.size = port.emit (port.dispatchPacket data e.address) := by
  have hsize : ¬packet.size < turnChannelHeaderSize := by rw [h.size]; omega
  have hlen : ¬data.length > packet.size - turnChannelHeaderSize := by rw [h.size]; omega
  rw [onReadPacket, if_neg hsize, if_pos h.type, h.channelId, handleChannelData, h.length, if_neg hlen, he, h.data]

theorem TurnPort.onReadPacket_indication (w : TurnSurroundings) {buf : ℕ → Uint8} {size : ℕ}
    (hsize : turnChannelHeaderSize ≤ size) (htype : getBE16 buf 0 = turnDataIndication)
    (hread : StunMessage.read .turn (block buf 0 size) = some (msg, [])) (hdata : msg.getString attrData = some data)
    (hpeer : msg.getSocketAddress attrXorPeerAddress = some peer) (hperm : port.hasPermission peer.ip = true) :
    port.onReadPacket w buf size = port.emit (port.dispatchPacket data peer) := by
  have hkind : ¬isTurnChannelData turnDataIndication = true := by decide
  rw [onReadPacket, if_neg (Nat.not_lt.mpr hsize), htype, if_neg hkind, if_pos rfl, handleDataIndication, hread]
  simp only [hdata, hpeer, hperm, if_true]

theorem withSoftware_built (cfg : TurnConfig) (h : Built .turn msg) :
    Built .turn (cfg.withSoftware msg) ∧ (cfg.withSoftware msg).type = msg.type ∧
      (cfg.withSoftware msg).transactionId = msg.transactionId ∧
      ∃ more, (cfg.withSoftware msg).attrs = msg.attrs ++ more ∧
        (∀ attr ∈ more, attr.value.Encodable msg.transactionId) ∧
        (more.map StunAttribute.paddedSize).sum ≤ cfg.software.length + 7 := by
  unfold TurnConfig.withSoftware
  split_ifs
  · obtain ⟨h', heq⟩ := @Built.append _ _ ⟨attrSoftware, .byteString cfg.software⟩ h rfl
    rw [heq] at h' ⊢
    refine ⟨h', rfl, rfl, [⟨attrSoftware, .byteString cfg.software⟩], rfl, ?_, ?_⟩
    · intro attr hattr
      rw [List.mem_singleton.mp hattr]
      trivial
    · simp only [List.map_cons, List.map_nil, List.sum_cons, List.sum_nil, StunAttribute.paddedSize, StunValue.size]
      omega
  · exact ⟨h, rfl, rfl, [], (List.append_nil _).symm, fun _ h => absurd h List.not_mem_nil, Nat.zero_le _⟩

/-! ## From the peer -/

/-- **What a peer sends reaches the client** from that peer and unchanged. -/
theorem TurnPort.onReadPacket_external (w : TurnSurroundings) (port : TurnPort) (cfg : TurnConfig) (a : Allocation)
    (p : AllocationId) (data : List Uint8) (peer : SocketAddress) (transactionId : List Uint8)
    (hpaired : Paired port a) (hid : transactionId.length = kStunTransactionIdLength)
    (hip : peer.ip ≠ .unspec) (hname : peer.hostname = [])
    (hsize : data.length + cfg.software.length ≤ 65497)
    (sent : Sent) (hsent : sent ∈ a.onExternalPacket cfg p data peer transactionId) :
    ∃ bytes, sent.bytes = some bytes ∧
      port.onReadPacket w (packetData bytes) bytes.length = port.emit (port.dispatchPacket data peer) := by
  unfold Allocation.onExternalPacket at hsent
  cases hchannel : a.findChannelByPeer peer with
  | some c =>
    simp only [hchannel, List.mem_singleton] at hsent
    obtain ⟨hmem, hpeer⟩ := hpaired.peer_eq hchannel hname
    obtain ⟨hmin, hmax, -, e, he, haddress⟩ := hpaired.channels c hmem
    have hcarries : CarriesData _ c.id data := carriesData_channelMessage hmin hmax (by omega)
    refine ⟨channelMessage c.id data, by rw [hsent]; rfl, ?_⟩
    rw [← hpeer, ← haddress]
    exact onReadPacket_channel w hcarries he
  | none =>
    simp only [hchannel] at hsent
    split_ifs at hsent with hperm
    · rw [List.mem_singleton] at hsent
      obtain ⟨hbuilt, htype, htid, hattrs⟩ := @dataIndication_built _ peer data turnDataIndication (by decide) hid
      obtain ⟨hbuilt', htype', htid', more, hattrs', hmore, hsum⟩ := withSoftware_built cfg hbuilt
      have hall : (cfg.withSoftware (dataIndication turnDataIndication transactionId peer data)).attrs =
          ⟨attrXorPeerAddress, .xorAddress peer⟩ :: ⟨attrData, .byteString data⟩ :: more := by
        rw [hattrs', hattrs]
        rfl
      obtain ⟨bytes, msg, hwrite, hlen, hkind, hread, -, hdata, hpeer⟩ :=
        read_dataIndication hbuilt' (by rw [htid', htid, hid]) hip hname hall (by rwa [htid']) (by omega)
      refine ⟨bytes, by rw [hsent]; exact hwrite, ?_⟩
      obtain ⟨perm, hmem, hperm⟩ := Allocation.hasPermission_iff.mp hperm
      refine onReadPacket_indication w hlen (by rw [hkind, htype', htype]) hread hdata hpeer ?_
      rw [← hperm]
      exact hpaired.perms perm hmem
    · cases hsent

/-! ## From the client -/

theorem TurnPort.log_sendChannelBindRequest (e : TurnEntry) : (port.sendChannelBindRequest e).log = port.log := by
  unfold sendChannelBindRequest sendRequest check
  dsimp only
  split_ifs <;> rfl

theorem TurnPort.sendTo_log {e : TurnEntry} (he : port.findEntry peer = some e) (hconnected : port.connected = true)
    (payload : Bool) : (port.sendTo peer data payload).log = port.log ++
      [if e.state = .bound then .channelMessage e.channelId data else .sendIndication e.address data] := by
  rw [sendTo, he]
  dsimp only
  rw [if_pos hconnected, entrySend]
  by_cases hbound : e.state = .bound
  · rw [if_neg (not_not.mpr hbound), if_pos hbound]
    rfl
  · rw [if_pos hbound, if_neg hbound]
    dsimp only [emit]
    split_ifs
    · rw [setState, log_sendChannelBindRequest]
    · rfl

theorem store_same {s : TurnServer} {p : AllocationId} (ha : s.heap p = some a) : s.store p (some a) = s := by
  have hheap : (fun q => if q = p then some a else s.heap q) = s.heap := by
    funext q
    split_ifs with hq
    · rw [hq, ha]
    · rfl
  rw [TurnServer.store, hheap]

theorem TurnServer.step_sendIndication (cfg : TurnConfig) {s : TurnServer} {socket : SocketId} {addr : SocketAddress}
    (external : Option SocketAddress) {entry : InternalSocket} {p : AllocationId} (hentry : s.findSocket socket = some entry)
    (hallocation : s.findAllocation ⟨addr, entry.remote, entry.proto, socket⟩ = some p) (ha : s.heap p = some a)
    (hsize : turnChannelHeaderSize ≤ packet.size) (htype : getBE16 packet.data 0 = turnSendIndication)
    (hread : StunMessage.read .turn packet.bytes = some (msg, [])) (htype' : msg.type = turnSendIndication)
    (hdata : msg.getString attrData = some data) (hpeer : msg.getSocketAddress attrXorPeerAddress = some peer)
    (hperm : a.hasPermission peer.ip = true) :
    s.step cfg (.internalPacket socket addr packet external) = some (s, [.external p peer data]) := by
  have hkind : isTurnChannelData turnSendIndication = false := by decide
  have hrequest : isStunRequestType turnSendIndication = false := by decide
  have hhandle : a.handleTurnMessage cfg s.now p msg = some (a, [.external p peer data]) := by
    unfold Allocation.handleTurnMessage Allocation.handleSendIndication
    simp only [htype', hdata, hpeer, hperm, if_true]
    rfl
  change s.onInternalPacket cfg socket addr packet external = _
  unfold onInternalPacket handleStunMessage dispatch messageKey handleTurnMessage
  rw [if_neg (Nat.not_lt.mpr hsize), hentry, htype, hkind, hread]
  simp only [Option.bind_eq_bind, Option.bind_some, Bool.not_false, if_true, List.length_nil, Nat.lt_irrefl, if_false,
    htype', hallocation, ha, Option.map_some, hrequest, Bool.false_eq_true, hhandle, store_same ha]
  rfl

/-- **What the client sends to a peer, the server sends to that peer** and unchanged. -/
theorem TurnServer.step_sendTo (cfg : TurnConfig) (s : TurnServer) (socket : SocketId) (addr : SocketAddress)
    (external : Option SocketAddress) (entry : InternalSocket) (p : AllocationId) (a : Allocation) (port : TurnPort)
    (e : TurnEntry) (peer : SocketAddress) (data : List Uint8) (payload : Bool) (transactionId : List Uint8)
    (hentry : s.findSocket socket = some entry)
    (hallocation : s.findAllocation ⟨addr, entry.remote, entry.proto, socket⟩ = some p) (ha : s.heap p = some a)
    (hpaired : Paired port a) (he : port.findEntry peer = some e) (hconnected : port.connected = true)
    (hid : transactionId.length = kStunTransactionIdLength) (hsize : data.length ≤ 65504) :
    ∃ o bytes, (port.sendTo peer data payload).log = port.log ++ [o] ∧ o.bytes transactionId = some bytes ∧
      s.step cfg (.internalPacket socket addr ⟨packetData bytes, bytes.length⟩ external) =
        some (s, [.external p e.address data]) := by
  have hmem : e ∈ port.entries := List.mem_of_find?_eq_some he
  have hlog := @TurnPort.sendTo_log peer data port e he hconnected payload
  by_cases hbound : e.state = .bound
  · obtain ⟨c, hc, hpeer⟩ := hpaired.bound e hmem hbound
    have hfound := List.find?_some hc
    have hcid : c.id = e.channelId := of_decide_eq_true hfound
    obtain ⟨hmin, hmax, -⟩ := hpaired.channels c (List.mem_of_find?_eq_some hc)
    rw [hcid] at hmin hmax
    have hcarries := carriesData_channelMessage hmin hmax hsize
    rw [if_pos hbound] at hlog
    refine ⟨_, channelMessage e.channelId data, hlog, rfl, ?_⟩
    rw [step_channelData cfg _ external hentry (by rw [hcarries.size]; omega) hcarries.type hallocation ha
      (by rw [hcarries.channelId]; exact hc), hpeer]
    rw [hcarries.drop_bytes]
  · obtain ⟨hname, hip, hperm⟩ := hpaired.entries e hmem
    obtain ⟨hbuilt, htype, htid, hattrs⟩ := @dataIndication_built _ e.address data turnSendIndication (by decide) hid
    obtain ⟨bytes, msg, hwrite, hlen, hkind, hread, htype', hdata, hpeer⟩ :=
      read_dataIndication hbuilt (by rw [htid, hid]) hip hname hattrs (fun _ h => absurd h List.not_mem_nil) hsize
    rw [htype] at hkind htype'
    rw [if_neg hbound] at hlog
    exact ⟨_, bytes, hlog, hwrite,
      step_sendIndication cfg external hentry hallocation ha hlen hkind hread htype' hdata hpeer hperm⟩

section Example

def exampleBoundPort : TurnPort :=
  { TurnPort.new TurnPort.exampleIds with entries := [⟨0x4000, examplePeer, .bound⟩], connected := true }

theorem paired_example : Paired exampleBoundPort exampleBoundAllocation := by
  have hchannels : exampleBoundAllocation.channels = [exampleBoundChannel] := by decide +kernel
  have hperms : ∀ perm ∈ exampleBoundAllocation.perms, exampleBoundPort.hasPermission perm.peer = true := by
    decide +kernel
  refine ⟨fun c hc => ?_, fun e he _ => ?_, fun e he => ?_, hperms⟩
  · rw [hchannels, List.mem_singleton] at hc
    rw [hc]
    exact ⟨by decide, by decide, rfl, _, rfl, rfl⟩
  all_goals rw [List.mem_singleton.mp he]
  · exact ⟨exampleBoundChannel, by decide +kernel, rfl⟩
  · exact ⟨rfl, IPAddress.noConfusion, by decide +kernel⟩

/-- A byte from the peer. -/
theorem TurnPort.onReadPacket_external_channel :
    ∃ bytes, (Sent.channelMessage 0 examplePeer exampleBoundAllocation.conn [0x40, 0, 0, 1, 7]).bytes = some bytes ∧
      exampleBoundPort.onReadPacket exampleSurroundings (packetData bytes) bytes.length =
        exampleBoundPort.emit (exampleBoundPort.dispatchPacket [7] examplePeer) :=
  onReadPacket_external exampleSurroundings exampleBoundPort exampleConfig exampleBoundAllocation 0 [7] examplePeer
    (exampleIds 0) paired_example rfl IPAddress.noConfusion rfl (by decide) _ (by decide +kernel)

/-- A byte for the peer. -/
theorem TurnServer.step_sendTo_channel :
    ∃ o bytes, (exampleBoundPort.sendTo examplePeer [7] true).log = exampleBoundPort.log ++ [o] ∧
      o.bytes (TurnPort.exampleIds 0) = some bytes ∧
      exampleBound.step exampleConfig (.internalPacket 0 exampleClient ⟨packetData bytes, bytes.length⟩ none) =
        some (exampleBound, [.external 0 examplePeer [7]]) :=
  step_sendTo exampleConfig exampleBound 0 exampleClient none exampleSocket 0 exampleBoundAllocation exampleBoundPort
    ⟨0x4000, examplePeer, .bound⟩ examplePeer [7] true (TurnPort.exampleIds 0) (by decide +kernel) (by decide +kernel)
    (by decide +kernel) paired_example (by decide) rfl rfl (by decide)

end Example

end Libjingle
