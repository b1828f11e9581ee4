import Mathlib.Data.Nat.Bitwise
import Mathlib.Algebra.Order.BigOperators.Group.List
import Libjingle.Stun.Framing

/-!
# `Read` undoes `Write`

Main result: **`read_write`**.
-/

variable {id : List Uint8} {ip : IPAddress}

namespace Libjingle

open Lib StunMessage

/-! ## Messages that can be built -/

/-- The messages that `SetType`, `SetTransactionID` and `AddAttribute` build. -/
inductive Built (kind : MessageClass) : StunMessage → Prop where
  | new : Built kind (.new kind)
  | setType {msg : StunMessage} {type : Uint16} :
      Built kind msg → type.toNat < 0x8000 → Built kind (msg.setType type)
  | setTransactionID {msg : StunMessage} {id : List Uint8} :
      Built kind msg → (msg.setTransactionID id).2 = true →
      (id.length = kStunLegacyTransactionIdLength → id.take 4 ≠ writeUInt32 kStunMagicCookie) →
      Built kind (msg.setTransactionID id).1
  | addAttribute {msg : StunMessage} {attr : StunAttribute} :
      Built kind msg → (msg.addAttribute attr).2 = true → Built kind (msg.addAttribute attr).1

namespace StunValue

/-- The bytes in the body of an attribute. -/
def size : StunValue → ℕ
  | address addr => (addressLength addr.ip).toNat
  | xorAddress addr => (addressLength addr.ip).toNat
  | uint32 _ => 4
  | uint64 _ => 8
  | byteString bytes => bytes.length
  | errorCode _ _ reason => 4 + reason.length
  | uint16List types => types.length * 2

/-- The format has a place for the value. -/
def Encodable (transactionId : List Uint8) : StunValue → Prop
  | address addr => addr.ip ≠ .unspec
  | xorAddress addr =>
    match addr.ip with
    | .v4 _ => True
    | .v6 _ => transactionId.length = kStunTransactionIdLength
    | .unspec => False
  | errorCode eclass _ _ => eclass.toNat ≤ 7
  | _ => True

/-- The value without its host name, which is not sent. -/
def forgetHostname : StunValue → StunValue
  | address addr => address (.ofIP addr.ip addr.port)
  | xorAddress addr => xorAddress (.ofIP addr.ip addr.port)
  | value => value

end StunValue

/-- The bytes that an attribute takes. -/
def StunAttribute.paddedSize (attr : StunAttribute) : ℕ :=
  4 + attr.value.size + (4 - attr.value.size % 4) % 4

def StunAttribute.forgetHostname (attr : StunAttribute) : StunAttribute :=
  { attr with value := attr.value.forgetHostname }

/-- The values fit their length fields, and all of them the length of the message. -/
structure StunMessage.Encodable (msg : StunMessage) : Prop where
  value : ∀ attr ∈ msg.attrs, attr.value.Encodable msg.transactionId
  total : (msg.attrs.map StunAttribute.paddedSize).sum ≤ 65535

/-! ## What has been built -/

def ReadableId (id : List Uint8) : Prop :=
  id.length = kStunTransactionIdLength ∨
    (id.length = kStunLegacyTransactionIdLength ∧ id.take 4 ≠ writeUInt32 kStunMagicCookie)

/-- The invariant of the messages under construction. -/
structure WellFormed (kind : MessageClass) (msg : StunMessage) : Prop where
  kind_eq : msg.kind = kind
  type_lt : msg.type.toNat < 0x8000
  id : ReadableId msg.transactionId
  known : ∀ attr ∈ msg.attrs, attr.value.valueType = kind.getAttributeValueType attr.type
  length_eq : msg.length =
    BitVec.ofNat 16 (msg.attrs.map fun attr => attributeLength attr.value.length).sum

theorem Built.wellFormed {kind : MessageClass} {msg : StunMessage} (h : Built kind msg) : WellFormed kind msg := by
  induction h with
  | new =>
    have hid : ReadableId emptyTransactionId := .inr (by decide)
    exact ⟨rfl, Nat.zero_lt_succ _, hid, fun _ h => absurd h List.not_mem_nil, rfl⟩
  | setType _ htype ih => exact ⟨ih.kind_eq, htype, ih.id, ih.known, ih.length_eq⟩
  | @setTransactionID msg id _ hok hid ih =>
    unfold StunMessage.setTransactionID at hok ⊢
    split_ifs at hok ⊢ with hvalid
    refine ⟨ih.kind_eq, ih.type_lt, ?_, ih.known, ih.length_eq⟩
    simp only [isValidTransactionId, Bool.or_eq_true, decide_eq_true_eq] at hvalid
    exact hvalid.imp_right fun hlen => ⟨hlen, hid hlen⟩
  | @addAttribute msg attr _ hok ih =>
    unfold StunMessage.addAttribute at hok ⊢
    split_ifs at hok ⊢ with htype
    rw [not_not, ih.kind_eq] at htype
    refine ⟨ih.kind_eq, ih.type_lt, ih.id, ?_, ?_⟩
    · intro a ha
      rcases List.mem_append.mp ha with ha | ha
      · exact ih.known a ha
      · rw [List.mem_singleton.mp ha]
        exact htype
    · simp only [ih.length_eq, List.map_append, List.sum_append, List.map_cons, List.map_nil,
        List.sum_cons, List.sum_nil, Nat.add_zero, BitVec.ofNat_add]

/-! ## Bodies of attributes -/

theorem takeWord_wordBytes (n : ℕ) (v : BitVec (8 * n)) : takeWord n (wordBytes n v) = some (v, []) :=
  takeWord_eq_some.mpr (List.append_nil _).symm

theorem takeBytes_self {n : ℕ} {x : List Uint8} (h : x.length = n) : takeBytes n x = some (x, []) :=
  takeBytes_eq_some.mpr ⟨(List.append_nil _).symm, h⟩

theorem readAddress_write {port : Uint16} {body : List Uint8} (h : writeAddress ip port = some body) :
    readAddress (StunValue.addressLength ip) body = some (.ofIP ip port, []) := by
  cases ip with
  | unspec => cases h
  | v4 addr =>
    cases h
    simp only [readAddress, readUInt8, readUInt16, readUInt32, writeUInt8, writeUInt16, writeUInt32,
      List.append_assoc, takeWord_append, takeWord_wordBytes, StunValue.addressLength,
      Option.bind_eq_bind, Option.bind_some, if_true, ne_eq, not_true, if_false]
  | v6 addr =>
    cases h
    simp only [readAddress, readUInt8, readUInt16, writeUInt8, writeUInt16,
      List.append_assoc, takeWord_append, takeWord_wordBytes, StunValue.addressLength,
      Option.bind_eq_bind, Option.bind_some]
    rfl

theorem length_writeAddress {port : Uint16} {body : List Uint8}
    (h : writeAddress ip port = some body) : body.length = (StunValue.addressLength ip).toNat := by
  cases ip with
  | unspec => cases h
  | v4 addr =>
    cases h
    simp [writeUInt8, writeUInt16, writeUInt32, StunValue.addressLength]
  | v6 addr =>
    cases h
    simp [writeUInt8, writeUInt16, StunValue.addressLength]

theorem getXoredIP_getXoredIP (h : getXoredIP id ip ≠ .unspec) : getXoredIP id (getXoredIP id ip) = ip := by
  cases ip with
  | unspec => rfl
  | v4 addr => simp only [getXoredIP, BitVec.xor_assoc, BitVec.xor_self, BitVec.xor_zero]
  | v6 addr =>
    unfold getXoredIP at h ⊢
    split_ifs at h ⊢ with hid
    · simp only [BitVec.xor_assoc, BitVec.xor_self, BitVec.xor_zero]
    · exact absurd rfl h

theorem xoredPort_xoredPort (port : Uint16) : xoredPort (xoredPort port) = port := by
  simp only [xoredPort, BitVec.xor_assoc, BitVec.xor_self, BitVec.xor_zero]

theorem readTypes_write (types : List Uint16) :
    readTypes types.length (types.flatMap writeUInt16) = some (types, []) := by
  induction types with
  | nil => rfl
  | cons type types ih =>
    simp only [List.flatMap_cons, List.length_cons, readTypes, readUInt16, writeUInt16] at ih ⊢
    simp only [takeWord_append, ih, Option.bind_eq_bind, Option.bind_some]

theorem errorCode_bits (eclass number : Uint8) (h : eclass.toNat ≤ 7) :
    let val : Uint32 := eclass.setWidth 32 <<< 8 ||| number.setWidth 32
    (val >>> 8 &&& 0x7).setWidth 8 = eclass ∧ (val &&& 0xff).setWidth 8 = number := by
  intro val
  have hnumber := number.isLt
  have hval : val.toNat = eclass.toNat * 256 + number.toNat := by
    rw [BitVec.toNat_or, BitVec.toNat_shiftLeft, BitVec.toNat_setWidth, BitVec.toNat_setWidth,
      Nat.mod_eq_of_lt (by omega), Nat.mod_eq_of_lt (by omega), Nat.shiftLeft_eq,
      Nat.mod_eq_of_lt (by omega), ← Nat.shiftLeft_eq,
      ← Nat.shiftLeft_add_eq_or_of_lt (by omega), Nat.shiftLeft_eq]
  constructor
  · apply BitVec.eq_of_toNat_eq
    rw [BitVec.toNat_setWidth, BitVec.toNat_and, BitVec.toNat_ushiftRight, hval,
      Nat.shiftRight_eq_div_pow, show BitVec.toNat (0x7 : Uint32) = 2 ^ 3 - 1 from rfl,
      Nat.and_two_pow_sub_one_eq_mod]
    omega
  · apply BitVec.eq_of_toNat_eq
    rw [BitVec.toNat_setWidth, BitVec.toNat_and, hval, show BitVec.toNat (0xff : Uint32) = 2 ^ 8 - 1 from rfl,
      Nat.and_two_pow_sub_one_eq_mod]
    omega

theorem toNat_length {value : StunValue} (h : value.size ≤ 65535) : value.length.toNat = value.size := by
  cases value with
  | address addr => rfl
  | xorAddress addr => rfl
  | uint32 bits => rfl
  | uint64 bits => rfl
  | byteString bytes => exact Nat.mod_eq_of_lt (Nat.lt_succ_of_le h)
  | errorCode eclass number reason =>
    unfold StunValue.size at h ⊢
    unfold StunValue.length
    bv_omega
  | uint16List types => exact Nat.mod_eq_of_lt (Nat.lt_succ_of_le h)

theorem addressLength_getXoredIP (h : getXoredIP id ip ≠ .unspec) :
    StunValue.addressLength (getXoredIP id ip) = StunValue.addressLength ip := by
  cases ip with
  | unspec => rfl
  | v4 addr => rfl
  | v6 addr =>
    unfold getXoredIP at h ⊢
    split_ifs at h ⊢
    · rfl
    · exact absurd rfl h

theorem writeAddress_isSome (h : ip ≠ .unspec) (port : Uint16) : ∃ body, writeAddress ip port = some body := by
  cases ip with
  | unspec => exact absurd rfl h
  | v4 addr => exact ⟨_, rfl⟩
  | v6 addr => exact ⟨_, rfl⟩

theorem getXoredIP_ne_unspec {addr : SocketAddress}
    (h : (StunValue.xorAddress addr).Encodable id) : getXoredIP id addr.ip ≠ .unspec := by
  simp only [StunValue.Encodable] at h
  cases hip : addr.ip with
  | unspec => rw [hip] at h; exact h.elim
  | v4 a => exact IPAddress.noConfusion
  | v6 a =>
    rw [hip] at h
    rw [getXoredIP, if_pos h]
    exact IPAddress.noConfusion

theorem paddingLength_addressLength (ip : IPAddress) : paddingLength (StunValue.addressLength ip) = 0 := by
  cases ip with
  | unspec => rfl
  | v4 addr => exact (by decide : paddingLength 8 = 0)
  | v6 addr => exact (by decide : paddingLength 20 = 0)

/-- **A value that was written is read back**. -/
theorem readBody_write {value : StunValue} (henc : value.Encodable id) (hsize : value.size ≤ 65535) :
    ∃ x pad, value.write id = some (x ++ pad) ∧ x.length = value.size ∧
      pad.length = paddingLength value.length ∧
      readBody id value.valueType value.length x = some (value.forgetHostname, []) := by
  have hlen := toNat_length hsize
  cases value with
  | address addr =>
    obtain ⟨body, hbody⟩ := writeAddress_isSome henc addr.port
    refine ⟨body, [], ?_, length_writeAddress hbody, ?_, ?_⟩
    · rw [List.append_nil]
      exact hbody
    · exact (paddingLength_addressLength addr.ip).symm
    · simp only [StunValue.valueType, readBody, StunValue.length, readAddress_write hbody,
        Option.bind_eq_bind, Option.bind_some, StunValue.forgetHostname]
  | xorAddress addr =>
    have hip := getXoredIP_ne_unspec henc
    obtain ⟨body, hbody⟩ := writeAddress_isSome hip (xoredPort addr.port)
    refine ⟨body, [], ?_, ?_, ?_, ?_⟩
    · rw [List.append_nil]
      exact hbody
    · rw [length_writeAddress hbody, addressLength_getXoredIP hip]
      rfl
    · exact (paddingLength_addressLength addr.ip).symm
    · have hread := readAddress_write hbody
      rw [addressLength_getXoredIP hip] at hread
      simp only [StunValue.valueType, readBody, StunValue.length, readXorAddress, hread,
        Option.bind_eq_bind, Option.bind_some, StunValue.forgetHostname, SocketAddress.ofIP,
        getXoredIP_getXoredIP hip, xoredPort_xoredPort]
  | uint32 bits =>
    refine ⟨writeUInt32 bits, [], ?_, length_wordBytes 4 bits, (by decide : 0 = paddingLength 4), ?_⟩
    · rw [List.append_nil]
      rfl
    · simp only [StunValue.valueType, readBody, readUInt32, writeUInt32, takeWord_wordBytes,
        Option.bind_eq_bind, Option.bind_some, StunValue.forgetHostname]
  | uint64 bits =>
    refine ⟨writeUInt64 bits, [], ?_, length_wordBytes 8 bits, (by decide : 0 = paddingLength 8), ?_⟩
    · rw [List.append_nil]
      rfl
    · simp only [StunValue.valueType, readBody, readUInt64, writeUInt64, takeWord_wordBytes,
        Option.bind_eq_bind, Option.bind_some, StunValue.forgetHostname]
  | byteString bytes =>
    refine ⟨bytes, writePadding (StunValue.byteString bytes).length, ?_, rfl,
      List.length_replicate, ?_⟩
    · simp only [StunValue.write]
      rw [hlen, StunValue.size, List.take_length]
    · simp only [StunValue.valueType, readBody, readBytes, takeBytes_self hlen.symm,
        Option.bind_eq_bind, Option.bind_some, StunValue.forgetHostname]
  | errorCode eclass number reason =>
    have hbits := errorCode_bits eclass number henc
    have hmin : ¬(StunValue.errorCode eclass number reason).length < 4 := by
      rw [BitVec.not_lt, BitVec.le_def, hlen]
      exact Nat.le_add_right 4 reason.length
    have hreason : reason.length = (StunValue.errorCode eclass number reason).length.toNat - 4 := by
      rw [hlen, StunValue.size]
      omega
    refine ⟨writeUInt32 (eclass.setWidth 32 <<< 8 ||| number.setWidth 32) ++ reason,
      writePadding (StunValue.errorCode eclass number reason).length, rfl, ?_,
      List.length_replicate, ?_⟩
    · rw [List.length_append, writeUInt32, length_wordBytes]
      rfl
    · simp only [StunValue.valueType, readBody, if_neg hmin, readUInt32, writeUInt32, takeWord_append,
        readBytes, takeBytes_self hreason, Option.bind_eq_bind, Option.bind_some, hbits.1, hbits.2,
        StunValue.forgetHostname]
  | uint16List types =>
    have heven : ¬(StunValue.uint16List types).length.toNat % 2 ≠ 0 := by
      rw [hlen, StunValue.size]
      omega
    have hcount : (StunValue.uint16List types).length.toNat / 2 = types.length := by
      rw [hlen, StunValue.size]
      omega
    refine ⟨types.flatMap writeUInt16, writePadding (StunValue.uint16List types).length, rfl, ?_,
      List.length_replicate, ?_⟩
    · exact length_of_readTypes (readTypes_write types)
    · simp only [StunValue.valueType, readBody, if_neg heven, hcount, readTypes_write,
        Option.bind_eq_bind, Option.bind_some, StunValue.forgetHostname]

/-! ## Messages -/

theorem bodyLength_length (value : StunValue) : bodyLength value.valueType value.length = value.length := by
  cases value <;> rfl

theorem valueType_ne_unknown (value : StunValue) : value.valueType ≠ .unknown := by
  cases value <;> exact StunAttributeValueType.noConfusion

theorem paddedSize_eq {attr : StunAttribute} (h : attr.value.size ≤ 65535) :
    attr.paddedSize = 4 + attr.value.size + paddingLength attr.value.length := by
  unfold StunAttribute.paddedSize paddingLength
  rw [toNat_length h]
  split_ifs <;> omega

theorem attributeLength_eq {attr : StunAttribute} (h : attr.value.size ≤ 65535) :
    attributeLength attr.value.length = attr.paddedSize := by
  unfold attributeLength StunAttribute.paddedSize
  rw [toNat_length h]
  dsimp only
  split_ifs <;> omega

theorem sum_paddedSize_mod (attrs : List StunAttribute) : (attrs.map StunAttribute.paddedSize).sum % 4 = 0 := by
  induction attrs with
  | nil => rfl
  | cons attr attrs ih =>
    have hattr : attr.paddedSize % 4 = 0 := by
      unfold StunAttribute.paddedSize
      omega
    rw [List.map_cons, List.sum_cons]
    omega

theorem rounds_writeAttributes {kind : MessageClass} {attrs : List StunAttribute}
    (hknown : ∀ attr ∈ attrs, attr.value.valueType = kind.getAttributeValueType attr.type)
    (henc : ∀ attr ∈ attrs, attr.value.Encodable id)
    (hsize : ∀ attr ∈ attrs, attr.value.size ≤ 65535) :
    ∃ bytes rounds, writeAttributes id attrs = some bytes ∧ Rounds kind id rounds bytes ∧
      rounds.filterMap Round.attr = attrs.map StunAttribute.forgetHostname ∧
      bytes.length = (attrs.map StunAttribute.paddedSize).sum := by
  induction attrs with
  | nil => exact ⟨[], [], rfl, .nil, rfl, rfl⟩
  | cons attr attrs ih =>
    rw [List.forall_mem_cons] at hknown henc hsize
    obtain ⟨bytes, rounds, hwrite, hrounds, hattrs, hlen⟩ := ih hknown.2 henc.2 hsize.2
    obtain ⟨x, pad, hbody, hx, hpad, hread⟩ := readBody_write henc.1 hsize.1
    let round : Round := ⟨attr.type, attr.value.length, some attr.forgetHostname, 4 + (x ++ pad).length⟩
    have hround : readRound kind id
        (writeUInt16 attr.type ++ writeUInt16 attr.value.length ++ (x ++ pad) ++ bytes) =
          some (round, bytes) := by
      refine readRound_eq_some.mpr ⟨x ++ pad, rfl, rfl, ?_⟩
      unfold TakesBody
      simp only [round, ← hknown.1, if_neg (valueType_ne_unknown attr.value), bodyLength_length]
      exact ⟨attr.value.forgetHostname, x, pad, rfl, hread, .inl hpad, rfl⟩
    refine ⟨_, round :: rounds, ?_, .cons hround hrounds, ?_, ?_⟩
    · rw [writeAttributes, hbody, hwrite]
      rfl
    · rw [filterMap_cons_toList, hattrs, List.map_cons]
      rfl
    · simp only [List.length_append, length_writeUInt16, List.map_cons, List.sum_cons,
        paddedSize_eq hsize.1, hx, hpad, hlen]
      omega

theorem readTransactionId_written (h : ReadableId id) :
    ∃ magicCookie transactionId : List Uint8,
      (if id.length = kStunLegacyTransactionIdLength then [] else writeUInt32 kStunMagicCookie) ++ id =
        magicCookie ++ transactionId ∧
      magicCookie.length = 4 ∧ transactionId.length = 12 ∧
      id = readTransactionId magicCookie transactionId := by
  rcases h with hlen | ⟨hlen, hcookie⟩
  · rw [if_neg (by rw [hlen]; decide)]
    refine ⟨_, id, rfl, length_wordBytes 4 _, hlen, ?_⟩
    have heq : BitVec.ofNat 32 (beValue (writeUInt32 kStunMagicCookie)) = kStunMagicCookie :=
      ofNat_wordBytes 4 kStunMagicCookie
    rw [readTransactionId, if_neg (not_not.mpr heq)]
  · rw [if_pos hlen]
    have htake : (id.take 4).length = 4 := by rw [List.length_take, hlen]; rfl
    refine ⟨id.take 4, id.drop 4, ?_, htake, ?_, ?_⟩
    · rw [List.take_append_drop, List.nil_append]
    · rw [List.length_drop, hlen]
      rfl
    · have hne : BitVec.ofNat 32 (beValue (id.take 4)) ≠ kStunMagicCookie := by
        intro heq
        apply hcookie
        rw [← heq]
        exact (wordBytes_ofNat htake).symm
      rw [readTransactionId, if_pos hne, List.take_append_drop]

theorem and_0x8000_of_lt {type : Uint16} (h : type.toNat < 0x8000) : type &&& 0x8000 = 0 := by
  apply BitVec.eq_of_toNat_eq
  rw [BitVec.toNat_and, show BitVec.toNat (0x8000 : Uint16) = 2 ^ 15 from rfl, Nat.and_two_pow,
    Nat.testBit_lt_two_pow h]
  rfl

/-- **`Read` undoes `Write`.** -/
theorem read_write (kind : MessageClass) (msg : StunMessage) (hbuilt : Built kind msg) (henc : msg.Encodable) :
    ∃ bytes msg', msg.write = some bytes ∧ read kind bytes = some (msg', []) ∧
      msg'.type = msg.type ∧ msg'.transactionId = msg.transactionId ∧
      msg'.attrs = msg.attrs.map StunAttribute.forgetHostname := by
  have hwf := hbuilt.wellFormed
  have hsize : ∀ attr ∈ msg.attrs, attr.value.size ≤ 65535 := by
    intro attr hattr
    have hle : attr.paddedSize ≤ (msg.attrs.map StunAttribute.paddedSize).sum :=
      List.single_le_sum (fun _ _ => Nat.zero_le _) _ (List.mem_map.mpr ⟨attr, hattr, rfl⟩)
    have hself : attr.value.size ≤ attr.paddedSize := by
      unfold StunAttribute.paddedSize
      omega
    exact hself.trans (hle.trans henc.total)
  obtain ⟨area, rounds, harea, hrounds, hattrs, hlen⟩ :=
    rounds_writeAttributes hwf.known henc.value hsize
  obtain ⟨cookie, tid, hids, hcookie, htid, hid⟩ := readTransactionId_written hwf.id
  have hlength : msg.length.toNat = area.length := by
    have hmap : msg.attrs.map (fun attr => attributeLength attr.value.length) =
        msg.attrs.map StunAttribute.paddedSize :=
      List.map_congr_left fun attr hattr => attributeLength_eq (hsize attr hattr)
    rw [hwf.length_eq, hmap, ← hlen, BitVec.toNat_ofNat, Nat.mod_eq_of_lt]
    have := henc.total
    omega
  let bytes := writeUInt16 msg.type ++ writeUInt16 msg.length ++ cookie ++ tid ++ area
  have hwrite : msg.write = some bytes := by
    unfold StunMessage.write isLegacy
    rw [harea]
    simp only [Option.bind_eq_bind, Option.bind_some, decide_eq_true_eq, bytes]
    rw [List.append_assoc _ _ msg.transactionId, hids, ← List.append_assoc _ cookie]
  let msg' : StunMessage :=
    ⟨kind, msg.type, msg.length, msg.transactionId, msg.attrs.map StunAttribute.forgetHostname⟩
  have hread : readRounds kind bytes = some (msg', rounds, []) :=
    readRounds_eq_some.mpr ⟨area, readHeader_eq_some.mpr
      ⟨cookie, tid, rfl, hcookie, htid, and_0x8000_of_lt hwf.type_lt, hlength, hid⟩, hrounds, rfl,
      hattrs.symm, rfl⟩
  refine ⟨bytes, msg', hwrite, ?_, rfl, rfl, rfl⟩
  rw [StunMessage.read, hread, Option.map_some]

/-- A binding request with a user name and an error code. -/
theorem read_write_binding :
    let msg := (((StunMessage.new .stun).setTransactionID (List.replicate 12 0x41)).1.addAttribute
      ⟨attrUsername, .byteString [0x61, 0x62]⟩).1.addAttribute ⟨attrErrorCode, .errorCode 4 1 [0x63]⟩
    msg.2 = true ∧ ∃ bytes msg', msg.1.write = some bytes ∧ read .stun bytes = some (msg', []) ∧
      msg'.type = msg.1.type ∧ msg'.transactionId = msg.1.transactionId ∧
      msg'.attrs = msg.1.attrs.map StunAttribute.forgetHostname := by
  intro msg
  have hbuilt : Built .stun msg.1 :=
    .addAttribute (.addAttribute (.setTransactionID .new (by decide) (fun _ => by decide))
      (by decide)) (by decide)
  have hvalue : ∀ attr ∈ msg.1.attrs, attr.value.Encodable msg.1.transactionId := by
    have hattrs : msg.1.attrs =
        [⟨attrUsername, .byteString [0x61, 0x62]⟩, ⟨attrErrorCode, .errorCode 4 1 [0x63]⟩] := by
      decide
    rw [hattrs]
    simp [StunValue.Encodable]
  exact ⟨by decide, read_write .stun msg.1 hbuilt ⟨hvalue, by decide⟩⟩

end Libjingle
