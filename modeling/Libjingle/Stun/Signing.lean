import Libjingle.Stun.RoundTrip
import Libjingle.Stun.Integrity
import Libjingle.Stun.Fingerprint

/-!
# Signed messages verify (`p2p/base/stun.cc`)

Main result: **`signed_verifies`**.
-/

variable {id digest rest body : List Uint8} {attrs : List StunAttribute} {hmac : List Uint8 → List Uint8 → List Uint8}
  {attr : StunAttribute} {length : Uint16}

namespace Libjingle

open Lib StunMessage

/-! ## Messages under construction -/

/-- The messages that the setters leave. -/
inductive Assembled : StunMessage → Prop where
  | new (kind : MessageClass) : Assembled (.new kind)
  | setType {msg : StunMessage} {type : Uint16} : Assembled msg → Assembled (msg.setType type)
  | setTransactionID {msg : StunMessage} {id : List Uint8} :
      Assembled msg → Assembled (msg.setTransactionID id).1
  | addAttribute {msg : StunMessage} {attr : StunAttribute} :
      Assembled msg → Assembled (msg.addAttribute attr).1

/-- The invariant of the messages under construction: `length_` is kept up to date. -/
structure Tallied (msg : StunMessage) : Prop where
  id : isValidTransactionId msg.transactionId = true
  length_eq : msg.length =
    BitVec.ofNat 16 (msg.attrs.map fun attr => attributeLength attr.value.length).sum

def StunMessage.append (msg : StunMessage) (attr : StunAttribute) : StunMessage :=
  { msg with
    attrs := msg.attrs ++ [attr]
    length := msg.length + BitVec.ofNat 16 (attributeLength attr.value.length) }

theorem addAttribute_eq_append {msg : StunMessage}
    (h : attr.value.valueType = msg.kind.getAttributeValueType attr.type) :
    msg.addAttribute attr = (msg.append attr, true) := by
  rw [StunMessage.addAttribute, if_neg (not_not.mpr h)]
  rfl

theorem Tallied.append {msg : StunMessage} (h : Tallied msg) (attr : StunAttribute) : Tallied (msg.append attr) := by
  refine ⟨h.id, ?_⟩
  simp only [StunMessage.append, h.length_eq, List.map_append, List.sum_append, List.map_cons,
    List.map_nil, List.sum_cons, List.sum_nil, Nat.add_zero, BitVec.ofNat_add]

theorem Assembled.tallied {msg : StunMessage} (h : Assembled msg) : Tallied msg := by
  induction h with
  | new => exact ⟨rfl, rfl⟩
  | setType _ ih => exact ⟨ih.id, ih.length_eq⟩
  | setTransactionID _ ih =>
    unfold StunMessage.setTransactionID
    split_ifs with hvalid
    · exact ⟨hvalid, ih.length_eq⟩
    · exact ih
  | @addAttribute msg attr _ ih =>
    by_cases htype : attr.value.valueType = msg.kind.getAttributeValueType attr.type
    · rw [addAttribute_eq_append htype]
      exact ih.append attr
    · rw [StunMessage.addAttribute, if_pos htype]
      exact ih

/-- The bytes that the attributes take. -/
def StunMessage.paddedSize (msg : StunMessage) : ℕ := (msg.attrs.map StunAttribute.paddedSize).sum

theorem size_le_of_paddedSize {msg : StunMessage} {n : ℕ} (h : msg.paddedSize ≤ n) :
    ∀ attr ∈ msg.attrs, attr.value.size ≤ n := by
  intro attr hattr
  have hle : attr.paddedSize ≤ msg.paddedSize :=
    List.single_le_sum (fun _ _ => Nat.zero_le _) _ (List.mem_map.mpr ⟨attr, hattr, rfl⟩)
  have hself : attr.value.size ≤ attr.paddedSize := by
    unfold StunAttribute.paddedSize
    omega
  exact hself.trans (hle.trans h)

theorem length_of_tallied {msg : StunMessage} (h : Tallied msg) (hsize : msg.paddedSize ≤ 65535) :
    msg.length = BitVec.ofNat 16 msg.paddedSize := by
  have hmap : msg.attrs.map (fun attr => attributeLength attr.value.length) =
      msg.attrs.map StunAttribute.paddedSize :=
    List.map_congr_left fun attr hattr => attributeLength_eq (size_le_of_paddedSize hsize attr hattr)
  rw [h.length_eq, hmap, StunMessage.paddedSize]

theorem paddedSize_mod (msg : StunMessage) : msg.paddedSize % 4 = 0 := sum_paddedSize_mod msg.attrs

/-! ## What `Write` makes of the attributes -/

theorem length_writeXorAddress {addr : SocketAddress} (h : writeXorAddress id addr = some body) :
    body.length = (StunValue.addressLength addr.ip).toNat := by
  have hip : getXoredIP id addr.ip ≠ .unspec := by
    intro hunspec
    rw [writeXorAddress, hunspec] at h
    cases h
  rw [← addressLength_getXoredIP hip]
  exact length_writeAddress h

theorem length_write {value : StunValue} (h : value.write id = some body) (hsize : value.size ≤ 65535) :
    body.length = value.length.toNat + paddingLength value.length := by
  have hlen := toNat_length hsize
  cases value with
  | address addr =>
    rw [show (StunValue.address addr).length = StunValue.addressLength addr.ip from rfl,
      paddingLength_addressLength]
    exact length_writeAddress h
  | xorAddress addr =>
    rw [show (StunValue.xorAddress addr).length = StunValue.addressLength addr.ip from rfl,
      paddingLength_addressLength]
    exact length_writeXorAddress h
  | uint32 bits =>
    cases h
    exact (length_wordBytes 4 bits).trans (by decide : 4 = (4#16).toNat + paddingLength 4#16)
  | uint64 bits =>
    cases h
    exact (length_wordBytes 8 bits).trans (by decide : 8 = (8#16).toNat + paddingLength 8#16)
  | byteString bytes =>
    cases h
    rw [List.length_append, List.length_take, writePadding, List.length_replicate, hlen,
      StunValue.size, Nat.min_self]
  | errorCode eclass number reason =>
    cases h
    rw [List.length_append, List.length_append, writePadding, List.length_replicate, hlen,
      StunValue.size, writeUInt32, length_wordBytes]
  | uint16List types =>
    cases h
    rw [List.length_append, writePadding, List.length_replicate, hlen, StunValue.size,
      length_of_readTypes (readTypes_write types), List.length_nil, Nat.add_zero]

theorem writeAttributes_cons {bytes : List Uint8} :
    writeAttributes id (attr :: attrs) = some bytes ↔
      ∃ body x, attr.value.write id = some body ∧ writeAttributes id attrs = some x ∧
        bytes = writeUInt16 attr.type ++ writeUInt16 attr.value.length ++ body ++ x := by
  simp only [writeAttributes, Option.bind_eq_bind, Option.bind_eq_some_iff, Option.some.injEq]
  constructor
  · rintro ⟨body, hbody, x, hx, rfl⟩
    exact ⟨body, x, hbody, hx, rfl⟩
  · rintro ⟨body, x, hbody, hx, rfl⟩
    exact ⟨body, hbody, x, hx, rfl⟩

theorem writeAttributes_append {attrs' : List StunAttribute} {bytes : List Uint8} :
    writeAttributes id (attrs ++ attrs') = some bytes ↔
      ∃ x y, writeAttributes id attrs = some x ∧ writeAttributes id attrs' = some y ∧ bytes = x ++ y := by
  induction attrs generalizing bytes with
  | nil =>
    constructor
    · intro h
      exact ⟨[], bytes, rfl, h, rfl⟩
    · rintro ⟨x, y, hx, hy, rfl⟩
      cases hx
      exact hy
  | cons attr attrs ih =>
    rw [List.cons_append, writeAttributes_cons]
    constructor
    · rintro ⟨body, z, hbody, hz, rfl⟩
      obtain ⟨x, y, hx, hy, rfl⟩ := ih.mp hz
      exact ⟨_, y, writeAttributes_cons.mpr ⟨body, x, hbody, hx, rfl⟩, hy, (List.append_assoc ..).symm⟩
    · rintro ⟨x', y, hx', hy, rfl⟩
      obtain ⟨body, x, hbody, hx, rfl⟩ := writeAttributes_cons.mp hx'
      exact ⟨body, x ++ y, hbody, ih.mpr ⟨x, y, hx, hy, rfl⟩, List.append_assoc ..⟩

theorem length_writeAttributes {bytes : List Uint8}
    (h : writeAttributes id attrs = some bytes) (hsize : ∀ attr ∈ attrs, attr.value.size ≤ 65535) :
    bytes.length = (attrs.map StunAttribute.paddedSize).sum := by
  induction attrs generalizing bytes with
  | nil =>
    cases h
    rfl
  | cons attr attrs ih =>
    rw [List.forall_mem_cons] at hsize
    obtain ⟨body, x, hbody, hx, rfl⟩ := writeAttributes_cons.mp h
    simp only [List.length_append, length_writeUInt16, List.map_cons, List.sum_cons,
      length_write hbody hsize.1, ih hx hsize.2, paddedSize_eq hsize.1, toNat_length hsize.1]
    omega

def StunMessage.header (msg : StunMessage) : List Uint8 :=
  writeUInt16 msg.type ++ writeUInt16 msg.length ++ writeUInt32 kStunMagicCookie ++ msg.transactionId

theorem write_eq_some {msg : StunMessage} {bytes : List Uint8} (h : msg.isLegacy = false) :
    msg.write = some bytes ↔
      ∃ x, writeAttributes msg.transactionId msg.attrs = some x ∧ bytes = msg.header ++ x := by
  simp only [StunMessage.write, h, Option.bind_eq_bind, Option.bind_eq_some_iff, Option.some.injEq,
    Bool.false_eq_true, if_false, eq_comm (b := bytes), StunMessage.header]

theorem length_id_of_tallied {msg : StunMessage} (h : Tallied msg)
    (hlegacy : msg.isLegacy = false) : msg.transactionId.length = kStunTransactionIdLength := by
  have hid := h.id
  unfold StunMessage.isLegacy at hlegacy
  unfold isValidTransactionId at hid
  rw [hlegacy, Bool.or_false, decide_eq_true_eq] at hid
  exact hid

/-! ## The walk over written attributes -/

theorem block_packetData (d : List Uint8) : block (packetData d) 0 d.length = d := by
  apply List.ext_getElem?
  intro i
  rw [getElem?_block, Nat.zero_add]
  split_ifs with hi
  · rw [packetData, List.getD_eq_getElem _ _ hi, List.getElem?_eq_getElem hi]
  · rw [List.getElem?_eq_none (by omega)]

theorem block_of_append {m : ℕ → Uint8} {p n : ℕ} {x y : List Uint8}
    (h : block m p n = x ++ (y ++ rest)) : block m (p + x.length) y.length = y :=
  (block_eq_append (block_eq_append h).2.symm).1.symm

def integrityHeader : List Uint8 := writeUInt16 attrMessageIntegrity ++ writeUInt16 20

theorem findMessageIntegrity_written {data : ℕ → Uint8} {size : ℕ} {x : List Uint8} {pos fuel : ℕ}
    (hx : writeAttributes id attrs = some x) (hsize : ∀ attr ∈ attrs, attr.value.size ≤ 65535)
    (hnone : ∀ attr ∈ attrs, attr.type ≠ attrMessageIntegrity) (hfuel : x.length < fuel)
    (hrest : kStunMessageIntegritySize ≤ rest.length)
    (hdata : block data pos (size - pos) = x ++ (integrityHeader ++ rest)) :
    findMessageIntegrity data size fuel pos = some (pos + x.length) := by
  induction attrs generalizing x pos fuel with
  | nil =>
    cases hx
    obtain ⟨fuel, rfl⟩ : ∃ n, fuel = n + 1 := ⟨fuel - 1, by omega⟩
    rw [List.nil_append, integrityHeader, List.append_assoc] at hdata
    have hlen := congrArg List.length hdata
    simp only [length_block, List.length_append, length_writeUInt16] at hlen
    obtain ⟨-, hnext⟩ := block_eq_append hdata
    rw [length_writeUInt16] at hnext
    have htype : getBE16 data pos = attrMessageIntegrity := getBE16_of_append hdata
    have hlength : getBE16 data (pos + 2) = 20 := getBE16_of_append hnext.symm
    have hok : ¬((20 : Uint16).toNat ≠ kStunMessageIntegritySize ∨ pos + (20 : Uint16).toNat > size) := by
      rw [show (20 : Uint16).toNat = 20 from rfl]
      unfold kStunMessageIntegritySize at hrest ⊢
      omega
    rw [findMessageIntegrity, if_pos (by omega)]
    simp only [htype, hlength, if_true, if_neg hok, List.length_nil, Nat.add_zero]
  | cons attr attrs ih =>
    rw [List.forall_mem_cons] at hsize hnone
    obtain ⟨body, x', hbody, hx', rfl⟩ := writeAttributes_cons.mp hx
    obtain ⟨fuel, rfl⟩ : ∃ n, fuel = n + 1 := ⟨fuel - 1, by omega⟩
    have hlen := congrArg List.length hdata
    have hbodyLen := length_write hbody hsize.1
    simp only [length_block, List.length_append, length_writeUInt16] at hlen hfuel
    have hhead := hdata
    simp only [List.append_assoc] at hhead
    obtain ⟨-, hlengthData⟩ := block_eq_append hhead
    rw [length_writeUInt16] at hlengthData
    have htype : getBE16 data pos = attr.type := getBE16_of_append hhead
    have hlength : getBE16 data (pos + 2) = attr.value.length := getBE16_of_append hlengthData.symm
    have htail := hdata
    rw [List.append_assoc _ x'] at htail
    obtain ⟨-, htail⟩ := block_eq_append htail
    simp only [List.length_append, length_writeUInt16] at htail
    rw [Nat.sub_sub] at htail
    have hnext : pos + 2 + 2 + attr.value.length.toNat + paddingLength attr.value.length =
        pos + (2 + 2 + body.length) := by omega
    rw [findMessageIntegrity, if_pos (by omega)]
    simp only [htype, hlength, if_neg hnone.1, hnext]
    rw [ih hx' hsize.2 hnone.2 (by omega) htail.symm]
    simp only [List.length_append, length_writeUInt16]
    congr 1
    omega

/-! ## The bytes that are signed -/

/-- What the check hashes is the message up to the attribute. -/
theorem integrityInput_written {type : Uint16} {x : List Uint8} {data : ℕ → Uint8}
    {size : ℕ} (hdata : block data 0 size = writeUInt16 type ++ writeUInt16 length ++ x ++ rest)
    (hlength : length.toNat + kStunHeaderSize = size)
    (hrest : kStunAttributeHeaderSize + kStunMessageIntegritySize ≤ rest.length)
    (hx : kStunHeaderSize ≤ 4 + x.length) :
    integrityInput data size (4 + x.length) =
      writeUInt16 type ++ writeUInt16 (BitVec.ofNat 16 (4 + x.length + 4)) ++ x := by
  have hlen := congrArg List.length hdata
  obtain ⟨hfront, -⟩ := block_eq_append hdata
  simp only [length_block, List.length_append, length_writeUInt16] at hlen hfront
  rw [List.append_assoc] at hfront
  simp only [kStunHeaderSize, kStunAttributeHeaderSize, kStunMessageIntegritySize] at hlength hrest hx
  unfold integrityInput
  simp only [kStunHeaderSize, kStunAttributeHeaderSize, kStunMessageIntegritySize, ← hfront]
  split_ifs with hmore
  · have hdrop : (writeUInt16 type ++ (writeUInt16 length ++ x)).drop 4 = x := by
      rw [← List.append_assoc]
      exact List.drop_left' (by rw [List.length_append, length_writeUInt16, length_writeUInt16])
    rw [List.take_left' (length_writeUInt16 type), hdrop]
    congr 4
    omega
  · have heq : length = BitVec.ofNat 16 (4 + x.length + 4) := by
      apply BitVec.eq_of_toNat_eq
      rw [BitVec.toNat_ofNat, Nat.mod_eq_of_lt] <;> omega
    rw [← heq, List.append_assoc]

/-! ## The signer -/

variable {msg : StunMessage} {x bytes : List Uint8}

theorem writeAttributes_append_last (hx : writeAttributes msg.transactionId msg.attrs = some x)
    (hbody : attr.value.write msg.transactionId = some body) :
    writeAttributes (msg.append attr).transactionId (msg.append attr).attrs =
      some (x ++ (writeUInt16 attr.type ++ writeUInt16 attr.value.length ++ body)) := by
  refine writeAttributes_append.mpr ⟨x, _, hx, writeAttributes_cons.mpr ⟨body, [], hbody, rfl, rfl⟩, ?_⟩
  rw [List.append_nil]

theorem write_append (attr : StunAttribute) (h : msg.isLegacy = false) :
    (msg.append attr).write = some bytes ↔
      ∃ x body, writeAttributes msg.transactionId msg.attrs = some x ∧
        attr.value.write msg.transactionId = some body ∧
        bytes = (msg.append attr).header ++
          (x ++ (writeUInt16 attr.type ++ writeUInt16 attr.value.length ++ body)) := by
  have hlegacy : (msg.append attr).isLegacy = false := h
  rw [write_eq_some hlegacy]
  constructor
  · rintro ⟨y, hy, rfl⟩
    obtain ⟨x, z, hx, hz, rfl⟩ := writeAttributes_append.mp hy
    obtain ⟨body, w, hbody, hw, rfl⟩ := writeAttributes_cons.mp hz
    cases hw
    exact ⟨x, body, hx, hbody, by rw [List.append_nil]⟩
  · rintro ⟨x, body, hx, hbody, rfl⟩
    exact ⟨_, writeAttributes_append_last hx hbody, rfl⟩

theorem append_replace (msg : StunMessage) {attr' : StunAttribute} (h : attr.value.length = attr'.value.length) :
    { msg.append attr with attrs := (msg.append attr).attrs.dropLast ++ [attr'] } = msg.append attr' := by
  simp only [StunMessage.append, List.dropLast_concat, h]

theorem take_before {x y : List Uint8} {n : ℕ} (h : y.length = n) : (x ++ y).take ((x ++ y).length - n) = x :=
  List.take_left' (by rw [List.length_append]; omega)

def integrityAttribute (digest : List Uint8) : StunAttribute := ⟨attrMessageIntegrity, .byteString digest⟩

def fingerprintAttribute (c : Uint32) : StunAttribute := ⟨attrFingerprint, .uint32 c⟩

theorem length_integrityAttribute (h : digest.length = kStunMessageIntegritySize) :
    (integrityAttribute digest).value.length = 20 := by
  rw [integrityAttribute, StunValue.length, h]
  rfl

theorem write_integrityAttribute (h : digest.length = kStunMessageIntegritySize) :
    (integrityAttribute digest).value.write id = some digest := by
  have hlen := length_integrityAttribute h
  rw [integrityAttribute] at hlen ⊢
  simp only at hlen
  have htake : digest.take (20 : Uint16).toNat = digest := List.take_of_length_le (by rw [h]; rfl)
  simp only [StunValue.write, hlen, htake]
  rw [show writePadding 20 = [] from by decide, List.append_nil]

theorem header_append_integrity (msg : StunMessage) {digest' : List Uint8}
    (h : digest.length = kStunMessageIntegritySize) (h' : digest'.length = kStunMessageIntegritySize) :
    (msg.append (integrityAttribute digest)).header = (msg.append (integrityAttribute digest')).header := by
  simp only [StunMessage.header, StunMessage.append, length_integrityAttribute h,
    length_integrityAttribute h']

theorem addMessageIntegrity_eq (key : List Uint8)
    (hhmac : ∀ key input, (hmac key input).length = kStunMessageIntegritySize)
    (h : msg.isLegacy = false) (hx : writeAttributes msg.transactionId msg.attrs = some x) :
    ∃ digest, digest.length = kStunMessageIntegritySize ∧
      msg.addMessageIntegrity hmac key = msg.append (integrityAttribute digest) ∧
      digest = hmac key ((msg.append (integrityAttribute digest)).header ++ x) := by
  have htype : ∀ digest, (integrityAttribute digest).value.valueType =
      msg.kind.getAttributeValueType (integrityAttribute digest).type := by
    intro digest
    cases msg.kind <;> rfl
  have hdummy : (List.replicate kStunMessageIntegritySize 0x30#8).length = kStunMessageIntegritySize :=
    List.length_replicate
  generalize hd : List.replicate kStunMessageIntegritySize 0x30#8 = dummy at hdummy
  have hadd : (msg.addAttribute ⟨attrMessageIntegrity, .byteString dummy⟩).1 =
      msg.append (integrityAttribute dummy) := congrArg Prod.fst (addAttribute_eq_append (htype dummy))
  have hwrite := (write_append (integrityAttribute dummy) h).mpr
    ⟨x, dummy, hx, write_integrityAttribute hdummy, rfl⟩
  have hfront := take_before (x := (msg.append (integrityAttribute dummy)).header ++ x)
    (y := writeUInt16 (integrityAttribute dummy).type ++
      writeUInt16 (integrityAttribute dummy).value.length ++ dummy)
    (n := kStunAttributeHeaderSize + kStunMessageIntegritySize)
    (by simp only [List.length_append, length_writeUInt16, hdummy])
  rw [← Nat.sub_sub, List.append_assoc] at hfront
  refine ⟨hmac key ((msg.append (integrityAttribute dummy)).header ++ x), hhmac .., ?_, ?_⟩
  · unfold StunMessage.addMessageIntegrity
    simp only [hd, hadd, hwrite, hfront, hhmac, if_true]
    exact append_replace msg
      ((length_integrityAttribute hdummy).trans (length_integrityAttribute (hhmac ..)).symm)
  · rw [header_append_integrity msg (hhmac ..) hdummy]

theorem addFingerprintWith_eq (crc32 : List Uint8 → Uint32) (h : msg.isLegacy = false)
    (hx : writeAttributes msg.transactionId msg.attrs = some x) :
    ∃ c, msg.addFingerprintWith crc32 = msg.append (fingerprintAttribute c) ∧
      c ^^^ stunFingerprintXorValue = crc32 ((msg.append (fingerprintAttribute c)).header ++ x) := by
  have htype : (fingerprintAttribute 0).value.valueType =
      msg.kind.getAttributeValueType (fingerprintAttribute 0).type := by
    cases msg.kind <;> rfl
  have hadd : (msg.addAttribute ⟨attrFingerprint, .uint32 0⟩).1 = msg.append (fingerprintAttribute 0) :=
    congrArg Prod.fst (addAttribute_eq_append htype)
  have hwrite := (write_append (fingerprintAttribute 0) h).mpr ⟨x, writeUInt32 0, hx, rfl, rfl⟩
  have hfront := take_before (x := (msg.append (fingerprintAttribute 0)).header ++ x)
    (y := writeUInt16 (fingerprintAttribute 0).type ++
      writeUInt16 (fingerprintAttribute 0).value.length ++ writeUInt32 0)
    (n := fingerprintAttrSize)
    (by simp only [List.length_append, length_writeUInt16, writeUInt32, length_wordBytes])
  rw [List.append_assoc] at hfront
  refine ⟨crc32 ((msg.append (fingerprintAttribute 0)).header ++ x) ^^^ stunFingerprintXorValue, ?_, ?_⟩
  · unfold StunMessage.addFingerprintWith
    simp only [hadd, hwrite, hfront]
    exact append_replace msg rfl
  · rw [BitVec.xor_assoc, BitVec.xor_self, BitVec.xor_zero]
    rfl

/-! ## The validators -/

theorem validateMessageIntegrity_written {key front x bytes : List Uint8} {type : Uint16}
    (hx : writeAttributes id attrs = some x) (hsize : ∀ attr ∈ attrs, attr.value.size ≤ 65535)
    (hnone : ∀ attr ∈ attrs, attr.type ≠ attrMessageIntegrity)
    (hbytes : bytes = writeUInt16 type ++ writeUInt16 length ++ (front ++ x) ++
      (integrityHeader ++ (digest ++ rest)))
    (hfront : front.length = 16) (hlength : length.toNat + kStunHeaderSize = bytes.length)
    (hmod : bytes.length % 4 = 0) (hlen : digest.length = kStunMessageIntegritySize)
    (hdigest : digest = hmac key
      (writeUInt16 type ++ writeUInt16 (BitVec.ofNat 16 (x.length + 24)) ++ (front ++ x))) :
    validateMessageIntegrity hmac (packetData bytes) bytes.length key = true := by
  have hdata := block_packetData bytes
  generalize packetData bytes = data at hdata ⊢
  nth_rewrite 2 [hbytes] at hdata
  simp only [kStunMessageIntegritySize] at hlen
  simp only [kStunHeaderSize] at hlength
  have hsizes : bytes.length = 20 + x.length + 24 + rest.length := by
    simp only [hbytes, integrityHeader, List.length_append, length_writeUInt16, hfront, hlen]
    omega
  have hpos : 4 + (front ++ x).length = 20 + x.length := by
    rw [List.length_append, hfront]
    omega
  have hrest : kStunAttributeHeaderSize + kStunMessageIntegritySize ≤
      (integrityHeader ++ (digest ++ rest)).length := by
    simp only [integrityHeader, List.length_append, length_writeUInt16, hlen]
    exact (Nat.le_add_right 24 rest.length).trans (Nat.le_of_eq (by omega))
  have hinput := integrityInput_written hdata hlength hrest (by rw [hpos]; exact Nat.le_add_right 20 _)
  rw [hpos, show 20 + x.length + 4 = x.length + 24 by omega] at hinput
  -- the attributes start after the header, and the digest after them
  have harea : block data 20 (bytes.length - 20) = x ++ (integrityHeader ++ (digest ++ rest)) := by
    have hdrop := drop_block data 0 bytes.length 20
    rw [hdata, ← List.append_assoc _ front, List.append_assoc _ x, Nat.zero_add] at hdrop
    rw [← hdrop]
    exact List.drop_left' (by simp only [List.length_append, length_writeUInt16, hfront])
  have hfuel : x.length < bytes.length := by omega
  have hfind := findMessageIntegrity_written hx hsize hnone hfuel
    (by rw [List.length_append, hlen]; exact Nat.le_add_right _ _) harea
  have hfield : getBE16 data 2 = length := by
    simp only [List.append_assoc] at hdata
    have hblock := block_of_append hdata
    rw [length_writeUInt16, length_writeUInt16] at hblock
    rw [getBE16, ← Nat.zero_add 2, hblock]
    exact ofNat_wordBytes 2 length
  have hposition : integrityPosition data bytes.length = some (20 + x.length) := by
    simp only [integrityPosition, kStunHeaderSize, hfield, hlength, hmod, ne_eq, not_true, if_false]
    exact hfind
  have hfound : block data (20 + x.length + kStunAttributeHeaderSize) kStunMessageIntegritySize = digest := by
    rw [← List.append_assoc] at harea
    have hblock := block_of_append harea
    simp only [List.length_append, integrityHeader, length_writeUInt16, hlen] at hblock
    rw [← Nat.add_assoc] at hblock
    exact hblock
  unfold validateMessageIntegrity
  rw [hposition]
  simp only [hinput, ← hdigest, hlen, hfound, decide_true, Bool.and_self]

theorem validateFingerprint_written {crc32 : List Uint8 → Uint32} {x bytes : List Uint8} {type : Uint16} {c : Uint32}
    (hbytes : bytes = writeUInt16 type ++ writeUInt16 length ++ writeUInt32 kStunMagicCookie ++ id ++ x ++
      (writeUInt16 attrFingerprint ++ writeUInt16 4 ++ writeUInt32 c))
    (hid : id.length = kStunTransactionIdLength) (hmod : bytes.length % 4 = 0)
    (hcrc : c ^^^ stunFingerprintXorValue = crc32
      (writeUInt16 type ++ writeUInt16 length ++ writeUInt32 kStunMagicCookie ++ id ++ x)) :
    validateFingerprintWith crc32 (packetData bytes) bytes.length = true := by
  have hdata := block_packetData bytes
  generalize packetData bytes = data at hdata ⊢
  nth_rewrite 2 [hbytes] at hdata
  generalize hfront : writeUInt16 type ++ writeUInt16 length ++ writeUInt32 kStunMagicCookie ++ id ++ x =
    front at hdata hcrc hbytes
  have hfrontLen : 20 ≤ front.length := by
    simp only [← hfront, List.length_append, length_writeUInt16, writeUInt32, length_wordBytes, hid]
    exact Nat.le_add_right 20 x.length
  have hsizes : bytes.length = front.length + 8 := by
    simp only [hbytes, List.length_append, length_writeUInt16, writeUInt32, length_wordBytes]
  have hcookie : getBE32 data 4 = kStunMagicCookie := by
    rw [← hfront] at hdata
    simp only [List.append_assoc] at hdata
    rw [← List.append_assoc] at hdata
    have hblock := block_of_append hdata
    simp only [List.length_append, length_writeUInt16, writeUInt32, length_wordBytes] at hblock
    rw [getBE32, ← Nat.zero_add 4, hblock]
    exact ofNat_wordBytes 4 kStunMagicCookie
  obtain ⟨hhashed, hattr⟩ := block_eq_append hdata
  rw [Nat.zero_add, hsizes, Nat.add_sub_cancel_left, List.append_assoc] at hattr
  obtain ⟨-, hvalue⟩ := block_eq_append hattr.symm
  rw [length_writeUInt16] at hvalue
  have htype : getBE16 data front.length = attrFingerprint := getBE16_of_append hattr.symm
  have hlength : getBE16 data (front.length + 2) = 4 := getBE16_of_append hvalue.symm
  have hc : getBE32 data (front.length + kStunAttributeHeaderSize) = c := by
    obtain ⟨-, hword⟩ := block_eq_append hvalue.symm
    rw [length_writeUInt16] at hword
    have hword : writeUInt32 c = block data (front.length + kStunAttributeHeaderSize) 4 := hword
    rw [getBE32, ← hword]
    exact ofNat_wordBytes 4 c
  have hattrData : bytes.length - fingerprintAttrSize = front.length := by
    rw [hsizes]
    exact Nat.add_sub_cancel ..
  have hlarge : ¬(bytes.length % 4 ≠ 0 ∨ bytes.length < kStunHeaderSize + fingerprintAttrSize) := by
    simp only [kStunHeaderSize, fingerprintAttrSize, kStunAttributeHeaderSize, stunUInt32AttributeSize]
    omega
  have hfour : (4 : Uint16).toNat = stunUInt32AttributeSize := rfl
  rw [validateFingerprintWith, if_neg hlarge]
  simp only [hcookie, hattrData, htype, hlength, hfour, hc, ← hhashed, hcrc, ne_eq, not_true, or_self,
    if_false, decide_true]

/-! ## Signed messages -/

/-- A message with one more attribute at the end. -/
def AddsLast (msg msg' : StunMessage) : Prop :=
  ∃ attr length, msg' = { msg with attrs := msg.attrs ++ [attr], length := length }

theorem addsLast_addMessageIntegrity (hmac : List Uint8 → List Uint8 → List Uint8) (key : List Uint8)
    (msg : StunMessage) : AddsLast msg (msg.addMessageIntegrity hmac key) := by
  have hadd : (msg.addAttribute ⟨attrMessageIntegrity,
      .byteString (List.replicate kStunMessageIntegritySize 0x30#8)⟩).1 = msg.append
        (integrityAttribute (List.replicate kStunMessageIntegritySize 0x30#8)) :=
    congrArg Prod.fst (addAttribute_eq_append (by cases msg.kind <;> rfl))
  unfold StunMessage.addMessageIntegrity
  simp only [hadd]
  split
  · exact ⟨_, _, rfl⟩
  · split_ifs
    · exact ⟨_, _, by simp only [StunMessage.append, List.dropLast_concat]; rfl⟩
    · exact ⟨_, _, rfl⟩

theorem addsLast_addFingerprintWith (crc32 : List Uint8 → Uint32) (msg : StunMessage) :
    AddsLast msg (msg.addFingerprintWith crc32) := by
  have hadd : (msg.addAttribute ⟨attrFingerprint, .uint32 0⟩).1 = msg.append (fingerprintAttribute 0) :=
    congrArg Prod.fst (addAttribute_eq_append (by cases msg.kind <;> rfl))
  unfold StunMessage.addFingerprintWith
  simp only [hadd]
  split
  · exact ⟨_, _, rfl⟩
  · exact ⟨_, _, by simp only [StunMessage.append, List.dropLast_concat]; rfl⟩

theorem AddsLast.writeAttributes {msg msg' : StunMessage} (h : AddsLast msg msg')
    (hlegacy : msg.isLegacy = false) (hwrite : msg'.write = some bytes) :
    ∃ x, writeAttributes msg.transactionId msg.attrs = some x := by
  obtain ⟨attr, length, rfl⟩ := h
  have hlegacy' : StunMessage.isLegacy { msg with attrs := msg.attrs ++ [attr], length := length } = false :=
    hlegacy
  obtain ⟨z, hz, -⟩ := (write_eq_some hlegacy').mp hwrite
  have hsplit : StunMessage.writeAttributes msg.transactionId (msg.attrs ++ [attr]) = some z := hz
  obtain ⟨x, y, hx, -, -⟩ := writeAttributes_append.mp hsplit
  exact ⟨x, hx⟩

theorem paddedSize_append (msg : StunMessage) (attr : StunAttribute) :
    (msg.append attr).paddedSize = msg.paddedSize + attr.paddedSize := by
  simp only [StunMessage.paddedSize, StunMessage.append, List.map_append, List.sum_append, List.map_cons,
    List.map_nil, List.sum_cons, List.sum_nil, Nat.add_zero]

theorem paddedSize_integrityAttribute
    (h : digest.length = kStunMessageIntegritySize) : (integrityAttribute digest).paddedSize = 24 := by
  simp only [StunAttribute.paddedSize, integrityAttribute, StunValue.size, h]
  rfl

theorem paddedSize_fingerprintAttribute (c : Uint32) : (fingerprintAttribute c).paddedSize = 8 := by
  simp only [StunAttribute.paddedSize, fingerprintAttribute, StunValue.size]

/-- **A message that was signed passes the check**. -/
theorem validateMessageIntegrity_signed {key : List Uint8} (htallied : Tallied msg)
    (hlegacy : msg.isLegacy = false) (hnone : ∀ attr ∈ msg.attrs, attr.type ≠ attrMessageIntegrity)
    (hsize : msg.paddedSize + 24 ≤ 65535)
    (hx : writeAttributes msg.transactionId msg.attrs = some x)
    (hdigest : digest.length = kStunMessageIntegritySize)
    (hhash : digest = hmac key ((msg.append (integrityAttribute digest)).header ++ x))
    (hlength : length.toNat = msg.paddedSize + 24 + rest.length) (hrest : rest.length % 4 = 0)
    (hbytes : bytes = writeUInt16 msg.type ++ writeUInt16 length ++ writeUInt32 kStunMagicCookie ++
      msg.transactionId ++ (x ++ (integrityHeader ++ (digest ++ rest)))) :
    validateMessageIntegrity hmac (packetData bytes) bytes.length key = true := by
  have hid := length_id_of_tallied htallied hlegacy
  have hsizes : ∀ attr ∈ msg.attrs, attr.value.size ≤ 65535 := size_le_of_paddedSize (by omega)
  have hmod := paddedSize_mod msg
  have hpadded := paddedSize_append msg (integrityAttribute digest)
  rw [paddedSize_integrityAttribute hdigest] at hpadded
  have hxlen : x.length = msg.paddedSize := length_writeAttributes hx hsizes
  have hbytesLen : bytes.length = 20 + x.length + 24 + rest.length := by
    simp only [hbytes, integrityHeader, List.length_append, length_writeUInt16, writeUInt32,
      length_wordBytes, hdigest, hid, kStunTransactionIdLength, kStunMessageIntegritySize]
    omega
  have hpacket : bytes = writeUInt16 msg.type ++ writeUInt16 length ++
      ((writeUInt32 kStunMagicCookie ++ msg.transactionId) ++ x) ++
      (integrityHeader ++ (digest ++ rest)) := by
    rw [hbytes]
    simp only [List.append_assoc]
  refine validateMessageIntegrity_written hx hsizes hnone hpacket ?_ ?_ (by omega) hdigest
    (hhash.trans ?_)
  · rw [List.length_append, writeUInt32, length_wordBytes, hid]
    rfl
  · rw [kStunHeaderSize]
    omega
  · rw [StunMessage.header, length_of_tallied (htallied.append _) (by omega), hpadded, hxlen]
    simp only [List.append_assoc]
    rfl

/-- **Signed messages verify.** -/
theorem signed_verifies (hmac : List Uint8 → List Uint8 → List Uint8) (crc32 : List Uint8 → Uint32)
    (hhmac : ∀ key input, (hmac key input).length = kStunMessageIntegritySize)
    (key : List Uint8) (msg : StunMessage) (hmsg : Assembled msg) (hlegacy : msg.isLegacy = false)
    (hnone : ∀ attr ∈ msg.attrs, attr.type ≠ attrMessageIntegrity ∧ attr.type ≠ attrFingerprint)
    (hsize : msg.paddedSize + 24 ≤ 65535) :
    (∀ bytes, (msg.addMessageIntegrity hmac key).write = some bytes →
      validateMessageIntegrity hmac (packetData bytes) bytes.length key = true) ∧
    (msg.paddedSize + 24 + 8 ≤ 65535 →
      ∀ bytes, ((msg.addMessageIntegrity hmac key).addFingerprintWith crc32).write = some bytes →
        validateFingerprintWith crc32 (packetData bytes) bytes.length = true ∧
          validateMessageIntegrity hmac (packetData bytes) bytes.length key = true) := by
  have htallied := hmsg.tallied
  have hid := length_id_of_tallied htallied hlegacy
  have hmi : ∀ attr ∈ msg.attrs, attr.type ≠ attrMessageIntegrity := fun attr hattr => (hnone attr hattr).1
  have hadds := addsLast_addMessageIntegrity hmac key msg
  have hlegacy' : (msg.addMessageIntegrity hmac key).isLegacy = false := by
    obtain ⟨attr, length, heq⟩ := hadds
    rw [heq]
    exact hlegacy
  constructor
  · intro bytes hwrite
    obtain ⟨x, hx⟩ := hadds.writeAttributes hlegacy hwrite
    obtain ⟨digest, hdigest, heq, hhash⟩ := addMessageIntegrity_eq key hhmac hlegacy hx
    rw [heq] at hwrite
    obtain ⟨x', body, hx', hbody, hbytes⟩ := (write_append _ hlegacy).mp hwrite
    obtain rfl := Option.some.inj (hx.symm.trans hx')
    rw [write_integrityAttribute hdigest] at hbody
    obtain rfl := Option.some.inj hbody
    have hpadded := paddedSize_append msg (integrityAttribute digest)
    rw [paddedSize_integrityAttribute hdigest] at hpadded
    have hlength : (msg.append (integrityAttribute digest)).length.toNat =
        msg.paddedSize + 24 + ([] : List Uint8).length := by
      rw [length_of_tallied (htallied.append _) (by omega), hpadded, BitVec.toNat_ofNat,
        Nat.mod_eq_of_lt (by omega), List.length_nil, Nat.add_zero]
    refine validateMessageIntegrity_signed htallied hlegacy hmi hsize hx hdigest hhash hlength rfl ?_
    rw [hbytes, StunMessage.header, length_integrityAttribute hdigest, List.append_nil]
    rfl
  · intro hsize' bytes hwrite
    obtain ⟨y, hy⟩ := (addsLast_addFingerprintWith crc32 _).writeAttributes hlegacy' hwrite
    obtain ⟨x, hx⟩ : ∃ x, writeAttributes msg.transactionId msg.attrs = some x := by
      obtain ⟨attr, length, heq⟩ := hadds
      rw [heq] at hy
      obtain ⟨x, z, hx, -, -⟩ := writeAttributes_append.mp hy
      exact ⟨x, hx⟩
    obtain ⟨digest, hdigest, heq, hhash⟩ := addMessageIntegrity_eq key hhmac hlegacy hx
    rw [heq] at hwrite hlegacy'
    have hz := writeAttributes_append_last hx (write_integrityAttribute hdigest)
    obtain ⟨c, heq', hcrc⟩ := addFingerprintWith_eq crc32 hlegacy' hz
    rw [heq'] at hwrite
    obtain ⟨z, body, hz', hbody, hbytes⟩ := (write_append _ hlegacy').mp hwrite
    obtain rfl := Option.some.inj (hz.symm.trans hz')
    obtain rfl := Option.some.inj hbody
    rw [length_integrityAttribute hdigest] at hbytes hcrc
    have hpadded := paddedSize_append (msg.append (integrityAttribute digest)) (fingerprintAttribute c)
    rw [paddedSize_append msg, paddedSize_integrityAttribute hdigest, paddedSize_fingerprintAttribute]
      at hpadded
    have hlength : ((msg.append (integrityAttribute digest)).append (fingerprintAttribute c)).length.toNat =
        msg.paddedSize + 24 + 8 := by
      rw [length_of_tallied ((htallied.append _).append _) (by omega), hpadded, BitVec.toNat_ofNat,
        Nat.mod_eq_of_lt (by omega)]
    have hxlen : x.length = msg.paddedSize :=
      length_writeAttributes hx (size_le_of_paddedSize (by omega))
    have hbytesLen : bytes.length = 20 + x.length + 24 + 8 := by
      simp only [hbytes, StunMessage.header, List.length_append, length_writeUInt16, writeUInt32,
        length_wordBytes, hdigest, StunMessage.append, hid, kStunTransactionIdLength,
        kStunMessageIntegritySize]
      omega
    have hmod := paddedSize_mod msg
    constructor
    · refine validateFingerprint_written (hbytes.trans ?_) hid (by omega) hcrc
      rw [StunMessage.header]
      simp only [List.append_assoc]
      rfl
    · have hrest : (writeUInt16 attrFingerprint ++ writeUInt16 4 ++ writeUInt32 c).length = 8 := rfl
      rw [← hrest] at hlength
      refine validateMessageIntegrity_signed htallied hlegacy hmi hsize hx hdigest hhash hlength
        (by rw [hrest]) ?_
      rw [hbytes, StunMessage.header]
      simp only [List.append_assoc]
      rfl

/-- A binding request with a user name. -/
theorem signed_verifies_binding :
    let msg := (((StunMessage.new .ice).setTransactionID (List.replicate 12 0x41)).1.addAttribute
      ⟨attrUsername, .byteString [0x61, 0x62]⟩).1
    let hmac : List Uint8 → List Uint8 → List Uint8 := fun key input =>
      (key ++ input ++ List.replicate 20 0).take 20
    ((msg.addMessageIntegrity hmac [1]).addFingerprintWith computeCrc32).write.isSome = true ∧
    (∀ bytes, (msg.addMessageIntegrity hmac [1]).write = some bytes →
      validateMessageIntegrity hmac (packetData bytes) bytes.length [1] = true) ∧
    (msg.paddedSize + 24 + 8 ≤ 65535 →
      ∀ bytes, ((msg.addMessageIntegrity hmac [1]).addFingerprintWith computeCrc32).write = some bytes →
        validateFingerprintWith computeCrc32 (packetData bytes) bytes.length = true ∧
          validateMessageIntegrity hmac (packetData bytes) bytes.length [1] = true) := by
  intro msg hmac
  have hhmac : ∀ key input, (hmac key input).length = kStunMessageIntegritySize := by
    intro key input
    rw [List.length_take, List.length_append, List.length_replicate]
    exact Nat.min_eq_left (Nat.le_add_left 20 _)
  refine ⟨by decide, signed_verifies hmac computeCrc32 hhmac [1] msg
    (.addAttribute (.setTransactionID (.new .ice))) (by decide) ?_ (by decide)⟩
  have hattrs : msg.attrs = [⟨attrUsername, .byteString [0x61, 0x62]⟩] := by decide
  rw [hattrs]
  intro attr hattr
  rw [List.mem_singleton.mp hattr]
  exact ⟨by decide, by decide⟩

end Libjingle
