import Libjingle.Stun.Signing

/-!
# Length fields (`p2p/base/stun.cc`)

Main result: **`truthful_iff`**.
-/

variable {attr : StunAttribute} {attrs : List StunAttribute} {id : List Uint8}

namespace Libjingle

open Lib StunMessage

/-! ## The bytes of a value -/

/-- The value that `Write` writes, without the padding. -/
def StunValue.writeValue (transactionId : List Uint8) : StunValue → Option (List Uint8)
  | .byteString bytes => some (bytes.take (StunValue.byteString bytes).length.toNat)
  | .errorCode eclass number reason =>
    some (writeUInt32 (eclass.setWidth 32 <<< 8 ||| number.setWidth 32) ++ reason)
  | .uint16List types => some (types.flatMap writeUInt16)
  | value => value.write transactionId

/-- The size of `writeValue`. -/
def StunValue.writtenSize : StunValue → ℕ
  | .byteString bytes => bytes.length % 2 ^ 16
  | value => value.size

/-- The bytes of an attribute with its header and its padding. -/
def StunAttribute.writtenSize (attr : StunAttribute) : ℕ :=
  4 + attr.value.writtenSize + (4 - attr.value.writtenSize % 4) % 4

theorem writePadding_eq_nil {length : Uint16} (h : paddingLength length = 0) : writePadding length = [] := by
  rw [writePadding, h, List.replicate_zero]

theorem write_eq_of_unpadded {value : StunValue} (h : paddingLength value.length = 0)
    (hvalue : value.writeValue id = value.write id) :
    value.write id = (value.writeValue id).map (· ++ writePadding value.length) := by
  rw [hvalue, writePadding_eq_nil h]
  simp only [List.append_nil, Option.map_id']

theorem write_eq_writeValue (id : List Uint8) (value : StunValue) :
    value.write id = (value.writeValue id).map (· ++ writePadding value.length) := by
  cases value with
  | address addr => exact write_eq_of_unpadded (paddingLength_addressLength addr.ip) rfl
  | xorAddress addr => exact write_eq_of_unpadded (paddingLength_addressLength addr.ip) rfl
  | uint32 bits => exact write_eq_of_unpadded (by decide : paddingLength 4 = 0) rfl
  | uint64 bits => exact write_eq_of_unpadded (by decide : paddingLength 8 = 0) rfl
  | byteString bytes => rfl
  | errorCode eclass number reason => rfl
  | uint16List types => rfl

theorem toNat_length_mod (value : StunValue) : value.length.toNat = value.writtenSize % 2 ^ 16 := by
  cases value with
  | address addr => exact (Nat.mod_eq_of_lt (StunValue.addressLength addr.ip).isLt).symm
  | xorAddress addr => exact (Nat.mod_eq_of_lt (StunValue.addressLength addr.ip).isLt).symm
  | uint32 bits => rfl
  | uint64 bits => rfl
  | byteString bytes => exact (Nat.mod_mod ..).symm
  | errorCode eclass number reason =>
    rw [StunValue.length, BitVec.toNat_add, BitVec.toNat_ofNat, Nat.add_mod_mod]
    rfl
  | uint16List types => rfl

theorem length_writeValue {value : StunValue} {body : List Uint8}
    (h : value.writeValue id = some body) : body.length = value.writtenSize := by
  cases value with
  | address addr => exact length_writeAddress h
  | xorAddress addr => exact length_writeXorAddress h
  | uint32 bits =>
    cases h
    exact length_wordBytes 4 bits
  | uint64 bits =>
    cases h
    exact length_wordBytes 8 bits
  | byteString bytes =>
    cases h
    rw [List.length_take, toNat_length_mod, StunValue.writtenSize, Nat.mod_mod,
      Nat.min_eq_left (Nat.mod_le ..)]
  | errorCode eclass number reason =>
    cases h
    rw [List.length_append, writeUInt32, length_wordBytes]
    rfl
  | uint16List types =>
    cases h
    rw [length_of_readTypes (readTypes_write types), List.length_nil, Nat.add_zero]
    rfl

/-! ## The bytes of the attributes -/

theorem paddingLength_writtenSize (value : StunValue) :
    paddingLength value.length = (4 - value.writtenSize % 4) % 4 := by
  rw [paddingLength, toNat_length_mod]
  split_ifs <;> omega

theorem attributeLength_mod (attr : StunAttribute) :
    attributeLength attr.value.length % 2 ^ 16 = attr.writtenSize % 2 ^ 16 := by
  rw [attributeLength, toNat_length_mod, StunAttribute.writtenSize]
  split_ifs <;> omega

theorem sum_attributeLength_mod (attrs : List StunAttribute) :
    (attrs.map fun attr => attributeLength attr.value.length).sum % 2 ^ 16 =
      (attrs.map StunAttribute.writtenSize).sum % 2 ^ 16 := by
  induction attrs with
  | nil => rfl
  | cons attr attrs ih =>
    rw [List.map_cons, List.map_cons, List.sum_cons, List.sum_cons, Nat.add_mod, attributeLength_mod, ih,
      ← Nat.add_mod]

theorem writeAttributes_cons_value {bytes : List Uint8} (h : writeAttributes id (attr :: attrs) = some bytes) :
    ∃ value x, attr.value.writeValue id = some value ∧ writeAttributes id attrs = some x ∧
      bytes = writeUInt16 attr.type ++ (writeUInt16 attr.value.length ++
        (value ++ (writePadding attr.value.length ++ x))) := by
  obtain ⟨body, x, hbody, hx, rfl⟩ := writeAttributes_cons.mp h
  rw [write_eq_writeValue, Option.map_eq_some_iff] at hbody
  obtain ⟨value, hvalue, rfl⟩ := hbody
  exact ⟨value, x, hvalue, hx, by simp only [List.append_assoc]⟩

theorem length_writeAttributes_written {bytes : List Uint8} (h : writeAttributes id attrs = some bytes) :
    bytes.length = (attrs.map StunAttribute.writtenSize).sum := by
  induction attrs generalizing bytes with
  | nil =>
    cases h
    rfl
  | cons attr attrs ih =>
    obtain ⟨value, x, hvalue, hx, rfl⟩ := writeAttributes_cons_value h
    simp only [List.length_append, length_writeUInt16, writePadding, List.length_replicate,
      length_writeValue hvalue, paddingLength_writtenSize, ih hx, List.map_cons, List.sum_cons,
      StunAttribute.writtenSize]
    omega

theorem writtenSize_le (h : attr ∈ attrs) : attr.value.writtenSize ≤ (attrs.map StunAttribute.writtenSize).sum := by
  have hle : attr.writtenSize ≤ (attrs.map StunAttribute.writtenSize).sum :=
    List.single_le_sum (fun _ _ => Nat.zero_le _) _ (List.mem_map.mpr ⟨attr, h, rfl⟩)
  rw [StunAttribute.writtenSize] at hle
  omega

/-! ## The bytes of the message -/

variable {msg : StunMessage} {bytes : List Uint8}

theorem write_split (h : Tallied msg) (hwrite : msg.write = some bytes) :
    ∃ cookieId x, cookieId.length = 16 ∧ writeAttributes msg.transactionId msg.attrs = some x ∧
      bytes = writeUInt16 msg.type ++ (writeUInt16 msg.length ++ (cookieId ++ x)) := by
  simp only [StunMessage.write, Option.bind_eq_bind, Option.bind_eq_some_iff, Option.some.injEq] at hwrite
  obtain ⟨x, hx, rfl⟩ := hwrite
  refine ⟨(if msg.isLegacy then [] else writeUInt32 kStunMagicCookie) ++ msg.transactionId, x, ?_, hx,
    by simp only [List.append_assoc]⟩
  cases hlegacy : msg.isLegacy with
  | true =>
    rw [if_pos rfl, List.nil_append]
    exact of_decide_eq_true hlegacy
  | false =>
    rw [if_neg Bool.false_ne_true, List.length_append, length_id_of_tallied h hlegacy]
    exact congrArg (· + kStunTransactionIdLength) (length_wordBytes 4 kStunMagicCookie)

theorem length_written (h : Tallied msg) (hwrite : msg.write = some bytes) :
    bytes.length = kStunHeaderSize + (msg.attrs.map StunAttribute.writtenSize).sum := by
  obtain ⟨cookieId, x, hid, hx, rfl⟩ := write_split h hwrite
  simp only [List.length_append, length_writeUInt16, hid, length_writeAttributes_written hx]
  unfold kStunHeaderSize
  omega

theorem length_field (h : Tallied msg) (hwrite : msg.write = some bytes) :
    (getBE16 (packetData bytes) 2).toNat = (msg.attrs.map StunAttribute.writtenSize).sum % 2 ^ 16 := by
  obtain ⟨cookieId, x, -, -, hbytes⟩ := write_split h hwrite
  obtain ⟨-, hnext⟩ := block_eq_append ((block_packetData bytes).trans hbytes)
  rw [length_writeUInt16] at hnext
  have hfield : getBE16 (packetData bytes) 2 = msg.length := getBE16_of_append hnext.symm
  rw [hfield, h.length_eq, BitVec.toNat_ofNat, sum_attributeLength_mod]

theorem attribute_at (h : Tallied msg) (hwrite : msg.write = some bytes)
    {before after : List StunAttribute} {front value : List Uint8}
    (hattrs : msg.attrs = before ++ attr :: after)
    (hfront : writeAttributes msg.transactionId before = some front)
    (hvalue : attr.value.writeValue msg.transactionId = some value) :
    ∃ n rest, block (packetData bytes) (kStunHeaderSize + front.length) n =
      writeUInt16 attr.type ++ (writeUInt16 attr.value.length ++ (value ++ rest)) := by
  obtain ⟨cookieId, x, hid, hx, hbytes⟩ := write_split h hwrite
  rw [hattrs] at hx
  obtain ⟨front', y, hfront', hy, rfl⟩ := writeAttributes_append.mp hx
  obtain ⟨value', z, hvalue', -, rfl⟩ := writeAttributes_cons_value hy
  obtain rfl := Option.some.inj (hfront.symm.trans hfront')
  obtain rfl := Option.some.inj (hvalue.symm.trans hvalue')
  have hsplit : bytes = (writeUInt16 msg.type ++ writeUInt16 msg.length ++ cookieId ++ front) ++
      (writeUInt16 attr.type ++ (writeUInt16 attr.value.length ++
        (value ++ (writePadding attr.value.length ++ z)))) := by
    rw [hbytes]
    simp only [List.append_assoc]
  obtain ⟨-, hblock⟩ := block_eq_append ((block_packetData bytes).trans hsplit)
  have hlen : (writeUInt16 msg.type ++ writeUInt16 msg.length ++ cookieId ++ front).length =
      kStunHeaderSize + front.length := by
    simp only [List.length_append, length_writeUInt16, hid]
  rw [hlen, Nat.zero_add] at hblock
  exact ⟨_, _, hblock.symm⟩

theorem attribute_field (h : Tallied msg) (hwrite : msg.write = some bytes)
    {before after : List StunAttribute} {front value : List Uint8}
    (hattrs : msg.attrs = before ++ attr :: after)
    (hfront : writeAttributes msg.transactionId before = some front)
    (hvalue : attr.value.writeValue msg.transactionId = some value) :
    (getBE16 (packetData bytes) (kStunHeaderSize + front.length + 2)).toNat = value.length % 2 ^ 16 := by
  obtain ⟨n, rest, hblock⟩ := attribute_at h hwrite hattrs hfront hvalue
  obtain ⟨-, hnext⟩ := block_eq_append hblock
  rw [length_writeUInt16] at hnext
  rw [getBE16_of_append hnext.symm, toNat_length_mod, length_writeValue hvalue]

/-! ## Truthful lengths -/

/-- The length fields tell the truth. -/
structure Truthful (msg : StunMessage) (bytes : List Uint8) : Prop where
  message : (getBE16 (packetData bytes) 2).toNat = bytes.length - kStunHeaderSize
  attributes : ∀ (before : List StunAttribute) (attr : StunAttribute) (after : List StunAttribute)
    (front value : List Uint8), msg.attrs = before ++ attr :: after →
    writeAttributes msg.transactionId before = some front →
    attr.value.writeValue msg.transactionId = some value →
    (getBE16 (packetData bytes) (kStunHeaderSize + front.length + 2)).toNat = value.length

/-- **The lengths that `Write` writes are true iff what is written of the attributes fits into 16
bits**. -/
theorem truthful_iff (h : Assembled msg) (hwrite : msg.write = some bytes) :
    Truthful msg bytes ↔ (msg.attrs.map StunAttribute.writtenSize).sum < 2 ^ 16 := by
  have hfield := length_field h.tallied hwrite
  have hlength := length_written h.tallied hwrite
  constructor
  · intro htrue
    have hmessage := htrue.message
    omega
  · intro hfits
    refine ⟨by omega, ?_⟩
    intro before attr after front value hattrs hfront hvalue
    have hmem : attr ∈ msg.attrs := by
      rw [hattrs]
      exact List.mem_append_right _ List.mem_cons_self
    have hle := writtenSize_le hmem
    rw [attribute_field h.tallied hwrite hattrs hfront hvalue, Nat.mod_eq_of_lt]
    rw [length_writeValue hvalue]
    omega

/-- A message that gives a reason for refusing a request. -/
def refusal (reason : List Uint8) : StunMessage :=
  ((StunMessage.new .stun).addAttribute (stunErrorCodeAttribute stunErrorBadRequest reason)).1

theorem assembled_refusal (reason : List Uint8) : Assembled (refusal reason) := .addAttribute (.new .stun)

theorem sum_refusal (reason : List Uint8) :
    ((refusal reason).attrs.map StunAttribute.writtenSize).sum =
      4 + (4 + reason.length) + (4 - (4 + reason.length) % 4) % 4 := by
  have hattrs : (refusal reason).attrs = [stunErrorCodeAttribute stunErrorBadRequest reason] := rfl
  rw [hattrs, List.map_singleton, List.sum_singleton]
  rfl

theorem truthful_iff_small :
    Truthful (refusal stunErrorReasonBadRequest) ((refusal stunErrorReasonBadRequest).write.getD []) ↔
      ((refusal stunErrorReasonBadRequest).attrs.map StunAttribute.writtenSize).sum < 2 ^ 16 :=
  truthful_iff (assembled_refusal _) (by decide)

/-- A reason of 65532 bytes gets the length 0. -/
theorem write_wraps :
    ∃ bytes, (refusal (List.replicate 65532 0x61)).write = some bytes ∧
      (getBE16 (packetData bytes) 2).toNat = 4 ∧ bytes.length = kStunHeaderSize + 65540 ∧
      (getBE16 (packetData bytes) (kStunHeaderSize + 2)).toNat = 0 ∧
      ¬Truthful (refusal (List.replicate 65532 0x61)) bytes := by
  -- the reason stays a variable, so that nothing computes with 65532 bytes
  generalize hreason : List.replicate 65532 (0x61 : Uint8) = reason
  have hsize : reason.length = 65532 := by rw [← hreason, List.length_replicate]
  have htallied := (assembled_refusal reason).tallied
  obtain ⟨bytes, hbytes⟩ : ∃ bytes, (refusal reason).write = some bytes := ⟨_, rfl⟩
  have hmessage := length_field htallied hbytes
  have hlength := length_written htallied hbytes
  rw [sum_refusal, hsize] at hmessage hlength
  have hattrs : (refusal reason).attrs =
      [] ++ stunErrorCodeAttribute stunErrorBadRequest reason :: [] := rfl
  have hfront : writeAttributes (refusal reason).transactionId [] = some [] := rfl
  have hvalue : (stunErrorCodeAttribute stunErrorBadRequest reason).value.writeValue
      (refusal reason).transactionId = some (writeUInt32 (0x400 : Uint32) ++ reason) := rfl
  have hattribute := attribute_field htallied hbytes hattrs hfront hvalue
  rw [List.length_append, hsize] at hattribute
  refine ⟨bytes, hbytes, hmessage, hlength, hattribute, ?_⟩
  intro htrue
  have hlie := htrue.message
  omega

end Libjingle
