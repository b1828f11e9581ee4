import Libjingle.Lib.Bytes
import Libjingle.Lib.Ring
import Libjingle.Base.SocketAddress

/-!
# STUN messages (`p2p/base/stun.{h,cc}`)

* The getters, all of which return the first attribute of a type.
* Message types, and the codes and texts of errors.

A `ByteBuffer` to read from is the list of the bytes that are left, one to write to the list of the
bytes written. `Round` is not part of the source: it records a round of the loop of `Read`.
-/

namespace Libjingle

open Lib

/-! ## Constants -/

abbrev kStunAttributeHeaderSize : ℕ := 4
abbrev kStunHeaderSize : ℕ := 20
abbrev kStunTransactionIdLength : ℕ := 12
abbrev kStunLegacyTransactionIdLength : ℕ := 16
abbrev kStunMagicCookie : Uint32 := 0x2112A442#32
abbrev kStunMagicCookieLength : ℕ := 4
abbrev kStunMessageIntegritySize : ℕ := 20

abbrev kStunTypeMask : Uint16 := 0x0110#16

@[match_pattern] abbrev attrMappedAddress : Uint16 := 0x0001#16
@[match_pattern] abbrev attrUsername : Uint16 := 0x0006#16
@[match_pattern] abbrev attrMessageIntegrity : Uint16 := 0x0008#16
@[match_pattern] abbrev attrErrorCode : Uint16 := 0x0009#16
@[match_pattern] abbrev attrUnknownAttributes : Uint16 := 0x000a#16
@[match_pattern] abbrev attrChannelNumber : Uint16 := 0x000c#16
@[match_pattern] abbrev attrLifetime : Uint16 := 0x000d#16
@[match_pattern] abbrev attrMagicCookie : Uint16 := 0x000f#16
@[match_pattern] abbrev attrBandwidth : Uint16 := 0x0010#16
@[match_pattern] abbrev attrDestinationAddress : Uint16 := 0x0011#16
@[match_pattern] abbrev attrSourceAddress2 : Uint16 := 0x0012#16
@[match_pattern] abbrev attrXorPeerAddress : Uint16 := 0x0012#16
@[match_pattern] abbrev attrData : Uint16 := 0x0013#16
@[match_pattern] abbrev attrRealm : Uint16 := 0x0014#16
@[match_pattern] abbrev attrNonce : Uint16 := 0x0015#16
@[match_pattern] abbrev attrXorRelayedAddress : Uint16 := 0x0016#16
@[match_pattern] abbrev attrEvenPort : Uint16 := 0x0018#16
@[match_pattern] abbrev attrRequestedTransport : Uint16 := 0x0019#16
@[match_pattern] abbrev attrDontFragment : Uint16 := 0x001a#16
@[match_pattern] abbrev attrXorMappedAddress : Uint16 := 0x0020#16
@[match_pattern] abbrev attrReservationToken : Uint16 := 0x0022#16
@[match_pattern] abbrev attrPriority : Uint16 := 0x0024#16
@[match_pattern] abbrev attrUseCandidate : Uint16 := 0x0025#16
@[match_pattern] abbrev attrOptions : Uint16 := 0x8001#16
@[match_pattern] abbrev attrSoftware : Uint16 := 0x8022#16
@[match_pattern] abbrev attrAlternateServer : Uint16 := 0x8023#16
@[match_pattern] abbrev attrFingerprint : Uint16 := 0x8028#16
@[match_pattern] abbrev attrIceControlled : Uint16 := 0x8029#16
@[match_pattern] abbrev attrIceControlling : Uint16 := 0x802a#16
@[match_pattern] abbrev attrRetransmitCount : Uint16 := 0xff00#16

/-! ## Message classes -/

/-- `StunAttributeValueType`. -/
inductive StunAttributeValueType where
  | unknown | address | xorAddress | uint32 | uint64 | byteString | errorCode | uint16List
  deriving DecidableEq, Repr

/-- The classes of messages, which know different attributes. -/
inductive MessageClass where
  | stun | relay | turn | ice
  deriving DecidableEq, Repr

/-- `StunMessage::GetAttributeValueType`. -/
def stunValueType : Uint16 → StunAttributeValueType
  | attrMappedAddress => .address
  | attrUsername => .byteString
  | attrMessageIntegrity => .byteString
  | attrErrorCode => .errorCode
  | attrUnknownAttributes => .uint16List
  | attrRealm => .byteString
  | attrNonce => .byteString
  | attrXorMappedAddress => .xorAddress
  | attrSoftware => .byteString
  | attrAlternateServer => .byteString
  | attrFingerprint => .uint32
  | attrRetransmitCount => .uint32
  | _ => .unknown

def relayValueType : Uint16 → StunAttributeValueType
  | attrLifetime => .uint32
  | attrMagicCookie => .byteString
  | attrBandwidth => .uint32
  | attrDestinationAddress => .address
  | attrSourceAddress2 => .address
  | attrData => .byteString
  | attrOptions => .uint32
  | type => stunValueType type

def turnValueType : Uint16 → StunAttributeValueType
  | attrChannelNumber => .uint32
  | attrLifetime => .uint32
  | attrXorPeerAddress => .xorAddress
  | attrData => .byteString
  | attrXorRelayedAddress => .xorAddress
  | attrEvenPort => .byteString
  | attrRequestedTransport => .uint32
  | attrDontFragment => .byteString
  | attrReservationToken => .byteString
  | type => stunValueType type

def iceValueType : Uint16 → StunAttributeValueType
  | attrPriority => .uint32
  | attrUseCandidate => .byteString
  | attrIceControlled => .uint64
  | attrIceControlling => .uint64
  | type => stunValueType type

def MessageClass.getAttributeValueType : MessageClass → Uint16 → StunAttributeValueType
  | .stun => stunValueType
  | .relay => relayValueType
  | .turn => turnValueType
  | .ice => iceValueType

/-! ## Reading from a `ByteBuffer` -/

/-- The reads of `ByteBuffer`. -/
def readUInt8 (buf : List Uint8) : Option (Uint8 × List Uint8) := takeWord 1 buf
def readUInt16 (buf : List Uint8) : Option (Uint16 × List Uint8) := takeWord 2 buf
def readUInt32 (buf : List Uint8) : Option (Uint32 × List Uint8) := takeWord 4 buf
def readUInt64 (buf : List Uint8) : Option (Uint64 × List Uint8) := takeWord 8 buf
def readBytes (buf : List Uint8) (len : ℕ) : Option (List Uint8 × List Uint8) := takeBytes len buf

def consumeBytes (buf : List Uint8) (size : ℕ) : Option (List Uint8) :=
  if size > buf.length then none else some (buf.drop size)

/-- The writes of `ByteBuffer`. -/
def writeUInt8 (v : Uint8) : List Uint8 := wordBytes 1 v
def writeUInt16 (v : Uint16) : List Uint8 := wordBytes 2 v
def writeUInt32 (v : Uint32) : List Uint8 := wordBytes 4 v
def writeUInt64 (v : Uint64) : List Uint8 := wordBytes 8 v

/-! ## Attributes -/

/-- The value of an attribute, one constructor for each class of `StunAttribute`. -/
inductive StunValue where
  | address (addr : SocketAddress)
  | xorAddress (addr : SocketAddress)
  | uint32 (bits : Uint32)
  | uint64 (bits : Uint64)
  | byteString (bytes : List Uint8)
  | errorCode (eclass number : Uint8) (reason : List Uint8)
  | uint16List (types : List Uint16)
  deriving DecidableEq, Repr

/-- `StunAttribute`. -/
structure StunAttribute where
  type : Uint16
  value : StunValue
  deriving DecidableEq, Repr

namespace StunValue

def valueType : StunValue → StunAttributeValueType
  | address _ => .address
  | xorAddress _ => .xorAddress
  | uint32 _ => .uint32
  | uint64 _ => .uint64
  | byteString _ => .byteString
  | errorCode .. => .errorCode
  | uint16List _ => .uint16List

def addressLength : IPAddress → Uint16
  | .v4 _ => 8
  | .v6 _ => 20
  | .unspec => 0

/-- `length_`, as the constructors and setters leave it. -/
def length : StunValue → Uint16
  | address addr => addressLength addr.ip
  | xorAddress addr => addressLength addr.ip
  | uint32 _ => 4
  | uint64 _ => 8
  | byteString bytes => BitVec.ofNat 16 bytes.length
  | errorCode _ _ reason => 4 + BitVec.ofNat 16 reason.length
  | uint16List types => BitVec.ofNat 16 (types.length * 2)

end StunValue

/-- The number of bytes after a body of `length` bytes. -/
def paddingLength (length : Uint16) : ℕ := if length.toNat % 4 > 0 then 4 - length.toNat % 4 else 0

/-- `StunAttribute::WritePadding`. -/
def writePadding (length : Uint16) : List Uint8 := List.replicate (paddingLength length) 0

/-- `StunAttribute::ConsumePadding`. -/
def consumePadding (length : Uint16) (buf : List Uint8) : List Uint8 :=
  (consumeBytes buf (paddingLength length)).getD buf

/-! ## Bodies of attributes -/

/-- `StunAddressAttribute::Write`. -/
def writeAddress (ip : IPAddress) (port : Uint16) : Option (List Uint8) :=
  match ip with
  | .unspec => none
  | .v4 addr => some (writeUInt8 0 ++ writeUInt8 1 ++ writeUInt16 port ++ writeUInt32 addr)
  | .v6 addr => some (writeUInt8 0 ++ writeUInt8 2 ++ writeUInt16 port ++ wordBytes 16 addr)

/-- `StunAddressAttribute::Read`. -/
def readAddress (length : Uint16) (buf : List Uint8) : Option (SocketAddress × List Uint8) := do
  let (_, buf) ← readUInt8 buf
  let (stunFamily, buf) ← readUInt8 buf
  let (port, buf) ← readUInt16 buf
  if stunFamily = 1 then
    if length ≠ 8 then none
    else
      let (addr, buf) ← readUInt32 buf
      some (.ofIP (.v4 addr) port, buf)
  else if stunFamily = 2 then
    if length ≠ 20 then none
    else
      let (addr, buf) ← takeWord 16 buf
      some (.ofIP (.v6 addr) port, buf)
  else none

/-- What an IPv6 address is XORed with. -/
def xorMask (transactionId : List Uint8) : BitVec 128 :=
  BitVec.ofNat 128 (beValue (wordBytes 4 kStunMagicCookie ++ transactionId))

/-- `StunXorAddressAttribute::GetXoredIP`. -/
def getXoredIP (transactionId : List Uint8) : IPAddress → IPAddress
  | .v4 addr => .v4 (addr ^^^ kStunMagicCookie)
  | .v6 addr =>
    if transactionId.length = kStunTransactionIdLength then .v6 (addr ^^^ xorMask transactionId)
    else .unspec
  | .unspec => .unspec

/-- `port() ^ (kStunMagicCookie >> 16)`. -/
def xoredPort (port : Uint16) : Uint16 := port ^^^ 0x2112#16

/-- `StunXorAddressAttribute::Write`. -/
def writeXorAddress (transactionId : List Uint8) (addr : SocketAddress) : Option (List Uint8) :=
  writeAddress (getXoredIP transactionId addr.ip) (xoredPort addr.port)

/-- `StunXorAddressAttribute::Read`. -/
def readXorAddress (transactionId : List Uint8) (length : Uint16) (buf : List Uint8) :
    Option (SocketAddress × List Uint8) := do
  let (addr, buf) ← readAddress length buf
  some (.ofIP (getXoredIP transactionId addr.ip) (xoredPort addr.port), buf)

/-- The loop of `StunUInt16ListAttribute::Read`. -/
def readTypes : ℕ → List Uint8 → Option (List Uint16 × List Uint8)
  | 0, buf => some ([], buf)
  | n + 1, buf => do
    let (attr, buf) ← readUInt16 buf
    let (types, buf) ← readTypes n buf
    some (attr :: types, buf)

/-- The virtual function `Write` of the attributes. -/
def StunValue.write (transactionId : List Uint8) : StunValue → Option (List Uint8)
  | .address addr => writeAddress addr.ip addr.port
  | .xorAddress addr => writeXorAddress transactionId addr
  | .uint32 bits => some (writeUInt32 bits)
  | .uint64 bits => some (writeUInt64 bits)
  | .byteString bytes =>
    let length := (StunValue.byteString bytes).length
    some (bytes.take length.toNat ++ writePadding length)
  | .errorCode eclass number reason =>
    let length := (StunValue.errorCode eclass number reason).length
    some (writeUInt32 (eclass.setWidth 32 <<< 8 ||| number.setWidth 32) ++ reason ++
      writePadding length)
  | .uint16List types =>
    let length := (StunValue.uint16List types).length
    some (types.flatMap writeUInt16 ++ writePadding length)

def readBody (transactionId : List Uint8) (valueType : StunAttributeValueType) (length : Uint16)
    (buf : List Uint8) : Option (StunValue × List Uint8) :=
  match valueType with
  | .unknown => none
  | .address => do
    let (addr, buf) ← readAddress length buf
    some (.address addr, buf)
  | .xorAddress => do
    let (addr, buf) ← readXorAddress transactionId length buf
    some (.xorAddress addr, buf)
  | .uint32 => do
    let (bits, buf) ← readUInt32 buf
    some (.uint32 bits, buf)
  | .uint64 => do
    let (bits, buf) ← readUInt64 buf
    some (.uint64 bits, buf)
  | .byteString => do
    let (bytes, buf) ← readBytes buf length.toNat
    some (.byteString bytes, buf)
  | .errorCode =>
    if length < 4 then none
    else do
      let (val, buf) ← readUInt32 buf
      let (reason, buf) ← readBytes buf (length.toNat - 4)
      some (.errorCode ((val >>> 8 &&& 0x7).setWidth 8) ((val &&& 0xff).setWidth 8) reason, buf)
  | .uint16List =>
    if length.toNat % 2 ≠ 0 then none
    else do
      let (types, buf) ← readTypes (length.toNat / 2) buf
      some (.uint16List types, buf)

def StunAttributeValueType.isPadded : StunAttributeValueType → Bool
  | .byteString | .errorCode | .uint16List => true
  | _ => false

/-- The virtual function `Read` of the attributes. -/
def readValue (transactionId : List Uint8) (valueType : StunAttributeValueType) (length : Uint16)
    (buf : List Uint8) : Option (StunValue × List Uint8) := do
  let (value, buf) ← readBody transactionId valueType length buf
  some (value, if valueType.isPadded then consumePadding length buf else buf)

/-! ## Messages -/

/-- `StunMessage`. -/
structure StunMessage where
  kind : MessageClass
  type : Uint16
  length : Uint16
  transactionId : List Uint8
  attrs : List StunAttribute
  deriving DecidableEq, Repr

namespace StunMessage

def emptyTransactionId : List Uint8 := List.replicate 16 0x30#8

/-- A message as its constructor leaves it. -/
def new (kind : MessageClass) : StunMessage := ⟨kind, 0, 0, emptyTransactionId, []⟩

/-- `StunMessage::IsValidTransactionId`. -/
def isValidTransactionId (transactionId : List Uint8) : Bool :=
  transactionId.length = kStunTransactionIdLength ||
    transactionId.length = kStunLegacyTransactionIdLength

variable (msg : StunMessage)

def setType (type : Uint16) : StunMessage := { msg with type := type }

def setTransactionID (str : List Uint8) : StunMessage × Bool :=
  if isValidTransactionId str then ({ msg with transactionId := str }, true) else (msg, false)

def attributeLength (length : Uint16) : ℕ :=
  let attrLength := length.toNat
  let attrLength := if attrLength % 4 ≠ 0 then attrLength + (4 - attrLength % 4) else attrLength
  attrLength + 4

def addAttribute (attr : StunAttribute) : StunMessage × Bool :=
  if attr.value.valueType ≠ msg.kind.getAttributeValueType attr.type then (msg, false)
  else
    ({ msg with
        attrs := msg.attrs ++ [attr]
        length := msg.length + BitVec.ofNat 16 (attributeLength attr.value.length) }, true)

def isLegacy : Bool := msg.transactionId.length = kStunLegacyTransactionIdLength

/-- The loop of `StunMessage::Write`. -/
def writeAttributes (transactionId : List Uint8) : List StunAttribute → Option (List Uint8)
  | [] => some []
  | attr :: attrs => do
    let body ← attr.value.write transactionId
    let rest ← writeAttributes transactionId attrs
    some (writeUInt16 attr.type ++ writeUInt16 attr.value.length ++ body ++ rest)

/-- `StunMessage::Write`. -/
def write : Option (List Uint8) := do
  let attributes ← writeAttributes msg.transactionId msg.attrs
  some (writeUInt16 msg.type ++ writeUInt16 msg.length ++
    (if msg.isLegacy then [] else writeUInt32 kStunMagicCookie) ++ msg.transactionId ++ attributes)

/-! ## Reading -/

/-- One round of the loop of `Read`. -/
structure Round where
  type : Uint16
  length : Uint16
  attr : Option StunAttribute
  size : ℕ
  deriving DecidableEq, Repr

/-- The bytes skipped for an unknown attribute, computed in 16 bits. -/
def skipLength (attrLength : Uint16) : Uint16 :=
  if attrLength.toNat % 4 ≠ 0 then attrLength + (4 - BitVec.ofNat 16 (attrLength.toNat % 4))
  else attrLength

/-- The body of the loop of `StunMessage::Read`. -/
def readRound (kind : MessageClass) (transactionId buf : List Uint8) :
    Option (Round × List Uint8) := do
  let (attrType, buf₁) ← readUInt16 buf
  let (attrLength, buf₂) ← readUInt16 buf₁
  match kind.getAttributeValueType attrType with
  | .unknown =>
    let rest ← consumeBytes buf₂ (skipLength attrLength).toNat
    some (⟨attrType, attrLength, none, buf.length - rest.length⟩, rest)
  | valueType =>
    let (value, rest) ← readValue transactionId valueType attrLength buf₂
    some (⟨attrType, attrLength, some ⟨attrType, value⟩, buf.length - rest.length⟩, rest)

/-- The loop of `StunMessage::Read`, until `rest` bytes are left. -/
def readLoop (kind : MessageClass) (transactionId : List Uint8) (rest : ℕ) :
    ℕ → List Uint8 → Option (List Round × List Uint8)
  | 0, buf => if buf.length > rest then none else some ([], buf)
  | fuel + 1, buf =>
    if buf.length > rest then do
      let (round, buf) ← readRound kind transactionId buf
      let (rounds, buf) ← readLoop kind transactionId rest fuel buf
      some (round :: rounds, buf)
    else some ([], buf)

/-- The start of `StunMessage::Read`. -/
def readHeader (buf : List Uint8) : Option (Uint16 × Uint16 × List Uint8 × List Uint8) := do
  let (type, buf) ← readUInt16 buf
  if type &&& 0x8000 ≠ 0 then none
  else
    let (length, buf) ← readUInt16 buf
    let (magicCookie, buf) ← readBytes buf kStunMagicCookieLength
    let (transactionId, buf) ← readBytes buf kStunTransactionIdLength
    -- a peer that does not send the cookie implements RFC 3489
    let transactionId :=
      if BitVec.ofNat 32 (beValue magicCookie) ≠ kStunMagicCookie then magicCookie ++ transactionId
      else transactionId
    if length.toNat ≠ buf.length then none else some (type, length, transactionId, buf)

def readRounds (kind : MessageClass) (buf : List Uint8) :
    Option (StunMessage × List Round × List Uint8) := do
  let (type, length, transactionId, area) ← readHeader buf
  let (rounds, buf) ← readLoop kind transactionId (area.length - length.toNat) area.length area
  some (⟨kind, type, length, transactionId, rounds.filterMap Round.attr⟩, rounds, buf)

/-- `StunMessage::Read`: the message, and what is left. -/
def read (kind : MessageClass) (buf : List Uint8) : Option (StunMessage × List Uint8) :=
  (readRounds kind buf).map fun r => (r.1, r.2.2)

/-! ## Getters -/

def getAttribute (type : Uint16) : Option StunAttribute := msg.attrs.find? fun attr => attr.type = type

def getAddress (type : Uint16) : Option StunAttribute :=
  if type = attrMappedAddress then
    (msg.getAttribute attrMappedAddress).or (msg.getAttribute attrXorMappedAddress)
  else msg.getAttribute type

def getUInt32 (type : Uint16) : Option StunAttribute := msg.getAttribute type
def getUInt64 (type : Uint16) : Option StunAttribute := msg.getAttribute type
def getByteString (type : Uint16) : Option StunAttribute := msg.getAttribute type
def getErrorCode : Option StunAttribute := msg.getAttribute attrErrorCode

end StunMessage

/-! ## Message integrity -/

/-- The memory that holds a packet. -/
def packetData (d : List Uint8) : ℕ → Uint8 := fun i => d.getD i 0

/-- `GetBE16`. -/
def getBE16 (data : ℕ → Uint8) (pos : ℕ) : Uint16 := BitVec.ofNat 16 (beValue (block data pos 2))

def findMessageIntegrity (data : ℕ → Uint8) (size : ℕ) : ℕ → ℕ → Option ℕ
  | 0, _ => none
  | fuel + 1, currentPos =>
    if currentPos < size then
      let attrType := getBE16 data currentPos
      let attrLength := getBE16 data (currentPos + 2)
      if attrType = attrMessageIntegrity then
        if attrLength.toNat ≠ kStunMessageIntegritySize ∨ currentPos + attrLength.toNat > size then none
        else some currentPos
      else
        findMessageIntegrity data size fuel
          (currentPos + 2 + 2 + attrLength.toNat + paddingLength attrLength)
    else none

/-- The bytes the HMAC is computed over. -/
def integrityInput (data : ℕ → Uint8) (size miPos : ℕ) : List Uint8 :=
  let tempData := block data 0 miPos
  if size > miPos + kStunAttributeHeaderSize + kStunMessageIntegritySize then
    let extraOffset := size - (miPos + kStunAttributeHeaderSize + kStunMessageIntegritySize)
    let newAdjustedLen := size - extraOffset - kStunHeaderSize
    tempData.take 2 ++ writeUInt16 (BitVec.ofNat 16 newAdjustedLen) ++ tempData.drop 4
  else tempData

/-- The first checks of `ValidateMessageIntegrity`, and its loop. -/
def integrityPosition (data : ℕ → Uint8) (size : ℕ) : Option ℕ :=
  if size % 4 ≠ 0 then none
  else if size ≠ (getBE16 data 2).toNat + kStunHeaderSize then none
  else findMessageIntegrity data size size kStunHeaderSize

/-- `StunMessage::ValidateMessageIntegrity`; `hmac` is HMAC-SHA1. -/
def validateMessageIntegrity (hmac : List Uint8 → List Uint8 → List Uint8) (data : ℕ → Uint8)
    (size : ℕ) (password : List Uint8) : Bool :=
  match integrityPosition data size with
  | none => false
  | some miPos =>
    let digest := hmac password (integrityInput data size miPos)
    digest.length = kStunMessageIntegritySize &&
      block data (miPos + kStunAttributeHeaderSize) kStunMessageIntegritySize = digest

namespace StunMessage

def addMessageIntegrity (hmac : List Uint8 → List Uint8 → List Uint8) (msg : StunMessage)
    (key : List Uint8) : StunMessage :=
  let dummy := List.replicate kStunMessageIntegritySize 0x30#8
  let withDummy := (msg.addAttribute ⟨attrMessageIntegrity, .byteString dummy⟩).1
  match withDummy.write with
  | none => withDummy
  | some buf =>
    let digest := hmac key
      (buf.take (buf.length - kStunAttributeHeaderSize - kStunMessageIntegritySize))
    if digest.length = kStunMessageIntegritySize then
      { withDummy with
        attrs := withDummy.attrs.dropLast ++ [⟨attrMessageIntegrity, .byteString digest⟩] }
    else withDummy

end StunMessage

/-! ## Message types -/

/-- `IsStunRequestType`. -/
def isStunRequestType (type : Uint16) : Bool := type &&& kStunTypeMask = 0x000

def getStunSuccessResponseType (reqType : Uint16) : Option Uint16 :=
  if isStunRequestType reqType then some (reqType ||| 0x100) else none

def getStunErrorResponseType (reqType : Uint16) : Option Uint16 :=
  if isStunRequestType reqType then some (reqType ||| 0x110) else none

abbrev stunBindingRequest : Uint16 := 0x0001#16
@[match_pattern] abbrev stunAllocateRequest : Uint16 := 0x0003#16

abbrev stunErrorBadRequest : ℕ := 400
abbrev stunErrorUnauthorized : ℕ := 401
abbrev stunErrorStaleNonce : ℕ := 438
abbrev stunErrorServerError : ℕ := 500
def stunErrorReasonBadRequest : List Uint8 := text "Bad Request"
def stunErrorReasonUnauthorized : List Uint8 := text "Unauthorized"
def stunErrorReasonStaleNonce : List Uint8 := text "Stale Nonce"

def stunErrorCodeAttribute (code : ℕ) (reason : List Uint8) : StunAttribute :=
  ⟨attrErrorCode, .errorCode (BitVec.ofNat 8 (code / 100)) (BitVec.ofNat 8 (code % 100)) reason⟩

namespace StunMessage

variable (msg : StunMessage)

/-- The bytes of an attribute, `GetString`. -/
def getString (type : Uint16) : Option (List Uint8) :=
  (msg.getByteString type).map fun attr =>
    match attr.value with
    | .byteString bytes => bytes
    | _ => []

/-- The number of an attribute, `value()`. -/
def getValue (type : Uint16) : Option Uint32 :=
  (msg.getUInt32 type).map fun attr =>
    match attr.value with
    | .uint32 bits => bits
    | _ => 0

def getSocketAddress (type : Uint16) : Option SocketAddress :=
  (msg.getAddress type).map fun attr =>
    match attr.value with
    | .address addr => addr
    | .xorAddress addr => addr
    | _ => ⟨[], .unspec, 0⟩

end StunMessage

end Libjingle
