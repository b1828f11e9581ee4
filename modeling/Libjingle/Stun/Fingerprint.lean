import Libjingle.Stun.Message

/-!
# FINGERPRINT (`p2p/base/stun.cc`, `base/crc32.cc`)
-/

namespace Libjingle

open Lib

/-! ## CRC-32 -/

/-- `kCrc32Polynomial`. -/
abbrev kCrc32Polynomial : Uint32 := 0xEDB88320

/-- One step of `EnsureCrc32TableInited`. -/
def crc32Shift (c : Uint32) : Uint32 :=
  if c &&& 1 ≠ 0 then kCrc32Polynomial ^^^ (c >>> 1) else c >>> 1

/-- An entry of `kCrc32Table`. -/
def crc32Entry (i : Uint32) : Uint32 :=
  crc32Shift (crc32Shift (crc32Shift (crc32Shift (crc32Shift (crc32Shift (crc32Shift
    (crc32Shift i)))))))

/-- `UpdateCrc32`. -/
def updateCrc32 (start : Uint32) (buf : List Uint8) : Uint32 :=
  let c := buf.foldl (fun c u => crc32Entry ((c ^^^ u.setWidth 32) &&& 0xFF) ^^^ (c >>> 8))
    (start ^^^ 0xFFFFFFFF)
  c ^^^ 0xFFFFFFFF

/-- `ComputeCrc32`. -/
def computeCrc32 (buf : List Uint8) : Uint32 := updateCrc32 0 buf

/-! ## The attribute -/

abbrev stunFingerprintXorValue : Uint32 := 0x5354554E

abbrev stunUInt32AttributeSize : ℕ := 4

abbrev fingerprintAttrSize : ℕ := kStunAttributeHeaderSize + stunUInt32AttributeSize

/-- `GetBE32`. -/
def getBE32 (data : ℕ → Uint8) (pos : ℕ) : Uint32 := BitVec.ofNat 32 (beValue (block data pos 4))

def validateFingerprintWith (crc32 : List Uint8 → Uint32) (data : ℕ → Uint8) (size : ℕ) : Bool :=
  if size % 4 ≠ 0 ∨ size < kStunHeaderSize + fingerprintAttrSize then false
  else if getBE32 data 4 ≠ kStunMagicCookie then false
  else
    let attrData := size - fingerprintAttrSize
    if getBE16 data attrData ≠ attrFingerprint ∨
        (getBE16 data (attrData + 2)).toNat ≠ stunUInt32AttributeSize then false
    else
      getBE32 data (attrData + kStunAttributeHeaderSize) ^^^ stunFingerprintXorValue =
        crc32 (block data 0 attrData)

/-- `StunMessage::ValidateFingerprint`. -/
def validateFingerprint (data : ℕ → Uint8) (size : ℕ) : Bool :=
  validateFingerprintWith computeCrc32 data size

namespace StunMessage

def addFingerprintWith (crc32 : List Uint8 → Uint32) (msg : StunMessage) : StunMessage :=
  let withDummy := (msg.addAttribute ⟨attrFingerprint, .uint32 0⟩).1
  match withDummy.write with
  | none => withDummy
  | some buf =>
    let c := crc32 (buf.take (buf.length - fingerprintAttrSize))
    { withDummy with
      attrs := withDummy.attrs.dropLast ++ [⟨attrFingerprint, .uint32 (c ^^^ stunFingerprintXorValue)⟩] }

/-- `StunMessage::AddFingerprint`. -/
def addFingerprint (msg : StunMessage) : StunMessage := msg.addFingerprintWith computeCrc32

end StunMessage

end Libjingle
