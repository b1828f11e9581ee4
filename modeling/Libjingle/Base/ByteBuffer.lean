import Libjingle.Base.Words
import Libjingle.Lib.Bytes

/-!
# `ByteBuffer` (`base/bytebuffer.{h,cc}`, `base/byteorder.h`)

* The writes and reads of words, in both orders and on hosts of both kinds.

A `size_t` is a natural number; its sums and differences are taken modulo `sizeMod`. `version` counts
the changes of `version_`, an `int`, so positions are compared modulo `versionMod`. The functions that
allocate take the memory they get as an argument. Pointers to results are not null.
-/

namespace Libjingle

open Lib

/-- A `size_t` has 64 bits. -/
@[irreducible] def sizeMod : ℕ := 2 ^ 64

/-- The values of an `int`. -/
@[irreducible] def versionMod : ℕ := 2 ^ 32

/-- The sum of two `size_t`. -/
def addSize (a b : ℕ) : ℕ := (a + b) % sizeMod

/-- The difference of two `size_t`. -/
def subSize (a b : ℕ) : ℕ := (a + sizeMod - b) % sizeMod

/-- `ByteBuffer::ByteOrder`. -/
inductive ByteOrder
  | orderNetwork
  | orderHost
  deriving DecidableEq

/-! ## Words in memory -/

section Memory

variable (hostBigEndian : Bool)

def hostBytes (n : ℕ) (v : BitVec (8 * n)) : List Uint8 :=
  if hostBigEndian then wordBytes n v else (wordBytes n v).reverse

def hostWord (n : ℕ) (mem : List Uint8) : BitVec (8 * n) :=
  BitVec.ofNat (8 * n) (beValue (if hostBigEndian then mem else mem.reverse))

def hostToNetwork (n : ℕ) (v : BitVec (8 * n)) : BitVec (8 * n) := hostWord hostBigEndian n (wordBytes n v)

def networkToHost (n : ℕ) (v : BitVec (8 * n)) : BitVec (8 * n) :=
  BitVec.ofNat (8 * n) (beValue (hostBytes hostBigEndian n v))

end Memory

/-! ## The buffer -/

/-- `ByteBuffer`: the memory, its readable part, and the version of the positions. -/
structure ByteBuffer where
  bytes : List Uint8
  start : ℕ
  end_ : ℕ
  version : ℕ
  byteOrder : ByteOrder
  deriving DecidableEq

/-- `ByteBuffer::ReadPosition`: a start with the version it belongs to. -/
structure ReadPosition where
  start : ℕ
  version : ℕ
  deriving DecidableEq

namespace ByteBuffer

/-- `DEFAULT_SIZE`. -/
abbrev defaultSize : ℕ := 4096

def newBytes (size : ℕ) (mem : ℕ → Uint8) : List Uint8 := (List.range size).map mem

/-- `Construct(NULL, DEFAULT_SIZE, byte_order)`. -/
def new (byteOrder : ByteOrder) (mem : ℕ → Uint8) : ByteBuffer :=
  ⟨newBytes defaultSize mem, 0, 0, 0, byteOrder⟩

def ofBytes (bytes : List Uint8) (byteOrder : ByteOrder) : ByteBuffer :=
  ⟨bytes, 0, bytes.length, 0, byteOrder⟩

variable (b : ByteBuffer)

def size : ℕ := b.bytes.length

def length : ℕ := subSize b.end_ b.start

def capacity : ℕ := subSize b.size b.start

/-- `Resize`: what is to be read moves to the front; positions become stale. -/
def resize (size : ℕ) (mem : ℕ → Uint8) : ByteBuffer :=
  let len := min (subSize b.end_ b.start) size
  if size ≤ b.size then
    -- don't reallocate, just move data backwards
    { b with
      bytes := (b.bytes.drop b.start).take len ++ b.bytes.drop len
      start := 0, end_ := len, version := b.version + 1 }
  else
    let size' := max size (3 * b.size % sizeMod / 2)
    { b with
      bytes := (b.bytes.drop b.start).take len ++ (newBytes size' mem).drop len
      start := 0, end_ := len, version := b.version + 1 }

/-- `ReserveWriteBuffer`: room at the end, and where it starts. -/
def reserveWriteBuffer (len : ℕ) (mem : ℕ → Uint8) : ℕ × ByteBuffer :=
  let b := if addSize b.length len > b.capacity then b.resize (addSize b.length len) mem else b
  (b.end_, { b with end_ := addSize b.end_ len })

/-- `WriteBytes`: the bytes are copied to the reserved room. -/
def writeBytes (val : List Uint8) (mem : ℕ → Uint8) : ByteBuffer :=
  let r := b.reserveWriteBuffer val.length mem
  { r.2 with bytes := r.2.bytes.take r.1 ++ val ++ r.2.bytes.drop (r.1 + val.length) }

/-- `ReadBytes`: the next `len` bytes, if there are so many. -/
def readBytes (len : ℕ) : Option (List Uint8) × ByteBuffer :=
  if len > b.length then (none, b)
  else (some ((b.bytes.drop b.start).take len), { b with start := addSize b.start len })

def readString (len : ℕ) : Option (List Uint8) × ByteBuffer :=
  if len > b.length then (none, b)
  else (some ((b.bytes.drop b.start).take len), { b with start := addSize b.start len })

def consume (size : ℕ) : Bool × ByteBuffer :=
  if size > b.length then (false, b) else (true, { b with start := addSize b.start size })

def clear : ByteBuffer :=
  { b with bytes := List.replicate b.size 0, start := 0, end_ := 0, version := b.version + 1 }

/-- `GetReadPosition`: where reading has come to. -/
def getReadPosition : ReadPosition := ⟨b.start, b.version⟩

/-- `SetReadPosition`, unless the position is stale. -/
def setReadPosition (position : ReadPosition) : Bool × ByteBuffer :=
  if position.version % versionMod ≠ b.version % versionMod then (false, b)
  else (true, { b with start := position.start })

/-! ## Writing and reading words -/

section Words

variable (hostBigEndian : Bool)

/-- `WriteUInt8`. -/
def writeUInt8 (val : Uint8) (mem : ℕ → Uint8) : ByteBuffer := b.writeBytes [val] mem

/-- The bytes that are written for a word. -/
def wordToWrite (n : ℕ) (val : BitVec (8 * n)) : List Uint8 :=
  let v := if b.byteOrder = .orderNetwork then hostToNetwork hostBigEndian n val else val
  hostBytes hostBigEndian n v

def writeUInt16 (val : Uint16) (mem : ℕ → Uint8) : ByteBuffer :=
  b.writeBytes (b.wordToWrite hostBigEndian 2 val) mem

def writeUInt24 (val : Uint32) (mem : ℕ → Uint8) : ByteBuffer :=
  let v := b.wordToWrite hostBigEndian 4 val
  if b.byteOrder = .orderNetwork || hostBigEndian then b.writeBytes (v.drop 1) mem
  else b.writeBytes (v.take 3) mem

def writeUInt32 (val : Uint32) (mem : ℕ → Uint8) : ByteBuffer :=
  b.writeBytes (b.wordToWrite hostBigEndian 4 val) mem

def writeUInt64 (val : Uint64) (mem : ℕ → Uint8) : ByteBuffer :=
  b.writeBytes (b.wordToWrite hostBigEndian 8 val) mem

def writeString (val : List Uint8) (mem : ℕ → Uint8) : ByteBuffer := b.writeBytes val mem

def wordRead (n : ℕ) (mem : List Uint8) : BitVec (8 * n) :=
  let v := hostWord hostBigEndian n mem
  if b.byteOrder = .orderNetwork then networkToHost hostBigEndian n v else v

/-- `ReadUInt8`. -/
def readUInt8 : Option Uint8 × ByteBuffer :=
  let r := b.readBytes 1
  (r.1.map fun mem => mem.headD 0, r.2)

def readUInt16 : Option Uint16 × ByteBuffer :=
  let r := b.readBytes 2
  (r.1.map (b.wordRead hostBigEndian 2), r.2)

def readUInt24 : Option Uint32 × ByteBuffer :=
  let r := b.readBytes 3
  let v mem := if b.byteOrder = .orderNetwork || hostBigEndian then 0 :: mem else mem ++ [0]
  (r.1.map fun mem => b.wordRead hostBigEndian 4 (v mem), r.2)

def readUInt32 : Option Uint32 × ByteBuffer :=
  let r := b.readBytes 4
  (r.1.map (b.wordRead hostBigEndian 4), r.2)

def readUInt64 : Option Uint64 × ByteBuffer :=
  let r := b.readBytes 8
  (r.1.map (b.wordRead hostBigEndian 8), r.2)

end Words

end ByteBuffer

end Libjingle
