import Libjingle.Lib.Ring
import Libjingle.Base.Words

/-!
# `FifoBuffer` (`base/stream.cc`)

A ring of `bufferLength` bytes. `readPosition` is the index of the first readable byte and
`dataLength` the number of readable bytes; the free space that follows them may hold bytes written
by `WriteOffset` that are not readable yet. Every `memcpy` of the source is one `memcpy` here, with
its split at the end of the ring.

The buffer that `new char[size]` returns holds indeterminate bytes, so the functions that allocate
take the memory they get as an argument. Sizes (`size_t`) are natural numbers; the differences of
the source do not wrap while `Valid` holds.
-/

namespace Libjingle

open Lib

/-- `StreamState`. -/
inductive StreamState where
  | closed | opening | open
  deriving DecidableEq, Repr

/-- `StreamResult`. -/
inductive StreamResult where
  | error | success | block | eos
  deriving DecidableEq, Repr

/-- The events a `FifoBuffer` posts to its owner thread. -/
inductive StreamEvent where
  | seRead | seWrite
  deriving DecidableEq, Repr

/-- The members of a `FifoBuffer`, and the events it has posted. -/
structure FifoBuffer where
  state : StreamState
  buffer : ℕ → Uint8
  bufferLength : ℕ
  dataLength : ℕ
  readPosition : ℕ
  posted : List StreamEvent

namespace FifoBuffer

def new (size : ℕ) (mem : ℕ → Uint8) : FifoBuffer where
  state := .open
  buffer := mem
  bufferLength := size
  dataLength := 0
  readPosition := 0
  posted := []

variable (f : FifoBuffer)

/-- `PostEvent(owner_, ev, 0)` when `c` holds. -/
def postIf (c : Bool) (ev : StreamEvent) : FifoBuffer :=
  if c then { f with posted := f.posted ++ [ev] } else f

/-- `GetBuffered`. -/
def getBuffered : ℕ := f.dataLength

def getWriteRemaining : ℕ := f.bufferLength - f.dataLength

def setCapacity (size : ℕ) (mem : ℕ → Uint8) : Bool × FifoBuffer :=
  if f.dataLength > size then (false, f)
  else if size ≠ f.bufferLength then
    let copy := f.dataLength
    let tailCopy := min copy (f.bufferLength - f.readPosition)
    let buffer := memcpy mem 0 (fun i => f.buffer (f.readPosition + i)) tailCopy
    let buffer := memcpy buffer tailCopy f.buffer (copy - tailCopy)
    (true, { f with buffer := buffer, readPosition := 0, bufferLength := size })
  else (true, f)

def readOffsetLocked (bytes offset : ℕ) : StreamResult × List Uint8 :=
  if offset ≥ f.dataLength then (if f.state ≠ .closed then .block else .eos, [])
  else
    let available := f.dataLength - offset
    let readPosition := (f.readPosition + offset) % f.bufferLength
    let copy := min bytes available
    let tailCopy := min copy (f.bufferLength - readPosition)
    (.success, block f.buffer readPosition tailCopy ++ block f.buffer 0 (copy - tailCopy))

def writeOffsetLocked (data : ℕ → Uint8) (bytes offset : ℕ) : StreamResult × ℕ × FifoBuffer :=
  if f.state = .closed then (.eos, 0, f)
  else if f.dataLength + offset ≥ f.bufferLength then (.block, 0, f)
  else
    let available := f.bufferLength - f.dataLength - offset
    let writePosition := (f.readPosition + f.dataLength + offset) % f.bufferLength
    let copy := min bytes available
    let tailCopy := min copy (f.bufferLength - writePosition)
    let buffer := memcpy f.buffer writePosition data tailCopy
    let buffer := memcpy buffer 0 (fun i => data (tailCopy + i)) (copy - tailCopy)
    (.success, copy, { f with buffer := buffer })

/-- `ReadOffset`. -/
def readOffset (bytes offset : ℕ) : StreamResult × List Uint8 := f.readOffsetLocked bytes offset

/-- `WriteOffset`. -/
def writeOffset (data : ℕ → Uint8) (bytes offset : ℕ) : StreamResult × ℕ × FifoBuffer :=
  f.writeOffsetLocked data bytes offset

def read (bytes : ℕ) : StreamResult × List Uint8 × FifoBuffer :=
  let wasWritable := f.dataLength < f.bufferLength
  match f.readOffsetLocked bytes 0 with
  | (.success, out) =>
    let f' := { f with
      readPosition := (f.readPosition + out.length) % f.bufferLength
      dataLength := f.dataLength - out.length }
    (.success, out, f'.postIf (!wasWritable && 0 < out.length) .seWrite)
  | (result, _) => (result, [], f)

def write (data : ℕ → Uint8) (bytes : ℕ) : StreamResult × ℕ × FifoBuffer :=
  let wasReadable := 0 < f.dataLength
  match f.writeOffsetLocked data bytes 0 with
  | (.success, copy, f') =>
    let f' := { f' with dataLength := f'.dataLength + copy }
    (.success, copy, f'.postIf (!wasReadable && 0 < copy) .seRead)
  | (result, _, f') => (result, 0, f')

/-- `Close`. -/
def close : FifoBuffer := { f with state := .closed }

def getReadData : ℕ × (ℕ → Uint8) :=
  (if f.readPosition + f.dataLength ≤ f.bufferLength then f.dataLength
    else f.bufferLength - f.readPosition, fun i => f.buffer (f.readPosition + i))

def consumeReadAssert (size : ℕ) : Bool := size ≤ f.dataLength

def consumeReadData (size : ℕ) : FifoBuffer :=
  let wasWritable := f.dataLength < f.bufferLength
  let f' := { f with
    readPosition := (f.readPosition + size) % f.bufferLength
    dataLength := f.dataLength - size }
  f'.postIf (!wasWritable && 0 < size) .seWrite

def getWriteBuffer : Option (ℕ × ℕ) × FifoBuffer :=
  if f.state = .closed then (none, f)
  else
    let f := if f.dataLength = 0 then { f with readPosition := 0 } else f
    let writePosition := (f.readPosition + f.dataLength) % f.bufferLength
    let size := if writePosition > f.readPosition ∨ f.dataLength = 0
      then f.bufferLength - writePosition else f.readPosition - writePosition
    (some (writePosition, size), f)

/-- The caller's stores into the block at `position`. -/
def fill (position : ℕ) (data : ℕ → Uint8) (size : ℕ) : FifoBuffer :=
  { f with buffer := memcpy f.buffer position data size }

def consumeWriteAssert (size : ℕ) : Bool := size ≤ f.bufferLength - f.dataLength

def consumeWriteBuffer (size : ℕ) : FifoBuffer :=
  let wasReadable := 0 < f.dataLength
  let f' := { f with dataLength := f.dataLength + size }
  f'.postIf (!wasReadable && 0 < size) .seRead

end FifoBuffer

end Libjingle
