import Libjingle.Fifo.Model
import Libjingle.Lib.Bytes

/-!
# RTP dumps (`media/base/rtpdump.cc`)

A dump starts with the line `#!rtpplay1.0 address/port` and 16 bytes of file header. Every packet comes after
8 bytes of packet header: the length with this header, the original length and the elapsed time.

Main results: **`readAll_eq`**, **`readLine_eq`**.

A `Reading` is what `ReadPacket` leaves behind, together with the argument of `resize`. Arithmetic on `size_t`
is modulo `2 ^ 64`, and the writes of a sink succeed as long as there is room.
-/

namespace Libjingle.RtpDump

open Lib

/-! ## Streams -/

/-- The end of a line. -/
def newline : Uint8 := 0x0A

/-- A stream over bytes, and the position in it. -/
structure MemoryStream where
  data : List Uint8
  position : ℕ
  deriving DecidableEq, Repr

namespace MemoryStream

variable (s : MemoryStream)

/-- `MemoryStreamBase::Read`. -/
def read (bytes : ℕ) : StreamResult × List Uint8 × MemoryStream :=
  if s.position ≥ s.data.length then (.eos, [], s)
  else
    (.success, (s.data.drop s.position).take bytes,
      { s with position := s.position + min bytes (s.data.length - s.position) })

/-- The loop of `ReadAll`; `none` while it is running. -/
def readAllLoop : ℕ → MemoryStream → ℕ → List Uint8 → Option (StreamResult × List Uint8 × MemoryStream)
  | 0, _, _, _ => none
  | fuel + 1, s, left, total =>
    if left = 0 then some (.success, total, s)
    else if (s.read left).1 = .success then
      readAllLoop fuel (s.read left).2.2 (left - (s.read left).2.1.length) (total ++ (s.read left).2.1)
    else some ((s.read left).1, total, (s.read left).2.2)

/-- `ReadAll`: every round reads a byte at least. -/
def readAll (bytes : ℕ) : Option (StreamResult × List Uint8 × MemoryStream) :=
  readAllLoop (bytes + 1) s bytes []

def readLineLoop : ℕ → MemoryStream → List Uint8 → Option (StreamResult × List Uint8 × MemoryStream)
  | 0, _, _ => none
  | fuel + 1, s, line =>
    if (s.read 1).1 = .success then
      if (s.read 1).2.1 = [newline] then some (.success, line, (s.read 1).2.2)
      else readLineLoop fuel (s.read 1).2.2 (line ++ (s.read 1).2.1)
    else some ((s.read 1).1, line, (s.read 1).2.2)

/-- `ReadLine`: what was collected is a success. -/
def readLine : Option (StreamResult × List Uint8 × MemoryStream) :=
  (readLineLoop (s.data.length - s.position + 1) s []).map fun r =>
    (if r.2.1 ≠ [] then .success else r.1, r.2.1, r.2.2)

/-- `SetPosition`. -/
def setPosition (position : ℕ) : MemoryStream × Bool :=
  if position > s.data.length then (s, false) else ({ s with position := position }, true)

/-- The bytes that are still to be read. -/
def rest : List Uint8 := s.data.drop s.position

/-- The stream `n` bytes on. -/
def skip (n : ℕ) : MemoryStream := { s with position := s.position + n }

variable {s}

theorem rest_skip (n : ℕ) : (s.skip n).rest = s.rest.drop n := (List.drop_drop ..).symm

theorem skip_skip (m n : ℕ) : (s.skip m).skip n = s.skip (m + n) := by
  simp only [skip, Nat.add_assoc]

theorem read_eq (bytes : ℕ) : s.read bytes =
    if s.rest = [] then (.eos, [], s) else (.success, s.rest.take bytes, s.skip (s.rest.take bytes).length) := by
  have hiff : s.rest = [] ↔ s.position ≥ s.data.length := List.drop_eq_nil_iff
  unfold read
  split_ifs with h h' h'
  · rfl
  · exact absurd (hiff.mpr h) h'
  · exact absurd (hiff.mp h') h
  · rw [List.length_take, rest, List.length_drop]
    rfl

theorem readAllLoop_eq {fuel left : ℕ} (hfuel : left < fuel) (s : MemoryStream) (total : List Uint8) :
    readAllLoop fuel s left total =
      if left ≤ s.rest.length then some (.success, total ++ s.rest.take left, s.skip left)
      else some (.eos, total ++ s.rest, s.skip s.rest.length) := by
  induction fuel generalizing left s total with
  | zero => exact absurd hfuel (Nat.not_lt_zero left)
  | succ fuel ih =>
    unfold readAllLoop
    by_cases hleft : left = 0
    · subst hleft
      rw [if_pos rfl, if_pos (Nat.zero_le _), List.take_zero, List.append_nil]
      rfl
    rw [if_neg hleft, read_eq]
    by_cases hrest : s.rest = []
    · have heos : ¬ StreamResult.eos = .success := by decide
      rw [if_pos hrest, if_neg heos, if_neg (by rw [hrest, List.length_nil]; omega), hrest,
        List.append_nil]
      rfl
    have hpos : 0 < s.rest.length := List.length_pos_iff.mpr hrest
    have hlen : (s.rest.take left).length = min left s.rest.length := List.length_take
    rw [if_neg hrest, if_pos rfl]
    simp only
    rw [ih (by omega), rest_skip, hlen, List.length_drop]
    split_ifs with h h' h'
    · have hmin : min left s.rest.length = left := by omega
      rw [hmin, Nat.sub_self, List.take_zero, List.append_nil]
      rfl
    · omega
    · omega
    · have hmin : min left s.rest.length = s.rest.length := by omega
      rw [hmin, List.drop_length, List.append_nil, List.take_of_length_le (by omega), Nat.sub_self]
      rfl

/-- `ReadAll` reads what is asked for, or all there is. -/
theorem readAll_eq (s : MemoryStream) (bytes : ℕ) :
    s.readAll bytes =
      if bytes ≤ s.rest.length then some (.success, s.rest.take bytes, s.skip bytes)
      else some (.eos, s.rest, s.skip s.rest.length) := readAllLoop_eq (Nat.lt_succ_self bytes) s []

theorem readLineLoop_eq {fuel : ℕ} (s : MemoryStream) (hfuel : s.rest.length < fuel) (line : List Uint8) :
    readLineLoop fuel s line =
      if newline ∈ s.rest then some (.success, line ++ s.rest.takeWhile (· ≠ newline),
        s.skip ((s.rest.takeWhile (· ≠ newline)).length + 1))
      else some (.eos, line ++ s.rest, s.skip s.rest.length) := by
  induction fuel generalizing s line with
  | zero => exact absurd hfuel (Nat.not_lt_zero _)
  | succ fuel ih =>
    unfold readLineLoop
    rw [read_eq]
    cases hrest : s.rest with
    | nil =>
      have heos : ¬ StreamResult.eos = .success := by decide
      rw [if_pos rfl, if_neg heos, if_neg List.not_mem_nil, List.append_nil]
      rfl
    | cons ch rest =>
      have hskip : (s.skip 1).rest = rest := by rw [rest_skip, hrest, List.drop_one, List.tail_cons]
      rw [if_neg (List.cons_ne_nil ch rest), if_pos rfl]
      by_cases hch : ch = newline
      · subst hch
        rw [if_pos List.mem_cons_self, List.takeWhile_cons_of_neg (by simp), List.append_nil]
        exact if_pos rfl
      · have hone : ¬ [ch] = [newline] := fun h => hch (List.singleton_inj.mp h)
        have hmem : newline ∈ ch :: rest ↔ newline ∈ rest := by
          rw [List.mem_cons, or_iff_right (Ne.symm hch)]
        have hfuel' : (s.skip 1).rest.length < fuel := by
          rw [hrest, List.length_cons] at hfuel
          rw [hskip]
          omega
        have hloop := ih (s.skip 1) hfuel' (line ++ [ch])
        rw [hskip] at hloop
        refine (if_neg hone).trans (hloop.trans ?_)
        have htake : (ch :: rest).takeWhile (· ≠ newline) = ch :: rest.takeWhile (· ≠ newline) :=
          List.takeWhile_cons_of_pos (decide_eq_true hch)
        simp only [hmem, htake, List.append_assoc, List.length_cons, List.singleton_append, skip_skip]
        split_ifs
        · rw [Nat.add_comm 1]
        · rw [Nat.add_comm 1]

/-- `ReadLine` reads up to the newline, or all there is. -/
theorem readLine_eq (s : MemoryStream) : s.readLine =
    if newline ∈ s.rest then some (.success, s.rest.takeWhile (· ≠ newline),
      s.skip ((s.rest.takeWhile (· ≠ newline)).length + 1))
    else some (if s.rest ≠ [] then .success else .eos, s.rest, s.skip s.rest.length) := by
  have hlen : s.rest.length = s.data.length - s.position := List.length_drop
  rw [readLine, readLineLoop_eq s (by omega)]
  split_ifs <;> simp_all

end MemoryStream

/-- A stream that is written at its end, with or without a bound. -/
structure Sink where
  data : List Uint8
  room : Option ℕ
  deriving DecidableEq, Repr

def Sink.writeAll (s : Sink) (bytes : List Uint8) : StreamResult × Sink :=
  match s.room with
  | none => (.success, { s with data := s.data ++ bytes })
  | some room =>
    if bytes.length ≤ room then (.success, ⟨s.data ++ bytes, some (room - bytes.length)⟩)
    else (.eos, ⟨s.data ++ bytes.take room, some 0⟩)

/-! ## Packets -/

def getBE16 (data : List Uint8) (pos : ℕ) : Uint16 := BitVec.ofNat 16 (beValue ((data.drop pos).take 2))

def getBE32 (data : List Uint8) (pos : ℕ) : Uint32 := BitVec.ofNat 32 (beValue ((data.drop pos).take 4))

def overwrite (data : List Uint8) (pos : ℕ) (bytes : List Uint8) : List Uint8 :=
  data.take pos ++ bytes ++ data.drop (pos + bytes.length)

abbrev kMinRtpPacketLen : ℕ := 12
abbrev kRtpSeqNumOffset : ℕ := 2
abbrev kRtpTimestampOffset : ℕ := 4
abbrev kRtpSsrcOffset : ℕ := 8

def getRtpHeaderLen (data : List Uint8) : Option ℕ :=
  let len := data.length
  let flags := (data.getD 0 0).toNat
  let headerSize := kMinRtpPacketLen + (flags &&& 0xF) * 4
  let extended := headerSize + ((getBE16 data (headerSize + 2)).toNat + 1) * 4
  if len < kMinRtpPacketLen then none
  else if len < headerSize then none
  else if flags &&& 0x10 ≠ 0 then
    if len < headerSize + 4 then none
    else if len < extended then none
    else some extended
  else some headerSize

/-- `RtpDumpPacket`; the original length of an RTCP packet is 0. -/
structure RtpDumpPacket where
  elapsedTime : Uint32
  data : List Uint8
  originalDataLen : ℕ
  deriving DecidableEq, Repr

namespace RtpDumpPacket

abbrev kHeaderLength : ℕ := 8

variable (packet : RtpDumpPacket)

def isValidRtpPacket : Bool :=
  packet.originalDataLen ≥ packet.data.length && packet.data.length ≥ kMinRtpPacketLen

/-- `GetRtpSeqNum`. -/
def getRtpSeqNum : Option Uint16 :=
  if packet.isValidRtpPacket then some (getBE16 packet.data kRtpSeqNumOffset) else none

def getRtpTimestamp : Option Uint32 :=
  if packet.isValidRtpPacket then some (getBE32 packet.data kRtpTimestampOffset) else none

end RtpDumpPacket

/-! ## The reader -/

abbrev kFileHeaderLength : ℕ := 16

def subtractSize (a b : ℕ) : ℕ := (a + 2 ^ 64 - b) % 2 ^ 64

/-- The largest size of a vector of bytes. -/
def kMaxSize : ℕ := 2 ^ 63 - 1

/-- `std::vector::resize`. -/
def resize (data : List Uint8) (size : ℕ) : List Uint8 :=
  data.take size ++ List.replicate (size - data.length) 0

def isDigit (ch : Uint8) : Bool := 0x30 ≤ ch && ch ≤ 0x39

/-- The members of an `RtpDumpReader`. -/
structure RtpDumpReader where
  stream : MemoryStream
  fileHeaderRead : Bool
  firstLineAndFileHeaderLen : ℕ
  startTimeMs : Uint32
  ssrcOverride : Uint32
  deriving DecidableEq, Repr

/-- How `ReadPacket` ends. -/
inductive Outcome where
  | running
  | lengthError
  | returned (result : StreamResult)
  deriving DecidableEq, Repr

/-- What `ReadPacket` leaves behind. `resized` is the argument of `resize`. -/
structure Reading where
  outcome : Outcome
  reader : RtpDumpReader
  packet : RtpDumpPacket
  resized : Option (Uint16 × ℕ)
  deriving DecidableEq, Repr

namespace RtpDumpReader

def new (file : List Uint8) : RtpDumpReader := ⟨⟨file, 0⟩, false, 0, 0, 0⟩

variable (r : RtpDumpReader)

/-- `SetSsrc`. -/
def setSsrc (ssrc : Uint32) : RtpDumpReader := { r with ssrcOverride := ssrc }

/-- `CheckFirstLine`. -/
def checkFirstLine (firstLine : List Uint8) : Bool :=
  (text "#!rtpplay1.0 ").isPrefixOf firstLine &&
    match firstLine.idxOf? 0x2F with
    | none => false
    | some pos => pos + 1 < firstLine.length && (firstLine.drop (pos + 1)).all isDigit

def readFileHeader : Option (StreamResult × RtpDumpReader) :=
  r.stream.readLine.bind fun line =>
    if line.1 ≠ .success then some (line.1, { r with stream := line.2.2 })
    else if !checkFirstLine line.2.1 then some (.error, { r with stream := line.2.2 })
    else
      (line.2.2.readAll kFileHeaderLength).map fun header =>
        if header.1 = .success then
          (.success,
            { r with
              stream := header.2.2
              startTimeMs := getBE32 header.2.1 0 * 1000 + getBE32 header.2.1 4 / 1000
              firstLineAndFileHeaderLen := line.2.1.length + 1 + kFileHeaderLength })
        else (header.1, { r with stream := header.2.2 })

def readBody (packet : RtpDumpPacket) (header : List Uint8) (size : ℕ) : Reading :=
  if size > kMaxSize then ⟨.lengthError, r, packet, some (getBE16 header 0, size)⟩
  else
    match r.stream.readAll size with
    | none => ⟨.running, r, packet, some (getBE16 header 0, size)⟩
    | some (result, bytes, stream) =>
      let packet : RtpDumpPacket :=
        { elapsedTime := getBE32 header 4
          data := overwrite (resize packet.data size) 0 bytes
          originalDataLen := (getBE16 header 2).toNat }
      ⟨.returned result, { r with stream := stream },
        if result = .success ∧ packet.isValidRtpPacket ∧ r.ssrcOverride ≠ 0 then
          { packet with data := overwrite packet.data kRtpSsrcOffset (wordBytes 4 r.ssrcOverride) }
        else packet,
        some (getBE16 header 0, size)⟩

/-- `ReadPacket` after the file header. -/
def readRecord (packet : RtpDumpPacket) : Reading :=
  match r.stream.readAll RtpDumpPacket.kHeaderLength with
  | none => ⟨.running, r, packet, none⟩
  | some (result, header, stream) =>
    if result ≠ .success then ⟨.returned result, { r with stream := stream }, packet, none⟩
    else
      -- the length includes the packet header
      { r with stream := stream }.readBody packet header
        (subtractSize (getBE16 header 0).toNat RtpDumpPacket.kHeaderLength)

/-- `ReadPacket`. -/
def readPacket (packet : RtpDumpPacket) : Reading :=
  if r.fileHeaderRead then r.readRecord packet
  else
    match r.readFileHeader with
    | none => ⟨.running, r, packet, none⟩
    | some (result, r) =>
      if result ≠ .success then ⟨.returned result, r, packet, none⟩
      else { r with fileHeaderRead := true }.readRecord packet

def rewindToFirstDumpPacket : RtpDumpReader × Bool :=
  ({ r with stream := (r.stream.setPosition r.firstLineAndFileHeaderLen).1 },
    (r.stream.setPosition r.firstLineAndFileHeaderLen).2)

end RtpDumpReader

/-! ## The writer -/

/-- `RtpDumpPacketFilter`. -/
abbrev pfRtpHeader : ℕ := 0x1
abbrev pfRtpPacket : ℕ := 0x3
abbrev pfRtcpPacket : ℕ := 0xC
/-- All bits of the filter. -/
abbrev pfAll : ℕ := 0xF

/-- `kFirstLine`. -/
def kFirstLine : List Uint8 := text "#!rtpplay1.0 0.0.0.0/0\n"

/-- `RtpDumpFileHeader`, as it is written. -/
def fileHeader (startMs s : Uint32) (p : Uint16) : List Uint8 :=
  wordBytes 4 (startMs / 1000) ++ wordBytes 4 (startMs % 1000 * 1000) ++ wordBytes 4 s ++ wordBytes 2 p ++
    wordBytes 2 0

/-- The members of an `RtpDumpWriter`. -/
structure RtpDumpWriter where
  stream : Sink
  packetFilter : ℕ
  fileHeaderWritten : Bool
  deriving DecidableEq, Repr

namespace RtpDumpWriter

def new (stream : Sink) : RtpDumpWriter := ⟨stream, pfAll, false⟩

variable (w : RtpDumpWriter)

/-- `WriteToStream`. -/
def writeToStream (bytes : List Uint8) : StreamResult × RtpDumpWriter :=
  ((w.stream.writeAll bytes).1, { w with stream := (w.stream.writeAll bytes).2 })

def writeFileHeader (now : Uint32) : StreamResult × RtpDumpWriter :=
  if (w.writeToStream kFirstLine).1 ≠ .success then w.writeToStream kFirstLine
  else (w.writeToStream kFirstLine).2.writeToStream (fileHeader now 0 0)

def filterPacket (data : List Uint8) (rtcp : Bool) : ℕ :=
  if !rtcp then
    if w.packetFilter &&& pfRtpPacket = pfRtpPacket then data.length
    else if w.packetFilter &&& pfRtpHeader = pfRtpHeader then (getRtpHeaderLen data).getD 0
    else 0
  else if w.packetFilter &&& pfRtcpPacket = pfRtcpPacket then data.length
  else 0

def packetHeader (data : List Uint8) (elapsed : Uint32) (rtcp : Bool) : List Uint8 :=
  wordBytes 2 (BitVec.ofNat 16 (RtpDumpPacket.kHeaderLength + w.filterPacket data rtcp)) ++
    wordBytes 2 (BitVec.ofNat 16 (if rtcp then 0 else data.length)) ++ wordBytes 4 elapsed

/-- `WritePacket` after the file header. -/
def writeRecord (data : List Uint8) (elapsed : Uint32) (rtcp : Bool) : StreamResult × RtpDumpWriter :=
  if w.filterPacket data rtcp = 0 then (.success, w)
  else if (w.writeToStream (w.packetHeader data elapsed rtcp)).1 ≠ .success then
    w.writeToStream (w.packetHeader data elapsed rtcp)
  else
    (w.writeToStream (w.packetHeader data elapsed rtcp)).2.writeToStream
      (data.take (w.filterPacket data rtcp))

/-- `WritePacket`. -/
def writePacket (now : Uint32) (data : List Uint8) (elapsed : Uint32) (rtcp : Bool) :
    StreamResult × RtpDumpWriter :=
  if data = [] then (.error, w)
  else if w.fileHeaderWritten then w.writeRecord data elapsed rtcp
  else if (w.writeFileHeader now).1 ≠ .success then w.writeFileHeader now
  else { (w.writeFileHeader now).2 with fileHeaderWritten := true }.writeRecord data elapsed rtcp

end RtpDumpWriter

end Libjingle.RtpDump
