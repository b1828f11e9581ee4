import Libjingle.Media.RtpDumpFiles
import Mathlib.Data.List.Chain

/-!
# Looped RTP dumps (`RtpDumpLoopReader`)

The dump is read over and over. Statistics of the first loop tell how much the elapsed time, the sequence number
and the timestamp increase from one loop to the next.

Main results: **`At.returned`**, **`loop_seamless`**, **`trailing_rtcp`**.
-/

namespace Libjingle.RtpDump

open Lib

/-! ## The reader -/

/-- The statistics of the first loop. -/
structure Statistics where
  packetCount : Uint32
  frameCount : Uint32
  firstElapsedTime : Uint32
  firstRtpSeqNum : Uint32
  firstRtpTimestamp : Uint32
  prevElapsedTime : Uint32
  prevRtpSeqNum : Uint32
  prevRtpTimestamp : Uint32
  deriving DecidableEq, Repr

/-- How much to increase the numbers for each loop. -/
structure Increases where
  elapsedTime : Uint32
  rtpSeqNum : Uint32
  rtpTimestamp : Uint32
  deriving DecidableEq, Repr

abbrev kDefaultTimeIncrease : Uint32 := 30

def RtpDumpPacket.seqNumOrZero (packet : RtpDumpPacket) : Uint32 :=
  (packet.getRtpSeqNum.map fun seq => seq.setWidth 32).getD 0

def RtpDumpPacket.timestampOrZero (packet : RtpDumpPacket) : Uint32 := packet.getRtpTimestamp.getD 0

def updateStreamStatistics (s : Statistics) (packet : RtpDumpPacket) : Statistics where
  packetCount := s.packetCount + 1
  frameCount :=
    if s.packetCount = 0 ∨ packet.timestampOrZero ≠ s.prevRtpTimestamp then s.frameCount + 1 else s.frameCount
  firstElapsedTime := if s.packetCount = 0 then packet.elapsedTime else s.firstElapsedTime
  firstRtpSeqNum := if s.packetCount = 0 then packet.seqNumOrZero else s.firstRtpSeqNum
  firstRtpTimestamp := if s.packetCount = 0 then packet.timestampOrZero else s.firstRtpTimestamp
  prevElapsedTime := packet.elapsedTime
  prevRtpSeqNum := packet.seqNumOrZero
  prevRtpTimestamp := packet.timestampOrZero

def calculateIncreases (s : Statistics) : Increases where
  elapsedTime :=
    if s.packetCount ≤ 1 then kDefaultTimeIncrease
    else (s.prevElapsedTime - s.firstElapsedTime) * s.packetCount / (s.packetCount - 1)
  rtpSeqNum := s.prevRtpSeqNum - s.firstRtpSeqNum + 1
  rtpTimestamp :=
    if s.frameCount ≤ 1 then kDefaultTimeIncrease
    else (s.prevRtpTimestamp - s.firstRtpTimestamp) * s.frameCount / (s.frameCount - 1)

def updateDumpPacket (loopCount : Uint32) (inc : Increases) (packet : RtpDumpPacket) : RtpDumpPacket where
  elapsedTime := packet.elapsedTime + loopCount * inc.elapsedTime
  data :=
    if packet.isValidRtpPacket then
      overwrite packet.data kRtpSeqNumOffset
        (wordBytes 2 ((packet.seqNumOrZero + loopCount * inc.rtpSeqNum).setWidth 16) ++
          wordBytes 4 (packet.timestampOrZero + loopCount * inc.rtpTimestamp))
    else packet.data
  originalDataLen := packet.originalDataLen

/-- The members of an `RtpDumpLoopReader`. -/
structure RtpDumpLoopReader where
  base : RtpDumpReader
  loopCount : Uint32
  increases : Increases
  statistics : Statistics
  deriving DecidableEq, Repr

/-- What a call of `ReadPacket` leaves: how it ends, the reader, and the packet. -/
structure LoopReading where
  outcome : Outcome
  reader : RtpDumpLoopReader
  packet : RtpDumpPacket
  deriving DecidableEq, Repr

namespace RtpDumpLoopReader

def new (file : List Uint8) : RtpDumpLoopReader := ⟨.new file, 0, ⟨0, 0, 0⟩, ⟨0, 0, 0, 0, 0, 0, 0, 0⟩⟩

variable (r : RtpDumpLoopReader)

def finish (reading : Reading) : LoopReading where
  outcome := reading.outcome
  reader := { r with base := reading.reader }
  packet :=
    if reading.outcome = .returned .success ∧ 0 < r.loopCount.toInt then
      updateDumpPacket r.loopCount r.increases reading.packet
    else reading.packet

def nextLoop (reading : Reading) : LoopReading :=
  let r : RtpDumpLoopReader :=
    { r with
      base := reading.reader.rewindToFirstDumpPacket.1
      increases := if r.loopCount = 0 then calculateIncreases r.statistics else r.increases
      loopCount := r.loopCount + 1 }
  r.finish (if reading.reader.rewindToFirstDumpPacket.2 then r.base.readPacket reading.packet
    else { reading with reader := r.base })

/-- `ReadPacket`. -/
def readPacket (packet : RtpDumpPacket) : LoopReading :=
  if (r.base.readPacket packet).outcome = .returned .success then
    { r with statistics := if r.loopCount = 0 then
        updateStreamStatistics r.statistics (r.base.readPacket packet).packet
      else r.statistics }.finish (r.base.readPacket packet)
  else if (r.base.readPacket packet).outcome = .returned .eos then r.nextLoop (r.base.readPacket packet)
  else r.finish (r.base.readPacket packet)

end RtpDumpLoopReader

def returnedPackets : RtpDumpLoopReader → List RtpDumpPacket → List RtpDumpPacket
  | _, [] => []
  | r, buffer :: buffers =>
    if (r.readPacket buffer).outcome = .returned .success then
      (r.readPacket buffer).packet :: returnedPackets (r.readPacket buffer).reader buffers
    else returnedPackets (r.readPacket buffer).reader buffers

/-! ## What is played -/

def statisticsOf (ps : List RtpDumpPacket) : Statistics :=
  ps.foldl updateStreamStatistics ⟨0, 0, 0, 0, 0, 0, 0, 0⟩

def looped (ps : List RtpDumpPacket) (k i : ℕ) : RtpDumpPacket :=
  if k = 0 then ps.getD i ⟨0, [], 0⟩
  else updateDumpPacket (BitVec.ofNat 32 k) (calculateIncreases (statisticsOf ps)) (ps.getD i ⟨0, [], 0⟩)

/-- The packet number `j` of all loops. -/
def playedAt (ps : List RtpDumpPacket) (j : ℕ) : RtpDumpPacket := looped ps (j / ps.length) (j % ps.length)

/-! ## Positions in the dump -/

section Positions

variable {line header : List Uint8} {ps qs : List RtpDumpPacket} {q : RtpDumpPacket} {b : RtpDumpReader}
  {r : RtpDumpLoopReader}

/-- A reader that will find these packets. -/
def Finds (line header : List Uint8) (ps qs : List RtpDumpPacket) (b : RtpDumpReader) : Prop :=
  Ahead line header ps qs b ∨ (b = .new (dumpFile line header ps) ∧ qs = ps)

theorem Finds.opened (hd : ValidDump line header ps) (h : Finds line header ps qs b) :
    ∃ b', Ahead line header ps qs b' ∧ ∀ packet, b.readPacket packet = b'.readRecord packet := by
  have hrecord {b' : RtpDumpReader} (h : Ahead line header ps qs b') (packet : RtpDumpPacket) :
      b'.readPacket packet = b'.readRecord packet := if_pos h.read
  rcases h with h | ⟨rfl, rfl⟩
  · exact ⟨b, h, hrecord h⟩
  · obtain ⟨b', hb', hread⟩ := ahead_new hd
    exact ⟨b', hb', fun packet => (hread packet).trans (hrecord hb' packet)⟩

theorem Finds.next (hd : ValidDump line header ps) (h : Finds line header ps (q :: qs) b) (hq : Recordable q)
    (packet : RtpDumpPacket) :
    (b.readPacket packet).outcome = .returned .success ∧ (b.readPacket packet).packet = q ∧
      Finds line header ps qs (b.readPacket packet).reader := by
  obtain ⟨b', hb', hread⟩ := h.opened hd
  have hrest := hb'.rest
  rw [List.flatMap_cons] at hrest
  obtain ⟨houtcome, hpacket, hreader⟩ := readRecord_record hq hb'.ssrc hrest packet
  rw [hread, hreader]
  refine ⟨houtcome, hpacket, .inl ⟨hb'.read, hb'.ssrc, hb'.start, hb'.data, ?_⟩⟩
  show (b'.stream.skip _).rest = _
  rw [MemoryStream.rest_skip, hrest, List.drop_left]

theorem Finds.rewind (hd : ValidDump line header ps) (h : Finds line header ps [] b) (packet : RtpDumpPacket) :
    (b.readPacket packet).outcome = .returned .eos ∧ Finds line header ps [] (b.readPacket packet).reader ∧
      (b.readPacket packet).reader.rewindToFirstDumpPacket.2 = true ∧
      Finds line header ps ps (b.readPacket packet).reader.rewindToFirstDumpPacket.1 := by
  obtain ⟨b', hb', hread⟩ := h.opened hd
  have hrecord : b'.readRecord packet =
      ⟨.returned .eos, { b' with stream := b'.stream.skip 0 }, packet, none⟩ := by
    have hrest : b'.stream.rest = [] := hb'.rest
    unfold RtpDumpReader.readRecord
    rw [MemoryStream.readAll_eq, hrest, if_neg (by decide)]
    rfl
  have hsplit : dumpFile line header ps = (line ++ [newline] ++ header) ++ ps.flatMap record := by
    rw [dumpFile, List.append_cons, List.append_assoc _ header]
  have hlen : (line ++ [newline] ++ header).length = line.length + 1 + kFileHeaderLength := by
    rw [List.length_append, List.length_append, hd.header]
    rfl
  have hle : ¬ line.length + 1 + kFileHeaderLength > (dumpFile line header ps).length := by
    rw [hsplit, List.length_append, hlen]
    omega
  have hposition : (b'.stream.skip 0).setPosition b'.firstLineAndFileHeaderLen =
      (⟨dumpFile line header ps, line.length + 1 + kFileHeaderLength⟩, true) := by
    unfold MemoryStream.setPosition MemoryStream.skip
    rw [hb'.data, hb'.start, if_neg hle]
  rw [hread, hrecord]
  simp only [RtpDumpReader.rewindToFirstDumpPacket, hposition, true_and]
  refine ⟨.inl ⟨hb'.read, hb'.ssrc, hb'.start, hb'.data, ?_⟩,
    .inl ⟨hb'.read, hb'.ssrc, hb'.start, rfl, ?_⟩⟩
  · show (b'.stream.skip 0).rest = _
    rw [MemoryStream.rest_skip, List.drop_zero]
    exact hb'.rest
  show (dumpFile line header ps).drop _ = _
  rw [hsplit, List.drop_left' hlen]

/-- **The state of the reader** before packet `i` of loop `k`. -/
structure At (line header : List Uint8) (ps : List RtpDumpPacket) (k i : ℕ) (r : RtpDumpLoopReader) : Prop where
  base : Finds line header ps (ps.drop i) r.base
  count : r.loopCount = BitVec.ofNat 32 k
  small : k < 2 ^ 31
  le : i ≤ ps.length
  first : k = 0 → r.statistics = statisticsOf (ps.take i)
  later : 0 < k → r.increases = calculateIncreases (statisticsOf ps)

theorem At.count_eq_zero {k i : ℕ} (h : At line header ps k i r) : r.loopCount = 0 ↔ k = 0 := by
  have hsmall := h.small
  rw [h.count, ← BitVec.toNat_inj, BitVec.toNat_ofNat, Nat.mod_eq_of_lt (by omega)]
  exact Iff.rfl

theorem toInt_ofNat_pos {k : ℕ} (hk : k < 2 ^ 31) : 0 < (BitVec.ofNat 32 k).toInt ↔ 0 < k := by
  rw [BitVec.toInt_eq_toNat_of_lt (by rw [BitVec.toNat_ofNat]; omega), BitVec.toNat_ofNat]
  omega

theorem At.read (hd : ValidDump line header ps) {k i : ℕ} (h : At line header ps k i r) (hi : i < ps.length)
    (buffer : RtpDumpPacket) :
    (r.readPacket buffer).outcome = .returned .success ∧ (r.readPacket buffer).packet = looped ps k i ∧
      At line header ps k (i + 1) (r.readPacket buffer).reader := by
  have hbase := h.base
  rw [List.drop_eq_getElem_cons hi] at hbase
  have hq : ps.getD i ⟨0, [], 0⟩ = ps[i] := by
    rw [List.getD_eq_getElem?_getD, List.getElem?_eq_getElem hi]
    rfl
  obtain ⟨houtcome, hpacket, hfinds⟩ := hbase.next hd (hd.packets _ (List.getElem_mem hi)) buffer
  unfold RtpDumpLoopReader.readPacket
  rw [if_pos houtcome]
  refine ⟨houtcome, ?_, ⟨hfinds, h.count, h.small, hi, fun hk => ?_, h.later⟩⟩
  · unfold RtpDumpLoopReader.finish looped
    simp only [houtcome, hpacket, h.count, toInt_ofNat_pos h.small, true_and, hq]
    by_cases hk : k = 0
    · rw [if_pos hk, if_neg (by omega)]
    · rw [if_neg hk, if_pos (by omega), h.later (by omega)]
  · show (if r.loopCount = 0 then _ else r.statistics) = _
    rw [if_pos (h.count_eq_zero.mpr hk), h.first hk, hpacket, statisticsOf, statisticsOf,
      ← List.take_concat_get' ps i hi, List.foldl_append]
    rfl

theorem At.wrap (hd : ValidDump line header ps) {k : ℕ} (h : At line header ps k ps.length r)
    (hpos : 0 < ps.length) (hk : k + 1 < 2 ^ 31) (buffer : RtpDumpPacket) :
    (r.readPacket buffer).outcome = .returned .success ∧ (r.readPacket buffer).packet = looped ps (k + 1) 0 ∧
      At line header ps (k + 1) 1 (r.readPacket buffer).reader := by
  have hbase := h.base
  rw [List.drop_length] at hbase
  obtain ⟨heos, -, hrewind, hfinds⟩ := hbase.rewind hd buffer
  generalize hreading : r.base.readPacket buffer = reading at heos hrewind hfinds
  have hbase' : Finds line header ps (ps[0] :: ps.drop 1) reading.reader.rewindToFirstDumpPacket.1 := by
    rw [← List.drop_eq_getElem_cons hpos, List.drop_zero]
    exact hfinds
  have hq : ps.getD 0 ⟨0, [], 0⟩ = ps[0] := by
    rw [List.getD_eq_getElem?_getD, List.getElem?_eq_getElem hpos]
    rfl
  obtain ⟨houtcome, hpacket, hfinds'⟩ := hbase'.next hd (hd.packets _ (List.getElem_mem hpos)) reading.packet
  have hinc : (if r.loopCount = 0 then calculateIncreases r.statistics else r.increases) =
      calculateIncreases (statisticsOf ps) := by
    by_cases hk0 : k = 0
    · rw [if_pos (h.count_eq_zero.mpr hk0), h.first hk0, List.take_length]
    · rw [if_neg fun h0 => hk0 (h.count_eq_zero.mp h0), h.later (by omega)]
  have hcount : r.loopCount + 1 = BitVec.ofNat 32 (k + 1) := by
    rw [h.count, BitVec.ofNat_add]
    rfl
  have hno : ¬ (Outcome.returned .eos = .returned .success) := by decide
  unfold RtpDumpLoopReader.readPacket
  rw [hreading, heos, if_neg hno, if_pos rfl]
  unfold RtpDumpLoopReader.nextLoop
  simp only [hrewind, if_true, hinc, hcount, RtpDumpLoopReader.finish, houtcome, hpacket, toInt_ofNat_pos hk,
    Nat.succ_pos, and_self]
  refine ⟨trivial, ?_, ⟨hfinds', rfl, hk, hpos, fun h0 => absurd h0 (Nat.succ_ne_zero k), fun _ => rfl⟩⟩
  rw [looped, if_neg (Nat.succ_ne_zero k), hq]

/-- **The packets that are returned are those of the endless loop**. -/
theorem At.returned (hd : ValidDump line header ps) (hpos : 0 < ps.length) {k i : ℕ}
    (h : At line header ps k i r) (buffers : List RtpDumpPacket)
    (hloops : k * ps.length + i + buffers.length ≤ 2 ^ 31 * ps.length) :
    returnedPackets r buffers =
      (List.range buffers.length).map fun j => playedAt ps (k * ps.length + i + j) := by
  induction buffers generalizing r k i with
  | nil => rfl
  | cons buffer buffers ih =>
    rw [List.length_cons] at hloops
    rw [List.length_cons, List.range_succ_eq_map, List.map_cons, List.map_map, returnedPackets]
    rcases Nat.lt_or_ge i ps.length with hi | hi
    · obtain ⟨houtcome, hpacket, hat⟩ := h.read hd hi buffer
      have hplayed : playedAt ps (k * ps.length + i + 0) = looped ps k i := by
        rw [playedAt, Nat.add_zero, Nat.mul_comm, Nat.mul_add_div hpos, Nat.div_eq_of_lt hi, Nat.mul_add_mod,
          Nat.mod_eq_of_lt hi, Nat.add_zero]
      rw [if_pos houtcome, hpacket, hplayed, ih hat (by omega)]
      refine congrArg _ (List.map_congr_left fun j _ => ?_)
      show playedAt ps _ = playedAt ps (k * ps.length + i + (j + 1))
      exact congrArg _ (by omega)
    · obtain rfl : i = ps.length := le_antisymm h.le hi
      have hk : k + 1 < 2 ^ 31 := by
        refine Nat.lt_of_mul_lt_mul_right (a := ps.length) ?_
        rw [Nat.add_mul, Nat.one_mul]
        omega
      obtain ⟨houtcome, hpacket, hat⟩ := h.wrap hd hpos hk buffer
      have hplayed : playedAt ps (k * ps.length + ps.length + 0) = looped ps (k + 1) 0 := by
        rw [playedAt, Nat.add_zero, ← Nat.succ_mul, Nat.mul_div_cancel _ hpos, Nat.mul_mod_left]
      rw [if_pos houtcome, hpacket, hplayed, ih hat (by rw [Nat.add_mul, Nat.one_mul]; omega)]
      refine congrArg _ (List.map_congr_left fun j _ => ?_)
      show playedAt ps _ = playedAt ps (k * ps.length + ps.length + (j + 1))
      exact congrArg _ (by rw [Nat.add_mul, Nat.one_mul]; omega)

theorem returned_empty (hd : ValidDump line header []) (h : Finds line header [] [] r.base)
    (buffers : List RtpDumpPacket) : returnedPackets r buffers = [] := by
  induction buffers generalizing r with
  | nil => rfl
  | cons buffer buffers ih =>
    obtain ⟨heos, -, hrewind, hfinds⟩ := h.rewind hd buffer
    generalize hreading : r.base.readPacket buffer = reading at heos hrewind hfinds
    obtain ⟨heos', hfinds', -⟩ := hfinds.rewind hd reading.packet
    have hno : ¬ (Outcome.returned .eos = .returned .success) := by decide
    have hnext : (r.readPacket buffer).outcome = .returned .eos ∧
        Finds line header [] [] (r.readPacket buffer).reader.base := by
      unfold RtpDumpLoopReader.readPacket
      rw [hreading, heos, if_neg hno, if_pos rfl]
      unfold RtpDumpLoopReader.nextLoop
      simp only [hrewind, if_true, RtpDumpLoopReader.finish, heos', true_and]
      exact hfinds'
    rw [returnedPackets, hnext.1, if_neg hno]
    exact ih hnext.2

end Positions

/-! ## The statistics -/

section Statistics

variable {ps qs : List RtpDumpPacket} {p q : RtpDumpPacket}

theorem statisticsOf_concat (qs : List RtpDumpPacket) (q : RtpDumpPacket) :
    statisticsOf (qs ++ [q]) = updateStreamStatistics (statisticsOf qs) q := List.foldl_concat ..

theorem packetCount_statisticsOf (ps : List RtpDumpPacket) :
    (statisticsOf ps).packetCount = BitVec.ofNat 32 ps.length := by
  induction ps using List.reverseRecOn with
  | nil => rfl
  | append_singleton qs q ih =>
    rw [statisticsOf_concat, List.length_append, BitVec.ofNat_add, ← ih]
    rfl

theorem first_statisticsOf (hlen : (p :: qs).length < 2 ^ 32) :
    (statisticsOf (p :: qs)).firstElapsedTime = p.elapsedTime ∧
      (statisticsOf (p :: qs)).firstRtpSeqNum = p.seqNumOrZero := by
  induction qs using List.reverseRecOn with
  | nil => exact ⟨rfl, rfl⟩
  | append_singleton qs q ih =>
    rw [← List.cons_append, List.length_append, List.length_cons, List.length_singleton] at hlen
    have hcount : ¬ (statisticsOf (p :: qs)).packetCount = 0 := by
      rw [packetCount_statisticsOf, List.length_cons]
      intro h
      have hnat := congrArg BitVec.toNat h
      rw [BitVec.toNat_ofNat, Nat.mod_eq_of_lt (by omega)] at hnat
      exact absurd hnat (Nat.succ_ne_zero _)
    rw [← List.cons_append, statisticsOf_concat]
    simp only [updateStreamStatistics, if_neg hcount]
    exact ih (by rw [List.length_cons]; omega)

theorem prev_statisticsOf (h : ps.getLast? = some q) :
    (statisticsOf ps).prevElapsedTime = q.elapsedTime ∧ (statisticsOf ps).prevRtpSeqNum = q.seqNumOrZero := by
  obtain ⟨qs, rfl⟩ := List.getLast?_eq_some_iff.mp h
  rw [statisticsOf_concat]
  exact ⟨rfl, rfl⟩

end Statistics

/-! ## Sequence numbers -/

def seqs (ps : List RtpDumpPacket) : List Uint16 := ps.filterMap RtpDumpPacket.getRtpSeqNum

/-- One number after the other, modulo `2 ^ 16`. -/
def Consecutive (l : List Uint16) : Prop := l.IsChain fun a b => b = a + 1

instance (l : List Uint16) : Decidable (Consecutive l) := inferInstanceAs (Decidable (List.IsChain _ l))

theorem consecutive_loops {l : List Uint16} {first last : Uint16} {offset : ℕ → Uint16} (hl : Consecutive l)
    (hfirst : l.head? = some first) (hlast : l.getLast? = some last)
    (hoffset : ∀ k, offset (k + 1) = offset k + (last - first + 1)) (K : ℕ) :
    Consecutive ((List.range K).flatMap fun k => l.map (· + offset k)) ∧
      ∀ x ∈ ((List.range K).flatMap fun k => l.map (· + offset k)).getLast?,
        x + 1 = first + offset K := by
  induction K with
  | zero => exact ⟨List.IsChain.nil, fun x hx => nomatch hx⟩
  | succ K ih =>
    have hmap : Consecutive (l.map (· + offset K)) := by
      refine (List.isChain_map _).mpr (hl.imp fun a b h => ?_)
      rw [h, add_right_comm]
    have hhead : (l.map (· + offset K)).head? = some (first + offset K) := by rw [List.head?_map, hfirst]; rfl
    have hend : (l.map (· + offset K)).getLast? = some (last + offset K) := by rw [List.getLast?_map, hlast]; rfl
    rw [List.range_succ, List.flatMap_append, List.flatMap_singleton]
    refine ⟨List.isChain_append.mpr ⟨ih.1, hmap, fun x hx y hy => ?_⟩, fun x hx => ?_⟩
    · rw [hhead] at hy
      rw [← Option.some.inj hy, ih.2 x hx]
    · rw [List.getLast?_append, hend] at hx
      rw [← Option.some.inj hx, hoffset]
      ring

def loopUpdate (ps : List RtpDumpPacket) (k : ℕ) (p : RtpDumpPacket) : RtpDumpPacket :=
  if k = 0 then p else updateDumpPacket (BitVec.ofNat 32 k) (calculateIncreases (statisticsOf ps)) p

theorem length_overwrite {data bytes : List Uint8} {pos : ℕ} (h : pos + bytes.length ≤ data.length) :
    (overwrite data pos bytes).length = data.length := by
  rw [overwrite, List.length_append, List.length_append, List.length_take, List.length_drop]
  omega

theorem getRtpSeqNum_updateDumpPacket (loopCount : Uint32) (inc : Increases) (p : RtpDumpPacket) :
    (updateDumpPacket loopCount inc p).getRtpSeqNum =
      p.getRtpSeqNum.map fun seq => seq + (loopCount * inc.rtpSeqNum).setWidth 16 := by
  unfold RtpDumpPacket.getRtpSeqNum
  by_cases hvalid : p.isValidRtpPacket = true
  swap
  · have hdata : (updateDumpPacket loopCount inc p).data = p.data := if_neg hvalid
    have hsame : (updateDumpPacket loopCount inc p).isValidRtpPacket = p.isValidRtpPacket := by
      rw [RtpDumpPacket.isValidRtpPacket, hdata]
      rfl
    rw [hsame, if_neg hvalid, if_neg hvalid, Option.map_none]
  generalize hbytes : wordBytes 2 ((p.seqNumOrZero + loopCount * inc.rtpSeqNum).setWidth 16) ++
    wordBytes 4 (p.timestampOrZero + loopCount * inc.rtpTimestamp) = bytes
  have hlen : bytes.length = 6 := by rw [← hbytes, List.length_append, length_wordBytes, length_wordBytes]
  have hmin : 12 ≤ p.data.length := by
    have h := hvalid
    simp only [RtpDumpPacket.isValidRtpPacket, Bool.and_eq_true, decide_eq_true_eq] at h
    exact h.2
  have htake : (p.data.take kRtpSeqNumOffset).length = kRtpSeqNumOffset := by
    rw [List.length_take]
    exact Nat.min_eq_left (show 2 ≤ p.data.length by omega)
  have hdata : (updateDumpPacket loopCount inc p).data = overwrite p.data kRtpSeqNumOffset bytes := by
    simp only [updateDumpPacket, if_pos hvalid, hbytes]
  have hsame : (updateDumpPacket loopCount inc p).isValidRtpPacket = true := by
    rw [RtpDumpPacket.isValidRtpPacket, hdata, length_overwrite (show 2 + bytes.length ≤ p.data.length by omega)]
    exact hvalid
  have hword : getBE16 (overwrite p.data kRtpSeqNumOffset bytes) kRtpSeqNumOffset =
      (p.seqNumOrZero + loopCount * inc.rtpSeqNum).setWidth 16 := by
    have h := getBE16_append (p.data.take kRtpSeqNumOffset)
      ((p.seqNumOrZero + loopCount * inc.rtpSeqNum).setWidth 16)
      (wordBytes 4 (p.timestampOrZero + loopCount * inc.rtpTimestamp) ++
        p.data.drop (kRtpSeqNumOffset + bytes.length))
    rw [← List.append_assoc (wordBytes 2 _), hbytes, ← List.append_assoc, htake] at h
    exact h
  rw [if_pos hsame, hdata, hword, if_pos hvalid, Option.map_some, BitVec.setWidth_add _ _ (by decide),
    RtpDumpPacket.seqNumOrZero, RtpDumpPacket.getRtpSeqNum, if_pos hvalid]
  refine congrArg (fun x => some (x + _)) ?_
  rw [Option.map_some, Option.getD_some, BitVec.setWidth_setWidth_of_le _ (by decide), BitVec.setWidth_eq]

theorem seqs_loopUpdate (ps : List RtpDumpPacket) (k : ℕ) : seqs (ps.map (loopUpdate ps k)) =
    (seqs ps).map (· + (BitVec.ofNat 32 k * (calculateIncreases (statisticsOf ps)).rtpSeqNum).setWidth 16) := by
  rw [seqs, seqs, List.filterMap_map, List.map_filterMap]
  refine List.filterMap_congr fun p _ => ?_
  by_cases hk : k = 0
  · subst hk
    simp only [Function.comp_apply, loopUpdate, if_true, BitVec.zero_mul, BitVec.setWidth_zero,
      BitVec.add_zero, Option.map_id_fun', id]
  · simp only [Function.comp_apply, loopUpdate, if_neg hk]
    exact getRtpSeqNum_updateDumpPacket _ _ p

theorem played_loops (ps : List RtpDumpPacket) (K : ℕ) :
    (List.range (K * ps.length)).map (playedAt ps) = (List.range K).flatMap fun k => ps.map (loopUpdate ps k) := by
  induction K with
  | zero => rw [Nat.zero_mul]; rfl
  | succ K ih =>
    rw [Nat.succ_mul, List.range_add, List.map_append, ih, List.range_succ, List.flatMap_append,
      List.flatMap_singleton, List.map_map]
    refine congrArg _ (List.ext_getElem (by simp) fun i hi hi' => ?_)
    rw [List.length_map] at hi'
    simp only [List.getElem_map, List.getElem_range, Function.comp_apply]
    rw [playedAt, Nat.mul_comm, Nat.mul_add_div (by omega), Nat.div_eq_of_lt hi', Nat.mul_add_mod,
      Nat.mod_eq_of_lt hi', Nat.add_zero, looped, loopUpdate, List.getD_eq_getElem?_getD,
      List.getElem?_eq_getElem hi', Option.getD_some]

def EndsWithRtp (ps : List RtpDumpPacket) : Prop :=
  (∀ p ∈ ps, p.isValidRtpPacket = false) ∨
    (∀ p ∈ ps.head?, p.isValidRtpPacket = true) ∧ ∀ p ∈ ps.getLast?, p.isValidRtpPacket = true

theorem setWidth_rtpSeqNum {ps : List RtpDumpPacket} {p q : RtpDumpPacket} {first last : Uint16}
    (hlen : ps.length < 2 ^ 32) (hp : ps.head? = some p) (hq : ps.getLast? = some q)
    (hfirst : p.getRtpSeqNum = some first) (hlast : q.getRtpSeqNum = some last) :
    (calculateIncreases (statisticsOf ps)).rtpSeqNum.setWidth 16 = last - first + 1 := by
  obtain ⟨rest, rfl⟩ := List.head?_eq_some_iff.mp hp
  have hcalc : (calculateIncreases (statisticsOf (p :: rest))).rtpSeqNum =
      last.setWidth 32 - first.setWidth 32 + 1 := by
    simp only [calculateIncreases, (first_statisticsOf hlen).2, (prev_statisticsOf hq).2,
      RtpDumpPacket.seqNumOrZero, hfirst, hlast, Option.map_some, Option.getD_some]
  have hsum : last.setWidth 32 - first.setWidth 32 + 1 + first.setWidth 32 = last.setWidth 32 + 1 := by ring
  have hlow := congrArg (BitVec.setWidth 16) hsum
  rw [BitVec.setWidth_add _ _ (by decide), BitVec.setWidth_setWidth_of_le _ (by decide), BitVec.setWidth_eq,
    BitVec.setWidth_add (last.setWidth 32) _ (by decide), BitVec.setWidth_setWidth_of_le _ (by decide),
    BitVec.setWidth_eq] at hlow
  rw [hcalc]
  calc (last.setWidth 32 - first.setWidth 32 + 1).setWidth 16
      = (last.setWidth 32 - first.setWidth 32 + 1).setWidth 16 + first - first := by ring
    _ = last + (1 : Uint32).setWidth 16 - first := by rw [hlow]
    _ = last + 1 - first := rfl
    _ = last - first + 1 := by ring

/-- **The sequence numbers are consecutive** across the rounds. -/
theorem consecutive_played {ps : List RtpDumpPacket} (hpos : 0 < ps.length) (hlen : ps.length < 2 ^ 32)
    (hseq : Consecutive (seqs ps)) (hends : EndsWithRtp ps) (n : ℕ) :
    Consecutive (seqs ((List.range n).map (playedAt ps))) := by
  -- so many calls return a part of as many loops
  obtain ⟨d, hd⟩ := Nat.exists_eq_add_of_le (Nat.le_mul_of_pos_right n hpos)
  have hpart : seqs ((List.range (n * ps.length)).map (playedAt ps)) =
      seqs ((List.range n).map (playedAt ps)) ++ seqs (((List.range d).map (n + ·)).map (playedAt ps)) := by
    rw [hd, List.range_add, List.map_append, seqs, seqs, seqs, List.filterMap_append]
  suffices hwhole : Consecutive (seqs ((List.range (n * ps.length)).map (playedAt ps))) by
    rw [hpart] at hwhole
    exact (List.isChain_append.mp hwhole).1
  rw [played_loops, seqs, List.filterMap_flatMap]
  have hmap := seqs_loopUpdate ps
  simp only [seqs] at hmap
  simp only [hmap]
  rcases hends with hnone | ⟨hhead, hlast⟩
  · have hnil : ps.filterMap RtpDumpPacket.getRtpSeqNum = [] :=
      List.filterMap_eq_nil_iff.mpr fun p hp => if_neg (by rw [hnone p hp]; exact Bool.false_ne_true)
    simp only [hnil, List.map_nil]
    rw [List.flatMap_eq_nil_iff.mpr fun _ _ => rfl]
    exact List.IsChain.nil
  · obtain ⟨p, rest, hps⟩ := List.exists_cons_of_length_pos hpos
    obtain ⟨front, q, hqs⟩ := List.eq_nil_or_concat ps |>.resolve_left (List.length_pos_iff.mp hpos)
    have hp : ps.head? = some p := by rw [hps]; rfl
    have hq : ps.getLast? = some q := by rw [hqs, List.concat_eq_append, List.getLast?_concat]
    have hpseq : p.getRtpSeqNum = some (getBE16 p.data kRtpSeqNumOffset) := if_pos (hhead p hp)
    have hqseq : q.getRtpSeqNum = some (getBE16 q.data kRtpSeqNumOffset) := if_pos (hlast q hq)
    have hfirst : (seqs ps).head? = some (getBE16 p.data kRtpSeqNumOffset) := by
      rw [hps, seqs, List.filterMap_cons_some hpseq]
      rfl
    have hend : (seqs ps).getLast? = some (getBE16 q.data kRtpSeqNumOffset) := by
      rw [hqs, List.concat_eq_append, seqs, List.filterMap_append, List.filterMap_cons_some hqseq]
      exact List.getLast?_concat ..
    refine (consecutive_loops hseq hfirst hend (fun k => ?_) n).1
    rw [← setWidth_rtpSeqNum hlen hp hq hpseq hqseq, ← BitVec.setWidth_add _ _ (by decide), BitVec.ofNat_add]
    refine congrArg (BitVec.setWidth 16) ?_
    show (BitVec.ofNat 32 k + 1) * _ = _
    ring

/-! ## Elapsed times -/

def elapsedAt (ps : List RtpDumpPacket) (i : ℕ) : ℕ := (ps.getD i ⟨0, [], 0⟩).elapsedTime.toNat

def duration (ps : List RtpDumpPacket) : ℕ := elapsedAt ps (ps.length - 1) - elapsedAt ps 0

def trueIncrease (ps : List RtpDumpPacket) : ℕ :=
  if ps.length ≤ 1 then 30 else duration ps * ps.length / (ps.length - 1)

/-- **The true elapsed time** of packet `j` of all loops. -/
def trueElapsed (ps : List RtpDumpPacket) (j : ℕ) : ℕ :=
  elapsedAt ps (j % ps.length) + j / ps.length * trueIncrease ps

def ElapsedSorted (ps : List RtpDumpPacket) : Prop := (ps.map RtpDumpPacket.elapsedTime).Pairwise (· ≤ ·)

section Elapsed

variable {ps : List RtpDumpPacket}

theorem elapsedAt_mono (hsorted : ElapsedSorted ps) {i j : ℕ} (hij : i ≤ j) (hj : j < ps.length) :
    elapsedAt ps i ≤ elapsedAt ps j := by
  rcases Nat.lt_or_ge i j with hlt | hge
  · have h := List.pairwise_iff_getElem.mp hsorted i j (by rw [List.length_map]; omega)
      (by rw [List.length_map]; exact hj) hlt
    rw [List.getElem_map, List.getElem_map, BitVec.le_def] at h
    rw [elapsedAt, elapsedAt, List.getD_eq_getElem?_getD, List.getD_eq_getElem?_getD,
      List.getElem?_eq_getElem (by omega), List.getElem?_eq_getElem hj]
    exact h
  · obtain rfl : i = j := le_antisymm hij hge
    exact le_refl _

theorem duration_le_trueIncrease (ps : List RtpDumpPacket) : duration ps ≤ trueIncrease ps := by
  unfold trueIncrease
  split_ifs with h
  · have hzero : ps.length - 1 = 0 := by omega
    rw [duration, hzero, Nat.sub_self]
    exact Nat.zero_le _
  · rw [Nat.le_div_iff_mul_le (by omega)]
    exact Nat.mul_le_mul_left _ (Nat.sub_le _ _)

theorem trueElapsed_mono (hpos : 0 < ps.length) (hsorted : ElapsedSorted ps) : Monotone (trueElapsed ps) := by
  refine monotone_nat_of_le_succ fun j => ?_
  have hmod := Nat.mod_lt j hpos
  have hsplit := Nat.div_add_mod j ps.length
  generalize hi : j % ps.length = i at hmod hsplit
  generalize hk : j / ps.length = k at hsplit
  unfold trueElapsed
  rw [hi, hk]
  rcases Nat.lt_or_ge (i + 1) ps.length with hlt | hge
  · have hdiv : (j + 1) / ps.length = k := by
      rw [← hsplit, Nat.add_assoc, Nat.mul_add_div hpos, Nat.div_eq_of_lt hlt, Nat.add_zero]
    have hmod' : (j + 1) % ps.length = i + 1 := by
      rw [← hsplit, Nat.add_assoc, Nat.mul_add_mod, Nat.mod_eq_of_lt hlt]
    rw [hdiv, hmod']
    exact Nat.add_le_add_right (elapsedAt_mono hsorted (Nat.le_succ i) hlt) _
  · obtain rfl : i = ps.length - 1 := by omega
    have hnext : j + 1 = ps.length * (k + 1) := by
      rw [Nat.mul_add, Nat.mul_one]
      omega
    rw [hnext, Nat.mul_div_cancel_left _ hpos, Nat.mul_mod_right, Nat.succ_mul]
    have hle := duration_le_trueIncrease ps
    unfold duration at hle
    omega

theorem toNat_elapsedTime (hpos : 0 < ps.length) (hlen : ps.length < 2 ^ 32) (hsorted : ElapsedSorted ps)
    (hfits : duration ps * ps.length < 2 ^ 32) :
    (calculateIncreases (statisticsOf ps)).elapsedTime.toNat = trueIncrease ps := by
  have hcount : (statisticsOf ps).packetCount.toNat = ps.length := by
    rw [packetCount_statisticsOf, BitVec.toNat_ofNat, Nat.mod_eq_of_lt hlen]
  have hone : (1 : Uint32).toNat = 1 := rfl
  have hle : (statisticsOf ps).packetCount ≤ 1 ↔ ps.length ≤ 1 := by rw [BitVec.le_def, hcount, hone]
  unfold calculateIncreases trueIncrease
  simp only [hle]
  split_ifs with h
  · rfl
  · have hfirst : (statisticsOf ps).firstElapsedTime.toNat = elapsedAt ps 0 := by
      obtain ⟨p, rest, rfl⟩ := List.exists_cons_of_length_pos hpos
      rw [(first_statisticsOf hlen).1]
      rfl
    have hprev : (statisticsOf ps).prevElapsedTime.toNat = elapsedAt ps (ps.length - 1) := by
      have hlast : ps.getLast? = some (ps.getLast (List.length_pos_iff.mp hpos)) :=
        List.getLast?_eq_some_getLast (List.length_pos_iff.mp hpos)
      rw [(prev_statisticsOf hlast).1, elapsedAt, List.getD_eq_getElem?_getD,
        List.getElem?_eq_getElem (by omega), List.getLast_eq_getElem]
      rfl
    have hsub : ((statisticsOf ps).prevElapsedTime - (statisticsOf ps).firstElapsedTime).toNat = duration ps := by
      have hmono := elapsedAt_mono hsorted (Nat.zero_le (ps.length - 1)) (by omega)
      rw [BitVec.toNat_sub_of_le (by rw [BitVec.le_def, hfirst, hprev]; exact hmono), hfirst, hprev]
      rfl
    have hpred : ((statisticsOf ps).packetCount - 1).toNat = ps.length - 1 := by
      rw [BitVec.toNat_sub_of_le (by rw [BitVec.le_def, hcount, hone]; omega), hcount]
      rfl
    rw [BitVec.toNat_udiv, BitVec.toNat_mul, hsub, hcount, hpred, Nat.mod_eq_of_lt hfits]

theorem toNat_elapsedTime_playedAt (hpos : 0 < ps.length) (hlen : ps.length < 2 ^ 32)
    (hsorted : ElapsedSorted ps) (hfits : duration ps * ps.length < 2 ^ 32) {j : ℕ}
    (hj : trueElapsed ps j < 2 ^ 32) (hloops : j / ps.length < 2 ^ 32) :
    (playedAt ps j).elapsedTime.toNat = trueElapsed ps j := by
  have hinc := toNat_elapsedTime hpos hlen hsorted hfits
  unfold trueElapsed at hj ⊢
  unfold playedAt looped
  generalize j / ps.length = k at hj hloops
  generalize j % ps.length = i at hj
  split_ifs with hk
  · rw [hk, Nat.zero_mul, Nat.add_zero]
    rfl
  · have hmul : (BitVec.ofNat 32 k * (calculateIncreases (statisticsOf ps)).elapsedTime).toNat =
        k * trueIncrease ps := by
      rw [BitVec.toNat_mul, hinc, BitVec.toNat_ofNat, Nat.mod_eq_of_lt hloops, Nat.mod_eq_of_lt (by omega)]
    show (_ + _ : Uint32).toNat = _
    rw [BitVec.toNat_add, hmul]
    exact Nat.mod_eq_of_lt hj

end Elapsed

/-! ## Playback -/

/-- A dump of one RTP stream, with other packets in between. -/
structure OneStream (ps : List RtpDumpPacket) : Prop where
  seqs : Consecutive (seqs ps)
  elapsed : ElapsedSorted ps

/-- What the reader relies on: RTP at both ends, and a number of packets that fits. -/
structure Loopable (ps : List RtpDumpPacket) : Prop where
  ends : EndsWithRtp ps
  count : ps.length < 2 ^ 32

/-- **Looped playback is seamless**: sequence numbers are consecutive, and elapsed times do not
decrease, as long as these fit into 32 bits. -/
theorem loop_seamless {line header : List Uint8} {ps : List RtpDumpPacket} (hd : ValidDump line header ps)
    (hstream : OneStream ps) (hloopable : Loopable ps) (buffers : List RtpDumpPacket)
    (hloops : ps ≠ [] → buffers.length ≤ 2 ^ 31 * ps.length) :
    (ps ≠ [] → (returnedPackets (.new (dumpFile line header ps)) buffers).length = buffers.length) ∧
      Consecutive (seqs (returnedPackets (.new (dumpFile line header ps)) buffers)) ∧
      (duration ps * ps.length < 2 ^ 32 → (∀ j < buffers.length, trueElapsed ps j < 2 ^ 32) →
        ElapsedSorted (returnedPackets (.new (dumpFile line header ps)) buffers)) := by
  rcases Nat.eq_zero_or_pos ps.length with hzero | hpos
  · obtain rfl := List.length_eq_zero_iff.mp hzero
    rw [returned_empty hd (.inr ⟨rfl, rfl⟩)]
    exact ⟨fun h => absurd rfl h, List.IsChain.nil, fun _ _ => List.Pairwise.nil⟩
  have hne : ps ≠ [] := List.length_pos_iff.mp hpos
  have hstart : At line header ps 0 0 (.new (dumpFile line header ps)) :=
    ⟨.inr ⟨rfl, rfl⟩, rfl, by decide, Nat.zero_le _, fun _ => rfl, fun h => absurd h (Nat.lt_irrefl 0)⟩
  have hreturned : returnedPackets (.new (dumpFile line header ps)) buffers =
      (List.range buffers.length).map (playedAt ps) := by
    rw [hstart.returned hd hpos buffers (by have := hloops hne; omega)]
    exact List.map_congr_left fun j _ => congrArg _ (by omega)
  rw [hreturned]
  refine ⟨fun _ => by rw [List.length_map, List.length_range], ?_, fun hfits htrue => ?_⟩
  · exact consecutive_played hpos hloopable.count hstream.seqs hloopable.ends buffers.length
  · unfold ElapsedSorted
    rw [List.map_map, List.pairwise_map]
    refine List.pairwise_lt_range.imp_of_mem fun {i j} hi hj hij => ?_
    rw [List.mem_range] at hi hj
    have hbound {n : ℕ} (hn : n < buffers.length) : n / ps.length < 2 ^ 32 := by
      rw [Nat.div_lt_iff_lt_mul hpos]
      have := hloops hne
      omega
    have heq {n : ℕ} (hn : n < buffers.length) : (playedAt ps n).elapsedTime.toNat = trueElapsed ps n :=
      toNat_elapsedTime_playedAt hpos hloopable.count hstream.elapsed hfits (htrue n hn) (hbound hn)
    show (playedAt ps i).elapsedTime ≤ (playedAt ps j).elapsedTime
    rw [BitVec.le_def, heq hi, heq hj]
    exact trueElapsed_mono hpos hstream.elapsed hij.le

instance (ps : List RtpDumpPacket) : Decidable (ElapsedSorted ps) :=
  inferInstanceAs (Decidable (List.Pairwise _ _))

instance (ps : List RtpDumpPacket) : Decidable (EndsWithRtp ps) :=
  decidable_of_iff ((∀ p ∈ ps, p.isValidRtpPacket = false) ∨
      ps.head?.all RtpDumpPacket.isValidRtpPacket ∧ ps.getLast?.all RtpDumpPacket.isValidRtpPacket)
    (by rw [EndsWithRtp, Option.all_eq_true, Option.all_eq_true]; rfl)

def exampleRtp (seq : Uint16) (elapsed : Uint32) : RtpDumpPacket :=
  ⟨elapsed, [0x80, 0] ++ wordBytes 2 seq ++ wordBytes 4 0 ++ wordBytes 4 7, 12⟩

def exampleRtcp (elapsed : Uint32) : RtpDumpPacket := ⟨elapsed, [0x80, 200, 0, 0], 0⟩

def exampleLine : List Uint8 := text "#!rtpplay1.0 0.0.0.0/0"
def exampleHeader : List Uint8 := List.replicate 16 0

def exampleDump : List RtpDumpPacket := [exampleRtp 65535 0, exampleRtcp 15, exampleRtp 0 20]

/-- It is played three times. -/
theorem loop_seamless_example :
    Consecutive (seqs (returnedPackets (.new (dumpFile exampleLine exampleHeader exampleDump))
      (List.replicate 8 ⟨0, [], 0⟩))) ∧
      ElapsedSorted (returnedPackets (.new (dumpFile exampleLine exampleHeader exampleDump))
        (List.replicate 8 ⟨0, [], 0⟩)) := by
  have hvalid : ValidDump exampleLine exampleHeader exampleDump := by
    refine ⟨by decide, by decide, by decide, fun p hp => ?_⟩
    rcases List.mem_cons.mp hp with rfl | hp
    · exact ⟨by decide, by decide⟩
    rcases List.mem_cons.mp hp with rfl | hp
    · exact ⟨by decide, by decide⟩
    · rw [List.mem_singleton.mp hp]
      exact ⟨by decide, by decide⟩
  obtain ⟨-, hseqs, helapsed⟩ := loop_seamless hvalid ⟨by decide, by decide⟩ ⟨by decide, by decide⟩
    (List.replicate 8 ⟨0, [], 0⟩) fun _ => by decide
  exact ⟨hseqs, helapsed (by decide) (by decide)⟩

def exampleTrailing : List RtpDumpPacket := [exampleRtp 5 0, exampleRtp 6 20, exampleRtcp 30]

/-- **A trailing RTCP packet** counts as sequence number 0. -/
theorem trailing_rtcp :
    OneStream exampleTrailing ∧ (∀ j < 4, trueElapsed exampleTrailing j < 2 ^ 32) ∧
      seqs (returnedPackets (.new (dumpFile exampleLine exampleHeader exampleTrailing))
        (List.replicate 4 ⟨0, [], 0⟩)) = [5, 6, 1] ∧
      ¬ Consecutive (seqs (returnedPackets (.new (dumpFile exampleLine exampleHeader exampleTrailing))
        (List.replicate 4 ⟨0, [], 0⟩))) := by
  have hseqs : seqs (returnedPackets (.new (dumpFile exampleLine exampleHeader exampleTrailing))
      (List.replicate 4 ⟨0, [], 0⟩)) = [5, 6, 1] := by decide +kernel
  refine ⟨⟨by decide, by decide⟩, by decide, hseqs, ?_⟩
  rw [hseqs]
  decide

end Libjingle.RtpDump
