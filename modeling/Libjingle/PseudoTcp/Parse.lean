import Libjingle.Lib.Reading
import Libjingle.PseudoTcp.SendMoves

/-!
# Parsing a packet

`parse` asks for 12 bytes and reads 24; `seg.len = size - HEADER_SIZE` wraps for a size in between.

Main results: **`notifyPacket_eq`**, **`process_congr`**, **`notifyPacket_toBytes`**,
**`rejectsMalformed_iff`**, **`parse_reads_beyond`**.
-/

variable {buffer : ℕ → Uint8}

namespace Libjingle

open Lib

/-! ## The fields -/

/-- The fields of the header of a packet. -/
structure SegmentHeader where
  conv : Uint32
  seq : Uint32
  ack : Uint32
  flags : Uint8
  wnd : Uint16
  len : Uint32
  tsval : Uint32
  tsecr : Uint32

def SegmentHeader.segment (h : SegmentHeader) (data : ℕ → Uint8) : Segment :=
  ⟨h.conv, h.seq, h.ack, h.flags, h.wnd, data, h.len, h.tsval, h.tsecr⟩

def readLong (p : ℕ) : Reading Uint8 Uint32 := do
  let a ← Reading.cell p
  let b ← Reading.cell (p + 1)
  let c ← Reading.cell (p + 2)
  let d ← Reading.cell (p + 3)
  pure (u32 (a.toNat * 0x1000000 + b.toNat * 0x10000 + c.toNat * 0x100 + d.toNat))

def readShort (p : ℕ) : Reading Uint8 Uint16 := do
  let a ← Reading.cell p
  let b ← Reading.cell (p + 1)
  pure (BitVec.ofNat 16 (a.toNat * 0x100 + b.toNat))

def readSegmentHeader (size : Uint32) : Reading Uint8 SegmentHeader := do
  let conv ← readLong 0
  let seq ← readLong 4
  let ack ← readLong 8
  let flags ← Reading.cell 13
  let wnd ← readShort 14
  let tsval ← readLong 16
  let tsecr ← readLong 20
  pure ⟨conv, seq, ack, flags, wnd, size - headerSize, tsval, tsecr⟩

/-- `parse` up to `process`; `none` is `false`. -/
def parseHeader (size : Uint32) : Reading Uint8 (Option SegmentHeader) :=
  if size < 12 then pure none
  else do
    let h ← readSegmentHeader size
    pure (some h)

def notifyHeader (len : ℕ) : Reading Uint8 (Option SegmentHeader) :=
  if len > maxPacket.toNat then pure none else parseHeader (u32 len)

/-! ## The bytes that are read -/

theorem readLong_local (p : ℕ) : (readLong p).Local :=
  Reading.local_bind (Reading.local_cell _) fun _ => Reading.local_bind (Reading.local_cell _) fun _ =>
    Reading.local_bind (Reading.local_cell _) fun _ => Reading.local_bind (Reading.local_cell _) fun _ =>
      Reading.local_pure _

theorem readShort_local (p : ℕ) : (readShort p).Local :=
  Reading.local_bind (Reading.local_cell _) fun _ => Reading.local_bind (Reading.local_cell _) fun _ =>
    Reading.local_pure _

theorem readSegmentHeader_local (size : Uint32) : (readSegmentHeader size).Local :=
  Reading.local_bind (readLong_local _) fun _ => Reading.local_bind (readLong_local _) fun _ =>
    Reading.local_bind (readLong_local _) fun _ => Reading.local_bind (Reading.local_cell _) fun _ =>
      Reading.local_bind (readShort_local _) fun _ => Reading.local_bind (readLong_local _) fun _ =>
        Reading.local_bind (readLong_local _) fun _ => Reading.local_pure _

theorem notifyHeader_local (len : ℕ) : (notifyHeader len).Local := by
  unfold notifyHeader parseHeader
  split
  · exact Reading.local_pure _
  · split
    · exact Reading.local_pure _
    · exact Reading.local_bind (readSegmentHeader_local _) fun _ => Reading.local_pure _

theorem readSegmentHeader_reads (size : Uint32) (buffer : ℕ → Uint8) :
    (readSegmentHeader size buffer).2 = List.range 12 ++ List.range' 13 11 := rfl

namespace PseudoTcp

/-- **`NotifyPacket` processes the segment** whose header it reads from memory. -/
theorem notifyPacket_eq (s : PseudoTcp) (buffer : ℕ → Uint8) (len : ℕ) :
    s.notifyPacket buffer len =
      match (notifyHeader len buffer).1 with
      | none => (s, false)
      | some h => s.process (h.segment fun i => buffer (24 + i)) := by
  unfold notifyPacket notifyHeader parse parseHeader
  split
  · rfl
  · split
    · rfl
    · rfl

/-! ## The data of a segment -/

variable (s : PseudoTcp) {seg seg' : Segment}

/-- Segments that only differ in the memory beyond their data. -/
structure SameBytes (seg seg' : Segment) : Prop where
  fields : seg' = { seg with data := seg'.data }
  bytes : ∀ i < seg.len.toNat, seg'.data i = seg.data i

theorem sameBytes_trimLeft (h : SameBytes seg seg') : SameBytes (s.trimLeft seg) (s.trimLeft seg') := by
  rw [h.fields]
  unfold trimLeft
  dsimp only
  split
  · split
    · rename_i hlt
      refine ⟨rfl, fun i hi => h.bytes _ ?_⟩
      have hsub : (seg.len - (s.rcv.rcvNxt - seg.seq)).toNat =
          seg.len.toNat - (s.rcv.rcvNxt - seg.seq).toNat := BitVec.toNat_sub_of_le (BitVec.le_of_lt hlt)
      dsimp only at hi
      omega
    · exact ⟨rfl, fun i hi => absurd hi (Nat.not_lt_zero i)⟩
  · exact ⟨rfl, h.bytes⟩

theorem sameBytes_trimRight (h : SameBytes seg seg') : SameBytes (s.trimRight seg) (s.trimRight seg') := by
  rw [h.fields]
  unfold trimRight
  dsimp only
  split
  · refine ⟨rfl, fun i hi => h.bytes i ?_⟩
    dsimp only at hi
    split at hi
    · rename_i hlt
      rw [BitVec.toNat_sub_of_le (BitVec.le_of_lt hlt)] at hi
      omega
    · exact absurd hi (Nat.not_lt_zero i)
  · exact ⟨rfl, h.bytes⟩

theorem sameBytes_trim (h : SameBytes seg seg') : SameBytes (s.trim seg) (s.trim seg') :=
  sameBytes_trimRight s (sameBytes_trimLeft s h)

theorem writeOffset_congr (f : FifoBuffer) {data data' : ℕ → Uint8} {bytes : ℕ}
    (h : ∀ i < bytes, data' i = data i) (offset : ℕ) :
    f.writeOffset data' bytes offset = f.writeOffset data bytes offset := by
  unfold FifoBuffer.writeOffset FifoBuffer.writeOffsetLocked
  split
  · rfl
  · split
    · rfl
    · have hfirst {n : ℕ} (hn : n ≤ bytes) (m : ℕ → Uint8) (p : ℕ) :
          memcpy m p data' n = memcpy m p data n := memcpy_congr fun i hi => h i (by omega)
      have hrest {n k : ℕ} (hn : k + n ≤ bytes) (m : ℕ → Uint8) (p : ℕ) :
          memcpy m p (fun i => data' (k + i)) n = memcpy m p (fun i => data (k + i)) n :=
        memcpy_congr fun i hi => h _ (by omega)
      dsimp only
      rw [hfirst (by omega), hrest (by omega)]

theorem receive_congr (h : SameBytes seg seg') (sflags : SendFlags) :
    s.receive seg' sflags = s.receive seg sflags := by
  have hwrite : s.writePayload seg' = s.writePayload seg := by
    rw [h.fields]
    unfold writePayload
    dsimp only
    rw [writeOffset_congr _ h.bytes]
  rw [h.fields] at hwrite ⊢
  unfold receive store
  rw [hwrite]
  rfl

theorem control_congr (h : SameBytes seg seg') : s.control seg' = s.control seg := by
  rw [h.fields]
  unfold control
  dsimp only
  split
  · rfl
  · split
    · rfl
    · rename_i hlen
      have hpos : 0 < seg.len.toNat := Nat.pos_of_ne_zero fun h => hlen (BitVec.eq_of_toNat_eq h)
      have hone : (1 : Uint32).toNat = 1 := rfl
      have hle : (1 : Uint32) ≤ seg.len := by
        rw [BitVec.le_def, hone]
        exact hpos
      have hblock : block seg'.data 1 (seg.len - 1).toNat = block seg.data 1 (seg.len - 1).toNat := by
        refine block_congr fun i hi => h.bytes _ ?_
        rw [BitVec.toNat_sub_of_le hle, hone] at hi
        omega
      rw [h.bytes 0 hpos, hblock]

/-- `process` looks at the bytes of the segment only. -/
theorem process_congr (h : SameBytes seg seg') : s.process seg' = s.process seg := by
  have hdata (t : PseudoTcp) (bConnect : Bool) : t.processData seg' bConnect = t.processData seg bConnect := by
    unfold processData
    dsimp only
    rw [receive_congr _ (sameBytes_trim _ h), h.fields]
    rfl
  have hsegment (t : PseudoTcp) (now : Uint32) : t.processSegment seg' now = t.processSegment seg now := by
    unfold processSegment
    rw [control_congr t h]
    split
    · rfl
    · rename_i t' bConnect _
      have hack : (t'.updateTimestamp seg').processAck seg' now =
          (t'.updateTimestamp seg).processAck seg now := by
        rw [h.fields]
        rfl
      rw [hack]
      split
      · rfl
      · rw [hdata]
  unfold process
  rw [hsegment, h.fields]

/-! ## Malformed packets -/

/-- A packet is read inside its buffer, and a short one rejected without effect. -/
structure RejectsMalformed (s : PseudoTcp) (buffer : ℕ → Uint8) (len : ℕ) : Prop where
  inside : ∀ p ∈ (notifyHeader len buffer).2, p < len
  bytes : ∀ buffer', (∀ p < len, buffer' p = buffer p) →
    s.notifyPacket buffer' len = s.notifyPacket buffer len
  short : len < headerSize.toNat → s.notifyPacket buffer len = (s, false)
  payload : headerSize.toNat ≤ len → ∀ h, (notifyHeader len buffer).1 = some h →
    h.len.toNat = len - headerSize.toNat

theorem notifyHeader_none {len : ℕ} (h : maxPacket.toNat < len ∨ len < 12) : notifyHeader len = pure none := by
  unfold notifyHeader parseHeader
  split
  · rfl
  · rename_i hmax
    have hlt : u32 len < 12 := by
      have hmax' : maxPacket.toNat = 65535 := rfl
      rw [BitVec.lt_def, BitVec.toNat_ofNat, Nat.mod_eq_of_lt (by omega)]
      exact h.resolve_left hmax
    rw [if_pos hlt]

theorem notifyHeader_some {len : ℕ} (hmax : len ≤ maxPacket.toNat) (hlen : 12 ≤ len) :
    notifyHeader len = readSegmentHeader (u32 len) >>= fun h => pure (some h) := by
  have hmax' : maxPacket.toNat = 65535 := rfl
  have hge : ¬u32 len < 12 := by
    rw [BitVec.lt_def, BitVec.toNat_ofNat, Nat.mod_eq_of_lt (by omega)]
    exact Nat.not_lt.mpr hlen
  unfold notifyHeader parseHeader
  rw [if_neg (Nat.not_lt.mpr hmax), if_neg hge]

/-- **Exactly the packets of 12 to 23 bytes** are read beyond their end. -/
theorem rejectsMalformed_iff (s : PseudoTcp) (buffer : ℕ → Uint8) (len : ℕ) :
    s.RejectsMalformed buffer len ↔ len < 12 ∨ headerSize.toNat ≤ len := by
  have hheader : headerSize.toNat = 24 := rfl
  have hmax' : maxPacket.toNat = 65535 := rfl
  constructor
  · intro h
    by_contra hlen
    rw [hheader] at hlen
    have hreads := h.inside 23
    rw [notifyHeader_some (by omega) (by omega), Reading.reads_bind, readSegmentHeader_reads] at hreads
    have hmem : 23 ∈ (List.range 12 ++ List.range' 13 11) ++
        ((pure (some (readSegmentHeader (u32 len) buffer).1) : Reading Uint8 _) buffer).2 := by simp
    have := hreads hmem
    omega
  · intro hlen
    by_cases hnone : maxPacket.toNat < len ∨ len < 12
    · have hresult (buffer : ℕ → Uint8) : s.notifyPacket buffer len = (s, false) := by
        rw [notifyPacket_eq, notifyHeader_none hnone]
        rfl
      refine ⟨fun p hp => ?_, fun buffer' _ => (hresult _).trans (hresult _).symm,
        fun _ => hresult buffer, fun _ h hh => ?_⟩
      · rw [notifyHeader_none hnone] at hp
        cases hp
      · rw [notifyHeader_none hnone] at hh
        cases hh
    · have hbounds : 24 ≤ len ∧ len ≤ 65535 := by omega
      have hsome := notifyHeader_some (show len ≤ maxPacket.toNat by omega) (by omega)
      have hinside : ∀ p ∈ (notifyHeader len buffer).2, p < len := by
        intro p hp
        rw [hsome, Reading.reads_bind, readSegmentHeader_reads, Reading.reads_pure, List.append_nil] at hp
        have hp' : p < 12 ∨ ∃ i < 11, p = 13 + i := by simpa [List.mem_range'] using hp
        rcases hp' with hp' | ⟨i, hi, rfl⟩ <;> omega
      have hvalue : (notifyHeader len buffer).1 = some (readSegmentHeader (u32 len) buffer).1 := by
        rw [hsome]
        rfl
      have hpayload : (readSegmentHeader (u32 len) buffer).1.len.toNat = len - 24 := by
        show (u32 len - 24#32).toNat = len - 24
        rw [BitVec.toNat_sub_of_le, BitVec.toNat_ofNat, BitVec.toNat_ofNat]
        · omega
        · rw [BitVec.le_def, BitVec.toNat_ofNat, BitVec.toNat_ofNat]
          omega
      refine ⟨hinside, fun buffer' hbuffer => ?_, fun hshort => absurd hshort (by omega), ?_⟩
      · rw [notifyPacket_eq, notifyPacket_eq,
          (notifyHeader_local len).congr hinside hbuffer, hvalue]
        refine process_congr s ⟨rfl, fun i hi => hbuffer _ ?_⟩
        have hi' : i < (readSegmentHeader (u32 len) buffer).1.len.toNat := hi
        omega
      · intro _ h hh
        rw [hvalue] at hh
        cases hh
        rw [hheader]
        exact hpayload

/-- **A packet of 12 bytes is read up to its 24th**, and accepted. -/
theorem parse_reads_beyond :
    ¬ (new calmWorld 0).RejectsMalformed (ptr (List.replicate 12 0)) 12 ∧
      23 ∈ (notifyHeader 12 (ptr (List.replicate 12 0))).2 ∧
      ((new calmWorld 0).notifyPacket (ptr (List.replicate 12 0)) 12).2 = true := by
  refine ⟨fun h => ?_, by decide, by decide⟩
  exact absurd (h.inside 23 (by decide)) (by decide)

end PseudoTcp

/-! ## Packets on the wire -/

theorem bytesToLong_of_block {p : ℕ} {v : Uint32}
    (h : longToBytes v = block buffer p 4) : bytesToLong buffer p = v := by
  have hbytes : longToBytes v = [buffer p, buffer (p + 1), buffer (p + 2), buffer (p + 3)] := h
  injection hbytes with h0 hbytes
  injection hbytes with h1 hbytes
  injection hbytes with h2 hbytes
  injection hbytes with h3
  apply BitVec.eq_of_toNat_eq
  have hlt := v.isLt
  rw [bytesToLong, ← h0, ← h1, ← h2, ← h3]
  simp only [BitVec.toNat_ofNat, BitVec.toNat_setWidth, BitVec.toNat_ushiftRight, Nat.shiftRight_eq_div_pow]
  omega

theorem bytesToShort_of_block {p : ℕ} {v : Uint16}
    (h : shortToBytes v = block buffer p 2) : bytesToShort buffer p = v := by
  have hbytes : shortToBytes v = [buffer p, buffer (p + 1)] := h
  injection hbytes with h0 hbytes
  injection hbytes with h1
  apply BitVec.eq_of_toNat_eq
  have hlt := v.isLt
  rw [bytesToShort, ← h0, ← h1]
  simp only [BitVec.toNat_ofNat, BitVec.toNat_setWidth, BitVec.toNat_ushiftRight, Nat.shiftRight_eq_div_pow]
  omega

/-- A packet as `process` gets it. -/
def Packet.segment (p : Packet) : Segment :=
  ⟨p.conv, p.seq, p.ack, p.flags, p.wnd, ptr p.payload, u32 p.payload.length, p.tsval, p.tsecr⟩

theorem Packet.length_toBytes (p : Packet) : p.toBytes.length = 24 + p.payload.length := by
  rw [Packet.toBytes, List.length_append]
  rfl

theorem PseudoTcp.sameBytes_parseSegment {p : Packet} (h : p.toBytes = block buffer 0 (24 + p.payload.length)) :
    SameBytes p.segment (parseSegment buffer (u32 (24 + p.payload.length))) := by
  unfold Packet.toBytes at h
  simp only [List.append_assoc] at h
  obtain ⟨hconv, h⟩ := block_eq_append h.symm
  obtain ⟨hseq, h⟩ := block_eq_append h.symm
  obtain ⟨hack, h⟩ := block_eq_append h.symm
  obtain ⟨hflags, h⟩ := block_eq_append h.symm
  obtain ⟨hwnd, h⟩ := block_eq_append h.symm
  obtain ⟨htsval, h⟩ := block_eq_append h.symm
  obtain ⟨htsecr, hpayload⟩ := block_eq_append h.symm
  have hflag : buffer 13 = p.flags := (List.cons.inj (List.cons.inj hflags).2).1.symm
  have hlen : u32 (24 + p.payload.length) - headerSize = u32 p.payload.length := by bv_omega
  constructor
  · simp only [parseSegment, Packet.segment, hflag, hlen, bytesToLong_of_block (p := 0) hconv,
      bytesToLong_of_block (p := 4) hseq, bytesToLong_of_block (p := 8) hack, bytesToShort_of_block (p := 14) hwnd,
      bytesToLong_of_block (p := 16) htsval, bytesToLong_of_block (p := 20) htsecr]
  · intro i hi
    have hi' : i < p.payload.length := hi.trans_le (Nat.mod_le _ _)
    have hbyte : p.payload[i]? = (block buffer 24 (24 + p.payload.length - 24))[i]? := congrArg (·[i]?) hpayload
    rw [getElem?_block, if_pos (by omega)] at hbyte
    change buffer (24 + i) = p.payload.getD i 0
    rw [List.getD_eq_getElem?_getD, hbyte, Option.getD_some]

/-- **What `packet` writes is what `parse` reads**, in any memory that holds it. -/
theorem PseudoTcp.notifyPacket_toBytes (s : PseudoTcp) (p : Packet) (buffer : ℕ → Uint8)
    (hbytes : p.toBytes = block buffer 0 p.toBytes.length) (hsize : p.toBytes.length ≤ maxPacket.toNat) :
    s.notifyPacket buffer p.toBytes.length = s.process p.segment := by
  have hmax : maxPacket.toNat = 65535 := rfl
  rw [p.length_toBytes] at hbytes hsize ⊢
  have hge : ¬u32 (24 + p.payload.length) < 12 := by bv_omega
  rw [notifyPacket, parse, if_neg (Nat.not_lt.mpr hsize), if_neg hge]
  exact process_congr s (sameBytes_parseSegment hbytes)

/-- The first packet of a connection reaches a listening peer. -/
theorem PseudoTcp.notifyPacket_toBytes_connect :
    (new calmWorld 7).notifyPacket (ptr (Packet.toBytes ⟨7, 0, 0, 2, 100, 5, 0, [0]⟩)) 25 =
      (new calmWorld 7).process (Packet.segment ⟨7, 0, 0, 2, 100, 5, 0, [0]⟩) :=
  notifyPacket_toBytes (new calmWorld 7) ⟨7, 0, 0, 2, 100, 5, 0, [0]⟩ _ (by decide) (by decide)

end Libjingle
