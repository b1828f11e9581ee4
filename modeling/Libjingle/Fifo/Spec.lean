import Libjingle.Fifo.Model

/-!
# What each `FifoBuffer` operation does

The ring is read through two views: `contents`, the readable bytes, and `freeCell i`, the byte at
offset `i` past the write position. Each operation has one lemma for each view, and callers use
these and never unfold the operation.
-/

variable {n : ℕ}

namespace Libjingle

open Lib

namespace FifoBuffer

/-- The positions are inside the ring. A ring without cells has no position to speak of. -/
structure Valid (f : FifoBuffer) : Prop where
  le : f.dataLength ≤ f.bufferLength
  pos : 0 < f.bufferLength → f.readPosition < f.bufferLength

/-- The readable bytes, in order. -/
def contents (f : FifoBuffer) : List Uint8 :=
  ringBlock f.buffer f.bufferLength f.readPosition f.dataLength

/-- The byte at offset `i` past the write position. -/
def freeCell (f : FifoBuffer) (i : ℕ) : Uint8 :=
  f.buffer ((f.readPosition + f.dataLength + i) % f.bufferLength)

variable {f : FifoBuffer}

@[simp] theorem length_contents (f : FifoBuffer) : f.contents.length = f.dataLength := by
  simp [contents]

theorem contents_eq_nil {f : FifoBuffer} : f.contents = [] ↔ f.dataLength = 0 := by
  rw [← List.length_eq_zero_iff, length_contents]

/-! ## Posting an event changes nothing else -/

@[simp] theorem postIf_state (c : Bool) (ev : StreamEvent) : (f.postIf c ev).state = f.state := by
  unfold postIf; split_ifs <;> rfl

@[simp] theorem postIf_buffer (c : Bool) (ev : StreamEvent) : (f.postIf c ev).buffer = f.buffer := by
  unfold postIf; split_ifs <;> rfl

@[simp] theorem postIf_bufferLength (c : Bool) (ev : StreamEvent) :
    (f.postIf c ev).bufferLength = f.bufferLength := by
  unfold postIf; split_ifs <;> rfl

@[simp] theorem postIf_dataLength (c : Bool) (ev : StreamEvent) : (f.postIf c ev).dataLength = f.dataLength := by
  unfold postIf; split_ifs <;> rfl

@[simp] theorem postIf_readPosition (c : Bool) (ev : StreamEvent) :
    (f.postIf c ev).readPosition = f.readPosition := by
  unfold postIf; split_ifs <;> rfl

theorem Valid.postIf (h : f.Valid) (c : Bool) (ev : StreamEvent) : (f.postIf c ev).Valid :=
  ⟨by simpa using h.le, by simpa using h.pos⟩

@[simp] theorem contents_postIf (c : Bool) (ev : StreamEvent) : (f.postIf c ev).contents = f.contents := by
  simp [contents]

@[simp] theorem freeCell_postIf (c : Bool) (ev : StreamEvent) (i : ℕ) :
    (f.postIf c ev).freeCell i = f.freeCell i := by
  simp [freeCell]

/-! ## Reading -/

theorem valid_new (n : ℕ) (mem : ℕ → Uint8) : (new n mem).Valid := ⟨Nat.zero_le _, id⟩

@[simp] theorem contents_new (n : ℕ) (mem : ℕ → Uint8) : (new n mem).contents = [] := rfl

theorem readOffset_spec (h : f.Valid) (bytes offset : ℕ) :
    f.readOffset bytes offset =
      if offset < f.dataLength then (.success, (f.contents.drop offset).take bytes)
      else (if f.state ≠ .closed then .block else .eos, []) := by
  unfold readOffset readOffsetLocked
  by_cases hoff : offset < f.dataLength
  · have hlt : 0 < f.bufferLength := by have := h.le; omega
    rw [if_neg (by omega), if_pos hoff]
    simp only [Prod.mk.injEq, true_and]
    rw [two_piece_read (Nat.mod_lt _ hlt) (by have := h.le; omega), ringBlock_mod, contents,
      drop_ringBlock, take_ringBlock]
  · rw [if_pos (by omega), if_neg hoff]

theorem valid_advance (h : f.Valid) (hn : n ≤ f.dataLength) :
    ({ f with readPosition := (f.readPosition + n) % f.bufferLength,
              dataLength := f.dataLength - n } : FifoBuffer).Valid :=
  ⟨by have := h.le; simp only; omega, fun hpos => Nat.mod_lt _ hpos⟩

theorem contents_advance (n : ℕ) :
    ({ f with readPosition := (f.readPosition + n) % f.bufferLength,
              dataLength := f.dataLength - n } : FifoBuffer).contents = f.contents.drop n := by
  simp only [contents]
  rw [ringBlock_mod, drop_ringBlock]

theorem freeCell_advance (hn : n ≤ f.dataLength) (i : ℕ) :
    ({ f with readPosition := (f.readPosition + n) % f.bufferLength,
              dataLength := f.dataLength - n } : FifoBuffer).freeCell i = f.freeCell i := by
  simp only [freeCell]
  rw [Nat.add_assoc, Nat.mod_add_mod]
  congr 2
  omega

def afterRead (f : FifoBuffer) (n : ℕ) : FifoBuffer :=
  ({ f with readPosition := (f.readPosition + n) % f.bufferLength,
            dataLength := f.dataLength - n } : FifoBuffer).postIf
    (!decide (f.dataLength < f.bufferLength) && 0 < n) .seWrite

/-- **`Read` takes from the front of the contents**. -/
theorem read_spec (h : f.Valid) (bytes : ℕ) :
    f.read bytes =
      if 0 < f.dataLength then
        (.success, f.contents.take bytes, f.afterRead (min bytes f.dataLength))
      else (if f.state ≠ .closed then .block else .eos, [], f) := by
  have hr := readOffset_spec h bytes 0
  rw [readOffset, List.drop_zero] at hr
  unfold read
  rw [hr]
  by_cases hpos : 0 < f.dataLength
  · simp only [if_pos hpos, List.length_take, length_contents, afterRead]
  · simp only [if_neg hpos]
    by_cases hc : f.state = .closed <;> simp [hc]

theorem Valid.afterRead (h : f.Valid) (hn : n ≤ f.dataLength) : (f.afterRead n).Valid :=
  (valid_advance h hn).postIf _ _

/-- Reading drops the first bytes. -/
@[simp] theorem contents_afterRead (n : ℕ) : (f.afterRead n).contents = f.contents.drop n := by
  rw [FifoBuffer.afterRead, contents_postIf, contents_advance]

theorem freeCell_afterRead (hn : n ≤ f.dataLength) (i : ℕ) : (f.afterRead n).freeCell i = f.freeCell i := by
  rw [FifoBuffer.afterRead, freeCell_postIf, freeCell_advance hn]

@[simp] theorem afterRead_bufferLength (n : ℕ) :
    (f.afterRead n).bufferLength = f.bufferLength := by simp [FifoBuffer.afterRead]

@[simp] theorem afterRead_dataLength (n : ℕ) :
    (f.afterRead n).dataLength = f.dataLength - n := by simp [FifoBuffer.afterRead]

@[simp] theorem afterRead_state (n : ℕ) : (f.afterRead n).state = f.state := by
  simp [FifoBuffer.afterRead]

theorem consumeReadData_eq (n : ℕ) : f.consumeReadData n = f.afterRead n := rfl

/-! ## Writing -/

def stored (f : FifoBuffer) (data : ℕ → Uint8) (n offset : ℕ) : FifoBuffer :=
  let p := (f.readPosition + f.dataLength + offset) % f.bufferLength
  let tail := min n (f.bufferLength - p)
  { f with buffer := memcpy (memcpy f.buffer p data tail) 0 (fun i => data (tail + i)) (n - tail) }

theorem writeOffset_spec (hopen : f.state ≠ .closed) (data : ℕ → Uint8) (bytes offset : ℕ) :
    f.writeOffset data bytes offset =
      if f.dataLength + offset < f.bufferLength then
        (.success, min bytes (f.bufferLength - f.dataLength - offset),
          f.stored data (min bytes (f.bufferLength - f.dataLength - offset)) offset)
      else (.block, 0, f) := by
  unfold writeOffset writeOffsetLocked
  rw [if_neg hopen]
  by_cases h : f.dataLength + offset < f.bufferLength
  · rw [if_neg (by omega), if_pos h]
    rfl
  · rw [if_pos (by omega), if_neg h]

section Stored

variable {data : ℕ → Uint8} {n offset : ℕ}

theorem Valid.stored (h : f.Valid) : (f.stored data n offset).Valid := ⟨h.le, h.pos⟩

theorem stored_cell (data : ℕ → Uint8) (hn : f.dataLength + offset + n ≤ f.bufferLength)
    (hpos : 0 < f.bufferLength) {j : ℕ} (hj : j < f.bufferLength) :
    (f.stored data n offset).buffer
        ((f.readPosition + f.dataLength + offset + j) % f.bufferLength) =
      if j < n then data j
      else f.buffer ((f.readPosition + f.dataLength + offset + j) % f.bufferLength) := by
  have hcopy := two_piece_write f.buffer data
    (Nat.mod_lt (f.readPosition + f.dataLength + offset) hpos) (show n ≤ _ by omega) hj
  rw [Nat.mod_add_mod] at hcopy
  exact hcopy

theorem freeCell_stored (hn : f.dataLength + offset + n ≤ f.bufferLength) {i : ℕ}
    (hi : i < f.bufferLength - f.dataLength) :
    (f.stored data n offset).freeCell i =
      if offset ≤ i ∧ i < offset + n then data (i - offset) else f.freeCell i := by
  have hpos : 0 < f.bufferLength := by omega
  change (f.stored data n offset).buffer _ = _
  by_cases hoff : offset ≤ i
  · obtain ⟨j, rfl⟩ := Nat.exists_eq_add_of_le hoff
    have := stored_cell data hn hpos (j := j) (by omega)
    rw [show (f.stored data n offset).readPosition = f.readPosition from rfl,
      show (f.stored data n offset).dataLength = f.dataLength from rfl,
      show (f.stored data n offset).bufferLength = f.bufferLength from rfl, ← Nat.add_assoc, this]
    by_cases hj : j < n
    · rw [if_pos hj, if_pos (by omega), Nat.add_sub_cancel_left]
    · rw [if_neg hj, if_neg (by omega), freeCell, ← Nat.add_assoc]
  · -- a cell before the copy is reached from its start by going round the ring
    have := stored_cell data hn hpos (j := f.bufferLength - offset + i) (by omega)
    have hround : (f.readPosition + f.dataLength + offset + (f.bufferLength - offset + i)) %
        f.bufferLength = (f.readPosition + f.dataLength + i) % f.bufferLength := by
      rw [show f.readPosition + f.dataLength + offset + (f.bufferLength - offset + i) =
        f.readPosition + f.dataLength + i + f.bufferLength by omega, Nat.add_mod_right]
    rw [hround, if_neg (by omega)] at this
    rw [if_neg (by omega)]
    exact this

theorem contents_stored (hn : f.dataLength + offset + n ≤ f.bufferLength) :
    (f.stored data n offset).contents = f.contents := by
  by_cases hpos : 0 < f.dataLength
  · refine ringBlock_congr fun i hi => ?_
    have hi' : i < f.dataLength := hi
    have := stored_cell data hn (by omega)
      (j := f.bufferLength - f.dataLength - offset + i) (by omega)
    have hround : (f.readPosition + f.dataLength + offset +
        (f.bufferLength - f.dataLength - offset + i)) % f.bufferLength =
          (f.readPosition + i) % f.bufferLength := by
      rw [show f.readPosition + f.dataLength + offset +
        (f.bufferLength - f.dataLength - offset + i) = f.readPosition + i + f.bufferLength by omega,
        Nat.add_mod_right]
    rw [hround, if_neg (by omega)] at this
    exact this
  · rw [contents_eq_nil.mpr (show f.dataLength = 0 by omega),
      contents_eq_nil.mpr (show (f.stored data n offset).dataLength = 0 from by
        change f.dataLength = 0; omega)]

end Stored

theorem contents_grow (n : ℕ) :
    ({ f with dataLength := f.dataLength + n } : FifoBuffer).contents =
      f.contents ++ block f.freeCell 0 n := by
  simp only [contents]
  rw [ringBlock_add]
  congr 1
  simp only [ringBlock, block, freeCell, Nat.zero_add]

theorem Valid.grow (h : f.Valid) (hn : f.dataLength + n ≤ f.bufferLength) :
    ({ f with dataLength := f.dataLength + n } : FifoBuffer).Valid := ⟨hn, h.pos⟩

theorem freeCell_grow (n i : ℕ) :
    ({ f with dataLength := f.dataLength + n } : FifoBuffer).freeCell i = f.freeCell (n + i) := by
  simp only [freeCell, Nat.add_assoc]

@[simp] theorem contents_consumeWriteBuffer (n : ℕ) :
    (f.consumeWriteBuffer n).contents = f.contents ++ block f.freeCell 0 n := by
  rw [consumeWriteBuffer, contents_postIf, contents_grow]

theorem Valid.consumeWriteBuffer (h : f.Valid)
    (hn : f.dataLength + n ≤ f.bufferLength) : (f.consumeWriteBuffer n).Valid :=
  (h.grow hn).postIf _ _

@[simp] theorem freeCell_consumeWriteBuffer (n i : ℕ) : (f.consumeWriteBuffer n).freeCell i = f.freeCell (n + i) := by
  rw [FifoBuffer.consumeWriteBuffer, freeCell_postIf, freeCell_grow]

@[simp] theorem consumeWriteBuffer_bufferLength (n : ℕ) : (f.consumeWriteBuffer n).bufferLength = f.bufferLength := by
  simp [FifoBuffer.consumeWriteBuffer]

@[simp] theorem consumeWriteBuffer_dataLength (n : ℕ) : (f.consumeWriteBuffer n).dataLength = f.dataLength + n := by
  simp [FifoBuffer.consumeWriteBuffer]

@[simp] theorem consumeWriteBuffer_state (n : ℕ) : (f.consumeWriteBuffer n).state = f.state := by
  simp [FifoBuffer.consumeWriteBuffer]

def afterWrite (f : FifoBuffer) (data : ℕ → Uint8) (n : ℕ) : FifoBuffer :=
  (f.stored data n 0).consumeWriteBuffer n

/-- **`Write` appends as much as fits**. -/
theorem write_spec (hopen : f.state ≠ .closed) (data : ℕ → Uint8) (bytes : ℕ) :
    f.write data bytes =
      if f.dataLength < f.bufferLength then
        (.success, min bytes (f.bufferLength - f.dataLength),
          f.afterWrite data (min bytes (f.bufferLength - f.dataLength)))
      else (.block, 0, f) := by
  have hw := writeOffset_spec hopen data bytes 0
  rw [writeOffset] at hw
  unfold write
  rw [hw]
  by_cases h : f.dataLength < f.bufferLength
  · simp only [Nat.add_zero, Nat.sub_zero, if_pos h]
    rfl
  · simp only [Nat.add_zero, if_neg h]

theorem Valid.afterWrite (h : f.Valid) {data : ℕ → Uint8}
    (hn : f.dataLength + n ≤ f.bufferLength) : (f.afterWrite data n).Valid :=
  Valid.consumeWriteBuffer (f := f.stored data n 0) h.stored hn

/-- Writing appends the bytes. -/
theorem contents_afterWrite {data : ℕ → Uint8} (hn : f.dataLength + n ≤ f.bufferLength) :
    (f.afterWrite data n).contents = f.contents ++ block data 0 n := by
  rw [FifoBuffer.afterWrite, contents_consumeWriteBuffer, contents_stored (by omega)]
  congr 1
  refine List.map_congr_left fun i hi => ?_
  have hi := List.mem_range.mp hi
  rw [Nat.zero_add, freeCell_stored (by omega) (by omega), if_pos (by omega), Nat.sub_zero]

@[simp] theorem afterWrite_bufferLength (data : ℕ → Uint8) (n : ℕ) :
    (f.afterWrite data n).bufferLength = f.bufferLength := by
  rw [FifoBuffer.afterWrite, consumeWriteBuffer_bufferLength]; rfl

@[simp] theorem afterWrite_dataLength (data : ℕ → Uint8) (n : ℕ) :
    (f.afterWrite data n).dataLength = f.dataLength + n := by
  rw [FifoBuffer.afterWrite, consumeWriteBuffer_dataLength]; rfl

@[simp] theorem afterWrite_state (data : ℕ → Uint8) (n : ℕ) : (f.afterWrite data n).state = f.state := by
  rw [FifoBuffer.afterWrite, consumeWriteBuffer_state]; rfl

/-! ## Resizing -/

@[simp] theorem setCapacity_dataLength (size : ℕ) (mem : ℕ → Uint8) :
    (f.setCapacity size mem).2.dataLength = f.dataLength := by
  unfold setCapacity
  split_ifs <;> rfl

/-- **`SetCapacity` keeps the contents** where they fit. -/
theorem setCapacity_spec (h : f.Valid) (size : ℕ) (mem : ℕ → Uint8) :
    let r := f.setCapacity size mem
    r.1 = decide (f.dataLength ≤ size) ∧ r.2.Valid ∧ r.2.state = f.state ∧
      r.2.contents = f.contents ∧ r.2.dataLength = f.dataLength ∧
      r.2.bufferLength = if f.dataLength ≤ size then size else f.bufferLength := by
  intro r
  by_cases hfit : f.dataLength ≤ size
  · by_cases hsize : size = f.bufferLength
    · subst hsize
      have hr : r = (true, f) := by
        simp only [r, setCapacity, if_neg (Nat.not_lt.mpr hfit), ne_eq, not_true_eq_false,
          if_false]
      rw [hr]
      simp [hfit, h]
    · have hr : r = (true, { f with
          buffer := memcpy (memcpy mem 0 (fun i => f.buffer (f.readPosition + i))
            (min f.dataLength (f.bufferLength - f.readPosition)))
              (min f.dataLength (f.bufferLength - f.readPosition)) f.buffer
              (f.dataLength - min f.dataLength (f.bufferLength - f.readPosition)),
          readPosition := 0, bufferLength := size }) := by
        simp only [r, setCapacity, if_neg (Nat.not_lt.mpr hfit), ne_eq, hsize, not_false_eq_true,
          if_true]
      rw [hr]
      refine ⟨by simp [hfit], ⟨hfit, fun hpos => hpos⟩, rfl, ?_, rfl, by simp [hfit]⟩
      -- both rings are read through the same indices: first the tail of the old one, then its head
      simp only [contents]
      refine List.map_congr_left fun i hi => ?_
      have hi := List.mem_range.mp hi
      have hle := h.le
      have hpos := h.pos (by omega)
      rw [Nat.zero_add, Nat.mod_eq_of_lt (by omega)]
      by_cases hw : f.readPosition + i < f.bufferLength
      · rw [memcpy_of_not_mem (by omega), memcpy_of_mem (by omega), Nat.mod_eq_of_lt hw,
          Nat.sub_zero]
      · rw [memcpy_of_mem (by omega), Nat.mod_eq_sub_mod (by omega), Nat.mod_eq_of_lt (by omega)]
        congr 1
        omega
  · have hr : r = (false, f) := by simp only [r, setCapacity, if_pos (Nat.not_le.mp hfit)]
    rw [hr]
    simp [hfit, h]

end FifoBuffer

end Libjingle
