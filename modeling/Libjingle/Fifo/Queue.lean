import Libjingle.Fifo.Spec
import Libjingle.Lib.Run

/-!
# `FifoBuffer` refines a bounded byte queue

Main result: **`fifoBuffer_refines_boundedQueue`**.
-/

namespace Libjingle

open Lib

/-! ## The queue -/

/-- A queue of at most `capacity` items. -/
structure BoundedQueue (α : Type) where
  capacity : ℕ
  items : List α
  fits : items.length ≤ capacity

namespace BoundedQueue

variable {α : Type}

@[ext] theorem ext {q q' : BoundedQueue α} (hc : q.capacity = q'.capacity) (hi : q.items = q'.items) : q = q' := by
  cases q; cases q'; simp_all

def empty (n : ℕ) : BoundedQueue α := ⟨n, [], Nat.zero_le n⟩

def free (q : BoundedQueue α) : ℕ := q.capacity - q.items.length

def push (q : BoundedQueue α) (xs : List α) : BoundedQueue α where
  capacity := q.capacity
  items := q.items ++ xs.take q.free
  fits := by have := q.fits; simp [free]; omega

/-- Remove up to `n` items from the front. -/
def pop (q : BoundedQueue α) (n : ℕ) : BoundedQueue α where
  capacity := q.capacity
  items := q.items.drop n
  fits := by have := q.fits; simp; omega

def resize (q : BoundedQueue α) (n : ℕ) : BoundedQueue α :=
  if h : q.items.length ≤ n then ⟨n, q.items, h⟩ else q

end BoundedQueue

/-! ## Operations of the ring -/

/-- The operations on an open stream. `writeBuffer` is a `GetWriteBuffer`, the filling of the block,
and `ConsumeWriteBuffer`. -/
inductive FifoOp where
  | read (bytes : ℕ)
  | write (data : ℕ → Uint8) (bytes : ℕ)
  | readOffset (bytes offset : ℕ)
  | consumeReadData (size : ℕ)
  | setCapacity (size : ℕ) (mem : ℕ → Uint8)
  | getReadData
  | writeBuffer (data : ℕ → Uint8) (size : ℕ)

/-- What a client sees of an operation. -/
inductive FifoOut where
  | data (result : StreamResult) (bytes : List Uint8)
  | count (result : StreamResult) (written : ℕ)
  | flag (ok : Bool)
  | block (bytes : List Uint8)
  | space (size : ℕ)
  | none
  deriving DecidableEq

namespace FifoBuffer

def step (f : FifoBuffer) : FifoOp → FifoOut × FifoBuffer
  | .read bytes => let r := f.read bytes; (.data r.1 r.2.1, r.2.2)
  | .write data bytes => let r := f.write data bytes; (.count r.1 r.2.1, r.2.2)
  | .readOffset bytes offset => let r := f.readOffset bytes offset; (.data r.1 r.2, f)
  | .consumeReadData size => (.none, f.consumeReadData size)
  | .setCapacity size mem => let r := f.setCapacity size mem; (.flag r.1, r.2)
  | .getReadData => (.block (Lib.block f.getReadData.2 0 f.getReadData.1), f)
  | .writeBuffer data size =>
    match f.getWriteBuffer with
    | (some (position, room), f') =>
      (.space room, (f'.fill position data room).consumeWriteBuffer size)
    | (none, f') => (.none, f')

def Legal (f : FifoBuffer) : FifoOp → Prop
  | .consumeReadData size => size ≤ f.getBuffered
  | .setCapacity size _ => 1 ≤ size
  | .writeBuffer _ size => size ≤ (f.getWriteBuffer.1.getD (0, 0)).2
  | _ => True

instance (f : FifoBuffer) : (op : FifoOp) → Decidable (f.Legal op)
  | .consumeReadData size => inferInstanceAs (Decidable (size ≤ f.getBuffered))
  | .setCapacity size _ => inferInstanceAs (Decidable (1 ≤ size))
  | .writeBuffer _ size => inferInstanceAs (Decidable (size ≤ (f.getWriteBuffer.1.getD (0, 0)).2))
  | .read _ | .write _ _ | .readOffset _ _ | .getReadData => isTrue trivial

end FifoBuffer

/-- **What each operation shows of the queue**. -/
def BoundedQueue.Meets (q : BoundedQueue Uint8) (op : FifoOp) (out : FifoOut)
    (q' : BoundedQueue Uint8) : Prop :=
  match op with
  | .read bytes =>
    out = .data (if q.items = [] then .block else .success) (q.items.take bytes) ∧
      q' = q.pop bytes
  | .write data bytes =>
    out = .count (if q.free = 0 then .block else .success) (min bytes q.free) ∧
      q' = q.push (block data 0 bytes)
  | .readOffset bytes offset =>
    out = .data (if offset < q.items.length then .success else .block)
      ((q.items.drop offset).take bytes) ∧ q' = q
  | .consumeReadData size => out = .none ∧ q' = q.pop size
  | .setCapacity size _ => out = .flag (decide (q.items.length ≤ size)) ∧ q' = q.resize size
  | .getReadData =>
    (∃ xs, out = .block xs ∧ xs <+: q.items ∧ (q.items ≠ [] → xs ≠ [])) ∧ q' = q
  | .writeBuffer data size =>
    (∃ room, out = .space room ∧ room ≤ q.free ∧ (0 < q.free → 0 < room) ∧ size ≤ room) ∧
      q' = q.push (block data 0 size)

namespace FifoBuffer

/-- The ring `f` holds the queue `q`. -/
structure Represents (f : FifoBuffer) (q : BoundedQueue Uint8) : Prop where
  valid : f.Valid
  pos : 0 < f.bufferLength
  isOpen : f.state = .open
  capacity : q.capacity = f.bufferLength
  items : q.items = f.contents

variable {f : FifoBuffer} {q : BoundedQueue Uint8}

theorem Represents.length (h : f.Represents q) : q.items.length = f.dataLength := by
  rw [h.items, length_contents]

theorem Represents.free (h : f.Represents q) : q.free = f.bufferLength - f.dataLength := by
  rw [BoundedQueue.free, h.capacity, h.length]

theorem Represents.not_closed (h : f.Represents q) : f.state ≠ .closed := by simp [h.isOpen]

theorem represents_new {n : ℕ} (hn : 1 ≤ n) (mem : ℕ → Uint8) : (new n mem).Represents (BoundedQueue.empty n) :=
  ⟨valid_new n mem, hn, rfl, rfl, rfl⟩

/-! ## The operations, one at a time -/

theorem Represents.afterRead (h : f.Represents q) {n : ℕ} (hn : n ≤ f.dataLength) :
    (f.afterRead n).Represents (q.pop n) :=
  ⟨h.valid.afterRead hn, by simpa using h.pos, by simpa using h.isOpen,
    h.capacity.trans (afterRead_bufferLength n).symm, by rw [contents_afterRead, ← h.items]; rfl⟩

theorem pop_min (q : BoundedQueue Uint8) (n : ℕ) : q.pop (min n q.items.length) = q.pop n := by
  refine BoundedQueue.ext rfl ?_
  simp only [BoundedQueue.pop]
  rcases Nat.le_total n q.items.length with h | h
  · rw [Nat.min_eq_left h]
  · rw [Nat.min_eq_right h, List.drop_length, List.drop_eq_nil_of_le h]

theorem read_refines (h : f.Represents q) (bytes : ℕ) :
    ∃ q', q.Meets (.read bytes) (f.step (.read bytes)).1 q' ∧
      (f.step (.read bytes)).2.Represents q' := by
  refine ⟨q.pop bytes, ⟨?_, rfl⟩, ?_⟩
  · simp only [step, read_spec h.valid]
    by_cases hpos : 0 < f.dataLength
    · have hne : q.items ≠ [] := by rw [h.items, ne_eq, contents_eq_nil]; omega
      simp only [if_pos hpos, if_neg hne, ← h.items]
    · have hnil : q.items = [] := by rw [h.items, contents_eq_nil]; omega
      simp [hpos, hnil, h.not_closed]
  · simp only [step, read_spec h.valid]
    by_cases hpos : 0 < f.dataLength
    · simp only [if_pos hpos]
      rw [← pop_min, h.length]
      exact h.afterRead (Nat.min_le_right _ _)
    · simp only [if_neg hpos]
      have hpop : q.pop bytes = q := BoundedQueue.ext rfl (by
        have hnil : q.items = [] := by rw [h.items, contents_eq_nil]; omega
        simp [BoundedQueue.pop, hnil])
      rwa [hpop]

theorem Represents.push (h : f.Represents q) {f' : FifoBuffer} {data : ℕ → Uint8} {n : ℕ}
    (hn : f.dataLength + n ≤ f.bufferLength) (hv : f'.Valid)
    (hlen : f'.bufferLength = f.bufferLength) (hstate : f'.state = f.state)
    (hc : f'.contents = f.contents ++ block data 0 n) :
    f'.Represents (q.push (block data 0 n)) := by
  refine ⟨hv, hlen ▸ h.pos, hstate.trans h.isOpen, h.capacity.trans hlen.symm, ?_⟩
  simp only [BoundedQueue.push]
  rw [hc, h.items, List.take_of_length_le (by rw [length_block, h.free]; omega)]

theorem take_block (data : ℕ → Uint8) (p n k : ℕ) : (block data p n).take k = block data p (min k n) := by
  simp only [block, ← List.map_take, List.take_range]

theorem push_min (q : BoundedQueue Uint8) (data : ℕ → Uint8) (n : ℕ) :
    q.push (block data 0 (min n q.free)) = q.push (block data 0 n) := by
  refine BoundedQueue.ext rfl ?_
  simp only [BoundedQueue.push, take_block]
  congr 2
  omega

theorem write_refines (h : f.Represents q) (data : ℕ → Uint8) (bytes : ℕ) :
    ∃ q', q.Meets (.write data bytes) (f.step (.write data bytes)).1 q' ∧
      (f.step (.write data bytes)).2.Represents q' := by
  refine ⟨q.push (block data 0 bytes), ⟨?_, rfl⟩, ?_⟩
  · simp only [step, write_spec h.not_closed, h.free]
    by_cases hroom : f.dataLength < f.bufferLength
    · simp only [if_pos hroom, if_neg (show f.bufferLength - f.dataLength ≠ 0 by omega)]
    · simp only [if_neg hroom, show f.bufferLength - f.dataLength = 0 by omega, Nat.min_zero,
        if_true]
  · simp only [step, write_spec h.not_closed]
    by_cases hroom : f.dataLength < f.bufferLength
    · simp only [if_pos hroom]
      have hn : f.dataLength + min bytes (f.bufferLength - f.dataLength) ≤ f.bufferLength := by
        omega
      rw [← push_min, h.free]
      exact h.push hn (h.valid.afterWrite hn) (by simp) (by simp) (contents_afterWrite hn)
    · simp only [if_neg hroom]
      have hpush : q.push (block data 0 bytes) = q := BoundedQueue.ext rfl (by
        simp [BoundedQueue.push, h.free, show f.bufferLength - f.dataLength = 0 by omega])
      rwa [hpush]

theorem readOffset_refines (h : f.Represents q) (bytes offset : ℕ) :
    ∃ q', q.Meets (.readOffset bytes offset) (f.step (.readOffset bytes offset)).1 q' ∧
      (f.step (.readOffset bytes offset)).2.Represents q' := by
  refine ⟨q, ⟨?_, rfl⟩, h⟩
  simp only [step, readOffset_spec h.valid, h.length, ← h.items]
  by_cases hoff : offset < f.dataLength
  · simp only [if_pos hoff]
  · simp only [if_neg hoff, ne_eq, h.not_closed, not_false_eq_true, if_true]
    rw [List.drop_eq_nil_of_le (by rw [h.length]; omega), List.take_nil]

theorem setCapacity_refines (h : f.Represents q) {size : ℕ} (hsize : 1 ≤ size) (mem : ℕ → Uint8) :
    ∃ q', q.Meets (.setCapacity size mem) (f.step (.setCapacity size mem)).1 q' ∧
      (f.step (.setCapacity size mem)).2.Represents q' := by
  obtain ⟨hok, hv, hst, hc, -, hlen⟩ := setCapacity_spec h.valid size mem
  refine ⟨q.resize size, ⟨?_, rfl⟩, hv, ?_, hst.trans h.isOpen, ?_, ?_⟩
  · simp only [step, hok, h.length]
  · change 0 < (f.setCapacity size mem).2.bufferLength
    rw [hlen]
    split_ifs
    · omega
    · exact h.pos
  · change (q.resize size).capacity = (f.setCapacity size mem).2.bufferLength
    rw [hlen, ← h.length, BoundedQueue.resize]
    split_ifs
    · rfl
    · exact h.capacity
  · change (q.resize size).items = (f.setCapacity size mem).2.contents
    rw [hc, BoundedQueue.resize]
    split_ifs <;> exact h.items

theorem getReadData_spec (h : f.Valid) (hz : 0 < f.bufferLength) :
    block f.getReadData.2 0 f.getReadData.1 = f.contents.take f.getReadData.1 ∧
      (0 < f.dataLength → 0 < f.getReadData.1) := by
  have hle := h.le
  have hrp := h.pos hz
  constructor
  · rw [contents, take_ringBlock]
    simp only [getReadData]
    split_ifs with hw
    · rw [Nat.min_self, ringBlock_eq_block hw]
      simp [block]
    · rw [Nat.min_eq_left (by omega), ringBlock_eq_block (by omega)]
      simp [block]
  · intro hpos
    simp only [getReadData]
    split_ifs <;> omega

theorem getReadData_refines (h : f.Represents q) :
    ∃ q', q.Meets .getReadData (f.step .getReadData).1 q' ∧
      (f.step .getReadData).2.Represents q' := by
  obtain ⟨hblock, hpos⟩ := getReadData_spec h.valid h.pos
  refine ⟨q, ⟨⟨_, rfl, ?_, ?_⟩, rfl⟩, h⟩
  · rw [hblock, h.items]
    exact List.take_prefix _ _
  · intro hne
    rw [h.items, ne_eq, contents_eq_nil] at hne
    rw [hblock, ne_eq, ← List.length_eq_zero_iff, List.length_take, length_contents]
    have := hpos (by omega)
    omega

theorem getWriteBuffer_spec (h : f.Valid) (hpos : 0 < f.bufferLength) (hopen : f.state ≠ .closed) :
    ∃ position room f', f.getWriteBuffer = (some (position, room), f') ∧ f'.Valid ∧
      f'.state = f.state ∧ f'.bufferLength = f.bufferLength ∧ f'.dataLength = f.dataLength ∧
      f'.contents = f.contents ∧
      position = (f'.readPosition + f'.dataLength) % f'.bufferLength ∧
      position + room ≤ f.bufferLength ∧ room ≤ f.bufferLength - f.dataLength ∧
      (0 < f.bufferLength - f.dataLength → 0 < room) := by
  have hle := h.le
  have hrp := h.pos hpos
  by_cases hz : f.dataLength = 0
  · refine ⟨0, f.bufferLength, { f with readPosition := 0 }, ?_, ⟨hle, id⟩, rfl, rfl, rfl, ?_, ?_,
      by omega⟩
    · simp [getWriteBuffer, hopen, hz]
    · simp [contents, hz]
    · simp [hz]
  · have hget : f.getWriteBuffer = (some ((f.readPosition + f.dataLength) % f.bufferLength,
        if (f.readPosition + f.dataLength) % f.bufferLength > f.readPosition then
          f.bufferLength - (f.readPosition + f.dataLength) % f.bufferLength
        else f.readPosition - (f.readPosition + f.dataLength) % f.bufferLength), f) := by
      simp [getWriteBuffer, hopen, hz]
    refine ⟨_, _, f, hget, h, rfl, rfl, rfl, rfl, rfl, ?_⟩
    by_cases hw : f.readPosition + f.dataLength < f.bufferLength
    · rw [Nat.mod_eq_of_lt hw, if_pos (by omega)]
      omega
    · have hmod : (f.readPosition + f.dataLength) % f.bufferLength =
          f.readPosition + f.dataLength - f.bufferLength := by
        rw [Nat.mod_eq_sub_mod (by omega), Nat.mod_eq_of_lt (by omega)]
      rw [hmod, if_neg (by omega)]
      omega

theorem fill_eq_stored {position room : ℕ} (data : ℕ → Uint8)
    (hp : position = (f.readPosition + f.dataLength) % f.bufferLength)
    (hroom : position + room ≤ f.bufferLength) :
    f.fill position data room = f.stored data room 0 := by
  unfold fill stored
  simp only [Nat.add_zero, ← hp, Nat.min_eq_left (show room ≤ f.bufferLength - position by omega),
    Nat.sub_self, memcpy_zero]

theorem writeBuffer_refines (h : f.Represents q) (data : ℕ → Uint8) {size : ℕ}
    (hsize : f.Legal (.writeBuffer data size)) :
    ∃ q', q.Meets (.writeBuffer data size) (f.step (.writeBuffer data size)).1 q' ∧
      (f.step (.writeBuffer data size)).2.Represents q' := by
  obtain ⟨position, room, f', hget, hv, hst, hbl, hdl, hc, hp, hend, hroom, hne⟩ :=
    getWriteBuffer_spec h.valid h.pos h.not_closed
  have hle := h.valid.le
  have hsz : size ≤ room := by simpa [Legal, hget] using hsize
  have hfill := fill_eq_stored data hp (hend.trans_eq hbl.symm)
  refine ⟨q.push (block data 0 size), ⟨⟨room, by simp [step, hget], ?_, ?_, hsz⟩, rfl⟩, ?_⟩
  · rwa [h.free]
  · rwa [h.free]
  · simp only [step, hget]
    rw [hfill]
    refine h.push (by omega) ?_ ?_ ?_ ?_
    · exact (hv.stored).consumeWriteBuffer (by change f'.dataLength + size ≤ f'.bufferLength; omega)
    · rw [consumeWriteBuffer_bufferLength]; exact hbl
    · rw [consumeWriteBuffer_state]; exact hst
    · rw [contents_consumeWriteBuffer, contents_stored (by omega), hc]
      congr 1
      refine List.map_congr_left fun i hi => ?_
      have hi := List.mem_range.mp hi
      rw [Nat.zero_add, freeCell_stored (by omega) (by omega), if_pos (by omega), Nat.sub_zero]

theorem step_refines (h : f.Represents q) (op : FifoOp) (hl : f.Legal op) :
    ∃ q', q.Meets op (f.step op).1 q' ∧ (f.step op).2.Represents q' := by
  cases op with
  | read bytes => exact read_refines h bytes
  | write data bytes => exact write_refines h data bytes
  | readOffset bytes offset => exact readOffset_refines h bytes offset
  | consumeReadData size => exact ⟨q.pop size, ⟨rfl, rfl⟩, h.afterRead hl⟩
  | setCapacity size mem => exact setCapacity_refines h hl mem
  | getReadData => exact getReadData_refines h
  | writeBuffer data size => exact writeBuffer_refines h data hl

end FifoBuffer

/-- **`FifoBuffer` refines a bounded byte queue** of its capacity. -/
theorem fifoBuffer_refines_boundedQueue (n : ℕ) (hn : 1 ≤ n) (mem : ℕ → Uint8) (ops : List FifoOp)
    (hl : Guarded (fun f op => (FifoBuffer.step f op).2) FifoBuffer.Legal (.new n mem) ops) :
    ∃ q, SpecTrace BoundedQueue.Meets (.empty n) (observe FifoBuffer.step (.new n mem) ops) q ∧
      (run (fun f op => (FifoBuffer.step f op).2) (.new n mem) ops).Represents q :=
  forward_simulation (R := FifoBuffer.Represents)
    (fun _ _ op hR hG => FifoBuffer.step_refines hR op hG) (FifoBuffer.represents_new hn mem) hl

def wrapOps : List FifoOp :=
  [.write (fun i => BitVec.ofNat 8 i) 3, .read 2, .writeBuffer (fun i => BitVec.ofNat 8 (7 + i)) 2,
    .readOffset 2 1, .setCapacity 5 (fun _ => 0), .getReadData, .consumeReadData 3]

theorem wrapOps_refines :
    ∃ q, SpecTrace BoundedQueue.Meets (.empty 3)
        (observe FifoBuffer.step (.new 3 fun _ => 0) wrapOps) q ∧
      (run (fun f op => (FifoBuffer.step f op).2) (.new 3 fun _ => 0) wrapOps).Represents q :=
  fifoBuffer_refines_boundedQueue 3 (by decide) (fun _ => 0) wrapOps (by decide)

end Libjingle
