import Libjingle.Lib.Run
import Libjingle.Base.ByteBuffer

/-!
# `ByteBuffer` refines a byte queue

Main results: **`byteBuffer_refines_byteQueue`**, **`reserve_drops_bytes`**.

* `ByteBuffer.Valid`, `unread`, `from`: the views of the storage; each operation has one lemma.
-/

variable {len : ℕ} {bytes mem val : List Uint8} {order : ByteOrder} {c : BufferClient}

namespace Libjingle

open Lib

/-! ## The queue -/

/-- The bytes to be read. A mark is a saved position with the bytes from there on, while these are
stored. -/
structure ByteQueue where
  bytes : List Uint8
  marks : List (Option (List Uint8)) := []

namespace ByteQueue

def push (q : ByteQueue) (val : List Uint8) : ByteQueue :=
  ⟨q.bytes ++ val, q.marks.map (Option.map (· ++ val))⟩

def reset (q : ByteQueue) (bytes : List Uint8) : ByteQueue := ⟨bytes, q.marks.map fun _ => none⟩

end ByteQueue

/-- A number in `n` bytes, on a host of either kind. -/
def encodeWord (hostBigEndian : Bool) (order : ByteOrder) (n v : ℕ) : List Uint8 :=
  if order = .orderNetwork || hostBigEndian then beBytes n v else (beBytes n v).reverse

/-! ## The operations -/

/-- The operations of a client. `setReadPosition i` is about its `i`th saved position. -/
inductive BufferOp
  | writeUInt8 (val : Uint8)
  | writeUInt16 (val : Uint16)
  | writeUInt24 (val : Uint32)
  | writeUInt32 (val : Uint32)
  | writeUInt64 (val : Uint64)
  | writeString (val : List Uint8)
  | writeBytes (val : List Uint8)
  | reserveWriteBuffer (len : Uint64)
  | readUInt8
  | readUInt16
  | readUInt24
  | readUInt32
  | readUInt64
  | readString (len : Uint64)
  | readBytes (len : Uint64)
  | consume (size : Uint64)
  | resize (size : Uint64)
  | clear
  | getReadPosition
  | setReadPosition (i : ℕ)

/-- What a client sees of an operation. -/
inductive BufferOut
  | done
  | flag (ok : Bool)
  | bytes (val : Option (List Uint8))
  | word (val : Option ℕ)
  deriving DecidableEq

/-- A buffer and the positions that the client has saved. -/
structure BufferClient where
  buffer : ByteBuffer
  positions : List ReadPosition := []

namespace BufferClient

variable (hostBigEndian : Bool)

/-- One operation, with the memory it may allocate. -/
def step (c : BufferClient) (op : BufferOp × (ℕ → Uint8)) : BufferOut × BufferClient :=
  let b := c.buffer
  match op.1 with
  | .writeUInt8 val => (.done, { c with buffer := b.writeUInt8 val op.2 })
  | .writeUInt16 val => (.done, { c with buffer := b.writeUInt16 hostBigEndian val op.2 })
  | .writeUInt24 val => (.done, { c with buffer := b.writeUInt24 hostBigEndian val op.2 })
  | .writeUInt32 val => (.done, { c with buffer := b.writeUInt32 hostBigEndian val op.2 })
  | .writeUInt64 val => (.done, { c with buffer := b.writeUInt64 hostBigEndian val op.2 })
  | .writeString val => (.done, { c with buffer := b.writeString val op.2 })
  | .writeBytes val => (.done, { c with buffer := b.writeBytes val op.2 })
  | .reserveWriteBuffer len => (.done, { c with buffer := (b.reserveWriteBuffer len.toNat op.2).2 })
  | .readUInt8 => (.word (b.readUInt8.1.map (·.toNat)), { c with buffer := b.readUInt8.2 })
  | .readUInt16 =>
    let r := b.readUInt16 hostBigEndian
    (.word (r.1.map (·.toNat)), { c with buffer := r.2 })
  | .readUInt24 =>
    let r := b.readUInt24 hostBigEndian
    (.word (r.1.map (·.toNat)), { c with buffer := r.2 })
  | .readUInt32 =>
    let r := b.readUInt32 hostBigEndian
    (.word (r.1.map (·.toNat)), { c with buffer := r.2 })
  | .readUInt64 =>
    let r := b.readUInt64 hostBigEndian
    (.word (r.1.map (·.toNat)), { c with buffer := r.2 })
  | .readString len => let r := b.readString len.toNat; (.bytes r.1, { c with buffer := r.2 })
  | .readBytes len => let r := b.readBytes len.toNat; (.bytes r.1, { c with buffer := r.2 })
  | .consume size => let r := b.consume size.toNat; (.flag r.1, { c with buffer := r.2 })
  | .resize size => (.done, { c with buffer := b.resize size.toNat op.2 })
  | .clear => (.done, { c with buffer := b.clear })
  | .getReadPosition => (.done, { c with positions := c.positions ++ [b.getReadPosition] })
  | .setReadPosition i =>
    match c.positions[i]? with
    | none => (.flag false, c)
    | some p => let r := b.setReadPosition p; (.flag r.1, { c with buffer := r.2 })

end BufferClient

def BufferOp.written : BufferOp → ℕ
  | .writeUInt8 _ => 1
  | .writeUInt16 _ => 2
  | .writeUInt24 _ => 3
  | .writeUInt32 _ => 4
  | .writeUInt64 _ => 8
  | .writeString val => val.length
  | .writeBytes val => val.length
  | .reserveWriteBuffer len => len.toNat
  | _ => 0

def BufferClient.Legal (c : BufferClient) (op : BufferOp × (ℕ → Uint8)) : Prop :=
  c.buffer.length + op.1.written < sizeMod ∧
  match op.1 with
  | .setReadPosition i =>
    ∀ p ∈ c.positions[i]?, p.version % versionMod = c.buffer.version % versionMod →
      p.version = c.buffer.version
  | _ => True

namespace ByteQueue

/-- Reading a word of `n` bytes. -/
def Reads (hostBigEndian : Bool) (order : ByteOrder) (n : ℕ) (q : ByteQueue) (out : BufferOut)
    (q' : ByteQueue) : Prop :=
  if q.bytes.length < n then out = .word none ∧ q' = q
  else ∃ v, out = .word (some v) ∧ v < 256 ^ n ∧ q'.marks = q.marks ∧
    q.bytes = encodeWord hostBigEndian order n v ++ q'.bytes

/-- **What each operation shows of the queue**. -/
def Meets (hostBigEndian : Bool) (order : ByteOrder) (q : ByteQueue) (op : BufferOp × (ℕ → Uint8))
    (out : BufferOut) (q' : ByteQueue) : Prop :=
  match op.1 with
  | .writeUInt8 val => out = .done ∧ q' = q.push (encodeWord hostBigEndian order 1 val.toNat)
  | .writeUInt16 val => out = .done ∧ q' = q.push (encodeWord hostBigEndian order 2 val.toNat)
  | .writeUInt24 val => out = .done ∧ q' = q.push (encodeWord hostBigEndian order 3 val.toNat)
  | .writeUInt32 val => out = .done ∧ q' = q.push (encodeWord hostBigEndian order 4 val.toNat)
  | .writeUInt64 val => out = .done ∧ q' = q.push (encodeWord hostBigEndian order 8 val.toNat)
  | .writeString val => out = .done ∧ q' = q.push val
  | .writeBytes val => out = .done ∧ q' = q.push val
  | .reserveWriteBuffer len => out = .done ∧ ∃ val, val.length = len.toNat ∧ q' = q.push val
  | .readUInt8 => Reads hostBigEndian order 1 q out q'
  | .readUInt16 => Reads hostBigEndian order 2 q out q'
  | .readUInt24 => Reads hostBigEndian order 3 q out q'
  | .readUInt32 => Reads hostBigEndian order 4 q out q'
  | .readUInt64 => Reads hostBigEndian order 8 q out q'
  | .readString len | .readBytes len =>
    if q.bytes.length < len.toNat then out = .bytes none ∧ q' = q
    else out = .bytes (some (q.bytes.take len.toNat)) ∧ q' = { q with bytes := q.bytes.drop len.toNat }
  | .consume size =>
    if q.bytes.length < size.toNat then out = .flag false ∧ q' = q
    else out = .flag true ∧ q' = { q with bytes := q.bytes.drop size.toNat }
  | .resize size => out = .done ∧ q' = q.reset (q.bytes.take (min size.toNat q.bytes.length))
  | .clear => out = .done ∧ q' = q.reset []
  | .getReadPosition => out = .done ∧ q' = { q with marks := q.marks ++ [some q.bytes] }
  | .setReadPosition i =>
    (out = .flag false ∧ q' = q) ∨
      ∃ bytes, q.marks[i]? = some (some bytes) ∧ out = .flag true ∧ q' = { q with bytes := bytes }

end ByteQueue

/-! ## What the operations do to the storage -/

theorem sizeMod_pos : 0 < sizeMod := by
  unfold sizeMod
  exact Nat.two_pow_pos 64

theorem addSize_eq {a b : ℕ} (h : a + b < sizeMod) : addSize a b = a + b := Nat.mod_eq_of_lt h

theorem subSize_eq {a b : ℕ} (hle : b ≤ a) (ha : a < sizeMod) : subSize a b = a - b := by
  rw [subSize, show a + sizeMod - b = a - b + sizeMod by omega, Nat.add_mod_right]
  exact Nat.mod_eq_of_lt (by omega)

namespace ByteBuffer

/-- The readable part is inside the memory, and the memory fits `size_t`. -/
structure Valid (b : ByteBuffer) : Prop where
  start_le : b.start ≤ b.end_
  end_le : b.end_ ≤ b.size
  size_lt : b.size < sizeMod

def stored (b : ByteBuffer) (s : ℕ) : List Uint8 := (b.bytes.take b.end_).drop s

/-- The bytes that are still to be read. -/
abbrev unread (b : ByteBuffer) : List Uint8 := b.stored b.start

variable {b : ByteBuffer} (hv : b.Valid)

include hv in
theorem length_eq : b.length = b.end_ - b.start :=
  subSize_eq hv.start_le (Nat.lt_of_le_of_lt hv.end_le hv.size_lt)

theorem length_stored (h : b.end_ ≤ b.size) (s : ℕ) : (b.stored s).length = b.end_ - s := by
  rw [stored, List.length_drop, List.length_take, ← ByteBuffer.size, Nat.min_eq_left h]

include hv in
theorem length_unread : b.unread.length = b.length := by
  rw [length_stored hv.end_le, length_eq hv]

include hv in
theorem take_drop_start (h : len ≤ b.length) : (b.bytes.drop b.start).take len = b.unread.take len := by
  rw [length_eq hv] at h
  rw [unread, stored, List.drop_take, List.take_take, Nat.min_eq_left h]

include hv in
theorem resize_spec {size : ℕ} (hsize : size < sizeMod) (mem : ℕ → Uint8) :
    (b.resize size mem).Valid ∧ size ≤ (b.resize size mem).size ∧
      (b.resize size mem).start = 0 ∧ (b.resize size mem).end_ = min b.length size ∧
      (b.resize size mem).unread = b.unread.take (min b.length size) ∧
      (b.resize size mem).version = b.version + 1 ∧
      (b.resize size mem).byteOrder = b.byteOrder := by
  have hlen : min b.length size ≤ b.length := Nat.min_le_left _ _
  have hb := length_eq hv
  have hs := hv.start_le
  have he := hv.end_le
  have hlt := hv.size_lt
  have htake := take_drop_start hv hlen
  have hkept : (b.unread.take (min b.length size)).length = min b.length size := by
    rw [List.length_take, length_unread hv]
    omega
  unfold resize
  rw [show subSize b.end_ b.start = b.length from rfl]
  dsimp only
  rw [htake]
  split_ifs with h
  · have hsz : (b.unread.take (min b.length size) ++ b.bytes.drop (min b.length size)).length =
        b.size := by
      rw [List.length_append, hkept, List.length_drop, ← ByteBuffer.size]
      omega
    refine ⟨⟨Nat.zero_le _, ?_, ?_⟩, ?_, rfl, rfl, ?_, rfl, rfl⟩
    · show min b.length size ≤ _
      rw [ByteBuffer.size, hsz]
      omega
    · rwa [ByteBuffer.size, hsz]
    · rwa [ByteBuffer.size, hsz]
    · rw [unread, stored, List.drop_zero, List.take_left' hkept]
  · have hmod := Nat.mod_lt (3 * b.size) sizeMod_pos
    have hnew : max size (3 * b.size % sizeMod / 2) < sizeMod := by omega
    have hle : size ≤ max size (3 * b.size % sizeMod / 2) := Nat.le_max_left _ _
    generalize max size (3 * b.size % sizeMod / 2) = n at hnew hle ⊢
    have hsz : (b.unread.take (min b.length size) ++ (newBytes n mem).drop (min b.length size)).length =
        n := by
      rw [List.length_append, hkept, List.length_drop, newBytes, List.length_map, List.length_range]
      omega
    refine ⟨⟨Nat.zero_le _, ?_, ?_⟩, ?_, rfl, rfl, ?_, rfl, rfl⟩
    · show min b.length size ≤ _
      rw [ByteBuffer.size, hsz]
      omega
    · rwa [ByteBuffer.size, hsz]
    · rwa [ByteBuffer.size, hsz]
    · rw [unread, stored, List.drop_zero, List.take_left' hkept]

/-- `ReserveWriteBuffer`: what was to be read is where it was, or at the start. -/
structure Reserved (b : ByteBuffer) (len : ℕ) (r : ℕ × ByteBuffer) : Prop where
  valid : r.2.Valid
  end_eq : r.2.end_ = r.1 + len
  byteOrder : r.2.byteOrder = b.byteOrder
  place : (r.2.version = b.version ∧ r.2.start = b.start ∧ r.1 = b.end_ ∧ r.2.bytes = b.bytes) ∨
    (r.2.version = b.version + 1 ∧ r.2.start = 0 ∧ r.1 = b.length ∧ r.2.bytes.take r.1 = b.unread)

theorem reserved_grown {b b' : ByteBuffer} (hv' : b'.Valid)
    (hsize : b.length + len ≤ b'.size) (hstart : b'.start = 0) (hend : b'.end_ = b.length)
    (hunread : b'.unread = b.unread) (hversion : b'.version = b.version + 1)
    (horder : b'.byteOrder = b.byteOrder) :
    Reserved b len (b.length, { b' with end_ := b.length + len }) where
  valid := ⟨by show b'.start ≤ _; omega, hsize, hv'.size_lt⟩
  end_eq := rfl
  byteOrder := horder
  place := by
    refine Or.inr ⟨hversion, hstart, rfl, ?_⟩
    rw [unread, stored, hstart, hend, List.drop_zero] at hunread
    exact hunread

include hv in
theorem reserved (hlen : b.length + len < sizeMod) (mem : ℕ → Uint8) :
    Reserved b len (b.reserveWriteBuffer len mem) := by
  have hcap : b.capacity = b.size - b.start := subSize_eq (hv.start_le.trans hv.end_le) hv.size_lt
  unfold reserveWriteBuffer
  rw [addSize_eq hlen]
  by_cases hgrow : b.length + len > b.capacity
  · obtain ⟨hv', hsize, hstart, hend, hunread, hversion, horder⟩ := resize_spec hv hlen mem
    have hall : b.unread.take b.length = b.unread := by rw [← length_unread hv, List.take_length]
    rw [Nat.min_eq_left (Nat.le_add_right _ _)] at hend hunread
    rw [if_pos hgrow]
    dsimp only
    rw [hend, addSize_eq hlen]
    exact reserved_grown hv' hsize hstart hend (hunread.trans hall) hversion horder
  · have hb := length_eq hv
    have hs := hv.start_le
    have he := hv.end_le
    have hlt := hv.size_lt
    have hfits : b.end_ + len ≤ b.size := by omega
    rw [if_neg hgrow]
    dsimp only
    rw [addSize_eq (by omega)]
    exact ⟨⟨Nat.le_add_right_of_le hs, hfits, hlt⟩, rfl, rfl, Or.inl ⟨rfl, rfl, rfl, rfl⟩⟩

/-! ## Marks -/

def Marked (b : ByteBuffer) (p : ReadPosition) (m : Option (List Uint8)) : Prop :=
  p.version ≤ b.version ∧ (p.version = b.version → p.start ≤ b.end_ ∧ m = some (b.stored p.start))

/-- What is stored is followed by `val`, or the version is another one. -/
structure Grown (b : ByteBuffer) (val : List Uint8) (b' : ByteBuffer) : Prop where
  valid : b'.Valid
  byteOrder : b'.byteOrder = b.byteOrder
  unread : b'.unread = b.unread ++ val
  marked : ∀ p m, b.Marked p m → b'.Marked p (m.map (· ++ val))

theorem Reserved.grown {r : ℕ × ByteBuffer} (h : Reserved b len r) (hv : b.Valid) (hsize : bytes.length = r.2.size)
    (hbytes : bytes.take r.2.end_ = r.2.bytes.take r.1 ++ val) :
    Grown b val { r.2 with bytes := bytes } := by
  have hend : r.2.end_ ≤ bytes.length := hsize ▸ h.valid.end_le
  have hstored : ∀ s, stored { r.2 with bytes := bytes } s = (r.2.bytes.take r.1 ++ val).drop s :=
    fun s => by rw [stored, hbytes]
  refine ⟨⟨h.valid.start_le, hend, ?_⟩, h.byteOrder, ?_, ?_⟩
  · show bytes.length < sizeMod
    exact hsize ▸ h.valid.size_lt
  · rw [unread, hstored]
    rcases h.place with ⟨-, hstart, hpos, hmem⟩ | ⟨-, hstart, -, hmem⟩
    · have hle : b.start ≤ (b.bytes.take b.end_).length := by
        rw [List.length_take]
        exact Nat.le_min.mpr ⟨hv.start_le, hv.start_le.trans hv.end_le⟩
      rw [hstart, hpos, hmem, List.drop_append_of_le_length hle]
      rfl
    · rw [hstart, hmem, List.drop_zero]
  · intro p m ⟨hle, hm⟩
    rcases h.place with ⟨hversion, -, hpos, hmem⟩ | ⟨hversion, -, -, -⟩
    · refine ⟨hversion ▸ hle, fun heq => ?_⟩
      obtain ⟨hstart, rfl⟩ := hm (heq.trans hversion)
      have hlen : p.start ≤ (b.bytes.take b.end_).length := by
        rw [List.length_take]
        exact Nat.le_min.mpr ⟨hstart, hstart.trans hv.end_le⟩
      refine ⟨?_, ?_⟩
      · show p.start ≤ r.2.end_
        rw [h.end_eq, hpos]
        omega
      · rw [hstored, hpos, hmem, List.drop_append_of_le_length hlen]
        rfl
    · refine ⟨by show p.version ≤ r.2.version; omega, fun heq => ?_⟩
      have : p.version = r.2.version := heq
      omega

theorem Reserved.grown_stored {r : ℕ × ByteBuffer} (h : Reserved b len r) (hv : b.Valid) :
    (r.2.stored r.1).length = len ∧ Grown b (r.2.stored r.1) r.2 := by
  have hend := h.end_eq
  have hle := h.valid.end_le
  have hpos : r.2.bytes.take r.1 = (r.2.bytes.take r.2.end_).take r.1 := by
    rw [List.take_take, Nat.min_eq_left (by omega)]
  have htake : r.2.bytes.take r.2.end_ = r.2.bytes.take r.1 ++ r.2.stored r.1 := by
    rw [hpos, stored, List.take_append_drop]
  refine ⟨?_, h.grown hv rfl htake⟩
  rw [length_stored hle]
  omega

include hv in
theorem reserveWriteBuffer_grown (hlen : b.length + len < sizeMod) (mem : ℕ → Uint8) :
    ∃ val, val.length = len ∧ Grown b val (b.reserveWriteBuffer len mem).2 :=
  ⟨_, (reserved hv hlen mem).grown_stored hv⟩

include hv in
theorem writeBytes_grown (hlen : b.length + val.length < sizeMod)
    (mem : ℕ → Uint8) : Grown b val (b.writeBytes val mem) := by
  have h := reserved hv hlen mem
  unfold writeBytes
  generalize b.reserveWriteBuffer val.length mem = r at h ⊢
  have hend := h.end_eq
  have hle : r.2.end_ ≤ r.2.bytes.length := h.valid.end_le
  have hpos : (r.2.bytes.take r.1 ++ val).length = r.2.end_ := by
    rw [List.length_append, List.length_take, hend]
    omega
  refine h.grown hv ?_ ?_
  · rw [List.length_append, hpos, List.length_drop, ← hend, ByteBuffer.size]
    omega
  · rw [List.take_left' hpos]

/-! ## Words -/

section Words

variable (hostBigEndian : Bool)

theorem hostBytes_hostWord {n : ℕ} (h : mem.length = n) :
    hostBytes hostBigEndian n (hostWord hostBigEndian n mem) = mem := by
  cases hostBigEndian with
  | true => exact wordBytes_ofNat h
  | false =>
    show (wordBytes n (BitVec.ofNat (8 * n) (beValue mem.reverse))).reverse = mem
    rw [wordBytes_ofNat (by rw [List.length_reverse, h]), List.reverse_reverse]

theorem wordToWrite_eq (b : ByteBuffer) (n : ℕ) (val : BitVec (8 * n)) :
    b.wordToWrite hostBigEndian n val = encodeWord hostBigEndian b.byteOrder n val.toNat := by
  unfold wordToWrite encodeWord hostToNetwork
  cases b.byteOrder with
  | orderNetwork => exact hostBytes_hostWord hostBigEndian (length_wordBytes n val)
  | orderHost => cases hostBigEndian <;> rfl

@[simp] theorem length_encodeWord (order : ByteOrder) (n v : ℕ) :
    (encodeWord hostBigEndian order n v).length = n := by
  unfold encodeWord
  split_ifs <;> simp

/-- The number that `n` bytes encode. -/
def decodeWord (order : ByteOrder) (mem : List Uint8) : ℕ :=
  beValue (if order = .orderNetwork || hostBigEndian then mem else mem.reverse)

theorem decodeWord_lt (order : ByteOrder) (mem : List Uint8) :
    decodeWord hostBigEndian order mem < 256 ^ mem.length := by
  unfold decodeWord
  split_ifs
  · exact beValue_lt mem
  · simpa using beValue_lt mem.reverse

theorem encodeWord_decodeWord (order : ByteOrder) (mem : List Uint8) :
    encodeWord hostBigEndian order mem.length (decodeWord hostBigEndian order mem) = mem := by
  unfold encodeWord decodeWord
  split_ifs
  · exact beBytes_beValue mem
  · have := beBytes_beValue mem.reverse
    rw [List.length_reverse] at this
    rw [this, List.reverse_reverse]

theorem toNat_wordRead (b : ByteBuffer) {n : ℕ} (h : mem.length = n) :
    (b.wordRead hostBigEndian n mem).toNat = decodeWord hostBigEndian b.byteOrder mem := by
  have hlt : decodeWord hostBigEndian b.byteOrder mem < 2 ^ (8 * n) := by
    rw [two_pow_eight_mul, ← h]
    exact decodeWord_lt hostBigEndian b.byteOrder mem
  have hread : b.wordRead hostBigEndian n mem =
      BitVec.ofNat (8 * n) (decodeWord hostBigEndian b.byteOrder mem) := by
    unfold wordRead decodeWord networkToHost
    cases b.byteOrder with
    | orderNetwork =>
      show BitVec.ofNat (8 * n) (beValue (hostBytes hostBigEndian n (hostWord hostBigEndian n mem))) = _
      rw [hostBytes_hostWord hostBigEndian h]
      rfl
    | orderHost => cases hostBigEndian <;> rfl
  rw [hread, BitVec.toNat_ofNat, Nat.mod_eq_of_lt hlt]

theorem writeUInt24_eq (b : ByteBuffer) (val : Uint32) (mem : ℕ → Uint8) :
    b.writeUInt24 hostBigEndian val mem =
      b.writeBytes (encodeWord hostBigEndian b.byteOrder 3 val.toNat) mem := by
  have hword := wordToWrite_eq hostBigEndian b 4 val
  have hnext : beBytes 4 val.toNat = BitVec.ofNat 8 (val.toNat / 256 ^ 3) :: beBytes 3 val.toNat := rfl
  unfold writeUInt24
  dsimp only
  rw [hword]
  unfold encodeWord
  split_ifs
  · rfl
  · rw [hnext, List.reverse_cons, List.take_left' (by simp)]

theorem encodeWord_one (order : ByteOrder) (val : Uint8) : encodeWord hostBigEndian order 1 val.toNat = [val] := by
  have hbytes : beBytes 1 val.toNat = [val] := by simp [beBytes]
  unfold encodeWord
  rw [hbytes]
  split_ifs <;> rfl

theorem decodeWord_one (order : ByteOrder) (h : mem.length = 1) :
    (mem.headD 0).toNat = decodeWord hostBigEndian order mem := by
  obtain ⟨x, rfl⟩ := List.length_eq_one_iff.mp h
  unfold decodeWord
  split_ifs <;> simp [beValue]

theorem decodeWord_three (order : ByteOrder) (mem : List Uint8) :
    decodeWord hostBigEndian order
        (if order = .orderNetwork || hostBigEndian then 0 :: mem else mem ++ [0]) =
      decodeWord hostBigEndian order mem := by
  unfold decodeWord
  split_ifs <;> simp [beValue]

end Words

/-! ## Reading -/

/-- The buffer after `len` bytes were read. -/
def advance (b : ByteBuffer) (len : ℕ) : ByteBuffer := { b with start := b.start + len }

include hv in
theorem advance_valid (h : len ≤ b.length) : (b.advance len).Valid := by
  rw [length_eq hv] at h
  have hs := hv.start_le
  exact ⟨show b.start + len ≤ b.end_ by omega, hv.end_le, hv.size_lt⟩

theorem unread_advance (b : ByteBuffer) (len : ℕ) : (b.advance len).unread = b.unread.drop len := by
  simp only [unread, stored, advance, List.drop_drop]

include hv in
theorem addSize_start (h : len ≤ b.length) : addSize b.start len = b.start + len := by
  rw [length_eq hv] at h
  have hs := hv.start_le
  have he := hv.end_le
  have hlt := hv.size_lt
  exact addSize_eq (by omega)

include hv in
theorem readBytes_eq (len : ℕ) : b.readBytes len =
    if b.unread.length < len then (none, b) else (some (b.unread.take len), b.advance len) := by
  unfold readBytes
  rw [length_unread hv]
  split_ifs with h
  · rfl
  · rw [take_drop_start hv (by omega), addSize_start hv (by omega)]
    rfl

include hv in
theorem consume_eq (size : ℕ) : b.consume size =
    if b.unread.length < size then (false, b) else (true, b.advance size) := by
  unfold consume
  rw [length_unread hv]
  split_ifs with h
  · rfl
  · rw [addSize_start hv (by omega)]
    rfl

end ByteBuffer

/-! ## Refinement -/

/-- The buffer holds the bytes of the queue, and its positions are the marks of the queue. -/
structure Represents (order : ByteOrder) (c : BufferClient) (q : ByteQueue) : Prop where
  valid : c.buffer.Valid
  byteOrder : c.buffer.byteOrder = order
  bytes : q.bytes = c.buffer.unread
  marks : List.Forall₂ c.buffer.Marked c.positions q.marks

namespace Represents

open ByteBuffer

variable {order : ByteOrder} {c : BufferClient} {q : ByteQueue} (h : Represents order c q)

include h

theorem grown {b : ByteBuffer} (hb : Grown c.buffer val b) :
    Represents order { c with buffer := b } (q.push val) where
  valid := hb.valid
  byteOrder := hb.byteOrder.trans h.byteOrder
  bytes := by rw [ByteQueue.push, h.bytes, hb.unread]
  marks := List.forall₂_map_right_iff.mpr (h.marks.imp hb.marked)

theorem reset {b : ByteBuffer} (hv : b.Valid)
    (hversion : b.version = c.buffer.version + 1) (horder : b.byteOrder = c.buffer.byteOrder)
    (hunread : b.unread = bytes) : Represents order { c with buffer := b } (q.reset bytes) where
  valid := hv
  byteOrder := horder.trans h.byteOrder
  bytes := hunread.symm
  marks := List.forall₂_map_right_iff.mpr (h.marks.imp fun p m hm => by
    have hle := hm.1
    refine ⟨?_, fun heq => ?_⟩
    · show p.version ≤ b.version
      omega
    · have : p.version = b.version := heq
      omega)

theorem advance (hlen : len ≤ c.buffer.length) :
    Represents order { c with buffer := c.buffer.advance len } { q with bytes := q.bytes.drop len } where
  valid := advance_valid h.valid hlen
  byteOrder := h.byteOrder
  bytes := by rw [h.bytes, unread_advance]
  marks := h.marks

theorem reads (hostBigEndian : Bool) {n : ℕ} {α : Type} {f : List Uint8 → α} {g : α → ℕ} {r : Option α × ByteBuffer}
    (hr : r = ((c.buffer.readBytes n).1.map f, (c.buffer.readBytes n).2))
    (hfg : ∀ mem, mem.length = n → g (f mem) = decodeWord hostBigEndian c.buffer.byteOrder mem) :
    ∃ q', ByteQueue.Reads hostBigEndian order n q (.word (r.1.map g)) q' ∧
      Represents order { c with buffer := r.2 } q' := by
  rw [hr, readBytes_eq h.valid]
  unfold ByteQueue.Reads
  rw [h.bytes]
  split_ifs with hlen
  · exact ⟨q, ⟨rfl, rfl⟩, h⟩
  · have htake : (c.buffer.unread.take n).length = n := by
      rw [List.length_take]
      omega
    have hle : n ≤ c.buffer.length := by
      rw [← length_unread h.valid]
      omega
    refine ⟨{ q with bytes := q.bytes.drop n }, ⟨_, rfl, ?_, rfl, ?_⟩, h.advance hle⟩
    · have := decodeWord_lt hostBigEndian c.buffer.byteOrder (c.buffer.unread.take n)
      rwa [htake, ← hfg _ htake] at this
    · have := encodeWord_decodeWord hostBigEndian c.buffer.byteOrder (c.buffer.unread.take n)
      rw [htake, ← hfg _ htake] at this
      rw [← h.byteOrder, this, h.bytes, List.take_append_drop]

theorem readsBytes (len : ℕ) :
    ∃ q', (if q.bytes.length < len then
        BufferOut.bytes (c.buffer.readBytes len).1 = .bytes none ∧ q' = q
      else BufferOut.bytes (c.buffer.readBytes len).1 = .bytes (some (q.bytes.take len)) ∧
        q' = { q with bytes := q.bytes.drop len }) ∧
      Represents order { c with buffer := (c.buffer.readBytes len).2 } q' := by
  rw [readBytes_eq h.valid, h.bytes]
  split_ifs with hlen
  · exact ⟨q, ⟨rfl, rfl⟩, h⟩
  · refine ⟨_, ⟨rfl, rfl⟩, ?_⟩
    rw [← h.bytes]
    exact h.advance (by rw [← length_unread h.valid]; omega)

end Represents

section

open ByteBuffer

theorem Represents.mark {q : ByteQueue}
    (h : Represents order c q) {i : ℕ} {p : ReadPosition} (hp : c.positions[i]? = some p) :
    ∃ m, q.marks[i]? = some m ∧ c.buffer.Marked p m := by
  obtain ⟨hlen, hget⟩ := List.forall₂_iff_get.mp h.marks
  obtain ⟨hi, rfl⟩ := List.getElem?_eq_some_iff.mp hp
  exact ⟨_, List.getElem?_eq_getElem (hlen ▸ hi), hget i hi (hlen ▸ hi)⟩

theorem Represents.setReadPosition {q : ByteQueue}
    (h : Represents order c q) {p : ReadPosition} {m : Option (List Uint8)}
    (hm : c.buffer.Marked p m) (hlegal : p.version % versionMod = c.buffer.version % versionMod →
      p.version = c.buffer.version) :
    ∃ q', ((BufferOut.flag (c.buffer.setReadPosition p).1 = .flag false ∧ q' = q) ∨
        ∃ bytes, m = some bytes ∧ BufferOut.flag (c.buffer.setReadPosition p).1 = .flag true ∧
          q' = { q with bytes := bytes }) ∧
      Represents order { c with buffer := (c.buffer.setReadPosition p).2 } q' := by
  unfold ByteBuffer.setReadPosition
  split_ifs with hv
  · exact ⟨q, Or.inl ⟨rfl, rfl⟩, h⟩
  · obtain ⟨hstart, rfl⟩ := hm.2 (hlegal (not_not.mp hv))
    exact ⟨_, Or.inr ⟨_, rfl, rfl, rfl⟩, ⟨hstart, h.valid.end_le, h.valid.size_lt⟩, h.byteOrder, rfl,
      h.marks⟩

theorem BufferClient.step_meets (hostBigEndian : Bool)
    {q : ByteQueue} (op : BufferOp × (ℕ → Uint8)) (h : Represents order c q) (hl : c.Legal op) :
    ∃ q', q.Meets hostBigEndian order op (c.step hostBigEndian op).1 q' ∧
      Represents order (c.step hostBigEndian op).2 q' := by
  obtain ⟨op, mem⟩ := op
  obtain ⟨hlen, hl⟩ := hl
  have hwrite : ∀ {val : List Uint8}, c.buffer.length + val.length < sizeMod →
      Represents order { c with buffer := c.buffer.writeBytes val mem } (q.push val) :=
    fun hval => h.grown (writeBytes_grown h.valid hval mem)
  have hword : ∀ {n : ℕ} (val : BitVec (8 * n)), c.buffer.length + n < sizeMod →
      Represents order { c with buffer := c.buffer.writeBytes (c.buffer.wordToWrite hostBigEndian n val) mem }
        (q.push (encodeWord hostBigEndian order n val.toNat)) := by
    intro n val hn
    rw [wordToWrite_eq, h.byteOrder]
    exact hwrite (by rwa [length_encodeWord])
  cases op with
  | writeUInt8 val =>
    refine ⟨_, ⟨rfl, rfl⟩, ?_⟩
    rw [encodeWord_one]
    exact hwrite hlen
  | writeUInt16 val => exact ⟨_, ⟨rfl, rfl⟩, hword (n := 2) val hlen⟩
  | writeUInt24 val =>
    refine ⟨_, ⟨rfl, rfl⟩, ?_⟩
    show Represents order { c with buffer := c.buffer.writeUInt24 hostBigEndian val mem } _
    rw [writeUInt24_eq, h.byteOrder]
    exact hwrite (by rwa [length_encodeWord])
  | writeUInt32 val => exact ⟨_, ⟨rfl, rfl⟩, hword (n := 4) val hlen⟩
  | writeUInt64 val => exact ⟨_, ⟨rfl, rfl⟩, hword (n := 8) val hlen⟩
  | writeString val => exact ⟨_, ⟨rfl, rfl⟩, hwrite hlen⟩
  | writeBytes val => exact ⟨_, ⟨rfl, rfl⟩, hwrite hlen⟩
  | reserveWriteBuffer len =>
    obtain ⟨val, hval, hgrown⟩ := reserveWriteBuffer_grown h.valid hlen mem
    exact ⟨_, ⟨rfl, val, hval, rfl⟩, h.grown hgrown⟩
  | readUInt8 => exact h.reads hostBigEndian rfl fun _ hmem => decodeWord_one hostBigEndian _ hmem
  | readUInt16 => exact h.reads hostBigEndian rfl fun _ hmem => toNat_wordRead hostBigEndian _ hmem
  | readUInt24 =>
    refine h.reads hostBigEndian rfl fun mem hmem => ?_
    rw [← decodeWord_three]
    exact toNat_wordRead hostBigEndian (n := 4) _ (by split_ifs <;> simp [hmem])
  | readUInt32 => exact h.reads hostBigEndian rfl fun _ hmem => toNat_wordRead hostBigEndian _ hmem
  | readUInt64 => exact h.reads hostBigEndian rfl fun _ hmem => toNat_wordRead hostBigEndian _ hmem
  | readString len => exact h.readsBytes len.toNat
  | readBytes len => exact h.readsBytes len.toNat
  | consume size =>
    simp only [BufferClient.step, ByteQueue.Meets, consume_eq h.valid, h.bytes]
    split_ifs with hsize
    · exact ⟨q, ⟨rfl, rfl⟩, h⟩
    · refine ⟨_, ⟨rfl, rfl⟩, ?_⟩
      rw [← h.bytes]
      exact h.advance (by rw [← length_unread h.valid]; omega)
  | resize size =>
    obtain ⟨hv, -, -, -, hunread, hversion, horder⟩ := resize_spec h.valid
      (show size.toNat < sizeMod by unfold sizeMod; exact size.isLt) mem
    refine ⟨_, ⟨rfl, rfl⟩, h.reset hv hversion horder ?_⟩
    rw [hunread, h.bytes, length_unread h.valid, Nat.min_comm]
  | clear =>
    refine ⟨_, ⟨rfl, rfl⟩, h.reset ⟨Nat.le_refl _, Nat.zero_le _, ?_⟩ rfl rfl rfl⟩
    show (List.replicate c.buffer.size (0 : Uint8)).length < sizeMod
    rw [List.length_replicate]
    exact h.valid.size_lt
  | getReadPosition =>
    refine ⟨_, ⟨rfl, rfl⟩, h.valid, h.byteOrder, h.bytes, ?_⟩
    refine List.rel_append h.marks (.cons ⟨Nat.le_refl _, fun _ => ⟨h.valid.start_le, ?_⟩⟩ .nil)
    rw [h.bytes]
    rfl
  | setReadPosition i =>
    cases hp : c.positions[i]? with
    | none =>
      simp only [BufferClient.step, hp]
      exact ⟨q, Or.inl ⟨rfl, rfl⟩, h⟩
    | some p =>
      obtain ⟨m, hq, hm⟩ := h.mark hp
      obtain ⟨q', hq', hr⟩ := h.setReadPosition hm (hl p (by rw [hp]; rfl))
      simp only [BufferClient.step, ByteQueue.Meets, hp]
      refine ⟨q', hq'.imp_right ?_, hr⟩
      rintro ⟨bytes, rfl, hout⟩
      exact ⟨bytes, hq, hout⟩

end

/-- What the constructors make, and the bytes that are in it. -/
inductive ByteBuffer.Constructed : ByteBuffer → List Uint8 → Prop
  | new (order : ByteOrder) (mem : ℕ → Uint8) : Constructed (.new order mem) []
  | ofBytes (bytes : List Uint8) (order : ByteOrder) (h : bytes.length < sizeMod) :
    Constructed (.ofBytes bytes order) bytes

theorem ByteBuffer.Constructed.represents {b : ByteBuffer}
    (h : b.Constructed bytes) : Represents b.byteOrder { buffer := b } { bytes := bytes } := by
  cases h with
  | new order mem =>
    have hsize : (ByteBuffer.new order mem).size = ByteBuffer.defaultSize := by
      rw [ByteBuffer.size, ByteBuffer.new, ByteBuffer.newBytes, List.length_map, List.length_range]
    have hlt : ByteBuffer.defaultSize < sizeMod := by decide +kernel
    exact ⟨⟨Nat.le_refl _, Nat.zero_le _, hsize ▸ hlt⟩, rfl, (List.drop_nil).symm, .nil⟩
  | ofBytes bytes order h =>
    refine ⟨⟨Nat.zero_le _, Nat.le_refl _, h⟩, rfl, ?_, .nil⟩
    show bytes = (bytes.take bytes.length).drop 0
    rw [List.take_length, List.drop_zero]

/-- **A `ByteBuffer` is a byte queue**: what a client sees of a legal run is a trace of the
queue. -/
theorem byteBuffer_refines_byteQueue (hostBigEndian : Bool) {b : ByteBuffer} {bytes : List Uint8}
    (hb : b.Constructed bytes) (ops : List (BufferOp × (ℕ → Uint8)))
    (hops : Guarded (fun c op => (BufferClient.step hostBigEndian c op).2) BufferClient.Legal
      { buffer := b } ops) :
    ∃ q, SpecTrace (ByteQueue.Meets hostBigEndian b.byteOrder) { bytes := bytes }
      (observe (BufferClient.step hostBigEndian) { buffer := b } ops) q := by
  have hstep : ∀ c q op, Represents b.byteOrder c q → BufferClient.Legal c op →
      ∃ q', q.Meets hostBigEndian b.byteOrder op (c.step hostBigEndian op).1 q' ∧
        Represents b.byteOrder (c.step hostBigEndian op).2 q' :=
    fun _ _ op h hl => BufferClient.step_meets hostBigEndian op h hl
  obtain ⟨q, htrace, -⟩ := forward_simulation hstep hb.represents hops
  exact ⟨q, htrace⟩

def exampleBufferClient : List (BufferOp × (ℕ → Uint8)) :=
  [.writeUInt16 0x0102, .getReadPosition, .readUInt8, .setReadPosition 0, .resize 1, .setReadPosition 0].map
    fun op => (op, fun _ => 0)

theorem byteBuffer_refines_byteQueue_read :
    ∃ q, SpecTrace (ByteQueue.Meets false .orderNetwork) { bytes := [] }
      (observe (BufferClient.step false) { buffer := .ofBytes [] .orderNetwork } exampleBufferClient) q :=
  byteBuffer_refines_byteQueue false (.ofBytes [] .orderNetwork (by decide +kernel)) _
    ⟨⟨by decide +kernel, trivial⟩, ⟨by decide +kernel, trivial⟩, ⟨by decide +kernel, trivial⟩,
      ⟨by decide +kernel, by decide +kernel⟩, ⟨by decide +kernel, trivial⟩,
      ⟨by decide +kernel, by decide +kernel⟩, trivial⟩

/-- **A reservation that overflows drops what was to be read**. -/
theorem reserve_drops_bytes :
    ¬ ∃ q, SpecTrace (ByteQueue.Meets false .orderNetwork) { bytes := [7] }
      (observe (BufferClient.step false) { buffer := .ofBytes [7] .orderNetwork }
        [(.reserveWriteBuffer (BitVec.allOnes 64), fun _ => 0), (.readUInt8, fun _ => 0)]) q := by
  rintro ⟨q, htrace⟩
  cases htrace with
  | cons hreserve htrace =>
  cases htrace with
  | cons hread htrace =>
  obtain ⟨-, val, -, rfl⟩ := hreserve
  have hout : (BufferClient.step false (BufferClient.step false
      { buffer := .ofBytes [7] .orderNetwork }
      (.reserveWriteBuffer (BitVec.allOnes 64), fun _ => 0)).2 (.readUInt8, fun _ => 0)).1 =
      .word none := by decide +kernel
  simp only [ByteQueue.Meets, ByteQueue.Reads, hout] at hread
  split_ifs at hread with hlen
  · simp [ByteQueue.push] at hlen
  · obtain ⟨v, hv, -⟩ := hread
    cases hv

end Libjingle
