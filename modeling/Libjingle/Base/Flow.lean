import Libjingle.Fifo.Model

/-!
# Moving bytes from a source to a sink (`base/stream.cc`)

Main result: **`flow_conserves`**.
-/

variable {result : StreamResult}

namespace Libjingle.Flow

open Lib

/-! ## Streams -/

/-- What `Read` does: its result, what it leaves in the memory, and how much of this was read. -/
structure Reading (len : ℕ) where
  result : StreamResult
  memory : ℕ → Uint8
  count : ℕ
  le : count ≤ len

/-- What `Write` does for `len` bytes: its result, and how much was written. -/
structure Writing (len : ℕ) where
  result : StreamResult
  count : ℕ
  le : count ≤ len

/-- A source and a sink over a common state `ω`, with any behaviour of streams. -/
structure Streams (ω : Type) where
  read : ω → (len : ℕ) → Reading len × ω
  write : ω → (data : List Uint8) → Writing data.length × ω

/-- A call of a stream: what was read, or what was offered and how much of it was written. -/
inductive Call where
  | read (result : StreamResult) (bytes : List Uint8)
  | write (result : StreamResult) (data : List Uint8) (count : ℕ)
  deriving DecidableEq, Repr

def Call.delivered : Call → List Uint8
  | .read .success bytes => bytes
  | _ => []

def Call.accepted : Call → List Uint8
  | .write .success data count => data.take count
  | _ => []

def delivered (calls : List Call) : List Uint8 := calls.flatMap Call.delivered

/-- All bytes that the sink has taken. -/
def accepted (calls : List Call) : List Uint8 := calls.flatMap Call.accepted

def SourceEnded (calls : List Call) : Prop := ∃ bytes, Call.read .eos bytes ∈ calls

/-! ## `Flow` -/

/-- The variables of `Flow`, with the calls so far. `data_len` is `NULL` or what it points to. -/
structure FlowState (ω : Type) where
  buffer : ℕ → Uint8
  dataLen : Option ℕ
  readPos : ℕ
  endOfStream : Bool
  world : ω
  calls : List Call

/-- How a loop ends: it is still running, `Flow` returns, or the next statement follows. -/
inductive Loop (σ : Type) where
  | running
  | returned (result : StreamResult) (s : σ)
  | done (s : σ)

def moveDown (buffer : ℕ → Uint8) (pos len : ℕ) : ℕ → Uint8 := memcpy buffer 0 (fun i => buffer (pos + i)) len

section Loops

variable {ω : Type} (streams : Streams ω) (bufferLen : ℕ)

def readLoop : ℕ → FlowState ω → Loop (FlowState ω)
  | 0, _ => .running
  | fuel + 1, s =>
    if !s.endOfStream ∧ s.readPos < bufferLen then
      let r := streams.read s.world (bufferLen - s.readPos)
      let s' : FlowState ω :=
        { s with
          buffer := memcpy s.buffer s.readPos r.1.memory (bufferLen - s.readPos)
          world := r.2
          calls := s.calls ++ [.read r.1.result (block r.1.memory 0 r.1.count)] }
      if r.1.result = .eos then readLoop fuel { s' with endOfStream := true }
      else if r.1.result ≠ .success then
        .returned r.1.result { s' with dataLen := s'.dataLen.map fun _ => s'.readPos }
      else readLoop fuel { s' with readPos := s'.readPos + r.1.count }
    else .done s

/-- Write until the buffer is empty, or error. -/
def writeLoop : ℕ → FlowState ω → ℕ → Loop (FlowState ω)
  | 0, _, _ => .running
  | fuel + 1, s, writePos =>
    if writePos < s.readPos then
      let data := block s.buffer writePos (s.readPos - writePos)
      let r := streams.write s.world data
      let s' : FlowState ω :=
        { s with world := r.2, calls := s.calls ++ [.write r.1.result data r.1.count] }
      if r.1.result ≠ .success then
        .returned r.1.result (if s'.dataLen.isSome then
          { s' with
            dataLen := some (s'.readPos - writePos)
            buffer := if writePos > 0 then moveDown s'.buffer writePos (s'.readPos - writePos) else s'.buffer }
          else s')
      else writeLoop fuel s' (writePos + r.1.count)
    else .done s

def flowLoop : ℕ → FlowState ω → Option (StreamResult × FlowState ω)
  | 0, _ => none
  | fuel + 1, s =>
    match readLoop streams bufferLen fuel s with
    | .running => none
    | .returned result s => some (result, s)
    | .done s =>
      match writeLoop streams fuel s 0 with
      | .running => none
      | .returned result s => some (result, s)
      | .done s =>
        if s.endOfStream then some (.success, { s with readPos := 0, dataLen := s.dataLen.map fun _ => 0 })
        else flowLoop fuel { s with readPos := 0 }

def flow (fuel : ℕ) (world : ω) (buffer : ℕ → Uint8) (dataLen : Option ℕ) : Option (StreamResult × FlowState ω) :=
  flowLoop streams bufferLen fuel
    { buffer := buffer, dataLen := dataLen, readPos := dataLen.getD 0, endOfStream := false, world := world,
      calls := [] }

end Loops

/-! ## Conservation -/

section Conservation

variable {ω : Type} {streams : Streams ω} {bufferLen writePos fuel : ℕ} {initial : List Uint8} {s s' : FlowState ω}

theorem delivered_snoc (calls : List Call) (call : Call) :
    delivered (calls ++ [call]) = delivered calls ++ call.delivered := by simp [delivered]

theorem accepted_snoc (calls : List Call) (call : Call) :
    accepted (calls ++ [call]) = accepted calls ++ call.accepted := by simp [accepted]

theorem SourceEnded.snoc {calls : List Call} (h : SourceEnded calls) (call : Call) :
    SourceEnded (calls ++ [call]) := by
  obtain ⟨bytes, hmem⟩ := h
  exact ⟨bytes, List.mem_append_left _ hmem⟩

theorem sourceEnded_eos {calls : List Call} {bytes : List Uint8} (h : result = .eos) :
    SourceEnded (calls ++ [.read result bytes]) :=
  ⟨bytes, by rw [h]; exact List.mem_append_right _ (List.mem_singleton_self _)⟩

theorem delivered_write (result : StreamResult) (data : List Uint8) (count : ℕ) :
    (Call.write result data count).delivered = [] := rfl

theorem accepted_read (result : StreamResult) (bytes : List Uint8) : (Call.read result bytes).accepted = [] := rfl

theorem delivered_of_ne (h : result ≠ .success) (bytes : List Uint8) : (Call.read result bytes).delivered = [] := by
  cases result with
  | success => exact absurd rfl h
  | _ => rfl

theorem accepted_of_ne (h : result ≠ .success) (data : List Uint8) (count : ℕ) :
    (Call.write result data count).accepted = [] := by
  cases result with
  | success => exact absurd rfl h
  | _ => rfl

/-- No byte is lost inside the loops, and the variable knows of the end of the stream. -/
structure Conserved (bufferLen : ℕ) (initial : List Uint8) (writePos : ℕ) (s : FlowState ω) : Prop where
  position : writePos ≤ s.readPos
  inside : s.readPos ≤ max initial.length bufferLen
  bytes : accepted s.calls ++ block s.buffer writePos (s.readPos - writePos) = initial ++ delivered s.calls
  ended : s.endOfStream = true → SourceEnded s.calls

/-- What holds where `Flow` returns. -/
structure Finished (bufferLen : ℕ) (initial : List Uint8) (dataLen : Option ℕ) (result : StreamResult)
    (s : FlowState ω) : Prop where
  given : s.dataLen.isSome = dataLen.isSome
  rest : ∀ m, s.dataLen = some m →
    m ≤ max initial.length bufferLen ∧ accepted s.calls ++ block s.buffer 0 m = initial ++ delivered s.calls
  success : result = .success → SourceEnded s.calls ∧ accepted s.calls = initial ++ delivered s.calls

def Loop.Keeps (bufferLen : ℕ) (initial : List Uint8) (dataLen : Option ℕ) (Q : FlowState ω → Prop) :
    Loop (FlowState ω) → Prop
  | .running => True
  | .returned result s => Finished bufferLen initial dataLen result s
  | .done s => s.dataLen = dataLen ∧ Q s

theorem block_memcpy {m src : ℕ → Uint8} {p n k : ℕ} (h : k ≤ n) :
    block (memcpy m p src n) 0 (p + k) = block m 0 p ++ block src 0 k := by
  have hbefore : block (memcpy m p src n) 0 p = block m 0 p :=
    block_congr fun i hi => memcpy_of_not_mem (by omega)
  have hcopied : block (memcpy m p src n) (0 + p) k = block src 0 k := by
    refine List.map_congr_left fun i hi => ?_
    have hi := List.mem_range.mp hi
    rw [memcpy_of_mem (by omega), Nat.zero_add, Nat.add_sub_cancel_left, Nat.zero_add]
  rw [block_add, hbefore, hcopied]

theorem block_moveDown (m : ℕ → Uint8) (pos len : ℕ) : block (moveDown m pos len) 0 len = block m pos len := by
  have hmoved := @block_memcpy m (fun i => m (pos + i)) 0 len len (le_refl len)
  rw [Nat.zero_add] at hmoved
  rw [moveDown, hmoved, block_zero, List.nil_append, block, block]
  exact List.map_congr_left fun i _ => congrArg (fun j => m (pos + j)) (Nat.zero_add i)

theorem Conserved.idle (h : Conserved bufferLen initial 0 s) (hne : result ≠ .success)
    (memory : ℕ → Uint8) (len : ℕ) (bytes : List Uint8) (world : ω) (endOfStream : Bool)
    (hended : endOfStream = true → SourceEnded (s.calls ++ [.read result bytes])) :
    Conserved bufferLen initial 0
      { s with
        buffer := memcpy s.buffer s.readPos memory len, endOfStream := endOfStream, world := world,
        calls := s.calls ++ [.read result bytes] } where
  position := h.position
  inside := h.inside
  bytes := by
    have hkept := @block_memcpy s.buffer memory s.readPos len 0 (Nat.zero_le len)
    rw [Nat.add_zero, block_zero, List.append_nil] at hkept
    have := h.bytes
    rw [Nat.sub_zero] at this ⊢
    rw [accepted_snoc, delivered_snoc, accepted_read, delivered_of_ne hne, List.append_nil, List.append_nil, hkept, this]
  ended := hended

theorem Conserved.read (h : Conserved bufferLen initial 0 s) (memory : ℕ → Uint8) {count : ℕ}
    (hguard : s.readPos < bufferLen) (hcount : count ≤ bufferLen - s.readPos) (world : ω) :
    Conserved bufferLen initial 0
      { s with
        buffer := memcpy s.buffer s.readPos memory (bufferLen - s.readPos), readPos := s.readPos + count,
        world := world, calls := s.calls ++ [.read .success (block memory 0 count)] } where
  position := Nat.zero_le _
  inside := by
    have : s.readPos + count ≤ bufferLen := by omega
    exact this.trans (le_max_right _ _)
  bytes := by
    have := h.bytes
    rw [Nat.sub_zero] at this ⊢
    rw [accepted_snoc, delivered_snoc, accepted_read, List.append_nil, block_memcpy hcount, ← List.append_assoc, this,
      List.append_assoc]
    rfl
  ended hend := (h.ended hend).snoc _

theorem Conserved.finished (h : Conserved bufferLen initial 0 s) (hne : result ≠ .success) :
    Finished bufferLen initial s.dataLen result { s with dataLen := s.dataLen.map fun _ => s.readPos } where
  given := Option.isSome_map
  rest m hm := by
    obtain ⟨n, -, rfl⟩ := Option.map_eq_some_iff.mp hm
    have := h.bytes
    rw [Nat.sub_zero] at this
    exact ⟨h.inside, this⟩
  success hsuccess := absurd hsuccess hne

theorem readLoop_spec (h : Conserved bufferLen initial 0 s) :
    (readLoop streams bufferLen fuel s).Keeps bufferLen initial s.dataLen (Conserved bufferLen initial 0) := by
  induction fuel generalizing s with
  | zero => trivial
  | succ fuel ih =>
    rw [readLoop]
    split
    · rename_i hguard
      simp only
      split
      · rename_i heos
        have hne : (streams.read s.world (bufferLen - s.readPos)).1.result ≠ .success := by
          rw [heos]
          decide
        exact ih (h.idle hne _ _ _ _ true fun _ => sourceEnded_eos heos)
      · split
        · rename_i hne
          exact (h.idle hne _ _ _ _ s.endOfStream fun hend => (h.ended hend).snoc _).finished hne
        · rename_i hsuccess
          have hread := h.read (streams.read s.world (bufferLen - s.readPos)).1.memory hguard.2
            (streams.read s.world (bufferLen - s.readPos)).1.le (streams.read s.world (bufferLen - s.readPos)).2
          rw [← not_not.mp hsuccess] at hread
          exact ih hread
    · exact ⟨rfl, h⟩

theorem Conserved.write (h : Conserved bufferLen initial writePos s) {count : ℕ}
    (hcount : count ≤ s.readPos - writePos) (world : ω) :
    Conserved bufferLen initial (writePos + count)
      { s with
        world := world,
        calls := s.calls ++ [.write .success (block s.buffer writePos (s.readPos - writePos)) count] } where
  position := by
    have := h.position
    show writePos + count ≤ s.readPos
    omega
  inside := h.inside
  bytes := by
    have hsplit : s.readPos - writePos = count + (s.readPos - (writePos + count)) := by omega
    have := h.bytes
    rw [hsplit, block_add] at this
    rw [accepted_snoc, delivered_snoc, delivered_write, List.append_nil, ← this, hsplit, block_add, Call.accepted,
      List.take_left' (length_block _ _ _), List.append_assoc]
  ended hend := (h.ended hend).snoc _

theorem Conserved.refused (h : Conserved bufferLen initial writePos s)
    (hne : result ≠ .success) (data : List Uint8) (count : ℕ) (world : ω) :
    Conserved bufferLen initial writePos
      { s with world := world, calls := s.calls ++ [.write result data count] } where
  position := h.position
  inside := h.inside
  bytes := by
    rw [accepted_snoc, delivered_snoc, accepted_of_ne hne, delivered_write, List.append_nil, List.append_nil]
    exact h.bytes
  ended hend := (h.ended hend).snoc _

theorem Conserved.moved (h : Conserved bufferLen initial writePos s) (hne : result ≠ .success) :
    Finished bufferLen initial s.dataLen result
      (if s.dataLen.isSome then
        { s with
          dataLen := some (s.readPos - writePos)
          buffer := if writePos > 0 then moveDown s.buffer writePos (s.readPos - writePos) else s.buffer }
      else s) where
  given := by
    split
    · rename_i hsome
      exact hsome.symm
    · rfl
  rest m hm := by
    split at hm
    · rename_i hsome
      rw [if_pos hsome]
      cases hm
      refine ⟨(Nat.sub_le _ _).trans h.inside, ?_⟩
      have hleft : block (if writePos > 0 then moveDown s.buffer writePos (s.readPos - writePos) else s.buffer) 0
          (s.readPos - writePos) = block s.buffer writePos (s.readPos - writePos) := by
        split
        · exact block_moveDown _ _ _
        · rename_i hzero
          rw [Nat.eq_zero_of_not_pos hzero]
      rw [← h.bytes, ← hleft]
    · rename_i hnone
      rw [hm] at hnone
      exact absurd rfl hnone
  success hsuccess := absurd hsuccess hne

theorem writeLoop_spec (h : Conserved bufferLen initial writePos s) :
    (writeLoop streams fuel s writePos).Keeps bufferLen initial s.dataLen
      fun s => Conserved bufferLen initial s.readPos s := by
  induction fuel generalizing s writePos with
  | zero => trivial
  | succ fuel ih =>
    rw [writeLoop]
    split
    · simp only
      split
      · rename_i hne
        exact (h.refused hne _ _ _).moved hne
      · rename_i hsuccess
        have hle := (streams.write s.world (block s.buffer writePos (s.readPos - writePos))).1.le.trans_eq
          (length_block _ _ _)
        have hwrite := h.write hle (streams.write s.world (block s.buffer writePos (s.readPos - writePos))).2
        rw [← not_not.mp hsuccess] at hwrite
        exact ih hwrite
    · rename_i hguard
      obtain rfl : writePos = s.readPos := Nat.le_antisymm h.position (Nat.le_of_not_lt hguard)
      exact ⟨rfl, h⟩

theorem Conserved.written (h : Conserved bufferLen initial s.readPos s) :
    accepted s.calls = initial ++ delivered s.calls := by
  have := h.bytes
  rwa [Nat.sub_self, block_zero, List.append_nil] at this

/-- **The bytes of the source are the sink's, the buffer's and those still to be read**. -/
theorem flowLoop_spec (h : Conserved bufferLen initial 0 s)
    (hflow : flowLoop streams bufferLen fuel s = some (result, s')) :
    Finished bufferLen initial s.dataLen result s' := by
  induction fuel generalizing s with
  | zero => cases hflow
  | succ fuel ih =>
    rw [flowLoop] at hflow
    have hread := @readLoop_spec ω streams bufferLen fuel initial s h
    cases hcase : readLoop streams bufferLen fuel s with
    | running =>
      rw [hcase] at hflow
      cases hflow
    | returned r s₁ =>
      rw [hcase] at hflow hread
      cases hflow
      exact hread
    | done s₁ =>
      rw [hcase] at hflow hread
      obtain ⟨hgiven, hread⟩ := hread
      have hwrite := @writeLoop_spec ω streams bufferLen 0 fuel initial s₁ hread
      simp only at hflow
      cases hcase' : writeLoop streams fuel s₁ 0 with
      | running =>
        rw [hcase'] at hflow
        cases hflow
      | returned r s₂ =>
        rw [hcase'] at hflow hwrite
        cases hflow
        exact hgiven ▸ hwrite
      | done s₂ =>
        rw [hcase'] at hflow hwrite
        obtain ⟨hgiven', hwrite⟩ := hwrite
        have hall := hwrite.written
        rw [← hgiven, ← hgiven']
        simp only at hflow
        split at hflow
        · rename_i hend
          cases hflow
          refine ⟨Option.isSome_map, fun m hm => ?_, fun _ => ⟨hwrite.ended hend, hall⟩⟩
          obtain ⟨n, -, rfl⟩ := Option.map_eq_some_iff.mp hm
          refine ⟨Nat.zero_le _, ?_⟩
          rw [block_zero, List.append_nil]
          exact hall
        · have hstart : Conserved bufferLen initial 0 { s₂ with readPos := 0 } := by
            refine ⟨le_refl _, Nat.zero_le _, ?_, hwrite.ended⟩
            rw [Nat.sub_zero, block_zero, List.append_nil]
            exact hall
          have hrest := ih hstart hflow
          exact hrest

/-- **`Flow` conserves bytes**: what was delivered is in the sink or in the buffer, and it succeeds
only at the end of the stream, with all of it written. -/
theorem flow_conserves {world : ω} {buffer : ℕ → Uint8} {dataLen : Option ℕ} {result : StreamResult}
    (h : flow streams bufferLen fuel world buffer dataLen = some (result, s)) :
    Finished bufferLen (block buffer 0 (dataLen.getD 0)) dataLen result s := by
  refine flowLoop_spec ⟨Nat.zero_le _, ?_, ?_, fun hend => absurd hend Bool.false_ne_true⟩ h
  · rw [length_block]
    exact le_max_left _ _
  · rw [Nat.sub_zero]
    exact (List.append_nil _).symm

end Conservation

def trickle : Streams (ℕ × ℕ) where
  read world len :=
    if world.1 = 0 then (⟨.eos, fun _ => 0, 0, Nat.zero_le len⟩, world)
    else (⟨.success, fun _ => BitVec.ofNat 8 world.1, min 1 len, Nat.min_le_right 1 len⟩, (world.1 - 1, world.2))
  write world data :=
    if world.2 = 0 then (⟨.block, 0, Nat.zero_le data.length⟩, world)
    else (⟨.success, min 1 data.length, Nat.min_le_right 1 data.length⟩, (world.1, world.2 - 1))

/-- One byte in the buffer, two in the source, and room for two in the sink. -/
theorem flow_conserves_trickle :
    ∃ result s, flow trickle 4 9 (2, 2) (fun _ => 7) (some 1) = some (result, s) ∧
      Finished 4 [7] (some 1) result s := by
  have hreturns : (flow trickle 4 9 (2, 2) (fun _ => 7) (some 1)).isSome = true := by decide
  obtain ⟨⟨result, s⟩, h⟩ := Option.isSome_iff_exists.mp hreturns
  exact ⟨result, s, h, flow_conserves h⟩

end Libjingle.Flow
