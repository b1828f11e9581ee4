import Libjingle.Fifo.Spec
import Libjingle.Lib.Run

/-!
# The events of a `FifoBuffer`

Main results: **`call_posted_iff`**, **`eventsComplete_iff`**.
-/

namespace Libjingle

open Lib

/-- The calls of a `FifoBuffer` that change it or post events. -/
inductive FifoCall where
  | read (bytes : ℕ)
  | write (data : ℕ → Uint8) (bytes : ℕ)
  | readOffset (bytes offset : ℕ)
  | writeOffset (data : ℕ → Uint8) (bytes offset : ℕ)
  | consumeReadData (size : ℕ)
  | consumeWriteBuffer (size : ℕ)
  | setCapacity (size : ℕ) (mem : ℕ → Uint8)

namespace FifoBuffer

/-- What a call leaves of the buffer. -/
def call (f : FifoBuffer) : FifoCall → FifoBuffer
  | .read bytes => (f.read bytes).2.2
  | .write data bytes => (f.write data bytes).2.2
  | .readOffset _ _ => f
  | .writeOffset data bytes offset => (f.writeOffset data bytes offset).2.2
  | .consumeReadData size => f.consumeReadData size
  | .consumeWriteBuffer size => f.consumeWriteBuffer size
  | .setCapacity size mem => (f.setCapacity size mem).2

def Asserts (f : FifoBuffer) : FifoCall → Prop
  | .consumeReadData size => f.consumeReadAssert size
  | .consumeWriteBuffer size => f.consumeWriteAssert size
  | _ => True

instance (f : FifoBuffer) : (c : FifoCall) → Decidable (f.Asserts c)
  | .consumeReadData size => inferInstanceAs (Decidable (f.consumeReadAssert size = true))
  | .consumeWriteBuffer size => inferInstanceAs (Decidable (f.consumeWriteAssert size = true))
  | .read _ | .write _ _ | .readOffset _ _ | .writeOffset _ _ _ | .setCapacity _ _ => isTrue trivial

/-- The buffer is well formed and open. -/
structure Usable (f : FifoBuffer) : Prop extends f.Valid where
  isOpen : f.state = .open

variable {f : FifoBuffer}

theorem usable_new (n : ℕ) (mem : ℕ → Uint8) : (new n mem).Usable := ⟨valid_new n mem, rfl⟩

theorem Usable.not_closed (h : f.Usable) : f.state ≠ .closed := by simp [h.isOpen]

/-- A call keeps the buffer usable. -/
theorem Usable.call (h : f.Usable) {c : FifoCall} (hc : f.Asserts c) : (f.call c).Usable := by
  have hle := h.le
  cases c with
  | read bytes =>
    rw [FifoBuffer.call, read_spec h.toValid]
    split_ifs with hpos
    · exact ⟨h.toValid.afterRead (by omega), by rw [afterRead_state, h.isOpen]⟩
    · exact h
    · exact h
  | write data bytes =>
    rw [FifoBuffer.call, write_spec h.not_closed]
    split_ifs with hroom
    · exact ⟨h.toValid.afterWrite (by omega), by rw [afterWrite_state, h.isOpen]⟩
    · exact h
  | readOffset bytes offset => exact h
  | writeOffset data bytes offset =>
    rw [FifoBuffer.call, writeOffset_spec h.not_closed]
    split_ifs with hroom
    · exact ⟨h.toValid.stored, h.isOpen⟩
    · exact h
  | consumeReadData size =>
    exact ⟨h.toValid.afterRead (of_decide_eq_true hc), by rw [← h.isOpen]; exact afterRead_state size⟩
  | consumeWriteBuffer size =>
    have hsize : size ≤ f.bufferLength - f.dataLength := of_decide_eq_true hc
    exact ⟨h.toValid.consumeWriteBuffer (by omega), by rw [← h.isOpen]; exact consumeWriteBuffer_state size⟩
  | setCapacity size mem =>
    obtain ⟨-, hvalid, hstate, -⟩ := setCapacity_spec h.toValid size mem
    exact ⟨hvalid, hstate.trans h.isOpen⟩

/-! ## The events of one call -/

def edges (f f' : FifoBuffer) : List StreamEvent :=
  (if f.dataLength = 0 ∧ f'.dataLength ≠ 0 then [.seRead] else []) ++
    if f.dataLength = f.bufferLength ∧ f'.dataLength ≠ f'.bufferLength then [.seWrite] else []

def PostsEdges (f : FifoBuffer) (c : FifoCall) : Prop :=
  (f.call c).posted = f.posted ++ edges f (f.call c)

instance (f : FifoBuffer) (c : FifoCall) : Decidable (f.PostsEdges c) :=
  inferInstanceAs (Decidable (_ = _))

def GrowsFull (f : FifoBuffer) : FifoCall → Prop
  | .setCapacity size _ => f.dataLength = f.bufferLength ∧ f.bufferLength < size
  | _ => False

instance (f : FifoBuffer) : (c : FifoCall) → Decidable (f.GrowsFull c)
  | .setCapacity size _ => inferInstanceAs (Decidable (f.dataLength = f.bufferLength ∧ f.bufferLength < size))
  | .read _ | .write _ _ | .readOffset _ _ | .writeOffset _ _ _ | .consumeReadData _
  | .consumeWriteBuffer _ => isFalse id

theorem posted_postIf (f : FifoBuffer) (c : Bool) (ev : StreamEvent) :
    (f.postIf c ev).posted = f.posted ++ if c then [ev] else [] := by
  unfold postIf
  split_ifs
  · rfl
  · rw [List.append_nil]

theorem edges_same {f' : FifoBuffer} (hdata : f'.dataLength = f.dataLength)
    (hlength : f'.bufferLength = f.bufferLength) : edges f f' = [] := by
  rw [edges, hdata, hlength, if_neg (fun h => h.2 h.1), if_neg (fun h => h.2 h.1), List.nil_append]

theorem edges_afterRead (h : f.Valid) {n : ℕ} (hn : n ≤ f.dataLength) :
    edges f (f.afterRead n) = if f.dataLength = f.bufferLength ∧ 0 < n then [.seWrite] else [] := by
  have hle := h.le
  unfold edges
  rw [afterRead_dataLength, afterRead_bufferLength, if_neg (by omega), List.nil_append]
  exact if_congr (by omega) rfl rfl

theorem afterRead_posts (h : f.Valid) {n : ℕ} (hn : n ≤ f.dataLength) :
    (f.afterRead n).posted = f.posted ++ edges f (f.afterRead n) := by
  have hle := h.le
  rw [edges_afterRead h hn, FifoBuffer.afterRead, posted_postIf]
  congr 1
  refine if_congr ?_ rfl rfl
  simp only [Bool.and_eq_true, Bool.not_eq_true', decide_eq_false_iff_not, decide_eq_true_eq]
  omega

theorem consumeWriteBuffer_posts {n : ℕ} (hn : f.dataLength + n ≤ f.bufferLength) :
    (f.consumeWriteBuffer n).posted = f.posted ++ edges f (f.consumeWriteBuffer n) := by
  have hedges : edges f (f.consumeWriteBuffer n) =
      if f.dataLength = 0 ∧ 0 < n then [.seRead] else [] := by
    unfold edges
    rw [consumeWriteBuffer_dataLength, consumeWriteBuffer_bufferLength,
      if_neg (show ¬ (f.dataLength = f.bufferLength ∧ _) by omega), List.append_nil]
    exact if_congr (by omega) rfl rfl
  rw [hedges, FifoBuffer.consumeWriteBuffer, posted_postIf]
  congr 1
  refine if_congr ?_ rfl rfl
  simp only [Bool.and_eq_true, Bool.not_eq_true', decide_eq_false_iff_not, decide_eq_true_eq]
  omega

theorem setCapacity_posts (h : f.Valid) (size : ℕ) (mem : ℕ → Uint8) :
    (f.setCapacity size mem).2.posted = f.posted ∧
      (edges f (f.setCapacity size mem).2 = [] ↔ ¬ (f.dataLength = f.bufferLength ∧ f.bufferLength < size)) := by
  obtain ⟨-, -, -, -, hdata, hlength⟩ := setCapacity_spec h size mem
  have hle := h.le
  constructor
  · unfold setCapacity
    split_ifs <;> rfl
  · unfold edges
    rw [hdata, hlength, if_neg (by omega), List.nil_append, ite_eq_right_iff]
    constructor
    · intro hsilent hgrows
      have hfit : f.dataLength ≤ size := by omega
      rw [if_pos hfit] at hsilent
      cases hsilent ⟨hgrows.1, by omega⟩
    · intro hgrows hfull
      split_ifs at hfull <;> omega

/-- **A call posts its events** unless it grows a full buffer. -/
theorem call_posted_iff (h : f.Usable) {c : FifoCall} (hc : f.Asserts c) : f.PostsEdges c ↔ ¬ f.GrowsFull c := by
  have hle := h.le
  have hvalid := h.toValid
  have hsame : edges f f = [] := edges_same rfl rfl
  cases c with
  | read bytes =>
    refine iff_of_true ?_ id
    rw [PostsEdges, call, read_spec hvalid]
    split_ifs
    · exact afterRead_posts hvalid (by omega)
    all_goals exact (by rw [hsame, List.append_nil] : f.posted = f.posted ++ edges f f)
  | write data bytes =>
    refine iff_of_true ?_ id
    rw [PostsEdges, call, write_spec h.not_closed]
    split_ifs
    · exact consumeWriteBuffer_posts (f := f.stored data _ 0)
        (by change f.dataLength + _ ≤ f.bufferLength; omega)
    · rw [hsame, List.append_nil]
  | readOffset bytes offset =>
    refine iff_of_true ?_ id
    rw [PostsEdges, call, hsame, List.append_nil]
  | writeOffset data bytes offset =>
    refine iff_of_true ?_ id
    rw [PostsEdges, call, writeOffset_spec h.not_closed]
    split_ifs
    · have hstored : edges f (f.stored data (min bytes (f.bufferLength - f.dataLength - offset)) offset) = [] :=
        edges_same rfl rfl
      dsimp only
      rw [hstored, List.append_nil]
      rfl
    · rw [hsame, List.append_nil]
  | consumeReadData size => exact iff_of_true (afterRead_posts hvalid (of_decide_eq_true hc)) id
  | consumeWriteBuffer size =>
    have hsize : size ≤ f.bufferLength - f.dataLength := of_decide_eq_true hc
    exact iff_of_true (consumeWriteBuffer_posts (by omega)) id
  | setCapacity size mem =>
    obtain ⟨hposted, hedges⟩ := setCapacity_posts hvalid size mem
    rw [PostsEdges, call, hposted, GrowsFull, ← hedges]
    exact ⟨fun heq => List.append_right_eq_self.mp heq.symm, fun hnil => by rw [hnil, List.append_nil]⟩

/-! ## The events of a run -/

/-- **Every call posts the events of its change**, and who waits after an `SR_BLOCK` is woken. -/
structure EventsComplete (f : FifoBuffer) (calls : List FifoCall) : Prop where
  each : Guarded call PostsEdges f calls
  reader : ∀ pre mid post bytes, calls = pre ++ mid ++ post →
    ((run call f pre).read bytes).1 = .block → (run call f (pre ++ mid)).dataLength ≠ 0 →
      ∃ posted, (run call f (pre ++ mid)).posted = (run call f pre).posted ++ posted ∧ .seRead ∈ posted
  writer : ∀ pre mid post data bytes, calls = pre ++ mid ++ post →
    ((run call f pre).write data bytes).1 = .block →
      (run call f (pre ++ mid)).dataLength ≠ (run call f (pre ++ mid)).bufferLength →
        ∃ posted, (run call f (pre ++ mid)).posted = (run call f pre).posted ++ posted ∧ .seWrite ∈ posted

theorem run_posted {calls : List FifoCall} (h : Guarded call PostsEdges f calls) :
    ∃ posted, (run call f calls).posted = f.posted ++ posted := by
  induction calls generalizing f with
  | nil => exact ⟨[], (List.append_nil _).symm⟩
  | cons c calls ih =>
    obtain ⟨posted, hposted⟩ := ih h.2
    exact ⟨edges f (f.call c) ++ posted, by rw [run_cons, hposted, h.1, List.append_assoc]⟩

theorem told (Blocked : FifoBuffer → Prop) {ev : StreamEvent}
    (hedge : ∀ f f', Blocked f → ¬ Blocked f' → ev ∈ edges f f') {calls : List FifoCall}
    (h : Guarded call PostsEdges f calls) (hblocked : Blocked f) (hfree : ¬ Blocked (run call f calls)) :
    ∃ posted, (run call f calls).posted = f.posted ++ posted ∧ ev ∈ posted := by
  induction calls generalizing f with
  | nil => exact absurd hblocked hfree
  | cons c calls ih =>
    by_cases hnext : Blocked (f.call c)
    · obtain ⟨posted, hposted, hmem⟩ := ih h.2 hnext hfree
      exact ⟨edges f (f.call c) ++ posted, by rw [run_cons, hposted, h.1, List.append_assoc],
        List.mem_append_right _ hmem⟩
    · obtain ⟨posted, hposted⟩ := run_posted h.2
      exact ⟨edges f (f.call c) ++ posted, by rw [run_cons, hposted, h.1, List.append_assoc],
        List.mem_append_left _ (hedge f _ hblocked hnext)⟩

theorem empty_of_read_block (h : f.Usable) {bytes : ℕ} (hblock : (f.read bytes).1 = .block) : f.dataLength = 0 := by
  rw [read_spec h.toValid] at hblock
  by_contra hne
  rw [if_pos (by omega)] at hblock
  cases hblock

theorem full_of_write_block (h : f.Usable) {data : ℕ → Uint8} {bytes : ℕ}
    (hblock : (f.write data bytes).1 = .block) : f.dataLength = f.bufferLength := by
  have hle := h.le
  rw [write_spec h.not_closed] at hblock
  by_contra hne
  rw [if_pos (by omega)] at hblock
  cases hblock

/-- **The events of a `FifoBuffer`** are complete exactly if no full buffer is made larger. -/
theorem eventsComplete_iff (n : ℕ) (mem : ℕ → Uint8) (calls : List FifoCall)
    (hasserts : Guarded call Asserts (new n mem) calls) :
    EventsComplete (new n mem) calls ↔ Guarded call (fun f c => ¬ f.GrowsFull c) (new n mem) calls := by
  have hiff : Guarded call PostsEdges (new n mem) calls ↔
      Guarded call (fun f c => ¬ f.GrowsFull c) (new n mem) calls := by
    have hboth : Guarded call (fun f c => f.Asserts c ∧ f.PostsEdges c) (new n mem) calls ↔
        Guarded call (fun f c => f.Asserts c ∧ ¬ f.GrowsFull c) (new n mem) calls :=
      guarded_congr (I := Usable) (fun f c h => and_congr_right fun hc => call_posted_iff h hc)
        (fun f c h hc => h.call hc.1) (usable_new n mem)
    rw [guarded_and, guarded_and, and_iff_right hasserts, and_iff_right hasserts] at hboth
    exact hboth
  have husable : ∀ pre post, calls = pre ++ post → (run call (new n mem) pre).Usable := by
    rintro pre post rfl
    exact run_invariant (fun f c h hc => h.call hc) (usable_new n mem) (guarded_append.mp hasserts).1
  rw [← hiff]
  refine ⟨fun h => h.each, fun h => ⟨h, ?_, ?_⟩⟩
  · rintro pre mid post bytes rfl hblock hdata
    have hmid := (guarded_append.mp (guarded_append.mp h).1).2
    have hu := husable pre (mid ++ post) (List.append_assoc _ _ _)
    rw [run_append] at hdata ⊢
    refine told (fun f => f.dataLength = 0) (fun f f' he hne => ?_) hmid
      (empty_of_read_block hu hblock) hdata
    rw [edges, if_pos ⟨he, hne⟩]
    exact List.mem_append_left _ List.mem_cons_self
  · rintro pre mid post data bytes rfl hblock hroom
    have hmid := (guarded_append.mp (guarded_append.mp h).1).2
    have hu := husable pre (mid ++ post) (List.append_assoc _ _ _)
    rw [run_append] at hroom ⊢
    refine told (fun f => f.dataLength = f.bufferLength) (fun f f' he hne => ?_) hmid
      (full_of_write_block hu hblock) hroom
    rw [edges, if_pos (show f.dataLength = f.bufferLength ∧ _ from ⟨he, hne⟩)]
    exact List.mem_append_right _ List.mem_cons_self

def exampleCalls : List FifoCall :=
  [.write (fun i => BitVec.ofNat 8 i) 3, .read 2, .setCapacity 5 (fun _ => 0), .consumeWriteBuffer 4,
    .consumeReadData 5]

theorem eventsComplete_exampleCalls : EventsComplete (new 3 fun _ => 0) exampleCalls :=
  (eventsComplete_iff 3 (fun _ => 0) exampleCalls (by decide)).mpr (by decide)

/-- **A writer that is not woken**: a full buffer gets room, and nothing is posted. -/
theorem events_missed :
    ((run call (new 2 fun _ => 0) [.write (fun _ => 7) 2]).write (fun _ => 7) 1).1 = .block ∧
      Guarded call Asserts (new 2 fun _ => 0) [.write (fun _ => 7) 2, .setCapacity 4 fun _ => 0] ∧
      (run call (new 2 fun _ => 0) [.write (fun _ => 7) 2, .setCapacity 4 fun _ => 0]).posted = [.seRead] ∧
      ¬ EventsComplete (new 2 fun _ => 0) [.write (fun _ => 7) 2, .setCapacity 4 fun _ => 0] := by
  refine ⟨by decide, by decide, by decide, fun h => ?_⟩
  exact absurd h.each (by decide)

end FifoBuffer

end Libjingle
