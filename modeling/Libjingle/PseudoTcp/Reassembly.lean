import Libjingle.PseudoTcp.RecvMoves
import Libjingle.PseudoTcp.SendQueue

/-!
# The receiver puts the stream together again

The peer sends a byte string `S` whose first byte has sequence number `r0`. Segments carry slices of
it, in any order and with overlaps. The receiver writes them into the free part of `m_rbuf` and
remembers in `m_rlist` those that are not in order.

Main results: **`Reassembly.receive`**, **`receiver_reassembles`**.
-/

variable {seg : Segment} {e : RSegment} {l : List RSegment}

namespace Libjingle

open Lib Relation

/-! ## Slices -/

/-- The segment carries the bytes of `S` that its sequence number stands for. -/
structure Slice (r0 : Uint32) (S : List Uint8) (seg : Segment) : Prop where
  ge : r0.toNat ≤ seg.seq.toNat
  le : seg.seq.toNat + seg.len.toNat ≤ r0.toNat + S.length
  data : ∀ i < seg.len.toNat, S[seg.seq.toNat - r0.toNat + i]? = some (seg.data i)

def SliceOrEmpty (r0 : Uint32) (S : List Uint8) (seg : Segment) : Prop :=
  seg.len = 0 ∨ Slice r0 S seg

namespace PseudoTcp

variable {s s' : PseudoTcp} {r0 : Uint32} {S base got : List Uint8}

theorem trimLeft_spec (s : PseudoTcp) (h : SliceOrEmpty r0 S seg) :
    (s.trimLeft seg).len = 0 ∨
      (Slice r0 S (s.trimLeft seg) ∧ s.rcv.rcvNxt.toNat ≤ (s.trimLeft seg).seq.toNat) := by
  unfold trimLeft
  rcases h with h0 | h
  · left
    simp only
    split_ifs
    · rw [h0] at *
      bv_omega
    · rfl
    · exact h0
  · by_cases hlt : seg.seq < s.rcv.rcvNxt
    · simp only [if_pos hlt]
      by_cases hadj : s.rcv.rcvNxt - seg.seq < seg.len
      · simp only [if_pos hadj]
        have hge := h.ge
        have hle := h.le
        have hsub : (s.rcv.rcvNxt - seg.seq).toNat = s.rcv.rcvNxt.toNat - seg.seq.toNat :=
          BitVec.toNat_sub_of_le (BitVec.le_of_lt hlt)
        have hseq : (seg.seq + (s.rcv.rcvNxt - seg.seq)).toNat = s.rcv.rcvNxt.toNat := by
          rw [BitVec.add_comm, BitVec.sub_add_cancel]
        have hlen : (seg.len - (s.rcv.rcvNxt - seg.seq)).toNat =
            seg.len.toNat - (s.rcv.rcvNxt.toNat - seg.seq.toNat) := by
          rw [BitVec.toNat_sub_of_le (BitVec.le_of_lt hadj), hsub]
        have hlt' : seg.seq.toNat < s.rcv.rcvNxt.toNat := hlt
        have hadj' : s.rcv.rcvNxt.toNat - seg.seq.toNat < seg.len.toNat := by
          rw [← hsub]
          exact hadj
        right
        refine ⟨⟨?_, ?_, ?_⟩, ?_⟩
        · simp only [hseq]
          omega
        · simp only [hseq, hlen]
          omega
        · simp only [hseq, hlen, hsub]
          intro i hi
          rw [← h.data (s.rcv.rcvNxt.toNat - seg.seq.toNat + i) (by omega)]
          congr 1
          omega
        · simp only [hseq]
          omega
      · simp only [if_neg hadj]
        exact .inl trivial
    · rw [if_neg hlt]
      right
      refine ⟨h, ?_⟩
      exact Nat.not_lt.mp hlt

/-- **What is left of a segment lies in the window**. -/
theorem trim_spec (s : PseudoTcp) (hS : r0.toNat + S.length < 2 ^ 32)
    (hcap : s.rcv.rbuf.bufferLength < 2 ^ 32) (h : SliceOrEmpty r0 S seg) :
    (s.trim seg).len = 0 ∨
      (Slice r0 S (s.trim seg) ∧ s.rcv.rcvNxt.toNat ≤ (s.trim seg).seq.toNat ∧
        (s.trim seg).seq.toNat + (s.trim seg).len.toNat ≤
          s.rcv.rcvNxt.toNat + (s.rcv.rbuf.bufferLength - s.rcv.rbuf.dataLength)) := by
  have hleft := trimLeft_spec s h
  unfold trim
  generalize s.trimLeft seg = g at hleft ⊢
  have hav : (u32 s.rcv.rbuf.getWriteRemaining).toNat =
      s.rcv.rbuf.bufferLength - s.rcv.rbuf.dataLength :=
    toNat_u32 (by unfold FifoBuffer.getWriteRemaining; omega)
  unfold trimRight
  generalize u32 s.rcv.rbuf.getWriteRemaining = available at hav ⊢
  rcases hleft with h0 | ⟨hs, hge⟩
  · left
    simp only
    split_ifs with h1 h2
    · rw [h0] at h2
      exact (BitVec.not_lt_zero h2).elim
    · rfl
    · exact h0
  · have hle := hs.le
    have hsum : (g.seq + g.len).toNat = g.seq.toNat + g.len.toNat := by
      rw [BitVec.toNat_add, Nat.mod_eq_of_lt (Nat.lt_of_le_of_lt hle hS)]
    have hend : (g.seq + g.len - s.rcv.rcvNxt).toNat =
        g.seq.toNat + g.len.toNat - s.rcv.rcvNxt.toNat := by
      rw [BitVec.toNat_sub_of_le (BitVec.le_def.mpr (hsum ▸ Nat.le_add_right_of_le hge)), hsum]
    by_cases hbig : g.seq + g.len - s.rcv.rcvNxt > available
    · have hbig' : available.toNat < g.seq.toNat + g.len.toNat - s.rcv.rcvNxt.toNat := by
        rw [← hend]
        exact hbig
      simp only [if_pos hbig]
      by_cases hadj : g.seq + g.len - s.rcv.rcvNxt - available < g.len
      · simp only [if_pos hadj]
        have hlen : (g.len - (g.seq + g.len - s.rcv.rcvNxt - available)).toNat =
            g.len.toNat - (g.seq.toNat + g.len.toNat - s.rcv.rcvNxt.toNat - available.toNat) := by
          rw [BitVec.toNat_sub_of_le (BitVec.le_of_lt hadj), BitVec.toNat_sub_of_le (BitVec.le_of_lt hbig), hend]
        right
        refine ⟨⟨hs.ge, ?_, ?_⟩, hge, ?_⟩
        · simp only [hlen]
          omega
        · simp only [hlen]
          exact fun i hi => hs.data i (by omega)
        · have hadj' : g.seq.toNat + g.len.toNat - s.rcv.rcvNxt.toNat - available.toNat <
              g.len.toNat := by
            rw [← hend, ← BitVec.toNat_sub_of_le (BitVec.le_of_lt hbig)]
            exact hadj
          simp only [hlen]
          omega
      · simp only [if_neg hadj]
        exact .inl trivial
    · rw [if_neg hbig]
      right
      refine ⟨hs, hge, ?_⟩
      have : g.seq.toNat + g.len.toNat - s.rcv.rcvNxt.toNat ≤ available.toNat := by
        rw [← hend]
        exact Nat.not_lt.mp hbig
      omega

/-! ## What is readable and what waits -/

/-- What was delivered (`got`) and what is readable is `base` and the stream up to `m_rcv_nxt`. -/
structure Reading (r0 : Uint32) (S base got : List Uint8) (i : Incoming) : Prop where
  valid : i.rbuf.Valid
  isOpen : i.rbuf.state = .open
  cap : i.rbuf.bufferLength < 2 ^ 32
  ge : r0.toNat ≤ i.rcvNxt.toNat
  le : i.rcvNxt.toNat ≤ r0.toNat + S.length
  readable : got ++ i.rbuf.contents = base ++ S.take (i.rcvNxt.toNat - r0.toNat)

def Cells (r0 : Uint32) (S : List Uint8) (i : Incoming) (a b : ℕ) : Prop :=
  ∀ k, i.rcvNxt.toNat ≤ k → a ≤ k → k < b →
    S[k - r0.toNat]? = some (i.rbuf.freeCell (k - i.rcvNxt.toNat))

/-- An entry of `m_rlist`: bytes of the stream that stand in the free part of the ring. -/
structure Entry (r0 : Uint32) (S : List Uint8) (i : Incoming) (e : RSegment) : Prop where
  ge : r0.toNat ≤ e.seq.toNat
  le : e.seq.toNat + e.len.toNat ≤ r0.toNat + S.length
  fits : e.seq.toNat + e.len.toNat ≤
    i.rcvNxt.toNat + (i.rbuf.bufferLength - i.rbuf.dataLength)
  cells : Cells r0 S i e.seq.toNat (e.seq.toNat + e.len.toNat)

theorem Entry.fin {i : Incoming} (hS : r0.toNat + S.length < 2 ^ 32)
    (h : Entry r0 S i e) : e.fin.toNat = e.seq.toNat + e.len.toNat := by
  have := h.le
  unfold RSegment.fin
  bv_omega

theorem consume_rcv (s : PseudoTcp) (n : Uint32) :
    (s.consume n).rcv = { s.rcv with
      rbuf := s.rcv.rbuf.consumeWriteBuffer n.toNat
      rcvNxt := s.rcv.rcvNxt + n
      rcvWnd := s.rcv.rcvWnd - n } := by
  simp only [consume, check_eq]

theorem consume_faults (s : PseudoTcp) (n : Uint32) :
    (s.consume n).faults = s.faults ++
      (if s.rcv.rbuf.consumeWriteAssert n.toNat then [] else [.consumeWrite]) ++
      (if n ≤ s.rcv.rcvWnd then [] else [.rcvWnd]) := by
  simp only [consume, check_eq, decide_eq_true_eq]

section Consume

variable {n : Uint32} (hS : r0.toNat + S.length < 2 ^ 32)
  (hle : s.rcv.rcvNxt.toNat + n.toNat ≤ r0.toNat + S.length)
  (hfree : n.toNat ≤ s.rcv.rbuf.bufferLength - s.rcv.rbuf.dataLength)

include hS hle in
theorem consume_rcvNxt : (s.consume n).rcv.rcvNxt.toNat = s.rcv.rcvNxt.toNat + n.toNat := by
  rw [consume_rcv]
  simp only
  bv_omega

include hS hle hfree in
theorem Reading.consume (h : Reading r0 S base got s.rcv)
    (hcells : Cells r0 S s.rcv s.rcv.rcvNxt.toNat (s.rcv.rcvNxt.toNat + n.toNat)) :
    Reading r0 S base got (s.consume n).rcv := by
  have hnxt := consume_rcvNxt hS hle
  have hge := h.ge
  have hfit : s.rcv.rbuf.dataLength + n.toNat ≤ s.rcv.rbuf.bufferLength := by
    have := h.valid.le
    omega
  -- the cells that become readable are the next bytes of the stream
  have hblock : block s.rcv.rbuf.freeCell 0 n.toNat =
      (S.drop (s.rcv.rcvNxt.toNat - r0.toNat)).take n.toNat := by
    refine List.ext_getElem? fun j => ?_
    rw [getElem?_block, List.getElem?_take]
    by_cases hj : j < n.toNat
    · rw [if_pos hj, if_pos hj, List.getElem?_drop]
      have := hcells (s.rcv.rcvNxt.toNat + j) (by omega) (by omega) (by omega)
      rw [show s.rcv.rcvNxt.toNat + j - r0.toNat = s.rcv.rcvNxt.toNat - r0.toNat + j by omega,
        Nat.add_sub_cancel_left] at this
      rw [this, Nat.zero_add]
    · rw [if_neg hj, if_neg hj]
  refine ⟨?_, ?_, ?_, by omega, by omega, ?_⟩
  · rw [consume_rcv]
    exact h.valid.consumeWriteBuffer hfit
  · rw [consume_rcv]
    simpa using h.isOpen
  · rw [consume_rcv]
    simpa using h.cap
  · rw [hnxt, Nat.sub_add_comm hge, List.take_add, ← List.append_assoc, ← h.readable,
      List.append_assoc, ← hblock, consume_rcv]
    simp

include hS hle hfree in
theorem Entry.consume (h : Entry r0 S s.rcv e) : Entry r0 S (s.consume n).rcv e := by
  have hnxt := consume_rcvNxt hS hle
  refine ⟨h.ge, h.le, ?_, fun k hk hlo hhi => ?_⟩
  · have := h.fits
    rw [hnxt, consume_rcv]
    simp only [FifoBuffer.consumeWriteBuffer_bufferLength, FifoBuffer.consumeWriteBuffer_dataLength]
    omega
  · rw [hnxt] at hk ⊢
    rw [h.cells k (by omega) hlo hhi, consume_rcv]
    simp only [FifoBuffer.freeCell_consumeWriteBuffer]
    congr 2
    omega

end Consume

/-! ## The loop over `m_rlist` -/

theorem recoverLoop_rule {I : PseudoTcp → Prop} {E : PseudoTcp → RSegment → Prop}
    (hI : ∀ s r, I s → E s r → r.seq ≤ s.rcv.rcvNxt → r.fin > s.rcv.rcvNxt →
      I (s.consume (r.fin - s.rcv.rcvNxt)))
    (hE : ∀ s r e, I s → E s r → E s e → r.seq ≤ s.rcv.rcvNxt → r.fin > s.rcv.rcvNxt →
      E (s.consume (r.fin - s.rcv.rcvNxt)) e)
    (l : List RSegment) (s : PseudoTcp) (acked : Bool) (h : I s) (hl : ∀ e ∈ l, E s e) :
    ∃ t rest, (recoverLoop l s acked).1 = { t with rcv.rlist := rest } ∧ I t ∧ rest <:+ l ∧
      (∀ e ∈ rest, E t e) ∧ ∀ e ∈ rest.head?, ¬ e.seq ≤ t.rcv.rcvNxt := by
  induction l generalizing s acked with
  | nil => exact ⟨s, [], rfl, h, List.suffix_rfl, hl, by simp⟩
  | cons r l ih =>
    have hr := hl r List.mem_cons_self
    have hl' : ∀ e ∈ l, E s e := fun e he => hl e (List.mem_cons_of_mem _ he)
    simp only [recoverLoop]
    split_ifs with hseq hfin
    · obtain ⟨t, rest, h1, h2, h3, h4⟩ := ih (s.consume (r.fin - s.rcv.rcvNxt)) true
        (hI s r h hr hseq hfin) fun e he => hE s r e h hr (hl' e he) hseq hfin
      exact ⟨t, rest, h1, h2, h3.trans (List.suffix_cons _ _), h4⟩
    · obtain ⟨t, rest, h1, h2, h3, h4⟩ := ih s acked h hl'
      exact ⟨t, rest, h1, h2, h3.trans (List.suffix_cons _ _), h4⟩
    · exact ⟨s, r :: l, rfl, h, List.suffix_rfl, hl, by simpa using hseq⟩

/-! ## Inserting an entry -/

theorem mem_insertRlist {r : RSegment} : e ∈ insertRlist r l ↔ e = r ∨ e ∈ l := by
  induction l with
  | nil => simp [insertRlist]
  | cons x l ih =>
    simp only [insertRlist]
    split_ifs
    · rw [List.mem_cons, ih, List.mem_cons]
      tauto
    · rw [List.mem_cons]

/-- `m_rlist` is sorted by sequence number. -/
def Sorted (l : List RSegment) : Prop := l.Pairwise fun a b => a.seq ≤ b.seq

theorem Sorted.insertRlist (h : Sorted l) (r : RSegment) : Sorted (insertRlist r l) := by
  induction l with
  | nil => exact List.pairwise_singleton _ _
  | cons x l ih =>
    obtain ⟨hx, hl⟩ := List.pairwise_cons.mp h
    simp only [PseudoTcp.insertRlist]
    split_ifs with hlt
    · refine List.pairwise_cons.mpr ⟨fun e he => ?_, ih hl⟩
      rcases mem_insertRlist.mp he with rfl | he
      · exact BitVec.le_of_lt hlt
      · exact hx e he
    · refine List.pairwise_cons.mpr ⟨fun e he => ?_, h⟩
      rcases List.mem_cons.mp he with rfl | he
      · exact BitVec.not_lt.mp hlt
      · have h1 := BitVec.not_lt.mp hlt
        have h2 := hx e he
        bv_omega

/-! ## Receiving a segment -/

/-- **The state of reassembly.** -/
structure Reassembly (r0 : Uint32) (S base got : List Uint8) (i : Incoming) : Prop
    extends Reading r0 S base got i where
  sorted : Sorted i.rlist
  entries : ∀ e ∈ i.rlist, Entry r0 S i e
  ahead : ∀ e ∈ i.rlist, i.rcvNxt < e.seq

def KeepsChecks (s s' : PseudoTcp) : Prop :=
  (.writeOffset ∈ s'.faults → .writeOffset ∈ s.faults) ∧
    (.consumeWrite ∈ s'.faults → .consumeWrite ∈ s.faults)

theorem KeepsChecks.trans {s₁ s₂ s₃ : PseudoTcp} (h : KeepsChecks s₁ s₂) (h' : KeepsChecks s₂ s₃) :
    KeepsChecks s₁ s₃ :=
  ⟨fun hm => h.1 (h'.1 hm), fun hm => h.2 (h'.2 hm)⟩

theorem KeepsChecks.consume (s : PseudoTcp) {n : Uint32}
    (hfree : n.toNat ≤ s.rcv.rbuf.bufferLength - s.rcv.rbuf.dataLength) :
    KeepsChecks s (s.consume n) := by
  have hok : s.rcv.rbuf.consumeWriteAssert n.toNat = true := decide_eq_true hfree
  unfold KeepsChecks
  rw [consume_faults, if_pos hok, List.append_nil]
  constructor <;> intro hm <;> rcases List.mem_append.mp hm with hm | hm
  · exact hm
  · split_ifs at hm <;> simp at hm
  · exact hm
  · split_ifs at hm <;> simp at hm

/-- The payload of `g` copied to its place in the ring. -/
def placed (s : PseudoTcp) (g : Segment) : PseudoTcp :=
  let off := g.seq.toNat - s.rcv.rcvNxt.toNat
  { s with rcv.rbuf := s.rcv.rbuf.stored g.data g.len.toNat off }

section Receive

variable {g : Segment} (hS : r0.toNat + S.length < 2 ^ 32) (h0 : g.len ≠ 0) (hs : Slice r0 S g)
  (hge : s.rcv.rcvNxt.toNat ≤ g.seq.toNat)
  (hfit : g.seq.toNat + g.len.toNat ≤
    s.rcv.rcvNxt.toNat + (s.rcv.rbuf.bufferLength - s.rcv.rbuf.dataLength))

include h0 hge hfit in
theorem writePayload_eq (hopen : s.rcv.rbuf.state = .open) : s.writePayload g = s.placed g := by
  have hoff : (g.seq - s.rcv.rcvNxt).toNat = g.seq.toNat - s.rcv.rcvNxt.toNat := by bv_omega
  have hpos : 0 < g.len.toNat := by bv_omega
  have hclosed : s.rcv.rbuf.state ≠ .closed := by rw [hopen]; decide
  have hw := FifoBuffer.writeOffset_spec hclosed g.data g.len.toNat
    (g.seq.toNat - s.rcv.rcvNxt.toNat)
  rw [if_pos (by omega), Nat.min_eq_left (by omega)] at hw
  unfold writePayload placed
  rw [hoff, hw]
  simp

include h0 hge hfit in
theorem placed_cell {i : ℕ} (hi : i < s.rcv.rbuf.bufferLength - s.rcv.rbuf.dataLength) :
    (s.placed g).rcv.rbuf.freeCell i =
      if g.seq.toNat ≤ s.rcv.rcvNxt.toNat + i ∧ s.rcv.rcvNxt.toNat + i < g.seq.toNat + g.len.toNat
      then g.data (s.rcv.rcvNxt.toNat + i - g.seq.toNat) else s.rcv.rbuf.freeCell i := by
  have hpos : 0 < g.len.toNat := by bv_omega
  have hroom : s.rcv.rbuf.dataLength + (g.seq.toNat - s.rcv.rcvNxt.toNat) + g.len.toNat ≤
      s.rcv.rbuf.bufferLength := by omega
  rw [placed]
  simp only
  rw [FifoBuffer.freeCell_stored hroom hi]
  split_ifs with h1 h2 h2
  · congr 1
    omega
  · omega
  · omega
  · rfl

include h0 hge hfit in
theorem placed_contents : (s.placed g).rcv.rbuf.contents = s.rcv.rbuf.contents := by
  have hpos : 0 < g.len.toNat := by bv_omega
  exact FifoBuffer.contents_stored (by omega)

include h0 hs hge hfit in
theorem cells_placed_new : Cells r0 S (s.placed g).rcv g.seq.toNat (g.seq.toNat + g.len.toNat) := by
  intro k hk hlo hhi
  have hk' : s.rcv.rcvNxt.toNat ≤ k := hk
  have hsge := hs.ge
  change _ = some ((s.placed g).rcv.rbuf.freeCell (k - s.rcv.rcvNxt.toNat))
  rw [placed_cell h0 hge hfit (by omega), if_pos (by omega)]
  rw [show k - r0.toNat = g.seq.toNat - r0.toNat + (k - g.seq.toNat) by omega,
    hs.data _ (by omega)]
  congr 2
  omega

include h0 hs hge hfit in
theorem cells_placed_old {a b : ℕ} (h : Cells r0 S s.rcv a b)
    (hb : b ≤ s.rcv.rcvNxt.toNat + (s.rcv.rbuf.bufferLength - s.rcv.rbuf.dataLength)) :
    Cells r0 S (s.placed g).rcv a b := by
  intro k hk hlo hhi
  have hk' : s.rcv.rcvNxt.toNat ≤ k := hk
  by_cases hin : g.seq.toNat ≤ k ∧ k < g.seq.toNat + g.len.toNat
  · exact cells_placed_new h0 hs hge hfit k hk hin.1 hin.2
  · change _ = some ((s.placed g).rcv.rbuf.freeCell (k - s.rcv.rcvNxt.toNat))
    rw [placed_cell h0 hge hfit (by omega), if_neg (by omega)]
    exact h k hk' hlo hhi

include h0 hge hfit in
theorem Reading.placed (h : Reading r0 S base got s.rcv) : Reading r0 S base got (s.placed g).rcv :=
  ⟨h.valid.stored, h.isOpen, h.cap, h.ge, h.le, by
    rw [placed_contents h0 hge hfit]; exact h.readable⟩

include h0 hs hge hfit in
theorem Entry.placed (h : Entry r0 S s.rcv e) : Entry r0 S (s.placed g).rcv e :=
  ⟨h.ge, h.le, h.fits, cells_placed_old h0 hs hge hfit h.cells h.fits⟩

theorem Entry.reach {r : RSegment} (hS : r0.toNat + S.length < 2 ^ 32) (h : Entry r0 S s.rcv r)
    (hseq : r.seq ≤ s.rcv.rcvNxt) (hfin : r.fin > s.rcv.rcvNxt) :
    s.rcv.rcvNxt.toNat + (r.fin - s.rcv.rcvNxt).toNat ≤ r0.toNat + S.length ∧
      (r.fin - s.rcv.rcvNxt).toNat ≤ s.rcv.rbuf.bufferLength - s.rcv.rbuf.dataLength ∧
      Cells r0 S s.rcv s.rcv.rcvNxt.toNat
        (s.rcv.rcvNxt.toNat + (r.fin - s.rcv.rcvNxt).toNat) := by
  have hf := h.fin hS
  have hle := h.le
  have hfits := h.fits
  have hseq' : r.seq.toNat ≤ s.rcv.rcvNxt.toNat := hseq
  have hfin' : s.rcv.rcvNxt.toNat < r.fin.toNat := hfin
  have hsub : (r.fin - s.rcv.rcvNxt).toNat = r.fin.toNat - s.rcv.rcvNxt.toNat := by bv_omega
  rw [hsub]
  refine ⟨by omega, by omega, fun k hk _ hhi => ?_⟩
  exact h.cells k hk (by omega) (by omega)

theorem Sorted.ahead {nxt : Uint32} (h : Sorted l) (hhead : ∀ e ∈ l.head?, ¬ e.seq ≤ nxt) : ∀ e ∈ l, nxt < e.seq := by
  cases l with
  | nil => intro e he; cases he
  | cons x l =>
    have hx : nxt < x.seq := BitVec.not_le.mp (hhead x rfl)
    intro e he
    rcases List.mem_cons.mp he with rfl | he
    · exact hx
    · have hle := (List.pairwise_cons.mp h).1 e he
      bv_omega

include hS h0 hs hge hfit in
theorem Reassembly.store (h : Reassembly r0 S base got s.rcv) (sflags : SendFlags) :
    Reassembly r0 S base got (s.store g sflags).1.rcv ∧ KeepsChecks s (s.store g sflags).1 := by
  have hr := h.toReading.placed h0 hge hfit
  have he : ∀ e ∈ s.rcv.rlist, Entry r0 S (s.placed g).rcv e :=
    fun e hm => (h.entries e hm).placed h0 hs hge hfit
  have hnew : Entry r0 S (s.placed g).rcv ⟨g.seq, g.len⟩ :=
    ⟨hs.ge, hs.le, hfit, cells_placed_new h0 hs hge hfit⟩
  have hlist : (s.placed g).rcv.rlist = s.rcv.rlist := rfl
  have hnxt : (s.placed g).rcv.rcvNxt = s.rcv.rcvNxt := rfl
  have hchecks : KeepsChecks s (s.placed g) := ⟨id, id⟩
  unfold PseudoTcp.store
  rw [writePayload_eq h0 hge hfit h.isOpen]
  generalize s.placed g = t at *
  by_cases hseq : g.seq = t.rcv.rcvNxt
  · -- in order: the bytes become readable, and so do the entries they reach
    simp only [if_pos hseq]
    have hle : t.rcv.rcvNxt.toNat + g.len.toNat ≤ r0.toNat + S.length := by
      rw [← hseq]
      exact hs.le
    have hfree : g.len.toNat ≤ t.rcv.rbuf.bufferLength - t.rcv.rbuf.dataLength := by
      have hfits : g.seq.toNat + g.len.toNat ≤ _ := hnew.fits
      rw [← hseq] at hfits
      omega
    have hcells : Cells r0 S t.rcv t.rcv.rcvNxt.toNat (t.rcv.rcvNxt.toNat + g.len.toNat) := by
      have := hnew.cells
      rw [hseq] at this
      exact this
    have hl : (t.consume g.len).rcv.rlist = s.rcv.rlist := by rw [consume_rcv]; exact hlist
    obtain ⟨u, rest, hu, ⟨hread, hkeep⟩, hsuf, hent, hhead⟩ := recoverLoop_rule
      (I := fun u => Reading r0 S base got u.rcv ∧ KeepsChecks s u)
      (E := fun u e => Entry r0 S u.rcv e)
      (fun u r hI hr hseq hfin => by
        obtain ⟨h1, h2, h3⟩ := hr.reach hS hseq hfin
        exact ⟨hI.1.consume hS h1 h2 h3, hI.2.trans (.consume u h2)⟩)
      (fun u r e _ hr he hseq hfin => by
        obtain ⟨h1, h2, -⟩ := hr.reach hS hseq hfin
        exact he.consume hS h1 h2)
      s.rcv.rlist (t.consume g.len) false
      ⟨hr.consume hS hle hfree hcells, hchecks.trans (.consume t hfree)⟩
      fun e hm => (he e hm).consume hS hle hfree
    rw [hl, hu]
    have hsorted : Sorted rest := h.sorted.sublist hsuf.sublist
    exact ⟨⟨⟨hread.valid, hread.isOpen, hread.cap, hread.ge, hread.le, hread.readable⟩, hsorted,
      fun e hm => ⟨(hent e hm).ge, (hent e hm).le, (hent e hm).fits, (hent e hm).cells⟩,
      hsorted.ahead hhead⟩, hkeep⟩
  · -- out of order: the segment becomes an entry
    simp only [if_neg hseq]
    have hlt : t.rcv.rcvNxt < g.seq := by
      rw [hnxt] at hseq ⊢
      bv_omega
    refine ⟨⟨⟨hr.valid, hr.isOpen, hr.cap, hr.ge, hr.le, hr.readable⟩, ?_, ?_, ?_⟩, hchecks⟩
    · rw [hlist]
      exact h.sorted.insertRlist _
    · intro e hm
      have he' : Entry r0 S t.rcv e := by
        rcases mem_insertRlist.mp hm with rfl | hm
        · exact hnew
        · exact he e (hlist ▸ hm)
      exact ⟨he'.ge, he'.le, he'.fits, he'.cells⟩
    · intro e hm
      rcases mem_insertRlist.mp hm with rfl | hm
      · exact hlt
      · have := h.ahead e (hlist ▸ hm)
        rw [← hnxt] at this
        exact this

end Receive

theorem Reassembly.congr {i i' : Incoming} (h : Reassembly r0 S base got i)
    (hlist : i'.rlist = i.rlist) (hnxt : i'.rcvNxt = i.rcvNxt) (hbuf : i'.rbuf = i.rbuf) :
    Reassembly r0 S base got i' := by
  obtain ⟨rlist, _, rcvNxt, _, _, _, rbuf⟩ := i
  obtain ⟨rlist', _, rcvNxt', _, _, _, rbuf'⟩ := i'
  cases hlist
  cases hnxt
  cases hbuf
  obtain ⟨⟨h1, h2, h3, h4, h5, h6⟩, h7, h8, h9⟩ := h
  exact ⟨⟨h1, h2, h3, h4, h5, h6⟩, h7,
    fun e he => ⟨(h8 e he).ge, (h8 e he).le, (h8 e he).fits, (h8 e he).cells⟩, h9⟩

/-- A slice of the stream, or something before it. -/
def Expected (r0 : Uint32) (S : List Uint8) (s : PseudoTcp) (seg : Segment) : Prop :=
  (seg.flags &&& flagCtl = 0 ∧ SliceOrEmpty r0 S seg) ∨
    (seg.seq.toNat + seg.len.toNat ≤ r0.toNat ∧ s.rcv.rwndScale = 0)

theorem trim_old (s : PseudoTcp) (h : seg.seq.toNat + seg.len.toNat ≤ s.rcv.rcvNxt.toNat) : (s.trim seg).len = 0 := by
  have hleft : (s.trimLeft seg).len = 0 := by
    unfold trimLeft
    by_cases hlt : seg.seq < s.rcv.rcvNxt
    · have hadj : ¬ s.rcv.rcvNxt - seg.seq < seg.len := by bv_omega
      simp only [if_pos hlt, if_neg hadj]
    · rw [if_neg hlt]
      bv_omega
  unfold trim trimRight
  simp only [hleft]
  split_ifs with h1 h2
  · bv_omega
  · rfl
  · exact hleft

/-- **A segment is received**: the stream goes on as far as there is no gap. -/
theorem Reassembly.receive (hS : r0.toNat + S.length < 2 ^ 32) (hsd : s.shutdown = .none) (hseg : Expected r0 S s seg) (sflags : SendFlags)
    (h : Reassembly r0 S base got s.rcv) :
    Reassembly r0 S base got (s.receive (s.trim seg) sflags).1.rcv ∧
      KeepsChecks s (s.receive (s.trim seg) sflags).1 := by
  have hempty : (s.trim seg).len = 0 →
      Reassembly r0 S base got (s.receive (s.trim seg) sflags).1.rcv ∧
        KeepsChecks s (s.receive (s.trim seg) sflags).1 := by
    intro h0
    rw [PseudoTcp.receive, if_pos h0]
    exact ⟨h, ⟨id, id⟩⟩
  rcases hseg with ⟨hctl, hslice⟩ | ⟨hold, -⟩
  · by_cases h0 : (s.trim seg).len = 0
    · exact hempty h0
    · obtain ⟨hs, hge, hfit⟩ := (trim_spec s hS h.cap hslice).resolve_left h0
      have hdata : s.ignoresData (s.trim seg) = false := by
        simp [ignoresData, trim_flags, hctl, hsd]
      rw [PseudoTcp.receive, if_neg h0, hdata]
      exact h.store hS h0 hs hge hfit sflags
  · exact hempty (trim_old s (by have := h.ge; omega))

/-! ## Runs -/

/-- The calls that change what is readable or wanted. -/
def Op.Rearranges : Op → Prop
  | .close _ | .recv _ | .setOption .rcvbuf _ => True
  | _ => False

/-- The state goes on as a receiver of the stream. -/
structure Receives (r0 : Uint32) (S base got : List Uint8) (s s' : PseudoTcp) : Prop where
  reassembly : Reassembly r0 S base got s'.rcv
  checks : KeepsChecks s s'
  shutdown : s'.shutdown = s.shutdown
  rwndScale : s'.rcv.rwndScale = s.rcv.rwndScale

theorem Receives.silent (h : Reassembly r0 S base got s.rcv) (hrcv : s'.rcv = s.rcv)
    (hsd : s'.shutdown = s.shutdown) (hfaults : s'.faults = s.faults) :
    Receives r0 S base got s s' := by
  refine ⟨by rw [hrcv]; exact h, ?_, hsd, by rw [hrcv]⟩
  unfold KeepsChecks
  rw [hfaults]
  exact ⟨id, id⟩

theorem Receives.steady (h : Reassembly r0 S base got s.rcv) (hm : Steady s s') : Receives r0 S base got s s' := by
  refine ⟨h.congr hm.rlist hm.rcvNxt hm.rbuf, ⟨fun hf => ?_, fun hf => ?_⟩, hm.shutdown,
    hm.rwndScale⟩
  all_goals
    rcases hm.faults _ hf with h1 | h1 | h1
    · exact h1
    · exact (h1 trivial).elim
    · cases h1.1

theorem Receives.trans {s₁ s₂ s₃ : PseudoTcp} (h : Receives r0 S base got s₁ s₂)
    (h' : Receives r0 S base got s₂ s₃) : Receives r0 S base got s₁ s₃ :=
  ⟨h'.reassembly, h.checks.trans h'.checks, h'.shutdown.trans h.shutdown,
    h'.rwndScale.trans h.rwndScale⟩

theorem Reassembly.recvMove {op : Op} {inc : Option Segment} (hS : r0.toNat + S.length < 2 ^ 32)
    (hop : ¬ op.Rearranges) (hinc : ∀ seg, inc = some seg → Expected r0 S s seg)
    (hsd : s.shutdown = .none) (h : Reassembly r0 S base got s.rcv) (hm : RecvMove op inc s s') :
    Receives r0 S base got s s' := by
  cases hm with
  | steady hm => exact .steady h hm
  | close hop' | read hop' => exact (hop (hop' ▸ trivial)).elim
  | resize hop' => exact (hop (hop' ▸ trivial)).elim
  | connect => exact .silent h rfl rfl rfl
  | synReceived => exact .silent h rfl rfl rfl
  | establish => exact .silent h rfl rfl rfl
  | closedown => exact .silent h rfl rfl rfl
  | @options seg hinc' hctl =>
    -- only a receiver with a window scale resizes its buffer
    have hscale : s.rcv.rwndScale = 0 := by
      rcases hinc seg hinc' with hd | hd
      · exact (hctl hd.1).elim
      · exact hd.2
    rcases parseOptions_cases s (block seg.data 1 (seg.len - 1).toNat) with ⟨scale, ho⟩ | ⟨hpos, -⟩
    · rw [ho]
      exact .silent h rfl rfl rfl
    · rw [hscale] at hpos
      exact absurd hpos (by decide)
  | @payload t seg hinc' _ ht =>
    have hframe := RecvFrame.receive s (s.trim seg) (s.ackFlags seg)
    obtain ⟨h1, h2⟩ := h.receive hS hsd (hinc seg hinc') (s.ackFlags seg)
    have hsd' : (s.receive (s.trim seg) (s.ackFlags seg)).1.shutdown = s.shutdown := by
      obtain ⟨r, fs, hr, -⟩ := hframe
      rw [hr]
    generalize s.receive (s.trim seg) (s.ackFlags seg) = r at *
    have hr : Receives r0 S base got s r.1 := ⟨h1, h2, hsd', hframe.rwndScale⟩
    have ht' := hr.trans (.steady h1 (.of_sendFrame ht))
    refine ht'.trans ?_
    unfold notifyReadable
    split_ifs <;> exact .silent ht'.reassembly rfl rfl rfl
  | checkWindow =>
    rw [check_eq]
    refine ⟨h, ?_, rfl, rfl⟩
    unfold KeepsChecks
    split_ifs <;> simp
  | widen => exact ⟨h.congr rfl rfl rfl, ⟨id, id⟩, rfl, rfl⟩

theorem Reassembly.recvMoves {op : Op} {inc : Option Segment} (hS : r0.toNat + S.length < 2 ^ 32)
    (hop : ¬ op.Rearranges) (hinc : ∀ seg, inc = some seg → Expected r0 S s seg)
    (hsd : s.shutdown = .none) (h : Reassembly r0 S base got s.rcv) (hm : RecvMoves op inc s s') :
    Receives r0 S base got s s' := by
  induction hm with
  | refl => exact .silent h rfl rfl rfl
  | tail _ hlast ih =>
    refine ih.trans (Reassembly.recvMove hS hop (fun seg hseg => ?_) (ih.shutdown.trans hsd)
      ih.reassembly hlast)
    rcases hinc seg hseg with hd | hd
    · exact .inl hd
    · exact .inr ⟨hd.1, ih.rwndScale.trans hd.2⟩

theorem Reassembly.read (h : Reassembly r0 S base got s.rcv) (n : ℕ) :
    Reassembly r0 S base (got ++ (s.rcv.rbuf.read n).2.1)
      { s.rcv with rbuf := (s.rcv.rbuf.read n).2.2 } := by
  rw [FifoBuffer.read_spec h.valid]
  by_cases hpos : 0 < s.rcv.rbuf.dataLength
  · rw [if_pos hpos]
    refine ⟨⟨h.valid.afterRead (Nat.min_le_right _ _), by simpa using h.isOpen,
      by simpa using h.cap, h.ge, h.le, ?_⟩, h.sorted, fun e he => ?_, h.ahead⟩
    · rw [← h.readable, FifoBuffer.contents_afterRead, List.append_assoc]
      congr 1
      rw [← FifoBuffer.length_contents, ← List.drop_eq_drop_min, List.take_append_drop]
    · have hent := h.entries e he
      have hval := h.valid.le
      refine ⟨hent.ge, hent.le, ?_, fun k hk hlo hhi => ?_⟩
      · have := hent.fits
        simp only [FifoBuffer.afterRead_bufferLength, FifoBuffer.afterRead_dataLength]
        omega
      · simp only [FifoBuffer.freeCell_afterRead (Nat.min_le_right _ _)]
        exact hent.cells k hk hlo hhi
  · rw [if_neg hpos, List.append_nil]
    exact h.congr rfl rfl rfl

theorem Reassembly.reopenWindow (hS : r0.toNat + S.length < 2 ^ 32) (hsd : s.shutdown = .none)
    (h : Reassembly r0 S base got s.rcv) : Receives r0 S base got s s.reopenWindow := by
  have hm : RecvMoves .connect none s s.reopenWindow := reopenWindow_recvMoves s
  exact h.recvMoves hS id (fun seg hseg => by cases hseg) hsd hm

theorem Reassembly.recv (hS : r0.toNat + S.length < 2 ^ 32) (hsd : s.shutdown = .none)
    (h : Reassembly r0 S base got s.rcv) (n : ℕ) :
    Receives r0 S base (got ++ (s.recv n).2.getD []) s (s.recv n).1 := by
  have hread := h.read n
  unfold PseudoTcp.recv
  split_ifs
  · rw [Option.getD_none, List.append_nil]
    exact .silent h rfl rfl rfl
  · have hspec := FifoBuffer.read_spec h.valid n
    split
    · next out rbuf heq =>
      have hout : out = [] := by
        rw [heq] at hspec
        by_cases hpos : 0 < s.rcv.rbuf.dataLength
        · rw [if_pos hpos] at hspec
          cases hspec
        · rw [if_neg hpos] at hspec
          exact congrArg (·.2.1) hspec
      rw [heq, hout] at hread
      exact ⟨hread.congr rfl rfl rfl, ⟨id, id⟩, rfl, rfl⟩
    · next result out rbuf _ heq =>
      rw [heq] at hread
      have hchecked : Receives r0 S base (got ++ out) s
          { s.check .recvResult (result = .success) with rcv.rbuf := rbuf } := by
        rw [check_eq]
        refine ⟨hread.congr rfl rfl rfl, ?_, rfl, rfl⟩
        unfold KeepsChecks
        split_ifs <;> simp
      exact hchecked.trans
        (hchecked.reassembly.reopenWindow hS (hchecked.shutdown.trans hsd))

/-- What happens to a receiver: a segment arrives, or the user reads. -/
inductive RecvOp where
  | segment (seg : Segment)
  | recv (len : ℕ)

/-- A receiver, and the bytes `Recv` has delivered. -/
structure Receiver where
  tcp : PseudoTcp
  delivered : List Uint8

def Receiver.step (r : Receiver) : RecvOp → Receiver
  | .segment seg => { r with tcp := (r.tcp.process seg).1 }
  | .recv len => ⟨(r.tcp.recv len).1, r.delivered ++ (r.tcp.recv len).2.getD []⟩

/-- A data segment with a slice of the stream. -/
def RecvOp.Truthful (r0 : Uint32) (S : List Uint8) : RecvOp → Prop
  | .segment seg => seg.flags &&& flagCtl = 0 ∧ seg.flags &&& flagRst = 0 ∧ SliceOrEmpty r0 S seg
  | .recv _ => True

/-- The ring is a bounded queue that is not closed, and its size is a `uint32`. -/
structure SoundRing (f : FifoBuffer) : Prop where
  valid : f.Valid
  isOpen : f.state = .open
  cap : f.bufferLength < 2 ^ 32

/-- The bytes of an entry of `m_rlist` stand in the ring. -/
structure Stored (r0 : Uint32) (S : List Uint8) (i : Incoming) (e : RSegment) : Prop where
  ahead : i.rcvNxt < e.seq
  fits : (e.seq - i.rcvNxt).toNat + e.len.toNat ≤ i.rbuf.getWriteRemaining
  bytes : ∀ j < e.len.toNat, S[(e.seq - r0).toNat + j]? =
    some (i.rbuf.freeCell ((e.seq - i.rcvNxt).toNat + j))

theorem Reassembly.stored {i : Incoming} (h : Reassembly r0 S base got i) : ∀ e ∈ i.rlist, Stored r0 S i e := by
  intro e he
  have hent := h.entries e he
  have hlt := h.ahead e he
  have hge := hent.ge
  have hlt' : i.rcvNxt.toNat < e.seq.toNat := hlt
  have h1 : (e.seq - i.rcvNxt).toNat = e.seq.toNat - i.rcvNxt.toNat := by bv_omega
  have h2 : (e.seq - r0).toNat = e.seq.toNat - r0.toNat := by bv_omega
  refine ⟨hlt, ?_, fun j hj => ?_⟩
  · have := hent.fits
    rw [h1, FifoBuffer.getWriteRemaining]
    omega
  · have := hent.cells (e.seq.toNat + j) (by omega) (by omega) (by omega)
    rw [h1, h2, show e.seq.toNat - r0.toNat + j = e.seq.toNat + j - r0.toNat by omega, this]
    congr 2
    omega

theorem Reassembly.receiverStep (hS : r0.toNat + S.length < 2 ^ 32) {r : Receiver}
    (hsd : r.tcp.shutdown = .none) (h : Reassembly r0 S base r.delivered r.tcp.rcv) {op : RecvOp}
    (hop : op.Truthful r0 S) :
    Receives r0 S base (r.step op).delivered r.tcp (r.step op).tcp := by
  cases op with
  | segment seg =>
    obtain ⟨hctl, -, hslice⟩ := hop
    have hm : RecvMoves .connect (some seg) r.tcp (r.tcp.process seg).1 :=
      process_recvMoves r.tcp fun _ => rfl
    exact Reassembly.recvMoves hS id (fun g hg => by cases hg; exact .inl ⟨hctl, hslice⟩) hsd h hm
  | recv len => exact h.recv hS hsd len

/-- **Receiver reassembly**: if the segments carry slices of `S`, in any order, what the user gets
is what was readable and then `S` up to `m_rcv_nxt`; what waits is sorted and stored. -/
theorem receiver_reassembles (s : PseudoTcp) (S : List Uint8) (ops : List RecvOp)
    (hsd : s.shutdown = .none) (hring : SoundRing s.rcv.rbuf) (hlist : s.rcv.rlist = [])
    (hS : s.rcv.rcvNxt.toNat + S.length < 2 ^ 32)
    (hops : ∀ op ∈ ops, op.Truthful s.rcv.rcvNxt S) :
    let r := run Receiver.step ⟨s, []⟩ ops
    r.delivered ++ r.tcp.rcv.rbuf.contents =
        s.rcv.rbuf.contents ++ S.take (r.tcp.rcv.rcvNxt - s.rcv.rcvNxt).toNat ∧
      Sorted r.tcp.rcv.rlist ∧
      (∀ e ∈ r.tcp.rcv.rlist, Stored s.rcv.rcvNxt S r.tcp.rcv e) ∧
      (.writeOffset ∈ r.tcp.faults → .writeOffset ∈ s.faults) ∧
      (.consumeWrite ∈ r.tcp.faults → .consumeWrite ∈ s.faults) := by
  intro r
  have hstart : Reassembly s.rcv.rcvNxt S s.rcv.rbuf.contents [] s.rcv := by
    refine ⟨⟨hring.valid, hring.isOpen, hring.cap, le_rfl, Nat.le_add_right _ _, by simp⟩, ?_, ?_, ?_⟩
    · rw [hlist]; exact List.Pairwise.nil
    · rw [hlist]; simp
    · rw [hlist]; simp
  obtain ⟨h, hkeep, -⟩ : Reassembly s.rcv.rcvNxt S s.rcv.rbuf.contents r.delivered r.tcp.rcv ∧
      KeepsChecks s r.tcp ∧ r.tcp.shutdown = .none :=
    run_invariant (I := fun r : Receiver =>
        Reassembly s.rcv.rcvNxt S s.rcv.rbuf.contents r.delivered r.tcp.rcv ∧
          KeepsChecks s r.tcp ∧ r.tcp.shutdown = .none)
      (fun r op hr hop => by
        have := hr.1.receiverStep hS hr.2.2 hop
        exact ⟨this.reassembly, hr.2.1.trans this.checks, this.shutdown.trans hr.2.2⟩)
      ⟨hstart, ⟨id, id⟩, hsd⟩ (guarded_of_forall hops _)
  have hsub : (r.tcp.rcv.rcvNxt - s.rcv.rcvNxt).toNat =
      r.tcp.rcv.rcvNxt.toNat - s.rcv.rcvNxt.toNat := by
    have := h.ge
    bv_omega
  refine ⟨?_, h.sorted, h.stored, hkeep.1, hkeep.2⟩
  rw [hsub]
  exact h.readable

instance (r0 : Uint32) (S : List Uint8) (seg : Segment) : Decidable (Slice r0 S seg) :=
  decidable_of_iff (r0.toNat ≤ seg.seq.toNat ∧ seg.seq.toNat + seg.len.toNat ≤ r0.toNat + S.length ∧
      ∀ i < seg.len.toNat, S[seg.seq.toNat - r0.toNat + i]? = some (seg.data i))
    ⟨fun h => ⟨h.1, h.2.1, h.2.2⟩, fun h => ⟨h.ge, h.le, h.data⟩⟩

instance (r0 : Uint32) (S : List Uint8) (op : RecvOp) : Decidable (op.Truthful r0 S) :=
  match op with
  | .segment seg => inferInstanceAs (Decidable (_ ∧ _ ∧ (seg.len = 0 ∨ Slice r0 S seg)))
  | .recv _ => inferInstanceAs (Decidable True)

def established : PseudoTcp := run step (new calmWorld 0) [.connect, .packet connectReply]

theorem soundRing_established : SoundRing established.rcv.rbuf :=
  ⟨⟨by decide, by decide⟩, by decide, by decide⟩

/-- The end of a stream arrives first. -/
def reorderOps : List RecvOp :=
  [.segment (dataSegment 6 [12, 13]), .segment (dataSegment 4 [10, 11, 12]), .recv 3]

theorem receiver_reassembles_reordered :
    (run Receiver.step ⟨established, []⟩ reorderOps).delivered = [10, 11, 12] ∧
      (run Receiver.step ⟨established, []⟩ reorderOps).delivered ++
          (run Receiver.step ⟨established, []⟩ reorderOps).tcp.rcv.rbuf.contents =
        established.rcv.rbuf.contents ++ [10, 11, 12, 13].take
          ((run Receiver.step ⟨established, []⟩ reorderOps).tcp.rcv.rcvNxt -
            established.rcv.rcvNxt).toNat :=
  ⟨by decide, (receiver_reassembles established [10, 11, 12, 13] reorderOps
    (by decide) soundRing_established (by decide) (by decide)
    (by decide)).1⟩

/-- A byte was readable before `S` began. -/
def unread : PseudoTcp := (established.process (dataSegment 4 [7])).1

theorem receiver_delivers_older :
    unread.state = .established ∧ unread.shutdown = .none ∧ unread.rcv.rlist = [] ∧
      ¬ ∀ (S : List Uint8) (ops : List RecvOp), unread.rcv.rcvNxt.toNat + S.length < 2 ^ 32 →
        (∀ op ∈ ops, op.Truthful unread.rcv.rcvNxt S) →
        (run Receiver.step ⟨unread, []⟩ ops).delivered ++
            (run Receiver.step ⟨unread, []⟩ ops).tcp.rcv.rbuf.contents =
          S.take ((run Receiver.step ⟨unread, []⟩ ops).tcp.rcv.rcvNxt - unread.rcv.rcvNxt).toNat := by
  refine ⟨by decide, by decide, by decide, fun h => ?_⟩
  have := h [] [] (by decide) (by simp)
  revert this
  decide

end PseudoTcp

end Libjingle
