import Libjingle.PseudoTcp.Frame
import Libjingle.Fifo.Spec

/-!
# The send queue: lengths and what is in flight

Main results: **`QueueInv.queue`**, **`QueueInv.cut`**, **`QueueInv.transmitted`**,
**`QueueInv.advanceUna`**.
-/

variable {s : PseudoTcp} {n : Uint32}

namespace Libjingle

open Lib

/-! ## Arithmetic of the machine words -/

@[simp] theorem toNat_min32 (a b : Uint32) : (min32 a b).toNat = min a.toNat b.toNat := by
  unfold min32
  split_ifs <;> bv_omega

@[simp] theorem toNat_max32 (a b : Uint32) : (max32 a b).toNat = max a.toNat b.toNat := by
  unfold max32
  split_ifs <;> bv_omega

theorem toNat_u32 {n : ℕ} (h : n < 2 ^ 32) : (u32 n).toNat = n := by bv_omega

theorem PseudoTcp.TableMss.ge (h : PseudoTcp.TableMss n) : 180 ≤ n.toNat := by
  obtain ⟨mtu, hmem, h0, rfl⟩ := h
  simp only [packetMaximums, List.mem_cons, List.not_mem_nil, or_false] at hmem
  rcases hmem with rfl | rfl | rfl | rfl | rfl | rfl | rfl | rfl | rfl | rfl | rfl
  case inr.inr.inr.inr.inr.inr.inr.inr.inr.inr => exact absurd rfl h0
  all_goals decide

/-! ## Sums over the list -/

def totalBytes (l : List SSegment) : ℕ := (l.map fun g => g.len.toNat).sum

def sentBytes (l : List SSegment) : ℕ := (l.map fun g => if g.xmit = 0 then 0 else g.len.toNat).sum

def Ordered (l : List SSegment) : Prop := l.Pairwise fun a b => a.xmit = 0 → b.xmit = 0

@[simp] theorem totalBytes_nil : totalBytes [] = 0 := rfl
@[simp] theorem sentBytes_nil : sentBytes [] = 0 := rfl

@[simp] theorem totalBytes_cons (g : SSegment) (l : List SSegment) :
    totalBytes (g :: l) = g.len.toNat + totalBytes l := by simp [totalBytes]

@[simp] theorem sentBytes_cons (g : SSegment) (l : List SSegment) :
    sentBytes (g :: l) = (if g.xmit = 0 then 0 else g.len.toNat) + sentBytes l := by
  simp [sentBytes]

@[simp] theorem totalBytes_append (l l' : List SSegment) : totalBytes (l ++ l') = totalBytes l + totalBytes l' := by
  simp [totalBytes]

@[simp] theorem sentBytes_append (l l' : List SSegment) :
    sentBytes (l ++ l') = sentBytes l + sentBytes l' := by simp [sentBytes]

theorem sentBytes_le_total (l : List SSegment) : sentBytes l ≤ totalBytes l := by
  induction l with
  | nil => exact Nat.le_refl 0
  | cons g l ih =>
    simp only [sentBytes_cons, totalBytes_cons]
    split_ifs <;> omega

theorem sentBytes_eq_zero {l : List SSegment} (h : ∀ g ∈ l, g.xmit = 0) : sentBytes l = 0 := by
  induction l with
  | nil => rfl
  | cons g l ih =>
    simp [h g List.mem_cons_self, ih fun g' hg' => h g' (List.mem_cons_of_mem _ hg')]

theorem Ordered.split {l : List SSegment} (h : Ordered l) :
    ∃ sent unsent, l = sent ++ unsent ∧ (∀ g ∈ sent, g.xmit ≠ 0) ∧ (∀ g ∈ unsent, g.xmit = 0) := by
  induction l with
  | nil => exact ⟨[], [], rfl, by simp, by simp⟩
  | cons g l ih =>
    obtain ⟨hg, hl⟩ := List.pairwise_cons.mp h
    by_cases hx : g.xmit = 0
    · refine ⟨[], g :: l, rfl, by simp, fun g' hg' => ?_⟩
      rcases List.mem_cons.mp hg' with rfl | hm
      · exact hx
      · exact hg g' hm hx
    · obtain ⟨sent, unsent, rfl, hs, hu⟩ := ih hl
      refine ⟨g :: sent, unsent, rfl, fun g' hg' => ?_, hu⟩
      rcases List.mem_cons.mp hg' with rfl | hm
      · exact hx
      · exact hs g' hm

theorem sentBytes_split {sent unsent : List SSegment} (hs : ∀ g ∈ sent, g.xmit ≠ 0)
    (hu : ∀ g ∈ unsent, g.xmit = 0) : sentBytes (sent ++ unsent) = totalBytes sent := by
  rw [sentBytes_append, sentBytes_eq_zero hu, Nat.add_zero]
  simp only [sentBytes, totalBytes]
  exact congrArg List.sum (List.map_congr_left fun g hg => if_neg (hs g hg))

/-! ## The invariant -/

namespace PseudoTcp

/-- **The accounting of the send queue.** -/
structure QueueInv (o : Outgoing) : Prop where
  valid : o.sbuf.Valid
  isOpen : o.sbuf.state = .open
  cap : o.sbuf.bufferLength < 2 ^ 32
  total : totalBytes o.slist = o.sbuf.dataLength
  ordered : Ordered o.slist
  sent : sentBytes o.slist = (o.sndNxt - o.sndUna).toNat

namespace QueueInv

variable {o : Outgoing}

theorem lt (h : QueueInv o) : o.sbuf.dataLength < 2 ^ 32 := by
  have h1 := h.valid.le
  have h2 := h.cap
  omega

theorem inFlight_le (h : QueueInv o) : (o.sndNxt - o.sndUna).toNat ≤ o.sbuf.dataLength := by
  rw [← h.sent, ← h.total]
  exact sentBytes_le_total _

theorem congr {o' : Outgoing} (h : QueueInv o) (hslist : o'.slist = o.slist)
    (hsbuf : o'.sbuf = o.sbuf) (hnxt : o'.sndNxt = o.sndNxt) (huna : o'.sndUna = o.sndUna) :
    QueueInv o' :=
  ⟨hsbuf ▸ h.valid, hsbuf ▸ h.isOpen, hsbuf ▸ h.cap, by rw [hslist, hsbuf, h.total],
    hslist ▸ h.ordered, by rw [hslist, hnxt, huna, h.sent]⟩

theorem relist (h : QueueInv o) {slist : List SSegment} (ht : totalBytes slist = totalBytes o.slist)
    (ho : Ordered slist) (hs : sentBytes slist = sentBytes o.slist) :
    QueueInv { o with slist := slist } :=
  ⟨h.valid, h.isOpen, h.cap, ht.trans h.total, ho, hs.trans h.sent⟩

end QueueInv

/-! ## Queueing -/

theorem appendSegment_spec (slist : List SSegment) (seq len : Uint32) (bCtrl : Bool)
    (ho : Ordered slist) (hlt : totalBytes slist + len.toNat < 2 ^ 32) :
    totalBytes (appendSegment slist seq len bCtrl) = totalBytes slist + len.toNat ∧
      Ordered (appendSegment slist seq len bCtrl) ∧
      sentBytes (appendSegment slist seq len bCtrl) = sentBytes slist := by
  have hnew : totalBytes (slist ++ [.mk' seq len bCtrl]) = totalBytes slist + len.toNat ∧
      Ordered (slist ++ [.mk' seq len bCtrl]) ∧
      sentBytes (slist ++ [.mk' seq len bCtrl]) = sentBytes slist := by
    refine ⟨by simp [SSegment.mk'], ?_, by simp [SSegment.mk']⟩
    exact List.pairwise_append.mpr ⟨ho, List.pairwise_singleton _ _, fun a _ b hb _ => by
      rw [List.mem_singleton.mp hb]; rfl⟩
  unfold appendSegment
  rcases List.eq_nil_or_concat slist with rfl | ⟨init, last, rfl⟩
  · simpa using hnew
  · simp only [List.concat_eq_append, List.getLast?_append, List.getLast?_singleton, Option.some_or,
      List.dropLast_concat] at *
    split_ifs with hjoin
    · have hlen : (last.len + len).toNat = last.len.toNat + len.toNat := by
        simp only [totalBytes_append, totalBytes_cons, totalBytes_nil] at hlt
        bv_omega
      refine ⟨by simp only [totalBytes_append, totalBytes_cons, totalBytes_nil]; omega, ?_, by simp [hjoin.2]⟩
      obtain ⟨h1, -, h3⟩ := List.pairwise_append.mp ho
      exact List.pairwise_append.mpr ⟨h1, List.pairwise_singleton _ _, fun a ha b hb _ => by
        rw [List.mem_singleton.mp hb]; exact hjoin.2⟩
    · exact hnew

/-- The number of bytes that `queue` accepts. -/
def queueLen (s : PseudoTcp) (len : Uint32) : Uint32 :=
  if len > u32 s.snd.sbuf.getWriteRemaining then u32 s.snd.sbuf.getWriteRemaining else len

theorem queueLen_le (h : QueueInv s.snd) (len : Uint32) :
    (s.queueLen len).toNat ≤ s.snd.sbuf.bufferLength - s.snd.sbuf.dataLength := by
  have h1 := h.cap
  have h2 := toNat_u32 (show s.snd.sbuf.bufferLength - s.snd.sbuf.dataLength < 2 ^ 32 by omega)
  unfold queueLen FifoBuffer.getWriteRemaining
  by_cases hlt : len > u32 (s.snd.sbuf.bufferLength - s.snd.sbuf.dataLength)
  · rw [if_pos hlt, h2]
  · rw [if_neg hlt]
    rw [gt_iff_lt, BitVec.not_lt, BitVec.le_def, h2] at hlt
    exact hlt

theorem write_queueLen (h : QueueInv s.snd) (data : ℕ → Uint8) (len : Uint32) :
    (s.snd.sbuf.write data (s.queueLen len).toNat).2.1 = (s.queueLen len).toNat ∧
      (s.snd.sbuf.write data (s.queueLen len).toNat).2.2.Valid ∧
      (s.snd.sbuf.write data (s.queueLen len).toNat).2.2.state = .open ∧
      (s.snd.sbuf.write data (s.queueLen len).toNat).2.2.bufferLength =
        s.snd.sbuf.bufferLength ∧
      (s.snd.sbuf.write data (s.queueLen len).toNat).2.2.dataLength =
        s.snd.sbuf.dataLength + (s.queueLen len).toNat ∧
      (s.snd.sbuf.write data (s.queueLen len).toNat).2.2.contents =
        s.snd.sbuf.contents ++ block data 0 (s.queueLen len).toNat := by
  have hle := queueLen_le h len
  have hv := h.valid
  rw [FifoBuffer.write_spec (by rw [h.isOpen]; decide)]
  split_ifs with hroom
  · have hn : min (s.queueLen len).toNat (s.snd.sbuf.bufferLength - s.snd.sbuf.dataLength) =
        (s.queueLen len).toNat := Nat.min_eq_left hle
    rw [hn]
    have hfit : s.snd.sbuf.dataLength + (s.queueLen len).toNat ≤ s.snd.sbuf.bufferLength := by omega
    exact ⟨rfl, hv.afterWrite hfit, by simp [h.isOpen], by simp, by simp,
      FifoBuffer.contents_afterWrite hfit⟩
  · have hz : (s.queueLen len).toNat = 0 := by omega
    simp [hz, hv, h.isOpen]

theorem queue_snd (s : PseudoTcp) (data : ℕ → Uint8) (len : Uint32) (bCtrl : Bool) :
    (s.queue data len bCtrl).1.snd = { s.snd with
      slist := appendSegment s.snd.slist (s.snd.sndUna + u32 s.snd.sbuf.getBuffered)
        (s.queueLen len) bCtrl
      sbuf := (s.snd.sbuf.write data (s.queueLen len).toNat).2.2 } := by
  simp only [queue, check_eq, queueLen]

/-- Bytes are queued. -/
theorem QueueInv.queue (h : QueueInv s.snd) (data : ℕ → Uint8) (len : Uint32)
    (bCtrl : Bool) : QueueInv (s.queue data len bCtrl).1.snd := by
  have hle := queueLen_le h len
  have hv := h.valid.le
  have hc := h.cap
  obtain ⟨-, hvalid, hopen, hbl, hdl, -⟩ := write_queueLen h data len
  obtain ⟨ht, ho, hs⟩ := appendSegment_spec s.snd.slist
    (s.snd.sndUna + u32 s.snd.sbuf.getBuffered) (s.queueLen len) bCtrl h.ordered
    (by rw [h.total]; omega)
  rw [queue_snd]
  exact ⟨hvalid, hopen, by rw [hbl]; exact hc, by rw [hdl, ht, h.total], ho, hs.trans h.sent⟩

/-! ## Splitting and transmitting -/

section Segments

variable {pre post : List SSegment} {seg seg₁ seg₂ : SSegment}

theorem ordered_cut (ho : Ordered (pre ++ seg :: post)) (h₁ : seg₁.xmit = seg.xmit)
    (h₂ : seg₂.xmit = seg.xmit) : Ordered (pre ++ seg₁ :: seg₂ :: post) := by
  obtain ⟨hp, hs, hc⟩ := List.pairwise_append.mp ho
  obtain ⟨hseg, hpost⟩ := List.pairwise_cons.mp hs
  refine List.pairwise_append.mpr ⟨hp, List.pairwise_cons.mpr ⟨?_, List.pairwise_cons.mpr
    ⟨?_, hpost⟩⟩, ?_⟩
  · intro g hg hx
    rcases List.mem_cons.mp hg with rfl | hm
    · rw [h₂, ← h₁, hx]
    · exact hseg g hm (by rw [← h₁, hx])
  · intro g hg hx
    exact hseg g hg (by rw [← h₂, hx])
  · intro a ha g hg hx
    have hxs := hc a ha seg List.mem_cons_self hx
    rcases List.mem_cons.mp hg with rfl | hm
    · rw [h₁, hxs]
    · rcases List.mem_cons.mp hm with rfl | hm
      · rw [h₂, hxs]
      · exact hc a ha g (List.mem_cons_of_mem _ hm) hx

theorem ordered_mark (ho : Ordered (pre ++ seg :: post)) (hpre : ∀ g ∈ pre, g.xmit ≠ 0)
    (h₁ : seg₁.xmit ≠ 0) : Ordered (pre ++ seg₁ :: post) := by
  obtain ⟨hp, hs, -⟩ := List.pairwise_append.mp ho
  obtain ⟨-, hpost⟩ := List.pairwise_cons.mp hs
  refine List.pairwise_append.mpr ⟨hp, List.pairwise_cons.mpr ⟨?_, hpost⟩, ?_⟩
  · intro g _ hx
    exact absurd hx h₁
  · intro a ha g _ hx
    exact absurd hx (hpre a ha)

theorem toNat_cut {len : Uint32} (h : n ≤ len) : n.toNat + (len - n).toNat = len.toNat := by
  bv_omega

/-- A segment that was not sent is broken in two. -/
theorem QueueInv.cut {o : Outgoing} (h : QueueInv o) (hl : o.slist = pre ++ seg :: post)
    (hx : seg.xmit = 0) (hn : n ≤ seg.len) :
    QueueInv { o with slist := pre ++
      { seg with len := n } :: .mk' (seg.seq + n) (seg.len - n) seg.bCtrl :: post } := by
  have hcut := toNat_cut hn
  have hord : Ordered (pre ++ seg :: post) := hl ▸ h.ordered
  refine h.relist ?_ (ordered_cut hord rfl hx.symm) ?_
  · rw [hl]
    simp only [totalBytes_append, totalBytes_cons, SSegment.mk']
    omega
  · rw [hl]
    simp [SSegment.mk', hx]

/-- Bytes of a segment are sent. -/
theorem QueueInv.transmitted (h : QueueInv s.snd)
    (hl : s.snd.slist = pre ++ seg :: post) (hpre : ∀ g ∈ pre, g.xmit ≠ 0) (hx : seg.xmit < 30) (hn : n ≤ seg.len) (now : Uint32) :
    QueueInv (s.transmitted pre seg post n now).snd := by
  have hcut := toNat_cut hn
  have hmark : seg.xmit + 1 ≠ 0 := by bv_omega
  have hord : Ordered (pre ++ seg :: post) := hl ▸ h.ordered
  have htot : totalBytes (pre ++ seg :: post) < 2 ^ 32 := by rw [← hl, h.total]; exact h.lt
  have hsent := h.sent
  rw [hl, sentBytes_append, sentBytes_cons] at hsent
  rw [totalBytes_append, totalBytes_cons] at htot
  have hpre' := sentBytes_le_total pre
  have hpost' := sentBytes_le_total post
  -- what a first transmission adds to the bytes in flight
  have hnxt : ∀ k : Uint32, k ≤ seg.len →
      sentBytes pre + k.toNat + (if seg.xmit = 0 then 0 else (seg.len - k).toNat) +
          sentBytes post =
        ((if seg.xmit = 0 then s.snd.sndNxt + k else s.snd.sndNxt) - s.snd.sndUna).toNat := by
    intro k hk
    have hk' := toNat_cut hk
    by_cases hz : seg.xmit = 0
    · simp only [hz, if_true] at hsent ⊢
      have : ((s.snd.sndNxt + k) - s.snd.sndUna).toNat =
          (s.snd.sndNxt - s.snd.sndUna).toNat + k.toNat := by
        have hlt : (s.snd.sndNxt - s.snd.sndUna).toNat + k.toNat < 2 ^ 32 := by omega
        generalize s.snd.sndNxt = a at hlt ⊢
        generalize s.snd.sndUna = b at hlt ⊢
        clear hsent htot hpre' hpost' hord h hl hpre hx hn hcut hmark hk hk' hz
        bv_omega
      omega
    · simp only [hz, if_false] at hsent ⊢
      omega
  by_cases hlt : n < seg.len
  · refine ⟨h.valid, h.isOpen, h.cap, ?_, ?_, ?_⟩
    · change _ = s.snd.sbuf.dataLength
      rw [← h.total, hl]
      simp only [PseudoTcp.transmitted, if_pos hlt, totalBytes_append, totalBytes_cons, SSegment.mk']
      omega
    · simp only [PseudoTcp.transmitted, if_pos hlt]
      have hcut' : Ordered (pre ++ { seg with len := n } ::
          { SSegment.mk' (seg.seq + n) (seg.len - n) seg.bCtrl with xmit := seg.xmit } :: post) :=
        ordered_cut hord rfl rfl
      exact ordered_mark hcut' hpre hmark
    · have := hnxt n hn
      simp only [PseudoTcp.transmitted, if_pos hlt, sentBytes_append, sentBytes_cons, SSegment.mk',
        if_neg hmark]
      omega
  · refine ⟨h.valid, h.isOpen, h.cap, ?_, ?_, ?_⟩
    · change _ = s.snd.sbuf.dataLength
      rw [← h.total, hl]
      simp only [PseudoTcp.transmitted, if_neg hlt, totalBytes_append, totalBytes_cons]
    · simp only [PseudoTcp.transmitted, if_neg hlt]
      exact ordered_mark hord hpre hmark
    · have := hnxt seg.len (BitVec.le_refl _)
      simp only [BitVec.sub_self, BitVec.toNat_zero, ite_self, Nat.add_zero] at this
      simp only [PseudoTcp.transmitted, if_neg hlt, sentBytes_append, sentBytes_cons,
        if_neg hmark]
      omega

end Segments

/-! ## Acknowledging -/

theorem freeAcked_spec (l : List SSegment) (nFree largest : Uint32) (ho : Ordered l)
    (hle : nFree.toNat ≤ sentBytes l) :
    (freeAcked l nFree largest).2.2 = true ∧
      totalBytes (freeAcked l nFree largest).1 + nFree.toNat = totalBytes l ∧
      sentBytes (freeAcked l nFree largest).1 + nFree.toNat = sentBytes l ∧
      Ordered (freeAcked l nFree largest).1 := by
  induction l generalizing nFree largest with
  | nil =>
    have hz : nFree = 0 := by
      simp only [sentBytes_nil] at hle
      bv_omega
    simp [freeAcked, hz, ho]
  | cons g l ih =>
    obtain ⟨hg, hl⟩ := List.pairwise_cons.mp ho
    by_cases hz : nFree = 0
    · simp [freeAcked, hz, ho]
    · -- some byte of the list is in flight, so the first segment is
      have hx : g.xmit ≠ 0 := by
        intro hx
        have := sentBytes_eq_zero fun g' hg' => hg g' hg' hx
        simp only [sentBytes_cons, hx, if_true, this] at hle
        bv_omega
      simp only [sentBytes_cons, if_neg hx] at hle
      rw [freeAcked, if_neg hz]
      by_cases hlt : nFree < g.len
      · have hcut : (g.len - nFree).toNat + nFree.toNat = g.len.toNat := by bv_omega
        rw [if_pos hlt]
        refine ⟨rfl, ?_, ?_, List.pairwise_cons.mpr ⟨hg, hl⟩⟩
        · simp only [totalBytes_cons]
          omega
        · simp only [sentBytes_cons, if_neg hx]
          omega
      · have hcut : (nFree - g.len).toNat + g.len.toNat = nFree.toNat := by bv_omega
        obtain ⟨h1, h2, h3, h4⟩ := ih (nFree - g.len) (if g.len > largest then g.len else largest)
          hl (by omega)
        rw [if_neg hlt]
        refine ⟨h1, ?_, ?_, h4⟩
        · simp only [totalBytes_cons]
          omega
        · simp only [sentBytes_cons, if_neg hx]
          omega

theorem advanceUna_snd (s : PseudoTcp) (ack now : Uint32) :
    (s.advanceUna ack now).snd = { s.snd with
      sndUna := ack
      slist := (freeAcked s.snd.slist (ack - s.snd.sndUna) s.largest).1
      sbuf := s.snd.sbuf.afterRead (ack - s.snd.sndUna).toNat } := by
  simp only [advanceUna, check_eq, FifoBuffer.consumeReadData_eq]

theorem isValuable.le {ack : Uint32} (hv : s.isValuable ack) :
    (ack - s.snd.sndUna).toNat ≤ (s.snd.sndNxt - s.snd.sndUna).toNat ∧
      (s.snd.sndNxt - ack).toNat + (ack - s.snd.sndUna).toNat =
        (s.snd.sndNxt - s.snd.sndUna).toNat := by
  simp only [isValuable, Bool.and_eq_true, decide_eq_true_eq] at hv
  bv_omega

/-- **An acknowledgement takes its bytes out of the queue**. -/
theorem QueueInv.advanceUna (h : QueueInv s.snd) {ack : Uint32} (hv : s.isValuable ack) (now : Uint32) :
    QueueInv (s.advanceUna ack now).snd ∧
      s.snd.sbuf.consumeReadAssert (ack - s.snd.sndUna).toNat = true ∧
      (freeAcked s.snd.slist (ack - s.snd.sndUna) s.largest).2.2 = true := by
  obtain ⟨hle, hsum⟩ := isValuable.le hv
  have hin := h.inFlight_le
  obtain ⟨hok, ht, hs, ho⟩ := freeAcked_spec s.snd.slist (ack - s.snd.sndUna) s.largest h.ordered
    (by rw [h.sent]; exact hle)
  refine ⟨?_, decide_eq_true (hle.trans hin), hok⟩
  rw [advanceUna_snd]
  refine ⟨h.valid.afterRead (hle.trans hin), by simp [h.isOpen], by simpa using h.cap, ?_, ho, ?_⟩
  · simp only [FifoBuffer.afterRead_dataLength]
    rw [← h.total]
    omega
  · simp only
    have := h.sent
    omega

theorem QueueInv.resizeSendBuffer (h : QueueInv s.snd) (newSize : Uint32) :
    QueueInv (s.resizeSendBuffer newSize).snd := by
  obtain ⟨-, hv, hst, -, hdl, hbl⟩ :=
    FifoBuffer.setCapacity_spec h.valid newSize.toNat s.heap
  refine ⟨hv, hst.trans h.isOpen, ?_, h.total.trans hdl.symm, h.ordered, h.sent⟩
  simp only [PseudoTcp.resizeSendBuffer, hbl]
  split_ifs
  · exact newSize.isLt
  · exact h.cap

end PseudoTcp

end Libjingle
