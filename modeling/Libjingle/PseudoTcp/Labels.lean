import Libjingle.PseudoTcp.Accounting

/-!
# The sequence numbers of the send queue

Main results: **`sendQueue_labelling`**, **`sendQueue_mislabelled`**.
-/

variable {post pre l : List SSegment} {seg : SSegment} {n una : Uint32}

namespace Libjingle

open Lib Relation

/-! ## Labels -/

def Labelled : Uint32 → List SSegment → Prop
  | _, [] => True
  | seq, g :: l => g.seq = seq ∧ Labelled (seq + g.len) l

instance Labelled.decidable : ∀ (seq : Uint32) (l : List SSegment), Decidable (Labelled seq l)
  | _, [] => isTrue trivial
  | seq, g :: l =>
    have := Labelled.decidable (seq + g.len) l
    inferInstanceAs (Decidable (g.seq = seq ∧ Labelled (seq + g.len) l))

theorem u32_add_len (n : ℕ) (len : Uint32) : u32 (len.toNat + n) = len + u32 n := by
  apply BitVec.eq_of_toNat_eq
  simp

theorem labelled_append {seq : Uint32} {l' : List SSegment} :
    Labelled seq (l ++ l') ↔ Labelled seq l ∧ Labelled (seq + u32 (totalBytes l)) l' := by
  induction l generalizing seq with
  | nil => simp [Labelled]
  | cons g l ih =>
    rw [List.cons_append, Labelled, Labelled, ih, and_assoc, totalBytes_cons, u32_add_len,
      BitVec.add_assoc]

theorem Labelled.seq (h : Labelled una (pre ++ seg :: post)) : seg.seq = una + u32 (totalBytes pre) :=
  (labelled_append.mp h).2.1

theorem Labelled.cut {seg₁ seg₂ : SSegment} (h : Labelled una (pre ++ seg :: post)) (hs₁ : seg₁.seq = seg.seq)
    (hl₁ : seg₁.len = n) (hs₂ : seg₂.seq = seg.seq + n) (hl₂ : seg₂.len = seg.len - n) :
    Labelled una (pre ++ seg₁ :: seg₂ :: post) := by
  obtain ⟨hpre, hseq, hpost⟩ := labelled_append.mp h
  refine labelled_append.mpr ⟨hpre, hs₁.trans hseq, ?_, ?_⟩
  · rw [hs₂, hseq, hl₁]
  · rw [hl₁, hl₂]
    have : una + u32 (totalBytes pre) + n + (seg.len - n) =
        una + u32 (totalBytes pre) + seg.len := by
      rw [BitVec.add_assoc, BitVec.add_comm n, BitVec.sub_add_cancel]
    rw [this]
    exact hpost

theorem Labelled.replace {seg₁ : SSegment}
    (h : Labelled una (pre ++ seg :: post)) (hs : seg₁.seq = seg.seq) (hl : seg₁.len = seg.len) :
    Labelled una (pre ++ seg₁ :: post) := by
  obtain ⟨hpre, hseq, hpost⟩ := labelled_append.mp h
  exact labelled_append.mpr ⟨hpre, hs.trans hseq, hl ▸ hpost⟩

/-! ## Boundaries -/

def OnBoundary (l : List SSegment) (n : ℕ) : Prop := ∃ pre ∈ l.inits, totalBytes pre = n

instance (l : List SSegment) (n : ℕ) : Decidable (OnBoundary l n) :=
  inferInstanceAs (Decidable (∃ pre ∈ l.inits, totalBytes pre = n))

theorem onBoundary_iff {n : ℕ} : OnBoundary l n ↔ ∃ pre post, l = pre ++ post ∧ totalBytes pre = n := by
  constructor
  · rintro ⟨pre, hmem, hn⟩
    obtain ⟨post, rfl⟩ := (List.mem_inits _ _).mp hmem
    exact ⟨pre, post, rfl, hn⟩
  · rintro ⟨pre, post, rfl, hn⟩
    exact ⟨pre, (List.mem_inits _ _).mpr (List.prefix_append _ _), hn⟩

namespace PseudoTcp

theorem appendSegment_prefix (sent unsent : List SSegment) (hs : ∀ g ∈ sent, g.xmit ≠ 0)
    (seq len : Uint32) (bCtrl : Bool) :
    ∃ rest, appendSegment (sent ++ unsent) seq len bCtrl = sent ++ rest := by
  unfold appendSegment
  rcases List.eq_nil_or_concat unsent with rfl | ⟨init, last, rfl⟩
  · rw [List.append_nil]
    split
    · next last hlast =>
      have hx := hs last (List.mem_of_getLast? hlast)
      rw [if_neg fun h => hx h.2]
      exact ⟨_, rfl⟩
    · next hnil =>
      rw [List.getLast?_eq_none_iff] at hnil
      subst hnil
      exact ⟨_, rfl⟩
  · simp only [List.concat_eq_append, ← List.append_assoc, List.getLast?_append,
      List.getLast?_singleton, Option.some_or, List.dropLast_concat]
    split_ifs
    · exact ⟨_, by rw [List.append_assoc]⟩
    · exact ⟨_, by rw [List.append_assoc, List.append_assoc]⟩

theorem onBoundary_appendSegment {n : ℕ} (ho : Ordered l)
    (hn : n ≤ sentBytes l) (h : OnBoundary l n) (seq len : Uint32) (bCtrl : Bool) :
    OnBoundary (appendSegment l seq len bCtrl) n := by
  obtain ⟨sent, unsent, rfl, hs, hu⟩ := ho.split
  obtain ⟨rest, hrest⟩ := appendSegment_prefix sent unsent hs seq len bCtrl
  obtain ⟨pre, post, hl, rfl⟩ := onBoundary_iff.mp h
  rw [sentBytes_split hs hu] at hn
  rw [hrest]
  -- the boundary is a prefix of the transmitted segments, or their end
  rcases List.append_eq_append_iff.mp hl with ⟨mid, rfl, rfl⟩ | ⟨mid, rfl, rfl⟩
  · refine onBoundary_iff.mpr ⟨sent, rest, rfl, ?_⟩
    rw [totalBytes_append] at hn ⊢
    omega
  · exact onBoundary_iff.mpr ⟨pre, mid ++ rest, by rw [List.append_assoc], rfl⟩

/-! ## Freeing acknowledged segments -/

theorem labelled_freeAcked (nFree largest : Uint32) (hl : Labelled una l) (hb : OnBoundary l nFree.toNat) :
    Labelled (una + nFree) (freeAcked l nFree largest).1 := by
  induction l generalizing una nFree largest with
  | nil => trivial
  | cons g l ih =>
    obtain ⟨hseq, hrest⟩ := hl
    obtain ⟨pre, post, heq, htot⟩ := onBoundary_iff.mp hb
    by_cases hz : nFree = 0
    · rw [freeAcked, if_pos hz, hz, show una + (0 : Uint32) = una from BitVec.add_zero una]
      exact ⟨hseq, hrest⟩
    · rw [freeAcked, if_neg hz]
      cases pre with
      | nil =>
        rw [totalBytes_nil] at htot
        exact absurd (by bv_omega) hz
      | cons g' pre =>
        obtain ⟨rfl, rfl⟩ := List.cons_eq_cons.mp heq
        rw [totalBytes_cons] at htot
        rw [if_neg (by bv_omega)]
        have := ih (nFree - g.len) (if g.len > largest then g.len else largest) hrest
          (onBoundary_iff.mpr ⟨pre, post, rfl, by bv_omega⟩)
        rwa [BitVec.add_assoc, BitVec.add_comm g.len, BitVec.sub_add_cancel] at this

theorem labelled_appendSegment (hl : Labelled una l) (len : Uint32) (bCtrl : Bool) :
    Labelled una (appendSegment l (una + u32 (totalBytes l)) len bCtrl) := by
  have hnew : Labelled una (l ++ [.mk' (una + u32 (totalBytes l)) len bCtrl]) :=
    labelled_append.mpr ⟨hl, rfl, trivial⟩
  unfold appendSegment
  rcases List.eq_nil_or_concat l with rfl | ⟨init, last, rfl⟩
  · simpa using hnew
  · simp only [List.concat_eq_append, List.getLast?_append, List.getLast?_singleton, Option.some_or,
      List.dropLast_concat] at *
    split_ifs
    · obtain ⟨h1, h2, -⟩ := labelled_append.mp hl
      exact labelled_append.mpr ⟨h1, h2, trivial⟩
    · exact hnew

/-! ## What a packet carries -/

def Carries (s : PseudoTcp) (p : Packet) : Prop :=
  (p.seq - s.snd.sndUna).toNat + p.payload.length ≤ s.snd.sbuf.getBuffered ∧
    p.payload = (s.snd.sbuf.contents.drop (p.seq - s.snd.sndUna).toNat).take p.payload.length

/-- The send queue is labelled, and `ReadOffset` has never failed `packet`. -/
structure Labels (s : PseudoTcp) : Prop where
  accounts : Accounts s
  labelled : Labelled s.snd.sndUna s.snd.slist
  faults : .readResult ∉ s.faults ∧ .bytesRead ∉ s.faults

namespace Labels

variable {s s' : PseudoTcp}

theorem new (w : World) (conv : Uint32) : Labels (new w conv) :=
  ⟨.new w conv, trivial, by simp [PseudoTcp.new]⟩

theorem quiet (h : Labels s) (hq : Quiet s s') : Labels s' := by
  refine ⟨h.accounts.quiet hq, by rw [hq.sndUna, hq.slist]; exact h.labelled, fun hm => ?_,
    fun hm => ?_⟩
  · rcases hq.faults _ hm with hm | hm
    · exact h.faults.1 hm
    · exact hm trivial
  · rcases hq.faults _ hm with hm | hm
    · exact h.faults.2 hm
    · exact hm trivial

theorem offset (h : Labels s) (hl : s.snd.slist = pre ++ seg :: post) :
    (seg.seq - s.snd.sndUna).toNat = totalBytes pre ∧
      totalBytes pre + seg.len.toNat ≤ s.snd.sbuf.dataLength := by
  have hseq := (hl ▸ h.labelled : Labelled s.snd.sndUna (pre ++ seg :: post)).seq
  have htot := h.accounts.queue.total
  have hlt := h.accounts.queue.lt
  rw [hl, totalBytes_append, totalBytes_cons] at htot
  constructor
  · rw [hseq]
    have : (u32 (totalBytes pre)).toNat = totalBytes pre := toNat_u32 (by omega)
    generalize totalBytes pre = k at this
    bv_omega
  · omega

theorem readOffset (h : Labels s) (hl : s.snd.slist = pre ++ seg :: post) (hn : n ≤ seg.len) (h0 : n ≠ 0) :
    s.snd.sbuf.readOffset n.toNat (seg.seq - s.snd.sndUna).toNat =
      (.success, (s.snd.sbuf.contents.drop (totalBytes pre)).take n.toNat) ∧
      ((s.snd.sbuf.contents.drop (totalBytes pre)).take n.toNat).length = n.toNat := by
  obtain ⟨hoff, hle⟩ := h.offset hl
  have hpos : 0 < n.toNat := by bv_omega
  have hn' : n.toNat ≤ seg.len.toNat := hn
  rw [FifoBuffer.readOffset_spec h.accounts.queue.valid, hoff, if_pos (by omega)]
  refine ⟨rfl, ?_⟩
  rw [List.length_take, List.length_drop, FifoBuffer.length_contents]
  omega

theorem buildPacket (h : Labels s) (hl : s.snd.slist = pre ++ seg :: post) (hn : n ≤ seg.len) (h0 : n ≠ 0) :
    (s.buildPacket seg.seq seg.flags (seg.seq - s.snd.sndUna) n).payload =
      (s.snd.sbuf.contents.drop (totalBytes pre)).take n.toNat := by
  obtain ⟨hr, hlen⟩ := h.readOffset hl hn h0
  simp only [PseudoTcp.buildPacket, if_neg h0, hr, hlen, Nat.sub_self, block_zero, List.append_nil]

theorem packet (h : Labels s) (hl : s.snd.slist = pre ++ seg :: post) (hn : n ≤ seg.len) :
    Labels (s.packet seg.seq seg.flags (seg.seq - s.snd.sndUna) n).1 := by
  have hacc := h.accounts.packet seg.seq seg.flags (seg.seq - s.snd.sndUna) n
  have hfaults : .readResult ∉ s.faults ++ s.packetFaults (seg.seq - s.snd.sndUna) n ∧
      .bytesRead ∉ s.faults ++ s.packetFaults (seg.seq - s.snd.sndUna) n := by
    have hr : n = 0 ∨ (s.snd.sbuf.readOffset n.toNat (seg.seq - s.snd.sndUna).toNat).1 = .success ∧
        u32 (s.snd.sbuf.readOffset n.toNat (seg.seq - s.snd.sndUna).toNat).2.length = n := by
      by_cases h0 : n = 0
      · exact .inl h0
      · obtain ⟨hr, hlen⟩ := h.readOffset hl hn h0
        rw [hr, hlen]
        exact .inr ⟨rfl, by simp⟩
    have hr1 := hr.imp_right And.left
    have hr2 := hr.imp_right And.right
    simp only [packetFaults, if_pos hr1, if_pos hr2, List.append_nil, List.mem_append, h.faults,
      false_or]
    constructor <;> split_ifs <;> simp
  rw [packet_eq] at hacc ⊢
  simp only at hacc ⊢
  split_ifs at hacc ⊢
  all_goals exact ⟨hacc, h.labelled, hfaults⟩

theorem transmitted (h : Labels s)
    (hl : s.snd.slist = pre ++ seg :: post) (hpre : ∀ g ∈ pre, g.xmit ≠ 0) (hx : seg.xmit < 30)
    (hn : n ≤ seg.len) (now : Uint32) : Labels (s.transmitted pre seg post n now) := by
  refine ⟨h.accounts.transmitted hl hpre hx hn now, ?_, h.faults⟩
  have hlab : Labelled s.snd.sndUna (pre ++ seg :: post) := hl ▸ h.labelled
  simp only [PseudoTcp.transmitted]
  split_ifs
  · exact hlab.cut rfl rfl rfl rfl
  · exact hlab.replace rfl rfl

theorem emitMove (h : Labels s) (hm : EmitMove s s') : Labels s' := by
  have hacc := h.accounts.emitMove hm
  cases hm with
  | quiet hq => exact h.quiet hq
  | packet hl hn => exact h.packet hl hn.le
  | sent now hl hpre hx hn => exact h.transmitted hl hpre hx hn.le now
  | cut hl hpre hx h0 hlt =>
    have hlab := h.labelled
    rw [hl] at hlab
    exact ⟨hacc, hlab.cut rfl rfl rfl rfl, h.faults⟩
  | checkInFlight | checkSearch | checkBegin =>
    rw [check_eq] at hacc ⊢
    refine ⟨hacc, h.labelled, ?_⟩
    simp only [List.mem_append, h.faults, false_or]
    constructor <;> split_ifs <;> simp

/-! ## Packets of one call -/

def SentSince (k : ℕ) (s : PseudoTcp) : Prop :=
  ∀ p r, .tcpWritePacket p r ∈ s.log.drop k → p.payload ≠ [] → s.Carries p

theorem carries_congr {p : Packet} (huna : s'.snd.sndUna = s.snd.sndUna)
    (hsbuf : s'.snd.sbuf = s.snd.sbuf) (h : s.Carries p) : s'.Carries p := by
  unfold Carries
  rw [huna, hsbuf]
  exact h

theorem sentSince_of_log {k : ℕ} {es : List Event} (h : SentSince k s)
    (huna : s'.snd.sndUna = s.snd.sndUna) (hsbuf : s'.snd.sbuf = s.snd.sbuf)
    (hlog : s'.log = s.log ++ es)
    (hes : ∀ p r, .tcpWritePacket p r ∈ es → p.payload ≠ [] → s'.Carries p) :
    SentSince k s' := by
  intro p r hm hp
  rw [hlog, List.drop_append] at hm
  rcases List.mem_append.mp hm with hm | hm
  · exact carries_congr huna hsbuf (h p r hm hp)
  · exact hes p r (List.mem_of_mem_drop hm) hp

theorem sentSince_packet {k : ℕ} (h : Labels s) (hsent : SentSince k s)
    (hl : s.snd.slist = pre ++ seg :: post) (hn : n ≤ seg.len) :
    SentSince k (s.packet seg.seq seg.flags (seg.seq - s.snd.sndUna) n).1 := by
  have hframe := SendFrame.packet s seg.seq seg.flags (seg.seq - s.snd.sndUna) n
  have hlog : (s.packet seg.seq seg.flags (seg.seq - s.snd.sndUna) n).1.log = s.log ++
      [.tcpWritePacket (s.buildPacket seg.seq seg.flags (seg.seq - s.snd.sndUna) n)
        (s.results 0)] := by
    rw [packet_eq]
    simp only
    split_ifs <;> rfl
  refine sentSince_of_log hsent hframe.sndUna hframe.sbuf hlog fun p r hm hp => ?_
  cases List.mem_singleton.mp hm
  have h0 : n ≠ 0 := by
    rintro rfl
    exact hp rfl
  obtain ⟨hoff, hle⟩ := h.offset hl
  obtain ⟨-, hlen⟩ := h.readOffset hl hn h0
  refine carries_congr hframe.sndUna hframe.sbuf ?_
  unfold Carries
  rw [h.buildPacket hl hn h0, hlen]
  have hseq : (s.buildPacket seg.seq seg.flags (seg.seq - s.snd.sndUna) n).seq = seg.seq := rfl
  have hn' : n.toNat ≤ seg.len.toNat := hn
  rw [hseq, hoff]
  exact ⟨by unfold FifoBuffer.getBuffered; omega, rfl⟩

theorem sentSince_emitMove {k : ℕ} (h : Labels s) (hsent : SentSince k s) (hm : EmitMove s s') : SentSince k s' := by
  cases hm with
  | quiet hq =>
    obtain ⟨es, hlog, hes⟩ := hq.log
    exact sentSince_of_log hsent hq.sndUna hq.sbuf hlog fun p r hm hp =>
      absurd (hes p r hm).1 hp
  | packet hl hn => exact h.sentSince_packet hsent hl hn.le
  | sent | cut => exact hsent
  | checkInFlight | checkSearch | checkBegin =>
    rw [check_eq]
    exact hsent

theorem emits {k : ℕ} (h : Labels s) (hsent : SentSince k s) (hm : Emits s s') : Labels s' ∧ SentSince k s' := by
  induction hm with
  | refl => exact ⟨h, hsent⟩
  | tail _ hm ih => exact ⟨ih.1.emitMove hm, ih.1.sentSince_emitMove ih.2 hm⟩

/-! ## Queueing moves -/

/-- While a call queues and frees: the labels are right, and nothing was sent since the log had
length `k`. -/
structure Queueing (inc : Option Segment) (k : ℕ) (s : PseudoTcp) : Prop where
  labels : Labels s
  boundary : ∀ seg ∈ inc, s.isValuable seg.ack →
    OnBoundary s.snd.slist (seg.ack - s.snd.sndUna).toNat
  silent : ∀ p r, .tcpWritePacket p r ∈ s.log.drop k → p.payload = []

namespace Queueing

variable {op : Op} {inc : Option Segment} {k : ℕ}

theorem silent_of_log {es : List Event} (h : Queueing inc k s) (hlog : s'.log = s.log ++ es)
    (hes : ∀ p r, .tcpWritePacket p r ∈ es → p.payload = []) :
    ∀ p r, .tcpWritePacket p r ∈ s'.log.drop k → p.payload = [] := by
  intro p r hm
  rw [hlog, List.drop_append] at hm
  rcases List.mem_append.mp hm with hm | hm
  · exact h.silent p r hm
  · exact hes p r (List.mem_of_mem_drop hm)

theorem congr (h : Queueing inc k s) (hl : Labels s') (hslist : s'.snd.slist = s.snd.slist)
    (hnxt : s'.snd.sndNxt = s.snd.sndNxt) (huna : s'.snd.sndUna = s.snd.sndUna)
    (hlog : s'.log = s.log) : Queueing inc k s' := by
  refine ⟨hl, fun seg hseg hv => ?_, by rw [hlog]; exact h.silent⟩
  rw [hslist, huna]
  apply h.boundary seg hseg
  unfold isValuable at hv ⊢
  rw [← hnxt, ← huna]
  exact hv

theorem quiet (h : Queueing inc k s) (hq : Quiet s s') : Queueing inc k s' := by
  obtain ⟨es, hlog, hes⟩ := hq.log
  refine ⟨h.labels.quiet hq, fun seg hseg hv => ?_, h.silent_of_log hlog fun p r hm => (hes p r hm).1⟩
  rw [hq.slist, hq.sndUna]
  apply h.boundary seg hseg
  unfold isValuable at hv ⊢
  rw [← hq.sndNxt, ← hq.sndUna]
  exact hv

theorem enqueue (h : Queueing inc k s) (data : ℕ → Uint8) (len : Uint32) (bCtrl : Bool) :
    Queueing inc k (s.queue data len bCtrl).1 := by
  have hsnd := queue_snd s data len bCtrl
  have hlog : (s.queue data len bCtrl).1.log = s.log := by simp only [queue, check_eq]
  have hacc := h.labels.accounts
  have hbuf : u32 s.snd.sbuf.getBuffered = u32 (totalBytes s.snd.slist) := by
    rw [FifoBuffer.getBuffered, hacc.queue.total]
  refine ⟨⟨hacc.enqueue data len bCtrl, ?_, ?_⟩, fun seg hseg hv => ?_, by rw [hlog]; exact h.silent⟩
  · rw [hsnd]
    simp only
    rw [hbuf]
    exact labelled_appendSegment h.labels.labelled _ _
  · simp only [queue, check_eq, List.mem_append, h.labels.faults, false_or]
    constructor <;> split_ifs <;> simp
  · rw [hsnd]
    unfold isValuable at hv
    rw [hsnd] at hv
    apply onBoundary_appendSegment hacc.queue.ordered _ (h.boundary seg hseg hv)
    rw [hacc.queue.sent]
    exact (isValuable.le hv).1

theorem advance (h : Queueing inc k s) {seg : Segment} (now : Uint32) (hinc : inc = some seg)
    (hv : s.isValuable seg.ack) : Queueing inc k (s.advanceUna seg.ack now) := by
  have hlog : (s.advanceUna seg.ack now).log = s.log := by simp only [advanceUna, check_eq]
  have hacc := h.labels.accounts
  obtain ⟨-, hread, hfree⟩ := hacc.queue.advanceUna hv now
  refine ⟨⟨hacc.advanceUna hv now, ?_, ?_⟩, fun seg' hseg' hv' => ?_, by rw [hlog]; exact h.silent⟩
  · rw [advanceUna_snd]
    have := labelled_freeAcked (seg.ack - s.snd.sndUna) s.largest h.labels.labelled
      (h.boundary seg hinc hv)
    rwa [BitVec.add_comm, BitVec.sub_add_cancel] at this
  · have : (s.advanceUna seg.ack now).faults = s.faults := by
      simp only [advanceUna, check_eq, hread, hfree, if_true, List.append_nil]
    rw [this]
    exact h.labels.faults
  · -- the acknowledgement has been used up
    rw [hinc] at hseg'
    cases hseg'
    simp only [isValuable, Bool.and_eq_true, decide_eq_true_eq,
      (advanceUna_fields s seg.ack now).2] at hv'
    bv_omega

theorem queueMove (h : Queueing inc k s) (hm : QueueMove op inc s s') : Queueing inc k s' := by
  have hacc := h.labels.accounts.queueMove hm
  cases hm with
  | quiet hq => exact h.quiet hq
  | options hinc hctl hlen hdata =>
    rename_i seg
    rcases parseOptions_cases s (block seg.data 1 (seg.len - 1).toNat) with ⟨scale, hs⟩ | ⟨-, hs⟩
    · rw [hs] at hacc ⊢
      exact h.congr ⟨hacc, h.labels.labelled, h.labels.faults⟩ rfl rfl rfl rfl
    · rw [hs, resizeReceiveBuffer_eq] at hacc ⊢
      refine h.congr ⟨hacc, h.labels.labelled, ?_⟩ rfl rfl rfl rfl
      simp only [List.mem_append, h.labels.faults, false_or]
      constructor <;> split_ifs <;> simp
  | window hinc hack => exact h.congr ⟨hacc, h.labels.labelled, h.labels.faults⟩ rfl rfl rfl rfl
  | advance now hinc hack => exact h.advance now hinc hack
  | connectMessage st hst hst' =>
    have h1 := h.quiet (.setState s hst')
    have h2 : Queueing inc k { s.setState st with
        snd.sndWnd := u32 (s.setState st).connectMessage.length } :=
      h1.congr ⟨h1.labels.accounts.window _, h1.labels.labelled, h1.labels.faults⟩ rfl rfl rfl rfl
    exact h2.enqueue _ _ _
  | queue hop hst => exact h.enqueue _ _ _
  | mtu hop => exact h.congr ⟨hacc, h.labels.labelled, h.labels.faults⟩ rfl rfl rfl rfl
  | resize hop => exact h.congr ⟨hacc, h.labels.labelled, h.labels.faults⟩ rfl rfl rfl rfl

theorem queues (h : Queueing inc k s) (hm : Queues op inc s s') : Queueing inc k s' := by
  induction hm with
  | refl => exact h
  | tail _ hm ih => exact ih.queueMove hm

end Queueing

end Labels

/-! ## Runs -/

/-- The acknowledgement does not end inside a segment. -/
def AckOnBoundary (s : PseudoTcp) (op : Op) : Prop :=
  ∀ seg ∈ s.incoming op, s.isValuable seg.ack →
    OnBoundary s.snd.slist (seg.ack - s.snd.sndUna).toNat

instance (s : PseudoTcp) (op : Op) : Decidable (s.AckOnBoundary op) :=
  inferInstanceAs (Decidable (∀ seg ∈ s.incoming op, _))

theorem Labels.step {s : PseudoTcp} (h : Labels s) {op : Op} (hb : s.AckOnBoundary op) :
    Labels (s.step op) ∧ Labels.SentSince s.log.length (s.step op) := by
  have hnone : ∀ p r, .tcpWritePacket p r ∈ s.log.drop s.log.length → p.payload = [] := by
    simp
  obtain ⟨s₁, hq, he⟩ := step_moves s op
  have hstart : Labels.Queueing (s.incoming op) s.log.length s := ⟨h, hb, hnone⟩
  have h₁ := hstart.queues hq
  exact h₁.labels.emits (fun p r hm hp => absurd (h₁.silent p r hm) hp) he

/-- **The labels of the send queue**: if all acknowledgements are on boundaries, the segments are
contiguous from `m_snd_una` on, and every packet carries the bytes that its sequence number stands
for. -/
theorem sendQueue_labelling (w : World) (conv : Uint32) (ops : List Op)
    (hG : Guarded step AckOnBoundary (new w conv) ops) :
    let s := run step (new w conv) ops
    (Labelled s.snd.sndUna s.snd.slist ∧ .readResult ∉ s.faults ∧ .bytesRead ∉ s.faults) ∧
      ∀ before op after, ops = before ++ op :: after →
        let t := run step (new w conv) before
        ∀ p r, .tcpWritePacket p r ∈ t.newEvents op → p.payload ≠ [] → (t.step op).Carries p := by
  have hstep : ∀ s op, Labels s → AckOnBoundary s op → Labels (s.step op) :=
    fun s op h hb => (h.step hb).1
  intro s
  refine ⟨?_, ?_⟩
  · have h : Labels s := run_invariant hstep (.new w conv) hG
    exact ⟨h.labelled, h.faults⟩
  · rintro before op after rfl
    obtain ⟨h, hb⟩ := guarded_split hstep (Labels.new w conv) hG
    exact (h.step hb).2

/-! ## A concrete connection -/

/-- Two bytes are sent, and `ack` arrives. -/
def sendTwoOps (ack : Uint32) : List Op :=
  [.connect, .packet connectReply, .send (ptr [1, 2]) 2, .packet (plainAck ack)]

/-- When both bytes are acknowledged at once the labels stay right. -/
theorem sendQueue_labelling_both :
    Guarded step AckOnBoundary (new calmWorld 0) (sendTwoOps 6) ∧
      Labelled (run step (new calmWorld 0) (sendTwoOps 6)).snd.sndUna
        (run step (new calmWorld 0) (sendTwoOps 6)).snd.slist := by
  have hG : Guarded step AckOnBoundary (new calmWorld 0) (sendTwoOps 6) := by decide
  exact ⟨hG, (sendQueue_labelling calmWorld 0 (sendTwoOps 6) hG).1.1⟩

/-- **An acknowledgement of the first of two bytes leaves the rest under the old number**. -/
theorem sendQueue_mislabelled :
    let s := run step (new calmWorld 0) (sendTwoOps 5)
    s.snd.sndUna = 5 ∧ s.snd.slist = [⟨4, 1, 1, false⟩] ∧ ¬ Labelled s.snd.sndUna s.snd.slist ∧
      .readResult ∈ (s.step (.notifyClock 9000)).faults := by
  decide

end PseudoTcp

end Libjingle
