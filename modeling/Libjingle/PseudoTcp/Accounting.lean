import Libjingle.PseudoTcp.SendMoves
import Libjingle.PseudoTcp.SendQueue

/-!
# The send queue never loses count

Main results: **`accounts_run`**, **`sendQueue_accounting`**, **`sendLoop_fuel`**,
**`attemptSend_fills`**.
-/

variable {seg : SSegment} {post pre : List SSegment}

namespace Libjingle

open Lib Relation

def Fault.IsAccounting : Fault → Prop
  | .inFlight | .searchEnd | .transmitEnd | .consumeRead | .ackEmpty => True
  | _ => False

theorem Fault.IsAccounting.isSend {f : Fault} (h : f.IsAccounting) : f.IsSend := by
  cases f <;> trivial

namespace PseudoTcp

variable {s s' : PseudoTcp}

/-- **The accounting of the send side.** -/
structure Accounts (s : PseudoTcp) : Prop where
  queue : QueueInv s.snd
  recover : s.snd.sndNxt < s.snd.sndUna ∨ s.recover ≤ s.snd.sndNxt
  faults : ∀ f ∈ s.faults, ¬ f.IsAccounting

namespace Accounts

theorem new (w : World) (conv : Uint32) : Accounts (new w conv) where
  queue := ⟨FifoBuffer.valid_new _ _, rfl, (by decide : 92160 < 2 ^ 32), rfl, List.Pairwise.nil,
    (by decide : 0 = ((0#32) - 0#32).toNat)⟩
  recover := .inr (BitVec.le_refl _)
  faults := by simp [PseudoTcp.new]

theorem faults_check (h : ∀ f ∈ s.faults, ¬ f.IsAccounting) {fault : Fault} {c : Bool}
    (hc : c = true ∨ ¬ fault.IsAccounting) : ∀ f ∈ (s.check fault c).faults, ¬ f.IsAccounting := by
  rw [check_eq]
  intro f hf
  rcases List.mem_append.mp hf with hm | hm
  · exact h f hm
  · rcases hc with rfl | hc
    · simp at hm
    · cases c
      · obtain rfl : f = fault := by simpa using hm
        exact hc
      · simp at hm

theorem check (h : Accounts s) (fault : Fault) {c : Bool} (hc : c = true ∨ ¬ fault.IsAccounting) :
    Accounts (s.check fault c) := by
  have hf := faults_check h.faults hc
  rw [check_eq] at hf ⊢
  exact ⟨h.queue, h.recover, hf⟩

theorem quiet (h : Accounts s) (hq : Quiet s s') : Accounts s' where
  queue := h.queue.congr hq.slist hq.sbuf hq.sndNxt hq.sndUna
  recover := by
    rw [hq.sndNxt, hq.sndUna]
    rcases hq.recover with hr | hr
    · rw [hr]; exact h.recover
    · rw [hr]; exact .inr (BitVec.le_refl _)
  faults f hf := by
    rcases hq.faults f hf with hm | hm
    · exact h.faults f hm
    · exact fun ha => hm ha.isSend

theorem quiets (h : Accounts s) (hq : Quiets s s') : Accounts s' := by
  induction hq with
  | refl => exact h
  | tail _ hm ih => exact ih.quiet hm

/-! ## Emitting moves -/

theorem packet (h : Accounts s) (seq : Uint32) (flags : Uint8) (offset len : Uint32) :
    Accounts (s.packet seq flags offset len).1 := by
  have hfaults : ∀ f ∈ s.faults ++ s.packetFaults offset len, ¬ f.IsAccounting := by
    intro f hf
    rcases List.mem_append.mp hf with hm | hm
    · exact h.faults f hm
    · simp only [packetFaults, List.mem_append] at hm
      rcases hm with ((hm | hm) | hm) | hm <;> split_ifs at hm
      all_goals first
        | exact absurd hm List.not_mem_nil
        | (rw [List.mem_singleton.mp hm]; exact id)
  rw [packet_eq]
  simp only
  split_ifs
  all_goals exact ⟨h.queue.congr rfl rfl rfl rfl, h.recover, hfaults⟩

theorem recover_add {nxt una rec n : Uint32} (h : nxt < una ∨ rec ≤ nxt)
    (hlt : (nxt - una).toNat + n.toNat < 2 ^ 32) : nxt + n < una ∨ rec ≤ nxt + n := by
  bv_omega

theorem transmitted {n : Uint32} (h : Accounts s)
    (hl : s.snd.slist = pre ++ seg :: post) (hpre : ∀ g ∈ pre, g.xmit ≠ 0) (hx : seg.xmit < 30)
    (hn : n ≤ seg.len) (now : Uint32) : Accounts (s.transmitted pre seg post n now) := by
  have hq := h.queue.transmitted hl hpre hx hn now
  refine ⟨hq, ?_, h.faults⟩
  have hle := hq.inFlight_le
  have hlt := hq.lt
  simp only [PseudoTcp.transmitted] at hle hlt ⊢
  by_cases hz : seg.xmit = 0
  · simp only [hz, if_true] at hle ⊢
    refine recover_add h.recover ?_
    have htot := h.queue.total
    have hsent := h.queue.sent
    have hpre' := sentBytes_le_total pre
    have hpost' := sentBytes_le_total post
    have hlt' := h.queue.lt
    rw [hl, totalBytes_append, totalBytes_cons] at htot
    rw [hl, sentBytes_append, sentBytes_cons, if_pos hz] at hsent
    split_ifs <;> bv_omega
  · simp only [if_neg hz]
    exact h.recover

theorem nAvailable_le (h : Accounts s) :
    s.nAvailable.toNat + (s.snd.sndNxt - s.snd.sndUna).toNat ≤ s.snd.sbuf.dataLength := by
  have hle := h.queue.inFlight_le
  have hlt := h.queue.lt
  have hmin : s.nAvailable ≤ u32 s.snd.sbuf.getBuffered - s.nInFlight := by
    unfold nAvailable
    simp only [min32]
    split_ifs <;> bv_omega
  unfold nInFlight FifoBuffer.getBuffered at hmin
  have hu : (u32 s.snd.sbuf.dataLength).toNat = s.snd.sbuf.dataLength := toNat_u32 hlt
  generalize s.snd.sbuf.dataLength = d at *
  generalize s.snd.sndNxt - s.snd.sndUna = k at *
  bv_omega

theorem exists_unsent (h : Accounts s) (h0 : s.nAvailable ≠ 0) : ¬ ∀ g ∈ s.snd.slist, g.xmit ≠ 0 := by
  intro hall
  have hle := h.nAvailable_le
  have hsent := h.queue.sent
  have hz : sentBytes (_ ++ []) = _ := sentBytes_split hall (by simp)
  rw [List.append_nil] at hz
  have := h.queue.total
  bv_omega

/-- A step of sending keeps the accounts. -/
theorem emitMove (h : Accounts s) (hm : EmitMove s s') : Accounts s' := by
  cases hm with
  | quiet hq => exact h.quiet hq
  | packet hl hn => exact h.packet _ _ _ _
  | sent now hl hpre hx hn => exact h.transmitted hl hpre hx hn.le now
  | cut hl hpre hx h0 hlt =>
    exact ⟨h.queue.cut hl hx (BitVec.le_of_lt hlt), h.recover, h.faults⟩
  | checkInFlight =>
    refine h.check .inFlight (.inl (decide_eq_true ?_))
    have hle := h.queue.inFlight_le
    rw [BitVec.le_def, FifoBuffer.getBuffered, toNat_u32 h.queue.lt]
    exact hle
  | checkSearch h0 hall => exact (h.exists_unsent h0 hall).elim
  | checkBegin hnil hne =>
    exfalso
    have hsent := h.queue.sent
    rw [hnil, sentBytes_nil] at hsent
    have hrec := h.recover
    rcases hne with hne | ⟨h1, h2⟩ <;> bv_omega

theorem emits (h : Accounts s) (hm : Emits s s') : Accounts s' := by
  induction hm with
  | refl => exact h
  | tail _ hm ih => exact ih.emitMove hm

/-! ## Queueing moves -/

theorem advanceUna (h : Accounts s) {ack : Uint32} (hv : s.isValuable ack) (now : Uint32) :
    Accounts (s.advanceUna ack now) := by
  obtain ⟨hq, hread, hfree⟩ := h.queue.advanceUna hv now
  refine ⟨hq, ?_, ?_⟩
  · have hrec := h.recover
    simp only [isValuable, Bool.and_eq_true, decide_eq_true_eq] at hv
    rw [(advanceUna_fields s ack now).1, (advanceUna_fields s ack now).2]
    right
    have : (s.advanceUna ack now).recover = s.recover := by
      simp only [PseudoTcp.advanceUna, check_eq]
    rw [this]
    bv_omega
  · have : (s.advanceUna ack now).faults = s.faults := by
      simp only [PseudoTcp.advanceUna, check_eq, hread, hfree, if_true, List.append_nil]
    rw [this]
    exact h.faults

theorem enqueue (h : Accounts s) (data : ℕ → Uint8) (len : Uint32) (bCtrl : Bool) :
    Accounts (s.queue data len bCtrl).1 := by
  refine ⟨QueueInv.queue h.queue data len bCtrl, ?_, ?_⟩
  · simp only [PseudoTcp.queue, check_eq]
    exact h.recover
  · exact faults_check h.faults (.inr id)

theorem window (h : Accounts s) (w : Uint32) : Accounts { s with snd.sndWnd := w } :=
  ⟨h.queue.congr rfl rfl rfl rfl, h.recover, h.faults⟩

theorem options (h : Accounts s) (data : List Uint8) : Accounts (s.parseOptions data) := by
  rcases parseOptions_cases s data with ⟨scale, hs⟩ | ⟨-, hs⟩
  · rw [hs]
    exact ⟨h.queue.congr rfl rfl rfl rfl, h.recover, h.faults⟩
  · rw [hs, resizeReceiveBuffer_eq]
    refine ⟨h.queue.congr rfl rfl rfl rfl, h.recover, fun f hf => ?_⟩
    rcases List.mem_append.mp hf with hm | hm
    · exact h.faults f hm
    · split_ifs at hm
      · simp at hm
      · rw [List.mem_singleton.mp hm]; exact id

/-- A step of the send queue keeps the accounts. -/
theorem queueMove {op : Op} {inc : Option Segment} (h : Accounts s) (hm : QueueMove op inc s s') : Accounts s' := by
  cases hm with
  | quiet hq => exact h.quiet hq
  | options hop hctl hlen hdata => exact h.options _
  | window hop hack => exact h.window _
  | advance now hop hack => exact h.advanceUna hack now
  | connectMessage st hst hst' =>
    exact ((h.quiet (.setState s hst')).window _).enqueue _ _ _
  | queue hop hst => exact h.enqueue _ _ _
  | mtu hop => exact ⟨h.queue, h.recover, h.faults⟩
  | resize hop => exact ⟨QueueInv.resizeSendBuffer h.queue _, h.recover, h.faults⟩

theorem queues {op : Op} {inc : Option Segment} (h : Accounts s) (hm : Queues op inc s s') : Accounts s' := by
  induction hm with
  | refl => exact h
  | tail _ hm ih => exact ih.queueMove hm

theorem step (h : Accounts s) (op : Op) : Accounts (s.step op) := by
  obtain ⟨s₁, hq, he⟩ := step_moves s op
  exact (h.queues hq).emits he

end Accounts

/-! ## Runs -/

/-- **The accounts are kept in every run**. -/
theorem accounts_run (w : World) (conv : Uint32) (ops : List Op) : Accounts (run step (new w conv) ops) :=
  run_invariant (G := fun _ _ => True) (fun _ op h _ => h.step op) (Accounts.new w conv)
    (guarded_true _ _)

/-- **The accounting of the send queue after every run**: the segments cover `m_sbuf`, the
transmitted ones come first and are in flight, and no check fails. -/
theorem sendQueue_accounting (w : World) (conv : Uint32) (ops : List Op) :
    let s := run step (new w conv) ops
    totalBytes s.snd.slist = s.snd.sbuf.getBuffered ∧
      (∃ sent unsent, s.snd.slist = sent ++ unsent ∧ (∀ g ∈ sent, g.xmit > 0) ∧
        (∀ g ∈ unsent, g.xmit = 0) ∧ totalBytes sent = s.nInFlight.toNat) ∧
      s.nInFlight.toNat ≤ s.snd.sbuf.getBuffered ∧
      .inFlight ∉ s.faults ∧ .searchEnd ∉ s.faults ∧ .ackEmpty ∉ s.faults := by
  intro s
  have h : Accounts s := accounts_run w conv ops
  obtain ⟨sent, unsent, hl, hs, hu⟩ := h.queue.ordered.split
  refine ⟨h.queue.total, ⟨sent, unsent, hl, fun g hg => ?_, hu, ?_⟩, h.queue.inFlight_le, ?_, ?_, ?_⟩
  · have := hs g hg
    bv_omega
  · rw [nInFlight, ← h.queue.sent, hl, sentBytes_split hs hu]
  · exact fun hm => h.faults _ hm trivial
  · exact fun hm => h.faults _ hm trivial
  · exact fun hm => h.faults _ hm trivial

/-! ## The loop of `attemptSend` ends -/

def unsentWork (l : List SSegment) : ℕ :=
  (l.map fun g => if g.xmit = 0 then g.len.toNat + 1 else 0).sum

@[simp] theorem unsentWork_nil : unsentWork [] = 0 := rfl

@[simp] theorem unsentWork_cons (g : SSegment) (l : List SSegment) :
    unsentWork (g :: l) = (if g.xmit = 0 then g.len.toNat + 1 else 0) + unsentWork l := by
  simp [unsentWork]

@[simp] theorem unsentWork_append (l l' : List SSegment) :
    unsentWork (l ++ l') = unsentWork l + unsentWork l' := by simp [unsentWork]

theorem unsentWork_lt_sendFuel (l : List SSegment) : unsentWork l < sendFuel l := by
  induction l with
  | nil => exact Nat.one_pos
  | cons g l ih =>
    simp only [sendFuel, unsentWork_cons, List.map_cons, List.sum_cons] at ih ⊢
    split_ifs <;> omega

theorem nAvailable_le_mss (s : PseudoTcp) : s.nAvailable ≤ s.mss := by
  unfold nAvailable
  simp only [min32]
  split_ifs <;> bv_omega

theorem unsentWork_transmit {now : Uint32}
    (h : s.transmit pre seg post now = (s', true)) (hx : seg.xmit = 0) (hlen : seg.len ≤ s.mss) :
    unsentWork s'.snd.slist < unsentWork (pre ++ seg :: post) ∧
      (seg.len ≠ 0 → unsentWork s'.snd.slist + 1 < unsentWork (pre ++ seg :: post)) := by
  have hmin : min32 seg.len s.mss = seg.len := by
    unfold min32
    split_ifs <;> bv_omega
  have hone : (0 : Uint8) + 1 ≠ 0 := by decide
  rcases transmit_cases s pre seg post now with ⟨h', -⟩ | ⟨s₁, -, h'⟩ | ⟨s₁, n, hs, -, h'⟩
  · rw [h'] at h; cases h
  · rw [h'] at h; cases h
  · rw [h'] at h
    cases h
    rw [hmin] at hs
    rcases transmitPacket_le (by rw [hs]) with ⟨rfl, -⟩ | ⟨hlt, htab⟩
    · have hnlt : ¬ seg.len < seg.len := by bv_omega
      simp only [transmitted, if_neg hnlt, hx, unsentWork_append, unsentWork_cons, if_neg hone,
        if_true]
      constructor
      · omega
      · intro hne
        bv_omega
    · have hge := htab.ge
      simp only [transmitted, if_pos hlt, hx, unsentWork_append, unsentWork_cons, if_neg hone,
        if_true, SSegment.mk']
      constructor
      · bv_omega
      · intro _
        bv_omega

theorem unsentWork_sendSegment {now : Uint32}
    (h0 : s.nAvailable ≠ 0) (hnext : nextSegment s.snd.slist = (pre, seg :: post))
    (h : s.sendSegment pre seg post s.nAvailable now = (s', true)) :
    unsentWork s'.snd.slist < unsentWork s.snd.slist := by
  have hl := Emits.nextSegment_append s.snd.slist
  rw [hnext] at hl
  have hx := Emits.nextSegment_seg hnext
  have hmss := nAvailable_le_mss s
  rw [← hl]
  unfold sendSegment at h
  by_cases hlt : seg.len > s.nAvailable
  · simp only [if_pos hlt] at h
    have := (unsentWork_transmit h hx hmss).2 h0
    simp only [unsentWork_append, unsentWork_cons, hx, if_true, SSegment.mk'] at this ⊢
    bv_omega
  · simp only [if_neg hlt] at h
    exact (unsentWork_transmit h hx (by change seg.len ≤ s.mss; bv_omega)).1

/-- More fuel than work changes nothing. -/
theorem sendLoop_fuel (fuel fuel' : ℕ) (s : PseudoTcp) (sflags : SendFlags) (now : Uint32)
    (h : unsentWork s.snd.slist < fuel) (h' : unsentWork s.snd.slist < fuel') :
    sendLoop fuel s sflags now = sendLoop fuel' s sflags now := by
  induction fuel generalizing fuel' s sflags with
  | zero => omega
  | succ fuel ih =>
    obtain ⟨k, rfl⟩ : ∃ k, fuel' = k + 1 := ⟨fuel' - 1, by omega⟩
    have hsl : (s.check .inFlight (s.nInFlight ≤ u32 s.snd.sbuf.getBuffered)).snd.slist =
        s.snd.slist := by rw [check_eq]
    simp only [sendLoop]
    generalize s.check .inFlight (s.nInFlight ≤ u32 s.snd.sbuf.getBuffered) = t at hsl ⊢
    split_ifs with h0 hn
    · rfl
    · rfl
    · split
      · rfl
      · next before seg after heq =>
        split
        · next t' heq' =>
          have hlt := unsentWork_sendSegment h0 heq heq'
          rw [hsl] at hlt
          exact ih k t' .none (by omega) (by omega)
        · rfl

/-! ## When the loop stops -/

/-- The network did not take the last packet. -/
def LastRefused (s : PseudoTcp) : Prop :=
  ∃ p wres, s.log.getLast? = some (.tcpWritePacket p wres) ∧ wres ≠ .success

theorem packet_refused {t : PseudoTcp} {seq : Uint32} {flags : Uint8} {offset len : Uint32} {wres : WriteResult}
    (h : s.packet seq flags offset len = (t, wres)) (hwres : wres ≠ .success) : t.LastRefused := by
  rw [packet_eq] at h
  dsimp only at h
  split_ifs at h with hfail
  · cases h
    exact ⟨_, _, List.getLast?_concat, hwres⟩
  all_goals exact absurd (Prod.mk.inj h).2.symm hwres

theorem retryPacket_refused (seg : SSegment) (table : List Uint16) (n : Uint32) (s : PseudoTcp) (hs : s.LastRefused)
    (h : (retryPacket seg table n s).2 = none) : (retryPacket seg table n s).1.LastRefused := by
  induction table generalizing n s with
  | nil => exact hs
  | cons mtu table ih =>
    unfold retryPacket at h ⊢
    dsimp only at h ⊢
    split_ifs at h ⊢ with hzero hlt
    · exact hs
    · split at h
      · cases h
      · next t heq => exact packet_refused heq (by decide)
      · next t heq => exact ih _ t (packet_refused heq (by decide)) h
    · exact ih _ _ hs h

theorem transmit_refused {before after : List SSegment} {now : Uint32} {t : PseudoTcp}
    (hx : seg.xmit = 0) (h : s.transmit before seg after now = (t, false)) : t.LastRefused := by
  rcases transmit_cases s before seg after now with ⟨-, hbig⟩ | ⟨s₁, hs, h'⟩ | ⟨s₁, n, -, -, h'⟩
  · rw [hx] at hbig
    exact absurd hbig (by decide)
  · rw [h'] at h
    cases h
    unfold transmitPacket at hs
    split at hs
    · cases hs
    · next heq =>
      cases hs
      exact packet_refused heq (by decide)
    · next t' heq =>
      have hretry := retryPacket_refused seg (packetMaximums.drop (t'.msslevel.toNat + 1)) (min32 seg.len s.mss) t'
        (packet_refused heq (by decide))
      rw [hs] at hretry
      exact hretry rfl
  · rw [h'] at h
    cases h

theorem nAvailable_sendAck (s : PseudoTcp) (sflags : SendFlags) : (s.sendAck sflags).nAvailable = s.nAvailable := by
  have hpacket (seq) : (s.packet seq 0 0 0).1.nAvailable = s.nAvailable := by
    rw [packet_eq]
    dsimp only
    split_ifs <;> rfl
  cases sflags with
  | none => rfl
  | immediateAck => exact hpacket _
  | delayedAck =>
    unfold sendAck
    dsimp only
    split_ifs
    · exact hpacket _
    · rfl

/-- **Why the loop stops**. -/
theorem sendLoop_fills (fuel : ℕ) (s : PseudoTcp) (sflags : SendFlags) (now : Uint32)
    (hfuel : unsentWork s.snd.slist < fuel) :
    (sendLoop fuel s sflags now).nAvailable = 0 ∨ (sendLoop fuel s sflags now).nagleHolds = true ∨
      (∀ g ∈ (sendLoop fuel s sflags now).snd.slist, g.xmit ≠ 0) ∨ (sendLoop fuel s sflags now).LastRefused := by
  induction fuel generalizing s sflags with
  | zero => omega
  | succ fuel ih =>
    have hsl : (s.check .inFlight (s.nInFlight ≤ u32 s.snd.sbuf.getBuffered)).snd.slist = s.snd.slist := by
      rw [check_eq]
    simp only [sendLoop]
    generalize s.check .inFlight (s.nInFlight ≤ u32 s.snd.sbuf.getBuffered) = t at hsl ⊢
    split_ifs with h0 hn
    · exact .inl ((nAvailable_sendAck t sflags).trans h0)
    · exact .inr (.inl hn)
    · split
      · next before hnil =>
        -- the search has found no segment that was not transmitted
        refine .inr (.inr (.inl fun g hg => ?_))
        have happ := Emits.nextSegment_append t.snd.slist
        rw [hnil, List.append_nil] at happ
        rw [check_eq, ← happ] at hg
        exact Emits.nextSegment_pre (l := t.snd.slist) (by rw [hnil]; exact hg)
      · next before seg after heq =>
        split
        · next t' heq' =>
          have hlt := unsentWork_sendSegment h0 heq heq'
          rw [hsl] at hlt
          exact ih t' .none (by omega)
        · next t' heq' =>
          have hxmit := Emits.nextSegment_seg heq
          have hx : (if seg.len > t.nAvailable then { seg with len := t.nAvailable } else seg).xmit = 0 := by
            split_ifs <;> exact hxmit
          exact .inr (.inr (.inr (transmit_refused hx heq')))

def AvoidsSillyWindow (s : PseudoTcp) : Prop :=
  s.nUseable * 4 < s.nWindow ∧ s.nUseable < min32 (u32 s.snd.sbuf.getBuffered - s.nInFlight) s.mss

theorem nAvailable_eq_zero (h : s.nAvailable = 0) :
    u32 s.snd.sbuf.getBuffered = s.nInFlight ∨ s.mss = 0 ∨ s.nUseable = 0 ∨ s.AvoidsSillyWindow := by
  unfold nAvailable at h
  dsimp only at h
  split_ifs at h with huse hsilly
  · exact .inr (.inr (.inr ⟨hsilly, huse⟩))
  · exact .inr (.inr (.inl h))
  · unfold min32 at h
    split_ifs at h
    · exact .inr (.inl h)
    · exact .inl (by bv_omega)

/-- **`attemptSend` stops for a reason**: nothing is buffered, segments are empty, the window is
used up, a silly window is avoided, Nagle waits, all is transmitted, or the network refused. -/
theorem attemptSend_fills (s : PseudoTcp) (sflags : SendFlags) :
    (u32 (s.attemptSend sflags).snd.sbuf.getBuffered = (s.attemptSend sflags).nInFlight ∨
        (s.attemptSend sflags).mss = 0 ∨ (s.attemptSend sflags).nUseable = 0 ∨
        (s.attemptSend sflags).AvoidsSillyWindow) ∨
      (s.attemptSend sflags).nagleHolds = true ∨
      (∀ g ∈ (s.attemptSend sflags).snd.slist, g.xmit ≠ 0) ∨ (s.attemptSend sflags).LastRefused := by
  have hsl : s.beforeLoop.snd.slist = s.snd.slist := by
    unfold beforeLoop
    split_ifs <;> rfl
  refine (sendLoop_fills _ _ _ _ ?_).imp_left nAvailable_eq_zero
  rw [hsl]
  exact unsentWork_lt_sendFuel _

end PseudoTcp

end Libjingle
