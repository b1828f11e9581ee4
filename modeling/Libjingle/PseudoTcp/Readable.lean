import Libjingle.Fifo.Spec
import Libjingle.PseudoTcp.LifeCycle

/-!
# Wake-ups for readers

`m_bReadEnable` is set when `Recv` finds nothing, and cleared when `OnTcpReadable` is called.

Main results: **`step_reads`**, **`wakeUp_not_lost`**.
-/

namespace Libjingle

open Lib

namespace PseudoTcp

variable {s s' : PseudoTcp}

def readable (s : PseudoTcp) : ℕ := s.rcv.rbuf.getBuffered

/-! ## Parts that leave the data alone -/

/-- The flag and the number of readable bytes stay as they are, and the log only grows. -/
structure Unread (s s' : PseudoTcp) : Prop where
  readEnable : s'.readEnable = s.readEnable
  readable : s'.readable = s.readable
  log : s.log <+: s'.log

namespace Unread

theorem refl (s : PseudoTcp) : Unread s s := ⟨rfl, rfl, List.prefix_rfl⟩

theorem trans {t : PseudoTcp} (h : Unread s t) (h' : Unread t s') : Unread s s' :=
  ⟨h'.readEnable.trans h.readEnable, h'.readable.trans h.readable, h.log.trans h'.log⟩

theorem of_silent (hflag : s'.readEnable = s.readEnable) (hrcv : s'.rcv.rbuf = s.rcv.rbuf)
    (hlog : s'.log = s.log) : Unread s s' :=
  ⟨hflag, by rw [PseudoTcp.readable, hrcv]; rfl, by rw [hlog]⟩

theorem of_sendFrame (h : SendFrame s s') : Unread s s' := by
  obtain ⟨es, hlog, -⟩ := h.log
  exact ⟨h.readEnable, by rw [PseudoTcp.readable, h.rcv]; rfl, ⟨es, hlog.symm⟩⟩

theorem check (s : PseudoTcp) (fault : Fault) (c : Bool) : Unread s (s.check fault c) := by
  rw [check_eq]
  exact .of_silent rfl rfl rfl

theorem emit (s : PseudoTcp) (e : Event) : Unread s (s.emit e) :=
  ⟨rfl, rfl, List.prefix_append _ _⟩

theorem setState (s : PseudoTcp) (st : TcpState) : Unread s (s.setState st) :=
  ⟨rfl, rfl, List.prefix_append _ _⟩

theorem closedown (s : PseudoTcp) (err : Errno) : Unread s (s.closedown err) :=
  (setState s .closed).trans (emit _ _)

theorem establish (s : PseudoTcp) : Unread s s.establish := by
  have hmtu : Unread (s.setState .established) (s.setState .established).adjustMTU := .of_silent rfl rfl rfl
  exact ((setState s .established).trans hmtu).trans (emit _ _)

theorem ackRule : AckRule Unread where
  refl := refl
  trans := trans
  silent h := by
    simp only [restPart, Prod.mk.injEq] at h
    obtain ⟨-, -, -, -, hrcv, hflag, -, -, -, hlog, -⟩ := h
    exact .of_silent hflag (by rw [hrcv]) hlog
  check s fault _ c := check s fault c
  transmitFront s now := .of_sendFrame (.transmitFront s now)

theorem resizeReceiveBuffer (s : PseudoTcp) (newSize : Uint32) : Unread s (s.resizeReceiveBuffer newSize) := by
  rw [resizeReceiveBuffer_eq]
  exact ⟨rfl, FifoBuffer.setCapacity_dataLength _ _, List.prefix_rfl⟩

theorem parseOptions (s : PseudoTcp) (data : List Uint8) : Unread s (s.parseOptions data) := by
  rcases parseOptions_cases s data with ⟨scale, hs⟩ | ⟨-, hs⟩
  · rw [hs]
    exact .of_silent rfl rfl rfl
  · rw [hs]
    exact (resizeReceiveBuffer s defaultRcvBufSize).trans (.of_silent rfl rfl rfl)

theorem control (s : PseudoTcp) (seg : Segment) : Unread s (s.control seg).1 := by
  unfold PseudoTcp.control
  split_ifs
  · exact .refl s
  · exact .refl s
  · refine (parseOptions s (block seg.data 1 (seg.len - 1).toNat)).trans ?_
    dsimp only
    generalize s.parseOptions (block seg.data 1 (seg.len - 1).toNat) = t
    unfold connectReceived
    split
    · exact (setState t .synReceived).trans (ackRule.queueConnectMessage _)
    · exact establish t
    · exact .refl t
  · exact .refl s

theorem attemptSend (s : PseudoTcp) (sflags : SendFlags) : Unread s (s.attemptSend sflags) :=
  .of_sendFrame (.attemptSend s sflags)

theorem packet (s : PseudoTcp) (seq : Uint32) (flags : Uint8) (offset len : Uint32) :
    Unread s (s.packet seq flags offset len).1 :=
  .of_sendFrame (.packet s seq flags offset len)

theorem processAck (s : PseudoTcp) (seg : Segment) (now : Uint32) : Unread s (s.processAck seg now).1 := by
  have h1 := ackRule.handleAck s seg now
  unfold PseudoTcp.processAck
  split
  · next t heq =>
    rw [heq] at h1
    exact h1
  · next t heq =>
    rw [heq] at h1
    exact h1.trans (closedown t _)

theorem openIfSynReceived (s : PseudoTcp) (bConnect : Bool) : Unread s (s.openIfSynReceived bConnect) := by
  unfold PseudoTcp.openIfSynReceived
  split_ifs
  · exact establish s
  · exact .refl s

theorem notifyWriteable (s : PseudoTcp) : Unread s s.notifyWriteable := by
  unfold PseudoTcp.notifyWriteable
  simp only
  split_ifs
  · exact ⟨rfl, rfl, List.prefix_append _ _⟩
  · exact .refl s

theorem clockRetransmit (s : PseudoTcp) (now : Uint32) : Unread s (s.clockRetransmit now).1 := by
  rcases clockRetransmit_cases s now with h | ⟨-, ⟨-, h⟩ | ⟨-, t, ht, h⟩⟩
  · rw [h]
    exact .refl s
  · rw [h]
    exact check s .clockEmpty false
  · have hfront : Unread s t := ht ▸ ackRule.transmitFront s now
    rcases h with h | ⟨ssthresh, rxRto, h⟩
    · rw [h]
      exact hfront.trans (closedown t _)
    · rw [h]
      exact hfront.trans (.of_silent rfl rfl rfl)

theorem clockProbe (s : PseudoTcp) (now : Uint32) : Unread s (s.clockProbe now).1 := by
  rcases clockProbe_cases s now with h | h | ⟨rxRto, h⟩
  · rw [h]
    exact .refl s
  · rw [h]
    exact closedown s _
  · rw [h]
    exact (packet s _ _ _ _).trans (.of_silent rfl rfl rfl)

theorem notifyClock (s : PseudoTcp) (now : Uint32) : Unread s (s.notifyClock now) :=
  notifyClock_rel refl trans (clockRetransmit s now) (fun t => clockProbe t now) fun t => packet t _ _ _ _

theorem widenWindow (s : PseudoTcp) (available : Uint32) : Unread s (s.widenWindow available) := by
  unfold PseudoTcp.widenWindow
  simp only
  split_ifs
  · refine trans (t := { s with rcv.rcvWnd := available }) (.of_silent rfl rfl rfl) ?_
    exact attemptSend _ .immediateAck
  · exact .of_silent rfl rfl rfl
  · exact .refl s

theorem reopenWindow (s : PseudoTcp) : Unread s s.reopenWindow :=
  (check s .recvWindow _).trans (widenWindow _ _)

theorem connect (s : PseudoTcp) : Unread s s.connect.1 := by
  unfold PseudoTcp.connect
  split_ifs
  · exact .of_silent rfl rfl rfl
  · refine (setState s .synSent).trans ((ackRule.queueConnectMessage _).trans ?_)
    dsimp only
    exact attemptSend _ .none

theorem send (s : PseudoTcp) (data : ℕ → Uint8) (len : ℕ) : Unread s (s.send data len).1 := by
  unfold PseudoTcp.send
  split_ifs
  · exact .of_silent rfl rfl rfl
  · exact .of_silent rfl rfl rfl
  · refine (ackRule.queue s data (u32 len) false).trans ?_
    dsimp only
    exact attemptSend _ .none

theorem notifyMTU (s : PseudoTcp) (mtu : Uint16) : Unread s (s.notifyMTU mtu) := by
  unfold PseudoTcp.notifyMTU
  simp only
  split_ifs <;> exact .of_silent rfl rfl rfl

theorem setOption (s : PseudoTcp) (opt : TcpOption) (value : ℤ) : Unread s (s.setOption opt value) := by
  cases opt with
  | nodelay | ackdelay => exact .of_silent rfl rfl rfl
  | sndbuf => exact (check s .optionState _).trans (.of_silent rfl rfl rfl)
  | rcvbuf => exact (check s .optionState _).trans (resizeReceiveBuffer _ _)

end Unread

/-! ## Payload -/

theorem writeOffset_dataLength (f : FifoBuffer) (data : ℕ → Uint8) (bytes offset : ℕ) :
    (f.writeOffset data bytes offset).2.2.dataLength = f.dataLength := by
  unfold FifoBuffer.writeOffset FifoBuffer.writeOffsetLocked
  simp only
  split_ifs <;> rfl

theorem readable_consume (s : PseudoTcp) (n : Uint32) : (s.consume n).readable = s.readable + n.toNat := by
  simp only [readable, FifoBuffer.getBuffered, consume, check_eq,
    FifoBuffer.consumeWriteBuffer_dataLength]

theorem readable_recoverLoop (l : List RSegment) (s : PseudoTcp) (acked : Bool) :
    s.readable ≤ (recoverLoop l s acked).1.readable := by
  induction l generalizing s acked with
  | nil => exact le_rfl
  | cons r rest ih =>
    simp only [recoverLoop]
    split_ifs
    · refine le_trans ?_ (ih _ _)
      rw [readable_consume]
      exact Nat.le_add_right _ _
    · exact ih s acked
    · exact le_rfl

theorem readable_receive (s : PseudoTcp) (seg : Segment) (sflags : SendFlags) :
    let r := s.receive seg sflags
    (r.2.2 = false → r.1.readable = s.readable) ∧ (r.2.2 = true → 0 < r.1.readable) := by
  have hwrite : (s.writePayload seg).readable = s.readable := by
    simp only [readable, FifoBuffer.getBuffered, writePayload, check_eq, writeOffset_dataLength]
  unfold receive
  split_ifs with hlen
  · exact ⟨fun _ => rfl, fun h => by cases h⟩
  · exact ⟨fun _ => rfl, fun h => by cases h⟩
  · exact ⟨fun _ => rfl, fun h => by cases h⟩
  · unfold store
    generalize s.writePayload seg = t at hwrite
    by_cases hseq : seg.seq = t.rcv.rcvNxt
    · simp only [if_pos hseq]
      refine ⟨fun h => absurd h (by decide), fun _ => lt_of_lt_of_le ?_ (readable_recoverLoop _ _ _)⟩
      rw [readable_consume]
      have hpos : seg.len.toNat ≠ 0 := fun h => hlen (BitVec.eq_of_toNat_eq h)
      omega
    · simp only [if_neg hseq]
      exact ⟨fun _ => hwrite, fun h => by cases h⟩

/-! ## Calls -/

/-- What a call can do to the flag and to the readable bytes. -/
inductive Reads (s s' : PseudoTcp) : Prop where
  | unread (h : Unread s s')
  | taken (hflag : s'.readEnable = s.readEnable) (hle : s'.readable ≤ s.readable)
  | blocked (hflag : s'.readEnable = true) (hnone : s'.readable = 0)
  | arrived (hflag : s'.readEnable = false) (hsome : 0 < s'.readable)
      (hcall : s.readEnable = true → .onTcpReadable ∈ s'.log.drop s.log.length)

theorem Reads.after {t : PseudoTcp} (h : Reads t s') (hpre : Unread s t) : Reads s s' := by
  cases h with
  | unread h => exact .unread (hpre.trans h)
  | taken hflag hle => exact .taken (hflag.trans hpre.readEnable) (hpre.readable ▸ hle)
  | blocked hflag hnone => exact .blocked hflag hnone
  | arrived hflag hsome hcall =>
    refine .arrived hflag hsome fun hs => ?_
    exact List.drop_subset_drop_left _ hpre.log.length_le (hcall (hpre.readEnable.trans hs))

theorem reads_payload (s : PseudoTcp) (seg : Segment) (sflags : SendFlags) :
    let r := s.receive seg sflags
    Reads s ((r.1.attemptSend r.2.1).notifyReadable r.2.2) := by
  obtain ⟨hold, hnew⟩ := readable_receive s seg sflags
  obtain ⟨i, fs, hr, -⟩ := RecvFrame.receive s seg sflags
  generalize s.receive seg sflags = r at hold hnew hr
  obtain ⟨t, flags, bNewData⟩ := r
  obtain rfl : t = _ := hr
  have hsend := Unread.attemptSend { s with rcv := i, faults := s.faults ++ fs } flags
  dsimp only at hold hnew ⊢
  generalize PseudoTcp.attemptSend { s with rcv := i, faults := s.faults ++ fs } flags = t' at hsend
  have hflag : t'.readEnable = s.readEnable := hsend.readEnable
  have hlog : s.log <+: t'.log := hsend.log
  cases bNewData with
  | false => exact .unread ⟨hflag, hsend.readable.trans (hold rfl), hlog⟩
  | true =>
    have hsome : 0 < t'.readable := hsend.readable ▸ hnew rfl
    unfold notifyReadable
    split_ifs with hcall
    · refine .arrived rfl hsome fun _ => ?_
      change Event.onTcpReadable ∈ (t'.log ++ [Event.onTcpReadable]).drop s.log.length
      rw [List.drop_append_of_le_length hlog.length_le]
      exact List.mem_append_right _ List.mem_cons_self
    · have hoff : t'.readEnable = false := by simpa using hcall
      refine .arrived hoff hsome fun hs => ?_
      rw [← hflag, hoff] at hs
      cases hs

theorem reads_process (s : PseudoTcp) (seg : Segment) : Reads s (s.process seg).1 := by
  have hnote : Unread s s.noteTraffic := .of_silent rfl rfl rfl
  unfold process
  split_ifs
  · exact .unread (.refl s)
  · exact .unread hnote
  · exact .unread (hnote.trans (.closedown _ _))
  · have hcontrol := hnote.trans (.control _ seg)
    unfold processSegment
    split
    · next t heq =>
      rw [heq] at hcontrol
      exact .unread hcontrol
    · next t bConnect heq =>
      rw [heq] at hcontrol
      have hack := (hcontrol.trans (Unread.ackRule.updateTimestamp t seg)).trans (.processAck _ seg s.now)
      split
      · next t' heq' =>
        rw [heq'] at hack
        exact .unread hack
      · next t' heq' =>
        rw [heq'] at hack
        have hopen := hack.trans ((Unread.openIfSynReceived t' bConnect).trans (.notifyWriteable _))
        exact (reads_payload _ _ _).after hopen

/-! ## `Recv` -/

theorem read_dataLength_le (f : FifoBuffer) (bytes : ℕ) : (f.read bytes).2.2.dataLength ≤ f.dataLength := by
  unfold FifoBuffer.read
  simp only
  split
  · exact (FifoBuffer.postIf_dataLength _ _).le.trans (Nat.sub_le _ _)
  · exact le_rfl

theorem read_block {f f' : FifoBuffer} {bytes : ℕ} {out : List Uint8}
    (h : f.read bytes = (.block, out, f')) : f'.dataLength = 0 := by
  unfold FifoBuffer.read FifoBuffer.readOffsetLocked at h
  by_cases hempty : 0 ≥ f.dataLength
  · simp only [if_pos hempty] at h
    obtain rfl : f = f' := by
      split at h
      · cases h
      · exact (Prod.mk.inj (Prod.mk.inj h).2).2
    exact Nat.le_zero.mp hempty
  · simp only [if_neg hempty, Prod.mk.injEq, reduceCtorEq, false_and] at h

theorem reads_recv (s : PseudoTcp) (len : ℕ) : Reads s (s.recv len).1 := by
  have hle := read_dataLength_le s.rcv.rbuf len
  unfold recv
  split_ifs
  · exact .unread (.of_silent rfl rfl rfl)
  · split
    · next out rbuf heq => exact .blocked rfl (read_block heq)
    · next result out rbuf _ heq =>
      rw [heq] at hle
      have hwindow := Unread.reopenWindow { s.check .recvResult (result = .success) with rcv.rbuf := rbuf }
      refine .taken (hwindow.readEnable.trans ?_) (hwindow.readable.trans_le hle)
      rw [check_eq]

/-- **What a call does to what can be read**. -/
theorem step_reads (s : PseudoTcp) (op : Op) : Reads s (s.step op) := by
  cases op with
  | connect => exact .unread (.connect s)
  | recv len => exact reads_recv s len
  | send data len => exact .unread (.send s data len)
  | close force => exact .unread (.of_silent rfl rfl rfl)
  | notifyMTU mtu => exact .unread (.notifyMTU s mtu)
  | notifyClock now => exact .unread (.notifyClock s now)
  | notifyPacket buffer len =>
    simp only [step, notifyPacket, parse]
    split_ifs
    · exact .unread (.refl s)
    · exact .unread (.refl s)
    · exact reads_process s _
  | setOption opt value => exact .unread (.setOption s opt value)

/-! ## Wake-ups -/

def WakesUp (s : PseudoTcp) : Prop := s.readEnable = true → s.readable = 0

def Waits (s : PseudoTcp) : Prop := s.readEnable = true ∧ s.readable = 0

theorem WakesUp.step (h : WakesUp s) (op : Op) : WakesUp (s.step op) := by
  intro hflag
  cases step_reads s op with
  | unread hu => exact hu.readable.trans (h (hu.readEnable ▸ hflag))
  | taken hsame hle => exact Nat.le_zero.mp (hle.trans (h (hsame ▸ hflag)).le)
  | blocked _ hnone => exact hnone
  | arrived hoff => exact absurd (hflag.symm.trans hoff) (by decide)

theorem wakesUp_run (w : World) (conv : Uint32) (ops : List Op) : WakesUp (run step (new w conv) ops) :=
  run_invariant (I := WakesUp) (G := fun _ _ => True) (fun _ op h _ => h.step op) (fun _ => rfl)
    (guarded_true _ _)

theorem Waits.step (h : Waits s) (op : Op) :
    Waits (s.step op) ∨ (0 < (s.step op).readable ∧ .onTcpReadable ∈ s.newEvents op) := by
  cases step_reads s op with
  | unread hu => exact .inl ⟨hu.readEnable.trans h.1, hu.readable.trans h.2⟩
  | taken hsame hle => exact .inl ⟨hsame.trans h.1, Nat.le_zero.mp (hle.trans h.2.le)⟩
  | blocked hflag hnone => exact .inl ⟨hflag, hnone⟩
  | arrived _ hsome hcall => exact .inr ⟨hsome, hcall h.1⟩

theorem Waits.run (h : Waits s) {ops : List Op}
    (hnone : ∀ pre, pre <+: ops → (Lib.run PseudoTcp.step s pre).readable = 0) :
    Waits (Lib.run PseudoTcp.step s ops) := by
  induction ops generalizing s with
  | nil => exact h
  | cons op ops ih =>
    have hfirst : (s.step op).readable = 0 := hnone [op] ⟨ops, rfl⟩
    refine ih ((h.step op).resolve_right fun hcall => ?_) fun pre hpre => ?_
    · exact absurd hfirst hcall.1.ne'
    · exact hnone (op :: pre) (List.cons_prefix_cons.mpr ⟨rfl, hpre⟩)

theorem waits_recv {len : ℕ} (hnone : (s.recv len).2 = none) (herr : (s.recv len).1.error = .ewouldblock) :
    Waits (s.recv len).1 := by
  unfold recv at hnone herr ⊢
  by_cases hst : s.state ≠ .established
  · rw [if_pos hst] at herr
    cases herr
  · rw [if_neg hst] at hnone ⊢
    split at hnone
    · next out rbuf heq => exact ⟨rfl, read_block heq⟩
    · cases hnone

/-- **No wake-up of a reader is lost**: after `EWOULDBLOCK` the first call that makes bytes readable
calls `OnTcpReadable`. -/
theorem wakeUp_not_lost (w : World) (conv : Uint32) (ops : List Op) :
    let s := run step (new w conv) ops
    WakesUp s ∧ ∀ len, (s.recv len).2 = none → (s.recv len).1.error = .ewouldblock →
      ∀ later op, (∀ pre, pre <+: later → (run step (s.recv len).1 pre).readable = 0) →
        let t := run step (s.recv len).1 later
        0 < (t.step op).readable → .onTcpReadable ∈ t.newEvents op := by
  refine ⟨wakesUp_run w conv ops, fun len hnone herr later op hquiet hsome => ?_⟩
  have hwaits := (waits_recv hnone herr).run hquiet
  rcases hwaits.step op with hstill | ⟨-, hcall⟩
  · exact absurd hstill.2 hsome.ne'
  · exact hcall

/-- A reader that has come too early, and one byte that arrives. -/
theorem wakeUp_not_lost_waiting :
    let t := ((run step (new calmWorld 0) [.connect, .packet connectReply]).recv 10).1
    .onTcpReadable ∈ t.newEvents (.packet (dataPacket 4 [1])) :=
  (wakeUp_not_lost calmWorld 0 [.connect, .packet connectReply]).2 10 (by decide)
    (by decide) [] (.packet (dataPacket 4 [1]))
    (fun pre hpre => by rw [List.prefix_nil.mp hpre]; decide) (by decide)

end PseudoTcp

end Libjingle
