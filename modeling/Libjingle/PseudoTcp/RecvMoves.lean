import Libjingle.PseudoTcp.SendMoves

/-!
# The receive side and the connection state as a machine of their own

The counterpart of the moves of the send side: what a call does to the members for incoming data
and to `m_state`, one move at a time.

Main result: **`step_recvMoves`**.
-/

namespace Libjingle

open Lib Relation

/-- An assertion about the receive side. -/
def Fault.IsIncoming : Fault → Prop
  | .writeOffset | .consumeWrite | .rcvWnd | .recvWindow | .windowCast => True
  | _ => False

namespace PseudoTcp

variable {s s' : PseudoTcp}

/-! ## Steady moves -/

/-- What the send path leaves alone. -/
def steadyPart (s : PseudoTcp) :=
  (s.state, s.conv, s.shutdown, s.heap, s.rcv.rlist, s.rcv.rbufLen, s.rcv.rcvNxt, s.rcv.rcvWnd,
    s.rcv.rwndScale, s.rcv.rbuf)

def WindowFits (s : PseudoTcp) : Prop := (s.rcv.rcvWnd >>> s.rcv.rwndScale.toNat).toNat < 65536

/-- A move that touches neither the receive side nor `m_state`. -/
structure Steady (s s' : PseudoTcp) : Prop where
  part : s'.steadyPart = s.steadyPart
  log : ∃ es, s'.log = s.log ++ es ∧ ∀ e ∈ es, s.IsSend e ∨ e = .onTcpWriteable
  faults : ∀ f ∈ s'.faults, f ∈ s.faults ∨ ¬ f.IsIncoming ∨ (f = .windowCast ∧ ¬ s.WindowFits)

namespace Steady

theorem fields (h : Steady s s') :
    s'.state = s.state ∧ s'.conv = s.conv ∧ s'.shutdown = s.shutdown ∧ s'.heap = s.heap ∧
      s'.rcv.rlist = s.rcv.rlist ∧ s'.rcv.rbufLen = s.rcv.rbufLen ∧ s'.rcv.rcvNxt = s.rcv.rcvNxt ∧
      s'.rcv.rcvWnd = s.rcv.rcvWnd ∧ s'.rcv.rwndScale = s.rcv.rwndScale ∧
      s'.rcv.rbuf = s.rcv.rbuf := by
  have := h.part
  simp only [steadyPart, Prod.mk.injEq] at this
  exact this

theorem state (h : Steady s s') : s'.state = s.state := h.fields.1
theorem shutdown (h : Steady s s') : s'.shutdown = s.shutdown := h.fields.2.2.1
theorem rlist (h : Steady s s') : s'.rcv.rlist = s.rcv.rlist := h.fields.2.2.2.2.1
theorem rcvNxt (h : Steady s s') : s'.rcv.rcvNxt = s.rcv.rcvNxt := h.fields.2.2.2.2.2.2.1
theorem rwndScale (h : Steady s s') : s'.rcv.rwndScale = s.rcv.rwndScale :=
  h.fields.2.2.2.2.2.2.2.2.1
theorem rbuf (h : Steady s s') : s'.rcv.rbuf = s.rcv.rbuf := h.fields.2.2.2.2.2.2.2.2.2

theorem of_silent (h : s'.steadyPart = s.steadyPart) (hlog : s'.log = s.log)
    (hfaults : s'.faults = s.faults) : Steady s s' :=
  ⟨h, ⟨[], by simp [hlog], by simp⟩, fun _ hf => .inl (hfaults ▸ hf)⟩

theorem check (s : PseudoTcp) (fault : Fault) (hf : ¬ fault.IsIncoming) (c : Bool) : Steady s (s.check fault c) := by
  rw [check_eq]
  refine ⟨rfl, ⟨[], by simp, by simp⟩, fun f hm => ?_⟩
  rcases List.mem_append.mp hm with hm | hm
  · exact .inl hm
  · cases c
    · obtain rfl : f = fault := by simpa using hm
      exact .inr (.inl hf)
    · simp at hm

theorem of_sendFrame (h : SendFrame s s') : Steady s s' := by
  refine ⟨?_, ?_, fun f hf => ?_⟩
  · simp only [steadyPart, h.state, h.conv, h.shutdown, h.heap, h.rcv]
  · obtain ⟨es, hlog, hes⟩ := h.log
    exact ⟨es, hlog, fun e he => .inl (hes e he)⟩
  · rcases h.faults f hf with hm | hm
    · exact .inl hm
    · right
      cases f
      case windowCast => exact .inr ⟨rfl, hm⟩
      all_goals first | exact .inl id | exact hm.elim

end Steady

abbrev Steadies : PseudoTcp → PseudoTcp → Prop := ReflTransGen Steady

/-! ## Moves -/

/-- What the call `op`, with the segment `inc`, does to the receive side and to `m_state`, one move
at a time. -/
inductive RecvMove (op : Op) (inc : Option Segment) : PseudoTcp → PseudoTcp → Prop where
  | steady {s s' : PseudoTcp} (h : Steady s s') : RecvMove op inc s s'
  | close {s : PseudoTcp} {force : Bool} (hop : op = .close force) :
      RecvMove op inc s (s.close force)
  | connect {s : PseudoTcp} (hop : op = .connect) (h : s.state = .listen) :
      RecvMove op inc s (s.setState .synSent)
  | options {s : PseudoTcp} {seg : Segment} (hinc : inc = some seg)
      (hctl : seg.flags &&& flagCtl ≠ 0) :
      RecvMove op inc s (s.parseOptions (block seg.data 1 (seg.len - 1).toNat))
  | synReceived {s : PseudoTcp} {seg : Segment} (hinc : inc = some seg)
      (hctl : seg.flags &&& flagCtl ≠ 0) (h : s.state = .listen) :
      RecvMove op inc s (s.setState .synReceived)
  | establish {s : PseudoTcp} {seg : Segment} (hinc : inc = some seg)
      (h : (s.state = .synSent ∧ seg.flags &&& flagCtl ≠ 0) ∨ s.state = .synReceived) :
      RecvMove op inc s s.establish
  | closedown {s : PseudoTcp} (err : Errno) (h : s.state ≠ .closed) :
      RecvMove op inc s (s.closedown err)
  | payload {s t : PseudoTcp} {seg : Segment} (hinc : inc = some seg) (h : s.state ≠ .closed)
      (ht : SendFrame (s.receive (s.trim seg) (s.ackFlags seg)).1 t) :
      RecvMove op inc s (t.notifyReadable (s.receive (s.trim seg) (s.ackFlags seg)).2.2)
  | read {s : PseudoTcp} {len : ℕ} (hop : op = .recv len) (h : s.state = .established) :
      RecvMove op inc s { s with rcv.rbuf := (s.rcv.rbuf.read len).2.2 }
  | checkWindow {s : PseudoTcp} :
      RecvMove op inc s (s.check .recvWindow (s.rcv.rcvWnd ≤ u32 s.rcv.rbuf.getWriteRemaining))
  | widen {s : PseudoTcp} :
      RecvMove op inc s { s with rcv.rcvWnd := u32 s.rcv.rbuf.getWriteRemaining }
  | resize {s : PseudoTcp} {value : ℤ} (hop : op = .setOption .rcvbuf value) :
      RecvMove op inc s (s.resizeReceiveBuffer (BitVec.ofInt 32 value))

/-- A run of steps of the receive side. -/
abbrev RecvMoves (op : Op) (inc : Option Segment) : PseudoTcp → PseudoTcp → Prop :=
  ReflTransGen (RecvMove op inc)

theorem Steady.moves {op : Op} {inc : Option Segment} (h : Steady s s') : RecvMoves op inc s s' :=
  .single (.steady h)

theorem Steadies.moves {op : Op} {inc : Option Segment} (h : Steadies s s') : RecvMoves op inc s s' :=
  ReflTransGen.mono (fun _ _ h => RecvMove.steady h) _ _ h

/-! ## The parts of `process` -/

namespace Steadies

theorem ackRule : AckRule Steadies where
  refl _ := .refl
  trans := .trans
  silent h := by
    simp only [restPart, Prod.mk.injEq] at h
    obtain ⟨hstate, hconv, hshutdown, hheap, hrcv, -, -, -, -, hlog, hfaults⟩ := h
    refine .single (.of_silent ?_ hlog hfaults)
    rw [steadyPart, hstate, hconv, hshutdown, hheap, hrcv]
    rfl
  check s fault hf c := .single (.check s fault (by cases fault <;> first | exact id | exact hf.elim) c)
  transmitFront s now := .single (.of_sendFrame (.transmitFront s now))

theorem attemptSend (s : PseudoTcp) (sflags : SendFlags) : Steadies s (s.attemptSend sflags) :=
  .single (.of_sendFrame (.attemptSend s sflags))

theorem notifyWriteable (s : PseudoTcp) : Steadies s s.notifyWriteable := by
  unfold PseudoTcp.notifyWriteable
  simp only
  split_ifs
  · exact .single ⟨rfl, ⟨[.onTcpWriteable], rfl, by simp⟩, fun _ hf => .inl hf⟩
  · exact .refl

theorem state (h : Steadies s s') : s'.state = s.state := by
  induction h with
  | refl => rfl
  | tail _ hm ih => exact hm.state.trans ih

end Steadies

section Process

variable {op : Op} {inc : Option Segment} {seg : Segment}

theorem control_recvMoves (s : PseudoTcp) (hinc : inc = some seg) : RecvMoves op inc s (s.control seg).1 := by
  unfold control
  split_ifs with hctl hlen hdata
  · exact .refl
  · exact .refl
  · refine .head (.options hinc hctl) ?_
    generalize s.parseOptions (block seg.data 1 (seg.len - 1).toNat) = t
    unfold connectReceived
    split
    · next hst =>
      exact .head (.synReceived hinc hctl hst) (Steadies.ackRule.queueConnectMessage _).moves
    · next hst => exact .single (.establish hinc (.inl ⟨hst, hctl⟩))
    · exact .refl
  · exact .refl

theorem control_state (s : PseudoTcp) (seg : Segment) (h : s.state ≠ .closed) :
    (s.control seg).1.state ≠ .closed := by
  unfold control
  split_ifs
  · exact h
  · exact h
  · have hopt : (s.parseOptions (block seg.data 1 (seg.len - 1).toNat)).state = s.state := by
      rcases parseOptions_cases s (block seg.data 1 (seg.len - 1).toNat) with ⟨_, hs⟩ | ⟨-, hs⟩
      · rw [hs]
      · rw [hs, resizeReceiveBuffer_eq]
    generalize s.parseOptions (block seg.data 1 (seg.len - 1).toNat) = t at hopt
    unfold connectReceived
    split
    · rw [(Steadies.ackRule.queueConnectMessage (t.setState .synReceived)).state]
      exact (by decide : TcpState.synReceived ≠ .closed)
    · exact (by decide : TcpState.established ≠ .closed)
    · rw [hopt]; exact h
  · exact h

theorem processAck_recvMoves (s : PseudoTcp) (seg : Segment) (now : Uint32) (h : s.state ≠ .closed) :
    RecvMoves op inc s (s.processAck seg now).1 ∧
      ((s.processAck seg now).2 = true → (s.processAck seg now).1.state ≠ .closed) := by
  have h1 := Steadies.ackRule.handleAck s seg now
  unfold processAck
  split
  · next t heq =>
    rw [heq] at h1
    refine ⟨h1.moves, fun _ => ?_⟩
    rw [show (t, true).1.state = t.state from rfl, h1.state]
    exact h
  · next t heq =>
    rw [heq] at h1
    refine ⟨h1.moves.tail (.closedown _ ?_), fun hf => by cases hf⟩
    rw [h1.state]
    exact h

theorem processData_recvMoves (s : PseudoTcp) (hinc : inc = some seg) (bConnect : Bool)
    (h : s.state ≠ .closed) : RecvMoves op inc s (s.processData seg bConnect) := by
  have hopen : RecvMoves op inc s (s.openIfSynReceived bConnect) ∧
      (s.openIfSynReceived bConnect).state ≠ .closed := by
    unfold openIfSynReceived
    split_ifs with hst
    · exact ⟨.single (.establish hinc (.inr hst.1)), (by decide : TcpState.established ≠ .closed)⟩
    · exact ⟨.refl, h⟩
  refine hopen.1.trans ?_
  have hw := Steadies.notifyWriteable (s.openIfSynReceived bConnect)
  have hst : (s.openIfSynReceived bConnect).notifyWriteable.state ≠ .closed := by
    rw [hw.state]
    exact hopen.2
  exact hw.moves.tail (.payload hinc hst (.attemptSend _ _))

theorem processSegment_recvMoves (s : PseudoTcp) (hinc : inc = some seg) (now : Uint32)
    (h : s.state ≠ .closed) : RecvMoves op inc s (s.processSegment seg now).1 := by
  have hc : RecvMoves op inc s (s.control seg).1 := control_recvMoves s hinc
  have hst := control_state s seg h
  unfold processSegment
  split
  · next t heq =>
    rw [heq] at hc
    exact hc
  · next t bConnect heq =>
    rw [heq] at hc hst
    have hts := Steadies.ackRule.updateTimestamp t seg
    obtain ⟨ha, hopen⟩ : RecvMoves op inc _ _ ∧ _ := processAck_recvMoves (t.updateTimestamp seg) seg now
      (by rw [hts.state]; exact hst)
    refine (hc.trans hts.moves).trans ?_
    split
    · next t' heq' =>
      rw [heq'] at ha
      exact ha
    · next t' heq' =>
      rw [heq'] at ha hopen
      exact ha.trans (processData_recvMoves t' hinc bConnect (hopen rfl))

theorem process_recvMoves (s : PseudoTcp) (hinc : s.accepts seg → inc = some seg) :
    RecvMoves op inc s (s.process seg).1 := by
  have h1 : Steady s s.noteTraffic := .of_silent rfl rfl rfl
  unfold process
  split_ifs with hconv hclosed hrst
  · exact .refl
  · exact h1.moves
  · exact h1.moves.tail (.closedown _ hclosed)
  · by_cases hacc : s.accepts seg
    · exact h1.moves.trans (processSegment_recvMoves _ (hinc hacc) _ hclosed)
    · rw [Bool.not_eq_true] at hacc
      rw [processSegment, control_rejected hacc (not_not.mp hconv) hclosed (not_not.mp hrst)]
      exact h1.moves

end Process

/-! ## The other calls -/

section Calls

variable {op : Op} {inc : Option Segment}

theorem clockRetransmit_recvMoves (s : PseudoTcp) (now : Uint32) (h : s.state ≠ .closed) :
    RecvMoves op inc s (s.clockRetransmit now).1 ∧
      ((s.clockRetransmit now).2 = true → (s.clockRetransmit now).1.state ≠ .closed) := by
  rcases clockRetransmit_cases s now with heq | ⟨-, ⟨-, heq⟩ | ⟨-, t, ht, heq⟩⟩
  · rw [heq]
    exact ⟨.refl, fun _ => h⟩
  · rw [heq]
    refine ⟨(Steady.check s .clockEmpty id false).moves, fun _ => ?_⟩
    rw [check_eq]
    exact h
  · have hfront : Steadies s t := ht ▸ Steadies.ackRule.transmitFront s now
    have hopen : t.state ≠ .closed := by rwa [hfront.state]
    rcases heq with heq | ⟨ssthresh, rxRto, heq⟩
    · rw [heq]
      exact ⟨hfront.moves.tail (.closedown _ hopen), fun hf => by cases hf⟩
    · rw [heq]
      exact ⟨hfront.moves.tail (.steady (.of_silent rfl rfl rfl)), fun _ => hopen⟩

theorem clockProbe_recvMoves (s : PseudoTcp) (now : Uint32) (h : s.state ≠ .closed) :
    RecvMoves op inc s (s.clockProbe now).1 := by
  rcases clockProbe_cases s now with heq | heq | ⟨rxRto, heq⟩
  · rw [heq]
  · rw [heq]
    exact .single (.closedown _ h)
  · rw [heq]
    exact (Steady.of_sendFrame (.packet s _ _ _ _)).moves.tail (.steady (.of_silent rfl rfl rfl))

theorem clockAck_recvMoves (s : PseudoTcp) (now : Uint32) : RecvMoves op inc s (s.clockAck now) := by
  unfold clockAck
  split_ifs
  · exact (Steady.of_sendFrame (.packet s _ _ _ _)).moves
  · exact .refl

theorem notifyClock_recvMoves (s : PseudoTcp) (now : Uint32) : RecvMoves op inc s (s.notifyClock now) := by
  unfold notifyClock
  split_ifs with hclosed
  · exact .refl
  · obtain ⟨h1, hopen⟩ : RecvMoves op inc _ _ ∧ _ := clockRetransmit_recvMoves s now hclosed
    split
    · next t heq =>
      rw [heq] at h1
      exact h1
    · next t heq =>
      rw [heq] at h1 hopen
      have h2 : RecvMoves op inc _ _ := clockProbe_recvMoves t now (hopen rfl)
      split
      · next t' heq' =>
        rw [heq'] at h2
        exact h1.trans h2
      · next t' heq' =>
        rw [heq'] at h2
        exact (h1.trans h2).trans (clockAck_recvMoves t' now)

theorem reopenWindow_recvMoves (s : PseudoTcp) : RecvMoves op inc s s.reopenWindow := by
  refine .head .checkWindow ?_
  have hwin : u32 s.rcv.rbuf.getWriteRemaining = u32
      (s.check .recvWindow (s.rcv.rcvWnd ≤ u32 s.rcv.rbuf.getWriteRemaining)).rcv.rbuf.getWriteRemaining := by
    rw [check_eq]
  unfold reopenWindow
  simp only
  generalize s.check .recvWindow (s.rcv.rcvWnd ≤ u32 s.rcv.rbuf.getWriteRemaining) = t at hwin ⊢
  rw [hwin]
  unfold widenWindow
  simp only
  split_ifs
  · exact .head .widen (Steadies.attemptSend _ _).moves
  · exact .single .widen
  · exact .refl

theorem recv_recvMoves (s : PseudoTcp) (len : ℕ) : RecvMoves (.recv len) inc s (s.recv len).1 := by
  unfold recv
  split_ifs with hst
  · exact .single (.steady (.of_silent rfl rfl rfl))
  · rw [not_not] at hst
    have hread : RecvMove (.recv len) inc s { s with rcv.rbuf := (s.rcv.rbuf.read len).2.2 } :=
      .read rfl hst
    split
    · next out rbuf heq =>
      rw [heq] at hread
      refine .head hread (.single (.steady ?_))
      exact .of_silent rfl rfl rfl
    · next result out rbuf _ heq =>
      rw [heq] at hread
      have hcheck : Steady { s with rcv.rbuf := rbuf }
          { s.check .recvResult (result = .success) with rcv.rbuf := rbuf } := by
        rw [check_eq]
        refine ⟨rfl, ⟨[], by simp, by simp⟩, fun f hm => ?_⟩
        rcases List.mem_append.mp hm with hm | hm
        · exact .inl hm
        · split_ifs at hm
          · simp at hm
          · rw [List.mem_singleton.mp hm]
            exact .inr (.inl id)
      exact .head hread (.head (.steady hcheck) (reopenWindow_recvMoves _))

/-- **Every call is a run of the receive machine**. -/
theorem step_recvMoves (s : PseudoTcp) (op : Op) : RecvMoves op (s.incoming op) s (step s op) := by
  cases op with
  | connect =>
    simp only [step, connect]
    split_ifs with hst
    · exact .single (.steady (.of_silent rfl rfl rfl))
    · rw [not_not] at hst
      refine .head (.connect rfl hst) ((Steadies.ackRule.queueConnectMessage _).moves.trans ?_)
      dsimp only
      exact (Steadies.attemptSend _ .none).moves
  | recv len => exact recv_recvMoves s len
  | send data len =>
    simp only [step, send]
    split_ifs
    · exact .single (.steady (.of_silent rfl rfl rfl))
    · exact .single (.steady (.of_silent rfl rfl rfl))
    · refine (Steadies.ackRule.queue s data (u32 len) false).moves.trans ?_
      dsimp only
      exact (Steadies.attemptSend _ .none).moves
  | close force => exact .single (.close rfl)
  | notifyMTU mtu =>
    have h1 : Steady s { s with mtuAdvise := mtu.setWidth 32 } := .of_silent rfl rfl rfl
    refine .head (.steady h1) ?_
    simp only [step, notifyMTU]
    split_ifs
    · exact .single (.steady (.of_silent rfl rfl rfl))
    · exact .refl
  | notifyClock now => exact notifyClock_recvMoves s now
  | notifyPacket buffer len =>
    simp only [step, notifyPacket, parse]
    split_ifs with hmax hmin
    · exact .refl
    · exact .refl
    · refine process_recvMoves s fun hacc => ?_
      simp only [incoming, Op.segment, hmax, hmin, or_self, if_false]
      exact Option.filter_some_pos hacc
  | setOption opt value =>
    cases opt with
    | nodelay => exact .single (.steady (.of_silent rfl rfl rfl))
    | ackdelay => exact .single (.steady (.of_silent rfl rfl rfl))
    | sndbuf =>
      exact .head (.steady (.check s .optionState id _)) (.single (.steady (.of_silent rfl rfl rfl)))
    | rcvbuf => exact .head (.steady (.check s .optionState id _)) (.single (.resize rfl))

end Calls

end PseudoTcp

end Libjingle
