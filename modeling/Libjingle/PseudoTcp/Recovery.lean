import Libjingle.PseudoTcp.Ack

/-!
# Fast recovery

`m_dup_acks` tells by its value that the connection is in recovery, and every duplicate acknowledgement
adds one to it, in 8 bits.

Main results: **`ackEffect_handleAck`**, **`newReno_iff`**, **`newReno_wraps`**.
-/

namespace Libjingle

open Lib Relation

namespace PseudoTcp

variable {s s' : PseudoTcp} {seg : Segment} {op : Op}

/-! ## The mode -/

def mode (s : PseudoTcp) : Uint8 × Uint32 := (s.dupAcks, s.recover)

/-- The members of the round-trip estimator. -/
def estimator (s : PseudoTcp) : Uint32 × Uint32 × Uint32 := (s.rxSrtt, s.rxRttvar, s.rxRto)

/-- What only an acknowledgement changes. -/
def ackState (s : PseudoTcp) := (s.mode, s.rxSrtt, s.rxRttvar)

theorem SendFrame.mode (h : SendFrame s s') : s'.mode = s.mode := Prod.ext h.dupAcks h.recover

theorem SendFrame.ackState (h : SendFrame s s') : s'.ackState = s.ackState := by
  simp only [PseudoTcp.ackState, h.mode, h.rxSrtt, h.rxRttvar]

theorem RecvFrame.ackState (h : RecvFrame s s') : s'.ackState = s.ackState := by
  obtain ⟨r, fs, rfl, -, -⟩ := h
  rfl

theorem ackState_check (s : PseudoTcp) (fault : Fault) (c : Bool) : (s.check fault c).ackState = s.ackState := by
  rw [check_eq]
  rfl

theorem ackState_packet (s : PseudoTcp) (seq : Uint32) (flags : Uint8) (offset len : Uint32) :
    (s.packet seq flags offset len).1.ackState = s.ackState := (SendFrame.packet s seq flags offset len).ackState

theorem ackState_queueConnectMessage (s : PseudoTcp) : s.queueConnectMessage.ackState = s.ackState := by
  simp only [queueConnectMessage, queue, check_eq]
  rfl

def InFlight (s : PseudoTcp) : Prop := s.snd.sndUna ≠ s.snd.sndNxt

def ackInputs (s : PseudoTcp) := (s.dupAcks, s.recover, s.snd.sndUna, s.snd.sndNxt, s.estimator)

theorem mode_of_ackInputs (h : s'.ackInputs = s.ackInputs) : s'.mode = s.mode := by
  simp only [ackInputs, Prod.mk.injEq] at h
  exact Prod.ext h.1 h.2.1

theorem inFlight_of_ackInputs (h : s'.ackInputs = s.ackInputs) : s'.InFlight ↔ s.InFlight := by
  simp only [ackInputs, Prod.mk.injEq] at h
  rw [InFlight, InFlight, h.2.2.1, h.2.2.2.1]

theorem ackInputs_control (s : PseudoTcp) (seg : Segment) : (s.control seg).1.ackInputs = s.ackInputs := by
  unfold control
  split_ifs
  · rfl
  · rfl
  · have hopt : ∀ data, (s.parseOptions data).ackInputs = s.ackInputs := by
      intro data
      rcases parseOptions_cases s data with ⟨scale, hs⟩ | ⟨-, hs⟩
      · rw [hs]; rfl
      · rw [hs, resizeReceiveBuffer_eq]; rfl
    rw [← hopt (block seg.data 1 (seg.len - 1).toNat)]
    generalize s.parseOptions (block seg.data 1 (seg.len - 1).toNat) = t
    unfold connectReceived
    split
    · simp only [queueConnectMessage, queue, check_eq]
      rfl
    · rfl
    · rfl
  · rfl

theorem ackInputs_updateTimestamp (s : PseudoTcp) (seg : Segment) :
    (s.updateTimestamp seg).ackInputs = s.ackInputs := by
  unfold updateTimestamp
  split_ifs <;> rfl

/-! ## The calls that bring no acknowledgement -/

theorem ackState_openIfSynReceived (s : PseudoTcp) (bConnect : Bool) : (s.openIfSynReceived bConnect).ackState = s.ackState := by
  unfold openIfSynReceived
  split_ifs <;> rfl

theorem ackState_notifyWriteable (s : PseudoTcp) : s.notifyWriteable.ackState = s.ackState := by
  unfold notifyWriteable
  simp only
  split_ifs <;> rfl

theorem ackState_notifyReadable (s : PseudoTcp) (bNewData : Bool) : (s.notifyReadable bNewData).ackState = s.ackState := by
  unfold notifyReadable
  split_ifs <;> rfl

theorem ackState_attemptSend (s : PseudoTcp) (sflags : SendFlags) : (s.attemptSend sflags).ackState = s.ackState :=
  (SendFrame.attemptSend s sflags).ackState

theorem ackState_processData (s : PseudoTcp) (seg : Segment) (bConnect : Bool) :
    (s.processData seg bConnect).ackState = s.ackState := by
  unfold processData
  dsimp only
  rw [ackState_notifyReadable, ackState_attemptSend, (RecvFrame.receive _ _ _).ackState, ackState_notifyWriteable,
    ackState_openIfSynReceived]

theorem ackState_clockRetransmit (s : PseudoTcp) (now : Uint32) : (s.clockRetransmit now).1.ackState = s.ackState := by
  rcases clockRetransmit_cases s now with h | ⟨-, ⟨-, h⟩ | ⟨-, t, ht, h⟩⟩
  · rw [h]
  · rw [h]
    exact ackState_check _ _ _
  · have hfront : t.ackState = s.ackState := ht ▸ (SendFrame.transmitFront s now).ackState
    rcases h with h | ⟨ssthresh, rxRto, h⟩
    · rw [h]
      exact hfront
    · rw [h]
      exact hfront

theorem ackState_clockProbe (s : PseudoTcp) (now : Uint32) : (s.clockProbe now).1.ackState = s.ackState := by
  rcases clockProbe_cases s now with h | h | ⟨rxRto, h⟩
  · rw [h]
  · rw [h]
    rfl
  · rw [h]
    exact ackState_packet s _ _ _ _

theorem ackState_notifyClock (s : PseudoTcp) (now : Uint32) : (s.notifyClock now).ackState = s.ackState :=
  notifyClock_rel (R := fun a b => b.ackState = a.ackState) (fun _ => rfl) (fun hab hbc => hbc.trans hab)
    (ackState_clockRetransmit s now) (fun t => ackState_clockProbe t now) fun t => ackState_packet t _ _ _ _

theorem ackState_reopenWindow (s : PseudoTcp) : s.reopenWindow.ackState = s.ackState := by
  unfold reopenWindow widenWindow
  simp only
  split_ifs
  · exact (ackState_attemptSend _ _).trans (ackState_check _ _ _)
  · exact ackState_check _ _ _
  · exact ackState_check _ _ _

theorem ackState_recv (s : PseudoTcp) (len : ℕ) : (s.recv len).1.ackState = s.ackState := by
  unfold recv
  split_ifs
  · rfl
  · split
    · rfl
    · exact (ackState_reopenWindow _).trans (ackState_check _ _ _)

theorem ackState_process_rejected (h : s.accepts seg = false) : (s.process seg).1.ackState = s.ackState := by
  unfold process
  split_ifs with hconv hclosed hrst
  · rfl
  · rfl
  · rfl
  · rw [processSegment, control_rejected h (not_not.mp hconv) hclosed (not_not.mp hrst)]
    rfl

theorem ackState_step (h : s.incoming op = none) : (step s op).ackState = s.ackState := by
  cases op with
  | connect =>
    simp only [step, connect]
    split_ifs
    · rfl
    · dsimp only
      rw [ackState_attemptSend, ackState_queueConnectMessage]
      rfl
  | recv len => exact ackState_recv s len
  | send data len =>
    simp only [step, send]
    split_ifs
    · rfl
    · rfl
    · dsimp only
      rw [ackState_attemptSend]
      simp only [queue, check_eq]
      rfl
  | close force => rfl
  | notifyMTU mtu =>
    simp only [step, notifyMTU]
    split_ifs <;> rfl
  | notifyClock now => exact ackState_notifyClock s now
  | notifyPacket buffer len =>
    simp only [step, notifyPacket, parse]
    split_ifs with hmax hmin
    · rfl
    · rfl
    · simp only [incoming, Op.segment, hmax, hmin, or_self, if_false, Option.filter_eq_none_iff,
        Option.some.injEq, forall_eq', Bool.not_eq_true] at h
      exact ackState_process_rejected h
  | setOption opt value =>
    cases opt with
    | nodelay => rfl
    | ackdelay => rfl
    | sndbuf => exact ackState_check s _ _
    | rcvbuf =>
      simp only [step, setOption, resizeReceiveBuffer_eq]
      exact ackState_check s _ _

theorem mode_step (h : s.incoming op = none) : (step s op).mode = s.mode := congrArg Prod.fst (ackState_step h)

/-! ## Something is in flight -/

theorem inFlight_emitMove (h : Accounts s) (hm : EmitMove s s') (hne : s.InFlight) : s'.InFlight := by
  unfold InFlight at hne ⊢
  cases hm with
  | quiet hq => rwa [hq.sndUna, hq.sndNxt]
  | packet hl hn =>
    rw [packet_eq]
    dsimp only
    split <;> exact hne
  | @sent pre seg post n now hl hpre hx hn =>
    have hle := hn.le
    simp only [PseudoTcp.transmitted]
    by_cases hz : seg.xmit = 0
    · -- the bytes in flight stay below 2^32, so the sum does not come round to `m_snd_una`
      have htot := h.queue.total
      have hsent := h.queue.sent
      have hpre' := sentBytes_le_total pre
      have hpost' := sentBytes_le_total post
      have hlt := h.queue.lt
      rw [hl, totalBytes_append, totalBytes_cons] at htot
      rw [hl, sentBytes_append, sentBytes_cons, if_pos hz] at hsent
      rw [if_pos hz]
      split_ifs <;> bv_omega
    · rw [if_neg hz]
      exact hne
  | cut => exact hne
  | checkInFlight =>
    rw [check_eq]
    exact hne
  | checkSearch =>
    rw [check_eq]
    exact hne
  | checkBegin =>
    rw [check_eq]
    exact hne

theorem inFlight_emits (h : Accounts s) (hm : Emits s s') (hne : s.InFlight) : s'.InFlight := by
  have hboth : Accounts s' ∧ s'.InFlight := by
    induction hm with
    | refl => exact ⟨h, hne⟩
    | tail _ hm ih => exact ⟨ih.1.emitMove hm, inFlight_emitMove ih.1 hm ih.2⟩
  exact hboth.2

theorem inFlight_queues (hm : Queues op none s s') (hne : s.InFlight) : s'.InFlight := by
  induction hm with
  | refl => exact hne
  | tail _ hm ih =>
    unfold InFlight at ih ⊢
    cases hm with
    | quiet hq => rwa [hq.sndUna, hq.sndNxt]
    | options hinc => cases hinc
    | window hinc => cases hinc
    | advance _ hinc => cases hinc
    | connectMessage st hst hst' =>
      simp only [queueConnectMessage, queue, check_eq]
      exact ih
    | queue =>
      simp only [queue, check_eq]
      exact ih
    | mtu => exact ih
    | resize => exact ih

theorem inFlight_step (h : Accounts s) (hinc : s.incoming op = none) (hne : s.InFlight) : (step s op).InFlight := by
  obtain ⟨s₁, hq, he⟩ := step_moves s op
  rw [hinc] at hq
  exact inFlight_emits (h.queues hq) he (inFlight_queues hq hne)

/-! ## The acknowledgement in a segment -/

/-- Three duplicate acknowledgements have been seen. -/
def InRecovery (s : PseudoTcp) : Prop := s.dupAcks ≥ 3

theorem not_inRecovery (h : s.dupAcks = 0) : ¬ s.InRecovery := by
  rw [InRecovery, h]
  decide

/-- The segment is a pure duplicate acknowledgement. -/
def IsDuplicate (s : PseudoTcp) (seg : Segment) : Prop :=
  seg.ack = s.snd.sndUna ∧ seg.len = 0 ∧ s.InFlight

/-- There is something in flight during recovery. -/
def FlightInv (s : PseudoTcp) : Prop := s.InRecovery → s.InFlight

/-- **What the acknowledgement in a segment does in recovery.** -/
structure AckEffect (s : PseudoTcp) (seg : Segment) (t : PseudoTcp) : Prop where
  flight : FlightInv t
  duplicate : s.InRecovery → s.dupAcks ≠ 255 → s.IsDuplicate seg →
    t = { s with
      snd.sndWnd := s.announcedWindow seg, dupAcks := s.dupAcks + 1, cwnd := s.cwnd + s.mss }
  wraps : s.dupAcks = 255 → s.IsDuplicate seg → t.dupAcks = 0
  below : s.InRecovery → s.isValuable seg.ack → seg.ack < s.recover →
    t.mode = s.mode ∧ t.ssthresh = s.ssthresh
  ends : s.InRecovery → s.isValuable seg.ack → s.recover ≤ seg.ack →
    t.dupAcks = 0 ∧ t.cwnd = min32 t.ssthresh (t.nInFlight + t.mss)
  other : s.InRecovery → ¬ s.isValuable seg.ack → ¬ s.IsDuplicate seg → t.mode = s.mode

theorem inFlight_below (h : Accounts s) (hlt : s.snd.sndUna < s.recover) : s.InFlight := by
  have hrec := h.recover
  unfold InFlight
  bv_omega

theorem ackCongestion_below (h : Accounts s) (hrec : s.InRecovery) (hlt : s.snd.sndUna < s.recover)
    (nAcked now : Uint32) :
    (s.ackCongestion nAcked now).1.mode = s.mode ∧
      (s.ackCongestion nAcked now).1.ssthresh = s.ssthresh ∧
      (s.ackCongestion nAcked now).1.InFlight := by
  have hin := inFlight_below h hlt
  have hframe := SendFrame.transmitFront s now
  have hfront := inFlight_emits h (Emits.transmitFront s now fun _ => .inl hin) hin
  unfold ackCongestion
  rw [if_pos (show s.dupAcks ≥ 3 from hrec), if_neg (BitVec.not_le.mpr hlt)]
  split
  · next t heq =>
    rw [heq] at hframe hfront
    exact ⟨hframe.mode, hframe.ssthresh, hfront⟩
  · next t heq =>
    rw [heq] at hframe hfront
    exact ⟨hframe.mode, hframe.ssthresh, hfront⟩

theorem exists_advanced (h : Accounts s) (hv : s.isValuable seg.ack) (now : Uint32) :
    ∃ u : PseudoTcp, (s.handleAck seg now).1 = (u.ackCongestion (seg.ack - s.snd.sndUna) now).1 ∧
      Accounts u ∧ u.mode = s.mode ∧ u.ssthresh = s.ssthresh ∧ u.snd.sndUna = seg.ack := by
  obtain ⟨hpart, hsnd⟩ := updateRtt_ackPart s seg.tsecr now
  have hss : (s.updateRtt seg.tsecr now).ssthresh = s.ssthresh := by
    unfold updateRtt
    split_ifs <;> rfl
  have hacc := (h.quiets (Quiets.updateRtt s seg.tsecr now)).window
    ((s.updateRtt seg.tsecr now).announcedWindow seg)
  have heq : s.handleAck seg now =
      (({ s.updateRtt seg.tsecr now with
          snd.sndWnd := (s.updateRtt seg.tsecr now).announcedWindow seg } : PseudoTcp).advanceUna
        seg.ack now).ackCongestion (seg.ack - s.snd.sndUna) now := by
    rw [handleAck, if_pos hv]
  rw [heq]
  generalize hu : ({ s.updateRtt seg.tsecr now with
    snd.sndWnd := (s.updateRtt seg.tsecr now).announcedWindow seg } : PseudoTcp) = u at hacc
  have hupart : u.ackPart = s.ackPart := by rw [← hu, ← hpart]; rfl
  have huna : u.snd.sndUna = s.snd.sndUna := by rw [← hu, ← hsnd]
  have hnxt : u.snd.sndNxt = s.snd.sndNxt := by rw [← hu, ← hsnd]
  have hv' : u.isValuable seg.ack := by
    rw [isValuable, huna, hnxt]
    exact hv
  have hpart' := (advanceUna_ackPart u seg.ack now).trans hupart
  simp only [ackPart, Prod.mk.injEq] at hpart'
  obtain ⟨-, -, -, hdup, hrec, -⟩ := hpart'
  have hss' : (u.advanceUna seg.ack now).ssthresh = s.ssthresh := by
    simp only [advanceUna, check_eq]
    rw [← hu, ← hss]
  exact ⟨u.advanceUna seg.ack now, rfl, hacc.advanceUna hv' now, Prod.ext hdup hrec, hss',
    (advanceUna_fields u seg.ack now).2⟩

theorem ackEffect_valuable (h : Accounts s) (hv : s.isValuable seg.ack) (now : Uint32) :
    AckEffect s seg (s.handleAck seg now).1 := by
  have hack : seg.ack ≠ s.snd.sndUna := by
    simp only [isValuable, Bool.and_eq_true, decide_eq_true_eq] at hv
    bv_omega
  obtain ⟨u, hu, hacc, hmode, hss, huna⟩ : ∃ u : PseudoTcp,
      (s.handleAck seg now).1 = (u.ackCongestion (seg.ack - s.snd.sndUna) now).1 ∧ Accounts u ∧
      u.mode = s.mode ∧ u.ssthresh = s.ssthresh ∧ u.snd.sndUna = seg.ack :=
    exists_advanced h hv now
  rw [hu]
  have hdup : u.dupAcks = s.dupAcks := congrArg Prod.fst hmode
  have hrec : u.recover = s.recover := congrArg Prod.snd hmode
  have hnot : ¬ s.IsDuplicate seg := fun hd => hack hd.1
  by_cases hin : s.InRecovery
  · have hin' : u.InRecovery := by rwa [InRecovery, hdup]
    by_cases hlt : seg.ack < s.recover
    · obtain ⟨h1, h2, h3⟩ := ackCongestion_below hacc hin' (by rwa [huna, hrec])
        (seg.ack - s.snd.sndUna) now
      exact ⟨fun _ => h3, fun _ _ hd => absurd hd hnot, fun _ hd => absurd hd hnot,
        fun _ _ _ => ⟨h1.trans hmode, h2.trans hss⟩, fun _ _ hle' => absurd hlt (BitVec.not_lt.mpr hle'),
        fun _ hv' => absurd hv hv'⟩
    · have hge : u.snd.sndUna ≥ u.recover := by
        rw [huna, hrec]
        exact BitVec.not_lt.mp hlt
      have heq : u.ackCongestion (seg.ack - s.snd.sndUna) now =
          ({ u with cwnd := min32 u.ssthresh (u.nInFlight + u.mss), dupAcks := 0 }, true) := by
        rw [ackCongestion, if_pos (show u.dupAcks ≥ 3 from hin'), if_pos hge]
      rw [heq]
      exact ⟨fun h3 => absurd h3 (not_inRecovery rfl), fun _ _ hd => absurd hd hnot, fun _ hd => absurd hd hnot,
        fun _ _ hlt' => absurd hlt' hlt, fun _ _ _ => ⟨rfl, rfl⟩, fun _ hv' => absurd hv hv'⟩
  · have hin' : ¬ u.dupAcks ≥ 3 := by rwa [hdup]
    have heq : (u.ackCongestion (seg.ack - s.snd.sndUna) now).1.dupAcks = 0 := by
      rw [ackCongestion, if_neg hin']
    exact ⟨fun h3 => absurd h3 (not_inRecovery heq), fun h3 => absurd h3 hin,
      fun _ hd => absurd hd hnot, fun h3 => absurd h3 hin, fun h3 => absurd h3 hin,
      fun h3 => absurd h3 hin⟩

theorem duplicateAck_inRecovery (h3 : s.InRecovery) (hne : s.dupAcks ≠ 255) (now : Uint32) :
    s.duplicateAck now = ({ s with dupAcks := s.dupAcks + 1, cwnd := s.cwnd + s.mss }, true) := by
  unfold InRecovery at h3
  have h4 : ¬ s.dupAcks + 1 = 3 := by bv_omega
  have h5 : s.dupAcks + 1 > 3 := by bv_omega
  simp only [duplicateAck, if_neg h4, if_pos h5]

theorem duplicateAck_effect (h : Accounts s) (hin : s.InFlight) (now : Uint32) :
    (s.duplicateAck now).1.dupAcks = s.dupAcks + 1 ∧ (s.duplicateAck now).1.InFlight := by
  refine ⟨?_, inFlight_emits h (duplicateAck_moves s hin now) hin⟩
  · have hdup := (SendFrame.transmitFront { s with dupAcks := s.dupAcks + 1 } now).dupAcks
    unfold duplicateAck
    simp only
    split_ifs
    · split
      · next t heq =>
        rw [heq] at hdup
        exact hdup
      · next t heq =>
        rw [heq] at hdup
        exact hdup
    · rfl
    · rfl

theorem IsDuplicate.not_isValuable (hd : s.IsDuplicate seg) : ¬ s.isValuable seg.ack := by
  simp only [isValuable, hd.1, Bool.and_eq_true, decide_eq_true_eq, not_and]
  exact fun h => absurd h (BitVec.lt_irrefl _)

theorem handleAck_duplicate (hd : s.IsDuplicate seg) (now : Uint32) :
    s.handleAck seg now =
      ({ s with snd.sndWnd := s.announcedWindow seg } : PseudoTcp).duplicateAck now := by
  have hlen : ¬ seg.len > 0 := by
    rw [hd.2.1]
    decide
  rw [handleAck, if_neg hd.not_isValuable, if_pos hd.1]
  simp only
  rw [if_neg hlen, if_pos (show s.snd.sndUna ≠ s.snd.sndNxt from hd.2.2)]

/-- **The effect of any acknowledgement**. -/
theorem ackEffect_handleAck (h : Accounts s) (hf : FlightInv s) (seg : Segment) (now : Uint32) :
    AckEffect s seg (s.handleAck seg now).1 := by
  by_cases hv : s.isValuable seg.ack
  · exact ackEffect_valuable h hv now
  by_cases hack : seg.ack = s.snd.sndUna
  swap
  · have heq : s.handleAck seg now = (s, true) := by rw [handleAck, if_neg hv, if_neg hack]
    rw [heq]
    exact ⟨hf, fun _ _ hd => absurd hd.1 hack, fun _ hd => absurd hd.1 hack,
      fun _ hv' => absurd hv' hv, fun _ hv' => absurd hv' hv, fun _ _ _ => rfl⟩
  generalize hu : ({ s with snd.sndWnd := s.announcedWindow seg } : PseudoTcp) = u
  have hacc : Accounts u := hu ▸ h.window _
  have hmode : u.mode = s.mode := by rw [← hu]; rfl
  have hdup : u.dupAcks = s.dupAcks := congrArg Prod.fst hmode
  have hflight : u.InFlight ↔ s.InFlight := by rw [← hu]; rfl
  by_cases hlen : seg.len > 0
  · have heq : s.handleAck seg now = (u, true) := by
      rw [← hu, handleAck, if_neg hv, if_pos hack]
      exact if_pos hlen
    have hne : ¬ seg.len = 0 := by bv_omega
    rw [heq]
    exact ⟨fun h3 => hflight.mpr (hf (by rwa [InRecovery, ← hdup])), fun _ _ hd => absurd hd.2.1 hne,
      fun _ hd => absurd hd.2.1 hne, fun _ hv' => absurd hv' hv, fun _ hv' => absurd hv' hv,
      fun _ _ _ => hmode⟩
  have hzero : seg.len = 0 := by bv_omega
  by_cases hin : s.InFlight
  · have hd : s.IsDuplicate seg := ⟨hack, hzero, hin⟩
    obtain ⟨h1, h2⟩ := duplicateAck_effect hacc (hflight.mpr hin) now
    rw [handleAck_duplicate hd, hu]
    refine ⟨fun _ => h2, fun hrec hne _ => ?_, fun h255 _ => ?_, fun _ hv' => absurd hv' hv,
      fun _ hv' => absurd hv' hv, fun _ _ hnd => absurd hd hnd⟩
    · rw [duplicateAck_inRecovery (by rwa [InRecovery, hdup]) (by rwa [hdup]), ← hu]
    · rw [h1, hdup, h255]
      rfl
  · -- nothing is in flight, so this is not recovery
    have hrec : ¬ s.InRecovery := fun h3 => hin (hf h3)
    have heq : (s.handleAck seg now).1.dupAcks = 0 := by
      rw [handleAck, if_neg hv, if_pos hack]
      simp only
      rw [if_neg hlen, if_neg (show ¬ s.snd.sndUna ≠ s.snd.sndNxt from hin)]
    exact ⟨fun h3 => absurd h3 (not_inRecovery heq), fun h3 => absurd h3 hrec,
      fun _ hd => absurd hd.2.2 hin, fun h3 => absurd h3 hrec, fun h3 => absurd h3 hrec,
      fun h3 => absurd h3 hrec⟩

/-! ## One call -/

def beforeAck (s : PseudoTcp) (seg : Segment) : PseudoTcp :=
  (s.noteTraffic.control seg).1.updateTimestamp seg

/-- The object after it. -/
def ackDone (s : PseudoTcp) (seg : Segment) : PseudoTcp := ((s.beforeAck seg).handleAck seg s.now).1

theorem ackInputs_beforeAck (s : PseudoTcp) (seg : Segment) : (s.beforeAck seg).ackInputs = s.ackInputs := by
  rw [beforeAck, ackInputs_updateTimestamp, ackInputs_control]
  rfl

theorem accounts_beforeAck (h : Accounts s) (seg : Segment) : Accounts (s.beforeAck seg) := by
  have h1 : Accounts s.noteTraffic := h.quiet (.of_silent rfl rfl rfl)
  have h2 : Queues .connect (some seg) s.noteTraffic (s.noteTraffic.control seg).1 :=
    control_moves s.noteTraffic rfl
  exact (h1.queues h2).quiets (Quiets.updateTimestamp _ seg)

theorem control_passes (hacc : s.accepts seg = true) (t : PseudoTcp) :
    ∃ bConnect, t.control seg = ((t.control seg).1, some bConnect) := by
  simp only [accepts, Bool.and_eq_true, Bool.or_eq_true, decide_eq_true_eq] at hacc
  unfold control
  rcases hacc.2 with hctl | ⟨hlen, hdata⟩
  · rw [if_pos hctl]
    exact ⟨false, rfl⟩
  · rw [if_neg hlen, if_pos hdata]
    split_ifs
    · exact ⟨false, rfl⟩
    · exact ⟨true, rfl⟩

theorem process_ackDone (hacc : s.accepts seg = true) :
    (((s.beforeAck seg).handleAck seg s.now).2 = true ∧
        ∃ bConnect, (s.process seg).1 = (s.ackDone seg).processData seg bConnect) ∨
      (((s.beforeAck seg).handleAck seg s.now).2 = false ∧
        (s.process seg).1 = (s.ackDone seg).closedown .econnaborted) := by
  obtain ⟨bConnect, hctl⟩ := control_passes hacc s.noteTraffic
  have heq : s.process seg = s.noteTraffic.processSegment seg s.now := by
    simp only [accepts, Bool.and_eq_true, decide_eq_true_eq] at hacc
    obtain ⟨⟨⟨hconv, hclosed⟩, hrst⟩, -⟩ := hacc
    rw [process, if_neg (not_not.mpr hconv), if_neg hclosed, if_neg (not_not.mpr hrst)]
  rw [heq, processSegment, hctl]
  simp only [processAck, ackDone, beforeAck]
  cases ((s.noteTraffic.control seg).1.updateTimestamp seg).handleAck seg s.now with
  | mk t ok =>
    cases ok with
    | false =>
      dsimp only
      exact .inr ⟨rfl, rfl⟩
    | true =>
      dsimp only
      exact .inl ⟨rfl, bConnect, rfl⟩

theorem step_ackDone (hinc : s.incoming op = some seg) :
    (((s.beforeAck seg).handleAck seg s.now).2 = true ∧
        ∃ bConnect, step s op = (s.ackDone seg).processData seg bConnect) ∨
      (((s.beforeAck seg).handleAck seg s.now).2 = false ∧
        step s op = (s.ackDone seg).closedown .econnaborted) := by
  obtain ⟨hseg, hacc⟩ := Option.filter_eq_some_iff.mp hinc
  cases op with
  | notifyPacket buffer len =>
    simp only [Op.segment] at hseg
    split_ifs at hseg with hsize
    rw [not_or] at hsize
    obtain rfl : parseSegment buffer (u32 len) = seg := Option.some.inj hseg
    simp only [step, notifyPacket, parse, if_neg hsize.1, if_neg hsize.2]
    exact process_ackDone hacc
  | _ => cases hseg

theorem step_accepted (hinc : s.incoming op = some seg) :
    (step s op).mode = (s.ackDone seg).mode ∧ Emits (s.ackDone seg) (step s op) ∧
      (((s.beforeAck seg).handleAck seg s.now).2 = true →
        ∃ bConnect, step s op = (s.ackDone seg).processData seg bConnect) := by
  rcases step_ackDone hinc with ⟨-, bConnect, h⟩ | ⟨hfail, h⟩
  · rw [h]
    exact ⟨congrArg Prod.fst (ackState_processData _ seg bConnect), processData_moves _ seg bConnect, fun _ => ⟨bConnect, rfl⟩⟩
  · rw [h]
    refine ⟨rfl, (Quiets.closedown _ _).emits, fun hok => ?_⟩
    rw [hfail] at hok
    cases hok

theorem beforeAck_fields (s : PseudoTcp) (seg : Segment) :
    (s.beforeAck seg).mode = s.mode ∧ ((s.beforeAck seg).InRecovery ↔ s.InRecovery) ∧
      ((s.beforeAck seg).InFlight ↔ s.InFlight) ∧
      ((s.beforeAck seg).IsDuplicate seg ↔ s.IsDuplicate seg) ∧
      (s.beforeAck seg).isValuable seg.ack = s.isValuable seg.ack := by
  have h := ackInputs_beforeAck s seg
  have hmode := mode_of_ackInputs h
  have hin := inFlight_of_ackInputs h
  simp only [ackInputs, Prod.mk.injEq] at h
  obtain ⟨hdup, -, huna, hnxt, -⟩ := h
  refine ⟨hmode, ?_, hin, ?_, ?_⟩
  · rw [InRecovery, InRecovery, hdup]
  · rw [IsDuplicate, IsDuplicate, huna, hin]
  · rw [isValuable, isValuable, huna, hnxt]

theorem ackEffect_ackDone (h : Accounts s) (hf : FlightInv s) (seg : Segment) :
    AckEffect (s.beforeAck seg) seg (s.ackDone seg) := by
  obtain ⟨-, hrec, hin, -⟩ := beforeAck_fields s seg
  exact ackEffect_handleAck (accounts_beforeAck h seg) (fun h3 => hin.mpr (hf (hrec.mp h3))) seg s.now

theorem accounts_ackDone (h : Accounts s) (seg : Segment) : Accounts (s.ackDone seg) := by
  obtain ⟨u, hq, he⟩ : ∃ u, Queues .connect (some seg) _ u ∧ Emits u _ :=
    handleAck_moves (s.beforeAck seg) rfl s.now
  exact ((accounts_beforeAck h seg).queues hq).emits he

theorem FlightInv.step (h : Accounts s) (hf : FlightInv s) (op : Op) : FlightInv (PseudoTcp.step s op) := by
  intro hrec
  cases hinc : s.incoming op with
  | none =>
    have hdup : (PseudoTcp.step s op).dupAcks = s.dupAcks := congrArg Prod.fst (mode_step hinc)
    exact inFlight_step h hinc (hf (by rwa [InRecovery, ← hdup]))
  | some seg =>
    obtain ⟨hmode, he, -⟩ := step_accepted hinc
    have hdup : (PseudoTcp.step s op).dupAcks = (s.ackDone seg).dupAcks := congrArg Prod.fst hmode
    have hin : (s.ackDone seg).InFlight :=
      (ackEffect_ackDone h hf seg).flight (by rwa [InRecovery, ← hdup])
    exact inFlight_emits (accounts_ackDone h seg) he hin

def RecoveryInv (s : PseudoTcp) : Prop := Accounts s ∧ FlightInv s

theorem RecoveryInv.step (h : RecoveryInv s) (op : Op) : RecoveryInv (PseudoTcp.step s op) :=
  ⟨h.1.step op, h.2.step h.1 op⟩

theorem recoveryInv_run (w : World) (conv : Uint32) (ops : List Op) : RecoveryInv (run step (new w conv) ops) :=
  run_invariant (G := fun _ _ => True) (fun _ op h _ => h.step op)
    ⟨Accounts.new w conv, fun h3 => absurd h3 (not_inRecovery rfl)⟩ (guarded_true _ ops)

/-! ## The law -/

/-- All that was in flight when recovery began is acknowledged. -/
def EndsRecovery (s : PseudoTcp) (op : Op) : Prop :=
  ∃ seg, s.incoming op = some seg ∧ s.isValuable seg.ack ∧ s.recover ≤ seg.ack

/-- **What one call may do in recovery**, as NewReno has it. -/
structure NewRenoStep (s : PseudoTcp) (op : Op) : Prop where
  persists : ¬ s.EndsRecovery op → (step s op).InRecovery ∧ (step s op).recover = s.recover
  duplicate : ∀ seg, s.incoming op = some seg → s.IsDuplicate seg →
    s.ackDone seg = { s.beforeAck seg with
      snd.sndWnd := (s.beforeAck seg).announcedWindow seg
      dupAcks := s.dupAcks + 1
      cwnd := (s.beforeAck seg).cwnd + (s.beforeAck seg).mss }
  below : ∀ seg, s.incoming op = some seg → s.isValuable seg.ack → seg.ack < s.recover →
    (s.ackDone seg).mode = s.mode ∧ (s.ackDone seg).ssthresh = (s.beforeAck seg).ssthresh
  ends : ∀ seg, s.incoming op = some seg → s.isValuable seg.ack → s.recover ≤ seg.ack →
    (step s op).dupAcks = 0 ∧ (s.ackDone seg).cwnd =
      min32 (s.ackDone seg).ssthresh ((s.ackDone seg).nInFlight + (s.ackDone seg).mss)

def NoWrap (s : PseudoTcp) (op : Op) : Prop :=
  s.dupAcks = 255 → ∀ seg, s.incoming op = some seg → ¬ s.IsDuplicate seg

/-- **A step follows NewReno exactly if the count does not wrap**. -/
theorem newRenoStep_iff (h : RecoveryInv s) (hrec : s.InRecovery) : NewRenoStep s op ↔ s.NoWrap op := by
  obtain ⟨hacc, hf⟩ := h
  constructor
  · intro hlaw h255 seg hinc hd
    obtain ⟨hmode, -, -, hdup, -⟩ := beforeAck_fields s seg
    have hends : ¬ s.EndsRecovery op := by
      rintro ⟨seg', hinc', hv, -⟩
      rw [hinc, Option.some.injEq] at hinc'
      rw [← hinc'] at hv
      exact hd.not_isValuable hv
    have h0 : (s.ackDone seg).dupAcks = 0 := (ackEffect_ackDone hacc hf seg).wraps
      ((congrArg Prod.fst hmode).trans h255) (hdup.mpr hd)
    exact not_inRecovery ((congrArg Prod.fst (step_accepted hinc).1).trans h0) (hlaw.persists hends).1
  · intro hno
    cases hinc : s.incoming op with
    | none =>
      refine ⟨fun _ => ?_, ?_, ?_, ?_⟩
      · have hmode := mode_step hinc
        have hdup : (step s op).dupAcks = s.dupAcks := congrArg Prod.fst hmode
        exact ⟨by rwa [InRecovery, hdup], congrArg Prod.snd hmode⟩
      all_goals
        intro seg h
        rw [hinc] at h
        cases h
    | some seg =>
      obtain ⟨hmode, hrecov, -, hdupl, hval⟩ := beforeAck_fields s seg
      have hdup : (s.beforeAck seg).dupAcks = s.dupAcks := congrArg Prod.fst hmode
      have hrec' : (s.beforeAck seg).recover = s.recover := congrArg Prod.snd hmode
      obtain ⟨hstep, -, -⟩ := step_accepted hinc
      have heff := ackEffect_ackDone hacc hf seg
      have hdupEq (hd : s.IsDuplicate seg) := heff.duplicate (hrecov.mpr hrec)
        (fun h255 => hno (hdup ▸ h255) seg hinc hd) (hdupl.mpr hd)
      have hbelow (hv : s.isValuable seg.ack) (hlt : seg.ack < s.recover) :=
        heff.below (hrecov.mpr hrec) (by rwa [hval]) (by rwa [hrec'])
      refine ⟨fun hends => ?_, ?_, ?_, ?_⟩
      · have hdone : (s.ackDone seg).InRecovery ∧ (s.ackDone seg).recover = s.recover := by
          have hsame (h : (s.ackDone seg).mode = (s.beforeAck seg).mode) :
              (s.ackDone seg).InRecovery ∧ (s.ackDone seg).recover = s.recover := by
            have hm := h.trans hmode
            have hd : (s.ackDone seg).dupAcks = s.dupAcks := congrArg Prod.fst hm
            exact ⟨by rwa [InRecovery, hd], congrArg Prod.snd hm⟩
          by_cases hv : s.isValuable seg.ack
          · have hlt : seg.ack < s.recover :=
              BitVec.not_le.mp fun hle => hends ⟨seg, hinc, hv, hle⟩
            exact hsame (hbelow hv hlt).1
          · by_cases hd : s.IsDuplicate seg
            · rw [hdupEq hd]
              refine ⟨?_, hrec'⟩
              have hne : s.dupAcks ≠ 255 := fun h255 => hno h255 seg hinc hd
              unfold InRecovery at hrec ⊢
              simp only [hdup]
              bv_omega
            · exact hsame (heff.other (hrecov.mpr hrec) (by rwa [hval]) (hdupl.not.mpr hd))
        have hd : (step s op).dupAcks = (s.ackDone seg).dupAcks := congrArg Prod.fst hstep
        exact ⟨by rw [InRecovery, hd]; exact hdone.1, (congrArg Prod.snd hstep).trans hdone.2⟩
      all_goals
        intro seg' hinc'
        obtain rfl : seg = seg' := by rwa [hinc, Option.some.injEq] at hinc'
      · intro hd
        rw [hdupEq hd, hdup]
      · intro hv hlt
        obtain ⟨h1, h2⟩ := hbelow hv hlt
        exact ⟨h1.trans hmode, h2⟩
      · intro hv hle
        obtain ⟨h1, h2⟩ := heff.ends (hrecov.mpr hrec) (by rwa [hval]) (by rwa [hrec'])
        exact ⟨(congrArg Prod.fst hstep).trans h1, h2⟩

/-- **NewReno over a run**: recovery lasts until an acknowledgement from `m_recover` on. -/
structure NewRenoLaw (s₀ : PseudoTcp) (ops : List Op) : Prop where
  steps : ∀ pre op post, ops = pre ++ op :: post → (run step s₀ pre).InRecovery →
    NewRenoStep (run step s₀ pre) op
  persists : ∀ pre mid post, ops = pre ++ mid ++ post → (run step s₀ pre).InRecovery →
    Guarded step (fun s op => ¬ s.EndsRecovery op) (run step s₀ pre) mid →
    (run step s₀ (pre ++ mid)).InRecovery ∧
      (run step s₀ (pre ++ mid)).recover = (run step s₀ pre).recover

theorem recovery_persists (h : RecoveryInv s) {ops : List Op} (hno : Guarded step NoWrap s ops)
    (hends : Guarded step (fun s op => ¬ s.EndsRecovery op) s ops) (hrec : s.InRecovery) :
    (run step s ops).InRecovery ∧ (run step s ops).recover = s.recover := by
  have hguarded : Guarded step (fun s op => s.NoWrap op ∧ ¬ s.EndsRecovery op) s ops :=
    guarded_and.mpr ⟨hno, hends⟩
  have hrun := run_invariant (I := fun t => RecoveryInv t ∧ t.InRecovery ∧ t.recover = s.recover)
    (fun t op ht hG => by
      obtain ⟨hinv, hin, hr⟩ := ht
      obtain ⟨h1, h2⟩ := ((newRenoStep_iff hinv hin).mpr hG.1).persists hG.2
      exact ⟨hinv.step op, h1, h2.trans hr⟩)
    ⟨h, hrec, rfl⟩ hguarded
  exact hrun.2

theorem noWrap_of_steps (h : RecoveryInv s) {ops : List Op}
    (hlaw : ∀ pre op post, ops = pre ++ op :: post → (run step s pre).InRecovery →
      NewRenoStep (run step s pre) op) : Guarded step NoWrap s ops := by
  induction ops generalizing s with
  | nil => trivial
  | cons op ops ih =>
    refine ⟨fun h255 seg hinc => ?_, ih (h.step op) fun pre op' post heq hin => ?_⟩
    · have hrec : s.InRecovery := by
        rw [InRecovery, h255]
        decide
      exact (newRenoStep_iff h hrec).mp (hlaw [] op ops rfl hrec) h255 seg hinc
    · have hcons : op :: ops = (op :: pre) ++ op' :: post := by rw [heq]; rfl
      exact hlaw (op :: pre) op' post hcons hin

/-- **NewReno holds exactly in the runs in which the counter does not wrap in recovery.** -/
theorem newReno_iff (w : World) (conv : Uint32) (ops : List Op) :
    NewRenoLaw (new w conv) ops ↔ Guarded step NoWrap (new w conv) ops := by
  have hnew : RecoveryInv (new w conv) := recoveryInv_run w conv []
  constructor
  · exact fun hlaw => noWrap_of_steps hnew hlaw.steps
  · intro hG
    refine ⟨fun pre op post heq hrec => ?_, fun pre mid post heq hrec hends => ?_⟩
    · rw [heq] at hG
      exact (newRenoStep_iff (recoveryInv_run w conv pre) hrec).mpr (guarded_append.mp hG).2.1
    · rw [heq, List.append_assoc] at hG
      rw [run_append]
      exact recovery_persists (recoveryInv_run w conv pre)
        (guarded_append.mp (guarded_append.mp hG).2).1 hends hrec

/-! ## 253 duplicate acknowledgements -/

def lossOps : List Op :=
  [.connect, .packet connectReply, .send (ptr [1]) 1] ++ List.replicate 3 (.packet (plainAck 4))

/-- The duplicate acknowledgement as `process` sees it. -/
def duplicateSegment : Segment :=
  parseSegment (ptr (plainAck 4).toBytes) (u32 (plainAck 4).toBytes.length)

/-- The sender is in recovery and waits for the acknowledgement of what it sent from 4 on. -/
structure Unanswered (s : PseudoTcp) : Prop where
  inv : RecoveryInv s
  recovery : s.InRecovery
  state : s.state = .established
  conv : s.conv = 0
  sndUna : s.snd.sndUna = 4

theorem processData_fields (h : s.state = .established) (seg : Segment) (bConnect : Bool) :
    (s.processData seg bConnect).state = .established ∧ (s.processData seg bConnect).conv = s.conv ∧
      (s.processData seg bConnect).snd.sndUna = s.snd.sndUna := by
  have hopen : s.openIfSynReceived bConnect = s := by
    rw [openIfSynReceived, if_neg]
    rw [h]
    exact fun hc => absurd hc.1 (by decide)
  have hwrite : s.notifyWriteable.state = s.state ∧ s.notifyWriteable.conv = s.conv ∧
      s.notifyWriteable.snd = s.snd := by
    unfold notifyWriteable
    simp only
    split_ifs <;> exact ⟨rfl, rfl, rfl⟩
  have hread (t : PseudoTcp) (b : Bool) : (t.notifyReadable b).state = t.state ∧
      (t.notifyReadable b).conv = t.conv ∧ (t.notifyReadable b).snd = t.snd := by
    unfold notifyReadable
    split_ifs <;> exact ⟨rfl, rfl, rfl⟩
  have hrecv (t : PseudoTcp) (sflags : SendFlags) : (t.receive (t.trim seg) sflags).1.state = t.state ∧
      (t.receive (t.trim seg) sflags).1.conv = t.conv ∧
      (t.receive (t.trim seg) sflags).1.snd = t.snd := by
    obtain ⟨r, fs, heq, -, -⟩ := RecvFrame.receive t (t.trim seg) sflags
    rw [heq]
    exact ⟨rfl, rfl, rfl⟩
  unfold processData
  dsimp only
  rw [hopen, (hread _ _).1, (hread _ _).2.1, (hread _ _).2.2]
  have hsend := SendFrame.attemptSend (s.notifyWriteable.receive (s.notifyWriteable.trim seg)
    (s.notifyWriteable.ackFlags seg)).1 (s.notifyWriteable.receive (s.notifyWriteable.trim seg)
    (s.notifyWriteable.ackFlags seg)).2.1
  rw [hsend.state, hsend.conv, hsend.sndUna, (hrecv _ _).1, (hrecv _ _).2.1, (hrecv _ _).2.2,
    hwrite.1, hwrite.2.1, hwrite.2.2]
  exact ⟨h, rfl, rfl⟩

namespace Unanswered

theorem incoming (h : Unanswered s) : s.incoming (.packet (plainAck 4)) = some duplicateSegment := by
  have hseg : (Op.packet (plainAck 4)).segment = some duplicateSegment := by
    rw [Op.packet, Op.segment, if_neg (by decide)]
    rfl
  rw [PseudoTcp.incoming, hseg]
  refine Option.filter_some_pos ?_
  simp only [accepts, h.state, h.conv]
  decide

theorem isDuplicate (h : Unanswered s) : s.IsDuplicate duplicateSegment :=
  ⟨h.sndUna.symm ▸ (by decide : duplicateSegment.ack = 4), by decide, h.inv.2 h.recovery⟩

theorem step (h : Unanswered s) (hne : s.dupAcks ≠ 255) :
    Unanswered (PseudoTcp.step s (.packet (plainAck 4))) ∧
      (PseudoTcp.step s (.packet (plainAck 4))).dupAcks = s.dupAcks + 1 := by
  generalize hop : Op.packet (plainAck 4) = op
  have hinc : s.incoming op = some duplicateSegment := hop ▸ h.incoming
  generalize hseg : duplicateSegment = seg at hinc
  have hd : s.IsDuplicate seg := hseg ▸ h.isDuplicate
  have hctl : seg.flags &&& flagCtl = 0 := hseg ▸ by decide
  obtain ⟨hmode, hrecov, -, hdupl, -⟩ := beforeAck_fields s seg
  have hbefore : (s.beforeAck seg).state = s.state ∧ (s.beforeAck seg).conv = s.conv ∧
      (s.beforeAck seg).snd = s.snd := by
    rw [beforeAck, control, if_pos hctl]
    unfold updateTimestamp
    split_ifs <;> exact ⟨rfl, rfl, rfl⟩
  have hdup : (s.beforeAck seg).dupAcks = s.dupAcks := congrArg Prod.fst hmode
  have hhandle : (s.beforeAck seg).handleAck seg s.now = ({ s.beforeAck seg with
      snd.sndWnd := (s.beforeAck seg).announcedWindow seg
      dupAcks := (s.beforeAck seg).dupAcks + 1
      cwnd := (s.beforeAck seg).cwnd + (s.beforeAck seg).mss }, true) := by
    rw [handleAck_duplicate (hdupl.mpr hd), duplicateAck_inRecovery]
    · exact hrecov.mpr h.recovery
    · rwa [← hdup] at hne
  obtain ⟨hstep, -, hdata⟩ := step_accepted hinc
  obtain ⟨bConnect, hdata⟩ := hdata (by rw [hhandle])
  have hdone : s.ackDone seg = _ := congrArg Prod.fst hhandle
  have hstate : (s.ackDone seg).state = .established := by
    rw [hdone, ← h.state, ← hbefore.1]
  obtain ⟨h1, h2, h3⟩ := processData_fields hstate seg bConnect
  rw [← hdata] at h1 h2 h3
  have hcount : (PseudoTcp.step s op).dupAcks = s.dupAcks + 1 := by
    have hm : (PseudoTcp.step s op).dupAcks = (s.ackDone seg).dupAcks := congrArg Prod.fst hstep
    rw [hm, hdone, ← hdup]
  refine ⟨⟨h.inv.step op, ?_, h1, ?_, ?_⟩, hcount⟩
  · have hrec := h.recovery
    unfold InRecovery at hrec ⊢
    rw [hcount]
    bv_omega
  · rw [h2, hdone, ← h.conv, ← hbefore.2.1]
  · rw [h3, hdone, ← h.sndUna, ← hbefore.2.2]

theorem run (h : Unanswered s) (k : ℕ) (hk : s.dupAcks.toNat + k < 256) :
    Unanswered (Lib.run PseudoTcp.step s (List.replicate k (.packet (plainAck 4)))) ∧
      (Lib.run PseudoTcp.step s (List.replicate k (.packet (plainAck 4)))).dupAcks.toNat =
        s.dupAcks.toNat + k := by
  induction k generalizing s with
  | zero => exact ⟨h, rfl⟩
  | succ k ih =>
    obtain ⟨hstep, hcount⟩ := h.step (by bv_omega)
    have hnat : (PseudoTcp.step s (.packet (plainAck 4))).dupAcks.toNat = s.dupAcks.toNat + 1 := by
      rw [hcount]
      bv_omega
    rw [List.replicate_succ, run_cons]
    obtain ⟨h1, h2⟩ := ih hstep (by rw [hnat]; omega)
    exact ⟨h1, by rw [h2, hnat]; omega⟩

end Unanswered

/-- **253 further duplicates of the acknowledgement that started recovery end it.** -/
theorem newReno_wraps : ¬ NewRenoLaw (new calmWorld 0) (lossOps ++ List.replicate 253 (.packet (plainAck 4))) := by
  intro hlaw
  have hloss : Unanswered (run step (new calmWorld 0) lossOps) :=
    ⟨recoveryInv_run _ _ _, (by decide : _ ≥ (3 : Uint8)), by decide,
      by decide, by decide⟩
  have hthree : (run step (new calmWorld 0) lossOps).dupAcks.toNat = 3 := by decide
  obtain ⟨hwait, hcount⟩ := hloss.run 252 (by omega)
  rw [hthree, ← run_append] at hcount
  rw [← run_append] at hwait
  have hops : lossOps ++ List.replicate 253 (Op.packet (plainAck 4)) =
      (lossOps ++ List.replicate 252 (.packet (plainAck 4))) ++ .packet (plainAck 4) :: [] := by
    rw [List.append_assoc, ← List.replicate_succ']
  have hno := (newRenoStep_iff hwait.inv hwait.recovery).mp
    (hlaw.steps _ _ [] hops hwait.recovery)
  exact hno (BitVec.eq_of_toNat_eq hcount) duplicateSegment hwait.incoming hwait.isDuplicate

end PseudoTcp

end Libjingle
