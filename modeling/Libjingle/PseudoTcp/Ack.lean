import Libjingle.PseudoTcp.Accounting
import Libjingle.PseudoTcp.RecvMoves

/-!
# Acknowledgements for data

"Segment has data (so we need to ACK!)", says the comment of `process`. The request for an
acknowledgement is an argument of `attemptSend`, which sends or schedules one when it has nothing
else to send. But the exit of Nagle's algorithm drops the request.

Main results: **`ackGiven_iff`**, **`ack_dropped`**.
-/

variable {ack : Uint32} {t : PseudoTcp} {sflags : SendFlags}

namespace Libjingle

open Lib Relation

namespace PseudoTcp

variable {s s' : PseudoTcp} {seg : Segment}

/-! ## Packets in the log -/

def Wrote (s s' : PseudoTcp) (ack : Uint32) : Prop :=
  ∃ p r, .tcpWritePacket p r ∈ s'.log.drop s.log.length ∧ p.ack = ack

theorem wrote_iff {es : List Event} (h : s'.log = s.log ++ es) :
    Wrote s s' ack ↔ ∃ p r, .tcpWritePacket p r ∈ es ∧ p.ack = ack := by
  rw [Wrote, h, List.drop_left]

theorem Wrote.mono (h : Wrote s s' ack) (hlog : s'.log <+: t.log) : Wrote s t ack := by
  obtain ⟨p, r, hmem, hack⟩ := h
  exact ⟨p, r, (hlog.drop _).subset hmem, hack⟩

theorem Wrote.earlier (h : Wrote s s' ack) (hlen : t.log.length ≤ s.log.length) : Wrote t s' ack := by
  obtain ⟨p, r, hmem, hack⟩ := h
  exact ⟨p, r, List.drop_subset_drop_left _ hlen hmem, hack⟩

theorem Wrote.of_append {es : List Event} (h : Wrote s s' ack)
    (hlog : s'.log = t.log ++ es) (hes : ∀ p r, .tcpWritePacket p r ∉ es) : Wrote s t ack := by
  obtain ⟨p, r, hmem, hack⟩ := h
  rw [hlog, List.drop_append] at hmem
  rcases List.mem_append.mp hmem with hm | hm
  · exact ⟨p, r, hm, hack⟩
  · exact absurd (List.mem_of_mem_drop hm) (hes p r)

theorem not_wrote_of_log (h : s'.log = s.log) : ¬ Wrote s s' ack := by
  rintro ⟨p, r, hmem, -⟩
  rw [h, List.drop_length] at hmem
  cases hmem

theorem SendFrame.wrote (h : SendFrame s s') (hlen : s.log.length < s'.log.length) : Wrote s s' s.rcv.rcvNxt := by
  obtain ⟨es, hlog, hes⟩ := h.log
  rw [wrote_iff hlog]
  cases es with
  | nil =>
    rw [hlog, List.append_nil] at hlen
    exact absurd hlen (Nat.lt_irrefl _)
  | cons e es =>
    obtain ⟨p, r, rfl, -, hack, -⟩ := hes e List.mem_cons_self
    exact ⟨p, r, List.mem_cons_self, hack⟩

theorem SendFrame.log_le (h : SendFrame s s') : s.log.length ≤ s'.log.length := by
  obtain ⟨es, hlog, -⟩ := h.log
  rw [hlog, List.length_append]
  exact Nat.le_add_right _ _

theorem packet_log (s : PseudoTcp) (seq : Uint32) (flags : Uint8) (offset len : Uint32) :
    s.log.length < (s.packet seq flags offset len).1.log.length := by
  rw [packet_eq]
  simp only
  split_ifs <;> simp

theorem transmitPacket_log (s : PseudoTcp) (seg : SSegment) (n : Uint32) :
    s.log.length < (s.transmitPacket seg n).1.log.length := by
  have h1 := packet_log s seg.seq seg.flags (seg.seq - s.snd.sndUna) n
  unfold transmitPacket
  split
  · next t heq => rw [heq] at h1; exact h1
  · next t heq => rw [heq] at h1; exact h1
  · next t heq =>
    rw [heq] at h1
    have hretry := (retryPacket_rel SendFrame.refl SendFrame.trans seg
      (fun s mtu _ _ => .lowerMss s mtu) n (fun s m _ _ => .packet s _ _ _ m) _
      (List.drop_subset (t.msslevel.toNat + 1) _) n t (BitVec.le_refl n)).1
    exact Nat.lt_of_lt_of_le h1 hretry.log_le

theorem transmit_log {before after : List SSegment} {seg : SSegment} (hx : seg.xmit < 15)
    (s : PseudoTcp) (now : Uint32) :
    s.log.length < (s.transmit before seg after now).1.log.length := by
  have h1 := transmitPacket_log s seg (min32 seg.len s.mss)
  rcases transmit_cases s before seg after now with ⟨-, hbig⟩ | ⟨t, ht, h⟩ | ⟨t, n, ht, -, h⟩
  · exact absurd hx (BitVec.not_lt.mpr hbig)
  · rw [ht] at h1
    rw [h]
    exact h1
  · rw [ht] at h1
    rw [h]
    exact h1

/-! ## The timer -/

theorem packet_tAck {seq : Uint32} {flags : Uint8} {offset len : Uint32}
    (h : s.packet seq flags offset len = (t, .success)) : t.tAck = 0 := by
  rw [packet_eq] at h
  simp only at h
  by_cases hfail : s.results 0 ≠ .success ∧ len ≠ 0
  · rw [if_pos hfail] at h
    exact absurd (congrArg Prod.snd h) hfail.1
  · rw [if_neg hfail] at h
    cases h
    rfl

theorem retryPacket_tAck (seg : SSegment) (table : List Uint16) (n : Uint32) (s : PseudoTcp)
    (h : (retryPacket seg table n s).2 ≠ none) : (retryPacket seg table n s).1.tAck = 0 := by
  induction table generalizing n s with
  | nil => exact absurd rfl h
  | cons mtu table ih =>
    simp only [retryPacket] at h ⊢
    split_ifs at h ⊢
    · exact absurd rfl h
    · split at h
      · next t heq => exact packet_tAck heq
      · exact absurd rfl h
      · next t heq => exact ih _ _ h
    · exact ih _ _ h

theorem transmitPacket_tAck {seg : SSegment} {n m : Uint32}
    (h : s.transmitPacket seg n = (t, some m)) : t.tAck = 0 := by
  unfold transmitPacket at h
  split at h
  · next t' heq =>
    cases h
    exact packet_tAck heq
  · cases h
  · next t' heq =>
    have := retryPacket_tAck seg (packetMaximums.drop (t'.msslevel.toNat + 1)) n t'
    rw [h] at this
    exact this (by simp)

/-! ## The acknowledgement in the segment -/

/-- The acknowledgement makes `process` retransmit. -/
def retransmits (s : PseudoTcp) (seg : Segment) : Bool :=
  s.isValuable seg.ack && s.dupAcks ≥ 3 && seg.ack < s.recover

def afterAck (s : PseudoTcp) (seg : Segment) : PseudoTcp :=
  ((s.noteTraffic.updateTimestamp seg).handleAck seg s.now).1

def ackPart (s : PseudoTcp) := (s.log, s.tAck, s.rcv.rcvNxt, s.dupAcks, s.recover, s.clock)

theorem updateRtt_ackPart (s : PseudoTcp) (tsecr now : Uint32) :
    (s.updateRtt tsecr now).ackPart = s.ackPart ∧ (s.updateRtt tsecr now).snd = s.snd := by
  unfold updateRtt
  split_ifs <;> exact ⟨rfl, rfl⟩

theorem advanceUna_ackPart (s : PseudoTcp) (ack now : Uint32) : (s.advanceUna ack now).ackPart = s.ackPart := by
  simp only [advanceUna, check_eq, ackPart]

theorem transmitFront_success {now : Uint32} (hne : s.snd.slist ≠ [])
    (h : s.transmitFront now = (t, true)) : t.tAck = 0 ∧ Wrote s t s.rcv.rcvNxt := by
  have hframe := SendFrame.transmitFront s now
  rw [h] at hframe
  unfold transmitFront at h
  split at h
  · next hnil => exact absurd hnil hne
  · next g rest hl =>
    have hlog := transmitPacket_log s g (min32 g.len s.mss)
    rcases transmit_cases s [] g rest now with ⟨h', -⟩ | ⟨u, -, h'⟩ | ⟨u, n, hu, -, h'⟩
    · rw [h'] at h
      cases h
    · rw [h'] at h
      cases h
    · rw [h'] at h
      rw [hu] at hlog
      cases h
      have htAck : u.tAck = 0 := transmitPacket_tAck hu
      exact ⟨htAck, hframe.wrote hlog⟩

theorem ackCongestion_acks {nAcked now : Uint32} (h : Accounts s)
    (hle : s.snd.sndUna ≤ s.snd.sndNxt) (hok : (s.ackCongestion nAcked now).2 = true) :
    let t := (s.ackCongestion nAcked now).1
    if s.dupAcks ≥ 3 ∧ s.snd.sndUna < s.recover then t.tAck = 0 ∧ Wrote s t s.rcv.rcvNxt
    else t.tAck = s.tAck ∧ t.log = s.log := by
  intro t
  simp only [t]
  unfold ackCongestion at hok ⊢
  by_cases hdup : s.dupAcks ≥ 3
  · simp only [if_pos hdup] at hok ⊢
    by_cases hrec : s.snd.sndUna ≥ s.recover
    · rw [if_pos hrec, if_neg fun hc => BitVec.not_lt.mpr hrec hc.2]
      exact ⟨rfl, rfl⟩
    · rw [if_neg hrec] at hok ⊢
      rw [if_pos ⟨hdup, BitVec.not_le.mp hrec⟩]
      -- what is still lost is still queued
      have hne : s.snd.slist ≠ [] := by
        intro hnil
        have hsent := h.queue.sent
        rw [hnil, sentBytes_nil] at hsent
        rcases h.recover with h1 | h1 <;> bv_omega
      cases hfront : s.transmitFront now with
      | mk u ok =>
        cases ok with
        | false => rw [hfront] at hok; cases hok
        | true =>
          have hsent : u.tAck = 0 ∧ Wrote s u s.rcv.rcvNxt := transmitFront_success hne hfront
          exact hsent
  · rw [if_neg hdup, if_neg fun hc => hdup hc.1]
    exact ⟨rfl, rfl⟩

theorem ackCongestion_clock (s : PseudoTcp) (nAcked now : Uint32) :
    ∃ n, (s.ackCongestion nAcked now).1.clock = fun i => s.clock (i + n) := by
  rcases ackCongestion_cases s nAcked now with ⟨cwnd, h⟩ | ⟨-, -, cwnd, h⟩
  · rw [h]
    exact ⟨0, rfl⟩
  · rw [h]
    exact (SendFrame.transmitFront s now).clock

theorem handleAck_acks {now : Uint32} (h : Accounts s) (hlen : seg.len ≠ 0) (hok : (s.handleAck seg now).2 = true) :
    let t := (s.handleAck seg now).1
    (if s.retransmits seg then t.tAck = 0 ∧ Wrote s t s.rcv.rcvNxt
      else t.tAck = s.tAck ∧ t.log = s.log) ∧
    ∃ n, t.clock = fun i => s.clock (i + n) := by
  intro t
  simp only [t]
  have hpos : seg.len > 0 := by bv_omega
  unfold handleAck at hok ⊢
  by_cases hv : s.isValuable seg.ack
  · rw [if_pos hv] at hok ⊢
    obtain ⟨hpart, hsnd⟩ := updateRtt_ackPart s seg.tsecr now
    have hacc := (h.quiets (Quiets.updateRtt s seg.tsecr now)).window
      ((s.updateRtt seg.tsecr now).announcedWindow seg)
    simp only at hok ⊢
    generalize hu : ({ s.updateRtt seg.tsecr now with
      snd.sndWnd := (s.updateRtt seg.tsecr now).announcedWindow seg } : PseudoTcp) = u at hok hacc ⊢
    have hupart : u.ackPart = s.ackPart := by rw [← hu, ← hpart]; rfl
    have huna : u.snd.sndUna = s.snd.sndUna := by rw [← hu, ← hsnd]
    have hnxt : u.snd.sndNxt = s.snd.sndNxt := by rw [← hu, ← hsnd]
    have hv' : u.isValuable seg.ack := by
      rw [isValuable, huna, hnxt]
      exact hv
    obtain ⟨hnxt', huna'⟩ := advanceUna_fields u seg.ack now
    have hle : (u.advanceUna seg.ack now).snd.sndUna ≤ (u.advanceUna seg.ack now).snd.sndNxt := by
      rw [hnxt', huna', hnxt]
      simp only [isValuable, Bool.and_eq_true, decide_eq_true_eq] at hv
      exact hv.2
    have hpart' := (advanceUna_ackPart u seg.ack now).trans hupart
    have hcong := ackCongestion_acks (hacc.advanceUna hv' now) hle hok
    have hclock := ackCongestion_clock (u.advanceUna seg.ack now) (seg.ack - s.snd.sndUna) now
    simp only [ackPart, Prod.mk.injEq] at hpart'
    obtain ⟨hlog, htAck, hrcv, hdup, hrec, hclk⟩ := hpart'
    simp only [Wrote, hlog, htAck, hrcv, hdup, hrec, huna'] at hcong
    rw [hclk] at hclock
    simp only [retransmits, hv, Bool.true_and, Bool.and_eq_true, decide_eq_true_eq]
    exact ⟨hcong, hclock⟩
  · have hno : s.retransmits seg = false := by simp [retransmits, hv]
    rw [if_neg hv, hno, if_neg Bool.false_ne_true]
    by_cases hack : seg.ack = s.snd.sndUna
    · simp only [if_pos hack, if_pos hpos, and_self, true_and]
      exact ⟨0, rfl⟩
    · simp only [if_neg hack, and_self, true_and]
      exact ⟨0, rfl⟩

/-! ## Sending the acknowledgement -/

/-- Data waits, and Nagle's algorithm keeps it back. -/
def holdsBack (s : PseudoTcp) : Bool := s.beforeLoop.nAvailable ≠ 0 && s.beforeLoop.nagleHolds

def sendPart (s : PseudoTcp) :=
  (s.clock, s.snd, s.rxRto, s.mss, s.cwnd, s.dupAcks, s.useNagling)

theorem holdsBack_congr (h : s'.sendPart = s.sendPart) : s'.holdsBack = s.holdsBack := by
  simp only [sendPart, Prod.mk.injEq] at h
  obtain ⟨h1, h2, h3, h4, h5, h6, h7⟩ := h
  cases s
  cases s'
  cases h1
  cases h2
  cases h3
  cases h4
  cases h5
  cases h6
  cases h7
  unfold holdsBack beforeLoop now
  simp only
  split_ifs <;> rfl

theorem beforeLoop_frame (s : PseudoTcp) :
    s.beforeLoop.snd = s.snd ∧ s.beforeLoop.recover = s.recover ∧ s.beforeLoop.faults = s.faults ∧
      s.beforeLoop.log = s.log ∧ s.beforeLoop.tAck = s.tAck ∧ s.beforeLoop.rcv = s.rcv ∧
      s.beforeLoop.clock = fun n => s.clock (n + 1) := by
  unfold beforeLoop
  split_ifs <;> exact ⟨rfl, rfl, rfl, rfl, rfl, rfl, rfl⟩

theorem Accounts.beforeLoop (h : Accounts s) : Accounts s.beforeLoop := by
  obtain ⟨h1, h2, h3, -⟩ := beforeLoop_frame s
  exact ⟨by rw [h1]; exact h.queue, by rw [h1, h2]; exact h.recover, by rw [h3]; exact h.faults⟩

theorem sendSegment_log {before after : List SSegment} {g : SSegment} (hx : g.xmit = 0)
    (s : PseudoTcp) (n now : Uint32) :
    s.log.length < (s.sendSegment before g after n now).1.log.length := by
  have hx' : (if g.len > n then { g with len := n } else g).xmit < 15 := by
    split_ifs
    · rw [show ({ g with len := n } : SSegment).xmit = g.xmit from rfl, hx]
      decide
    · rw [hx]
      decide
  unfold sendSegment
  simp only
  generalize (if g.len > n then { g with len := n } else g) = first at hx' ⊢
  exact Nat.lt_of_le_of_lt (SendFrame.withSlist s _).log_le (transmit_log hx' _ now)

theorem attemptSend_cases (h : Accounts s) (sflags : SendFlags) :
    (s.beforeLoop.nAvailable = 0 ∧ s.attemptSend sflags = s.beforeLoop.sendAck sflags) ∨
    (s.holdsBack = true ∧ s.attemptSend sflags = s.beforeLoop) ∨
    (s.holdsBack = false ∧ s.log.length < (s.attemptSend sflags).log.length) := by
  obtain ⟨-, -, -, hlog, -⟩ := beforeLoop_frame s
  have hacc := h.beforeLoop
  have hle : s.beforeLoop.nInFlight ≤ u32 s.beforeLoop.snd.sbuf.getBuffered := by
    rw [BitVec.le_def, FifoBuffer.getBuffered, toNat_u32 hacc.queue.lt]
    exact hacc.queue.inFlight_le
  rw [← hlog]
  unfold attemptSend sendFuel holdsBack
  simp only [sendLoop, hle, decide_true, check_true]
  generalize s.beforeLoop = u at *
  by_cases h0 : u.nAvailable = 0
  · exact .inl ⟨h0, by rw [if_pos h0]⟩
  right
  rw [if_neg h0]
  by_cases hn : u.nagleHolds = true
  · exact .inl ⟨by rw [hn, decide_eq_true h0]; rfl, by rw [if_pos hn]⟩
  right
  rw [if_neg hn]
  refine ⟨by simp [hn], ?_⟩
  split
  · next hnil =>
    -- there is an untransmitted segment
    refine (hacc.exists_unsent h0 fun g hg => ?_).elim
    have happ := Emits.nextSegment_append u.snd.slist
    rw [hnil, List.append_nil] at happ
    refine Emits.nextSegment_pre (l := u.snd.slist) ?_
    rw [hnil, happ]
    exact hg
  · next before g after hnext =>
    have hsend : u.log.length < (u.sendSegment before g after u.nAvailable s.now).1.log.length :=
      sendSegment_log (Emits.nextSegment_seg hnext) u _ _
    split
    · next t heq =>
      rw [heq] at hsend
      exact Nat.lt_of_lt_of_le hsend (SendFrame.sendLoop _ t .none s.now).log_le
    · next t heq =>
      rw [heq] at hsend
      exact hsend

theorem attemptSend_holdsBack (h : Accounts s) (hb : s.holdsBack = true) (sflags : SendFlags) :
    (s.attemptSend sflags).log = s.log ∧ (s.attemptSend sflags).tAck = s.tAck := by
  obtain ⟨-, -, -, hlog, htAck, -⟩ := beforeLoop_frame s
  rcases attemptSend_cases h sflags with ⟨h0, -⟩ | ⟨-, heq⟩ | ⟨hb', -⟩
  · simp [holdsBack, h0] at hb
  · rw [heq]
    exact ⟨hlog, htAck⟩
  · rw [hb] at hb'
    cases hb'

theorem sendAck_acks (hclock : s.now ≠ 0) (hflags : sflags ≠ .none) :
    s.log.length < (s.sendAck sflags).log.length ∨ (s.sendAck sflags).tAck ≠ 0 := by
  cases sflags with
  | none => exact absurd rfl hflags
  | immediateAck => exact .inl (packet_log s _ _ _ _)
  | delayedAck =>
    unfold sendAck
    simp only
    split_ifs
    · exact .inl (packet_log s _ _ _ _)
    · exact .inr hclock

theorem attemptSend_acks (h : Accounts s) (hb : s.holdsBack = false) (hclock : ∀ n, s.clock n ≠ 0) (hflags : sflags ≠ .none) :
    s.log.length < (s.attemptSend sflags).log.length ∨ (s.attemptSend sflags).tAck ≠ 0 := by
  obtain ⟨-, -, -, hlog, -, -, hclk⟩ := beforeLoop_frame s
  have hnow : s.beforeLoop.now ≠ 0 := by
    rw [now, hclk]
    exact hclock 1
  rcases attemptSend_cases h sflags with ⟨-, heq⟩ | ⟨hb', -⟩ | ⟨-, hlt⟩
  · rw [heq, ← hlog]
    exact sendAck_acks hnow hflags
  · rw [hb] at hb'
    cases hb'
  · exact .inl hlt

/-! ## The payload -/

def InOrder (s : PseudoTcp) (seg : Segment) : Prop :=
  (s.trim seg).len ≠ 0 ∧ (s.trim seg).seq = s.rcv.rcvNxt

theorem receive_rcvNxt {g : Segment} (h : ¬ (g.len ≠ 0 ∧ g.seq = s.rcv.rcvNxt)) (sflags : SendFlags) :
    (s.receive g sflags).1.rcv.rcvNxt = s.rcv.rcvNxt := by
  unfold receive
  by_cases h0 : g.len = 0
  · rw [if_pos h0]
  · have hseq : g.seq ≠ s.rcv.rcvNxt := fun he => h ⟨h0, he⟩
    have hnxt : (s.writePayload g).rcv.rcvNxt = s.rcv.rcvNxt := by
      simp only [writePayload, check_eq]
    rw [if_neg h0]
    by_cases hign : s.ignoresData g = true
    · simp only [if_pos hign, if_neg hseq]
    · rw [if_neg hign, store]
      rw [← hnxt] at hseq
      simp only [if_neg hseq]
      exact hnxt

theorem receive_flags {g : Segment} (h : sflags ≠ .none) : (s.receive g sflags).2.1 ≠ .none := by
  unfold receive
  split_ifs
  · exact h
  · exact h
  · exact h
  · unfold store
    by_cases hseq : g.seq = (s.writePayload g).rcv.rcvNxt
    · simp only [if_pos hseq]
      split_ifs
      · exact (by decide : SendFlags.immediateAck ≠ .none)
      · exact h
    · simp only [if_neg hseq]
      exact h

theorem ackFlags_data (hlen : seg.len ≠ 0) : s.ackFlags seg ≠ .none := by
  unfold ackFlags
  split_ifs <;> decide

theorem process_data (hctl : seg.flags &&& flagCtl = 0) (hok : (s.process seg).2 = true) :
    ((s.noteTraffic.updateTimestamp seg).handleAck seg s.now).2 = true ∧
      (s.process seg).1 = (s.afterAck seg).processData seg false := by
  unfold process at hok ⊢
  split_ifs at hok ⊢
  unfold processSegment control at hok ⊢
  simp only [if_pos hctl] at hok ⊢
  unfold processAck at hok ⊢
  unfold afterAck
  cases hack : (s.noteTraffic.updateTimestamp seg).handleAck seg s.now with
  | mk t ok =>
    rw [hack] at hok
    cases ok with
    | false => cases hok
    | true =>
      dsimp only
      exact ⟨rfl, rfl⟩

theorem Steadies.frame (h : Steadies s s') : s'.state = s.state ∧
    s'.rcv.rcvNxt = s.rcv.rcvNxt ∧ s'.rcv.rbuf = s.rcv.rbuf ∧ s.log <+: s'.log := by
  induction h with
  | refl => exact ⟨rfl, rfl, rfl, List.prefix_refl _⟩
  | tail _ hm ih =>
    obtain ⟨h1, h2, h3, h4⟩ := ih
    obtain ⟨es, hlog, -⟩ := hm.log
    exact ⟨hm.state.trans h1, hm.rcvNxt.trans h2, hm.rbuf.trans h3, h4.trans ⟨es, hlog.symm⟩⟩

theorem Steadies.wrote (h : Steadies s s') (hw : Wrote s s' ack) : ack = s.rcv.rcvNxt := by
  have hall : ∃ es, s'.log = s.log ++ es ∧
      ∀ p r, .tcpWritePacket p r ∈ es → p.ack = s.rcv.rcvNxt := by
    clear hw
    induction h with
    | refl => exact ⟨[], by simp, by simp⟩
    | tail hpre hm ih =>
      obtain ⟨es, hlog, hes⟩ := ih
      obtain ⟨es', hlog', hes'⟩ := hm.log
      refine ⟨es ++ es', by rw [hlog', hlog, List.append_assoc], ?_⟩
      intro p r hmem
      rcases List.mem_append.mp hmem with hp | hp
      · exact hes p r hp
      · rcases hes' _ hp with ⟨p', r', he, -, hack, -⟩ | he
        · cases he
          exact hack.trans (Steadies.frame hpre).2.1
        · cases he
  obtain ⟨es, hlog, hes⟩ := hall
  obtain ⟨p, r, hmem, rfl⟩ := (wrote_iff hlog).mp hw
  exact hes p r hmem

/-! ## The obligation -/

def AckGiven (s : PseudoTcp) (seg : Segment) : Prop :=
  Wrote s (s.process seg).1 (s.process seg).1.rcv.rcvNxt ∨ (s.process seg).1.tAck ≠ 0

/-- **The acknowledgement part of `process`**, on a data segment. -/
structure AckPart (s : PseudoTcp) (seg : Segment) (t : PseudoTcp) : Prop where
  accounts : Accounts t
  state : t.state = s.state
  rcvNxt : t.rcv.rcvNxt = s.rcv.rcvNxt
  rbuf : t.rcv.rbuf = s.rcv.rbuf
  clock : ∃ n, t.clock = fun i => s.clock (i + n)
  log : s.log <+: t.log
  wrote : ∀ ack, Wrote s t ack → ack = s.rcv.rcvNxt
  sends : if s.retransmits seg then t.tAck = 0 ∧ Wrote s t s.rcv.rcvNxt
    else t.tAck = s.tAck ∧ t.log = s.log

theorem ackPart_afterAck (h : Accounts s) (hlen : seg.len ≠ 0)
    (hok : ((s.noteTraffic.updateTimestamp seg).handleAck seg s.now).2 = true) :
    AckPart s seg (s.afterAck seg) := by
  have hquiet : Quiet s s.noteTraffic := .of_silent rfl rfl rfl
  have hn : Quiets s (s.noteTraffic.updateTimestamp seg) :=
    .head hquiet (Quiets.updateTimestamp _ _)
  have hfields : (s.noteTraffic.updateTimestamp seg).log = s.log ∧
      (s.noteTraffic.updateTimestamp seg).tAck = s.tAck ∧
      (s.noteTraffic.updateTimestamp seg).rcv.rcvNxt = s.rcv.rcvNxt ∧
      (s.noteTraffic.updateTimestamp seg).retransmits seg = s.retransmits seg ∧
      (s.noteTraffic.updateTimestamp seg).clock = fun i => s.clock (i + 1) := by
    unfold updateTimestamp
    split_ifs <;> exact ⟨rfl, rfl, rfl, rfl, rfl⟩
  obtain ⟨hlog, htAck, hnxt, hretr, hclk⟩ := hfields
  have hsteady : Steady s s.noteTraffic := .of_silent rfl rfl rfl
  have hst : Steadies s (s.afterAck seg) :=
    (ReflTransGen.head hsteady (Steadies.ackRule.updateTimestamp _ _)).trans
      (Steadies.ackRule.handleAck (s.noteTraffic.updateTimestamp seg) seg s.now)
  obtain ⟨hstate, hrcvNxt, hrbuf, hpre⟩ := hst.frame
  obtain ⟨u, hq, he⟩ : ∃ u, Queues .connect (some seg) _ u ∧ Emits u _ :=
    handleAck_moves (s.noteTraffic.updateTimestamp seg) rfl s.now
  obtain ⟨hsends, n, hclock⟩ := handleAck_acks (h.quiets hn) hlen hok
  refine ⟨((h.quiets hn).queues hq).emits he, hstate, hrcvNxt, hrbuf, ⟨n + 1, ?_⟩, hpre,
    fun ack => hst.wrote, ?_⟩
  · rw [afterAck, hclock, hclk]
    rfl
  · simp only [Wrote, hlog, htAck, hnxt, hretr] at hsends
    exact hsends

/-- **The payload part of `process`** writes or starts the timer, unless Nagle holds data back. -/
structure DataPart (s : PseudoTcp) (seg : Segment) (t : PseudoTcp) : Prop where
  log : s.log <+: t.log
  rcvNxt : ¬ s.InOrder seg → t.rcv.rcvNxt = s.rcv.rcvNxt
  acks : s.holdsBack = false → Wrote s t t.rcv.rcvNxt ∨ t.tAck ≠ 0
  drops : s.holdsBack = true → t.tAck = s.tAck ∧ ∃ es, t.log = s.log ++ es ∧
    ∀ p r, .tcpWritePacket p r ∉ es

theorem notifyReadable_frame (s : PseudoTcp) (bNewData : Bool) :
    (s.notifyReadable bNewData).tAck = s.tAck ∧ (s.notifyReadable bNewData).rcv = s.rcv ∧
      ∃ es, (s.notifyReadable bNewData).log = s.log ++ es ∧ ∀ p r, .tcpWritePacket p r ∉ es := by
  unfold notifyReadable
  split_ifs
  · exact ⟨rfl, rfl, [.onTcpReadable], rfl, by simp⟩
  · exact ⟨rfl, rfl, [], by simp, by simp⟩

theorem notifyWriteable_frame (s : PseudoTcp) :
    s.notifyWriteable.tAck = s.tAck ∧ s.notifyWriteable.rcv = s.rcv ∧
      s.notifyWriteable.holdsBack = s.holdsBack ∧ s.notifyWriteable.clock = s.clock ∧
      ∃ es, s.notifyWriteable.log = s.log ++ es ∧ ∀ p r, .tcpWritePacket p r ∉ es := by
  have hpart : s.notifyWriteable.sendPart = s.sendPart := by
    unfold notifyWriteable
    simp only
    split_ifs <;> rfl
  refine ⟨?_, ?_, holdsBack_congr hpart, congrArg Prod.fst hpart, ?_⟩
  all_goals
    unfold notifyWriteable
    simp only
    split_ifs
  · rfl
  · rfl
  · rfl
  · rfl
  · exact ⟨[.onTcpWriteable], rfl, by simp⟩
  · exact ⟨[], by simp, by simp⟩

theorem dataPart_processData (h : Accounts s) (hest : s.state = .established)
    (hclock : ∀ n, s.clock n ≠ 0) (hlen : seg.len ≠ 0) :
    DataPart s seg (s.processData seg false) := by
  have hopen : s.openIfSynReceived false = s := by
    rw [openIfSynReceived, hest, if_neg (by decide)]
  unfold processData
  rw [hopen]
  obtain ⟨hb1, hb2, hb3, hb4, es, hblog, hbes⟩ := notifyWriteable_frame s
  have hbacc : Accounts s.notifyWriteable := h.quiets (Quiets.notifyWriteable s)
  have hord : s.notifyWriteable.trim seg = s.trim seg := trim_congr (by rw [hb2]) (by rw [hb2]) seg
  simp only
  rw [hord]
  generalize s.notifyWriteable = b at *
  have hflags := receive_flags (s := b) (g := s.trim seg) (ackFlags_data (s := b) hlen)
  have hnxt : ¬ s.InOrder seg →
      (b.receive (s.trim seg) (b.ackFlags seg)).1.rcv.rcvNxt = s.rcv.rcvNxt := by
    intro hno
    rw [InOrder, ← hb2] at hno
    rw [receive_rcvNxt hno, hb2]
  have hframe := RecvFrame.receive b (s.trim seg) (b.ackFlags seg)
  have hracc := hbacc.quiet hframe.quiet
  generalize b.receive (s.trim seg) (b.ackFlags seg) = r at *
  have hr : r.1.log = b.log ∧ r.1.tAck = b.tAck ∧ r.1.holdsBack = b.holdsBack ∧
      r.1.clock = b.clock := by
    obtain ⟨i, fs, hr, -⟩ := hframe
    exact ⟨by rw [hr], by rw [hr], holdsBack_congr (by rw [hr]; rfl), by rw [hr]⟩
  obtain ⟨hrlog, hrtAck, hrhold, hrclk⟩ := hr
  have hu := SendFrame.attemptSend r.1 r.2.1
  obtain ⟨hf1, hf2, es', hflog, hfes⟩ := notifyReadable_frame (r.1.attemptSend r.2.1) r.2.2
  have hack : s.holdsBack = false → _ := fun hh =>
    attemptSend_acks hracc (hrhold.trans (hb3.trans hh)) (by rw [hrclk, hb4]; exact hclock) hflags
  have hdrop : s.holdsBack = true → _ := fun hh =>
    attemptSend_holdsBack hracc (hrhold.trans (hb3.trans hh)) r.2.1
  generalize r.1.attemptSend r.2.1 = u at *
  have hsu : s.log <+: u.log := by
    obtain ⟨es'', hulog, -⟩ := hu.log
    exact ⟨es ++ es'', by rw [hulog, hrlog, hblog, List.append_assoc]⟩
  have huf : u.log <+: (u.notifyReadable r.2.2).log := ⟨es', hflog.symm⟩
  refine ⟨hsu.trans huf, fun hno => ?_, fun hh => ?_, fun hh => ?_⟩
  · rw [hf2, hu.rcv]
    exact hnxt hno
  · rw [hf1, hf2, hu.rcv]
    rcases hack hh with hlt | hne
    · refine .inl (((hu.wrote hlt).mono huf).earlier ?_)
      rw [hrlog, hblog, List.length_append]
      exact Nat.le_add_right _ _
    · exact .inr hne
  · obtain ⟨hlog, htAck⟩ := hdrop hh
    refine ⟨by rw [hf1, htAck, hrtAck, hb1], es ++ es', ?_, fun p r hm => ?_⟩
    · rw [hflog, hlog, hrlog, hblog, List.append_assoc]
    · rcases List.mem_append.mp hm with hm | hm
      · exact hbes p r hm
      · exact hfes p r hm

def AckCondition (s : PseudoTcp) (seg : Segment) : Prop :=
  (s.afterAck seg).holdsBack = false ∨
    if s.retransmits seg then ¬ s.InOrder seg else s.tAck ≠ 0

/-- **The acknowledgement obligation**: a data segment that is accepted, and moves `m_rcv_nxt` or is
out of order, is acknowledged if and only if `AckCondition` holds. -/
theorem ackGiven_iff (w : World) (conv : Uint32) (ops : List Op) (seg : Segment)
    (hest : (run step (new w conv) ops).state = .established)
    (hclock : ∀ n, (run step (new w conv) ops).clock n ≠ 0)
    (hctl : seg.flags &&& flagCtl = 0) (hlen : seg.len ≠ 0)
    (hok : ((run step (new w conv) ops).process seg).2 = true)
    (hmoves : ((run step (new w conv) ops).process seg).1.rcv.rcvNxt ≠
      (run step (new w conv) ops).rcv.rcvNxt ∨ ¬ (run step (new w conv) ops).InOrder seg) :
    (run step (new w conv) ops).AckGiven seg ↔ (run step (new w conv) ops).AckCondition seg := by
  have hacc := accounts_run w conv ops
  generalize run step (new w conv) ops = s at *
  obtain ⟨hok', hdata⟩ := process_data hctl hok
  have ha := ackPart_afterAck hacc hlen hok'
  have hclock' : ∀ n, (s.afterAck seg).clock n ≠ 0 := by
    obtain ⟨k, hk⟩ := ha.clock
    intro n
    rw [hk]
    exact hclock _
  have hd := dataPart_processData ha.accounts (ha.state.trans hest) hclock' hlen
  have horder : (s.afterAck seg).InOrder seg ↔ s.InOrder seg := by
    unfold InOrder
    rw [trim_congr ha.rcvNxt ha.rbuf, ha.rcvNxt]
  have hsends := ha.sends
  unfold AckGiven AckCondition
  rw [hdata] at hmoves ⊢
  generalize (s.afterAck seg).processData seg false = t at *
  generalize s.afterAck seg = a at *
  have hstay : ¬ s.InOrder seg → t.rcv.rcvNxt = s.rcv.rcvNxt := fun hno =>
    (hd.rcvNxt (mt horder.mp hno)).trans ha.rcvNxt
  constructor
  · intro hgiven
    by_cases hh : a.holdsBack = true
    · right
      obtain ⟨htAck, es, hlog, hes⟩ := hd.drops hh
      by_cases hretr : s.retransmits seg = true
      · rw [if_pos hretr] at hsends ⊢
        rcases hgiven with hw | hne
        · -- the packets of the acknowledgement part carry the old `m_rcv_nxt`
          exact hmoves.resolve_left (not_not.mpr (ha.wrote _ (hw.of_append hlog hes)))
        · exact absurd (htAck.trans hsends.1) hne
      · rw [if_neg hretr] at hsends ⊢
        rcases hgiven with hw | hne
        · exact absurd (hw.of_append hlog hes) (not_wrote_of_log hsends.2)
        · rw [htAck, hsends.1] at hne
          exact hne
    · exact .inl (by simpa using hh)
  · intro hcond
    by_cases hh : a.holdsBack = true
    · obtain ⟨htAck, -⟩ := hd.drops hh
      replace hcond := hcond.resolve_left (by rw [hh]; decide)
      by_cases hretr : s.retransmits seg = true
      · rw [if_pos hretr] at hsends hcond
        left
        rw [hstay hcond]
        exact hsends.2.mono hd.log
      · rw [if_neg hretr] at hsends hcond
        right
        rw [htAck, hsends.1]
        exact hcond
    · rcases hd.acks (by simpa using hh) with hw | hne
      · exact .inl (hw.earlier ha.log.length_le)
      · exact .inr hne

def acknowledges (ack : Uint32) : Event → Bool
  | .tcpWritePacket p _ => p.ack = ack
  | _ => false

theorem wrote_iff_any : (s'.log.drop s.log.length).any (acknowledges ack) = true ↔ Wrote s s' ack := by
  rw [List.any_eq_true]
  constructor
  · rintro ⟨e, hmem, he⟩
    cases e with
    | tcpWritePacket p r => exact ⟨p, r, hmem, of_decide_eq_true he⟩
    | _ => cases he
  · rintro ⟨p, r, hmem, hack⟩
    exact ⟨_, hmem, decide_eq_true hack⟩

instance (s s' : PseudoTcp) (ack : Uint32) : Decidable (Wrote s s' ack) :=
  decidable_of_iff _ wrote_iff_any

instance (s : PseudoTcp) (seg : Segment) : Decidable (s.AckGiven seg) :=
  inferInstanceAs (Decidable (_ ∨ _))

/-- One byte is in flight, one waits because of Nagle. -/
def nagleOps : List Op :=
  [.connect, .packet connectReply, .send (ptr [1]) 1, .send (ptr [2]) 1]

theorem clock_nagleOps (n : ℕ) : (run step (new calmWorld 0) nagleOps).clock n ≠ 0 := by
  have h : (run step (new calmWorld 0) nagleOps).clock = fun _ => 1 := rfl
  rw [h]
  exact (by decide : (1 : Uint32) ≠ 0)

theorem ackGiven_acking : (run step (new calmWorld 0) nagleOps).AckGiven { dataSegment 4 [9] with ack := 5 } :=
  (ackGiven_iff calmWorld 0 nagleOps { dataSegment 4 [9] with ack := 5 } (by decide)
    clock_nagleOps (by decide) (by decide) (by decide) (.inl (by decide))).mpr
    (.inl (by decide))

/-- A segment that does not is received, but nothing is sent and no timer started. -/
theorem ack_dropped :
    (run step (new calmWorld 0) nagleOps).state = .established ∧
      (∀ n, (run step (new calmWorld 0) nagleOps).clock n ≠ 0) ∧
      ((run step (new calmWorld 0) nagleOps).process (dataSegment 4 [9])).2 = true ∧
      ((run step (new calmWorld 0) nagleOps).process (dataSegment 4 [9])).1.rcv.rcvNxt ≠
        (run step (new calmWorld 0) nagleOps).rcv.rcvNxt ∧
      ¬ (run step (new calmWorld 0) nagleOps).AckGiven (dataSegment 4 [9]) :=
  ⟨by decide, clock_nagleOps, by decide, by decide, by decide⟩

end PseudoTcp

end Libjingle
