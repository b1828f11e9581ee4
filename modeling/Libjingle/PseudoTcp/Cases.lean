import Libjingle.PseudoTcp.Frame
import Libjingle.PseudoTcp.Api

/-!
# What the larger functions come to

A retransmission may succeed or fail, and what follows it differs by a few members. Here each of the
functions that retransmit is turned into a short list of outcomes, which the proofs about it go through.

Main result: **`notifyClock_rel`**.
-/

namespace Libjingle

namespace PseudoTcp

variable {s : PseudoTcp} {now : Uint32}

/-! ## Acknowledgements -/

/-- What an acknowledgement does to the congestion window. -/
theorem ackCongestion_cases (s : PseudoTcp) (nAcked now : Uint32) :
    (∃ cwnd, (s.ackCongestion nAcked now).1 = { s with cwnd := cwnd, dupAcks := 0 }) ∨
      (s.dupAcks ≥ 3 ∧ s.snd.sndUna < s.recover ∧ ∃ cwnd,
        (s.ackCongestion nAcked now).1 = { (s.transmitFront now).1 with cwnd := cwnd }) := by
  unfold ackCongestion
  split_ifs with h3 hrec
  · exact .inl ⟨_, rfl⟩
  · refine .inr ⟨h3, BitVec.not_le.mp hrec, ?_⟩
    split
    · next t heq => exact ⟨_, by rw [heq]⟩
    · next t heq => exact ⟨_, by rw [heq]⟩
  all_goals exact .inl ⟨_, rfl⟩

/-- What a duplicate acknowledgement does. -/
theorem duplicateAck_cases (s : PseudoTcp) (now : Uint32) :
    (∃ cwnd, (s.duplicateAck now).1 = { s with dupAcks := s.dupAcks + 1, cwnd := cwnd }) ∨
      ∃ t, t = (({ s with dupAcks := s.dupAcks + 1 } : PseudoTcp).transmitFront now).1 ∧
        s.dupAcks + 1 = 3 ∧ ∃ recover ssthresh cwnd, (recover = t.recover ∨ recover = t.snd.sndNxt) ∧
          (s.duplicateAck now).1 = { t with
            recover := recover, ssthresh := ssthresh, cwnd := cwnd } := by
  unfold duplicateAck
  simp only
  split_ifs with h3
  · refine .inr ⟨_, rfl, h3, ?_⟩
    split
    · next t heq => exact ⟨_, _, _, .inr rfl, by rw [heq]⟩
    · next t heq => exact ⟨_, _, _, .inl rfl, by rw [heq]⟩
  · exact .inl ⟨_, rfl⟩
  · exact .inl ⟨_, rfl⟩

/-- The kinds of acknowledgements. -/
theorem handleAck_cases (s : PseudoTcp) (seg : Segment) (now : Uint32) :
    (s.isValuable seg.ack = true ∧ ∃ t, t = s.updateRtt seg.tsecr now ∧ s.handleAck seg now =
        (({ t with snd.sndWnd := t.announcedWindow seg } : PseudoTcp).advanceUna
          seg.ack now).ackCongestion (seg.ack - s.snd.sndUna) now) ∨
      (s.isValuable seg.ack = false ∧ seg.ack = s.snd.sndUna ∧
        ∃ t, t = ({ s with snd.sndWnd := s.announcedWindow seg } : PseudoTcp) ∧
          (s.handleAck seg now = (t, true) ∨ s.handleAck seg now = ({ t with dupAcks := 0 }, true) ∨
            (s.snd.sndUna ≠ s.snd.sndNxt ∧ s.handleAck seg now = t.duplicateAck now))) ∨
      (s.isValuable seg.ack = false ∧ s.handleAck seg now = (s, true)) := by
  unfold handleAck
  by_cases hv : s.isValuable seg.ack = true
  · rw [if_pos hv]
    exact .inl ⟨hv, _, rfl, rfl⟩
  rw [if_neg hv]
  replace hv : s.isValuable seg.ack = false := by simpa using hv
  by_cases hack : seg.ack = s.snd.sndUna
  · rw [if_pos hack]
    refine .inr (.inl ⟨hv, hack, _, rfl, ?_⟩)
    simp only
    split_ifs with hlen hin
    · exact .inl rfl
    · exact .inr (.inr ⟨hin, rfl⟩)
    · exact .inr (.inl rfl)
  · rw [if_neg hack]
    exact .inr (.inr ⟨hv, rfl⟩)

/-! ## `NotifyClock` -/

/-- What the retransmission timer does. -/
theorem clockRetransmit_cases (s : PseudoTcp) (now : Uint32) :
    s.clockRetransmit now = (s, true) ∨
      (s.rtoBase ≠ 0 ∧
        ((s.snd.slist = [] ∧ s.clockRetransmit now = (s.check .clockEmpty false, true)) ∨
          (s.snd.slist ≠ [] ∧ ∃ t, t = (s.transmitFront now).1 ∧
            (s.clockRetransmit now = (t.closedown .econnaborted, false) ∨
              ∃ ssthresh rxRto, s.clockRetransmit now = ({ t with
                ssthresh := ssthresh, cwnd := t.mss, rxRto := rxRto, rtoBase := now }, true))))) := by
  unfold clockRetransmit
  split_ifs with hdue hnil
  · exact .inr ⟨hdue.1, .inl ⟨hnil, rfl⟩⟩
  · refine .inr ⟨hdue.1, .inr ⟨hnil, _, rfl, ?_⟩⟩
    split
    · next t heq => exact .inl (by rw [heq])
    · next t heq => exact .inr ⟨_, _, by rw [heq]⟩
  · exact .inl rfl

/-- What the probe of a closed window does. -/
theorem clockProbe_cases (s : PseudoTcp) (now : Uint32) :
    s.clockProbe now = (s, true) ∨ s.clockProbe now = (s.closedown .econnaborted, false) ∨
      ∃ rxRto, s.clockProbe now = ({ (s.packet (s.snd.sndNxt - 1) 0 0 0).1 with
        snd.lastsend := now, rxRto := rxRto }, true) := by
  unfold clockProbe
  split_ifs
  · exact .inr (.inl rfl)
  · exact .inr (.inr ⟨_, rfl⟩)
  · exact .inl rfl

/-- **A preorder that holds for the three parts of `NotifyClock` holds for all of it**. -/
theorem notifyClock_rel {R : PseudoTcp → PseudoTcp → Prop} (hrefl : ∀ s, R s s)
    (htrans : ∀ {a b c}, R a b → R b c → R a c) (hretransmit : R s (s.clockRetransmit now).1)
    (hprobe : ∀ t, R t (t.clockProbe now).1) (hack : ∀ t, R t (t.packet t.snd.sndNxt 0 0 0).1) :
    R s (s.notifyClock now) := by
  unfold notifyClock
  split_ifs
  · exact hrefl s
  · split
    · next t heq =>
      rw [heq] at hretransmit
      exact hretransmit
    · next t heq =>
      rw [heq] at hretransmit
      have hprobe' := hprobe t
      split
      · next t' heq' =>
        rw [heq'] at hprobe'
        exact htrans hretransmit hprobe'
      · next t' heq' =>
        rw [heq'] at hprobe'
        refine htrans (htrans hretransmit hprobe') ?_
        unfold clockAck
        split_ifs
        · exact hack t'
        · exact hrefl t'

/-! ## Acknowledgements as a rule -/

/-- An assertion about what is queued and acknowledged. -/
def Fault.IsAck : Fault → Prop
  | .queueCtrl | .negativeRtt | .consumeRead | .ackEmpty => True
  | _ => False

/-- What an acknowledgement leaves alone, apart from what it sends. -/
def restPart (s : PseudoTcp) :=
  (s.state, s.conv, s.shutdown, s.heap, s.rcv, s.readEnable, s.mss, s.msslevel, s.mtuAdvise, s.log, s.faults)

/-- **A preorder that holds for the parts of an acknowledgement.** -/
structure AckRule (R : PseudoTcp → PseudoTcp → Prop) : Prop where
  refl : ∀ s, R s s
  trans : ∀ {a b c}, R a b → R b c → R a c
  silent : ∀ {a b}, b.restPart = a.restPart → R a b
  check : ∀ s fault, Fault.IsAck fault → ∀ c, R s (s.check fault c)
  transmitFront : ∀ s now, R s (s.transmitFront now).1

namespace AckRule

variable {R : PseudoTcp → PseudoTcp → Prop}

theorem queue (h : AckRule R) (s : PseudoTcp) (data : ℕ → Uint8) (len : Uint32) (bCtrl : Bool) :
    R s (s.queue data len bCtrl).1 :=
  h.trans (h.check s .queueCtrl trivial _) (h.silent rfl)

theorem queueConnectMessage (h : AckRule R) (s : PseudoTcp) : R s s.queueConnectMessage := by
  have hwnd : R s { s with snd.sndWnd := u32 s.connectMessage.length } := h.silent rfl
  exact h.trans hwnd (h.queue _ _ _ _)

theorem updateTimestamp (h : AckRule R) (s : PseudoTcp) (seg : Segment) : R s (s.updateTimestamp seg) := by
  unfold PseudoTcp.updateTimestamp
  split_ifs
  · exact h.silent rfl
  · exact h.refl s

theorem updateRtt (h : AckRule R) (s : PseudoTcp) (tsecr now : Uint32) : R s (s.updateRtt tsecr now) := by
  unfold PseudoTcp.updateRtt
  split_ifs
  · exact h.refl s
  · exact h.check s .negativeRtt trivial _
  all_goals exact h.silent rfl

theorem advanceUna (h : AckRule R) (s : PseudoTcp) (ack now : Uint32) : R s (s.advanceUna ack now) := by
  have hstart : R s { s with
      snd.sndUna := ack, rtoBase := if ack = s.snd.sndNxt then 0 else now } := h.silent rfl
  exact h.trans hstart (h.trans (h.check _ .consumeRead trivial _)
    (h.trans (h.check _ .ackEmpty trivial _) (h.silent rfl)))

theorem ackCongestion (h : AckRule R) (s : PseudoTcp) (nAcked now : Uint32) : R s (s.ackCongestion nAcked now).1 := by
  rcases ackCongestion_cases s nAcked now with ⟨cwnd, heq⟩ | ⟨-, -, cwnd, heq⟩
  · rw [heq]
    exact h.silent rfl
  · rw [heq]
    exact h.trans (h.transmitFront s now) (h.silent rfl)

theorem duplicateAck (h : AckRule R) (s : PseudoTcp) (now : Uint32) : R s (s.duplicateAck now).1 := by
  have hdup : R s { s with dupAcks := s.dupAcks + 1 } := h.silent rfl
  rcases duplicateAck_cases s now with ⟨cwnd, heq⟩ | ⟨t, ht, -, recover, ssthresh, cwnd, -, heq⟩
  · rw [heq]
    exact h.silent rfl
  · rw [heq]
    have hfront : R s t := ht ▸ h.trans hdup (h.transmitFront _ now)
    exact h.trans hfront (h.silent rfl)

/-- It holds for the acknowledgement as a whole. -/
theorem handleAck (h : AckRule R) (s : PseudoTcp) (seg : Segment) (now : Uint32) : R s (s.handleAck seg now).1 := by
  rcases handleAck_cases s seg now with ⟨-, t, ht, heq⟩ | ⟨-, -, t, ht, heq⟩ | ⟨-, heq⟩
  · rw [heq]
    have hrtt : R s t := ht ▸ h.updateRtt s seg.tsecr now
    have hwnd : R t { t with snd.sndWnd := t.announcedWindow seg } := h.silent rfl
    exact h.trans hrtt (h.trans hwnd (h.trans (h.advanceUna _ _ _) (h.ackCongestion _ _ _)))
  · have hwnd : R s t := ht ▸ h.silent rfl
    rcases heq with heq | heq | ⟨-, heq⟩
    · rw [heq]
      exact hwnd
    · rw [heq]
      exact h.trans hwnd (h.silent rfl)
    · rw [heq]
      exact h.trans hwnd (h.duplicateAck t now)
  · rw [heq]
    exact h.refl s

end AckRule

end PseudoTcp

end Libjingle
