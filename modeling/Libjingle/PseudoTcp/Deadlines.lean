import Libjingle.PseudoTcp.Clock
import Libjingle.PseudoTcp.Frame

/-!
# The deadlines after `Send` and `Recv`

Main results: **`getNextClock_cases`**, **`send_settles`**, **`recv_settles`**.
-/

variable {sflags : SendFlags}

namespace Libjingle

namespace PseudoTcp

variable {s s' t : PseudoTcp} {now : Uint32}

/-! ## The first round -/

def roundSends (s : PseudoTcp) (now : Uint32) : Bool :=
  let s := s.check .inFlight (s.nInFlight ≤ u32 s.snd.sbuf.getBuffered)
  if s.nAvailable = 0 then false
  else if s.nagleHolds then false
  else
    match nextSegment s.snd.slist with
    | (_, []) => false
    | (before, seg :: after) => (s.sendSegment before seg after s.nAvailable now).2

/-- Whether `attemptSend` transmits a segment in its first round. -/
def attemptSends (s : PseudoTcp) : Bool := s.beforeLoop.roundSends s.now

/-- No timer is started. -/
structure Resting (s s' : PseudoTcp) : Prop where
  tAck : s'.tAck = s.tAck ∨ s'.tAck = 0
  rtoBase : s'.rtoBase = s.rtoBase
  lastsend : s'.snd.lastsend = s.snd.lastsend

/-- `m_rto_base` after a segment was transmitted. -/
def startedBase (s : PseudoTcp) (now : Uint32) : Uint32 := if s.rtoBase = 0 then now else s.rtoBase

/-- The timers are as before or have been started now. -/
structure Winding (now : Uint32) (s s' : PseudoTcp) : Prop where
  tAck : s'.tAck = s.tAck ∨ s'.tAck = 0
  rtoBase : s'.rtoBase = s.rtoBase ∨ s'.rtoBase = s.startedBase now

/-- A segment has been transmitted now. -/
structure Sent (now : Uint32) (s s' : PseudoTcp) : Prop where
  tAck : s'.tAck = 0
  rtoBase : s'.rtoBase = s.startedBase now
  sndWnd : s.snd.sndWnd ≠ 0

/-- A segment was transmitted if `sends`, and no timer is started otherwise. -/
structure Timers (now : Uint32) (s s' : PseudoTcp) (sends : Bool) : Prop where
  sent : sends = true → Sent now s s'
  resting : sends = false → Resting s s'

theorem tAck_trans {a b c : Uint32} (h : b = a ∨ b = 0) (h' : c = b ∨ c = 0) : c = a ∨ c = 0 := by
  rcases h' with rfl | h'
  · exact h
  · exact .inr h'

theorem Resting.of_eq (htAck : s'.tAck = s.tAck) (hbase : s'.rtoBase = s.rtoBase)
    (hlast : s'.snd.lastsend = s.snd.lastsend) : Resting s s' := ⟨.inl htAck, hbase, hlast⟩

theorem Resting.refl (s : PseudoTcp) : Resting s s := .of_eq rfl rfl rfl

theorem Resting.trans (h : Resting s t) (h' : Resting t s') : Resting s s' :=
  ⟨tAck_trans h.tAck h'.tAck, h'.rtoBase.trans h.rtoBase, h'.lastsend.trans h.lastsend⟩

theorem Resting.check (s : PseudoTcp) (fault : Fault) (c : Bool) : Resting s (s.check fault c) := by
  rw [check_eq]
  exact .of_eq rfl rfl rfl

theorem Resting.beforeLoop (s : PseudoTcp) : Resting s s.beforeLoop := by
  unfold PseudoTcp.beforeLoop
  split_ifs <;> exact .of_eq rfl rfl rfl

theorem Resting.winding (h : Resting s s') : Winding now s s' := ⟨h.tAck, .inl h.rtoBase⟩

theorem Sent.winding (h : Sent now s s') : Winding now s s' := ⟨.inr h.tAck, .inr h.rtoBase⟩

theorem Winding.refl (s : PseudoTcp) : Winding now s s := (Resting.refl s).winding

theorem startedBase_idem (h : t.rtoBase = s.startedBase now) : t.startedBase now = s.startedBase now := by
  rw [startedBase, h, startedBase]
  split_ifs <;> simp_all

theorem startedBase_congr (h : t.rtoBase = s.rtoBase) : t.startedBase now = s.startedBase now := by
  rw [startedBase, startedBase, h]

theorem Winding.trans (h : Winding now s t) (h' : Winding now t s') : Winding now s s' := by
  refine ⟨tAck_trans h.tAck h'.tAck, ?_⟩
  rcases h'.rtoBase with hbase | hbase
  · rw [hbase]
    exact h.rtoBase
  · rw [hbase]
    rcases h.rtoBase with ht | ht
    · exact .inr (startedBase_congr ht)
    · exact .inr (startedBase_idem ht)

theorem Sent.winding_trans (h : Sent now s t) (h' : Winding now t s') : Sent now s s' where
  tAck := h'.tAck.elim (fun heq => heq.trans h.tAck) id
  rtoBase := by
    rcases h'.rtoBase with hbase | hbase
    · exact hbase.trans h.rtoBase
    · exact hbase.trans (startedBase_idem h.rtoBase)
  sndWnd := h.sndWnd

theorem Resting.sent_trans (h : Resting s t) (hwnd : t.snd.sndWnd = s.snd.sndWnd) (h' : Sent now t s') :
    Sent now s s' :=
  ⟨h'.tAck, h'.rtoBase.trans (startedBase_congr h.rtoBase), hwnd ▸ h'.sndWnd⟩

theorem Resting.timers (h : Resting s s') : Timers now s s' false := ⟨nofun, fun _ => h⟩

theorem Sent.timers (h : Sent now s s') : Timers now s s' true := ⟨fun _ => h, nofun⟩

theorem Resting.timers_trans (h : Resting s t) (hwnd : t.snd.sndWnd = s.snd.sndWnd) {sends : Bool}
    (h' : Timers now t s' sends) : Timers now s s' sends :=
  ⟨fun hs => h.sent_trans hwnd (h'.sent hs), fun hs => h.trans (h'.resting hs)⟩

/-! ## Packets -/

theorem packet_timers (s : PseudoTcp) (seq : Uint32) (flags : Uint8) (offset len : Uint32) :
    (s.packet seq flags offset len).1.rtoBase = s.rtoBase ∧
      ((s.packet seq flags offset len).2 = .success ∧ (s.packet seq flags offset len).1.tAck = 0 ∨
        (s.packet seq flags offset len).2 ≠ .success ∧ Resting s (s.packet seq flags offset len).1) := by
  rw [packet_eq]
  dsimp only
  split_ifs with hfail
  · exact ⟨rfl, .inr ⟨hfail.1, .of_eq rfl rfl rfl⟩⟩
  · exact ⟨rfl, .inl ⟨rfl, rfl⟩⟩
  · exact ⟨rfl, .inl ⟨rfl, rfl⟩⟩

theorem Resting.ack (s : PseudoTcp) (seq : Uint32) : Resting s (s.packet seq 0 0 0).1 := by
  rw [packet_eq]
  simp only [ne_eq, not_true_eq_false, and_false, if_false]
  exact ⟨.inr rfl, rfl, rfl⟩

/-- The packet went out, or no timer was started. -/
def Outcome (s : PseudoTcp) (r : PseudoTcp × Option Uint32) : Prop :=
  r.1.rtoBase = s.rtoBase ∧ (r.2.isSome ∧ r.1.tAck = 0 ∨ r.2 = none ∧ Resting s r.1)

theorem Outcome.of_resting (h : Resting s t) {r : PseudoTcp × Option Uint32} (hr : Outcome t r) : Outcome s r :=
  ⟨hr.1.trans h.rtoBase, hr.2.imp id fun hnone => ⟨hnone.1, h.trans hnone.2⟩⟩

theorem retryPacket_outcome (seg : SSegment) (table : List Uint16) (n : Uint32) (s : PseudoTcp) :
    Outcome s (retryPacket seg table n s) := by
  induction table generalizing n s with
  | nil => exact ⟨rfl, .inr ⟨rfl, .refl s⟩⟩
  | cons mtu table ih =>
    have hlower : Resting s (s.lowerMss mtu) := .of_eq rfl rfl rfl
    simp only [retryPacket]
    split_ifs with hzero hless
    · exact ⟨rfl, .inr ⟨rfl, .refl s⟩⟩
    · obtain ⟨hbase, hout⟩ := packet_timers (s.lowerMss mtu) seg.seq seg.flags
        (seg.seq - (s.lowerMss mtu).snd.sndUna) (s.lowerMss mtu).mss
      refine Outcome.of_resting hlower ?_
      split
      · next s₁ heq =>
        rw [heq] at hbase hout
        exact ⟨hbase, .inl ⟨rfl, (hout.resolve_right fun h => h.1 rfl).2⟩⟩
      · next s₁ heq =>
        rw [heq] at hbase hout
        exact ⟨hbase, .inr ⟨rfl, (hout.resolve_left fun h => by cases h.1).2⟩⟩
      · next s₁ heq =>
        rw [heq] at hbase hout
        exact .of_resting (hout.resolve_left fun h => by cases h.1).2 (ih _ _)
    · exact .of_resting hlower (ih _ _)

theorem transmitPacket_outcome (s : PseudoTcp) (seg : SSegment) (n : Uint32) :
    Outcome s (s.transmitPacket seg n) := by
  obtain ⟨hbase, hout⟩ := packet_timers s seg.seq seg.flags (seg.seq - s.snd.sndUna) n
  unfold transmitPacket
  split
  · next s₁ heq =>
    rw [heq] at hbase hout
    exact ⟨hbase, .inl ⟨rfl, (hout.resolve_right fun h => h.1 rfl).2⟩⟩
  · next s₁ heq =>
    rw [heq] at hbase hout
    exact ⟨hbase, .inr ⟨rfl, (hout.resolve_left fun h => by cases h.1).2⟩⟩
  · next s₁ heq =>
    rw [heq] at hbase hout
    exact .of_resting (hout.resolve_left fun h => by cases h.1).2 (retryPacket_outcome ..)

theorem transmit_timers (s : PseudoTcp) (before : List SSegment) (seg : SSegment) (after : List SSegment)
    (now : Uint32) (hwnd : s.snd.sndWnd ≠ 0) :
    Timers now s (s.transmit before seg after now).1 (s.transmit before seg after now).2 := by
  have hout := transmitPacket_outcome s seg (min32 seg.len s.mss)
  rcases transmit_cases s before seg after now with ⟨h, -⟩ | ⟨s₁, hs, h⟩ | ⟨s₁, m, hs, -, h⟩
  · rw [h]
    exact (Resting.refl s).timers
  · rw [hs] at hout
    rw [h]
    exact Resting.timers (hout.2.resolve_left fun hsome => by cases hsome.1).2
  · rw [hs] at hout
    rw [h]
    exact Sent.timers
      ⟨(hout.2.resolve_right fun hnone => by cases hnone.1).2, startedBase_congr hout.1, hwnd⟩

theorem sendSegment_timers (s : PseudoTcp) (before : List SSegment) (seg : SSegment)
    (after : List SSegment) (n now : Uint32) (hwnd : s.snd.sndWnd ≠ 0) :
    Timers now s (s.sendSegment before seg after n now).1 (s.sendSegment before seg after n now).2 := by
  have hcut (slist : List SSegment) : Resting s { s with snd.slist := slist } := .of_eq rfl rfl rfl
  unfold sendSegment
  dsimp only
  generalize (if seg.len > n then { seg with len := n } else seg) = first
  generalize (if seg.len > n then SSegment.mk' (seg.seq + n) (seg.len - n) seg.bCtrl :: after else after)
    = after
  exact (hcut (before ++ first :: after)).timers_trans rfl
    (transmit_timers { s with snd.slist := before ++ first :: after } before first after now hwnd)

/-! ## The loop -/

theorem sndWnd_of_nAvailable (h : s.nAvailable ≠ 0) : s.snd.sndWnd ≠ 0 := by
  intro hzero
  have hwindow : s.nWindow = 0 := by
    unfold nWindow min32
    rw [hzero]
    split_ifs <;> bv_omega
  have huseable : s.nUseable = 0 := by
    unfold nUseable
    rw [hwindow]
    split_ifs <;> bv_omega
  refine h ?_
  unfold nAvailable
  rw [huseable, hwindow]
  dsimp only
  split_ifs <;> bv_omega

theorem Resting.sendAck (h : sflags ≠ .delayedAck) (s : PseudoTcp) : Resting s (s.sendAck sflags) := by
  cases sflags with
  | none => exact .refl s
  | immediateAck => exact .ack s _
  | delayedAck => exact absurd rfl h

theorem Winding.sendLoop (fuel : ℕ) (s : PseudoTcp) (h : sflags ≠ .delayedAck) :
    Winding now s (sendLoop fuel s sflags now) := by
  induction fuel generalizing s sflags with
  | zero => exact .refl s
  | succ fuel ih =>
    simp only [PseudoTcp.sendLoop]
    refine (Resting.check s .inFlight (s.nInFlight ≤ u32 s.snd.sbuf.getBuffered)).winding.trans ?_
    generalize s.check .inFlight (s.nInFlight ≤ u32 s.snd.sbuf.getBuffered) = t
    split_ifs with hzero hnagle
    · exact (Resting.sendAck h t).winding
    · exact .refl t
    · split
      · exact (Resting.check t .searchEnd false).winding
      · next before seg after _ =>
        have htimers := sendSegment_timers t before seg after t.nAvailable now (sndWnd_of_nAvailable hzero)
        split
        · next t' heq =>
          rw [heq] at htimers
          exact (htimers.sent rfl).winding.trans (ih t' (by decide))
        · next t' heq =>
          rw [heq] at htimers
          exact (htimers.resting rfl).winding

theorem sendLoop_timers (fuel : ℕ) (s : PseudoTcp) (h : sflags ≠ .delayedAck) :
    Timers now s (sendLoop (fuel + 1) s sflags now) (s.roundSends now) := by
  have hcheck := Resting.check s .inFlight (s.nInFlight ≤ u32 s.snd.sbuf.getBuffered)
  have hwnd : (s.check .inFlight (s.nInFlight ≤ u32 s.snd.sbuf.getBuffered)).snd.sndWnd = s.snd.sndWnd := by
    rw [check_eq]
  refine hcheck.timers_trans hwnd ?_
  simp only [PseudoTcp.sendLoop, roundSends]
  generalize s.check .inFlight (s.nInFlight ≤ u32 s.snd.sbuf.getBuffered) = t
  split_ifs with hzero hnagle
  · exact (Resting.sendAck h t).timers
  · exact (Resting.refl t).timers
  · obtain ⟨before, rest⟩ := nextSegment t.snd.slist
    cases rest with
    | nil => exact (Resting.check t .searchEnd false).timers
    | cons seg after =>
      have htimers := sendSegment_timers t before seg after t.nAvailable now (sndWnd_of_nAvailable hzero)
      dsimp only
      cases hr : t.sendSegment before seg after t.nAvailable now with
      | mk t' sent =>
        rw [hr] at htimers
        cases sent with
        | true =>
          have hrest : Winding now t' (sendLoop fuel t' .none now) := .sendLoop fuel t' (by decide)
          exact ((htimers.sent rfl).winding_trans hrest).timers
        | false => exact htimers

theorem attemptSend_timers (s : PseudoTcp) (h : sflags ≠ .delayedAck) :
    Timers s.now s (s.attemptSend sflags) s.attemptSends :=
  (Resting.beforeLoop s).timers_trans (SendFrame.beforeLoop s).sndWnd (sendLoop_timers _ s.beforeLoop h)

/-! ## The deadlines -/

/-- Whether `attemptSend` starts the retransmission timer. -/
def startsTimer (s : PseudoTcp) : Bool := s.rtoBase = 0 && s.now ≠ 0 && s.attemptSends

/-- The deadlines after a call at `now`: some of those before, and a new one if the call starts the
timer. -/
structure Settles (now : Uint32) (s s' : PseudoTcp) (starts : Bool) : Prop where
  state : s'.state = s.state
  started : starts = true → s'.deadlines = [now + s.rxRto]
  idle : starts = false → s'.deadlines ⊆ s.deadlines

theorem Settles.of_eq (hstate : s'.state = s.state) (h : s'.deadlines = s.deadlines) : Settles now s s' false :=
  ⟨hstate, nofun, fun _ _ he => h ▸ he⟩

theorem Settles.of_congr {starts : Bool} (hstate : t.state = s.state) (hlines : t.deadlines = s.deadlines)
    (hrto : t.rxRto = s.rxRto) (h : Settles now t s' starts) : Settles now s s' starts where
  state := h.state.trans hstate
  started hs := hrto ▸ h.started hs
  idle hs := hlines ▸ h.idle hs

theorem mem_deadlines {e : Uint32} : e ∈ s.deadlines ↔
    (s.tAck ≠ 0 ∧ e = s.tAck + s.ackDelay) ∨ (s.rtoBase ≠ 0 ∧ e = s.rtoBase + s.rxRto) ∨
      (s.snd.sndWnd = 0 ∧ e = s.snd.lastsend + s.rxRto) := by
  simp only [deadlines, List.mem_append, List.mem_ite_nil_right, List.mem_singleton, or_assoc]

theorem Resting.deadlines (h : Resting s s') (hframe : SendFrame s s') : s'.deadlines ⊆ s.deadlines := by
  intro e he
  rw [mem_deadlines, hframe.ackDelay, hframe.rxRto, hframe.sndWnd, h.rtoBase, h.lastsend] at he
  rw [mem_deadlines]
  refine he.imp_left fun hack => ?_
  rcases h.tAck with heq | hzero
  · rwa [heq] at hack
  · exact absurd hzero hack.1

theorem Sent.deadlines (h : Sent now s s') (hframe : SendFrame s s') :
    s'.deadlines = if s.startedBase now ≠ 0 then [s.startedBase now + s.rxRto] else [] := by
  have hwnd : ¬ s'.snd.sndWnd = 0 := hframe.sndWnd ▸ h.sndWnd
  rw [PseudoTcp.deadlines, if_neg (not_not.mpr h.tAck), if_neg hwnd, List.nil_append, List.append_nil,
    h.rtoBase, hframe.rxRto]

theorem Sent.settles (h : Sent now s s') (hframe : SendFrame s s') : Settles now s s' (s.rtoBase = 0 && now ≠ 0) := by
  have hlines := h.deadlines hframe
  by_cases hbase : s.rtoBase = 0
  · rw [startedBase, if_pos hbase] at hlines
    by_cases hnow : now = 0
    · rw [if_neg (not_not.mpr hnow)] at hlines
      rw [decide_eq_false (not_not.mpr hnow), Bool.and_false]
      exact ⟨hframe.state, nofun, fun _ e he => absurd (hlines ▸ he) List.not_mem_nil⟩
    · rw [if_pos hnow] at hlines
      rw [decide_eq_true hbase, decide_eq_true hnow]
      exact ⟨hframe.state, fun _ => hlines, nofun⟩
  · rw [startedBase, if_neg hbase, if_pos hbase] at hlines
    rw [decide_eq_false hbase, Bool.false_and]
    have hmem : s.rtoBase + s.rxRto ∈ s.deadlines := mem_deadlines.mpr (.inr (.inl ⟨hbase, rfl⟩))
    exact ⟨hframe.state, nofun, fun _ e he => List.mem_singleton.mp (hlines ▸ he) ▸ hmem⟩

theorem attemptSend_settles (s : PseudoTcp) (h : sflags ≠ .delayedAck) :
    Settles s.now s (s.attemptSend sflags) s.startsTimer := by
  have htimers := attemptSend_timers s h
  have hframe := SendFrame.attemptSend s sflags
  unfold startsTimer
  cases hsends : s.attemptSends with
  | true =>
    rw [hsends] at htimers
    rw [Bool.and_true]
    exact (htimers.sent rfl).settles hframe
  | false =>
    rw [hsends] at htimers
    rw [Bool.and_false]
    exact ⟨hframe.state, nofun, fun _ => (htimers.resting rfl).deadlines hframe⟩

/-! ## The timeout -/

/-- The time to the first deadline, with the default as bound. -/
def timeLeft (s : PseudoTcp) (now : Uint32) : ℤ :=
  (s.deadlines.map (timeDiff · now)).foldl min defaultTimeout

theorem le_timeLeft {x : ℤ} : x ≤ s.timeLeft now ↔ x ≤ defaultTimeout ∧ ∀ e ∈ s.deadlines, x ≤ timeDiff e now := by
  obtain ⟨hdefault, hall, hmem⟩ := foldl_min_spec defaultTimeout (s.deadlines.map (timeDiff · now))
  constructor
  · intro hx
    exact ⟨hx.trans hdefault, fun e he => hx.trans (hall _ (List.mem_map_of_mem he))⟩
  · rintro ⟨hx, hxs⟩
    rcases hmem with heq | hin
    · exact hx.trans_eq heq.symm
    · obtain ⟨e, he, heq⟩ := List.mem_map.mp hin
      exact (hxs e he).trans_eq heq

theorem timeLeft_le_default : s.timeLeft now ≤ defaultTimeout := (le_timeLeft.mp le_rfl).1

theorem timeLeft_anti (h : s'.deadlines ⊆ s.deadlines) : s.timeLeft now ≤ s'.timeLeft now :=
  le_timeLeft.mpr ⟨timeLeft_le_default, fun e he => (le_timeLeft.mp le_rfl).2 e (h he)⟩

theorem timeLeft_started (h : s'.deadlines = [now + s.rxRto]) :
    s'.timeLeft now = min defaultTimeout s.rxRto.toInt := by
  have hdiff : timeDiff (now + s.rxRto) now = s.rxRto.toInt := by rw [timeDiff, add_sub_cancel_left]
  rw [timeLeft, h, List.map_singleton, hdiff]
  rfl

theorem timeLeft_later {d : ℕ} (h : (d : ℤ) ≤ s.timeLeft now) :
    s.timeLeft now - d ≤ s.timeLeft (now + BitVec.ofNat 32 d) := by
  obtain ⟨hdefault, hall⟩ := le_timeLeft.mp (le_refl (s.timeLeft now))
  refine le_timeLeft.mpr ⟨by omega, fun e he => ?_⟩
  have hfar := hall e he
  rw [timeDiff_add (h.trans hfar)]
  omega

theorem getNextClock_cases (s : PseudoTcp) :
    (s.shutdown ≠ .none ∧ ∀ now, s.getNextClock now = none) ∨
      (s.state = .closed ∧ ∀ now, s.getNextClock now = some closedTimeout) ∨
      (s.state ≠ .closed ∧ ∀ now, s.getNextClock now = some (s.timeLeft now)) := by
  by_cases hforce : s.shutdown = .forceful
  · exact .inl ⟨hforce ▸ nofun, fun now => if_pos hforce⟩
  by_cases hdone : s.shutdown = .graceful ∧
      (s.state ≠ .established ∨ (s.snd.sbuf.getBuffered = 0 ∧ s.tAck = 0))
  · refine .inl ⟨hdone.1 ▸ nofun, fun now => ?_⟩
    rw [getNextClock, if_neg hforce, if_pos hdone]
  by_cases hclosed : s.state = .closed
  · refine .inr (.inl ⟨hclosed, fun now => ?_⟩)
    rw [getNextClock, if_neg hforce, if_neg hdone, if_pos hclosed]
  · refine .inr (.inr ⟨hclosed, fun now => ?_⟩)
    have hsome : (s.getNextClock now).isSome := by
      rw [getNextClock, if_neg hforce, if_neg hdone, if_neg hclosed]
      rfl
    obtain ⟨timeout, hnext⟩ := Option.isSome_iff_exists.mp hsome
    rw [hnext, getNextClock_eq hclosed hnext]
    rfl

/-! ## `Send` and `Recv` -/

/-- Whether `Send` starts the retransmission timer. -/
def sendStarts (s : PseudoTcp) (data : ℕ → Uint8) (len : ℕ) : Bool :=
  s.state = .established && s.snd.sbuf.getWriteRemaining ≠ 0 &&
    (s.queue data (u32 len) false).1.startsTimer

def widenStarts (s : PseudoTcp) (available : Uint32) : Bool :=
  available - s.rcv.rcvWnd ≥ min32 (s.rcv.rbufLen / 2) s.mss && s.rcv.rcvWnd = 0 &&
    ({ s with rcv.rcvWnd := available } : PseudoTcp).startsTimer

/-- Whether `Recv` starts the retransmission timer. -/
def recvStarts (s : PseudoTcp) (len : ℕ) : Bool :=
  s.state = .established &&
    match s.rcv.rbuf.read len with
    | (.block, _, _) => false
    | (result, _, rbuf) =>
      let s := { s.check .recvResult (result = .success) with rcv.rbuf := rbuf }
      let available := u32 s.rcv.rbuf.getWriteRemaining
      (s.check .recvWindow (s.rcv.rcvWnd ≤ available)).widenStarts available

/-- `Send` starts the retransmission timer, or leaves the deadlines. -/
theorem send_settles (s : PseudoTcp) (data : ℕ → Uint8) (len : ℕ) :
    Settles s.now s (s.send data len).1 (s.sendStarts data len) := by
  unfold send sendStarts
  by_cases hstate : s.state = .established
  · rw [if_neg (not_not.mpr hstate), decide_eq_true hstate, Bool.true_and]
    by_cases hfull : s.snd.sbuf.getWriteRemaining = 0
    · rw [if_pos hfull, decide_eq_false (not_not.mpr hfull), Bool.false_and]
      exact .of_eq rfl rfl
    · rw [if_neg hfull, decide_eq_true hfull, Bool.true_and]
      obtain ⟨hqueued, hlines, hrto, hnow⟩ : (s.queue data (u32 len) false).1.state = s.state ∧
          (s.queue data (u32 len) false).1.deadlines = s.deadlines ∧
          (s.queue data (u32 len) false).1.rxRto = s.rxRto ∧
          (s.queue data (u32 len) false).1.now = s.now := by
        rw [queue, check_eq]
        exact ⟨rfl, rfl, rfl, rfl⟩
      dsimp only
      generalize (s.queue data (u32 len) false).1 = q at hqueued hlines hrto hnow ⊢
      rw [← hnow]
      exact .of_congr hqueued hlines hrto (attemptSend_settles q (by decide))
  · rw [if_pos hstate, decide_eq_false hstate, Bool.false_and, Bool.false_and]
    exact .of_eq rfl rfl

theorem widenWindow_settles (s : PseudoTcp) (available : Uint32) :
    Settles s.now s (s.widenWindow available) (s.widenStarts available) := by
  unfold widenWindow widenStarts
  by_cases hwide : available - s.rcv.rcvWnd ≥ min32 (s.rcv.rbufLen / 2) s.mss
  · rw [if_pos hwide, decide_eq_true hwide, Bool.true_and]
    by_cases hclosed : s.rcv.rcvWnd = 0
    · rw [decide_eq_true hclosed, Bool.true_and]
      refine .of_congr (t := { s with rcv.rcvWnd := available }) rfl rfl rfl ?_
      dsimp only
      rw [if_pos hclosed]
      exact attemptSend_settles { s with rcv.rcvWnd := available } (by decide)
    · rw [decide_eq_false hclosed, Bool.false_and]
      dsimp only
      rw [if_neg hclosed]
      exact .of_eq rfl rfl
  · rw [if_neg hwide, decide_eq_false hwide, Bool.false_and, Bool.false_and]
    exact .of_eq rfl rfl

theorem reopenWindow_settles (s : PseudoTcp) :
    Settles s.now s s.reopenWindow
      ((s.check .recvWindow (s.rcv.rcvWnd ≤ u32 s.rcv.rbuf.getWriteRemaining)).widenStarts
        (u32 s.rcv.rbuf.getWriteRemaining)) := by
  have hcheck (c : Bool) : (s.check .recvWindow c).state = s.state ∧
      (s.check .recvWindow c).deadlines = s.deadlines ∧ (s.check .recvWindow c).rxRto = s.rxRto ∧
      (s.check .recvWindow c).now = s.now := by
    rw [check_eq]
    exact ⟨rfl, rfl, rfl, rfl⟩
  obtain ⟨hstate, hlines, hrto, hnow⟩ := hcheck (s.rcv.rcvWnd ≤ u32 s.rcv.rbuf.getWriteRemaining)
  rw [← hnow]
  exact .of_congr hstate hlines hrto (widenWindow_settles _ _)

/-- `Recv` starts the retransmission timer, or leaves the deadlines. -/
theorem recv_settles (s : PseudoTcp) (len : ℕ) : Settles s.now s (s.recv len).1 (s.recvStarts len) := by
  have hread (c : Bool) (rbuf : FifoBuffer) :
      ({ s.check .recvResult c with rcv.rbuf := rbuf } : PseudoTcp).state = s.state ∧
      ({ s.check .recvResult c with rcv.rbuf := rbuf } : PseudoTcp).deadlines = s.deadlines ∧
      ({ s.check .recvResult c with rcv.rbuf := rbuf } : PseudoTcp).rxRto = s.rxRto ∧
      ({ s.check .recvResult c with rcv.rbuf := rbuf } : PseudoTcp).now = s.now := by
    rw [check_eq]
    exact ⟨rfl, rfl, rfl, rfl⟩
  unfold recv recvStarts
  by_cases hstate : s.state = .established
  · rw [if_neg (not_not.mpr hstate), decide_eq_true hstate, Bool.true_and]
    obtain ⟨result, out, rbuf⟩ := s.rcv.rbuf.read len
    obtain ⟨hsame, hlines, hrto, hnow⟩ := hread (result = .success) rbuf
    cases result with
    | block => exact .of_eq rfl rfl
    | success | error | eos =>
      dsimp only
      rw [← hnow]
      exact .of_congr hsame hlines hrto (reopenWindow_settles _)
  · rw [if_pos hstate, decide_eq_false hstate, Bool.false_and]
    exact .of_eq rfl rfl

end PseudoTcp

end Libjingle
