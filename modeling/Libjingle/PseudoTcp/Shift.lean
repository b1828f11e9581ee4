import Libjingle.PseudoTcp.SendMoves

/-!
# Sequence numbers do not wrap

`shift k` adds `k` to every sequence number of an object, of a segment and of a packet. All the code
does with sequence numbers is to add lengths, to subtract and to compare them. Sums and differences
commute with the shift; the comparisons do not, since they compare the numbers as they are.

Main results: **`attemptSend_shift`**, **`handleAck_shift`**, **`receive_shift`**.
-/

variable {seg : Segment}

namespace Libjingle

open Lib

/-! ## The shift -/

def SSegment.shift (k : Uint32) (g : SSegment) : SSegment := { g with seq := g.seq + k }

def RSegment.shift (k : Uint32) (r : RSegment) : RSegment := { r with seq := r.seq + k }

def Segment.shift (k : Uint32) (seg : Segment) : Segment :=
  { seg with seq := seg.seq + k, ack := seg.ack + k }

def Packet.shift (k : Uint32) (p : Packet) : Packet := { p with seq := p.seq + k, ack := p.ack + k }

def Event.shift (k : Uint32) : Event → Event
  | .tcpWritePacket p r => .tcpWritePacket (p.shift k) r
  | e => e

namespace PseudoTcp

/-- Every sequence number of the object is `k` larger. -/
def shift (k : Uint32) (s : PseudoTcp) : PseudoTcp :=
  { s with
    rcv.rlist := s.rcv.rlist.map (.shift k)
    rcv.rcvNxt := s.rcv.rcvNxt + k
    snd.slist := s.snd.slist.map (.shift k)
    snd.sndNxt := s.snd.sndNxt + k
    snd.sndUna := s.snd.sndUna + k
    tsLastack := s.tsLastack + k
    recover := s.recover + k
    log := s.log.map (.shift k) }

variable {s : PseudoTcp} {k : Uint32}

theorem sub_shift (a b k : Uint32) : a + k - (b + k) = a - b := by bv_omega

theorem add_shift (a b k : Uint32) : a + k + b = a + b + k := by bv_omega

theorem shift_inj {a b k : Uint32} : a + k = b + k ↔ a = b := by
  constructor
  · intro h
    bv_omega
  · rintro rfl
    rfl

theorem shift_check (s : PseudoTcp) (fault : Fault) (c : Bool) :
    (s.shift k).check fault c = (s.check fault c).shift k := by
  cases c <;> rfl

theorem shift_emit (s : PseudoTcp) (e : Event) : (s.shift k).emit (e.shift k) = (s.emit e).shift k := by
  simp only [emit, shift, List.map_append, List.map_cons, List.map_nil]

theorem shift_setState (s : PseudoTcp) (st : TcpState) : (s.shift k).setState st = (s.setState st).shift k :=
  shift_emit { s with state := st } (.logState st)

theorem shift_nInFlight (s : PseudoTcp) : (s.shift k).nInFlight = s.nInFlight := sub_shift _ _ k

/-! ## Queueing -/

theorem appendSegment_shift (l : List SSegment) (seq len : Uint32) (bCtrl : Bool) :
    appendSegment (l.map (.shift k)) (seq + k) len bCtrl =
      (appendSegment l seq len bCtrl).map (.shift k) := by
  unfold appendSegment
  rcases List.eq_nil_or_concat l with rfl | ⟨init, last, rfl⟩
  · rfl
  · simp only [List.concat_eq_append, List.map_append, List.map_cons, List.map_nil,
      List.getLast?_append, List.getLast?_singleton, Option.some_or, List.dropLast_concat]
    have h1 : (last.shift k).bCtrl = last.bCtrl := rfl
    have h2 : (last.shift k).xmit = last.xmit := rfl
    rw [h1, h2]
    split_ifs
    · simp only [List.map_append, List.map_cons, List.map_nil]
      rfl
    · simp only [List.map_append, List.map_cons, List.map_nil]
      rfl

theorem queue_shift (s : PseudoTcp) (data : ℕ → Uint8) (len : Uint32) (bCtrl : Bool) :
    (s.shift k).queue data len bCtrl =
      ((s.queue data len bCtrl).1.shift k, (s.queue data len bCtrl).2) := by
  have hseq : s.snd.sndUna + k + u32 s.snd.sbuf.getBuffered =
      s.snd.sndUna + u32 s.snd.sbuf.getBuffered + k := add_shift _ _ k
  simp only [queue, check_eq, shift, hseq, appendSegment_shift]
  rfl

theorem queueConnectMessage_shift (s : PseudoTcp) :
    (s.shift k).queueConnectMessage = s.queueConnectMessage.shift k := by
  have h : ({ s.shift k with snd.sndWnd := u32 s.connectMessage.length } : PseudoTcp) =
      ({ s with snd.sndWnd := u32 s.connectMessage.length } : PseudoTcp).shift k := rfl
  have := queue_shift (k := k) { s with snd.sndWnd := u32 s.connectMessage.length }
    (ptr s.connectMessage) (u32 s.connectMessage.length) true
  rw [← h] at this
  exact congrArg Prod.fst this

/-! ## Packets -/

theorem packet_shift (s : PseudoTcp) (seq : Uint32) (flags : Uint8) (offset len : Uint32) :
    (s.shift k).packet (seq + k) flags offset len =
      ((s.packet seq flags offset len).1.shift k, (s.packet seq flags offset len).2) := by
  simp only [packet_eq]
  have hlog : (s.shift k).log ++
      [Event.tcpWritePacket ((s.shift k).buildPacket (seq + k) flags offset len)
        ((s.shift k).results 0)] =
      (s.log ++ [Event.tcpWritePacket (s.buildPacket seq flags offset len) (s.results 0)]).map
        (.shift k) := by
    rw [List.map_append]
    rfl
  have hres : (s.shift k).results 0 = s.results 0 := rfl
  rw [hlog, hres]
  by_cases hfail : s.results 0 ≠ .success ∧ len ≠ 0
  · rw [if_pos hfail, if_pos hfail]
    rfl
  · rw [if_neg hfail, if_neg hfail]
    rfl

theorem retryPacket_shift (g : SSegment) (table : List Uint16) (n : Uint32) (s : PseudoTcp) :
    retryPacket (g.shift k) table n (s.shift k) =
      ((retryPacket g table n s).1.shift k, (retryPacket g table n s).2) := by
  induction table generalizing n s with
  | nil => rfl
  | cons mtu table ih =>
    simp only [retryPacket]
    have hlow : (s.shift k).lowerMss mtu = (s.lowerMss mtu).shift k := rfl
    have hmss : ((s.lowerMss mtu).shift k).mss = (s.lowerMss mtu).mss := rfl
    rw [hlow, hmss]
    generalize s.lowerMss mtu = t
    have hoff : (g.shift k).seq - (t.shift k).snd.sndUna = g.seq - t.snd.sndUna := sub_shift _ _ k
    have hp := packet_shift (k := k) t g.seq g.flags (g.seq - t.snd.sndUna) t.mss
    by_cases h0 : mtu = 0
    · simp only [if_pos h0]
    · simp only [if_neg h0]
      by_cases hlt : t.mss < n
      · simp only [if_pos hlt]
        rw [hoff, show (g.shift k).seq = g.seq + k from rfl, show (g.shift k).flags = g.flags from rfl,
          hp]
        generalize t.packet g.seq g.flags (g.seq - t.snd.sndUna) t.mss = r
        obtain ⟨u, res⟩ := r
        cases res with
        | success => rfl
        | fail => rfl
        | tooLarge => exact ih _ _
      · simp only [if_neg hlt]
        exact ih _ _

theorem transmitPacket_shift (s : PseudoTcp) (g : SSegment) (n : Uint32) :
    (s.shift k).transmitPacket (g.shift k) n =
      ((s.transmitPacket g n).1.shift k, (s.transmitPacket g n).2) := by
  unfold transmitPacket
  have hoff : (g.shift k).seq - (s.shift k).snd.sndUna = g.seq - s.snd.sndUna := sub_shift _ _ k
  rw [hoff, show (g.shift k).seq = g.seq + k from rfl, show (g.shift k).flags = g.flags from rfl,
    packet_shift]
  generalize s.packet g.seq g.flags (g.seq - s.snd.sndUna) n = r
  obtain ⟨u, res⟩ := r
  cases res with
  | success => rfl
  | fail => rfl
  | tooLarge => exact retryPacket_shift g _ n u

theorem transmitted_shift (s : PseudoTcp) (before : List SSegment) (g : SSegment)
    (after : List SSegment) (n now : Uint32) :
    (s.shift k).transmitted (before.map (.shift k)) (g.shift k) (after.map (.shift k)) n now =
      (s.transmitted before g after n now).shift k := by
  have hseq : (g.shift k).seq + n = g.seq + n + k := add_shift _ _ k
  have hnxt : ∀ l : Uint32, s.snd.sndNxt + k + l = s.snd.sndNxt + l + k := fun l => add_shift _ _ k
  unfold transmitted
  by_cases hlt : n < g.len
  · have hlt' : n < (g.shift k).len := hlt
    simp only [if_pos hlt, if_pos hlt', hseq]
    by_cases hx : g.xmit = 0
    · have hx' : (g.shift k).xmit = 0 := hx
      simp only [if_pos hx, if_pos hx', shift, List.map_append, List.map_cons, hnxt]
      rfl
    · have hx' : ¬ (g.shift k).xmit = 0 := hx
      simp only [if_neg hx, if_neg hx', shift, List.map_append, List.map_cons]
      rfl
  · have hlt' : ¬ n < (g.shift k).len := hlt
    simp only [if_neg hlt, if_neg hlt']
    by_cases hx : g.xmit = 0
    · have hx' : (g.shift k).xmit = 0 := hx
      simp only [if_pos hx, if_pos hx', shift, List.map_append, List.map_cons, hnxt]
      rfl
    · have hx' : ¬ (g.shift k).xmit = 0 := hx
      simp only [if_neg hx, if_neg hx', shift, List.map_append, List.map_cons]
      rfl

theorem transmit_shift (s : PseudoTcp) (before : List SSegment) (g : SSegment)
    (after : List SSegment) (now : Uint32) :
    (s.shift k).transmit (before.map (.shift k)) (g.shift k) (after.map (.shift k)) now =
      ((s.transmit before g after now).1.shift k, (s.transmit before g after now).2) := by
  unfold transmit
  have hst : (s.shift k).state = s.state := rfl
  have hx : (g.shift k).xmit = g.xmit := rfl
  have hlen : min32 (g.shift k).len (s.shift k).mss = min32 g.len s.mss := rfl
  rw [hst, hx, hlen, transmitPacket_shift]
  by_cases hmax : g.xmit ≥ (if s.state = .established then 15 else 30)
  · rw [if_pos hmax, if_pos hmax]
  · rw [if_neg hmax, if_neg hmax]
    generalize s.transmitPacket g (min32 g.len s.mss) = r
    obtain ⟨u, res⟩ := r
    cases res with
    | none => rfl
    | some n => simp only [transmitted_shift]

theorem transmitFront_shift (s : PseudoTcp) (now : Uint32) :
    (s.shift k).transmitFront now = ((s.transmitFront now).1.shift k, (s.transmitFront now).2) := by
  unfold transmitFront
  have hl : (s.shift k).snd.slist = s.snd.slist.map (.shift k) := rfl
  rw [hl]
  cases s.snd.slist with
  | nil => exact congrArg (·, true) (shift_check s .transmitEnd false)
  | cons g after => exact transmit_shift s [] g after now

/-! ## Filling the window -/

def Keeps (k a b : Uint32) : Prop := a + k < b + k ↔ a < b

theorem nAvailable_shift (s : PseudoTcp) : (s.shift k).nAvailable = s.nAvailable := by
  have h := shift_nInFlight (k := k) s
  have hw : (s.shift k).nWindow = s.nWindow := rfl
  have hu : (s.shift k).nUseable = s.nUseable := by
    unfold nUseable
    rw [h, hw]
  unfold nAvailable
  rw [h, hu, hw]
  rfl

theorem nextSegment_shift (l : List SSegment) :
    nextSegment (l.map (.shift k)) =
      ((nextSegment l).1.map (.shift k), (nextSegment l).2.map (.shift k)) := by
  simp only [nextSegment, List.span_eq_takeWhile_dropWhile, List.takeWhile_map, List.dropWhile_map]
  rfl

theorem sendSegment_shift (s : PseudoTcp) (before : List SSegment) (g : SSegment)
    (after : List SSegment) (n now : Uint32) :
    (s.shift k).sendSegment (before.map (.shift k)) (g.shift k) (after.map (.shift k)) n now =
      ((s.sendSegment before g after n now).1.shift k,
        (s.sendSegment before g after n now).2) := by
  have hseq : (g.shift k).seq + n = g.seq + n + k := add_shift _ _ k
  unfold sendSegment
  by_cases hlt : g.len > n
  · have hlt' : (g.shift k).len > n := hlt
    simp only [if_pos hlt, if_pos hlt', hseq]
    have := transmit_shift (k := k)
      { s with snd.slist := before ++ { g with len := n } ::
        SSegment.mk' (g.seq + n) (g.len - n) g.bCtrl :: after }
      before { g with len := n } (SSegment.mk' (g.seq + n) (g.len - n) g.bCtrl :: after) now
    rw [← this]
    simp only [shift, List.map_append, List.map_cons]
    rfl
  · have hlt' : ¬ (g.shift k).len > n := hlt
    simp only [if_neg hlt, if_neg hlt']
    have := transmit_shift (k := k) { s with snd.slist := before ++ g :: after } before g after now
    rw [← this]
    simp only [shift, List.map_append, List.map_cons]

theorem sendAck_shift (s : PseudoTcp) (sflags : SendFlags) :
    (s.shift k).sendAck sflags = (s.sendAck sflags).shift k := by
  have hp := congrArg Prod.fst (packet_shift (k := k) s s.snd.sndNxt 0 0 0)
  cases sflags with
  | none => rfl
  | immediateAck => exact hp
  | delayedAck =>
    unfold sendAck
    by_cases ht : s.tAck ≠ 0
    · have ht' : (s.shift k).tAck ≠ 0 := ht
      simp only [if_pos ht, if_pos ht']
      exact hp
    · have ht' : ¬ (s.shift k).tAck ≠ 0 := ht
      simp only [if_neg ht, if_neg ht']
      rfl

/-- Nagle's test has the same outcome in every round. -/
def NagleStable (k : Uint32) : ℕ → PseudoTcp → Uint32 → Prop
  | 0, _, _ => True
  | fuel + 1, s, now =>
    let s := s.check .inFlight (s.nInFlight ≤ u32 s.snd.sbuf.getBuffered)
    s.nAvailable = 0 ∨
      ((s.useNagling → s.nAvailable < s.mss → Keeps k s.snd.sndUna s.snd.sndNxt) ∧
        (s.nagleHolds = true ∨
          match nextSegment s.snd.slist with
          | (_, []) => True
          | (before, seg :: after) =>
            match s.sendSegment before seg after s.nAvailable now with
            | (s, true) => NagleStable k fuel s now
            | (_, false) => True))

theorem nagleHolds_shift (h : s.useNagling → s.nAvailable < s.mss → Keeps k s.snd.sndUna s.snd.sndNxt) :
    (s.shift k).nagleHolds = s.nagleHolds := by
  have hav := nAvailable_shift (k := k) s
  have hmss : (s.shift k).mss = s.mss := rfl
  have hnag : (s.shift k).useNagling = s.useNagling := rfl
  unfold nagleHolds
  rw [hav, hmss, hnag]
  by_cases h1 : s.useNagling = true
  · by_cases h2 : s.nAvailable < s.mss
    · rw [h1, decide_eq_true h2, Bool.true_and, Bool.true_and, Bool.and_true, Bool.and_true]
      exact decide_eq_decide.mpr (h h1 h2)
    · rw [decide_eq_false h2, Bool.and_false, Bool.and_false]
  · rw [Bool.not_eq_true] at h1
    simp only [h1, Bool.false_and]

theorem sendLoop_shift (fuel : ℕ) (s : PseudoTcp) (sflags : SendFlags) (now : Uint32) (h : NagleStable k fuel s now) :
    sendLoop fuel (s.shift k) sflags now = (sendLoop fuel s sflags now).shift k := by
  induction fuel generalizing s sflags with
  | zero => rfl
  | succ fuel ih =>
    simp only [sendLoop, NagleStable] at h ⊢
    have hcheck : (s.shift k).check .inFlight
        ((s.shift k).nInFlight ≤ u32 (s.shift k).snd.sbuf.getBuffered) =
        (s.check .inFlight (s.nInFlight ≤ u32 s.snd.sbuf.getBuffered)).shift k := by
      rw [shift_nInFlight]
      exact shift_check s .inFlight _
    rw [hcheck]
    generalize s.check .inFlight (s.nInFlight ≤ u32 s.snd.sbuf.getBuffered) = t at h ⊢
    rw [nAvailable_shift]
    by_cases h0 : t.nAvailable = 0
    · rw [if_pos h0, if_pos h0, sendAck_shift]
    obtain ⟨hkeep, hrest⟩ := h.resolve_left h0
    rw [if_neg h0, if_neg h0, nagleHolds_shift hkeep]
    by_cases hn : t.nagleHolds = true
    · rw [if_pos hn, if_pos hn]
    replace hrest := hrest.resolve_left hn
    have hl : (t.shift k).snd.slist = t.snd.slist.map (.shift k) := rfl
    rw [if_neg hn, if_neg hn, hl, nextSegment_shift]
    generalize nextSegment t.snd.slist = r at hrest ⊢
    obtain ⟨before, rest⟩ := r
    cases rest with
    | nil => exact shift_check t .searchEnd false
    | cons g after =>
      simp only [List.map_cons, sendSegment_shift] at hrest ⊢
      generalize t.sendSegment before g after t.nAvailable now = r at hrest ⊢
      obtain ⟨u, ok⟩ := r
      cases ok with
      | true => exact ih u .none hrest
      | false => rfl

theorem sendFuel_shift (l : List SSegment) : sendFuel (l.map (.shift k)) = sendFuel l := by
  simp only [sendFuel, List.map_map]
  rfl

def SendStable (k : Uint32) (s : PseudoTcp) : Prop :=
  NagleStable k (sendFuel s.snd.slist) s.beforeLoop s.now

theorem beforeLoop_shift (s : PseudoTcp) : (s.shift k).beforeLoop = s.beforeLoop.shift k := by
  unfold beforeLoop
  rw [apply_ite (shift k)]
  rfl

/-- `attemptSend` commutes with the shift. -/
theorem attemptSend_shift (h : SendStable k s) (sflags : SendFlags) :
    (s.shift k).attemptSend sflags = (s.attemptSend sflags).shift k := by
  have hl : (s.shift k).snd.slist = s.snd.slist.map (.shift k) := rfl
  unfold attemptSend
  rw [hl, sendFuel_shift, beforeLoop_shift]
  exact sendLoop_shift _ _ sflags _ h

/-! ## Control segments -/

theorem resizeReceiveBuffer_shift (s : PseudoTcp) (newSize : Uint32) :
    (s.shift k).resizeReceiveBuffer newSize = (s.resizeReceiveBuffer newSize).shift k := by
  simp only [resizeReceiveBuffer_eq]
  rfl

theorem parseOptionsLoop_shift (fuel : ℕ) (buf kinds : List Uint8) (s : PseudoTcp) :
    parseOptionsLoop fuel buf kinds (s.shift k) =
      ((parseOptionsLoop fuel buf kinds s).1.shift k, (parseOptionsLoop fuel buf kinds s).2) := by
  induction fuel generalizing buf kinds s with
  | zero => rfl
  | succ fuel ih =>
    cases buf with
    | nil => rfl
    | cons kind buf =>
      simp only [parseOptionsLoop]
      split_ifs
      · rfl
      · exact ih _ _ _
      · have happly : ∀ data, (s.shift k).applyOption kind data =
            (s.applyOption kind data).shift k := by
          intro data
          unfold applyOption
          rw [apply_ite (shift k)]
          rfl
        rw [happly]
        exact ih _ _ _
      · rfl

theorem parseOptions_shift (s : PseudoTcp) (data : List Uint8) :
    (s.shift k).parseOptions data = (s.parseOptions data).shift k := by
  unfold parseOptions
  rw [parseOptionsLoop_shift]
  generalize parseOptionsLoop data.length data [] s = r
  obtain ⟨t, kinds⟩ := r
  cases kinds with
  | none => rfl
  | some kinds =>
    simp only [resizeReceiveBuffer_shift]
    rw [apply_ite (shift k)]
    rfl

theorem establish_shift (s : PseudoTcp) : (s.shift k).establish = s.establish.shift k := by
  unfold establish
  rw [shift_setState]
  exact shift_emit (s.setState .established).adjustMTU .onTcpOpen

theorem closedown_shift (s : PseudoTcp) (err : Errno) : (s.shift k).closedown err = (s.closedown err).shift k := by
  unfold closedown
  rw [shift_setState]
  exact shift_emit (s.setState .closed) (.onTcpClosed err)

theorem connectReceived_shift (s : PseudoTcp) : (s.shift k).connectReceived = s.connectReceived.shift k := by
  unfold connectReceived
  have hst : (s.shift k).state = s.state := rfl
  rw [hst]
  cases s.state with
  | listen => simp only [shift_setState, queueConnectMessage_shift]
  | synSent => exact establish_shift s
  | synReceived => rfl
  | established => rfl
  | closed => rfl

theorem control_shift (s : PseudoTcp) (seg : Segment) :
    (s.shift k).control (seg.shift k) = ((s.control seg).1.shift k, (s.control seg).2) := by
  have hflags : (seg.shift k).flags = seg.flags := rfl
  have hlen : (seg.shift k).len = seg.len := rfl
  have hdata : (seg.shift k).data = seg.data := rfl
  unfold control
  rw [hflags, hlen, hdata, parseOptions_shift, connectReceived_shift]
  split_ifs <;> rfl

/-! ## Acknowledgements -/

def TimestampStable (k : Uint32) (s : PseudoTcp) (seg : Segment) : Prop :=
  (seg.seq + k ≤ s.tsLastack + k ∧ s.tsLastack + k < seg.seq + k + seg.len) ↔
    (seg.seq ≤ s.tsLastack ∧ s.tsLastack < seg.seq + seg.len)

def AckStable (k : Uint32) (s : PseudoTcp) (seg : Segment) : Prop :=
  ((s.snd.sndUna + k < seg.ack + k ∧ seg.ack + k ≤ s.snd.sndNxt + k) ↔
    (s.snd.sndUna < seg.ack ∧ seg.ack ≤ s.snd.sndNxt)) ∧
  (s.isValuable seg.ack → s.dupAcks ≥ 3 → Keeps k seg.ack s.recover)

theorem updateTimestamp_shift (h : TimestampStable k s seg) :
    (s.shift k).updateTimestamp (seg.shift k) = (s.updateTimestamp seg).shift k := by
  unfold updateTimestamp
  rw [apply_ite (shift k)]
  by_cases ht : seg.seq ≤ s.tsLastack ∧ s.tsLastack < seg.seq + seg.len
  · rw [if_pos ht]
    exact if_pos (h.mpr ht)
  · rw [if_neg ht]
    exact if_neg (mt h.mp ht)

theorem updateRtt_shift (s : PseudoTcp) (tsecr now : Uint32) :
    (s.shift k).updateRtt tsecr now = (s.updateRtt tsecr now).shift k := by
  unfold updateRtt
  by_cases h0 : tsecr = 0
  · rw [if_pos h0, if_pos h0]
  · rw [if_neg h0, if_neg h0]
    by_cases hneg : timeDiff now tsecr < 0
    · rw [if_pos hneg, if_pos hneg]
      exact shift_check s .negativeRtt false
    · rw [if_neg hneg, if_neg hneg]
      rfl

theorem freeAcked_shift (l : List SSegment) (nFree largest : Uint32) :
    freeAcked (l.map (.shift k)) nFree largest =
      ((freeAcked l nFree largest).1.map (.shift k), (freeAcked l nFree largest).2) := by
  induction l generalizing nFree largest with
  | nil => rfl
  | cons g l ih =>
    have hlen : (g.shift k).len = g.len := rfl
    simp only [List.map_cons, freeAcked, hlen]
    split_ifs
    · rfl
    · rfl
    · exact ih _ _
    · exact ih _ _

theorem advanceUna_shift (s : PseudoTcp) (ack now : Uint32) :
    (s.shift k).advanceUna (ack + k) now = (s.advanceUna ack now).shift k := by
  have hn : ack + k - (s.shift k).snd.sndUna = ack - s.snd.sndUna := sub_shift _ _ k
  have hl : (s.shift k).snd.slist = s.snd.slist.map (.shift k) := rfl
  have hnxt : (ack + k = (s.shift k).snd.sndNxt) = (ack = s.snd.sndNxt) := propext shift_inj
  simp only [advanceUna, check_eq, hn, hl, freeAcked_shift, hnxt]
  rfl

theorem ackCongestion_shift (nAcked now : Uint32) (h : s.dupAcks ≥ 3 → Keeps k s.snd.sndUna s.recover) :
    (s.shift k).ackCongestion nAcked now =
      ((s.ackCongestion nAcked now).1.shift k, (s.ackCongestion nAcked now).2) := by
  have hdups : (s.shift k).dupAcks = s.dupAcks := rfl
  unfold ackCongestion
  rw [hdups, transmitFront_shift, shift_nInFlight]
  by_cases hdup : s.dupAcks ≥ 3
  · rw [if_pos hdup, if_pos hdup]
    have hrec : (s.shift k).snd.sndUna ≥ (s.shift k).recover ↔ s.snd.sndUna ≥ s.recover := by
      have := h hdup
      unfold Keeps at this
      rw [ge_iff_le, ge_iff_le, ← BitVec.not_lt, ← BitVec.not_lt]
      exact not_congr this
    by_cases hle : s.snd.sndUna ≥ s.recover
    · rw [if_pos hle, if_pos (hrec.mpr hle)]
      rfl
    · rw [if_neg hle, if_neg (mt hrec.mp hle)]
      generalize s.transmitFront now = r
      obtain ⟨t, ok⟩ := r
      cases ok <;> rfl
  · rw [if_neg hdup, if_neg hdup]
    rfl

theorem duplicateAck_shift (s : PseudoTcp) (now : Uint32) :
    (s.shift k).duplicateAck now = ((s.duplicateAck now).1.shift k, (s.duplicateAck now).2) := by
  have hfront : ({ s.shift k with dupAcks := s.dupAcks + 1 } : PseudoTcp).transmitFront now = _ :=
    transmitFront_shift { s with dupAcks := s.dupAcks + 1 } now
  have hdups : (s.shift k).dupAcks = s.dupAcks := rfl
  unfold duplicateAck
  simp only [hdups] at hfront ⊢
  rw [hfront]
  by_cases h3 : s.dupAcks + 1 = 3
  · rw [if_pos h3, if_pos h3]
    generalize ({ s with dupAcks := s.dupAcks + 1 } : PseudoTcp).transmitFront now = r
    obtain ⟨u, ok⟩ := r
    cases ok with
    | false => rfl
    | true =>
      simp only [shift_nInFlight]
      rfl
  · rw [if_neg h3, if_neg h3]
    split_ifs <;> rfl

theorem isValuable_shift (h : AckStable k s seg) :
    (s.shift k).isValuable (seg.shift k).ack = s.isValuable seg.ack := by
  unfold isValuable
  rw [← Bool.decide_and, ← Bool.decide_and]
  exact decide_eq_decide.mpr h.1

/-- The handling of acknowledgements commutes with the shift. -/
theorem handleAck_shift (h : AckStable k s seg) (now : Uint32) :
    (s.shift k).handleAck (seg.shift k) now =
      ((s.handleAck seg now).1.shift k, (s.handleAck seg now).2) := by
  have hv := isValuable_shift h
  have heq : ((seg.shift k).ack = (s.shift k).snd.sndUna) = (seg.ack = s.snd.sndUna) :=
    propext shift_inj
  have hne : ((s.shift k).snd.sndUna ≠ (s.shift k).snd.sndNxt) = (s.snd.sndUna ≠ s.snd.sndNxt) :=
    propext (not_congr shift_inj)
  have hlen : (seg.shift k).len = seg.len := rfl
  have hacked : (seg.shift k).ack - (s.shift k).snd.sndUna = seg.ack - s.snd.sndUna :=
    sub_shift _ _ k
  have hwin : ∀ t : PseudoTcp, ({ t.shift k with
      snd.sndWnd := (t.shift k).announcedWindow (seg.shift k) } : PseudoTcp) =
      ({ t with snd.sndWnd := t.announcedWindow seg } : PseudoTcp).shift k := fun _ => rfl
  unfold handleAck
  rw [hv]
  by_cases hval : s.isValuable seg.ack
  · rw [if_pos hval, if_pos hval]
    have htsecr : (seg.shift k).tsecr = seg.tsecr := rfl
    simp only [hacked, htsecr, updateRtt_shift, hwin]
    have hkeep : (s.updateRtt seg.tsecr now).dupAcks ≥ 3 →
        Keeps k seg.ack (s.updateRtt seg.tsecr now).recover := by
      have hdup : (s.updateRtt seg.tsecr now).dupAcks = s.dupAcks := by
        unfold updateRtt
        split_ifs <;> rfl
      have hrec : (s.updateRtt seg.tsecr now).recover = s.recover := by
        unfold updateRtt
        split_ifs <;> rfl
      rw [hdup, hrec]
      exact h.2 hval
    generalize s.updateRtt seg.tsecr now = t at hkeep ⊢
    generalize hu : ({ t with snd.sndWnd := t.announcedWindow seg } : PseudoTcp) = u
    have hadv : (u.shift k).advanceUna (seg.shift k).ack now = (u.advanceUna seg.ack now).shift k :=
      advanceUna_shift u seg.ack now
    rw [hadv]
    apply ackCongestion_shift
    have hdup' : (u.advanceUna seg.ack now).dupAcks = t.dupAcks := by
      rw [← hu]
      simp only [advanceUna, check_eq]
    have hrec' : (u.advanceUna seg.ack now).recover = t.recover := by
      rw [← hu]
      simp only [advanceUna, check_eq]
    rw [hdup', hrec', (advanceUna_fields u seg.ack now).2]
    exact hkeep
  · rw [if_neg hval, if_neg hval]
    simp only [heq, hlen, hwin]
    by_cases ha : seg.ack = s.snd.sndUna
    · simp only [if_pos ha]
      by_cases hl : seg.len > 0
      · simp only [if_pos hl]
      · simp only [if_neg hl, hne]
        by_cases hd : s.snd.sndUna ≠ s.snd.sndNxt
        · simp only [if_pos hd]
          exact duplicateAck_shift _ now
        · simp only [if_neg hd]
          rfl
    · simp only [if_neg ha]

/-! ## Notifications -/

theorem openIfSynReceived_shift (s : PseudoTcp) (bConnect : Bool) :
    (s.shift k).openIfSynReceived bConnect = (s.openIfSynReceived bConnect).shift k := by
  unfold openIfSynReceived
  rw [establish_shift, apply_ite (shift k)]
  rfl

theorem notifyWriteable_shift (s : PseudoTcp) : (s.shift k).notifyWriteable = s.notifyWriteable.shift k := by
  have hemit := shift_emit (k := k) { s with writeEnable := false } .onTcpWriteable
  unfold notifyWriteable
  simp only
  rw [apply_ite (shift k), ← hemit]
  rfl

theorem notifyReadable_shift (s : PseudoTcp) (bNewData : Bool) :
    (s.shift k).notifyReadable bNewData = (s.notifyReadable bNewData).shift k := by
  have hemit := shift_emit (k := k) { s with readEnable := false } .onTcpReadable
  unfold notifyReadable
  rw [apply_ite (shift k), ← hemit]
  rfl

theorem ackFlags_shift (s : PseudoTcp) (seg : Segment) : (s.shift k).ackFlags (seg.shift k) = s.ackFlags seg := by
  have hne : ((seg.shift k).seq ≠ (s.shift k).rcv.rcvNxt) = (seg.seq ≠ s.rcv.rcvNxt) :=
    propext (not_congr shift_inj)
  unfold ackFlags
  simp only [hne]
  rfl

/-! ## Payload -/

theorem trimLeft_shift (h : Keeps k seg.seq s.rcv.rcvNxt) :
    (s.shift k).trimLeft (seg.shift k) = (s.trimLeft seg).shift k := by
  have hlt : ((seg.shift k).seq < (s.shift k).rcv.rcvNxt) = (seg.seq < s.rcv.rcvNxt) := propext h
  have hadj : (s.shift k).rcv.rcvNxt - (seg.shift k).seq = s.rcv.rcvNxt - seg.seq := sub_shift _ _ k
  have hlen : (seg.shift k).len = seg.len := rfl
  have hseq : (seg.shift k).seq + (s.rcv.rcvNxt - seg.seq) =
      seg.seq + (s.rcv.rcvNxt - seg.seq) + k := add_shift _ _ k
  unfold trimLeft
  simp only [hlt, hadj, hlen, hseq]
  split_ifs <;> rfl

theorem trimRight_shift (s : PseudoTcp) (seg : Segment) :
    (s.shift k).trimRight (seg.shift k) = (s.trimRight seg).shift k := by
  have hlen : (seg.shift k).len = seg.len := rfl
  have hend : (seg.shift k).seq + seg.len - (s.shift k).rcv.rcvNxt =
      seg.seq + seg.len - s.rcv.rcvNxt := by
    rw [show (seg.shift k).seq + seg.len = seg.seq + seg.len + k from add_shift _ _ k]
    exact sub_shift _ _ k
  have hbuf : (s.shift k).rcv.rbuf = s.rcv.rbuf := rfl
  unfold trimRight
  simp only [hlen, hend, hbuf]
  split_ifs <;> rfl

theorem trim_shift (h : Keeps k seg.seq s.rcv.rcvNxt) : (s.shift k).trim (seg.shift k) = (s.trim seg).shift k := by
  unfold trim
  rw [trimLeft_shift h, trimRight_shift]

/-- The loop over `m_rlist` compares alike. -/
def RecoverStable (k : Uint32) : List RSegment → Uint32 → Prop
  | [], _ => True
  | r :: rest, nxt =>
    Keeps k nxt r.seq ∧ (r.seq ≤ nxt →
      Keeps k nxt r.fin ∧ RecoverStable k rest (if r.fin > nxt then r.fin else nxt))

def InsertStable (k seq : Uint32) : List RSegment → Prop
  | [] => True
  | r :: rest => Keeps k r.seq seq ∧ (r.seq < seq → InsertStable k seq rest)

theorem consume_shift (s : PseudoTcp) (n : Uint32) : (s.shift k).consume n = (s.consume n).shift k := by
  have hnxt : (s.shift k).rcv.rcvNxt + n = s.rcv.rcvNxt + n + k := add_shift _ _ k
  simp only [consume, check_eq, hnxt]
  rfl

theorem recoverLoop_shift (l : List RSegment) (s : PseudoTcp) (acked : Bool) (h : RecoverStable k l s.rcv.rcvNxt) :
    recoverLoop (l.map (.shift k)) (s.shift k) acked =
      ((recoverLoop l s acked).1.shift k, (recoverLoop l s acked).2) := by
  induction l generalizing s acked with
  | nil => rfl
  | cons r l ih =>
    obtain ⟨hseq, hrest⟩ := h
    have hle : ((r.shift k).seq ≤ (s.shift k).rcv.rcvNxt) = (r.seq ≤ s.rcv.rcvNxt) := by
      rw [← BitVec.not_lt, ← BitVec.not_lt]
      exact propext (not_congr hseq)
    have hfin : (r.shift k).fin = r.fin + k := add_shift _ _ k
    have hsub : (r.shift k).fin - (s.shift k).rcv.rcvNxt = r.fin - s.rcv.rcvNxt := by
      rw [hfin]
      exact sub_shift _ _ k
    simp only [List.map_cons, recoverLoop, hle, hsub]
    by_cases hr : r.seq ≤ s.rcv.rcvNxt
    · obtain ⟨hkeep, hstable⟩ := hrest hr
      have hgt : ((r.shift k).fin > (s.shift k).rcv.rcvNxt) = (r.fin > s.rcv.rcvNxt) := by
        rw [hfin]
        exact propext hkeep
      simp only [if_pos hr, hgt]
      by_cases hf : r.fin > s.rcv.rcvNxt
      · rw [if_pos hf] at hstable
        have hnxt : (s.consume (r.fin - s.rcv.rcvNxt)).rcv.rcvNxt = r.fin := by
          simp only [consume, check_eq]
          bv_omega
        simp only [if_pos hf, consume_shift]
        exact ih _ true (by rw [hnxt]; exact hstable)
      · rw [if_neg hf] at hstable
        simp only [if_neg hf]
        exact ih _ acked hstable
    · simp only [if_neg hr]
      rfl

theorem insertRlist_shift {r : RSegment} (l : List RSegment) (h : InsertStable k r.seq l) :
    insertRlist (r.shift k) (l.map (.shift k)) = (insertRlist r l).map (.shift k) := by
  induction l with
  | nil => rfl
  | cons x l ih =>
    obtain ⟨hkeep, hrest⟩ := h
    have hlt : ((x.shift k).seq < (r.shift k).seq) = (x.seq < r.seq) := propext hkeep
    simp only [List.map_cons, insertRlist, hlt]
    by_cases hx : x.seq < r.seq
    · simp only [if_pos hx, ih (hrest hx), List.map_cons]
    · simp only [if_neg hx, List.map_cons]

/-- What a trimmed segment leads to compares alike. -/
def StoreStable (k : Uint32) (s : PseudoTcp) (g : Segment) : Prop :=
  g.len ≠ 0 → s.ignoresData g = false →
    if g.seq = s.rcv.rcvNxt then RecoverStable k s.rcv.rlist (s.rcv.rcvNxt + g.len)
    else InsertStable k g.seq s.rcv.rlist

theorem writePayload_shift (s : PseudoTcp) (g : Segment) :
    (s.shift k).writePayload (g.shift k) = (s.writePayload g).shift k := by
  have hoff : (g.shift k).seq - (s.shift k).rcv.rcvNxt = g.seq - s.rcv.rcvNxt := sub_shift _ _ k
  simp only [writePayload, check_eq, hoff]
  rfl

/-- The receiving of data commutes with the shift. -/
theorem receive_shift {g : Segment} (h : StoreStable k s g) (sflags : SendFlags) :
    (s.shift k).receive (g.shift k) sflags =
      ((s.receive g sflags).1.shift k, (s.receive g sflags).2) := by
  have hlen : (g.shift k).len = g.len := rfl
  have hign : (s.shift k).ignoresData (g.shift k) = s.ignoresData g := rfl
  unfold receive
  rw [hlen, hign]
  by_cases h0 : g.len = 0
  · rw [if_pos h0, if_pos h0]
  rw [if_neg h0, if_neg h0]
  by_cases hi : s.ignoresData g = true
  · have hseq : ((g.shift k).seq = (s.shift k).rcv.rcvNxt) = (g.seq = s.rcv.rcvNxt) :=
      propext shift_inj
    have hnxt : (s.shift k).rcv.rcvNxt + g.len = s.rcv.rcvNxt + g.len + k := add_shift _ _ k
    simp only [if_pos hi, hseq, hnxt]
    rw [apply_ite (shift k)]
    rfl
  rw [if_neg hi, if_neg hi]
  replace h := h h0 (by simpa using hi)
  unfold store
  rw [writePayload_shift]
  have hpart : (s.writePayload g).rcv.rcvNxt = s.rcv.rcvNxt ∧
      (s.writePayload g).rcv.rlist = s.rcv.rlist := by
    simp only [writePayload, check_eq, and_self]
  rw [← hpart.1, ← hpart.2] at h
  generalize s.writePayload g = t at h ⊢
  have hseq : ((g.shift k).seq = (t.shift k).rcv.rcvNxt) = (g.seq = t.rcv.rcvNxt) :=
    propext shift_inj
  simp only [hseq]
  by_cases hs : g.seq = t.rcv.rcvNxt
  · rw [if_pos hs] at h
    have hl : ((t.consume g.len).shift k).rcv.rlist = (t.consume g.len).rcv.rlist.map (.shift k) := rfl
    have hc : (t.consume g.len).rcv.rcvNxt = t.rcv.rcvNxt + g.len ∧
        (t.consume g.len).rcv.rlist = t.rcv.rlist := by
      simp only [consume, check_eq, and_self]
    rw [← hc.1, ← hc.2] at h
    simp only [if_pos hs, hlen, consume_shift, hl, recoverLoop_shift _ _ _ h]
  · rw [if_neg hs] at h
    have hins := insertRlist_shift (k := k) (r := ⟨g.seq, g.len⟩) _ h
    have hl : (t.shift k).rcv.rlist = t.rcv.rlist.map (.shift k) := rfl
    simp only [if_neg hs, hl, hlen]
    rw [show (⟨(g.shift k).seq, g.len⟩ : RSegment) = RSegment.shift k ⟨g.seq, g.len⟩ from rfl, hins]
    rfl

end PseudoTcp

end Libjingle
