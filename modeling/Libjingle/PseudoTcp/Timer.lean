import Libjingle.PseudoTcp.Clock
import Libjingle.PseudoTcp.Recovery

/-!
# The retransmission timer

`m_rto_base` is set when a segment goes out and the timer does not run; an acknowledgement sets it
anew, or clears it when nothing is left in flight.

Main results: **`TimerInv.attemptSend`**, **`TimerInv.handleAck`**, **`TimerInv.step`**,
**`timerLaw_run`**.
-/

namespace Libjingle

open Lib

namespace PseudoTcp

variable {s s' : PseudoTcp} {pre post : List SSegment} {seg : SSegment} {n now : Uint32}

/-! ## Segments that count -/

def SSegment.Counts (g : SSegment) : Prop := g.xmit = 0 → g.len ≠ 0

theorem SSegment.counts_of_len (h : seg.len ≠ 0) : SSegment.Counts seg := fun _ => h

theorem SSegment.counts_of_xmit (h : seg.xmit ≠ 0) : SSegment.Counts seg := fun hx => absurd hx h

/-- **Every segment but the last one counts**, and the CONNECT message does if there is a buffer. -/
structure Filled (o : Outgoing) : Prop where
  inner : o.slist.Pairwise fun g _ => SSegment.Counts g
  control : o.sbuf.bufferLength = 0 ∨ ∀ g ∈ o.slist, g.bCtrl → SSegment.Counts g

namespace Filled

variable {o : Outgoing}

theorem of_nil (h : o.slist = []) : Filled o := ⟨by simp [h], .inr (by simp [h])⟩

theorem replace (h : Filled o) (hl : o.slist = pre ++ seg :: post) (mid : List SSegment)
    (hmid : ∀ g ∈ mid, SSegment.Counts g) : Filled { o with slist := pre ++ (mid ++ post) } := by
  obtain ⟨hinner, hcontrol⟩ := h
  rw [hl] at hinner hcontrol
  obtain ⟨hpre, hseg, hcross⟩ := List.pairwise_append.mp hinner
  obtain ⟨-, hpost⟩ := List.pairwise_cons.mp hseg
  constructor
  · refine List.pairwise_append.mpr ⟨hpre, List.pairwise_append.mpr ⟨?_, hpost, ?_⟩, ?_⟩
    · exact List.pairwise_of_forall_mem_list fun g hg _ _ => hmid g hg
    · exact fun g hg _ _ => hmid g hg
    · exact fun g hg _ _ => hcross g hg seg List.mem_cons_self
  · refine hcontrol.imp id fun hall g hg hctrl => ?_
    rcases List.mem_append.mp hg with hg | hg
    · exact hall g (List.mem_append_left _ hg) hctrl
    · rcases List.mem_append.mp hg with hg | hg
      · exact hmid g hg
      · exact hall g (List.mem_append_right _ (List.mem_cons_of_mem _ hg)) hctrl

theorem append (h : Filled o) (hroom : o.sbuf.bufferLength ≠ 0) (seq len : Uint32)
    (sbuf : FifoBuffer) : Filled { o with slist := appendSegment o.slist seq len false, sbuf := sbuf } := by
  obtain ⟨hinner, hcontrol⟩ := h
  replace hcontrol := hcontrol.resolve_left hroom
  unfold appendSegment
  rcases List.eq_nil_or_concat o.slist with hl | ⟨init, last, hl⟩
  · rw [hl]
    exact ⟨List.pairwise_singleton _ _, .inr fun g hg hctrl => by
      rw [List.mem_singleton.mp hg] at hctrl
      cases hctrl⟩
  · rw [List.concat_eq_append] at hl
    rw [hl] at hinner hcontrol ⊢
    obtain ⟨hinit, -, hcross⟩ := List.pairwise_append.mp hinner
    have hcounts : ∀ g ∈ init, SSegment.Counts g := fun g hg => hcross g hg last List.mem_cons_self
    simp only [List.getLast?_append, List.getLast?_singleton, Option.some_or, List.dropLast_concat]
    split_ifs with hjoin
    · refine ⟨List.pairwise_append.mpr ⟨hinit, List.pairwise_singleton _ _, fun g hg _ _ => hcounts g hg⟩,
        .inr fun g hg hctrl => ?_⟩
      rcases List.mem_append.mp hg with hg | hg
      · exact hcounts g hg
      · rw [List.mem_singleton.mp hg, hjoin.1] at hctrl
        cases hctrl
    · have hlast : SSegment.Counts last := by
        intro hx
        have hctrl : last.bCtrl = true := by
          rw [← Bool.not_eq_false]
          exact fun hfalse => hjoin ⟨hfalse, hx⟩
        exact hcontrol last (List.mem_append_right _ List.mem_cons_self) hctrl hx
      have hall : ∀ g ∈ init ++ [last], SSegment.Counts g := by
        intro g hg
        rcases List.mem_append.mp hg with hg | hg
        · exact hcounts g hg
        · rw [List.mem_singleton.mp hg]
          exact hlast
      refine ⟨List.pairwise_append.mpr ⟨hinner, List.pairwise_singleton _ _, fun g hg _ _ => hall g hg⟩,
        .inr fun g hg hctrl => ?_⟩
      rcases List.mem_append.mp hg with hg | hg
      · exact hall g hg
      · rw [List.mem_singleton.mp hg] at hctrl
        cases hctrl

end Filled

theorem freeAcked_cases (l : List SSegment) (nFree largest : Uint32) :
    (freeAcked l nFree largest).1 <:+ l ∨
      ∃ seg rest n, seg :: rest <:+ l ∧ n < seg.len ∧
        (freeAcked l nFree largest).1 = { seg with len := seg.len - n } :: rest := by
  induction l generalizing nFree largest with
  | nil => exact .inl List.suffix_rfl
  | cons g l ih =>
    by_cases hz : nFree = 0
    · rw [freeAcked, if_pos hz]
      exact .inl List.suffix_rfl
    by_cases hlt : nFree < g.len
    · rw [freeAcked, if_neg hz, if_pos hlt]
      exact .inr ⟨g, l, nFree, List.suffix_rfl, hlt, rfl⟩
    · rw [freeAcked, if_neg hz, if_neg hlt]
      rcases ih (nFree - g.len) (if g.len > largest then g.len else largest) with h | h
      · exact .inl (h.trans (List.suffix_cons g l))
      · obtain ⟨seg, rest, n, hsuffix, hn, heq⟩ := h
        exact .inr ⟨seg, rest, n, hsuffix.trans (List.suffix_cons g l), hn, heq⟩

namespace Filled

variable {o : Outgoing}

theorem suffix (h : Filled o) {l : List SSegment} (hl : l <:+ o.slist) : Filled { o with slist := l } :=
  ⟨h.inner.sublist hl.sublist, h.control.imp id fun hall g hg => hall g (hl.subset hg)⟩

theorem freeAcked (h : Filled o) (nFree largest : Uint32) :
    Filled { o with slist := (PseudoTcp.freeAcked o.slist nFree largest).1 } := by
  rcases freeAcked_cases o.slist nFree largest with hl | ⟨seg, rest, n, hl, hn, heq⟩
  · exact h.suffix hl
  · rw [heq]
    refine (h.suffix hl).replace (show _ = [] ++ seg :: rest from rfl) [{ seg with len := seg.len - n }] fun g hg => ?_
    rw [List.mem_singleton.mp hg]
    refine SSegment.counts_of_len ?_
    change seg.len - n ≠ 0
    bv_omega

end Filled

/-! ## The invariant -/

/-- **The timer runs exactly while something is in flight.** -/
structure TimerInv (s : PseudoTcp) : Prop where
  queue : QueueInv s.snd
  recover : s.snd.sndNxt < s.snd.sndUna ∨ s.recover ≤ s.snd.sndNxt
  clock : ∀ i, s.clock i ≠ 0
  filled : Filled s.snd
  idle : s.state = .listen → s.snd.slist = []
  timer : s.rtoBase ≠ 0 ↔ s.InFlight

theorem inFlight_iff (h : QueueInv s.snd) : s.InFlight ↔ sentBytes s.snd.slist ≠ 0 := by
  have hsent := h.sent
  unfold InFlight
  bv_omega

namespace TimerInv

theorem new (w : World) (conv : Uint32) (hclock : ∀ i, w.clock i ≠ 0) : TimerInv (new w conv) where
  queue := (Accounts.new w conv).queue
  recover := (Accounts.new w conv).recover
  clock i := hclock (i + 1)
  filled := .of_nil rfl
  idle _ := rfl
  timer := ⟨fun h => absurd rfl h, fun h => absurd rfl h⟩

theorem accounts (h : TimerInv s) : Accounts { s with faults := [] } :=
  ⟨h.queue, h.recover, by simp⟩

theorem now_ne (h : TimerInv s) : s.now ≠ 0 := h.clock 0

end TimerInv

/-! ## Parts that leave the queue and the timer alone -/

/-- The step leaves alone what the retransmission timer is about. -/
structure Untimed (s s' : PseudoTcp) : Prop where
  slist : s'.snd.slist = s.snd.slist
  sbuf : s'.snd.sbuf = s.snd.sbuf
  sndNxt : s'.snd.sndNxt = s.snd.sndNxt
  sndUna : s'.snd.sndUna = s.snd.sndUna
  rtoBase : s'.rtoBase = s.rtoBase
  recover : s'.recover = s.recover ∨ s'.recover = s.snd.sndNxt
  state : s'.state = s.state ∨ s'.state ≠ .listen
  clock : ∃ k, s'.clock = fun i => s.clock (i + k)

theorem Untimed.inFlight (h : Untimed s s') : s'.InFlight ↔ s.InFlight := by
  rw [InFlight, InFlight, h.sndNxt, h.sndUna]

theorem TimerInv.untimed (h : TimerInv s) (hu : Untimed s s') : TimerInv s' where
  queue := h.queue.congr hu.slist hu.sbuf hu.sndNxt hu.sndUna
  recover := by
    rw [hu.sndNxt, hu.sndUna]
    rcases hu.recover with hr | hr
    · rw [hr]
      exact h.recover
    · rw [hr]
      exact .inr (BitVec.le_refl _)
  clock := by
    obtain ⟨k, hk⟩ := hu.clock
    rw [hk]
    exact fun i => h.clock (i + k)
  filled := ⟨hu.slist ▸ h.filled.inner, by rw [hu.slist, hu.sbuf]; exact h.filled.control⟩
  idle hst := by
    rw [hu.slist]
    exact hu.state.elim (fun heq => h.idle (heq ▸ hst)) fun hne => absurd hst hne
  timer := by
    rw [hu.rtoBase, hu.inFlight]
    exact h.timer

def timerPart (s : PseudoTcp) :=
  ((s.snd.slist, s.snd.sbuf, s.snd.sndNxt, s.snd.sndUna), s.rtoBase, s.recover, s.state)

namespace Untimed

theorem refl (s : PseudoTcp) : Untimed s s :=
  ⟨rfl, rfl, rfl, rfl, rfl, .inl rfl, .inl rfl, 0, rfl⟩

theorem trans {t : PseudoTcp} (h : Untimed s t) (h' : Untimed t s') : Untimed s s' where
  slist := h'.slist.trans h.slist
  sbuf := h'.sbuf.trans h.sbuf
  sndNxt := h'.sndNxt.trans h.sndNxt
  sndUna := h'.sndUna.trans h.sndUna
  rtoBase := h'.rtoBase.trans h.rtoBase
  recover := by
    rcases h'.recover with hr | hr
    · rw [hr]
      exact h.recover
    · rw [hr]
      exact .inr h.sndNxt
  state := by
    rcases h'.state with hst | hst
    · rw [hst]
      exact h.state
    · exact .inr hst
  clock := by
    obtain ⟨k, hk⟩ := h.clock
    obtain ⟨k', hk'⟩ := h'.clock
    refine ⟨k' + k, ?_⟩
    rw [hk', hk]
    exact funext fun i => congrArg s.clock (Nat.add_assoc i k' k)

theorem of_part (h : s'.timerPart = s.timerPart) (k : ℕ) (hclock : s'.clock = fun i => s.clock (i + k)) :
    Untimed s s' := by
  simp only [timerPart, Prod.mk.injEq] at h
  obtain ⟨⟨h1, h2, h3, h4⟩, h5, h6, h7⟩ := h
  exact ⟨h1, h2, h3, h4, h5, .inl h6, .inl h7, k, hclock⟩

theorem check (s : PseudoTcp) (fault : Fault) (c : Bool) : Untimed s (s.check fault c) := by
  rw [check_eq]
  exact .of_part rfl 0 rfl

theorem emit (s : PseudoTcp) (e : Event) : Untimed s (s.emit e) := .of_part rfl 0 rfl

theorem setState (s : PseudoTcp) {st : TcpState} (h : st ≠ .listen) : Untimed s (s.setState st) :=
  ⟨rfl, rfl, rfl, rfl, rfl, .inl rfl, .inr h, 0, rfl⟩

theorem closedown (s : PseudoTcp) (err : Errno) : Untimed s (s.closedown err) :=
  (setState s (by decide)).trans (emit _ _)

theorem establish (s : PseudoTcp) : Untimed s s.establish := by
  have hmtu : Untimed (s.setState .established) (s.setState .established).adjustMTU := .of_part rfl 0 rfl
  exact ((setState s (by decide)).trans hmtu).trans (emit _ _)

theorem of_recvFrame (h : RecvFrame s s') : Untimed s s' := by
  obtain ⟨r, fs, rfl, -, -⟩ := h
  exact .of_part rfl 0 rfl

theorem resizeReceiveBuffer (s : PseudoTcp) (newSize : Uint32) : Untimed s (s.resizeReceiveBuffer newSize) := by
  rw [resizeReceiveBuffer_eq]
  exact .of_part rfl 0 rfl

theorem parseOptions (s : PseudoTcp) (data : List Uint8) : Untimed s (s.parseOptions data) := by
  rcases parseOptions_cases s data with ⟨scale, hs⟩ | ⟨-, hs⟩
  · rw [hs]
    exact .of_part rfl 0 rfl
  · rw [hs]
    exact (resizeReceiveBuffer s defaultRcvBufSize).trans (.of_part rfl 0 rfl)

theorem updateTimestamp (s : PseudoTcp) (seg : Segment) : Untimed s (s.updateTimestamp seg) := by
  unfold PseudoTcp.updateTimestamp
  split_ifs
  · exact .of_part rfl 0 rfl
  · exact .refl s

theorem updateRtt (s : PseudoTcp) (tsecr now : Uint32) : Untimed s (s.updateRtt tsecr now) := by
  unfold PseudoTcp.updateRtt
  split_ifs
  · exact .refl s
  · exact check s .negativeRtt _
  all_goals exact .of_part rfl 0 rfl

theorem openIfSynReceived (s : PseudoTcp) (bConnect : Bool) : Untimed s (s.openIfSynReceived bConnect) := by
  unfold PseudoTcp.openIfSynReceived
  split_ifs
  · exact establish s
  · exact .refl s

theorem notifyWriteable (s : PseudoTcp) : Untimed s s.notifyWriteable := by
  unfold PseudoTcp.notifyWriteable
  simp only
  split_ifs
  · exact .of_part rfl 0 rfl
  · exact .refl s

theorem notifyReadable (s : PseudoTcp) (bNewData : Bool) : Untimed s (s.notifyReadable bNewData) := by
  unfold PseudoTcp.notifyReadable
  split_ifs
  · exact .of_part rfl 0 rfl
  · exact .refl s

theorem packet (s : PseudoTcp) (seq : Uint32) (flags : Uint8) (offset len : Uint32) :
    Untimed s (s.packet seq flags offset len).1 := by
  rw [packet_eq]
  simp only
  split_ifs
  all_goals exact .of_part rfl 1 rfl

theorem sendAck (s : PseudoTcp) (sflags : SendFlags) : Untimed s (s.sendAck sflags) := by
  cases sflags with
  | none => exact .refl s
  | immediateAck => exact packet s _ _ _ _
  | delayedAck =>
    unfold PseudoTcp.sendAck
    simp only
    split_ifs
    · exact packet s _ _ _ _
    · exact .of_part rfl 1 rfl

theorem beforeLoop (s : PseudoTcp) : Untimed s s.beforeLoop := by
  unfold PseudoTcp.beforeLoop
  split_ifs
  all_goals exact .of_part rfl 1 rfl

theorem transmitPacket (s : PseudoTcp) (seg : SSegment) (n : Uint32) : Untimed s (s.transmitPacket seg n).1 :=
  transmitPacket_rel Untimed.refl Untimed.trans seg (fun _ _ _ _ => .of_part rfl 0 rfl) s n
    (packet s _ _ _ n) fun s m _ _ => packet s _ _ _ m

end Untimed

/-! ## Sending -/

def KeepsTimer (s s' : PseudoTcp) : Prop := TimerInv s → TimerInv s' ∧ (s.InFlight → s'.InFlight)

namespace KeepsTimer

theorem refl (s : PseudoTcp) : KeepsTimer s s := fun h => ⟨h, id⟩

theorem trans {t : PseudoTcp} (h : KeepsTimer s t) (h' : KeepsTimer t s') : KeepsTimer s s' := by
  intro hs
  obtain ⟨ht, hin⟩ := h hs
  obtain ⟨hs', hin'⟩ := h' ht
  exact ⟨hs', hin' ∘ hin⟩

theorem of_untimed (h : Untimed s s') : KeepsTimer s s' := fun hs => ⟨hs.untimed h, h.inFlight.mpr⟩

end KeepsTimer

theorem sentBytes_transmitted (hl : s.snd.slist = pre ++ seg :: post) (hx : seg.xmit < 30)
    (hn : n ≤ seg.len) (now : Uint32) :
    sentBytes s.snd.slist ≤ sentBytes (s.transmitted pre seg post n now).snd.slist ∧
      (seg.xmit = 0 → n.toNat ≤ sentBytes (s.transmitted pre seg post n now).snd.slist) := by
  have hcut := toNat_cut hn
  have hmark : seg.xmit + 1 ≠ 0 := by bv_omega
  rw [hl]
  simp only [PseudoTcp.transmitted]
  by_cases hlt : n < seg.len
  · simp only [if_pos hlt, sentBytes_append, sentBytes_cons, if_neg hmark, SSegment.mk']
    split_ifs <;> omega
  · simp only [if_neg hlt, sentBytes_append, sentBytes_cons, if_neg hmark]
    split_ifs <;> omega

theorem TimerInv.transmitted (h : TimerInv s) (hl : s.snd.slist = pre ++ seg :: post)
    (hpre : ∀ g ∈ pre, g.xmit ≠ 0) (hx : seg.xmit < 30) (hn : n ≤ seg.len) (hnow : now ≠ 0)
    (hsends : s.InFlight ∨ (seg.xmit = 0 ∧ n ≠ 0)) :
    TimerInv (s.transmitted pre seg post n now) ∧ (s.transmitted pre seg post n now).InFlight := by
  have hq := h.queue.transmitted hl hpre hx hn now
  have hmark : seg.xmit + 1 ≠ 0 := by bv_omega
  obtain ⟨hmore, hfirst⟩ := sentBytes_transmitted hl hx hn now
  have hin : (s.transmitted pre seg post n now).InFlight := by
    rw [inFlight_iff hq]
    rcases hsends with hsends | ⟨hz, hne⟩
    · rw [inFlight_iff h.queue] at hsends
      omega
    · have := hfirst hz
      bv_omega
  refine ⟨⟨hq, (h.accounts.transmitted hl hpre hx hn now).recover, h.clock, ?_, fun hst => ?_, ?_⟩, hin⟩
  · by_cases hlt : n < seg.len
    · have hrest : seg.len - n ≠ 0 := by bv_omega
      have hcut := h.filled.replace hl [{ { seg with len := n } with xmit := seg.xmit + 1 },
        { SSegment.mk' (seg.seq + n) (seg.len - n) seg.bCtrl with xmit := seg.xmit }] fun g hg => by
        rcases List.mem_pair.mp hg with rfl | rfl
        · exact SSegment.counts_of_xmit hmark
        · exact SSegment.counts_of_len hrest
      simp only [PseudoTcp.transmitted, if_pos hlt]
      exact ⟨hcut.inner, hcut.control⟩
    · have hsame := h.filled.replace hl [{ seg with xmit := seg.xmit + 1 }] fun g hg => by
        rw [List.mem_singleton.mp hg]
        exact SSegment.counts_of_xmit hmark
      simp only [PseudoTcp.transmitted, if_neg hlt]
      exact ⟨hsame.inner, hsame.control⟩
  · have hnil := h.idle hst
    rw [hl] at hnil
    simp at hnil
  · refine ⟨fun _ => hin, fun _ => ?_⟩
    simp only [PseudoTcp.transmitted]
    split_ifs with hzero
    · exact hnow
    · exact hzero

theorem KeepsTimer.transmit (hl : s.snd.slist = pre ++ seg :: post) (hpre : ∀ g ∈ pre, g.xmit ≠ 0)
    (hnow : now ≠ 0) (hsends : s.InFlight ∨ (seg.xmit = 0 ∧ min32 seg.len s.mss ≠ 0)) :
    KeepsTimer s (s.transmit pre seg post now).1 := by
  have hp := Untimed.transmitPacket s seg (min32 seg.len s.mss)
  rcases transmit_cases s pre seg post now with ⟨h, -⟩ | ⟨s₁, hs, h⟩ | ⟨s₁, n, hs, hx, h⟩
  · rw [h]
    exact .refl s
  · rw [hs] at hp
    rw [h]
    exact .of_untimed hp
  · rw [hs] at hp
    rw [h]
    have hbytes : n ≤ seg.len ∧ (min32 seg.len s.mss ≠ 0 → n ≠ 0) := by
      have hmin : min32 seg.len s.mss ≤ seg.len := Fits.le (s := s) (.inl rfl)
      rcases transmitPacket_le (by rw [hs]) with ⟨rfl, -⟩ | ⟨hlt, htab⟩
      · exact ⟨hmin, id⟩
      · have hge := htab.ge
        exact ⟨by bv_omega, fun _ => by bv_omega⟩
    intro hs
    obtain ⟨hinv, hin⟩ := (hs.untimed hp).transmitted (hp.slist.trans hl) hpre hx hbytes.1 hnow
      (hsends.imp hp.inFlight.mpr (And.imp_right hbytes.2))
    exact ⟨hinv, fun _ => hin⟩

theorem KeepsTimer.transmitFront (hin : s.InFlight) (hnow : now ≠ 0) : KeepsTimer s (s.transmitFront now).1 := by
  unfold PseudoTcp.transmitFront
  split
  · exact .of_untimed (.check s .transmitEnd false)
  · next seg after hl =>
    exact KeepsTimer.transmit (show _ = [] ++ seg :: after from hl) (by simp) hnow (.inl hin)

theorem TimerInv.nAvailable_le (h : TimerInv s) (hl : s.snd.slist = pre ++ [seg])
    (hpre : ∀ g ∈ pre, g.xmit ≠ 0) (hx : seg.xmit = 0) : s.nAvailable ≤ seg.len := by
  have havail : s.nAvailable.toNat + (s.snd.sndNxt - s.snd.sndUna).toNat ≤ s.snd.sbuf.dataLength :=
    h.accounts.nAvailable_le
  have htotal := h.queue.total
  have hsent := h.queue.sent
  have hunsent : ∀ g ∈ [seg], g.xmit = 0 := fun g hg => List.mem_singleton.mp hg ▸ hx
  rw [hl, sentBytes_split hpre hunsent] at hsent
  rw [hl, totalBytes_append, totalBytes_cons, totalBytes_nil] at htotal
  rw [BitVec.le_def]
  omega

theorem KeepsTimer.sendSegment (h0 : s.nAvailable ≠ 0) (hnext : nextSegment s.snd.slist = (pre, seg :: post))
    (hnow : now ≠ 0) : KeepsTimer s (s.sendSegment pre seg post s.nAvailable now).1 := by
  intro h
  have hl : s.snd.slist = pre ++ seg :: post := by
    have happend := Emits.nextSegment_append s.snd.slist
    rw [hnext] at happend
    exact happend.symm
  have hpre : ∀ g ∈ pre, g.xmit ≠ 0 := by
    intro g hg
    exact Emits.nextSegment_pre (l := s.snd.slist) (by rw [hnext]; exact hg)
  have hx := Emits.nextSegment_seg hnext
  have hmss := nAvailable_le_mss s
  unfold PseudoTcp.sendSegment
  by_cases hlt : seg.len > s.nAvailable
  · simp only [if_pos hlt]
    have hcut : TimerInv { s with
        snd.slist := pre ++ { seg with len := s.nAvailable } ::
          .mk' (seg.seq + s.nAvailable) (seg.len - s.nAvailable) seg.bCtrl :: post } := by
      refine ⟨h.queue.cut hl hx (BitVec.le_of_lt hlt), h.recover, h.clock, ?_, fun hst => ?_, h.timer⟩
      · refine h.filled.replace hl [{ seg with len := s.nAvailable },
          .mk' (seg.seq + s.nAvailable) (seg.len - s.nAvailable) seg.bCtrl] fun g hg => ?_
        rcases List.mem_pair.mp hg with rfl | rfl
        · exact SSegment.counts_of_len h0
        · refine SSegment.counts_of_len ?_
          change seg.len - s.nAvailable ≠ 0
          bv_omega
      · have hnil := h.idle hst
        rw [hl] at hnil
        simp at hnil
    have hmin : min32 s.nAvailable s.mss ≠ 0 := by
      unfold min32
      split_ifs <;> bv_omega
    exact KeepsTimer.transmit rfl hpre hnow (.inr ⟨hx, hmin⟩) hcut
  · simp only [if_neg hlt]
    rw [← hl]
    -- a segment without bytes would be the last one, and nothing would be available
    have hlen : seg.len ≠ 0 := by
      rcases List.eq_nil_or_concat post with rfl | ⟨init, last, rfl⟩
      · have hall := h.nAvailable_le hl hpre hx
        bv_omega
      · have hinner := h.filled.inner
        rw [hl] at hinner
        obtain ⟨-, hseg, -⟩ := List.pairwise_append.mp hinner
        exact (List.pairwise_cons.mp hseg).1 last (by simp) hx
    have hmin : min32 seg.len s.mss ≠ 0 := by
      unfold min32
      split_ifs <;> bv_omega
    exact KeepsTimer.transmit hl hpre hnow (.inr ⟨hx, hmin⟩) h

/-- `attemptSend` keeps the timer running. -/
theorem KeepsTimer.attemptSend (sflags : SendFlags) : KeepsTimer s (s.attemptSend sflags) := by
  intro h
  refine (KeepsTimer.of_untimed (.beforeLoop s)).trans ?_ h
  refine sendLoop_rel KeepsTimer.refl KeepsTimer.trans ?_ ?_ ?_ s.now ?_ _ _ _
  · exact fun s => .of_untimed (.check s _ _)
  · exact fun s _ _ => .of_untimed (.check s _ _)
  · exact fun s sflags => .of_untimed (.sendAck s sflags)
  · exact fun _ _ _ _ h0 hnext => KeepsTimer.sendSegment h0 hnext h.now_ne

/-! ## Acknowledgements -/

variable {sg : Segment}

namespace TimerInv

theorem advanceUna (h : TimerInv s) {ack : Uint32} (hv : s.isValuable ack) (hnow : now ≠ 0) :
    TimerInv (s.advanceUna ack now) := by
  have hacc := h.accounts.advanceUna (s := { s with faults := [] }) hv now
  obtain ⟨hq, -, -⟩ := h.queue.advanceUna hv now
  have hfilled := h.filled.freeAcked (ack - s.snd.sndUna) s.largest
  have hother : (s.advanceUna ack now).recover = s.recover ∧ (s.advanceUna ack now).state = s.state ∧
      (s.advanceUna ack now).clock = s.clock ∧
      (s.advanceUna ack now).rtoBase = if ack = s.snd.sndNxt then 0 else now := by
    simp only [PseudoTcp.advanceUna, check_eq, and_self]
  obtain ⟨hrec, hstate, hclock, hrto⟩ := hother
  refine ⟨hq, ?_, fun i => hclock ▸ h.clock i, ?_, fun hst => ?_, ?_⟩
  · have hle := hacc.recover
    simp only [PseudoTcp.advanceUna, check_eq] at hle ⊢
    exact hle
  · rw [advanceUna_snd]
    exact ⟨hfilled.inner, by simpa using hfilled.control⟩
  · have hnil := h.idle (hstate ▸ hst)
    rw [advanceUna_snd, hnil, PseudoTcp.freeAcked]
  · rw [hrto, InFlight, (advanceUna_fields s ack now).1, (advanceUna_fields s ack now).2]
    split_ifs with hall
    · exact ⟨fun hne => absurd rfl hne, fun hne => absurd hall hne⟩
    · exact ⟨fun _ => hall, fun _ => hnow⟩

theorem ackCongestion (h : TimerInv s) (nAcked : Uint32) (hnow : now ≠ 0) :
    TimerInv (s.ackCongestion nAcked now).1 := by
  rcases ackCongestion_cases s nAcked now with ⟨cwnd, heq⟩ | ⟨-, hrec, cwnd, heq⟩
  · rw [heq]
    exact h.untimed (.of_part rfl 0 rfl)
  · rw [heq]
    have hin : s.InFlight := inFlight_below (s := { s with faults := [] }) h.accounts hrec
    exact (KeepsTimer.transmitFront hin hnow h).1.untimed (.of_part rfl 0 rfl)

theorem duplicateAck (h : TimerInv s) (hin : s.InFlight) (hnow : now ≠ 0) : TimerInv (s.duplicateAck now).1 := by
  have hcount : TimerInv { s with dupAcks := s.dupAcks + 1 } := h.untimed (.of_part rfl 0 rfl)
  rcases duplicateAck_cases s now with ⟨cwnd, heq⟩ | ⟨t, ht, -, recover, ssthresh, cwnd, hrec, heq⟩
  · rw [heq]
    exact h.untimed (.of_part rfl 0 rfl)
  · rw [heq]
    have hin' : ({ s with dupAcks := s.dupAcks + 1 } : PseudoTcp).InFlight := hin
    have hfront : TimerInv t := ht ▸ (KeepsTimer.transmitFront hin' hnow hcount).1
    exact hfront.untimed ⟨rfl, rfl, rfl, rfl, rfl, hrec, .inl rfl, 0, rfl⟩

/-- An acknowledgement restarts the timer, or stops it when nothing is in flight. -/
theorem handleAck (h : TimerInv s) (sg : Segment) (hnow : now ≠ 0) : TimerInv (s.handleAck sg now).1 := by
  rcases handleAck_cases s sg now with ⟨hv, t, ht, heq⟩ | ⟨-, -, t, ht, heq⟩ | ⟨-, heq⟩
  · rw [heq]
    have hrtt : Untimed s t := ht ▸ Untimed.updateRtt s sg.tsecr now
    have hwnd : TimerInv { t with snd.sndWnd := t.announcedWindow sg } :=
      (h.untimed hrtt).untimed (.of_part rfl 0 rfl)
    refine ackCongestion (advanceUna hwnd ?_ hnow) _ hnow
    rw [isValuable]
    dsimp only
    rw [hrtt.sndUna, hrtt.sndNxt]
    exact hv
  · have hwnd : TimerInv t := ht ▸ h.untimed (.of_part rfl 0 rfl)
    rcases heq with heq | heq | ⟨hin, heq⟩
    · rw [heq]
      exact hwnd
    · rw [heq]
      exact hwnd.untimed (.of_part rfl 0 rfl)
    · rw [heq]
      exact hwnd.duplicateAck (ht ▸ hin) hnow
  · rw [heq]
    exact h

theorem processAck (h : TimerInv s) (sg : Segment) (hnow : now ≠ 0) : TimerInv (s.processAck sg now).1 := by
  have hack := h.handleAck sg hnow
  unfold PseudoTcp.processAck
  split
  · next t heq =>
    rw [heq] at hack
    exact hack
  · next t heq =>
    rw [heq] at hack
    exact hack.untimed (.closedown t _)

/-! ## Queueing -/

theorem queueConnectMessage (h : TimerInv s) (hnil : s.snd.slist = []) (hst : s.state ≠ .listen) :
    TimerInv s.queueConnectMessage := by
  have hwnd : TimerInv { s with snd.sndWnd := u32 s.connectMessage.length } :=
    h.untimed (.of_part rfl 0 rfl)
  have hlen : u32 s.connectMessage.length ≠ 0 := by
    unfold connectMessage
    split_ifs
    · exact (by decide : u32 4 ≠ 0)
    · exact (by decide : u32 1 ≠ 0)
  unfold PseudoTcp.queueConnectMessage
  dsimp only
  generalize ptr s.connectMessage = data
  generalize u32 s.connectMessage.length = len at hwnd hlen ⊢
  have hnil' : ({ s with snd.sndWnd := len } : PseudoTcp).snd.slist = [] := hnil
  have hst' : ({ s with snd.sndWnd := len } : PseudoTcp).state ≠ .listen := hst
  generalize ({ s with snd.sndWnd := len } : PseudoTcp) = t at hwnd hnil' hst' ⊢
  have hq := hwnd.queue.queue data len true
  have hsnd := queue_snd t data len true
  obtain ⟨-, -, -, hbuf, -, -⟩ := write_queueLen hwnd.queue data len
  rw [hnil', appendSegment] at hsnd
  have hother : (t.queue data len true).1.recover = t.recover ∧ (t.queue data len true).1.state = t.state ∧
      (t.queue data len true).1.clock = t.clock ∧ (t.queue data len true).1.rtoBase = t.rtoBase := by
    simp only [PseudoTcp.queue, check_eq, and_self]
  obtain ⟨hrec, hstate, hclock, hrto⟩ := hother
  refine ⟨hq, ?_, fun i => hclock ▸ hwnd.clock i, ?_, fun hst => absurd (hstate ▸ hst) hst', ?_⟩
  · rw [hsnd, hrec]
    exact hwnd.recover
  · rw [hsnd]
    refine ⟨List.pairwise_singleton _ _, ?_⟩
    dsimp only
    rw [hbuf]
    by_cases hcap : t.snd.sbuf.bufferLength = 0
    · exact .inl hcap
    · refine .inr fun g hg _ => ?_
      rw [List.mem_singleton.mp hg]
      refine SSegment.counts_of_len ?_
      have htotal := hwnd.queue.total
      have hlt := hwnd.queue.cap
      rw [hnil', totalBytes_nil] at htotal
      simp only [SSegment.mk', queueLen, FifoBuffer.getWriteRemaining, ← htotal, Nat.sub_zero]
      split_ifs
      · exact fun hzero => hcap (by bv_omega)
      · exact hlen
  · rw [hrto, InFlight, hsnd]
    exact hwnd.timer

theorem enqueue (h : TimerInv s) (hst : s.state ≠ .listen) (hroom : s.snd.sbuf.getWriteRemaining ≠ 0)
    (data : ℕ → Uint8) (len : Uint32) : TimerInv (s.queue data len false).1 := by
  have hq := h.queue.queue data len false
  have hsnd := queue_snd s data len false
  have hcap : s.snd.sbuf.bufferLength ≠ 0 := by
    unfold FifoBuffer.getWriteRemaining at hroom
    omega
  have hother : (s.queue data len false).1.recover = s.recover ∧ (s.queue data len false).1.state = s.state ∧
      (s.queue data len false).1.clock = s.clock ∧ (s.queue data len false).1.rtoBase = s.rtoBase := by
    simp only [PseudoTcp.queue, check_eq, and_self]
  obtain ⟨hrec, hstate, hclock, hrto⟩ := hother
  refine ⟨hq, ?_, fun i => hclock ▸ h.clock i, ?_, fun hst' => absurd (hstate ▸ hst') hst, ?_⟩
  · rw [hsnd, hrec]
    exact h.recover
  · have hfilled := h.filled.append hcap (s.snd.sndUna + u32 s.snd.sbuf.getBuffered) (s.queueLen len)
      (s.snd.sbuf.write data (s.queueLen len).toNat).2.2
    rw [hsnd]
    exact ⟨hfilled.inner, hfilled.control⟩
  · rw [hrto, InFlight, hsnd]
    exact h.timer

theorem resizeSendBuffer (h : TimerInv s) (hst : s.state = .listen) (newSize : Uint32) :
    TimerInv (s.resizeSendBuffer newSize) :=
  ⟨h.queue.resizeSendBuffer newSize, h.recover, h.clock, .of_nil (h.idle hst), h.idle, h.timer⟩

end TimerInv

/-! ## `process` -/

namespace TimerInv

theorem control (h : TimerInv s) (sg : Segment) : TimerInv (s.control sg).1 := by
  unfold PseudoTcp.control
  split_ifs
  · exact h
  · exact h
  · dsimp only
    have hopt := h.untimed (.parseOptions s (block sg.data 1 (sg.len - 1).toNat))
    generalize s.parseOptions (block sg.data 1 (sg.len - 1).toNat) = t at hopt ⊢
    unfold connectReceived
    split
    · next hst =>
      have hsyn := hopt.untimed (.setState t (show TcpState.synReceived ≠ .listen by decide))
      exact hsyn.queueConnectMessage (hopt.idle hst) (show TcpState.synReceived ≠ .listen by decide)
    · exact hopt.untimed (.establish t)
    · exact hopt
  · exact h

theorem processData (h : TimerInv s) (sg : Segment) (bConnect : Bool) : TimerInv (s.processData sg bConnect) := by
  have hopen := h.untimed ((Untimed.openIfSynReceived s bConnect).trans (.notifyWriteable _))
  unfold PseudoTcp.processData
  generalize (s.openIfSynReceived bConnect).notifyWriteable = t at hopen ⊢
  have hrecv := hopen.untimed (.of_recvFrame (.receive t (t.trim sg) (t.ackFlags sg)))
  exact ((KeepsTimer.attemptSend _ hrecv).1).untimed (.notifyReadable _ _)

theorem processSegment (h : TimerInv s) (sg : Segment) (hnow : now ≠ 0) : TimerInv (s.processSegment sg now).1 := by
  have hcontrol := h.control sg
  unfold PseudoTcp.processSegment
  split
  · next t heq =>
    rw [heq] at hcontrol
    exact hcontrol
  · next t bConnect heq =>
    rw [heq] at hcontrol
    have hack := (hcontrol.untimed (.updateTimestamp t sg)).processAck sg hnow
    split
    · next t' heq' =>
      rw [heq'] at hack
      exact hack
    · next t' heq' =>
      rw [heq'] at hack
      dsimp only
      exact hack.processData sg bConnect

theorem process (h : TimerInv s) (sg : Segment) : TimerInv (s.process sg).1 := by
  have hnote : TimerInv s.noteTraffic := h.untimed (.of_part rfl 1 rfl)
  unfold PseudoTcp.process
  split_ifs
  · exact h
  · exact hnote
  · exact hnote.untimed (.closedown _ _)
  · exact hnote.processSegment sg h.now_ne

/-! ## The interface -/

theorem clockRetransmit (h : TimerInv s) (hnow : now ≠ 0) : TimerInv (s.clockRetransmit now).1 := by
  rcases clockRetransmit_cases s now with heq | ⟨hrto, ⟨-, heq⟩ | ⟨-, t, ht, heq⟩⟩
  · rw [heq]
    exact h
  · rw [heq]
    exact h.untimed (.check s .clockEmpty false)
  · have hsent := KeepsTimer.transmitFront (h.timer.mp hrto) hnow h
    rw [← ht] at hsent
    obtain ⟨hfront, hin⟩ := hsent
    replace hin := hin (h.timer.mp hrto)
    rcases heq with heq | ⟨ssthresh, rxRto, heq⟩
    · rw [heq]
      exact hfront.untimed (.closedown t _)
    · rw [heq]
      exact ⟨hfront.queue.congr rfl rfl rfl rfl, hfront.recover, hfront.clock, hfront.filled, hfront.idle,
        ⟨fun _ => hin, fun _ => hnow⟩⟩

theorem clockProbe (h : TimerInv s) (now : Uint32) : TimerInv (s.clockProbe now).1 := by
  rcases clockProbe_cases s now with heq | heq | ⟨rxRto, heq⟩
  · rw [heq]
    exact h
  · rw [heq]
    exact h.untimed (.closedown s _)
  · rw [heq]
    exact h.untimed ((Untimed.packet s _ _ _ _).trans (.of_part rfl 0 rfl))

theorem notifyClock (h : TimerInv s) (hnow : now ≠ 0) : TimerInv (s.notifyClock now) :=
  notifyClock_rel (R := fun a b => TimerInv a → TimerInv b) (fun _ => id)
    (fun hab hbc ha => hbc (hab ha)) (fun h => h.clockRetransmit hnow) (fun _ h => h.clockProbe now)
    (fun t h => h.untimed (.packet t _ _ _ _)) h

theorem reopenWindow (h : TimerInv s) : TimerInv s.reopenWindow := by
  have hcheck := h.untimed (.check s .recvWindow (s.rcv.rcvWnd ≤ u32 s.rcv.rbuf.getWriteRemaining))
  unfold PseudoTcp.reopenWindow widenWindow
  simp only
  generalize s.check .recvWindow (s.rcv.rcvWnd ≤ u32 s.rcv.rbuf.getWriteRemaining) = t at hcheck ⊢
  generalize u32 s.rcv.rbuf.getWriteRemaining = available
  have hwiden : TimerInv { t with rcv.rcvWnd := available } := hcheck.untimed (.of_part rfl 0 rfl)
  split_ifs
  · exact (KeepsTimer.attemptSend .immediateAck hwiden).1
  · exact hwiden
  · exact hcheck

theorem recv (h : TimerInv s) (len : ℕ) : TimerInv (s.recv len).1 := by
  unfold PseudoTcp.recv
  split_ifs
  · have herror : TimerInv { s with error := .enotconn } := h.untimed (.of_part rfl 0 rfl)
    exact herror
  · split
    · next rbuf _ =>
      have hblock : TimerInv { s with
          rcv.rbuf := rbuf, readEnable := true, error := .ewouldblock } := h.untimed (.of_part rfl 0 rfl)
      exact hblock
    · next result out rbuf _ _ =>
      have hcheck := h.untimed (.check s .recvResult (result = .success))
      dsimp only
      generalize s.check .recvResult (result = .success) = t at hcheck ⊢
      have hread : TimerInv { t with rcv.rbuf := rbuf } := hcheck.untimed (.of_part rfl 0 rfl)
      exact hread.reopenWindow

theorem connect (h : TimerInv s) : TimerInv s.connect.1 := by
  unfold PseudoTcp.connect
  split_ifs with hst
  · have herror : TimerInv { s with error := .einval } := h.untimed (.of_part rfl 0 rfl)
    exact herror
  · have hsyn := h.untimed (.setState s (show TcpState.synSent ≠ .listen by decide))
    have hqueue := hsyn.queueConnectMessage (h.idle (not_not.mp hst))
      (show TcpState.synSent ≠ .listen by decide)
    dsimp only
    exact (KeepsTimer.attemptSend .none hqueue).1

theorem send (h : TimerInv s) (data : ℕ → Uint8) (len : ℕ) : TimerInv (s.send data len).1 := by
  unfold PseudoTcp.send
  split_ifs with hst hroom
  · have herror : TimerInv { s with error := .enotconn } := h.untimed (.of_part rfl 0 rfl)
    exact herror
  · have herror : TimerInv { s with writeEnable := true, error := .ewouldblock } :=
      h.untimed (.of_part rfl 0 rfl)
    exact herror
  · have hlisten : s.state ≠ .listen := by
      rw [not_not.mp hst]
      decide
    have hqueue := h.enqueue hlisten hroom data (u32 len)
    dsimp only
    exact (KeepsTimer.attemptSend .none hqueue).1

end TimerInv

/-! ## Runs -/

def Op.Timed : Op → Prop
  | .notifyClock now => now ≠ 0
  | _ => True

def SizesBuffer (s : PseudoTcp) (op : Op) : Prop :=
  ∀ value, op = .setOption .sndbuf value → s.state = .listen

/-- **Every call keeps the timer running while something is in flight**. -/
theorem TimerInv.step (h : TimerInv s) {op : Op} (htimed : op.Timed) (hsize : s.SizesBuffer op) :
    TimerInv (step s op) := by
  cases op with
  | connect => exact h.connect
  | recv len => exact h.recv len
  | send data len => exact h.send data len
  | close force => exact h.untimed (.of_part rfl 0 rfl)
  | notifyMTU mtu =>
    simp only [PseudoTcp.step, notifyMTU]
    split_ifs
    all_goals exact h.untimed (.of_part rfl 0 rfl)
  | notifyClock now => exact h.notifyClock htimed
  | notifyPacket buffer len =>
    simp only [PseudoTcp.step, notifyPacket, parse]
    split_ifs
    · exact h
    · exact h
    · exact h.process _
  | setOption opt value =>
    cases opt with
    | nodelay => exact h.untimed (.of_part rfl 0 rfl)
    | ackdelay => exact h.untimed (.of_part rfl 0 rfl)
    | sndbuf =>
      have hst : (s.check .optionState (s.state = .listen)).state = .listen := by
        rw [check_eq]
        exact hsize value rfl
      exact (h.untimed (.check s _ _)).resizeSendBuffer hst _
    | rcvbuf => exact h.untimed ((Untimed.check s _ _).trans (.resizeReceiveBuffer _ _))

def TimerLaw (s : PseudoTcp) : Prop :=
  (s.rtoBase ≠ 0 ↔ s.snd.sndNxt ≠ s.snd.sndUna) ∧ (s.rtoBase ≠ 0 → s.snd.slist ≠ []) ∧
    ∀ now, ¬ (s.RetransmitDue now ∧ s.snd.slist = [])

theorem TimerInv.law (h : TimerInv s) : TimerLaw s := by
  have hqueued : s.rtoBase ≠ 0 → s.snd.slist ≠ [] := by
    intro hrto hnil
    have hsent := (inFlight_iff h.queue).mp (h.timer.mp hrto)
    rw [hnil] at hsent
    exact hsent rfl
  exact ⟨h.timer.trans ne_comm, hqueued, fun now hdue => hqueued hdue.1.1 hdue.2⟩

/-- **The law of the timer holds after every run.** -/
theorem timerLaw_run (w : World) (conv : Uint32) (ops : List Op) (hclock : ∀ i, w.clock i ≠ 0)
    (htimed : ∀ op ∈ ops, op.Timed) (hsize : Guarded step SizesBuffer (new w conv) ops) :
    TimerLaw (run step (new w conv) ops) := by
  have hguarded : Guarded step (fun s op => op.Timed ∧ s.SizesBuffer op) (new w conv) ops :=
    guarded_and.mpr ⟨guarded_of_forall htimed _, hsize⟩
  have hinv := run_invariant (I := TimerInv) (fun _ _ h hG => h.step hG.1 hG.2)
    (TimerInv.new w conv hclock) hguarded
  exact hinv.law

/-- A connection with one byte under way. -/
theorem timerLaw_run_sent :
    TimerLaw (run step (new calmWorld 0) [.setOption .sndbuf 1000, .connect, .packet connectReply,
      .send (ptr [1]) 1]) :=
  timerLaw_run calmWorld 0 _ (fun _ => (by decide : (1 : Uint32) ≠ 0))
    (by simp [Op.Timed, Op.packet])
    ⟨fun _ _ => rfl, (fun _ h => nomatch h), (fun _ h => nomatch h), (fun _ h => nomatch h), trivial⟩

/-- A world where packets are never sent. -/
def deafWorld : World := ⟨fun _ => 1, fun _ => .fail, fun _ => 0⟩

def lateBufferOps : List Op :=
  [.setOption .sndbuf 0, .connect, .packet connectReply, .setOption .sndbuf 1000, .send (ptr [1]) 1]

/-- **The empty segment starts the timer**, and nothing is in flight. -/
theorem timerLaw_misled :
    (∀ i, deafWorld.clock i ≠ 0) ∧ (∀ op ∈ lateBufferOps, op.Timed) ∧
      (run step (new deafWorld 0) lateBufferOps).state ≠ .closed ∧
      ¬ TimerLaw (run step (new deafWorld 0) lateBufferOps) := by
  refine ⟨fun _ => (by decide : (1 : Uint32) ≠ 0), by simp [lateBufferOps, Op.Timed, Op.packet],
    by decide, fun hlaw => ?_⟩
  have hrto : (run step (new deafWorld 0) lateBufferOps).rtoBase ≠ 0 := by decide
  exact absurd (by decide) (hlaw.1.mp hrto)

end PseudoTcp

end Libjingle
