import Libjingle.PseudoTcp.Cases
import Mathlib.Data.List.TakeWhile

/-!
# The send side as a machine of its own

Every call of the interface is, for the send side, a sequence of a few kinds of moves. First moves
that change what is queued (`QueueMove`), then moves that put packets on the wire (`EmitMove`); in
between and around them, moves that leave the send queue alone (`Quiet`).

Main result: **`step_moves`**.
-/

variable {post pre : List SSegment} {seg : SSegment}

namespace Libjingle

open Lib Relation

/-- An assertion about the send side. -/
def Fault.IsSend : Fault → Prop
  | .readResult | .bytesRead | .inFlight | .searchEnd | .transmitEnd | .consumeRead
  | .ackEmpty => True
  | _ => False

namespace PseudoTcp

variable {s s' : PseudoTcp}

/-- Nothing has been sent yet. -/
def Fresh (s : PseudoTcp) : Prop :=
  s.snd.sndNxt = 0 ∧ s.snd.sndUna = 0 ∧ ∀ g ∈ s.snd.slist, g.xmit = 0

/-! ## Quiet moves -/

/-- A move that leaves the send queue alone. It may write packets without payload. -/
structure Quiet (s s' : PseudoTcp) : Prop where
  slist : s'.snd.slist = s.snd.slist
  sndNxt : s'.snd.sndNxt = s.snd.sndNxt
  sndUna : s'.snd.sndUna = s.snd.sndUna
  sbuf : s'.snd.sbuf = s.snd.sbuf
  sndWnd : s'.snd.sndWnd = s.snd.sndWnd
  swndScale : s'.snd.swndScale = s.snd.swndScale
  mtuAdvise : s'.mtuAdvise = s.mtuAdvise
  conv : s'.conv = s.conv
  state : s'.state = s.state ∨ s'.state ≠ .listen
  mss : s'.mss = s.mss ∨ TableMss s'.mss ∨ s'.mss = s.mtuAdvise - packetOverhead
  cwnd : s.Fresh → s.cwnd ≤ s'.cwnd ∨ s'.mss ≤ s'.cwnd
  dupAcks : s.Fresh → s'.dupAcks = s.dupAcks ∨ s'.dupAcks = 0
  recover : s'.recover = s.recover ∨ s'.recover = s.snd.sndNxt
  log : ∃ es, s'.log = s.log ++ es ∧
    ∀ p r, .tcpWritePacket p r ∈ es → p.payload = [] ∧ p.flags = 0
  faults : ∀ f ∈ s'.faults, f ∈ s.faults ∨ ¬ f.IsSend

def quietPart (s : PseudoTcp) :=
  ((s.snd.slist, s.snd.sndNxt, s.snd.sndUna, s.snd.sbuf, s.snd.sndWnd, s.snd.swndScale),
    s.mtuAdvise, s.conv, s.state, s.mss, s.cwnd, s.dupAcks, s.recover)

theorem Quiet.of_part (h : s'.quietPart = s.quietPart) (hlog : ∃ es, s'.log = s.log ++ es ∧
      ∀ p r, .tcpWritePacket p r ∈ es → p.payload = [] ∧ p.flags = 0)
    (hfaults : ∀ f ∈ s'.faults, f ∈ s.faults ∨ ¬ f.IsSend) : Quiet s s' := by
  simp only [quietPart, Prod.mk.injEq] at h
  obtain ⟨⟨h1, h2, h3, h4, h5, h6⟩, h7, h8, h9, h10, h11, h12, h13⟩ := h
  exact ⟨h1, h2, h3, h4, h5, h6, h7, h8, .inl h9, .inl h10, fun _ => .inl (h11 ▸ BitVec.le_refl _),
    fun _ => .inl h12, .inl h13, hlog, hfaults⟩

theorem Quiet.of_silent (h : s'.quietPart = s.quietPart) (hlog : s'.log = s.log)
    (hfaults : s'.faults = s.faults) : Quiet s s' :=
  .of_part h ⟨[], by simp [hlog], by simp⟩ fun _ hf => .inl (hfaults ▸ hf)

theorem Quiet.check (s : PseudoTcp) (fault : Fault) (hf : ¬ fault.IsSend) (c : Bool) : Quiet s (s.check fault c) := by
  rw [check_eq]
  refine .of_part rfl ⟨[], by simp, by simp⟩ fun f hmem => ?_
  rcases List.mem_append.mp hmem with hm | hm
  · exact .inl hm
  · cases c
    · obtain rfl : f = fault := by simpa using hm
      exact .inr hf
    · simp at hm

theorem Quiet.emit (s : PseudoTcp) (e : Event) (he : ∀ p r, e ≠ .tcpWritePacket p r) : Quiet s (s.emit e) :=
  .of_part rfl ⟨[e], rfl, fun p r hm => absurd (List.mem_singleton.mp hm).symm (he p r)⟩
    fun _ hf => .inl hf

theorem Quiet.packet (s : PseudoTcp) (seq offset : Uint32) : Quiet s (s.packet seq 0 offset 0).1 := by
  have hlog : ∃ es, (s.packet seq 0 offset 0).1.log = s.log ++ es ∧
      ∀ p r, .tcpWritePacket p r ∈ es → p.payload = [] ∧ p.flags = 0 := by
    rw [packet_eq]
    refine ⟨[.tcpWritePacket (s.buildPacket seq 0 offset 0) (s.results 0)], by simp, ?_⟩
    intro p r hm
    cases List.mem_singleton.mp hm
    exact ⟨rfl, rfl⟩
  refine .of_part ?_ hlog fun f hf => ?_
  · rw [packet_eq]
    simp only
    split_ifs <;> rfl
  · rw [packet_eq] at hf
    simp only [ne_eq, not_true_eq_false, and_false, if_false, List.mem_append, packetFaults,
      true_or, if_true, List.append_nil] at hf
    rcases hf with hf | hf | hf
    · exact .inl hf
    · split_ifs at hf
      · simp at hf
      · rw [List.mem_singleton.mp hf]; exact .inr id
    · split_ifs at hf
      · simp at hf
      · rw [List.mem_singleton.mp hf]; exact .inr id

/-! ## Emitting moves -/

def Fits (s : PseudoTcp) (seg : SSegment) (n : Uint32) : Prop :=
  n = min32 seg.len s.mss ∨ (n < seg.len ∧ TableMss n)

theorem Fits.le {n : Uint32} (h : s.Fits seg n) : n ≤ seg.len := by
  rcases h with rfl | ⟨h, -⟩
  · unfold min32
    split_ifs <;> bv_omega
  · exact BitVec.le_of_lt h

/-- One step of sending. -/
inductive EmitMove : PseudoTcp → PseudoTcp → Prop where
  | quiet {s s' : PseudoTcp} (h : Quiet s s') : EmitMove s s'
  | packet {s : PseudoTcp} {pre seg post n} (hl : s.snd.slist = pre ++ seg :: post)
      (hn : Fits s seg n) :
      EmitMove s (s.packet seg.seq seg.flags (seg.seq - s.snd.sndUna) n).1
  | sent {s : PseudoTcp} {pre seg post n} (now : Uint32) (hl : s.snd.slist = pre ++ seg :: post)
      (hpre : ∀ g ∈ pre, g.xmit ≠ 0) (hx : seg.xmit < 30) (hn : Fits s seg n) :
      EmitMove s (s.transmitted pre seg post n now)
  | cut {s : PseudoTcp} {pre seg post} (hl : s.snd.slist = pre ++ seg :: post)
      (hpre : ∀ g ∈ pre, g.xmit ≠ 0) (hx : seg.xmit = 0) (h0 : s.nAvailable ≠ 0) (hlt : s.nAvailable < seg.len) :
      EmitMove s { s with snd.slist := pre ++ ({ seg with len := s.nAvailable } ::
        .mk' (seg.seq + s.nAvailable) (seg.len - s.nAvailable) seg.bCtrl :: post) }
  | checkInFlight {s : PseudoTcp} :
      EmitMove s (s.check .inFlight (s.nInFlight ≤ u32 s.snd.sbuf.getBuffered))
  | checkSearch {s : PseudoTcp} (h0 : s.nAvailable ≠ 0) (hall : ∀ g ∈ s.snd.slist, g.xmit ≠ 0) :
      EmitMove s (s.check .searchEnd false)
  | checkBegin {s : PseudoTcp} (hnil : s.snd.slist = []) (h : s.snd.sndUna ≠ s.snd.sndNxt ∨
      (s.snd.sndUna ≤ s.snd.sndNxt ∧ s.snd.sndUna < s.recover)) :
      EmitMove s (s.check .transmitEnd false)

/-- A run of steps of sending. -/
abbrev Emits : PseudoTcp → PseudoTcp → Prop := ReflTransGen EmitMove

namespace Emits

theorem quiet (h : Quiet s s') : Emits s s' := .single (.quiet h)

theorem lowerMss (s : PseudoTcp) {mtu : Uint16} (hmem : mtu ∈ packetMaximums) (h0 : mtu ≠ 0) :
    Quiet s (s.lowerMss mtu) where
  slist := rfl
  sndNxt := rfl
  sndUna := rfl
  sbuf := rfl
  sndWnd := rfl
  swndScale := rfl
  mtuAdvise := rfl
  conv := rfl
  state := .inl rfl
  mss := .inr (.inl ⟨mtu, hmem, h0, rfl⟩)
  cwnd _ := by
    right
    change mtu.setWidth 32 - packetOverhead ≤ 2 * (mtu.setWidth 32 - packetOverhead)
    simp only [packetMaximums, List.mem_cons, List.not_mem_nil, or_false] at hmem
    rcases hmem with rfl | rfl | rfl | rfl | rfl | rfl | rfl | rfl | rfl | rfl | rfl
    case inr.inr.inr.inr.inr.inr.inr.inr.inr.inr => exact absurd rfl h0
    all_goals decide
  dupAcks _ := .inl rfl
  recover := .inl rfl
  log := ⟨[], by simp [PseudoTcp.lowerMss], by simp⟩
  faults _ hf := .inl hf

theorem packet_slist (s : PseudoTcp) (seq : Uint32) (flags : Uint8) (offset len : Uint32) :
    (s.packet seq flags offset len).1.snd.slist = s.snd.slist := by
  rw [packet_eq]
  simp only
  split_ifs <;> rfl

theorem packet_mss (s : PseudoTcp) (seq : Uint32) (flags : Uint8) (offset len : Uint32) :
    (s.packet seq flags offset len).1.mss = s.mss := by
  rw [packet_eq]
  simp only
  split_ifs <;> rfl

theorem transmitPacket (hl : s.snd.slist = pre ++ seg :: post) :
    Emits s (s.transmitPacket seg (min32 seg.len s.mss)).1 ∧
      (s.transmitPacket seg (min32 seg.len s.mss)).1.snd.slist = s.snd.slist := by
  have hmin : min32 seg.len s.mss ≤ seg.len := Fits.le (s := s) (.inl rfl)
  -- the list stays as it is while packets are tried, so the segment stays in it
  refine transmitPacket_rel (R := fun a b => a.snd.slist = s.snd.slist →
    Emits a b ∧ b.snd.slist = a.snd.slist) ?_ ?_ seg ?_ s (min32 seg.len s.mss) ?_ ?_ rfl
  · exact fun a _ => ⟨.refl, rfl⟩
  · intro a b c hab hbc ha
    obtain ⟨h1, h2⟩ := hab ha
    obtain ⟨h3, h4⟩ := hbc (h2.trans ha)
    exact ⟨h1.trans h3, h4.trans h2⟩
  · exact fun a mtu hmem h0 _ => ⟨.quiet (lowerMss a hmem h0), rfl⟩
  · exact fun _ => ⟨.single (.packet hl (.inl rfl)), packet_slist _ _ _ _ _⟩
  · intro a m hlt htab ha
    exact ⟨.single (.packet (ha.trans hl) (.inr ⟨by bv_omega, htab⟩)), packet_slist _ _ _ _ _⟩

theorem transmit (hl : s.snd.slist = pre ++ seg :: post) (hpre : ∀ g ∈ pre, g.xmit ≠ 0) (now : Uint32) :
    Emits s (s.transmit pre seg post now).1 := by
  obtain ⟨hp, hsl⟩ := transmitPacket hl
  rcases transmit_cases s pre seg post now with ⟨h, -⟩ | ⟨s₁, hs, h⟩ | ⟨s₁, n, hs, hx, h⟩
  · rw [h]
  · rw [h]; rw [hs] at hp; exact hp
  · rw [h]
    rw [hs] at hp hsl
    refine hp.tail (.sent now (hsl.trans hl) hpre hx ?_)
    rcases transmitPacket_le (by rw [hs]) with ⟨rfl, h1⟩ | ⟨hlt, htab⟩
    · left
      rw [hs] at h1
      rw [show s₁ = _ from h1, packet_mss]
    · right
      have hle : s.Fits seg (min32 seg.len s.mss) := .inl rfl
      exact ⟨by have := hle.le; bv_omega, htab⟩

theorem transmitFront (s : PseudoTcp) (now : Uint32) (h : s.snd.slist = [] →
    s.snd.sndUna ≠ s.snd.sndNxt ∨ (s.snd.sndUna ≤ s.snd.sndNxt ∧ s.snd.sndUna < s.recover)) :
    Emits s (s.transmitFront now).1 := by
  unfold PseudoTcp.transmitFront
  cases hl : s.snd.slist with
  | nil => exact .single (.checkBegin hl (h hl))
  | cons seg after => exact transmit (show _ = [] ++ seg :: after from hl) (by simp) now

/-! ## The loop of `attemptSend` -/

theorem nextSegment_append (l : List SSegment) : (nextSegment l).1 ++ (nextSegment l).2 = l := by
  simp [nextSegment, List.span_eq_takeWhile_dropWhile]

theorem nextSegment_pre {l : List SSegment} {g : SSegment} (h : g ∈ (nextSegment l).1) : g.xmit ≠ 0 := by
  rw [nextSegment, List.span_eq_takeWhile_dropWhile] at h
  have := List.mem_takeWhile_imp h
  intro hz
  simp [hz] at this

theorem nextSegment_seg {l : List SSegment} (h : nextSegment l = (pre, seg :: post)) : seg.xmit = 0 := by
  have h2 : (nextSegment l).2 = seg :: post := by rw [h]
  rw [nextSegment, List.span_eq_takeWhile_dropWhile] at h2
  have := List.head?_dropWhile_not (fun g : SSegment => decide (g.xmit > 0)) l
  simp only at h2
  rw [h2] at this
  simp only [List.head?_cons, decide_eq_false_iff_not] at this
  bv_omega

theorem sendAck (s : PseudoTcp) (sflags : SendFlags) : Emits s (s.sendAck sflags) := by
  cases sflags with
  | none => exact .refl
  | immediateAck => exact .quiet (.packet s _ 0)
  | delayedAck =>
    unfold PseudoTcp.sendAck
    simp only
    split_ifs
    · exact .quiet (.packet s _ 0)
    · exact .quiet (.of_silent rfl rfl rfl)

theorem sendSegment (h0 : s.nAvailable ≠ 0) (hnext : nextSegment s.snd.slist = (pre, seg :: post)) (now : Uint32) :
    Emits s (s.sendSegment pre seg post s.nAvailable now).1 := by
  have hl : s.snd.slist = pre ++ seg :: post := by
    have := nextSegment_append s.snd.slist
    rw [hnext] at this
    exact this.symm
  have hpre : ∀ g ∈ pre, g.xmit ≠ 0 := by
    intro g hg
    exact nextSegment_pre (l := s.snd.slist) (by rw [hnext]; exact hg)
  have hx := nextSegment_seg hnext
  unfold PseudoTcp.sendSegment
  by_cases hlt : seg.len > s.nAvailable
  · simp only [if_pos hlt]
    exact .head (.cut hl hpre hx h0 hlt) (transmit rfl hpre now)
  · simp only [if_neg hlt]
    rw [← hl]
    exact transmit hl hpre now

theorem attemptSend (s : PseudoTcp) (sflags : SendFlags) : Emits s (s.attemptSend sflags) := by
  have hstart : Quiet s s.beforeLoop := by
    unfold beforeLoop
    split_ifs
    · refine ⟨rfl, rfl, rfl, rfl, rfl, rfl, rfl, rfl, .inl rfl, .inl rfl, fun _ => .inr ?_,
        fun _ => .inl rfl, .inl rfl, ⟨[], by simp [tick], by simp⟩, fun _ hf => .inl hf⟩
      exact BitVec.le_refl _
    · exact .of_silent rfl rfl rfl
  refine (quiet hstart).trans (sendLoop_rel (fun _ => .refl) .trans ?_ ?_ sendAck _ ?_ _ _ _)
  · exact fun s => .single .checkInFlight
  · intro s h0 hnil
    refine .single (.checkSearch h0 fun g hg => nextSegment_pre (l := s.snd.slist) ?_)
    have := nextSegment_append s.snd.slist
    rw [hnil, List.append_nil] at this
    rwa [this]
  · exact fun s pre seg post h0 hnext => sendSegment h0 hnext _

end Emits

/-! ## Queueing moves -/

/-- The segment that a call hands to `process`. -/
def Op.segment : Op → Option Segment
  | .notifyPacket buffer len =>
    if len > maxPacket.toNat ∨ u32 len < 12 then none else some (parseSegment buffer (u32 len))
  | _ => none

/-- `process` takes notice of the segment. -/
def accepts (s : PseudoTcp) (seg : Segment) : Bool :=
  seg.conv = s.conv && s.state ≠ .closed && seg.flags &&& flagRst = 0 &&
    (seg.flags &&& flagCtl = 0 || (seg.len ≠ 0 && seg.data 0 = ctlConnect))

def incoming (s : PseudoTcp) (op : Op) : Option Segment := op.segment.filter fun seg => s.accepts seg

/-- What the call `op`, with the segment `inc`, does to the send queue, one move at a time. -/
inductive QueueMove (op : Op) (inc : Option Segment) : PseudoTcp → PseudoTcp → Prop where
  | quiet {s s' : PseudoTcp} (h : Quiet s s') : QueueMove op inc s s'
  | options {s : PseudoTcp} {seg : Segment} (hinc : inc = some seg)
      (hctl : seg.flags &&& flagCtl ≠ 0) (hlen : seg.len ≠ 0) (hdata : seg.data 0 = ctlConnect) :
      QueueMove op inc s (s.parseOptions (block seg.data 1 (seg.len - 1).toNat))
  | window {s : PseudoTcp} {seg : Segment} (hinc : inc = some seg)
      (hack : s.isValuable seg.ack ∨ seg.ack = s.snd.sndUna) :
      QueueMove op inc s { s with snd.sndWnd := s.announcedWindow seg }
  | advance {s : PseudoTcp} {seg : Segment} (now : Uint32) (hinc : inc = some seg)
      (hack : s.isValuable seg.ack) : QueueMove op inc s (s.advanceUna seg.ack now)
  | connectMessage {s : PseudoTcp} (st : TcpState) (h : s.state = .listen) (hst : st ≠ .listen) :
      QueueMove op inc s (s.setState st).queueConnectMessage
  | queue {s : PseudoTcp} {data : ℕ → Uint8} {len : ℕ} (hop : op = .send data len)
      (h : s.state = .established) : QueueMove op inc s (s.queue data (u32 len) false).1
  | mtu {s : PseudoTcp} {mtu : Uint16} (hop : op = .notifyMTU mtu) :
      QueueMove op inc s { s with mtuAdvise := mtu.setWidth 32 }
  | resize {s : PseudoTcp} {value : ℤ} (hop : op = .setOption .sndbuf value) :
      QueueMove op inc s (s.resizeSendBuffer (BitVec.ofInt 32 value))

/-- A run of steps of the send queue. -/
abbrev Queues (op : Op) (inc : Option Segment) : PseudoTcp → PseudoTcp → Prop :=
  ReflTransGen (QueueMove op inc)

/-! ## Quiet parts of the receive path and of the interface -/

theorem RecvFrame.quiet (h : RecvFrame s s') : Quiet s s' := by
  obtain ⟨r, fs, rfl, hfs, -⟩ := h
  refine .of_part rfl ⟨[], by simp, by simp⟩ fun f hf => ?_
  rcases List.mem_append.mp hf with hm | hm
  · exact .inl hm
  · right
    have := hfs f hm
    cases f <;> first | exact id | exact this.elim

namespace Quiet

theorem of_not_fresh (hf : ¬ s.Fresh) {ssthresh cwnd recover rxRto rtoBase : Uint32}
    {dupAcks : Uint8} (hrec : recover = s.recover ∨ recover = s.snd.sndNxt) :
    Quiet s { s with
      ssthresh := ssthresh, cwnd := cwnd, dupAcks := dupAcks, recover := recover
      rxRto := rxRto, rtoBase := rtoBase } :=
  ⟨rfl, rfl, rfl, rfl, rfl, rfl, rfl, rfl, .inl rfl, .inl rfl, fun h => absurd h hf,
    fun h => absurd h hf, hrec, ⟨[], by simp, by simp⟩, fun _ hf => .inl hf⟩

theorem setState (s : PseudoTcp) {st : TcpState} (h : st ≠ .listen) : Quiet s (s.setState st) :=
  ⟨rfl, rfl, rfl, rfl, rfl, rfl, rfl, rfl, .inr h, .inl rfl, fun _ => .inl (BitVec.le_refl _),
    fun _ => .inl rfl, .inl rfl, ⟨_, rfl, fun p r hm => by cases List.mem_singleton.mp hm⟩,
    fun _ hf => .inl hf⟩

theorem adjustMTU (s : PseudoTcp) : Quiet s s.adjustMTU :=
  ⟨rfl, rfl, rfl, rfl, rfl, rfl, rfl, rfl, .inl rfl, .inr (.inr rfl), fun _ => by
      left
      simp only [PseudoTcp.adjustMTU, max32]
      split_ifs with h
      · exact BitVec.le_of_lt h
      · exact BitVec.le_refl _,
    fun _ => .inl rfl, .inl rfl, ⟨[], by simp [PseudoTcp.adjustMTU], by simp⟩, fun _ hf => .inl hf⟩

end Quiet

abbrev Quiets : PseudoTcp → PseudoTcp → Prop := ReflTransGen Quiet

theorem Quiets.emits (h : Quiets s s') : Emits s s' :=
  ReflTransGen.mono (fun _ _ h => EmitMove.quiet h) _ _ h

theorem Quiets.queues {op : Op} {inc : Option Segment} (h : Quiets s s') : Queues op inc s s' :=
  ReflTransGen.mono (fun _ _ h => QueueMove.quiet h) _ _ h

theorem Quiets.of_quiet (h : Quiet s s') : Quiets s s' := .single h

namespace Quiets

theorem closedown (s : PseudoTcp) (err : Errno) : Quiets s (s.closedown err) :=
  .head (.setState s (by decide)) (of_quiet (.emit _ (.onTcpClosed err) (by simp)))

theorem establish (s : PseudoTcp) : Quiets s s.establish :=
  .head (.setState s (by decide)) (.head (.adjustMTU _) (of_quiet (.emit _ .onTcpOpen (by simp))))

theorem openIfSynReceived (s : PseudoTcp) (bConnect : Bool) : Quiets s (s.openIfSynReceived bConnect) := by
  unfold PseudoTcp.openIfSynReceived
  split_ifs
  · exact establish s
  · exact .refl

theorem notifyWriteable (s : PseudoTcp) : Quiets s s.notifyWriteable := by
  unfold PseudoTcp.notifyWriteable
  simp only
  split_ifs
  · exact of_quiet (.of_part rfl ⟨[.onTcpWriteable], rfl, by simp⟩ fun _ hf => .inl hf)
  · exact .refl

theorem notifyReadable (s : PseudoTcp) (bNewData : Bool) : Quiets s (s.notifyReadable bNewData) := by
  unfold PseudoTcp.notifyReadable
  split_ifs
  · exact of_quiet (.of_part rfl ⟨[.onTcpReadable], rfl, by simp⟩ fun _ hf => .inl hf)
  · exact .refl

theorem updateTimestamp (s : PseudoTcp) (seg : Segment) : Quiets s (s.updateTimestamp seg) := by
  unfold PseudoTcp.updateTimestamp
  split_ifs
  · exact of_quiet (.of_silent rfl rfl rfl)
  · exact .refl

theorem updateRtt (s : PseudoTcp) (tsecr now : Uint32) : Quiets s (s.updateRtt tsecr now) := by
  unfold PseudoTcp.updateRtt
  split_ifs
  · exact .refl
  · exact of_quiet (.check s .negativeRtt id _)
  all_goals exact of_quiet (.of_silent rfl rfl rfl)

theorem resizeReceiveBuffer (s : PseudoTcp) (newSize : Uint32) : Quiets s (s.resizeReceiveBuffer newSize) :=
  .head (.check s .resize id _) (of_quiet (.of_silent rfl rfl rfl))

end Quiets

/-! ## `process` -/

section Process

variable {op : Op} {inc : Option Segment} {seg : Segment}

theorem control_moves (s : PseudoTcp) (hinc : inc = some seg) : Queues op inc s (s.control seg).1 := by
  unfold control
  split_ifs with hctl hlen hdata
  · exact .refl
  · exact .refl
  · refine .head (.options hinc hctl hlen hdata) ?_
    generalize s.parseOptions (block seg.data 1 (seg.len - 1).toNat) = t
    unfold connectReceived
    split
    · next hst => exact .single (.connectMessage .synReceived hst (by decide))
    · exact (Quiets.establish t).queues
    · exact .refl
  · exact .refl

theorem advanceUna_fields (s : PseudoTcp) (ack now : Uint32) :
    (s.advanceUna ack now).snd.sndNxt = s.snd.sndNxt ∧
      (s.advanceUna ack now).snd.sndUna = ack := by
  simp only [advanceUna, check_eq, and_self]

theorem ackCongestion_moves (s : PseudoTcp) (hle : s.snd.sndUna ≤ s.snd.sndNxt)
    (h0 : s.snd.sndUna ≠ 0) (nAcked now : Uint32) : Emits s (s.ackCongestion nAcked now).1 := by
  rcases ackCongestion_cases s nAcked now with ⟨cwnd, h⟩ | ⟨-, hrec, cwnd, h⟩
  · rw [h]
    exact .single (.quiet (.of_not_fresh (fun hf => h0 hf.2.1) (.inl rfl)))
  · rw [h]
    have hfront := Emits.transmitFront s now fun _ => .inr ⟨hle, hrec⟩
    refine hfront.tail (.quiet (.of_not_fresh (fun hf => h0 ?_) (.inl rfl)))
    rw [← (SendFrame.transmitFront s now).sndUna]
    exact hf.2.1

theorem transmitFront_not_fresh {t : PseudoTcp} {now : Uint32} (hne : s.snd.sndUna ≠ s.snd.sndNxt)
    (h : s.transmitFront now = (t, true)) : ¬ t.Fresh := by
  rintro ⟨hn, hu, hx⟩
  unfold transmitFront at h
  split at h
  · cases h
    rw [check_eq] at hn hu
    exact hne (hu.trans hn.symm)
  · next seg after hl =>
    rcases transmit_cases s [] seg after now with ⟨h', -⟩ | ⟨s₁, -, h'⟩ | ⟨s₁, n, -, hlt, h'⟩
    · rw [h'] at h; cases h
    · rw [h'] at h; cases h
    · rw [h'] at h
      cases h
      have := hx _ (List.mem_append_right [] List.mem_cons_self)
      simp only at this
      split_ifs at this <;> bv_omega

theorem duplicateAck_moves (s : PseudoTcp) (hne : s.snd.sndUna ≠ s.snd.sndNxt) (now : Uint32) :
    Emits s (s.duplicateAck now).1 := by
  have hf : ¬ s.Fresh := fun h => hne (h.2.1.trans h.1.symm)
  have hdup : Quiet s { s with dupAcks := s.dupAcks + 1 } := .of_not_fresh hf (.inl rfl)
  refine .head (.quiet hdup) ?_
  unfold duplicateAck
  have hne' : ({ s with dupAcks := s.dupAcks + 1 } : PseudoTcp).snd.sndUna ≠
      ({ s with dupAcks := s.dupAcks + 1 } : PseudoTcp).snd.sndNxt := hne
  have hf' : ¬ ({ s with dupAcks := s.dupAcks + 1 } : PseudoTcp).Fresh := hf
  generalize ({ s with dupAcks := s.dupAcks + 1 } : PseudoTcp) = t at hne' hf' ⊢
  simp only
  split_ifs
  · have hfront := Emits.transmitFront t now fun _ => .inl hne'
    split
    · next t' heq =>
      rw [heq] at hfront
      exact hfront.tail (.quiet (.of_not_fresh (transmitFront_not_fresh hne' heq) (.inr rfl)))
    · next t' heq =>
      rw [heq] at hfront
      exact hfront
  · exact .single (.quiet (.of_not_fresh hf' (.inl rfl)))
  · exact .refl

theorem handleAck_moves (s : PseudoTcp) (hinc : inc = some seg) (now : Uint32) :
    ∃ s₁, Queues op inc s s₁ ∧ Emits s₁ (s.handleAck seg now).1 := by
  rcases handleAck_cases s seg now with ⟨hv, t, ht, h⟩ | ⟨-, hack, t, ht, h⟩ | ⟨-, h⟩
  · rw [h]
    have hrtt : Quiets s t := ht ▸ Quiets.updateRtt s seg.tsecr now
    have hsnd : t.snd = s.snd := by
      rw [ht]
      unfold updateRtt
      split_ifs <;> rfl
    have hv' : t.isValuable seg.ack := by
      rw [isValuable, hsnd]
      exact hv
    refine ⟨_, (hrtt.queues.tail (.window hinc (.inl hv'))).tail (.advance now hinc hv'), ?_⟩
    obtain ⟨hnxt, huna⟩ := advanceUna_fields
      ({ t with snd.sndWnd := t.announcedWindow seg } : PseudoTcp) seg.ack now
    simp only [isValuable, Bool.and_eq_true, decide_eq_true_eq] at hv'
    apply ackCongestion_moves
    · rw [hnxt, huna]
      exact hv'.2
    · rw [huna]
      bv_omega
  · refine ⟨t, ht ▸ .single (.window hinc (.inr hack)), ?_⟩
    rcases h with h | h | ⟨hne, h⟩
    · rw [h]
    · rw [h]
      refine .single (.quiet ?_)
      exact ⟨rfl, rfl, rfl, rfl, rfl, rfl, rfl, rfl, .inl rfl, .inl rfl,
        fun _ => .inl (BitVec.le_refl _), fun _ => .inr rfl, .inl rfl, ⟨[], by simp, by simp⟩,
        fun _ hf => .inl hf⟩
    · rw [h]
      exact duplicateAck_moves t (ht ▸ hne) now
  · rw [h]
    exact ⟨s, .refl, .refl⟩

theorem processAck_moves (s : PseudoTcp) (hinc : inc = some seg) (now : Uint32) :
    ∃ s₁, Queues op inc s s₁ ∧ Emits s₁ (s.processAck seg now).1 := by
  obtain ⟨s₁, hq, he⟩ := handleAck_moves s hinc now
  refine ⟨s₁, hq, ?_⟩
  unfold processAck
  split
  · next t heq =>
    rw [heq] at he
    exact he
  · next t heq =>
    rw [heq] at he
    exact he.trans (Quiets.closedown t _).emits

theorem processData_moves (s : PseudoTcp) (seg : Segment) (bConnect : Bool) :
    Emits s (s.processData seg bConnect) := by
  have h1 := Quiets.emits ((Quiets.openIfSynReceived s bConnect).trans (Quiets.notifyWriteable _))
  refine h1.trans ?_
  unfold processData
  generalize (s.openIfSynReceived bConnect).notifyWriteable = t
  refine .head (.quiet (RecvFrame.receive t (t.trim seg) (t.ackFlags seg)).quiet) ?_
  exact (Emits.attemptSend _ _).trans (Quiets.notifyReadable _ _).emits

theorem processSegment_moves (s : PseudoTcp) (hinc : inc = some seg) (now : Uint32) :
    ∃ s₁, Queues op inc s s₁ ∧ Emits s₁ (s.processSegment seg now).1 := by
  have hc : Queues op inc s (s.control seg).1 := control_moves s hinc
  unfold processSegment
  split
  · next t heq =>
    rw [heq] at hc
    exact ⟨t, hc, .refl⟩
  · next t bConnect heq =>
    rw [heq] at hc
    obtain ⟨s₁, hq, he⟩ := processAck_moves (t.updateTimestamp seg) hinc now
    refine ⟨s₁, (hc.trans (Quiets.updateTimestamp t seg).queues).trans hq, ?_⟩
    split
    · next t' heq' =>
      rw [heq'] at he
      exact he
    · next t' heq' =>
      rw [heq'] at he
      exact he.trans (processData_moves t' seg bConnect)

theorem control_rejected {t : PseudoTcp} (h : s.accepts seg = false) (hconv : seg.conv = s.conv)
    (hclosed : s.state ≠ .closed) (hrst : seg.flags &&& flagRst = 0) :
    t.control seg = (t, none) := by
  simp only [accepts, hconv, hrst, hclosed, ne_eq, not_false_eq_true, decide_true, Bool.true_and,
    Bool.or_eq_false_iff, Bool.and_eq_false_iff, decide_eq_false_iff_not, not_not] at h
  obtain ⟨hctl, h⟩ := h
  rw [control, if_neg hctl]
  rcases h with hlen | hdata
  · rw [if_pos hlen]
  · rw [if_neg hdata, ite_self]

theorem process_rejected (s : PseudoTcp) (h : s.accepts seg = false) : Quiets s (s.process seg).1 := by
  have h1 : Quiet s s.noteTraffic := .of_silent rfl rfl rfl
  unfold process
  split_ifs with hconv hclosed hrst
  · exact .refl
  · exact .single h1
  · exact .head h1 (Quiets.closedown _ _)
  · rw [processSegment, control_rejected h (not_not.mp hconv) hclosed (not_not.mp hrst)]
    exact .single h1

theorem process_moves (s : PseudoTcp) (hinc : s.accepts seg → inc = some seg) :
    ∃ s₁, Queues op inc s s₁ ∧ Emits s₁ (s.process seg).1 := by
  by_cases hacc : s.accepts seg = false
  · exact ⟨_, (process_rejected s hacc).queues, .refl⟩
  replace hinc := hinc (by simpa using hacc)
  have h1 : Quiet s s.noteTraffic := .of_silent rfl rfl rfl
  unfold process
  split_ifs
  · exact ⟨s, .refl, .refl⟩
  · exact ⟨_, .single (.quiet h1), .refl⟩
  · exact ⟨_, .head (.quiet h1) (Quiets.closedown _ _).queues, .refl⟩
  · obtain ⟨s₁, hq, he⟩ := processSegment_moves s.noteTraffic hinc s.now
    exact ⟨s₁, .head (.quiet h1) hq, he⟩

end Process

/-! ## The other calls -/

theorem clockRetransmit_moves (s : PseudoTcp) (now : Uint32) : Emits s (s.clockRetransmit now).1 := by
  rcases clockRetransmit_cases s now with h | ⟨-, ⟨-, h⟩ | ⟨hne, t, ht, h⟩⟩
  · rw [h]
  · rw [h]
    exact .single (.quiet (.check s .clockEmpty id false))
  · have hfront : Emits s t := ht ▸ Emits.transmitFront s now fun hnil => absurd hnil hne
    rcases h with h | ⟨ssthresh, rxRto, h⟩
    · rw [h]
      exact hfront.trans (Quiets.closedown t _).emits
    · rw [h]
      refine hfront.tail (.quiet ?_)
      exact ⟨rfl, rfl, rfl, rfl, rfl, rfl, rfl, rfl, .inl rfl, .inl rfl,
        fun _ => .inr (BitVec.le_refl _), fun _ => .inl rfl, .inl rfl, ⟨[], by simp, by simp⟩,
        fun _ hf => .inl hf⟩

theorem clockProbe_moves (s : PseudoTcp) (now : Uint32) : Emits s (s.clockProbe now).1 := by
  rcases clockProbe_cases s now with h | h | ⟨rxRto, h⟩
  · rw [h]
  · rw [h]
    exact (Quiets.closedown s _).emits
  · rw [h]
    exact .head (.quiet (.packet s _ _)) (.single (.quiet (.of_silent rfl rfl rfl)))

theorem notifyClock_moves (s : PseudoTcp) (now : Uint32) : Emits s (s.notifyClock now) :=
  notifyClock_rel (fun _ => .refl) .trans (clockRetransmit_moves s now) (fun t => clockProbe_moves t now)
    fun t => .single (.quiet (.packet t _ _))

theorem widenWindow_moves (s : PseudoTcp) (available : Uint32) : Emits s (s.widenWindow available) := by
  have hset : Quiet s { s with rcv.rcvWnd := available } := .of_silent rfl rfl rfl
  unfold widenWindow
  simp only
  split_ifs
  · exact .head (.quiet hset) (Emits.attemptSend { s with rcv.rcvWnd := available } _)
  · exact .single (.quiet hset)
  · exact .refl

theorem reopenWindow_moves (s : PseudoTcp) : Emits s s.reopenWindow :=
  .head (.quiet (.check s .recvWindow id _)) (widenWindow_moves _ _)

theorem recv_moves (s : PseudoTcp) (len : ℕ) : Emits s (s.recv len).1 := by
  unfold recv
  split_ifs
  · exact .single (.quiet (.of_silent rfl rfl rfl))
  · split
    · exact .single (.quiet (.of_silent rfl rfl rfl))
    · next result out rbuf _ _ =>
      refine .head (.quiet (.check s .recvResult id (result = .success))) ?_
      generalize s.check .recvResult (result = .success) = t
      have hset : Quiet t { t with rcv.rbuf := rbuf } := .of_silent rfl rfl rfl
      exact ReflTransGen.head (.quiet hset) (reopenWindow_moves { t with rcv.rbuf := rbuf })

/-- **Every call moves the queue, then sends**. -/
theorem step_moves (s : PseudoTcp) (op : Op) : ∃ s₁, Queues op (s.incoming op) s s₁ ∧ Emits s₁ (step s op) := by
  cases op with
  | connect =>
    simp only [step, connect]
    split_ifs with hst
    · exact ⟨s, .refl, .single (.quiet (.of_silent rfl rfl rfl))⟩
    · rw [not_not] at hst
      have hq : QueueMove .connect (s.incoming .connect) s (s.setState .synSent).queueConnectMessage :=
        .connectMessage .synSent hst (by decide)
      refine ⟨_, .single hq, ?_⟩
      dsimp only
      exact Emits.attemptSend _ .none
  | recv len => exact ⟨s, .refl, recv_moves s len⟩
  | send data len =>
    simp only [step, send]
    split_ifs with hst
    · exact ⟨s, .refl, .single (.quiet (.of_silent rfl rfl rfl))⟩
    · exact ⟨s, .refl, .single (.quiet (.of_silent rfl rfl rfl))⟩
    · rw [not_not] at hst
      have hq : QueueMove (.send data len) (s.incoming (.send data len)) s
          (s.queue data (u32 len) false).1 := .queue rfl hst
      refine ⟨_, .single hq, ?_⟩
      dsimp only
      exact Emits.attemptSend _ .none
  | close force => exact ⟨s, .refl, .single (.quiet (.of_silent rfl rfl rfl))⟩
  | notifyMTU mtu =>
    refine ⟨_, .single (.mtu rfl), ?_⟩
    simp only [step, notifyMTU]
    split_ifs
    · exact .single (.quiet (.adjustMTU _))
    · exact .refl
  | notifyClock now => exact ⟨s, .refl, notifyClock_moves s now⟩
  | notifyPacket buffer len =>
    simp only [step, notifyPacket, parse]
    split_ifs with hmax hmin
    · exact ⟨s, .refl, .refl⟩
    · exact ⟨s, .refl, .refl⟩
    · refine process_moves s fun hacc => ?_
      simp only [incoming, Op.segment, hmax, hmin, or_self, if_false]
      exact Option.filter_some_pos hacc
  | setOption opt value =>
    cases opt with
    | nodelay => exact ⟨s, .refl, .single (.quiet (.of_silent rfl rfl rfl))⟩
    | ackdelay => exact ⟨s, .refl, .single (.quiet (.of_silent rfl rfl rfl))⟩
    | sndbuf =>
      exact ⟨_, .head (.quiet (.check s .optionState id _)) (.single (.resize rfl)), .refl⟩
    | rcvbuf =>
      exact ⟨s, .refl, (Quiets.of_quiet (.check s .optionState id _)).emits.trans
        (Quiets.resizeReceiveBuffer _ _).emits⟩

end PseudoTcp

end Libjingle
