import Libjingle.PseudoTcp.Process

/-!
# What the send path and the receive path can change

`packet`, `transmit` and `attemptSend` only touch the send queue, the timers and the congestion
window; they only call `TcpWritePacket`, always with the current `m_rcv_nxt` and window. The
payload part of `process` only touches the members for incoming data.

Main results: **`SendFrame.attemptSend`**, **`RecvFrame.receive`**.
-/

variable {R : PseudoTcp → PseudoTcp → Prop}

namespace Libjingle

open Lib

namespace PseudoTcp

variable {s s' : PseudoTcp}

theorem check_eq (s : PseudoTcp) (fault : Fault) (c : Bool) :
    s.check fault c = { s with faults := s.faults ++ if c then [] else [fault] } := by
  unfold check
  cases c <;> simp

@[simp] theorem check_true (s : PseudoTcp) (fault : Fault) : s.check fault true = s := rfl

def MayFault (s : PseudoTcp) : Fault → Prop
  | .packetSize | .readResult | .bytesRead | .inFlight | .searchEnd | .transmitEnd => True
  | .windowCast => ¬ (s.rcv.rcvWnd >>> s.rcv.rwndScale.toNat).toNat < 65536
  | _ => False

def IsSend (s : PseudoTcp) (e : Event) : Prop :=
  ∃ p r, e = .tcpWritePacket p r ∧ p.conv = s.conv ∧ p.ack = s.rcv.rcvNxt ∧
    p.wnd = s.windowField ∧ p.tsecr = s.tsRecent

/-- **The frame of the send path.** -/
structure SendFrame (s s' : PseudoTcp) : Prop where
  shutdown : s'.shutdown = s.shutdown
  error : s'.error = s.error
  state : s'.state = s.state
  conv : s'.conv = s.conv
  readEnable : s'.readEnable = s.readEnable
  writeEnable : s'.writeEnable = s.writeEnable
  rcv : s'.rcv = s.rcv
  sbufLen : s'.snd.sbufLen = s.snd.sbufLen
  sndWnd : s'.snd.sndWnd = s.snd.sndWnd
  sndUna : s'.snd.sndUna = s.snd.sndUna
  swndScale : s'.snd.swndScale = s.snd.swndScale
  sbuf : s'.snd.sbuf = s.snd.sbuf
  mtuAdvise : s'.mtuAdvise = s.mtuAdvise
  tsRecent : s'.tsRecent = s.tsRecent
  rxSrtt : s'.rxSrtt = s.rxSrtt
  rxRttvar : s'.rxRttvar = s.rxRttvar
  rxRto : s'.rxRto = s.rxRto
  ssthresh : s'.ssthresh = s.ssthresh
  dupAcks : s'.dupAcks = s.dupAcks
  recover : s'.recover = s.recover
  useNagling : s'.useNagling = s.useNagling
  ackDelay : s'.ackDelay = s.ackDelay
  supportWndScale : s'.supportWndScale = s.supportWndScale
  heap : s'.heap = s.heap
  clock : ∃ n, s'.clock = fun i => s.clock (i + n)
  log : ∃ es, s'.log = s.log ++ es ∧ ∀ e ∈ es, s.IsSend e
  faults : ∀ f ∈ s'.faults, f ∈ s.faults ∨ s.MayFault f

namespace SendFrame

theorem refl (s : PseudoTcp) : SendFrame s s := by
  constructor
  case clock => exact ⟨0, rfl⟩
  case log => exact ⟨[], by simp, by simp⟩
  case faults => exact fun f hf => .inl hf
  all_goals rfl

theorem isSend_congr (h : SendFrame s s') {e : Event} : s'.IsSend e ↔ s.IsSend e := by
  unfold IsSend windowField
  rw [h.conv, h.rcv, h.tsRecent]

theorem mayFault_congr (h : SendFrame s s') {f : Fault} : s'.MayFault f ↔ s.MayFault f := by
  cases f <;> simp [MayFault, h.rcv]

theorem trans {s₁ s₂ s₃ : PseudoTcp} (h : SendFrame s₁ s₂) (h' : SendFrame s₂ s₃) :
    SendFrame s₁ s₃ where
  shutdown := h'.shutdown.trans h.shutdown
  error := h'.error.trans h.error
  state := h'.state.trans h.state
  conv := h'.conv.trans h.conv
  readEnable := h'.readEnable.trans h.readEnable
  writeEnable := h'.writeEnable.trans h.writeEnable
  rcv := h'.rcv.trans h.rcv
  sbufLen := h'.sbufLen.trans h.sbufLen
  sndWnd := h'.sndWnd.trans h.sndWnd
  sndUna := h'.sndUna.trans h.sndUna
  swndScale := h'.swndScale.trans h.swndScale
  sbuf := h'.sbuf.trans h.sbuf
  mtuAdvise := h'.mtuAdvise.trans h.mtuAdvise
  tsRecent := h'.tsRecent.trans h.tsRecent
  rxSrtt := h'.rxSrtt.trans h.rxSrtt
  rxRttvar := h'.rxRttvar.trans h.rxRttvar
  rxRto := h'.rxRto.trans h.rxRto
  ssthresh := h'.ssthresh.trans h.ssthresh
  dupAcks := h'.dupAcks.trans h.dupAcks
  recover := h'.recover.trans h.recover
  useNagling := h'.useNagling.trans h.useNagling
  ackDelay := h'.ackDelay.trans h.ackDelay
  supportWndScale := h'.supportWndScale.trans h.supportWndScale
  heap := h'.heap.trans h.heap
  clock := by
    obtain ⟨n, hn⟩ := h.clock
    obtain ⟨m, hm⟩ := h'.clock
    exact ⟨m + n, by rw [hm, hn]; funext i; simp [Nat.add_assoc]⟩
  log := by
    obtain ⟨es, he, hall⟩ := h.log
    obtain ⟨es', he', hall'⟩ := h'.log
    refine ⟨es ++ es', by rw [he', he, List.append_assoc], fun e hmem => ?_⟩
    rcases List.mem_append.mp hmem with hm | hm
    · exact hall e hm
    · exact h.isSend_congr.mp (hall' e hm)
  faults f hf := by
    rcases h'.faults f hf with hm | hm
    · exact h.faults f hm
    · exact .inr (h.mayFault_congr.mp hm)

theorem check (s : PseudoTcp) (fault : Fault) (hf : s.MayFault fault) (c : Bool) : SendFrame s (s.check fault c) := by
  rw [check_eq]
  constructor
  case clock => exact ⟨0, rfl⟩
  case log => exact ⟨[], by simp, by simp⟩
  case faults =>
    intro f hmem
    rcases List.mem_append.mp hmem with hm | hm
    · exact .inl hm
    · right
      cases c
      · obtain rfl : f = fault := by simpa using hm
        exact hf
      · simp at hm
  all_goals rfl

end SendFrame

/-! ## Packets -/

def packetFaults (s : PseudoTcp) (offset len : Uint32) : List Fault :=
  let r := s.snd.sbuf.readOffset len.toNat offset.toNat
  (if headerSize + len ≤ maxPacket then [] else [.packetSize]) ++
    (if (s.rcv.rcvWnd >>> s.rcv.rwndScale.toNat).toNat < 65536 then [] else [.windowCast]) ++
    (if len = 0 ∨ r.1 = .success then [] else [.readResult]) ++
    (if len = 0 ∨ u32 r.2.length = len then [] else [.bytesRead])

theorem packet_eq (s : PseudoTcp) (seq : Uint32) (flags : Uint8) (offset len : Uint32) :
    s.packet seq flags offset len =
      let s₁ := { s with
        clock := fun n => s.clock (n + 1)
        results := fun n => s.results (n + 1)
        tsLastack := s.rcv.rcvNxt
        faults := s.faults ++ s.packetFaults offset len
        log := s.log ++ [.tcpWritePacket (s.buildPacket seq flags offset len) (s.results 0)] }
      if s.results 0 ≠ .success ∧ len ≠ 0 then (s₁, s.results 0)
      else ({ s₁ with
        tAck := 0
        snd.lastsend := if len > 0 then s.now else s.snd.lastsend
        lasttraffic := s.now
        outgoing := true }, .success) := by
  simp only [packet, check_eq, tick, emit, packetFaults, List.append_assoc, Bool.or_eq_true,
    decide_eq_true_eq]

theorem SendFrame.packet (s : PseudoTcp) (seq : Uint32) (flags : Uint8) (offset len : Uint32) :
    SendFrame s (s.packet seq flags offset len).1 := by
  have hfaults : ∀ f ∈ s.faults ++ s.packetFaults offset len, f ∈ s.faults ∨ s.MayFault f := by
    intro f hf
    rcases List.mem_append.mp hf with hm | hm
    · exact .inl hm
    · right
      simp only [packetFaults, List.mem_append] at hm
      rcases hm with ((hm | hm) | hm) | hm <;> split_ifs at hm <;>
        first
        | exact absurd hm List.not_mem_nil
        | (obtain rfl := List.mem_singleton.mp hm; trivial)
  rw [packet_eq]
  simp only
  split_ifs
  all_goals
    constructor
    case clock => exact ⟨1, rfl⟩
    case log =>
      refine ⟨_, rfl, fun e he => ?_⟩
      rw [List.mem_singleton.mp he]
      exact ⟨_, _, rfl, rfl, rfl, rfl, rfl⟩
    case faults => exact hfaults
    all_goals rfl

/-! ## Transmitting a segment -/

section Transmit

variable {R : PseudoTcp → PseudoTcp → Prop}

/-- The segment sizes that belong to the table of MTUs. -/
def TableMss (n : Uint32) : Prop :=
  ∃ mtu ∈ packetMaximums, mtu ≠ 0 ∧ n = mtu.setWidth 32 - packetOverhead

theorem retryPacket_rel (hrefl : ∀ s, R s s) (htrans : ∀ {a b c}, R a b → R b c → R a c)
    (seg : SSegment) (hmss : ∀ s, ∀ mtu ∈ packetMaximums, mtu ≠ 0 → R s (s.lowerMss mtu))
    (nMax : Uint32) (hpacket : ∀ s n, n < nMax → TableMss n →
      R s (s.packet seg.seq seg.flags (seg.seq - s.snd.sndUna) n).1) :
    ∀ (table : List Uint16), table ⊆ packetMaximums → ∀ (n : Uint32) (s : PseudoTcp), n ≤ nMax →
      R s (retryPacket seg table n s).1 ∧
        ∀ m, (retryPacket seg table n s).2 = some m → m < n ∧ TableMss m := by
  intro table
  induction table with
  | nil => exact fun _ n s _ => ⟨hrefl s, fun m hm => by cases hm⟩
  | cons mtu table ih =>
    intro hsub n s hn
    have hrest : table ⊆ packetMaximums := fun x hx => hsub (List.mem_cons_of_mem _ hx)
    have hmem : mtu ∈ packetMaximums := hsub List.mem_cons_self
    simp only [retryPacket]
    split_ifs with h0 hlt
    · exact ⟨hrefl s, fun m hm => by cases hm⟩
    · have htab : TableMss (s.lowerMss mtu).mss := ⟨mtu, hmem, h0, rfl⟩
      have hle : (s.lowerMss mtu).mss < nMax := by bv_omega
      have h1 := htrans (hmss s mtu hmem h0) (hpacket (s.lowerMss mtu) _ hle htab)
      split
      · next s₁ heq =>
        rw [heq] at h1
        refine ⟨h1, fun m hm => ?_⟩
        cases hm
        exact ⟨hlt, htab⟩
      · next s₁ heq =>
        rw [heq] at h1
        exact ⟨h1, fun m hm => by cases hm⟩
      · next s₁ heq =>
        rw [heq] at h1
        obtain ⟨h2, h3⟩ := ih hrest _ s₁ (BitVec.le_of_lt hle)
        refine ⟨htrans h1 h2, fun m hm => ?_⟩
        obtain ⟨hlt', hex⟩ := h3 m hm
        exact ⟨by bv_omega, hex⟩
    · obtain ⟨h2, h3⟩ := ih hrest n (s.lowerMss mtu) hn
      exact ⟨htrans (hmss s mtu hmem h0) h2, h3⟩

/-- A preorder that holds for packets and smaller sizes holds for `transmitPacket`. -/
theorem transmitPacket_rel (hrefl : ∀ s, R s s) (htrans : ∀ {a b c}, R a b → R b c → R a c)
    (seg : SSegment) (hmss : ∀ s, ∀ mtu ∈ packetMaximums, mtu ≠ 0 → R s (s.lowerMss mtu))
    (s : PseudoTcp) (n : Uint32)
    (hfirst : R s (s.packet seg.seq seg.flags (seg.seq - s.snd.sndUna) n).1)
    (hpacket : ∀ s m, m < n → TableMss m →
      R s (s.packet seg.seq seg.flags (seg.seq - s.snd.sndUna) m).1) :
    R s (s.transmitPacket seg n).1 := by
  unfold transmitPacket
  split
  · next s₁ heq =>
    rw [heq] at hfirst
    exact hfirst
  · next s₁ heq =>
    rw [heq] at hfirst
    exact hfirst
  · next s₁ heq =>
    rw [heq] at hfirst
    exact htrans hfirst (retryPacket_rel hrefl htrans seg hmss n hpacket _ (List.drop_subset _ _) n
      s₁ (BitVec.le_refl n)).1

end Transmit

theorem SendFrame.lowerMss (s : PseudoTcp) (mtu : Uint16) : SendFrame s (s.lowerMss mtu) := by
  constructor
  case clock => exact ⟨0, rfl⟩
  case log => exact ⟨[], by simp [PseudoTcp.lowerMss], by simp⟩
  case faults => exact fun f hf => .inl hf
  all_goals rfl

theorem SendFrame.transmitPacket (s : PseudoTcp) (seg : SSegment) (n : Uint32) :
    SendFrame s (s.transmitPacket seg n).1 :=
  transmitPacket_rel SendFrame.refl SendFrame.trans seg (fun s mtu _ _ => .lowerMss s mtu) s n
    (.packet s _ _ _ n) (fun s m _ _ => .packet s _ _ _ m)

theorem transmitPacket_le {s : PseudoTcp} {seg : SSegment} {n m : Uint32} (h : (s.transmitPacket seg n).2 = some m) :
    (m = n ∧ (s.transmitPacket seg n).1 = (s.packet seg.seq seg.flags (seg.seq - s.snd.sndUna) n).1) ∨
      (m < n ∧ TableMss m) := by
  unfold transmitPacket at h ⊢
  split at h
  · next s₁ heq =>
    left
    cases h
    rw [heq]
    exact ⟨rfl, rfl⟩
  · cases h
  · next s₁ heq =>
    right
    exact (retryPacket_rel (R := fun _ _ => True) (fun _ => trivial) (fun _ _ => trivial) seg
      (fun _ _ _ _ => trivial) n (fun _ _ _ _ => trivial) _ (List.drop_subset _ _) n s₁
      (BitVec.le_refl n)).2 m h

theorem SendFrame.transmitted (s : PseudoTcp) (before : List SSegment) (seg : SSegment)
    (after : List SSegment) (n now : Uint32) :
    SendFrame s (s.transmitted before seg after n now) := by
  constructor
  case clock => exact ⟨0, rfl⟩
  case log => exact ⟨[], by simp [PseudoTcp.transmitted], by simp⟩
  case faults => exact fun f hf => .inl hf
  all_goals rfl

theorem transmit_cases (s : PseudoTcp) (before : List SSegment) (seg : SSegment)
    (after : List SSegment) (now : Uint32) :
    (s.transmit before seg after now = (s, false) ∧ 15 ≤ seg.xmit) ∨
    (∃ s₁, s.transmitPacket seg (min32 seg.len s.mss) = (s₁, none) ∧
      s.transmit before seg after now = (s₁, false)) ∨
    (∃ s₁ n, s.transmitPacket seg (min32 seg.len s.mss) = (s₁, some n) ∧ seg.xmit < 30 ∧
      s.transmit before seg after now = (s₁.transmitted before seg after n now, true)) := by
  unfold transmit
  by_cases hx : seg.xmit ≥ (if s.state = .established then 15 else 30)
  · left
    rw [if_pos hx]
    refine ⟨rfl, ?_⟩
    split_ifs at hx <;> bv_omega
  · right
    have hlt : seg.xmit < 30 := by split_ifs at hx <;> bv_omega
    rw [if_neg hx]
    cases heq : s.transmitPacket seg (min32 seg.len s.mss) with
    | mk s₁ o =>
      cases o with
      | none => exact .inl ⟨s₁, rfl, rfl⟩
      | some n => exact .inr ⟨s₁, n, rfl, hlt, rfl⟩

theorem SendFrame.transmit (s : PseudoTcp) (before : List SSegment) (seg : SSegment)
    (after : List SSegment) (now : Uint32) :
    SendFrame s (s.transmit before seg after now).1 := by
  have hp := SendFrame.transmitPacket s seg (min32 seg.len s.mss)
  rcases transmit_cases s before seg after now with ⟨h, -⟩ | ⟨s₁, hs, h⟩ | ⟨s₁, n, hs, -, h⟩
  · rw [h]; exact .refl s
  · rw [h]; rw [hs] at hp; exact hp
  · rw [h]; rw [hs] at hp; exact hp.trans (.transmitted s₁ before seg after n now)

/-- A retransmission only sends. -/
theorem SendFrame.transmitFront (s : PseudoTcp) (now : Uint32) : SendFrame s (s.transmitFront now).1 := by
  unfold PseudoTcp.transmitFront
  split
  · exact .check s .transmitEnd trivial false
  · exact .transmit s _ _ _ now

/-! ## The loop of `attemptSend` -/

theorem SendFrame.sendAck (s : PseudoTcp) (sflags : SendFlags) : SendFrame s (s.sendAck sflags) := by
  cases sflags with
  | none => exact .refl s
  | immediateAck => exact .packet s _ _ _ _
  | delayedAck =>
    unfold PseudoTcp.sendAck
    simp only
    split_ifs
    · exact .packet s _ _ _ _
    · constructor
      case clock => exact ⟨1, rfl⟩
      case log => exact ⟨[], by simp [tick], by simp⟩
      case faults => exact fun f hf => .inl hf
      all_goals rfl

theorem SendFrame.withSlist (s : PseudoTcp) (slist : List SSegment) : SendFrame s { s with snd.slist := slist } := by
  constructor
  case clock => exact ⟨0, rfl⟩
  case log => exact ⟨[], by simp, by simp⟩
  case faults => exact fun f hf => .inl hf
  all_goals rfl

theorem SendFrame.sendSegment (s : PseudoTcp) (before : List SSegment) (seg : SSegment)
    (after : List SSegment) (n now : Uint32) :
    SendFrame s (s.sendSegment before seg after n now).1 :=
  (SendFrame.withSlist s _).trans (.transmit _ before _ _ now)

theorem sendLoop_rel (hrefl : ∀ s, R s s) (htrans : ∀ {a b c}, R a b → R b c → R a c) (hcheck : ∀ s : PseudoTcp,
      R s (s.check .inFlight (s.nInFlight ≤ u32 s.snd.sbuf.getBuffered)))
    (hend : ∀ s : PseudoTcp, s.nAvailable ≠ 0 → (nextSegment s.snd.slist).2 = [] →
      R s (s.check .searchEnd false))
    (hack : ∀ (s : PseudoTcp) sflags, R s (s.sendAck sflags)) (now : Uint32)
    (hseg : ∀ (s : PseudoTcp) before seg after, s.nAvailable ≠ 0 →
      nextSegment s.snd.slist = (before, seg :: after) →
        R s (s.sendSegment before seg after s.nAvailable now).1)
    (fuel : ℕ) (s : PseudoTcp) (sflags : SendFlags) :
    R s (sendLoop fuel s sflags now) := by
  induction fuel generalizing s sflags with
  | zero => exact hrefl s
  | succ fuel ih =>
    simp only [sendLoop]
    refine htrans (hcheck s) ?_
    generalize s.check .inFlight (s.nInFlight ≤ u32 s.snd.sbuf.getBuffered) = t
    split_ifs with h0 hn
    · exact hack t sflags
    · exact hrefl t
    · split
      · next heq => exact hend t h0 (by rw [heq])
      · next before seg after heq =>
        have h1 := hseg t before seg after h0 heq
        split
        · next t' heq' =>
          rw [heq'] at h1
          exact htrans h1 (ih t' .none)
        · next t' heq' =>
          rw [heq'] at h1
          exact h1

theorem SendFrame.beforeLoop (s : PseudoTcp) : SendFrame s s.beforeLoop := by
  unfold PseudoTcp.beforeLoop
  split_ifs
  all_goals
    constructor
    case clock => exact ⟨1, rfl⟩
    case log => exact ⟨[], by simp [tick], by simp⟩
    case faults => exact fun f hf => .inl hf
    all_goals rfl

theorem SendFrame.sendLoop (fuel : ℕ) (s : PseudoTcp) (sflags : SendFlags) (now : Uint32) :
    SendFrame s (sendLoop fuel s sflags now) := by
  refine sendLoop_rel .refl .trans ?_ ?_ .sendAck _ ?_ _ _ _
  · exact fun s => .check s .inFlight trivial _
  · exact fun s _ _ => .check s .searchEnd trivial _
  · exact fun s before seg after _ _ => .sendSegment s before seg after _ now

/-- **`attemptSend` only sends**. -/
theorem SendFrame.attemptSend (s : PseudoTcp) (sflags : SendFlags) : SendFrame s (s.attemptSend sflags) :=
  (SendFrame.beforeLoop s).trans (.sendLoop _ _ _ _)

/-! ## The receive path -/

/-- An assertion of the receive path. -/
def Fault.IsRecv : Fault → Prop
  | .writeOffset | .consumeWrite | .rcvWnd => True
  | _ => False

/-- **The frame of the receive path.** -/
def RecvFrame (s s' : PseudoTcp) : Prop :=
  ∃ r fs, s' = { s with rcv := r, faults := s.faults ++ fs } ∧ (∀ f ∈ fs, Fault.IsRecv f) ∧
    r.rwndScale = s.rcv.rwndScale

namespace RecvFrame

theorem refl (s : PseudoTcp) : RecvFrame s s := ⟨s.rcv, [], by simp, by simp, rfl⟩

theorem trans {s₁ s₂ s₃ : PseudoTcp} (h : RecvFrame s₁ s₂) (h' : RecvFrame s₂ s₃) : RecvFrame s₁ s₃ := by
  obtain ⟨r, fs, rfl, hfs, hscale⟩ := h
  obtain ⟨r', fs', rfl, hfs', hscale'⟩ := h'
  refine ⟨r', fs ++ fs', by simp, fun f hf => ?_, hscale'.trans hscale⟩
  rcases List.mem_append.mp hf with hm | hm
  · exact hfs f hm
  · exact hfs' f hm

theorem rwndScale (h : RecvFrame s s') : s'.rcv.rwndScale = s.rcv.rwndScale := by
  obtain ⟨r, fs, rfl, -, hscale⟩ := h
  exact hscale

theorem withRcv (s : PseudoTcp) {r : Incoming} (h : r.rwndScale = s.rcv.rwndScale) :
    RecvFrame s { s with rcv := r } :=
  ⟨r, [], by simp, by simp, h⟩

theorem check (s : PseudoTcp) (fault : Fault) (hf : Fault.IsRecv fault) (c : Bool) :
    RecvFrame s (s.check fault c) := by
  rw [check_eq]
  refine ⟨s.rcv, _, rfl, fun f hm => ?_, rfl⟩
  cases c
  · obtain rfl : f = fault := by simpa using hm
    exact hf
  · simp at hm

theorem consume (s : PseudoTcp) (n : Uint32) : RecvFrame s (s.consume n) :=
  ((RecvFrame.check s .consumeWrite trivial _).trans (.check _ .rcvWnd trivial _)).trans
    (.withRcv _ rfl)

theorem recoverLoop (l : List RSegment) (s : PseudoTcp) (acked : Bool) : RecvFrame s (recoverLoop l s acked).1 := by
  induction l generalizing s acked with
  | nil => exact .withRcv s rfl
  | cons r rest ih =>
    simp only [PseudoTcp.recoverLoop]
    split_ifs
    · exact (RecvFrame.consume s _).trans (ih _ _)
    · exact ih s acked
    · exact .withRcv s rfl

theorem writePayload (s : PseudoTcp) (seg : Segment) : RecvFrame s (s.writePayload seg) :=
  (RecvFrame.check s .writeOffset trivial _).trans (.withRcv _ rfl)

theorem store (s : PseudoTcp) (seg : Segment) (sflags : SendFlags) : RecvFrame s (s.store seg sflags).1 := by
  refine (RecvFrame.writePayload s seg).trans ?_
  unfold PseudoTcp.store
  generalize s.writePayload seg = t
  by_cases hseq : seg.seq = t.rcv.rcvNxt
  · simp only [if_pos hseq]
    exact (RecvFrame.consume t seg.len).trans (.recoverLoop _ _ _)
  · simp only [if_neg hseq]
    exact .withRcv t rfl

/-- The data of a segment changes the receive side alone. -/
theorem receive (s : PseudoTcp) (seg : Segment) (sflags : SendFlags) : RecvFrame s (s.receive seg sflags).1 := by
  unfold PseudoTcp.receive
  split_ifs
  · exact .refl s
  · exact .withRcv s rfl
  · exact .refl s
  · exact .store s seg sflags

end RecvFrame

/-! ## Trimming -/

theorem trimLeft_flags (s : PseudoTcp) (seg : Segment) : (s.trimLeft seg).flags = seg.flags := by
  unfold trimLeft
  simp only
  split_ifs <;> rfl

theorem trim_flags (s : PseudoTcp) (seg : Segment) : (s.trim seg).flags = seg.flags := by
  rw [← trimLeft_flags s seg, trim]
  unfold trimRight
  simp only
  split_ifs <;> rfl

theorem trim_congr (hnxt : s'.rcv.rcvNxt = s.rcv.rcvNxt) (hbuf : s'.rcv.rbuf = s.rcv.rbuf)
    (seg : Segment) : s'.trim seg = s.trim seg := by
  unfold trim trimRight trimLeft
  rw [hnxt, hbuf]

/-! ## Options -/

theorem resizeReceiveBuffer_eq (s : PseudoTcp) (newSize : Uint32) :
    s.resizeReceiveBuffer newSize =
      let r := s.rcv.rbuf.setCapacity (scaledSize newSize).toNat s.heap
      { s with
        rcv.rbuf := r.2
        rcv.rbufLen := scaledSize newSize
        rcv.rwndScale := (scaleDown 16 newSize 0).2
        rcv.rcvWnd := u32 r.2.getWriteRemaining
        ssthresh := scaledSize newSize
        faults := s.faults ++ if r.1 then [] else [.resize] } := by
  simp only [resizeReceiveBuffer, check_eq]

theorem parseOptionsLoop_scale (fuel : ℕ) (buf kinds : List Uint8) (s : PseudoTcp) :
    ∃ scale, (parseOptionsLoop fuel buf kinds s).1 = { s with snd.swndScale := scale } := by
  induction fuel generalizing buf kinds s with
  | zero => exact ⟨s.snd.swndScale, rfl⟩
  | succ fuel ih =>
    cases buf with
    | nil => exact ⟨s.snd.swndScale, rfl⟩
    | cons kind buf =>
      simp only [parseOptionsLoop]
      split_ifs
      · exact ⟨s.snd.swndScale, rfl⟩
      · exact ih buf kinds s
      · obtain ⟨scale, h⟩ := ih ((buf.drop 1).drop (buf.headD 0).toNat) (kind :: kinds)
          (s.applyOption kind ((buf.drop 1).take (buf.headD 0).toNat))
        rw [h]
        unfold applyOption
        split_ifs
        · exact ⟨scale, rfl⟩
        · exact ⟨scale, rfl⟩
      · exact ⟨s.snd.swndScale, rfl⟩

theorem parseOptions_cases (s : PseudoTcp) (data : List Uint8) :
    (∃ scale, s.parseOptions data = { s with snd.swndScale := scale }) ∨
      (s.rcv.rwndScale > 0 ∧ s.parseOptions data =
        { s.resizeReceiveBuffer defaultRcvBufSize with snd.swndScale := 0 }) := by
  obtain ⟨scale, h⟩ := parseOptionsLoop_scale data.length data [] s
  unfold parseOptions
  split
  · next t kinds heq =>
    rw [heq] at h
    obtain rfl : t = { s with snd.swndScale := scale } := h
    split_ifs with hres
    · refine .inr ⟨hres.2, ?_⟩
      simp only [resizeReceiveBuffer_eq]
    · exact .inl ⟨scale, rfl⟩
  · next t heq =>
    rw [heq] at h
    exact .inl ⟨scale, h⟩

end PseudoTcp

end Libjingle
