import Libjingle.PseudoTcp.Reassembly

/-!
# The advertised window

`m_rcv_wnd` is what the peer may still send. It goes down with every byte that arrives in order, and
goes up again when the user reads. But a segment is trimmed against the free space of `m_rbuf`, which
after small reads is larger than `m_rcv_wnd`.

Main results: **`advertisedWindow_sound`**, **`advertisedWindow_unsound`**.
-/

variable {seg : Segment}

namespace Libjingle

open Lib Relation

/-- The faults of the window. -/
def Fault.IsWindow : Fault → Prop
  | .rcvWnd | .recvWindow | .windowCast => True
  | _ => False

namespace PseudoTcp

variable {s s' t : PseudoTcp}

/-! ## The invariant -/

def windowPart (s : PseudoTcp) :=
  (s.shutdown, s.heap, s.rcv.rlist, s.rcv.rcvNxt, s.rcv.rcvWnd, s.rcv.rwndScale, s.rcv.rbuf)

/-- The window leaves room in the receive buffer and fits its field. -/
structure WindowFree (s : PseudoTcp) : Prop where
  ring : SoundRing s.rcv.rbuf
  wnd : s.rcv.rcvWnd.toNat ≤ s.rcv.rbuf.bufferLength - s.rcv.rbuf.dataLength
  scale : s.rcv.rbuf.bufferLength < 2 ^ 16 * 2 ^ s.rcv.rwndScale.toNat
  faults : ∀ f ∈ s.faults, ¬ f.IsWindow

def InsideWindow (s : PseudoTcp) (e : RSegment) : Prop :=
  e.fin.toNat ≤ s.rcv.rcvNxt.toNat + s.rcv.rcvWnd.toNat

/-- **The invariant of the window.** -/
structure WindowInv (s : PseudoTcp) : Prop extends WindowFree s where
  waiting : ∀ e ∈ s.rcv.rlist, s.InsideWindow e

theorem WindowFree.fits (h : WindowFree s) : s.WindowFits := by
  have h1 := h.wnd
  have h2 := h.scale
  rw [WindowFits, BitVec.toNat_ushiftRight, Nat.shiftRight_eq_div_pow]
  exact Nat.div_lt_of_lt_mul (by rw [Nat.mul_comm]; omega)

theorem WindowInv.congr (h : WindowInv s) (hpart : s'.windowPart = s.windowPart)
    (hfaults : ∀ f ∈ s'.faults, f ∈ s.faults ∨ ¬ f.IsWindow) : WindowInv s' := by
  simp only [windowPart, Prod.mk.injEq] at hpart
  obtain ⟨-, -, hlist, hnxt, hwnd, hscale, hbuf⟩ := hpart
  refine ⟨⟨by rw [hbuf]; exact h.ring, by rw [hwnd, hbuf]; exact h.wnd,
    by rw [hbuf, hscale]; exact h.scale, fun f hf => ?_⟩, fun e he => ?_⟩
  · rcases hfaults f hf with hm | hm
    · exact h.faults f hm
    · exact hm
  · rw [InsideWindow, hnxt, hwnd]
    exact h.waiting e (hlist ▸ he)

theorem WindowInv.silent (h : WindowInv s) (hpart : s'.windowPart = s.windowPart)
    (hfaults : s'.faults = s.faults) : WindowInv s' :=
  h.congr hpart fun _ hf => .inl (hfaults ▸ hf)

theorem Steady.windowPart (hm : Steady s s') : s'.windowPart = s.windowPart := by
  have := hm.fields
  simp only [PseudoTcp.windowPart, this]

theorem WindowInv.steady (h : WindowInv s) (hm : Steady s s') : WindowInv s' := by
  refine h.congr hm.windowPart fun f hf => ?_
  rcases hm.faults f hf with h1 | h1 | h1
  · exact .inl h1
  · right
    cases f <;> first | exact id | exact absurd trivial h1
  · exact (h1.2 h.fits).elim

/-- The step leaves the window alone. -/
structure SameWindow (s s' : PseudoTcp) : Prop where
  inv : WindowInv s'
  part : s'.windowPart = s.windowPart

theorem SameWindow.trans {s₁ s₂ s₃ : PseudoTcp} (h : SameWindow s₁ s₂) (h' : SameWindow s₂ s₃) :
    SameWindow s₁ s₃ := ⟨h'.inv, h'.part.trans h.part⟩

theorem SameWindow.silent (h : WindowInv s) (hpart : s'.windowPart = s.windowPart)
    (hfaults : s'.faults = s.faults) : SameWindow s s' :=
  ⟨h.silent hpart hfaults, hpart⟩

theorem SameWindow.steadies (h : WindowInv s) (hm : Steadies s s') : SameWindow s s' := by
  induction hm with
  | refl => exact ⟨h, rfl⟩
  | tail _ hlast ih => exact ih.trans ⟨ih.inv.steady hlast, hlast.windowPart⟩

/-! ## Resizing -/

theorem scaleDown_le (fuel : ℕ) (newSize : Uint32) (scale : Uint8)
    (h : newSize.toNat < 2 ^ (16 + fuel)) : (scaleDown fuel newSize scale).1.toNat < 2 ^ 16 := by
  induction fuel generalizing newSize scale with
  | zero => exact h
  | succ fuel ih =>
    simp only [scaleDown]
    split_ifs with hbig
    · refine ih _ _ ?_
      rw [BitVec.toNat_ushiftRight, Nat.shiftRight_eq_div_pow]
      rw [Nat.div_lt_iff_lt_mul (by decide)]
      calc newSize.toNat < 2 ^ (16 + (fuel + 1)) := h
        _ = 2 ^ (16 + fuel) * 2 ^ 1 := by rw [← Nat.pow_add]; rfl
    · bv_omega

theorem scaledSize_lt (newSize : Uint32) :
    (scaledSize newSize).toNat < 2 ^ 16 * 2 ^ (scaleDown 16 newSize 0).2.toNat := by
  have h := scaleDown_le 16 newSize 0 newSize.isLt
  rw [scaledSize, BitVec.toNat_shiftLeft, Nat.shiftLeft_eq]
  refine lt_of_le_of_lt (Nat.mod_le _ _) ?_
  exact Nat.mul_lt_mul_of_pos_right h (Nat.two_pow_pos _)

def HoldsBuffered (s : PseudoTcp) (size : ℕ) : Prop :=
  s.rcv.rbuf.dataLength ≤ size ∧
    ∀ e ∈ s.rcv.rlist, e.fin.toNat + s.rcv.rbuf.dataLength ≤ s.rcv.rcvNxt.toNat + size

theorem WindowInv.resize (h : WindowInv s) {newSize : Uint32} (hroom : s.HoldsBuffered (scaledSize newSize).toNat) :
    WindowInv (s.resizeReceiveBuffer newSize) := by
  obtain ⟨hok, hvalid, hstate, -, hlen, hcap⟩ :=
    FifoBuffer.setCapacity_spec h.ring.valid (scaledSize newSize).toNat s.heap
  rw [if_pos hroom.1] at hcap
  rw [resizeReceiveBuffer_eq]
  simp only [hok, hroom.1, decide_true, if_true, List.append_nil]
  generalize (s.rcv.rbuf.setCapacity (scaledSize newSize).toNat s.heap).2 = f at *
  have hfree : (u32 f.getWriteRemaining).toNat = f.bufferLength - f.dataLength :=
    toNat_u32 (by unfold FifoBuffer.getWriteRemaining; omega)
  have hcap32 : f.bufferLength < 2 ^ 32 := by omega
  refine ⟨⟨⟨hvalid, hstate.trans h.ring.isOpen, hcap32⟩, ?_, ?_, h.faults⟩, fun e he => ?_⟩
  · simp only [hfree, le_refl]
  · simp only [hcap]
    exact scaledSize_lt newSize
  · have := hroom.2 e he
    simp only [InsideWindow, hfree]
    omega

/-! ## Payload -/

def KeepsWindow (s : PseudoTcp) (seg : Segment) : Prop :=
  let g := s.trim seg
  g.len ≠ 0 →
    (s.ignoresData g = false →
      (g.seq - s.rcv.rcvNxt).toNat + g.len.toNat ≤ s.rcv.rcvWnd.toNat) ∧
    (g.seq = s.rcv.rcvNxt → s.rcv.rlist = [] ∨ s.rcv.rcvNxt.toNat + g.len.toNat < 2 ^ 32)

theorem WindowFree.consume (h : WindowFree s) {n : Uint32} (hn : n.toNat ≤ s.rcv.rcvWnd.toNat) :
    WindowFree (s.consume n) := by
  have hwnd := h.wnd
  have hsub : (s.rcv.rcvWnd - n).toNat = s.rcv.rcvWnd.toNat - n.toNat := by bv_omega
  have hvalid := h.ring.valid.le
  have hcheck : n ≤ s.rcv.rcvWnd := hn
  refine ⟨⟨?_, ?_, ?_⟩, ?_, ?_, fun f hf => ?_⟩
  · rw [consume_rcv]
    exact h.ring.valid.consumeWriteBuffer (by omega)
  · rw [consume_rcv]
    simpa using h.ring.isOpen
  · rw [consume_rcv]
    simpa using h.ring.cap
  · rw [consume_rcv]
    simp only [hsub, FifoBuffer.consumeWriteBuffer_bufferLength,
      FifoBuffer.consumeWriteBuffer_dataLength]
    omega
  · rw [consume_rcv]
    simpa using h.scale
  · rw [consume_faults, if_pos hcheck, List.append_nil] at hf
    rcases List.mem_append.mp hf with hf | hf
    · exact h.faults f hf
    · split_ifs at hf
      · cases hf
      · rw [List.mem_singleton.mp hf]
        exact id

theorem InsideWindow.consume {e : RSegment} (h : s.InsideWindow e) {n : Uint32}
    (hn : n.toNat ≤ s.rcv.rcvWnd.toNat) (hwrap : s.rcv.rcvNxt.toNat + n.toNat < 2 ^ 32) :
    (s.consume n).InsideWindow e := by
  have hsub : (s.rcv.rcvWnd - n).toNat = s.rcv.rcvWnd.toNat - n.toNat := by bv_omega
  have hnxt : (s.rcv.rcvNxt + n).toNat = s.rcv.rcvNxt.toNat + n.toNat := by bv_omega
  unfold InsideWindow at *
  rw [consume_rcv]
  simp only [hsub, hnxt]
  omega

theorem InsideWindow.reach {e : RSegment} (h : s.InsideWindow e) (hfin : e.fin > s.rcv.rcvNxt) :
    (e.fin - s.rcv.rcvNxt).toNat ≤ s.rcv.rcvWnd.toNat ∧
      s.rcv.rcvNxt.toNat + (e.fin - s.rcv.rcvNxt).toNat < 2 ^ 32 := by
  have hfin' : s.rcv.rcvNxt.toNat < e.fin.toNat := hfin
  have hsub : (e.fin - s.rcv.rcvNxt).toNat = e.fin.toNat - s.rcv.rcvNxt.toNat := by bv_omega
  have := e.fin.isLt
  unfold InsideWindow at h
  omega

theorem WindowInv.recoverLoop (h : WindowFree s) {l : List RSegment} (hl : ∀ e ∈ l, s.InsideWindow e) (acked : Bool) :
    WindowInv (recoverLoop l s acked).1 := by
  obtain ⟨u, rest, hu, hfree, -, hrest, -⟩ := recoverLoop_rule
    (I := WindowFree) (E := InsideWindow)
    (fun u r hI hr _ hfin => hI.consume (hr.reach hfin).1)
    (fun u r e _ hr he _ hfin => he.consume (hr.reach hfin).1 (hr.reach hfin).2)
    l s acked h hl
  rw [hu]
  exact ⟨⟨hfree.ring, hfree.wnd, hfree.scale, hfree.faults⟩, hrest⟩

theorem writePayload_rcv (s : PseudoTcp) (g : Segment) :
    (s.writePayload g).rcv = { s.rcv with
      rbuf := (s.rcv.rbuf.writeOffset g.data g.len.toNat (g.seq - s.rcv.rcvNxt).toNat).2.2 } := by
  simp only [writePayload, check_eq]

theorem WindowInv.writePayload (h : WindowInv s) (g : Segment) : WindowInv (s.writePayload g) := by
  have hclosed : s.rcv.rbuf.state ≠ .closed := by rw [h.ring.isOpen]; decide
  have hw := FifoBuffer.writeOffset_spec hclosed g.data g.len.toNat (g.seq - s.rcv.rcvNxt).toNat
  have hfault : ∀ f ∈ (s.writePayload g).faults, ¬ f.IsWindow := by
    intro f hf
    simp only [PseudoTcp.writePayload, check_eq] at hf
    rcases List.mem_append.mp hf with hf | hf
    · exact h.faults f hf
    · split_ifs at hf
      · cases hf
      · rw [List.mem_singleton.mp hf]
        exact id
  have hrcv := writePayload_rcv s g
  have hbuf : SoundRing (s.writePayload g).rcv.rbuf ∧
      (s.writePayload g).rcv.rbuf.bufferLength = s.rcv.rbuf.bufferLength ∧
      (s.writePayload g).rcv.rbuf.dataLength = s.rcv.rbuf.dataLength := by
    rw [hrcv, hw]
    split_ifs
    · exact ⟨⟨h.ring.valid.stored, h.ring.isOpen, h.ring.cap⟩, rfl, rfl⟩
    · exact ⟨h.ring, rfl, rfl⟩
  obtain ⟨hring, hcap, hlen⟩ := hbuf
  refine ⟨⟨hring, ?_, ?_, hfault⟩, fun e he => ?_⟩
  · rw [hcap, hlen, hrcv]
    exact h.wnd
  · rw [hcap, hrcv]
    exact h.scale
  · rw [hrcv] at he
    rw [InsideWindow, hrcv]
    exact h.waiting e he

theorem WindowInv.receive (h : WindowInv s) (hseg : s.KeepsWindow seg)
    (sflags : SendFlags) : WindowInv (s.receive (s.trim seg) sflags).1 := by
  unfold KeepsWindow at hseg
  generalize s.trim seg = g at hseg ⊢
  unfold PseudoTcp.receive
  by_cases h0 : g.len = 0
  · rw [if_pos h0]
    exact h
  obtain ⟨hwin, hwrap⟩ := hseg h0
  rw [if_neg h0]
  by_cases hign : s.ignoresData g = true
  · -- the payload only moves `m_rcv_nxt`
    rw [if_pos hign]
    by_cases hseq : g.seq = s.rcv.rcvNxt
    · simp only [if_pos hseq]
      refine ⟨⟨h.ring, h.wnd, h.scale, h.faults⟩, fun e he => ?_⟩
      have hin := h.waiting e he
      unfold InsideWindow at hin ⊢
      rcases hwrap hseq with hnil | hlt
      · have he' : e ∈ s.rcv.rlist := he
        rw [hnil] at he'
        cases he'
      · have hnxt : (s.rcv.rcvNxt + g.len).toNat = s.rcv.rcvNxt.toNat + g.len.toNat := by bv_omega
        simp only [hnxt]
        omega
    · simp only [if_neg hseq]
      exact h
  · rw [if_neg hign]
    have hin := hwin (by simpa using hign)
    have hw := h.writePayload g
    have hnxt : (s.writePayload g).rcv.rcvNxt = s.rcv.rcvNxt := by rw [writePayload_rcv]
    have hwnd : (s.writePayload g).rcv.rcvWnd = s.rcv.rcvWnd := by rw [writePayload_rcv]
    have hlist : (s.writePayload g).rcv.rlist = s.rcv.rlist := by rw [writePayload_rcv]
    rw [← hnxt, ← hlist] at hwrap
    rw [← hnxt, ← hwnd] at hin
    unfold PseudoTcp.store
    generalize s.writePayload g = u at *
    by_cases hseq : g.seq = u.rcv.rcvNxt
    · simp only [if_pos hseq]
      have hlen : g.len.toNat ≤ u.rcv.rcvWnd.toNat := by omega
      refine WindowInv.recoverLoop (hw.toWindowFree.consume hlen) (fun e he => ?_) false
      have he' : e ∈ u.rcv.rlist := by
        rw [consume_rcv] at he
        exact he
      rcases hwrap hseq with hnil | hlt
      · rw [hnil] at he'
        cases he'
      · exact (hw.waiting e he').consume hlen hlt
    · simp only [if_neg hseq]
      refine ⟨⟨hw.ring, hw.wnd, hw.scale, hw.faults⟩, fun e he => ?_⟩
      rcases mem_insertRlist.mp he with rfl | he
      · simp only [InsideWindow, RSegment.fin]
        bv_omega
      · exact hw.waiting e he

/-! ## Options -/

theorem parseOptionsLoop_kinds (fuel : ℕ) (buf kinds : List Uint8) (s s' : PseudoTcp) :
    (parseOptionsLoop fuel buf kinds s').2 = (parseOptionsLoop fuel buf kinds s).2 := by
  induction fuel generalizing buf kinds s s' with
  | zero => rfl
  | succ fuel ih =>
    cases buf with
    | nil => rfl
    | cons kind buf =>
      simp only [parseOptionsLoop]
      split_ifs
      · rfl
      · exact ih _ _ _ _
      · exact ih _ _ _ _
      · rfl

def revertsBuffer (s : PseudoTcp) (data : List Uint8) : Bool :=
  (parseOptionsLoop data.length data [] s).2.any fun kinds =>
    !kinds.contains tcpOptWndScale && s.rcv.rwndScale > 0

theorem parseOptions_windowPart (s : PseudoTcp) (data : List Uint8) :
    (s.parseOptions data).windowPart = (if s.revertsBuffer data
      then s.resizeReceiveBuffer defaultRcvBufSize else s).windowPart ∧
    (s.parseOptions data).faults = (if s.revertsBuffer data
      then s.resizeReceiveBuffer defaultRcvBufSize else s).faults := by
  obtain ⟨scale, h⟩ := parseOptionsLoop_scale data.length data [] s
  unfold parseOptions revertsBuffer
  split
  · next t kinds heq =>
    rw [heq] at h ⊢
    obtain rfl : t = { s with snd.swndScale := scale } := h
    simp only [Option.any_some, Bool.and_eq_true, decide_eq_true_eq, Bool.not_eq_true',
      List.contains_eq_mem, decide_eq_false_iff_not]
    split_ifs
    · simp only [resizeReceiveBuffer_eq, windowPart, and_self]
    · exact ⟨rfl, rfl⟩
  · next t heq =>
    rw [heq] at h ⊢
    obtain rfl : t = { s with snd.swndScale := scale } := h
    exact ⟨rfl, rfl⟩

theorem windowPart_resize_congr (h : s'.windowPart = s.windowPart) (newSize : Uint32) :
    (s'.resizeReceiveBuffer newSize).windowPart = (s.resizeReceiveBuffer newSize).windowPart := by
  simp only [windowPart, Prod.mk.injEq] at h
  obtain ⟨h1, h2, h3, h4, h5, h6, h7⟩ := h
  simp only [resizeReceiveBuffer_eq, windowPart, h1, h2, h3, h4, h7]

theorem revertsBuffer_congr (h : s'.rcv.rwndScale = s.rcv.rwndScale) (data : List Uint8) :
    s'.revertsBuffer data = s.revertsBuffer data := by
  unfold revertsBuffer
  rw [parseOptionsLoop_kinds _ _ _ s s', h]

def optionBytes (seg : Segment) : List Uint8 := block seg.data 1 (seg.len - 1).toNat

def withOptions (s : PseudoTcp) (seg : Segment) : PseudoTcp :=
  if seg.flags &&& flagCtl = 0 then s else s.parseOptions (optionBytes seg)

theorem withOptions_congr (h : s'.windowPart = s.windowPart) (seg : Segment) :
    (s'.withOptions seg).windowPart = (s.withOptions seg).windowPart := by
  have hscale : s'.rcv.rwndScale = s.rcv.rwndScale := by
    simp only [windowPart, Prod.mk.injEq] at h
    exact h.2.2.2.2.2.1
  unfold withOptions
  split_ifs
  · exact h
  · rw [(parseOptions_windowPart s' _).1, (parseOptions_windowPart s _).1,
      revertsBuffer_congr hscale]
    split_ifs
    · exact windowPart_resize_congr h _
    · exact h

theorem KeepsWindow.congr (h : s'.windowPart = s.windowPart) (hseg : s.KeepsWindow seg) : s'.KeepsWindow seg := by
  simp only [windowPart, Prod.mk.injEq] at h
  obtain ⟨h1, -, h3, h4, h5, -, h7⟩ := h
  unfold KeepsWindow
  simp only [trim_congr h4 h7, ignoresData, h1, h3, h4, h5]
  exact hseg

def OptionsFit (s : PseudoTcp) (seg : Segment) : Prop :=
  seg.flags &&& flagCtl ≠ 0 → s.revertsBuffer (optionBytes seg) →
    s.HoldsBuffered defaultRcvBufSize.toNat

theorem OptionsFit.congr (h : s'.windowPart = s.windowPart) (hseg : s.OptionsFit seg) : s'.OptionsFit seg := by
  simp only [windowPart, Prod.mk.injEq] at h
  obtain ⟨-, -, h3, h4, -, h6, h7⟩ := h
  unfold OptionsFit HoldsBuffered
  rw [revertsBuffer_congr h6, h3, h4, h7]
  exact hseg

theorem WindowInv.withOptions (h : WindowInv s) (hseg : s.OptionsFit seg) : WindowInv (s.withOptions seg) := by
  unfold PseudoTcp.withOptions
  split_ifs with hctl
  · exact h
  · obtain ⟨hpart, hfaults⟩ := parseOptions_windowPart s (optionBytes seg)
    have hbase : WindowInv (if s.revertsBuffer (optionBytes seg)
        then s.resizeReceiveBuffer defaultRcvBufSize else s) := by
      split_ifs with hrev
      · exact h.resize (hseg hctl hrev)
      · exact h
    exact hbase.silent hpart hfaults

/-! ## The calls -/

section Process

variable {seg : Segment}

theorem control_window (h : WindowInv s) (hseg : s.OptionsFit seg) :
    WindowInv (s.control seg).1 ∧ ∀ bConnect, (s.control seg).2 = some bConnect →
      (s.control seg).1.windowPart = (s.withOptions seg).windowPart := by
  have hopt := h.withOptions hseg
  unfold control
  unfold PseudoTcp.withOptions at hopt ⊢
  split_ifs with hctl hlen hdata
  · exact ⟨h, fun _ _ => rfl⟩
  · exact ⟨h, fun _ hb => by cases hb⟩
  · rw [if_neg hctl] at hopt
    rw [optionBytes] at hopt ⊢
    generalize s.parseOptions (block seg.data 1 (seg.len - 1).toNat) = t at hopt ⊢
    have hsame : SameWindow t t.connectReceived := by
      unfold connectReceived
      split
      · have h1 : SameWindow t (t.setState .synReceived) := .silent hopt rfl rfl
        exact h1.trans (.steadies h1.inv (Steadies.ackRule.queueConnectMessage _))
      · exact .silent hopt rfl rfl
      · exact .silent hopt rfl rfl
    exact ⟨hsame.inv, fun _ _ => hsame.part⟩
  · exact ⟨h, fun _ hb => by cases hb⟩

theorem processAck_window (h : WindowInv s) (seg : Segment) (now : Uint32) :
    SameWindow s (s.processAck seg now).1 := by
  have h1 := SameWindow.steadies h (Steadies.ackRule.handleAck s seg now)
  unfold processAck
  split
  · next t heq =>
    rw [heq] at h1
    exact h1
  · next t heq =>
    rw [heq] at h1
    exact h1.trans (.silent h1.inv rfl rfl)

theorem processData_window (h : WindowInv s) (hseg : s.KeepsWindow seg) (bConnect : Bool) :
    WindowInv (s.processData seg bConnect) := by
  have h1 : SameWindow s (s.openIfSynReceived bConnect) := by
    unfold openIfSynReceived
    split_ifs <;> exact .silent h rfl rfl
  have h2 := h1.trans (.steadies h1.inv (Steadies.notifyWriteable _))
  unfold processData
  generalize (s.openIfSynReceived bConnect).notifyWriteable = t at h2 ⊢
  have h3 := h2.inv.receive (hseg.congr h2.part) (t.ackFlags seg)
  simp only
  generalize t.receive (t.trim seg) (t.ackFlags seg) = r at h3 ⊢
  have h4 := (SameWindow.steadies h3 (Steadies.attemptSend r.1 r.2.1)).inv
  generalize r.1.attemptSend r.2.1 = u at h4 ⊢
  unfold notifyReadable
  split_ifs
  · exact h4.silent rfl rfl
  · exact h4

theorem process_window (h : WindowInv s)
    (hseg : s.accepts seg → s.OptionsFit seg ∧ (s.withOptions seg).KeepsWindow seg) :
    WindowInv (s.process seg).1 := by
  have h0 : SameWindow s s.noteTraffic := .silent h rfl rfl
  unfold process
  split_ifs with hconv hclosed hrst
  · exact h
  · exact h0.inv
  · exact h0.inv.silent rfl rfl
  · by_cases hacc : s.accepts seg
    · obtain ⟨hopt, hkeep⟩ := hseg hacc
      have hpart := withOptions_congr h0.part seg
      obtain ⟨h1, h2⟩ := control_window h0.inv (hopt.congr h0.part)
      unfold processSegment
      split
      · next t heq =>
        rw [heq] at h1
        exact h1
      · next t bConnect heq =>
        rw [heq] at h1 h2
        have ht : SameWindow t (t.updateTimestamp seg) := .steadies h1 (Steadies.ackRule.updateTimestamp t seg)
        have ha := ht.trans (processAck_window ht.inv seg s.now)
        split
        · next t' heq' =>
          rw [heq'] at ha
          exact ha.inv
        · next t' heq' =>
          rw [heq'] at ha
          dsimp only at ha ⊢
          refine processData_window ha.inv (hkeep.congr ?_) bConnect
          exact ha.part.trans ((h2 bConnect rfl).trans hpart)
    · rw [Bool.not_eq_true] at hacc
      rw [processSegment, control_rejected hacc (not_not.mp hconv) hclosed (not_not.mp hrst)]
      exact h0.inv

end Process

theorem WindowInv.recvMove {op : Op} (hop : ∀ value, op ≠ .setOption .rcvbuf value)
    (h : WindowInv s) (hm : RecvMove op none s s') : WindowInv s' := by
  have hfree : (u32 s.rcv.rbuf.getWriteRemaining).toNat =
      s.rcv.rbuf.bufferLength - s.rcv.rbuf.dataLength :=
    toNat_u32 (by have := h.ring.cap; unfold FifoBuffer.getWriteRemaining; omega)
  have hwnd := h.wnd
  cases hm with
  | steady hm => exact h.steady hm
  | close => exact ⟨⟨h.ring, h.wnd, h.scale, h.faults⟩, h.waiting⟩
  | connect => exact h.silent rfl rfl
  | options hinc => cases hinc
  | synReceived hinc => cases hinc
  | establish hinc => cases hinc
  | closedown => exact h.silent rfl rfl
  | payload hinc => cases hinc
  | @read len hop' hst =>
    have hspec := FifoBuffer.read_spec h.ring.valid len
    by_cases hpos : 0 < s.rcv.rbuf.dataLength
    · rw [if_pos hpos] at hspec
      have hring := h.ring
      refine ⟨⟨⟨?_, ?_, ?_⟩, ?_, ?_, h.faults⟩, h.waiting⟩
      all_goals rw [hspec]
      · exact hring.valid.afterRead (Nat.min_le_right _ _)
      · simpa using hring.isOpen
      · simpa using hring.cap
      · simp only [FifoBuffer.afterRead_bufferLength, FifoBuffer.afterRead_dataLength]
        omega
      · simpa using h.scale
    · rw [if_neg hpos] at hspec
      rw [hspec]
      exact ⟨⟨h.ring, h.wnd, h.scale, h.faults⟩, h.waiting⟩
  | checkWindow =>
    have hle : s.rcv.rcvWnd ≤ u32 s.rcv.rbuf.getWriteRemaining := by
      rw [BitVec.le_def, hfree]
      exact hwnd
    rw [check, decide_eq_true hle]
    exact h
  | widen =>
    refine ⟨⟨h.ring, ?_, h.scale, h.faults⟩, fun e he => ?_⟩
    · simp only [hfree, le_refl]
    · have := h.waiting e he
      unfold InsideWindow at this ⊢
      simp only [hfree]
      omega
  | resize hop' => exact absurd hop' (hop _)

/-! ## Runs -/

def RespectsWindow (s : PseudoTcp) : Op → Prop
  | .setOption .rcvbuf value => s.HoldsBuffered (scaledSize (BitVec.ofInt 32 value)).toNat
  | op => ∀ seg ∈ s.incoming op, s.OptionsFit seg ∧ (s.withOptions seg).KeepsWindow seg

theorem windowInv_new (w : World) (conv : Uint32) : WindowInv (new w conv) := by
  refine ⟨⟨⟨FifoBuffer.valid_new _ _, rfl, ?_⟩, ?_, ?_, by simp [new]⟩, by simp [new]⟩
  all_goals simp only [new, FifoBuffer.new]; decide

/-- **A call that respects the window keeps it**. -/
theorem windowInv_step (s : PseudoTcp) (op : Op) (h : WindowInv s) (hop : s.RespectsWindow op) :
    WindowInv (s.step op) := by
  have hquiet : s.incoming op = none → (∀ value, op ≠ .setOption .rcvbuf value) →
      WindowInv (s.step op) := by
    intro hinc hres
    have hm := step_recvMoves s op
    rw [hinc] at hm
    generalize s.step op = t at hm
    induction hm with
    | refl => exact h
    | tail _ hlast ih => exact ih.recvMove hres hlast
  cases op with
  | notifyPacket buffer len =>
    simp only [step, notifyPacket, parse]
    split_ifs with hmax hmin
    · exact h
    · exact h
    · refine process_window h fun hacc => hop _ ?_
      simp only [incoming, Op.segment, hmax, hmin, or_self, if_false]
      exact Option.filter_some_pos hacc
  | setOption opt value =>
    cases opt with
    | rcvbuf =>
      have h1 : SameWindow s (s.check .optionState (s.state = .listen)) :=
        .steadies h (.single (.check s .optionState id _))
      refine h1.inv.resize ?_
      rw [check_eq]
      exact hop
    | _ => exact hquiet rfl fun _ hop' => by cases hop'
  | _ => exact hquiet rfl fun _ hop' => by cases hop'

/-- What is claimed of the window. -/
structure WindowSound (s : PseudoTcp) : Prop where
  le_free : s.rcv.rcvWnd.toNat ≤ s.rcv.rbuf.getWriteRemaining
  field_le : s.windowField.toNat <<< s.rcv.rwndScale.toNat ≤ s.rcv.rcvWnd.toNat
  lt_field : s.rcv.rcvWnd.toNat <
    s.windowField.toNat <<< s.rcv.rwndScale.toNat + 2 ^ s.rcv.rwndScale.toNat
  faults : .rcvWnd ∉ s.faults ∧ .recvWindow ∉ s.faults ∧ .windowCast ∉ s.faults

theorem WindowInv.sound (h : WindowInv s) : WindowSound s := by
  have hfield : s.windowField.toNat = s.rcv.rcvWnd.toNat / 2 ^ s.rcv.rwndScale.toNat := by
    have hfits := h.fits
    rw [WindowFits, BitVec.toNat_ushiftRight, Nat.shiftRight_eq_div_pow] at hfits
    rw [windowField, BitVec.toNat_setWidth, BitVec.toNat_ushiftRight, Nat.shiftRight_eq_div_pow]
    exact Nat.mod_eq_of_lt hfits
  refine ⟨h.wnd, ?_, ?_, ?_⟩
  · rw [hfield, Nat.shiftLeft_eq]
    exact Nat.div_mul_le_self _ _
  · rw [hfield, Nat.shiftLeft_eq]
    exact Nat.lt_div_mul_add (Nat.two_pow_pos _)
  · exact ⟨fun hf => h.faults _ hf trivial, fun hf => h.faults _ hf trivial,
      fun hf => h.faults _ hf trivial⟩

/-- **The advertised window is sound** in every run whose calls respect it. -/
theorem advertisedWindow_sound (w : World) (conv : Uint32) (ops : List Op)
    (hG : Guarded step RespectsWindow (new w conv) ops) :
    WindowSound (run step (new w conv) ops) :=
  (run_invariant windowInv_step (windowInv_new w conv) hG).sound

instance (s : PseudoTcp) (size : ℕ) : Decidable (s.HoldsBuffered size) :=
  inferInstanceAs (Decidable (_ ∧ ∀ e ∈ s.rcv.rlist, _ ≤ _))

instance (s : PseudoTcp) (seg : Segment) : Decidable (s.OptionsFit seg) :=
  inferInstanceAs (Decidable (_ → _ → s.HoldsBuffered _))

instance (s : PseudoTcp) (seg : Segment) : Decidable (s.KeepsWindow seg) :=
  inferInstanceAs (Decidable ((s.trim seg).len ≠ 0 →
    (s.ignoresData (s.trim seg) = false → _ ≤ _) ∧ (_ = _ → s.rcv.rlist = [] ∨ _ < _)))

instance (s : PseudoTcp) : (op : Op) → Decidable (s.RespectsWindow op)
  | .setOption .rcvbuf _ => inferInstanceAs (Decidable (s.HoldsBuffered _))
  | .setOption .nodelay _ | .setOption .ackdelay _ | .setOption .sndbuf _ | .connect | .recv _
  | .send _ _ | .close _ | .notifyMTU _ | .notifyClock _ | .notifyPacket _ _ =>
    inferInstanceAs (Decidable (∀ seg ∈ s.incoming _, s.OptionsFit seg ∧
      (s.withOptions seg).KeepsWindow seg))

def fillOps : List Op :=
  [.setOption .rcvbuf 8, .connect, .packet connectReply, .packet (dataPacket 4 [1, 2, 3, 4, 5, 6, 7, 8])]

theorem advertisedWindow_sound_refilled :
    WindowSound (run step (new calmWorld 0) (fillOps ++ [.recv 8, .packet (dataPacket 12 [9])])) :=
  advertisedWindow_sound calmWorld 0 _ (by decide)

/-- The peer sends one byte more than the window: `m_rcv_wnd` wraps. -/
theorem advertisedWindow_unsound :
    ¬ WindowSound (run step (new calmWorld 0)
      (fillOps ++ [.recv 1, .packet (dataPacket 12 [9])])) := by
  intro h
  have := h.le_free
  revert this
  decide

end PseudoTcp

end Libjingle
