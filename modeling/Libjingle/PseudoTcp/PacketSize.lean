import Libjingle.PseudoTcp.RecvMoves

/-!
# The size of packets

`adjustMTU` takes `PACKET_OVERHEAD` off the advised MTU, whatever it is.

Main results: **`packetSize_bounded`**, **`packetSize_wraps`**.
-/

namespace Libjingle

open Lib

namespace PseudoTcp

variable {s s' : PseudoTcp} {advise : Uint32}

/-- `m_mss` and `m_msslevel` are in range, and so was every packet. -/
structure PacketSizeOk (s : PseudoTcp) : Prop where
  mss_pos : 1 ≤ s.mss.toNat
  mss_le : s.mss.toNat ≤ maxPacket.toNat - packetOverhead.toNat
  level : s.msslevel.toNat + 1 < packetMaximums.length
  packets : ∀ p r, .tcpWritePacket p r ∈ s.log → headerSize.toNat + p.payload.length ≤ maxPacket.toNat
  fault : .packetSize ∉ s.faults

/-- The invariant, while the advised MTU is `advise`. -/
structure SizeInv (advise : Uint32) (s : PseudoTcp) : Prop extends PacketSizeOk s where
  advised : s.mtuAdvise = advise
  advise_le : advise.toNat ≤ maxPacket.toNat

def sizePart (s : PseudoTcp) := (s.mss, s.msslevel, s.mtuAdvise, s.log, s.faults)

namespace SizeInv

theorem silent (h : SizeInv advise s) (hpart : s'.sizePart = s.sizePart) : SizeInv advise s' := by
  simp only [sizePart, Prod.mk.injEq] at hpart
  obtain ⟨hmss, hlevel, hadvise, hlog, hfaults⟩ := hpart
  refine ⟨⟨?_, ?_, ?_, ?_, ?_⟩, hadvise.trans h.advised, h.advise_le⟩
  · rw [hmss]
    exact h.mss_pos
  · rw [hmss]
    exact h.mss_le
  · rw [hlevel]
    exact h.level
  · rw [hlog]
    exact h.packets
  · rw [hfaults]
    exact h.fault

theorem emit (h : SizeInv advise s) {e : Event} (he : ∀ p r, e ≠ .tcpWritePacket p r) : SizeInv advise (s.emit e) where
  mss_pos := h.mss_pos
  mss_le := h.mss_le
  level := h.level
  packets p r hp := by
    rcases List.mem_append.mp hp with hp | hp
    · exact h.packets p r hp
    · exact absurd (List.mem_singleton.mp hp).symm (he p r)
  fault := h.fault
  advised := h.advised
  advise_le := h.advise_le

theorem check (h : SizeInv advise s) (fault : Fault) (hf : fault ≠ .packetSize) (c : Bool) :
    SizeInv advise (s.check fault c) := by
  rw [check_eq]
  refine ⟨⟨h.mss_pos, h.mss_le, h.level, h.packets, fun hmem => ?_⟩, h.advised, h.advise_le⟩
  rcases List.mem_append.mp hmem with hmem | hmem
  · exact h.fault hmem
  · cases c
    · exact hf (List.mem_singleton.mp hmem).symm
    · cases hmem

/-! ## Packets -/

theorem readOffset_length (f : FifoBuffer) (bytes offset : ℕ) : (f.readOffset bytes offset).2.length ≤ bytes := by
  unfold FifoBuffer.readOffset FifoBuffer.readOffsetLocked
  split
  · exact Nat.zero_le _
  · simp only [List.length_append, length_block]
    omega

theorem payload_length (s : PseudoTcp) (seq : Uint32) (flags : Uint8) (offset len : Uint32) :
    (s.buildPacket seq flags offset len).payload.length = len.toNat := by
  unfold buildPacket
  dsimp only
  split
  · rename_i hlen
    rw [hlen]
    rfl
  · have hle := readOffset_length s.snd.sbuf len.toNat offset.toNat
    rw [List.length_append, length_block]
    omega

theorem packet (h : SizeInv advise s) (seq : Uint32) (flags : Uint8) (offset : Uint32) {len : Uint32}
    (hlen : len.toNat ≤ maxPacket.toNat - packetOverhead.toNat) :
    SizeInv advise (s.packet seq flags offset len).1 := by
  have hmax : maxPacket.toNat - packetOverhead.toNat = 65419 := rfl
  have hbound : headerSize.toNat + len.toNat ≤ maxPacket.toNat := by
    have h24 : headerSize.toNat = 24 := rfl
    have h65535 : maxPacket.toNat = 65535 := rfl
    omega
  have hpackets : ∀ p r, .tcpWritePacket p r ∈
      s.log ++ [.tcpWritePacket (s.buildPacket seq flags offset len) (s.results 0)] →
      headerSize.toNat + p.payload.length ≤ maxPacket.toNat := by
    intro p r hp
    rcases List.mem_append.mp hp with hp | hp
    · exact h.packets p r hp
    · cases List.mem_singleton.mp hp
      rw [payload_length]
      exact hbound
  have hfault : .packetSize ∉ s.faults ++ s.packetFaults offset len := by
    have hle : headerSize + len ≤ maxPacket := by
      rw [BitVec.le_def, BitVec.toNat_add, Nat.mod_eq_of_lt (by omega)]
      exact hbound
    intro hmem
    rcases List.mem_append.mp hmem with hmem | hmem
    · exact h.fault hmem
    · simp only [packetFaults, if_pos hle, List.nil_append, List.mem_append] at hmem
      rcases hmem with (hmem | hmem) | hmem <;> split at hmem <;> simp at hmem
  rw [packet_eq]
  dsimp only
  split
  · exact ⟨⟨h.mss_pos, h.mss_le, h.level, hpackets, hfault⟩, h.advised, h.advise_le⟩
  · exact ⟨⟨h.mss_pos, h.mss_le, h.level, hpackets, hfault⟩, h.advised, h.advise_le⟩

theorem table_range : ∀ mtu ∈ packetMaximums, mtu ≠ 0 →
    1 ≤ (mtu.setWidth 32 - packetOverhead).toNat ∧
      (mtu.setWidth 32 - packetOverhead).toNat ≤ maxPacket.toNat - packetOverhead.toNat := by
  intro mtu hmem h0
  have hmax : maxPacket.toNat - packetOverhead.toNat = 65419 := rfl
  simp only [packetMaximums, List.mem_cons, List.not_mem_nil, or_false] at hmem
  rw [hmax]
  rcases hmem with rfl | rfl | rfl | rfl | rfl | rfl | rfl | rfl | rfl | rfl | rfl
  case inr.inr.inr.inr.inr.inr.inr.inr.inr.inr => exact absurd rfl h0
  all_goals exact ⟨by simp, by simp⟩

theorem lowerMss (h : SizeInv advise s) {mtu : Uint16} {rest : List Uint16}
    (htable : packetMaximums.drop (s.msslevel.toNat + 1) = mtu :: rest) (h0 : mtu ≠ 0) :
    SizeInv advise (s.lowerMss mtu) ∧
      packetMaximums.drop ((s.lowerMss mtu).msslevel.toNat + 1) = rest := by
  have hlength : packetMaximums.length = 11 := rfl
  have hlevel := h.level
  have hmem : mtu ∈ packetMaximums := List.mem_of_mem_drop (htable ▸ List.mem_cons_self)
  obtain ⟨hpos, hle⟩ := table_range mtu hmem h0
  have hrest : packetMaximums.drop (s.msslevel.toNat + 1 + 1) = rest := by
    rw [← List.drop_drop, htable]
    rfl
  have hnext : s.msslevel.toNat + 1 + 1 < packetMaximums.length := by
    by_contra hlast
    have hten : s.msslevel.toNat + 1 = 10 := by omega
    rw [hten] at htable
    exact h0 (List.cons.inj htable).1.symm
  have hsucc : (s.msslevel + 1).toNat = s.msslevel.toNat + 1 := by
    have hone : (1 : Uint32).toNat = 1 := rfl
    rw [BitVec.toNat_add, hone]
    omega
  constructor
  · refine ⟨⟨hpos, hle, ?_, h.packets, h.fault⟩, h.advised, h.advise_le⟩
    show (s.msslevel + 1).toNat + 1 < _
    rw [hsucc]
    exact hnext
  · show packetMaximums.drop ((s.msslevel + 1).toNat + 1) = rest
    rw [hsucc]
    exact hrest

theorem packet_level (s : PseudoTcp) (seq : Uint32) (flags : Uint8) (offset len : Uint32) :
    (s.packet seq flags offset len).1.msslevel = s.msslevel := by
  rw [packet_eq]
  dsimp only
  split <;> rfl

theorem retryPacket (seg : SSegment) {table : List Uint16} {n : Uint32} (h : SizeInv advise s)
    (htable : packetMaximums.drop (s.msslevel.toNat + 1) = table) :
    SizeInv advise (retryPacket seg table n s).1 := by
  induction table generalizing n s with
  | nil => exact h
  | cons mtu rest ih =>
    unfold PseudoTcp.retryPacket
    split
    · exact h
    · rename_i h0
      obtain ⟨hlower, hrest⟩ := h.lowerMss htable h0
      dsimp only
      split
      · have hpacket := hlower.packet seg.seq seg.flags (seg.seq - (s.lowerMss mtu).snd.sndUna)
          hlower.mss_le
        have hlevel := packet_level (s.lowerMss mtu) seg.seq seg.flags
          (seg.seq - (s.lowerMss mtu).snd.sndUna) (s.lowerMss mtu).mss
        split
        · rename_i heq
          rw [heq] at hpacket
          exact hpacket
        · rename_i heq
          rw [heq] at hpacket
          exact hpacket
        · rename_i heq
          rw [heq] at hpacket hlevel
          exact ih hpacket (by rw [hlevel]; exact hrest)
      · exact ih hlower hrest

theorem transmitPacket (h : SizeInv advise s) (seg : SSegment) {n : Uint32} (hn : n ≤ s.mss) :
    SizeInv advise (s.transmitPacket seg n).1 := by
  have hpacket := h.packet seg.seq seg.flags (seg.seq - s.snd.sndUna)
    (le_trans (BitVec.le_def.mp hn) h.mss_le)
  unfold PseudoTcp.transmitPacket
  split
  · rename_i heq
    rw [heq] at hpacket
    exact hpacket
  · rename_i heq
    rw [heq] at hpacket
    exact hpacket
  · rename_i heq
    rw [heq] at hpacket
    exact hpacket.retryPacket seg rfl

theorem transmit (h : SizeInv advise s) (before : List SSegment) (seg : SSegment) (after : List SSegment)
    (now : Uint32) : SizeInv advise (s.transmit before seg after now).1 := by
  have hmin : min32 seg.len s.mss ≤ s.mss := by
    unfold min32
    split
    · exact BitVec.le_refl _
    · bv_omega
  have hpacket := h.transmitPacket seg hmin
  rcases transmit_cases s before seg after now with ⟨heq, -⟩ | ⟨t, ht, heq⟩ | ⟨t, n, ht, -, heq⟩
  · rw [heq]
    exact h
  · rw [heq]
    rwa [ht] at hpacket
  · rw [heq]
    rw [ht] at hpacket
    exact hpacket.silent rfl

theorem transmitFront (h : SizeInv advise s) (now : Uint32) : SizeInv advise (s.transmitFront now).1 := by
  unfold PseudoTcp.transmitFront
  split
  · exact h.check .transmitEnd nofun false
  · exact h.transmit _ _ _ now

theorem ack (h : SizeInv advise s) (seq : Uint32) : SizeInv advise (s.packet seq 0 0 0).1 :=
  h.packet seq 0 0 (Nat.zero_le _)

/-- `attemptSend` keeps the sizes. -/
theorem attemptSend (h : SizeInv advise s) (sflags : SendFlags) : SizeInv advise (s.attemptSend sflags) := by
  have hstart : SizeInv advise s.beforeLoop := by
    unfold beforeLoop
    split
    · exact h.silent rfl
    · exact h.silent rfl
  refine sendLoop_rel (R := fun a b => SizeInv advise a → SizeInv advise b) (fun _ => id) (fun hab hbc ha => hbc (hab ha))
    ?_ ?_ ?_ _ ?_ _ _ _ hstart
  · exact fun t ht => ht.check .inFlight nofun _
  · exact fun t _ _ ht => ht.check .searchEnd nofun _
  · intro t flags ht
    cases flags with
    | none => exact ht
    | immediateAck => exact ht.ack _
    | delayedAck =>
      unfold PseudoTcp.sendAck
      dsimp only
      split
      · exact ht.ack _
      · exact ht.silent rfl
  · intro t before seg after _ _ ht
    refine transmit ?_ _ _ _ _
    exact ht.silent rfl

/-! ## Calls -/

theorem setState (h : SizeInv advise s) (st : TcpState) : SizeInv advise (s.setState st) :=
  emit (s := { s with state := st }) (h.silent rfl) nofun

theorem closedown (h : SizeInv advise s) (err : Errno) : SizeInv advise (s.closedown err) :=
  (h.setState .closed).emit nofun

theorem msslevelFrom_lt (mtu : Uint32) (table : List Uint16) (i : ℕ) (hlast : table.getLast? = some 0)
    (hlength : 2 ≤ table.length) : msslevelFrom mtu table i + 1 < i + table.length := by
  fun_induction msslevelFrom mtu table i with
  | case1 m m' rest i hpos hle =>
    simp only [List.length_cons]
    omega
  | case2 m m' rest i hpos hle ih =>
    have hrest : rest ≠ [] := by
      rintro rfl
      simp only [List.getLast?_cons_cons, List.getLast?_singleton, Option.some.injEq] at hlast
      rw [hlast] at hpos
      exact absurd hpos (by decide)
    have hlen := List.length_pos_iff.mpr hrest
    rw [List.getLast?_cons_cons] at hlast
    have := ih hlast (by rw [List.length_cons]; omega)
    simp only [List.length_cons] at this ⊢
    omega
  | case3 m m' rest i hpos =>
    simp only [List.length_cons]
    omega
  | case4 i table hne =>
    omega

theorem adjustMTU (h : SizeInv advise s) (hmtu : packetOverhead < advise) : SizeInv advise s.adjustMTU := by
  have hsub : (advise - packetOverhead).toNat = advise.toNat - packetOverhead.toNat :=
    BitVec.toNat_sub_of_le (BitVec.le_of_lt hmtu)
  have hlt := BitVec.lt_def.mp hmtu
  have hmax := h.advise_le
  have hlevel := msslevelFrom_lt s.mtuAdvise packetMaximums 0 rfl (by decide)
  have hmss : s.adjustMTU.mss = advise - packetOverhead := by rw [← h.advised]; rfl
  refine ⟨⟨?_, ?_, ?_, h.packets, h.fault⟩, h.advised, h.advise_le⟩
  · rw [hmss]
    omega
  · rw [hmss]
    omega
  · have hmod := Nat.mod_le (msslevelFrom s.mtuAdvise packetMaximums 0) (2 ^ 32)
    show (u32 (msslevelFrom s.mtuAdvise packetMaximums 0)).toNat + 1 < _
    rw [BitVec.toNat_ofNat]
    omega

theorem establish (h : SizeInv advise s) (hmtu : packetOverhead < advise) : SizeInv advise s.establish :=
  ((h.setState .established).adjustMTU hmtu).emit nofun

/-! ## `process` -/

theorem parseOptions (h : SizeInv advise s) (data : List Uint8) : SizeInv advise (s.parseOptions data) := by
  rcases parseOptions_cases s data with ⟨scale, heq⟩ | ⟨-, heq⟩
  · rw [heq]
    exact h.silent rfl
  · rw [heq]
    exact (h.check .resize nofun _).silent rfl

theorem ackRule : AckRule fun a b => SizeInv advise a → SizeInv advise b where
  refl _ := id
  trans hab hbc ha := hbc (hab ha)
  silent heq ha := by
    simp only [restPart, Prod.mk.injEq] at heq
    obtain ⟨-, -, -, -, -, -, hmss, hlevel, hadvise, hlog, hfaults⟩ := heq
    exact ha.silent (by rw [sizePart, hmss, hlevel, hadvise, hlog, hfaults]; rfl)
  check s fault hf c ha := ha.check fault (by rintro rfl; exact hf) c
  transmitFront s now ha := ha.transmitFront now

theorem processAck (h : SizeInv advise s) (seg : Segment) (now : Uint32) :
    SizeInv advise (s.processAck seg now).1 := by
  have hack := ackRule.handleAck s seg now h
  unfold PseudoTcp.processAck
  split
  · rename_i heq
    rw [heq] at hack
    exact hack
  · rename_i heq
    rw [heq] at hack
    exact hack.closedown _

theorem receive (h : SizeInv advise s) (seg : Segment) (sflags : SendFlags) :
    SizeInv advise (s.receive seg sflags).1 := by
  obtain ⟨r, fs, heq, hfs, -⟩ := RecvFrame.receive s seg sflags
  rw [heq]
  refine ⟨⟨h.mss_pos, h.mss_le, h.level, h.packets, fun hmem => ?_⟩, h.advised, h.advise_le⟩
  rcases List.mem_append.mp hmem with hmem | hmem
  · exact h.fault hmem
  · exact hfs _ hmem

theorem notifyReadable (h : SizeInv advise s) (bNewData : Bool) : SizeInv advise (s.notifyReadable bNewData) := by
  unfold PseudoTcp.notifyReadable
  split
  · exact emit (s := { s with readEnable := false }) (h.silent rfl) nofun
  · exact h

theorem processData (h : SizeInv advise s) (seg : Segment) {bConnect : Bool}
    (hmtu : s.state = .synReceived → bConnect = false → packetOverhead < advise) :
    SizeInv advise (s.processData seg bConnect) := by
  have hopen : SizeInv advise (s.openIfSynReceived bConnect) := by
    unfold openIfSynReceived
    split
    · rename_i hst
      exact h.establish (hmtu hst.1 (by simpa using hst.2))
    · exact h
  have hwriteable : SizeInv advise (s.openIfSynReceived bConnect).notifyWriteable := by
    unfold notifyWriteable
    dsimp only
    split
    · exact emit (s := { s.openIfSynReceived bConnect with writeEnable := false }) (hopen.silent rfl) nofun
    · exact hopen
  unfold PseudoTcp.processData
  generalize (s.openIfSynReceived bConnect).notifyWriteable = t at hwriteable ⊢
  exact ((hwriteable.receive (t.trim seg) (t.ackFlags seg)).attemptSend _).notifyReadable _

end SizeInv

/-! ## Opening -/

theorem control_cases (s : PseudoTcp) (seg : Segment) :
    ((s.control seg) = (s, none)) ∨ (seg.flags &&& flagCtl = 0 ∧ s.control seg = (s, some false)) ∨
      seg.flags &&& flagCtl ≠ 0 ∧ seg.len ≠ 0 ∧ seg.data 0 = ctlConnect ∧
        s.control seg = ((s.parseOptions (block seg.data 1 (seg.len - 1).toNat)).connectReceived, some true) := by
  unfold control
  split
  · exact .inr (.inl ⟨‹_›, rfl⟩)
  · split
    · exact .inl rfl
    · split
      · exact .inr (.inr ⟨‹_›, ‹_›, ‹_›, rfl⟩)
      · exact .inl rfl

/-- The segment makes `process` call `adjustMTU`. -/
def opens (s : PseudoTcp) (seg : Segment) : Bool :=
  s.accepts seg &&
    match s.state with
    | .synSent => seg.flags &&& flagCtl ≠ 0
    | .synReceived =>
      seg.flags &&& flagCtl = 0 && ((s.noteTraffic.updateTimestamp seg).processAck seg s.now).2
    | _ => false

theorem parseOptions_state (s : PseudoTcp) (data : List Uint8) : (s.parseOptions data).state = s.state := by
  rcases parseOptions_cases s data with ⟨scale, heq⟩ | ⟨-, heq⟩
  · rw [heq]
  · rw [heq, resizeReceiveBuffer_eq]

theorem processAck_state {t : PseudoTcp} {seg : Segment} {now : Uint32}
    (h : s.processAck seg now = (t, true)) : t.state = s.state := by
  have hst := (Steadies.ackRule.handleAck s seg now).state
  unfold processAck at h
  split at h
  · rename_i heq
    cases h
    rwa [heq] at hst
  · cases h

theorem SizeInv.processSegment (h : SizeInv advise s) (seg : Segment) (now : Uint32)
    (hsent : s.state = .synSent → seg.flags &&& flagCtl ≠ 0 → seg.len ≠ 0 → seg.data 0 = ctlConnect →
      packetOverhead < advise)
    (hreceived : s.state = .synReceived → seg.flags &&& flagCtl = 0 →
      ((s.updateTimestamp seg).processAck seg now).2 = true → packetOverhead < advise) :
    SizeInv advise (s.processSegment seg now).1 := by
  unfold PseudoTcp.processSegment
  rcases control_cases s seg with heq | ⟨hctl, heq⟩ | ⟨hctl, hlen, hdata, heq⟩
  · rw [heq]
    exact h
  · rw [heq]
    have hack := (SizeInv.ackRule.updateTimestamp s seg h).processAck seg now
    have hst : (s.updateTimestamp seg).state = s.state := (Steadies.ackRule.updateTimestamp s seg).state
    dsimp only
    split
    · rename_i hresult
      rw [hresult] at hack
      exact hack
    · rename_i hresult
      rw [hresult] at hack
      dsimp only at hack ⊢
      refine hack.processData seg fun hopen _ => hreceived ?_ hctl (by rw [hresult])
      rw [← hst, ← processAck_state hresult]
      exact hopen
  · rw [heq]
    have hoptions := h.parseOptions (block seg.data 1 (seg.len - 1).toNat)
    have hst := parseOptions_state s (block seg.data 1 (seg.len - 1).toNat)
    generalize s.parseOptions (block seg.data 1 (seg.len - 1).toNat) = t at hoptions hst ⊢
    have hconnect : SizeInv advise t.connectReceived := by
      unfold connectReceived
      split
      · exact SizeInv.ackRule.queueConnectMessage _ (hoptions.setState .synReceived)
      · rename_i hsynSent
        exact hoptions.establish (hsent (hst.symm.trans hsynSent) hctl hlen hdata)
      · exact hoptions
    generalize t.connectReceived = u at hconnect ⊢
    have hack := (SizeInv.ackRule.updateTimestamp u seg hconnect).processAck seg now
    dsimp only
    split
    · rename_i hresult
      rw [hresult] at hack
      exact hack
    · rename_i hresult
      rw [hresult] at hack
      dsimp only at hack ⊢
      refine hack.processData seg ?_
      exact fun _ htrue => Bool.noConfusion htrue

/-- The same for `process`. -/
theorem SizeInv.process (h : SizeInv advise s) (seg : Segment)
    (hmtu : s.opens seg = true → packetOverhead < advise) : SizeInv advise (s.process seg).1 := by
  have hnote : SizeInv advise s.noteTraffic := h.silent rfl
  unfold PseudoTcp.process
  split
  · exact h
  · rename_i hconv
    split
    · exact hnote
    · rename_i hclosed
      split
      · exact hnote.closedown _
      · rename_i hrst
        rw [not_not] at hconv hrst
        refine hnote.processSegment seg s.now ?_ ?_
        · intro hst hctl hlen hdata
          have hst' : s.state = .synSent := hst
          have hctl' : ¬seg.flags &&& flagCtl = 0#8 := hctl
          have hlen' : ¬seg.len = 0#32 := hlen
          exact hmtu (by simp [opens, accepts, hconv, hst', hrst, hctl', hlen', hdata])
        · intro hst hctl hack
          have hst' : s.state = .synReceived := hst
          exact hmtu (by simp [opens, accepts, hconv, hst', hrst, hctl, hack])

/-! ## The other calls -/

theorem SizeInv.notifyClock (h : SizeInv advise s) (now : Uint32) : SizeInv advise (s.notifyClock now) := by
  have hretransmit : SizeInv advise (s.clockRetransmit now).1 := by
    rcases clockRetransmit_cases s now with heq | ⟨-, ⟨-, heq⟩ | ⟨-, t, ht, heq⟩⟩
    · rw [heq]
      exact h
    · rw [heq]
      exact h.check .clockEmpty nofun false
    · have hfront : SizeInv advise t := ht ▸ h.transmitFront now
      rcases heq with heq | ⟨ssthresh, rxRto, heq⟩
      · rw [heq]
        exact hfront.closedown _
      · rw [heq]
        exact hfront.silent rfl
  have hprobe {t : PseudoTcp} (ht : SizeInv advise t) : SizeInv advise (t.clockProbe now).1 := by
    rcases clockProbe_cases t now with heq | heq | ⟨rxRto, heq⟩
    · rw [heq]
      exact ht
    · rw [heq]
      exact ht.closedown _
    · rw [heq]
      exact (ht.ack (t.snd.sndNxt - 1)).silent rfl
  exact notifyClock_rel (R := fun a b => SizeInv advise a → SizeInv advise b) (fun _ => id)
    (fun hab hbc ha => hbc (hab ha)) (fun _ => hretransmit) (fun _ => hprobe) (fun _ ht => ht.ack _) h

theorem SizeInv.widenWindow (h : SizeInv advise s) (available : Uint32) :
    SizeInv advise (s.widenWindow available) := by
  have hset : SizeInv advise { s with rcv.rcvWnd := available } := h.silent rfl
  unfold PseudoTcp.widenWindow
  simp only
  split_ifs
  · exact SizeInv.attemptSend hset _
  · exact hset
  · exact h

theorem SizeInv.recv (h : SizeInv advise s) (len : ℕ) : SizeInv advise (s.recv len).1 := by
  have hreopen {t : PseudoTcp} (ht : SizeInv advise t) : SizeInv advise t.reopenWindow :=
    (ht.check .recvWindow nofun (t.rcv.rcvWnd ≤ u32 t.rcv.rbuf.getWriteRemaining)).widenWindow _
  unfold PseudoTcp.recv
  split
  · exact h.silent rfl
  · split
    · exact h.silent rfl
    · rename_i result out rbuf _ _
      have hcheck := h.check .recvResult nofun (result = .success)
      generalize s.check .recvResult (result = .success) = t at hcheck ⊢
      have hset : SizeInv advise { t with rcv.rbuf := rbuf } := hcheck.silent rfl
      exact hreopen hset

/-! ## Runs -/

/-- The call makes `adjustMTU` run. -/
def adjusts (s : PseudoTcp) : Op → Bool
  | .notifyMTU _ => s.state = .established
  | op =>
    match op.segment with
    | some seg => s.opens seg
    | none => false

def advised (s : PseudoTcp) : Op → Uint32
  | .notifyMTU mtu => mtu.setWidth 32
  | _ => s.mtuAdvise

def MtuFits (s : PseudoTcp) (op : Op) : Prop := s.adjusts op = true → packetOverhead < s.advised op

instance (s : PseudoTcp) (op : Op) : Decidable (s.MtuFits op) :=
  inferInstanceAs (Decidable (_ → _))

/-- **A call keeps the sizes if the MTU is large enough where it counts**. -/
theorem SizeInv.step (h : SizeInv s.mtuAdvise s) (op : Op) (hop : s.MtuFits op) :
    SizeInv (s.step op).mtuAdvise (s.step op) := by
  suffices hadvise : ∃ advise, SizeInv advise (s.step op) by
    obtain ⟨advise, hsize⟩ := hadvise
    rw [hsize.advised]
    exact hsize
  cases op with
  | connect =>
    refine ⟨s.mtuAdvise, ?_⟩
    simp only [PseudoTcp.step, connect]
    split
    · exact h.silent rfl
    · dsimp only
      exact (SizeInv.ackRule.queueConnectMessage _ (h.setState .synSent)).attemptSend .none
  | recv len => exact ⟨s.mtuAdvise, h.recv len⟩
  | send data len =>
    refine ⟨s.mtuAdvise, ?_⟩
    simp only [PseudoTcp.step, send]
    split
    · exact h.silent rfl
    · split
      · exact h.silent rfl
      · dsimp only
        exact (SizeInv.ackRule.queue s data (u32 len) false h).attemptSend .none
  | close force => exact ⟨s.mtuAdvise, h.silent rfl⟩
  | notifyMTU mtu =>
    have hle : (mtu.setWidth 32).toNat ≤ maxPacket.toNat := by
      have hlt := mtu.isLt
      have hmax : maxPacket.toNat = 65535 := rfl
      rw [BitVec.toNat_setWidth]
      omega
    have hset : SizeInv (mtu.setWidth 32) { s with mtuAdvise := mtu.setWidth 32 } :=
      ⟨⟨h.mss_pos, h.mss_le, h.level, h.packets, h.fault⟩, rfl, hle⟩
    refine ⟨mtu.setWidth 32, ?_⟩
    simp only [PseudoTcp.step, notifyMTU]
    split
    · rename_i hst
      exact hset.adjustMTU (hop (decide_eq_true hst))
    · exact hset
  | notifyClock now => exact ⟨s.mtuAdvise, h.notifyClock now⟩
  | notifyPacket buffer len =>
    refine ⟨s.mtuAdvise, ?_⟩
    simp only [PseudoTcp.step, notifyPacket, parse]
    split
    · exact h
    · rename_i hmax
      split
      · exact h
      · rename_i hmin
        refine h.process _ fun hopens => hop ?_
        simp only [adjusts, Op.segment, hmax, hmin, or_self, if_false]
        exact hopens
  | setOption opt value =>
    refine ⟨s.mtuAdvise, ?_⟩
    cases opt with
    | nodelay => exact h.silent rfl
    | ackdelay => exact h.silent rfl
    | sndbuf => exact (h.check .optionState (by decide) _).silent rfl
    | rcvbuf => exact ((h.check .optionState (by decide) _).check .resize (by decide) _).silent rfl

theorem sizeInv_new (w : World) (conv : Uint32) : SizeInv (new w conv).mtuAdvise (new w conv) where
  mss_pos := (by decide : 1 ≤ (minPacket - packetOverhead).toNat)
  mss_le := (by decide : (minPacket - packetOverhead).toNat ≤ maxPacket.toNat - packetOverhead.toNat)
  level := (by decide : (0#32).toNat + 1 < packetMaximums.length)
  packets _ _ hmem := by cases hmem
  fault hmem := by cases hmem
  advised := rfl
  advise_le := le_rfl

/-- **`m_mss` and all packets are in range** if `adjustMTU` only meets MTUs above
`PACKET_OVERHEAD`. -/
theorem packetSize_bounded (w : World) (conv : Uint32) (ops : List Op)
    (hfits : Guarded step MtuFits (new w conv) ops) : (run step (new w conv) ops).PacketSizeOk :=
  (run_invariant (I := fun s => SizeInv s.mtuAdvise s) (fun _ op h hop => h.step op hop)
    (sizeInv_new w conv) hfits).toPacketSizeOk

/-- A connection is made, with an MTU of 1500, and data is sent. -/
theorem packetSize_bounded_sending :
    (run step (new calmWorld 0)
      [.connect, .notifyMTU 1500, .packet connectReply, .send (ptr [1, 2, 3]) 3]).PacketSizeOk :=
  packetSize_bounded calmWorld 0 _ (by decide)

/-- **An MTU of 100 makes `m_mss` wrap.** -/
theorem packetSize_wraps :
    let s := run step (new calmWorld 0) [.connect, .packet connectReply, .notifyMTU 100]
    s.mss = 4294967280 ∧ ¬ s.PacketSizeOk := by
  intro s
  have hmss : s.mss = 4294967280 := by decide
  refine ⟨hmss, fun h => ?_⟩
  have hle := h.mss_le
  rw [hmss] at hle
  exact absurd hle (by decide)

end PseudoTcp

end Libjingle
