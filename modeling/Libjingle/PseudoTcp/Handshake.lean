import Libjingle.PseudoTcp.RecvMoves
import Libjingle.Fifo.Spec

/-!
# Payload before the handshake

`process` does not look at `m_state` before it stores payload.

Main results: **`noPayload_before_handshake`**, **`payload_before_handshake`**.
-/

variable {seg : Segment}

namespace Libjingle

open Lib Relation

namespace PseudoTcp

variable {s s' : PseudoTcp} {op : Op} {inc : Option Segment}

def NothingReceived (s : PseudoTcp) : Prop :=
  s.rcv.rbuf.getBuffered = 0 ∧ s.rcv.rlist = [] ∧ .onTcpReadable ∉ s.log

def Early (st : TcpState) : Prop := st = .listen ∨ st = .synSent

instance (st : TcpState) : Decidable (Early st) :=
  inferInstanceAs (Decidable (st = .listen ∨ st = .synSent))

def NoPayload (s : PseudoTcp) (seg : Segment) : Prop :=
  s.ignoresData seg ∨ (s.trim seg).len = 0

instance (s : PseudoTcp) (seg : Segment) : Decidable (s.NoPayload seg) :=
  inferInstanceAs (Decidable (s.ignoresData seg ∨ (s.trim seg).len = 0))

theorem noPayload_congr (hnxt : s'.rcv.rcvNxt = s.rcv.rcvNxt) (hbuf : s'.rcv.rbuf = s.rcv.rbuf)
    (hsd : s'.shutdown = s.shutdown) (h : s.NoPayload seg) : s'.NoPayload seg := by
  unfold NoPayload ignoresData
  rw [trim_congr hnxt hbuf, hsd]
  exact h

theorem noPayload_of_ctl (h : seg.flags &&& flagCtl ≠ 0) : s.NoPayload seg :=
  .inl (by rw [ignoresData, decide_eq_true h, Bool.true_or])

theorem receive_noPayload (h : s.NoPayload seg) (sflags : SendFlags) :
    (s.receive (s.trim seg) sflags).2.2 = false ∧
      ∃ n, (s.receive (s.trim seg) sflags).1 = { s with rcv.rcvNxt := n } ∧
        (n = s.rcv.rcvNxt ∨ s.ignoresData seg) := by
  have hign : s.ignoresData (s.trim seg) = s.ignoresData seg := by
    rw [ignoresData, ignoresData, trim_flags]
  unfold receive
  by_cases h0 : (s.trim seg).len = 0
  · rw [if_pos h0]
    exact ⟨rfl, s.rcv.rcvNxt, rfl, .inl rfl⟩
  · have hi : s.ignoresData seg := h.resolve_right h0
    rw [if_neg h0, hign, if_pos hi]
    refine ⟨rfl, ?_⟩
    simp only
    split_ifs
    · exact ⟨_, rfl, .inr hi⟩
    · exact ⟨_, rfl, .inl rfl⟩

/-! ## Moves -/

/-- Before the handshake with nothing received, and the call will not change that. -/
structure Waiting (inc : Option Segment) (s : PseudoTcp) : Prop where
  nothing : Early s.state → s.NothingReceived
  noPayload : Early s.state → ∀ seg ∈ inc, s.NoPayload seg

theorem not_early_established : ¬ Early .established := by decide
theorem not_early_synReceived : ¬ Early .synReceived := by decide
theorem not_early_closed : ¬ Early .closed := by decide

theorem NothingReceived.steady (h : s.NothingReceived) (hs : Steady s s') : s'.NothingReceived := by
  obtain ⟨es, hlog, hes⟩ := hs.log
  refine ⟨by rw [hs.rbuf]; exact h.1, by rw [hs.rlist]; exact h.2.1, fun hm => ?_⟩
  rw [hlog] at hm
  rcases List.mem_append.mp hm with hm | hm
  · exact h.2.2 hm
  · rcases hes _ hm with ⟨p, r, he, -⟩ | he <;> cases he

theorem NothingReceived.resize (h : s.NothingReceived) (newSize : Uint32) :
    (s.resizeReceiveBuffer newSize).NothingReceived := by
  rw [resizeReceiveBuffer_eq]
  exact ⟨(FifoBuffer.setCapacity_dataLength _ _).trans h.1, h.2⟩

theorem NothingReceived.options (h : s.NothingReceived) (data : List Uint8) :
    (s.parseOptions data).NothingReceived := by
  rcases parseOptions_cases s data with ⟨scale, hs⟩ | ⟨-, hs⟩
  · rw [hs]
    exact h
  · rw [hs]
    exact h.resize _

theorem NothingReceived.emit (h : s.NothingReceived) {e : Event} (he : e ≠ .onTcpReadable) :
    (s.emit e).NothingReceived := by
  refine ⟨h.1, h.2.1, fun hm => ?_⟩
  rcases List.mem_append.mp hm with hm | hm
  · exact h.2.2 hm
  · exact he (List.mem_singleton.mp hm).symm

theorem options_state (s : PseudoTcp) (data : List Uint8) : (s.parseOptions data).state = s.state := by
  rcases parseOptions_cases s data with ⟨scale, hs⟩ | ⟨-, hs⟩
  · rw [hs]
  · rw [hs, resizeReceiveBuffer_eq]

theorem Waiting.payload {t : PseudoTcp} (h : Waiting inc s) (hinc : inc = some seg)
    (ht : SendFrame (s.receive (s.trim seg) (s.ackFlags seg)).1 t) :
    Waiting inc (t.notifyReadable (s.receive (s.trim seg) (s.ackFlags seg)).2.2) := by
  have hstate : t.state = s.state := by
    obtain ⟨r, fs, hr, -⟩ := RecvFrame.receive s (s.trim seg) (s.ackFlags seg)
    rw [ht.state, hr]
  by_cases hearly : Early s.state
  · have hno := h.noPayload hearly seg hinc
    obtain ⟨hnew, n, hr, hn⟩ := receive_noPayload hno (s.ackFlags seg)
    rw [hr] at ht
    rw [hnew]
    have hnot : t.notifyReadable false = t := by simp [notifyReadable]
    rw [hnot]
    have hnothing : ({ s with rcv.rcvNxt := n } : PseudoTcp).NothingReceived := h.nothing hearly
    refine ⟨fun _ => hnothing.steady (.of_sendFrame ht), fun _ seg' hseg' => ?_⟩
    rw [hinc] at hseg'
    cases hseg'
    rcases hn with rfl | hign
    · exact noPayload_congr (by rw [ht.rcv]) (by rw [ht.rcv]) ht.shutdown hno
    · left
      rw [ignoresData, ht.shutdown]
      exact hign
  · have hst : (t.notifyReadable (s.receive (s.trim seg) (s.ackFlags seg)).2.2).state = s.state := by
      rw [← hstate]
      unfold notifyReadable
      split_ifs <;> rfl
    rw [← hst] at hearly
    exact ⟨fun he => absurd he hearly, fun he => absurd he hearly⟩

theorem Waiting.recvMove (hres : ∀ value, op = .setOption .rcvbuf value → inc = none)
    (h : Waiting inc s) (hm : RecvMove op inc s s') : Waiting inc s' := by
  cases hm with
  | steady hs =>
    refine ⟨fun he => (h.nothing (hs.state ▸ he)).steady hs, fun he seg hseg => ?_⟩
    exact noPayload_congr hs.rcvNxt hs.rbuf hs.shutdown (h.noPayload (hs.state ▸ he) seg hseg)
  | close hop =>
    rename_i force
    refine ⟨h.nothing, fun _ seg _ => .inl ?_⟩
    cases force <;> simp [close, ignoresData]
  | connect hop hst =>
    have he : Early s.state := .inl hst
    exact ⟨fun _ => (h.nothing he).emit (by simp), fun _ seg hseg =>
      noPayload_congr rfl rfl rfl (h.noPayload he seg hseg)⟩
  | options hinc hctl =>
    refine ⟨fun he => (h.nothing (options_state s _ ▸ he)).options _, fun _ seg' hseg' => ?_⟩
    rw [hinc] at hseg'
    cases hseg'
    exact noPayload_of_ctl hctl
  | synReceived hinc hctl hst =>
    exact ⟨fun he => absurd he not_early_synReceived, fun he => absurd he not_early_synReceived⟩
  | establish hinc hst =>
    exact ⟨fun he => absurd he not_early_established, fun he => absurd he not_early_established⟩
  | closedown err hst =>
    exact ⟨fun he => absurd he not_early_closed, fun he => absurd he not_early_closed⟩
  | payload hinc hopen ht => exact h.payload hinc ht
  | read hop hst =>
    have hne : ¬ Early s.state := by rw [hst]; decide
    exact ⟨fun he => absurd he hne, fun he => absurd he hne⟩
  | checkWindow =>
    rw [check_eq]
    exact ⟨h.nothing, fun he seg hseg => noPayload_congr rfl rfl rfl (h.noPayload he seg hseg)⟩
  | widen =>
    exact ⟨h.nothing, fun he seg hseg => noPayload_congr rfl rfl rfl (h.noPayload he seg hseg)⟩
  | resize hop =>
    have hnone := hres _ hop
    have hst : ∀ n, (s.resizeReceiveBuffer n).state = s.state := fun n => by
      rw [resizeReceiveBuffer_eq]
    refine ⟨fun he => (h.nothing (hst _ ▸ he)).resize _, fun _ seg hseg => ?_⟩
    rw [hnone] at hseg
    cases hseg

/-! ## Without a CONNECT -/

def Unconnected (s : PseudoTcp) : Prop :=
  (Early s.state ∨ s.state = .closed) ∧ s.NothingReceived

theorem Unconnected.recvMove (h : Unconnected s) (hw' : Waiting inc s')
    (hctl : ∀ seg ∈ inc, seg.flags &&& flagCtl = 0) (hm : RecvMove op inc s s') :
    Unconnected s' := by
  obtain ⟨hst, hno⟩ := h
  cases hm with
  | steady hs => exact ⟨by rw [hs.state]; exact hst, hno.steady hs⟩
  | close hop => exact ⟨hst, hno⟩
  | connect hop hl => exact ⟨.inl (.inr rfl), hno.emit (by simp)⟩
  | options hinc hc => exact absurd (hctl _ hinc) hc
  | synReceived hinc hc hl => exact absurd (hctl _ hinc) hc
  | establish hinc hs =>
    rcases hs with ⟨-, hc⟩ | hs
    · exact absurd (hctl _ hinc) hc
    · rw [hs] at hst
      exact absurd hst (by decide)
  | closedown err hs => exact ⟨.inr rfl, NothingReceived.emit (hno.emit (by simp)) (by simp)⟩
  | payload hinc hopen ht =>
    rename_i t seg
    have hearly := hst.resolve_right hopen
    have hstate : (t.notifyReadable (s.receive (s.trim seg) (s.ackFlags seg)).2.2).state =
        s.state := by
      obtain ⟨r, fs, hr, -⟩ := RecvFrame.receive s (s.trim seg) (s.ackFlags seg)
      rw [show s.state = t.state by rw [ht.state, hr]]
      unfold notifyReadable
      split_ifs <;> rfl
    rw [← hstate] at hearly
    exact ⟨.inl hearly, hw'.nothing hearly⟩
  | read hop hs =>
    rw [hs] at hst
    exact absurd hst (by decide)
  | checkWindow => rw [check_eq]; exact ⟨hst, hno⟩
  | widen => exact ⟨hst, hno⟩
  | resize hop =>
    refine ⟨?_, hno.resize _⟩
    rw [resizeReceiveBuffer_eq]
    exact hst

/-! ## Runs -/

/-- The call brings no payload before a CONNECT. -/
def NoEarlyPayload (s : PseudoTcp) (op : Op) : Prop :=
  Early s.state → ∀ seg ∈ s.incoming op, s.NoPayload seg

instance (s : PseudoTcp) (op : Op) : Decidable (s.NoEarlyPayload op) :=
  inferInstanceAs (Decidable (Early s.state → ∀ seg ∈ s.incoming op, s.NoPayload seg))

def NoConnect (s : PseudoTcp) (op : Op) : Prop :=
  ∀ seg ∈ s.incoming op, seg.flags &&& flagCtl = 0

theorem waiting_step (h : Early s.state → s.NothingReceived) (hG : s.NoEarlyPayload op) :
    Waiting (s.incoming op) (s.step op) := by
  have hres : ∀ value, op = .setOption .rcvbuf value → s.incoming op = none := by
    rintro value rfl
    rfl
  have hstart : Waiting (s.incoming op) s := ⟨h, hG⟩
  have hm := step_recvMoves s op
  generalize s.step op = t at hm
  induction hm with
  | refl => exact hstart
  | tail _ hm ih => exact ih.recvMove hres hm

theorem unconnected_step (h : Unconnected s) (hG : s.NoEarlyPayload op) (hC : s.NoConnect op) :
    Unconnected (s.step op) := by
  have hres : ∀ value, op = .setOption .rcvbuf value → s.incoming op = none := by
    rintro value rfl
    rfl
  have hstart : Waiting (s.incoming op) s := ⟨fun _ => h.2, hG⟩
  have hm := step_recvMoves s op
  have hboth : Unconnected (s.step op) ∧ Waiting (s.incoming op) (s.step op) := by
    generalize s.step op = t at hm
    induction hm with
    | refl => exact ⟨h, hstart⟩
    | tail _ hm ih =>
      have hw := ih.2.recvMove hres hm
      exact ⟨ih.1.recvMove hw hC hm, hw⟩
  exact hboth.1

theorem nothingReceived_new (w : World) (conv : Uint32) : (new w conv).NothingReceived :=
  ⟨rfl, rfl, by simp [new]⟩

/-- **No payload before the handshake**, in a run without early payload. -/
theorem noPayload_before_handshake (w : World) (conv : Uint32) (ops : List Op)
    (hG : Guarded step NoEarlyPayload (new w conv) ops) :
    let s := run step (new w conv) ops
    (s.state = .listen ∨ s.state = .synSent → s.NothingReceived) ∧
      (Guarded step NoConnect (new w conv) ops → s.NothingReceived) := by
  intro s
  refine ⟨?_, fun hC => ?_⟩
  · exact run_invariant (I := fun s => Early s.state → s.NothingReceived)
      (fun s op h hG => (waiting_step h hG).nothing) (fun _ => nothingReceived_new w conv) hG
  · have hboth : Guarded step (fun s op => s.NoEarlyPayload op ∧ s.NoConnect op) (new w conv) ops :=
      guarded_and.mpr ⟨hG, hC⟩
    have h : Unconnected s := run_invariant (fun s op h hG => unconnected_step h hG.1 hG.2)
      ⟨.inl (.inl rfl), nothingReceived_new w conv⟩ hboth
    exact h.2

/-- Before the answer to its CONNECT a connection has received nothing. -/
theorem noPayload_before_handshake_ack :
    Guarded step NoEarlyPayload (new calmWorld 0) [.connect, .packet (plainAck 0)] ∧
      (run step (new calmWorld 0) [.connect, .packet (plainAck 0)]).NothingReceived := by
  have hG : Guarded step NoEarlyPayload (new calmWorld 0) [.connect, .packet (plainAck 0)] := by
    decide
  exact ⟨hG, (noPayload_before_handshake calmWorld 0 _ hG).1 (by decide)⟩

def earlyData : Packet := { plainAck 0 with seq := 0, payload := [7] }

/-- **A listening object stores the payload of a data segment** and tells the user. -/
theorem payload_before_handshake :
    let s := run step (new calmWorld 0) [.packet earlyData]
    s.state = .listen ∧ s.rcv.rbuf.contents = [7] ∧ .onTcpReadable ∈ s.log ∧
      ¬ s.NothingReceived := by
  have h : let s := run step (new calmWorld 0) [.packet earlyData]
      s.state = .listen ∧ s.rcv.rbuf.contents = [7] ∧ .onTcpReadable ∈ s.log := by
    decide
  exact ⟨h.1, h.2.1, h.2.2, fun hno => hno.2.2 h.2.2⟩

end PseudoTcp

end Libjingle
