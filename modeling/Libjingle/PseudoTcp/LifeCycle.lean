import Libjingle.PseudoTcp.RecvMoves
import Mathlib.Data.List.Chain

/-!
# The life of a connection

Main results: **`history_run`**, **`connection_lifeCycle`**.
-/

variable {l : List Event} {st : TcpState}

namespace Libjingle

open Lib Relation

/-- The steps `m_state` may take. -/
inductive Edge : TcpState → TcpState → Prop where
  | connect : Edge .listen .synSent
  | connected : Edge .synSent .established
  | accept : Edge .listen .synReceived
  | accepted : Edge .synReceived .established
  | close {st : TcpState} (h : st ≠ .closed) : Edge st .closed

namespace Event

/-- State changes, `OnTcpOpen` and `OnTcpClosed`. -/
def isLife : Event → Bool
  | .logState _ | .onTcpOpen | .onTcpClosed _ => true
  | _ => false

/-- A call of `OnTcpClosed`. -/
def isClosed : Event → Bool
  | .onTcpClosed _ => true
  | _ => false

def entered : Event → Option TcpState
  | .logState st => some st
  | _ => none

end Event

/-! ## Histories -/

def OpenHistory : TcpState → List Event → Prop
  | .listen, l => l = []
  | .synSent, l => l = [.logState .synSent]
  | .synReceived, l => l = [.logState .synReceived]
  | .established, l => ∃ st, (st = .synSent ∨ st = .synReceived) ∧
      l = [.logState st, .logState .established, .onTcpOpen]
  | .closed, _ => False

def History (st : TcpState) (l : List Event) : Prop :=
  OpenHistory st l ∨ (st = .closed ∧ ∃ st' l' err, OpenHistory st' l' ∧
    l = l' ++ [.logState .closed, .onTcpClosed err])

theorem History.open (h : History st l) (hst : st ≠ .closed) : OpenHistory st l :=
  h.resolve_right fun hc => hst hc.1

theorem OpenHistory.cases (h : OpenHistory st l) :
    (st = .listen ∧ l = []) ∨
    ((st = .synSent ∨ st = .synReceived) ∧ l = [.logState st]) ∨
    (st = .established ∧ ∃ st', (st' = .synSent ∨ st' = .synReceived) ∧
      l = [.logState st', .logState .established, .onTcpOpen]) := by
  cases st with
  | listen => exact .inl ⟨rfl, h⟩
  | synSent => exact .inr (.inl ⟨.inl rfl, h⟩)
  | synReceived => exact .inr (.inl ⟨.inr rfl, h⟩)
  | established => exact .inr (.inr ⟨rfl, h⟩)
  | closed => exact h.elim

theorem OpenHistory.path (h : OpenHistory st l) :
    (.listen :: l.filterMap Event.entered).IsChain Edge ∧
      (.listen :: l.filterMap Event.entered).getLast? = some st := by
  rcases h.cases with ⟨rfl, rfl⟩ | ⟨rfl | rfl, rfl⟩ | ⟨rfl, st', rfl | rfl, rfl⟩
  · simp
  · simp [Event.entered, Edge.connect]
  · simp [Event.entered, Edge.accept]
  · simp [List.filterMap_cons, Event.entered, Edge.connect, Edge.connected]
  · simp [List.filterMap_cons, Event.entered, Edge.accept, Edge.accepted]

theorem OpenHistory.counts (h : OpenHistory st l) :
    l.count .onTcpOpen = l.count (.logState .established) ∧ l.count .onTcpOpen ≤ 1 ∧
      l.countP Event.isClosed = 0 ∧ l.count (.logState .closed) = 0 ∧ st ≠ .closed := by
  rcases h.cases with ⟨rfl, rfl⟩ | ⟨rfl | rfl, rfl⟩ | ⟨rfl, st', rfl | rfl, rfl⟩ <;> decide

theorem History.path (h : History st l) :
    (.listen :: l.filterMap Event.entered).IsChain Edge ∧
      (.listen :: l.filterMap Event.entered).getLast? = some st := by
  rcases h with h | ⟨rfl, st', l', err, h, rfl⟩
  · exact h.path
  · obtain ⟨hchain, hlast⟩ := h.path
    have hst := h.counts.2.2.2.2
    rw [List.filterMap_append, ← List.cons_append]
    refine ⟨List.isChain_append.mpr ⟨hchain, by
      simp [List.filterMap_cons, Event.entered], ?_⟩, by
      rw [List.getLast?_append]; simp [List.filterMap_cons, Event.entered]⟩
    intro a ha b hb
    rw [hlast] at ha
    cases ha
    simp only [Event.entered, List.filterMap_cons, List.filterMap_nil, List.head?_cons,
      Option.mem_def, Option.some.injEq] at hb
    rw [← hb]
    exact .close hst

theorem History.counts (h : History st l) :
    l.count .onTcpOpen = l.count (.logState .established) ∧ l.count .onTcpOpen ≤ 1 ∧
      l.countP Event.isClosed = l.count (.logState .closed) ∧ l.countP Event.isClosed ≤ 1 := by
  rcases h with h | ⟨rfl, st', l', err, h, rfl⟩
  · obtain ⟨h1, h2, h3, h4, -⟩ := h.counts
    rw [h3, h4]
    exact ⟨h1, h2, rfl, Nat.zero_le 1⟩
  · obtain ⟨h1, h2, h3, h4, -⟩ := h.counts
    simp only [List.count_append, List.countP_append, h3, h4]
    rw [← h1]
    simp [Event.isClosed, h2]

namespace PseudoTcp

variable {s s' : PseudoTcp} {op : Op} {inc : Option Segment}

/-! ## Moves -/

def life (s : PseudoTcp) : List Event := s.log.filter Event.isLife

theorem life_of_log {es : List Event} (hlog : s'.log = s.log ++ es)
    (hes : ∀ e ∈ es, e.isLife = false) : s'.life = s.life := by
  have hnil : es.filter Event.isLife = [] :=
    List.filter_eq_nil_iff.mpr fun e he => by simp [hes e he]
  rw [life, hlog, List.filter_append, hnil, List.append_nil]
  rfl

theorem IsSend.not_life {e : Event} (h : s.IsSend e) : e.isLife = false := by
  obtain ⟨p, r, rfl, -⟩ := h
  rfl

theorem life_steady (h : Steady s s') : s'.life = s.life := by
  obtain ⟨es, hlog, hes⟩ := h.log
  refine life_of_log hlog fun e he => ?_
  rcases hes e he with he | rfl
  · exact he.not_life
  · rfl

theorem payload_life {t : PseudoTcp} {seg : Segment} {sflags : SendFlags} {b : Bool}
    (h : SendFrame (s.receive seg sflags).1 t) :
    (t.notifyReadable b).state = s.state ∧ (t.notifyReadable b).life = s.life := by
  obtain ⟨r, fs, hr, -⟩ := RecvFrame.receive s seg sflags
  rw [hr] at h
  have hstate : t.state = s.state := h.state
  have hlife := life_steady (Steady.of_sendFrame h)
  unfold notifyReadable
  split_ifs
  · have hlog : ({ t with readEnable := false }.emit .onTcpReadable).log =
        t.log ++ [.onTcpReadable] := rfl
    exact ⟨hstate, (life_of_log hlog (by simp [Event.isLife])).trans hlife⟩
  · exact ⟨hstate, hlife⟩

theorem parseOptions_life (s : PseudoTcp) (data : List Uint8) :
    (s.parseOptions data).state = s.state ∧ (s.parseOptions data).life = s.life := by
  rcases parseOptions_cases s data with ⟨scale, hs⟩ | ⟨-, hs⟩
  · rw [hs]
    exact ⟨rfl, rfl⟩
  · rw [hs, resizeReceiveBuffer_eq]
    exact ⟨rfl, rfl⟩

/-- A step of the receive side continues the history. -/
theorem history_recvMove (h : History s.state s.life) (hm : RecvMove op inc s s') : History s'.state s'.life := by
  cases hm with
  | steady hs => rwa [hs.state, life_steady hs]
  | close | read | widen => exact h
  | checkWindow => rw [check_eq]; exact h
  | resize => rw [resizeReceiveBuffer_eq]; exact h
  | options =>
    rename_i seg _ _
    obtain ⟨h1, h2⟩ := parseOptions_life s (block seg.data 1 (seg.len - 1).toNat)
    rwa [h1, h2]
  | payload hinc hopen ht =>
    obtain ⟨h1, h2⟩ := payload_life ht
    rwa [h1, h2]
  | connect hop hst =>
    left
    rw [hst] at h
    have : s.life = [] := h.open (by decide)
    simp only [life, setState, emit, List.filter_append, OpenHistory] at this ⊢
    rw [this]
    rfl
  | synReceived hinc hctl hst =>
    left
    rw [hst] at h
    have : s.life = [] := h.open (by decide)
    simp only [life, setState, emit, List.filter_append, OpenHistory] at this ⊢
    rw [this]
    rfl
  | establish hinc hst =>
    left
    have hst' : s.state = .synSent ∨ s.state = .synReceived := hst.imp_left And.left
    have hlife : s.life = [.logState s.state] := by
      rcases hst' with hs | hs <;> rw [hs] at h ⊢ <;> exact h.open (by decide)
    refine ⟨s.state, hst', ?_⟩
    simp only [life, establish, setState, emit, adjustMTU, List.filter_append] at hlife ⊢
    rw [hlife]
    rfl
  | closedown err hst =>
    right
    refine ⟨rfl, s.state, s.life, err, h.open hst, ?_⟩
    simp only [life, closedown, setState, emit, List.filter_append]
    rw [List.append_assoc]
    rfl

theorem history_step (h : History s.state s.life) (op : Op) : History (s.step op).state (s.step op).life := by
  have hm := step_recvMoves s op
  generalize s.step op = t at hm
  induction hm with
  | refl => exact h
  | tail _ hm ih => exact history_recvMove ih hm

/-- **What has been signalled fits the state**, in every run. -/
theorem history_run (w : World) (conv : Uint32) (ops : List Op) :
    History (run step (new w conv) ops).state (run step (new w conv) ops).life :=
  run_invariant (I := fun s : PseudoTcp => History s.state s.life) (G := fun _ _ => True)
    (fun _ op h _ => history_step h op) (.inl (show OpenHistory .listen [] from rfl))
    (guarded_true _ _)

/-! ## The log -/

theorem log_recvMove (hm : RecvMove op inc s s') : s.log <+: s'.log := by
  cases hm with
  | steady hs =>
    obtain ⟨es, hlog, -⟩ := hs.log
    exact ⟨es, hlog.symm⟩
  | close | read | widen => exact List.prefix_rfl
  | checkWindow => rw [check_eq]
  | resize => rw [resizeReceiveBuffer_eq]
  | options =>
    rename_i seg _ _
    rcases parseOptions_cases s (block seg.data 1 (seg.len - 1).toNat) with ⟨_, hs⟩ | ⟨-, hs⟩
    · rw [hs]
    · rw [hs, resizeReceiveBuffer_eq]
  | connect | synReceived => exact List.prefix_append _ _
  | establish | closedown => exact (List.prefix_append _ _).trans (List.prefix_append _ _)
  | payload hinc hopen ht =>
    rename_i t seg
    obtain ⟨r, fs, hr, -⟩ := RecvFrame.receive s (s.trim seg) (s.ackFlags seg)
    obtain ⟨es, hlog, -⟩ := ht.log
    rw [hr] at hlog
    have hpre : s.log <+: t.log := ⟨es, hlog.symm⟩
    unfold notifyReadable
    split_ifs
    · exact hpre.trans (List.prefix_append _ _)
    · exact hpre

theorem log_step (s : PseudoTcp) (op : Op) : (s.step op).log = s.log ++ s.newEvents op := by
  have hpre : s.log <+: (s.step op).log := by
    have hm := step_recvMoves s op
    generalize s.step op = t at hm
    induction hm with
    | refl => exact List.prefix_rfl
    | tail _ hm ih => exact ih.trans (log_recvMove hm)
  obtain ⟨es, hes⟩ := hpre
  rw [newEvents, ← hes, List.drop_left]

/-! ## The shutdown -/

theorem shutdown_recvMove (hop : ∀ force, op ≠ .close force) (hm : RecvMove op inc s s') :
    s'.shutdown = s.shutdown := by
  cases hm with
  | steady hs => exact hs.shutdown
  | close hclose => exact absurd hclose (hop _)
  | checkWindow => rw [check_eq]
  | resize => rw [resizeReceiveBuffer_eq]
  | options =>
    rename_i seg _ _
    rcases parseOptions_cases s (block seg.data 1 (seg.len - 1).toNat) with ⟨_, hs⟩ | ⟨-, hs⟩
    · rw [hs]
    · rw [hs, resizeReceiveBuffer_eq]
  | connect | synReceived | establish | closedown | read | widen => rfl
  | payload hinc hopen ht =>
    rename_i t seg
    obtain ⟨r, fs, hr, -⟩ := RecvFrame.receive s (s.trim seg) (s.ackFlags seg)
    have hshut := ht.shutdown
    rw [hr] at hshut
    unfold notifyReadable
    split_ifs <;> exact hshut

theorem shutdown_step (s : PseudoTcp) (op : Op) (hop : ∀ force, op ≠ .close force) :
    (s.step op).shutdown = s.shutdown := by
  have hm := step_recvMoves s op
  generalize s.step op = t at hm
  induction hm with
  | refl => rfl
  | tail _ hm ih => exact (shutdown_recvMove hop hm).trans ih

/-! ## The states -/

def states (s : PseudoTcp) : List TcpState := s.log.filterMap Event.entered

theorem filterMap_life (l : List Event) :
    (l.filter Event.isLife).filterMap Event.entered = l.filterMap Event.entered := by
  rw [List.filterMap_filter]
  refine List.filterMap_congr fun e _ => ?_
  cases e <;> rfl

theorem count_life {e : Event} (he : e.isLife = true) (l : List Event) :
    (l.filter Event.isLife).count e = l.count e := List.count_filter he

theorem countP_life (l : List Event) : (l.filter Event.isLife).countP Event.isClosed = l.countP Event.isClosed := by
  rw [List.countP_filter]
  refine List.countP_congr fun e _ => ?_
  cases e <;> simp [Event.isClosed, Event.isLife]

/-! ## Closed connections -/

theorem step_closed (h : s.state = .closed) (op : Op) : (s.step op).log = s.log ∧ (s.step op).state = .closed := by
  cases op with
  | connect => simp [step, connect, h]
  | recv len => simp [step, recv, h]
  | send data len => simp [step, send, h]
  | close force => exact ⟨rfl, h⟩
  | notifyMTU mtu => simp [step, notifyMTU, h]
  | notifyClock now => simp [step, notifyClock, h]
  | notifyPacket buffer len =>
    simp only [step, notifyPacket, parse, process, h, if_true]
    split_ifs <;> exact ⟨rfl, h⟩
  | setOption opt value =>
    cases opt with
    | nodelay | ackdelay => exact ⟨rfl, h⟩
    | sndbuf => simp [step, setOption, resizeSendBuffer, check_eq, h]
    | rcvbuf => simp [step, setOption, resizeReceiveBuffer_eq, check_eq, h]

/-! ## The life cycle -/

theorem log_counts (h : History s.state s.life) :
    s.log.count .onTcpOpen = s.log.count (.logState .established) ∧
      s.log.count .onTcpOpen ≤ 1 ∧
      s.log.countP Event.isClosed = s.log.count (.logState .closed) ∧
      s.log.countP Event.isClosed ≤ 1 := by
  have := h.counts
  rwa [life, count_life rfl, count_life rfl, count_life rfl, countP_life] at this

theorem states_path (h : History s.state s.life) :
    (.listen :: s.states).IsChain Edge ∧ (.listen :: s.states).getLast? = some s.state := by
  have := h.path
  rwa [life, filterMap_life] at this

theorem step_life (h : History s.state s.life) (op : Op) :
    (.onTcpOpen ∈ s.newEvents op ↔ .logState .established ∈ s.newEvents op) ∧
      ((∃ err, .onTcpClosed err ∈ s.newEvents op) ↔ .logState .closed ∈ s.newEvents op) ∧
      ∀ st, (s.step op).state = st → s.state ≠ st → .logState st ∈ s.newEvents op := by
  have h' := history_step h op
  have hlog := log_step s op
  obtain ⟨hopen, -, hclose, -⟩ := log_counts h
  obtain ⟨hopen', -, hclose', -⟩ := log_counts h'
  rw [hlog, List.count_append, List.count_append] at hopen'
  rw [hlog, List.countP_append, List.count_append] at hclose'
  refine ⟨?_, ?_, ?_⟩
  · rw [← List.count_pos_iff, ← List.count_pos_iff]
    omega
  · have hex : (∃ err, .onTcpClosed err ∈ s.newEvents op) ↔
        0 < (s.newEvents op).countP Event.isClosed := by
      rw [List.countP_pos_iff]
      constructor
      · rintro ⟨err, hm⟩
        exact ⟨_, hm, rfl⟩
      · rintro ⟨e, hm, he⟩
        cases e <;> first | exact ⟨_, hm⟩ | cases he
    rw [hex, ← List.count_pos_iff]
    omega
  · intro st hst hne
    have hlast := (states_path h).2
    have hlast' := (states_path h').2
    rw [states, hlog, List.filterMap_append, ← List.cons_append, List.getLast?_append, ← states,
      hlast, hst] at hlast'
    cases hnew : ((s.newEvents op).filterMap Event.entered).getLast? with
    | none =>
      rw [hnew] at hlast'
      exact absurd (Option.some.inj hlast') hne
    | some st' =>
      rw [hnew] at hlast'
      obtain rfl : st' = st := Option.some.inj hlast'
      obtain ⟨e, hm, he⟩ := List.mem_filterMap.mp (List.mem_of_getLast? hnew)
      cases e with
      | logState st' =>
        cases he
        exact hm
      | _ => cases he

/-- **The life cycle of every run**: `m_state` follows the edges, the calls are made once, and a
closed connection does nothing and refuses all. -/
theorem connection_lifeCycle (w : World) (conv : Uint32) (ops : List Op) :
    let s := run step (new w conv) ops
    ((.listen :: s.states).IsChain Edge ∧ (.listen :: s.states).getLast? = some s.state) ∧
      (s.log.count .onTcpOpen ≤ 1 ∧ s.log.countP Event.isClosed ≤ 1) ∧
      (∀ op, (.onTcpOpen ∈ s.newEvents op ↔ .logState .established ∈ s.newEvents op) ∧
        ((∃ err, .onTcpClosed err ∈ s.newEvents op) ↔ .logState .closed ∈ s.newEvents op) ∧
        ∀ st, (s.step op).state = st → s.state ≠ st → .logState st ∈ s.newEvents op) ∧
      (s.state = .closed →
        (∀ op, (s.step op).log = s.log ∧ (s.step op).state = .closed) ∧ s.connect.2 = false ∧
        (∀ len, (s.recv len).2 = none) ∧ ∀ data len, (s.send data len).2 = none) := by
  intro s
  have h : History s.state s.life := history_run w conv ops
  obtain ⟨-, hopen, -, hclose⟩ := log_counts h
  refine ⟨states_path h, ⟨hopen, hclose⟩, step_life h, fun hc => ⟨step_closed hc, ?_, ?_, ?_⟩⟩
  · simp [connect, hc]
  · intro len
    simp [recv, hc]
  · intro data len
    simp [send, hc]

end PseudoTcp

end Libjingle
