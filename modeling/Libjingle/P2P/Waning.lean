import Libjingle.P2P.Closure

/-!
# States of connections that get worse

Main result: **`wanes_updateConnectionStates`**.
-/

variable {conn conn' : Connection} {c : ℕ}

namespace Libjingle.P2P

open Lib

/-! ## States of connections -/

/-- The states are no better than before, and nothing else is changed. -/
inductive Connection.Worse (conn : Connection) : Connection → Prop where
  | mk (read : ReadState) (write : WriteState) (hread : read = conn.readState ∨ read = .timeout)
      (hwrite : conn.writeState.toNat ≤ write.toNat) :
      Worse conn { conn with readState := read, writeState := write }

/-- How far a connection has come down. -/
def Connection.rank (conn : Connection) : ℕ :=
  conn.writeState.toNat + if conn.readState = .timeout then 1 else 0

def Connection.drop (conn : Connection) : Connection :=
  if conn.pruned then conn else { conn with pruned := true, writeState := .timeout }

namespace Connection

variable {conn conn' conn'' : Connection}

theorem Worse.refl (conn : Connection) : Worse conn conn := .mk _ _ (.inl rfl) le_rfl

theorem Worse.trans (h : Worse conn conn') (h' : Worse conn' conn'') : Worse conn conn'' := by
  obtain ⟨read, write, hread, hwrite⟩ := h
  obtain ⟨read', write', hread', hwrite'⟩ := h'
  refine .mk read' write' ?_ (hwrite.trans hwrite')
  rcases hread' with rfl | rfl
  · exact hread
  · exact .inr rfl

theorem Worse.rank_le (h : Worse conn conn') : conn.rank ≤ conn'.rank := by
  obtain ⟨read, write, rfl | rfl, hwrite⟩ := h
  · exact Nat.add_le_add_right hwrite _
  · refine Nat.add_le_add hwrite ?_
    dsimp only
    split <;> simp

theorem WriteState.toNat_le (w : WriteState) : w.toNat ≤ WriteState.timeout.toNat := by
  cases w <;> decide

theorem pruned_drop (conn : Connection) : conn.drop.pruned = true := by
  unfold drop
  split
  · assumption
  · rfl

theorem drop_drop (conn : Connection) : conn.drop.drop = conn.drop := if_pos conn.pruned_drop

theorem port_drop (conn : Connection) : conn.drop.port = conn.port := by
  unfold drop
  split <;> rfl

theorem writeState_le_drop (conn : Connection) : conn.writeState.toNat ≤ conn.drop.writeState.toNat := by
  unfold drop
  split
  · exact le_rfl
  · exact WriteState.toNat_le _

theorem rank_le_drop (conn : Connection) : conn.rank ≤ conn.drop.rank := by
  unfold drop
  split
  · exact le_rfl
  · exact Nat.add_le_add_right (WriteState.toNat_le _) _

end Connection

/-! ## What does not change -/

def Pair.statics (a : Pair) : Port × Uint64 × Uint32 × Uint32 :=
  (a.port, a.priority, a.generation, a.connection.rtt)

theorem compareConnectionCandidates_congr {a a' b b' : Pair} (ha : a'.statics = a.statics)
    (hb : b'.statics = b.statics) :
    compareConnectionCandidates a' b' = compareConnectionCandidates a b := by
  simp only [Pair.statics, Prod.mk.injEq] at ha hb
  unfold compareConnectionCandidates
  rw [ha.2.1, ha.2.2.1, hb.2.1, hb.2.2.1]

namespace P2PTransportChannel

variable {s s' s'' : P2PTransportChannel}

def staticsAt (s : P2PTransportChannel) (c : ℕ) : Option (Port × Uint64 × Uint32 × Uint32) :=
  (s.pairAt c).map Pair.statics

/-- The connections that are there are the same, and are compared by the same members. -/
structure Alike (s s' : P2PTransportChannel) : Prop where
  connections : s'.connections = s.connections
  protocolType : s'.protocolType = s.protocolType
  iceRole : s'.iceRole = s.iceRole
  wasWritable : s'.wasWritable = s.wasWritable
  writable : s'.writable = s.writable
  statics : ∀ c, s'.staticsAt c = s.staticsAt c

namespace Alike

theorem refl (s : P2PTransportChannel) : Alike s s := ⟨rfl, rfl, rfl, rfl, rfl, fun _ => rfl⟩

theorem trans (h : Alike s s') (h' : Alike s' s'') : Alike s s'' :=
  ⟨h'.connections.trans h.connections, h'.protocolType.trans h.protocolType,
    h'.iceRole.trans h.iceRole, h'.wasWritable.trans h.wasWritable, h'.writable.trans h.writable,
    fun c => (h'.statics c).trans (h.statics c)⟩

theorem symm (h : Alike s s') : Alike s' s :=
  ⟨h.connections.symm, h.protocolType.symm, h.iceRole.symm, h.wasWritable.symm, h.writable.symm,
    fun c => (h.statics c).symm⟩

theorem pairAt (h : Alike s s') {a : Pair} (ha : s.pairAt c = some a) :
    ∃ a', s'.pairAt c = some a' ∧ a'.statics = a.statics := by
  have hstatics := h.statics c
  unfold staticsAt at hstatics
  rw [ha, Option.map_some] at hstatics
  exact Option.map_eq_some_iff.mp hstatics

end Alike

theorem pairAt_eq_some_iff {a : Pair} : s.pairAt c = some a ↔
    s.connectionAt c = some a.connection ∧ s.portAt a.connection.port = some a.port := by
  unfold pairAt
  constructor
  · intro h
    obtain ⟨conn, hconn, hport⟩ := Option.bind_eq_some_iff.mp h
    obtain ⟨port, hat, rfl⟩ := Option.map_eq_some_iff.mp hport
    exact ⟨hconn, hat⟩
  · rintro ⟨hconn, hport⟩
    rw [hconn, Option.bind_some, hport]
    rfl

theorem networkOf_eq (s : P2PTransportChannel) (c : ℕ) :
    s.networkOf c = (s.staticsAt c).map fun view => view.1.network.id := by
  unfold networkOf portOf staticsAt pairAt
  cases s.connectionAt c with
  | none => rfl
  | some conn =>
    cases hport : s.portAt conn.port with
    | none => simp [hport]
    | some port => simp [hport, Pair.statics]

theorem Alike.networkOf (h : Alike s s') : s'.networkOf = s.networkOf := by
  funext c
  rw [networkOf_eq, networkOf_eq, h.statics]

theorem Alike.getBestConnectionOnNetwork (h : Alike s s') (hbest : s'.bestConnection = s.bestConnection) :
    s'.getBestConnectionOnNetwork = s.getBestConnectionOnNetwork := by
  funext n
  unfold P2PTransportChannel.getBestConnectionOnNetwork
  rw [hbest, h.networkOf, h.connections]

theorem networkOf_getBestConnectionOnNetwork {n p : ℕ}
    (h : s.getBestConnectionOnNetwork n = some p) : s.networkOf p = some n := by
  unfold getBestConnectionOnNetwork at h
  split_ifs at h with hbest
  · rwa [h, Option.bind_some] at hbest
  · have hfound := List.find?_some h
    exact eq_of_beq hfound

/-! ## `UpdateConnectionStates` -/

/-- States have become worse, and so if the best connection is another one. -/
structure Wanes (s s' : P2PTransportChannel) : Prop extends Alike s s' where
  portAt : s'.portAt = s.portAt
  live : ∀ c, (s'.connectionAt c).isSome = (s.connectionAt c).isSome
  worse : ∀ c conn', s'.connectionAt c = some conn' →
    ∃ conn, s.connectionAt c = some conn ∧ conn.Worse conn'
  best : s'.bestConnection = s.bestConnection ∨
    ∃ c conn conn', s.connectionAt c = some conn ∧ s'.connectionAt c = some conn' ∧
      conn.rank < conn'.rank

/-- Only messages are posted and another best connection may be chosen. -/
structure Signals (s s' : P2PTransportChannel) : Prop where
  connections : s'.connections = s.connections
  protocolType : s'.protocolType = s.protocolType
  iceRole : s'.iceRole = s.iceRole
  wasWritable : s'.wasWritable = s.wasWritable
  writable : s'.writable = s.writable
  portAt : s'.portAt = s.portAt
  connectionAt : s'.connectionAt = s.connectionAt

theorem Signals.refl (s : P2PTransportChannel) : Signals s s := ⟨rfl, rfl, rfl, rfl, rfl, rfl, rfl⟩

theorem Signals.trans (h : Signals s s') (h' : Signals s' s'') : Signals s s'' :=
  ⟨h'.connections.trans h.connections, h'.protocolType.trans h.protocolType,
    h'.iceRole.trans h.iceRole, h'.wasWritable.trans h.wasWritable, h'.writable.trans h.writable,
    h'.portAt.trans h.portAt, h'.connectionAt.trans h.connectionAt⟩

theorem Signals.staticsAt (h : Signals s s') : s'.staticsAt = s.staticsAt := by
  funext c
  unfold P2PTransportChannel.staticsAt P2PTransportChannel.pairAt
  rw [h.connectionAt, h.portAt]

theorem signals_requestSort (s : P2PTransportChannel) : Signals s s.requestSort := by
  unfold requestSort
  split
  · exact { Signals.refl s with }
  · exact .refl s

theorem best_requestSort (s : P2PTransportChannel) : s.requestSort.bestConnection = s.bestConnection := by
  unfold requestSort
  split <;> rfl

theorem signals_checkTimeout (s : P2PTransportChannel) (c : ℕ) : Signals s (s.checkTimeout c) := by
  unfold checkTimeout
  split
  · exact { Signals.refl s with }
  · exact .refl s

theorem best_checkTimeout (s : P2PTransportChannel) (c : ℕ) :
    (s.checkTimeout c).bestConnection = s.bestConnection := by
  unfold checkTimeout
  split <;> rfl

theorem signals_onConnectionStateChange (s : P2PTransportChannel) (c : ℕ) :
    Signals s (s.onConnectionStateChange c) := by
  unfold onConnectionStateChange
  refine Signals.trans ?_ (signals_requestSort _)
  split
  · exact { Signals.refl s with }
  · exact .refl s

theorem signals_signalled (s : P2PTransportChannel) (c : ℕ) :
    Signals s ((s.onConnectionStateChange c).checkTimeout c) :=
  (signals_onConnectionStateChange s c).trans (signals_checkTimeout _ c)

theorem best_signalled (h : s.test c (·.writable) = false) :
    ((s.onConnectionStateChange c).checkTimeout c).bestConnection = s.bestConnection := by
  rw [best_checkTimeout, onConnectionStateChange, best_requestSort, if_neg (by simp [h])]

namespace Wanes

theorem refl (s : P2PTransportChannel) : Wanes s s :=
  { Alike.refl s with
    portAt := rfl
    live := fun _ => rfl
    worse := fun _ conn h => ⟨conn, h, .refl conn⟩
    best := .inl rfl }

theorem exists_worse (h : Wanes s s') (hc : s.connectionAt c = some conn) :
    ∃ conn', s'.connectionAt c = some conn' ∧ conn.Worse conn' := by
  have hlive := h.live c
  rw [hc] at hlive
  obtain ⟨conn', hconn'⟩ := Option.isSome_iff_exists.mp hlive
  obtain ⟨conn₀, hconn₀, hworse⟩ := h.worse c conn' hconn'
  rw [hc] at hconn₀
  cases hconn₀
  exact ⟨conn', hconn', hworse⟩

theorem trans (h : Wanes s s') (h' : Wanes s' s'') : Wanes s s'' :=
  { h.toAlike.trans h'.toAlike with
    portAt := h'.portAt.trans h.portAt
    live := fun c => (h'.live c).trans (h.live c)
    worse := by
      intro c conn'' hconn''
      obtain ⟨conn', hconn', hworse'⟩ := h'.worse c conn'' hconn''
      obtain ⟨conn, hconn, hworse⟩ := h.worse c conn' hconn'
      exact ⟨conn, hconn, hworse.trans hworse'⟩
    best := by
      rcases h.best with hbest | ⟨c, conn, conn', hconn, hconn', hlt⟩
      · rcases h'.best with hbest' | ⟨c, conn', conn'', hconn', hconn'', hlt⟩
        · exact .inl (hbest'.trans hbest)
        · obtain ⟨conn, hconn, hworse⟩ := h.worse c conn' hconn'
          exact .inr ⟨c, conn, conn'', hconn, hconn'', hworse.rank_le.trans_lt hlt⟩
      · obtain ⟨conn'', hconn'', hworse⟩ := h'.exists_worse hconn'
        exact .inr ⟨c, conn, conn'', hconn, hconn'', hlt.trans_le hworse.rank_le⟩ }

theorem ite {c : Prop} [Decidable c] {t : P2PTransportChannel} (h : c → Wanes s t) :
    Wanes s (if c then t else s) := by
  split_ifs with hc
  · exact h hc
  · exact .refl s

end Wanes

theorem exists_of_test {q : Connection → Bool} (h : s.test c q = true) :
    ∃ conn, s.connectionAt c = some conn ∧ q conn = true := by
  unfold test at h
  cases hc : s.connectionAt c with
  | none => rw [hc] at h; cases h
  | some conn =>
    rw [hc] at h
    exact ⟨conn, rfl, h⟩

theorem statics_worse (h : conn.Worse conn') (port : Port) :
    Pair.statics ⟨conn', port⟩ = Pair.statics ⟨conn, port⟩ := by
  obtain ⟨read, write, -, -⟩ := h
  rfl

theorem statics_drop (conn : Connection) (port : Port) :
    Pair.statics ⟨conn.drop, port⟩ = Pair.statics ⟨conn, port⟩ := by
  unfold Connection.drop
  split <;> rfl

theorem connectionAt_setConnection_self (s : P2PTransportChannel) (c : ℕ) (conn : Connection) :
    (s.setConnection c conn).connectionAt c = some conn := Function.update_self c _ _

theorem connectionAt_setConnection_ne {c' : ℕ} (h : c' ≠ c) (s : P2PTransportChannel)
    (conn : Connection) : (s.setConnection c conn).connectionAt c' = s.connectionAt c' :=
  Function.update_of_ne h _ _

theorem connectionAt_setReadState (h : s.connectionAt c = some conn) (value : ReadState) :
    (s.setReadState c value).connectionAt c = some { conn with readState := value } := by
  unfold setReadState
  rw [h]
  dsimp only
  split
  · rw [(signals_signalled _ c).connectionAt, connectionAt_setConnection_self]
  · rw [connectionAt_setConnection_self]

theorem connectionAt_setWriteState (h : s.connectionAt c = some conn) (value : WriteState) :
    (s.setWriteState c value).connectionAt c = some { conn with writeState := value } := by
  unfold setWriteState
  rw [h]
  dsimp only
  split
  · rw [(signals_signalled _ c).connectionAt, connectionAt_setConnection_self]
  · rw [connectionAt_setConnection_self]

theorem staticsAt_setConnection (hconn : s.connectionAt c = some conn) (hport : conn'.port = conn.port)
    (hstatics : ∀ port, Pair.statics ⟨conn', port⟩ = Pair.statics ⟨conn, port⟩) (c' : ℕ) :
    (s.setConnection c conn').staticsAt c' = s.staticsAt c' := by
  unfold staticsAt pairAt
  by_cases hc : c' = c
  · subst hc
    rw [connectionAt_setConnection_self, hconn, Option.bind_some, Option.bind_some, hport]
    change Option.map _ (Option.map _ (s.portAt conn.port)) = _
    cases s.portAt conn.port with
    | none => rfl
    | some port => exact congrArg some (hstatics port)
  · rw [connectionAt_setConnection_ne hc]
    rfl

theorem wanes_signalled (hconn : s.connectionAt c = some conn)
    (hworse : conn.Worse conn') (hrank : conn.rank < conn'.rank) :
    Wanes s (((s.setConnection c conn').onConnectionStateChange c).checkTimeout c) := by
  have hport : conn'.port = conn.port := by
    obtain ⟨read, write, -, -⟩ := hworse
    rfl
  have hsignals := signals_signalled (s.setConnection c conn') c
  have hat : ((((s.setConnection c conn').onConnectionStateChange c).checkTimeout c).connectionAt c) =
      some conn' := by
    rw [hsignals.connectionAt]
    exact connectionAt_setConnection_self s c conn'
  have hother : ∀ c' ≠ c, ((((s.setConnection c conn').onConnectionStateChange c).checkTimeout
      c).connectionAt c') = s.connectionAt c' := by
    intro c' hc
    rw [hsignals.connectionAt]
    exact connectionAt_setConnection_ne hc s conn'
  exact {
    connections := hsignals.connections
    protocolType := hsignals.protocolType
    iceRole := hsignals.iceRole
    wasWritable := hsignals.wasWritable
    writable := hsignals.writable
    statics := fun c' => by
      rw [hsignals.staticsAt]
      exact staticsAt_setConnection hconn hport (statics_worse hworse) c'
    portAt := hsignals.portAt
    live := by
      intro c'
      by_cases hc : c' = c
      · rw [hc, hat, hconn]
        rfl
      · rw [hother c' hc]
    worse := by
      intro c' conn'' h
      by_cases hc : c' = c
      · subst hc
        obtain rfl := Option.some.inj (hat.symm.trans h)
        exact ⟨conn, hconn, hworse⟩
      · exact ⟨conn'', hother c' hc ▸ h, .refl conn''⟩
    best := .inr ⟨c, conn, conn', hconn, hat, hrank⟩ }

theorem wanes_setReadState (hconn : s.connectionAt c = some conn)
    (hread : conn.readState ≠ .timeout) : Wanes s (s.setReadState c .timeout) := by
  unfold setReadState
  rw [hconn]
  dsimp only
  rw [if_pos hread.symm]
  refine wanes_signalled hconn (.mk .timeout conn.writeState (.inr rfl) le_rfl) ?_
  unfold Connection.rank
  rw [if_neg hread, if_pos rfl]
  exact Nat.lt_succ_self _

theorem wanes_setWriteState {value : WriteState}
    (hconn : s.connectionAt c = some conn) (hlt : conn.writeState.toNat < value.toNat) :
    Wanes s (s.setWriteState c value) := by
  have hne : value ≠ conn.writeState := by
    rintro rfl
    exact Nat.lt_irrefl _ hlt
  unfold setWriteState
  rw [hconn]
  dsimp only
  rw [if_pos hne]
  refine wanes_signalled hconn (.mk conn.readState value (.inl rfl) hlt.le) ?_
  exact Nat.add_lt_add_right hlt _

theorem wanes_updateState (s : P2PTransportChannel) (c : ℕ) (now : Uint32) : Wanes s (s.updateState c now) := by
  unfold updateState
  refine Wanes.trans (.ite fun h => ?_) (Wanes.trans (.ite fun h => ?_) (.ite fun h => ?_))
  · obtain ⟨conn, hconn, hq⟩ := exists_of_test h
    refine wanes_setReadState hconn fun heq => ?_
    simp [Connection.readTimesOut, heq] at hq
  · obtain ⟨conn, hconn, hq⟩ := exists_of_test h
    have hwrite : conn.writeState = .writable := by
      simp only [Connection.becomesUnreliable, Bool.and_eq_true, beq_iff_eq] at hq
      exact hq.1.1
    exact wanes_setWriteState hconn (by rw [hwrite]; decide)
  · obtain ⟨conn, hconn, hq⟩ := exists_of_test h
    have hwrite : conn.writeState = .unreliable ∨ conn.writeState = .init := by
      simp only [Connection.writeTimesOut, Bool.and_eq_true, Bool.or_eq_true, beq_iff_eq] at hq
      exact hq.1
    exact wanes_setWriteState hconn (by rcases hwrite with h | h <;> rw [h] <;> decide)

theorem wanes_updateConnectionStates (s : P2PTransportChannel) (now : Uint32) :
    Wanes s (s.updateConnectionStates now) := by
  unfold updateConnectionStates
  generalize s.connections = l
  induction l generalizing s with
  | nil => exact .refl s
  | cons c l ih => exact (wanes_updateState s c now).trans (ih _)

end P2PTransportChannel

end Libjingle.P2P
