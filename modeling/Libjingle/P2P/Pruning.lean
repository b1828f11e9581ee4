import Libjingle.P2P.Waning

/-!
# What a sort does to the connections

Main results: **`drops_pruned`**, **`PrunedStay.exactlyPruned`**.
-/

variable {c : ℕ} {now : Uint32}

namespace Libjingle.P2P.P2PTransportChannel

open Lib

variable {s s' s'' : P2PTransportChannel}

/-! ## `Prune` -/

/-- Exactly the connections in `D` are pruned, and what a sort does not touch stays. -/
structure Drops (D : ℕ → Prop) (s s' : P2PTransportChannel) : Prop extends Alike s s' where
  portAt : s'.portAt = s.portAt
  best : s'.bestConnection = s.bestConnection
  dropped : ∀ c, D c → s'.connectionAt c = (s.connectionAt c).map Connection.drop
  kept : ∀ c, ¬ D c → s'.connectionAt c = s.connectionAt c

namespace Drops

variable {D D' : ℕ → Prop}

theorem none (s : P2PTransportChannel) : Drops (fun _ => False) s s :=
  { Alike.refl s with
    portAt := rfl
    best := rfl
    dropped := fun _ => False.elim
    kept := fun _ _ => rfl }

theorem trans (h : Drops D s s') (h' : Drops D' s' s'') : Drops (fun c => D c ∨ D' c) s s'' :=
  { h.toAlike.trans h'.toAlike with
    portAt := h'.portAt.trans h.portAt
    best := h'.best.trans h.best
    dropped := by
      intro c hc
      by_cases hD : D c
      · by_cases hD' : D' c
        · rw [h'.dropped c hD', h.dropped c hD, Option.map_map]
          exact congrArg (fun f => Option.map f (s.connectionAt c)) (funext Connection.drop_drop)
        · rw [h'.kept c hD', h.dropped c hD]
      · rw [h'.dropped c (hc.resolve_left hD), h.kept c hD]
    kept := by
      intro c hc
      rw [h'.kept c fun hD' => hc (.inr hD'), h.kept c fun hD => hc (.inl hD)] }

theorem congr (h : Drops D s s') (hD : ∀ c, D c ↔ D' c) : Drops D' s s' :=
  { h with
    dropped := fun c hc => h.dropped c ((hD c).mpr hc)
    kept := fun c hc => h.kept c fun hc' => hc ((hD c).mp hc') }

theorem connectionAt (h : Drops D s s') {conn' : Connection} (hconn' : s'.connectionAt c = some conn') :
    ∃ conn, s.connectionAt c = some conn ∧ (D c ∧ conn' = conn.drop ∨ ¬ D c ∧ conn' = conn) := by
  by_cases hD : D c
  · rw [h.dropped c hD] at hconn'
    obtain ⟨conn, hconn, rfl⟩ := Option.map_eq_some_iff.mp hconn'
    exact ⟨conn, hconn, .inl ⟨hD, rfl⟩⟩
  · rw [h.kept c hD] at hconn'
    exact ⟨conn', hconn', .inr ⟨hD, rfl⟩⟩

end Drops

theorem drops_signals {conn : Connection} (hconn : s.connectionAt c = some conn)
    (hsignals : Signals (s.setConnection c conn.drop) s') (hbest : s'.bestConnection = s.bestConnection) :
    Drops (· = c) s s' where
  connections := hsignals.connections
  protocolType := hsignals.protocolType
  iceRole := hsignals.iceRole
  wasWritable := hsignals.wasWritable
  writable := hsignals.writable
  statics := fun c' => by
    rw [hsignals.staticsAt]
    exact staticsAt_setConnection hconn conn.port_drop (statics_drop conn) c'
  portAt := hsignals.portAt
  best := hbest
  dropped := by
    rintro c' rfl
    rw [hsignals.connectionAt, hconn]
    exact connectionAt_setConnection_self s c' _
  kept := fun c' hc => by
    rw [hsignals.connectionAt]
    exact connectionAt_setConnection_ne hc s _

theorem drops_prune (s : P2PTransportChannel) (c : ℕ) : Drops (· = c) s (s.prune c) := by
  unfold prune
  split_ifs with h
  · obtain ⟨conn, hconn, hpruned⟩ := exists_of_test h
    have hdrop : conn.drop = { conn with pruned := true, writeState := .timeout } :=
      if_neg (by simpa using hpruned)
    have hset : (s.setConnection c { conn with pruned := true }).setConnection c conn.drop =
        s.setConnection c conn.drop := by
      unfold setConnection
      simp only [Function.update_idem]
    unfold modifyConnection setWriteState
    rw [hconn]
    dsimp only
    rw [connectionAt_setConnection_self]
    dsimp only
    rw [← hdrop, hset]
    have hidle : (s.setConnection c conn.drop).test c (·.writable) = false := by
      unfold test
      rw [connectionAt_setConnection_self, hdrop]
      rfl
    split_ifs
    · exact drops_signals hconn (signals_signalled _ c) (best_signalled hidle)
    · exact drops_signals hconn (.refl _) rfl
  · refine { Alike.refl s with
      portAt := rfl
      best := rfl
      dropped := ?_
      kept := fun _ _ => rfl }
    rintro c' rfl
    cases hconn : s.connectionAt c' with
    | none => rfl
    | some conn =>
      have hpruned : conn.pruned = true := by simpa [test, hconn] using h
      rw [Option.map_some, Connection.drop, if_pos hpruned]

/-- The loop of `SortConnections` prunes the connection. -/
def Condemns (s : P2PTransportChannel) (n primier c : ℕ) : Prop :=
  c ≠ primier ∧ ∃ a b, s.pairAt primier = some a ∧ s.pairAt c = some b ∧ b.port.network.id = n ∧
    0 ≤ compareConnectionCandidates a b

theorem Alike.condemns (h : Alike s s') {n p : ℕ} (hc : s.Condemns n p c) : s'.Condemns n p c := by
  obtain ⟨hne, a, b, ha, hb, hnetwork, hcompare⟩ := hc
  obtain ⟨a', ha', hstatics⟩ := h.pairAt ha
  obtain ⟨b', hb', hstatics'⟩ := h.pairAt hb
  have hport : b'.port = b.port := congrArg Prod.fst hstatics'
  refine ⟨hne, a', b', ha', hb', hport ▸ hnetwork, ?_⟩
  rwa [compareConnectionCandidates_congr hstatics hstatics']

theorem Condemns.networkOf {n p : ℕ} (h : s.Condemns n p c) : s.networkOf c = some n := by
  obtain ⟨-, a, b, -, hb, hnetwork, -⟩ := h
  rw [networkOf_eq, staticsAt, hb]
  exact congrArg some hnetwork

theorem drops_pruneOne (s : P2PTransportChannel) (n p c : ℕ) :
    Drops (fun c' => c' = c ∧ s.Condemns n p c') s
      (match s.pairAt p, s.pairAt c with
      | some a, some b =>
        if c ≠ p ∧ b.port.network.id = n ∧ compareConnectionCandidates a b ≥ 0 then s.prune c else s
      | _, _ => s) := by
  have hspare : ¬ s.Condemns n p c → Drops (fun c' => c' = c ∧ s.Condemns n p c') s s := fun h =>
    (Drops.none s).congr fun c' => ⟨False.elim, fun ⟨heq, hc'⟩ => h (heq ▸ hc')⟩
  split
  · rename_i a b ha hb
    split_ifs with hcond
    · have hcondemned : s.Condemns n p c := ⟨hcond.1, a, b, ha, hb, hcond.2⟩
      refine (drops_prune s c).congr fun c' => ⟨fun heq => ⟨heq, heq ▸ hcondemned⟩, And.left⟩
    · refine hspare ?_
      rintro ⟨hne, a', b', ha', hb', hrest⟩
      obtain rfl := Option.some.inj (ha.symm.trans ha')
      obtain rfl := Option.some.inj (hb.symm.trans hb')
      exact hcond ⟨hne, hrest⟩
  · rename_i hnone
    refine hspare ?_
    rintro ⟨-, a, b, ha, hb, -⟩
    exact hnone a b ha hb

theorem drops_pruneOthers (s : P2PTransportChannel) (n p : ℕ) :
    Drops (fun c => c ∈ s.connections ∧ s.Condemns n p c) s (s.pruneOthers n p) := by
  unfold pruneOthers
  generalize s.connections = l
  induction l generalizing s with
  | nil => exact (Drops.none s).congr fun c => by simp
  | cons c l ih =>
    rw [List.foldl_cons]
    have hfirst := drops_pruneOne s n p c
    refine (hfirst.trans (ih _)).congr fun c' => ?_
    have hsame := hfirst.toAlike
    rw [List.mem_cons]
    constructor
    · rintro (⟨heq, hc'⟩ | ⟨hmem, hc'⟩)
      · exact ⟨.inl heq, hc'⟩
      · exact ⟨.inr hmem, hsame.symm.condemns hc'⟩
    · rintro ⟨heq | hmem, hc'⟩
      · exact .inl ⟨heq, hc'⟩
      · exact .inr ⟨hmem, hsame.condemns hc'⟩

def Condemned (s : P2PTransportChannel) (n c : ℕ) : Prop :=
  ∃ p, s.getBestConnectionOnNetwork n = some p ∧ s.test p (·.writable) = true ∧ c ∈ s.connections ∧
    s.Condemns n p c

theorem drops_pruneNetwork (s : P2PTransportChannel) (n : ℕ) : Drops (s.Condemned n) s (s.pruneNetwork n) := by
  unfold pruneNetwork Condemned
  cases hp : s.getBestConnectionOnNetwork n with
  | none => exact (Drops.none s).congr fun c => ⟨False.elim, fun ⟨_, h, _⟩ => by cases h⟩
  | some p =>
    dsimp only
    split_ifs with hwritable
    · refine (drops_pruneOthers s n p).congr fun c => ⟨fun h => ⟨p, rfl, hwritable, h⟩, ?_⟩
      rintro ⟨p', heq, -, h⟩
      cases heq
      exact h
    · refine (Drops.none s).congr fun c => ⟨False.elim, ?_⟩
      rintro ⟨p', heq, h, -⟩
      cases heq
      exact hwritable h

theorem not_condemned_primier {n n' p : ℕ} (hp : s.getBestConnectionOnNetwork n = some p) : ¬ s.Condemned n' p := by
  rintro ⟨p', hp', -, -, hcondemns⟩
  have hn := networkOf_getBestConnectionOnNetwork hp
  rw [hcondemns.networkOf] at hn
  cases hn
  rw [hp] at hp'
  exact hcondemns.1 (Option.some.inj hp')

theorem Drops.condemned_iff {D : ℕ → Prop} (h : Drops D s s')
    (hprimier : ∀ n p, s.getBestConnectionOnNetwork n = some p → ¬ D p) (n c : ℕ) :
    s'.Condemned n c ↔ s.Condemned n c := by
  have hbest := h.toAlike.getBestConnectionOnNetwork h.best
  unfold Condemned
  rw [hbest]
  refine exists_congr fun p => and_congr_right fun hp => ?_
  have hat : s'.test p (·.writable) = s.test p (·.writable) := by
    unfold test
    rw [h.kept p (hprimier n p hp)]
  rw [hat, h.connections]
  exact and_congr_right' (and_congr_right' ⟨h.toAlike.symm.condemns, h.toAlike.condemns⟩)

theorem drops_networks (s : P2PTransportChannel) (networks : List ℕ) :
    Drops (fun c => ∃ n ∈ networks, s.Condemned n c) s (networks.foldl pruneNetwork s) := by
  induction networks generalizing s with
  | nil => exact (Drops.none s).congr fun c => by simp
  | cons n networks ih =>
    rw [List.foldl_cons]
    have hfirst := drops_pruneNetwork s n
    have hsame := hfirst.condemned_iff fun n' p hp => not_condemned_primier hp
    refine (hfirst.trans (ih _)).congr fun c => ?_
    simp only [hsame, List.mem_cons, exists_eq_or_imp]

/-! ## `SortConnections` -/

/-- The channel when `SortConnections` begins to prune. -/
def chosen (s : P2PTransportChannel) (now : Uint32) : P2PTransportChannel :=
  { s.updateConnectionStates now with sortDirty := false }.sortList.chooseBest

def pruned (s : P2PTransportChannel) (now : Uint32) : P2PTransportChannel :=
  let t := s.updateConnectionStates now
  ((t.connections.filterMap t.networkOf).dedup).foldl pruneNetwork (s.chosen now)

theorem sortConnections_eq (h : s.protocolType ≠ .hybrid) :
    s.sortConnections now = (s.pruned now).noteWritable.updateChannelState := by
  unfold sortConnections
  have htype := (wanes_updateConnectionStates s now).protocolType
  exact if_neg (htype ▸ h)

theorem noted_eq (s : P2PTransportChannel) :
    s.noteWritable.updateChannelState =
      { s with
        wasWritable := s.noteWritable.wasWritable
        writable := s.noteWritable.writable
        readable := s.noteWritable.updateChannelState.readable } := by
  unfold noteWritable handleWritable handleNotWritable updateChannelState
  split_ifs <;> rfl

theorem chooseBest_eq (s : P2PTransportChannel) :
    s.chooseBest = { s with bestConnection := s.chooseBest.bestConnection } := by
  unfold chooseBest switchBestConnectionTo
  dsimp only
  split_ifs <;> rfl

theorem chosen_eq (s : P2PTransportChannel) (now : Uint32) :
    s.chosen now =
      { s.updateConnectionStates now with
        sortDirty := false
        connections := ({ s.updateConnectionStates now with sortDirty := false }.sortList).connections
        bestConnection := (s.chosen now).bestConnection } := by
  unfold chosen
  rw [chooseBest_eq]
  rfl

theorem chosen_worse {conn' : Connection} (h : (s.chosen now).connectionAt c = some conn') :
    ∃ conn, s.connectionAt c = some conn ∧ conn.Worse conn' := by
  rw [chosen_eq] at h
  exact (wanes_updateConnectionStates s now).worse c conn' h

theorem mem_networks {n : ℕ} (hmem : c ∈ (s.chosen now).connections) (hn : (s.chosen now).networkOf c = some n) :
    n ∈ ((s.updateConnectionStates now).connections.filterMap
      (s.updateConnectionStates now).networkOf).dedup := by
  rw [chosen_eq] at hmem hn
  rw [List.mem_dedup, List.mem_filterMap]
  exact ⟨c, List.mem_mergeSort.mp hmem, hn⟩

theorem drops_pruned (s : P2PTransportChannel) (now : Uint32) :
    Drops (fun c => ∃ n, (s.chosen now).Condemned n c) (s.chosen now) (s.pruned now) := by
  refine (drops_networks _ _).congr fun c => exists_congr fun n => and_iff_right_of_imp ?_
  rintro ⟨p, -, -, hmem, hcondemns⟩
  exact mem_networks hmem hcondemns.networkOf

/-! ## What a sort leaves -/

/-- Just the connections that are no better than a writable primier are pruned. `s` is the channel
before the sort. -/
structure ExactlyPruned (s s' : P2PTransportChannel) : Prop where
  pruned : ∀ n p c a b, s'.getBestConnectionOnNetwork n = some p → s'.test p (·.writable) = true →
    c ∈ s'.connections → c ≠ p → s'.networkOf c = some n → s'.pairAt p = some a →
    s'.pairAt c = some b → 0 ≤ compareConnectionCandidates a b →
    s'.test c (fun conn => conn.pruned && conn.writeState == .timeout) = true
  others : ∀ c, s.test c (·.pruned) = false → s'.test c (·.pruned) = true →
    ∃ n p a b, s'.getBestConnectionOnNetwork n = some p ∧ s'.test p (·.writable) = true ∧ c ≠ p ∧
      s'.bestConnection ≠ some c ∧ s'.networkOf c = some n ∧ s'.pairAt p = some a ∧
      s'.pairAt c = some b ∧ 0 ≤ compareConnectionCandidates a b
  writable : s'.writable = s'.bestConnection.any fun c => s'.test c (·.writable)

/-- Pruned connections stay timed out, and the channel was writable if it is. -/
structure PrunedStay (s : P2PTransportChannel) : Prop where
  stay : ∀ c conn, s.connectionAt c = some conn → conn.pruned = true → conn.writeState = .timeout
  noted : s.writable = true → s.wasWritable = true

namespace PrunedStay

theorem of_eq (h : PrunedStay s) (hconnectionAt : s'.connectionAt = s.connectionAt)
    (hwas : s'.wasWritable = s.wasWritable) (hwritable : s'.writable = s.writable) : PrunedStay s' where
  stay := fun c conn hconn => h.stay c conn (hconnectionAt ▸ hconn)
  noted := fun hw => hwas ▸ h.noted (hwritable ▸ hw)

theorem signals (h : PrunedStay s) (hsignals : Signals s s') : PrunedStay s' :=
  h.of_eq hsignals.connectionAt hsignals.wasWritable hsignals.writable

theorem setConnection (h : PrunedStay s) (c : ℕ) {conn : Connection}
    (hconn : conn.pruned = true → conn.writeState = .timeout) : PrunedStay (s.setConnection c conn) where
  stay := by
    intro c' conn' hconn' hpruned
    by_cases hc : c' = c
    · subst hc
      rw [connectionAt_setConnection_self] at hconn'
      cases hconn'
      exact hconn hpruned
    · rw [connectionAt_setConnection_ne hc] at hconn'
      exact h.stay c' conn' hconn' hpruned
  noted := h.noted

theorem modifyConnection (h : PrunedStay s) (c : ℕ) {f : Connection → Connection} (hf : Mild f) :
    PrunedStay (s.modifyConnection c f) := by
  unfold P2PTransportChannel.modifyConnection
  cases hconn : s.connectionAt c with
  | none => exact h
  | some conn =>
    refine h.setConnection c fun hpruned => ?_
    rw [(hf conn).2.1]
    exact h.stay c conn hconn ((hf conn).2.2 ▸ hpruned)

theorem setReadState (h : PrunedStay s) (c : ℕ) (value : ReadState) : PrunedStay (s.setReadState c value) := by
  unfold P2PTransportChannel.setReadState
  cases hconn : s.connectionAt c with
  | none => exact h
  | some conn =>
    have hset : PrunedStay (s.setConnection c { conn with readState := value }) :=
      h.setConnection c (h.stay c conn hconn)
    dsimp only
    split
    · exact hset.signals (signals_signalled _ c)
    · exact hset

theorem setWriteState (h : PrunedStay s) (c : ℕ) {value : WriteState}
    (hvalue : value = .timeout ∨ s.test c (·.pruned) = false) :
    PrunedStay (s.setWriteState c value) := by
  unfold P2PTransportChannel.setWriteState
  cases hconn : s.connectionAt c with
  | none => exact h
  | some conn =>
    have hset : PrunedStay (s.setConnection c { conn with writeState := value }) := by
      refine h.setConnection c fun hpruned => hvalue.resolve_right fun hfresh => ?_
      unfold test at hfresh
      rw [hconn] at hfresh
      exact absurd (hpruned.symm.trans hfresh) nofun
    dsimp only
    split
    · exact hset.signals (signals_signalled _ c)
    · exact hset

theorem wanes (h : PrunedStay s) (hwanes : Wanes s s') : PrunedStay s' where
  stay := by
    intro c conn' hconn' hpruned
    obtain ⟨conn, hconn, hworse⟩ := hwanes.worse c conn' hconn'
    obtain ⟨read, write, -, hwrite⟩ := hworse
    rw [h.stay c conn hconn hpruned] at hwrite
    cases write <;> first | rfl | exact absurd hwrite (by decide)
  noted := fun hw => hwanes.wasWritable ▸ h.noted (hwanes.writable ▸ hw)

theorem drops {D : ℕ → Prop} (h : PrunedStay s) (hdrops : Drops D s s') : PrunedStay s' where
  stay := by
    intro c conn' hconn' hpruned
    obtain ⟨conn, hconn, ⟨-, rfl⟩ | ⟨-, rfl⟩⟩ := hdrops.connectionAt hconn'
    · unfold Connection.drop at hpruned ⊢
      split_ifs at hpruned ⊢ with hbefore
      · exact h.stay c conn hconn hbefore
      · rfl
    · exact h.stay c conn' hconn hpruned
  noted := fun hw => hdrops.wasWritable ▸ h.noted (hdrops.writable ▸ hw)

theorem chosen (h : PrunedStay s) (now : Uint32) : PrunedStay (s.chosen now) := by
  rw [chosen_eq]
  exact (h.wanes (wanes_updateConnectionStates s now)).of_eq rfl rfl rfl

theorem pruned (h : PrunedStay s) (now : Uint32) : PrunedStay (s.pruned now) :=
  (h.chosen now).drops (drops_pruned s now)

theorem noteWritable (h : PrunedStay s) :
    s.noteWritable.writable = (s.bestConnection.any fun c => s.test c (·.writable)) ∧
      (s.noteWritable.writable = true → s.noteWritable.wasWritable = true) := by
  unfold P2PTransportChannel.noteWritable handleWritable handleNotWritable
  by_cases hbest : (s.bestConnection.any fun c => s.test c (·.writable)) = true
  · rw [if_pos hbest, hbest]
    exact ⟨rfl, fun _ => rfl⟩
  · rw [if_neg hbest, Bool.eq_false_iff.mpr hbest]
    by_cases hwas : s.wasWritable = true
    · rw [if_pos hwas]
      exact ⟨rfl, nofun⟩
    · rw [if_neg hwas]
      have hnot : s.writable = false := Bool.eq_false_iff.mpr fun hw => hwas (h.noted hw)
      exact ⟨hnot, fun hw => absurd (h.noted hw) hwas⟩

theorem sortConnections (h : PrunedStay s) (now : Uint32) : PrunedStay (s.sortConnections now) := by
  by_cases htype : s.protocolType = .hybrid
  · have hwanes := wanes_updateConnectionStates s now
    unfold P2PTransportChannel.sortConnections
    rw [if_pos (hwanes.protocolType.trans htype)]
    exact (h.wanes hwanes).of_eq rfl rfl rfl
  · rw [sortConnections_eq htype, noted_eq]
    have hpruned := h.pruned now
    exact ⟨hpruned.stay, hpruned.noteWritable.2⟩

end PrunedStay

/-- **A sort leaves exactly the condemned connections pruned**. -/
theorem PrunedStay.exactlyPruned (h : PrunedStay s) (htype : s.protocolType ≠ .hybrid) :
    ExactlyPruned s (s.sortConnections now) := by
  have hdrops := drops_pruned s now
  have hchosen := h.chosen now
  have hbest := hdrops.toAlike.getBestConnectionOnNetwork hdrops.best
  have hprimier : ∀ n p, (s.pruned now).getBestConnectionOnNetwork n = some p →
      (s.pruned now).connectionAt p = (s.chosen now).connectionAt p := fun n p hp =>
    hdrops.kept p fun ⟨_, hcondemned⟩ => not_condemned_primier (hbest ▸ hp) hcondemned
  have hwritable : ∀ n p, (s.pruned now).getBestConnectionOnNetwork n = some p →
      (s.pruned now).test p (·.writable) = (s.chosen now).test p (·.writable) := fun n p hp => by
    unfold test
    rw [hprimier n p hp]
  rw [sortConnections_eq htype, noted_eq]
  refine ⟨?_, ?_, (h.pruned now).noteWritable.1⟩
  · intro n p c a b hp hwrite hmem hne hn ha hb hcompare
    have hcondemned : (s.chosen now).Condemned n c := by
      refine ⟨p, hbest ▸ hp, hwritable n p hp ▸ hwrite, hdrops.connections ▸ hmem, ?_⟩
      refine hdrops.toAlike.symm.condemns ⟨hne, a, b, ha, hb, ?_, hcompare⟩
      have hnetwork : (s.pruned now).networkOf c = some b.port.network.id := by
        rw [networkOf_eq, staticsAt, show (s.pruned now).pairAt c = some b from hb]
        rfl
      exact Option.some.inj (hnetwork.symm.trans hn)
    have hat := hdrops.dropped c ⟨n, hcondemned⟩
    obtain ⟨conn', hconn', -⟩ := Option.bind_eq_some_iff.mp hb
    obtain ⟨conn, -, rfl⟩ := Option.map_eq_some_iff.mp (hat.symm.trans hconn')
    have hpruned := conn.pruned_drop
    have hstate := (h.pruned now).stay c _ hconn' hpruned
    change ((s.pruned now).connectionAt c).any _ = true
    rw [show (s.pruned now).connectionAt c = some conn.drop from hconn', Option.any_some, hpruned,
      hstate]
    rfl
  · intro c hbefore hafter
    obtain ⟨conn', hconn', hpruned⟩ := exists_of_test (s := s.pruned now) hafter
    obtain ⟨conn, hconn, ⟨⟨n, hcondemned⟩, -⟩ | ⟨-, rfl⟩⟩ := hdrops.connectionAt hconn'
    · obtain ⟨p, hp, hwrite, -, hcondemns⟩ := hcondemned
      have hp' : (s.pruned now).getBestConnectionOnNetwork n = some p := hbest ▸ hp
      have hagain := hdrops.toAlike.condemns hcondemns
      have hn := hagain.networkOf
      obtain ⟨hne, a, b, ha, hb, -, hcompare⟩ := hagain
      refine ⟨n, p, a, b, hp', (hwritable n p hp').trans hwrite, hne, fun hc => ?_, hn, ha, hb, hcompare⟩
      -- the best connection is the primier of its own network
      have hself : (s.pruned now).getBestConnectionOnNetwork n = some c := by
        have hc' : (s.pruned now).bestConnection = some c := hc
        unfold getBestConnectionOnNetwork
        rw [hc', Option.bind_some, if_pos hn]
      exact hne (Option.some.inj (hself.symm.trans hp'))
    · -- the connection was pruned already
      obtain ⟨before, hat, hworse⟩ := chosen_worse hconn
      obtain ⟨read, write, -, -⟩ := hworse
      unfold test at hbefore
      rw [hat] at hbefore
      exact absurd (hpruned.symm.trans hbefore) nofun

end Libjingle.P2P.P2PTransportChannel
