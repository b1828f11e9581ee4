import Libjingle.P2P.Compare
import Libjingle.P2P.Revival

/-!
# The choice of the best connection is steady

Main results: **`OnlySorts.settled`**, **`switching_steady`**.
-/

variable {now : Uint32} {nows : List Uint32}

namespace Libjingle.P2P

open Lib

/-- What `ShouldSwitch` reads of a pair. -/
def Pair.compared (a : Pair) : WriteState × Port × Uint64 × Uint32 × Uint32 :=
  (a.connection.writeState, a.statics)

theorem compareConnections_congr {a a' b b' : Pair} (ha : a'.compared = a.compared)
    (hb : b'.compared = b.compared) : compareConnections a' b' = compareConnections a b := by
  simp only [Pair.compared, Prod.mk.injEq] at ha hb
  unfold compareConnections
  rw [ha.1, hb.1, compareConnectionCandidates_congr ha.2 hb.2]

theorem rtt_congr {a a' : Pair} (ha : a'.compared = a.compared) : a'.connection.rtt = a.connection.rtt := by
  simp only [Pair.compared, Pair.statics, Prod.mk.injEq] at ha
  exact ha.2.2.2.2

namespace P2PTransportChannel

variable {s s' : P2PTransportChannel}

/-! ## Sorts that change no connection -/

def viewAt (s : P2PTransportChannel) (c : ℕ) : Option (ReadState × WriteState × Uint32 × Option Uint64) :=
  (s.connectionAt c).map fun conn => (conn.readState, conn.writeState, conn.rtt,
    (s.portAt conn.port).map fun port => conn.priority port.iceRole)

/-- States, latency and priority of no connection change. -/
def Unchanged (s s' : P2PTransportChannel) : Prop := ∀ c, s'.viewAt c = s.viewAt c

/-- What `ShouldSwitch` reads of a connection. -/
def comparedAt (s : P2PTransportChannel) (c : ℕ) :
    Option (WriteState × Port × Uint64 × Uint32 × Uint32) := (s.pairAt c).map Pair.compared

theorem pairs_congr {α : Type} {f : Pair → Pair → α} {d : α}
    (hf : ∀ {a a' b b' : Pair}, a'.compared = a.compared → b'.compared = b.compared → f a' b' = f a b)
    (x x' y y' : Option Pair) :
    x'.map Pair.compared = x.map Pair.compared → y'.map Pair.compared = y.map Pair.compared →
      (match x', y' with
        | some a, some b => f a b
        | _, _ => d) =
      (match x, y with
        | some a, some b => f a b
        | _, _ => d) := by
  intro hx hy
  match x, x' with
  | none, none => rfl
  | none, some a' => cases hx
  | some a, none => cases hx
  | some a, some a' =>
    match y, y' with
    | none, none => rfl
    | none, some b' => cases hy
    | some b, none => cases hy
    | some b, some b' => exact hf (Option.some.inj hx) (Option.some.inj hy)

theorem sortsBefore_congr (h : s'.comparedAt = s.comparedAt) : s'.sortsBefore = s.sortsBefore := by
  funext c d
  refine pairs_congr (fun ha hb => ?_) _ _ _ _ (congrFun h c) (congrFun h d)
  unfold connectionCompare
  rw [compareConnections_congr ha hb, rtt_congr ha, rtt_congr hb]

theorem shouldSwitch_congr (h : s'.comparedAt = s.comparedAt) : s'.shouldSwitch = s.shouldSwitch := by
  have hbind : ∀ x : Option ℕ, (x.bind s'.pairAt).map Pair.compared =
      (x.bind s.pairAt).map Pair.compared := by
    intro x
    cases x with
    | none => rfl
    | some c => exact congrFun h c
  funext x y
  unfold shouldSwitch
  split_ifs
  · rfl
  · refine pairs_congr (fun ha hb => ?_) _ _ _ _ (hbind x) (hbind y)
    unfold shouldSwitchPair
    rw [compareConnections_congr ha hb, rtt_congr ha, rtt_congr hb]

theorem comparedAt_eq (s : P2PTransportChannel) (c : ℕ) :
    s.comparedAt c = (s.staticsAt c).bind fun statics =>
      (s.connectionAt c).map fun conn => (conn.writeState, statics) := by
  unfold comparedAt staticsAt
  cases hpair : s.pairAt c with
  | none => rfl
  | some a =>
    rw [Option.map_some, Option.map_some, Option.bind_some, (pairAt_eq_some_iff.mp hpair).1]
    rfl

theorem comparedAt_congr (hstatics : ∀ c, s'.staticsAt c = s.staticsAt c)
    (hstate : ∀ c, (s'.connectionAt c).map Connection.writeState =
      (s.connectionAt c).map Connection.writeState) : s'.comparedAt = s.comparedAt := by
  funext c
  rw [comparedAt_eq, comparedAt_eq, hstatics]
  congr 1
  funext statics
  have hmap := congrArg (Option.map fun state => (state, statics)) (hstate c)
  rwa [Option.map_map, Option.map_map] at hmap

/-! ## What a sort does that changes no connection -/

/-- The best connection after the list was sorted as `l`. -/
def better (s : P2PTransportChannel) (l : List ℕ) : Option ℕ :=
  if (s.protocolType ≠ .rfc5245 ∨ s.iceRole = .controlling) ∧
      s.shouldSwitch s.bestConnection l.head? then l.head?
  else s.bestConnection

/-- The list is sorted, and a connection is chosen. -/
structure OnlySorts (s s' : P2PTransportChannel) : Prop where
  compared : s'.comparedAt = s.comparedAt
  protocolType : s'.protocolType = s.protocolType
  iceRole : s'.iceRole = s.iceRole
  connections : s'.connections = Sorting.sortBy s.sortsBefore s.connections
  best : s'.bestConnection = s.better s'.connections

theorem states_of_view {conn conn' : Connection} {c : ℕ} (h : s'.viewAt c = s.viewAt c)
    (hconn : s.connectionAt c = some conn) (hconn' : s'.connectionAt c = some conn') :
    conn'.readState = conn.readState ∧ conn'.writeState = conn.writeState := by
  unfold viewAt at h
  rw [hconn, hconn', Option.map_some, Option.map_some, Option.some.injEq, Prod.mk.injEq,
    Prod.mk.injEq] at h
  exact ⟨h.1, h.2.1⟩

theorem state_updateConnectionStates (htype : s.protocolType ≠ .hybrid)
    (h : Unchanged s (s.sortConnections now)) {c : ℕ} {conn conn' : Connection}
    (hconn : s.connectionAt c = some conn)
    (hconn' : (s.updateConnectionStates now).connectionAt c = some conn') :
    conn'.rank ≤ conn.rank ∧ conn'.writeState = conn.writeState := by
  have hchosen : (s.chosen now).connectionAt c = some conn' := by
    rw [chosen_eq]
    exact hconn'
  have hsame : (s.sortConnections now).connectionAt = (s.pruned now).connectionAt := by
    rw [sortConnections_eq htype, noted_eq]
  obtain ⟨conn'', hconn'', hdrop⟩ : ∃ conn'', (s.pruned now).connectionAt c = some conn'' ∧
      (conn'' = conn'.drop ∨ conn'' = conn') := by
    by_cases hD : ∃ n, (s.chosen now).Condemned n c
    · exact ⟨conn'.drop, by rw [(drops_pruned s now).dropped c hD, hchosen]; rfl, .inl rfl⟩
    · exact ⟨conn', by rw [(drops_pruned s now).kept c hD, hchosen], .inr rfl⟩
  obtain ⟨hread, hwrite⟩ := states_of_view (h c) hconn (hsame ▸ hconn'')
  have hrank : conn''.rank = conn.rank := by
    unfold Connection.rank
    rw [hread, hwrite]
  have hle : conn'.rank ≤ conn''.rank ∧ conn'.writeState.toNat ≤ conn''.writeState.toNat := by
    rcases hdrop with rfl | rfl
    · exact ⟨conn'.rank_le_drop, conn'.writeState_le_drop⟩
    · exact ⟨le_rfl, le_rfl⟩
  refine ⟨hrank ▸ hle.1, WriteState.toNat_injective (Nat.le_antisymm (hwrite ▸ hle.2) ?_)⟩
  obtain ⟨before, hbefore, hworse⟩ := (wanes_updateConnectionStates s now).worse c conn' hconn'
  obtain rfl := Option.some.inj (hconn.symm.trans hbefore)
  obtain ⟨read, write, -, hbetter⟩ := hworse
  exact hbetter

theorem compared_updateConnectionStates (htype : s.protocolType ≠ .hybrid) (h : Unchanged s (s.sortConnections now)) :
    (s.updateConnectionStates now).comparedAt = s.comparedAt ∧
      (s.updateConnectionStates now).bestConnection = s.bestConnection := by
  have hwanes := wanes_updateConnectionStates s now
  constructor
  · refine comparedAt_congr hwanes.statics fun c => ?_
    cases hconn' : (s.updateConnectionStates now).connectionAt c with
    | none =>
      have hlive := hwanes.live c
      rw [hconn'] at hlive
      have hnone : s.connectionAt c = none :=
        Option.not_isSome_iff_eq_none.mp (by rw [← hlive]; exact Bool.false_ne_true)
      rw [hnone]
    | some conn' =>
      obtain ⟨conn, hconn, -⟩ := hwanes.worse c conn' hconn'
      rw [hconn]
      exact congrArg some (state_updateConnectionStates htype h hconn hconn').2
  · rcases hwanes.best with hbest | ⟨c, conn, conn', hconn, hconn', hlt⟩
    · exact hbest
    · exact absurd hlt (Nat.not_lt.mpr (state_updateConnectionStates htype h hconn hconn').1)

theorem best_chooseBest (s : P2PTransportChannel) : s.chooseBest.bestConnection = s.better s.connections := by
  unfold chooseBest better switchBestConnectionTo
  dsimp only
  split_ifs <;> rfl

theorem onlySorts (htype : s.protocolType ≠ .hybrid)
    (h : Unchanged s (s.sortConnections now)) : OnlySorts s (s.sortConnections now) := by
  have hwanes := wanes_updateConnectionStates s now
  have hdrops := drops_pruned s now
  obtain ⟨hcompared, hbest⟩ := compared_updateConnectionStates htype h
  have hlist : (s.chosen now).connections = Sorting.sortBy s.sortsBefore s.connections := by
    rw [chosen_eq, ← sortsBefore_congr hcompared, ← hwanes.connections]
    rfl
  have hchosen : (s.chosen now).bestConnection = s.better (s.chosen now).connections := by
    have hsorted : { s.updateConnectionStates now with sortDirty := false }.sortList.connections =
        (s.chosen now).connections := by rw [chosen_eq]
    unfold chosen
    rw [best_chooseBest, ← chosen, hsorted]
    have hswitch := shouldSwitch_congr hcompared
    unfold better
    change (if ((s.updateConnectionStates now).protocolType ≠ .rfc5245 ∨
        (s.updateConnectionStates now).iceRole = .controlling) ∧
      (s.updateConnectionStates now).shouldSwitch (s.updateConnectionStates now).bestConnection _ then _
      else (s.updateConnectionStates now).bestConnection) = _
    rw [hwanes.protocolType, hwanes.iceRole, hbest, hswitch]
  have hstatics : ∀ c, (s.sortConnections now).staticsAt c = s.staticsAt c := by
    intro c
    rw [sortConnections_eq htype, noted_eq]
    change (s.pruned now).staticsAt c = _
    rw [hdrops.statics, chosen_eq]
    exact hwanes.statics c
  have hstate : ∀ c, ((s.sortConnections now).connectionAt c).map Connection.writeState =
      (s.connectionAt c).map Connection.writeState := by
    intro c
    have hview := congrArg (Option.map fun view => view.2.1) (h c)
    unfold viewAt at hview
    rwa [Option.map_map, Option.map_map] at hview
  exact {
    compared := comparedAt_congr hstatics hstate
    protocolType := (stirs_sortConnections s now).protocolType
    iceRole := (stirs_sortConnections s now).iceRole
    connections := by
      rw [sortConnections_eq htype, noted_eq]
      exact hdrops.connections.trans hlist
    best := by
      rw [sortConnections_eq htype, noted_eq]
      change (s.pruned now).bestConnection = s.better (s.pruned now).connections
      rw [hdrops.best, hdrops.connections, hchosen] }

/-! ## Runs of sorts -/

def Live (s : P2PTransportChannel) : Prop := ∀ c ∈ s.connections, (s.pairAt c).isSome = true

def Legal (s : P2PTransportChannel) : Prop :=
  ∀ c ∈ s.connections, ∀ d ∈ s.connections, ∀ a b, s.pairAt c = some a → s.pairAt d = some b →
    GenerationsClose a b

/-- The list is sorted, and no other connection is to be switched to. -/
structure Settled (s : P2PTransportChannel) : Prop where
  sorted : Sorting.sortBy s.sortsBefore s.connections = s.connections
  chosen : s.better s.connections = s.bestConnection

/-- The place of a connection in the order. -/
def keyAt (s : P2PTransportChannel) (c : ℕ) : ℕ ×ₗ ℤ ×ₗ ℤ ×ₗ ℕ :=
  ((s.pairAt c).map Pair.key).getD (toLex (0, toLex (0, toLex (0, 0))))

theorem follows_keyAt (hlive : Live s) (hlegal : Legal s) : Sorting.Follows s.keyAt s.sortsBefore s.connections := by
  intro c hc d hd
  obtain ⟨a, ha⟩ := Option.isSome_iff_exists.mp (hlive c hc)
  obtain ⟨b, hb⟩ := Option.isSome_iff_exists.mp (hlive d hd)
  have hkey := connectionCompare_eq_key (hlegal c hc d hd a b ha hb) (hlegal d hd c hc b a hb ha)
  unfold sortsBefore keyAt
  rw [ha, hb]
  exact hkey

theorem better_congr (h : s'.comparedAt = s.comparedAt) (htype : s'.protocolType = s.protocolType)
    (hrole : s'.iceRole = s.iceRole) (hbest : s'.bestConnection = s.bestConnection) :
    s'.better = s.better := by
  funext l
  unfold better
  rw [shouldSwitch_congr h, htype, hrole, hbest]

theorem better_better (h : s'.comparedAt = s.comparedAt) (htype : s'.protocolType = s.protocolType)
    (hrole : s'.iceRole = s.iceRole) {l : List ℕ} (hbest : s'.bestConnection = s.better l) :
    s'.better l = s'.bestConnection := by
  unfold better at hbest ⊢
  rw [shouldSwitch_congr h, htype, hrole]
  by_cases hswitch : (s.protocolType ≠ .rfc5245 ∨ s.iceRole = .controlling) ∧
      s.shouldSwitch s.bestConnection l.head? = true
  · rw [if_pos hswitch] at hbest
    rw [hbest]
    exact ite_self _
  · rw [if_neg hswitch] at hbest
    rw [hbest, if_neg hswitch]

/-- After such a sort the channel is settled. -/
theorem OnlySorts.settled (h : OnlySorts s s') (hlive : Live s) (hlegal : Legal s) : Settled s' where
  sorted := by
    rw [sortsBefore_congr h.compared, h.connections]
    exact (follows_keyAt hlive hlegal).sortBy_sortBy
  chosen := better_better h.compared h.protocolType h.iceRole h.best

/-- **A settled channel keeps its best connection in such a sort**. -/
theorem Settled.keep (hs : Settled s) (h : OnlySorts s s') : s'.bestConnection = s.bestConnection ∧ Settled s' := by
  have hconnections : s'.connections = s.connections := h.connections.trans hs.sorted
  have hbest : s'.bestConnection = s.bestConnection := by
    rw [h.best, hconnections, hs.chosen]
  refine ⟨hbest, ?_, ?_⟩
  · rw [sortsBefore_congr h.compared, hconnections, hs.sorted]
  · rw [better_congr h.compared h.protocolType h.iceRole hbest, hconnections, hs.chosen, hbest]

def LeavesConnections (s : P2PTransportChannel) (now : Uint32) : Prop :=
  Unchanged s (s.sortConnections now)

def bestChanges : P2PTransportChannel → List Uint32 → ℕ
  | _, [] => 0
  | s, now :: nows =>
    (if (s.sortConnections now).bestConnection = s.bestConnection then 0 else 1) +
      bestChanges (s.sortConnections now) nows

theorem bestChanges_settled (htype : s.protocolType ≠ .hybrid) (hs : Settled s)
    (h : Guarded sortConnections LeavesConnections s nows) : s.bestChanges nows = 0 := by
  induction nows generalizing s with
  | nil => rfl
  | cons now nows ih =>
    obtain ⟨hnow, hrest⟩ := h
    have honly := onlySorts htype hnow
    obtain ⟨hbest, hsettled⟩ := hs.keep honly
    rw [bestChanges, if_pos hbest, ih (honly.protocolType ▸ htype) hsettled hrest]

theorem bestChanges_hybrid (htype : s.protocolType = .hybrid)
    (h : Guarded sortConnections LeavesConnections s nows) : s.bestChanges nows = 0 := by
  induction nows generalizing s with
  | nil => rfl
  | cons now nows ih =>
    obtain ⟨hnow, hrest⟩ := h
    have hwanes := wanes_updateConnectionStates s now
    have heq : s.sortConnections now = (s.updateConnectionStates now).updateChannelState := by
      unfold sortConnections
      exact if_pos (hwanes.protocolType.trans htype)
    have hbest : (s.sortConnections now).bestConnection = s.bestConnection := by
      rw [heq]
      rcases hwanes.best with hbest | ⟨c, conn, conn', hconn, hconn', hlt⟩
      · exact hbest
      · have hat : (s.sortConnections now).connectionAt c = some conn' := heq ▸ hconn'
        obtain ⟨hread, hwrite⟩ := states_of_view (hnow c) hconn hat
        unfold Connection.rank at hlt
        rw [hread, hwrite] at hlt
        exact absurd hlt (Nat.lt_irrefl _)
    have htype' : (s.sortConnections now).protocolType = .hybrid :=
      (stirs_sortConnections s now).protocolType.trans htype
    rw [bestChanges, if_pos hbest, ih htype' hrest]

theorem bestChanges_le_one (hlive : Live s) (hlegal : Legal s)
    (h : Guarded sortConnections LeavesConnections s nows) : s.bestChanges nows ≤ 1 := by
  by_cases htype : s.protocolType = .hybrid
  · rw [bestChanges_hybrid htype h]
    exact Nat.zero_le 1
  cases nows with
  | nil => exact Nat.zero_le 1
  | cons now nows =>
    obtain ⟨hnow, hrest⟩ := h
    have honly := onlySorts htype hnow
    have hsettled := honly.settled hlive hlegal
    rw [bestChanges, bestChanges_settled (honly.protocolType ▸ htype) hsettled hrest]
    split <;> simp

/-! ## `ShouldSwitch` -/

/-- The same for two connections. -/
def HysteresisAt (s : P2PTransportChannel) (c d : ℕ) : Prop :=
  ¬ (s.shouldSwitch (some c) (some d) = true ∧ s.shouldSwitch (some d) (some c) = true) ∧
    ∀ a b, s.pairAt c = some a → s.pairAt d = some b → compareConnections a b = 0 →
      s.shouldSwitch (some c) (some d) = true →
        b.connection.rtt.toNat + kMinImprovement ≤ a.connection.rtt.toNat

theorem shouldSwitch_of_ne {c d : ℕ} {a b : Pair} (hne : c ≠ d) (ha : s.pairAt c = some a)
    (hb : s.pairAt d = some b) : s.shouldSwitch (some c) (some d) = shouldSwitchPair a b := by
  unfold shouldSwitch
  rw [if_neg fun h => hne (Option.some.inj h), Option.bind_some, Option.bind_some, ha, hb]

theorem hysteresisAt_iff {c d : ℕ} {a b : Pair} (hne : c ≠ d) (ha : s.pairAt c = some a)
    (hb : s.pairAt d = some b) : s.HysteresisAt c d ↔ Hysteresis a b := by
  unfold HysteresisAt Hysteresis
  rw [shouldSwitch_of_ne hne ha hb, shouldSwitch_of_ne hne.symm hb ha]
  refine and_congr_right fun _ => ⟨fun h => h a b ha hb, fun h a' b' ha' hb' => ?_⟩
  obtain rfl := Option.some.inj (ha.symm.trans ha')
  obtain rfl := Option.some.inj (hb.symm.trans hb')
  exact h

/-- **Hysteresis** between two connections just if they are far apart; and the best one changes at
most once over sorts that find the same connections. -/
theorem switching_steady (s : P2PTransportChannel) :
    (∀ c d a b, c ≠ d → s.pairAt c = some a → s.pairAt d = some b →
      (s.HysteresisAt c d ↔ FarApart a b)) ∧
    (Live s → Legal s → ∀ nows, Guarded sortConnections LeavesConnections s nows →
      s.bestChanges nows ≤ 1) := by
  constructor
  · intro c d a b hne ha hb
    exact (hysteresisAt_iff hne ha hb).trans hysteresis_iff
  · intro hlive hlegal nows h
    exact bestChanges_le_one hlive hlegal h

section Example

theorem Refs.leavesConnections (h : Refs s)
    (hlisted : ∀ c ∈ s.connections, (s.sortConnections now).viewAt c = s.viewAt c) :
    LeavesConnections s now := by
  intro c
  by_cases hc : c ∈ s.connections
  · exact hlisted c hc
  · have hnone : s.connectionAt c = none := by
      rw [← Option.not_isSome_iff_eq_none, ← h.mem_iff]
      exact hc
    have hlive := (stirs_sortConnections s now).isSome_connectionAt c
    rw [hnone] at hlive
    have hgone : (s.sortConnections now).connectionAt c = none :=
      Option.not_isSome_iff_eq_none.mp (by rw [hlive]; exact Bool.false_ne_true)
    unfold viewAt
    rw [hnone, hgone]
    rfl

theorem legal_of_all (h : (s.connections.all fun c => s.connections.all fun d =>
    (s.pairAt c).all fun a => (s.pairAt d).all fun b => decide (GenerationsClose a b)) = true) :
    Legal s := by
  intro c hc d hd a b ha hb
  have hpairs := List.all_eq_true.mp (List.all_eq_true.mp h c hc) d hd
  rw [ha, hb] at hpairs
  exact of_decide_eq_true hpairs

def exampleSorted : List Event := exampleTwo ++ [.message .sort 40]

theorem switching_steady_sorted :
    let s := run step (new 1) exampleSorted
    ((∀ c d a b, c ≠ d → s.pairAt c = some a → s.pairAt d = some b →
      (s.HysteresisAt c d ↔ FarApart a b))) ∧
    Guarded sortConnections LeavesConnections s [50] ∧ s.bestChanges [50] ≤ 1 := by
  have hfacts : Guarded step NothingAwaited (new 1) exampleSorted ∧
      (∀ c ∈ (run step (new 1) exampleSorted).connections,
        ((run step (new 1) exampleSorted).pairAt c).isSome = true) ∧
      ((run step (new 1) exampleSorted).connections.all fun c =>
        (run step (new 1) exampleSorted).connections.all fun d =>
          ((run step (new 1) exampleSorted).pairAt c).all fun a =>
            ((run step (new 1) exampleSorted).pairAt d).all fun b =>
              decide (GenerationsClose a b)) = true ∧
      ∀ c ∈ (run step (new 1) exampleSorted).connections,
        ((run step (new 1) exampleSorted).sortConnections 50).viewAt c =
          (run step (new 1) exampleSorted).viewAt c := by
    delta step onMessage onCandidate onPortReady onUnknownAddress addPeerReflexive sortConnections
      sortAndSwitch sortList
    simp only [Sorting.mergeSort_eq_evalSort]
    decide
  obtain ⟨hawaited, hlive, hlegal, hlisted⟩ := hfacts
  have hrefs : Refs (run step (new 1) exampleSorted) :=
    run_invariant (fun _ event hs hawaited => refs_step event hs hawaited) (refs_new 1) hawaited
  have hrun : Guarded sortConnections LeavesConnections (run step (new 1) exampleSorted) [50] :=
    ⟨hrefs.leavesConnections hlisted, trivial⟩
  have hsteady := switching_steady (run step (new 1) exampleSorted)
  exact ⟨hsteady.1, hrun, hsteady.2 hlive (legal_of_all hlegal) [50] hrun⟩

def exampleTied : List Event :=
  .setIceProtocolType .google :: exampleConnected ++
    [.candidate exampleCreates 21 { exampleCandidate with address := .ofIP (.v4 0x0a000002) 1000 }]

/-- **Each of two connections is to be switched to from the other**. -/
theorem switching_wavers :
    let s := run step (new 1) exampleTied
    (s.pairAt 2).isSome = true ∧ (s.pairAt 3).isSome = true ∧ ¬ s.HysteresisAt 2 3 := by
  have hfacts : ((run step (new 1) exampleTied).pairAt 2).isSome = true ∧
      ((run step (new 1) exampleTied).pairAt 3).isSome = true ∧
      (run step (new 1) exampleTied).shouldSwitch (some 2) (some 3) = true ∧
      (run step (new 1) exampleTied).shouldSwitch (some 3) (some 2) = true := by
    delta step onMessage onCandidate onPortReady onUnknownAddress addPeerReflexive sortConnections
      sortAndSwitch sortList
    simp only [Sorting.mergeSort_eq_evalSort]
    decide
  exact ⟨hfacts.1, hfacts.2.1, fun h => h.1 hfacts.2.2⟩

end Example

end P2PTransportChannel

end Libjingle.P2P
