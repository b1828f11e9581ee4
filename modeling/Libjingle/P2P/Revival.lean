import Libjingle.Lib.Sorting
import Libjingle.P2P.References
import Libjingle.P2P.Pruning

/-!
# Pruned connections that come back

Main results: **`pruning_exact`**, **`pruning_skipped`**.
-/

namespace Libjingle.P2P.P2PTransportChannel

open Lib

variable {s s' : P2PTransportChannel}

/-! ## Steps -/

/-- A change that brings back no pruned connection. -/
def Settles (s s' : P2PTransportChannel) : Prop := Stirs s s' ∧ (PrunedStay s → PrunedStay s')

theorem PrunedStay.restartChecks (h : PrunedStay s) (c : ℕ) : PrunedStay (s.restartChecks c) := by
  unfold P2PTransportChannel.restartChecks
  split_ifs with htest
  · obtain ⟨conn, hconn, hq⟩ := exists_of_test htest
    refine h.setWriteState c (.inr ?_)
    unfold test
    rw [hconn, Option.any_some]
    simp only [Bool.and_eq_true, Bool.not_eq_true'] at hq
    exact hq.1
  · exact h

theorem stirring_settles : Stirring Settles where
  refl := fun s => ⟨.refl s, id⟩
  trans := fun h h' => ⟨h.1.trans h'.1, h'.2 ∘ h.2⟩
  ports := fun h => h.1.ports
  live := fun h => h.1.isSome_connectionAt
  still := fun h => ⟨h.stirs, fun hs => hs.of_eq h.connectionAt h.wasWritable h.writable⟩
  modifies := fun s c _ hf => ⟨stirring_stirs.modifies s c hf, fun hs => hs.modifyConnection c hf⟩
  setReadState := fun s c value => ⟨stirs_setReadState s c value, fun hs => hs.setReadState c value⟩
  timesOut := fun s c => ⟨stirs_setWriteState s c _, fun hs => hs.setWriteState c (.inl rfl)⟩
  restarts := fun s c => ⟨stirs_restartChecks s c, fun hs => hs.restartChecks c⟩
  updates := fun s now =>
    ⟨stirs_updateConnectionStates s now, fun hs => hs.wanes (wanes_updateConnectionStates s now)⟩
  sorts := fun s now => ⟨stirs_sortConnections s now, fun hs => hs.sortConnections now⟩

theorem PrunedStay.newConnection (h : PrunedStay s) (p : ℕ) (port : Port) (candidate : Candidate)
    (new : NewConnection) : PrunedStay (s.newConnection p port candidate new) := by
  refine PrunedStay.of_eq (s := s.setConnection s.fresh _) (h.setConnection s.fresh ?_) rfl rfl rfl
  exact nofun

theorem PrunedStay.onUseCandidate (h : PrunedStay s) (c : ℕ) : PrunedStay (s.onUseCandidate c) := by
  unfold P2PTransportChannel.onUseCandidate
  split
  · split
    · refine PrunedStay.signals ?_ (signals_requestSort _)
      exact h.of_eq rfl rfl rfl
    · exact h
  · exact h.of_eq rfl rfl rfl

theorem PrunedStay.fewer (h : PrunedStay s)
    (hconnectionAt : ∀ c conn, s'.connectionAt c = some conn → s.connectionAt c = some conn)
    (hnoted : s'.writable = true → s.writable = true ∧ s'.wasWritable = s.wasWritable) :
    PrunedStay s' where
  stay := fun c conn hconn => h.stay c conn (hconnectionAt c conn hconn)
  noted := fun hw => (hnoted hw).2.trans (h.noted (hnoted hw).1)

theorem PrunedStay.deleteConnection (h : PrunedStay s) (c : ℕ) : PrunedStay (s.deleteConnection c) := by
  unfold P2PTransportChannel.deleteConnection
  cases s.connectionAt c with
  | none => exact h
  | some conn =>
    have hleft : PrunedStay (s.leavePort conn) := by
      unfold leavePort
      split
      · exact h.of_eq rfl rfl rfl
      · exact h
    dsimp only
    rw [Refs.onConnectionDestroyed_eq]
    refine hleft.fewer (fun c' conn' hconn' => ?_) fun hw => ⟨hw, rfl⟩
    change Function.update (s.leavePort conn).connectionAt c none c' = some conn' at hconn'
    by_cases hc : c' = c
    · rw [hc, Function.update_self] at hconn'
      cases hconn'
    · rwa [Function.update_of_ne hc] at hconn'

theorem closed_prunedStay : ClosedUnder Settles (fun _ => True) PrunedStay where
  stirring := stirring_settles
  stirs := And.right
  adds := by
    intro s p port candidate new _ _ h
    have hlisted : PrunedStay { s.newConnection p port candidate new with
        connections := s.connections ++ [s.fresh] } :=
      (h.newConnection p port candidate new).of_eq rfl rfl rfl
    exact hlisted.modifyConnection s.fresh fun _ => ⟨rfl, rfl, rfl⟩
  uses := fun c _ h => h.onUseCandidate c
  deletes := fun c h => h.deleteConnection c
  erases := fun _ _ h => h.of_eq rfl rfl rfl

theorem PrunedStay.onRequestResponse (h : PrunedStay s) {c : ℕ} (hfresh : s.test c (·.pruned) = false)
    (elapsed : Uint32) (prflx : Option Uint32) (now : Uint32) :
    PrunedStay (s.onRequestResponse c elapsed prflx now) := by
  have hadds : ∀ {t : P2PTransportChannel}, PrunedStay t →
      PrunedStay (t.maybeAddPrflxCandidate c prflx) := by
    intro t ht
    unfold maybeAddPrflxCandidate
    cases prflx with
    | none => exact ht
    | some priority =>
      refine PrunedStay.signals ?_ (signals_onConnectionStateChange _ c)
      exact ht.modifyConnection c fun _ => ⟨rfl, rfl, rfl⟩
  have hreadable : ∀ {t : P2PTransportChannel}, PrunedStay t → PrunedStay (t.becomeReadable c now) := by
    intro t ht
    unfold becomeReadable
    split
    · exact (stirring_settles.receivedPing t c now).2 ht
    · exact ht
  have hwritable : PrunedStay (s.setWriteState c .writable) := h.setWriteState c (.inr hfresh)
  unfold P2PTransportChannel.onRequestResponse
  dsimp only
  generalize s.setWriteState c .writable = t at hwritable ⊢
  have hsucceeded : PrunedStay (t.modifyConnection c fun conn => { conn with state := .succeeded }) :=
    hwritable.modifyConnection c fun _ => ⟨rfl, rfl, rfl⟩
  generalize t.modifyConnection c _ = t at hsucceeded ⊢
  have hnoted : PrunedStay ((t.becomeReadable c now).modifyConnection c fun conn =>
      { conn with
        pingsSinceLastResponse := []
        lastPingResponseReceived := now
        rtt := (3 * conn.rtt + elapsed) / 4 }) :=
    (hreadable hsucceeded).modifyConnection c fun _ => ⟨rfl, rfl, rfl⟩
  split
  · exact hadds hnoted
  · exact hnoted

/-- No response comes for a pruned connection. -/
def NoneRevived (s : P2PTransportChannel) : Event → Prop
  | .connection c _ (.response ..) => s.test c (·.pruned) = false
  | _ => True

instance (s : P2PTransportChannel) (event : Event) : Decidable (NoneRevived s event) := by
  unfold NoneRevived
  split <;> infer_instance

theorem prunedStay_reset (h : PrunedStay s) (connectRequested : Bool) : PrunedStay (s.reset connectRequested) := by
  have hwritable : (s.reset connectRequested).writable = false := by
    unfold reset
    cases connectRequested <;> rfl
  refine h.fewer (fun c conn hconn => ?_) fun hw => absurd (hw.symm.trans hwritable) nofun
  obtain ⟨-, -, -, hconnectionAt, -⟩ := reset_eq s connectRequested
  rw [hconnectionAt] at hconn
  exact (Option.filter_eq_some_iff.mp hconn).1

/-- **An event keeps pruned connections down** unless it revives one. -/
theorem prunedStay_step (event : Event) (h : PrunedStay s) (hnone : NoneRevived s event) :
    PrunedStay (s.step event) := by
  refine closed_prunedStay.step h (fun ha => h.of_eq ha.connectionAt ha.wasWritable ha.writable) event
    (fun c now elapsed prflx heq => ?_) (fun now heq => ?_) (prunedStay_reset h)
  · subst heq
    exact h.onRequestResponse hnone elapsed prflx now
  · subst heq
    simp only [step]
    split
    · refine PrunedStay.sortConnections ?_ now
      exact h.of_eq rfl rfl rfl
    · exact h

theorem prunedStay_new (component : ℕ) : PrunedStay (new component) where
  stay := fun _ _ h => by cases h
  noted := fun h => by cases h

/-- **A sort prunes exactly** in every run in which no pruned connection gets a response. -/
theorem pruning_exact (component : ℕ) (events : List Event) (h : Guarded step NoneRevived (new component) events)
    (htype : (run step (new component) events).protocolType ≠ .hybrid) (now : Uint32) :
    ExactlyPruned (run step (new component) events)
      ((run step (new component) events).sortConnections now) := by
  have hstay : PrunedStay (run step (new component) events) :=
    run_invariant (fun _ event hs hnone => prunedStay_step event hs hnone) (prunedStay_new component) h
  exact hstay.exactlyPruned htype

/-! ## A connection that is back -/

section Example

def exampleCandidate' : Candidate :=
  { exampleCandidate with priority := 50, address := .ofIP (.v4 0x0a000002) 1000 }

def exampleTwo : List Event :=
  [.setIceRole .controlling, .setIceProtocolType .google] ++ exampleConnected ++
    [.candidate exampleCreates 21 exampleCandidate', .message .ping 22, .message .ping 23,
      .connection 2 30 (.response 20 none), .connection 3 31 (.response 20 none)]

def exampleBack : List Event :=
  exampleTwo ++
    [.message .sort 40, .message .ping 1000, .message .ping 2000, .message .ping 3000,
      .message .ping 4000, .message .ping 5000, .message .ping 8100, .message .sort 8200,
      .message .ping 8300, .connection 3 8400 (.response 100 none), .message .sort 8500,
      .connection 2 8600 (.response 500 none)]

theorem pruning_exact_two :
    Guarded step NoneRevived (new 1) exampleTwo ∧
      (run step (new 1) exampleTwo).protocolType ≠ .hybrid ∧
      ExactlyPruned (run step (new 1) exampleTwo) ((run step (new 1) exampleTwo).sortConnections 40) := by
  have hnone : Guarded step NoneRevived (new 1) exampleTwo := by
    delta step onMessage onCandidate onPortReady onUnknownAddress addPeerReflexive sortConnections
      sortAndSwitch sortList
    simp only [Sorting.mergeSort_eq_evalSort]
    decide
  have htype : (run step (new 1) exampleTwo).protocolType ≠ .hybrid := by
    delta step onMessage onCandidate onPortReady onUnknownAddress addPeerReflexive sortConnections
      sortAndSwitch sortList
    simp only [Sorting.mergeSort_eq_evalSort]
    decide
  exact ⟨hnone, htype, pruning_exact 1 exampleTwo hnone htype 40⟩

def skips (s : P2PTransportChannel) (n p c : ℕ) : Bool :=
  s.getBestConnectionOnNetwork n == some p && s.test p (·.writable) && s.connections.contains c &&
    c != p && s.networkOf c == some n &&
    ((s.pairAt p).any fun a => (s.pairAt c).any fun b => decide (0 ≤ compareConnectionCandidates a b)) &&
    !s.test c fun conn => conn.pruned && conn.writeState == .timeout

theorem not_exactlyPruned_of_skips {n p c : ℕ} (h : s'.skips n p c = true) : ¬ ExactlyPruned s s' := by
  intro hexact
  simp only [skips, Bool.and_eq_true, beq_iff_eq, bne_iff_ne, List.contains_iff_mem, Option.any_eq_true,
    decide_eq_true_iff, Bool.not_eq_true'] at h
  obtain ⟨⟨⟨⟨⟨⟨hbest, hwritable⟩, hmem⟩, hne⟩, hnetwork⟩, a, ha, b, hb, hcompare⟩, hskipped⟩ := h
  have hpruned := hexact.pruned n p c a b hbest hwritable hmem hne hnetwork ha hb hcompare
  exact absurd (hpruned.symm.trans hskipped) nofun

/-- **A pruned connection that is back is not pruned again**. -/
theorem pruning_skipped :
    let s := run step (new 1) exampleBack
    s.protocolType ≠ .hybrid ∧ ¬ ExactlyPruned s (s.sortConnections 8700) := by
  have hskips : (run step (new 1) exampleBack).protocolType ≠ .hybrid ∧
      ((run step (new 1) exampleBack).sortConnections 8700).skips 0 2 3 = true := by
    delta step onMessage onCandidate onPortReady onUnknownAddress addPeerReflexive sortConnections
      sortAndSwitch sortList
    simp only [Sorting.mergeSort_eq_evalSort]
    decide +kernel
  exact ⟨hskips.1, not_exactlyPruned_of_skips hskips.2⟩

end Example

end Libjingle.P2P.P2PTransportChannel
