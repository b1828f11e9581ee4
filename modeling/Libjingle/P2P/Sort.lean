import Libjingle.P2P.Stirs

/-!
# A sort that is due is pending

Main results: **`sort_pending`**, **`sort_lost`**.
-/

namespace Libjingle.P2P.P2PTransportChannel

open Lib

variable {s : P2PTransportChannel}

/-- A sort that is due has been posted. -/
def SortPending (s : P2PTransportChannel) : Prop := s.sortDirty = true → .sort ∈ s.messages

instance : DecidablePred SortPending := fun s => by unfold SortPending; infer_instance

theorem SortPending.of_eq {s' : P2PTransportChannel} (h : SortPending s)
    (hdirty : s'.sortDirty = s.sortDirty) (hmessages : s'.messages = s.messages) : SortPending s' :=
  fun hs => hmessages ▸ h (hdirty ▸ hs)

theorem SortPending.stirs {s' : P2PTransportChannel} (hstirs : Stirs s s') (h : SortPending s) : SortPending s' := by
  intro hdirty
  rcases hstirs.dirty hdirty with hs | hsort
  · exact hstirs.posted _ (h hs)
  · exact hsort

theorem SortPending.onUseCandidate (h : SortPending s) (c : ℕ) : SortPending (s.onUseCandidate c) := by
  unfold P2PTransportChannel.onUseCandidate
  split
  · split
    · exact SortPending.stirs (stirs_requestSort _) (h.of_eq rfl rfl)
    · exact h
  · exact h.of_eq rfl rfl

theorem SortPending.onConnectionDestroyed (h : SortPending s) (c : ℕ) : SortPending (s.onConnectionDestroyed c) := by
  unfold P2PTransportChannel.onConnectionDestroyed
  dsimp only
  split
  · exact SortPending.stirs (stirs_requestSort _) (h.of_eq rfl rfl)
  · exact h.of_eq rfl rfl

theorem SortPending.deleteConnection (h : SortPending s) (c : ℕ) : SortPending (s.deleteConnection c) := by
  unfold P2PTransportChannel.deleteConnection
  cases s.connectionAt c with
  | none => exact h
  | some conn =>
    have hleft : SortPending (s.leavePort conn) := by
      unfold leavePort
      split
      · exact h.of_eq rfl rfl
      · exact h
    intro hdirty
    refine List.mem_filter.mpr ⟨hleft.onConnectionDestroyed c hdirty, ?_⟩
    simp

theorem closed_sortPending : Closed (fun _ => True) SortPending where
  stirs := .stirs
  adds := by
    intro s p port candidate new _ _ h
    have hlisted : SortPending { s.newConnection p port candidate new with
        connections := s.connections ++ [s.fresh] } := h.of_eq rfl rfl
    refine SortPending.stirs ?_ hlisted
    exact stirs_modifyConnection (fun _ => by rfl) _ _
  uses := fun c _ h => h.onUseCandidate c
  deletes := fun c h => h.deleteConnection c
  erases := fun m hm h hdirty => (List.mem_erase_of_ne (Ne.symm hm)).mpr (h hdirty)

/-! ## Sorts -/

theorem sortPending_sortConnections {now : Uint32} (h : s.protocolType ≠ .hybrid ∨ SortPending s) :
    SortPending (s.sortConnections now) := by
  rcases h with htype | h
  · have hsame := (stirs_updateConnectionStates s now).protocolType
    unfold sortConnections
    rw [if_neg (by rw [hsame]; exact htype)]
    exact SortPending.stirs (stirs_sortAndSwitch _) nofun
  · exact SortPending.stirs (stirs_sortConnections s now) h

def LastSortCounts (s : P2PTransportChannel) : Event → Prop
  | .message .sort _ =>
    ¬ (s.protocolType = .hybrid ∧ s.sortDirty = true ∧ s.messages.count .sort = 1)
  | _ => True

instance (s : P2PTransportChannel) (event : Event) : Decidable (LastSortCounts s event) := by
  unfold LastSortCounts
  split <;> infer_instance

theorem sortPending_message (h : SortPending s) {now : Uint32}
    (hcounts : LastSortCounts s (.message .sort now)) : SortPending (s.step (.message .sort now)) := by
  simp only [step]
  split
  · rename_i hmem
    refine sortPending_sortConnections ?_
    by_cases htype : s.protocolType = .hybrid
    · right
      intro hdirty
      have hmore : s.messages.count .sort ≠ 1 := fun hone => hcounts ⟨htype, hdirty, hone⟩
      have hpos := List.count_pos_iff.mpr hmem
      apply List.count_pos_iff.mp
      rw [List.count_erase_self]
      omega
    · exact .inl htype
  · exact h

theorem sortPending_reset (s : P2PTransportChannel) (connectRequested : Bool) :
    SortPending (s.reset connectRequested) := by
  have hdirty : (s.reset connectRequested).sortDirty = false := by
    unfold reset
    cases connectRequested <;> rfl
  intro h
  rw [hdirty] at h
  cases h

/-- **An event keeps the sort that is due pending**, while the last one posted counts. -/
theorem sortPending_step (event : Event) (h : SortPending s) (hcounts : LastSortCounts s event) :
    SortPending (s.step event) := by
  refine closed_sortPending.under.step h (fun ha => h.of_eq ha.dirty ha.messages) event
    (fun c now elapsed prflx _ => h.stirs (stirs_onRequestResponse s c elapsed prflx now)) (fun now heq => ?_)
    (sortPending_reset s)
  subst heq
  exact sortPending_message h hcounts

/-- **A sort that is due is pending**, if the last one is not dispatched in hybrid mode. -/
theorem sort_pending (component : ℕ) (events : List Event) (h : Guarded step LastSortCounts (new component) events) :
    SortPending (run step (new component) events) :=
  run_invariant (fun _ event hs hcounts => sortPending_step event hs hcounts)
    (fun hdirty => by cases hdirty) h

/-! ## The sort that is lost -/

section Example

def examplePort : Port where
  session := 0
  type := localPortType
  network := ⟨0, text "eth0", 0⟩
  generation := 0
  sharedSocket := false
  iceProtocol := .hybrid
  iceRole := .unknown
  tiebreaker := 0
  connections := []

def exampleCandidate : Candidate where
  id := text "remote"
  component := 1
  protocol := protoToString .udp
  address := .ofIP (.v4 0x0a000001) 1000
  priority := 100
  username := text "user"
  password := text "password"
  type := localPortType
  networkName := []
  generation := 0
  foundation := []
  relatedAddress := .ofIP .unspec 0

def exampleCreates : Creates := fun _ _ _ => some ⟨200, true⟩

def exampleConnected : List Event :=
  [.connect, .signalingReady, .portReady exampleCreates 10 examplePort,
    .candidate exampleCreates 20 exampleCandidate]

def exampleSort : List Event :=
  exampleConnected ++ [.connection 2 30 (.request false), .message .sort 40]

theorem sort_pending_rfc5245 :
    Guarded step LastSortCounts (new 1) (.setIceProtocolType .rfc5245 :: exampleSort) ∧
      SortPending (run step (new 1) (.setIceProtocolType .rfc5245 :: exampleSort)) :=
  ⟨by decide +kernel, sort_pending 1 _ (by decide +kernel)⟩

/-- **In hybrid mode the flag stays set when the sort is dispatched**, and no further sort is
posted. -/
theorem sort_lost :
    ¬ SortPending (run step (new 1) (exampleSort ++
      [.setIceProtocolType .rfc5245, .connection 2 50 (.response 20 none)])) := by
  decide +kernel

end Example

end Libjingle.P2P.P2PTransportChannel
