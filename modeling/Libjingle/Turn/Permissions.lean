import Libjingle.Turn.Authorization

/-!
# Relaying needs a permission

Main results: **`relayed_permitted`**, **`relayed_without_permission`**.
-/

variable {p : AllocationId} {ip addr : IPAddress} {d : Sent}

namespace Libjingle

open Lib StunMessage

/-- The allocation that relays a datagram, and the peer. -/
def Sent.relayed : Sent → Option (AllocationId × IPAddress)
  | stun _ _ => none
  | dataIndication alloc peer _ _ => some (alloc, peer.ip)
  | channelMessage alloc peer _ _ => some (alloc, peer.ip)
  | external alloc peer _ => some (alloc, peer.ip)

namespace Allocation

variable {cfg : TurnConfig} {now : ℕ} {self : AllocationId} {a a' : Allocation} {msg : StunMessage}
  {sent : List Sent}

def Covered (a : Allocation) : Prop := ∀ c ∈ a.channels, a.hasPermission c.peer.ip = true

theorem hasPermission_iff : a.hasPermission addr = true ↔ ∃ perm ∈ a.perms, perm.peer = addr := by
  unfold hasPermission findPermission
  rw [List.find?_isSome]
  simp only [decide_eq_true_eq]

theorem map_updateFirst {α β : Type} {p : α → Bool} {f : α → α} {g : α → β}
    (h : ∀ x, g (f x) = g x) (l : List α) : (updateFirst p f l).map g = l.map g := by
  induction l with
  | nil => rfl
  | cons x xs ih =>
    rw [updateFirst]
    split_ifs
    · rw [List.map_cons, List.map_cons, h]
    · rw [List.map_cons, List.map_cons, ih]

theorem hasPermission_iff_mem : a.hasPermission addr = true ↔ addr ∈ a.perms.map Permission.peer := by
  rw [hasPermission_iff, List.mem_map]

theorem hasPermission_addPermission :
    (a.addPermission now addr).hasPermission ip = true ↔ ip = addr ∨ a.hasPermission ip = true := by
  unfold addPermission
  split_ifs with h
  · have hpeers : (updateFirst (fun perm => decide (perm.peer = addr)) (refreshPermission now)
        a.perms).map Permission.peer = a.perms.map Permission.peer :=
      map_updateFirst (f := refreshPermission now) (fun _ => rfl) _
    rw [hasPermission_iff_mem, hpeers, ← hasPermission_iff_mem]
    exact ⟨.inr, fun h' => h'.elim (fun heq => heq ▸ h) id⟩
  · rw [hasPermission_iff_mem, hasPermission_iff_mem]
    simp only [List.map_append, List.mem_append, List.map_cons, List.map_nil, List.mem_singleton,
      refreshPermission]
    exact or_comm

theorem Covered.handled (h : a.Covered) (hhandled : Handled cfg now msg a a') : a'.Covered := by
  cases hhandled with
  | permitted addr =>
    intro c hc
    rw [addPermission_channels] at hc
    exact hasPermission_addPermission.mpr (.inr (h c hc))
  | bound peer hchannels =>
    intro c hc
    rw [addPermission_channels] at hc
    rw [hasPermission_addPermission]
    rcases hchannels c hc with heq | ⟨c', hc', heq⟩
    · exact .inl (by rw [heq])
    · rw [heq]
      exact .inr (h c' hc')
  | _ => exact h

theorem handleTurnMessage_request_sent (hreq : isStunRequestType msg.type = true)
    (h : a.handleTurnMessage cfg now self msg = some (a', sent)) : ∀ d ∈ sent, d.relayed = none := by
  unfold handleTurnMessage at h
  split at h
  · obtain ⟨username, -, h⟩ := Option.bind_eq_some_iff.mp h
    cases h
    exact List.forall_mem_singleton.mpr rfl
  · cases h
    exact List.forall_mem_singleton.mpr rfl
  · next htype =>
    rw [htype] at hreq
    exact absurd hreq (by decide)
  · obtain rfl : sent = (a.handleCreatePermissionRequest cfg now msg).2 := by rw [Option.some.inj h]
    unfold handleCreatePermissionRequest
    split <;> exact List.forall_mem_singleton.mpr rfl
  · obtain rfl : sent = (a.handleChannelBindRequest cfg now msg).2 := by rw [Option.some.inj h]
    unfold handleChannelBindRequest
    split
    · dsimp only
      split_ifs <;> exact List.forall_mem_singleton.mpr rfl
    · exact List.forall_mem_singleton.mpr rfl
  · cases h
    intro d hd
    cases hd

theorem handleTurnMessage_relayed (h : a.handleTurnMessage cfg now self msg = some (a', sent)) (hd : d ∈ sent)
    (hrelayed : d.relayed = some (p, ip)) : p = self ∧ a.hasPermission ip = true := by
  cases hreq : isStunRequestType msg.type with
  | true =>
    rw [handleTurnMessage_request_sent hreq h d hd] at hrelayed
    cases hrelayed
  | false =>
    unfold handleTurnMessage at h
    split at h
    case h_3 =>
      cases h
      unfold handleSendIndication at hd
      split at hd
      · split_ifs at hd with hperm
        · rw [List.mem_singleton.mp hd] at hrelayed
          cases hrelayed
          exact ⟨rfl, hperm⟩
        · cases hd
      · cases hd
    case h_6 =>
      cases h
      cases hd
    all_goals
      next htype =>
      rw [htype] at hreq
      exact absurd hreq (by decide)

theorem handleChannelData_relayed {data : List Uint8} (hcovered : a.Covered) (hd : d ∈ a.handleChannelData self data)
    (hrelayed : d.relayed = some (p, ip)) : p = self ∧ a.hasPermission ip = true := by
  unfold handleChannelData at hd
  split at hd
  · next c hc =>
    rw [List.mem_singleton.mp hd] at hrelayed
    cases hrelayed
    exact ⟨rfl, hcovered c (List.mem_of_find?_eq_some hc)⟩
  · cases hd

theorem onExternalPacket_relayed {data id : List Uint8} {addr : SocketAddress} (hcovered : a.Covered) (hd : d ∈ a.onExternalPacket cfg self data addr id)
    (hrelayed : d.relayed = some (p, ip)) : p = self ∧ a.hasPermission ip = true := by
  unfold onExternalPacket at hd
  split at hd
  · next c hc =>
    rw [List.mem_singleton.mp hd] at hrelayed
    cases hrelayed
    have hip : c.peer.ip = addr.ip := by
      have hequal := List.find?_some hc
      simp only [SocketAddress.equal, SocketAddress.equalIPs, Bool.and_eq_true,
        decide_eq_true_eq] at hequal
      exact hequal.1.1
    rw [← hip]
    exact ⟨rfl, hcovered c (List.mem_of_find?_eq_some hc)⟩
  · split_ifs at hd with hperm
    · rw [List.mem_singleton.mp hd] at hrelayed
      cases hrelayed
      exact ⟨rfl, hperm⟩
    · cases hd

end Allocation

namespace TurnServer

variable {cfg : TurnConfig} {s s' : TurnServer} {conn : Connection} {msg : StunMessage}
  {packet : RawPacket} {key : List Uint8} {external : Option SocketAddress} {sent : List Sent}

/-- The peer of the datagram has a permission. -/
def Permitted (s : TurnServer) (d : Sent) : Prop :=
  ∀ p ip, d.relayed = some (p, ip) → ∃ a, s.heap p = some a ∧ a.hasPermission ip = true

theorem permitted_of_none (h : d.relayed = none) : Permitted s d := by
  intro p ip hrelayed
  rw [h] at hrelayed
  cases hrelayed

/-- There is a permission for the peer of each channel. -/
def Covered (s : TurnServer) : Prop := ∀ p a, s.heap p = some a → a.Covered

theorem handleTurnMessage_permitted
    (h : s.handleTurnMessage cfg p msg = some (s', sent)) : ∀ d ∈ sent, s.Permitted d := by
  intro d hd q ip hrelayed
  obtain ⟨a, a', ha, hhandle, -⟩ := handleTurnMessage_eq_some h
  obtain ⟨rfl, hperm⟩ := Allocation.handleTurnMessage_relayed hhandle hd hrelayed
  exact ⟨a, ha, hperm⟩

theorem handleAllocateRequest_sent (htype : msg.type = stunAllocateRequest)
    (h : s.handleAllocateRequest cfg conn msg key external = some (s', sent)) :
    ∀ d ∈ sent, d.relayed = none := by
  unfold handleAllocateRequest at h
  split at h
  · cases h
    exact List.forall_mem_singleton.mpr rfl
  · dsimp only at h
    split_ifs at h with hproto
    · cases h
      exact List.forall_mem_singleton.mpr rfl
    · split at h
      · obtain ⟨a, a', -, hhandle, -⟩ := handleTurnMessage_eq_some h
        exact Allocation.handleTurnMessage_request_sent (by rw [htype]; decide) hhandle
      · cases h
        exact List.forall_mem_singleton.mpr rfl

theorem dispatch_permitted {allocation : Option AllocationId}
    (h : s.dispatch cfg conn msg key allocation external = some (s', sent)) :
    ∀ d ∈ sent, s.Permitted d := by
  unfold dispatch at h
  split at h
  · split_ifs at h with htype
    · exact fun d hd => permitted_of_none (handleAllocateRequest_sent htype h d hd)
    · cases h
      exact List.forall_mem_singleton.mpr (permitted_of_none rfl)
  · obtain ⟨a, ha, h⟩ := Option.bind_eq_some_iff.mp h
    split_ifs at h with hretry hreq
    · obtain ⟨username, -, h⟩ := Option.bind_eq_some_iff.mp h
      split_ifs at h with huser
      · cases h
        exact List.forall_mem_singleton.mpr (permitted_of_none rfl)
      · exact handleTurnMessage_permitted h
    · exact handleTurnMessage_permitted h
    · cases h
      exact List.forall_mem_singleton.mpr (permitted_of_none rfl)

theorem Permitted.of_nonce {a : Allocation} {nonce : List Uint8}
    (ha : s.heap p = some a) (h : (s.store p (some { a with lastNonce := nonce })).Permitted d) :
    s.Permitted d := by
  intro q ip hrelayed
  obtain ⟨a', ha', hperm⟩ := h q ip hrelayed
  rw [store_heap] at ha'
  split_ifs at ha' with hq
  · rw [← Option.some.inj ha'] at hperm
    exact ⟨a, by rw [hq, ha], hperm⟩
  · exact ⟨a', ha', hperm⟩

theorem Refusal.relayed (h : Refusal cfg s conn msg d) : d.relayed = none := by
  cases h <;> rfl

theorem handleStunMessage_permitted (h : s.handleStunMessage cfg conn packet external = some (s', sent)) :
    ∀ d ∈ sent, s.Permitted d := by
  unfold handleStunMessage at h
  split at h
  · cases h
    exact fun d hd => absurd hd List.not_mem_nil
  · next msg rest hread =>
    split_ifs at h with hrest hbinding hreq
    · cases h
      exact fun d hd => absurd hd List.not_mem_nil
    · cases h
      intro d hd
      rw [List.mem_singleton.mp hd]
      exact permitted_of_none rfl
    all_goals obtain ⟨key, hkey, h⟩ := Option.bind_eq_some_iff.mp h
    · obtain ⟨⟨s₁, sent₁, ok⟩, hcheck, h⟩ := Option.bind_eq_some_iff.mp h
      dsimp only at h
      cases ok with
      | false =>
        cases h
        exact fun d hd => permitted_of_none (checkAuthorization_sent hcheck d hd).relayed
      | true =>
        rw [if_pos rfl] at h
        have hperm := dispatch_permitted h
        obtain ⟨nonce, -, ⟨-, rfl⟩ | ⟨p, a, -, ha, rfl⟩⟩ := checkAuthorization_true hkey hcheck
        · exact hperm
        · exact fun d hd => .of_nonce ha (hperm d hd)
    · exact dispatch_permitted h

theorem onInternalPacket_permitted {socket : SocketId} {addr : SocketAddress} (hcovered : s.Covered)
    (h : s.onInternalPacket cfg socket addr packet external = some (s', sent)) :
    ∀ d ∈ sent, s.Permitted d := by
  unfold onInternalPacket at h
  split_ifs at h with hsize hstun
  · cases h
    exact fun d hd => absurd hd List.not_mem_nil
  · obtain ⟨entry, -, h⟩ := Option.bind_eq_some_iff.mp h
    exact handleStunMessage_permitted h
  · obtain ⟨entry, -, h⟩ := Option.bind_eq_some_iff.mp h
    dsimp only at h
    split at h
    · cases h
      exact fun d hd => absurd hd List.not_mem_nil
    · obtain ⟨a, ha, h⟩ := Option.bind_eq_some_iff.mp h
      cases h
      intro d hd q ip hrelayed
      obtain ⟨rfl, hperm⟩ := Allocation.handleChannelData_relayed (hcovered _ a ha) hd hrelayed
      exact ⟨a, ha, hperm⟩

/-! ## Runs -/

theorem Covered.store {x : Option Allocation} (h : s.Covered)
    (hx : ∀ a, x = some a → a.Covered) : (s.store p x).Covered := by
  intro q a ha
  rw [store_heap] at ha
  split_ifs at ha with hq
  · exact hx a ha
  · exact h q a ha

theorem Covered.packetEffect (h : s.Covered) (heffect : PacketEffect cfg s conn packet s') : s'.Covered := by
  cases heffect with
  | nothing => exact h
  | @changed msg nonce p a a' _ _ _ _ ha ha' =>
    refine h.store fun x hx => ?_
    cases hx
    have hcovered : ({ a with lastNonce := nonce } : Allocation).Covered := h p a ha
    rcases ha' with rfl | ⟨-, hhandled⟩
    · exact hcovered
    · exact hcovered.handled hhandled
  | @created msg nonce a _ _ _ _ hnew =>
    have hstore : (s.store s.next (some a)).Covered := by
      refine h.store fun x hx c hc => ?_
      rw [← Option.some.inj hx, hnew.2.2.2] at hc
      cases hc
    exact hstore

/-- A permission does not expire while a channel is bound to its peer. -/
def KeepsCover (s : TurnServer) : Event → Prop
  | .permissionTimeout p perm =>
    ∀ a, s.heap p = some a → ∀ c ∈ a.channels, c.peer.ip ≠ perm.peer
  | _ => True

/-- **An event keeps every channel covered by a permission** where it keeps the cover. -/
theorem Covered.step {ev : Event} (h : s.Covered) (hkeeps : s.KeepsCover ev)
    (hstep : s.step cfg ev = some (s', sent)) : s'.Covered := by
  cases ev with
  | internalPacket socket addr packet external =>
    rcases onInternalPacket_effect hstep with rfl | ⟨entry, -, heffect⟩
    · exact h
    · exact h.packetEffect heffect
  | externalPacket p data addr id =>
    obtain ⟨a, -, hstep⟩ := Option.bind_eq_some_iff.mp hstep
    cases hstep
    exact h
  | addInternalSocket entry =>
    cases hstep
    exact h
  | internalSocketClose socket =>
    cases hstep
    exact h
  | allocationTimeout p =>
    obtain ⟨a, ha, hstep⟩ := Option.bind_eq_some_iff.mp hstep
    obtain ⟨s₁, hdestroyed, hstep⟩ := Option.bind_eq_some_iff.mp hstep
    cases hstep
    obtain ⟨-, -, rfl⟩ := onAllocationDestroyed_eq_some hdestroyed
    exact Covered.store (s := { s with serverSockets := _, allocations := _ }) h
      fun x hx => nomatch hx
  | permissionTimeout p perm =>
    obtain ⟨a, ha, hstep⟩ := Option.bind_eq_some_iff.mp hstep
    cases hstep
    refine h.store fun x hx c hc => ?_
    cases hx
    obtain ⟨other, hother, hpeer⟩ := Allocation.hasPermission_iff.mp (h p a ha c hc)
    have hne : other ≠ perm := by
      rintro rfl
      exact hkeeps a ha c hc hpeer.symm
    exact Allocation.hasPermission_iff.mpr ⟨other, (List.mem_erase_of_ne hne).mpr hother, hpeer⟩
  | channelTimeout p channel =>
    obtain ⟨a, ha, hstep⟩ := Option.bind_eq_some_iff.mp hstep
    cases hstep
    refine h.store fun x hx c hc => ?_
    cases hx
    exact h p a ha c (List.mem_of_mem_erase hc)
  | tick ms =>
    cases hstep
    exact h

theorem Covered.step_permitted {ev : Event} (h : s.Covered)
    (hstep : s.step cfg ev = some (s', sent)) : ∀ d ∈ sent, s.Permitted d := by
  cases ev with
  | internalPacket socket addr packet external => exact onInternalPacket_permitted h hstep
  | externalPacket p data addr id =>
    obtain ⟨a, ha, hstep⟩ := Option.bind_eq_some_iff.mp hstep
    cases hstep
    intro d hd q ip hrelayed
    obtain ⟨rfl, hperm⟩ := Allocation.onExternalPacket_relayed (h p a ha) hd hrelayed
    exact ⟨a, ha, hperm⟩
  | allocationTimeout p =>
    obtain ⟨a, ha, hstep⟩ := Option.bind_eq_some_iff.mp hstep
    obtain ⟨s₁, -, hstep⟩ := Option.bind_eq_some_iff.mp hstep
    cases hstep
    exact fun d hd => absurd hd List.not_mem_nil
  | permissionTimeout p perm =>
    obtain ⟨a, -, hstep⟩ := Option.bind_eq_some_iff.mp hstep
    cases hstep
    exact fun d hd => absurd hd List.not_mem_nil
  | channelTimeout p channel =>
    obtain ⟨a, -, hstep⟩ := Option.bind_eq_some_iff.mp hstep
    cases hstep
    exact fun d hd => absurd hd List.not_mem_nil
  | _ =>
    cases hstep
    exact fun d hd => absurd hd List.not_mem_nil

/-- **What is relayed is permitted**, in every run in which no permission expires while a channel is
bound to its peer. -/
theorem relayed_permitted (cfg : TurnConfig) (trace : List (TurnServer × Event × List Sent))
    (s' : TurnServer) (hrun : Run cfg trace s')
    (hkeeps : ∀ s ev sent, (s, ev, sent) ∈ trace → s.KeepsCover ev) :
    ∀ s ev sent, (s, ev, sent) ∈ trace → ∀ d ∈ sent, s.Permitted d := by
  have hall : s'.Covered ∧ ∀ s ev sent, (s, ev, sent) ∈ trace → ∀ d ∈ sent, s.Permitted d := by
    induction hrun with
    | start => exact ⟨fun p a ha => (nomatch ha), fun s ev sent h => absurd h List.not_mem_nil⟩
    | @step trace s s' ev sent _ _ hstep ih =>
      obtain ⟨hcovered, hpermitted⟩ :=
        ih fun s₁ ev₁ sent₁ h => hkeeps s₁ ev₁ sent₁ (List.mem_append_left _ h)
      refine ⟨hcovered.step (hkeeps s ev sent (by simp)) hstep, fun s₁ ev₁ sent₁ h => ?_⟩
      rcases List.mem_append.mp h with h | h
      · exact hpermitted s₁ ev₁ sent₁ h
      · obtain ⟨rfl, heq⟩ := Prod.mk.inj (List.mem_singleton.mp h)
        obtain ⟨rfl, rfl⟩ := Prod.mk.inj heq
        exact hcovered.step_permitted hstep
  exact hall.2

end TurnServer

def examplePeer : SocketAddress := .ofIP (.v4 0x05050505) 2000

def exampleBind : RawPacket :=
  exampleRequest turnChannelBindRequest (text "u")
    [⟨attrChannelNumber, .uint32 0x40000000⟩, ⟨attrXorPeerAddress, .xorAddress examplePeer⟩]

def exampleChannelData : RawPacket := ⟨packetData [0x40, 0, 0, 1, 7], 5⟩

def exampleBound : TurnServer :=
  exampleServer.after exampleConfig (.internalPacket 0 exampleClient exampleBind none)

def exampleDue : TurnServer := exampleBound.after exampleConfig (.tick kPermissionTimeout)

def exampleExpired : TurnServer :=
  exampleDue.after exampleConfig (.permissionTimeout 0 ⟨examplePeer.ip, kPermissionTimeout⟩)

def exampleChannelEvent : TurnServer.Event := .internalPacket 0 exampleClient exampleChannelData none

namespace TurnServer

theorem exampleBound_spec :
    (exampleServer.possible (.internalPacket 0 exampleClient exampleBind none) = true ∧
      (exampleServer.step exampleConfig (.internalPacket 0 exampleClient exampleBind none)).isSome = true) ∧
    exampleBound.possible exampleChannelEvent = true ∧
      exampleBound.sentAt exampleConfig exampleChannelEvent = [.external 0 examplePeer [7]] ∧
      (exampleBound.step exampleConfig exampleChannelEvent).isSome = true := by
  decide +kernel

theorem run_exampleBound : Run exampleConfig [({}, .addInternalSocket exampleSocket, []),
      (exampleFresh, exampleAllocateEvent, exampleFresh.sentAt exampleConfig exampleAllocateEvent),
      (exampleServer, .internalPacket 0 exampleClient exampleBind none,
        exampleServer.sentAt exampleConfig (.internalPacket 0 exampleClient exampleBind none))]
    exampleBound :=
  .step (.step run_exampleFresh (by decide) (step_eq_some (by decide)))
    exampleBound_spec.1.1 (step_eq_some exampleBound_spec.1.2)

/-- Data on a new channel goes to the peer, who has a permission. -/
theorem relayed_permitted_channelData :
    exampleBound.sentAt exampleConfig exampleChannelEvent = [.external 0 examplePeer [7]] ∧
      exampleBound.Permitted (.external 0 examplePeer [7]) := by
  obtain ⟨hpossible, hsent, hstep⟩ := exampleBound_spec.2
  refine ⟨hsent, relayed_permitted exampleConfig _ _
    (.step run_exampleBound hpossible (step_eq_some hstep)) ?_ exampleBound
    exampleChannelEvent _ (List.mem_append_right _ (List.mem_singleton.mpr rfl)) _
    (by rw [hsent]; exact List.mem_singleton.mpr rfl)⟩
  intro s ev sent h
  simp only [List.cons_append, List.nil_append, List.mem_cons, Prod.mk.injEq,
    List.not_mem_nil, or_false] at h
  rcases h with ⟨-, rfl, -⟩ | ⟨-, rfl, -⟩ | ⟨-, rfl, -⟩ | ⟨-, rfl, -⟩ <;> trivial

/-- **Data on a channel goes to a peer without a permission.** -/
theorem relayed_without_permission :
    ∃ trace, Run exampleConfig trace exampleExpired ∧
      exampleExpired.possible exampleChannelEvent = true ∧
      exampleExpired.step exampleConfig exampleChannelEvent =
        some (exampleExpired.after exampleConfig exampleChannelEvent,
          [.external 0 examplePeer [7]]) ∧
      ¬ exampleExpired.Permitted (.external 0 examplePeer [7]) := by
  have hsent : exampleExpired.sentAt exampleConfig exampleChannelEvent =
      [.external 0 examplePeer [7]] := by decide +kernel
  have hdue : exampleBound.step exampleConfig (.tick kPermissionTimeout) = some (exampleDue, []) := rfl
  have hexpired : exampleDue.possible (.permissionTimeout 0 ⟨examplePeer.ip, kPermissionTimeout⟩) =
      true := by decide +kernel
  refine ⟨_, .step (.step run_exampleBound rfl hdue) hexpired (step_eq_some (by decide +kernel)),
    by decide +kernel, ?_, fun hpermitted => ?_⟩
  · rw [← hsent]
    exact step_eq_some (by decide +kernel)
  · obtain ⟨a, ha, hperm⟩ := hpermitted 0 examplePeer.ip rfl
    have hnone : (exampleExpired.heap 0).map (fun a => a.hasPermission examplePeer.ip) =
        some false := by decide +kernel
    rw [ha, Option.map_some, hperm] at hnone
    cases hnone

end TurnServer

end Libjingle
