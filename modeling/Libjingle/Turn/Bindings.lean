import Libjingle.Turn.ChannelData
import Libjingle.Turn.Handling

/-!
# The channels of an allocation are a partial bijection

Main result: **`channels_bijective`**.
-/

namespace Libjingle

open Lib StunMessage

/-! ## Requests and answers -/

/-- The channel number and the peer that a request asks for. -/
def StunMessage.requestedBinding (msg : StunMessage) : Option (ℕ × SocketAddress) :=
  match msg.getValue attrChannelNumber, msg.getSocketAddress attrXorPeerAddress with
  | some number, some peer => some (number.toNat / 2 ^ 16, peer)
  | _, _ => none

def IsChannelNumber (id : ℕ) : Prop := kMinChannelNumber ≤ id ∧ id ≤ kMaxChannelNumber

instance (id : ℕ) : Decidable (IsChannelNumber id) := inferInstanceAs (Decidable (_ ∧ _))

def Sent.SuccessOf (type : Uint16) : Sent → Prop
  | stun _ msg => getStunSuccessResponseType type = some msg.type
  | _ => False

def Sent.ErrorOf (type : Uint16) : Sent → Prop
  | stun _ msg => getStunErrorResponseType type = some msg.type
  | _ => False

namespace Allocation

variable {cfg : TurnConfig} {now : ℕ} {self : AllocationId} {a a' : Allocation} {msg : StunMessage}
  {sent : List Sent} {id : ℕ} {peer : SocketAddress}

theorem successOf_sendResponse (cfg : TurnConfig) (a : Allocation) (h : msg.type = turnChannelBindRequest) :
    (a.sendResponse cfg (initResponse msg (.new .turn))).SuccessOf turnChannelBindRequest := by
  change getStunSuccessResponseType turnChannelBindRequest = some (cfg.withSoftware _).type
  rw [type_withSoftware, addMessageIntegrity_type, type_initResponse _ (by rw [h]; decide), h]
  decide

theorem errorOf_sendBadRequestResponse (cfg : TurnConfig) (a : Allocation) (h : msg.type = turnChannelBindRequest) :
    (a.sendBadRequestResponse cfg msg).ErrorOf turnChannelBindRequest ∧
      ¬ (a.sendBadRequestResponse cfg msg).SuccessOf turnChannelBindRequest := by
  have htype : (cfg.withSoftware (initErrorResponse msg stunErrorBadRequest stunErrorReasonBadRequest
      (.new .turn))).type = 0x0119#16 := by
    rw [type_withSoftware]
    unfold initErrorResponse getStunErrorResponseType
    rw [h, if_pos (by decide)]
    simp only [addAttribute_type, setTransactionID_type, setType]
    decide
  constructor
  · change getStunErrorResponseType turnChannelBindRequest = some (cfg.withSoftware _).type
    rw [htype]
    decide
  · change ¬ getStunSuccessResponseType turnChannelBindRequest = some (cfg.withSoftware _).type
    rw [htype]
    decide

/-! ## The bijection -/

/-- The channels are a partial bijection of numbers in range and peers. -/
structure Bijective (a : Allocation) : Prop where
  range : ∀ c ∈ a.channels, IsChannelNumber c.id
  ids : a.channels.Pairwise fun c c' => c.id ≠ c'.id
  peers : a.channels.Pairwise fun c c' => ¬ c.peer.equal c'.peer = true
  perms : (a.perms.map Permission.peer).Nodup

/-- The number and the peer are both unbound, or bound to each other. -/
def Bindable (a : Allocation) (id : ℕ) (peer : SocketAddress) : Prop :=
  (∀ c ∈ a.channels, c.id ≠ id ∧ ¬ c.peer.equal peer = true) ∨
    ∃ c ∈ a.channels, c.id = id ∧ c.peer.equal peer = true

theorem findIdx?_eq_some {α : Type} {l : List α} {p : α → Bool} {r : α → α → Prop} (h : l.Pairwise r)
    (hp : ∀ x y, p x = true → p y = true → ¬ r x y) {i : ℕ} (hi : i < l.length) (hpi : p l[i] = true) :
    l.findIdx? p = some i := by
  rw [List.findIdx?_eq_some_iff_getElem]
  refine ⟨hi, hpi, fun j hj hpj => ?_⟩
  exact hp _ _ hpj hpi (List.pairwise_iff_getElem.mp h j i (by omega) hi hj)

theorem equal_of_equal {x y z : SocketAddress} (h : x.equal z = true) (h' : y.equal z = true) : x.equal y = true :=
  (SocketAddress.equal_iff x y).mpr
    (((SocketAddress.equal_iff x z).mp h).trans ((SocketAddress.equal_iff y z).mp h').symm)

theorem findIdx?_eq_iff (h : a.Bijective) (id : ℕ) (peer : SocketAddress) :
    (a.channels.findIdx? fun c => c.id = id) = (a.channels.findIdx? fun c => c.peer.equal peer) ↔
      a.Bindable id peer := by
  constructor
  · intro heq
    cases hid : a.channels.findIdx? fun c => c.id = id with
    | none =>
      rw [hid] at heq
      refine .inl fun c hc => ⟨?_, ?_⟩
      · simpa using List.findIdx?_eq_none_iff.mp hid c hc
      · simpa using List.findIdx?_eq_none_iff.mp heq.symm c hc
    | some i =>
      rw [hid] at heq
      obtain ⟨hi, hidAt, -⟩ := List.findIdx?_eq_some_iff_getElem.mp hid
      obtain ⟨hi', hpeerAt, -⟩ := List.findIdx?_eq_some_iff_getElem.mp heq.symm
      exact .inr ⟨_, List.getElem_mem hi, of_decide_eq_true hidAt, hpeerAt⟩
  · rintro (hunbound | ⟨c, hc, hid, hpeer⟩)
    · rw [List.findIdx?_eq_none_iff.mpr fun c hc => by simpa using (hunbound c hc).1,
        List.findIdx?_eq_none_iff.mpr fun c hc => by simpa using (hunbound c hc).2]
    · obtain ⟨i, hi, rfl⟩ := List.getElem_of_mem hc
      rw [findIdx?_eq_some h.ids (fun x y hx hy => ?_) hi (decide_eq_true hid),
        findIdx?_eq_some h.peers (fun x y hx hy => ?_) hi hpeer]
      · exact not_not.mpr (equal_of_equal hx hy)
      · exact not_not.mpr ((of_decide_eq_true hx).trans (of_decide_eq_true hy).symm)

theorem findIdx?_isNone_iff (h : a.Bindable id peer) :
    (a.channels.findIdx? fun c => c.id = id).isNone = true ↔
      ∀ c ∈ a.channels, c.id ≠ id ∧ ¬ c.peer.equal peer = true := by
  rw [Option.isNone_iff_eq_none, List.findIdx?_eq_none_iff]
  constructor
  · intro hnone
    rcases h with hunbound | ⟨c, hc, hid, -⟩
    · exact hunbound
    · exact absurd (hnone c hc) (by simp [hid])
  · exact fun hunbound c hc => by simpa using (hunbound c hc).1

/-! ## Keeping the bijection -/

theorem perms_addPermission (h : (a.perms.map Permission.peer).Nodup) (addr : IPAddress) :
    ((a.addPermission now addr).perms.map Permission.peer).Nodup := by
  unfold addPermission
  split_ifs with hperm
  · dsimp only
    rwa [map_updateFirst (f := refreshPermission now) (g := Permission.peer) fun _ => rfl]
  · rw [hasPermission_iff_mem] at hperm
    rw [List.map_append, List.nodup_append]
    refine ⟨h, List.nodup_singleton _, ?_⟩
    rintro x hx y hy rfl
    have haddr : x = addr := List.mem_singleton.mp hy
    exact hperm (haddr ▸ hx)

theorem Bijective.addPermission (h : a.Bijective) (addr : IPAddress) :
    (a.addPermission now addr).Bijective where
  range := by rw [addPermission_channels]; exact h.range
  ids := by rw [addPermission_channels]; exact h.ids
  peers := by rw [addPermission_channels]; exact h.peers
  perms := perms_addPermission h.perms addr

theorem Bijective.bind (h : a.Bijective) (hid : IsChannelNumber id)
    (hunbound : ∀ c ∈ a.channels, c.id ≠ id ∧ ¬ c.peer.equal peer = true) :
    ({ a with channels := a.channels ++ [refreshChannel now ⟨id, peer, 0⟩] } : Allocation).Bijective where
  range := by
    intro c hc
    rcases List.mem_append.mp hc with hc | hc
    · exact h.range c hc
    · rw [List.mem_singleton.mp hc]
      exact hid
  ids := by
    rw [List.pairwise_append]
    refine ⟨h.ids, List.pairwise_singleton _ _, fun c hc c' hc' => ?_⟩
    rw [List.mem_singleton.mp hc']
    exact (hunbound c hc).1
  peers := by
    rw [List.pairwise_append]
    refine ⟨h.peers, List.pairwise_singleton _ _, fun c hc c' hc' => ?_⟩
    rw [List.mem_singleton.mp hc']
    exact (hunbound c hc).2
  perms := h.perms

theorem Bijective.refresh (h : a.Bijective) (p : Channel → Bool) :
    ({ a with channels := updateFirst p (refreshChannel now) a.channels } : Allocation).Bijective where
  range := by
    intro c hc
    rcases mem_updateFirst hc with hc | ⟨c', hc', -, rfl⟩
    · exact h.range c hc
    · exact h.range c' hc'
  ids := by
    have hids := List.pairwise_map.mpr h.ids
    rw [← map_updateFirst (p := p) (f := refreshChannel now) (fun _ => rfl)] at hids
    exact List.pairwise_map.mp hids
  peers := by
    have hpeers := (List.pairwise_map (R := fun x y : SocketAddress => ¬ x.equal y = true)).mpr h.peers
    rw [← map_updateFirst (p := p) (f := refreshChannel now) (fun _ => rfl)] at hpeers
    exact List.pairwise_map.mp hpeers
  perms := h.perms

/-! ## The answer to a ChannelBind request -/

def bindChannels (now : ℕ) (a : Allocation) (id : ℕ) (peer : SocketAddress) : List Channel :=
  if (a.channels.findIdx? fun c => c.id = id).isNone then
    a.channels ++ [refreshChannel now ⟨id, peer, 0⟩]
  else updateFirst (fun c => c.id = id) (refreshChannel now) a.channels

theorem handleChannelBindRequest_refused (h : a.Bijective) (hnot : ∀ id peer, msg.requestedBinding = some (id, peer) →
      ¬ (IsChannelNumber id ∧ a.Bindable id peer)) :
    a.handleChannelBindRequest cfg now msg = (a, [a.sendBadRequestResponse cfg msg]) := by
  unfold handleChannelBindRequest
  split
  · next number peer hnumber hpeer =>
    have hrequest : msg.requestedBinding = some (number.toNat / 2 ^ 16, peer) := by
      rw [requestedBinding, hnumber, hpeer]
    have hnot := hnot _ _ hrequest
    dsimp only
    split_ifs with hrange hsame hnew
    · rfl
    · rfl
    all_goals
      rw [not_or, Nat.not_lt, Nat.not_lt] at hrange
      exact absurd ⟨hrange, (findIdx?_eq_iff h _ peer).mp (not_not.mp hsame)⟩ hnot
  · rfl

theorem handleChannelBindRequest_granted (h : a.Bijective)
    (hrequest : msg.requestedBinding = some (id, peer)) (hid : IsChannelNumber id)
    (hbindable : a.Bindable id peer) :
    a.handleChannelBindRequest cfg now msg =
      (({ a with channels := a.bindChannels now id peer }).addPermission now peer.ip,
        [a.sendResponse cfg (initResponse msg (.new .turn))]) := by
  unfold requestedBinding at hrequest
  split at hrequest
  · next number peer' hnumber hpeer =>
    obtain ⟨rfl, rfl⟩ := Prod.mk.inj (Option.some.inj hrequest)
    unfold handleChannelBindRequest
    rw [hnumber, hpeer]
    dsimp only
    rw [if_neg (by rw [not_or, Nat.not_lt, Nat.not_lt]; exact hid),
      if_neg (not_not.mpr ((findIdx?_eq_iff h _ peer').mpr hbindable))]
    rfl
  · cases hrequest

theorem Bijective.bindChannels (h : a.Bijective) (hid : IsChannelNumber id) (hbindable : a.Bindable id peer) :
    ({ a with channels := a.bindChannels now id peer } : Allocation).Bijective := by
  unfold Allocation.bindChannels
  split_ifs with hnone
  · exact h.bind hid ((findIdx?_isNone_iff hbindable).mp hnone)
  · exact h.refresh _

theorem mem_bindChannels {c : Channel} (hc : c.id ≠ id) : c ∈ a.bindChannels now id peer ↔ c ∈ a.channels := by
  unfold bindChannels
  split_ifs
  · rw [List.mem_append, List.mem_singleton]
    refine or_iff_left ?_
    rintro rfl
    exact hc rfl
  · induction a.channels with
    | nil => rfl
    | cons x xs ih =>
      rw [updateFirst]
      split_ifs with hx
      · have hx : x.id = id := of_decide_eq_true hx
        rw [List.mem_cons, List.mem_cons]
        refine or_congr_left ?_
        constructor
        · rintro rfl
          exact absurd hx hc
        · rintro rfl
          exact absurd hx hc
      · rw [List.mem_cons, List.mem_cons, ih]

theorem exists_mem_bindChannels (hbindable : a.Bindable id peer) :
    ∃ c ∈ a.bindChannels now id peer, c.id = id ∧ c.peer.equal peer = true := by
  rcases hbindable with hunbound | ⟨c, hc, hid, hpeer⟩
  · refine ⟨refreshChannel now ⟨id, peer, 0⟩, ?_, rfl, (SocketAddress.equal_iff _ _).mpr rfl⟩
    rw [bindChannels, if_pos ((findIdx?_isNone_iff (.inl hunbound)).mpr hunbound)]
    exact List.mem_append_right _ (List.mem_singleton.mpr rfl)
  · have hsome : ¬ (a.channels.findIdx? fun c => c.id = id).isNone = true := by
      rw [findIdx?_isNone_iff (.inr ⟨c, hc, hid, hpeer⟩)]
      exact fun hunbound => (hunbound c hc).1 hid
    have hmap := map_updateFirst (p := fun c : Channel => c.id = id) (f := refreshChannel now)
      (g := fun c : Channel => (c.id, c.peer)) (fun _ => rfl) a.channels
    obtain ⟨c', hc', heq⟩ := List.mem_map.mp (hmap ▸ List.mem_map_of_mem hc)
    obtain ⟨hid', hpeer'⟩ := Prod.mk.inj heq
    rw [bindChannels, if_neg hsome]
    exact ⟨c', hc', hid'.trans hid, hpeer' ▸ hpeer⟩

/-- What a ChannelBind request does, and its answer. -/
structure BindsExactly (a : Allocation) (msg : StunMessage) (a' : Allocation) (answer : Sent) : Prop where
  success : answer.SuccessOf turnChannelBindRequest ↔
    ∃ id peer, msg.requestedBinding = some (id, peer) ∧ IsChannelNumber id ∧ a.Bindable id peer
  refused : ¬ answer.SuccessOf turnChannelBindRequest →
    answer.ErrorOf turnChannelBindRequest ∧ a' = a
  bound : ∀ id peer, answer.SuccessOf turnChannelBindRequest →
    msg.requestedBinding = some (id, peer) →
    (∃ c ∈ a'.channels, c.id = id ∧ c.peer.equal peer = true) ∧
      ∀ c : Channel, c.id ≠ id → (c ∈ a'.channels ↔ c ∈ a.channels)

theorem Bijective.handleChannelBindRequest (h : a.Bijective) (cfg : TurnConfig) (now : ℕ)
    (htype : msg.type = turnChannelBindRequest) :
    ∃ a' answer, a.handleChannelBindRequest cfg now msg = (a', [answer]) ∧
      BindsExactly a msg a' answer ∧ a'.Bijective := by
  by_cases hgranted :
      ∃ id peer, msg.requestedBinding = some (id, peer) ∧ IsChannelNumber id ∧ a.Bindable id peer
  · obtain ⟨id, peer, hrequest, hid, hbindable⟩ := hgranted
    have hsuccess := successOf_sendResponse cfg a htype
    refine ⟨_, _, handleChannelBindRequest_granted h hrequest hid hbindable, ?_,
      (h.bindChannels hid hbindable).addPermission peer.ip⟩
    refine ⟨iff_of_true hsuccess ⟨id, peer, hrequest, hid, hbindable⟩, fun hnot => absurd hsuccess hnot, ?_⟩
    intro id' peer' _ hrequest'
    obtain ⟨rfl, rfl⟩ := Prod.mk.inj (Option.some.inj (hrequest.symm.trans hrequest'))
    rw [addPermission_channels]
    exact ⟨exists_mem_bindChannels hbindable, fun c hc => mem_bindChannels hc⟩
  · obtain ⟨herror, hnot⟩ := errorOf_sendBadRequestResponse cfg a htype
    refine ⟨a, _, handleChannelBindRequest_refused h fun id peer hrequest hboth =>
      hgranted ⟨id, peer, hrequest, hboth⟩, ?_, h⟩
    exact ⟨iff_of_false hnot hgranted, fun _ => ⟨herror, rfl⟩, fun _ _ hsuccess => absurd hsuccess hnot⟩

theorem Bijective.handleTurnMessage (h : a.Bijective)
    (hhandle : a.handleTurnMessage cfg now self msg = some (a', sent)) : a'.Bijective := by
  unfold Allocation.handleTurnMessage at hhandle
  split at hhandle
  · obtain ⟨username, -, hhandle⟩ := Option.bind_eq_some_iff.mp hhandle
    cases hhandle
    exact ⟨h.range, h.ids, h.peers, h.perms⟩
  · cases hhandle
    exact ⟨h.range, h.ids, h.peers, h.perms⟩
  · exact (Prod.mk.inj (Option.some.inj hhandle)).1 ▸ h
  · have ha' : a' = (a.handleCreatePermissionRequest cfg now msg).1 := by rw [Option.some.inj hhandle]
    rcases handleCreatePermissionRequest_cases with heq | ⟨peer, heq⟩
    · rw [ha', heq]
      exact h
    · rw [ha', heq]
      exact h.addPermission peer.ip
  · next htype =>
    obtain ⟨a₁, answer, heq, -, h₁⟩ := h.handleChannelBindRequest cfg now htype
    rw [heq] at hhandle
    exact (Prod.mk.inj (Option.some.inj hhandle)).1 ▸ h₁
  · exact (Prod.mk.inj (Option.some.inj hhandle)).1 ▸ h

theorem bijective_kept (cfg : TurnConfig) : TurnServer.Kept cfg Bijective where
  new _ _ _ := ⟨fun _ h => (nomatch h), .nil, .nil, .nil⟩
  nonce _ h := ⟨h.range, h.ids, h.peers, h.perms⟩
  handled h hhandle := h.handleTurnMessage hhandle
  permission _ h := ⟨h.range, h.ids, h.peers, h.perms.sublist (List.erase_sublist.map _)⟩
  channel _ h := ⟨fun c' hc' => h.range c' (List.mem_of_mem_erase hc'), h.ids.sublist List.erase_sublist,
    h.peers.sublist List.erase_sublist, h.perms⟩

end Allocation

namespace TurnServer

/-- **The channels are a partial bijection** in the allocations of every run, and a ChannelBind
request succeeds just if its number is in range and can be bound. -/
theorem channels_bijective (cfg : TurnConfig) (trace : List (TurnServer × Event × List Sent))
    (s : TurnServer) (hrun : Run cfg trace s) (p : AllocationId) (a : Allocation)
    (ha : s.heap p = some a) :
    a.Bijective ∧ ∀ (lastNonce : List Uint8) (now : ℕ) (msg : StunMessage),
      msg.type = turnChannelBindRequest →
      ∃ a' answer, ({ a with lastNonce := lastNonce } : Allocation).handleTurnMessage cfg now p msg =
          some (a', [answer]) ∧
        Allocation.BindsExactly { a with lastNonce := lastNonce } msg a' answer := by
  have h := (Allocation.bijective_kept cfg).run hrun p a ha
  refine ⟨h, fun lastNonce now msg htype => ?_⟩
  obtain ⟨a', answer, heq, hexact, -⟩ :=
    ((Allocation.bijective_kept cfg).nonce lastNonce h).handleChannelBindRequest cfg now htype
  refine ⟨a', answer, ?_, hexact⟩
  unfold Allocation.handleTurnMessage
  rw [htype]
  exact congrArg some heq

section Example

def exampleBindRequest (number : Uint32) (peer : SocketAddress) : StunMessage :=
  ((((StunMessage.new .turn).setType turnChannelBindRequest).addAttribute
    ⟨attrChannelNumber, .uint32 number⟩).1.addAttribute ⟨attrXorPeerAddress, .xorAddress peer⟩).1

def exampleOtherPeer : SocketAddress := .ofIP (.v4 0x05050506) 2000

theorem channels_bijective_bound :
    exampleBoundAllocation.Bijective ∧
      ∃ a' answer, ({ exampleBoundAllocation with lastNonce := [] } : Allocation).handleTurnMessage
          exampleConfig 0 0 (exampleBindRequest 0x40010000 exampleOtherPeer) = some (a', [answer]) ∧
        answer.SuccessOf turnChannelBindRequest ∧
        (∃ c ∈ a'.channels, c.id = 0x4001 ∧ c.peer.equal exampleOtherPeer = true) ∧
        exampleBoundChannel ∈ a'.channels := by
  obtain ⟨hbijective, hexact⟩ := channels_bijective exampleConfig _ exampleBound run_exampleBound 0
    exampleBoundAllocation exampleBound_channel.2.2.1
  obtain ⟨a', answer, heq, hbinds⟩ := hexact [] 0 (exampleBindRequest 0x40010000 exampleOtherPeer) (by decide +kernel)
  have hchannels : exampleBoundAllocation.channels = [exampleBoundChannel] := by decide +kernel
  have hrequest : (exampleBindRequest 0x40010000 exampleOtherPeer).requestedBinding =
      some (0x4001, exampleOtherPeer) := by decide +kernel
  have hsame (a : Allocation) : ({ a with lastNonce := [] } : Allocation).channels = a.channels := rfl
  have hfree : Allocation.Bindable { exampleBoundAllocation with lastNonce := [] } 0x4001 exampleOtherPeer := by
    left
    intro c hc
    rw [hsame, hchannels, List.mem_singleton] at hc
    rw [hc]
    decide +kernel
  have hsuccess := hbinds.success.mpr ⟨0x4001, exampleOtherPeer, hrequest, by decide, hfree⟩
  obtain ⟨hbound, hothers⟩ := hbinds.bound 0x4001 exampleOtherPeer hsuccess hrequest
  refine ⟨hbijective, a', answer, heq, hsuccess, hbound, (hothers exampleBoundChannel (by decide)).mpr ?_⟩
  rw [hsame, hchannels]
  exact List.mem_singleton_self _

def exampleLowBind : StunMessage := exampleBindRequest 0x3fff0000 examplePeer

/-- **A number out of range is refused**, though it and the peer are unbound. -/
theorem channelBind_out_of_range :
    (∃ trace, Run exampleConfig trace exampleServer) ∧ ∃ a, exampleServer.heap 0 = some a ∧
      exampleLowBind.requestedBinding = some (0x3fff, examplePeer) ∧ a.Bindable 0x3fff examplePeer ∧
      ∃ answer, a.handleTurnMessage exampleConfig 0 0 exampleLowBind = some (a, [answer]) ∧
        answer.ErrorOf turnChannelBindRequest ∧ ¬ answer.SuccessOf turnChannelBindRequest := by
  refine ⟨run_exampleServer, ?_⟩
  obtain ⟨trace, hrun⟩ := run_exampleServer
  have hchannels : (exampleServer.heap 0).map Allocation.channels = some [] := by decide +kernel
  obtain ⟨a, ha, hnone⟩ := Option.map_eq_some_iff.mp hchannels
  have hrequest : exampleLowBind.requestedBinding = some (0x3fff, examplePeer) := by decide +kernel
  have htype : exampleLowBind.type = turnChannelBindRequest := by decide +kernel
  have hrefused : ∀ id peer, exampleLowBind.requestedBinding = some (id, peer) →
      ¬ (IsChannelNumber id ∧ a.Bindable id peer) := by
    intro id peer hrequest'
    obtain ⟨rfl, rfl⟩ := Prod.mk.inj (Option.some.inj (hrequest.symm.trans hrequest'))
    exact fun h => absurd h.1 (by decide)
  refine ⟨a, ha, hrequest, .inl fun c hc => absurd hc (by rw [hnone]; exact List.not_mem_nil), _, ?_,
    Allocation.errorOf_sendBadRequestResponse exampleConfig a htype⟩
  unfold Allocation.handleTurnMessage
  rw [htype]
  exact congrArg some (Allocation.handleChannelBindRequest_refused
    ((Allocation.bijective_kept exampleConfig).run hrun 0 a ha) hrefused)

end Example

end TurnServer

end Libjingle
