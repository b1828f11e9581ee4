import Libjingle.Stun.Attributes
import Libjingle.Turn.Authorization

/-!
# What the handlers of allocations are called for

Main results: **`onInternalPacket_handling`**, **`Kept.run`**.
-/

variable {reason : List Uint8}

namespace Libjingle

open Lib StunMessage

/-- The lifetime that a success response announces. -/
def Sent.lifetime : Sent → Option ℕ
  | stun _ msg =>
    if getStunSuccessResponseType stunAllocateRequest = some msg.type ∨
        getStunSuccessResponseType turnRefreshRequest = some msg.type then
      (msg.getValue attrLifetime).map BitVec.toNat
    else none
  | _ => none

/-! ## Responses without a lifetime -/

section Responses

variable {cfg : TurnConfig} {req resp msg : StunMessage} {conn : Connection}

@[simp] theorem type_withSoftware : (cfg.withSoftware msg).type = msg.type := by
  unfold TurnConfig.withSoftware
  split_ifs
  · exact addAttribute_type
  · rfl

theorem type_initResponse (kind : MessageClass) (h : isStunRequestType msg.type = true) :
    (initResponse msg (.new kind)).type = msg.type ||| 0x100 := by
  unfold initResponse getStunSuccessResponseType
  rw [if_pos h]
  exact setTransactionID_type

theorem type_initErrorResponse {code : ℕ} {kind : MessageClass} :
    (initErrorResponse req code reason (.new kind)).type = 0 ∨
      (initErrorResponse req code reason (.new kind)).type = req.type ||| 0x110 := by
  unfold initErrorResponse getStunErrorResponseType
  split_ifs
  · exact .inr (by simp [setType])
  · exact .inl rfl

theorem lifetime_none (type : Uint16) (htype : msg.type = 0 ∨ msg.type = type ||| 0x110) :
    (Sent.stun conn msg).lifetime = none := by
  refine if_neg ?_
  rcases htype with h | h <;> rw [h]
  · decide
  · rintro (heq | heq)
    · exact absurd (congrArg (fun t : Uint16 => t.getLsbD 4) (Option.some.inj heq))
        (by simp [stunAllocateRequest])
    · exact absurd (congrArg (fun t : Uint16 => t.getLsbD 4) (Option.some.inj heq))
        (by simp [turnRefreshRequest])

@[simp] theorem lifetime_sendErrorResponse {code : ℕ} :
    (cfg.sendErrorResponse conn req code reason).lifetime = none := by
  refine lifetime_none req.type ?_
  rw [type_withSoftware]
  exact type_initErrorResponse

@[simp] theorem lifetime_sendErrorResponseWithRealmAndNonce {now code : ℕ} :
    (cfg.sendErrorResponseWithRealmAndNonce now conn req code reason).lifetime = none := by
  refine lifetime_none req.type ?_
  rw [type_withSoftware, addAttribute_type, addAttribute_type]
  exact type_initErrorResponse

end Responses

namespace TurnServer

variable {cfg : TurnConfig} {s s' : TurnServer} {conn : Connection} {msg : StunMessage}
  {packet : RawPacket} {key : List Uint8} {external : Option SocketAddress} {sent : List Sent}
  {p : AllocationId} {a a' : Allocation}

theorem lifetime_handleBindingRequest (h : msg.type = stunBindingRequest) :
    (handleBindingRequest cfg conn msg).lifetime = none := by
  have htype : (initResponse msg (.new .stun)).type = 0x0101#16 := by
    rw [type_initResponse _ (by rw [h]; decide), h]
    decide
  refine if_neg ?_
  rw [type_withSoftware, addAttribute_type, htype]
  decide

/-! ## Packets -/

/-- The branch for a retransmitted Allocate request. -/
structure Retransmits (cfg : TurnConfig) (s : TurnServer) (conn : Connection) (packet : RawPacket)
    (a : Allocation) (msg : StunMessage) : Prop where
  read : StunMessage.read .turn packet.bytes = some (msg, [])
  type : msg.type = stunAllocateRequest
  authorized : ∃ s' sent, s.checkAuthorization cfg conn msg packet a.key = some (s', sent, true)
  transaction : msg.transactionId = a.transactionId
  username : msg.getString attrUsername = some a.username

/-- What the server may do with a packet of a client. -/
inductive Handling (cfg : TurnConfig) (s : TurnServer) (conn : Connection) (packet : RawPacket) :
    TurnServer → List Sent → Prop where
  | other {s' : TurnServer} {sent : List Sent} :
      (s' = s ∨ ∃ p a nonce, s.heap p = some a ∧ s' = s.store p (some { a with lastNonce := nonce })) →
      (∀ d ∈ sent, d.lifetime = none) → Handling cfg s conn packet s' sent
  | existing {p : AllocationId} {a a' : Allocation} {nonce : List Uint8} {msg : StunMessage}
      {sent : List Sent} :
      s.findAllocation conn = some p → s.heap p = some a →
      (msg.type = stunAllocateRequest → Retransmits cfg s conn packet a msg) →
      ({ a with lastNonce := nonce } : Allocation).handleTurnMessage cfg s.now p msg = some (a', sent) →
      Handling cfg s conn packet (s.store p (some a')) sent
  | created {externalAddr : SocketAddress} {key : List Uint8} {a : Allocation} {msg : StunMessage}
      {sent : List Sent} :
      s.findAllocation conn = none → msg.type = stunAllocateRequest →
      ({ conn, externalAddr, key } : Allocation).handleTurnMessage cfg s.now s.next msg = some (a, sent) →
      Handling cfg s conn packet (s.create conn a) sent

theorem handling_nothing : Handling cfg s conn packet s [] := .other (.inl rfl) fun _ hd => nomatch hd

theorem handling_refused {d : Sent} (h : d.lifetime = none) : Handling cfg s conn packet s [d] :=
  .other (.inl rfl) (List.forall_mem_singleton.mpr h)

theorem handleAllocateRequest_handling (hfind : s.findAllocation conn = none) (htype : msg.type = stunAllocateRequest)
    (h : s.handleAllocateRequest cfg conn msg key external = some (s', sent)) :
    Handling cfg s conn packet s' sent := by
  unfold handleAllocateRequest at h
  split at h
  · cases h
    exact handling_refused lifetime_sendErrorResponse
  · dsimp only at h
    split_ifs at h with hproto
    · cases h
      exact handling_refused lifetime_sendErrorResponse
    · split at h
      · next s₁ p hcreate =>
        obtain ⟨ext, -, hcreate⟩ := Option.bind_eq_some_iff.mp hcreate
        cases hcreate
        obtain ⟨a, a', ha, hhandle, rfl⟩ := handleTurnMessage_eq_some h
        simp only [store_heap, if_true] at ha
        cases ha
        have hcreated : Handling cfg s conn packet (s.create conn a') sent := .created hfind htype hhandle
        rwa [show s.create conn a' = _ from congrArg (fun t : TurnServer => { t with
          allocations := s.allocations.set Connection.less conn s.next, next := s.next + 1 })
          (store_store (s := s) (p := s.next) (some _) (some a')).symm] at hcreated
      · cases h
        exact handling_refused lifetime_sendErrorResponse

theorem dispatch_handling {s₁ : TurnServer} (hread : StunMessage.read .turn packet.bytes = some (msg, []))
    (hok : isStunRequestType msg.type = true → ∀ p a, s.findAllocation conn = some p → s.heap p = some a →
      ∃ s' sent, s.checkAuthorization cfg conn msg packet a.key = some (s', sent, true))
    (hs₁ : s₁ = s ∨ ∃ p a nonce, s.findAllocation conn = some p ∧ s.heap p = some a ∧
      s₁ = s.store p (some { a with lastNonce := nonce }))
    (h : s₁.dispatch cfg conn msg key (s.findAllocation conn) external = some (s', sent)) :
    Handling cfg s conn packet s' sent := by
  have hother {d : Sent} (hd : d.lifetime = none) : Handling cfg s conn packet s₁ [d] := by
    refine .other ?_ (List.forall_mem_singleton.mpr hd)
    exact hs₁.imp_right fun ⟨p, a, nonce, _, ha, heq⟩ => ⟨p, a, nonce, ha, heq⟩
  -- the allocation is the same in both states, but for the nonce
  have hexisting {p : AllocationId} {a₁ : Allocation} (hfind : s.findAllocation conn = some p)
      (ha₁ : s₁.heap p = some a₁)
      (hretransmits : msg.type = stunAllocateRequest →
        msg.transactionId = a₁.transactionId ∧ msg.getString attrUsername = some a₁.username)
      (h : s₁.handleTurnMessage cfg p msg = some (s', sent)) : Handling cfg s conn packet s' sent := by
    obtain ⟨a₂, a', ha₂, hhandle, rfl⟩ := handleTurnMessage_eq_some h
    obtain rfl := Option.some.inj (ha₁.symm.trans ha₂)
    rcases hs₁ with rfl | ⟨q, a, nonce, hq, ha, rfl⟩
    · have hsame : { a₁ with lastNonce := a₁.lastNonce } = a₁ := rfl
      rw [← hsame] at hhandle
      refine .existing hfind ha₁ (fun htype => ?_) hhandle
      exact ⟨hread, htype, hok (by rw [htype]; decide) p a₁ hfind ha₁, (hretransmits htype).1,
        (hretransmits htype).2⟩
    · obtain rfl := Option.some.inj (hq.symm.trans hfind)
      simp only [store_heap, if_true] at ha₁
      cases ha₁
      rw [store_store]
      refine .existing hfind ha (fun htype => ?_) hhandle
      exact ⟨hread, htype, hok (by rw [htype]; decide) q a hfind ha, (hretransmits htype).1,
        (hretransmits htype).2⟩
  unfold dispatch at h
  cases hfind : s.findAllocation conn with
  | none =>
    obtain rfl : s₁ = s := by
      rcases hs₁ with rfl | ⟨q, -, -, hq, -⟩
      · rfl
      · rw [hfind] at hq
        cases hq
    simp only [hfind] at h
    split_ifs at h with htype
    · exact handleAllocateRequest_handling hfind htype h
    · cases h
      exact handling_refused lifetime_sendErrorResponse
  | some p =>
    simp only [hfind] at h
    obtain ⟨a, ha, h⟩ := Option.bind_eq_some_iff.mp h
    split_ifs at h with hretry hreq
    · obtain ⟨username, husername, h⟩ := Option.bind_eq_some_iff.mp h
      split_ifs at h with huser
      · cases h
        exact hother lifetime_sendErrorResponse
      · refine hexisting hfind ha (fun htype => ⟨?_, by rw [husername, not_not.mp huser]⟩) h
        exact hretry.resolve_left (not_not.mpr htype)
    · exact hexisting hfind ha (fun htype => absurd (by rw [htype]; decide) hreq) h
    · cases h
      exact hother lifetime_sendErrorResponse

theorem Refusal.lifetime {d : Sent} (h : Refusal cfg s conn msg d) : d.lifetime = none := by
  cases h with
  | plain => exact lifetime_sendErrorResponse
  | challenge => exact lifetime_sendErrorResponseWithRealmAndNonce

theorem handleStunMessage_handling (h : s.handleStunMessage cfg conn packet external = some (s', sent)) :
    Handling cfg s conn packet s' sent := by
  unfold handleStunMessage at h
  split at h
  · cases h
    exact handling_nothing
  · next msg rest hread =>
    split_ifs at h with hrest hbinding hreq
    · cases h
      exact handling_nothing
    · cases h
      exact handling_refused (lifetime_handleBindingRequest hbinding)
    all_goals
      obtain rfl : rest = [] := List.eq_nil_of_length_eq_zero (by omega)
      obtain ⟨key, hkey, h⟩ := Option.bind_eq_some_iff.mp h
    · obtain ⟨⟨s₁, sent₁, ok⟩, hcheck, h⟩ := Option.bind_eq_some_iff.mp h
      dsimp only at h
      cases ok with
      | false =>
        obtain rfl := checkAuthorization_false hcheck
        cases h
        exact .other (.inl rfl) fun d hd => (checkAuthorization_sent hcheck d hd).lifetime
      | true =>
        rw [if_pos rfl] at h
        -- the key of an allocation is its own
        have hok : isStunRequestType msg.type = true → ∀ p a, s.findAllocation conn = some p →
            s.heap p = some a →
            ∃ s' sent, s.checkAuthorization cfg conn msg packet a.key = some (s', sent, true) := by
          intro _ p a hfind ha
          simp only [messageKey, hfind, ha, Option.map_some] at hkey
          cases hkey
          exact ⟨s₁, sent₁, hcheck⟩
        obtain ⟨nonce, -, ⟨-, rfl⟩ | ⟨p, a, hfind, ha, rfl⟩⟩ := checkAuthorization_true hkey hcheck
        · exact dispatch_handling hread hok (.inl rfl) h
        · exact dispatch_handling hread hok (.inr ⟨p, a, nonce, hfind, ha, rfl⟩) h
    · exact dispatch_handling hread (fun hreq' => absurd hreq' hreq) (.inl rfl) h

theorem lifetime_handleChannelData {data : List Uint8} {d : Sent} (hd : d ∈ a.handleChannelData p data) :
    d.lifetime = none := by
  unfold Allocation.handleChannelData at hd
  split at hd
  · rw [List.mem_singleton.mp hd]
    rfl
  · cases hd

/-- **A packet of a client**. -/
theorem onInternalPacket_handling {socket : SocketId} {addr : SocketAddress}
    (h : s.onInternalPacket cfg socket addr packet external = some (s', sent)) :
    (s' = s ∧ ∀ d ∈ sent, d.lifetime = none) ∨ ∃ entry, s.findSocket socket = some entry ∧
      Handling cfg s ⟨addr, entry.remote, entry.proto, socket⟩ packet s' sent := by
  unfold onInternalPacket at h
  split_ifs at h with hsize hstun
  · cases h
    exact .inl ⟨rfl, fun d hd => absurd hd List.not_mem_nil⟩
  · obtain ⟨entry, hentry, h⟩ := Option.bind_eq_some_iff.mp h
    exact .inr ⟨entry, hentry, handleStunMessage_handling h⟩
  · obtain ⟨entry, hentry, h⟩ := Option.bind_eq_some_iff.mp h
    dsimp only at h
    split at h
    · cases h
      exact .inl ⟨rfl, fun d hd => absurd hd List.not_mem_nil⟩
    · obtain ⟨a, -, h⟩ := Option.bind_eq_some_iff.mp h
      cases h
      exact .inl ⟨rfl, fun d hd => lifetime_handleChannelData hd⟩

/-! ## Properties of allocations -/

/-- A property that new allocations have, and that every handler and every expiry keeps. -/
structure Kept (cfg : TurnConfig) (P : Allocation → Prop) : Prop where
  new : ∀ conn externalAddr key, P { conn, externalAddr, key }
  nonce : ∀ {a} lastNonce, P a → P { a with lastNonce := lastNonce }
  handled : ∀ {now self a msg a' sent}, P a →
    a.handleTurnMessage cfg now self msg = some (a', sent) → P a'
  permission : ∀ {a} perm, P a → P { a with perms := a.perms.erase perm }
  channel : ∀ {a} channel, P a → P { a with channels := a.channels.erase channel }

def Each (P : Allocation → Prop) (s : TurnServer) : Prop := ∀ p a, s.heap p = some a → P a

variable {P : Allocation → Prop}

theorem Each.store {x : Option Allocation} (h : s.Each P) (hx : ∀ a, x = some a → P a) : (s.store p x).Each P := by
  intro q a ha
  rw [store_heap] at ha
  split_ifs at ha with hq
  · exact hx a ha
  · exact h q a ha

theorem Kept.handling (hkept : Kept cfg P) (h : s.Each P) (hhandling : Handling cfg s conn packet s' sent) :
    s'.Each P := by
  cases hhandling with
  | other hs' _ =>
    rcases hs' with rfl | ⟨p, a, nonce, ha, rfl⟩
    · exact h
    · exact h.store fun x hx => Option.some.inj hx ▸ hkept.nonce nonce (h p a ha)
  | existing _ ha _ hhandle =>
    exact h.store fun x hx => Option.some.inj hx ▸ hkept.handled (hkept.nonce _ (h _ _ ha)) hhandle
  | created _ _ hhandle =>
    have hstore := h.store (p := s.next) fun x hx =>
      Option.some.inj hx ▸ hkept.handled (hkept.new _ _ _) hhandle
    exact hstore

theorem Kept.step (hkept : Kept cfg P) {ev : Event} (h : s.Each P)
    (hstep : s.step cfg ev = some (s', sent)) : s'.Each P := by
  cases ev with
  | internalPacket socket addr packet external =>
    rcases onInternalPacket_handling hstep with ⟨rfl, -⟩ | ⟨entry, -, hhandling⟩
    · exact h
    · exact hkept.handling h hhandling
  | externalPacket p data addr id =>
    obtain ⟨a, -, hstep⟩ := Option.bind_eq_some_iff.mp hstep
    exact (Prod.mk.inj (Option.some.inj hstep)).1 ▸ h
  | addInternalSocket entry => exact (Prod.mk.inj (Option.some.inj hstep)).1 ▸ h
  | internalSocketClose socket => exact (Prod.mk.inj (Option.some.inj hstep)).1 ▸ h
  | allocationTimeout p =>
    obtain ⟨a, ha, hstep⟩ := Option.bind_eq_some_iff.mp hstep
    obtain ⟨s₁, hdestroyed, hstep⟩ := Option.bind_eq_some_iff.mp hstep
    cases hstep
    obtain ⟨-, -, rfl⟩ := onAllocationDestroyed_eq_some hdestroyed
    exact Each.store (s := { s with serverSockets := _, allocations := _ }) h fun x hx => nomatch hx
  | permissionTimeout p perm =>
    obtain ⟨a, ha, hstep⟩ := Option.bind_eq_some_iff.mp hstep
    cases hstep
    exact h.store fun x hx => Option.some.inj hx ▸ hkept.permission perm (h p a ha)
  | channelTimeout p channel =>
    obtain ⟨a, ha, hstep⟩ := Option.bind_eq_some_iff.mp hstep
    cases hstep
    exact h.store fun x hx => Option.some.inj hx ▸ hkept.channel channel (h p a ha)
  | tick ms => exact (Prod.mk.inj (Option.some.inj hstep)).1 ▸ h

theorem Kept.run (hkept : Kept cfg P) {trace : List (TurnServer × Event × List Sent)}
    (hrun : Run cfg trace s) : s.Each P := by
  induction hrun with
  | start => exact fun p a ha => nomatch ha
  | step _ _ hstep ih => exact hkept.step ih hstep

end TurnServer

end Libjingle
