import Libjingle.Stun.Framing
import Libjingle.Turn.Handling
import Libjingle.Turn.Permissions

/-!
# The lifetime of an allocation

Main result: **`lifetime_honoured_iff`**.
-/

variable {socket : SocketId} {external : Option SocketAddress} {entry : InternalSocket} {addr : SocketAddress}
  {resp : StunMessage} {e : TurnServer × Event × List Sent} {due : ℕ}

namespace Libjingle

open Lib StunMessage

/-! ## What handlers announce -/

namespace Allocation

variable {cfg : TurnConfig} {now : ℕ} {self : AllocationId} {a a' : Allocation} {msg : StunMessage}
  {sent : List Sent}

theorem computeLifetime_lt (msg : StunMessage) : computeLifetime msg < 2 ^ 32 := by
  unfold computeLifetime
  dsimp only
  split
  · decide
  · split <;> omega

theorem initResponse_spec (msg : StunMessage) :
    (initResponse msg (.new .turn)).kind = .turn ∧ (initResponse msg (.new .turn)).attrs = [] := by
  unfold initResponse
  split
  · exact ⟨rfl, rfl⟩
  · exact ⟨setTransactionID_kind, setTransactionID_attrs⟩

theorem getAttribute_sendResponse {key : List Uint8} :
    (cfg.withSoftware (resp.addMessageIntegrity cfg.hmacSha1 key)).getAttribute attrLifetime =
      resp.getAttribute attrLifetime := by
  have hsigned : (resp.addMessageIntegrity cfg.hmacSha1 key).getAttribute attrLifetime =
      resp.getAttribute attrLifetime := getAttribute_addMessageIntegrity (by decide)
  unfold TurnConfig.withSoftware
  split_ifs
  · have hsoftware : attrSoftware ≠ attrLifetime := by decide
    exact (getAttribute_skip hsoftware).trans hsigned
  · exact hsigned

theorem lifetime_sendResponse {secs : ℕ} (htype : getStunSuccessResponseType stunAllocateRequest = some resp.type ∨
      getStunSuccessResponseType turnRefreshRequest = some resp.type)
    (hkind : resp.kind = .turn) (hnone : resp.getAttribute attrLifetime = none) (hsecs : secs < 2 ^ 32) :
    (a.sendResponse cfg
      (resp.addAttribute ⟨attrLifetime, .uint32 (BitVec.ofNat 32 secs)⟩).1).lifetime = some secs := by
  have hfirst : (resp.addAttribute ⟨attrLifetime, .uint32 (BitVec.ofNat 32 secs)⟩).1.getAttribute
      attrLifetime = some ⟨attrLifetime, .uint32 (BitVec.ofNat 32 secs)⟩ :=
    getAttribute_first (by rw [hkind]; rfl) hnone
  unfold sendResponse Sent.lifetime
  dsimp only
  rw [type_withSoftware, addMessageIntegrity_type, addAttribute_type, if_pos htype, getValue, getUInt32,
    getAttribute_sendResponse, hfirst]
  simp only [Option.map_some, BitVec.toNat_ofNat, Nat.mod_eq_of_lt hsecs]

theorem lifetime_sendResponse_none (hallocate : getStunSuccessResponseType stunAllocateRequest ≠ some resp.type)
    (hrefresh : getStunSuccessResponseType turnRefreshRequest ≠ some resp.type) :
    (a.sendResponse cfg resp).lifetime = none := by
  refine if_neg ?_
  rw [type_withSoftware, addMessageIntegrity_type]
  exact not_or.mpr ⟨hallocate, hrefresh⟩

theorem handleAllocateRequest_spec (htype : msg.type = stunAllocateRequest)
    (h : a.handleAllocateRequest cfg now msg = some (a', sent)) :
    a'.timers = a.timers ++ [now + computeLifetime msg * 1000] ∧
      ∃ d, sent = [d] ∧ d.lifetime = some (computeLifetime msg) := by
  obtain ⟨username, -, h⟩ := Option.bind_eq_some_iff.mp h
  cases h
  refine ⟨rfl, _, rfl, ?_⟩
  refine lifetime_sendResponse (.inl ?_) ?_ ?_ (computeLifetime_lt msg)
  · rw [addAttribute_type, addAttribute_type, type_initResponse _ (by rw [htype]; decide), htype]
    decide
  · rw [addAttribute_kind, addAttribute_kind]
    exact (initResponse_spec msg).1
  · have hmapped : attrXorMappedAddress ≠ attrLifetime := by decide
    have hrelayed : attrXorRelayedAddress ≠ attrLifetime := by decide
    rw [getAttribute_skip hrelayed, getAttribute_skip hmapped, getAttribute, (initResponse_spec msg).2]
    rfl

theorem handleRefreshRequest_spec (cfg : TurnConfig) (now : ℕ) (a : Allocation)
    (htype : msg.type = turnRefreshRequest) :
    (a.handleRefreshRequest cfg now msg).1.timers = [now + computeLifetime msg * 1000] ∧
      ∃ d, (a.handleRefreshRequest cfg now msg).2 = [d] ∧ d.lifetime = some (computeLifetime msg) := by
  refine ⟨rfl, _, rfl, ?_⟩
  refine lifetime_sendResponse (.inr ?_) (initResponse_spec msg).1 ?_ (computeLifetime_lt msg)
  · rw [type_initResponse _ (by rw [htype]; decide), htype]
    decide
  · rw [getAttribute, (initResponse_spec msg).2]
    rfl

@[simp] theorem addPermission_timers (addr : IPAddress) : (a.addPermission now addr).timers = a.timers := by
  unfold addPermission
  split_ifs <;> rfl

theorem lifetime_sendBadRequestResponse : (a.sendBadRequestResponse cfg msg).lifetime = none :=
  lifetime_sendErrorResponse

theorem timers_handleTurnMessage (h : a.handleTurnMessage cfg now self msg = some (a', sent)) :
    (a'.timers = a.timers ∧ ∀ d ∈ sent, d.lifetime = none) ∨
      (∃ d, sent = [d] ∧ d.lifetime = some (computeLifetime msg)) ∧
        (a'.timers = [now + computeLifetime msg * 1000] ∨
          msg.type = stunAllocateRequest ∧
            a'.timers = a.timers ++ [now + computeLifetime msg * 1000]) := by
  unfold handleTurnMessage at h
  split at h
  · next htype =>
    obtain ⟨htimers, hsent⟩ := handleAllocateRequest_spec htype h
    exact .inr ⟨hsent, .inr ⟨htype, htimers⟩⟩
  · next htype =>
    obtain ⟨htimers, hsent⟩ := handleRefreshRequest_spec cfg now a htype
    rw [Option.some.inj h] at htimers hsent
    exact .inr ⟨hsent, .inl htimers⟩
  · cases h
    refine .inl ⟨rfl, fun d hd => ?_⟩
    unfold handleSendIndication at hd
    split at hd
    · split_ifs at hd
      · rw [List.mem_singleton.mp hd]
        rfl
      · cases hd
    · cases hd
  · next htype =>
    unfold handleCreatePermissionRequest at h
    split at h
    · cases h
      exact .inl ⟨rfl, List.forall_mem_singleton.mpr lifetime_sendBadRequestResponse⟩
    · cases h
      refine .inl ⟨addPermission_timers _, List.forall_mem_singleton.mpr ?_⟩
      have hrequest : isStunRequestType msg.type = true := by rw [htype]; decide
      have hresp := type_initResponse .turn hrequest
      exact lifetime_sendResponse_none (by rw [hresp, htype]; decide) (by rw [hresp, htype]; decide)
  · next htype =>
    unfold handleChannelBindRequest at h
    have hrequest : isStunRequestType msg.type = true := by rw [htype]; decide
    have hresp := type_initResponse .turn hrequest
    split at h
    · dsimp only at h
      split_ifs at h
      · cases h
        exact .inl ⟨rfl, List.forall_mem_singleton.mpr lifetime_sendBadRequestResponse⟩
      · cases h
        exact .inl ⟨rfl, List.forall_mem_singleton.mpr lifetime_sendBadRequestResponse⟩
      all_goals
        cases h
        refine .inl ⟨addPermission_timers _, List.forall_mem_singleton.mpr ?_⟩
        exact lifetime_sendResponse_none (by rw [hresp, htype]; decide) (by rw [hresp, htype]; decide)
    · cases h
      exact .inl ⟨rfl, List.forall_mem_singleton.mpr lifetime_sendBadRequestResponse⟩
  · cases h
    exact .inl ⟨rfl, fun d hd => absurd hd List.not_mem_nil⟩

end Allocation

/-! ## Pending messages -/

/-- One of the messages is due just if the time `due` has come. -/
def Due (now : ℕ) (timers : List ℕ) (due : ℕ) : Prop :=
  ∀ ms, (∃ t ∈ timers, t ≤ now + ms) ↔ due ≤ now + ms

theorem due_singleton (now due : ℕ) : Due now [due] due := fun ms => by
  rw [List.exists_mem_cons_iff]
  simp

theorem Due.later {now : ℕ} {timers : List ℕ} (h : Due now timers due) (ms : ℕ) :
    Due (now + ms) timers due := fun ms' => by
  rw [Nat.add_assoc]
  exact h (ms + ms')

theorem due_append_iff (now lifetime : ℕ) (timers : List ℕ) :
    Due now (timers ++ [now + lifetime]) (now + lifetime) ↔
      lifetime = 0 ∨ ∀ t ∈ timers, now + lifetime ≤ t := by
  constructor
  · intro h
    by_contra! hnot
    obtain ⟨hpos, t, ht, hlt⟩ := hnot
    have hmax : t ≤ now + (max t now - now) := by omega
    have hdue := (h (max t now - now)).mp ⟨t, List.mem_append_left _ ht, hmax⟩
    omega
  · intro h ms
    constructor
    · rintro ⟨t, ht, hle⟩
      rcases h with hzero | hafter
      · omega
      · rcases List.mem_append.mp ht with ht | ht
        · exact (hafter t ht).trans hle
        · rwa [List.mem_singleton.mp ht] at hle
    · exact fun hle => ⟨_, List.mem_append_right _ (List.mem_singleton.mpr rfl), hle⟩

namespace TurnServer

variable {cfg : TurnConfig} {s s' : TurnServer} {conn : Connection} {packet : RawPacket}
  {sent : List Sent} {ev : Event} {p : AllocationId} {a : Allocation} {msg : StunMessage}
  {trace : List (TurnServer × Event × List Sent)}

/-- A success response: the allocation, and the end of the lifetime. -/
def announcement (s : TurnServer) : Event → List Sent → Option (AllocationId × ℕ)
  | .internalPacket socket addr _ _, sent => do
    let entry ← s.findSocket socket
    let lifetime ← sent.findSome? Sent.lifetime
    some ((s.findAllocation ⟨addr, entry.remote, entry.proto, socket⟩).getD s.next,
      s.now + lifetime * 1000)
  | _, _ => none

def announced (p : AllocationId) (trace : List (TurnServer × Event × List Sent)) : Option ℕ :=
  trace.foldl (fun due e =>
    match e.1.announcement e.2.1 e.2.2 with
    | some (q, t) => if q = p then some t else due
    | none => due) none

def later (s : TurnServer) (ms : ℕ) : TurnServer := { s with now := s.now + ms }

/-- **The timer of an allocation destroys it** when the time `due` has come, and nothing before. -/
structure ExpiresAt (cfg : TurnConfig) (s : TurnServer) (p : AllocationId) (due : ℕ) : Prop where
  comes : ∀ ms, (s.later ms).possible (.allocationTimeout p) = true ↔ due ≤ s.now + ms
  destroys : ∀ ms, ∃ s', (s.later ms).step cfg (.allocationTimeout p) = some (s', []) ∧ s'.heap p = none
  notBefore : ∀ ms ev s' sent, (s.later ms).possible ev = true → (s.later ms).step cfg ev = some (s', sent) →
    s'.heap p = none → due ≤ s.now + ms

def Honoured (cfg : TurnConfig) (trace : List (TurnServer × Event × List Sent)) (s : TurnServer) : Prop :=
  ∀ p a, s.heap p = some a → ∃ due, announced p trace = some due ∧ s.ExpiresAt cfg p due

/-- An expiry message of each allocation is due just if its lifetime has ended. -/
def Timely (trace : List (TurnServer × Event × List Sent)) (s : TurnServer) : Prop :=
  ∀ p a, s.heap p = some a → ∃ due, announced p trace = some due ∧ Due s.now a.timers due

/-- The sockets of all allocations are there. -/
def Seated (s : TurnServer) : Prop := ∀ p a, s.heap p = some a → (s.findSocket a.conn.socket).isSome = true

def ExtendsNoLifetime (cfg : TurnConfig) (s : TurnServer) : Event → Prop
  | .internalPacket socket addr packet _ =>
    ∀ entry p a msg, s.findSocket socket = some entry →
      s.findAllocation ⟨addr, entry.remote, entry.proto, socket⟩ = some p → s.heap p = some a →
      Retransmits cfg s ⟨addr, entry.remote, entry.proto, socket⟩ packet a msg →
      Allocation.computeLifetime msg = 0 ∨
        ∀ t ∈ a.timers, s.now + Allocation.computeLifetime msg * 1000 ≤ t
  | _ => True

def SparesSockets (s : TurnServer) : Event → Prop
  | .internalSocketClose socket => ∀ p a, s.heap p = some a → a.conn.socket ≠ socket
  | .allocationTimeout p =>
    ∀ a entry, s.heap p = some a → s.findSocket a.conn.socket = some entry → entry.proto ≠ .udp →
      ∀ q b, q ≠ p → s.heap q = some b → b.conn.socket ≠ a.conn.socket
  | _ => True

/-! ## The timer -/

theorem possible_allocationTimeout (ha : s.heap p = some a) (ms : ℕ) :
    (s.later ms).possible (.allocationTimeout p) = true ↔ ∃ t ∈ a.timers, t ≤ s.now + ms := by
  unfold possible later
  dsimp only
  rw [ha]
  simp

theorem exists_of_possible (h : s.possible (.allocationTimeout p) = true) : ∃ a, s.heap p = some a := by
  obtain ⟨a, ha, -⟩ := (Option.any_eq_true _ _).mp h
  exact ⟨a, ha⟩

theorem ExpiresAt.le_now (h : s.ExpiresAt cfg p due)
    (hpossible : s.possible (.allocationTimeout p) = true) : due ≤ s.now :=
  (h.comes 0).mp hpossible

theorem heap_onInternalPacket (h : s.onInternalPacket cfg socket addr packet external = some (s', sent)) :
    s'.serverSockets = s.serverSockets ∧ (∀ p a, s.heap p = some a → (s'.heap p).isSome = true) ∧
      ∀ p a', s'.heap p = some a' →
        (∃ a, s.heap p = some a ∧ a'.conn = a.conn) ∨ (s.findSocket a'.conn.socket).isSome = true := by
  rcases onInternalPacket_effect h with rfl | ⟨entry, hentry, heffect⟩
  · exact ⟨rfl, fun p a ha => by rw [ha]; rfl, fun p a' ha' => .inl ⟨a', ha', rfl⟩⟩
  have hstore (q : AllocationId) (b : Allocation) (p : AllocationId) (a : Allocation) (ha : s.heap p = some a) :
      ((s.store q (some b)).heap p).isSome = true := by
    rw [store_heap]
    split_ifs
    · rfl
    · rw [ha]
      rfl
  cases heffect with
  | nothing => exact ⟨rfl, fun p a ha => by rw [ha]; rfl, fun p a' ha' => .inl ⟨a', ha', rfl⟩⟩
  | @changed msg nonce q a b _ _ _ _ ha hb =>
    refine ⟨rfl, hstore q b, fun p a' ha' => .inl ?_⟩
    rw [store_heap] at ha'
    split_ifs at ha' with hp
    · obtain rfl := Option.some.inj ha'
      refine ⟨a, hp ▸ ha, ?_⟩
      rcases hb with rfl | ⟨-, hhandled⟩
      · rfl
      · exact hhandled.conn
    · exact ⟨a', ha', rfl⟩
  | @created msg nonce b _ _ _ _ hnew =>
    refine ⟨rfl, hstore s.next b, fun p a' ha' => ?_⟩
    have ha' : (s.store s.next (some b)).heap p = some a' := ha'
    rw [store_heap] at ha'
    split_ifs at ha'
    · obtain rfl := Option.some.inj ha'
      refine .inr ?_
      rw [hnew.1, hentry]
      rfl
    · exact .inl ⟨a', ha', rfl⟩

theorem eq_timeout_of_destroyed (ha : s.heap p = some a) (hstep : s.step cfg ev = some (s', sent))
    (hnone : s'.heap p = none) : ev = .allocationTimeout p := by
  have hstored {q : AllocationId} {b : Allocation} (h : s' = s.store q (some b)) : False := by
    rw [h, store_heap] at hnone
    split_ifs at hnone
    rw [ha] at hnone
    cases hnone
  have hsame (h : s'.heap = s.heap) : False := by
    rw [h, ha] at hnone
    cases hnone
  cases ev with
  | internalPacket socket addr packet external =>
    have hsome := (heap_onInternalPacket hstep).2.1 p a ha
    rw [hnone] at hsome
    cases hsome
  | externalPacket q data addr id =>
    obtain ⟨b, -, hstep⟩ := Option.bind_eq_some_iff.mp hstep
    cases hstep
    exact (hsame rfl).elim
  | addInternalSocket entry =>
    cases hstep
    exact (hsame rfl).elim
  | internalSocketClose socket =>
    cases hstep
    exact (hsame rfl).elim
  | allocationTimeout q =>
    obtain ⟨b, -, hstep⟩ := Option.bind_eq_some_iff.mp hstep
    obtain ⟨s₁, hdestroyed, hleft⟩ := Option.bind_eq_some_iff.mp hstep
    obtain ⟨entry, -, rfl⟩ := onAllocationDestroyed_eq_some hdestroyed
    by_cases hq : p = q
    · rw [hq]
    · rw [← (Prod.mk.inj (Option.some.inj hleft)).1, store_heap, if_neg hq] at hnone
      exact absurd (ha.symm.trans hnone) (Option.some_ne_none a)
  | permissionTimeout q perm =>
    obtain ⟨b, -, hstep⟩ := Option.bind_eq_some_iff.mp hstep
    cases hstep
    exact (hstored rfl).elim
  | channelTimeout q channel =>
    obtain ⟨b, -, hstep⟩ := Option.bind_eq_some_iff.mp hstep
    cases hstep
    exact (hstored rfl).elim
  | tick ms =>
    cases hstep
    exact (hsame rfl).elim

theorem step_allocationTimeout (ha : s.heap p = some a) (hsocket : (s.findSocket a.conn.socket).isSome = true) :
    ∃ s', s.step cfg (.allocationTimeout p) = some (s', []) ∧ s'.heap p = none := by
  obtain ⟨entry, hentry⟩ := Option.isSome_iff_exists.mp hsocket
  simp only [step, ha, onAllocationDestroyed, hentry, Option.bind_eq_bind, Option.bind_some]
  exact ⟨_, rfl, if_pos rfl⟩

theorem expiresAt_iff (ha : s.heap p = some a) :
    s.ExpiresAt cfg p due ↔ Due s.now a.timers due ∧ (s.findSocket a.conn.socket).isSome = true := by
  constructor
  · intro h
    refine ⟨fun ms => (possible_allocationTimeout ha ms).symm.trans (h.comes ms), ?_⟩
    obtain ⟨s', hstep, -⟩ := h.destroys 0
    have hstep : s.step cfg (.allocationTimeout p) = some (s', []) := hstep
    obtain ⟨a', ha', hstep⟩ := Option.bind_eq_some_iff.mp hstep
    obtain ⟨s₁, hdestroyed, -⟩ := Option.bind_eq_some_iff.mp hstep
    obtain ⟨entry, hentry, -⟩ := onAllocationDestroyed_eq_some hdestroyed
    rw [Option.some.inj (ha.symm.trans ha'), hentry]
    rfl
  · rintro ⟨hdue, hsocket⟩
    have hcomes (ms : ℕ) := (possible_allocationTimeout ha ms).trans (hdue ms)
    refine ⟨hcomes, fun ms => step_allocationTimeout (s := s.later ms) ha hsocket, ?_⟩
    intro ms ev s' sent hpossible hstep hnone
    obtain rfl := eq_timeout_of_destroyed (s := s.later ms) ha hstep hnone
    exact (hcomes ms).mp hpossible

/-- **Lifetimes are honoured exactly if the timers are timely and the sockets are there**. -/
theorem honoured_iff : Honoured cfg trace s ↔ Timely trace s ∧ s.Seated := by
  constructor
  · intro h
    have hboth (p a) (ha : s.heap p = some a) : ∃ due, announced p trace = some due ∧
        Due s.now a.timers due ∧ (s.findSocket a.conn.socket).isSome = true := by
      obtain ⟨due, hdue, hexpires⟩ := h p a ha
      exact ⟨due, hdue, (expiresAt_iff ha).mp hexpires⟩
    refine ⟨fun p a ha => ?_, fun p a ha => ?_⟩
    · obtain ⟨due, hdue, hpending, -⟩ := hboth p a ha
      exact ⟨due, hdue, hpending⟩
    · obtain ⟨-, -, -, hsocket⟩ := hboth p a ha
      exact hsocket
  · rintro ⟨htimely, hseated⟩ p a ha
    obtain ⟨due, hdue, hpending⟩ := htimely p a ha
    exact ⟨due, hdue, (expiresAt_iff ha).mpr ⟨hpending, hseated p a ha⟩⟩

/-! ## One step -/

theorem announced_append (p : AllocationId) (e : TurnServer × Event × List Sent) :
    announced p (trace ++ [e]) =
      match e.1.announcement e.2.1 e.2.2 with
      | some (q, t) => if q = p then some t else announced p trace
      | none => announced p trace := by
  unfold announced
  rw [List.foldl_append]
  rfl

theorem announced_of_none (h : e.1.announcement e.2.1 e.2.2 = none) (p : AllocationId) :
    announced p (trace ++ [e]) = announced p trace := by
  rw [announced_append, h]

theorem Timely.quiet (h : Timely trace s) (hnone : s.announcement ev sent = none) (hnow : s.now ≤ s'.now)
    (hheap : ∀ p a', s'.heap p = some a' → ∃ a, s.heap p = some a ∧ a'.timers = a.timers) :
    Timely (trace ++ [(s, ev, sent)]) s' := by
  intro p a' ha'
  obtain ⟨a, ha, htimers⟩ := hheap p a' ha'
  obtain ⟨due, hdue, hpending⟩ := h p a ha
  obtain ⟨ms, hms⟩ := Nat.exists_eq_add_of_le hnow
  refine ⟨due, (announced_of_none hnone p).trans hdue, ?_⟩
  rw [htimers, hms]
  exact hpending.later ms

theorem Timely.answered_iff (h : Timely trace s) (s' : TurnServer)
    (hann : s.announcement ev sent = some (p, due)) (hnow : s'.now = s.now) (hp : s'.heap p = some a)
    (hother : ∀ q, q ≠ p → s'.heap q = s.heap q) :
    Timely (trace ++ [(s, ev, sent)]) s' ↔ Due s.now a.timers due := by
  have hannounced (q : AllocationId) : announced q (trace ++ [(s, ev, sent)]) =
      if p = q then some due else announced q trace := by
    rw [announced_append]
    dsimp only
    rw [hann]
  unfold Timely
  rw [hnow]
  constructor
  · intro h'
    obtain ⟨due', hdue', hpending⟩ := h' p a hp
    rw [hannounced, if_pos rfl] at hdue'
    rwa [Option.some.inj hdue']
  · intro hpending q a' ha'
    rw [hannounced]
    by_cases hq : p = q
    · subst hq
      obtain rfl := Option.some.inj (hp.symm.trans ha')
      exact ⟨due, if_pos rfl, hpending⟩
    · rw [if_neg hq]
      exact h q a' (hother q (Ne.symm hq) ▸ ha')

theorem announcement_none (h : ∀ d ∈ sent, d.lifetime = none) : s.announcement ev sent = none := by
  cases ev with
  | internalPacket socket addr packet external =>
    have hnone : sent.findSome? Sent.lifetime = none := List.findSome?_eq_none_iff.mpr h
    unfold announcement
    dsimp only
    rw [hnone]
    cases s.findSocket socket <;> rfl
  | _ => rfl

theorem announcement_some (addr : SocketAddress) (packet : RawPacket)
    (external : Option SocketAddress) {lifetime : ℕ} {d : Sent}
    (hentry : s.findSocket socket = some entry)
    (hsent : sent = [d]) (hd : d.lifetime = some lifetime) :
    s.announcement (.internalPacket socket addr packet external) sent =
      some ((s.findAllocation ⟨addr, entry.remote, entry.proto, socket⟩).getD s.next,
        s.now + lifetime * 1000) := by
  unfold announcement
  dsimp only
  rw [hentry, hsent]
  simp only [List.findSome?_cons, hd]
  rfl

theorem type_of_read {kind : MessageClass} {rest : List Uint8}
    (h : StunMessage.read kind packet.bytes = some (msg, rest)) :
    turnChannelHeaderSize ≤ packet.size ∧ getBE16 packet.data 0 = msg.type := by
  obtain ⟨rounds, hrounds⟩ := rounds_of_read h
  obtain ⟨area, hheader, -⟩ := readRounds_eq_some.mp hrounds
  obtain ⟨cookie, id, hbytes, hcookie, hid, -⟩ := readHeader_eq_some.mp hheader
  have hlength := congrArg List.length hbytes
  rw [RawPacket.bytes, length_block] at hlength
  simp only [List.length_append, length_writeUInt16, hcookie, hid] at hlength
  refine ⟨by rw [hlength]; unfold turnChannelHeaderSize; omega, ?_⟩
  rw [RawPacket.bytes, List.append_assoc, List.append_assoc, List.append_assoc] at hbytes
  have htype := (block_eq_append hbytes).1
  rw [length_writeUInt16] at htype
  rw [getBE16, ← htype]
  exact ofNat_wordBytes 2 msg.type

theorem onInternalPacket_retransmits (hentry : s.findSocket socket = some entry)
    (hfind : s.findAllocation ⟨addr, entry.remote, entry.proto, socket⟩ = some p)
    (ha : s.heap p = some a)
    (hr : Retransmits cfg s ⟨addr, entry.remote, entry.proto, socket⟩ packet a msg)
    (h : s.onInternalPacket cfg socket addr packet external = some (s', sent)) :
    ∃ a', s' = s.store p (some a') ∧
      a'.timers = a.timers ++ [s.now + Allocation.computeLifetime msg * 1000] ∧
      ∃ d, sent = [d] ∧ d.lifetime = some (Allocation.computeLifetime msg) := by
  obtain ⟨hsize, htype⟩ := type_of_read hr.read
  have hrequest : isStunRequestType msg.type = true := by rw [hr.type]; decide
  have hkey : s.messageKey cfg msg (some p) = some a.key := by
    simp only [messageKey, ha, Option.map_some]
  obtain ⟨s₁, sent₁, hcheck⟩ := hr.authorized
  unfold onInternalPacket at h
  rw [if_neg (Nat.not_lt.mpr hsize), hentry, htype, hr.type] at h
  simp only [Option.bind_eq_bind, Option.bind_some] at h
  rw [if_pos (by decide)] at h
  unfold handleStunMessage at h
  simp only [hr.read] at h
  rw [if_neg (by simp), if_neg (by rw [hr.type]; decide), hfind] at h
  simp only [hkey, Option.bind_eq_bind, Option.bind_some] at h
  rw [if_pos hrequest, hcheck] at h
  simp only [Option.bind_some, if_true] at h
  obtain ⟨nonce, -, ⟨hnone, -⟩ | ⟨q, a₁, hq, ha₁, rfl⟩⟩ :=
    checkAuthorization_true (by rw [hfind]; exact hkey) hcheck
  · rw [hfind] at hnone
    cases hnone
  · obtain rfl := Option.some.inj (hfind.symm.trans hq)
    obtain rfl := Option.some.inj (ha.symm.trans ha₁)
    unfold dispatch at h
    simp only [store_heap, if_true, Option.bind_eq_bind, Option.bind_some, hr.username] at h
    rw [if_pos (.inr hr.transaction), if_pos hrequest, if_neg (not_not.mpr rfl)] at h
    obtain ⟨a₂, a', ha₂, hhandle, rfl⟩ := handleTurnMessage_eq_some h
    simp only [store_heap, if_true] at ha₂
    cases ha₂
    unfold Allocation.handleTurnMessage at hhandle
    rw [hr.type] at hhandle
    obtain ⟨htimers, hsent⟩ := Allocation.handleAllocateRequest_spec hr.type hhandle
    exact ⟨a', store_store _ _, htimers, hsent⟩

theorem Timely.onInternalPacket (h : Timely trace s)
    (hstep : s.onInternalPacket cfg socket addr packet external = some (s', sent))
    (hnot : ¬ ∃ entry p a msg, s.findSocket socket = some entry ∧
      s.findAllocation ⟨addr, entry.remote, entry.proto, socket⟩ = some p ∧ s.heap p = some a ∧
      Retransmits cfg s ⟨addr, entry.remote, entry.proto, socket⟩ packet a msg) :
    Timely (trace ++ [(s, .internalPacket socket addr packet external, sent)]) s' := by
  rcases onInternalPacket_handling hstep with ⟨rfl, hnone⟩ | ⟨entry, hentry, hhandling⟩
  · exact h.quiet (announcement_none hnone) le_rfl fun p a ha => ⟨a, ha, rfl⟩
  cases hhandling with
  | other hs' hnone =>
    rcases hs' with rfl | ⟨p, a, nonce, ha, rfl⟩
    · exact h.quiet (announcement_none hnone) le_rfl fun p a ha => ⟨a, ha, rfl⟩
    · refine h.quiet (announcement_none hnone) le_rfl fun q a' ha' => ?_
      rw [store_heap] at ha'
      split_ifs at ha' with hq
      · exact ⟨a, hq ▸ ha, Option.some.inj ha' ▸ rfl⟩
      · exact ⟨a', ha', rfl⟩
  | @existing p a a' nonce msg _ hfind ha hretransmits hhandle =>
    have hother : ∀ q, q ≠ p → (s.store p (some a')).heap q = s.heap q := fun q hq => if_neg hq
    rcases Allocation.timers_handleTurnMessage hhandle with ⟨htimers, hnone⟩ | ⟨⟨d, hsent, hd⟩, htimers⟩
    · refine h.quiet (announcement_none hnone) le_rfl fun q x hx => ?_
      rw [store_heap] at hx
      split_ifs at hx with hq
      · exact ⟨a, hq ▸ ha, Option.some.inj hx ▸ htimers⟩
      · exact ⟨x, hx, rfl⟩
    · have hann := announcement_some addr packet external hentry hsent hd
      rw [hfind, Option.getD_some] at hann
      refine (h.answered_iff (s.store p (some a')) hann rfl (if_pos rfl) hother).mpr ?_
      rcases htimers with htimers | ⟨htype, -⟩
      · rw [htimers]
        exact due_singleton _ _
      · exact absurd ⟨entry, p, a, msg, hentry, hfind, ha, hretransmits htype⟩ hnot
  | @created ext key a' msg _ hfind htype hhandle =>
    unfold Allocation.handleTurnMessage at hhandle
    rw [htype] at hhandle
    obtain ⟨htimers, d, hsent, hd⟩ := Allocation.handleAllocateRequest_spec htype hhandle
    have hann := announcement_some addr packet external hentry hsent hd
    rw [hfind, Option.getD_none] at hann
    refine (h.answered_iff (s.create _ a') hann rfl (if_pos rfl) fun q hq => if_neg hq).mpr ?_
    rw [htimers]
    exact due_singleton _ _

/-- **An event keeps the timers timely exactly if it extends no lifetime by a retransmission.** -/
theorem Timely.step_iff (h : Timely trace s) (hstep : s.step cfg ev = some (s', sent)) :
    Timely (trace ++ [(s, ev, sent)]) s' ↔ ExtendsNoLifetime cfg s ev := by
  cases ev with
  | internalPacket socket addr packet external =>
    by_cases hretransmits : ∃ entry p a msg, s.findSocket socket = some entry ∧
        s.findAllocation ⟨addr, entry.remote, entry.proto, socket⟩ = some p ∧ s.heap p = some a ∧
        Retransmits cfg s ⟨addr, entry.remote, entry.proto, socket⟩ packet a msg
    · obtain ⟨entry, p, a, msg, hentry, hfind, ha, hr⟩ := hretransmits
      obtain ⟨a', rfl, htimers, d, hsent, hd⟩ := onInternalPacket_retransmits hentry hfind ha hr hstep
      have hann := announcement_some addr packet external hentry hsent hd
      rw [hfind, Option.getD_some] at hann
      have hiff := h.answered_iff (s.store p (some a')) hann rfl (if_pos rfl) fun q hq => if_neg hq
      rw [hiff, htimers, due_append_iff, Nat.mul_eq_zero, or_iff_left (by decide : ¬ 1000 = 0)]
      constructor
      · intro hlifetime entry' p' a' msg' hentry' hfind' ha' hr'
        obtain rfl := Option.some.inj (hentry.symm.trans hentry')
        obtain rfl := Option.some.inj (hfind.symm.trans hfind')
        obtain rfl := Option.some.inj (ha.symm.trans ha')
        obtain rfl := (Prod.mk.inj (Option.some.inj (hr.read.symm.trans hr'.read))).1
        exact hlifetime
      · exact fun hextends => hextends entry p a msg hentry hfind ha hr
    · refine iff_of_true (h.onInternalPacket hstep hretransmits) ?_
      exact fun entry p a msg hentry hfind ha hr =>
        absurd ⟨entry, p, a, msg, hentry, hfind, ha, hr⟩ hretransmits
  | externalPacket p data addr id =>
    obtain ⟨a, ha, hstep⟩ := Option.bind_eq_some_iff.mp hstep
    cases hstep
    exact iff_of_true (h.quiet rfl le_rfl fun p a ha => ⟨a, ha, rfl⟩) trivial
  | addInternalSocket entry =>
    cases hstep
    exact iff_of_true (h.quiet rfl le_rfl fun p a ha => ⟨a, ha, rfl⟩) trivial
  | internalSocketClose socket =>
    cases hstep
    exact iff_of_true (h.quiet rfl le_rfl fun p a ha => ⟨a, ha, rfl⟩) trivial
  | allocationTimeout p =>
    obtain ⟨a, ha, hstep⟩ := Option.bind_eq_some_iff.mp hstep
    obtain ⟨s₁, hdestroyed, hstep⟩ := Option.bind_eq_some_iff.mp hstep
    cases hstep
    obtain ⟨-, -, rfl⟩ := onAllocationDestroyed_eq_some hdestroyed
    refine iff_of_true (h.quiet rfl le_rfl fun q x hx => ?_) trivial
    rw [store_heap] at hx
    by_cases hq : q = p
    · rw [if_pos hq] at hx
      cases hx
    · rw [if_neg hq] at hx
      exact ⟨x, hx, rfl⟩
  | permissionTimeout p perm =>
    obtain ⟨a, ha, hstep⟩ := Option.bind_eq_some_iff.mp hstep
    cases hstep
    refine iff_of_true (h.quiet rfl le_rfl fun q x hx => ?_) trivial
    rw [store_heap] at hx
    split_ifs at hx with hq
    · exact ⟨a, hq ▸ ha, Option.some.inj hx ▸ rfl⟩
    · exact ⟨x, hx, rfl⟩
  | channelTimeout p channel =>
    obtain ⟨a, ha, hstep⟩ := Option.bind_eq_some_iff.mp hstep
    cases hstep
    refine iff_of_true (h.quiet rfl le_rfl fun q x hx => ?_) trivial
    rw [store_heap] at hx
    split_ifs at hx with hq
    · exact ⟨a, hq ▸ ha, Option.some.inj hx ▸ rfl⟩
    · exact ⟨x, hx, rfl⟩
  | tick ms =>
    cases hstep
    exact iff_of_true (h.quiet rfl (Nat.le_add_right _ ms) fun p a ha => ⟨a, ha, rfl⟩) trivial

theorem mem_of_findSocket (h : s.findSocket socket = some entry) : entry ∈ s.serverSockets :=
  List.mem_of_find?_eq_some h

theorem findSocket_destroyInternalSocket (socket socket' : SocketId) :
    (s.destroyInternalSocket socket).findSocket socket' =
      if socket' = socket then none else s.findSocket socket' := by
  unfold findSocket destroyInternalSocket
  dsimp only
  rw [List.find?_filter]
  split_ifs with hsocket
  · refine List.find?_eq_none.mpr fun entry _ => ?_
    simp only [hsocket, decide_eq_true_eq]
    exact fun h => h.1 h.2
  · congr 1
    funext entry
    by_cases hid : entry.id = socket'
    · simp [hid, hsocket]
    · simp [hid]

theorem findSocket_onAllocationDestroyed (h : s.onAllocationDestroyed a = some s') :
    ∃ entry, s.findSocket a.conn.socket = some entry ∧ s'.heap = s.heap ∧ ∀ socket,
      s'.findSocket socket = if entry.proto ≠ .udp ∧ socket = a.conn.socket then none else s.findSocket socket := by
  obtain ⟨entry, hentry, rfl⟩ := onAllocationDestroyed_eq_some h
  refine ⟨entry, hentry, rfl, fun socket => ?_⟩
  by_cases hproto : entry.proto ≠ .udp
  · rw [if_congr (and_iff_right hproto) rfl rfl, ← findSocket_destroyInternalSocket]
    unfold findSocket
    dsimp only
    rw [if_pos hproto]
  · unfold findSocket
    dsimp only
    rw [if_neg hproto, if_neg fun h : entry.proto ≠ .udp ∧ socket = a.conn.socket => hproto h.1]

theorem Seated.step_iff (h : s.Seated) (hstep : s.step cfg ev = some (s', sent)) :
    s'.Seated ↔ s.SparesSockets ev := by
  have hstored {q : AllocationId} {a b : Allocation} (ha : s.heap q = some a) (hconn : b.conn = a.conn) :
      (s.store q (some b)).Seated := by
    intro p a' ha'
    rw [store_heap] at ha'
    split_ifs at ha'
    · rw [← Option.some.inj ha', hconn]
      exact h q a ha
    · exact h p a' ha'
  cases ev with
  | internalPacket socket addr packet external =>
    refine iff_of_true (fun p a' ha' => ?_) trivial
    obtain ⟨hsockets, -, hheap⟩ := heap_onInternalPacket hstep
    unfold findSocket
    rw [hsockets]
    rcases hheap p a' ha' with ⟨a, ha, hconn⟩ | hsocket
    · rw [hconn]
      exact h p a ha
    · exact hsocket
  | externalPacket p data addr id =>
    obtain ⟨a, ha, hstep⟩ := Option.bind_eq_some_iff.mp hstep
    cases hstep
    exact iff_of_true h trivial
  | addInternalSocket entry =>
    cases hstep
    refine iff_of_true (fun p a ha => ?_) trivial
    obtain ⟨found, hfound⟩ := Option.isSome_iff_exists.mp (h p a ha)
    unfold findSocket at hfound ⊢
    rw [List.find?_append, hfound]
    rfl
  | internalSocketClose socket =>
    cases hstep
    refine forall_congr' fun p => forall_congr' fun a => forall_congr' fun ha => ?_
    have hsocket := h p a ha
    rw [findSocket_destroyInternalSocket]
    split_ifs with heq
    · exact iff_of_false (by simp) (not_not.mpr heq)
    · exact iff_of_true hsocket heq
  | allocationTimeout p =>
    obtain ⟨a, ha, hstep⟩ := Option.bind_eq_some_iff.mp hstep
    obtain ⟨s₁, hdestroyed, hstep⟩ := Option.bind_eq_some_iff.mp hstep
    cases hstep
    obtain ⟨entry, hentry, hheap, hsockets⟩ := findSocket_onAllocationDestroyed hdestroyed
    have hstore (socket : SocketId) : (s₁.store p none).findSocket socket = s₁.findSocket socket := rfl
    constructor
    · intro hseated a' entry' ha' hentry' hproto q b hq hb heq
      obtain rfl := Option.some.inj (ha.symm.trans ha')
      obtain rfl := Option.some.inj (hentry.symm.trans hentry')
      have hnone := hseated q b (by rw [store_heap, if_neg hq, hheap]; exact hb)
      rw [hstore, hsockets, if_pos ⟨hproto, heq⟩] at hnone
      cases hnone
    · intro hspares q b hb
      rw [store_heap, hheap] at hb
      split_ifs at hb with hq
      rw [hstore, hsockets, if_neg fun h => hspares a entry ha hentry h.1 q b hq hb h.2]
      exact h q b hb
  | permissionTimeout p perm =>
    obtain ⟨a, ha, hstep⟩ := Option.bind_eq_some_iff.mp hstep
    cases hstep
    exact iff_of_true (hstored ha rfl) trivial
  | channelTimeout p channel =>
    obtain ⟨a, ha, hstep⟩ := Option.bind_eq_some_iff.mp hstep
    cases hstep
    exact iff_of_true (hstored ha rfl) trivial
  | tick ms =>
    cases hstep
    exact iff_of_true h trivial

theorem Honoured.step_iff (h : Honoured cfg trace s) (hstep : s.step cfg ev = some (s', sent)) :
    Honoured cfg (trace ++ [(s, ev, sent)]) s' ↔ ExtendsNoLifetime cfg s ev ∧ s.SparesSockets ev := by
  rw [honoured_iff] at h ⊢
  rw [h.1.step_iff hstep, h.2.step_iff hstep]

/-! ## Runs -/

/-- The lifetimes are honoured in each state of a run. -/
def HonouredThroughout (cfg : TurnConfig) (trace : List (TurnServer × Event × List Sent)) (s : TurnServer) : Prop :=
  (∀ before e after, trace = before ++ e :: after → Honoured cfg before e.1) ∧ Honoured cfg trace s

theorem honouredThroughout_append :
    HonouredThroughout cfg (trace ++ [e]) s' ↔
      HonouredThroughout cfg trace e.1 ∧ Honoured cfg (trace ++ [e]) s' := by
  constructor
  · rintro ⟨hbefore, hend⟩
    refine ⟨⟨fun before x after htrace => ?_, hbefore trace e [] rfl⟩, hend⟩
    exact hbefore before x (after ++ [e]) (by rw [htrace, List.append_assoc]; rfl)
  · rintro ⟨⟨hbefore, hlast⟩, hend⟩
    refine ⟨fun before x after htrace => ?_, hend⟩
    rcases List.eq_nil_or_concat' after with rfl | ⟨after', y, rfl⟩
    · obtain ⟨rfl, hx⟩ := List.append_inj' htrace rfl
      rw [← (List.singleton_inj.mp hx)]
      exact hlast
    · rw [← List.cons_append, ← List.append_assoc] at htrace
      exact hbefore before x after' (List.append_inj' htrace rfl).1

/-- **When lifetimes are honoured**: just if no retransmitted Allocate request gets a later end than
an expiry message has, and none takes a socket away. -/
theorem lifetime_honoured_iff (cfg : TurnConfig) (trace : List (TurnServer × Event × List Sent))
    (s : TurnServer) (hrun : Run cfg trace s) :
    HonouredThroughout cfg trace s ↔ ∀ e ∈ trace, ExtendsNoLifetime cfg e.1 e.2.1 ∧ e.1.SparesSockets e.2.1 := by
  induction hrun with
  | start =>
    refine iff_of_true ⟨fun before e after htrace => ?_, fun p a ha => nomatch ha⟩ fun e he => nomatch he
    cases before <;> cases htrace
  | @step trace s s' ev sent _ _ hstep ih =>
    rw [honouredThroughout_append, ih]
    simp only [List.forall_mem_append, List.forall_mem_singleton]
    refine and_congr_right fun hall => ?_
    exact (ih.mpr hall).2.step_iff hstep

section Example

def exampleExpiring : TurnServer := exampleServer.after exampleConfig (.tick 600000)

def exampleExpired : TurnServer := exampleExpiring.after exampleConfig (.allocationTimeout 0)

theorem lifetime_honoured_iff_expired :
    HonouredThroughout exampleConfig [({}, .addInternalSocket exampleSocket, []),
      (exampleFresh, exampleAllocateEvent, exampleFresh.sentAt exampleConfig exampleAllocateEvent),
      (exampleServer, .tick 600000, exampleServer.sentAt exampleConfig (.tick 600000)),
      (exampleExpiring, .allocationTimeout 0, exampleExpiring.sentAt exampleConfig (.allocationTimeout 0))]
      exampleExpired := by
  refine (lifetime_honoured_iff exampleConfig _ exampleExpired
    (.step (.step (.step run_exampleFresh (by decide) (step_eq_some (by decide)))
      (by decide) (step_eq_some (by decide)))
      (by decide +kernel) (step_eq_some (by decide +kernel)))).mpr ?_
  simp only [List.forall_mem_append, List.forall_mem_singleton]
  refine ⟨⟨⟨⟨trivial, trivial⟩, fun entry p a msg hentry hfind => ?_, trivial⟩, trivial, trivial⟩, trivial,
    fun a entry ha hentry hproto => absurd ?_ hproto⟩
  · have hnone : exampleFresh.findAllocation ⟨exampleClient, entry.remote, entry.proto, 0⟩ = none := rfl
    rw [hnone] at hfind
    cases hfind
  · have hudp : ∀ entry ∈ exampleExpiring.serverSockets, entry.proto = .udp := by decide +kernel
    exact hudp entry (mem_of_findSocket hentry)

def exampleWaiting : TurnServer := exampleServer.after exampleConfig (.tick 60000)

def exampleRetried : TurnServer := exampleWaiting.after exampleConfig exampleAllocateEvent

def exampleTenMinutes : TurnServer := exampleRetried.after exampleConfig (.tick 540000)

/-- The run so far. -/
def exampleRetriedTrace : List (TurnServer × Event × List Sent) :=
  [({}, .addInternalSocket exampleSocket, []),
    (exampleFresh, exampleAllocateEvent, exampleFresh.sentAt exampleConfig exampleAllocateEvent),
    (exampleServer, .tick 60000, exampleServer.sentAt exampleConfig (.tick 60000)),
    (exampleWaiting, exampleAllocateEvent, exampleWaiting.sentAt exampleConfig exampleAllocateEvent),
    (exampleRetried, .tick 540000, exampleRetried.sentAt exampleConfig (.tick 540000))]

theorem run_exampleTenMinutes : Run exampleConfig exampleRetriedTrace exampleTenMinutes :=
  .step (.step (.step (.step run_exampleFresh (by decide) (step_eq_some (by decide)))
    (by decide) (step_eq_some (by decide)))
    (by decide) (step_eq_some (by decide)))
    (by decide) (step_eq_some (by decide))

/-- **An allocation is destroyed a minute early**, by the first expiry message that is due. -/
theorem allocation_destroyed_early :
    Run exampleConfig exampleRetriedTrace exampleTenMinutes ∧
      announced 0 exampleRetriedTrace = some 660000 ∧ exampleTenMinutes.now = 600000 ∧
      exampleTenMinutes.possible (.allocationTimeout 0) = true ∧
      ((exampleTenMinutes.after exampleConfig (.allocationTimeout 0)).heap 0).isNone = true ∧
      ¬ HonouredThroughout exampleConfig exampleRetriedTrace exampleTenMinutes := by
  have hannounced : announced 0 exampleRetriedTrace = some 660000 := by decide +kernel
  have hnow : exampleTenMinutes.now = 600000 := by decide +kernel
  have hpossible : exampleTenMinutes.possible (.allocationTimeout 0) = true := by decide +kernel
  refine ⟨run_exampleTenMinutes, hannounced, hnow, hpossible, by decide +kernel, ?_⟩
  rintro ⟨-, hhonoured⟩
  obtain ⟨a, ha⟩ := exists_of_possible hpossible
  obtain ⟨due, hdue, hexpires⟩ := hhonoured 0 a ha
  have hle := hexpires.le_now hpossible
  rw [hannounced] at hdue
  rw [← Option.some.inj hdue, hnow] at hle
  omega

end Example

end TurnServer

end Libjingle
