import Libjingle.Turn.Server

/-!
# Who may change an allocation

Main results: **`change_is_authorised`**, **`nonce_of_other_user`**.
-/

namespace Libjingle

open Lib StunMessage

/-! ## Handlers -/

theorem mem_updateFirst {α : Type} {p : α → Bool} {f : α → α} {l : List α} {y : α}
    (h : y ∈ updateFirst p f l) : y ∈ l ∨ ∃ x ∈ l, p x = true ∧ y = f x := by
  induction l with
  | nil => cases h
  | cons x xs ih =>
    rw [updateFirst] at h
    split_ifs at h with hp
    · rcases List.mem_cons.mp h with rfl | h
      · exact .inr ⟨x, List.mem_cons_self, hp, rfl⟩
      · exact .inl (List.mem_cons_of_mem _ h)
    · rcases List.mem_cons.mp h with rfl | h
      · exact .inl List.mem_cons_self
      · rcases ih h with h | ⟨z, hz, hpz, rfl⟩
        · exact .inl (List.mem_cons_of_mem _ h)
        · exact .inr ⟨z, List.mem_cons_of_mem _ hz, hpz, rfl⟩

namespace Allocation

variable {cfg : TurnConfig} {now : ℕ} {self : AllocationId} {a a' : Allocation} {msg : StunMessage}
  {sent : List Sent}

@[simp] theorem addPermission_conn (addr : IPAddress) : (a.addPermission now addr).conn = a.conn := by
  unfold addPermission
  split_ifs <;> rfl

@[simp] theorem addPermission_username (addr : IPAddress) : (a.addPermission now addr).username = a.username := by
  unfold addPermission
  split_ifs <;> rfl

@[simp] theorem addPermission_lastNonce (addr : IPAddress) : (a.addPermission now addr).lastNonce = a.lastNonce := by
  unfold addPermission
  split_ifs <;> rfl

@[simp] theorem addPermission_channels (addr : IPAddress) : (a.addPermission now addr).channels = a.channels := by
  unfold addPermission
  split_ifs <;> rfl

theorem handleCreatePermissionRequest_cases :
    (a.handleCreatePermissionRequest cfg now msg).1 = a ∨
      ∃ peer : SocketAddress,
        (a.handleCreatePermissionRequest cfg now msg).1 = a.addPermission now peer.ip := by
  unfold handleCreatePermissionRequest
  split
  · exact .inl rfl
  · next peer _ => exact .inr ⟨peer, rfl⟩

theorem handleChannelBindRequest_cases :
    (a.handleChannelBindRequest cfg now msg).1 = a ∨
      ∃ (peer : SocketAddress) (channels : List Channel),
        (a.handleChannelBindRequest cfg now msg).1 =
          ({ a with channels := channels }).addPermission now peer.ip ∧
        ∀ c ∈ channels, c.peer = peer ∨ ∃ c' ∈ a.channels, c.peer = c'.peer := by
  unfold handleChannelBindRequest
  split
  · next number peer _ _ =>
    dsimp only
    split_ifs with hnumber hsame hnew
    · exact .inl rfl
    · exact .inl rfl
    · refine .inr ⟨peer, _, rfl, fun c hc => ?_⟩
      rcases List.mem_append.mp hc with hc | hc
      · exact .inr ⟨c, hc, rfl⟩
      · rw [List.mem_singleton.mp hc]
        exact .inl rfl
    · refine .inr ⟨peer, _, rfl, fun c hc => ?_⟩
      rcases mem_updateFirst hc with hc | ⟨c', hc', -, rfl⟩
      · exact .inr ⟨c, hc, rfl⟩
      · exact .inr ⟨c', hc', rfl⟩
  · exact .inl rfl

/-- What the handlers of an allocation may make of it for a message. -/
inductive Handled (cfg : TurnConfig) (now : ℕ) (msg : StunMessage) (a : Allocation) : Allocation → Prop where
  | same : Handled cfg now msg a a
  | allocated {transactionId username : List Uint8} {timers : List ℕ} :
      msg.getString attrUsername = some username →
      Handled cfg now msg a { a with transactionId, username, timers }
  | refreshed {timers : List ℕ} : Handled cfg now msg a { a with timers }
  | permitted (addr : IPAddress) : Handled cfg now msg a (a.addPermission now addr)
  | bound (peer : SocketAddress) {channels : List Channel} :
      (∀ c ∈ channels, c.peer = peer ∨ ∃ c' ∈ a.channels, c.peer = c'.peer) →
      Handled cfg now msg a (({ a with channels := channels }).addPermission now peer.ip)

theorem handled_of_handleTurnMessage (h : a.handleTurnMessage cfg now self msg = some (a', sent)) :
    Handled cfg now msg a a' := by
  unfold handleTurnMessage at h
  split at h
  · obtain ⟨username, husername, h⟩ := Option.bind_eq_some_iff.mp h
    cases h
    exact .allocated husername
  · cases h
    exact .refreshed
  · cases h
    exact .same
  · have ha' : a' = (a.handleCreatePermissionRequest cfg now msg).1 := by rw [Option.some.inj h]
    rcases handleCreatePermissionRequest_cases with heq | ⟨peer, heq⟩
    · rw [ha', heq]
      exact .same
    · rw [ha', heq]
      exact .permitted peer.ip
  · have ha' : a' = (a.handleChannelBindRequest cfg now msg).1 := by rw [Option.some.inj h]
    rcases handleChannelBindRequest_cases with heq | ⟨peer, channels, heq, hchannels⟩
    · rw [ha', heq]
      exact .same
    · rw [ha', heq]
      exact .bound peer hchannels
  · cases h
    exact .same

theorem Handled.conn (h : Handled cfg now msg a a') : a'.conn = a.conn := by
  cases h with
  | permitted addr => exact addPermission_conn addr
  | bound peer _ => exact addPermission_conn peer.ip
  | _ => rfl

theorem Handled.username (h : Handled cfg now msg a a') :
    a'.username = a.username ∨ msg.getString attrUsername = some a'.username := by
  cases h with
  | allocated husername => exact .inr husername
  | permitted addr => exact .inl (addPermission_username addr)
  | bound peer _ => exact .inl (addPermission_username peer.ip)
  | _ => exact .inl rfl

theorem Handled.lastNonce (h : Handled cfg now msg a a') : a'.lastNonce = a.lastNonce := by
  cases h with
  | permitted addr => exact addPermission_lastNonce addr
  | bound peer _ => exact addPermission_lastNonce peer.ip
  | _ => rfl

theorem handleTurnMessage_of_not_request (hreq : isStunRequestType msg.type = false)
    (h : a.handleTurnMessage cfg now self msg = some (a', sent)) : a' = a := by
  unfold handleTurnMessage at h
  split at h
  case h_3 => exact (Prod.mk.inj (Option.some.inj h)).1.symm
  case h_6 => exact (Prod.mk.inj (Option.some.inj h)).1.symm
  all_goals
    next htype =>
    rw [htype] at hreq
    exact absurd hreq (by decide)

end Allocation

/-! ## Packets -/

namespace TurnServer

variable {cfg : TurnConfig} {s s' : TurnServer} {conn : Connection} {msg : StunMessage}
  {packet : RawPacket} {key nonce : List Uint8} {external : Option SocketAddress} {sent : List Sent}
  {p : AllocationId} {a : Allocation}

@[simp] theorem store_heap (q : AllocationId) (x : Option Allocation) :
    (s.store p x).heap q = if q = p then x else s.heap q := rfl

@[simp] theorem store_serverSockets (x : Option Allocation) : (s.store p x).serverSockets = s.serverSockets := rfl

theorem store_store (x y : Option Allocation) : (s.store p x).store p y = s.store p y := by
  unfold store
  congr 1
  funext q
  dsimp only
  split_ifs <;> rfl

theorem store_self {x : Option Allocation} (h : s.heap p = x) : s.store p x = s := by
  unfold store
  have hheap : (fun q => if q = p then x else s.heap q) = s.heap := by
    funext q
    split_ifs with hq
    · rw [hq, h]
    · rfl
  rw [hheap]

/-- What `CheckAuthorization` has seen to in a request. -/
structure Credentials (cfg : TurnConfig) (s : TurnServer) (conn : Connection) (msg : StunMessage)
    (packet : RawPacket) (nonce : List Uint8) : Prop where
  integrity : (msg.getByteString attrMessageIntegrity).isSome
  username : (msg.getString attrUsername).isSome
  realm : (msg.getString attrRealm).isSome
  nonce_eq : msg.getString attrNonce = some nonce
  nonce_valid : cfg.validateNonce s.now nonce = true
  key : ∃ key, s.messageKey cfg msg (s.findAllocation conn) = some key ∧ key ≠ [] ∧
    validateMessageIntegrity cfg.hmacSha1 packet.data packet.size key = true

theorem credentials_of_ok (hkey : s.messageKey cfg msg (s.findAllocation conn) = some key)
    (h : s.checkCredentials cfg conn msg packet key = .ok nonce) :
    Credentials cfg s conn msg packet nonce := by
  unfold checkCredentials at h
  by_cases hmi : (msg.getByteString attrMessageIntegrity).isNone = true
  · rw [if_pos hmi] at h
    cases h
  rw [if_neg hmi] at h
  split at h
  · next username realm nonce' husername hrealm hnonce =>
    split_ifs at h with hvalid hbad
    rw [not_or, Bool.not_eq_false] at hbad
    obtain rfl := Except.ok.inj h
    refine ⟨?_, by rw [husername]; rfl, by rw [hrealm]; rfl, hnonce, ?_, key, hkey, hbad⟩
    · rwa [← Option.not_isNone, Bool.not_eq_true', ← Bool.not_eq_true]
    · simpa using hvalid
  · cases h

/-- The error responses of `CheckAuthorization`. -/
inductive Refusal (cfg : TurnConfig) (s : TurnServer) (conn : Connection) (msg : StunMessage) : Sent → Prop where
  | plain (code : ℕ) (reason : List Uint8) :
      Refusal cfg s conn msg (cfg.sendErrorResponse conn msg code reason)
  | challenge (code : ℕ) (reason : List Uint8) :
      Refusal cfg s conn msg (cfg.sendErrorResponseWithRealmAndNonce s.now conn msg code reason)

theorem refusal_of_error {response : Sent} (h : s.checkCredentials cfg conn msg packet key = .error response) :
    Refusal cfg s conn msg response := by
  unfold checkCredentials at h
  by_cases hmi : (msg.getByteString attrMessageIntegrity).isNone = true
  · rw [if_pos hmi] at h
    exact Except.error.inj h ▸ .challenge _ _
  rw [if_neg hmi] at h
  split at h
  · split_ifs at h with hvalid hbad
    · exact Except.error.inj h ▸ .challenge _ _
    · exact Except.error.inj h ▸ .challenge _ _
  · exact Except.error.inj h ▸ .plain _ _

/-- **`CheckAuthorization` sends nothing but refusals.** -/
theorem checkAuthorization_sent {ok : Bool} (h : s.checkAuthorization cfg conn msg packet key = some (s', sent, ok)) :
    ∀ d ∈ sent, Refusal cfg s conn msg d := by
  unfold checkAuthorization at h
  split at h
  · next response hresponse =>
    cases h
    exact List.forall_mem_singleton.mpr (refusal_of_error hresponse)
  · split at h
    · cases h
      exact fun d hd => absurd hd List.not_mem_nil
    · obtain ⟨a, -, h⟩ := Option.bind_eq_some_iff.mp h
      split_ifs at h with hotu
      · cases h
        exact List.forall_mem_singleton.mpr (.challenge _ _)
      · cases h
        exact fun d hd => absurd hd List.not_mem_nil

theorem checkAuthorization_true (hkey : s.messageKey cfg msg (s.findAllocation conn) = some key)
    (h : s.checkAuthorization cfg conn msg packet key = some (s', sent, true)) :
    ∃ nonce, Credentials cfg s conn msg packet nonce ∧
      ((s.findAllocation conn = none ∧ s' = s) ∨
        ∃ p a, s.findAllocation conn = some p ∧ s.heap p = some a ∧
          s' = s.store p (some { a with lastNonce := nonce })) := by
  unfold checkAuthorization at h
  split at h
  · cases h
  · next nonce hnonce =>
    refine ⟨nonce, credentials_of_ok hkey hnonce, ?_⟩
    split at h
    · next hfind =>
      cases h
      exact .inl ⟨hfind, rfl⟩
    · next p hfind =>
      obtain ⟨a, ha, h⟩ := Option.bind_eq_some_iff.mp h
      split_ifs at h with hotu
      · cases h
      · cases h
        exact .inr ⟨p, a, hfind, ha, rfl⟩

theorem checkAuthorization_false
    (h : s.checkAuthorization cfg conn msg packet key = some (s', sent, false)) : s' = s := by
  unfold checkAuthorization at h
  split at h
  · exact (Prod.mk.inj (Option.some.inj h)).1.symm
  · split at h
    · cases h
    · obtain ⟨a, -, h⟩ := Option.bind_eq_some_iff.mp h
      split_ifs at h
      · exact (Prod.mk.inj (Option.some.inj h)).1.symm
      · cases h

theorem handleTurnMessage_eq_some (h : s.handleTurnMessage cfg p msg = some (s', sent)) :
    ∃ a a', s.heap p = some a ∧ a.handleTurnMessage cfg s.now p msg = some (a', sent) ∧
      s' = s.store p (some a') := by
  obtain ⟨a, ha, h⟩ := Option.bind_eq_some_iff.mp h
  obtain ⟨⟨a', sent'⟩, hhandle, h⟩ := Option.bind_eq_some_iff.mp h
  cases h
  exact ⟨a, a', ha, hhandle, rfl⟩

/-- The server with a new allocation under a connection. -/
def create (s : TurnServer) (conn : Connection) (a : Allocation) : TurnServer :=
  { s.store s.next (some a) with
    allocations := s.allocations.set Connection.less conn s.next
    next := s.next + 1 }

def IsNew (conn : Connection) (msg : StunMessage) (a : Allocation) : Prop :=
  a.conn = conn ∧ msg.getString attrUsername = some a.username ∧ a.perms = [] ∧ a.channels = []

theorem handleAllocateRequest_cases (htype : msg.type = stunAllocateRequest)
    (h : s.handleAllocateRequest cfg conn msg key external = some (s', sent)) :
    s' = s ∨ ∃ a, IsNew conn msg a ∧ s' = s.create conn a := by
  unfold handleAllocateRequest at h
  split at h
  · exact .inl (Prod.mk.inj (Option.some.inj h)).1.symm
  · dsimp only at h
    split_ifs at h with hproto
    · exact .inl (Prod.mk.inj (Option.some.inj h)).1.symm
    · split at h
      · next s₁ p hcreate =>
        obtain ⟨ext, -, hcreate⟩ := Option.bind_eq_some_iff.mp hcreate
        cases hcreate
        obtain ⟨a, a', ha, hhandle, rfl⟩ := handleTurnMessage_eq_some h
        simp only [store_heap, if_true] at ha
        cases ha
        unfold Allocation.handleTurnMessage at hhandle
        rw [htype] at hhandle
        obtain ⟨username, husername, hhandle⟩ := Option.bind_eq_some_iff.mp hhandle
        obtain ⟨ha', -⟩ := Prod.mk.inj (Option.some.inj hhandle)
        refine .inr ⟨a', ?_, ?_⟩
        · rw [← ha']
          exact ⟨rfl, husername, rfl, rfl⟩
        · exact congrArg (fun t : TurnServer => { t with
            allocations := s.allocations.set Connection.less conn s.next, next := s.next + 1 })
            (store_store _ _)
      · exact .inl (Prod.mk.inj (Option.some.inj h)).1.symm

theorem dispatch_cases {allocation : Option AllocationId}
    (h : s.dispatch cfg conn msg key allocation external = some (s', sent)) :
    s' = s ∨
      (∃ p a a', allocation = some p ∧ s.heap p = some a ∧ isStunRequestType msg.type = true ∧
        msg.getString attrUsername = some a.username ∧ Allocation.Handled cfg s.now msg a a' ∧
        s' = s.store p (some a')) ∨
      (allocation = none ∧ msg.type = stunAllocateRequest ∧
        ∃ a, IsNew conn msg a ∧ s' = s.create conn a) := by
  unfold dispatch at h
  split at h
  · split_ifs at h with htype
    · exact (handleAllocateRequest_cases htype h).imp_right fun hnew => .inr ⟨rfl, htype, hnew⟩
    · exact .inl (Prod.mk.inj (Option.some.inj h)).1.symm
  · next p =>
    obtain ⟨a, ha, h⟩ := Option.bind_eq_some_iff.mp h
    split_ifs at h with hretry hreq
    · obtain ⟨username, husername, h⟩ := Option.bind_eq_some_iff.mp h
      split_ifs at h with huser
      · exact .inl (Prod.mk.inj (Option.some.inj h)).1.symm
      · rw [not_not] at huser
        obtain ⟨a₁, a', ha₁, hhandle, rfl⟩ := handleTurnMessage_eq_some h
        obtain rfl := Option.some.inj (ha.symm.trans ha₁)
        exact .inr (.inl ⟨p, a, a', rfl, ha, hreq, by rw [husername, huser],
          Allocation.handled_of_handleTurnMessage hhandle, rfl⟩)
    · obtain ⟨a₁, a', ha₁, hhandle, rfl⟩ := handleTurnMessage_eq_some h
      obtain rfl := Option.some.inj (ha.symm.trans ha₁)
      rw [Bool.not_eq_true] at hreq
      rw [Allocation.handleTurnMessage_of_not_request hreq hhandle]
      exact .inl (store_self ha)
    · exact .inl (Prod.mk.inj (Option.some.inj h)).1.symm

/-- What a packet does to the allocations. -/
inductive PacketEffect (cfg : TurnConfig) (s : TurnServer) (conn : Connection) (packet : RawPacket) :
    TurnServer → Prop where
  | nothing : PacketEffect cfg s conn packet s
  | changed {msg : StunMessage} {nonce : List Uint8} {p : AllocationId} {a a' : Allocation} :
      StunMessage.read .turn packet.bytes = some (msg, []) → isStunRequestType msg.type = true →
      Credentials cfg s conn msg packet nonce → s.findAllocation conn = some p → s.heap p = some a →
      a' = { a with lastNonce := nonce } ∨ (msg.getString attrUsername = some a.username ∧
        Allocation.Handled cfg s.now msg { a with lastNonce := nonce } a') →
      PacketEffect cfg s conn packet (s.store p (some a'))
  | created {msg : StunMessage} {nonce : List Uint8} {a : Allocation} :
      StunMessage.read .turn packet.bytes = some (msg, []) → isStunRequestType msg.type = true →
      Credentials cfg s conn msg packet nonce → s.findAllocation conn = none → IsNew conn msg a →
      PacketEffect cfg s conn packet (s.create conn a)

theorem handleStunMessage_effect (h : s.handleStunMessage cfg conn packet external = some (s', sent)) :
    PacketEffect cfg s conn packet s' := by
  unfold handleStunMessage at h
  split at h
  · cases h
    exact .nothing
  · next msg rest hread =>
    split_ifs at h with hrest hbinding hreq
    · cases h
      exact .nothing
    · cases h
      exact .nothing
    all_goals
      obtain rfl : rest = [] := List.eq_nil_of_length_eq_zero (by omega)
      obtain ⟨key, hkey, h⟩ := Option.bind_eq_some_iff.mp h
    · obtain ⟨⟨s₁, sent₁, ok⟩, hcheck, h⟩ := Option.bind_eq_some_iff.mp h
      dsimp only at h
      cases ok with
      | false =>
        obtain rfl := checkAuthorization_false hcheck
        cases h
        exact .nothing
      | true =>
        rw [if_pos rfl] at h
        obtain ⟨nonce, hcred, ⟨hnone, rfl⟩ | ⟨p, a, hfind, ha, rfl⟩⟩ :=
          checkAuthorization_true hkey hcheck
        · rcases dispatch_cases h with rfl | ⟨p, -, -, hfind, -⟩ | ⟨-, -, a, hnew, rfl⟩
          · exact .nothing
          · rw [hnone] at hfind
            cases hfind
          · exact .created hread hreq hcred hnone hnew
        · rcases dispatch_cases h with rfl | ⟨p', a₁, a', hfind', ha₁, -, huser, hhandled, rfl⟩ |
            ⟨hnone, -⟩
          · exact .changed hread hreq hcred hfind ha (.inl rfl)
          · obtain rfl := Option.some.inj (hfind.symm.trans hfind')
            simp only [store_heap, if_true] at ha₁
            cases ha₁
            rw [store_store]
            exact .changed hread hreq hcred hfind ha (.inr ⟨huser, hhandled⟩)
          · rw [hfind] at hnone
            cases hnone
    · rcases dispatch_cases h with rfl | ⟨-, -, -, -, -, hreq', -⟩ | ⟨-, htype, -⟩
      · exact .nothing
      · exact absurd hreq' hreq
      · rw [htype] at hreq
        exact absurd (by decide) hreq

/-- **The effect of a packet of a client**. -/
theorem onInternalPacket_effect {socket : SocketId} {addr : SocketAddress}
    (h : s.onInternalPacket cfg socket addr packet external = some (s', sent)) :
    s' = s ∨ ∃ entry, s.findSocket socket = some entry ∧
      PacketEffect cfg s ⟨addr, entry.remote, entry.proto, socket⟩ packet s' := by
  unfold onInternalPacket at h
  split_ifs at h with hsize hstun
  · exact .inl (Prod.mk.inj (Option.some.inj h)).1.symm
  · obtain ⟨entry, hentry, h⟩ := Option.bind_eq_some_iff.mp h
    exact .inr ⟨entry, hentry, handleStunMessage_effect h⟩
  · obtain ⟨entry, hentry, h⟩ := Option.bind_eq_some_iff.mp h
    dsimp only at h
    split at h
    · exact .inl (Prod.mk.inj (Option.some.inj h)).1.symm
    · obtain ⟨a, -, h⟩ := Option.bind_eq_some_iff.mp h
      exact .inl (Prod.mk.inj (Option.some.inj h)).1.symm

/-! ## Runs -/

/-- The allocations under connections were made for them, and are older than the next one. -/
structure WellKept (s : TurnServer) : Prop where
  fresh : ∀ p, s.next ≤ p → s.heap p = none
  older : ∀ e ∈ s.allocations.toList, e.2 < s.next
  conn : ∀ e ∈ s.allocations.toList, ∀ a, s.heap e.2 = some a → a.conn = e.1

theorem wellKept_empty : WellKept {} :=
  ⟨fun _ _ => rfl, fun _ h => absurd h List.not_mem_nil, fun _ h => absurd h List.not_mem_nil⟩

theorem WellKept.store (h : WellKept s) {x : Option Allocation} (hp : p < s.next)
    (hx : ∀ a, x = some a → ∃ a₀, s.heap p = some a₀ ∧ a.conn = a₀.conn) : WellKept (s.store p x) where
  fresh q hq := by
    have hne : q ≠ p := fun heq => absurd hq (by rw [heq]; exact Nat.not_le.mpr hp)
    rw [store_heap, if_neg hne]
    exact h.fresh q hq
  older := h.older
  conn e he a ha := by
    rw [store_heap] at ha
    split_ifs at ha with heq
    · obtain ⟨a₀, ha₀, hconn⟩ := hx a ha
      rw [hconn, h.conn e he a₀ (by rw [heq]; exact ha₀)]
    · exact h.conn e he a ha

theorem WellKept.lt_next (h : WellKept s) (ha : s.heap p = some a) : p < s.next := by
  by_contra hge
  rw [h.fresh p (Nat.not_lt.mp hge)] at ha
  cases ha

theorem WellKept.create (h : WellKept s) (hfind : s.findAllocation conn = none) (ha : a.conn = conn) :
    WellKept (s.create conn a) := by
  have hset : (s.create conn a).allocations = s.allocations.insertNew Connection.less conn s.next := by
    simp only [TurnServer.create, Tree.set]
    rw [if_neg]
    rw [show s.allocations.find Connection.less conn = none from hfind]
    decide
  refine ⟨fun q hq => ?_, fun e he => ?_, fun e he a' ha' => ?_⟩
  · have hq' : s.next + 1 ≤ q := hq
    simp only [TurnServer.create, store_heap]
    rw [if_neg (Nat.ne_of_gt hq')]
    exact h.fresh q (Nat.le_of_succ_le hq')
  · rw [hset, Tree.mem_insertNew] at he
    rcases he with rfl | he
    · exact Nat.lt_succ_self _
    · exact (h.older e he).trans (Nat.lt_succ_self _)
  · rw [hset, Tree.mem_insertNew] at he
    simp only [TurnServer.create, store_heap] at ha'
    rcases he with rfl | he
    · rw [if_pos rfl] at ha'
      rw [← Option.some.inj ha', ha]
    · rw [if_neg (h.older e he).ne] at ha'
      exact h.conn e he a' ha'

theorem WellKept.packetEffect (h : WellKept s) (heffect : PacketEffect cfg s conn packet s') : WellKept s' := by
  cases heffect with
  | nothing => exact h
  | @changed msg nonce p a a' _ _ _ _ ha ha' =>
    refine h.store (h.lt_next ha) fun x hx => ⟨a, ha, ?_⟩
    cases hx
    rcases ha' with rfl | ⟨-, hhandled⟩
    · rfl
    · exact hhandled.conn
  | created _ _ _ hfind hnew => exact h.create hfind hnew.1

theorem onAllocationDestroyed_eq_some (h : s.onAllocationDestroyed a = some s') :
    ∃ entry, s.findSocket a.conn.socket = some entry ∧
      s' = { s with
        serverSockets := if entry.proto ≠ .udp then (s.destroyInternalSocket a.conn.socket).serverSockets
          else s.serverSockets
        allocations := s.allocations.erase Connection.less a.conn } := by
  obtain ⟨entry, hentry, h⟩ := Option.bind_eq_some_iff.mp h
  refine ⟨entry, hentry, ?_⟩
  rw [← Option.some.inj h]
  split_ifs <;> rfl

theorem WellKept.erase (h : WellKept s) (sockets : List InternalSocket) (conn : Connection) :
    WellKept { s with
      serverSockets := sockets, allocations := s.allocations.erase Connection.less conn } where
  fresh := h.fresh
  older e he := h.older e (Tree.mem_of_mem_erase he)
  conn e he := h.conn e (Tree.mem_of_mem_erase he)

theorem WellKept.step {ev : Event} (h : WellKept s) (hstep : s.step cfg ev = some (s', sent)) : WellKept s' := by
  cases ev with
  | internalPacket socket addr packet external =>
    rcases onInternalPacket_effect hstep with rfl | ⟨entry, -, heffect⟩
    · exact h
    · exact h.packetEffect heffect
  | externalPacket p data addr id =>
    obtain ⟨a, -, hstep⟩ := Option.bind_eq_some_iff.mp hstep
    cases hstep
    exact h
  | addInternalSocket entry =>
    cases hstep
    exact ⟨h.fresh, h.older, h.conn⟩
  | internalSocketClose socket =>
    cases hstep
    exact ⟨h.fresh, h.older, h.conn⟩
  | allocationTimeout p =>
    obtain ⟨a, ha, hstep⟩ := Option.bind_eq_some_iff.mp hstep
    obtain ⟨s₁, hdestroyed, hstep⟩ := Option.bind_eq_some_iff.mp hstep
    cases hstep
    obtain ⟨-, -, rfl⟩ := onAllocationDestroyed_eq_some hdestroyed
    exact (h.erase _ _).store (h.lt_next ha) fun x hx => nomatch hx
  | permissionTimeout p perm =>
    obtain ⟨a, ha, hstep⟩ := Option.bind_eq_some_iff.mp hstep
    cases hstep
    refine h.store (h.lt_next ha) fun x hx => ⟨a, ha, ?_⟩
    rw [← Option.some.inj hx]
  | channelTimeout p channel =>
    obtain ⟨a, ha, hstep⟩ := Option.bind_eq_some_iff.mp hstep
    cases hstep
    refine h.store (h.lt_next ha) fun x hx => ⟨a, ha, ?_⟩
    rw [← Option.some.inj hx]
  | tick ms =>
    cases hstep
    exact ⟨h.fresh, h.older, h.conn⟩

theorem Run.wellKept {trace : List (TurnServer × Event × List Sent)} (h : Run cfg trace s) : WellKept s := by
  induction h with
  | start => exact wellKept_empty
  | step _ _ hstep ih => exact ih.step hstep

theorem WellKept.equal_of_find (h : WellKept s) (hfind : s.findAllocation conn = some p)
    (ha : s.heap p = some a) : a.conn.equal conn = true := by
  obtain ⟨k, hmem, hless, hless'⟩ := Tree.find_sound hfind
  rw [h.conn (k, p) hmem a ha, Connection.equal_iff, ← Connection.incomp_iff_rank]
  exact ⟨hless, hless'⟩

/-- The changes that a request of a user may make. -/
inductive OwnChange (s : TurnServer) (conn : Connection) (msg : StunMessage) (nonce : List Uint8)
    (q : AllocationId) (s' : TurnServer) : Prop where
  | created {a : Allocation} : s.findAllocation conn = none → s.heap q = none →
      s'.heap q = some a → a.conn = conn → msg.getString attrUsername = some a.username →
      OwnChange s conn msg nonce q s'
  | changed {a a' : Allocation} : s.findAllocation conn = some q → s.heap q = some a →
      s'.heap q = some a' → a.conn.equal conn = true → a'.conn = a.conn →
      a' = { a with lastNonce := nonce } ∨
        (msg.getString attrUsername = some a.username ∧ a'.username = a.username ∧
          a'.lastNonce = nonce) →
      OwnChange s conn msg nonce q s'

/-- **A change to an allocation is that of an authorised request to its own allocation**, in every
state of every run. -/
theorem change_is_authorised (cfg : TurnConfig) (trace : List (TurnServer × Event × List Sent))
    (s s' : TurnServer) (socket : SocketId) (addr : SocketAddress) (packet : RawPacket)
    (external : Option SocketAddress) (sent : List Sent) (q : AllocationId) (hrun : Run cfg trace s)
    (hstep : s.step cfg (.internalPacket socket addr packet external) = some (s', sent))
    (hchange : s'.heap q ≠ s.heap q) :
    ∃ entry msg nonce, s.findSocket socket = some entry ∧
      StunMessage.read .turn packet.bytes = some (msg, []) ∧ isStunRequestType msg.type = true ∧
      Credentials cfg s ⟨addr, entry.remote, entry.proto, socket⟩ msg packet nonce ∧
      OwnChange s ⟨addr, entry.remote, entry.proto, socket⟩ msg nonce q s' ∧
      ∀ r, r ≠ q → s'.heap r = s.heap r := by
  have hkept := hrun.wellKept
  rcases onInternalPacket_effect hstep with rfl | ⟨entry, hentry, heffect⟩
  · exact absurd rfl hchange
  · cases heffect with
    | nothing => exact absurd rfl hchange
    | @changed msg nonce p a a' hread hreq hcred hfind ha ha' =>
      obtain rfl : q = p := by
        by_contra hne
        rw [store_heap, if_neg hne] at hchange
        exact hchange rfl
      refine ⟨entry, msg, nonce, hentry, hread, hreq, hcred,
        .changed hfind ha (if_pos rfl) (hkept.equal_of_find hfind ha) ?_ ?_, fun r hr => if_neg hr⟩
      · rcases ha' with rfl | ⟨-, hhandled⟩
        · rfl
        · exact hhandled.conn
      · refine ha'.imp_right fun ⟨huser, hhandled⟩ => ⟨huser, ?_, hhandled.lastNonce⟩
        rcases hhandled.username with heq | hmsg
        · exact heq
        · exact (Option.some.inj (huser.symm.trans hmsg)).symm
    | @created msg nonce a hread hreq hcred hfind hnew =>
      obtain rfl : q = s.next := by
        by_contra hne
        simp only [TurnServer.create, store_heap, if_neg hne] at hchange
        exact hchange rfl
      exact ⟨entry, msg, nonce, hentry, hread, hreq, hcred,
        .created hfind (hkept.fresh _ (Nat.le_refl _)) (if_pos rfl) hnew.1 hnew.2.1,
        fun r hr => if_neg hr⟩

/-- An allocate request of user `u` in a server with a UDP socket. -/
theorem change_is_authorised_allocate :
    ∃ entry msg nonce, exampleFresh.findSocket 0 = some entry ∧
      StunMessage.read .turn (exampleAllocate (text "u")).bytes = some (msg, []) ∧
      isStunRequestType msg.type = true ∧
      Credentials exampleConfig exampleFresh ⟨exampleClient, entry.remote, entry.proto, 0⟩ msg
        (exampleAllocate (text "u")) nonce ∧
      OwnChange exampleFresh ⟨exampleClient, entry.remote, entry.proto, 0⟩ msg nonce 0 exampleServer ∧
      ∀ r, r ≠ 0 → exampleServer.heap r = exampleFresh.heap r :=
  change_is_authorised exampleConfig _ exampleFresh exampleServer 0 exampleClient _ _ _ 0
    run_exampleFresh (step_eq_some (by decide)) (by decide)

/-- **The nonce of a request with another user name is stored.** -/
theorem nonce_of_other_user :
    (∃ trace, Run exampleConfig trace exampleServer) ∧
      ∃ s' sent a a' msg, exampleServer.step exampleConfig (.internalPacket 0 exampleClient
          (exampleRefresh (text "v")) none) = some (s', sent) ∧
        StunMessage.read .turn (exampleRefresh (text "v")).bytes = some (msg, []) ∧
        exampleServer.heap 0 = some a ∧ s'.heap 0 = some a' ∧ a'.lastNonce ≠ a.lastNonce ∧
        msg.getString attrUsername ≠ some a.username := by
  let credentials : List StunAttribute := [⟨attrUsername, .byteString (text "v")⟩,
    ⟨attrRealm, .byteString (text "r")⟩, ⟨attrNonce, .byteString (List.replicate 40 0x30)⟩,
    ⟨attrMessageIntegrity, .byteString (List.replicate 20 0)⟩]
  let a : Allocation :=
    { conn := ⟨exampleClient, .ofIP .unspec 0, .udp, 0⟩, externalAddr := .ofIP (.v4 0x09090909) 5000,
      key := [1], transactionId := List.replicate 16 0x30, username := text "u", timers := [600000] }
  refine ⟨run_exampleServer, _, _, a,
    { a with lastNonce := List.replicate 40 0x30 }, ⟨.turn, turnRefreshRequest, 84,
      List.replicate 16 0x30, credentials⟩, step_eq_some (by decide +kernel), by decide +kernel,
    by decide +kernel, by decide +kernel, by decide +kernel, by decide +kernel⟩

end TurnServer

end Libjingle
