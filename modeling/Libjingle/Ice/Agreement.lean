import Libjingle.Stun.Attributes
import Libjingle.Ice.Session

/-!
# Role conflicts are resolved the same way on both sides

Main result: **`roles_agree`**.
-/

variable {actions : List IceAction} {msgs : List StunMessage} {role : IceRole} {request : StunMessage}
  {addr : SocketAddress}

namespace Libjingle

open Lib StunMessage

/-! ## Messages -/

/-- A check of a port in the role `role`, with its tiebreaker. -/
structure Carries (msg : StunMessage) (role : IceRole) (tiebreaker : Uint64) : Prop where
  controlling : msg.getValue64 attrIceControlling =
    if role = .controlling then some tiebreaker else none
  controlled : msg.getValue64 attrIceControlled = if role = .controlled then some tiebreaker else none

theorem errorCode_bindingErrorResponse (request : StunMessage) (code : ℕ) (reason : List Uint8) :
    (bindingErrorResponse request code reason).errorCode =
      some ((BitVec.ofNat 8 (code / 100)).toNat * 100 + (BitVec.ofNat 8 (code % 100)).toNat) := by
  unfold errorCode getErrorCode bindingErrorResponse
  rw [show attrErrorCode = (stunErrorCodeAttribute code reason).type from rfl, getAttribute_first]
  · rfl
  · rw [setTransactionID_kind]
    rfl
  · simp only [getAttribute, setTransactionID_attrs]
    rfl

theorem type_bindingErrorResponse (request : StunMessage) (code : ℕ) (reason : List Uint8) :
    (bindingErrorResponse request code reason).type = stunBindingErrorResponse := by
  unfold bindingErrorResponse
  rw [addAttribute_type, setTransactionID_type]
  rfl

theorem getAttribute_bindingResponse {type : Uint16}
    (hcount : attrRetransmitCount ≠ type) (haddr : attrXorMappedAddress ≠ type) :
    (bindingResponse request addr).getAttribute type = none := by
  unfold bindingResponse
  dsimp only
  rw [getAttribute_skip haddr]
  split
  · rw [getAttribute_skip hcount]
    simp only [getAttribute, setTransactionID_attrs]
    rfl
  · simp only [getAttribute, setTransactionID_attrs]
    rfl

theorem type_bindingResponse (request : StunMessage) (addr : SocketAddress) :
    (bindingResponse request addr).type = stunBindingResponse := by
  unfold bindingResponse
  dsimp only
  rw [addAttribute_type]
  split
  · rw [addAttribute_type, setTransactionID_type]
    rfl
  · rw [setTransactionID_type]
    rfl

section prepare

variable {e : IceEndpoint} {id : List Uint8} {count : Option Uint32} {useCandidate : Bool}
  {priority : Uint32} {type : Uint16}

theorem prepareUsername_kind : (e.prepareUsername id count).kind = .ice := by
  unfold IceEndpoint.prepareUsername
  dsimp only
  split <;> simp only [addAttribute_kind, setTransactionID_kind] <;> rfl

theorem getAttribute_prepareUsername (husername : attrUsername ≠ type)
    (hcount : attrRetransmitCount ≠ type) : (e.prepareUsername id count).getAttribute type = none := by
  have hempty : (((StunMessage.new .ice).setType stunBindingRequest).setTransactionID id).1.getAttribute
      type = none := by
    simp only [getAttribute, setTransactionID_attrs]
    rfl
  unfold IceEndpoint.prepareUsername
  dsimp only
  split
  · rw [getAttribute_skip hcount, getAttribute_skip husername, hempty]
  · rw [getAttribute_skip husername, hempty]

theorem getAttribute_prepare (husername : attrUsername ≠ type) (hcount : attrRetransmitCount ≠ type)
    (hcandidate : attrUseCandidate ≠ type) (hpriority : attrPriority ≠ type) :
    (e.prepare id count useCandidate priority).getAttribute type =
      match e.port.iceRole with
      | .controlling =>
        if attrIceControlling = type then some ⟨attrIceControlling, .uint64 e.port.tiebreaker⟩ else none
      | .controlled =>
        if attrIceControlled = type then some ⟨attrIceControlled, .uint64 e.port.tiebreaker⟩ else none
      | .unknown => none := by
  have hnone : (e.prepareUsername id count).getAttribute type = none :=
    getAttribute_prepareUsername husername hcount
  have hrole : ∀ attr : StunAttribute, attr.value.valueType = iceValueType attr.type →
      ((e.prepareUsername id count).addAttribute attr).1.getAttribute type =
        if attr.type = type then some attr else none := by
    intro attr hattr
    split_ifs with htype
    · rw [← htype] at hnone ⊢
      exact getAttribute_first (by rw [prepareUsername_kind]; exact hattr) hnone
    · rw [getAttribute_skip htype, hnone]
  unfold IceEndpoint.prepare IceEndpoint.addRole
  rw [getAttribute_skip hpriority]
  cases e.port.iceRole with
  | controlling =>
    dsimp only
    split_ifs with huse htype htype
    · rw [getAttribute_skip hcandidate, hrole _ rfl, if_pos htype]
    · rw [getAttribute_skip hcandidate, hrole _ rfl, if_neg htype]
    · rw [hrole _ rfl, if_pos htype]
    · rw [hrole _ rfl, if_neg htype]
  | controlled => exact hrole _ rfl
  | unknown => exact hnone

theorem carries_prepare (h : e.port.iceRole ≠ .unknown) :
    Carries (e.prepare id count useCandidate priority) e.port.iceRole e.port.tiebreaker := by
  constructor
  · unfold getValue64 getUInt64
    rw [getAttribute_prepare (by decide) (by decide) (by decide) (by decide)]
    cases hrole : e.port.iceRole with
    | controlling => rfl
    | controlled => rfl
    | unknown => exact absurd hrole h
  · unfold getValue64 getUInt64
    rw [getAttribute_prepare (by decide) (by decide) (by decide) (by decide)]
    cases hrole : e.port.iceRole with
    | controlling => rfl
    | controlled => rfl
    | unknown => exact absurd hrole h

theorem errorCode_prepare : (e.prepare id count useCandidate priority).errorCode = none := by
  unfold errorCode getErrorCode
  rw [getAttribute_prepare (by decide) (by decide) (by decide) (by decide)]
  cases e.port.iceRole <;> rfl

end prepare

/-! ## Who gives way -/

def GivesWay (role : IceRole) (mine other : Uint64) : Prop :=
  match role with
  | .controlling => mine < other
  | .controlled => other < mine
  | .unknown => False

theorem GivesWay.asymm {mine other : Uint64} (h : GivesWay role mine other) : ¬GivesWay role other mine := by
  cases role with
  | controlling => exact BitVec.not_lt.mpr (BitVec.le_of_lt h)
  | controlled => exact BitVec.not_lt.mpr (BitVec.le_of_lt h)
  | unknown => exact h.elim

theorem givesWay_or (role : IceRole) {mine other : Uint64} (hrole : role ≠ .unknown)
    (hne : mine ≠ other) : GivesWay role mine other ∨ GivesWay role other mine := by
  have htotal : mine < other ∨ other < mine := by
    simp only [BitVec.lt_def]
    have hne' : mine.toNat ≠ other.toNat := fun h => hne (BitVec.eq_of_toNat_eq h)
    omega
  cases role with
  | controlling => exact htotal
  | controlled => exact htotal.symm
  | unknown => exact absurd rfl hrole

theorem maybeIceRoleConflict_spec {port : IcePort} {msg : StunMessage} (ufrag : List Uint8) {tiebreaker : Uint64} (hmsg : Carries msg role tiebreaker)
    (hrole : role ≠ .unknown) (hport : port.iceRole ≠ .unknown) (hne : port.tiebreaker ≠ tiebreaker) :
    (port.iceRole ≠ role ∧ port.maybeIceRoleConflict msg ufrag = (true, [])) ∨
      (port.iceRole = role ∧ GivesWay role port.tiebreaker tiebreaker ∧
        port.maybeIceRoleConflict msg ufrag = (true, [.roleConflict])) ∨
      (port.iceRole = role ∧ GivesWay role tiebreaker port.tiebreaker ∧
        port.maybeIceRoleConflict msg ufrag = (false, [IcePort.roleConflictResponse msg])) := by
  obtain ⟨hcontrolling, hcontrolled⟩ := hmsg
  have hself : ¬(msg.getValue64 attrIceControlling = some port.tiebreaker ∧
      port.usernameFragment = ufrag) := by
    rintro ⟨heq, -⟩
    rw [hcontrolling] at heq
    split_ifs at heq with h
    exact hne (Option.some.inj heq).symm
  unfold IcePort.maybeIceRoleConflict
  rw [if_neg hself, hcontrolling, hcontrolled]
  cases role with
  | unknown => exact absurd rfl hrole
  | controlling =>
    cases hown : port.iceRole with
    | unknown => exact absurd hown hport
    | controlled => exact .inl ⟨nofun, rfl⟩
    | controlling =>
      rcases givesWay_or .controlling nofun hne with hway | hway
      · exact .inr (.inl ⟨rfl, hway, if_pos (BitVec.le_of_lt hway)⟩)
      · exact .inr (.inr ⟨rfl, hway, if_neg (BitVec.not_le.mpr hway)⟩)
  | controlled =>
    cases hown : port.iceRole with
    | unknown => exact absurd hown hport
    | controlling => exact .inl ⟨nofun, rfl⟩
    | controlled =>
      rcases givesWay_or .controlled nofun hne with hway | hway
      · exact .inr (.inl ⟨rfl, hway, if_pos hway⟩)
      · exact .inr (.inr ⟨rfl, hway, if_neg (BitVec.not_lt.mpr (BitVec.le_of_lt hway))⟩)

section network

variable {config : Side → IceConfig} {side : Side} {e : IceEndpoint} {msg : StunMessage}

/-- Both sessions start in the same role, and the side gives way. -/
def Yields (config : Side → IceConfig) (side : Side) : Prop :=
  (config side).initiator = (config side.other).initiator ∧
    GivesWay (initialRole (config side).initiator) (config side).tiebreaker
      (config side.other).tiebreaker

@[simp] theorem Side.other_other (side : Side) : side.other.other = side := by
  cases side <;> rfl

theorem Yields.asymm (h : Yields config side) : ¬Yields config side.other := by
  rintro ⟨-, hway⟩
  rw [Side.other_other, ← h.1] at hway
  exact h.2.asymm hway

def MayHave (config : Side → IceConfig) (side : Side) (role : IceRole) : Prop :=
  role = initialRole (config side).initiator ∨
    (Yields config side ∧ role = initialRole !(config side).initiator)

theorem initialRole_ne_unknown (initiator : Bool) : initialRole initiator ≠ .unknown := by
  cases initiator <;> exact nofun

theorem initialRole_inj {a b : Bool} : initialRole a = initialRole b ↔ a = b := by
  cases a <;> cases b <;> decide

theorem MayHave.ne_unknown (h : MayHave config side role) : role ≠ .unknown := by
  rcases h with rfl | ⟨-, rfl⟩
  · exact initialRole_ne_unknown _
  · exact initialRole_ne_unknown _

theorem MayHave.initial (h : MayHave config side role) (h' : MayHave config side.other role) :
    role = initialRole (config side).initiator ∧
      (config side).initiator = (config side.other).initiator := by
  rcases h with rfl | ⟨hyields, rfl⟩
  · refine ⟨rfl, ?_⟩
    rcases h' with heq | ⟨hyields', heq⟩
    · exact initialRole_inj.mp heq
    · rw [initialRole_inj, hyields'.1, Side.other_other] at heq
      exact absurd heq (by cases (config side).initiator <;> decide)
  · rcases h' with heq | ⟨hyields', -⟩
    · rw [initialRole_inj, ← hyields.1] at heq
      exact absurd heq (by cases (config side).initiator <;> decide)
    · exact absurd hyields' hyields.asymm

/-! ## The invariant -/

/-- An endpoint has its initial role, or gave way and has switched. -/
structure RoleSettled (config : Side → IceConfig) (side : Side) (e : IceEndpoint) : Prop where
  initiator : e.initiator = (config side).initiator
  tiebreaker : e.port.tiebreaker = (config side).tiebreaker
  channel : e.channelRole = e.port.iceRole
  role : e.port.iceRole = initialRole (if e.roleSwitch then !e.initiator else e.initiator)
  switched : e.roleSwitch = true → Yields config side
  signalled : 0 < e.conflictSignals → Yields config side

/-- A message of a side: a check in one of its roles, or a 487 to the side that gives way. -/
structure Fair (config : Side → IceConfig) (side : Side) (msg : StunMessage) : Prop where
  check : msg.type = stunBindingRequest →
    ∃ role, MayHave config side role ∧ Carries msg role (config side).tiebreaker
  error : msg.errorCode = some stunErrorRoleConflict → Yields config side.other

theorem RoleSettled.mayHave (h : RoleSettled config side e) : MayHave config side e.port.iceRole := by
  rw [MayHave, h.role, h.initiator]
  split_ifs with hswitch
  · exact .inr ⟨h.switched hswitch, rfl⟩
  · exact .inl rfl

/-- The actions of a side are those that the tie-breakers call for. -/
structure FairActions (config : Side → IceConfig) (side : Side) (actions : List IceAction) : Prop where
  signal : .roleConflict ∈ actions → Yields config side
  send : ∀ msg, .send msg ∈ actions → Fair config side msg

theorem fair_bindingErrorResponse {code : ℕ} {reason : List Uint8}
    (h : (BitVec.ofNat 8 (code / 100)).toNat * 100 + (BitVec.ofNat 8 (code % 100)).toNat =
      stunErrorRoleConflict → Yields config side.other) :
    Fair config side (bindingErrorResponse request code reason) where
  check htype := by
    rw [type_bindingErrorResponse] at htype
    exact absurd htype (by decide)
  error hcode := by
    rw [errorCode_bindingErrorResponse] at hcode
    exact h (Option.some.inj hcode)

theorem fair_bindingResponse :
    Fair config side (bindingResponse request addr) where
  check htype := by
    rw [type_bindingResponse] at htype
    exact absurd htype (by decide)
  error hcode := by
    unfold errorCode getErrorCode at hcode
    rw [getAttribute_bindingResponse (by decide) (by decide)] at hcode
    cases hcode

theorem fair_prepare (h : RoleSettled config side e) {id : List Uint8} {count : Option Uint32}
    {useCandidate : Bool} {priority : Uint32} :
    Fair config side (e.prepare id count useCandidate priority) where
  check _ := ⟨e.port.iceRole, h.mayHave, h.tiebreaker ▸ carries_prepare h.mayHave.ne_unknown⟩
  error hcode := by
    rw [errorCode_prepare] at hcode
    cases hcode

theorem fairActions_nil : FairActions config side [] where
  signal h := absurd h List.not_mem_nil
  send _ h := absurd h List.not_mem_nil

theorem fairActions_send (h : Fair config side msg) : FairActions config side [.send msg] where
  signal hmem := absurd (List.mem_singleton.mp hmem) nofun
  send msg' hmem := by
    obtain rfl := IceAction.send.inj (List.mem_singleton.mp hmem)
    exact h

theorem fairActions_signal (h : Yields config side) : FairActions config side [.roleConflict] where
  signal _ := h
  send _ hmem := absurd (List.mem_singleton.mp hmem) nofun

theorem FairActions.append {actions' : List IceAction} (h : FairActions config side actions)
    (h' : FairActions config side actions') : FairActions config side (actions ++ actions') where
  signal hmem := (List.mem_append.mp hmem).elim h.signal h'.signal
  send msg hmem := (List.mem_append.mp hmem).elim (h.send msg) (h'.send msg)

theorem getStunMessage_error {port : IcePort} {action : IceAction}
    (h : port.getStunMessage msg = .error action) : FairActions config side [action] := by
  unfold IcePort.getStunMessage at h
  split at h
  · rw [← Except.error.inj h]
    exact fairActions_send (fair_bindingErrorResponse fun h => absurd h (by decide))
  · split at h
    · rw [← Except.error.inj h]
      exact fairActions_send (fair_bindingErrorResponse fun h => absurd h (by decide))
    · split_ifs at h
      rw [← Except.error.inj h]
      exact fairActions_send (fair_bindingErrorResponse fun h => absurd h (by decide))

theorem fair_onUnknownAddress {ufrag : List Uint8} : FairActions config side [e.onUnknownAddress addr msg ufrag] := by
  unfold IceEndpoint.onUnknownAddress
  split_ifs
  · exact fairActions_send (fair_bindingErrorResponse fun h => absurd h (by decide))
  · exact fairActions_send (fair_bindingErrorResponse fun h => absurd h (by decide))
  · exact fairActions_send fair_bindingResponse

theorem fair_onConnectionRequestErrorResponse (hmsg : Fair config side.other msg) :
    FairActions config side (IceEndpoint.onConnectionRequestErrorResponse msg) := by
  unfold IceEndpoint.onConnectionRequestErrorResponse
  dsimp only
  split_ifs with hcode
  · cases herror : msg.errorCode with
    | none =>
      rw [herror] at hcode
      exact absurd hcode (by decide)
    | some code =>
      rw [herror, Option.getD_some] at hcode
      have hyields := hmsg.error (hcode ▸ herror)
      rw [Side.other_other] at hyields
      exact fairActions_signal hyields
  · exact fairActions_nil

theorem checkResponse_spec (hmsg : Fair config side.other msg) :
    (∃ requests, (e.checkResponse msg).1 = { e with requests := requests }) ∧
      FairActions config side (e.checkResponse msg).2 := by
  unfold IceEndpoint.checkResponse
  split_ifs
  · exact ⟨⟨_, rfl⟩, fairActions_nil⟩
  · exact ⟨⟨_, rfl⟩, fair_onConnectionRequestErrorResponse hmsg⟩
  · exact ⟨⟨_, rfl⟩, fairActions_nil⟩
  · exact ⟨⟨_, rfl⟩, fairActions_nil⟩

variable (hdistinct : (config side).tiebreaker ≠ (config side.other).tiebreaker)
include hdistinct

theorem maybeIceRoleConflict_fair (h : RoleSettled config side e) (hmsg : Fair config side.other msg)
    (htype : msg.type = stunBindingRequest) (ufrag : List Uint8) :
    FairActions config side (e.port.maybeIceRoleConflict msg ufrag).2 := by
  obtain ⟨role, hrole, hcarries⟩ := hmsg.check htype
  rcases maybeIceRoleConflict_spec ufrag hcarries hrole.ne_unknown h.mayHave.ne_unknown
    (h.tiebreaker ▸ hdistinct) with ⟨-, heq⟩ | ⟨hsame, hway, heq⟩ | ⟨hsame, hway, heq⟩
  · rw [heq]
    exact fairActions_nil
  · rw [heq]
    obtain ⟨hinitial, hinitiator⟩ := MayHave.initial (hsame ▸ h.mayHave) hrole
    rw [h.tiebreaker, hinitial] at hway
    exact fairActions_signal ⟨hinitiator, hway⟩
  · rw [heq]
    obtain ⟨hinitial, hinitiator⟩ := MayHave.initial (hsame ▸ h.mayHave) hrole
    rw [h.tiebreaker, hinitial, hinitiator] at hway
    refine fairActions_send (fair_bindingErrorResponse fun _ => ⟨?_, ?_⟩)
    · rw [Side.other_other, hinitiator]
    · rw [Side.other_other]
      exact hway

theorem onBindingRequest_fair (h : RoleSettled config side e) (hmsg : Fair config side.other msg)
    (htype : msg.type = stunBindingRequest) : FairActions config side (e.onBindingRequest msg) := by
  unfold IceEndpoint.onBindingRequest
  split
  · next action haction => exact getStunMessage_error haction
  · next ufrag _ =>
    have hfair := maybeIceRoleConflict_fair hdistinct h hmsg htype ufrag
    split_ifs with hufrag
    · dsimp only
      split_ifs
      · exact hfair.append (fairActions_send fair_bindingResponse)
      · exact hfair
    · exact fairActions_send (fair_bindingErrorResponse fun h => absurd h (by decide))

theorem onUnknownPacket_fair (h : RoleSettled config side e) (hmsg : Fair config side.other msg)
    (addr : SocketAddress) : FairActions config side (e.onUnknownPacket addr msg) := by
  unfold IceEndpoint.onUnknownPacket
  split_ifs with htype
  · split
    · next action haction => exact getStunMessage_error haction
    · next ufrag _ =>
      have hfair := maybeIceRoleConflict_fair hdistinct h hmsg htype ufrag
      dsimp only
      split_ifs
      · exact hfair.append fair_onUnknownAddress
      · exact hfair
  · exact fairActions_nil

theorem onReadPacket_spec (h : RoleSettled config side e) (hmsg : Fair config side.other msg) :
    (∃ requests, (e.onReadPacket msg).1 = { e with requests := requests }) ∧
      FairActions config side (e.onReadPacket msg).2 := by
  unfold IceEndpoint.onReadPacket
  split_ifs with htype
  · exact ⟨⟨_, rfl⟩, onBindingRequest_fair hdistinct h hmsg htype⟩
  · exact checkResponse_spec hmsg
  · exact checkResponse_spec hmsg
  · exact ⟨⟨_, rfl⟩, fairActions_nil⟩

omit hdistinct

/-! ## Endpoints -/

@[simp] theorem post_roleSwitch (actions : List IceAction) : (e.post actions).roleSwitch = e.roleSwitch := rfl

theorem RoleSettled.requests (h : RoleSettled config side e) (requests : List (List Uint8)) :
    RoleSettled config side { e with requests := requests } :=
  ⟨h.initiator, h.tiebreaker, h.channel, h.role, h.switched, h.signalled⟩

theorem RoleSettled.post (h : RoleSettled config side e)
    (hactions : FairActions config side actions) : RoleSettled config side (e.post actions) where
  initiator := h.initiator
  tiebreaker := h.tiebreaker
  channel := h.channel
  role := h.role
  switched := h.switched
  signalled hpos := by
    rcases Nat.eq_zero_or_pos e.conflictSignals with hzero | hsignal
    · refine hactions.signal (List.count_pos_iff.mp ?_)
      rwa [IceEndpoint.post, hzero, Nat.zero_add] at hpos
    · exact h.signalled hsignal

theorem setIceRole_eq (hchannel : e.channelRole = e.port.iceRole) (role : IceRole) :
    e.setIceRole role = { e with
      transportRole := role, channelRole := role, port := { e.port with iceRole := role } } := by
  obtain ⟨_, _, _, channelRole, ⟨iceRole, _, _⟩, _, _, _, _⟩ := e
  obtain rfl : channelRole = iceRole := hchannel
  unfold IceEndpoint.setIceRole IceEndpoint.setChannelRole
  split_ifs with hrole
  · rfl
  · obtain rfl : channelRole = role := not_not.mp hrole
    rfl

theorem RoleSettled.onRoleConflict (h : RoleSettled config side e) (hsignal : 0 < e.conflictSignals) :
    RoleSettled config side e.onRoleConflict := by
  by_cases hswitch : e.roleSwitch = true
  · rwa [IceEndpoint.onRoleConflict, if_pos hswitch]
  · rw [IceEndpoint.onRoleConflict, if_neg hswitch]
    have hchannel : ({ e with roleSwitch := true } : IceEndpoint).channelRole = e.port.iceRole := h.channel
    dsimp only
    rw [setIceRole_eq hchannel]
    refine ⟨h.initiator, h.tiebreaker, rfl, ?_, fun _ => h.signalled hsignal, h.signalled⟩
    cases e.initiator <;> rfl

theorem setIceRole_roleSwitch (role : IceRole) : (e.setIceRole role).roleSwitch = e.roleSwitch := by
  unfold IceEndpoint.setIceRole IceEndpoint.setChannelRole
  split_ifs <;> rfl

theorem onRoleConflict_roleSwitch : e.onRoleConflict.roleSwitch = true := by
  by_cases hswitch : e.roleSwitch = true
  · rwa [IceEndpoint.onRoleConflict, if_pos hswitch]
  · rw [IceEndpoint.onRoleConflict, if_neg hswitch]
    exact setIceRole_roleSwitch _

/-! ## Runs -/

/-- **The invariant of two sessions.** -/
structure Agreed (config : Side → IceConfig) (net : IceNetwork) : Prop where
  settled : ∀ side, RoleSettled config side (net.endpoint side)
  fair : ∀ side, ∀ msg ∈ net.sent side, Fair config side msg

theorem agreed_network : Agreed config (IceConfig.network config) where
  settled _ :=
    ⟨rfl, rfl, rfl, rfl, fun h => absurd h Bool.false_ne_true, fun h => absurd h (lt_irrefl 0)⟩
  fair _ _ h := absurd h List.not_mem_nil

variable {net : IceNetwork}

@[simp] theorem update_endpoint (side' : Side) :
    (net.update side e msgs).endpoint side' = if side' = side then e else net.endpoint side' :=
  Function.update_apply _ _ _ _

@[simp] theorem update_sent (side' : Side) :
    (net.update side e msgs).sent side' =
      if side' = side then net.sent side ++ msgs else net.sent side' :=
  Function.update_apply _ _ _ _

theorem Agreed.update (h : Agreed config net)
    (he : RoleSettled config side e) (hmsgs : ∀ msg ∈ msgs, Fair config side msg) :
    Agreed config (net.update side e msgs) where
  settled side' := by
    rw [update_endpoint]
    split_ifs with heq
    · rwa [heq]
    · exact h.settled side'
  fair side' msg hmem := by
    rw [update_sent] at hmem
    split_ifs at hmem with heq
    · rw [heq]
      exact (List.mem_append.mp hmem).elim (h.fair side msg) (hmsgs msg)
    · exact h.fair side' msg hmem

theorem FairActions.messages (h : FairActions config side actions) :
    ∀ msg ∈ IceAction.messages actions, Fair config side msg := by
  intro msg hmem
  obtain ⟨action, haction, heq⟩ := List.mem_filterMap.mp hmem
  cases action with
  | send msg' => exact h.send msg (Option.some.inj heq ▸ haction)
  | roleConflict => cases heq

theorem tiebreaker_ne (hdistinct : (config .left).tiebreaker ≠ (config .right).tiebreaker)
    (side : Side) : (config side).tiebreaker ≠ (config side.other).tiebreaker := by
  cases side with
  | left => exact hdistinct
  | right => exact hdistinct.symm

/-- **Every event keeps the roles in agreement**. -/
theorem Agreed.step (hdistinct : (config .left).tiebreaker ≠ (config .right).tiebreaker)
    (h : Agreed config net) (ev : IceNetwork.Event) : Agreed config (net.step ev) := by
  cases ev with
  | ping side id count useCandidate priority =>
    refine h.update ((h.settled side).requests _) fun msg hmem => ?_
    rw [List.mem_singleton.mp hmem]
    exact fair_prepare (h.settled side)
  | deliver side n =>
    simp only [IceNetwork.step]
    split
    · exact h
    · next msg hmsg =>
      obtain ⟨⟨requests, hrequests⟩, hactions⟩ := onReadPacket_spec (tiebreaker_ne hdistinct side)
        (h.settled side) (h.fair side.other msg (List.mem_of_getElem? hmsg))
      rw [hrequests]
      exact h.update (((h.settled side).requests _).post hactions) hactions.messages
  | unknown side n addr =>
    simp only [IceNetwork.step]
    split
    · exact h
    · next msg hmsg =>
      have hactions := onUnknownPacket_fair (tiebreaker_ne hdistinct side) (h.settled side)
        (h.fair side.other msg (List.mem_of_getElem? hmsg)) addr
      exact h.update ((h.settled side).post hactions) hactions.messages
  | conflict side =>
    simp only [IceNetwork.step]
    split_ifs with hsignal
    · refine h.update ((h.settled side).onRoleConflict hsignal) fun _ hmem => ?_
      exact absurd hmem List.not_mem_nil
    · exact h
  | timeout side id =>
    exact h.update ((h.settled side).requests _) fun _ hmem => absurd hmem List.not_mem_nil

theorem onReadPacket_roleSwitch : (e.onReadPacket msg).1.roleSwitch = e.roleSwitch := by
  unfold IceEndpoint.onReadPacket IceEndpoint.checkResponse
  split_ifs <;> rfl

theorem step_roleSwitch (ev : IceNetwork.Event) (h : (net.endpoint side).roleSwitch = true) :
    ((net.step ev).endpoint side).roleSwitch = true := by
  have hupdate : ∀ {side' e msgs}, (e.roleSwitch = (net.endpoint side').roleSwitch ∨
      e.roleSwitch = true) → ((net.update side' e msgs).endpoint side).roleSwitch = true := by
    intro side' e msgs hkeeps
    rw [update_endpoint]
    split_ifs with heq
    · exact hkeeps.elim (fun hsame => by rw [hsame, ← heq, h]) id
    · exact h
  cases ev with
  | ping side' id count useCandidate priority => exact hupdate (.inl rfl)
  | deliver side' n =>
    simp only [IceNetwork.step]
    split
    · exact h
    · exact hupdate (.inl (by rw [post_roleSwitch, onReadPacket_roleSwitch]))
  | unknown side' n addr =>
    simp only [IceNetwork.step]
    split
    · exact h
    · exact hupdate (.inl (post_roleSwitch _))
  | conflict side' =>
    simp only [IceNetwork.step]
    split_ifs
    · exact hupdate (.inr onRoleConflict_roleSwitch)
    · exact h
  | timeout side' id => exact hupdate (.inl rfl)

theorem run_roleSwitch (evs : List IceNetwork.Event) (h : (net.endpoint side).roleSwitch = true) :
    ((run IceNetwork.step net evs).endpoint side).roleSwitch = true := by
  induction evs generalizing net with
  | nil => exact h
  | cons ev evs ih => exact ih (step_roleSwitch ev h)

theorem Agreed.role_eq (h : Agreed config net) (side : Side) :
    net.role side = initialRole (if (net.endpoint side).roleSwitch then !(config side).initiator
      else (config side).initiator) := by
  rw [IceNetwork.role, IceEndpoint.role, (h.settled side).role, (h.settled side).initiator]

theorem Agreed.of_run (hdistinct : (config .left).tiebreaker ≠ (config .right).tiebreaker)
    (h : Agreed config net) (evs : List IceNetwork.Event) :
    Agreed config (run IceNetwork.step net evs) :=
  run_invariant (fun _ ev hagreed _ => hagreed.step hdistinct ev) h (guarded_true net evs)

theorem Agreed.switches_add (hdistinct : (config .left).tiebreaker ≠ (config .right).tiebreaker)
    (h : Agreed config net) (evs : List IceNetwork.Event) :
    switches side net evs + (net.endpoint side).roleSwitch.toNat =
      ((run IceNetwork.step net evs).endpoint side).roleSwitch.toNat := by
  induction evs generalizing net with
  | nil => exact Nat.zero_add _
  | cons ev evs ih =>
    have hstep := h.step hdistinct ev
    have hchange : (if (net.step ev).role side ≠ net.role side then 1 else 0) +
        (net.endpoint side).roleSwitch.toNat = ((net.step ev).endpoint side).roleSwitch.toNat := by
      rw [hstep.role_eq, h.role_eq]
      cases hbefore : (net.endpoint side).roleSwitch with
      | true =>
        rw [step_roleSwitch ev hbefore]
        simp
      | false =>
        cases ((net.step ev).endpoint side).roleSwitch with
        | true => cases (config side).initiator <;> rfl
        | false => simp
    rw [run_cons, ← ih hstep, ← hchange, switches]
    omega

theorem Agreed.opposite (h : Agreed config net) (hswitch : (net.endpoint side).roleSwitch = true) :
    net.role side = initialRole !(config side).initiator ∧
      net.role side.other = initialRole (config side).initiator := by
  have hyields : Yields config side := (h.settled side).switched hswitch
  have hother : (net.endpoint side.other).roleSwitch = false :=
    Bool.eq_false_iff.mpr fun htrue => hyields.asymm ((h.settled side.other).switched htrue)
  rw [h.role_eq, h.role_eq, hswitch, hother, if_pos rfl, if_neg Bool.false_ne_true, hyields.1]
  exact ⟨rfl, rfl⟩

end network

/-! ## Agreement -/

/-- One side is controlling, the other one is controlled. -/
def IceNetwork.Opposite (net : IceNetwork) : Prop :=
  ∃ side, net.role side = .controlling ∧ net.role side.other = .controlled

theorem opposite_of {net : IceNetwork} {side : Side} {initiator : Bool}
    (hside : net.role side = initialRole !initiator)
    (hother : net.role side.other = initialRole initiator) : net.Opposite := by
  cases initiator with
  | true => exact ⟨side.other, hother, by rw [Side.other_other]; exact hside⟩
  | false => exact ⟨side, hside, hother⟩

section agreement

variable {config : Side → IceConfig} {side : Side}

theorem network_role (side : Side) : (IceConfig.network config).role side = initialRole (config side).initiator := rfl

theorem opposite_network (h : (IceConfig.network config).Opposite) :
    (config side).initiator ≠ (config side.other).initiator := by
  obtain ⟨one, hone, hother⟩ := h
  rw [network_role] at hone hother
  have hne : (config one).initiator ≠ (config one.other).initiator := fun heq => by
    rw [← heq, hone] at hother
    cases hother
  cases one <;> cases side
  · exact hne
  · exact hne.symm
  · exact hne.symm
  · exact hne

theorem switched_of_pos (hdistinct : (config .left).tiebreaker ≠ (config .right).tiebreaker)
    {evs : List IceNetwork.Event} (h : 0 < switches side (IceConfig.network config) evs) :
    ((run IceNetwork.step (IceConfig.network config) evs).endpoint side).roleSwitch = true := by
  rw [← Nat.add_zero (switches side _ evs)] at h
  rw [show 0 = ((IceConfig.network config).endpoint side).roleSwitch.toNat from rfl,
    agreed_network.switches_add hdistinct] at h
  cases hswitch : ((run IceNetwork.step (IceConfig.network config) evs).endpoint side).roleSwitch with
  | true => rfl
  | false =>
    rw [hswitch] at h
    exact absurd h (lt_irrefl 0)

theorem yields_of_pos (hdistinct : (config .left).tiebreaker ≠ (config .right).tiebreaker)
    {evs : List IceNetwork.Event} (h : 0 < switches side (IceConfig.network config) evs) :
    Yields config side :=
  ((agreed_network.of_run hdistinct evs).settled side).switched (switched_of_pos hdistinct h)

end agreement

/-- **Role conflicts are resolved the same way on both sides**: opposite sides stay, only the side
that gives way switches, once, and the roles are opposite afterwards. -/
theorem roles_agree (config : Side → IceConfig) (hdistinct : (config .left).tiebreaker ≠ (config .right).tiebreaker)
    (evs : List IceNetwork.Event) :
    ((IceConfig.network config).Opposite →
      ∀ side, switches side (IceConfig.network config) evs = 0) ∧
    ((∀ side, (IceConfig.network config).role side = .controlling) →
      ∀ side, 0 < switches side (IceConfig.network config) evs →
        (config side).tiebreaker < (config side.other).tiebreaker) ∧
    ((∀ side, (IceConfig.network config).role side = .controlled) →
      ∀ side, 0 < switches side (IceConfig.network config) evs →
        (config side.other).tiebreaker < (config side).tiebreaker) ∧
    (∀ side, switches side (IceConfig.network config) evs ≤ 1) ∧
    ∀ pre post, evs = pre ++ post → (∃ side, 0 < switches side (IceConfig.network config) pre) →
      (run IceNetwork.step (IceConfig.network config) evs).Opposite := by
  refine ⟨fun hopposite side => ?_, fun hrole side hswitch => ?_, fun hrole side hswitch => ?_,
    fun side => ?_, ?_⟩
  · refine Nat.eq_zero_of_not_pos fun hswitch => ?_
    exact opposite_network hopposite (yields_of_pos hdistinct hswitch).1
  · have hway := (yields_of_pos hdistinct hswitch).2
    rwa [← network_role, hrole side] at hway
  · have hway := (yields_of_pos hdistinct hswitch).2
    rwa [← network_role, hrole side] at hway
  · calc switches side (IceConfig.network config) evs
        ≤ switches side (IceConfig.network config) evs +
            ((IceConfig.network config).endpoint side).roleSwitch.toNat := Nat.le_add_right _ _
      _ = ((run IceNetwork.step (IceConfig.network config) evs).endpoint side).roleSwitch.toNat :=
          agreed_network.switches_add hdistinct evs
      _ ≤ 1 := Bool.toNat_le _
  · rintro pre post rfl ⟨side, hswitch⟩
    have hthen := run_roleSwitch post (switched_of_pos hdistinct hswitch)
    rw [← run_append] at hthen
    have hroles := (agreed_network.of_run hdistinct (pre ++ post)).opposite hthen
    exact opposite_of hroles.1 hroles.2

/-- Both sessions take themselves for the initiator. -/
def twoInitiators : Side → IceConfig
  | .left => ⟨true, 1, text "left", text "right", .ofIP (.v4 0x0a000002) 5000⟩
  | .right => ⟨true, 2, text "right", text "left", .ofIP (.v4 0x0a000001) 5000⟩

/-- A check of the right side makes the left side switch. -/
def leftGivesWay : List IceNetwork.Event :=
  [.ping .right (List.replicate 12 7) none false 0, .deliver .left 0, .conflict .left, .deliver .left 0,
    .conflict .left]

theorem roles_agree_twoInitiators :
    switches .left (IceConfig.network twoInitiators) leftGivesWay = 1 ∧
      switches .right (IceConfig.network twoInitiators) leftGivesWay ≤ 1 ∧
      (run IceNetwork.step (IceConfig.network twoInitiators) leftGivesWay).Opposite := by
  have hdistinct : (twoInitiators .left).tiebreaker ≠ (twoInitiators .right).tiebreaker := by decide
  have hswitch : switches .left (IceConfig.network twoInitiators) leftGivesWay = 1 := by decide
  obtain ⟨-, -, -, honce, hopposite⟩ := roles_agree twoInitiators hdistinct leftGivesWay
  exact ⟨hswitch, honce .right,
    hopposite leftGivesWay [] (List.append_nil _).symm ⟨.left, by rw [hswitch]; exact Nat.one_pos⟩⟩

end Libjingle
