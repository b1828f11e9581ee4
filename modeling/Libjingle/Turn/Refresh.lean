import Libjingle.Turn.Input

/-!
# Refreshing a TURN allocation

The refresh requests of a client in time, in milliseconds: `ScheduleRefresh` posts a message that is due
after a delay, and the request is sent when the message comes. Repetitions are left out.

Main results: **`refreshed_in_time`**, **`short_lifetime_not_refreshed`**.
-/

variable {a : StunMessage × TurnRequest} {lifetime : Uint32} {kind : TurnRequestKind}

namespace Libjingle

open Lib StunMessage

namespace TurnPort

variable {w : TurnSurroundings} {s s' : TurnPort}

/-! ## Pending requests -/

def ids (s : TurnPort) : List (List Uint8) := s.requests.map TurnRequest.id

/-- The ids of the pending refresh requests. -/
def refreshIds (s : TurnPort) : List (List Uint8) :=
  (s.requests.filter fun r => r.kind = .refresh).map TurnRequest.id

/-- How often an id was drawn that a pending request had. -/
def collisions (s : TurnPort) : ℕ := s.faults.count .requestExists

/-- No request goes, and `n` refresh requests come. -/
structure Grows (n : ℕ) (s s' : TurnPort) : Prop where
  counts : s.collisions ≤ s'.collisions
  grows : s'.collisions = s.collisions → s.ids.Nodup →
    s'.ids.Nodup ∧ s.ids <+: s'.ids ∧
      ∃ new, new.length = n ∧ s'.refreshIds = s.refreshIds ++ new ∧ ∀ id ∈ new, id ∉ s.ids

theorem refreshIds_sublist (s : TurnPort) : s.refreshIds.Sublist s.ids :=
  List.filter_sublist.map TurnRequest.id

theorem not_mem_refreshIds (h : s.ids.Nodup) {r : TurnRequest} (hr : r ∈ s.requests)
    (hkind : r.kind ≠ .refresh) : r.id ∉ s.refreshIds := by
  intro hmem
  obtain ⟨r', hr', hid⟩ := List.mem_map.mp hmem
  obtain ⟨hr', hkind'⟩ := List.mem_filter.mp hr'
  obtain rfl : r' = r := List.inj_on_of_nodup_map h hr' hr hid
  exact hkind (of_decide_eq_true hkind')

theorem refreshIds_removeRequest (s : TurnPort) (id : List Uint8) :
    (s.removeRequest id).refreshIds = s.refreshIds.filter fun i => i ≠ id := by
  simp only [refreshIds, removeRequest, List.filter_map, List.filter_filter, Function.comp_def]
  refine congrArg (List.map TurnRequest.id) (List.filter_congr fun r _ => ?_)
  exact Bool.and_comm _ _

theorem nodup_removeRequest (h : s.ids.Nodup) (id : List Uint8) : (s.removeRequest id).ids.Nodup :=
  h.sublist (List.filter_sublist.map _)

namespace Grows

variable {m n : ℕ}

theorem of_eq (hids : s'.ids = s.ids) (hrefresh : s'.refreshIds = s.refreshIds)
    (hfaults : s'.collisions = s.collisions) : Grows 0 s s' where
  counts := hfaults.ge
  grows _ hs := by
    refine ⟨hids ▸ hs, hids ▸ List.prefix_refl _, [], rfl, ?_, fun _ h => absurd h List.not_mem_nil⟩
    rw [hrefresh, List.append_nil]

theorem refl (s : TurnPort) : Grows 0 s s := of_eq rfl rfl rfl

theorem trans {t : TurnPort} (h : Grows m s t) (h' : Grows n t s') : Grows (m + n) s s' where
  counts := h.counts.trans h'.counts
  grows heq hs := by
    have hst := h.counts
    have hts := h'.counts
    obtain ⟨ht, hpre, new, hlen, hrefresh, hnew⟩ := h.grows (by omega) hs
    obtain ⟨hs', hpre', new', hlen', hrefresh', hnew'⟩ := h'.grows (by omega) ht
    refine ⟨hs', hpre.trans hpre', new ++ new', by rw [List.length_append, hlen, hlen'], ?_, ?_⟩
    · rw [hrefresh', hrefresh, List.append_assoc]
    · intro id hid hmem
      rcases List.mem_append.mp hid with h | h
      · exact hnew id h hmem
      · exact hnew' id h (hpre.subset hmem)

theorem after {t : TurnPort} (h : Grows 0 s t) (h' : Grows n t s') : Grows n s s' :=
  Nat.zero_add n ▸ h.trans h'

theorem check (s : TurnPort) {fault : TurnFault} (hfault : fault ≠ .requestExists) (c : Bool) :
    Grows 0 s (s.check fault c) := by
  rw [check_eq]
  refine of_eq rfl rfl ?_
  cases c
  · simp [collisions, List.count_append, hfault]
  · simp [collisions]

theorem emit (s : TurnPort) (o : TurnOutput) : Grows 0 s (s.emit o) := of_eq rfl rfl rfl

theorem setState (s : TurnPort) (e : TurnEntry) (state : BindState) : Grows 0 s (s.setState e state) :=
  of_eq rfl rfl rfl

theorem sendRequest (s : TurnPort) (kind : TurnRequestKind) :
    Grows (if kind = .refresh then 1 else 0) s (s.sendRequest kind) := by
  have hcount : (s.sendRequest kind).collisions = s.collisions +
      if (s.requests.all fun r => r.id ≠ s.transactionIds 0) = true then 0 else 1 := by
    have hhash (c : Bool) : (if c = true then ([] : List TurnFault) else [.noHash]).count .requestExists = 0 := by
      cases c <;> rfl
    simp only [collisions, TurnPort.sendRequest, check_eq, List.count_append, hhash, Nat.add_zero]
    split_ifs <;> rfl
  refine ⟨by rw [hcount]; exact Nat.le_add_right _ _, fun heq hs => ?_⟩
  have hall : (s.requests.all fun r => r.id ≠ s.transactionIds 0) = true := by
    by_contra hne
    rw [hcount, if_neg hne] at heq
    omega
  have hfilter : s.requests.filter (fun r => r.id ≠ s.transactionIds 0) = s.requests :=
    List.filter_eq_self.mpr (List.all_eq_true.mp hall)
  have hrequests : (s.sendRequest kind).requests = s.requests ++ [⟨s.transactionIds 0, kind⟩] := by
    simp only [TurnPort.sendRequest, check_eq, hfilter]
  have hnew : s.transactionIds 0 ∉ s.ids := by
    intro hmem
    obtain ⟨r, hr, hid⟩ := List.mem_map.mp hmem
    exact of_decide_eq_true (List.all_eq_true.mp hall r hr) hid
  have hids : (s.sendRequest kind).ids = s.ids ++ [s.transactionIds 0] := by
    rw [ids, hrequests, List.map_append]
    rfl
  refine ⟨?_, hids ▸ List.prefix_append _ _, if kind = .refresh then [s.transactionIds 0] else [],
    ?_, ?_, ?_⟩
  · rw [hids]
    exact List.nodup_append.mpr ⟨hs, List.nodup_singleton _, fun a ha b hb hab =>
      hnew (List.mem_singleton.mp hb ▸ hab ▸ ha)⟩
  · split_ifs <;> rfl
  · rw [refreshIds, hrequests, List.filter_append, List.map_append, refreshIds]
    split_ifs with hkind <;> simp [hkind]
  · intro id hid
    split_ifs at hid
    · exact List.mem_singleton.mp hid ▸ hnew
    · exact absurd hid List.not_mem_nil

theorem sendRequest_other (s : TurnPort) (hkind : kind ≠ .refresh) : Grows 0 s (s.sendRequest kind) := by
  have h := sendRequest s kind
  rwa [if_neg hkind] at h

theorem updateNonce (s : TurnPort) (response : StunMessage) : Grows 0 s (s.updateNonce w response).1 := by
  have hrealm : ∀ realm, Grows 0 s (s.setRealm w realm) := by
    intro realm
    unfold setRealm
    split_ifs
    · exact of_eq rfl rfl rfl
    · exact refl s
  unfold TurnPort.updateNonce
  split
  · exact refl s
  · next realm _ =>
    dsimp only
    split
    · exact hrealm realm
    · next nonce _ => exact (hrealm realm).after (of_eq rfl rfl rfl)

theorem retry (s : TurnPort) (response : StunMessage) (hkind : kind ≠ .refresh) :
    Grows 0 s (match s.updateNonce w response with
      | (s, true) => s.sendRequest kind
      | (s, false) => s) := by
  have h := updateNonce (w := w) s response
  split
  · next t heq =>
    rw [heq] at h
    exact h.trans (sendRequest_other t hkind)
  · next t heq =>
    rw [heq] at h
    exact h

/-! ## Calls that answer no refresh request -/

theorem createEntry (s : TurnPort) (addr : SocketAddress) : Grows 0 s (s.createEntry addr) := by
  have h1 : Grows 0 s (s.check .entryExists (s.findEntry addr).isNone) := check s (by decide) _
  generalize ht : s.check .entryExists (s.findEntry addr).isNone = t at h1
  have h2 : Grows 0 s { t with nextChannelNumber := t.nextChannelNumber + 1 } := h1.after (of_eq rfl rfl rfl)
  have h3 : Grows 0 s ({ t with nextChannelNumber := t.nextChannelNumber + 1 }.sendCreatePermissionRequest
      ⟨t.nextChannelNumber, addr, .unbound⟩) := h2.after (sendRequest_other _ nofun)
  simp only [TurnPort.createEntry, ht]
  exact h3.after (of_eq rfl rfl rfl)

theorem destroyEntry (s : TurnPort) (addr : SocketAddress) : Grows 0 s (s.destroyEntry addr) := by
  unfold TurnPort.destroyEntry
  split
  · exact check s (by decide) false
  · next e _ =>
    refine of_eq ?_ ?_ rfl
    · simp only [ids, List.map_map]
      exact List.map_congr_left fun r _ => rfl
    · simp only [refreshIds, List.filter_map, List.map_map]
      have hkind (r : TurnRequest) : (r.kind.onEntryDestroyed e.channelId = .refresh) = (r.kind = .refresh) := by
        cases hr : r.kind <;> simp [TurnRequestKind.onEntryDestroyed]
      simp only [Function.comp_def, hkind]

theorem createConnection (s : TurnPort) (address : P2P.Candidate) : Grows 0 s (s.createConnection w address).1 := by
  unfold TurnPort.createConnection
  split_ifs
  · dsimp only
    split_ifs
    · exact (createEntry s address.address).after (of_eq rfl rfl rfl)
    · exact createEntry s address.address
  · exact refl s

theorem sendTo (s : TurnPort) (addr : SocketAddress) (data : List Uint8) (payload : Bool) :
    Grows 0 s (s.sendTo addr data payload) := by
  unfold TurnPort.sendTo
  split
  · exact check s (by decide) false
  · next e _ =>
    split_ifs
    · unfold entrySend
      split_ifs
      · have hbind : Grows 0 s (s.sendChannelBindRequest e) := sendRequest_other s nofun
        exact (hbind.after (setState _ e .binding)).after (emit _ _)
      · exact emit s _
      · exact emit s _
    · exact refl s

/-! ## Responses -/

theorem scheduleRefresh (s : TurnPort) (lifetime : Uint32) :
    Grows (if lifetime.toInt < 2 * 60 then 0 else 1) s (s.scheduleRefresh lifetime) := by
  unfold TurnPort.scheduleRefresh
  split_ifs
  · exact refl s
  · exact sendRequest s .refresh

end Grows

def scheduledLifetime (response : StunMessage) : TurnRequestKind → Option Uint32
  | .allocate =>
    (response.getSocketAddress attrXorMappedAddress).bind fun _ =>
      (response.getSocketAddress attrXorRelayedAddress).bind fun _ => response.getValue attrLifetime
  | .refresh => response.getValue attrLifetime
  | .createPermission .. | .channelBind .. => none

/-- How many refresh requests such a lifetime leads to. -/
def refreshCount : Option Uint32 → ℕ
  | none => 0
  | some lifetime => if lifetime.toInt < 2 * 60 then 0 else 1

namespace Grows

theorem onResponse (s : TurnPort) (response : StunMessage) (kind : TurnRequestKind) :
    Grows (refreshCount (scheduledLifetime response kind)) s (s.onResponse response kind) := by
  cases kind with
  | allocate =>
    simp only [TurnPort.onResponse, onAllocateResponse, scheduledLifetime]
    cases response.getSocketAddress attrXorMappedAddress with
    | none => exact refl s
    | some mapped =>
      cases response.getSocketAddress attrXorRelayedAddress with
      | none => exact refl s
      | some relayed =>
        cases response.getValue attrLifetime with
        | none => exact refl s
        | some lifetime =>
          have hsuccess : Grows 0 s (s.onAllocateSuccess relayed mapped) := of_eq rfl rfl rfl
          exact hsuccess.after (scheduleRefresh _ lifetime)
  | refresh =>
    simp only [TurnPort.onResponse, onRefreshResponse, scheduledLifetime]
    cases response.getValue attrLifetime with
    | none => exact refl s
    | some lifetime => exact scheduleRefresh s lifetime
  | createPermission entry extAddr =>
    simp only [TurnPort.onResponse, scheduledLifetime, refreshCount]
    split
    · exact refl s
    · exact emit s _
  | channelBind entry channelId extAddr =>
    simp only [TurnPort.onResponse, scheduledLifetime, refreshCount]
    split
    · exact refl s
    · next e _ =>
      have h1 : Grows 0 s (s.check .notBinding (e.state ≠ .unbound)) := check s (by decide) _
      exact (h1.after (setState _ e .bound)).after (sendRequest_other _ (fun hcase => by cases hcase))

theorem onErrorResponse (s : TurnPort) (response : StunMessage)
    (hkind : kind ≠ .refresh) : Grows 0 s (s.onErrorResponse w response kind) := by
  unfold TurnPort.onErrorResponse
  split
  · exact refl s
  · exact check s (by decide) false
  · next handle code hh _ =>
    cases kind with
    | allocate =>
      cases hh
      unfold onAllocateError onAuthChallenge
      split_ifs
      · exact emit s _
      · exact retry s response nofun
      · exact emit s _
    | refresh => exact absurd rfl hkind
    | createPermission entry extAddr =>
      obtain ⟨e, -, rfl⟩ := Option.map_eq_some_iff.mp hh
      unfold onCreatePermissionError
      split_ifs
      · exact retry s response nofun
      · exact emit s _
    | channelBind entry channelId extAddr =>
      obtain ⟨e, -, rfl⟩ := Option.map_eq_some_iff.mp hh
      unfold onChannelBindError
      split_ifs
      · exact retry s response nofun
      · exact refl s

theorem onRefreshError (s : TurnPort) {response : StunMessage} (hcode : errorCode response = some stunErrorStaleNonce)
    (hrealm : (response.getString attrRealm).isSome) (hnonce : (response.getString attrNonce).isSome) :
    Grows 1 s (s.onErrorResponse w response .refresh) := by
  have hupdate := updateNonce (w := w) s response
  have hflag : (s.updateNonce w response).2 = true := by
    obtain ⟨realm, hrealm⟩ := Option.isSome_iff_exists.mp hrealm
    obtain ⟨nonce, hnonce⟩ := Option.isSome_iff_exists.mp hnonce
    simp only [TurnPort.updateNonce, hrealm, hnonce]
  simp only [TurnPort.onErrorResponse, errorHandler, hcode, TurnPort.onRefreshError, if_true]
  generalize s.updateNonce w response = u at hupdate hflag
  obtain ⟨t, flag⟩ := u
  obtain rfl : flag = true := hflag
  exact hupdate.after (sendRequest t .refresh)

theorem handleChannelData (s : TurnPort) (channelId : ℕ) (data : ℕ → Uint8) (size : ℕ) :
    Grows 0 s (s.handleChannelData channelId data size) := by
  unfold TurnPort.handleChannelData
  dsimp only
  split_ifs
  · exact refl s
  · split
    · exact refl s
    · exact emit s _

theorem handleDataIndication (s : TurnPort) (data : ℕ → Uint8) (size : ℕ) :
    Grows 0 s (s.handleDataIndication data size) := by
  unfold TurnPort.handleDataIndication
  split
  · exact refl s
  · split
    · split_ifs
      · exact emit s _
      · exact refl s
    · exact refl s

end Grows

/-! ## Answers -/

/-- The type is that of a success response to the request. -/
def IsSuccess (a : StunMessage × TurnRequest) : Prop :=
  some a.1.type = getStunSuccessResponseType a.2.kind.type

/-- The type is that of an error response to the request. -/
def IsError (a : StunMessage × TurnRequest) : Prop :=
  some a.1.type = getStunErrorResponseType a.2.kind.type

instance (a : StunMessage × TurnRequest) : Decidable (IsSuccess a) := inferInstanceAs (Decidable (_ = _))
instance (a : StunMessage × TurnRequest) : Decidable (IsError a) := inferInstanceAs (Decidable (_ = _))

/-- The pending request that the packet answers. -/
def answered (w : TurnSurroundings) (s : TurnPort) : Op → Option (StunMessage × TurnRequest)
  | .readPacket data size =>
    if size < turnChannelHeaderSize ∨ isTurnChannelData (getBE16 data 0) ∨
        getBE16 data 0 = turnDataIndication ∨ (isStunSuccessResponseType (getBE16 data 0) ∧
          !validateMessageIntegrity w.hmac data size s.hash) then none
    else (s.matched data size).filter fun a => IsSuccess a ∨ IsError a
  | _ => none

/-- The lifetime for which a call schedules a refresh. -/
def announced (w : TurnSurroundings) (s : TurnPort) (op : Op) : Option Uint32 :=
  (s.answered w op).bind fun a => if IsSuccess a then scheduledLifetime a.1 a.2.kind else none

def handled (w : TurnSurroundings) (s : TurnPort) (a : StunMessage × TurnRequest) : TurnPort :=
  if IsSuccess a then s.onResponse a.1 a.2.kind else s.onErrorResponse w a.1 a.2.kind

theorem mem_of_matched {data : ℕ → Uint8} {size : ℕ} (h : s.matched data size = some a) : a.2 ∈ s.requests := by
  unfold matched at h
  split_ifs at h
  obtain ⟨r, -, h⟩ := Option.bind_eq_some_iff.mp h
  obtain ⟨m, -, h⟩ := Option.bind_eq_some_iff.mp h
  obtain ⟨request, hfind, rfl⟩ := Option.map_eq_some_iff.mp h
  exact List.mem_of_find?_eq_some hfind

theorem step_answered {op : Op} (h : s.answered w op = some a) :
    a.2 ∈ s.requests ∧ (IsSuccess a ∨ IsError a) ∧
      TurnPort.step w s op = (s.handled w a).removeRequest a.2.id := by
  cases op with
  | readPacket data size =>
    simp only [answered] at h
    split_ifs at h with hcond
    obtain ⟨hm, ha⟩ := Option.filter_eq_some_iff.mp h
    have htype : IsSuccess a ∨ IsError a := of_decide_eq_true ha
    simp only [not_or] at hcond
    obtain ⟨hsize, hchan, hind, hintegrity⟩ := hcond
    refine ⟨mem_of_matched hm, htype, ?_⟩
    simp only [TurnPort.step, onReadPacket]
    rw [if_neg hsize, if_neg hchan, if_neg hind, if_neg hintegrity, checkResponse_eq, hm]
    obtain ⟨msg, request⟩ := a
    simp only [handled]
    by_cases hs : IsSuccess (msg, request)
    · rw [if_pos hs]
      exact if_pos hs
    · rw [if_neg hs]
      exact (if_neg hs).trans (if_pos (htype.resolve_left hs))
  | _ => cases h

theorem Grows.unanswered {data : ℕ → Uint8} {size : ℕ} (h : s.answered w (.readPacket data size) = none) :
    Grows 0 s (s.onReadPacket w data size) := by
  unfold onReadPacket
  simp only [answered] at h
  dsimp only
  split_ifs with hsize hchan hind hintegrity
  · exact refl s
  · exact handleChannelData s _ data size
  · exact handleDataIndication s data size
  · exact refl s
  · rw [if_neg (by simp only [not_or]; exact ⟨hsize, hchan, hind, hintegrity⟩)] at h
    rw [checkResponse_eq]
    cases hm : s.matched data size with
    | none => exact refl s
    | some a =>
      rw [hm, Option.filter_some] at h
      obtain ⟨msg, request⟩ := a
      split_ifs at h with htype
      obtain ⟨hs, he⟩ := not_or.mp fun h' : IsSuccess (msg, request) ∨ IsError (msg, request) =>
        htype (decide_eq_true h')
      simp only [IsSuccess, IsError] at hs he
      simp only [if_neg hs, if_neg he]
      exact refl s

/-! ## One call -/

theorem collisions_removeRequest (s : TurnPort) (id : List Uint8) :
    (s.removeRequest id).collisions = s.collisions := rfl

theorem refreshIds_unanswered {op : Op} (ha : s.answered w op = none)
    (htimeout : ∀ id, op = .timeout id → id ∉ s.refreshIds) (hs : s.ids.Nodup)
    (hcoll : (TurnPort.step w s op).collisions = s.collisions) :
    (TurnPort.step w s op).ids.Nodup ∧ (TurnPort.step w s op).refreshIds = s.refreshIds := by
  have hgrows {s' : TurnPort} (h : Grows 0 s s') (heq : s'.collisions = s.collisions) :
      s'.ids.Nodup ∧ s'.refreshIds = s.refreshIds := by
    obtain ⟨hs', -, new, hlen, hrefresh, -⟩ := h.grows heq hs
    rw [List.length_eq_zero_iff.mp hlen, List.append_nil] at hrefresh
    exact ⟨hs', hrefresh⟩
  cases op with
  | prepareAddress => exact hgrows (.sendRequest_other s nofun) hcoll
  | createConnection address => exact hgrows (.createConnection s address) hcoll
  | destroyConnection conn =>
    refine hgrows ?_ hcoll
    simp only [TurnPort.step]
    split
    · exact .refl s
    · next e _ => exact (Grows.destroyEntry s e.1).after (.of_eq rfl rfl rfl)
  | readPacket data size => exact hgrows (.unanswered ha) hcoll
  | sendTo addr data payload => exact hgrows (.sendTo s addr data payload) hcoll
  | timeout id =>
    simp only [TurnPort.step]
    split
    · exact ⟨hs, rfl⟩
    · next request hfind =>
      obtain rfl : request.id = id :=
        of_decide_eq_true (List.find?_some (p := fun r : TurnRequest => decide (r.id = id)) hfind)
      have hkeep : s.refreshIds.filter (fun i => i ≠ request.id) = s.refreshIds :=
        List.filter_eq_self.mpr fun i hi => decide_eq_true fun heq => htimeout request.id rfl (heq ▸ hi)
      unfold onTimeout
      refine ⟨?_, ?_⟩
      · split_ifs
        · exact nodup_removeRequest (s := s.emit .portError) hs request.id
        · exact nodup_removeRequest hs request.id
      · rw [refreshIds_removeRequest]
        split_ifs
        · exact hkeep
        · exact hkeep

theorem refreshIds_answered {op : Op} {n : ℕ}
    (ha : s.answered w op = some a) (hgrows : Grows n s (s.handled w a)) (hs : s.ids.Nodup)
    (hcoll : (TurnPort.step w s op).collisions = s.collisions) :
    (TurnPort.step w s op).ids.Nodup ∧ ∃ new, new.length = n ∧ (∀ id ∈ new, id ∉ s.ids) ∧
      (TurnPort.step w s op).refreshIds = s.refreshIds.filter (fun id => id ≠ a.2.id) ++ new := by
  obtain ⟨hmem, -, hstep⟩ := step_answered ha
  rw [hstep, collisions_removeRequest] at hcoll
  obtain ⟨hs', -, new, hlen, hrefresh, hnew⟩ := hgrows.grows hcoll hs
  rw [hstep]
  refine ⟨nodup_removeRequest hs' a.2.id, new, hlen, hnew, ?_⟩
  rw [refreshIds_removeRequest, hrefresh, List.filter_append]
  refine congrArg _ (List.filter_eq_self.mpr fun id hid => decide_eq_true fun heq => ?_)
  exact hnew id hid (heq ▸ List.mem_map_of_mem hmem)

end TurnPort

/-! ## Time -/

/-- A port with the time, the messages due and what the server announced. -/
structure TimedPort where
  port : TurnPort
  now : ℕ
  due : List (List Uint8 × ℕ)
  sent : List (List Uint8 × ℕ)
  latest : Option (ℕ × Uint32)

def refreshDelay (lifetime : Uint32) : Uint32 := (lifetime - 60) * 1000

namespace TimedPort

variable (w : TurnSurroundings) (t : TimedPort)

/-- A port at time zero. -/
def new (transactionIds : ℕ → List Uint8) : TimedPort := ⟨.new transactionIds, 0, [], [], none⟩

/-- What happens to the port, with the time that passes. -/
inductive Op where
  | wait (ms : ℕ)
  | send (id : List Uint8)
  | call (op : TurnPort.Op)

/-- The delay of the refresh requests that a call sends. -/
def delay : Option Uint32 → ℕ
  | none => 0
  | some lifetime => (refreshDelay lifetime).toInt.toNat

/-- The ids of the refresh requests that a call makes. -/
def newIds (op : TurnPort.Op) : List (List Uint8) :=
  (t.port.step w op).refreshIds.filter fun id => t.port.refreshIds.all fun i => i ≠ id

/-- The port after what happened. -/
def step (t : TimedPort) : Op → TimedPort
  | .wait ms => { t with now := t.now + ms }
  | .send id =>
    { t with
      due := t.due.filter fun m => m ≠ (id, t.now)
      sent := t.sent ++ [(id, t.now)] }
  | .call op =>
    { t with
      port := t.port.step w op
      due := (t.due.filter fun m => (t.port.step w op).refreshIds.any fun i => i = m.1) ++
        (t.newIds w op).map fun id => (id, t.now + delay (t.port.announced w op))
      latest := ((t.port.announced w op).map fun lifetime => (t.now, lifetime)).or t.latest }

/-- The answer of the server to a refresh request. -/
def Answers (a : StunMessage × TurnRequest) : Prop :=
  if TurnPort.IsSuccess a then (a.1.getValue attrLifetime).isSome = true
  else TurnPort.errorCode a.1 = some stunErrorStaleNonce ∧ (a.1.getString attrRealm).isSome ∧
    (a.1.getString attrNonce).isSome

instance (a : StunMessage × TurnRequest) : Decidable (Answers a) := by unfold Answers; infer_instance

/-- Refresh requests do not time out. -/
def Waits : TurnPort.Op → Prop
  | .timeout id => ∀ i ∈ t.port.refreshIds, i ≠ id
  | _ => True

instance : ∀ op, Decidable (t.Waits op)
  | .timeout id => inferInstanceAs (Decidable (∀ i ∈ t.port.refreshIds, i ≠ id))
  | .prepareAddress | .createConnection _ | .destroyConnection _ | .readPacket _ _ | .sendTo _ _ _ =>
    .isTrue trivial

/-- **What may happen** to the port. -/
def Legal : Op → Prop
  | .wait ms => ∀ m ∈ t.due, t.now + ms ≤ m.2
  | .send id => ∃ m ∈ t.due, m = (id, t.now)
  | .call op =>
    (t.port.step w op).collisions = t.port.collisions ∧ t.Waits op ∧
      ∀ a ∈ t.port.answered w op, a.2.kind = .refresh → (∀ m ∈ t.due, m.1 ≠ a.2.id) ∧ Answers a

instance : ∀ op, Decidable (t.Legal w op)
  | .wait ms => inferInstanceAs (Decidable (∀ m ∈ t.due, t.now + ms ≤ m.2))
  | .send id => inferInstanceAs (Decidable (∃ m ∈ t.due, m = (id, t.now)))
  | .call op => inferInstanceAs (Decidable (_ ∧ t.Waits op ∧ ∀ a ∈ t.port.answered w op,
      a.2.kind = .refresh → (∀ m ∈ t.due, m.1 ≠ a.2.id) ∧ Answers a))

/-- The lifetime leads to a refresh, and the delay is an `int`. -/
def Lasts (lifetime : Uint32) : Prop := 120 ≤ lifetime.toNat ∧ lifetime.toNat ≤ 2147543

instance (lifetime : Uint32) : Decidable (Lasts lifetime) := inferInstanceAs (Decidable (_ ∧ _))

/-- The lifetimes that a call announces are moderate. -/
def Moderate : Op → Prop
  | .call op => ∀ lifetime ∈ t.port.announced w op, Lasts lifetime
  | _ => True

instance : ∀ op, Decidable (t.Moderate w op)
  | .call op =>
    decidable_of_iff ((t.port.announced w op).all fun lifetime => decide (Lasts lifetime))
      (by rw [Option.all_eq_true]; simp only [decide_eq_true_eq, Moderate, Option.mem_def])
  | .wait _ | .send _ => .isTrue trivial

def refreshTime (start : ℕ) (lifetime : Uint32) : ℕ := start + (lifetime.toNat - 60) * 1000

/-- **The allocation is refreshed in time.** -/
structure InTime (start : ℕ) (lifetime : Uint32) : Prop where
  pending : t.port.refreshIds ≠ []
  exact_delay : (refreshDelay lifetime).toInt = ((lifetime.toNat : ℤ) - 60) * 1000
  before_end : refreshTime start lifetime < start + lifetime.toNat * 1000
  sent : ∃ id, ((id, refreshTime start lifetime) ∈ t.due ∧ t.now ≤ refreshTime start lifetime) ∨
    (id, refreshTime start lifetime) ∈ t.sent

/-! ## What every step keeps -/

/-- The schedule agrees with the refresh requests that are pending. -/
structure Kept : Prop where
  nodup : t.port.ids.Nodup
  due_pending : ∀ m ∈ t.due, m.1 ∈ t.port.refreshIds
  due_ahead : ∀ m ∈ t.due, t.now ≤ m.2
  latest : ∀ start lifetime, t.latest = some (start, lifetime) → Lasts lifetime ∧ t.port.refreshIds ≠ [] ∧
    ∃ id, (id, refreshTime start lifetime) ∈ t.due ∨ (id, refreshTime start lifetime) ∈ t.sent

variable {w t}

theorem refreshDelay_eq (h : Lasts lifetime) :
    (refreshDelay lifetime).toInt = ((lifetime.toNat : ℤ) - 60) * 1000 := by
  obtain ⟨hlow, hhigh⟩ := h
  have hnat : (refreshDelay lifetime).toNat = (lifetime.toNat - 60) * 1000 := by
    have hconst : (60 : Uint32).toNat = 60 ∧ (1000 : Uint32).toNat = 1000 := ⟨rfl, rfl⟩
    rw [refreshDelay, BitVec.toNat_mul, BitVec.toNat_sub, hconst.1, hconst.2]
    omega
  rw [BitVec.toInt_eq_toNat_of_lt (by omega), hnat]
  omega

theorem refreshCount_of_lasts (h : Lasts lifetime) : TurnPort.refreshCount (some lifetime) = 1 := by
  obtain ⟨hlow, hhigh⟩ := h
  refine if_neg ?_
  rw [BitVec.toInt_eq_toNat_of_lt (by omega)]
  omega

theorem Kept.wait (h : t.Kept) {ms : ℕ} (hlegal : t.Legal w (.wait ms)) : (t.step w (.wait ms)).Kept where
  nodup := h.nodup
  due_pending := h.due_pending
  due_ahead := hlegal
  latest := h.latest

theorem Kept.send (h : t.Kept) (id : List Uint8) : (t.step w (.send id)).Kept where
  nodup := h.nodup
  due_pending m hm := h.due_pending m (List.mem_filter.mp hm).1
  due_ahead m hm := h.due_ahead m (List.mem_filter.mp hm).1
  latest start lifetime hlatest := by
    obtain ⟨hlasts, hpending, i, hi⟩ := h.latest start lifetime hlatest
    refine ⟨hlasts, hpending, i, ?_⟩
    by_cases heq : (i, refreshTime start lifetime) = (id, t.now)
    · exact .inr (List.mem_append_right _ (List.mem_singleton.mpr heq))
    · exact hi.imp (fun hdue => List.mem_filter.mpr ⟨hdue, decide_eq_true heq⟩) (List.mem_append_left _)

theorem mem_due_call {op : TurnPort.Op} {m : List Uint8 × ℕ} :
    m ∈ (t.step w (.call op)).due ↔ m ∈ t.due ∧ m.1 ∈ (t.port.step w op).refreshIds ∨
      m.1 ∈ (t.port.step w op).refreshIds ∧ m.1 ∉ t.port.refreshIds ∧
        m.2 = t.now + delay (t.port.announced w op) := by
  simp only [step, newIds, List.mem_append, List.mem_filter, List.mem_map, List.any_eq_true, List.all_eq_true,
    decide_eq_true_eq]
  constructor
  · rintro (⟨hm, i, hi, rfl⟩ | ⟨id, ⟨hid, hnew⟩, rfl⟩)
    · exact .inl ⟨hm, hi⟩
    · exact .inr ⟨hid, fun hmem => hnew id hmem rfl, rfl⟩
  · rintro (⟨hm, hi⟩ | ⟨hid, hnew, htime⟩)
    · exact .inl ⟨hm, m.1, hi, rfl⟩
    · exact .inr ⟨m.1, ⟨hid, fun i hi heq => hnew (heq ▸ hi)⟩, by rw [← htime]⟩

/-- **A call leaves a refresh pending for what is announced**. -/
theorem refreshIds_call (h : t.Kept) {op : TurnPort.Op} (hlegal : t.Legal w (.call op))
    (hmoderate : t.Moderate w (.call op)) :
    (t.port.step w op).ids.Nodup ∧ (∀ m ∈ t.due, m.1 ∈ (t.port.step w op).refreshIds) ∧
      (t.port.refreshIds ≠ [] → (t.port.step w op).refreshIds ≠ []) ∧
      (t.port.announced w op ≠ none →
        ∃ id ∈ (t.port.step w op).refreshIds, id ∉ t.port.refreshIds) := by
  obtain ⟨hcoll, hwaits, hanswers⟩ := hlegal
  cases ha : t.port.answered w op with
  | none =>
    obtain ⟨hnodup, hrefresh⟩ := TurnPort.refreshIds_unanswered ha (fun id hop hmem => by
      subst hop
      exact hwaits id hmem rfl) h.nodup hcoll
    have hannounced : t.port.announced w op = none := by rw [TurnPort.announced, ha]; rfl
    rw [hrefresh]
    exact ⟨hnodup, h.due_pending, fun hne => hne, fun hne => absurd hannounced hne⟩
  | some a =>
    obtain ⟨hmem, htype, -⟩ := TurnPort.step_answered ha
    -- how many refresh requests the handler sends
    obtain ⟨n, hgrows, hann, hone⟩ : ∃ n, TurnPort.Grows n t.port (t.port.handled w a) ∧
        (t.port.announced w op ≠ none → n = 1) ∧ (a.2.kind = .refresh → n = 1) := by
      by_cases hs : TurnPort.IsSuccess a
      · have hannounced : t.port.announced w op = TurnPort.scheduledLifetime a.1 a.2.kind := by
          rw [TurnPort.announced, ha, Option.bind_some, if_pos hs]
        have hcount : t.port.announced w op ≠ none →
            TurnPort.refreshCount (TurnPort.scheduledLifetime a.1 a.2.kind) = 1 := by
          intro hne
          obtain ⟨lifetime, hlifetime⟩ := Option.ne_none_iff_exists'.mp hne
          rw [← hannounced, hlifetime]
          exact refreshCount_of_lasts (hmoderate lifetime hlifetime)
        refine ⟨_, ?_, hcount, fun hkind => hcount ?_⟩
        · rw [TurnPort.handled, if_pos hs]
          exact .onResponse t.port a.1 a.2.kind
        · have hanswer := (hanswers a ha hkind).2
          rw [Answers, if_pos hs] at hanswer
          rw [hannounced, hkind]
          exact Option.isSome_iff_ne_none.mp hanswer
      · have hannounced : t.port.announced w op = none := by
          rw [TurnPort.announced, ha, Option.bind_some, if_neg hs]
        rw [TurnPort.handled, if_neg hs]
        by_cases hkind : a.2.kind = .refresh
        · have hanswer := (hanswers a ha hkind).2
          rw [Answers, if_neg hs] at hanswer
          rw [hkind]
          exact ⟨1, .onRefreshError t.port hanswer.1 hanswer.2.1 hanswer.2.2, fun hne => absurd hannounced hne,
            fun _ => rfl⟩
        · exact ⟨0, .onErrorResponse t.port a.1 hkind, fun hne => absurd hannounced hne,
            fun hk => absurd hk hkind⟩
    obtain ⟨hnodup, new, hlen, hnew, hrefresh⟩ := TurnPort.refreshIds_answered ha hgrows h.nodup hcoll
    have hstays {id : List Uint8} (hid : id ∈ t.port.refreshIds) (hne : id ≠ a.2.id) :
        id ∈ (t.port.step w op).refreshIds := by
      rw [hrefresh]
      exact List.mem_append_left _ (List.mem_filter.mpr ⟨hid, decide_eq_true hne⟩)
    have hcomes (hn : n = 1) : ∃ id ∈ (t.port.step w op).refreshIds, id ∉ t.port.refreshIds := by
      obtain ⟨id, rfl⟩ := List.length_eq_one_iff.mp (hlen.trans hn)
      refine ⟨id, by rw [hrefresh]; exact List.mem_append_right _ List.mem_cons_self, fun hmem' => ?_⟩
      exact hnew id List.mem_cons_self ((TurnPort.refreshIds_sublist t.port).subset hmem')
    by_cases hkind : a.2.kind = .refresh
    · obtain ⟨id, hid, hidnew⟩ := hcomes (hone hkind)
      refine ⟨hnodup, fun m hm => hstays (h.due_pending m hm) ((hanswers a ha hkind).1 m hm),
        fun _ => List.ne_nil_of_mem hid, fun _ => ⟨id, hid, hidnew⟩⟩
    · have hother {id : List Uint8} (hid : id ∈ t.port.refreshIds) : id ≠ a.2.id := fun heq =>
        TurnPort.not_mem_refreshIds h.nodup hmem hkind (heq ▸ hid)
      refine ⟨hnodup, fun m hm => hstays (h.due_pending m hm) (hother (h.due_pending m hm)), fun hne => ?_,
        fun hne => hcomes (hann hne)⟩
      obtain ⟨id, hid⟩ := List.exists_mem_of_ne_nil _ hne
      exact List.ne_nil_of_mem (hstays hid (hother hid))

theorem Kept.call (h : t.Kept) {op : TurnPort.Op} (hlegal : t.Legal w (.call op))
    (hmoderate : t.Moderate w (.call op)) : (t.step w (.call op)).Kept := by
  obtain ⟨hnodup, hstays, hnonempty, hcomes⟩ := refreshIds_call h hlegal hmoderate
  refine ⟨hnodup, ?_, ?_, ?_⟩
  · intro m hm
    exact (mem_due_call.mp hm).elim And.right And.left
  · intro m hm
    rcases mem_due_call.mp hm with ⟨hm, -⟩ | ⟨-, -, htime⟩
    · exact h.due_ahead m hm
    · exact htime ▸ Nat.le_add_right _ _
  · intro start lifetime hlatest
    cases hann : t.port.announced w op with
    | none =>
      simp only [step, hann, Option.map_none, Option.none_or] at hlatest
      obtain ⟨hlasts, hpending, id, hid⟩ := h.latest start lifetime hlatest
      refine ⟨hlasts, hnonempty hpending, id, hid.imp_left fun hdue => ?_⟩
      exact mem_due_call.mpr (.inl ⟨hdue, hstays _ hdue⟩)
    | some announced =>
      simp only [step, hann, Option.map_some, Option.some_or, Option.some.injEq, Prod.mk.injEq] at hlatest
      obtain ⟨rfl, rfl⟩ := hlatest
      have hlasts : Lasts announced := hmoderate announced hann
      obtain ⟨id, hid, hnew⟩ := hcomes (by rw [hann]; exact Option.some_ne_none announced)
      refine ⟨hlasts, List.ne_nil_of_mem hid, id, .inl (mem_due_call.mpr (.inr ⟨hid, hnew, ?_⟩))⟩
      have hdelay := refreshDelay_eq hlasts
      have hlow := hlasts.1
      rw [hann, delay, hdelay, refreshTime]
      omega

theorem Kept.step (h : t.Kept) (op : Op) (hop : t.Legal w op ∧ t.Moderate w op) : (t.step w op).Kept := by
  cases op with
  | wait ms => exact h.wait hop.1
  | send id => exact h.send id
  | call op => exact h.call hop.1 hop.2

theorem kept_new (ids : ℕ → List Uint8) : (new ids).Kept where
  nodup := List.nodup_nil
  due_pending _ hm := absurd hm List.not_mem_nil
  due_ahead _ hm := absurd hm List.not_mem_nil
  latest _ _ h := absurd h (Option.some_ne_none _).symm

theorem Kept.inTime (h : t.Kept) {start : ℕ} (hlatest : t.latest = some (start, lifetime)) :
    t.InTime start lifetime := by
  obtain ⟨hlasts, hpending, id, hid⟩ := h.latest start lifetime hlatest
  have hlow := hlasts.1
  refine ⟨hpending, refreshDelay_eq hlasts, ?_, id, hid.imp_left fun hdue => ⟨hdue, h.due_ahead _ hdue⟩⟩
  rw [refreshTime]
  omega

theorem refreshIds_short (h : t.Kept) {op : TurnPort.Op} (hlegal : t.Legal w (.call op))
    (hann : t.port.announced w op = some lifetime) (hshort : lifetime.toNat < 120) :
    ∀ id ∈ (t.port.step w op).refreshIds, id ∈ t.port.refreshIds := by
  obtain ⟨a, ha, hif⟩ := Option.bind_eq_some_iff.mp hann
  have hs : TurnPort.IsSuccess a := by
    by_contra hs
    rw [if_neg hs] at hif
    cases hif
  rw [if_pos hs] at hif
  have hcount : TurnPort.refreshCount (TurnPort.scheduledLifetime a.1 a.2.kind) = 0 := by
    rw [hif]
    refine if_pos ?_
    rw [BitVec.toInt_eq_toNat_of_lt (by omega)]
    omega
  have hgrows := TurnPort.Grows.onResponse t.port a.1 a.2.kind
  rw [hcount] at hgrows
  obtain ⟨-, new, hlen, -, hrefresh⟩ := TurnPort.refreshIds_answered (w := w) ha
    (by rw [TurnPort.handled, if_pos hs]; exact hgrows) h.nodup hlegal.1
  rw [List.length_eq_zero_iff.mp hlen, List.append_nil] at hrefresh
  intro id hid
  rw [hrefresh] at hid
  exact (List.mem_filter.mp hid).1

theorem Kept.resent (h : t.Kept) {op : TurnPort.Op} (hlegal : t.Legal w (.call op))
    (ha : t.port.answered w op = some a) (hkind : a.2.kind = .refresh) (herror : TurnPort.IsError a) :
    ∃ id, id ∉ t.port.refreshIds ∧ id ∈ (t.step w (.call op)).port.refreshIds ∧
      (id, t.now) ∈ (t.step w (.call op)).due := by
  obtain ⟨hcoll, -, hanswers⟩ := hlegal
  have hs : ¬ TurnPort.IsSuccess a := by
    unfold TurnPort.IsError at herror
    unfold TurnPort.IsSuccess
    rw [herror, hkind]
    decide
  have hanswer := (hanswers a ha hkind).2
  rw [Answers, if_neg hs] at hanswer
  have hgrows : TurnPort.Grows 1 t.port (t.port.handled w a) := by
    rw [TurnPort.handled, if_neg hs, hkind]
    exact .onRefreshError t.port hanswer.1 hanswer.2.1 hanswer.2.2
  obtain ⟨-, new, hlen, hnew, hrefresh⟩ := TurnPort.refreshIds_answered (w := w) ha hgrows h.nodup hcoll
  obtain ⟨id, rfl⟩ := List.length_eq_one_iff.mp hlen
  have hpending : id ∈ (t.port.step w op).refreshIds := by
    rw [hrefresh]
    exact List.mem_append_right _ List.mem_cons_self
  have hfresh : id ∉ t.port.refreshIds := fun hmem =>
    hnew id List.mem_cons_self ((TurnPort.refreshIds_sublist t.port).subset hmem)
  have hannounced : t.port.announced w op = none := by
    rw [TurnPort.announced, ha, Option.bind_some, if_neg hs]
  refine ⟨id, hfresh, hpending, mem_due_call.mpr (.inr ⟨hpending, hfresh, ?_⟩)⟩
  rw [hannounced]
  rfl

/-- **TURN allocations are refreshed in time**, while the announced lifetimes lead to a refresh
without an overflow. -/
theorem refreshed_in_time (w : TurnSurroundings) (ids : ℕ → List Uint8) (ops : List Op)
    (h : Guarded (step w) (fun t op => t.Legal w op ∧ t.Moderate w op) (new ids) ops) :
    (∀ start lifetime, (run (step w) (new ids) ops).latest = some (start, lifetime) →
      (run (step w) (new ids) ops).InTime start lifetime) ∧
    (∀ op a, (run (step w) (new ids) ops).Legal w (.call op) →
      (run (step w) (new ids) ops).port.answered w op = some a → a.2.kind = .refresh → TurnPort.IsError a →
      ∃ id, id ∉ (run (step w) (new ids) ops).port.refreshIds ∧
        id ∈ (run (step w) (new ids) (ops ++ [.call op])).port.refreshIds ∧
        (id, (run (step w) (new ids) ops).now) ∈ (run (step w) (new ids) (ops ++ [.call op])).due) ∧
    ∀ op lifetime, (run (step w) (new ids) ops).Legal w (.call op) →
      (run (step w) (new ids) ops).port.announced w op = some lifetime → lifetime.toNat < 120 →
      ∀ id ∈ (run (step w) (new ids) (ops ++ [.call op])).port.refreshIds,
        id ∈ (run (step w) (new ids) ops).port.refreshIds := by
  have hkept : (run (step w) (new ids) ops).Kept :=
    run_invariant (I := Kept) (fun t op ht hop => ht.step op hop) (kept_new ids) h
  refine ⟨fun start lifetime hlatest => hkept.inTime hlatest, fun op a hlegal ha hkind herror => ?_,
    fun op lifetime hlegal hann hshort => ?_⟩
  · rw [run_append]
    exact hkept.resent hlegal ha hkind herror
  · rw [run_append]
    exact refreshIds_short hkept hlegal hann hshort

/-! ## A server -/

def exampleSuccess (id : ℕ) (lifetime : Uint32) : TurnPort.Op :=
  TurnPort.exampleResponse 0x0103 id [⟨attrXorMappedAddress, .xorAddress (.ofIP (.v4 0x01010101) 1000)⟩,
    ⟨attrXorRelayedAddress, .xorAddress (.ofIP (.v4 0x09090909) 5000)⟩, ⟨attrLifetime, .uint32 lifetime⟩]

def exampleError (type : Uint16) (id code : ℕ) : TurnPort.Op :=
  TurnPort.exampleResponse type id [stunErrorCodeAttribute code [], ⟨attrRealm, .byteString (text "r")⟩,
    ⟨attrNonce, .byteString (text "n")⟩]

def exampleRefreshed : List Op :=
  [.call .prepareAddress, .call (exampleError 0x0113 0 stunErrorUnauthorized), .wait 7,
    .call (exampleSuccess 1 600), .wait 540000, .send (TurnPort.exampleIds 2), .wait 20,
    .call (exampleError 0x0114 2 stunErrorStaleNonce), .send (TurnPort.exampleIds 3), .wait 10,
    .call (TurnPort.exampleResponse 0x0104 3 [⟨attrLifetime, .uint32 120⟩])]

/-- The refresh that was asked for last is sent a minute later. -/
theorem refreshed_in_time_example :
    (run (step TurnPort.exampleSurroundings) (new TurnPort.exampleIds) exampleRefreshed).latest =
        some (540037, 120) ∧
      (run (step TurnPort.exampleSurroundings) (new TurnPort.exampleIds) exampleRefreshed).InTime 540037 120 := by
  have hlatest : (run (step TurnPort.exampleSurroundings) (new TurnPort.exampleIds) exampleRefreshed).latest =
      some (540037, 120) := by decide +kernel
  exact ⟨hlatest, (refreshed_in_time TurnPort.exampleSurroundings TurnPort.exampleIds exampleRefreshed
    (by decide +kernel)).1 540037 120 hlatest⟩

def exampleShort : List Op :=
  [.call .prepareAddress, .call (exampleError 0x0113 0 stunErrorUnauthorized), .call (exampleSuccess 1 119)]

/-- **A lifetime of 119 seconds**: no refresh request is pending. -/
theorem short_lifetime_not_refreshed :
    Guarded (step TurnPort.exampleSurroundings) (Legal TurnPort.exampleSurroundings) (new TurnPort.exampleIds)
        exampleShort ∧
      (run (step TurnPort.exampleSurroundings) (new TurnPort.exampleIds) exampleShort).latest = some (0, 119) ∧
      ¬ (run (step TurnPort.exampleSurroundings) (new TurnPort.exampleIds) exampleShort).InTime 0 119 := by
  have hnone : (run (step TurnPort.exampleSurroundings) (new TurnPort.exampleIds)
      exampleShort).port.refreshIds = [] := by decide +kernel
  exact ⟨by decide +kernel, by decide +kernel, fun h => h.pending hnone⟩

end TimedPort

end Libjingle
