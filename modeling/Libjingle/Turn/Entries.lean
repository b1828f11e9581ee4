import Libjingle.Turn.Client
import Mathlib.Data.List.Pairwise

/-!
# The entries of a TURN client

`CreateConnection` creates an entry before it knows whether there will be a connection, and numbers it with
a counter that only grows.

Main results: **`entriesSound_iff`**, **`entries_unsound`**.
-/

namespace Libjingle

open Lib StunMessage

namespace TurnPort

variable {w : TurnSurroundings} {s s' : TurnPort}

/-! ## The property -/

/-- **The entries of the port** are those of the connections, with different channel numbers in
range. -/
structure EntriesSound (s : TurnPort) : Prop where
  addresses : (s.entries.map TurnEntry.address).Pairwise fun a b => ¬ a.equal b
  live : ∀ addr, (∃ a ∈ s.entries.map TurnEntry.address, a.equal addr) ↔ (s.getConnection addr).isSome
  channels : (s.entries.map TurnEntry.channelId).Nodup
  range : ∀ id ∈ s.entries.map TurnEntry.channelId, 0x4000 ≤ id ∧ id ≤ 0x7FFF
  destroyed : TurnFault.noEntry ∉ s.faults

/-- Connections are only asked for where there is none. -/
def AsksForNew (s : TurnPort) (op : Op) : Prop :=
  ∀ address, op = .createConnection address → s.getConnection address.address = none

/-- There is a relayed address and a channel number. -/
def Prepared (w : TurnSurroundings) (s : TurnPort) (op : Op) : Prop :=
  ∀ address, op = .createConnection address → accepts w address →
    s.hasRelay ∧ s.nextChannelNumber ≤ 0x7FFF

instance (s : TurnPort) : ∀ op, Decidable (s.AsksForNew op)
  | .createConnection address =>
    decidable_of_iff (s.getConnection address.address = none)
      ⟨fun h _ heq => Op.createConnection.inj heq ▸ h, fun h => h address rfl⟩
  | .prepareAddress | .destroyConnection _ | .readPacket _ _ | .sendTo _ _ _ | .timeout _ =>
    .isTrue nofun

instance (w : TurnSurroundings) (s : TurnPort) : ∀ op, Decidable (Prepared w s op)
  | .createConnection address =>
    decidable_of_iff (accepts w address → s.hasRelay ∧ s.nextChannelNumber ≤ 0x7FFF)
      ⟨fun h _ heq => Op.createConnection.inj heq ▸ h, fun h => h address rfl⟩
  | .prepareAddress | .destroyConnection _ | .readPacket _ _ | .sendTo _ _ _ | .timeout _ =>
    .isTrue nofun

/-! ## What leaves the entries alone -/

/-- The entries, apart from their states, and the connections are left alone. -/
structure Frame (s s' : TurnPort) : Prop where
  addresses : s'.entries.map TurnEntry.address = s.entries.map TurnEntry.address
  channels : s'.entries.map TurnEntry.channelId = s.entries.map TurnEntry.channelId
  next : s'.nextChannelNumber = s.nextChannelNumber
  connections : s'.connections = s.connections
  relay : s.hasRelay → s'.hasRelay
  faults : TurnFault.noEntry ∈ s'.faults → TurnFault.noEntry ∈ s.faults

theorem check_eq (s : TurnPort) (fault : TurnFault) (c : Bool) :
    s.check fault c = { s with faults := s.faults ++ if c then [] else [fault] } := by
  cases c <;> simp [check]

namespace Frame

theorem refl (s : TurnPort) : Frame s s := ⟨rfl, rfl, rfl, rfl, id, id⟩

theorem trans {t : TurnPort} (h : Frame s t) (h' : Frame t s') : Frame s s' where
  addresses := h'.addresses.trans h.addresses
  channels := h'.channels.trans h.channels
  next := h'.next.trans h.next
  connections := h'.connections.trans h.connections
  relay hr := h'.relay (h.relay hr)
  faults hf := h.faults (h'.faults hf)

theorem check (s : TurnPort) {fault : TurnFault} (hf : fault ≠ .noEntry) (c : Bool) : Frame s (s.check fault c) := by
  rw [check_eq]
  refine ⟨rfl, rfl, rfl, rfl, id, fun hmem => (List.mem_append.mp hmem).resolve_right ?_⟩
  cases c
  · exact fun hm => hf (List.mem_singleton.mp hm).symm
  · exact List.not_mem_nil

theorem emit (s : TurnPort) (o : TurnOutput) : Frame s (s.emit o) := ⟨rfl, rfl, rfl, rfl, id, id⟩

end Frame

/-- Moreover, no absent ERROR-CODE is used, and no payload is handed on. -/
structure Quiet (s s' : TurnPort) : Prop extends Frame s s' where
  codes : s'.faults.count .noErrorCode = s.faults.count .noErrorCode
  log : ∃ out, s'.log = s.log ++ out ∧ ∀ o ∈ out, o.isDelivery = false

namespace Quiet

theorem refl (s : TurnPort) : Quiet s s := ⟨.refl s, rfl, [], by simp, nofun⟩

theorem trans {t : TurnPort} (h : Quiet s t) (h' : Quiet t s') : Quiet s s' where
  toFrame := h.toFrame.trans h'.toFrame
  codes := h'.codes.trans h.codes
  log := by
    obtain ⟨out, hlog, hout⟩ := h.log
    obtain ⟨out', hlog', hout'⟩ := h'.log
    refine ⟨out ++ out', by rw [hlog', hlog, List.append_assoc], fun o ho => ?_⟩
    exact (List.mem_append.mp ho).elim (hout o) (hout' o)

theorem of_eq (h : (s'.entries, s'.nextChannelNumber, s'.connections, s'.candidates, s'.faults, s'.log) =
    (s.entries, s.nextChannelNumber, s.connections, s.candidates, s.faults, s.log)) : Quiet s s' := by
  simp only [Prod.mk.injEq] at h
  obtain ⟨h1, h2, h3, h4, h5, h6⟩ := h
  exact ⟨⟨by rw [h1], by rw [h1], h2, h3, fun hr => by rwa [hasRelay, h4], fun hf => by rwa [← h5]⟩,
    by rw [h5], [], by rw [h6, List.append_nil], nofun⟩

theorem check (s : TurnPort) {fault : TurnFault} (hf : fault ≠ .noEntry) (hc : fault ≠ .noErrorCode)
    (c : Bool) : Quiet s (s.check fault c) := by
  refine ⟨.check s hf c, ?_, [], by simp [check_eq], nofun⟩
  rw [check_eq, List.count_append]
  cases c
  · simp [hc]
  · rfl

theorem emit (s : TurnPort) {o : TurnOutput} (ho : o.isDelivery = false) : Quiet s (s.emit o) :=
  ⟨.emit s o, rfl, [o], rfl, fun _ hm => List.mem_singleton.mp hm ▸ ho⟩

theorem sendRequest (s : TurnPort) (kind : TurnRequestKind) : Quiet s (s.sendRequest kind) := by
  have h1 : Quiet s (s.check .requestExists (s.requests.all fun r => r.id ≠ s.transactionIds 0)) :=
    check s (by decide) (by decide) _
  have h2 := h1.trans (check _ (show .noHash ≠ TurnFault.noEntry by decide) (by decide)
    (kind = .allocate || (s.check .requestExists
      (s.requests.all fun r => r.id ≠ s.transactionIds 0)).hash ≠ []))
  exact h2.trans (of_eq rfl)

theorem removeRequest (s : TurnPort) (id : List Uint8) : Quiet s (s.removeRequest id) := of_eq rfl

theorem setState (s : TurnPort) (e : TurnEntry) (state : BindState) : Quiet s (s.setState e state) := by
  have haddr : ∀ e' : TurnEntry, (if e'.channelId = e.channelId then { e' with state := state } else e').address =
      e'.address := fun e' => by split_ifs <;> rfl
  have hchan : ∀ e' : TurnEntry,
      (if e'.channelId = e.channelId then { e' with state := state } else e').channelId = e'.channelId :=
    fun e' => by split_ifs <;> rfl
  refine ⟨⟨?_, ?_, rfl, rfl, id, id⟩, rfl, [], by simp [TurnPort.setState], nofun⟩
  · simp only [TurnPort.setState, List.map_map]
    exact List.map_congr_left fun e' _ => haddr e'
  · simp only [TurnPort.setState, List.map_map]
    exact List.map_congr_left fun e' _ => hchan e'

/-! ## Responses -/

theorem updateNonce (s : TurnPort) (response : StunMessage) : Quiet s (s.updateNonce w response).1 := by
  have hrealm : ∀ realm, Quiet s (s.setRealm w realm) := by
    intro realm
    unfold setRealm
    split_ifs
    · exact of_eq rfl
    · exact refl s
  unfold TurnPort.updateNonce
  split
  · exact refl s
  · next realm _ =>
    dsimp only
    split
    · exact hrealm realm
    · exact (hrealm realm).trans (of_eq rfl)

theorem retry (s : TurnPort) (response : StunMessage) (kind : TurnRequestKind) :
    Quiet s (match s.updateNonce w response with
      | (s, true) => s.sendRequest kind
      | (s, false) => s) := by
  have h := updateNonce (w := w) s response
  split
  · next t heq =>
    rw [heq] at h
    exact h.trans (sendRequest t kind)
  · next t heq =>
    rw [heq] at h
    exact h

theorem onAllocateSuccess (s : TurnPort) (address stunAddress : SocketAddress) :
    Quiet s (s.onAllocateSuccess address stunAddress) := by
  have hcand : Quiet s { s with
      connected := true
      candidates := s.candidates ++ [⟨P2P.relayPortType, address, stunAddress⟩] } :=
    ⟨⟨rfl, rfl, rfl, rfl, fun _ => by simp [hasRelay], id⟩, rfl, [], by simp, nofun⟩
  exact (hcand.trans (emit _ rfl)).trans (emit _ rfl)

theorem scheduleRefresh (s : TurnPort) (lifetime : Uint32) : Quiet s (s.scheduleRefresh lifetime) := by
  unfold TurnPort.scheduleRefresh
  split_ifs
  · exact refl s
  · exact sendRequest s .refresh

theorem onResponse (s : TurnPort) (response : StunMessage) (kind : TurnRequestKind) :
    Quiet s (s.onResponse response kind) := by
  cases kind with
  | allocate =>
    simp only [TurnPort.onResponse, onAllocateResponse]
    split
    · exact (onAllocateSuccess s _ _).trans (scheduleRefresh _ _)
    · exact refl s
  | refresh =>
    simp only [TurnPort.onResponse, onRefreshResponse]
    split
    · exact refl s
    · exact scheduleRefresh s _
  | createPermission entry extAddr =>
    simp only [TurnPort.onResponse]
    split
    · exact refl s
    · exact emit s rfl
  | channelBind entry channelId extAddr =>
    simp only [TurnPort.onResponse]
    split
    · exact refl s
    · next e _ =>
      have h1 : Quiet s (s.check .notBinding (e.state ≠ .unbound)) := check s (by decide) (by decide) _
      exact (h1.trans (setState _ e .bound)).trans (sendRequest _ _)

theorem errorHandler (s : TurnPort) (response : StunMessage) (kind : TurnRequestKind) {handle : ℕ → TurnPort}
    (h : s.errorHandler w response kind = some handle) (code : ℕ) : Quiet s (handle code) := by
  cases kind with
  | allocate =>
    cases h
    unfold onAllocateError onAuthChallenge
    split_ifs
    · exact emit s rfl
    · exact retry s response .allocate
    · exact emit s rfl
  | refresh =>
    cases h
    unfold onRefreshError
    split_ifs
    · exact retry s response .refresh
    · exact refl s
  | createPermission entry extAddr =>
    obtain ⟨e, -, rfl⟩ := Option.map_eq_some_iff.mp h
    unfold onCreatePermissionError
    split_ifs
    · exact retry s response _
    · exact emit s rfl
  | channelBind entry channelId extAddr =>
    obtain ⟨e, -, rfl⟩ := Option.map_eq_some_iff.mp h
    unfold onChannelBindError
    split_ifs
    · exact retry s response _
    · exact refl s

end Quiet

namespace Frame

theorem onErrorResponse (s : TurnPort) (response : StunMessage) (kind : TurnRequestKind) :
    Frame s (s.onErrorResponse w response kind) := by
  unfold TurnPort.onErrorResponse
  split
  · exact refl s
  · exact check s (by decide) false
  · next handle code hh _ => exact (Quiet.errorHandler s response kind hh code).toFrame

theorem checkResponse (s : TurnPort) (data : ℕ → Uint8) (size : ℕ) : Frame s (s.checkResponse w data size) := by
  unfold TurnPort.checkResponse
  split_ifs
  · exact refl s
  · split
    · exact refl s
    · split
      · exact refl s
      · next msg _ _ =>
        unfold checkMessage
        split
        · exact refl s
        · next request _ =>
          split_ifs
          · exact ((Quiet.onResponse s msg request.kind).trans (Quiet.removeRequest _ _)).toFrame
          · exact (onErrorResponse s msg request.kind).trans (Quiet.removeRequest _ _).toFrame
          · exact refl s

theorem onReadPacket (s : TurnPort) (data : ℕ → Uint8) (size : ℕ) : Frame s (s.onReadPacket w data size) := by
  unfold TurnPort.onReadPacket
  dsimp only
  split_ifs
  · exact refl s
  · unfold handleChannelData
    dsimp only
    split_ifs
    · exact refl s
    · split
      · exact refl s
      · exact emit s _
  · unfold handleDataIndication
    split
    · exact refl s
    · split
      · split_ifs
        · exact emit s _
        · exact refl s
      · exact refl s
  · exact refl s
  · exact checkResponse s data size

theorem sendTo (s : TurnPort) (addr : SocketAddress) (data : List Uint8) (payload : Bool) :
    Frame s (s.sendTo addr data payload) := by
  unfold TurnPort.sendTo
  split
  · exact check s (by decide) false
  · next e _ =>
    split_ifs
    · unfold entrySend
      split_ifs
      · exact ((Quiet.sendRequest s _).trans (Quiet.setState _ e .binding)).toFrame.trans (emit _ _)
      · exact emit s _
      · exact emit s _
    · exact refl s

end Frame

/-- The call creates or destroys a connection. -/
def Op.isConnection : Op → Bool
  | .createConnection _ | .destroyConnection _ => true
  | _ => false

theorem frame_step (s : TurnPort) {op : Op} (h : op.isConnection = false) : Frame s (step w s op) := by
  cases op with
  | prepareAddress => exact (Quiet.sendRequest s .allocate).toFrame
  | createConnection => cases h
  | destroyConnection => cases h
  | readPacket data size => exact Frame.onReadPacket s data size
  | sendTo addr data payload => exact Frame.sendTo s addr data payload
  | timeout id =>
    simp only [step]
    split
    · exact Frame.refl s
    · unfold onTimeout
      split_ifs
      · exact (Frame.emit s _).trans (Quiet.removeRequest _ _).toFrame
      · exact (Quiet.removeRequest s _).toFrame

/-! ## The numbers -/

/-- **What always holds of the channel numbers.** -/
structure Numbered (s : TurnPort) : Prop where
  start : 0x4000 ≤ s.nextChannelNumber
  below : ∀ id ∈ s.entries.map TurnEntry.channelId, 0x4000 ≤ id ∧ id < s.nextChannelNumber
  distinct : (s.entries.map TurnEntry.channelId).Nodup

theorem Numbered.frame (h : Numbered s) (hf : Frame s s') : Numbered s' where
  start := hf.next ▸ h.start
  below := by
    rw [hf.channels, hf.next]
    exact h.below
  distinct := by
    rw [hf.channels]
    exact h.distinct

theorem createEntry_fields (s : TurnPort) (addr : SocketAddress) :
    (s.createEntry addr).entries.map TurnEntry.address = s.entries.map TurnEntry.address ++ [addr] ∧
      (s.createEntry addr).entries.map TurnEntry.channelId =
        s.entries.map TurnEntry.channelId ++ [s.nextChannelNumber] ∧
      (s.createEntry addr).nextChannelNumber = s.nextChannelNumber + 1 ∧
      (s.createEntry addr).connections = s.connections ∧
      (s.createEntry addr).hasRelay = s.hasRelay ∧
      (TurnFault.noEntry ∈ (s.createEntry addr).faults → TurnFault.noEntry ∈ s.faults) := by
  have hcheck : Frame s (s.check .entryExists (s.findEntry addr).isNone) := Frame.check s (by decide) _
  generalize ht : s.check .entryExists (s.findEntry addr).isNone = t at hcheck
  have hfields : t.entries = s.entries ∧ t.nextChannelNumber = s.nextChannelNumber ∧
      t.connections = s.connections ∧ t.candidates = s.candidates := by
    rw [← ht, check_eq]
    exact ⟨rfl, rfl, rfl, rfl⟩
  obtain ⟨hentries, hnext, hconn, hcand⟩ := hfields
  have hsend := (Quiet.sendRequest { t with nextChannelNumber := t.nextChannelNumber + 1 }
    (.createPermission (some t.nextChannelNumber) addr)).toFrame
  simp only [createEntry, sendCreatePermissionRequest, ht]
  refine ⟨?_, ?_, ?_, ?_, ?_, fun hf => hcheck.faults (hsend.faults hf)⟩
  · rw [List.map_append, hsend.addresses, hentries]
    rfl
  · rw [List.map_append, hsend.channels, hentries, hnext]
    rfl
  · rw [hsend.next, hnext]
  · rw [hsend.connections, hconn]
  · simp only [sendRequest, check_eq, hasRelay, hcand]

theorem Numbered.createEntry (h : Numbered s) (addr : SocketAddress) : Numbered (s.createEntry addr) := by
  obtain ⟨-, hchan, hnext, -⟩ := createEntry_fields s addr
  have hstart := h.start
  refine ⟨by omega, ?_, ?_⟩
  · rw [hchan, hnext]
    intro id hid
    rcases List.mem_append.mp hid with hm | hm
    · have := h.below id hm
      omega
    · obtain rfl := List.mem_singleton.mp hm
      omega
  · rw [hchan]
    refine List.nodup_append.mpr ⟨h.distinct, List.nodup_singleton _, ?_⟩
    rintro id hid id' hid' rfl
    have := (h.below id hid).2
    rw [List.mem_singleton.mp hid'] at this
    exact lt_irrefl _ this

theorem Numbered.destroyEntry (h : Numbered s) (addr : SocketAddress) : Numbered (s.destroyEntry addr) := by
  unfold TurnPort.destroyEntry
  split
  · rw [check_eq]
    exact ⟨h.start, h.below, h.distinct⟩
  · next e _ =>
    have hsub : ((s.entries.filter fun e' => e'.channelId ≠ e.channelId).map TurnEntry.channelId).Sublist
        (s.entries.map TurnEntry.channelId) := List.filter_sublist.map _
    exact ⟨h.start, fun id hid => h.below id (hsub.subset hid), h.distinct.sublist hsub⟩

theorem Numbered.step (h : Numbered s) (op : Op) : Numbered (TurnPort.step w s op) := by
  by_cases hop : op.isConnection = false
  · exact h.frame (frame_step s hop)
  cases op with
  | createConnection address =>
    simp only [TurnPort.step, createConnection]
    split_ifs
    · have := h.createEntry address.address
      exact ⟨this.start, this.below, this.distinct⟩
    · exact h.createEntry address.address
    · exact h
  | destroyConnection conn =>
    simp only [TurnPort.step]
    split
    · exact h
    · next e _ =>
      have := h.destroyEntry e.1
      exact ⟨this.start, this.below, this.distinct⟩
  | _ => exact absurd rfl hop

/-! ## Connections and their entries -/

theorem equal_symm {a b : SocketAddress} (h : a.equal b = true) : b.equal a = true :=
  (SocketAddress.equal_iff b a).mpr ((SocketAddress.equal_iff a b).mp h).symm

theorem equal_trans {a b c : SocketAddress} (h : a.equal b = true) (h' : b.equal c = true) : a.equal c = true :=
  (SocketAddress.equal_iff a c).mpr
    (((SocketAddress.equal_iff a b).mp h).trans ((SocketAddress.equal_iff b c).mp h'))

theorem equal_refl (a : SocketAddress) : a.equal a = true := (SocketAddress.equal_iff a a).mpr rfl

theorem getConnection_isSome {addr : SocketAddress} :
    (s.getConnection addr).isSome ↔ ∃ e ∈ s.connections, e.1.equal addr = true := by
  simp only [getConnection, Option.isSome_map, List.find?_isSome]

theorem getConnection_congr (h : s'.connections = s.connections) (addr : SocketAddress) :
    s'.getConnection addr = s.getConnection addr := by
  rw [getConnection, getConnection, h]

theorem EntriesSound.frame (h : EntriesSound s) (hf : Frame s s') : EntriesSound s' where
  addresses := by
    rw [hf.addresses]
    exact h.addresses
  live addr := by
    rw [hf.addresses, getConnection_congr hf.connections]
    exact h.live addr
  channels := by
    rw [hf.channels]
    exact h.channels
  range := by
    rw [hf.channels]
    exact h.range
  destroyed hmem := h.destroyed (hf.faults hmem)

theorem getConnection_addConnection (s : TurnPort) (remoteAddr addr : SocketAddress) :
    ((s.addConnection remoteAddr).getConnection addr).isSome ↔
      (s.getConnection addr).isSome ∨ remoteAddr.equal addr = true := by
  rw [getConnection_isSome, getConnection_isSome]
  simp only [addConnection, List.mem_append, List.mem_filter, List.mem_singleton, Bool.not_eq_true']
  constructor
  · rintro ⟨e, ⟨hmem, -⟩ | rfl, heq⟩
    · exact .inl ⟨e, hmem, heq⟩
    · exact .inr heq
  · rintro (⟨e, hmem, heq⟩ | heq)
    · by_cases hr : e.1.equal remoteAddr = true
      · exact ⟨_, .inr rfl, equal_trans (equal_symm hr) heq⟩
      · exact ⟨e, .inl ⟨hmem, by simpa using hr⟩, heq⟩
    · exact ⟨_, .inr rfl, heq⟩

theorem createConnection_sound_iff (hn : Numbered s) (h : EntriesSound s) {address : P2P.Candidate}
    (hnew : s.getConnection address.address = none) (hacc : accepts w address) :
    EntriesSound (s.createConnection w address).1 ↔ s.hasRelay ∧ s.nextChannelNumber ≤ 0x7FFF := by
  generalize haddr : address.address = a at hnew
  obtain ⟨haddrs, hchans, -, hconns, hrelay, hfaults⟩ := createEntry_fields s a
  have hnum := hn.createEntry a
  -- no entry has the address yet
  have hfresh : ∀ b ∈ s.entries.map TurnEntry.address, b.equal a = false := by
    intro b hb
    by_contra hne
    have := (h.live a).mp ⟨b, hb, by simpa using hne⟩
    rw [hnew] at this
    cases this
  by_cases hr : s.hasRelay
  · have heq : (s.createConnection w address).1 = (s.createEntry a).addConnection a := by
      rw [createConnection, if_pos hacc, haddr]
      simp only [hrelay, hr, if_true]
    rw [heq]
    constructor
    · intro hs
      refine ⟨hr, (hs.range s.nextChannelNumber ?_).2⟩
      show s.nextChannelNumber ∈ (s.createEntry a).entries.map TurnEntry.channelId
      rw [hchans]
      exact List.mem_append_right _ (List.mem_singleton_self _)
    · rintro ⟨-, hle⟩
      refine ⟨?_, ?_, hnum.distinct, ?_, fun hmem => h.destroyed (hfaults hmem)⟩
      · show ((s.createEntry a).entries.map TurnEntry.address).Pairwise _
        rw [haddrs]
        refine List.pairwise_append.mpr ⟨h.addresses, List.pairwise_singleton _ _, ?_⟩
        intro b hb c hc
        rw [List.mem_singleton.mp hc, hfresh b hb]
        exact Bool.false_ne_true
      · intro addr
        show (∃ b ∈ (s.createEntry a).entries.map TurnEntry.address, _) ↔ _
        rw [getConnection_addConnection, getConnection_congr hconns, haddrs, ← h.live addr]
        simp only [List.mem_append, List.mem_singleton]
        constructor
        · rintro ⟨b, hb | rfl, hbe⟩
          · exact .inl ⟨b, hb, hbe⟩
          · exact .inr hbe
        · rintro (⟨b, hb, hbe⟩ | hbe)
          · exact ⟨b, .inl hb, hbe⟩
          · exact ⟨a, .inr rfl, hbe⟩
      · show ∀ id ∈ (s.createEntry a).entries.map TurnEntry.channelId, _
        rw [hchans]
        intro id hid
        rcases List.mem_append.mp hid with hm | hm
        · exact h.range id hm
        · rw [List.mem_singleton.mp hm]
          exact ⟨hn.start, hle⟩
  · have heq : (s.createConnection w address).1 = s.createEntry a := by
      rw [createConnection, if_pos hacc, haddr]
      simp only [hrelay, hr, Bool.false_eq_true, if_false]
    rw [heq]
    refine ⟨fun hs => ?_, fun hp => absurd hp.1 hr⟩
    have hmem : a ∈ (s.createEntry a).entries.map TurnEntry.address := by
      rw [haddrs]
      exact List.mem_append_right _ (List.mem_singleton_self _)
    have := (hs.live a).mp ⟨a, hmem, equal_refl a⟩
    rw [getConnection_congr hconns, hnew] at this
    cases this

theorem EntriesSound.eq_of_equal (h : EntriesSound s) {e e' : TurnEntry} (he : e ∈ s.entries)
    (he' : e' ∈ s.entries) (heq : e.address.equal e'.address = true) : e = e' := by
  by_contra hne
  have hsymm : Std.Symm fun e e' : TurnEntry => ¬ e.address.equal e'.address = true :=
    ⟨fun a b hab hba => hab (equal_symm hba)⟩
  exact (List.pairwise_map.mp h.addresses).forall he he' hne heq

theorem EntriesSound.onConnectionDestroyed (h : EntriesSound s) {addr : SocketAddress}
    (hconn : (s.getConnection addr).isSome) : EntriesSound (s.onConnectionDestroyed addr) := by
  obtain ⟨a, ha, hae⟩ := (h.live addr).mpr hconn
  obtain ⟨e₀, he₀, rfl⟩ := List.mem_map.mp ha
  obtain ⟨e, hfind⟩ : ∃ e, s.findEntry addr = some e :=
    Option.isSome_iff_exists.mp (List.find?_isSome.mpr ⟨e₀, he₀, hae⟩)
  have hemem : e ∈ s.entries := List.mem_of_find?_eq_some hfind
  have heq : e.address.equal addr = true :=
    List.find?_some (p := fun e : TurnEntry => e.address.equal addr) hfind
  have hentries : (s.onConnectionDestroyed addr).entries =
      s.entries.filter fun e' => e'.channelId ≠ e.channelId := by
    simp only [TurnPort.onConnectionDestroyed, destroyEntry, hfind]
  have hconns : (s.onConnectionDestroyed addr).connections =
      s.connections.filter fun f => !f.1.equal addr := by
    simp only [TurnPort.onConnectionDestroyed, destroyEntry, hfind]
  have hfaults : (s.onConnectionDestroyed addr).faults = s.faults := by
    simp only [TurnPort.onConnectionDestroyed, destroyEntry, hfind]
  have hsub : (s.onConnectionDestroyed addr).entries.Sublist s.entries := by
    rw [hentries]
    exact List.filter_sublist
  refine ⟨h.addresses.sublist (hsub.map _), fun addr' => ?_, h.channels.sublist (hsub.map _),
    fun id hid => h.range id ((hsub.map _).subset hid), hfaults ▸ h.destroyed⟩
  rw [getConnection_isSome, hconns, hentries]
  simp only [List.mem_map, List.mem_filter, decide_eq_true_eq, Bool.not_eq_true']
  constructor
  · rintro ⟨-, ⟨e', ⟨he', hne⟩, rfl⟩, heq'⟩
    obtain ⟨f, hf, hfe⟩ := getConnection_isSome.mp ((h.live addr').mp ⟨_, List.mem_map_of_mem he', heq'⟩)
    refine ⟨f, ⟨hf, ?_⟩, hfe⟩
    by_contra hfa
    -- then `e'` would have the address of `e`
    have hsame : e'.address.equal e.address = true :=
      equal_trans heq' (equal_trans (equal_symm hfe)
        (equal_trans (by simpa using hfa) (equal_symm heq)))
    exact hne (congrArg TurnEntry.channelId (h.eq_of_equal he' hemem hsame))
  · rintro ⟨f, ⟨hf, hfa⟩, hfe⟩
    obtain ⟨b, hb, hbe⟩ := (h.live addr').mpr (getConnection_isSome.mpr ⟨f, hf, hfe⟩)
    obtain ⟨e', he', rfl⟩ := List.mem_map.mp hb
    refine ⟨_, ⟨e', ⟨he', fun hid => ?_⟩, rfl⟩, hbe⟩
    obtain rfl : e' = e := List.inj_on_of_nodup_map h.channels he' hemem hid
    have : f.1.equal addr = true := equal_trans hfe (equal_trans (equal_symm hbe) heq)
    rw [hfa] at this
    cases this

/-! ## Runs -/

theorem numbered_new (ids : ℕ → List Uint8) : Numbered (new ids) :=
  ⟨le_refl _, nofun, List.nodup_nil⟩

theorem entriesSound_new (ids : ℕ → List Uint8) : EntriesSound (new ids) where
  addresses := List.Pairwise.nil
  live addr := by simp [new, getConnection]
  channels := List.nodup_nil
  range := nofun
  destroyed := List.not_mem_nil

theorem entriesSound_step_iff (hn : Numbered s) (h : EntriesSound s) {op : Op} (hnew : s.AsksForNew op) :
    EntriesSound (step w s op) ↔ Prepared w s op := by
  by_cases hop : op.isConnection = false
  · refine ⟨fun _ address heq => ?_, fun _ => h.frame (frame_step s hop)⟩
    rw [heq] at hop
    cases hop
  cases op with
  | createConnection address =>
    by_cases hacc : accepts w address
    · rw [step, createConnection_sound_iff hn h (hnew address rfl) hacc]
      exact ⟨fun hp a heq _ => hp, fun hp => hp address rfl hacc⟩
    · have heq : step w s (.createConnection address) = s := by
        rw [step, createConnection, if_neg hacc]
      rw [heq]
      refine ⟨fun _ a ha hacc' => ?_, fun _ => h⟩
      cases ha
      exact absurd hacc' hacc
  | destroyConnection conn =>
    refine ⟨fun _ a ha => (nomatch ha), fun _ => ?_⟩
    simp only [step]
    split
    · exact h
    · next e hfind =>
      exact h.onConnectionDestroyed
        (getConnection_isSome.mpr ⟨e, List.mem_of_find?_eq_some hfind, equal_refl e.1⟩)
  | _ => exact absurd rfl hop

/-- **The entries of a TURN port** are sound all the time if and only if every connection is asked
for when it can be made. -/
theorem entriesSound_iff (w : TurnSurroundings) (ids : ℕ → List Uint8) (ops : List Op)
    (hnew : Guarded (step w) AsksForNew (new ids) ops) :
    (∀ pre, pre <+: ops → EntriesSound (run (step w) (new ids) pre)) ↔
      Guarded (step w) (Prepared w) (new ids) ops := by
  have hnum (pre : List Op) : Numbered (run (step w) (new ids) pre) :=
    run_invariant (G := fun _ _ => True) (fun _ op h _ => h.step op) (numbered_new ids)
      (guarded_true _ pre)
  have hiff := guarded_iff_invariant_of (G := Prepared w) (I := fun s => Numbered s ∧ EntriesSound s)
    (fun s op h hop => by
      rw [← entriesSound_step_iff h.1 h.2 hop]
      exact and_iff_right (h.1.step op)) hnew
  constructor
  · intro h
    exact (hiff.mp fun pre hpre => ⟨hnum pre, h pre hpre⟩).2
  · intro hG pre hpre
    exact (hiff.mpr ⟨⟨numbered_new ids, entriesSound_new ids⟩, hG⟩ pre hpre).2

/-! ## A client to look at -/

def exampleSurroundings : TurnSurroundings where
  hmac := fun _ _ => List.replicate 20 0
  md5 := fun _ => List.replicate 16 0
  ip := .v4 0x0A000001
  username := text "u"
  password := text "p"

def exampleIds (n : ℕ) : List Uint8 := List.replicate 11 0 ++ [BitVec.ofNat 8 n]

def exampleRemote : P2P.Candidate where
  id := []
  component := 1
  protocol := P2P.protoToString .udp
  address := .ofIP (.v4 0x05050505) 2000
  priority := 0
  username := []
  password := []
  type := P2P.localPortType
  networkName := []
  generation := 0
  foundation := []
  relatedAddress := .ofIP .unspec 0

def exampleResponse (type : Uint16) (id : ℕ) (attrs : List StunAttribute) : Op :=
  let msg := ((StunMessage.new .turn).setType type).setTransactionID (exampleIds id)
  let integrity : StunAttribute := ⟨attrMessageIntegrity, .byteString (List.replicate 20 0)⟩
  let bytes := ((attrs ++ [integrity]).foldl (fun msg attr => (msg.addAttribute attr).1) msg.1).write.getD []
  .readPacket (packetData bytes) bytes.length

def exampleAllocated : List Op :=
  [.prepareAddress,
    exampleResponse 0x0113 0 [stunErrorCodeAttribute stunErrorUnauthorized [],
      ⟨attrRealm, .byteString (text "r")⟩, ⟨attrNonce, .byteString (text "n")⟩],
    exampleResponse 0x0103 1 [⟨attrXorMappedAddress, .xorAddress (.ofIP (.v4 0x01010101) 1000)⟩,
      ⟨attrXorRelayedAddress, .xorAddress (.ofIP (.v4 0x09090909) 5000)⟩, ⟨attrLifetime, .uint32 600⟩]]

def exampleReconnected : List Op :=
  exampleAllocated ++ [.createConnection exampleRemote, .destroyConnection 0,
    .createConnection exampleRemote, .destroyConnection 1]

/-- On a port with a relayed address, entries come and go with the connections. -/
theorem entriesSound_reconnected :
    exampleReconnected.inits.Forall fun pre =>
      EntriesSound (run (step exampleSurroundings) (new exampleIds) pre) :=
  List.forall_iff_forall_mem.mpr fun pre hpre =>
    (entriesSound_iff exampleSurroundings exampleIds exampleReconnected (by decide)).mpr
      (by decide) pre ((List.mem_inits pre exampleReconnected).mp hpre)

def exampleEarly : List Op := [.createConnection exampleRemote, .createConnection exampleRemote]

/-- **Two entries for one address**, and no connection. -/
theorem entries_unsound :
    Guarded (step exampleSurroundings) AsksForNew (new exampleIds) exampleEarly ∧
      TurnFault.entryExists ∈ (run (step exampleSurroundings) (new exampleIds) exampleEarly).faults ∧
      ¬ EntriesSound (run (step exampleSurroundings) (new exampleIds) exampleEarly) :=
  ⟨by decide, by decide, fun h => absurd h.addresses (by decide)⟩

end TurnPort

end Libjingle
