import Libjingle.Stun.Integrity
import Libjingle.Turn.Entries

/-!
# What a TURN client makes of a packet

Main results: **`inputExact_iff`**, **`errorCode_missing`**.
-/

namespace Libjingle

open Lib StunMessage

namespace TurnPort

variable (w : TurnSurroundings) (s : TurnPort) (data : ℕ → Uint8) (size : ℕ)

/-! ## Payloads -/

/-- The output is the payload of channel data. -/
def FromChannel (o : TurnOutput) : Prop :=
  isTurnChannelData (getBE16 data 0) = true ∧
    turnChannelHeaderSize + (getBE16 data 2).toNat ≤ size ∧
    ∃ e ∈ s.entries, e.channelId = (getBE16 data 0).toNat ∧
      o = s.dispatchPacket (block data turnChannelHeaderSize (getBE16 data 2).toNat) e.address

/-- The output is the DATA of a data indication. -/
def FromIndication (o : TurnOutput) : Prop :=
  getBE16 data 0 = turnDataIndication ∧ ∃ msg rest peer bytes,
    StunMessage.read .turn (block data 0 size) = some (msg, rest) ∧
      msg.getSocketAddress attrXorPeerAddress = some peer ∧ msg.getString attrData = some bytes ∧
      (∃ e ∈ s.entries, e.address.ip = peer.ip) ∧ o = s.dispatchPacket bytes peer

/-! ## Responses -/

/-- The pending request that the packet answers. -/
def matched : Option (StunMessage × TurnRequest) :=
  if size < 20 then none
  else
    (s.findRequest (block data 8 kStunTransactionIdLength)).bind fun _ =>
      (StunMessage.read .turn (block data 0 size)).bind fun r =>
        (s.findRequest r.1.transactionId).map fun request => (r.1, request)

/-- The request looks for the code of an error response. -/
def LooksForCode : TurnRequestKind → Prop
  | .allocate | .refresh => True
  | .createPermission entry _ | .channelBind entry _ _ => (s.entryOf entry).isSome

def LacksErrorCode : Prop :=
  ∃ msg request, s.matched data size = some (msg, request) ∧
    getStunErrorResponseType request.kind.type = some msg.type ∧ s.LooksForCode request.kind ∧
    errorCode msg = none

/-- No absent attribute is used, and one payload at most is handed on. -/
structure InputExact : Prop where
  present : (s.onReadPacket w data size).faults.count .noErrorCode = s.faults.count .noErrorCode
  delivers : ∃ out, (s.onReadPacket w data size).log = s.log ++ out ∧
    (out.filter TurnOutput.isDelivery).length ≤ 1 ∧
    ∀ o ∈ out, o.isDelivery = true → FromChannel s data size o ∨ FromIndication s data size o

variable {w s data size}

theorem checkResponse_eq : s.checkResponse w data size =
    match s.matched data size with
    | none => s
    | some (msg, request) =>
      if some msg.type = getStunSuccessResponseType request.kind.type then
        (s.onResponse msg request.kind).removeRequest request.id
      else if some msg.type = getStunErrorResponseType request.kind.type then
        (s.onErrorResponse w msg request.kind).removeRequest request.id
      else s := by
  unfold checkResponse matched checkMessage
  split_ifs
  · rfl
  · cases s.findRequest (block data 8 kStunTransactionIdLength) with
    | none => rfl
    | some r =>
      cases StunMessage.read .turn (block data 0 size) with
      | none => rfl
      | some m =>
        dsimp only [Option.bind_some]
        cases s.findRequest m.1.transactionId <;> rfl

theorem looksForCode_iff (response : StunMessage) (kind : TurnRequestKind) :
    s.LooksForCode kind ↔ (s.errorHandler w response kind).isSome := by
  cases kind <;> simp [LooksForCode, errorHandler]

theorem matched_type {msg : StunMessage} {request : TurnRequest}
    (h : s.matched data size = some (msg, request)) : getBE16 data 0 = msg.type ∧ 20 ≤ size := by
  unfold matched at h
  split_ifs at h with hsize
  simp only [Option.bind_eq_some_iff, Option.map_eq_some_iff, Prod.mk.injEq] at h
  obtain ⟨-, -, ⟨m, rest⟩, hread, -, -, rfl, rfl⟩ := h
  obtain ⟨rounds, hrounds⟩ := rounds_of_read hread
  obtain ⟨area, hheader, -⟩ := readRounds_eq_some.mp hrounds
  obtain ⟨cookie, tid, hblock, -⟩ := readHeader_eq_some.mp hheader
  simp only [List.append_assoc] at hblock
  exact ⟨getBE16_of_append hblock, not_lt.mp hsize⟩

theorem onReadPacket_error {msg : StunMessage} {request : TurnRequest} (h : s.matched data size = some (msg, request))
    (htype : getStunErrorResponseType request.kind.type = some msg.type) :
    s.onReadPacket w data size = (s.onErrorResponse w msg request.kind).removeRequest request.id := by
  obtain ⟨hbe, hsize⟩ := matched_type h
  have hplain : isTurnChannelData msg.type = false ∧ msg.type ≠ turnDataIndication ∧
      isStunSuccessResponseType msg.type = false ∧
      some msg.type ≠ getStunSuccessResponseType request.kind.type := by
    have hkinds : request.kind.type = stunAllocateRequest ∨ request.kind.type = turnRefreshRequest ∨
        request.kind.type = turnCreatePermissionRequest ∨ request.kind.type = turnChannelBindRequest := by
      cases request.kind <;> simp [TurnRequestKind.type]
    rcases hkinds with hk | hk | hk | hk <;>
    · rw [hk] at htype ⊢
      rw [Option.some.inj (htype.symm.trans rfl)]
      decide
  obtain ⟨hchan, hind, hsucc, hne⟩ := hplain
  have hlt : ¬ size < turnChannelHeaderSize := by
    unfold turnChannelHeaderSize
    omega
  simp only [onReadPacket, if_neg hlt, hbe, hchan, if_neg hind, hsucc, Bool.false_eq_true, if_false,
    false_and]
  rw [checkResponse_eq, h]
  simp only
  rw [if_neg hne, if_pos htype.symm]

theorem onErrorResponse_quiet {response : StunMessage} {kind : TurnRequestKind}
    (h : ¬ (s.LooksForCode kind ∧ errorCode response = none)) :
    Quiet s (s.onErrorResponse w response kind) := by
  rw [looksForCode_iff (w := w) response] at h
  unfold onErrorResponse
  split
  · exact Quiet.refl s
  · next handle hh hc => exact absurd ⟨by rw [hh]; rfl, hc⟩ h
  · next handle code hh _ => exact Quiet.errorHandler s response kind hh code

theorem onErrorResponse_lacks {response : StunMessage} {kind : TurnRequestKind}
    (hl : s.LooksForCode kind) (hc : errorCode response = none) :
    s.onErrorResponse w response kind = { s with faults := s.faults ++ [.noErrorCode] } := by
  rw [looksForCode_iff (w := w) response, Option.isSome_iff_exists] at hl
  obtain ⟨handle, hh⟩ := hl
  rw [onErrorResponse, hh, hc]
  rfl

theorem checkResponse_quiet (h : ¬ LacksErrorCode s data size) : Quiet s (s.checkResponse w data size) := by
  rw [checkResponse_eq]
  split
  · exact Quiet.refl s
  · next msg request hm =>
    split_ifs with hs he
    · exact (Quiet.onResponse s msg request.kind).trans (Quiet.removeRequest _ _)
    · refine (onErrorResponse_quiet fun hlc => h ?_).trans (Quiet.removeRequest _ _)
      exact ⟨msg, request, hm, he.symm, hlc.1, hlc.2⟩
    · exact Quiet.refl s

/-! ## Every packet -/

theorem inputExact_emit {o : TurnOutput} (h : s.onReadPacket w data size = s.emit o)
    (ho : FromChannel s data size o ∨ FromIndication s data size o) : InputExact w s data size where
  present := by rw [h]; rfl
  delivers := by
    refine ⟨[o], by rw [h]; rfl, ?_, fun o' ho' _ => List.mem_singleton.mp ho' ▸ ho⟩
    exact List.length_filter_le _ _

theorem inputExact_quiet (h : Quiet s (s.onReadPacket w data size)) : InputExact w s data size where
  present := h.codes
  delivers := by
    obtain ⟨out, hlog, hout⟩ := h.log
    refine ⟨out, hlog, ?_, fun o ho hd => ?_⟩
    · rw [List.filter_eq_nil_iff.mpr fun o ho => by rw [hout o ho]; exact Bool.false_ne_true]
      exact Nat.zero_le 1
    · rw [hout o ho] at hd
      cases hd

/-- **The input of a TURN client is handled exactly** if and only if no ERROR-CODE that is looked
for is missing. -/
theorem inputExact_iff (w : TurnSurroundings) (s : TurnPort) (data : ℕ → Uint8) (size : ℕ) :
    InputExact w s data size ↔ ¬ LacksErrorCode s data size := by
  constructor
  · rintro hexact ⟨msg, request, hm, htype, hl, hc⟩
    have hpresent := hexact.present
    rw [onReadPacket_error hm htype, onErrorResponse_lacks hl hc] at hpresent
    simp [removeRequest] at hpresent
  · intro h
    have hplain : ∀ {t : TurnPort}, s.onReadPacket w data size = t → Quiet s t →
        InputExact w s data size := fun heq hq => inputExact_quiet (heq ▸ hq)
    by_cases hsize : size < turnChannelHeaderSize
    · exact hplain (by rw [onReadPacket, if_pos hsize]) (Quiet.refl s)
    by_cases hchan : isTurnChannelData (getBE16 data 0) = true
    · have heq : s.onReadPacket w data size =
          s.handleChannelData (getBE16 data 0).toNat data size := by
        rw [onReadPacket, if_neg hsize]
        exact if_pos hchan
      by_cases hlen : (getBE16 data 2).toNat > size - turnChannelHeaderSize
      · exact hplain (heq.trans (if_pos hlen)) (Quiet.refl s)
      cases hfind : s.findEntryByChannel (getBE16 data 0).toNat with
      | none =>
        refine hplain (heq.trans ?_) (Quiet.refl s)
        simp only [handleChannelData, if_neg hlen, hfind]
      | some e =>
        refine inputExact_emit (heq.trans ?_) (.inl ⟨hchan, by omega, e, ?_, ?_, rfl⟩)
        · simp only [handleChannelData, if_neg hlen, hfind]
        · exact List.mem_of_find?_eq_some hfind
        · exact of_decide_eq_true (List.find?_some
            (p := fun e : TurnEntry => decide (e.channelId = (getBE16 data 0).toNat)) hfind)
    by_cases hind : getBE16 data 0 = turnDataIndication
    · have heq : s.onReadPacket w data size = s.handleDataIndication data size := by
        rw [onReadPacket, if_neg hsize]
        dsimp only
        rw [if_neg hchan, if_pos hind]
      cases hread : StunMessage.read .turn (block data 0 size) with
      | none => exact hplain (heq.trans (by rw [handleDataIndication, hread])) (Quiet.refl s)
      | some r =>
        obtain ⟨msg, rest⟩ := r
        cases hpeer : msg.getSocketAddress attrXorPeerAddress with
        | none => exact hplain (heq.trans (by simp only [handleDataIndication, hread, hpeer])) (Quiet.refl s)
        | some peer =>
          cases hdata : msg.getString attrData with
          | none =>
            exact hplain (heq.trans (by simp only [handleDataIndication, hread, hpeer, hdata]))
              (Quiet.refl s)
          | some bytes =>
            have hall : s.onReadPacket w data size =
                if s.hasPermission peer.ip then s.emit (s.dispatchPacket bytes peer) else s := by
              rw [heq]
              simp only [handleDataIndication, hread, hpeer, hdata]
            by_cases hperm : s.hasPermission peer.ip = true
            · rw [if_pos hperm] at hall
              obtain ⟨e, he, hip⟩ := List.any_eq_true.mp hperm
              exact inputExact_emit hall (.inr ⟨hind, msg, rest, peer, bytes, hread, hpeer, hdata,
                ⟨e, he, of_decide_eq_true hip⟩, rfl⟩)
            · rw [if_neg hperm] at hall
              exact hplain hall (Quiet.refl s)
    by_cases hbad : isStunSuccessResponseType (getBE16 data 0) = true ∧
        (!validateMessageIntegrity w.hmac data size s.hash) = true
    · refine hplain ?_ (Quiet.refl s)
      rw [onReadPacket, if_neg hsize]
      dsimp only
      rw [if_neg hchan, if_neg hind, if_pos hbad]
    · refine hplain ?_ (checkResponse_quiet (w := w) h)
      rw [onReadPacket, if_neg hsize]
      dsimp only
      rw [if_neg hchan, if_neg hind, if_neg hbad]

def exampleBareError : List Uint8 := writeUInt16 0x0113 ++ writeUInt16 0 ++ writeUInt32 kStunMagicCookie ++ exampleIds 0

/-- **An error response without ERROR-CODE** leads to a null pointer. -/
theorem errorCode_missing :
    ¬ InputExact exampleSurroundings (step exampleSurroundings (new exampleIds) .prepareAddress)
      (packetData exampleBareError) 20 := fun h => absurd h.present (by decide)

end TurnPort

end Libjingle
