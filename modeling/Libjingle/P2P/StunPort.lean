import Libjingle.Stun.Attributes
import Libjingle.Stun.Fingerprint
import Libjingle.P2P.Connection

/-!
# The check of STUN packets by a port (`Port::GetStunMessage`, `p2p/base/port.cc`)

Main results: **`rejected_no_effect`**, **`rejected_sets_protocol`**.

`hmac` is HMAC-SHA1, and `garbage` the value of a variable that is not initialized.
-/

namespace Libjingle.P2P

open Lib StunMessage

abbrev stunBindingIndication : Uint16 := 0x0011
abbrev iceCandidateComponentRtcp : ℕ := 2

def base64Table : List Uint8 :=
  text "ABCDEFGHIJKLMNOPQRSTUVWXYZabcdefghijklmnopqrstuvwxyz0123456789+/"

def getNextBase64Char (ch : Uint8) : Option Uint8 :=
  if base64Table.contains ch then
    some (base64Table.getD ((base64Table.idxOf ch + 1) % base64Table.length) 0)
  else none

def getRtcpUfragFromRtpUfrag (garbage : Uint8) (rtpUfrag : List Uint8) (h : rtpUfrag ≠ []) : List Uint8 :=
  rtpUfrag.dropLast ++ [(getNextBase64Char (rtpUfrag.getLast h)).getD garbage]

/-- `Port`, as the checks of STUN packets use it. -/
structure StunPort extends Port where
  component : ℕ
  iceUsernameFragment : List Uint8
  password : List Uint8
  candidates : List Candidate
  fragment_ne : iceUsernameFragment ≠ []

namespace StunPort

variable (hmac : List Uint8 → List Uint8 → List Uint8) (garbage : Uint8) (port : StunPort)

def setIceProtocolType (protocol : IceProtocolType) : StunPort := { port with iceProtocol := protocol }

def usernameFragment : List Uint8 :=
  if !port.isStandardIce ∧ port.component = iceCandidateComponentRtcp then
    getRtcpUfragFromRtpUfrag garbage port.iceUsernameFragment port.fragment_ne
  else port.iceUsernameFragment

/-- What `ParseStunUsername` reads from a user name. -/
structure ParsedUsername where
  localUfrag : List Uint8
  remoteUfrag : List Uint8
  remoteProtocolType : IceProtocolType
  deriving DecidableEq, Repr

def remoteProtocolType (username : List Uint8) : IceProtocolType :=
  if port.isHybridIce then if username.contains colon then .rfc5245 else .google else port.iceProtocol

/-- `Port::ParseStunUsername`. -/
def parseStunUsername (username : List Uint8) : Option ParsedUsername :=
  match port.remoteProtocolType username with
  | .rfc5245 =>
    if username.contains colon then
      some ⟨username.takeWhile fun ch => ch ≠ colon,
        (username.dropWhile fun ch => ch ≠ colon).drop 1, .rfc5245⟩
    else none
  | .google =>
    let length := (port.usernameFragment garbage).length
    if username.length < length then none
    else some ⟨username.take length, username.drop length, .google⟩
  | .hybrid => some ⟨[], [], .hybrid⟩

def errorAttribute (errorCode : ℕ) (reason : List Uint8) : StunAttribute :=
  match port.iceProtocol with
  | .rfc5245 => stunErrorCodeAttribute errorCode reason
  | .google =>
    ⟨attrErrorCode,
      .errorCode (BitVec.ofNat 8 (errorCode / 256)) (BitVec.ofNat 8 (errorCode % 256)) reason⟩
  | .hybrid => ⟨attrErrorCode, .errorCode 0 0 reason⟩

def finishErrorResponse (request response : StunMessage) (errorCode : ℕ) : StunMessage :=
  match port.iceProtocol with
  | .rfc5245 =>
    let response :=
      if errorCode ≠ stunErrorBadRequest ∧ errorCode ≠ stunErrorUnauthorized then
        response.addMessageIntegrity hmac port.password
      else response
    response.addFingerprint
  | .google =>
    match request.getString attrUsername with
    | some username => (response.addAttribute ⟨attrUsername, .byteString username⟩).1
    | none => response
  | .hybrid => response

/-- `Port::SendBindingErrorResponse`. -/
def bindingErrorResponse (request : StunMessage) (errorCode : ℕ) (reason : List Uint8) : StunMessage :=
  let response := (StunMessage.new .stun).setType stunBindingErrorResponse
  let response := (response.setTransactionID request.transactionId).1
  let response := (response.addAttribute (port.errorAttribute errorCode reason)).1
  port.finishErrorResponse hmac request response errorCode

/-- What comes of a packet: whether it is STUN, what is handed out, the port, and what was sent. -/
structure StunResult where
  isStun : Bool
  outMsg : Option StunMessage
  outUsername : List Uint8
  port : StunPort
  sent : List (StunMessage × SocketAddress)

/-- The packet is left to others. -/
def notStun : StunResult := ⟨false, none, [], port, []⟩

/-- The packet is STUN, but nothing follows. -/
def dropped : StunResult := ⟨true, none, [], port, []⟩

def refused (addr : SocketAddress) (request : StunMessage) (errorCode : ℕ) (reason : List Uint8) :
    StunResult :=
  ⟨true, none, [], port, [(port.bindingErrorResponse hmac request errorCode reason, addr)]⟩

def handedOut (msg : StunMessage) (username : List Uint8) : StunResult := ⟨true, some msg, username, port, []⟩

/-- A port in hybrid mode takes the protocol of a request. -/
def inferProtocol (protocol : IceProtocolType) : StunPort :=
  if port.isHybridIce then port.setIceProtocolType protocol else port

def checkRequest (data : List Uint8) (addr : SocketAddress) (request : StunMessage) : StunResult :=
  match request.getString attrUsername with
  | none => port.refused hmac addr request stunErrorBadRequest stunErrorReasonBadRequest
  | some username =>
    if port.isStandardIce ∧ (request.getByteString attrMessageIntegrity).isNone then
      port.refused hmac addr request stunErrorBadRequest stunErrorReasonBadRequest
    else
      match port.parseStunUsername garbage username with
      | none => port.refused hmac addr request stunErrorUnauthorized stunErrorReasonUnauthorized
      | some parsed =>
        if parsed.localUfrag ≠ port.usernameFragment garbage then
          port.refused hmac addr request stunErrorUnauthorized stunErrorReasonUnauthorized
        else
          let port := port.inferProtocol parsed.remoteProtocolType
          if port.isStandardIce ∧
              !validateMessageIntegrity hmac (packetData data) data.length port.password then
            port.refused hmac addr request stunErrorUnauthorized stunErrorReasonUnauthorized
          else port.handedOut request parsed.remoteUfrag

/-- `Port::GetStunMessage`. -/
def getStunMessage (data : List Uint8) (addr : SocketAddress) : StunResult :=
  if port.isStandardIce ∧ !validateFingerprint (packetData data) data.length then port.notStun
  else
    match read .ice data with
    | some (msg, []) =>
      if msg.type = stunBindingRequest then port.checkRequest hmac garbage data addr msg
      else if msg.type = stunBindingResponse ∨ msg.type = stunBindingErrorResponse then
        if msg.type = stunBindingErrorResponse ∧ msg.getErrorCode.isNone then port.dropped
        else port.handedOut msg []
      else if msg.type = stunBindingIndication then port.handedOut msg []
      else port.dropped
    | _ => port.notStun

/-! ## Responses -/

theorem type_addFingerprint (msg : StunMessage) : msg.addFingerprint.type = msg.type := by
  unfold StunMessage.addFingerprint StunMessage.addFingerprintWith
  dsimp only
  split <;> exact addAttribute_type

theorem type_finishErrorResponse (request response : StunMessage) (errorCode : ℕ) :
    (port.finishErrorResponse hmac request response errorCode).type = response.type := by
  unfold finishErrorResponse
  split
  · rw [type_addFingerprint]
    split
    · exact addMessageIntegrity_type
    · rfl
  · split
    · exact addAttribute_type
    · rfl
  · rfl

theorem type_bindingErrorResponse (request : StunMessage) (errorCode : ℕ) (reason : List Uint8) :
    (port.bindingErrorResponse hmac request errorCode reason).type = stunBindingErrorResponse := by
  unfold bindingErrorResponse
  rw [type_finishErrorResponse, addAttribute_type, setTransactionID_type]
  rfl

/-! ## Rejected packets -/

variable {hmac garbage port} {data : List Uint8} {addr : SocketAddress}

/-- A rejected packet changes the protocol at most, and is answered by one error at most. -/
structure Rejected (port' : StunPort) (addr : SocketAddress) (r : StunResult) : Prop where
  isStun : r.isStun = true
  outMsg : r.outMsg = none
  port : r.port = port'
  sent : r.sent.length ≤ 1
  error : ∀ e ∈ r.sent, e.1.type = stunBindingErrorResponse ∧ e.2 = addr

theorem rejected_refused (request : StunMessage) (errorCode : ℕ) (reason : List Uint8) :
    Rejected port addr (port.refused hmac addr request errorCode reason) where
  isStun := rfl
  outMsg := rfl
  port := rfl
  sent := Nat.le_refl 1
  error := by
    intro e he
    obtain rfl := List.mem_singleton.mp he
    exact ⟨type_bindingErrorResponse hmac port request errorCode reason, rfl⟩

theorem rejected_dropped : Rejected port addr port.dropped where
  isStun := rfl
  outMsg := rfl
  port := rfl
  sent := Nat.zero_le 1
  error := fun _ he => absurd he List.not_mem_nil

def namesFragment (garbage : Uint8) (port : StunPort) (username : List Uint8) : Bool :=
  port.isHybridIce && username.contains colon &&
    (username.takeWhile fun ch => ch ≠ colon) == port.usernameFragment garbage

def showsRfc5245 (garbage : Uint8) (port : StunPort) (data : List Uint8) : Bool :=
  match read .ice data with
  | some (msg, []) =>
    msg.type == stunBindingRequest && (msg.getString attrUsername).any (port.namesFragment garbage)
  | _ => false

def afterRejected (garbage : Uint8) (port : StunPort) (data : List Uint8) : StunPort :=
  if port.showsRfc5245 garbage data then port.setIceProtocolType .rfc5245 else port

theorem namesFragment_iff {username : List Uint8} :
    port.namesFragment garbage username = true ↔
      port.isHybridIce = true ∧ ∃ parsed, port.parseStunUsername garbage username = some parsed ∧
        parsed.remoteProtocolType = .rfc5245 ∧ parsed.localUfrag = port.usernameFragment garbage := by
  unfold namesFragment parseStunUsername remoteProtocolType
  by_cases hhybrid : port.isHybridIce = true
  · by_cases hcolon : username.contains colon = true
    · simp only [hhybrid, hcolon, if_true, Bool.true_and, beq_iff_eq, true_and]
      constructor
      · exact fun h => ⟨_, rfl, rfl, h⟩
      · rintro ⟨parsed, hparsed, -, hlocal⟩
        rwa [← Option.some.inj hparsed] at hlocal
    · simp only [hhybrid, hcolon, if_true, Bool.true_and, Bool.false_and, Bool.false_eq_true, if_false,
        true_and, false_iff]
      rintro ⟨parsed, hparsed, htype, -⟩
      split at hparsed
      · cases hparsed
      · cases hparsed
        cases htype
  · simp [hhybrid]

theorem inferProtocol_eq {username : List Uint8} {parsed : ParsedUsername}
    (hparse : port.parseStunUsername garbage username = some parsed)
    (hours : parsed.localUfrag = port.usernameFragment garbage)
    (hstandard : (port.inferProtocol parsed.remoteProtocolType).isStandardIce = true) :
    port.inferProtocol parsed.remoteProtocolType =
      if port.namesFragment garbage username then port.setIceProtocolType .rfc5245 else port := by
  by_cases hhybrid : port.isHybridIce = true
  · have hinfer : port.inferProtocol parsed.remoteProtocolType =
        port.setIceProtocolType parsed.remoteProtocolType := if_pos hhybrid
    have htype : parsed.remoteProtocolType = .rfc5245 := by
      rw [hinfer] at hstandard
      exact beq_iff_eq.mp hstandard
    rw [if_pos (namesFragment_iff.mpr ⟨hhybrid, parsed, hparse, htype, hours⟩), hinfer, htype]
  · rw [if_neg fun hnames => hhybrid (namesFragment_iff.mp hnames).1]
    exact if_neg hhybrid

theorem rejected_checkRequest {request : StunMessage}
    (h : (port.checkRequest hmac garbage data addr request).outMsg = none) :
    Rejected
      (if (request.getString attrUsername).any (port.namesFragment garbage) then
        port.setIceProtocolType .rfc5245 else port)
      addr (port.checkRequest hmac garbage data addr request) := by
  unfold checkRequest at h ⊢
  cases hname : request.getString attrUsername with
  | none => exact rejected_refused request _ _
  | some username =>
    simp only [hname, Option.any_some] at h ⊢
    -- a port that is not in hybrid mode, or whose fragment is not named, stays as it is
    have hstays : ∀ {request errorCode reason}, ¬ port.namesFragment garbage username = true →
        Rejected (if port.namesFragment garbage username then port.setIceProtocolType .rfc5245 else port)
          addr (port.refused hmac addr request errorCode reason) := by
      intro request errorCode reason hnot
      rw [if_neg hnot]
      exact rejected_refused request errorCode reason
    split at h
    · rename_i hmissing
      rw [if_pos hmissing]
      refine hstays fun hnames => ?_
      have hhybrid := (namesFragment_iff.mp hnames).1
      simp [Port.isHybridIce, Port.isStandardIce] at hhybrid hmissing
      rw [hhybrid] at hmissing
      cases hmissing.1
    · rename_i hpresent
      rw [if_neg hpresent]
      cases hparse : port.parseStunUsername garbage username with
      | none =>
        refine hstays fun hnames => ?_
        obtain ⟨-, parsed, hparsed, -⟩ := namesFragment_iff.mp hnames
        rw [hparse] at hparsed
        cases hparsed
      | some parsed =>
        simp only [hparse] at h ⊢
        split at h
        · rename_i hother
          rw [if_pos hother]
          refine hstays fun hnames => ?_
          obtain ⟨-, parsed', hparsed, -, hlocal⟩ := namesFragment_iff.mp hnames
          rw [hparse] at hparsed
          exact hother (Option.some.inj hparsed ▸ hlocal)
        · rename_i hours
          rw [if_neg hours]
          split at h
          · rename_i hbad
            rw [if_pos hbad, ← inferProtocol_eq hparse (not_not.mp hours) hbad.1]
            exact rejected_refused request _ _
          · cases h

/-- **A packet that is rejected has no effect** but on the protocol type in hybrid mode; one error
response is sent at most. -/
theorem rejected_no_effect (hmac : List Uint8 → List Uint8 → List Uint8) (garbage : Uint8)
    (port : StunPort) (data : List Uint8) (addr : SocketAddress)
    (hstun : (port.getStunMessage hmac garbage data addr).isStun = true)
    (hout : (port.getStunMessage hmac garbage data addr).outMsg = none) :
    Rejected (port.afterRejected garbage data) addr (port.getStunMessage hmac garbage data addr) := by
  unfold getStunMessage at hstun hout ⊢
  split at hstun
  · cases hstun
  · rename_i hfingerprint
    rw [if_neg hfingerprint] at hout ⊢
    unfold afterRejected showsRfc5245
    split at hstun
    · rename_i msg hread
      simp only [hread] at hout ⊢
      by_cases hrequest : msg.type = stunBindingRequest
      · simp only [hrequest, Bool.true_and, beq_self_eq_true] at hout ⊢
        exact rejected_checkRequest hout
      · have hother : (msg.type == stunBindingRequest) = false := beq_eq_false_iff_ne.mpr hrequest
        simp only [if_neg hrequest, hother, Bool.false_and, Bool.false_eq_true, if_false] at hout ⊢
        split_ifs at hout ⊢
        · exact rejected_dropped
        · cases hout
        · cases hout
        · exact rejected_dropped
    · cases hstun

def exampleRequest : List Uint8 :=
  [0x00, 0x01, 0x00, 0x10, 0x21, 0x12, 0xa4, 0x42] ++ text "transaction!" ++
    [0x00, 0x06, 0x00, 0x09] ++ text "user:peer" ++ [0, 0, 0]

def exampleStunPort : StunPort where
  session := 0
  type := localPortType
  network := ⟨0, text "eth0", 0⟩
  generation := 0
  sharedSocket := false
  iceProtocol := .hybrid
  iceRole := .controlled
  tiebreaker := 0
  connections := []
  component := 1
  iceUsernameFragment := text "user"
  password := text "password"
  candidates := []
  fragment_ne := by decide

/-- **The protocol is taken although the message integrity is missing.** -/
theorem rejected_sets_protocol :
    let r := exampleStunPort.getStunMessage (fun _ _ => []) 0 exampleRequest
      (.ofIP (.v4 0x0a000001) 1000)
    r.isStun = true ∧ r.outMsg = none ∧ exampleStunPort.iceProtocol = .hybrid ∧
      r.port.iceProtocol = .rfc5245 := by
  decide

theorem rejected_no_effect_hybrid :
    Rejected (exampleStunPort.afterRejected 0 exampleRequest) (.ofIP (.v4 0x0a000001) 1000)
      (exampleStunPort.getStunMessage (fun _ _ => []) 0 exampleRequest (.ofIP (.v4 0x0a000001) 1000)) :=
  rejected_no_effect (fun _ _ => []) 0 exampleStunPort exampleRequest (.ofIP (.v4 0x0a000001) 1000)
    (by decide) (by decide)

end StunPort

end Libjingle.P2P
