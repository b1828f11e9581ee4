import Libjingle.Base.Base64

/-!
# The SRTP filter (`SrtpFilter` and `SrtpSession`, `session/media/srtpfilter.{h,cc}`)

Main result: **`rekey_eq`**.

libsrtp is not part of the source: `srtpCreate` says for a policy whether `srtp_create` makes a session
of it. The parameters of RTCP and the statistics are left out.
-/

namespace Libjingle.Srtp

/-- `CryptoParams`. -/
structure CryptoParams where
  tag : ℤ := 0
  cipherSuite : List Uint8 := []
  keyParams : List Uint8 := []
  sessionParams : List Uint8 := []
  deriving DecidableEq

/-- `CryptoParams::Matches`: tag and cipher suite agree. -/
def CryptoParams.matches (p params : CryptoParams) : Bool :=
  p.tag = params.tag && p.cipherSuite = params.cipherSuite

/-! ## Sessions -/

/-- `SRTP_MASTER_KEY_LEN`. -/
abbrev srtpMasterKeyLen : ℕ := 30

def csAesCm128HmacSha1_80 : List Uint8 := text "AES_CM_128_HMAC_SHA1_80"

def csAesCm128HmacSha1_32 : List Uint8 := text "AES_CM_128_HMAC_SHA1_32"

/-- The policies of libsrtp for the two cipher suites. -/
inductive CryptoPolicy
  | aesCm128HmacSha1_80
  | aesCm128HmacSha1_32
  deriving DecidableEq

/-- `ssrc_type_t`: the direction that a policy is for. -/
inductive SsrcType
  | ssrcAnyInbound
  | ssrcAnyOutbound
  deriving DecidableEq

/-- A key that `SetKey` accepts. -/
abbrev MasterKey := {key : List Uint8 // key.length = srtpMasterKeyLen}

/-- `srtp_policy_t`. -/
structure SrtpPolicy where
  type : SsrcType
  rtp : CryptoPolicy
  rtcp : CryptoPolicy
  key : MasterKey
  deriving DecidableEq

/-- `SrtpSession`, with the policy that it was created with. -/
structure SrtpSession where
  session : Option SrtpPolicy := none
  deriving DecidableEq

/-- The policies of a cipher suite, if it is supported. -/
def cryptoPolicies (cs : List Uint8) : Option (CryptoPolicy × CryptoPolicy) :=
  if cs = csAesCm128HmacSha1_80 then some (.aesCm128HmacSha1_80, .aesCm128HmacSha1_80)
  else if cs = csAesCm128HmacSha1_32 then some (.aesCm128HmacSha1_32, .aesCm128HmacSha1_80)
  else none

/-- The policy that `SetKey` fills in. -/
def policyFor (type : SsrcType) (cs : List Uint8) (key : Option (List Uint8)) : Option SrtpPolicy :=
  match cryptoPolicies cs, key with
  | some (rtp, rtcp), some key =>
    if h : key.length = srtpMasterKeyLen then some ⟨type, rtp, rtcp, ⟨key, h⟩⟩ else none
  | _, _ => none

section

variable (srtpCreate : SrtpPolicy → Bool)

/-- `SrtpSession::SetKey`. -/
def SrtpSession.setKey (s : SrtpSession) (type : SsrcType) (cs : List Uint8)
    (key : Option (List Uint8)) : Bool × SrtpSession :=
  if s.session.isSome then (false, s)
  else
    match policyFor type cs key with
    | none => (false, s)
    | some policy => if srtpCreate policy then (true, ⟨some policy⟩) else (false, s)

/-! ## The filter -/

/-- `ContentSource`. -/
inductive ContentSource
  | csLocal
  | csRemote
  deriving DecidableEq

/-- `SrtpFilter::State`, in its order. -/
inductive State
  | stInit
  | stSentOffer
  | stReceivedOffer
  | stSentPrAnswerNoCrypto
  | stReceivedPrAnswerNoCrypto
  | stActive
  | stSentUpdatedOffer
  | stReceivedUpdatedOffer
  | stSentPrAnswer
  | stReceivedPrAnswer
  deriving DecidableEq

/-- The order of the states, which `IsActive` uses. -/
def State.val : State → ℕ
  | stInit => 0
  | stSentOffer => 1
  | stReceivedOffer => 2
  | stSentPrAnswerNoCrypto => 3
  | stReceivedPrAnswerNoCrypto => 4
  | stActive => 5
  | stSentUpdatedOffer => 6
  | stReceivedUpdatedOffer => 7
  | stSentPrAnswer => 8
  | stReceivedPrAnswer => 9

/-- `SrtpFilter`. -/
structure SrtpFilter where
  state : State := .stInit
  offerParams : List CryptoParams := []
  sendSession : Option SrtpSession := none
  recvSession : Option SrtpSession := none
  appliedSendParams : CryptoParams := {}
  appliedRecvParams : CryptoParams := {}
  deriving DecidableEq

namespace SrtpFilter

/-- `SrtpFilter::IsActive`. -/
def isActive (f : SrtpFilter) : Bool := f.state.val ≥ State.stActive.val

/-- `SrtpFilter::ExpectOffer`. -/
def expectOffer (f : SrtpFilter) (source : ContentSource) : Bool :=
  f.state = .stInit ||
  f.state = .stActive ||
  (f.state = .stSentOffer && source = .csLocal) ||
  (f.state = .stSentUpdatedOffer && source = .csLocal) ||
  (f.state = .stReceivedOffer && source = .csRemote) ||
  (f.state = .stReceivedUpdatedOffer && source = .csRemote)

/-- `SrtpFilter::StoreParams`. -/
def storeParams (f : SrtpFilter) (params : List CryptoParams) (source : ContentSource) : SrtpFilter :=
  let f := { f with offerParams := params }
  if f.state = .stInit then
    { f with state := if source = .csLocal then .stSentOffer else .stReceivedOffer }
  else { f with state := if source = .csLocal then .stSentUpdatedOffer else .stReceivedUpdatedOffer }

/-- `SrtpFilter::SetOffer`. -/
def setOffer (f : SrtpFilter) (offerParams : List CryptoParams) (source : ContentSource) :
    Bool × SrtpFilter :=
  if !f.expectOffer source then (false, f) else (true, f.storeParams offerParams source)

/-- `SrtpFilter::ExpectAnswer`. -/
def expectAnswer (f : SrtpFilter) (source : ContentSource) : Bool :=
  (f.state = .stSentOffer && source = .csRemote) ||
  (f.state = .stReceivedOffer && source = .csLocal) ||
  (f.state = .stSentUpdatedOffer && source = .csRemote) ||
  (f.state = .stReceivedUpdatedOffer && source = .csLocal) ||
  (f.state = .stSentPrAnswerNoCrypto && source = .csLocal) ||
  (f.state = .stSentPrAnswer && source = .csLocal) ||
  (f.state = .stReceivedPrAnswerNoCrypto && source = .csRemote) ||
  (f.state = .stReceivedPrAnswer && source = .csRemote)

def createSrtpSessions (f : SrtpFilter) : SrtpFilter :=
  { f with sendSession := some {}, appliedSendParams := {},
           recvSession := some {}, appliedRecvParams := {} }

/-- `SetSend` of the sending session. -/
def setSend (f : SrtpFilter) (cs : List Uint8) (key : Option (List Uint8)) : Bool × SrtpFilter :=
  let r := (f.sendSession.getD {}).setKey srtpCreate .ssrcAnyOutbound cs key
  (r.1, { f with sendSession := some r.2 })

/-- `SetRecv` of the receiving session. -/
def setRecv (f : SrtpFilter) (cs : List Uint8) (key : Option (List Uint8)) : Bool × SrtpFilter :=
  let r := (f.recvSession.getD {}).setKey srtpCreate .ssrcAnyInbound cs key
  (r.1, { f with recvSession := some r.2 })

/-- `CreateSrtpSessions`, `SetSend` and `SetRecv`, as both callers have them. -/
def rekey (f : SrtpFilter) (sendCs : List Uint8) (sendKey : Option (List Uint8))
    (recvCs : List Uint8) (recvKey : Option (List Uint8)) : Bool × SrtpFilter :=
  let f := f.createSrtpSessions
  let r := f.setSend srtpCreate sendCs sendKey
  if !r.1 then (false, r.2) else r.2.setRecv srtpCreate recvCs recvKey

/-- `SrtpFilter::SetRtpParams`. -/
def setRtpParams (f : SrtpFilter) (sendCs : List Uint8) (sendKey : Option (List Uint8))
    (recvCs : List Uint8) (recvKey : Option (List Uint8)) : Bool × SrtpFilter :=
  if f.state = .stActive then (false, f)
  else
    let r := f.rekey srtpCreate sendCs sendKey recvCs recvKey
    if !r.1 then (false, r.2) else (true, { r.2 with state := .stActive })

/-- `SrtpFilter::NegotiateParams`. -/
def negotiateParams (f : SrtpFilter) (answerParams : List CryptoParams) : Option CryptoParams :=
  match answerParams with
  | [answer] => f.offerParams.find? fun offer => answer.matches offer
  | _ => none

/-- `SrtpFilter::ParseKeyParams`. -/
def parseKeyParams (keyParams : List Uint8) (len : ℕ) : Option (List Uint8) :=
  if !(text "inline:").isPrefixOf keyParams then none
  else
    match Base64.decodeFromArray (keyParams.drop 7) Base64.doStrict with
    | some d => if d.success && d.result.length = len then some d.result else none
    | none => none

/-- The test of `ApplyParams`: these parameters are in force already. -/
def sameParams (f : SrtpFilter) (sendParams recvParams : CryptoParams) : Bool :=
  f.appliedSendParams.cipherSuite = sendParams.cipherSuite &&
  f.appliedSendParams.keyParams = sendParams.keyParams &&
  f.appliedRecvParams.cipherSuite = recvParams.cipherSuite &&
  f.appliedRecvParams.keyParams = recvParams.keyParams

/-- `SrtpFilter::ApplyParams`. -/
def applyParams (f : SrtpFilter) (sendParams recvParams : CryptoParams) : Bool × SrtpFilter :=
  if f.sameParams sendParams recvParams then (true, f)
  else
    match parseKeyParams sendParams.keyParams srtpMasterKeyLen,
      parseKeyParams recvParams.keyParams srtpMasterKeyLen with
    | some sendKey, some recvKey =>
      let r := f.rekey srtpCreate sendParams.cipherSuite (some sendKey) recvParams.cipherSuite
        (some recvKey)
      if r.1 then
        (true, { r.2 with appliedSendParams := sendParams, appliedRecvParams := recvParams })
      else (false, r.2)
    | _, _ => (false, f)

/-- `SrtpFilter::ResetParams`. -/
def resetParams (f : SrtpFilter) : SrtpFilter := { f with offerParams := [], state := .stInit }

/-- The parameters for sending and for receiving that an answer leads to. -/
def answerParams (f : SrtpFilter) (params : List CryptoParams) (source : ContentSource) :
    Option (CryptoParams × CryptoParams) :=
  match params, f.negotiateParams params with
  | answer :: _, some selected =>
    some (if source = .csRemote then (selected, answer) else (answer, selected))
  | _, _ => none

/-- `SrtpFilter::DoSetAnswer`. -/
def doSetAnswer (f : SrtpFilter) (params : List CryptoParams) (source : ContentSource)
    (isFinal : Bool) : Bool × SrtpFilter :=
  if !f.expectAnswer source then (false, f)
  else if params.isEmpty then
    if isFinal then (true, f.resetParams)
    else
      (true, { f with state := if source = .csLocal then .stSentPrAnswerNoCrypto
                               else .stReceivedPrAnswerNoCrypto })
  else
    match f.answerParams params source with
    | none => (false, f)
    | some (sendParams, recvParams) =>
      let r := f.applyParams srtpCreate sendParams recvParams
      if !r.1 then (false, r.2)
      else if isFinal then (true, { r.2 with offerParams := [], state := .stActive })
      else
        (true, { r.2 with state := if source = .csLocal then .stSentPrAnswer else .stReceivedPrAnswer })

/-- `SrtpFilter::SetAnswer`. -/
def setAnswer (f : SrtpFilter) (params : List CryptoParams) (source : ContentSource) :
    Bool × SrtpFilter := f.doSetAnswer srtpCreate params source true

def setProvisionalAnswer (f : SrtpFilter) (params : List CryptoParams) (source : ContentSource) :
    Bool × SrtpFilter := f.doSetAnswer srtpCreate params source false

end SrtpFilter

end

/-- A call of the interface. -/
inductive Call
  | setOffer (params : List CryptoParams) (source : ContentSource)
  | setProvisionalAnswer (params : List CryptoParams) (source : ContentSource)
  | setAnswer (params : List CryptoParams) (source : ContentSource)
  | setRtpParams (sendCs : List Uint8) (sendKey : Option (List Uint8))
      (recvCs : List Uint8) (recvKey : Option (List Uint8))
  deriving DecidableEq

/-- One call. -/
def SrtpFilter.call (srtpCreate : SrtpPolicy → Bool) (f : SrtpFilter) : Call → Bool × SrtpFilter
  | .setOffer params source => f.setOffer params source
  | .setProvisionalAnswer params source => f.setProvisionalAnswer srtpCreate params source
  | .setAnswer params source => f.setAnswer srtpCreate params source
  | .setRtpParams sendCs sendKey recvCs recvKey =>
    f.setRtpParams srtpCreate sendCs sendKey recvCs recvKey

/-! ## What the sessions are keyed with -/

section

variable (srtpCreate : SrtpPolicy → Bool)

/-- The policy of a session that `SetKey` is called on once. -/
def created (type : SsrcType) (cs : List Uint8) (key : Option (List Uint8)) : Option SrtpPolicy :=
  (policyFor type cs key).filter srtpCreate

theorem setKey_new (type : SsrcType) (cs : List Uint8) (key : Option (List Uint8)) :
    SrtpSession.setKey srtpCreate {} type cs key =
      ((created srtpCreate type cs key).isSome, ⟨created srtpCreate type cs key⟩) := by
  unfold SrtpSession.setKey created
  cases policyFor type cs key with
  | none => rfl
  | some policy => cases h : srtpCreate policy <;> simp [Option.filter, h]

variable {srtpCreate} in
theorem created_eq (h : ∀ policy, srtpCreate policy = true) (type : SsrcType) (cs : List Uint8)
    (key : Option (List Uint8)) : created srtpCreate type cs key = policyFor type cs key := by
  unfold created
  cases policyFor type cs key with
  | none => rfl
  | some policy => exact if_pos (h policy)

namespace SrtpFilter

variable (f : SrtpFilter)

/-- The policy in force for sending. -/
def sendPolicy : Option SrtpPolicy := f.sendSession.bind (·.session)

/-- The policy in force for receiving. -/
def recvPolicy : Option SrtpPolicy := f.recvSession.bind (·.session)

/-- The filter with new sessions, and nothing known of their parameters. -/
def rekeyed (send recv : Option SrtpPolicy) : SrtpFilter :=
  { f with
    sendSession := some ⟨send⟩, recvSession := some ⟨recv⟩
    appliedSendParams := {}, appliedRecvParams := {} }

@[simp] theorem isActive_rekeyed (send recv : Option SrtpPolicy) : (f.rekeyed send recv).isActive = f.isActive := rfl

/-- What new sessions with their keys come to. -/
theorem rekey_eq (sendCs recvCs : List Uint8) (sendKey recvKey : Option (List Uint8)) :
    f.rekey srtpCreate sendCs sendKey recvCs recvKey =
      ((created srtpCreate .ssrcAnyOutbound sendCs sendKey).isSome &&
          (created srtpCreate .ssrcAnyInbound recvCs recvKey).isSome,
        f.rekeyed (created srtpCreate .ssrcAnyOutbound sendCs sendKey)
          (if (created srtpCreate .ssrcAnyOutbound sendCs sendKey).isSome
            then created srtpCreate .ssrcAnyInbound recvCs recvKey else none)) := by
  simp only [rekey, setSend, setRecv, createSrtpSessions, Option.getD_some, setKey_new]
  cases created srtpCreate .ssrcAnyOutbound sendCs sendKey <;> simp [rekeyed]

theorem setRtpParams_cases (sendCs recvCs : List Uint8) (sendKey recvKey : Option (List Uint8)) :
    (f.state = .stActive ∧ f.setRtpParams srtpCreate sendCs sendKey recvCs recvKey = (false, f)) ∨
    (f.state ≠ .stActive ∧ (created srtpCreate .ssrcAnyOutbound sendCs sendKey = none ∨
        created srtpCreate .ssrcAnyInbound recvCs recvKey = none) ∧
      f.setRtpParams srtpCreate sendCs sendKey recvCs recvKey =
        (false, f.rekeyed (created srtpCreate .ssrcAnyOutbound sendCs sendKey) none)) ∨
    (f.state ≠ .stActive ∧ ∃ sendPolicy recvPolicy,
      created srtpCreate .ssrcAnyOutbound sendCs sendKey = some sendPolicy ∧
      created srtpCreate .ssrcAnyInbound recvCs recvKey = some recvPolicy ∧
      f.setRtpParams srtpCreate sendCs sendKey recvCs recvKey =
        (true, { f.rekeyed (some sendPolicy) (some recvPolicy) with state := .stActive })) := by
  by_cases hs : f.state = .stActive
  · exact Or.inl ⟨hs, by rw [setRtpParams, if_pos hs]⟩
  right
  simp only [setRtpParams, if_neg hs, rekey_eq]
  cases created srtpCreate .ssrcAnyOutbound sendCs sendKey with
  | none => exact Or.inl ⟨hs, Or.inl rfl, rfl⟩
  | some sendPolicy =>
  cases created srtpCreate .ssrcAnyInbound recvCs recvKey with
  | none => exact Or.inl ⟨hs, Or.inr rfl, rfl⟩
  | some recvPolicy => exact Or.inr ⟨hs, sendPolicy, recvPolicy, rfl, rfl, rfl⟩

/-- The filter after an answer that is not empty and was applied. -/
def answered (source : ContentSource) (isFinal : Bool) : SrtpFilter :=
  if isFinal then { f with offerParams := [], state := .stActive }
  else { f with state := if source = .csLocal then .stSentPrAnswer else .stReceivedPrAnswer }

/-- The filter after an empty answer. -/
def unencrypted (source : ContentSource) (isFinal : Bool) : SrtpFilter :=
  if isFinal then f.resetParams
  else
    { f with state := if source = .csLocal then .stSentPrAnswerNoCrypto
                      else .stReceivedPrAnswerNoCrypto }

abbrev masterKey (params : CryptoParams) : Option (List Uint8) :=
  parseKeyParams params.keyParams srtpMasterKeyLen

/-- What `DoSetAnswer` can come to, with the reason. -/
inductive Answered (params : List CryptoParams) (source : ContentSource) (isFinal : Bool) :
    Bool × SrtpFilter → Prop
  | unexpected (h : f.expectAnswer source = false) : Answered params source isFinal (false, f)
  | empty (h : f.expectAnswer source = true) (hp : params = []) :
    Answered params source isFinal (true, f.unencrypted source isFinal)
  | unmatched (h : f.expectAnswer source = true) (hp : params ≠ [])
    (hn : f.answerParams params source = none) : Answered params source isFinal (false, f)
  | same {send recv : CryptoParams} (h : f.expectAnswer source = true)
    (hn : f.answerParams params source = some (send, recv)) (hs : f.sameParams send recv = true) :
    Answered params source isFinal (true, f.answered source isFinal)
  | unparsed {send recv : CryptoParams} (h : f.expectAnswer source = true)
    (hn : f.answerParams params source = some (send, recv)) (hs : f.sameParams send recv = false)
    (hk : masterKey send = none ∨ masterKey recv = none) : Answered params source isFinal (false, f)
  | refused {send recv : CryptoParams} {sendPolicy : Option SrtpPolicy}
    (h : f.expectAnswer source = true)
    (hn : f.answerParams params source = some (send, recv)) (hs : f.sameParams send recv = false)
    (hk : (masterKey send).isSome = true ∧ (masterKey recv).isSome = true)
    (hsend : created srtpCreate .ssrcAnyOutbound send.cipherSuite (masterKey send) = sendPolicy)
    (hc : sendPolicy = none ∨
      created srtpCreate .ssrcAnyInbound recv.cipherSuite (masterKey recv) = none) :
    Answered params source isFinal (false, f.rekeyed sendPolicy none)
  | keyed {send recv : CryptoParams} {sendPolicy recvPolicy : SrtpPolicy}
    (h : f.expectAnswer source = true)
    (hn : f.answerParams params source = some (send, recv)) (hs : f.sameParams send recv = false)
    (hsend : created srtpCreate .ssrcAnyOutbound send.cipherSuite (masterKey send) = some sendPolicy)
    (hrecv : created srtpCreate .ssrcAnyInbound recv.cipherSuite (masterKey recv) = some recvPolicy) :
    Answered params source isFinal
      (true, { f.rekeyed (some sendPolicy) (some recvPolicy) with
        appliedSendParams := send, appliedRecvParams := recv }.answered source isFinal)

/-- **Every call of `DoSetAnswer` is one of these cases**. -/
theorem doSetAnswer_answered (params : List CryptoParams) (source : ContentSource) (isFinal : Bool) :
    f.Answered srtpCreate params source isFinal (f.doSetAnswer srtpCreate params source isFinal) := by
  unfold doSetAnswer
  cases h : f.expectAnswer source with
  | false => exact .unexpected h
  | true =>
  rcases params with _ | ⟨answer, params⟩
  · have hempty : f.Answered srtpCreate [] source isFinal (true, f.unencrypted source isFinal) :=
      .empty h rfl
    cases isFinal <;> exact hempty
  cases hn : f.answerParams (answer :: params) source with
  | none => exact .unmatched h (List.cons_ne_nil _ _) hn
  | some sr =>
  obtain ⟨send, recv⟩ := sr
  simp only [applyParams]
  cases hs : f.sameParams send recv with
  | true =>
    have hsame : f.Answered srtpCreate (answer :: params) source isFinal
      (true, f.answered source isFinal) := .same h hn hs
    cases isFinal <;> exact hsame
  | false =>
  cases hks : parseKeyParams send.keyParams srtpMasterKeyLen with
  | none => exact .unparsed h hn hs (Or.inl hks)
  | some sendKey =>
  cases hkr : parseKeyParams recv.keyParams srtpMasterKeyLen with
  | none => exact .unparsed h hn hs (Or.inr hkr)
  | some recvKey =>
  simp only [rekey_eq]
  have hk : (masterKey send).isSome = true ∧ (masterKey recv).isSome = true := by simp [hks, hkr]
  rw [← hks, ← hkr]
  cases hsend : created srtpCreate .ssrcAnyOutbound send.cipherSuite (masterKey send) with
  | none =>
    have hrefused : f.Answered srtpCreate (answer :: params) source isFinal
        (false, f.rekeyed none none) :=
      .refused h hn hs hk hsend (Or.inl rfl)
    exact hrefused
  | some sendPolicy =>
  cases hrecv : created srtpCreate .ssrcAnyInbound recv.cipherSuite (masterKey recv) with
  | none =>
    have hrefused : f.Answered srtpCreate (answer :: params) source isFinal
        (false, f.rekeyed (some sendPolicy) none) :=
      .refused h hn hs hk hsend (Or.inr hrecv)
    exact hrefused
  | some recvPolicy =>
    have hkeyed : f.Answered srtpCreate (answer :: params) source isFinal
        (true, { f.rekeyed (some sendPolicy) (some recvPolicy) with
          appliedSendParams := send, appliedRecvParams := recv }.answered source isFinal) :=
      .keyed h hn hs hsend hrecv
    cases isFinal <;> exact hkeyed

end SrtpFilter

end

/-! ## Keys and suites -/

open SrtpFilter

theorem policyFor_eq_none {type : SsrcType} {cs : List Uint8} {key : Option (List Uint8)}
    (h : cryptoPolicies cs = none) : policyFor type cs key = none := by
  simp [policyFor, h]

theorem length_masterKey {params : CryptoParams} {key : List Uint8}
    (h : masterKey params = some key) : key.length = srtpMasterKeyLen := by
  unfold masterKey parseKeyParams at h
  split_ifs at h
  split at h
  · split_ifs at h with hd
    cases h
    rw [Bool.and_eq_true, decide_eq_true_eq] at hd
    exact hd.2
  · cases h

theorem isSome_policyFor (type : SsrcType) (cs : List Uint8) {params : CryptoParams}
    (h : (masterKey params).isSome = true) :
    (policyFor type cs (masterKey params)).isSome = (cryptoPolicies cs).isSome := by
  obtain ⟨key, hkey⟩ := Option.isSome_iff_exists.mp h
  have hlen := length_masterKey hkey
  cases hcs : cryptoPolicies cs with
  | none => simp [policyFor, hcs]
  | some policies => simp [policyFor, hcs, hkey, hlen]

theorem answerParams_suite {f : SrtpFilter} {params : List CryptoParams} {source : ContentSource}
    {send recv : CryptoParams} (h : f.answerParams params source = some (send, recv)) :
    recv.cipherSuite = send.cipherSuite := by
  unfold answerParams at h
  split at h
  · rename_i answer rest selected hn
    have hm : answer.cipherSuite = selected.cipherSuite := by
      unfold negotiateParams at hn
      split at hn
      · rename_i heq
        obtain ⟨rfl, -⟩ := List.cons.inj heq
        have := List.find?_some hn
        simp only [CryptoParams.matches, Bool.and_eq_true, decide_eq_true_eq] at this
        exact this.2
      · cases hn
    split_ifs at h <;> cases h
    · exact hm
    · exact hm.symm
  · cases h

end Libjingle.Srtp
