import Libjingle.Lib.Run
import Libjingle.Srtp.Filter

/-!
# Both ends agree on keys

Main result: **`ends_agree`**.
-/

namespace Libjingle.Srtp

open Lib SrtpFilter

/-! ## Mirror images -/

/-- The source seen from the other end. -/
def ContentSource.other : ContentSource → ContentSource
  | csLocal => csRemote
  | csRemote => csLocal

/-- The direction seen from the other end. -/
def SsrcType.other : SsrcType → SsrcType
  | ssrcAnyInbound => ssrcAnyOutbound
  | ssrcAnyOutbound => ssrcAnyInbound

/-- The state of the other end. -/
def State.mirror : State → State
  | stInit => stInit
  | stSentOffer => stReceivedOffer
  | stReceivedOffer => stSentOffer
  | stSentPrAnswerNoCrypto => stReceivedPrAnswerNoCrypto
  | stReceivedPrAnswerNoCrypto => stSentPrAnswerNoCrypto
  | stActive => stActive
  | stSentUpdatedOffer => stReceivedUpdatedOffer
  | stReceivedUpdatedOffer => stSentUpdatedOffer
  | stSentPrAnswer => stReceivedPrAnswer
  | stReceivedPrAnswer => stSentPrAnswer

/-- The policy that the other end needs. -/
def SrtpPolicy.mirror (policy : SrtpPolicy) : SrtpPolicy := { policy with type := policy.type.other }

/-- The session of the other end. -/
def SrtpSession.mirror (s : SrtpSession) : SrtpSession := ⟨s.session.map SrtpPolicy.mirror⟩

/-- The filter of the other end. -/
def SrtpFilter.mirror (f : SrtpFilter) : SrtpFilter where
  state := f.state.mirror
  offerParams := f.offerParams
  sendSession := f.recvSession.map SrtpSession.mirror
  recvSession := f.sendSession.map SrtpSession.mirror
  appliedSendParams := f.appliedRecvParams
  appliedRecvParams := f.appliedSendParams

variable (f : SrtpFilter)

theorem isActive_mirror : f.mirror.isActive = f.isActive := by
  obtain ⟨state, _⟩ := f
  cases state <;> rfl

theorem expectOffer_mirror (source : ContentSource) : f.mirror.expectOffer source.other = f.expectOffer source := by
  obtain ⟨state, _⟩ := f
  cases state <;> cases source <;> rfl

theorem expectAnswer_mirror (source : ContentSource) :
    f.mirror.expectAnswer source.other = f.expectAnswer source := by
  obtain ⟨state, _⟩ := f
  cases state <;> cases source <;> rfl

theorem storeParams_mirror (params : List CryptoParams) (source : ContentSource) :
    f.mirror.storeParams params source.other = (f.storeParams params source).mirror := by
  obtain ⟨state, _⟩ := f
  cases state <;> cases source <;> rfl

theorem sameParams_mirror (send recv : CryptoParams) : f.mirror.sameParams recv send = f.sameParams send recv := by
  simp only [sameParams, mirror, Bool.and_assoc]
  ac_rfl

theorem policyFor_other (type : SsrcType) (cs : List Uint8) (key : Option (List Uint8)) :
    policyFor type.other cs key = (policyFor type cs key).map SrtpPolicy.mirror := by
  unfold policyFor
  split
  · split_ifs <;> rfl
  · rfl

theorem answerParams_mirror (params : List CryptoParams) (source : ContentSource) :
    f.mirror.answerParams params source.other = (f.answerParams params source).map Prod.swap := by
  have hn : f.mirror.negotiateParams params = f.negotiateParams params := rfl
  unfold answerParams
  rw [hn]
  split <;> cases source <;> rfl

/-! ## Messages -/

section

variable {f} {createA createB : SrtpPolicy → Bool} (hA : ∀ policy, createA policy = true)
  (hB : ∀ policy, createB policy = true)

include hA hB in
/-- **Applying mirrored parameters to the mirror gives the mirror**. -/
theorem applyParams_mirror {send recv : CryptoParams} (hcs : recv.cipherSuite = send.cipherSuite) :
    f.mirror.applyParams createB recv send =
      ((f.applyParams createA send recv).1, (f.applyParams createA send recv).2.mirror) := by
  unfold applyParams
  rw [sameParams_mirror]
  cases f.sameParams send recv with
  | true => rfl
  | false =>
  cases hs : parseKeyParams send.keyParams srtpMasterKeyLen with
  | none => cases parseKeyParams recv.keyParams srtpMasterKeyLen <;> rfl
  | some sendKey =>
  cases hr : parseKeyParams recv.keyParams srtpMasterKeyLen with
  | none => rfl
  | some recvKey =>
  simp only [rekey_eq, created_eq hA, created_eq hB]
  have hsend : (policyFor .ssrcAnyOutbound send.cipherSuite (masterKey send)).isSome =
      (cryptoPolicies send.cipherSuite).isSome := isSome_policyFor _ _ (by simp [hs])
  have hrecv : (policyFor .ssrcAnyInbound recv.cipherSuite (masterKey recv)).isSome =
      (cryptoPolicies recv.cipherSuite).isSome := isSome_policyFor _ _ (by simp [hr])
  rw [hcs] at hrecv ⊢
  rw [masterKey, hs] at hsend
  rw [masterKey, hr, ← hsend] at hrecv
  have hsend' : policyFor .ssrcAnyInbound send.cipherSuite (some sendKey) =
      (policyFor .ssrcAnyOutbound send.cipherSuite (some sendKey)).map SrtpPolicy.mirror :=
    policyFor_other .ssrcAnyOutbound _ _
  have hrecv' : policyFor .ssrcAnyOutbound send.cipherSuite (some recvKey) =
      (policyFor .ssrcAnyInbound send.cipherSuite (some recvKey)).map SrtpPolicy.mirror :=
    policyFor_other .ssrcAnyInbound _ _
  rw [hsend', hrecv']
  -- the suite is the same for both directions: both sessions are keyed or none
  cases hp : policyFor .ssrcAnyOutbound send.cipherSuite (some sendKey) <;>
    cases hq : policyFor .ssrcAnyInbound send.cipherSuite (some recvKey) <;>
    rw [hp, hq] at hrecv
  · rfl
  · cases hrecv
  · cases hrecv
  · simp [rekeyed, mirror, SrtpSession.mirror]

include hA hB in
theorem doSetAnswer_mirror (params : List CryptoParams) (source : ContentSource) (isFinal : Bool) :
    f.mirror.doSetAnswer createB params source.other isFinal =
      ((f.doSetAnswer createA params source isFinal).1,
        (f.doSetAnswer createA params source isFinal).2.mirror) := by
  unfold doSetAnswer
  rw [expectAnswer_mirror, answerParams_mirror]
  cases f.expectAnswer source with
  | false => rfl
  | true =>
  cases params with
  | nil => cases isFinal <;> cases source <;> rfl
  | cons answer params =>
  cases hn : f.answerParams (answer :: params) source with
  | none => rfl
  | some sr =>
    simp only [Option.map_some, Prod.fst_swap, Prod.snd_swap, applyParams_mirror hA hB (answerParams_suite hn)]
    cases (f.applyParams createA sr.1 sr.2).1 with
    | false => rfl
    | true => cases isFinal <;> cases source <;> rfl

end

/-- What one end sends the other. -/
inductive Message
  | offer (params : List CryptoParams)
  | provisionalAnswer (params : List CryptoParams)
  | answer (params : List CryptoParams)
  deriving DecidableEq

/-- A message from the source reaches a filter. -/
def SrtpFilter.handle (srtpCreate : SrtpPolicy → Bool) (f : SrtpFilter) (source : ContentSource) :
    Message → Bool × SrtpFilter
  | .offer params => f.setOffer params source
  | .provisionalAnswer params => f.setProvisionalAnswer srtpCreate params source
  | .answer params => f.setAnswer srtpCreate params source

section

variable {createA createB : SrtpPolicy → Bool} (hA : ∀ policy, createA policy = true)
  (hB : ∀ policy, createB policy = true)

include hA hB in
theorem handle_mirror (m : Message) (source : ContentSource) :
    f.mirror.handle createB source.other m =
      ((f.handle createA source m).1, (f.handle createA source m).2.mirror) := by
  cases m with
  | offer params =>
    simp only [handle, setOffer, expectOffer_mirror, storeParams_mirror]
    cases f.expectOffer source <;> rfl
  | provisionalAnswer params => exact doSetAnswer_mirror hA hB params source false
  | answer params => exact doSetAnswer_mirror hA hB params source true

end

/-- The filters of the two ends. -/
structure Ends where
  a : SrtpFilter := {}
  b : SrtpFilter := {}

/-- A message of one of the ends, handled by both. -/
def Ends.deliver (createA createB : SrtpPolicy → Bool) (e : Ends) (m : ContentSource × Message) : Ends where
  a := (e.a.handle createA m.1 m.2).2
  b := (e.b.handle createB m.1.other m.2).2

/-- The keys of a policy, without the direction. -/
def SrtpPolicy.keying (policy : SrtpPolicy) : CryptoPolicy × CryptoPolicy × MasterKey :=
  (policy.rtp, policy.rtcp, policy.key)

theorem keying_mirror (s : Option SrtpSession) :
    ((s.map SrtpSession.mirror).bind (·.session)).map SrtpPolicy.keying =
      (s.bind (·.session)).map SrtpPolicy.keying := by
  rcases s with _ | ⟨_ | policy⟩ <;> rfl

/-- **Both ends agree**: each sends with the key and the suites, if any, that the other receives
with. -/
theorem ends_agree (createA createB : SrtpPolicy → Bool) (hA : ∀ policy, createA policy = true)
    (hB : ∀ policy, createB policy = true) (messages : List (ContentSource × Message)) :
    let e := run (Ends.deliver createA createB) {} messages
    e.a.isActive = e.b.isActive ∧
      e.a.sendPolicy.map SrtpPolicy.keying = e.b.recvPolicy.map SrtpPolicy.keying ∧
      e.a.recvPolicy.map SrtpPolicy.keying = e.b.sendPolicy.map SrtpPolicy.keying := by
  have hmirror : (run (Ends.deliver createA createB) {} messages).b =
      (run (Ends.deliver createA createB) {} messages).a.mirror := by
    have hstep : ∀ (e : Ends) m, e.b = e.a.mirror → True →
        (e.deliver createA createB m).b = (e.deliver createA createB m).a.mirror := by
      intro e m he _
      simp only [Ends.deliver, he, handle_mirror _ hA hB]
    exact run_invariant hstep rfl (guarded_true _ messages)
  refine ⟨?_, ?_, ?_⟩
  · rw [hmirror, isActive_mirror]
  · rw [hmirror, sendPolicy, recvPolicy, mirror, keying_mirror]
  · rw [hmirror, sendPolicy, recvPolicy, mirror, keying_mirror]

/-- An offer, and an answer with another key. -/
theorem ends_agree_exchange : let params (c : Uint8) : CryptoParams :=
      ⟨1, csAesCm128HmacSha1_32, text "inline:" ++ List.replicate 40 c, []⟩
    let e := run (Ends.deliver (fun _ => true) (fun _ => true)) {}
      [(.csLocal, .offer [params 0x41#8]), (.csRemote, .answer [params 0x42#8])]
    e.a.sendPolicy.map SrtpPolicy.keying = e.b.recvPolicy.map SrtpPolicy.keying ∧
      e.a.sendPolicy.isSome = true :=
  ⟨(ends_agree _ _ (fun _ => rfl) (fun _ => rfl) _).2.1, by decide⟩

end Libjingle.Srtp
