import Libjingle.Lib.Run
import Libjingle.Srtp.Filter

/-!
# Active filters and their keys

Main results: **`activeKeyed_iff`**, **`failed_unchanged_iff`**.
-/

variable {source : ContentSource} {r : Bool × SrtpFilter} {params : List CryptoParams} {isFinal : Bool}
  {f : SrtpFilter}

namespace Libjingle.Srtp

open Lib SrtpFilter

variable (srtpCreate : SrtpPolicy → Bool)

def SrtpFilter.answerPolicies (f : SrtpFilter) (params : List CryptoParams) (source : ContentSource) :
    Option SrtpPolicy × Option SrtpPolicy :=
  match f.answerParams params source with
  | none => (none, none)
  | some (send, recv) =>
    (policyFor .ssrcAnyOutbound send.cipherSuite (masterKey send),
      policyFor .ssrcAnyInbound recv.cipherSuite (masterKey recv))

/-- The policies that a call asks for; an offer asks for none. -/
def Call.policies (f : SrtpFilter) : Call → Option (Option SrtpPolicy × Option SrtpPolicy)
  | .setOffer _ _ => none
  | .setProvisionalAnswer params source => some (f.answerPolicies params source)
  | .setAnswer params source => some (f.answerPolicies params source)
  | .setRtpParams sendCs sendKey recvCs recvKey =>
    some (policyFor .ssrcAnyOutbound sendCs sendKey, policyFor .ssrcAnyInbound recvCs recvKey)

/-- A filter, and what the last answer or call of `SetRtpParams` that succeeded asks for. -/
structure Observed where
  filter : SrtpFilter := {}
  asked : Option SrtpPolicy × Option SrtpPolicy := (none, none)
  deriving DecidableEq

def SrtpFilter.keepsAnswer (f : SrtpFilter) (params : List CryptoParams) (source : ContentSource) :
    Bool :=
  match f.answerParams params source with
  | none => true
  | some (send, recv) =>
    !f.expectAnswer source ||
    if f.sameParams send recv then send.cipherSuite ≠ []
    else !(f.isActive && (masterKey send).isSome && (masterKey recv).isSome) ||
      (cryptoPolicies send.cipherSuite).isSome

/-- **The calls that keep the keys.** -/
def SrtpFilter.keepsKeys (f : SrtpFilter) : Call → Bool
  | .setOffer _ source =>
    !(f.state = .stSentOffer && source = .csLocal) && !(f.state = .stReceivedOffer && source = .csRemote)
  | .setProvisionalAnswer params source => f.keepsAnswer params source
  | .setAnswer params source => f.keepsAnswer params source
  | .setRtpParams sendCs sendKey recvCs recvKey =>
    !f.isActive || f.state = .stActive ||
    ((policyFor .ssrcAnyOutbound sendCs sendKey).isSome &&
      (policyFor .ssrcAnyInbound recvCs recvKey).isSome)

namespace Observed

/-- A call, with the policies that the last success asked for. -/
def step (o : Observed) (c : Call) : Observed :=
  let r := o.filter.call srtpCreate c
  { filter := r.2, asked := if r.1 then (c.policies o.filter).getD o.asked else o.asked }

/-- **An active filter is keyed**, with what was asked for. -/
def ActiveKeyed (o : Observed) : Prop :=
  o.filter.isActive = true → o.asked.1.isSome = true ∧ o.asked.2.isSome = true ∧
    o.filter.sendPolicy = o.asked.1 ∧ o.filter.recvPolicy = o.asked.2

instance (o : Observed) : Decidable o.ActiveKeyed := by unfold ActiveKeyed; infer_instance

/-- Parameters that are applied are those of the sessions. -/
structure Settled (o : Observed) : Prop where
  applied : (o.filter.appliedSendParams = {} ∧ o.filter.appliedRecvParams = {}) ∨
    ∃ sendPolicy recvPolicy,
      policyFor .ssrcAnyOutbound o.filter.appliedSendParams.cipherSuite
        (masterKey o.filter.appliedSendParams) = some sendPolicy ∧
      policyFor .ssrcAnyInbound o.filter.appliedRecvParams.cipherSuite
        (masterKey o.filter.appliedRecvParams) = some recvPolicy ∧
      o.filter.sendPolicy = some sendPolicy ∧ o.filter.recvPolicy = some recvPolicy
  idle : o.filter.isActive = false → o.asked = (none, none)

end Observed

/-! ## Answers -/

theorem cryptoPolicies_nil : cryptoPolicies [] = none := by decide

variable {srtpCreate} (hcreate : ∀ policy, srtpCreate policy = true)

namespace Observed

variable {o : Observed}

@[simp] theorem isActive_answered (f : SrtpFilter) (source : ContentSource) (isFinal : Bool) :
    (f.answered source isFinal).isActive = true := by
  cases isFinal <;> cases source <;> rfl

@[simp] theorem isActive_unencrypted (f : SrtpFilter) (source : ContentSource) (isFinal : Bool) :
    (f.unencrypted source isFinal).isActive = false := by
  cases isFinal <;> cases source <;> rfl

@[simp] theorem policies_answered (f : SrtpFilter) (source : ContentSource) (isFinal : Bool) :
    (f.answered source isFinal).sendPolicy = f.sendPolicy ∧
      (f.answered source isFinal).recvPolicy = f.recvPolicy := by
  cases isFinal <;> exact ⟨rfl, rfl⟩

include hcreate in
theorem Settled.answer (ho : o.Settled) (hr : o.filter.Answered srtpCreate params source isFinal r) :
    Settled ⟨r.2, if r.1 then o.filter.answerPolicies params source else o.asked⟩ := by
  cases hr with
  | unexpected h => exact ho
  | empty h hp =>
    subst hp
    refine ⟨?_, fun _ => rfl⟩
    have happ := ho.applied
    cases isFinal <;> exact happ
  | unmatched h hp hn => exact ho
  | same h hn hs =>
    refine ⟨?_, fun h => by simp at h⟩
    have happ := ho.applied
    cases isFinal <;> exact happ
  | unparsed h hn hs hk => exact ho
  | refused h hn hs hk hsend hc => exact ⟨Or.inl ⟨rfl, rfl⟩, ho.idle⟩
  | @keyed send recv sendPolicy recvPolicy h hn hs hsend hrecv =>
    rw [created_eq hcreate] at hsend hrecv
    refine ⟨Or.inr ⟨sendPolicy, recvPolicy, ?_⟩, fun h => by simp at h⟩
    cases isFinal <;> exact ⟨hsend, hrecv, rfl, rfl⟩

theorem sameParams_eq {send recv : CryptoParams} (h : f.sameParams send recv = true) :
    (f.appliedSendParams.cipherSuite = send.cipherSuite ∧
      f.appliedSendParams.keyParams = send.keyParams) ∧
    f.appliedRecvParams.cipherSuite = recv.cipherSuite ∧
      f.appliedRecvParams.keyParams = recv.keyParams := by
  simpa [sameParams, and_assoc] using h

include hcreate in
theorem activeKeyed_answer (ho : o.Settled) (hk : o.ActiveKeyed)
    (hr : o.filter.Answered srtpCreate params source isFinal r) :
    ActiveKeyed ⟨r.2, if r.1 then o.filter.answerPolicies params source else o.asked⟩ ↔
      o.filter.keepsAnswer params source = true := by
  cases hr with
  | unexpected h =>
    have hkeeps : o.filter.keepsAnswer params source = true := by
      unfold keepsAnswer
      split <;> simp [h]
    exact iff_of_true hk hkeeps
  | empty h hp =>
    subst hp
    exact iff_of_true (fun hact => by simp at hact) rfl
  | unmatched h hp hn => exact iff_of_true hk (by simp [keepsAnswer, hn])
  | @same send recv h hn hs =>
    obtain ⟨⟨hscs, hskey⟩, hrcs, hrkey⟩ := sameParams_eq hs
    simp only [keepsAnswer, hn, h, hs, Bool.not_true, Bool.false_or, if_true, decide_eq_true_eq]
    have hpol := policies_answered o.filter source isFinal
    rcases ho.applied with ⟨happ, -⟩ | ⟨sendPolicy, recvPolicy, hsp, hrp, hsend, hrecv⟩
    · have hnil : send.cipherSuite = [] := by rw [← hscs, happ]
      refine iff_of_false (fun hact => ?_) (not_not_intro hnil)
      have hasked := (hact (isActive_answered _ _ _)).1
      simp [answerPolicies, hn, hnil, policyFor_eq_none cryptoPolicies_nil] at hasked
    · have hmask : masterKey send = masterKey o.filter.appliedSendParams := by
        rw [masterKey, masterKey, hskey]
      have hmark : masterKey recv = masterKey o.filter.appliedRecvParams := by
        rw [masterKey, masterKey, hrkey]
      rw [hscs, ← hmask] at hsp
      rw [hrcs, ← hmark] at hrp
      refine iff_of_true (fun _ => ?_) (fun hnil => ?_)
      · simp [answerPolicies, hn, hsp, hrp, hpol, hsend, hrecv]
      · rw [hnil, policyFor_eq_none cryptoPolicies_nil] at hsp
        cases hsp
  | @unparsed send recv h hn hs hkey =>
    refine iff_of_true hk ?_
    rcases hkey with hkey | hkey <;> simp [keepsAnswer, hn, hs, hkey]
  | @refused send recv sendPolicy h hn hs hkey hsend hc =>
    rw [created_eq hcreate] at hsend hc
    have hnone : (cryptoPolicies send.cipherSuite).isSome = false := by
      rcases hc with hc | hc
      · rw [← isSome_policyFor .ssrcAnyOutbound _ hkey.1, hsend, hc]
        rfl
      · rw [← answerParams_suite hn, ← isSome_policyFor .ssrcAnyInbound _ hkey.2, hc]
        rfl
    cases hact : o.filter.isActive with
    | false => exact iff_of_true (fun h => by simp [hact] at h) (by simp [keepsAnswer, hn, hs, hact])
    | true =>
      refine iff_of_false (fun hkeyed => ?_) (by simp [keepsAnswer, hn, h, hs, hact, hkey, hnone])
      obtain ⟨-, hsome, -, hrecv⟩ := hkeyed hact
      rw [← hrecv] at hsome
      cases hsome
  | @keyed send recv sendPolicy recvPolicy h hn hs hsend hrecv =>
    rw [created_eq hcreate] at hsend hrecv
    have hpol := policies_answered { o.filter.rekeyed (some sendPolicy) (some recvPolicy) with
      appliedSendParams := send, appliedRecvParams := recv } source isFinal
    refine iff_of_true (fun _ => ?_) ?_
    · simp only [if_true, hpol, answerPolicies, hn, hsend, hrecv]
      exact ⟨rfl, rfl, rfl, rfl⟩
    · have hsome : (cryptoPolicies send.cipherSuite).isSome = true := by
        cases hcs : cryptoPolicies send.cipherSuite with
        | none => rw [policyFor_eq_none hcs] at hsend; cases hsend
        | some policies => rfl
      simp [keepsAnswer, hn, hs, hsome]

/-! ## Runs -/

theorem isActive_storeParams (f : SrtpFilter) (params : List CryptoParams) (source : ContentSource) :
    (f.storeParams params source).isActive = decide (f.state ≠ .stInit) := by
  obtain ⟨state, _⟩ := f
  cases state <;> cases source <;> rfl

theorem storeParams_eq (f : SrtpFilter) (params : List CryptoParams) (source : ContentSource) :
    ∃ state, f.storeParams params source = { f with offerParams := params, state := state } := by
  by_cases hs : f.state = .stInit
  · exact ⟨_, by rw [storeParams, if_pos hs]⟩
  · exact ⟨_, by rw [storeParams, if_neg hs]⟩

variable (srtpCreate) in
theorem step_setOffer (o : Observed) (params : List CryptoParams) (source : ContentSource) :
    o.step srtpCreate (.setOffer params source) = if o.filter.expectOffer source
      then ⟨o.filter.storeParams params source, o.asked⟩ else o := by
  cases h : o.filter.expectOffer source <;>
    simp [step, SrtpFilter.call, SrtpFilter.setOffer, Call.policies, h]

variable (srtpCreate) in
theorem step_setRtpParams (o : Observed) (sendCs recvCs : List Uint8) (sendKey recvKey : Option (List Uint8))
    (hr : o.filter.setRtpParams srtpCreate sendCs sendKey recvCs recvKey = r) :
    o.step srtpCreate (.setRtpParams sendCs sendKey recvCs recvKey) =
      ⟨r.2, if r.1 then (policyFor .ssrcAnyOutbound sendCs sendKey,
        policyFor .ssrcAnyInbound recvCs recvKey) else o.asked⟩ := by
  simp [step, SrtpFilter.call, Call.policies, hr]

include hcreate in
theorem settled_step (ho : o.Settled) (c : Call) : (o.step srtpCreate c).Settled := by
  cases c with
  | setOffer params source =>
    rw [step_setOffer]
    split_ifs with h
    · refine ⟨?_, fun hact => ?_⟩
      · obtain ⟨state, heq⟩ := storeParams_eq o.filter params source
        rw [heq]
        exact ho.applied
      · have hs : o.filter.state = .stInit := by simpa [isActive_storeParams] using hact
        exact ho.idle (by rw [isActive, hs]; rfl)
    · exact ho
  | setProvisionalAnswer params source =>
    exact ho.answer hcreate (o.filter.doSetAnswer_answered srtpCreate params source false)
  | setAnswer params source =>
    exact ho.answer hcreate (o.filter.doSetAnswer_answered srtpCreate params source true)
  | setRtpParams sendCs sendKey recvCs recvKey =>
    rcases o.filter.setRtpParams_cases srtpCreate sendCs recvCs sendKey recvKey with
      ⟨-, hr⟩ | ⟨-, -, hr⟩ | ⟨-, sendPolicy, recvPolicy, -, -, hr⟩ <;>
      rw [step_setRtpParams _ _ _ _ _ _ hr]
    · exact ho
    · exact ⟨Or.inl ⟨rfl, rfl⟩, ho.idle⟩
    · exact ⟨Or.inl ⟨rfl, rfl⟩, fun hact => by cases hact⟩

theorem keepsKeys_setOffer (h : f.expectOffer source = true) (params : List CryptoParams) :
    f.keepsKeys (.setOffer params source) = (f.isActive || decide (f.state = .stInit)) := by
  obtain ⟨state, _⟩ := f
  cases state <;> cases source <;> first | rfl | cases h

include hcreate in
/-- **A call keeps the keys exactly if `keepsKeys` says so**. -/
theorem activeKeyed_step (ho : o.Settled) (hk : o.ActiveKeyed) (c : Call) :
    (o.step srtpCreate c).ActiveKeyed ↔ o.filter.keepsKeys c = true := by
  cases c with
  | setOffer params source =>
    rw [step_setOffer]
    split_ifs with h
    · rw [keepsKeys_setOffer h, Bool.or_eq_true, decide_eq_true_eq]
      have hpol : (o.filter.storeParams params source).sendPolicy = o.filter.sendPolicy ∧
          (o.filter.storeParams params source).recvPolicy = o.filter.recvPolicy := by
        obtain ⟨state, heq⟩ := storeParams_eq o.filter params source
        rw [heq]
        exact ⟨rfl, rfl⟩
      cases hact : o.filter.isActive with
      | true => exact iff_of_true (fun _ => by simpa [hpol] using hk hact) (Or.inl rfl)
      | false =>
        have hasked := ho.idle hact
        simp [ActiveKeyed, isActive_storeParams, hasked]
    · refine iff_of_true hk ?_
      rw [Bool.not_eq_true] at h
      simp only [expectOffer, Bool.or_eq_false_iff] at h
      simp [keepsKeys, h]
  | setProvisionalAnswer params source =>
    exact activeKeyed_answer hcreate ho hk
      (o.filter.doSetAnswer_answered srtpCreate params source false)
  | setAnswer params source =>
    exact activeKeyed_answer hcreate ho hk
      (o.filter.doSetAnswer_answered srtpCreate params source true)
  | setRtpParams sendCs sendKey recvCs recvKey =>
    rcases o.filter.setRtpParams_cases srtpCreate sendCs recvCs sendKey recvKey with
      ⟨hs, hr⟩ | ⟨hs, hnone, hr⟩ | ⟨hs, sendPolicy, recvPolicy, hsend, hrecv, hr⟩ <;>
      rw [step_setRtpParams _ _ _ _ _ _ hr]
    · exact iff_of_true hk (by simp [keepsKeys, hs])
    · rw [created_eq hcreate, created_eq hcreate] at hnone
      rw [created_eq hcreate]
      cases hact : o.filter.isActive with
      | false => exact iff_of_true (fun h => by simp [hact] at h) (by simp [keepsKeys, hact])
      | true =>
        refine iff_of_false (fun hkeyed => ?_) ?_
        · obtain ⟨-, hsome, -, hrecv⟩ := hkeyed hact
          rw [← hrecv] at hsome
          cases hsome
        · rcases hnone with hnone | hnone <;> simp [keepsKeys, hact, hs, hnone]
    · rw [created_eq hcreate] at hsend hrecv
      refine iff_of_true (fun _ => ?_) (by simp [keepsKeys, hsend, hrecv])
      rw [hsend, hrecv]
      exact ⟨rfl, rfl, rfl, rfl⟩

include hcreate in
/-- **Active means keyed** throughout a run if and only if every call keeps the keys. -/
theorem activeKeyed_iff (calls : List Call) :
    (∀ pre, pre <+: calls → (run (step srtpCreate) {} pre).ActiveKeyed) ↔
      Guarded (step srtpCreate) (fun o c => o.filter.keepsKeys c = true) {} calls := by
  have hinit : Settled {} := ⟨Or.inl ⟨rfl, rfl⟩, fun _ => rfl⟩
  have hsettled : ∀ pre, (run (step srtpCreate) {} pre).Settled := by
    intro pre
    have hstep : ∀ (o : Observed) c, o.Settled → True → (o.step srtpCreate c).Settled :=
      fun o c ho _ => settled_step hcreate ho c
    exact run_invariant hstep hinit (guarded_true _ pre)
  have hstep : ∀ (o : Observed) c, o.Settled ∧ o.ActiveKeyed →
      ((o.step srtpCreate c).Settled ∧ (o.step srtpCreate c).ActiveKeyed ↔
        o.filter.keepsKeys c = true) :=
    fun o c ho => (and_iff_right (settled_step hcreate ho.1 c)).trans
      (activeKeyed_step hcreate ho.1 ho.2 c)
  have hiff := guarded_iff_invariant hstep {} calls
  have hkeyed : ActiveKeyed {} := fun hact => by cases hact
  constructor
  · exact fun h => (hiff.mp fun pre hpre => ⟨hsettled pre, h pre hpre⟩).2
  · exact fun h pre hpre => (hiff.mpr ⟨⟨hinit, hkeyed⟩, h⟩ pre hpre).2

/-- DTLS keys, then a new offer: the old keys stay in use. -/
theorem activeKeyed_iff_dtls :
    let key := some (List.replicate 30 0#8)
    let calls : List Call := [.setRtpParams csAesCm128HmacSha1_80 key csAesCm128HmacSha1_80 key,
      .setOffer [] .csLocal]
    ∀ pre, pre <+: calls → (run (step fun _ => true) {} pre).ActiveKeyed :=
  (activeKeyed_iff (fun _ => rfl) _).mpr (by decide)

/-- A second offer before the answer makes the filter active without sessions. -/
theorem active_without_sessions :
    let o := run (step fun _ => true) {} [.setOffer [] .csLocal, .setOffer [] .csLocal]
    o.filter.isActive = true ∧ o.filter.sendSession = none ∧ o.filter.recvSession = none ∧
      ¬ o.ActiveKeyed := by decide

end Observed

/-! ## Calls that fail -/

section Failed

variable (srtpCreate)

/-- The call is part of offer and answer. -/
def Call.isNegotiation : Call → Bool
  | .setRtpParams _ _ _ _ => false
  | _ => true

/-- The filter after the calls. -/
def SrtpFilter.after (calls : List Call) : SrtpFilter :=
  run (fun (f : SrtpFilter) c => (f.call srtpCreate c).2) {} calls

/-- State, offer, applied parameters and keys are the same. -/
structure SrtpFilter.Unchanged (f f' : SrtpFilter) : Prop where
  state : f'.state = f.state
  offerParams : f'.offerParams = f.offerParams
  appliedSend : f'.appliedSendParams = f.appliedSendParams
  appliedRecv : f'.appliedRecvParams = f.appliedRecvParams
  sendPolicy : f'.sendPolicy = f.sendPolicy
  recvPolicy : f'.recvPolicy = f.recvPolicy

theorem SrtpFilter.Unchanged.refl (f : SrtpFilter) : f.Unchanged f := ⟨rfl, rfl, rfl, rfl, rfl, rfl⟩

/-- The answer gets as far as new sessions. -/
def SrtpFilter.replacesSessions (f : SrtpFilter) (params : List CryptoParams) (source : ContentSource) :
    Bool :=
  match f.answerParams params source with
  | none => false
  | some (send, recv) =>
    f.expectAnswer source && !f.sameParams send recv && (masterKey send).isSome &&
      (masterKey recv).isSome

/-- In force is nothing but what such an answer leaves when it fails. -/
def SrtpFilter.nothingToLose (f : SrtpFilter) (params : List CryptoParams) (source : ContentSource) :
    Bool :=
  match f.answerParams params source with
  | none => true
  | some (send, _) =>
    f.appliedSendParams = {} && f.appliedRecvParams = {} && f.recvPolicy = none &&
      f.sendPolicy = created srtpCreate .ssrcAnyOutbound send.cipherSuite (masterKey send)

/-- Whether a failure of the call leaves everything as it was. -/
def SrtpFilter.failsSafely (f : SrtpFilter) : Call → Bool
  | .setProvisionalAnswer params source =>
    !f.replacesSessions params source || f.nothingToLose srtpCreate params source
  | .setAnswer params source =>
    !f.replacesSessions params source || f.nothingToLose srtpCreate params source
  | _ => true

variable {srtpCreate}

theorem failed_answer (hr : f.Answered srtpCreate params source isFinal r) (hfail : r.1 = false) :
    f.Unchanged r.2 ↔
      (!f.replacesSessions params source || f.nothingToLose srtpCreate params source) = true := by
  cases hr with
  | unexpected h =>
    refine iff_of_true (.refl f) ?_
    unfold replacesSessions nothingToLose
    split <;> simp [h]
  | unmatched h hp hn => exact iff_of_true (.refl f) (by simp [replacesSessions, hn])
  | unparsed h hn hs hk =>
    refine iff_of_true (.refl f) ?_
    rcases hk with hk | hk <;> simp [replacesSessions, hn, hk]
  | @refused send recv sendPolicy h hn hs hk hsend hc =>
    simp only [replacesSessions, nothingToLose, hn, h, hs, hk, hsend, Bool.not_false, Bool.and_self,
      Bool.not_true, Bool.false_or, Bool.and_eq_true, decide_eq_true_eq]
    constructor
    · exact fun hu => ⟨⟨⟨hu.appliedSend.symm, hu.appliedRecv.symm⟩, hu.recvPolicy.symm⟩,
        hu.sendPolicy.symm⟩
    · rintro ⟨⟨⟨happS, happR⟩, hrecv⟩, hsendp⟩
      exact ⟨rfl, rfl, happS.symm, happR.symm, hsendp.symm, hrecv.symm⟩
  | _ => cases hfail

/-- **When a call that fails changes nothing**: an answer must not get as far as new sessions,
unless there is nothing to lose. -/
theorem failed_unchanged_iff (calls : List Call) (c : Call) (hc : c.isNegotiation = true)
    (hfail : ((after srtpCreate calls).call srtpCreate c).1 = false) :
    (after srtpCreate calls).Unchanged ((after srtpCreate calls).call srtpCreate c).2 ↔
      (after srtpCreate calls).failsSafely srtpCreate c = true := by
  generalize after srtpCreate calls = f at hfail ⊢
  cases c with
  | setOffer params source =>
    refine iff_of_true ?_ rfl
    change (f.setOffer params source).1 = false at hfail
    change f.Unchanged (f.setOffer params source).2
    unfold SrtpFilter.setOffer at hfail ⊢
    split_ifs at hfail ⊢
    exact .refl f
  | setProvisionalAnswer params source =>
    exact failed_answer (f.doSetAnswer_answered srtpCreate params source false) hfail
  | setAnswer params source =>
    exact failed_answer (f.doSetAnswer_answered srtpCreate params source true) hfail
  | setRtpParams => cases hc

/-- Parameters with a key of 30 zero bytes. -/
def zeroKey (tag : ℤ) (cs : List Uint8) : CryptoParams :=
  ⟨tag, cs, text "inline:" ++ List.replicate 40 0x41#8, []⟩

def exampleReoffered : List Call :=
  let params := zeroKey 1 csAesCm128HmacSha1_80
  [.setOffer [params] .csLocal, .setAnswer [params] .csRemote, .setOffer [params] .csLocal]

theorem failed_unchanged_iff_unmatched :
    let f := after (fun _ => true) exampleReoffered
    f.sendPolicy.isSome = true ∧ f.recvPolicy.isSome = true ∧
      f.Unchanged (f.call (fun _ => true) (.setAnswer [zeroKey 2 csAesCm128HmacSha1_80] .csRemote)).2 :=
  ⟨by decide, by decide, (failed_unchanged_iff exampleReoffered
    (.setAnswer [zeroKey 2 csAesCm128HmacSha1_80] .csRemote) rfl (by decide)).mpr (by decide)⟩

/-- A failing answer in an encrypted call leaves both sessions without keys. -/
theorem failed_answer_drops_keys :
    let params := zeroKey 1 csAesCm128HmacSha1_80
    let unsupported := zeroKey 1 (text "F8_128_HMAC_SHA1_80")
    let f := after (fun _ => true) [.setOffer [params] .csLocal, .setAnswer [params] .csRemote,
      .setOffer [unsupported] .csLocal]
    let r := f.call (fun _ => true) (.setAnswer [unsupported] .csRemote)
    f.sendPolicy.isSome = true ∧ f.recvPolicy.isSome = true ∧ r.1 = false ∧
      r.2.sendPolicy = none ∧ r.2.recvPolicy = none ∧ ¬ f.Unchanged r.2 := by
  refine ⟨by decide, by decide, by decide, by decide,
    by decide, fun h => ?_⟩
  exact absurd h.sendPolicy (by decide)

end Failed

end Libjingle.Srtp
