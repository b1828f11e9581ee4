import Libjingle.Negotiation.Transport

/-!
# Transport descriptions that are refused

Nothing is rolled back when a description is refused.

Main result: **`failed_descriptions`**.
-/

variable {localRole action : ContentAction}

namespace Libjingle.Negotiation

open P2P TransportChannelImpl

/-! ## Settings -/

/-- The ICE credentials, the protocol type, the ICE mode and the SSL role of a channel. -/
structure Settings where
  iceUfrag : List Uint8
  icePwd : List Uint8
  remoteIceUfrag : List Uint8
  remoteIcePwd : List Uint8
  protocolType : IceProtocolType
  remoteIceMode : IceMode
  sslRole : Option SSLRole := none
  deriving DecidableEq

namespace Settings

def withLocal (desc : TransportDescription) (s : Settings) : Settings :=
  { s with
    protocolType :=
      if s.protocolType = .hybrid then transportProtocolFromDescription desc else s.protocolType
    iceUfrag := desc.iceUfrag
    icePwd := desc.icePwd }

def withRemote (desc : TransportDescription) (s : Settings) : Settings :=
  { s with remoteIceUfrag := desc.iceUfrag, remoteIcePwd := desc.icePwd }

def withSslRole (role : SSLRole) (s : Settings) : Settings := { s with sslRole := some role }

def withNegotiated (protocol : IceProtocolType) (mode : IceMode) (s : Settings) : Settings :=
  { s with protocolType := protocol, remoteIceMode := mode }

end Settings

/-- A channel's settings, and what its functions do to them. -/
class LawfulChannel (χ : Type) [TransportChannelImpl χ] where
  settings : χ → Option Settings
  getIceProtocolType_eq : ∀ ch : χ, getIceProtocolType ch = (settings ch).map (·.protocolType)
  settings_setIceProtocolType : ∀ (ch : χ) (type : IceProtocolType), settings (setIceProtocolType ch type) =
    (settings ch).map fun s => { s with protocolType := type }
  settings_setIceCredentials : ∀ (ch : χ) (ufrag pwd : List Uint8), settings (setIceCredentials ch ufrag pwd) =
    (settings ch).map fun s => { s with iceUfrag := ufrag, icePwd := pwd }
  settings_setRemoteIceCredentials : ∀ (ch : χ) (ufrag pwd : List Uint8),
    settings (setRemoteIceCredentials ch ufrag pwd) =
      (settings ch).map fun s => { s with remoteIceUfrag := ufrag, remoteIcePwd := pwd }
  settings_setRemoteIceMode : ∀ (ch : χ) (mode : IceMode), settings (setRemoteIceMode ch mode) =
    (settings ch).map fun s => { s with remoteIceMode := mode }
  settings_setIceRole : ∀ (ch : χ) (role : IceRole), settings (setIceRole ch role) = settings ch

open LawfulChannel

instance : LawfulChannel P2PTransportChannel where
  settings ch := some
    { iceUfrag := ch.iceUfrag
      icePwd := ch.icePwd
      remoteIceUfrag := ch.remoteIceUfrag
      remoteIcePwd := ch.remoteIcePwd
      protocolType := ch.protocolType
      remoteIceMode := ch.remoteIceMode }
  getIceProtocolType_eq _ := rfl
  settings_setIceProtocolType _ _ := rfl
  settings_setIceCredentials ch ufrag pwd := by
    show some _ = some _
    simp only [setIceCredentials, P2PTransportChannel.setIceCredentials]
    split <;> rfl
  settings_setRemoteIceCredentials ch ufrag pwd := by
    show some _ = some _
    simp only [setRemoteIceCredentials, P2PTransportChannel.setRemoteIceCredentials]
    split <;> rfl
  settings_setRemoteIceMode _ _ := rfl
  settings_setIceRole ch role := by
    show some _ = some _
    simp only [setIceRole, P2PTransportChannel.setIceRole]
    split <;> rfl

instance : LawfulChannel RawTransportChannel where
  settings _ := none
  getIceProtocolType_eq _ := rfl
  settings_setIceProtocolType _ _ := rfl
  settings_setIceCredentials _ _ _ := rfl
  settings_setRemoteIceCredentials _ _ _ := rfl
  settings_setRemoteIceMode _ _ := rfl
  settings_setIceRole _ _ := rfl

variable {χ τ : Type} [TransportChannelImpl χ] [LawfulChannel χ]

instance : LawfulChannel (DtlsTransportChannelWrapper χ) where
  settings ch := (settings ch.channel).map (·.withSslRole ch.sslRole)
  getIceProtocolType_eq ch := by
    show getIceProtocolType ch.channel = _
    rw [getIceProtocolType_eq, Option.map_map]
    rfl
  settings_setIceProtocolType ch type := by
    show (settings (setIceProtocolType ch.channel type)).map _ = _
    rw [settings_setIceProtocolType, Option.map_map, Option.map_map]
    rfl
  settings_setIceCredentials ch ufrag pwd := by
    show (settings (setIceCredentials ch.channel ufrag pwd)).map _ = _
    rw [settings_setIceCredentials, Option.map_map, Option.map_map]
    rfl
  settings_setRemoteIceCredentials ch ufrag pwd := by
    show (settings (setRemoteIceCredentials ch.channel ufrag pwd)).map _ = _
    rw [settings_setRemoteIceCredentials, Option.map_map, Option.map_map]
    rfl
  settings_setRemoteIceMode ch mode := by
    show (settings (setRemoteIceMode ch.channel mode)).map _ = _
    rw [settings_setRemoteIceMode, Option.map_map, Option.map_map]
    rfl
  settings_setIceRole ch role := by
    show (settings (setIceRole ch.channel role)).map _ = _
    rw [settings_setIceRole]
    rfl

def view (channels : List (ℕ × χ)) : List (ℕ × Option Settings) :=
  channels.map fun e => (e.1, settings e.2)

/-! ## Functions of the base class -/

theorem settings_applyLocal {t : Transport χ} {desc : TransportDescription}
    (h : t.localDescription = some desc) (ch : χ) :
    settings (t.applyLocalTransportDescription ch) = (settings ch).map (·.withLocal desc) := by
  unfold Transport.applyLocalTransportDescription
  rw [h]
  dsimp only
  rw [settings_setIceCredentials, getIceProtocolType_eq]
  cases hs : settings ch with
  | none => split <;> simp [settings_setIceProtocolType, hs]
  | some s =>
    by_cases htype : s.protocolType = .hybrid
    · simp [settings_setIceProtocolType, hs, htype, Settings.withLocal]
    · simp [hs, htype, Settings.withLocal]

theorem settings_applyRemote {t : Transport χ} {desc : TransportDescription}
    (h : t.remoteDescription = some desc) (ch : χ) :
    settings (t.applyRemoteTransportDescription ch) = (settings ch).map (·.withRemote desc) := by
  unfold Transport.applyRemoteTransportDescription
  rw [h]
  exact settings_setRemoteIceCredentials ch _ _

theorem settings_applyNegotiated (t : Transport χ) (ch : χ) :
    settings (t.applyNegotiatedTransportDescription ch) =
      (settings ch).map (·.withNegotiated t.protocol t.remoteIceMode) := by
  unfold Transport.applyNegotiatedTransportDescription
  rw [settings_setRemoteIceMode, settings_setIceProtocolType, Option.map_map]
  rfl

theorem view_setIceRole (t : Transport χ) (role : IceRole) : view (t.setIceRole role).channels = view t.channels := by
  unfold view Transport.setIceRole
  rw [List.map_map]
  refine List.map_congr_left fun e _ => ?_
  exact congrArg (Prod.mk e.1) (settings_setIceRole e.2 _)

theorem adopt_eq (t : Transport χ) (answerProto : IceProtocolType) (remoteDesc : TransportDescription) :
    (t.adopt answerProto remoteDesc).localDescription = t.localDescription ∧
      (t.adopt answerProto remoteDesc).remoteDescription = t.remoteDescription ∧
      view (t.adopt answerProto remoteDesc).channels = view t.channels := by
  unfold Transport.adopt
  dsimp only
  split
  · exact ⟨rfl, rfl, view_setIceRole _ _⟩
  · exact ⟨rfl, rfl, rfl⟩

theorem outcome_eq {t t' : Transport χ} {localDesc remoteDesc : TransportDescription}
    (h : t.outcome localRole localDesc remoteDesc = .ok t') :
    t'.localDescription = t.localDescription ∧ t'.remoteDescription = t.remoteDescription ∧
      view t'.channels = view t.channels := by
  unfold Transport.outcome at h
  dsimp only at h
  split at h
  all_goals
    split at h
    · cases h
    · obtain rfl := Except.ok.inj h
      exact adopt_eq t _ _

/-! ## Channels that the loops leave half way -/

def PushedPartly (before after : List (ℕ × Option Settings)) : Prop :=
  ∃ protocol mode role pre post, ∃ component s s',
    before = pre ++ (component, s) :: post ∧
      after = (pre.map fun e =>
          (e.1, e.2.map fun s => (s.withSslRole role).withNegotiated protocol mode)) ++
        (component, s') :: post ∧
      (s' = s ∨ s' = s.map (·.withSslRole role))

theorem pushedPartly_of_pushDown {apply : χ → Option (List Uint8) × χ} (protocol : IceProtocolType)
    (mode : IceMode) (role : SSLRole)
    (htakes : ∀ ch ch', apply ch = (none, ch') →
      settings ch' = (settings ch).map fun s => (s.withSslRole role).withNegotiated protocol mode)
    (hrefuses : ∀ ch ch' error, apply ch = (some error, ch') →
      settings ch' = settings ch ∨ settings ch' = (settings ch).map (·.withSslRole role))
    {channels : List (ℕ × χ)} (h : (pushDown apply channels).1.isSome = true) :
    PushedPartly (view channels) (view (pushDown apply channels).2) := by
  suffices hsplit : ∃ pre post, ∃ component s s', view channels = pre ++ (component, s) :: post ∧
      view (pushDown apply channels).2 = (pre.map fun e =>
          (e.1, e.2.map fun s => (s.withSslRole role).withNegotiated protocol mode)) ++
        (component, s') :: post ∧
      (s' = s ∨ s' = s.map (·.withSslRole role)) from ⟨protocol, mode, role, hsplit⟩
  induction channels with
  | nil => cases h
  | cons e rest ih =>
    obtain ⟨component, ch⟩ := e
    unfold pushDown at h ⊢
    cases hpushed : apply ch with
    | mk error ch' =>
      rw [hpushed] at h
      cases error with
      | some error =>
        exact ⟨[], view rest, component, settings ch, settings ch', rfl, rfl, hrefuses ch ch' error hpushed⟩
      | none =>
        obtain ⟨pre, post, component', s, s', hbefore, hafter, hs⟩ := ih h
        refine ⟨(component, settings ch) :: pre, post, component', s, s', ?_, ?_, hs⟩
        · exact congrArg (List.cons (component, settings ch)) hbefore
        · have htaken := htakes ch ch' hpushed
          exact congrArg₂ List.cons (congrArg (Prod.mk component) htaken) hafter

omit [TransportChannelImpl χ] [LawfulChannel χ] in
theorem pushDown_none {apply : χ → Option (List Uint8) × χ} (h : ∀ ch, (apply ch).1 = none)
    (channels : List (ℕ × χ)) : (pushDown apply channels).1 = none := by
  induction channels with
  | nil => rfl
  | cons e rest ih =>
    obtain ⟨component, ch⟩ := e
    unfold pushDown
    cases hpushed : apply ch with
    | mk error ch' =>
      have hnone := h ch
      rw [hpushed] at hnone
      subst hnone
      exact ih

/-- A negotiation that fails leaves the descriptions. -/
theorem negotiate_failed {t : Transport χ} {apply : Transport χ → χ → Option (List Uint8) × χ} (h : (t.negotiate apply localRole).1.isSome = true) :
    (t.negotiate apply localRole).2.localDescription = t.localDescription ∧
      (t.negotiate apply localRole).2.remoteDescription = t.remoteDescription ∧
      ((t.negotiate apply localRole).2.channels = t.channels ∨
        ∃ t' : Transport χ, view t'.channels = view t.channels ∧
          (pushDown (apply t') t'.channels).1.isSome = true ∧
          (t.negotiate apply localRole).2.channels = (pushDown (apply t') t'.channels).2) := by
  unfold Transport.negotiate at h ⊢
  cases hlocal : t.localDescription with
  | none =>
    rw [hlocal] at h
    cases h
  | some localDesc =>
    cases hremote : t.remoteDescription with
    | none =>
      rw [hlocal, hremote] at h
      cases h
    | some remoteDesc =>
      rw [hlocal, hremote] at h
      dsimp only at h ⊢
      cases houtcome : t.outcome localRole localDesc remoteDesc with
      | error error => exact ⟨hlocal, hremote, .inl rfl⟩
      | ok t' =>
        rw [houtcome] at h
        obtain ⟨hlocal', hremote', hview⟩ := outcome_eq houtcome
        exact ⟨hlocal'.trans hlocal, hremote'.trans hremote, .inr ⟨t', hview, h, rfl⟩⟩

/-! ## The base class -/

/-- The settings after a local description. -/
def appliedLocal (desc : TransportDescription) (accepts : χ → Bool) (channels : List (ℕ × χ)) :
    List (ℕ × Option Settings) :=
  channels.map fun e =>
    (e.1, if accepts e.2 then (settings e.2).map (·.withLocal desc) else settings e.2)

def appliedRemote (desc : TransportDescription) (channels : List (ℕ × χ)) : List (ℕ × Option Settings) :=
  channels.map fun e => (e.1, (settings e.2).map (·.withRemote desc))

theorem view_applyLocal {t : Transport χ} {desc : TransportDescription}
    (h : t.localDescription = some desc) (channels : List (ℕ × χ)) :
    view (channels.map fun e => (e.1, t.applyLocalTransportDescription e.2)) =
      appliedLocal desc (fun _ => true) channels := by
  unfold view appliedLocal
  rw [List.map_map]
  refine List.map_congr_left fun e _ => ?_
  exact congrArg (Prod.mk e.1) ((settings_applyLocal h e.2).trans (if_pos rfl).symm)

theorem view_applyRemote {t : Transport χ} {desc : TransportDescription}
    (h : t.remoteDescription = some desc) (channels : List (ℕ × χ)) :
    view (channels.map fun e => (e.1, t.applyRemoteTransportDescription e.2)) =
      appliedRemote desc channels := by
  unfold view appliedRemote
  rw [List.map_map]
  refine List.map_congr_left fun e _ => ?_
  exact congrArg (Prod.mk e.1) (settings_applyRemote h e.2)

omit [LawfulChannel χ] in
@[simp] theorem base_baseTransport (t : Transport χ) : (baseTransport χ).base t = t := rfl

omit [LawfulChannel χ] in
@[simp] theorem withBase_baseTransport (t t' : Transport χ) : (baseTransport χ).withBase t t' = t' := rfl

omit [LawfulChannel χ] in
theorem applyLocals_base (t : Transport χ) (channels : List (ℕ × χ)) :
    applyLocals (baseTransport χ) t channels =
      (none, t, channels.map fun e => (e.1, t.applyLocalTransportDescription e.2)) := by
  induction channels with
  | nil => rfl
  | cons e rest ih =>
    obtain ⟨component, ch⟩ := e
    have happlied : (baseTransport χ).applyLocal t ch =
        (none, t, t.applyLocalTransportDescription ch) := rfl
    unfold applyLocals
    rw [happlied]
    dsimp only
    rw [ih]
    rfl

omit [LawfulChannel χ] in
theorem setLocal_base (t : Transport χ) (desc : TransportDescription) (action : ContentAction) :
    setLocalTransportDescription (baseTransport χ) t desc action =
      let t' := { t with localDescription := some desc }
      let t' := { t' with channels := t.channels.map fun e => (e.1, t'.applyLocalTransportDescription e.2) }
      if action = .pranswer ∨ action = .answer then (baseTransport χ).negotiate t' action
      else (none, t') := by
  unfold setLocalTransportDescription
  simp only [base_baseTransport, withBase_baseTransport, applyLocals_base]
  exact if_neg Bool.false_ne_true

omit [TransportChannelImpl χ] [LawfulChannel χ] in
theorem setRemote_eq {v : Virtual τ χ} (hv : ∀ t ch, (v.applyRemote t ch).1 = none) (t : τ)
    (desc : TransportDescription) (action : ContentAction) :
    setRemoteTransportDescription v t desc action =
      let t' := v.withBase t { v.base t with remoteDescription := some desc }
      let t' := v.withBase t' { v.base t' with
        channels := (v.base t').channels.map fun e => (e.1, (v.applyRemote t' e.2).2) }
      if action = .pranswer ∨ action = .answer then v.negotiate t' .offer else (none, t') := by
  have hnone (t' : τ) (channels : List (ℕ × χ)) :
      (channels.map fun e => (e.1, v.applyRemote t' e.2)).filterMap (fun e => e.2.1) = [] := by
    rw [List.filterMap_map]
    exact List.filterMap_eq_nil_iff.mpr fun e _ => hv t' e.2
  unfold setRemoteTransportDescription
  dsimp only
  rw [hnone, List.map_map]
  rfl

theorem negotiate_base_failed {t : Transport χ} (h : ((baseTransport χ).negotiate t localRole).1.isSome = true) :
    ((baseTransport χ).negotiate t localRole).2.localDescription = t.localDescription ∧
      ((baseTransport χ).negotiate t localRole).2.remoteDescription = t.remoteDescription ∧
      ((baseTransport χ).negotiate t localRole).2.channels = t.channels := by
  obtain ⟨hlocal, hremote, hchannels⟩ := negotiate_failed h
  refine ⟨hlocal, hremote, ?_⟩
  rcases hchannels with hsame | ⟨t', -, hfails, -⟩
  · exact hsame
  · rw [pushDown_none fun _ => rfl] at hfails
    cases hfails

theorem setLocal_base_failed {t : Transport χ} {desc : TransportDescription}
    (h : (setLocalTransportDescription (baseTransport χ) t desc action).1.isSome = true) :
    (setLocalTransportDescription (baseTransport χ) t desc action).2.localDescription = some desc ∧
      (setLocalTransportDescription (baseTransport χ) t desc action).2.remoteDescription =
        t.remoteDescription ∧
      view (setLocalTransportDescription (baseTransport χ) t desc action).2.channels =
        appliedLocal desc (fun _ => true) t.channels := by
  rw [setLocal_base] at h ⊢
  dsimp only at h ⊢
  split at h
  · rename_i hanswer
    rw [if_pos hanswer]
    obtain ⟨hlocal, hremote, hchannels⟩ := negotiate_base_failed h
    refine ⟨hlocal, hremote, ?_⟩
    rw [hchannels]
    exact @view_applyLocal χ _ _ { t with localDescription := some desc } desc rfl t.channels
  · cases h

theorem setRemote_base_failed {t : Transport χ} {desc : TransportDescription}
    (h : (setRemoteTransportDescription (baseTransport χ) t desc action).1.isSome = true) :
    (setRemoteTransportDescription (baseTransport χ) t desc action).2.remoteDescription = some desc ∧
      (setRemoteTransportDescription (baseTransport χ) t desc action).2.localDescription =
        t.localDescription ∧
      view (setRemoteTransportDescription (baseTransport χ) t desc action).2.channels =
        appliedRemote desc t.channels := by
  rw [setRemote_eq fun _ _ => rfl] at h ⊢
  dsimp only at h ⊢
  split at h
  · rename_i hanswer
    rw [if_pos hanswer]
    obtain ⟨hlocal, hremote, hchannels⟩ := negotiate_base_failed h
    refine ⟨hremote, hlocal, ?_⟩
    rw [hchannels]
    exact @view_applyRemote χ _ _ { t with remoteDescription := some desc } desc rfl t.channels
  · cases h

/-! ## `DtlsTransport` -/

namespace DtlsTransport

variable (ssl : Ssl)

def accepts (t : DtlsTransport χ) (desc : TransportDescription) (ch : DtlsTransportChannelWrapper χ) : Bool :=
  match desc.identityFingerprint with
  | some fp =>
    t.identity.any fun identity =>
      ssl.createFingerprint fp.algorithm identity = fp &&
        (ch.dtlsState = .none || ch.localIdentity = some identity)
  | none => ch.dtlsState = .none || ch.localIdentity = none

variable {ssl}

theorem setLocalIdentity_eq (ch : DtlsTransportChannelWrapper χ) (identity : Option ℕ) :
    (ch.setLocalIdentity identity).1 = (ch.dtlsState = .none || ch.localIdentity = identity) ∧
      settings (ch.setLocalIdentity identity).2 = settings ch := by
  unfold DtlsTransportChannelWrapper.setLocalIdentity
  split
  · rename_i h
    simp [h, beq_eq_decide, eq_comm]
  · rename_i h
    have hnone : ch.dtlsState = .none := not_not.mp h
    split <;> exact ⟨by simp [hnone], rfl⟩

omit [TransportChannelImpl χ] [LawfulChannel χ] in
theorem accepts_of_error {t : DtlsTransport χ} {desc : TransportDescription} {error : List Uint8}
    (hdesc : t.base.localDescription = some desc) (h : t.checkIdentity ssl = .error error)
    (ch : DtlsTransportChannelWrapper χ) : t.accepts ssl desc ch = false := by
  unfold checkIdentity at h
  rw [hdesc, Option.bind_some] at h
  unfold accepts
  cases hfp : desc.identityFingerprint with
  | none => rw [hfp] at h; cases h
  | some fp =>
    rw [hfp] at h
    dsimp only at h ⊢
    cases hidentity : t.identity with
    | none => rfl
    | some identity =>
      rw [hidentity] at h
      dsimp only at h
      split at h
      · rename_i hne
        simp [hne]
      · cases h

omit [TransportChannelImpl χ] [LawfulChannel χ] in
theorem accepts_of_ok {t : DtlsTransport χ} {desc : TransportDescription} {identity : Option ℕ}
    (hdesc : t.base.localDescription = some desc) (h : t.checkIdentity ssl = .ok identity)
    (ch : DtlsTransportChannelWrapper χ) :
    t.accepts ssl desc ch = (ch.dtlsState = .none || ch.localIdentity = identity) := by
  unfold checkIdentity at h
  rw [hdesc, Option.bind_some] at h
  unfold accepts
  cases hfp : desc.identityFingerprint with
  | none =>
    rw [hfp] at h
    obtain rfl := Except.ok.inj h
    rfl
  | some fp =>
    rw [hfp] at h
    dsimp only at h ⊢
    cases hidentity : t.identity with
    | none => rw [hidentity] at h; cases h
    | some id =>
      rw [hidentity] at h
      dsimp only at h
      split at h
      · cases h
      · rename_i heq
        obtain rfl := Except.ok.inj h
        simp [not_not.mp heq]

omit [TransportChannelImpl χ] [LawfulChannel χ] in
theorem checkIdentity_idem {t : DtlsTransport χ} {identity : Option ℕ} (h : t.checkIdentity ssl = .ok identity) :
    ({ t with identity := identity } : DtlsTransport χ).checkIdentity ssl = .ok identity := by
  unfold checkIdentity at h ⊢
  dsimp only
  cases hfp : t.base.localDescription.bind (·.identityFingerprint) with
  | none => rw [hfp] at h; exact h
  | some fp =>
    rw [hfp] at h
    dsimp only at h ⊢
    cases hidentity : t.identity with
    | none => rw [hidentity] at h; cases h
    | some id =>
      rw [hidentity] at h
      dsimp only at h
      split at h
      · cases h
      · rename_i heq
        obtain rfl := Except.ok.inj h
        dsimp only
        rw [if_neg heq]

variable (ssl) in
theorem applyLocal_dtls {t : DtlsTransport χ} {desc : TransportDescription}
    (hdesc : t.base.localDescription = some desc) (ch : DtlsTransportChannelWrapper χ) :
    ((t.applyLocalTransportDescription ssl ch).1 = none ↔ t.accepts ssl desc ch = true) ∧
      (t.applyLocalTransportDescription ssl ch).2.1.base = t.base ∧
      (∀ ch', (t.applyLocalTransportDescription ssl ch).2.1.accepts ssl desc ch' =
        t.accepts ssl desc ch') ∧
      settings (t.applyLocalTransportDescription ssl ch).2.2 =
        if t.accepts ssl desc ch then (settings ch).map (·.withLocal desc) else settings ch := by
  unfold applyLocalTransportDescription
  cases hcheck : t.checkIdentity ssl with
  | error error =>
    have hrefused := accepts_of_error hdesc hcheck ch
    simp [hrefused]
  | ok identity =>
    have haccepts := accepts_of_ok hdesc hcheck
    have hdesc' : ({ t with identity := identity } : DtlsTransport χ).base.localDescription = some desc :=
      hdesc
    have hagain (ch' : DtlsTransportChannelWrapper χ) :
        ({ t with identity := identity } : DtlsTransport χ).accepts ssl desc ch' =
          t.accepts ssl desc ch' := by
      rw [haccepts, accepts_of_ok hdesc' (checkIdentity_idem hcheck)]
    obtain ⟨htakes, hsettings⟩ := setLocalIdentity_eq ch identity
    rw [← haccepts] at htakes
    dsimp only
    cases htaken : ch.setLocalIdentity identity with
    | mk taken ch' =>
      rw [htaken] at htakes hsettings
      dsimp only at htakes hsettings ⊢
      cases taken with
      | false => exact ⟨by simp [← htakes], rfl, hagain, by simp [← htakes, hsettings]⟩
      | true =>
        refine ⟨by simp [← htakes], rfl, hagain, ?_⟩
        rw [← htakes, if_pos rfl, ← hsettings]
        exact settings_applyLocal hdesc ch'

variable (ssl) in
/-- The same for all channels, one after the other. -/
theorem applyLocals_dtls {t : DtlsTransport χ} {desc : TransportDescription}
    (hdesc : t.base.localDescription = some desc)
    (channels : List (ℕ × DtlsTransportChannelWrapper χ)) :
    ((applyLocals (dtlsTransport ssl χ) t channels).1 = none ↔
        ∀ e ∈ channels, t.accepts ssl desc e.2 = true) ∧
      (applyLocals (dtlsTransport ssl χ) t channels).2.1.base = t.base ∧
      view (applyLocals (dtlsTransport ssl χ) t channels).2.2 =
        appliedLocal desc (t.accepts ssl desc) channels := by
  induction channels generalizing t with
  | nil => exact ⟨by simp [applyLocals], rfl, rfl⟩
  | cons e rest ih =>
    obtain ⟨component, ch⟩ := e
    obtain ⟨haccepted, hbase, hagain, hsettings⟩ := applyLocal_dtls ssl hdesc ch
    have happlied : (dtlsTransport ssl χ).applyLocal t ch = t.applyLocalTransportDescription ssl ch := rfl
    unfold applyLocals
    rw [happlied]
    dsimp only
    obtain ⟨hrest, hbase', hview⟩ := ih (hbase ▸ hdesc)
    refine ⟨?_, hbase'.trans hbase, ?_⟩
    · rw [Option.or_eq_none_iff, hrest, haccepted, List.forall_mem_cons]
      simp only [hagain]
      exact and_comm
    · refine congrArg₂ List.cons (congrArg (Prod.mk component) hsettings) ?_
      have hsame : accepts ssl (t.applyLocalTransportDescription ssl ch).2.1 desc = accepts ssl t desc :=
        funext hagain
      rw [hsame] at hview
      exact hview

theorem setSslRole_eq (ch : DtlsTransportChannelWrapper χ) (role : SSLRole) :
    ((ch.setSslRole role).1 = true →
        settings (ch.setSslRole role).2 = (settings ch).map (·.withSslRole role)) ∧
      ((ch.setSslRole role).1 = false → (ch.setSslRole role).2 = ch) := by
  unfold DtlsTransportChannelWrapper.setSslRole
  split
  · refine ⟨fun h => ?_, fun _ => rfl⟩
    rw [beq_iff_eq] at h
    subst h
    show (settings ch.channel).map _ = ((settings ch.channel).map _).map _
    rw [Option.map_map]
    rfl
  · refine ⟨fun _ => ?_, fun h => by cases h⟩
    show (settings ch.channel).map _ = ((settings ch.channel).map _).map _
    rw [Option.map_map]
    rfl

variable (ssl) in
theorem settings_setRemoteFingerprint (ch : DtlsTransportChannelWrapper χ) (digestAlg digest : List Uint8) :
    settings (ch.setRemoteFingerprint ssl digestAlg digest).2 = settings ch := by
  unfold DtlsTransportChannelWrapper.setRemoteFingerprint
  split
  · rfl
  · split
    · rfl
    · split
      · rfl
      · dsimp only
        split <;> rfl

omit [TransportChannelImpl χ] [LawfulChannel χ] in
theorem base_negotiateSecurity (t : DtlsTransport χ) (localRole : ContentAction)
    (localDesc remoteDesc : TransportDescription) :
    (t.negotiateSecurity localRole localDesc remoteDesc).2.base = t.base := by
  unfold negotiateSecurity
  split
  · dsimp only
    split <;> rfl
  · split <;> rfl

theorem pushedPartly_dtls {secureRole : SSLRole} {remoteFingerprint : SSLFingerprint}
    {t : Transport (DtlsTransportChannelWrapper χ)} {channels : List (ℕ × DtlsTransportChannelWrapper χ)}
    (h : (pushDown (applyNegotiatedTransportDescription ssl secureRole remoteFingerprint t)
      channels).1.isSome = true) :
    PushedPartly (view channels)
      (view (pushDown (applyNegotiatedTransportDescription ssl secureRole remoteFingerprint t)
        channels).2) := by
  have hcases (ch : DtlsTransportChannelWrapper χ) :
      let r := applyNegotiatedTransportDescription ssl secureRole remoteFingerprint t ch
      (r.1 = none → settings r.2 = (settings ch).map fun s =>
          (s.withSslRole secureRole).withNegotiated t.protocol t.remoteIceMode) ∧
        (r.1 ≠ none → settings r.2 = settings ch ∨
          settings r.2 = (settings ch).map (·.withSslRole secureRole)) := by
    obtain ⟨htaken, hrefused⟩ := setSslRole_eq ch secureRole
    unfold applyNegotiatedTransportDescription
    cases hrole : ch.setSslRole secureRole with
    | mk taken ch₁ =>
      rw [hrole] at htaken hrefused
      cases taken with
      | false =>
        obtain rfl := hrefused rfl
        exact ⟨nofun, fun _ => .inl rfl⟩
      | true =>
        have hsettings := settings_setRemoteFingerprint ssl ch₁ remoteFingerprint.algorithm
          remoteFingerprint.digest
        dsimp only
        cases hfp : ch₁.setRemoteFingerprint ssl remoteFingerprint.algorithm remoteFingerprint.digest with
        | mk applied ch₂ =>
          rw [hfp] at hsettings
          cases applied with
          | false => exact ⟨nofun, fun _ => .inr (hsettings.trans (htaken rfl))⟩
          | true =>
            refine ⟨fun _ => ?_, fun hne => absurd rfl hne⟩
            dsimp only at hsettings ⊢
            rw [settings_applyNegotiated, hsettings, htaken rfl, Option.map_map]
            rfl
  refine pushedPartly_of_pushDown t.protocol t.remoteIceMode secureRole (fun ch ch' htaken => ?_)
    (fun ch ch' error hrefused => ?_) h
  · have hch := (hcases ch).1
    rw [htaken] at hch
    exact hch rfl
  · have hch := (hcases ch).2
    rw [hrefused] at hch
    exact hch (Option.some_ne_none error)

theorem negotiate_dtls_failed {t : DtlsTransport χ} (h : (t.negotiate ssl localRole).1.isSome = true) :
    (t.negotiate ssl localRole).2.base.localDescription = t.base.localDescription ∧
      (t.negotiate ssl localRole).2.base.remoteDescription = t.base.remoteDescription ∧
      (view (t.negotiate ssl localRole).2.base.channels = view t.base.channels ∨
        PushedPartly (view t.base.channels) (view (t.negotiate ssl localRole).2.base.channels)) := by
  unfold negotiate at h ⊢
  cases hlocal : t.base.localDescription with
  | none => exact ⟨hlocal, rfl, .inl rfl⟩
  | some localDesc =>
    cases hremote : t.base.remoteDescription with
    | none => exact ⟨hlocal, hremote, .inl rfl⟩
    | some remoteDesc =>
      rw [hlocal, hremote] at h
      dsimp only at h ⊢
      have hbase := base_negotiateSecurity t localRole localDesc remoteDesc
      cases hsecurity : t.negotiateSecurity localRole localDesc remoteDesc with
      | mk error t₁ =>
        rw [hsecurity] at h hbase
        dsimp only at hbase
        cases error with
        | some error => exact ⟨hbase ▸ hlocal, hbase ▸ hremote, .inl (by rw [hbase])⟩
        | none =>
          dsimp only at h ⊢
          rw [hbase] at h ⊢
          obtain ⟨hlocal', hremote', hchannels⟩ := negotiate_failed h
          refine ⟨hlocal'.trans hlocal, hremote'.trans hremote, ?_⟩
          rcases hchannels with hsame | ⟨t', hview, hfails, hpushed⟩
          · exact .inl (by rw [hsame])
          · rw [hpushed, ← hview]
            exact .inr (pushedPartly_dtls hfails)

/-! ### Both functions -/

omit [LawfulChannel χ] in
@[simp] theorem base_dtlsTransport (t : DtlsTransport χ) : (dtlsTransport ssl χ).base t = t.base := rfl

omit [LawfulChannel χ] in
@[simp] theorem withBase_dtlsTransport (t : DtlsTransport χ) (base : Transport (DtlsTransportChannelWrapper χ)) :
    (dtlsTransport ssl χ).withBase t base = { t with base := base } := rfl

/-- **A refused local description** is stored all the same, and pushed to some channels. -/
theorem setLocal_dtls_failed {t : DtlsTransport χ} {desc : TransportDescription}
    {r : Option (List Uint8) × DtlsTransport χ}
    (hr : r = setLocalTransportDescription (dtlsTransport ssl χ) t desc action)
    (h : r.1.isSome = true) :
    r.2.base.localDescription = some desc ∧ r.2.base.remoteDescription = t.base.remoteDescription ∧
      (view r.2.base.channels = appliedLocal desc (t.accepts ssl desc) t.base.channels ∨
        (∀ e ∈ t.base.channels, t.accepts ssl desc e.2 = true) ∧
          PushedPartly (appliedLocal desc (t.accepts ssl desc) t.base.channels)
            (view r.2.base.channels)) := by
  -- the transport with the new description
  have hdesc : ({ t with base := { t.base with localDescription := some desc } } :
      DtlsTransport χ).base.localDescription = some desc := rfl
  obtain ⟨haccepted, hbase, hview⟩ := applyLocals_dtls ssl hdesc t.base.channels
  unfold setLocalTransportDescription at hr
  dsimp only [base_dtlsTransport, withBase_dtlsTransport] at hr
  generalize applyLocals (dtlsTransport ssl χ)
    { t with base := { t.base with localDescription := some desc } } t.base.channels = a
    at haccepted hbase hview hr
  obtain ⟨error, t₁, channels⟩ := a
  dsimp only at haccepted hbase hview hr
  rw [hbase] at hr
  split at hr
  · rw [hr]
    exact ⟨rfl, rfl, .inl hview⟩
  · rename_i hnone
    have hall := haccepted.mp (Option.not_isSome_iff_eq_none.mp hnone)
    split at hr
    · rw [hr] at h ⊢
      obtain ⟨hlocal, hremote, hchannels⟩ := negotiate_dtls_failed h
      refine ⟨hlocal, hremote, ?_⟩
      dsimp only at hchannels
      rw [hview] at hchannels
      rcases hchannels with hsame | hpartly
      · exact .inl hsame
      · exact .inr ⟨hall, hpartly⟩
    · rw [hr] at h
      cases h

theorem setRemote_dtls_failed {t : DtlsTransport χ} {desc : TransportDescription}
    {r : Option (List Uint8) × DtlsTransport χ}
    (hr : r = setRemoteTransportDescription (dtlsTransport ssl χ) t desc action)
    (h : r.1.isSome = true) :
    r.2.base.remoteDescription = some desc ∧ r.2.base.localDescription = t.base.localDescription ∧
      (view r.2.base.channels = appliedRemote desc t.base.channels ∨
        PushedPartly (appliedRemote desc t.base.channels) (view r.2.base.channels)) := by
  rw [setRemote_eq fun _ _ => rfl] at hr
  simp only [base_dtlsTransport, withBase_dtlsTransport] at hr
  split at hr
  · rw [hr] at h ⊢
    obtain ⟨hlocal, hremote, hchannels⟩ := negotiate_dtls_failed h
    have hview := @view_applyRemote (DtlsTransportChannelWrapper χ) _ _
      { t.base with remoteDescription := some desc } desc rfl t.base.channels
    refine ⟨hremote, hlocal, ?_⟩
    rw [← hview]
    exact hchannels
  · rw [hr] at h
    cases h

end DtlsTransport

/-! ## All transports -/

/-- **What a refused description leaves behind**: it stays in place, and on channels; the protocol,
the ICE mode and the SSL role change only where the protocol of a hybrid channel is decided, or a
later channel refuses. -/
theorem failed_descriptions (ssl : Ssl) (desc : TransportDescription) (action : ContentAction) :
    (∀ t : Transport χ, let r := setLocalTransportDescription (baseTransport χ) t desc action
      r.1.isSome = true → r.2.localDescription = some desc ∧
        r.2.remoteDescription = t.remoteDescription ∧
        view r.2.channels = appliedLocal desc (fun _ => true) t.channels) ∧
    (∀ t : Transport χ, let r := setRemoteTransportDescription (baseTransport χ) t desc action
      r.1.isSome = true → r.2.remoteDescription = some desc ∧
        r.2.localDescription = t.localDescription ∧
        view r.2.channels = appliedRemote desc t.channels) ∧
    (∀ t : DtlsTransport χ, let r := setLocalTransportDescription (dtlsTransport ssl χ) t desc action
      let applied := appliedLocal desc (t.accepts ssl desc) t.base.channels
      r.1.isSome = true → r.2.base.localDescription = some desc ∧
        r.2.base.remoteDescription = t.base.remoteDescription ∧
        (view r.2.base.channels = applied ∨ (∀ e ∈ t.base.channels, t.accepts ssl desc e.2 = true) ∧
          PushedPartly applied (view r.2.base.channels))) ∧
    ∀ t : DtlsTransport χ, let r := setRemoteTransportDescription (dtlsTransport ssl χ) t desc action
      let applied := appliedRemote desc t.base.channels
      r.1.isSome = true → r.2.base.remoteDescription = some desc ∧
        r.2.base.localDescription = t.base.localDescription ∧
        (view r.2.base.channels = applied ∨ PushedPartly applied (view r.2.base.channels)) :=
  ⟨fun _ h => setLocal_base_failed h, fun _ h => setRemote_base_failed h,
    fun _ h => DtlsTransport.setLocal_dtls_failed rfl h,
    fun _ h => DtlsTransport.setRemote_dtls_failed rfl h⟩

section Example

def exampleDescription (transportType : List Uint8) : TransportDescription where
  transportType := transportType
  transportOptions := []
  iceUfrag := text "ufrag"
  icePwd := text "password"
  iceMode := .full
  connectionRole := .none
  identityFingerprint := none

def exampleOffered : Transport P2PTransportChannel where
  channels := [(1, .new 1)]
  localDescription := some (exampleDescription [])

theorem failed_descriptions_offered (ssl : Ssl) :
    let r := setRemoteTransportDescription (baseTransport P2PTransportChannel) exampleOffered
      (exampleDescription nsJingleIceUdp) .answer
    r.2.remoteDescription = some (exampleDescription nsJingleIceUdp) ∧
      r.2.localDescription = some (exampleDescription []) ∧
      view r.2.channels = appliedRemote (exampleDescription nsJingleIceUdp) exampleOffered.channels :=
  (failed_descriptions ssl (exampleDescription nsJingleIceUdp) .answer).2.1 exampleOffered (by decide)

/-- Descriptions and settings stay. -/
def Untouched (t t' : Transport χ) : Prop :=
  t'.localDescription = t.localDescription ∧ t'.remoteDescription = t.remoteDescription ∧
    view t'.channels = view t.channels

/-- **A refused answer is applied**: the channel has the credentials of the answer. -/
theorem answer_half_applied :
    let r := setRemoteTransportDescription (baseTransport P2PTransportChannel) exampleOffered
      (exampleDescription nsJingleIceUdp) .answer
    r.1.isSome = true ∧ ¬ Untouched exampleOffered r.2 :=
  ⟨by decide, fun h => absurd h.2.1 (by decide)⟩

end Example

end Libjingle.Negotiation
