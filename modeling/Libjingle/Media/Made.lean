import Libjingle.Media.Factory

/-!
# What the factory makes
-/

namespace Libjingle.Media

open Lib
open Srtp (CryptoParams)
open MediaCodec MediaSessionDescriptionFactory

/-! ## What draws no ids -/

section Strings

theorem keepsSupply_createRandomString : KeepsSupply createRandomString := fun s a s' h ids => by
  rw [createRandomString] at h ⊢
  cases hs : s.strings with
  | nil =>
    rw [hs] at h
    cases h
  | cons t strings =>
    rw [hs] at h
    obtain ⟨rfl, rfl⟩ := Prod.mk.inj (Except.ok.inj h)
    simp only [Supply.withSupply, hs]

theorem keepsSupply_createCryptoParams (tag : ℤ) (cipher : List Uint8) : KeepsSupply (createCryptoParams tag cipher) :=
  .bind keepsSupply_createRandomString fun _ => .pure _

theorem keepsSupply_createMediaCryptos (suites : List (List Uint8)) (tag : ℕ) :
    KeepsSupply (createMediaCryptos suites tag) := by
  induction suites generalizing tag with
  | nil => exact .pure _
  | cons suite suites ih =>
    refine .bind (keepsSupply_createCryptoParams _ _) fun crypto => ?_
    cases crypto with
    | none => exact .throw _
    | some crypto => exact .bind (ih _) fun _ => .pure _

theorem keepsSupply_iceCredentials (options : TransportOptions) (current : Option Negotiation.TransportDescription) :
    KeepsSupply (TransportDescriptionFactory.iceCredentials options current) := by
  unfold TransportDescriptionFactory.iceCredentials
  split
  · exact .pure _
  · exact .bind keepsSupply_createRandomString fun _ => .bind keepsSupply_createRandomString fun _ => .pure _

/-- A transport description only uses the supply up. -/
theorem keepsSupply_createOffer (f : TransportDescriptionFactory) (options : TransportOptions)
    (current : Option Negotiation.TransportDescription) : KeepsSupply (f.createOffer options current) :=
  .bind (keepsSupply_iceCredentials options current) fun _ => .ite (.pure _) (.pure _)

theorem keepsSupply_createAnswer (f : TransportDescriptionFactory) (offer : Option Negotiation.TransportDescription)
    (options : TransportOptions) (current : Option Negotiation.TransportDescription) :
    KeepsSupply (f.createAnswer offer options current) := by
  unfold TransportDescriptionFactory.createAnswer
  split
  · exact .pure _
  · exact .bind (keepsSupply_iceCredentials options current) fun _ =>
      .ite (.ite (.pure _) (.pure _)) (.ite (.pure _) (.pure _))

/-- The cryptos of an offer only use the supply up. -/
theorem keepsSupply_offeredCryptos (policy : SecurePolicy) (current : Option (List CryptoParams))
    (suites : List (List Uint8)) : KeepsSupply (offeredCryptos policy current suites) :=
  .ite (.pure _) (.ite (keepsSupply_createMediaCryptos suites 0) (.pure _))

theorem keepsSupply_answeredCryptos (mediaType : MediaType) (bundle : Bool) (policy : SecurePolicy)
    (current : Option (List CryptoParams)) (offered : List CryptoParams) :
    KeepsSupply (answeredCryptos mediaType bundle policy current offered) := by
  refine .ite (.pure _) (.bind ?_ fun _ => .pure _)
  unfold selectCrypto
  split
  · exact .pure _
  · exact keepsSupply_createCryptoParams _ _

end Strings

/-! ## Contents -/

section Contents

variable {C : Type} [MediaCodec C] {mediaType : MediaType} {options : MediaSessionOptions} {codecs : List C}
  {policy : SecurePolicy} {cryptos : Option (List CryptoParams)} {suites : List (List Uint8)}
  {extensions : List RtpHeaderExtension} {addLegacy bundle : Bool} {streams : List StreamParams}
  {offer : MediaContentDescriptionImpl C} {made : MediaContentDescriptionImpl C × List StreamParams}
  {random random' : Random}

theorem addStreamParams_codecs {desc : MediaContentDescriptionImpl C}
    (h : addStreamParams mediaType options.streams streams desc addLegacy random = .ok (made, random')) :
    made.1.codecs = desc.codecs := by
  unfold addStreamParams at h
  split_ifs at h <;> obtain ⟨_, _, -, h⟩ := bind_eq_ok.mp h <;>
    obtain ⟨rfl, -⟩ := Prod.mk.inj (pure_eq_ok.mp h) <;> rfl

theorem createMediaContentAnswer_codecs
    (h : createMediaContentAnswer mediaType offer options codecs policy cryptos extensions streams addLegacy bundle
      random = .ok (made, random')) : made.1.codecs = sortCodecs (negotiateCodecs codecs offer.codecs) := by
  rw [createMediaContentAnswer, bind_eq_ok] at h
  obtain ⟨cryptos, random₁, -, h⟩ := h
  split_ifs at h
  · exact absurd h throw_ne_ok
  · obtain ⟨added, random₂, hadded, h⟩ := bind_eq_ok.mp h
    obtain ⟨rfl, rfl⟩ := Prod.mk.inj (pure_eq_ok.mp h)
    exact addStreamParams_codecs hadded

end Contents

theorem getFirstMediaContent_cases (sdesc : SessionDescription) (mediaType : MediaType) :
    sdesc.getFirstMediaContent mediaType = none ∨ ∃ name type rejected desc,
      sdesc.getFirstMediaContent mediaType = some ⟨name, type, rejected, some desc⟩ ∧ desc.type = mediaType := by
  rcases heq : sdesc.getFirstMediaContent mediaType with _ | ⟨name, type, rejected, desc⟩
  · exact .inl rfl
  · have hfound := List.find?_some heq
    cases desc with
    | none => simp [isMediaContentOfType] at hfound
    | some desc =>
      exact .inr ⟨name, type, rejected, desc, rfl, of_decide_eq_true (Bool.and_eq_true_iff.mp hfound).2⟩

/-! ## Parts of a session -/

section Parts

variable {C : Type} [MediaCodec C] {f : MediaSessionDescriptionFactory} {options : MediaSessionOptions}
  {current : Option SessionDescription} {content : ContentInfo} {random random' : Random}

theorem addTransportInfo_contents (sdesc : SessionDescription) (info : TransportInfo) :
    (sdesc.addTransportInfo info).2.contents = sdesc.contents := by
  rw [SessionDescription.addTransportInfo]
  split_ifs <;> rfl

theorem answerContent_codecs {mediaType : MediaType} {has checked : Bool} {ours : List C}
    {extensions : List RtpHeaderExtension} {accepted : MediaContentDescriptionImpl C → MediaContentDescriptionImpl C}
    {wrap : MediaContentDescriptionImpl C → ContentDescription} {offer : SessionDescription}
    {offered : MediaContentDescriptionImpl C} {s s' : Session}
    (h : f.answerContent mediaType has checked ours extensions accepted wrap options offer current content offered s
      random = .ok (s', random')) (haccepted : ∀ made, (accepted made).codecs = made.codecs) :
    ∃ rejected made, s'.1.contents = s.1.contents ++ [⟨content.name, content.type, rejected, some (wrap made)⟩] ∧
      made.codecs = sortCodecs (negotiateCodecs ours offered.codecs) := by
  rw [answerContent, bind_eq_ok] at h
  obtain ⟨transport, random₁, -, h⟩ := h
  cases transport with
  | none => exact absurd h throw_ne_ok
  | some transport =>
    obtain ⟨made, random₂, hmade, h⟩ := bind_eq_ok.mp h
    have hcodecs := createMediaContentAnswer_codecs hmade
    dsimp only at h
    split_ifs at h
    · obtain ⟨rfl, rfl⟩ := Prod.mk.inj (pure_eq_ok.mp h)
      exact ⟨true, made.1, rfl, hcodecs⟩
    · exact absurd h throw_ne_ok
    · obtain ⟨rfl, rfl⟩ := Prod.mk.inj (pure_eq_ok.mp h)
      refine ⟨false, accepted made.1, ?_, (haccepted made.1).trans hcodecs⟩
      rw [SessionDescription.addContent, addTransportInfo_contents]

end Parts

/-! ## Bundles -/

section Bundles

variable {group : ContentGroup} {sdesc sdesc' : SessionDescription} {random random' : Random}

/-- A content without its parameters for encryption. -/
def bare (content : ContentInfo) : ContentInfo :=
  { content with description := content.description.map (ContentDescription.setCryptos []) }

theorem bare_setCryptos (name : List Uint8) (cryptos : List CryptoParams) (contents : List ContentInfo) :
    (setCryptos name cryptos contents).map bare = contents.map bare := by
  induction contents with
  | nil => rfl
  | cons content contents ih =>
    rw [setCryptos]
    split_ifs
    · rw [List.map_cons, List.map_cons]
      refine congrArg (· :: _) ?_
      rw [bare, bare, Option.map_map]
      refine congrArg (fun d => (⟨content.name, content.type, content.rejected, d⟩ : ContentInfo)) ?_
      exact congrArg (fun g => content.description.map g) (funext fun desc => by cases desc <;> rfl)
    · rw [List.map_cons, List.map_cons, ih]

theorem bare_setCommonCryptos (common : List CryptoParams) (names : List (List Uint8)) (sdesc : SessionDescription) :
    (setCommonCryptos common names sdesc).2.contents.map bare = sdesc.contents.map bare := by
  induction names generalizing sdesc with
  | nil => rfl
  | cons name names ih =>
    rw [setCommonCryptos]
    split_ifs
    · exact ih sdesc
    · split
      · exact ih sdesc
      · split_ifs
        · exact ih sdesc
        · rfl
        · exact (ih _).trans (bare_setCryptos name common sdesc.contents)

theorem bare_updateCryptoParamsForBundle {r : Bool × SessionDescription}
    (h : updateCryptoParamsForBundle group sdesc = some r) : r.2.contents.map bare = sdesc.contents.map bare := by
  unfold updateCryptoParamsForBundle at h
  split_ifs at h
  · cases h
    rfl
  · split at h
    · cases h
    · cases h
      rfl
    · split_ifs at h <;> cases h
      · rfl
      · exact bare_setCommonCryptos _ _ _

theorem addBundle_contents (h : addBundle group sdesc random = .ok (sdesc', random')) :
    sdesc'.contents.map bare = sdesc.contents.map bare := by
  have htransports (s : SessionDescription) :
      (updateTransportInfoForBundle group s).2.contents = s.contents := by
    unfold updateTransportInfoForBundle
    split
    · rfl
    · split <;> rfl
  rw [addBundle] at h
  split_ifs at h
  · exact absurd h throw_ne_ok
  · rcases hcryptos : updateCryptoParamsForBundle group (updateTransportInfoForBundle group
        { sdesc with contentGroups := sdesc.contentGroups ++ [group] }).2 with _ | ⟨_ | _, sdesc₁⟩ <;>
      simp only [hcryptos] at h
    · exact absurd h throw_ne_ok
    · exact absurd h throw_ne_ok
    · obtain ⟨rfl, -⟩ := Prod.mk.inj (pure_eq_ok.mp h)
      rw [bare_updateCryptoParamsForBundle hcryptos, htransports]

end Bundles

end Libjingle.Media
