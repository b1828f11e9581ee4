import Libjingle.Media.Bundle
import Libjingle.Media.Streams

/-!
# `MediaSessionDescriptionFactory` (`session/media/mediasession.{h,cc}`)

* `TransportDescriptionFactory` (`p2p/base/transportdescriptionfactory.{h,cc}`): descriptions of transports.

`HAVE_SRTP` is taken as defined.
-/

namespace Libjingle.Media

open Srtp (CryptoParams csAesCm128HmacSha1_80 csAesCm128HmacSha1_32)
open Negotiation (TransportDescription SSLFingerprint ConnectionRole nsJingleIceUdp iceOptionGice)
open P2P (IceProtocolType)
open MediaCodec

/-! ## Options -/

/-- `DataChannelType`. -/
inductive DataChannelType where
  | none | rtp | sctp
  deriving DecidableEq, Repr

/-- `TransportOptions`. -/
structure TransportOptions where
  iceRestart : Bool := false
  preferPassiveRole : Bool := false

abbrev kDataMaxBandwidth : ℤ := 30720

/-- `MediaSessionOptions`. -/
structure MediaSessionOptions where
  hasAudio : Bool := true
  hasVideo : Bool := false
  dataChannelType : DataChannelType := .none
  isMuc : Bool := false
  vadEnabled : Bool := true
  rtcpMuxEnabled : Bool := true
  bundleEnabled : Bool := false
  videoBandwidth : ℤ := kAutoBandwidth
  dataBandwidth : ℤ := kDataMaxBandwidth
  transportOptions : TransportOptions := {}
  streams : List Stream := []

/-- `has_data()`. -/
def MediaSessionOptions.hasData (options : MediaSessionOptions) : Bool := options.dataChannelType ≠ .none

/-! ## Transports -/

/-- `NS_GINGLE_P2P`. -/
def nsGingleP2p : List Uint8 := text "http://www.google.com/transport/p2p"

/-- `TransportDescriptionFactory`: protocol, policy, and fingerprint. -/
structure TransportDescriptionFactory where
  protocol : IceProtocolType := .google
  secure : SecurePolicy := .disabled
  fingerprint : Option SSLFingerprint := none

namespace TransportDescriptionFactory

variable (f : TransportDescriptionFactory)

def setSecurityInfo (desc : TransportDescription) (role : ConnectionRole) : Option TransportDescription :=
  f.fingerprint.map fun fp => { desc with identityFingerprint := some fp, connectionRole := role }

/-- The current ICE credentials, or new ones. -/
def iceCredentials (options : TransportOptions) (current : Option TransportDescription) :
    Gen (List Uint8 × List Uint8) :=
  match current, options.iceRestart with
  | some current, false => pure (current.iceUfrag, current.icePwd)
  | _, _ => do
    let iceUfrag ← createRandomString
    let icePwd ← createRandomString
    pure (iceUfrag.getD [], icePwd.getD [])

def describe (transportType : List Uint8) (transportOptions : List (List Uint8)) (ice : List Uint8 × List Uint8) :
    TransportDescription :=
  ⟨transportType, transportOptions, ice.1, ice.2, .full, .none, none⟩

/-- `CreateOffer` of the transport. -/
def createOffer (options : TransportOptions) (current : Option TransportDescription) :
    Gen (Option TransportDescription) := do
  let ice ← iceCredentials options current
  let desc :=
    match f.protocol with
    | .rfc5245 => describe nsJingleIceUdp [] ice
    | .hybrid => describe nsJingleIceUdp [iceOptionGice] ice
    | .google => describe nsGingleP2p [] ice
  if f.secure = .disabled then pure (some desc) else pure (f.setSecurityInfo desc .actpass)

def answerType (offer : Option TransportDescription) : Option (List Uint8) :=
  if offer.any (fun o => o.transportType = nsJingleIceUdp) && f.protocol ≠ .google then some nsJingleIceUdp
  else if offer.any (fun o => o.transportType = nsJingleIceUdp && o.hasOption iceOptionGice) && f.protocol = .google then
    some nsGingleP2p
  else if offer.all (fun o => o.transportType = nsGingleP2p) && f.protocol ≠ .rfc5245 then some nsGingleP2p
  else none

/-- `CreateAnswer` of the transport. -/
def createAnswer (offer : Option TransportDescription) (options : TransportOptions)
    (current : Option TransportDescription) : Gen (Option TransportDescription) :=
  match f.answerType offer with
  | none => pure none
  | some transportType => do
    let ice ← iceCredentials options current
    let desc := describe transportType [] ice
    if offer.any Media.secure then
      if f.secure = .disabled then pure (some desc)
      else pure (f.setSecurityInfo desc (if options.preferPassiveRole then .passive else .active))
    else if f.secure = .required then pure none
    else pure (some desc)

end TransportDescriptionFactory

def getTransportDescription (contentName : List Uint8) (current : Option SessionDescription) :
    Option TransportDescription :=
  (current.bind fun sdesc => sdesc.getTransportInfoByName contentName).map (·.description)

def isDtlsActive (contentName : List Uint8) (current : Option SessionDescription) : Bool :=
  (current.bind fun sdesc => sdesc.getContentByName contentName).isSome &&
    (getTransportDescription contentName current).any secure

/-! ## Parameters for encryption -/

def createCryptoParams (tag : ℤ) (cipher : List Uint8) : Gen (Option CryptoParams) := do
  let key ← createRandomString
  pure (key.map fun key => { tag := tag, cipherSuite := cipher, keyParams := text "inline:" ++ key })

def createMediaCryptos : (suites : List (List Uint8)) → (tag : ℕ) → Gen (List CryptoParams)
  | [], _ => pure []
  | suite :: suites, tag => do
    match ← createCryptoParams tag suite with
    | none => throw .null
    | some crypto => do
      let cryptos ← createMediaCryptos suites (tag + 1)
      pure (crypto :: cryptos)

def supportedAudioCryptoSuites : List (List Uint8) := [csAesCm128HmacSha1_32, csAesCm128HmacSha1_80]

def supportedDefaultCryptoSuites : List (List Uint8) := [csAesCm128HmacSha1_80]

/-- `GetCryptos` of the first content of a media type. -/
def currentCryptos (current : Option SessionDescription) (mediaType : MediaType) : Option (List CryptoParams) :=
  ((current.bind fun sdesc => sdesc.getFirstMediaContent mediaType).bind (·.description)).map (·.media.cryptos)

/-- `SelectCrypto`, if there is a supported one. -/
def selectCrypto (mediaType : MediaType) (bundle : Bool) (cryptos : List CryptoParams) : Gen (Option CryptoParams) :=
  match cryptos.find? fun i => i.cipherSuite = csAesCm128HmacSha1_80 ||
      (i.cipherSuite = csAesCm128HmacSha1_32 && mediaType = .audio && !bundle) with
  | none => pure none
  | some i => createCryptoParams i.tag i.cipherSuite

def findMatchingCrypto (cryptos : List CryptoParams) (crypto : CryptoParams) : CryptoParams :=
  (cryptos.find? fun it => crypto.matches it).getD crypto

/-! ## Header extensions -/

/-- `FindByUri`. -/
def findByUri (extensions : List RtpHeaderExtension) (ext : RtpHeaderExtension) : Option RtpHeaderExtension :=
  extensions.find? fun it => it.uri = ext.uri

def findAndSetExtensionsUsed : UsedIds → List RtpHeaderExtension → List RtpHeaderExtension × UsedIds
  | used, [] => ([], used)
  | used, ext :: extensions =>
    let r := used.findAndSetIdUsed ext.id
    let rest := findAndSetExtensionsUsed r.2 extensions
    ({ ext with id := r.1 } :: rest.1, rest.2)

def findAndSetRtpHdrExtUsed (other : List RtpHeaderExtension) : (reference offered : List RtpHeaderExtension) →
    UsedIds → List RtpHeaderExtension × UsedIds
  | [], offered, used => (offered, used)
  | it :: reference, offered, used =>
    if (findByUri offered it).isSome then findAndSetRtpHdrExtUsed other reference offered used
    else
      match findByUri other it with
      | some ext => findAndSetRtpHdrExtUsed other reference (offered ++ [ext]) used
      | none =>
        let r := used.findAndSetIdUsed it.id
        findAndSetRtpHdrExtUsed other reference (offered ++ [{ it with id := r.1 }]) r.2

def currentExtensions (current : Option SessionDescription) (mediaType : MediaType) : List RtpHeaderExtension :=
  (((current.bind fun sdesc => sdesc.getFirstMediaContent mediaType).bind (·.description)).map
    (·.media.rtpHeaderExtensions)).getD []

def negotiateRtpHeaderExtensions (ours offered : List RtpHeaderExtension) : List RtpHeaderExtension :=
  ours.filterMap fun ext => findByUri offered ext

/-! ## The factory -/

/-- The members of a `MediaSessionDescriptionFactory`. -/
structure MediaSessionDescriptionFactory where
  codecs : Codecs := {}
  audioRtpExtensions : List RtpHeaderExtension := []
  videoRtpExtensions : List RtpHeaderExtension := []
  secure : SecurePolicy := .disabled
  addLegacy : Bool := true
  transportDescFactory : TransportDescriptionFactory := {}

def MediaSessionDescriptionFactory.getRtpHdrExtsToOffer (f : MediaSessionDescriptionFactory)
    (current : Option SessionDescription) : List RtpHeaderExtension × List RtpHeaderExtension :=
  let audio := findAndSetExtensionsUsed usedRtpHeaderExtensionIds (currentExtensions current .audio)
  let video := findAndSetExtensionsUsed audio.2 (currentExtensions current .video)
  let audio' := findAndSetRtpHdrExtUsed video.1 f.audioRtpExtensions audio.1 video.2
  let video' := findAndSetRtpHdrExtUsed audio'.1 f.videoRtpExtensions video.1 audio'.2
  (audio'.1, video'.1)

/-- `StripCNCodecs`. -/
def stripCNCodecs (codecs : List AudioCodec) : List AudioCodec :=
  codecs.filter fun c => !equalText c.name kComfortNoiseCodecName

abbrev kGoogleRtpDataCodecId : ℤ := 101
abbrev kGoogleSctpDataCodecId : ℤ := 108

def filterDataCodecs (codecs : List DataCodec) (sctp : Bool) : List DataCodec :=
  codecs.filter fun c => c.id ≠ if sctp then kGoogleRtpDataCodecId else kGoogleSctpDataCodecId

def getCurrentStreamParams (sdesc : Option SessionDescription) : List StreamParams :=
  match sdesc with
  | none => []
  | some sdesc => sdesc.contents.flatMap fun content =>
    if isMediaContent content then (content.description.map (·.media.streams)).getD [] else []

def setMediaProtocol {C : Type} (secureTransport : Bool) (desc : MediaContentDescriptionImpl C) :
    MediaContentDescriptionImpl C :=
  { desc with
    protocol := if desc.cryptos ≠ [] ∨ secureTransport = true then kMediaProtocolSavpf else kMediaProtocolAvpf }

def isMediaProtocolSupported (type : MediaType) (protocol : List Uint8) (secureTransport : Bool) : Bool :=
  (type = .data && ((protocol = kMediaProtocolSctp && !secureTransport) ||
      (protocol = kMediaProtocolDtlsSctp && secureTransport))) ||
    protocol = kMediaProtocolAvpf || protocol = [] || protocol = kMediaProtocolSavpf ||
    (protocol = kMediaProtocolDtlsSavpf && secureTransport)

/-! ## Contents -/

section Contents

variable {C : Type} [MediaCodec C]

def offeredCryptos (policy : SecurePolicy) (current : Option (List CryptoParams)) (suites : List (List Uint8)) :
    Gen (List CryptoParams) :=
  if policy = .disabled then pure []
  else if current.getD [] = [] then createMediaCryptos suites 0
  else pure (current.getD [])

/-- `CreateMediaContentOffer`. -/
def createMediaContentOffer (mediaType : MediaType) (options : MediaSessionOptions) (codecs : List C)
    (policy : SecurePolicy) (cryptos : Option (List CryptoParams)) (suites : List (List Uint8))
    (extensions : List RtpHeaderExtension) (addLegacy : Bool) (streams : List StreamParams)
    (offer : MediaContentDescriptionImpl C) : Gen (MediaContentDescriptionImpl C × List StreamParams) := do
  let added ← addStreamParams mediaType options.streams streams
    { offer with
      codecs := sortCodecs codecs
      cryptoRequired := if policy = .required then .sdes else offer.cryptoRequired
      rtcpMux := options.rtcpMuxEnabled
      multistream := options.isMuc
      rtpHeaderExtensions := extensions } addLegacy
  let cryptos ← offeredCryptos policy cryptos suites
  if added.1.cryptoRequired = .sdes ∧ cryptos = [] then throw .null
  else pure ({ added.1 with cryptos := cryptos }, added.2)

def negotiateCodec (ours theirs : C) : Option C :=
  if isMatch ours theirs = false then none
  else
    let negotiated := withFeedbackOf ours theirs
    if (codec negotiated).isRtx then
      ((codec theirs).getParam kCodecParamAssociatedPayloadType).map fun apt =>
        withId (withParam negotiated kCodecParamAssociatedPayloadType apt) (codec theirs).id
    else some (withId negotiated (codec theirs).id)

def negotiateCodecs (ours offered : List C) : List C :=
  ours.flatMap fun c => offered.filterMap (negotiateCodec c)

def answeredCryptos (mediaType : MediaType) (bundle : Bool) (policy : SecurePolicy)
    (current : Option (List CryptoParams)) (offered : List CryptoParams) : Gen (List CryptoParams) := do
  if policy = .disabled then pure []
  else
    let crypto ← selectCrypto mediaType bundle offered
    pure (crypto.toList.map (findMatchingCrypto (current.getD [])))

def answeredDirection : MediaContentDirection → MediaContentDirection
  | .inactive => .inactive
  | .sendonly => .recvonly
  | .recvonly => .sendonly
  | .sendrecv => .sendrecv

/-- `CreateMediaContentAnswer`. -/
def createMediaContentAnswer (mediaType : MediaType) (offer : MediaContentDescriptionImpl C)
    (options : MediaSessionOptions) (codecs : List C) (policy : SecurePolicy) (cryptos : Option (List CryptoParams))
    (extensions : List RtpHeaderExtension) (streams : List StreamParams) (addLegacy bundle : Bool) :
    Gen (MediaContentDescriptionImpl C × List StreamParams) := do
  let cryptos ← answeredCryptos mediaType bundle policy cryptos offer.cryptos
  if cryptos = [] ∧ (offer.cryptoRequired = .sdes ∨ policy = .required) then throw .null
  else
    let added ← addStreamParams mediaType options.streams streams
      { codecs := sortCodecs (negotiateCodecs codecs offer.codecs)
        protocol := offer.protocol
        rtpHeaderExtensions := negotiateRtpHeaderExtensions extensions offer.rtpHeaderExtensions
        rtcpMux := options.rtcpMuxEnabled && offer.rtcpMux
        cryptos := cryptos } addLegacy
    pure ({ added.1 with direction := answeredDirection offer.direction }, added.2)

end Contents

/-! ## Sessions -/

/-- `CN_AUDIO`. -/
def cnAudio : List Uint8 := text "audio"
/-- `CN_VIDEO`. -/
def cnVideo : List Uint8 := text "video"
/-- `CN_DATA`. -/
def cnData : List Uint8 := text "data"

def bundleGroup : ContentGroup := ⟨text "BUNDLE", [], List.nodup_nil⟩

/-- A description in the making, and all known streams. -/
abbrev Session := SessionDescription × List StreamParams

def addBundle (group : ContentGroup) (sdesc : SessionDescription) : Gen SessionDescription :=
  let transports := updateTransportInfoForBundle group { sdesc with contentGroups := sdesc.contentGroups ++ [group] }
  if transports.1 = false then throw .null
  else
    match updateCryptoParamsForBundle group transports.2 with
    | none => throw .undefined
    | some (false, _) => throw .null
    | some (true, sdesc) => pure sdesc

namespace MediaSessionDescriptionFactory

variable (f : MediaSessionDescriptionFactory)

/-! ### Offers -/

def offerPolicy (contentName : List Uint8) (current : Option SessionDescription) : SecurePolicy :=
  if isDtlsActive contentName current then .disabled else f.secure

def addOffered (options : MediaSessionOptions) (current : Option SessionDescription) (content : ContentInfo)
    (offer : SessionDescription) : Gen SessionDescription := do
  match ← f.transportDescFactory.createOffer options.transportOptions (getTransportDescription content.name current) with
  | none => throw .null
  | some desc =>
    let added := (offer.addContent content).addTransportInfo ⟨content.name, desc⟩
    if added.1 = false then throw .null else pure added.2

def offerAudio (options : MediaSessionOptions) (current : Option SessionDescription) (codecs : List AudioCodec)
    (extensions : List RtpHeaderExtension) (s : Session) : Gen Session :=
  if options.hasAudio = false then pure s
  else do
    let made ← createMediaContentOffer .audio options codecs (f.offerPolicy cnAudio current)
      (currentCryptos current .audio) supportedAudioCryptoSuites extensions f.addLegacy s.2 {}
    let offer ← f.addOffered options current ⟨cnAudio, nsJingleRtp, false,
      some (.audio (setMediaProtocol (f.transportDescFactory.secure ≠ .disabled) made.1))⟩ s.1
    pure (offer, made.2)

def offerVideo (options : MediaSessionOptions) (current : Option SessionDescription) (codecs : List VideoCodec)
    (extensions : List RtpHeaderExtension) (s : Session) : Gen Session :=
  if options.hasVideo = false then pure s
  else do
    let made ← createMediaContentOffer .video options codecs (f.offerPolicy cnVideo current)
      (currentCryptos current .video) supportedDefaultCryptoSuites extensions f.addLegacy s.2 {}
    let offer ← f.addOffered options current ⟨cnVideo, nsJingleRtp, false,
      some (.video (setMediaProtocol (f.transportDescFactory.secure ≠ .disabled)
        { made.1 with bandwidth := options.videoBandwidth }))⟩ s.1
    pure (offer, made.2)

def offerData (options : MediaSessionOptions) (current : Option SessionDescription) (codecs : List DataCodec)
    (s : Session) : Gen Session :=
  let secureTransport : Bool := f.transportDescFactory.secure ≠ .disabled
  match options.dataChannelType with
  | .none => pure s
  | .sctp => do
    let made ← createMediaContentOffer .data options (filterDataCodecs codecs true) .disabled
      (currentCryptos current .data) [] [] f.addLegacy s.2
      { protocol := if secureTransport then kMediaProtocolDtlsSctp else kMediaProtocolSctp }
    let offer ← f.addOffered options current ⟨cnData, nsJingleDraftSctp, false, some (.data made.1)⟩ s.1
    pure (offer, made.2)
  | .rtp => do
    let made ← createMediaContentOffer .data options (filterDataCodecs codecs false) (f.offerPolicy cnData current)
      (currentCryptos current .data) supportedDefaultCryptoSuites [] f.addLegacy s.2 {}
    let offer ← f.addOffered options current ⟨cnData, nsJingleRtp, false,
      some (.data (setMediaProtocol secureTransport { made.1 with bandwidth := options.dataBandwidth }))⟩ s.1
    pure (offer, made.2)

def audioCodecsToOffer (options : MediaSessionOptions) (current : Option SessionDescription) : List AudioCodec :=
  let codecs := (getCodecsToOffer f.codecs current).audio
  if options.vadEnabled then codecs else stripCNCodecs codecs

/-- `MediaSessionDescriptionFactory::CreateOffer`. -/
def createOffer (options : MediaSessionOptions) (current : Option SessionDescription) : Gen SessionDescription := do
  let codecs := getCodecsToOffer f.codecs current
  let extensions := f.getRtpHdrExtsToOffer current
  let s ← f.offerAudio options current (f.audioCodecsToOffer options current) extensions.1
    ({}, getCurrentStreamParams current)
  let s ← f.offerVideo options current codecs.video extensions.2 s
  let s ← f.offerData options current codecs.data s
  if options.bundleEnabled then
    addBundle (s.1.contents.foldl (fun group content => group.addContentName content.name) bundleGroup) s.1
  else pure s.1

/-! ### Answers -/

def answerContent {C : Type} [MediaCodec C] (mediaType : MediaType) (has checked : Bool) (ours : List C)
    (extensions : List RtpHeaderExtension)
    (accepted : MediaContentDescriptionImpl C → MediaContentDescriptionImpl C)
    (wrap : MediaContentDescriptionImpl C → ContentDescription) (options : MediaSessionOptions)
    (offer : SessionDescription) (current : Option SessionDescription) (content : ContentInfo)
    (offered : MediaContentDescriptionImpl C) (s : Session) : Gen Session := do
  match ← f.transportDescFactory.createAnswer (getTransportDescription content.name (some offer))
      options.transportOptions (getTransportDescription content.name current) with
  | none => throw .null
  | some transport =>
    let bundle := (offer.getGroupByName bundleGroup.semantics).isSome && options.bundleEnabled
    let made ← createMediaContentAnswer mediaType offered options ours
      (if Media.secure transport then .disabled else f.secure) (currentCryptos current mediaType) extensions s.2
      f.addLegacy bundle
    let rejected := !has || content.rejected ||
      !isMediaProtocolSupported mediaType made.1.protocol (Media.secure transport)
    if rejected then pure (s.1.addContent ⟨content.name, content.type, true, some (wrap made.1)⟩, made.2)
    else
      let added := s.1.addTransportInfo ⟨content.name, transport⟩
      if checked = true ∧ added.1 = false then throw .null
      else pure (added.2.addContent ⟨content.name, content.type, false, some (wrap (accepted made.1))⟩, made.2)

def audioCodecsToAnswer (options : MediaSessionOptions) : List AudioCodec :=
  if options.vadEnabled then f.codecs.audio else stripCNCodecs f.codecs.audio

def answerAudio (options : MediaSessionOptions) (offer : SessionDescription) (current : Option SessionDescription)
    (s : Session) : Gen Session :=
  match offer.getFirstMediaContent .audio with
  | some ⟨name, type, rejected, some (.audio desc)⟩ =>
    f.answerContent .audio options.hasAudio false (f.audioCodecsToAnswer options) f.audioRtpExtensions
      (fun made => made) .audio options offer current ⟨name, type, rejected, some (.audio desc)⟩ desc s
  | _ => pure s

def answerVideo (options : MediaSessionOptions) (offer : SessionDescription) (current : Option SessionDescription)
    (s : Session) : Gen Session :=
  match offer.getFirstMediaContent .video with
  | some ⟨name, type, rejected, some (.video desc)⟩ =>
    f.answerContent .video options.hasVideo true f.codecs.video f.videoRtpExtensions
      (fun made => { made with bandwidth := options.videoBandwidth }) .video options offer current
      ⟨name, type, rejected, some (.video desc)⟩ desc s
  | _ => pure s

def answerData (options : MediaSessionOptions) (offer : SessionDescription) (current : Option SessionDescription)
    (s : Session) : Gen Session :=
  match offer.getFirstMediaContent .data with
  | some ⟨name, type, rejected, some (.data desc)⟩ =>
    f.answerContent .data options.hasData true f.codecs.data [] (fun made =>
      { made with bandwidth := options.dataBandwidth }) .data options offer current
      ⟨name, type, rejected, some (.data desc)⟩ desc s
  | _ => pure s

/-- `MediaSessionDescriptionFactory::CreateAnswer`. -/
def createAnswer (offer : SessionDescription) (options : MediaSessionOptions) (current : Option SessionDescription) :
    Gen SessionDescription := do
  let s ← f.answerAudio options offer current ({}, getCurrentStreamParams current)
  let s ← f.answerVideo options offer current s
  let s ← f.answerData options offer current s
  match offer.getGroupByName bundleGroup.semantics, options.bundleEnabled with
  | some offerBundle, true =>
    let group := s.1.contents.foldl (fun group content =>
      if !content.rejected && offerBundle.contentNames.contains content.name then group.addContentName content.name
      else group) bundleGroup
    if group.contentNames = [] then pure s.1 else addBundle group s.1
  | _, _ => pure s.1

end MediaSessionDescriptionFactory

end Libjingle.Media
