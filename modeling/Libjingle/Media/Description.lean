import Libjingle.Media.Codec
import Libjingle.Negotiation.Transport
import Libjingle.Srtp.Filter

/-!
# Session descriptions (`p2p/base/sessiondescription.{h,cc}`, `session/media/mediasession.h`)

Left out are the members that no function here uses: the language, the modes, and what is described of other
contents than media.
-/

namespace Libjingle.Media

open Srtp (CryptoParams)
open Negotiation (TransportDescription)

/-! ## Streams -/

/-- `SsrcGroup`. -/
structure SsrcGroup where
  semantics : List Uint8
  ssrcs : List Uint32
  deriving DecidableEq, Repr

/-- `StreamParams`: the ids of a stream, its SSRCs and their groups. -/
structure StreamParams where
  groupid : List Uint8 := []
  id : List Uint8 := []
  ssrcs : List Uint32 := []
  ssrcGroups : List SsrcGroup := []
  type : List Uint8 := []
  display : List Uint8 := []
  cname : List Uint8 := []
  syncLabel : List Uint8 := []
  deriving DecidableEq, Repr

def kFidSsrcGroupSemantics : List Uint8 := text "FID"
def kSimSsrcGroupSemantics : List Uint8 := text "SIM"

def createLegacy (ssrc : Uint32) : StreamParams := { ssrcs := [ssrc] }

def StreamParams.addFidSsrc (p : StreamParams) (primarySsrc fidSsrc : Uint32) : StreamParams :=
  if primarySsrc ∉ p.ssrcs then p
  else
    { p with
      ssrcs := p.ssrcs ++ [fidSsrc]
      ssrcGroups := p.ssrcGroups ++ [⟨kFidSsrcGroupSemantics, [primarySsrc, fidSsrc]⟩] }

/-- `StreamSelector`: by SSRC, or by ids where the SSRC is 0. -/
structure StreamSelector where
  ssrc : Uint32 := 0
  groupid : List Uint8 := []
  streamid : List Uint8 := []

def StreamSelector.isMatch (selector : StreamSelector) (stream : StreamParams) : Bool :=
  if selector.ssrc = 0 then stream.groupid = selector.groupid && stream.id = selector.streamid
  else selector.ssrc ∈ stream.ssrcs

/-- `GetStream`. -/
def getStream (streams : List StreamParams) (selector : StreamSelector) : Option StreamParams :=
  streams.find? selector.isMatch

def getStreamBySsrc (streams : List StreamParams) (ssrc : Uint32) : Option StreamParams :=
  getStream streams { ssrc := ssrc }

/-- `GetStreamByIds`. -/
def getStreamByIds (streams : List StreamParams) (groupid id : List Uint8) : Option StreamParams :=
  getStream streams { groupid := groupid, streamid := id }

/-! ## Contents -/

/-- `MediaType`. -/
inductive MediaType where
  | audio | video | data
  deriving DecidableEq, Repr

/-- `MediaContentDirection`. -/
inductive MediaContentDirection where
  | inactive | sendonly | recvonly | sendrecv
  deriving DecidableEq, Repr

/-- `CryptoType`. -/
inductive CryptoType where
  | none | sdes | dtls
  deriving DecidableEq, Repr

/-- `SecurePolicy`. -/
inductive SecurePolicy where
  | disabled | enabled | required
  deriving DecidableEq, Repr

def kMediaProtocolAvpf : List Uint8 := text "RTP/AVPF"
/-- Secure RTP whose keys come from DTLS. -/
def kMediaProtocolDtlsSavpf : List Uint8 := text "UDP/TLS/RTP/SAVPF"
/-- Secure RTP. -/
def kMediaProtocolSavpf : List Uint8 := text "RTP/SAVPF"
def kMediaProtocolRtpPrefix : List Uint8 := text "RTP/"
/-- Data over SCTP. -/
def kMediaProtocolSctp : List Uint8 := text "SCTP"
/-- Data over SCTP over DTLS. -/
def kMediaProtocolDtlsSctp : List Uint8 := text "DTLS/SCTP"

/-- `kAutoBandwidth`. -/
abbrev kAutoBandwidth : ℤ := -1

/-- `RtpHeaderExtension`. -/
structure RtpHeaderExtension where
  uri : List Uint8
  id : ℤ
  deriving DecidableEq, Repr

/-- `MediaContentDescription`, what media contents have in common. -/
structure MediaContentDescription where
  rtcpMux : Bool := false
  bandwidth : ℤ := kAutoBandwidth
  protocol : List Uint8 := []
  cryptos : List CryptoParams := []
  cryptoRequired : CryptoType := .none
  rtpHeaderExtensions : List RtpHeaderExtension := []
  multistream : Bool := false
  streams : List StreamParams := []
  direction : MediaContentDirection := .sendrecv
  deriving DecidableEq

/-- `MediaContentDescriptionImpl`: with codecs of a type. -/
structure MediaContentDescriptionImpl (C : Type) extends MediaContentDescription where
  codecs : List C := []

/-- A description of one of the three types of media. -/
inductive ContentDescription where
  | audio (desc : MediaContentDescriptionImpl AudioCodec)
  | video (desc : MediaContentDescriptionImpl VideoCodec)
  | data (desc : MediaContentDescriptionImpl DataCodec)

namespace ContentDescription

/-- `type()`. -/
def type : ContentDescription → MediaType
  | .audio _ => .audio
  | .video _ => .video
  | .data _ => .data

def media : ContentDescription → MediaContentDescription
  | .audio desc => desc.toMediaContentDescription
  | .video desc => desc.toMediaContentDescription
  | .data desc => desc.toMediaContentDescription

def setCryptos (cryptos : List CryptoParams) : ContentDescription → ContentDescription
  | .audio desc => .audio { desc with cryptos := cryptos }
  | .video desc => .video { desc with cryptos := cryptos }
  | .data desc => .data { desc with cryptos := cryptos }

end ContentDescription

/-- `NS_JINGLE_RTP`. -/
def nsJingleRtp : List Uint8 := text "urn:xmpp:jingle:apps:rtp:1"
def nsJingleDraftSctp : List Uint8 := text "google:jingle:sctp"

/-- `ContentInfo`; a description may be `NULL`. -/
structure ContentInfo where
  name : List Uint8
  type : List Uint8
  rejected : Bool := false
  description : Option ContentDescription

/-- `IsMediaContent`. -/
def isMediaContent (content : ContentInfo) : Bool :=
  content.type = nsJingleRtp || content.type = nsJingleDraftSctp

def isMediaContentOfType (mediaType : MediaType) (content : ContentInfo) : Bool :=
  isMediaContent content && content.description.any fun desc => desc.type = mediaType

/-! ## Sessions -/

/-- `TransportInfo`. -/
structure TransportInfo where
  contentName : List Uint8
  description : TransportDescription

def secure (desc : TransportDescription) : Bool := desc.identityFingerprint.isSome

/-- `ContentGroup`: its semantics, and its content names without repetition. -/
structure ContentGroup where
  semantics : List Uint8
  contentNames : List (List Uint8) := []
  nodup : contentNames.Nodup := by decide

def ContentGroup.addContentName (group : ContentGroup) (name : List Uint8) : ContentGroup :=
  if h : group.contentNames.contains name = true then group
  else
    { group with
      contentNames := group.contentNames ++ [name]
      nodup := List.nodup_append.mpr ⟨group.nodup, List.nodup_singleton name, fun _ ha _ hb heq =>
        h (List.contains_iff_mem.mpr (List.mem_singleton.mp hb ▸ heq ▸ ha))⟩ }

/-- `SessionDescription`. -/
structure SessionDescription where
  contents : List ContentInfo := []
  transportInfos : List TransportInfo := []
  contentGroups : List ContentGroup := []

namespace SessionDescription

def getContentByName (sdesc : SessionDescription) (name : List Uint8) : Option ContentInfo :=
  sdesc.contents.find? fun content => content.name = name

def getTransportInfoByName (sdesc : SessionDescription) (name : List Uint8) : Option TransportInfo :=
  sdesc.transportInfos.find? fun info => info.contentName = name

/-- `AddContent`. -/
def addContent (sdesc : SessionDescription) (content : ContentInfo) : SessionDescription :=
  { sdesc with contents := sdesc.contents ++ [content] }

def addTransportInfo (sdesc : SessionDescription) (info : TransportInfo) : Bool × SessionDescription :=
  if (sdesc.getTransportInfoByName info.contentName).isSome then (false, sdesc)
  else (true, { sdesc with transportInfos := sdesc.transportInfos ++ [info] })

/-- `GetGroupByName`. -/
def getGroupByName (sdesc : SessionDescription) (name : List Uint8) : Option ContentGroup :=
  sdesc.contentGroups.find? fun group => group.semantics = name

def getFirstMediaContent (sdesc : SessionDescription) (mediaType : MediaType) : Option ContentInfo :=
  sdesc.contents.find? (isMediaContentOfType mediaType)

end SessionDescription

end Libjingle.Media
