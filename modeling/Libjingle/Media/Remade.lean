import Libjingle.Media.Made
import Libjingle.Media.Redraws

/-!
# Descriptions made again, with other ids

Main result: **`create_steps`**.
-/

variable {sdesc' sdesc : SessionDescription} {content : ContentInfo} {extensions : List RtpHeaderExtension}

namespace Libjingle.Media

open Lib
open Srtp (CryptoParams)
open MediaCodec MediaSessionDescriptionFactory

/-! ## The streams of a content -/

/-- What matters of a content: its type, RTX, and SCTP. -/
structure Part where
  type : MediaType
  rtx : Bool
  sctp : Bool

def addedStreams (streams : List Stream) (addLegacy : Bool) (part : Part) (known : List StreamParams) :
    Gen (List StreamParams × List StreamParams) :=
  if streams = [] ∧ addLegacy = true then do
    let param ← addLegacyStream known part.rtx part.sctp
    pure ([param], known)
  else addStreams part.type streams part.rtx part.sctp streams known

theorem addedStreams_replays {known known' : List StreamParams} (h : List.Forall₂ Shrunk known known')
    (streams : List Stream) (addLegacy : Bool) (part : Part) :
    Replays (addedStreams streams addLegacy part known) (addedStreams streams addLegacy part known')
      fun added added' => List.Forall₂ Shrunk added.2 added'.2 := by
  rw [addedStreams, addedStreams]
  split_ifs
  · exact .bind (addLegacyStream_replays h _ _) fun _ _ _ => .pure h
  · exact addStreams_replays h _ _ _ _ _

theorem addsNew_shrunk {known known' : List StreamParams} (h : List.Forall₂ Shrunk known known')
    (mediaType : MediaType) (streams : List Stream) :
    addsNew mediaType streams known' = addsNew mediaType streams known := by
  refine congrArg (fun p => streams.any p) (funext fun s => ?_)
  have hrel := getStreamByIds_shrunk h [] s.id
  generalize getStreamByIds known [] s.id = found at hrel ⊢
  generalize getStreamByIds known' [] s.id = found' at hrel ⊢
  cases hrel <;> rfl

section Contents

variable {C : Type} [MediaCodec C]

theorem addStreamParams_eq (streams : List Stream) (known : List StreamParams) (addLegacy : Bool) {part : Part}
    {desc : MediaContentDescriptionImpl C} (hrtx : containsRtxCodec desc.codecs = part.rtx)
    (hsctp : isSctp desc.toMediaContentDescription = part.sctp) :
    addStreamParams part.type streams known desc addLegacy = addedStreams streams addLegacy part known >>= fun added =>
      pure ({ desc with
        streams := desc.streams ++ added.1
        multistream := desc.multistream || (part.rtx &&
          (decide (streams = [] ∧ addLegacy = true) || addsNew part.type streams known)) }, added.2) := by
  rw [addStreamParams, addedStreams, hrtx, hsctp]
  split_ifs with hlegacy
  · rw [bind_assoc, decide_eq_true hlegacy]
    simp only [pure_bind, Bool.true_or, Bool.and_true]
  · rw [decide_eq_false hlegacy]
    rfl

/-- The descriptions differ in related streams only. -/
def SameBut (R : List StreamParams × List StreamParams → List StreamParams × List StreamParams → Prop)
    (made made' : MediaContentDescriptionImpl C × List StreamParams) : Prop :=
  ∃ streams, made'.1 = { made.1 with streams := streams } ∧ R (made.1.streams, made.2) (streams, made'.2)

variable {known known' : List StreamParams} (h : List.Forall₂ Shrunk known known') {options : MediaSessionOptions}
  {codecs : List C} {policy : SecurePolicy} {cryptos : Option (List CryptoParams)} {extensions : List RtpHeaderExtension}
  {addLegacy : Bool} {part : Part} {offer : MediaContentDescriptionImpl C}
  {R : List StreamParams × List StreamParams → List StreamParams × List StreamParams → Prop}
  (hadded : Replays (addedStreams options.streams addLegacy part known)
    (addedStreams options.streams addLegacy part known') R)
include h hadded

theorem addStreamParams_replays {desc : MediaContentDescriptionImpl C} (hstreams : desc.streams = [])
    (hrtx : containsRtxCodec desc.codecs = part.rtx) (hsctp : isSctp desc.toMediaContentDescription = part.sctp) :
    Replays (addStreamParams part.type options.streams known desc addLegacy)
      (addStreamParams part.type options.streams known' desc addLegacy)
      fun made made' => SameBut R made made' ∧ made.1.protocol = desc.protocol := by
  rw [addStreamParams_eq _ _ _ hrtx hsctp, addStreamParams_eq _ _ _ hrtx hsctp, hstreams, addsNew_shrunk h]
  exact .bind hadded fun _ _ hR => .pure ⟨⟨_, rfl, hR⟩, rfl⟩

omit h hadded in
theorem containsRtxCodec_sortCodecs (codecs : List C) : containsRtxCodec (sortCodecs codecs) = containsRtxCodec codecs :=
  (List.perm_insertionSort _ codecs).any_eq

theorem createMediaContentOffer_replays {suites : List (List Uint8)} (hstreams : offer.streams = [])
    (hrtx : containsRtxCodec codecs = part.rtx) (hsctp : isSctp offer.toMediaContentDescription = part.sctp) :
    Replays (createMediaContentOffer part.type options codecs policy cryptos suites extensions addLegacy known offer)
      (createMediaContentOffer part.type options codecs policy cryptos suites extensions addLegacy known' offer)
      fun made made' => SameBut R made made' ∧ made.1.protocol = offer.protocol := by
  refine .bind (addStreamParams_replays h hadded hstreams ((containsRtxCodec_sortCodecs codecs).trans hrtx) hsctp) ?_
  rintro ⟨made, known₁⟩ ⟨_, known₁'⟩ ⟨⟨streams, rfl, hR⟩, hprotocol⟩
  refine .bind (keepsSupply_offeredCryptos policy cryptos suites).replays ?_
  rintro cryptos₁ _ rfl
  split_ifs
  · exact .throw _ _
  · exact .pure ⟨⟨streams, rfl, hR⟩, hprotocol⟩

theorem createMediaContentAnswer_replays {bundle : Bool}
    (hrtx : containsRtxCodec (negotiateCodecs codecs offer.codecs) = part.rtx)
    (hsctp : isSctp offer.toMediaContentDescription = part.sctp) :
    Replays
      (createMediaContentAnswer part.type offer options codecs policy cryptos extensions known addLegacy bundle)
      (createMediaContentAnswer part.type offer options codecs policy cryptos extensions known' addLegacy bundle)
      fun made made' => SameBut R made made' ∧ made.1.protocol = offer.protocol := by
  refine .bind (keepsSupply_answeredCryptos _ _ _ _ _).replays ?_
  rintro cryptos₁ _ rfl
  split_ifs
  · exact .throw _ _
  · refine .bind (addStreamParams_replays h hadded rfl ((containsRtxCodec_sortCodecs _).trans hrtx) hsctp) ?_
    rintro ⟨made, known₁⟩ ⟨_, known₁'⟩ ⟨⟨streams, rfl, hR⟩, hprotocol⟩
    exact .pure ⟨⟨streams, rfl, hR⟩, hprotocol⟩

end Contents

/-! ## Descriptions without their streams -/

def ContentDescription.withoutStreams : ContentDescription → ContentDescription
  | .audio desc => .audio { desc with streams := [] }
  | .video desc => .video { desc with streams := [] }
  | .data desc => .data { desc with streams := [] }

def ContentInfo.withoutStreams (content : ContentInfo) : ContentInfo :=
  { content with description := content.description.map ContentDescription.withoutStreams }

def SessionDescription.withoutStreams (sdesc : SessionDescription) : SessionDescription :=
  { sdesc with contents := sdesc.contents.map ContentInfo.withoutStreams }

def Alike (sdesc sdesc' : SessionDescription) : Prop := sdesc'.withoutStreams = sdesc.withoutStreams

section Bundles

variable (sdesc : SessionDescription) (name : List Uint8) (group : ContentGroup)

theorem getContentByName_withoutStreams : sdesc.withoutStreams.getContentByName name =
    (sdesc.getContentByName name).map ContentInfo.withoutStreams := by
  rw [SessionDescription.getContentByName, SessionDescription.withoutStreams, List.find?_map]
  rfl

theorem isRtpContent_withoutStreams : isRtpContent sdesc.withoutStreams name = isRtpContent sdesc name := by
  rw [isRtpContent, isRtpContent, getContentByName_withoutStreams]
  rcases sdesc.getContentByName name with _ | ⟨name, type, rejected, _ | (desc | desc | desc)⟩ <;> rfl

theorem getCryptosByName_withoutStreams : getCryptosByName sdesc.withoutStreams name = getCryptosByName sdesc name := by
  rw [getCryptosByName, getCryptosByName, getContentByName_withoutStreams]
  rcases sdesc.getContentByName name with _ | ⟨name, type, rejected, _ | (desc | desc | desc)⟩ <;> rfl

theorem commonCryptos_withoutStreams (first needed : Bool) (names : List (List Uint8)) (common : List CryptoParams) :
    commonCryptos sdesc.withoutStreams first names needed common = commonCryptos sdesc first names needed common := by
  have htransport : ∀ name, sdesc.withoutStreams.getTransportInfoByName name = sdesc.getTransportInfoByName name :=
    fun _ => rfl
  induction names generalizing first needed common with
  | nil => rfl
  | cons name names ih =>
    simp only [commonCryptos, isRtpContent_withoutStreams, getCryptosByName_withoutStreams, htransport, ih]

theorem setCryptos_withoutStreams (common : List CryptoParams) (contents : List ContentInfo) :
    setCryptos name common (contents.map ContentInfo.withoutStreams) =
      (setCryptos name common contents).map ContentInfo.withoutStreams := by
  induction contents with
  | nil => rfl
  | cons content contents ih =>
    rw [List.map_cons, setCryptos, setCryptos]
    have hname : content.withoutStreams.name = content.name := rfl
    rw [hname]
    split_ifs
    · rcases content with ⟨name, type, rejected, _ | (desc | desc | desc)⟩ <;> rfl
    · rw [List.map_cons, ih]

theorem setCommonCryptos_withoutStreams (common : List CryptoParams) (names : List (List Uint8)) :
    setCommonCryptos common names sdesc.withoutStreams =
      ((setCommonCryptos common names sdesc).1, (setCommonCryptos common names sdesc).2.withoutStreams) := by
  induction names generalizing sdesc with
  | nil => rfl
  | cons name names ih =>
    rw [setCommonCryptos, setCommonCryptos, isRtpContent_withoutStreams, getContentByName_withoutStreams]
    split_ifs
    · exact ih sdesc
    · cases sdesc.getContentByName name with
      | none => exact ih sdesc
      | some content =>
        have hmedia : isMediaContent content.withoutStreams = isMediaContent content := rfl
        have hnone : content.withoutStreams.description.isNone = content.description.isNone := Option.isNone_map
        simp only [Option.map_some, hmedia, hnone]
        split_ifs
        · exact ih sdesc
        · rfl
        · rw [← ih]
          refine congrArg (setCommonCryptos common names) ?_
          exact congrArg (fun contents => { sdesc with contents := contents }) (setCryptos_withoutStreams _ _ _)

theorem updateCryptoParamsForBundle_withoutStreams : updateCryptoParamsForBundle group sdesc.withoutStreams =
    (updateCryptoParamsForBundle group sdesc).map fun r => (r.1, r.2.withoutStreams) := by
  rw [updateCryptoParamsForBundle, updateCryptoParamsForBundle, commonCryptos_withoutStreams]
  split_ifs
  · rfl
  · cases commonCryptos sdesc true group.contentNames false [] with
    | crash => rfl
    | returned result => rfl
    | done needed common =>
      dsimp only
      split_ifs
      · rfl
      · exact congrArg some (setCommonCryptos_withoutStreams _ _ _)

theorem updateTransportInfoForBundle_withoutStreams : updateTransportInfoForBundle group sdesc.withoutStreams =
    ((updateTransportInfoForBundle group sdesc).1, (updateTransportInfoForBundle group sdesc).2.withoutStreams) := by
  have htransport : ∀ name, sdesc.withoutStreams.getTransportInfoByName name = sdesc.getTransportInfoByName name :=
    fun _ => rfl
  rw [updateTransportInfoForBundle, updateTransportInfoForBundle]
  cases group.contentNames with
  | nil => rfl
  | cons selected names =>
    simp only [htransport]
    cases sdesc.getTransportInfoByName selected <;> rfl

theorem addBundle_withoutStreams (random : Random) : addBundle group sdesc.withoutStreams random =
    (addBundle group sdesc random).map fun r => (r.1.withoutStreams, r.2) := by
  have hadd : ({ sdesc.withoutStreams with contentGroups := sdesc.withoutStreams.contentGroups ++ [group] } :
      SessionDescription) =
        ({ sdesc with contentGroups := sdesc.contentGroups ++ [group] } : SessionDescription).withoutStreams := rfl
  rw [addBundle, addBundle, hadd, updateTransportInfoForBundle_withoutStreams]
  dsimp only
  rw [updateCryptoParamsForBundle_withoutStreams]
  split_ifs
  · rfl
  · rcases updateCryptoParamsForBundle group (updateTransportInfoForBundle group
      { sdesc with contentGroups := sdesc.contentGroups ++ [group] }).2 with _ | ⟨_ | _, sdesc₁⟩ <;> rfl

theorem addBundle_const : ∃ result : Except Stop SessionDescription,
    ∀ random, addBundle group sdesc random = result.map fun sdesc => (sdesc, random) := by
  unfold addBundle
  split_ifs
  · exact ⟨.error .null, fun _ => rfl⟩
  · rcases updateCryptoParamsForBundle group (updateTransportInfoForBundle group
      { sdesc with contentGroups := sdesc.contentGroups ++ [group] }).2 with _ | ⟨_ | _, sdesc₁⟩
    · exact ⟨.error .undefined, fun _ => rfl⟩
    · exact ⟨.error .null, fun _ => rfl⟩
    · exact ⟨.ok sdesc₁, fun _ => rfl⟩

end Bundles

theorem addBundle_replays (halike : Alike sdesc sdesc') (group : ContentGroup) :
    Replays (addBundle group sdesc) (addBundle group sdesc') fun made made' =>
      made.contents.map bare = sdesc.contents.map bare ∧ made'.contents.map bare = sdesc'.contents.map bare := by
  intro s made s' h
  obtain ⟨result, hresult⟩ := addBundle_const sdesc group
  obtain ⟨result', hresult'⟩ := addBundle_const sdesc' group
  have heq := addBundle_withoutStreams sdesc group s
  have heq' := addBundle_withoutStreams sdesc' group s
  rw [halike, heq, h, hresult'] at heq'
  have hcontents := addBundle_contents h
  rw [hresult] at h
  cases result with
  | error e => cases h
  | ok made₁ =>
    obtain ⟨rfl, rfl⟩ := Prod.mk.inj (Except.ok.inj h)
    cases result' with
    | error e => cases heq'
    | ok made' =>
      exact ⟨[], made', ⟨hcontents, addBundle_contents (hresult' s)⟩, fun rest => hresult' _⟩

/-! ## Parts of a session -/

section Parts

variable {C : Type} {f : MediaSessionDescriptionFactory} {options : MediaSessionOptions}
  {current : Option SessionDescription}

def Adds (part : Part) (sdesc sdesc' : SessionDescription) (streams : List StreamParams) : Prop :=
  ∃ content desc, sdesc'.contents = sdesc.contents ++ [content] ∧ content.description = some desc ∧
    desc.type = part.type ∧ isSctp desc.media = part.sctp ∧ desc.media.streams = streams

def Runs (f : MediaSessionDescriptionFactory) (options : MediaSessionOptions) (x : Session → Gen Session)
    (part : Part) : Prop :=
  ∀ (s s' : Session) (R : List StreamParams × List StreamParams → List StreamParams × List StreamParams → Prop),
    Alike s.1 s'.1 → List.Forall₂ Shrunk s.2 s'.2 →
    Replays (addedStreams options.streams f.addLegacy part s.2) (addedStreams options.streams f.addLegacy part s'.2) R →
    Replays (x s) (x s') fun r r' => Alike r.1 r'.1 ∧ ∃ streams streams', R (streams, r.2) (streams', r'.2) ∧
      Adds part s.1 r.1 streams ∧ Adds part s'.1 r'.1 streams'

theorem alike_iff : Alike sdesc sdesc' ↔
    sdesc'.contents.map ContentInfo.withoutStreams = sdesc.contents.map ContentInfo.withoutStreams ∧
      sdesc'.transportInfos = sdesc.transportInfos ∧ sdesc'.contentGroups = sdesc.contentGroups := by
  rw [Alike, SessionDescription.withoutStreams, SessionDescription.withoutStreams, SessionDescription.mk.injEq]

theorem Alike.addContent (h : Alike sdesc sdesc') {content' : ContentInfo}
    (hcontent : content'.withoutStreams = content.withoutStreams) :
    Alike (sdesc.addContent content) (sdesc'.addContent content') := by
  obtain ⟨hcontents, htransports, hgroups⟩ := alike_iff.mp h
  refine alike_iff.mpr ⟨?_, htransports, hgroups⟩
  rw [SessionDescription.addContent, SessionDescription.addContent, List.map_append, List.map_append, hcontents,
    List.map_singleton, List.map_singleton, hcontent]

theorem Alike.addTransportInfo (h : Alike sdesc sdesc') (info : TransportInfo) :
    (sdesc'.addTransportInfo info).1 = (sdesc.addTransportInfo info).1 ∧
      Alike (sdesc.addTransportInfo info).2 (sdesc'.addTransportInfo info).2 := by
  obtain ⟨hcontents, htransports, hgroups⟩ := alike_iff.mp h
  have hlookup : sdesc'.getTransportInfoByName info.contentName = sdesc.getTransportInfoByName info.contentName := by
    rw [SessionDescription.getTransportInfoByName, SessionDescription.getTransportInfoByName, htransports]
  rw [SessionDescription.addTransportInfo, SessionDescription.addTransportInfo, hlookup]
  split_ifs
  · exact ⟨rfl, h⟩
  · exact ⟨rfl, alike_iff.mpr ⟨hcontents, congrArg (· ++ [info]) htransports, hgroups⟩⟩

theorem addOffered_replays {offer offer' : SessionDescription} (halike : Alike offer offer')
    {content' : ContentInfo} (hcontent : content'.withoutStreams = content.withoutStreams) :
    Replays (f.addOffered options current content offer) (f.addOffered options current content' offer')
      fun r r' => Alike r r' ∧ r.contents = offer.contents ++ [content] ∧ r'.contents = offer'.contents ++ [content'] := by
  have hname : content'.name = content.name := congrArg (·.name) hcontent
  rw [addOffered, addOffered, hname]
  refine .bind (keepsSupply_createOffer _ _ _).replays ?_
  rintro desc _ rfl
  cases desc with
  | none => exact .throw _ _
  | some desc =>
    obtain ⟨hadded, halike'⟩ := (halike.addContent hcontent).addTransportInfo ⟨content.name, desc⟩
    dsimp only
    rw [hadded]
    split_ifs
    · exact .throw _ _
    · exact .pure ⟨halike', addTransportInfo_contents _ _, addTransportInfo_contents _ _⟩

def Wraps (part : Part) (protocol : List Uint8) (wrap : MediaContentDescriptionImpl C → ContentDescription) : Prop :=
  ∀ made, made.protocol = protocol → (wrap made).type = part.type ∧ isSctp (wrap made).media = part.sctp ∧
    (wrap made).media.streams = made.streams ∧
    ∀ streams, (wrap { made with streams := streams }).withoutStreams = (wrap made).withoutStreams

variable [MediaCodec C] {part : Part} {wrap : MediaContentDescriptionImpl C → ContentDescription}

theorem runs_of_offered {codecs : List C} {policy : SecurePolicy} {cryptos : Option (List CryptoParams)}
    {suites : List (List Uint8)} {offer : MediaContentDescriptionImpl C}
    (name type : List Uint8) (wrap : MediaContentDescriptionImpl C → ContentDescription)
    (hstreams : offer.streams = []) (hrtx : containsRtxCodec codecs = part.rtx)
    (hsctp : isSctp offer.toMediaContentDescription = part.sctp) (hwrap : Wraps part offer.protocol wrap) :
    Runs f options (fun s => do
      let made ← createMediaContentOffer part.type options codecs policy cryptos suites extensions f.addLegacy s.2 offer
      let offer ← f.addOffered options current ⟨name, type, false, some (wrap made.1)⟩ s.1
      pure (offer, made.2)) part := by
  intro s s' R halike hshrunk hadded
  refine .bind (createMediaContentOffer_replays hshrunk hadded hstreams hrtx hsctp) ?_
  rintro ⟨made, known⟩ ⟨_, known'⟩ ⟨⟨streams, rfl, hR⟩, hprotocol⟩
  obtain ⟨htype, hsctp, hmade, hsame⟩ := hwrap made hprotocol
  obtain ⟨htype', hsctp', hmade', -⟩ := hwrap { made with streams := streams } hprotocol
  refine .bind (addOffered_replays halike (congrArg (fun desc => (⟨name, type, false, some desc⟩ : ContentInfo))
    (hsame streams))) ?_
  rintro r r' ⟨halike', hcontents, hcontents'⟩
  exact .pure ⟨halike', made.streams, streams, hR, ⟨_, _, hcontents, rfl, htype, hsctp, hmade⟩,
    ⟨_, _, hcontents', rfl, htype', hsctp', hmade'⟩⟩

theorem runs_of_answered {has checked : Bool} {ours : List C}
    {accepted : MediaContentDescriptionImpl C → MediaContentDescriptionImpl C} {offer : SessionDescription} {offered : MediaContentDescriptionImpl C}
    (hrtx : containsRtxCodec (negotiateCodecs ours offered.codecs) = part.rtx)
    (hsctp : isSctp offered.toMediaContentDescription = part.sctp) (hwrap : Wraps part offered.protocol wrap)
    (haccepted : Wraps part offered.protocol fun made => wrap (accepted made)) :
    Runs f options (f.answerContent part.type has checked ours extensions accepted wrap options offer current content
      offered) part := by
  intro s s' R halike hshrunk hadded
  refine .bind (keepsSupply_createAnswer _ _ _ _).replays ?_
  rintro transport _ rfl
  cases transport with
  | none => exact .throw _ _
  | some transport =>
    refine .bind (createMediaContentAnswer_replays hshrunk hadded hrtx hsctp) ?_
    rintro ⟨made, known⟩ ⟨_, known'⟩ ⟨⟨streams, rfl, hR⟩, hprotocol⟩
    obtain ⟨htransport, halike'⟩ := halike.addTransportInfo ⟨content.name, transport⟩
    dsimp only
    rw [htransport]
    split_ifs
    · obtain ⟨htype, hsctp, hmade, hsame⟩ := hwrap made hprotocol
      obtain ⟨htype', hsctp', hmade', -⟩ := hwrap { made with streams := streams } hprotocol
      refine .pure ⟨halike.addContent ?_, made.streams, streams, hR, ⟨_, _, rfl, rfl, htype, hsctp, hmade⟩,
        ⟨_, _, rfl, rfl, htype', hsctp', hmade'⟩⟩
      exact congrArg (fun desc => (⟨content.name, content.type, true, some desc⟩ : ContentInfo)) (hsame streams)
    · exact .throw _ _
    · obtain ⟨htype, hsctp, hmade, hsame⟩ := haccepted made hprotocol
      obtain ⟨htype', hsctp', hmade', -⟩ := haccepted { made with streams := streams } hprotocol
      have hcontents : ∀ (sdesc : SessionDescription) (content' : ContentInfo),
          ((sdesc.addTransportInfo ⟨content.name, transport⟩).2.addContent content').contents =
            sdesc.contents ++ [content'] := fun sdesc content' => by
        rw [SessionDescription.addContent, addTransportInfo_contents]
      refine .pure ⟨halike'.addContent ?_, made.streams, streams, hR,
        ⟨_, _, hcontents _ _, rfl, htype, hsctp, hmade⟩, ⟨_, _, hcontents _ _, rfl, htype', hsctp', hmade'⟩⟩
      exact congrArg (fun desc => (⟨content.name, content.type, false, some desc⟩ : ContentInfo)) (hsame streams)

end Parts

/-! ## Both functions -/

/-- What the factory is asked for: an offer, or the answer to one. -/
inductive Request where
  | offer
  | answer (offer : SessionDescription)

namespace MediaSessionDescriptionFactory

variable (f : MediaSessionDescriptionFactory) (options : MediaSessionOptions) (current : Option SessionDescription)

/-- The offer or answer that is asked for. -/
def create : Request → Gen SessionDescription
  | .offer => f.createOffer options current
  | .answer offer => f.createAnswer offer options current

def part : Request → MediaType → Option Part
  | .offer, .audio =>
    if options.hasAudio = false then none
    else some ⟨.audio, containsRtxCodec (f.audioCodecsToOffer options current), false⟩
  | .offer, .video =>
    if options.hasVideo = false then none
    else some ⟨.video, containsRtxCodec (getCodecsToOffer f.codecs current).video, false⟩
  | .offer, .data =>
    match options.dataChannelType with
    | .none => none
    | .sctp => some ⟨.data, containsRtxCodec (filterDataCodecs (getCodecsToOffer f.codecs current).data true), true⟩
    | .rtp => some ⟨.data, containsRtxCodec (filterDataCodecs (getCodecsToOffer f.codecs current).data false), false⟩
  | .answer offer, .audio =>
    match offer.getFirstMediaContent .audio with
    | some ⟨_, _, _, some (.audio desc)⟩ => some ⟨.audio,
        containsRtxCodec (negotiateCodecs (f.audioCodecsToAnswer options) desc.codecs), isSctp desc.toMediaContentDescription⟩
    | _ => none
  | .answer offer, .video =>
    match offer.getFirstMediaContent .video with
    | some ⟨_, _, _, some (.video desc)⟩ => some ⟨.video,
        containsRtxCodec (negotiateCodecs f.codecs.video desc.codecs), isSctp desc.toMediaContentDescription⟩
    | _ => none
  | .answer offer, .data =>
    match offer.getFirstMediaContent .data with
    | some ⟨_, _, _, some (.data desc)⟩ => some ⟨.data,
        containsRtxCodec (negotiateCodecs f.codecs.data desc.codecs), isSctp desc.toMediaContentDescription⟩
    | _ => none

def parts (request : Request) : List Part := [MediaType.audio, .video, .data].filterMap (f.part options current request)

def RunsPart (x : Session → Gen Session) : Option Part → Prop
  | none => ∀ s, x s = pure s
  | some part => Runs f options x part

/-- The program may add a bundle. -/
def Finishes (finish : Session → Gen SessionDescription) : Prop :=
  ∀ s s' : Session, Alike s.1 s'.1 → Replays (finish s) (finish s') fun made made' =>
    made.contents.map bare = s.1.contents.map bare ∧ made'.contents.map bare = s'.1.contents.map bare

variable {f options current}

theorem isSctp_setMediaProtocol {C : Type} (secureTransport : Bool) (desc : MediaContentDescriptionImpl C) :
    isSctp (setMediaProtocol secureTransport desc).toMediaContentDescription = false := by
  rw [setMediaProtocol]
  split_ifs
  · rfl
  · rfl

theorem Runs.congr {x y : Session → Gen Session} {part : Part} (hy : Runs f options y part) (h : ∀ s, x s = y s) :
    Runs f options x part := (funext h : x = y) ▸ hy

theorem runsPart_offerAudio (extensions : List RtpHeaderExtension) : RunsPart f options
    (f.offerAudio options current (f.audioCodecsToOffer options current) extensions)
    (f.part options current .offer .audio) := by
  rw [part]
  split_ifs with hhas
  · exact fun s => if_pos hhas
  · refine Runs.congr (runs_of_offered cnAudio nsJingleRtp
      (fun made => .audio (setMediaProtocol (f.transportDescFactory.secure ≠ .disabled) made)) rfl rfl rfl ?_)
      fun s => if_neg hhas
    exact fun made _ => ⟨rfl, isSctp_setMediaProtocol _ _, rfl, fun _ => rfl⟩

theorem runsPart_offerVideo (extensions : List RtpHeaderExtension) : RunsPart f options
    (f.offerVideo options current (getCodecsToOffer f.codecs current).video extensions)
    (f.part options current .offer .video) := by
  rw [part]
  split_ifs with hhas
  · exact fun s => if_pos hhas
  · refine Runs.congr (runs_of_offered cnVideo nsJingleRtp (fun made => .video
      (setMediaProtocol (f.transportDescFactory.secure ≠ .disabled) { made with bandwidth := options.videoBandwidth }))
      rfl rfl rfl ?_) fun s => if_neg hhas
    exact fun made _ => ⟨rfl, isSctp_setMediaProtocol _ _, rfl, fun _ => rfl⟩

theorem isSctp_eq {desc desc' : MediaContentDescription} (h : desc.protocol = desc'.protocol) :
    isSctp desc = isSctp desc' := by
  rw [isSctp, isSctp, h]

theorem runsPart_offerData : RunsPart f options (f.offerData options current (getCodecsToOffer f.codecs current).data)
    (f.part options current .offer .data) := by
  rw [part]
  unfold offerData
  cases options.dataChannelType with
  | none => exact fun s => rfl
  | rtp =>
    refine runs_of_offered cnData nsJingleRtp (fun made => .data (setMediaProtocol
      (f.transportDescFactory.secure ≠ .disabled) { made with bandwidth := options.dataBandwidth })) rfl rfl rfl ?_
    exact fun made _ => ⟨rfl, isSctp_setMediaProtocol _ _, rfl, fun _ => rfl⟩
  | sctp =>
    have hsctp : ∀ secureTransport : Bool, isSctp { protocol :=
        if secureTransport then kMediaProtocolDtlsSctp else kMediaProtocolSctp } = true := by
      rintro (_ | _) <;> rfl
    refine runs_of_offered cnData nsJingleDraftSctp .data rfl rfl (hsctp _) ?_
    exact fun made hprotocol => ⟨rfl, (isSctp_eq hprotocol).trans (hsctp _), rfl, fun _ => rfl⟩

theorem runsPart_answerAudio (offer : SessionDescription) :
    RunsPart f options (f.answerAudio options offer current) (f.part options current (.answer offer) .audio) := by
  unfold part answerAudio
  rcases getFirstMediaContent_cases offer .audio with heq | ⟨name, type, rejected, desc | desc | desc, heq, htype⟩
  · simp only [heq]
    exact fun s => rfl
  · simp only [heq]
    exact runs_of_answered rfl rfl (fun made hprotocol => ⟨rfl, isSctp_eq hprotocol, rfl, fun _ => rfl⟩)
      fun made hprotocol => ⟨rfl, isSctp_eq hprotocol, rfl, fun _ => rfl⟩
  · cases htype
  · cases htype

theorem runsPart_answerVideo (offer : SessionDescription) :
    RunsPart f options (f.answerVideo options offer current) (f.part options current (.answer offer) .video) := by
  unfold part answerVideo
  rcases getFirstMediaContent_cases offer .video with heq | ⟨name, type, rejected, desc | desc | desc, heq, htype⟩
  · simp only [heq]
    exact fun s => rfl
  · cases htype
  · simp only [heq]
    exact runs_of_answered rfl rfl (fun made hprotocol => ⟨rfl, isSctp_eq hprotocol, rfl, fun _ => rfl⟩)
      fun made hprotocol => ⟨rfl, isSctp_eq hprotocol, rfl, fun _ => rfl⟩
  · cases htype

theorem runsPart_answerData (offer : SessionDescription) :
    RunsPart f options (f.answerData options offer current) (f.part options current (.answer offer) .data) := by
  unfold part answerData
  rcases getFirstMediaContent_cases offer .data with heq | ⟨name, type, rejected, desc | desc | desc, heq, htype⟩
  · simp only [heq]
    exact fun s => rfl
  · cases htype
  · cases htype
  · simp only [heq]
    exact runs_of_answered rfl rfl (fun made hprotocol => ⟨rfl, isSctp_eq hprotocol, rfl, fun _ => rfl⟩)
      fun made hprotocol => ⟨rfl, isSctp_eq hprotocol, rfl, fun _ => rfl⟩

theorem foldl_bundleGroup {s s' : Session} (halike : Alike s.1 s'.1) (add : ContentGroup → ContentInfo → ContentGroup)
    (hadd : ∀ group content, add group content.withoutStreams = add group content) :
    s'.1.contents.foldl add bundleGroup = s.1.contents.foldl add bundleGroup := by
  have hmap : ∀ contents : List ContentInfo, contents.foldl add bundleGroup =
      (contents.map ContentInfo.withoutStreams).foldl add bundleGroup := fun contents => by
    rw [List.foldl_map]
    simp only [hadd]
  rw [hmap, hmap s.1.contents, (alike_iff.mp halike).1]

/-- **A description is made part by part**. -/
theorem create_steps (request : Request) : ∃ (x y z : Session → Gen Session) (finish : Session → Gen SessionDescription),
    f.create options current request = (do
      let s ← x ({}, getCurrentStreamParams current)
      let s ← y s
      let s ← z s
      finish s) ∧
    RunsPart f options x (f.part options current request .audio) ∧
      RunsPart f options y (f.part options current request .video) ∧
      RunsPart f options z (f.part options current request .data) ∧ Finishes finish := by
  cases request with
  | offer =>
    refine ⟨_, _, _, _, rfl, runsPart_offerAudio _, runsPart_offerVideo _, runsPart_offerData, ?_⟩
    intro s s' halike
    dsimp only
    rw [foldl_bundleGroup halike _ fun _ _ => rfl]
    split_ifs
    · exact addBundle_replays halike _
    · exact .pure ⟨rfl, rfl⟩
  | answer offer =>
    refine ⟨_, _, _, _, rfl, runsPart_answerAudio offer, runsPart_answerVideo offer, runsPart_answerData offer, ?_⟩
    intro s s' halike
    dsimp only
    split
    · rw [foldl_bundleGroup halike _ fun _ _ => rfl]
      split_ifs
      · exact .pure ⟨rfl, rfl⟩
      · exact addBundle_replays halike _
    · exact .pure ⟨rfl, rfl⟩

/-! ### The induction over the parts -/

section Induction

variable {request : Request} {known : List StreamParams} {Rel : List Part → Session → Session → Prop}

/-- What a part of `request` does to related sessions. -/
def StepsTo (f : MediaSessionDescriptionFactory) (options : MediaSessionOptions) (parts : List Part)
    (Rel : List Part → Session → Session → Prop) : Prop :=
  ∀ (done rest : List Part) (part : Part) (s s' : Session), parts = done ++ part :: rest → Rel done s s' →
    Replays (addedStreams options.streams f.addLegacy part s.2) (addedStreams options.streams f.addLegacy part s'.2)
      fun added added' => ∀ r r' : Session, Alike r.1 r'.1 → r.2 = added.2 → r'.2 = added'.2 →
        Adds part s.1 r.1 added.1 → Adds part s'.1 r'.1 added'.1 → Rel (done ++ [part]) r r'

theorem RunsPart.steps {x : Session → Gen Session} {found : Option Part} (hx : RunsPart f options x found)
    {parts done rest : List Part} (hparts : parts = (done ++ found.toList) ++ rest)
    (hrel : ∀ done s s', Rel done s s' → Alike s.1 s'.1 ∧ List.Forall₂ Shrunk s.2 s'.2)
    (hstep : StepsTo f options parts Rel) {s s' : Session} (h : Rel done s s') :
    Replays (x s) (x s') (Rel (done ++ found.toList)) := by
  cases found with
  | none =>
    rw [hx s, hx s', Option.toList_none, List.append_nil]
    exact .pure h
  | some part =>
    rw [Option.toList_some, List.append_assoc] at hparts
    refine (hx s s' _ (hrel _ s s' h).1 (hrel _ s s' h).2 (hstep done rest part s s' hparts h)).mono ?_
    rintro r r' ⟨halike, streams, streams', hrel', hadds, hadds'⟩
    exact hrel' r r' halike rfl rfl hadds hadds'

theorem create_replays (hrel : ∀ done s s', Rel done s s' → Alike s.1 s'.1 ∧ List.Forall₂ Shrunk s.2 s'.2)
    (hstart : Rel [] ({}, getCurrentStreamParams current) ({}, getCurrentStreamParams current))
    (hstep : StepsTo f options (f.parts options current request) Rel) :
    Replays (f.create options current request) (f.create options current request) fun made made' =>
      ∃ s s', Rel (f.parts options current request) s s' ∧ made.contents.map bare = s.1.contents.map bare ∧
        made'.contents.map bare = s'.1.contents.map bare := by
  obtain ⟨x, y, z, finish, hcreate, hx, hy, hz, hfinish⟩ := @create_steps f options current request
  have hparts : f.parts options current request = (([] ++ (f.part options current request .audio).toList) ++
      (f.part options current request .video).toList) ++ (f.part options current request .data).toList := by
    simp only [parts, List.filterMap_cons, List.filterMap_nil]
    cases f.part options current request .audio <;> cases f.part options current request .video <;>
      cases f.part options current request .data <;> rfl
  rw [hcreate]
  refine .bind (hx.steps (by rw [hparts, List.append_assoc]) hrel hstep hstart) fun s s' h => ?_
  refine .bind (hy.steps hparts hrel hstep h) fun s s' h => ?_
  refine .bind (hz.steps (hparts.trans (List.append_nil _).symm) hrel hstep h) fun s s' h => ?_
  rw [← hparts] at h
  exact (hfinish s s' (hrel _ s s' h).1).mono fun made made' hmade => ⟨s, s', h, hmade⟩

theorem create_induction {Inv : List Part → Session → Prop} {random random' : Random} {made : SessionDescription}
    (h : f.create options current request random = .ok (made, random'))
    (hstart : Inv [] ({}, getCurrentStreamParams current))
    (hstep : ∀ (done rest : List Part) (part : Part) (s s' : Session) (streams : List StreamParams)
      (random random' : Random), f.parts options current request = done ++ part :: rest → Inv done s →
      addedStreams options.streams f.addLegacy part s.2 random = .ok ((streams, s'.2), random') →
      Adds part s.1 s'.1 streams → Inv (done ++ [part]) s') :
    ∃ s, Inv (f.parts options current request) s ∧ made.contents.map bare = s.1.contents.map bare := by
  have hreplays := @create_replays f options current request
    (fun done s s' => Inv done s ∧ Alike s.1 s'.1 ∧ List.Forall₂ Shrunk s.2 s'.2) (fun _ _ _ h => h.2)
    ⟨hstart, rfl, forall₂_shrunk_refl _⟩ fun done rest part s s' hparts hs => by
      refine (addedStreams_replays hs.2.2 options.streams f.addLegacy part).reached.mono ?_
      rintro ⟨streams, known⟩ ⟨streams', known'⟩ ⟨hshrunk, random, random', hrun⟩ ⟨r, _⟩ ⟨r', _⟩ halike rfl rfl hadds -
      exact ⟨hstep done rest part s _ streams random random' hparts hs.1 hrun hadds, halike, hshrunk⟩
  obtain ⟨drawn, made', ⟨s, s', hs, hmade, -⟩, -⟩ := hreplays random made random' h
  exact ⟨s, hs.1, hmade⟩

end Induction

end MediaSessionDescriptionFactory

end Libjingle.Media
