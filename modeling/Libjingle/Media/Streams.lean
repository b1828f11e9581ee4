import Libjingle.Lib.Supply
import Libjingle.Media.PayloadTypes

/-!
# The streams of a description (`session/media/mediasession.cc`)

The ids are a supply, so that a description can be made again with other ids.
-/

namespace Libjingle.Media

/-! ## Random values -/

/-- Why no description is made: `NULL`, no more random values, or undefined behaviour. -/
inductive Stop where
  | null | unfinished | undefined
  deriving DecidableEq, Repr

/-- The ids and strings to come; the generator may fail. -/
structure Random where
  ids : List Uint32
  strings : List (Option (List Uint8))
  deriving DecidableEq, Repr

instance : Lib.Supply Random Uint32 where
  withSupply random ids := { random with ids := ids }

abbrev Gen := StateT Random (Except Stop)

def firstAccepted (accepts : Uint32 → Bool) : List Uint32 → Except Stop (Uint32 × List Uint32)
  | [] => .error .unfinished
  | id :: ids => if id ≠ 0 ∧ accepts id = true then .ok (id, ids) else firstAccepted accepts ids

/-- `CreateRandomNonZeroId`, until an id is accepted. -/
def drawId (accepts : Uint32 → Bool) : Gen Uint32 := fun random =>
  (firstAccepted accepts random.ids).map fun r => (r.1, { random with ids := r.2 })

def createRandomString : Gen (Option (List Uint8)) := fun random =>
  match random.strings with
  | [] => .error .unfinished
  | s :: strings => .ok (s, { random with strings := strings })

/-! ## The functions -/

/-- `MediaSessionOptions::Stream`. -/
structure Stream where
  type : MediaType
  id : List Uint8
  syncLabel : List Uint8 := []
  numSimLayers : ℤ := 1
  deriving DecidableEq, Repr

/-- `kMaxSctpSid`. -/
abbrev kMaxSctpSid : ℕ := 1023

/-- `GenerateSsrcs`: new ones, one after the other. -/
def generateSsrcs (params : List StreamParams) : (n : ℕ) → (ssrcs : List Uint32) → Gen (List Uint32)
  | 0, ssrcs => pure ssrcs
  | n + 1, ssrcs => do
    let candidate ← drawId fun id => (getStreamBySsrc params id).isNone && !ssrcs.contains id
    generateSsrcs params n (ssrcs ++ [candidate])

/-- `GenerateSctpSids`: at most one. -/
def generateSctpSids (params : List StreamParams) (sids : List Uint32) : Gen (List Uint32) :=
  if params.length > kMaxSctpSid then pure sids
  else do
    let id ← drawId fun id => (getStreamBySsrc params (id % BitVec.ofNat 32 kMaxSctpSid)).isNone
    pure (sids ++ [id % BitVec.ofNat 32 kMaxSctpSid])

/-- The first string that is no `cname` yet. -/
def firstUnused (params : List StreamParams) :
    List (Option (List Uint8)) → Except Stop (List Uint8 × List (Option (List Uint8)))
  | [] => .error .unfinished
  | none :: _ => .error .null
  | some s :: strings =>
    if params.any fun p => p.cname = s then firstUnused params strings else .ok (s, strings)

/-- `GenerateCname`: that of the label, or a new one. -/
def generateCname (params : List StreamParams) (streams : List Stream) (syncLabel : List Uint8) : Gen (List Uint8) :=
  match (streams.filter fun s => s.syncLabel = syncLabel).findSome? fun s => getStreamByIds params [] s.id with
  | some param => pure param.cname
  | none => fun random =>
    (firstUnused params random.strings).map fun r => (r.1, { random with strings := r.2 })

/-- `IsSctp`. -/
def isSctp (desc : MediaContentDescription) : Bool :=
  desc.protocol = kMediaProtocolSctp || desc.protocol = kMediaProtocolDtlsSctp

def generateIds (current : List StreamParams) (sctp : Bool) (n : ℕ) : Gen (List Uint32) :=
  if sctp then generateSctpSids current [] else generateSsrcs current n []

def addLegacyStream (current : List StreamParams) (rtx sctp : Bool) : Gen StreamParams := do
  let ssrcs ← generateIds current sctp (if rtx then 2 else 1)
  match ssrcs, rtx with
  | ssrc :: fidSsrc :: _, true => pure ((createLegacy ssrc).addFidSsrc ssrc fidSsrc)
  | ssrc :: _, false => pure (createLegacy ssrc)
  | _, _ => throw .undefined

def newStream (current : List StreamParams) (streams : List Stream) (rtx sctp : Bool) (stream : Stream) :
    Gen StreamParams := do
  let cname ← generateCname current streams stream.syncLabel
  let ssrcs ← generateIds current sctp stream.numSimLayers.toNat
  let param : StreamParams :=
    { id := stream.id
      ssrcs := ssrcs
      ssrcGroups := if stream.numSimLayers > 1 then [⟨kSimSsrcGroupSemantics, ssrcs⟩] else []
      cname := cname
      syncLabel := stream.syncLabel }
  if rtx then do
    let rtxSsrc ← generateSsrcs current 1 []
    match ssrcs, rtxSsrc with
    | ssrc :: _, fidSsrc :: _ => pure (param.addFidSsrc ssrc fidSsrc)
    | _, _ => throw .undefined
  else pure param

def addStreams (mediaType : MediaType) (streams : List Stream) (rtx sctp : Bool) :
    List Stream → (current : List StreamParams) → Gen (List StreamParams × List StreamParams)
  | [], current => pure ([], current)
  | stream :: rest, current =>
    if stream.type ≠ mediaType then addStreams mediaType streams rtx sctp rest current
    else
      match getStreamByIds current [] stream.id with
      | some param => do
        let added ← addStreams mediaType streams rtx sctp rest current
        pure (param :: added.1, added.2)
      | none => do
        let param ← newStream current streams rtx sctp stream
        let added ← addStreams mediaType streams rtx sctp rest (current ++ [param])
        pure (param :: added.1, added.2)

def addsNew (mediaType : MediaType) (streams : List Stream) (current : List StreamParams) : Bool :=
  streams.any fun s => s.type = mediaType && (getStreamByIds current [] s.id).isNone

/-- `AddStreamParams`. -/
def addStreamParams {C : Type} [MediaCodec C] (mediaType : MediaType) (streams : List Stream)
    (current : List StreamParams) (desc : MediaContentDescriptionImpl C) (addLegacy : Bool) :
    Gen (MediaContentDescriptionImpl C × List StreamParams) :=
  let rtx := containsRtxCodec desc.codecs
  let sctp := isSctp desc.toMediaContentDescription
  if streams = [] ∧ addLegacy = true then do
    let param ← addLegacyStream current rtx sctp
    pure ({ desc with streams := desc.streams ++ [param], multistream := desc.multistream || rtx }, current)
  else do
    let added ← addStreams mediaType streams rtx sctp streams current
    pure ({ desc with
      streams := desc.streams ++ added.1
      multistream := desc.multistream || (rtx && addsNew mediaType streams current) }, added.2)

end Libjingle.Media
