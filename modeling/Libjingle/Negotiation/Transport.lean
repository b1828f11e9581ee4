import Libjingle.P2P.Channel

/-!
# Transport descriptions (`p2p/base/transport.cc`, `p2p/base/dtlstransport.h`)

A transport keeps the description of each side, sets it on its channels, and negotiates the two when an
answer is set.
-/

namespace Libjingle.Negotiation

open P2P

/-! ## Descriptions (`p2p/base/transportdescription.h`) -/

/-- `ConnectionRole`, who opens the connection. -/
inductive ConnectionRole where
  | none | active | passive | actpass | holdconn
  deriving DecidableEq, Repr

/-- `ContentAction`, the step of the negotiation that a description belongs to. -/
inductive ContentAction where
  | offer | pranswer | answer | update
  deriving DecidableEq, Repr

/-- `talk_base::SSLRole`. -/
inductive SSLRole where
  | client | server
  deriving DecidableEq, Repr

/-- `talk_base::SSLFingerprint`: a digest and its algorithm. -/
structure SSLFingerprint where
  algorithm : List Uint8
  digest : List Uint8
  deriving DecidableEq, Repr

/-- `TransportDescription`: what the two ends tell each other about one transport. -/
structure TransportDescription where
  transportType : List Uint8
  transportOptions : List (List Uint8)
  iceUfrag : List Uint8
  icePwd : List Uint8
  iceMode : IceMode
  connectionRole : ConnectionRole
  identityFingerprint : Option SSLFingerprint
  deriving DecidableEq

/-- `NS_JINGLE_ICE_UDP`, the transport type of RFC 5245. -/
def nsJingleIceUdp : List Uint8 := text "urn:xmpp:jingle:transports:ice-udp:1"
def iceOptionGice : List Uint8 := text "google-ice"

def TransportDescription.hasOption (desc : TransportDescription) (option : List Uint8) : Bool :=
  desc.transportOptions.contains option

def transportProtocolFromDescription (desc : TransportDescription) : IceProtocolType :=
  if desc.transportType = nsJingleIceUdp then
    if desc.hasOption iceOptionGice then .hybrid else .rfc5245
  else .google

def iceProtoToString : IceProtocolType → List Uint8
  | .google => text "gice"
  | .hybrid => text "hybrid"
  | .rfc5245 => text "ice"

/-- The upper-case digit of a value below 16. -/
def upperHexDigit (val : ℕ) : Uint8 := BitVec.ofNat 8 (if val < 10 then 0x30 + val else 0x41 + (val - 10))

namespace SSLFingerprint

def getRfc4572Fingerprint (fp : SSLFingerprint) : List Uint8 :=
  ((fp.digest.map fun b => [upperHexDigit (b.toNat / 16), upperHexDigit (b.toNat % 16)]).intersperse
    [0x3A]).flatten

def toString (fp : SSLFingerprint) : List Uint8 := fp.algorithm ++ text " " ++ fp.getRfc4572Fingerprint

end SSLFingerprint

/-! ## Channels -/

/-- The part of `TransportChannelImpl` that a transport uses. -/
class TransportChannelImpl (χ : Type) where
  getIceProtocolType : χ → Option IceProtocolType
  setIceProtocolType : χ → IceProtocolType → χ
  setIceCredentials : χ → List Uint8 → List Uint8 → χ
  setRemoteIceCredentials : χ → List Uint8 → List Uint8 → χ
  setRemoteIceMode : χ → IceMode → χ
  setIceRole : χ → IceRole → χ

open TransportChannelImpl

instance : TransportChannelImpl P2PTransportChannel where
  getIceProtocolType ch := some ch.protocolType
  setIceProtocolType := P2PTransportChannel.setIceProtocolType
  setIceCredentials := P2PTransportChannel.setIceCredentials
  setRemoteIceCredentials := P2PTransportChannel.setRemoteIceCredentials
  setRemoteIceMode := P2PTransportChannel.setRemoteIceMode
  setIceRole := P2PTransportChannel.setIceRole

structure RawTransportChannel where

instance : TransportChannelImpl RawTransportChannel where
  getIceProtocolType _ := none
  setIceProtocolType ch _ := ch
  setIceCredentials ch _ _ := ch
  setRemoteIceCredentials ch _ _ := ch
  setRemoteIceMode ch _ := ch
  setIceRole ch _ := ch

/-- `DtlsTransportChannelWrapper::State`. -/
inductive DtlsState where
  | none | offered | accepted | started | open | closed
  deriving DecidableEq, Repr

def DtlsState.toNat : DtlsState → ℕ
  | none => 0
  | offered => 1
  | accepted => 2
  | started => 3
  | .open => 4
  | closed => 5

/-- `DtlsTransportChannelWrapper`: a channel, the state of DTLS, and both certificates. -/
structure DtlsTransportChannelWrapper (χ : Type) where
  channel : χ
  dtlsState : DtlsState := .none
  localIdentity : Option ℕ := none
  sslRole : SSLRole := .client
  remoteFingerprintAlgorithm : List Uint8 := []
  remoteFingerprintValue : List Uint8 := []
  srtpCiphers : List (List Uint8) := []

variable {χ τ : Type}

/-- The library for SSL: `SSLFingerprint::Create`, and whether an `SSLStreamAdapter` takes the
settings (`SetupDtls`). -/
structure Ssl where
  createFingerprint : List Uint8 → ℕ → SSLFingerprint
  setupDtls : Option ℕ → SSLRole → List Uint8 → List Uint8 → List (List Uint8) → Bool

namespace DtlsTransportChannelWrapper

instance [TransportChannelImpl χ] : TransportChannelImpl (DtlsTransportChannelWrapper χ) where
  getIceProtocolType ch := getIceProtocolType ch.channel
  setIceProtocolType ch type := { ch with channel := setIceProtocolType ch.channel type }
  setIceCredentials ch ufrag pwd := { ch with channel := setIceCredentials ch.channel ufrag pwd }
  setRemoteIceCredentials ch ufrag pwd :=
    { ch with channel := setRemoteIceCredentials ch.channel ufrag pwd }
  setRemoteIceMode ch mode := { ch with channel := setRemoteIceMode ch.channel mode }
  setIceRole ch role := { ch with channel := setIceRole ch.channel role }

variable (ch : DtlsTransportChannelWrapper χ)

def setLocalIdentity (identity : Option ℕ) : Bool × DtlsTransportChannelWrapper χ :=
  if ch.dtlsState ≠ .none then (identity == ch.localIdentity, ch)
  else if identity.isSome then (true, { ch with localIdentity := identity, dtlsState := .offered })
  else (true, ch)

def setSslRole (role : SSLRole) : Bool × DtlsTransportChannelWrapper χ :=
  if ch.dtlsState = .open then (ch.sslRole == role, ch) else (true, { ch with sslRole := role })

/-- `DtlsTransportChannelWrapper::SetRemoteFingerprint`. -/
def setRemoteFingerprint (ssl : Ssl) (digestAlg digest : List Uint8) :
    Bool × DtlsTransportChannelWrapper χ :=
  if ch.dtlsState ≠ .none ∧ ch.remoteFingerprintValue = digest ∧ digestAlg ≠ [] then (true, ch)
  else if ch.dtlsState.toNat > DtlsState.offered.toNat ∨ (ch.dtlsState = .none ∧ digestAlg ≠ []) then
    (false, ch)
  else if digestAlg = [] then (true, { ch with dtlsState := .none })
  else
    let ch := { ch with remoteFingerprintValue := digest, remoteFingerprintAlgorithm := digestAlg }
    if ssl.setupDtls ch.localIdentity ch.sslRole digestAlg digest ch.srtpCiphers then
      (true, { ch with dtlsState := .accepted })
    else (false, { ch with dtlsState := .closed })

end DtlsTransportChannelWrapper

/-! ## Transports -/

/-- `Transport`: descriptions, and the channels by their components. -/
structure Transport (χ : Type) where
  channels : List (ℕ × χ)
  localDescription : Option TransportDescription := none
  remoteDescription : Option TransportDescription := none
  protocol : IceProtocolType := .hybrid
  remoteIceMode : IceMode := .full
  iceRole : IceRole := .unknown

/-- `DtlsTransport`: a transport with its certificate and its role. -/
structure DtlsTransport (χ : Type) where
  base : Transport (DtlsTransportChannelWrapper χ)
  identity : Option ℕ := none
  secureRole : SSLRole := .client
  remoteFingerprint : SSLFingerprint := ⟨[], []⟩

/-- A class of transports: the functions that may be overridden return an error, or `none`. -/
structure Virtual (τ χ : Type) where
  base : τ → Transport χ
  withBase : τ → Transport χ → τ
  applyLocal : τ → χ → Option (List Uint8) × τ × χ
  applyRemote : τ → χ → Option (List Uint8) × χ
  negotiate : τ → ContentAction → Option (List Uint8) × τ

def applyLocals (v : Virtual τ χ) : τ → List (ℕ × χ) → Option (List Uint8) × τ × List (ℕ × χ)
  | t, [] => (none, t, [])
  | t, (component, ch) :: rest =>
    let (error, t, ch) := v.applyLocal t ch
    let (error', t, rest) := applyLocals v t rest
    (error'.or error, t, (component, ch) :: rest)

/-- `Transport::SetLocalTransportDescription_w`. -/
def setLocalTransportDescription (v : Virtual τ χ) (t : τ) (desc : TransportDescription)
    (action : ContentAction) : Option (List Uint8) × τ :=
  let t := v.withBase t { v.base t with localDescription := some desc }
  let (error, t, channels) := applyLocals v t (v.base t).channels
  let t := v.withBase t { v.base t with channels := channels }
  if error.isSome then (error, t)
  else if action = .pranswer ∨ action = .answer then v.negotiate t action
  else (none, t)

/-- `Transport::SetRemoteTransportDescription_w`. -/
def setRemoteTransportDescription (v : Virtual τ χ) (t : τ) (desc : TransportDescription)
    (action : ContentAction) : Option (List Uint8) × τ :=
  let t := v.withBase t { v.base t with remoteDescription := some desc }
  let applied := (v.base t).channels.map fun e => (e.1, v.applyRemote t e.2)
  let error := (applied.filterMap fun e => e.2.1).getLast?
  let t := v.withBase t { v.base t with channels := applied.map fun e => (e.1, e.2.2) }
  if action = .pranswer ∨ action = .answer then v.negotiate t .offer else (error, t)

/-! ### The base class -/

section Base

variable [TransportChannelImpl χ]

def Transport.applyLocalTransportDescription (t : Transport χ) (ch : χ) : χ :=
  match t.localDescription with
  | none => ch
  | some desc =>
    let ch :=
      if getIceProtocolType ch = some IceProtocolType.hybrid then
        setIceProtocolType ch (transportProtocolFromDescription desc)
      else ch
    setIceCredentials ch desc.iceUfrag desc.icePwd

def Transport.applyRemoteTransportDescription (t : Transport χ) (ch : χ) : χ :=
  match t.remoteDescription with
  | none => ch
  | some desc => setRemoteIceCredentials ch desc.iceUfrag desc.icePwd

def Transport.applyNegotiatedTransportDescription (t : Transport χ) (ch : χ) : χ :=
  setRemoteIceMode (setIceProtocolType ch t.protocol) t.remoteIceMode

def Transport.setIceRole (t : Transport χ) (role : IceRole) : Transport χ :=
  { t with
    iceRole := role
    channels := t.channels.map fun e => (e.1, TransportChannelImpl.setIceRole e.2 role) }

def pushDown (apply : χ → Option (List Uint8) × χ) :
    List (ℕ × χ) → Option (List Uint8) × List (ℕ × χ)
  | [] => (none, [])
  | (component, ch) :: rest =>
    match apply ch with
    | (some error, ch) => (some error, (component, ch) :: rest)
    | (none, ch) =>
      let (error, rest) := pushDown apply rest
      (error, (component, ch) :: rest)

/-- `NegotiateTransportDescription_w`, from the protocol on. -/
def Transport.adopt (t : Transport χ) (answerProto : IceProtocolType) (remoteDesc : TransportDescription) :
    Transport χ :=
  let t := { t with protocol := if answerProto = IceProtocolType.hybrid then .google else answerProto }
  let t := if t.iceRole = .controlled ∧ remoteDesc.iceMode = .lite then t.setIceRole .controlling else t
  { t with remoteIceMode := remoteDesc.iceMode }

/-- `NegotiateTransportDescription_w`, up to the loop. -/
def Transport.outcome (t : Transport χ) (localRole : ContentAction)
    (localDesc remoteDesc : TransportDescription) : Except (List Uint8) (Transport χ) :=
  let (offer, answer) := if localRole = .offer then (localDesc, remoteDesc) else (remoteDesc, localDesc)
  let offerProto := transportProtocolFromDescription offer
  let answerProto := transportProtocolFromDescription answer
  if (offerProto = .google ∨ offerProto = .rfc5245) ∧ offerProto ≠ answerProto then
    .error (text "Offer and answer protocol mismatch: " ++ iceProtoToString offerProto ++ text " vs " ++
      iceProtoToString answerProto)
  else .ok (t.adopt answerProto remoteDesc)

def Transport.negotiate (t : Transport χ) (apply : Transport χ → χ → Option (List Uint8) × χ)
    (localRole : ContentAction) : Option (List Uint8) × Transport χ :=
  match t.localDescription, t.remoteDescription with
  | some localDesc, some remoteDesc =>
    match t.outcome localRole localDesc remoteDesc with
    | .error error => (some error, t)
    | .ok t =>
      let (error, channels) := pushDown (apply t) t.channels
      (error, { t with channels := channels })
  | _, _ => (none, t)

def baseTransport (χ : Type) [TransportChannelImpl χ] : Virtual (Transport χ) χ where
  base t := t
  withBase _ t := t
  applyLocal t ch := (none, t, t.applyLocalTransportDescription ch)
  applyRemote t ch := (none, t.applyRemoteTransportDescription ch)
  negotiate t := t.negotiate fun t ch => (none, t.applyNegotiatedTransportDescription ch)

/-! ### `DtlsTransport` -/

namespace DtlsTransport

variable (ssl : Ssl)

/-- The check of the identity, and the identity after it. -/
def checkIdentity (t : DtlsTransport χ) : Except (List Uint8) (Option ℕ) :=
  match t.base.localDescription.bind (·.identityFingerprint) with
  | some localFp =>
    match t.identity with
    | some identity =>
      let localFpTmp := ssl.createFingerprint localFp.algorithm identity
      if localFpTmp ≠ localFp then
        .error (text "Local fingerprint does not match identity. Expected: " ++ localFpTmp.toString ++
          text " Got: " ++ localFp.toString)
      else .ok (some identity)
    | none => .error (text "Local fingerprint provided but no identity available.")
  | none => .ok none

def applyLocalTransportDescription (t : DtlsTransport χ) (ch : DtlsTransportChannelWrapper χ) :
    Option (List Uint8) × DtlsTransport χ × DtlsTransportChannelWrapper χ :=
  match t.checkIdentity ssl with
  | .error error => (some error, t, ch)
  | .ok identity =>
    let t := { t with identity := identity }
    match ch.setLocalIdentity identity with
    | (false, ch) => (some (text "Failed to set local identity."), t, ch)
    | (true, ch) => (none, t, t.base.applyLocalTransportDescription ch)

def applyNegotiatedTransportDescription (secureRole : SSLRole) (remoteFingerprint : SSLFingerprint)
    (t : Transport (DtlsTransportChannelWrapper χ)) (ch : DtlsTransportChannelWrapper χ) :
    Option (List Uint8) × DtlsTransportChannelWrapper χ :=
  match ch.setSslRole secureRole with
  | (false, ch) => (some (text "Failed to set ssl role for the channel."), ch)
  | (true, ch) =>
    match ch.setRemoteFingerprint ssl remoteFingerprint.algorithm remoteFingerprint.digest with
    | (false, ch) => (some (text "Failed to apply remote fingerprint."), ch)
    | (true, ch) => (none, t.applyNegotiatedTransportDescription ch)

/-- Whether the remote side is the server, by the setup attributes. -/
def isRemoteServer (localRole : ContentAction) (localConnectionRole remoteConnectionRole : ConnectionRole) :
    Except (List Uint8) Bool :=
  if localRole = .offer then
    if localConnectionRole ≠ .actpass then
      .error (text "Offerer must use actpass value for setup attribute.")
    else if remoteConnectionRole = .active ∨ remoteConnectionRole = .passive ∨
        remoteConnectionRole = .none then
      .ok (remoteConnectionRole == .passive)
    else .error (text "Answerer must use either active or passive value for setup attribute.")
  else
    if remoteConnectionRole ≠ .actpass ∧ remoteConnectionRole ≠ .none then
      .error (text "Offerer must use actpass value for setup attribute.")
    else if localConnectionRole = .active ∨ localConnectionRole = .passive then
      .ok (localConnectionRole == .active)
    else .error (text "Answerer must use either active or passive value for setup attribute.")

def negotiateSecurity (t : DtlsTransport χ) (localRole : ContentAction)
    (localDesc remoteDesc : TransportDescription) : Option (List Uint8) × DtlsTransport χ :=
  match remoteDesc.identityFingerprint, localDesc.identityFingerprint with
  | some remoteFp, some _ =>
    let t := { t with remoteFingerprint := remoteFp }
    match isRemoteServer localRole localDesc.connectionRole remoteDesc.connectionRole with
    | .error error => (some error, t)
    | .ok remoteServer => (none, { t with secureRole := if remoteServer then .client else .server })
  | _, localFp =>
    if localFp.isSome ∧ localRole = .answer then
      (some (text "Local fingerprint supplied when caller didn't offer DTLS."), t)
    else (none, { t with remoteFingerprint := ⟨[], []⟩ })

/-- `NegotiateTransportDescription_w`. -/
def negotiate (t : DtlsTransport χ) (localRole : ContentAction) :
    Option (List Uint8) × DtlsTransport χ :=
  match t.base.localDescription, t.base.remoteDescription with
  | some localDesc, some remoteDesc =>
    match t.negotiateSecurity localRole localDesc remoteDesc with
    | (some error, t) => (some error, t)
    | (none, t) =>
      let (error, base) := t.base.negotiate
        (applyNegotiatedTransportDescription ssl t.secureRole t.remoteFingerprint) localRole
      (error, { t with base := base })
  | _, _ =>
    (some (text ("Local and Remote description must be set before " ++
      "transport descriptions are negotiated")), t)

end DtlsTransport

def dtlsTransport (ssl : Ssl) (χ : Type) [TransportChannelImpl χ] :
    Virtual (DtlsTransport χ) (DtlsTransportChannelWrapper χ) where
  base t := t.base
  withBase t base := { t with base := base }
  applyLocal t ch := t.applyLocalTransportDescription ssl ch
  applyRemote t ch := (none, t.base.applyRemoteTransportDescription ch)
  negotiate t := t.negotiate ssl

end Base

end Libjingle.Negotiation
