import Libjingle.P2P.Connection
import Libjingle.Signaling.Jid

/-!
# The transports of a session (`p2p/base/session.cc`, `p2p/base/transport.cc`)

A session has a `TransportProxy` for each content; several of them may share a `Transport`. Transports are
on a heap, and a pointer to one is a number.

What a transport makes of a description is given by `refuses`. The state in which a transport is connected
or writable is what it has signalled last.
-/

namespace Libjingle.Signaling

open Lib P2P

/-- `NS_GINGLE_P2P`. -/
def nsGingleP2p : Name := text "http://www.google.com/transport/p2p"

def groupTypeBundle : Name := text "BUNDLE"

/-! ## Descriptions -/

/-- `TransportInfo`. -/
structure TransportInfo where
  contentName : Name
  transportType : Name
  candidates : List Candidate
  deriving DecidableEq, Repr

/-- `ContentGroup`. -/
structure ContentGroup where
  semantics : Name
  contentNames : List Name

/-- `SessionDescription`. -/
structure SessionDescription where
  contents : List Name
  transportInfos : List TransportInfo
  groups : List ContentGroup

namespace SessionDescription

variable (sdesc : SessionDescription)

def getTransportInfoByName (name : Name) : Option TransportInfo :=
  sdesc.transportInfos.find? fun tinfo => tinfo.contentName = name

def getGroupByName (name : Name) : Option ContentGroup :=
  sdesc.groups.find? fun group => group.semantics = name

end SessionDescription

/-- `ContentAction`, as far as sessions use it. -/
inductive ContentAction where
  | offer | answer
  deriving DecidableEq, Repr

/-- The text of an error; one about a candidate names it between two texts. -/
inductive ErrorText where
  | plain (s : Name)
  | candidate (before : Name) (cand : Candidate) (after : Name)

/-! ## Candidates -/

/-- `IPIsPrivate`. -/
def ipIsPrivate : IPAddress → Bool
  | .v4 addr =>
    addr >>> 24 == 127 || addr >>> 24 == 10 || addr >>> 20 == 0xAC1 || addr >>> 16 == 0xC0A8 ||
      addr >>> 16 == 0xA9FE
  | .v6 addr => addr >>> 112 == 0xFE80 || addr == 1
  | .unspec => false

def isNil (addr : SocketAddress) : Bool := addr.hostname == [] && addr.ip == .unspec && addr.port == 0

/-- `Transport::VerifyCandidate`. -/
def verifyCandidate (cand : Candidate) : Option ErrorText :=
  let port := cand.address.port
  if isNil cand.address || ipIsAny cand.address.ip then
    some (.plain (text "candidate has address of zero"))
  else if port = 0 then some (.plain [])
  else if port < 1024 then
    if port ≠ 80 ∧ port ≠ 443 then
      some (.plain (text "candidate has port below 1024, but not 80 or 443"))
    else if ipIsPrivate cand.address.ip then
      some (.plain (text "candidate has port of 80 or 443 with private IP address"))
    else none
  else none

/-! ## Transports -/

/-- `TransportState`. -/
inductive TransportState where
  | none | some | all
  deriving DecidableEq, Repr

/-- `Transport`: its channels, and the remote candidates posted for them. -/
structure Transport where
  channels : List (ℕ × ℕ) := []
  connectRequested : Bool := false
  writableState : TransportState := .none
  signalledConnecting : Bool := false
  remoteCandidates : List Candidate := []

namespace Transport

variable (t : Transport)

def hasChannel (component : ℕ) : Bool := t.channels.any fun ch => ch.1 == component

def hasChannels : Bool := !t.channels.isEmpty

def writable : Bool := t.writableState != .none

def createChannel (component : ℕ) : Transport :=
  if t.hasChannel component then
    { t with
      channels := t.channels.map fun ch => if ch.1 = component then (ch.1, ch.2 + 1) else ch }
  else { t with channels := t.channels ++ [(component, 1)] }

def destroyChannel (component : ℕ) : Transport :=
  { t with
    channels := (t.channels.map fun ch => if ch.1 = component then (ch.1, ch.2 - 1) else ch).filter
      fun ch => ch.1 != component || ch.2 != 0 }

/-- `Transport::ConnectChannels_w`. -/
def connectChannels : Transport :=
  if t.connectRequested ∨ !t.hasChannels then t else { t with connectRequested := true }

end Transport

/-- `TransportProxy`. -/
structure TransportProxy where
  contentName : Name
  transport : ℕ
  connecting : Bool := false
  negotiated : Bool := false
  channels : List (ℕ × Option ℕ) := []
  sentCandidates : List Candidate := []
  unsentCandidates : List Candidate := []

/-- `TransportMap`. -/
structure Transports where
  proxies : List TransportProxy := []
  transportAt : ℕ → Transport := fun _ => {}
  fresh : ℕ := 0

namespace Transports

variable (n : Transports)

/-- `BaseSession::GetTransportProxy`. -/
def proxyAt (name : Name) : Option TransportProxy := n.proxies.find? fun proxy => proxy.contentName = name

def modifyProxy (name : Name) (f : TransportProxy → TransportProxy) : Transports :=
  { n with
    proxies := n.proxies.map fun proxy => if proxy.contentName = name then f proxy else proxy }

def modifyTransport (t : ℕ) (f : Transport → Transport) : Transports :=
  { n with transportAt := Function.update n.transportAt t (f (n.transportAt t)) }

theorem proxyAt_modifyProxy (name name' : Name) {f : TransportProxy → TransportProxy}
    (h : ∀ proxy, (f proxy).contentName = proxy.contentName) :
    (n.modifyProxy name f).proxyAt name' =
      (n.proxyAt name').map fun proxy => if name' = name then f proxy else proxy := by
  have hname (proxy : TransportProxy) :
      (if proxy.contentName = name then f proxy else proxy).contentName = proxy.contentName := by
    split
    · exact h proxy
    · rfl
  unfold proxyAt modifyProxy
  rw [List.find?_map]
  simp only [Function.comp_def, hname]
  refine Option.map_congr fun proxy hproxy => ?_
  have hfound : proxy.contentName = name' := by simpa using List.find?_some hproxy
  rw [hfound]

@[simp] theorem transportAt_modifyTransport (t : ℕ) (f : Transport → Transport) :
    (n.modifyTransport t f).transportAt t = f (n.transportAt t) :=
  Function.update_self t _ _

@[simp] theorem transportAt_modifyTransport_of_ne {t t' : ℕ} (h : t' ≠ t) (f : Transport → Transport) :
    (n.modifyTransport t f).transportAt t' = n.transportAt t' :=
  Function.update_of_ne h _ _

theorem proxyAt_modifyTransport (t : ℕ) (f : Transport → Transport) (name : Name) :
    (n.modifyTransport t f).proxyAt name = n.proxyAt name := rfl

def getOrCreateProxy (name : Name) : Transports :=
  if (n.proxyAt name).isSome then n
  else
    { n with
      proxies := (n.proxies.takeWhile fun proxy => proxy.contentName < name) ++
        { contentName := name, transport := n.fresh } ::
        n.proxies.dropWhile fun proxy => proxy.contentName < name
      fresh := n.fresh + 1 }

/-! ## Channels -/

def getOrCreateImpl (t component : ℕ) : Transports :=
  if (n.transportAt t).hasChannel component then n
  else n.modifyTransport t fun transport => transport.createChannel component

def replaceImpl (old new : Option ℕ) (component : ℕ) : Transports :=
  if old = new then n
  else
    match old with
    | some t => n.modifyTransport t fun transport => transport.destroyChannel component
    | none => n

def setupChannel (t : ℕ) (ch : ℕ × Option ℕ) : Transports :=
  (n.getOrCreateImpl t ch.1).replaceImpl ch.2 (some t) ch.1

theorem proxies_getOrCreateImpl (t component : ℕ) : (n.getOrCreateImpl t component).proxies = n.proxies := by
  unfold getOrCreateImpl
  split <;> rfl

theorem proxies_replaceImpl (old new : Option ℕ) (component : ℕ) :
    (n.replaceImpl old new component).proxies = n.proxies := by
  unfold replaceImpl
  split
  · rfl
  · split <;> rfl

theorem proxies_setupChannel (t : ℕ) (ch : ℕ × Option ℕ) : (n.setupChannel t ch).proxies = n.proxies := by
  unfold setupChannel
  rw [proxies_replaceImpl, proxies_getOrCreateImpl]

theorem proxyAt_setupChannels (t : ℕ) (channels : List (ℕ × Option ℕ)) (name : Name) :
    (channels.foldl (fun n ch => n.setupChannel t ch) n).proxyAt name = n.proxyAt name :=
  congrArg (List.find? _) (run_keeps proxies (fun n ch => proxies_setupChannel n t ch) n channels)

/-- `TransportProxy::CompleteNegotiation`. -/
def completeNegotiation (name : Name) : Transports :=
  match n.proxyAt name with
  | some proxy =>
    if proxy.negotiated then n
    else
      (proxy.channels.foldl (fun n ch => n.setupChannel proxy.transport ch) n).modifyProxy name
        fun proxy =>
          { proxy with
            negotiated := true
            channels := proxy.channels.map fun ch => (ch.1, some proxy.transport) }
  | none => n

def prepareChannels (proxy : TransportProxy) : Transports :=
  if proxy.connecting then n
  else
    (if proxy.negotiated then n
      else proxy.channels.foldl (fun n ch => n.getOrCreateImpl proxy.transport ch.1) n).modifyProxy
        proxy.contentName fun proxy => { proxy with connecting := true }

/-- `TransportProxy::ConnectChannels`. -/
def connectChannels (name : Name) : Transports :=
  match n.proxyAt name with
  | some proxy => (n.prepareChannels proxy).modifyTransport proxy.transport Transport.connectChannels
  | none => n

def createChannel (name : Name) (component : ℕ) : Transports :=
  match n.proxyAt name with
  | some proxy =>
    let n' :=
      if proxy.negotiated then n.setupChannel proxy.transport (component, none)
      else if proxy.connecting then n.getOrCreateImpl proxy.transport component
      else n
    n'.modifyProxy name fun proxy =>
      { proxy with
        channels := proxy.channels ++
          [(component, if proxy.negotiated then some proxy.transport else none)] }
  | none => n

def destroyChannel (name : Name) (component : ℕ) : Transports :=
  match n.proxyAt name with
  | some proxy =>
    match proxy.channels.find? fun ch => ch.1 = component with
    | some ch =>
      let n' := if proxy.negotiated then n else n.setupChannel proxy.transport ch
      let impl := if proxy.negotiated then ch.2 else some proxy.transport
      (n'.replaceImpl impl none component).modifyProxy name fun proxy =>
        { proxy with channels := proxy.channels.filter fun ch => ch.1 != component }
    | none => n
  | none => n

/-! ## Muxing -/

def muxChannel (target : ℕ) (ch : ℕ × Option ℕ) : Option ℕ :=
  if (n.transportAt target).hasChannel ch.1 then some target else none

def setupMuxChannel (target : ℕ) (ch : ℕ × Option ℕ) : Transports :=
  if (n.transportAt target).hasChannel ch.1 then
    (n.modifyTransport target fun transport => transport.createChannel ch.1).replaceImpl ch.2
      (some target) ch.1
  else n.replaceImpl ch.2 none ch.1

/-- `TransportProxy::SetupMux`. -/
def setupMux (name : Name) (target : ℕ) : Transports :=
  match n.proxyAt name with
  | some proxy =>
    if proxy.transport = target then n
    else
      (proxy.channels.foldl (fun n ch => n.setupMuxChannel target ch) n).modifyProxy name fun proxy =>
        { proxy with
          transport := target
          channels := proxy.channels.map fun ch => (ch.1, n.muxChannel target ch) }
  | none => n

/-- `BaseSession::SetSelectedProxy`. -/
def setSelectedProxy (contentName : Name) (group : ContentGroup) : Transports :=
  match n.proxyAt contentName with
  | some selected =>
    (n.proxies.map TransportProxy.contentName).foldl (fun n name =>
      if name ∈ group.contentNames then n.setupMux name selected.transport else n) n
  | none => n

def enableMuxing (localDescription remoteDescription : SessionDescription) : Transports :=
  if n.proxies.all (·.negotiated) then
    match localDescription.getGroupByName groupTypeBundle,
      remoteDescription.getGroupByName groupTypeBundle with
    | some localGroup, some _ =>
      match localGroup.contentNames.head? with
      | some first =>
        if first ∈ localDescription.contents then n.setSelectedProxy first localGroup else n
      | none => n
    | _, _ => n
  else n

/-! ## All proxies -/

/-- `PushdownLocalTransportDescription`. -/
def pushdownLocal (refuses : Name → Bool) (sdesc : SessionDescription) (action : ContentAction) :
    List Name → Transports → Transports
  | [], n => n
  | name :: names, n =>
    if (sdesc.getTransportInfoByName name).isSome then
      let n := if action = .answer then n.completeNegotiation name else n
      if refuses name then n else pushdownLocal refuses sdesc action names (n.connectChannels name)
    else pushdownLocal refuses sdesc action names n

/-- The loop of `PushdownRemoteTransportDescription`. -/
def pushdownRemote (refuses : Name → Bool) (sdesc : SessionDescription) (action : ContentAction) :
    List Name → Transports → Transports
  | [], n => n
  | name :: names, n =>
    if (sdesc.getTransportInfoByName name).isSome then
      let n := if action = .answer then n.completeNegotiation name else n
      if refuses name then n else pushdownRemote refuses sdesc action names n
    else pushdownRemote refuses sdesc action names n

def names : List Name := n.proxies.map TransportProxy.contentName

def connectAll : Transports := n.names.foldl connectChannels n

def createProxies (n : Transports) : List TransportInfo → Bool × Transports
  | [] => (true, n)
  | tinfo :: tinfos =>
    if tinfo.transportType ≠ nsGingleP2p then (false, n)
    else createProxies (n.getOrCreateProxy tinfo.contentName) tinfos

/-! ## Remote candidates -/

def candidateError (t : ℕ) (contentName : Name) (cand : Candidate) : Option ErrorText :=
  (verifyCandidate cand).or
    (if (n.transportAt t).hasChannel cand.component then none
      else some (.candidate (text "Candidate has unknown component: ") cand
        (text " for content: " ++ contentName)))

def onRemoteCandidatesFor (contentName : Name) (candidates : List Candidate) :
    Option ErrorText × Transports :=
  match n.proxyAt contentName with
  | none => (some (.plain (text "Unknown content name " ++ contentName)), n)
  | some proxy =>
    let n := n.completeNegotiation contentName
    match candidates.findSome? (n.candidateError proxy.transport contentName) with
    | some error => (some error, n)
    | none =>
      let n := n.modifyTransport proxy.transport fun transport =>
        { transport with remoteCandidates := transport.remoteCandidates ++ candidates }
      (none, n.connectChannels contentName)

/-- `BaseSession::OnRemoteCandidates`. -/
def onRemoteCandidates (n : Transports) : List TransportInfo → Option ErrorText × Transports
  | [] => (none, n)
  | tinfo :: tinfos =>
    match n.onRemoteCandidatesFor tinfo.contentName tinfo.candidates with
    | (some error, n) => (some error, n)
    | (none, n) => onRemoteCandidates n tinfos

end Transports

end Libjingle.Signaling
