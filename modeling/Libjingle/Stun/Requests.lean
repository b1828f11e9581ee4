import Libjingle.Lib.Run
import Libjingle.Stun.Message

/-!
# STUN requests (`p2p/base/stunrequest.{h,cc}`)

`StunRequestManager`: the requests that wait for a response, their messages on the thread, and what became of
all requests.

A `StunRequest*` is the number of the request, which only grows. A message on the thread may come at any
time, whatever its delay. `requests` is `requests_`, in no particular order. `log` is not part of the
source.
-/

namespace Libjingle

open Lib

abbrev maxSends : ℕ := 9
abbrev delayUnit : ℕ := 100
abbrev delayMaxFactor : ℕ := 16
abbrev connectionResponseTimeout : ℕ := 5 * 1000
abbrev kStunTransactionIdOffset : ℕ := 8

/-! ## Requests -/

/-- The classes of requests, which wait differently. -/
inductive RequestClass where
  | stunRequest | connectionRequest | allocateRequest
  deriving DecidableEq, Repr

/-- `StunRequest`. -/
structure StunRequest where
  requestClass : RequestClass
  kind : MessageClass
  type : Uint16
  prepared : Uint16
  transactionId : List Uint8
  count : ℕ := 0
  timeout : Bool := false
  manager : Bool := false
  deriving DecidableEq, Repr

namespace StunRequest

def construct (request : StunRequest) : StunRequest :=
  if request.type = 0 then { request with type := request.prepared } else request

def getNextDelay (request : StunRequest) : ℕ × StunRequest :=
  match request.requestClass with
  | .stunRequest =>
    (delayUnit * min (1 <<< request.count) delayMaxFactor,
      { request with
        count := request.count + 1
        timeout := request.timeout || request.count + 1 == maxSends })
  | .connectionRequest => (connectionResponseTimeout, { request with timeout := true })
  | .allocateRequest =>
    (100 * max (1 <<< request.count) 2,
      { request with
        count := request.count + 1
        timeout := request.timeout || request.count + 1 == 5 })

end StunRequest

/-- What a request is told: `OnResponse`, `OnErrorResponse` or `OnTimeout`. -/
inductive Completion where
  | onResponse (response : StunMessage)
  | onErrorResponse (response : StunMessage)
  | onTimeout
  deriving DecidableEq, Repr

/-- What becomes of a request. -/
inductive RequestNote where
  | queued (request : ℕ) (transactionId : List Uint8) (type : Uint16)
  | sent (request : ℕ)
  | told (request : ℕ) (completion : Completion)
  | removed (request : ℕ)
  deriving DecidableEq, Repr

/-- A manager with its requests, and their messages on the thread. -/
structure StunRequestManager where
  made : ℕ := 0
  objects : ℕ → Option StunRequest := fun _ => none
  requests : List (List Uint8 × ℕ) := []
  messages : List (ℕ × ℤ) := []
  log : List RequestNote := []

/-- What a handler of the application may call. -/
inductive HandlerCall where
  | new (requestClass : RequestClass) (kind : MessageClass) (type prepared : Uint16)
      (transactionId : List Uint8)
  | sendDelayed (request : ℕ) (delay : ℤ)
  deriving DecidableEq, Repr

/-- What reaches the manager, with what the handlers call meanwhile. -/
inductive RequestCall where
  | outside (call : HandlerCall)
  | message (m : ℕ × ℤ) (calls : List HandlerCall)
  | checkResponse (msg : StunMessage) (calls : List HandlerCall)
  | checkResponseData (data : List Uint8) (calls : List HandlerCall)
  | remove (request : ℕ)
  | delete (request : ℕ)
  | clear
  deriving DecidableEq, Repr

namespace StunRequestManager

/-! ## The calls -/

def find (c : StunRequestManager) (id : List Uint8) : Option ℕ := c.requests.lookup id

/-- An entry of the log. -/
def note (c : StunRequestManager) (n : RequestNote) : StunRequestManager := { c with log := c.log ++ [n] }

/-- `StunRequest::StunRequest`. -/
def new (c : StunRequestManager) (requestClass : RequestClass) (kind : MessageClass)
    (type prepared : Uint16) (transactionId : List Uint8) : StunRequestManager :=
  { c with
    made := c.made + 1
    objects := Function.update c.objects c.made
      (some ⟨requestClass, kind, type, prepared, transactionId, 0, false, false⟩) }

/-- `requests_[id] = request`. -/
def store (requests : List (List Uint8 × ℕ)) (id : List Uint8) (r : ℕ) : List (List Uint8 × ℕ) :=
  requests.filter (·.1 ≠ id) ++ [(id, r)]

/-- `StunRequestManager::SendDelayed`. -/
def sendDelayed (c : StunRequestManager) (r : ℕ) (delay : ℤ) : StunRequestManager :=
  match c.objects r with
  | none => c
  | some request =>
    let request := { request with manager := true }.construct
    { c with
      objects := Function.update c.objects r (some request)
      requests := store c.requests request.transactionId r
      messages := c.messages ++ [(r, delay)]
      log := c.log ++ [.queued r request.transactionId request.type] }

def clearMessages (c : StunRequestManager) (r : ℕ) : StunRequestManager :=
  { c with messages := c.messages.filter (·.1 ≠ r) }

/-- `StunRequestManager::Remove`. -/
def remove (c : StunRequestManager) (r : ℕ) : StunRequestManager :=
  match c.objects r with
  | none => c
  | some request =>
    match c.find request.transactionId with
    | none => c
    | some r' =>
      ({ c with requests := c.requests.filter (·.1 ≠ request.transactionId) }.clearMessages r).note
        (.removed r')

/-- `StunRequest::~StunRequest`. -/
def delete (c : StunRequestManager) (r : ℕ) : StunRequestManager :=
  let c :=
    if (c.objects r).any (·.manager) then (c.remove r).clearMessages r
    else c
  { c with objects := Function.update c.objects r none }

/-- `StunRequestManager::Clear`. -/
def clear (c : StunRequestManager) : StunRequestManager :=
  (c.requests.map Prod.snd).foldl delete c

/-- A call by a handler. -/
def call (c : StunRequestManager) : HandlerCall → StunRequestManager
  | .new requestClass kind type prepared transactionId => c.new requestClass kind type prepared transactionId
  | .sendDelayed r delay => c.sendDelayed r delay

/-- A request is told its outcome and deleted. -/
def complete (c : StunRequestManager) (r : ℕ) (completion : Completion) (calls : List HandlerCall) :
    StunRequestManager :=
  (run call (c.note (.told r completion)) calls).delete r

/-- `StunRequestManager::CheckResponse` for a message. -/
def checkResponse (c : StunRequestManager) (msg : StunMessage) (calls : List HandlerCall) :
    Bool × StunRequestManager :=
  match c.find msg.transactionId with
  | none => (false, c)
  | some r =>
    match c.objects r with
    | none => (false, c)
    | some request =>
      if some msg.type = getStunSuccessResponseType request.type then
        (true, c.complete r (.onResponse msg) calls)
      else if some msg.type = getStunErrorResponseType request.type then
        (true, c.complete r (.onErrorResponse msg) calls)
      else (false, c)

/-- `StunRequestManager::CheckResponse` for the bytes of a packet. -/
def checkResponseData (c : StunRequestManager) (data : List Uint8) (calls : List HandlerCall) :
    Bool × StunRequestManager :=
  if data.length < 20 then (false, c)
  else
    match c.find ((data.drop kStunTransactionIdOffset).take kStunTransactionIdLength) with
    | none => (false, c)
    | some r =>
      match c.objects r with
      | none => (false, c)
      | some request =>
        match StunMessage.read request.kind data with
        | none => (false, c)
        | some (response, _) => c.checkResponse response calls

/-- What `OnMessage` does after `SignalSendPacket`. -/
def sendAgain (c : StunRequestManager) (r : ℕ) : StunRequestManager :=
  match c.objects r with
  | none => c
  | some request =>
    let next := request.getNextDelay
    { c with
      objects := Function.update c.objects r (some next.2)
      messages := c.messages ++ [(r, (next.1 : ℤ))] }

/-- `StunRequest::OnMessage`. -/
def onMessage (c : StunRequestManager) (r : ℕ) (calls : List HandlerCall) : StunRequestManager :=
  match c.objects r with
  | none => c
  | some request =>
    if request.timeout then c.complete r .onTimeout calls
    else (run call (c.note (.sent r)) calls).sendAgain r

def step (c : StunRequestManager) : RequestCall → StunRequestManager
  | .outside h => c.call h
  | .message m calls => { c with messages := c.messages.erase m }.onMessage m.1 calls
  | .checkResponse msg calls => (c.checkResponse msg calls).2
  | .checkResponseData data calls => (c.checkResponseData data calls).2
  | .remove r => c.remove r
  | .delete r => c.delete r
  | .clear => c.clear

/-! ## The uses considered -/

/-- What `SendDelayed` asserts. -/
def Sendable (c : StunRequestManager) : HandlerCall → Prop
  | .new .. => True
  | .sendDelayed r _ =>
    ∃ request ∈ c.objects r, request.manager = false ∧ c.find request.transactionId = none

/-- What `Remove` asserts. -/
def Removable (c : StunRequestManager) (r : ℕ) : Prop :=
  ∃ request ∈ c.objects r, request.manager = true ∧ ∀ r' ∈ c.find request.transactionId, r' = r

/-- What the source asserts of an event. -/
def Legal (c : StunRequestManager) : RequestCall → Prop
  | .outside h => c.Sendable h
  | .message m calls => m ∈ c.messages ∧ Guarded call Sendable c calls
  | .checkResponse _ calls => Guarded call Sendable c calls
  | .checkResponseData _ calls => Guarded call Sendable c calls
  | .remove r => c.Removable r
  | .delete r => c.Removable r
  | .clear => True

instance (c : StunRequestManager) : (h : HandlerCall) → Decidable (c.Sendable h)
  | .new .. => isTrue trivial
  | .sendDelayed r _ => inferInstanceAs (Decidable (∃ request ∈ c.objects r, _))

instance (c : StunRequestManager) (r : ℕ) : Decidable (c.Removable r) :=
  inferInstanceAs (Decidable (∃ request ∈ c.objects r, _))

instance (c : StunRequestManager) : (e : RequestCall) → Decidable (c.Legal e)
  | .outside h => inferInstanceAs (Decidable (c.Sendable h))
  | .message m calls => inferInstanceAs (Decidable (m ∈ c.messages ∧ Guarded call Sendable c calls))
  | .checkResponse _ calls => inferInstanceAs (Decidable (Guarded call Sendable c calls))
  | .checkResponseData _ calls => inferInstanceAs (Decidable (Guarded call Sendable c calls))
  | .remove r => inferInstanceAs (Decidable (c.Removable r))
  | .delete r => inferInstanceAs (Decidable (c.Removable r))
  | .clear => isTrue trivial

end StunRequestManager

end Libjingle
