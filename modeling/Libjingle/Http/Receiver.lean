import Libjingle.Http.Sender

/-!
# `HttpBase` sends and receives (`base/httpbase.{h,cc}`)

The callbacks of each round are a parameter of it, so that a document may block in one round and not in another.
In stream mode, where `doc_stream_` is open, `recv` leaves it to the user of that stream to run the loop.
-/

namespace Libjingle.Http

abbrev kMaxReadCount : ℕ := 20

/-- What `Read` of the stream answers. -/
inductive NetworkAnswer where
  | block
  | data (n : ℕ)
  | error (error : ℤ)
  deriving DecidableEq, Repr

/-- Where `DoReceiveLoop` is: it does not run, or is about to read. -/
inductive ReceiveState where
  | returned
  | reading (loopCount : ℕ) (requiresMoreData : Bool)
  deriving DecidableEq, Repr

/-- `HttpBase`, as it sends and receives. `ended` is the mode that `onHttpComplete` was told last,
`received` what is in `data_`. -/
structure HttpConnection extends HttpBase where
  parser : HttpParser := {}
  received : Received := {}
  receive : ReceiveState := .returned
  incoming : List Uint8 := []
  closed : Bool := false
  ended : HttpMode := .none
  delivered : List (Received × HttpError) := []
  deriving DecidableEq

def HttpBase.Event.closes : HttpBase.Event → Bool
  | .close _ | .write (.error _) => true
  | _ => false

namespace HttpConnection

variable (s : HttpConnection)

def isValidEndOfInput : Bool := s.parser.state == .data && s.parser.dataSize == sizeUnknown

def complete (err : HttpError) : HttpConnection :=
  if s.parser.state = .complete then { s with receive := .returned }
  else
    { s with
      toHttpBase := s.toHttpBase.doComplete err
      parser := { s.parser with state := .complete }
      receive := .returned
      ended := .recv
      delivered := s.delivered ++ [(s.received, err)] }

def closeReceiving (error : ℤ) : HttpConnection :=
  { s with closed := true }.complete
    (if error = 0 ∧ s.isValidEndOfInput then .none else s.toHttpBase.handleStreamClose error)

def processBuffer (loopCount : ℕ) (cb : Interface) : HttpConnection :=
  let g := s.parser.process cb s.received s.buffer
  let s := { s with parser := g.parser, received := g.received, buffer := g.rest }
  match g.result with
  | .prContinue =>
    { s with receive := if loopCount + 1 ≤ kMaxReadCount then .reading (loopCount + 1) true else .returned }
  | .prBlock => { s with receive := .returned }
  | .prComplete => s.complete g.error

def receiveRound (loopCount : ℕ) (requiresMoreData : Bool) (answer : NetworkAnswer) (cb : Interface) :
    HttpConnection :=
  if s.buffer.length < kBufferSize then
    match answer with
    | .data n =>
      if s.incoming = [] then s.closeReceiving 0
      else
        let read := min (n + 1) (kBufferSize - s.buffer.length)
        { s with
          buffer := s.buffer ++ s.incoming.take read
          incoming := s.incoming.drop read }.processBuffer loopCount cb
    | .block => if requiresMoreData then { s with receive := .returned } else s.processBuffer loopCount cb
    | .error error => s.closeReceiving error
  else if requiresMoreData then s.complete .overflow
  else s.processBuffer loopCount cb

/-- `recv`: `len_` is set to 0. -/
def recv (streamMode : Bool) : HttpConnection :=
  if s.mode ≠ .none ∨ s.closed then s
  else
    { s with
      mode := .recv
      buffer := []
      chunkData := false
      parser := {}
      received := {}
      receive := if streamMode then .returned else .reading 0 false }

/-- `send`: `len_` is set to 0 as well. -/
def send (data : HttpData) : HttpConnection :=
  if s.closed then s else { s with toHttpBase := s.toHttpBase.send data }

def sending (event : HttpBase.Event) : HttpConnection :=
  if s.mode = .send then
    let base := s.toHttpBase.step event
    { s with
      toHttpBase := base
      closed := s.closed || (base.mode == .none && event.closes)
      ended := if base.mode = .none then .send else s.ended }
  else s

/-- What happens to the connection. -/
inductive Event where
  | recv (streamMode : Bool)
  | send (data : HttpData)
  | sending (event : HttpBase.Event)
  | ready
  | close (error : ℤ)
  | read (answer : NetworkAnswer) (cb : Interface)

def step : Event → HttpConnection
  | .recv streamMode => s.recv streamMode
  | .send data => s.send data
  | .sending event => s.sending event
  | .ready => if s.mode = .recv ∧ s.receive = .returned then { s with receive := .reading 0 false } else s
  | .close error =>
    if s.mode = .recv ∧ s.receive = .returned then s.closeReceiving error
    else if s.mode = .none then { s with closed := true }
    else s
  | .read answer cb =>
    match s.receive with
    | .reading loopCount requiresMoreData => s.receiveRound loopCount requiresMoreData answer cb
    | .returned => s

end HttpConnection

end Libjingle.Http
