import Libjingle.Lib.Run
import Libjingle.Http.Parser

/-!
# `HttpBase` sends (`base/httpbase.{h,cc}`)

The buffer is the list of its first `len_` bytes. What the network has taken is collected in `written`.
-/

namespace Libjingle.Http

/-- `HttpMode`. -/
inductive HttpMode where
  | none | connect | recv | send
  deriving DecidableEq, Repr

/-- `kBufferSize`. -/
abbrev kBufferSize : ℕ := 32 * 1024

/-- `kChunkDigits`. -/
abbrev kChunkDigits : ℕ := 8

/-- The end of a line. -/
def crlf : List Uint8 := [0x0D, 0x0A]

/-! ## Texts in buffers -/

def strcpyn (buflen : ℕ) (source : List Uint8) : List Uint8 := source.take (buflen - 1)

/-- The string up to its first zero byte. -/
def cstring (s : List Uint8) : List Uint8 := s.takeWhile (· ≠ 0)

/-- The lower-case hexadecimal digit `d`. -/
def hexChar (d : ℕ) : Uint8 := BitVec.ofNat 8 (if d < 10 then 0x30 + d else 0x61 + (d - 10))

/-- `%.*x` of a number below `16 ^ digits`. -/
def formatHex : ℕ → ℕ → List Uint8
  | 0, _ => []
  | digits + 1, n => formatHex digits (n / 16) ++ [hexChar (n % 16)]

/-! ## Messages -/

/-- `HttpData`: the text that `formatLeader` formats, the headers and the document. -/
structure HttpData where
  leader : List Uint8
  headers : List (List Uint8 × List Uint8)
  document : Option (List Uint8)
  deriving DecidableEq, Repr

namespace HttpData

def hasHeader (data : HttpData) (name : List Uint8) : Option (List Uint8) :=
  (data.headers.find? fun header => HttpParser.matchHeader header.1 name).map Prod.snd

def formatLeader (data : HttpData) (size : ℕ) : List Uint8 := strcpyn size data.leader

def isChunked (data : HttpData) : Bool :=
  data.hasHeader (text "Transfer-Encoding") == some (text "chunked")

end HttpData

def headerLine (header : List Uint8 × List Uint8) : List Uint8 :=
  cstring header.1 ++ text ": " ++ cstring header.2 ++ crlf

/-! ## The sender -/

/-- What `Read` of the document answers. -/
inductive ReadAnswer where
  | block
  | data (n : ℕ)
  | error
  deriving DecidableEq, Repr

/-- What comes of a read of the document. -/
inductive ReadResult where
  | success (bytes rest : List Uint8)
  | block
  | eos
  | error
  deriving DecidableEq, Repr

/-- `document->Read`: at least one byte, or `SR_EOS`. -/
def readDocument (document : List Uint8) (requested : ℕ) : ReadAnswer → ReadResult
  | .block => .block
  | .error => .error
  | .data n =>
    if document = [] then .eos
    else .success (document.take (min (n + 1) requested)) (document.drop (min (n + 1) requested))

/-- What `Write` of the stream answers. -/
inductive WriteAnswer where
  | success (n : ℕ)
  | block
  | error (error : ℤ)
  deriving DecidableEq, Repr

/-- Where `flush_data` is, with `send_required`. -/
inductive FlushState where
  | returned
  | queue (sendRequired : Bool)
  | write (sendRequired : Bool)
  deriving DecidableEq, Repr

/-- `HttpBase`, as it sends. `headers` are those from `header_` on, `completed` is the last error
that was told. -/
structure HttpBase where
  mode : HttpMode := .none
  buffer : List Uint8 := []
  chunkData : Bool := false
  headers : List (List Uint8 × List Uint8) := []
  document : Option (List Uint8) := none
  written : List Uint8 := []
  completed : Option HttpError := none
  flush : FlushState := .returned
  deriving DecidableEq, Repr

def queueHeaders (buffer : List Uint8) :
    List (List Uint8 × List Uint8) → List Uint8 × List (List Uint8 × List Uint8) × Bool
  | [] => (buffer ++ strcpyn (kBufferSize - buffer.length) crlf, [], false)
  | header :: headers =>
    let line := strcpyn (kBufferSize - buffer.length) (headerLine header)
    if buffer.length + line.length < kBufferSize - 3 then queueHeaders (buffer ++ line) headers
    -- a header that is too long is discarded
    else if buffer.length = 0 then queueHeaders buffer headers
    else (buffer, header :: headers, true)

def chunk (bytes : List Uint8) : List Uint8 :=
  formatHex kChunkDigits bytes.length ++ crlf ++ bytes ++ crlf

def lastChunk : List Uint8 := text "0" ++ crlf ++ crlf

namespace HttpBase

variable (s : HttpBase)

def doComplete (err : HttpError) : HttpBase :=
  { s with mode := .none, document := none, completed := some err, flush := .returned }

/-- `SOCKET_EACCES`. -/
abbrev socketEacces : ℤ := 13

abbrev secECertExpired : ℤ := -2146893016

def handleStreamClose (error : ℤ) : HttpError :=
  if error = 0 then .disconnected
  else if error = socketEacces then .auth
  else if error = secECertExpired then .certificateExpired
  else if s.mode = .connect then .connectFailed
  else .socketError

def onClose (error : ℤ) : HttpBase :=
  if s.mode ≠ .none then s.doComplete (s.handleStreamClose error) else s

def queueHeaderData (sendRequired : Bool) : HttpBase × Bool :=
  if ¬sendRequired ∧ s.headers ≠ [] then
    let q := Http.queueHeaders s.buffer s.headers
    ({ s with buffer := q.1, headers := q.2.1 }, q.2.2)
  else (s, sendRequired)

def queueDocumentData (sendRequired : Bool) (answer : ReadAnswer) : HttpBase × Option Bool :=
  match s.document with
  | none => (s, some sendRequired)
  | some document =>
    if sendRequired then (s, some true)
    else
      let reserve := s.buffer.length + if s.chunkData then kChunkDigits + 2 + 2 else 0
      if reserve ≥ kBufferSize then (s, some true)
      else
        match readDocument document (kBufferSize - reserve) answer with
        | .success bytes rest =>
          ({ s with
              buffer := s.buffer ++ if s.chunkData then chunk bytes else bytes
              document := some rest }, some false)
        | .block => (s, some true)
        | .eos =>
          if s.chunkData then
            ({ s with buffer := s.buffer ++ lastChunk, chunkData := false }, some true)
          else if s.buffer.length = 0 then (s.doComplete .none, none)
          else (s, some true)
        | .error => (s.doComplete .stream, none)

/-- The first half of the loop of `flush_data`. -/
def queueData (sendRequired : Bool) (answer : ReadAnswer) : HttpBase :=
  let h := s.queueHeaderData sendRequired
  match h.1.queueDocumentData h.2 answer with
  | (s, none) => s
  | (s, some sendRequired) =>
    if s.buffer.length = 0 then
      if s.document = none then s.doComplete .none else { s with flush := .returned }
    else { s with flush := .write sendRequired }

def writeData (sendRequired : Bool) : WriteAnswer → HttpBase
  | .success n =>
    { s with
      buffer := s.buffer.drop n
      written := s.written ++ s.buffer.take n
      flush := .queue false }
  | .block => { s with flush := if sendRequired then .returned else .queue sendRequired }
  | .error error => s.onClose error

def flushData : HttpBase := { s with flush := .queue (s.buffer.length ≥ kBufferSize) }

/-- `send`: the first line and the headers are queued. -/
def send (data : HttpData) : HttpBase :=
  if s.mode ≠ .none then s
  else
    let leader := data.formatLeader kBufferSize
    let buffer := leader ++ strcpyn (kBufferSize - leader.length) crlf
    flushData
      { s with
        mode := .send
        buffer := if data.headers = [] then (queueHeaders buffer []).1 else buffer
        chunkData := data.isChunked
        headers := data.headers
        document := data.document
        completed := none }

/-- What happens to a message that is being sent. -/
inductive Event where
  | ready
  | close (error : ℤ)
  | documentClose
  | read (answer : ReadAnswer)
  | write (answer : WriteAnswer)
  deriving DecidableEq, Repr

/-- The streams signal when `flush_data` does not run, and answer when asked. -/
def step : Event → HttpBase
  | .ready => if s.mode = .send ∧ s.flush = .returned then s.flushData else s
  | .close error => if s.flush = .returned then s.onClose error else s
  | .documentClose =>
    if s.mode = .send ∧ s.document.isSome ∧ s.flush = .returned then s.doComplete .stream else s
  | .read answer =>
    match s.flush with
    | .queue sendRequired => s.queueData sendRequired answer
    | _ => s
  | .write answer =>
    match s.flush with
    | .write sendRequired => s.writeData sendRequired answer
    | _ => s

end HttpBase

end Libjingle.Http
