import Libjingle.Fifo.Model
import Libjingle.Http.Text

/-!
# `HttpParser` (`base/httpbase.{h,cc}`)
-/

namespace Libjingle.Http

/-! ## The parser -/

/-- `SIZE_UNKNOWN`. -/
def sizeUnknown : Uint64 := 0xFFFFFFFFFFFFFFFF

/-- `HttpError`. -/
inductive HttpError where
  | none | protocol | disconnected | overflow | connectFailed | socketError | shutdown
  | operationCancelled | auth | certificateExpired | stream | cache | default
  deriving DecidableEq, Repr

/-- `HttpParser::ProcessResult`. -/
inductive ProcessResult where
  | prContinue | prBlock | prComplete
  deriving DecidableEq, Repr

/-- `HttpParser::ParserState`. -/
inductive ParserState where
  | leader | headers | chunkSize | chunkTerm | trailers | data | complete
  deriving DecidableEq, Repr

def ParserState.isLine : ParserState → Bool
  | .data | .complete => false
  | _ => true

/-- The members of an `HttpParser`. -/
structure HttpParser where
  state : ParserState := .leader
  chunked : Bool := false
  dataSize : Uint64 := sizeUnknown
  deriving DecidableEq, Repr

/-- The calls of the parser to the virtual functions of its interface. -/
inductive HttpCall where
  | leader (line : List Uint8)
  | header (name value : List Uint8)
  | headerComplete (chunked : Bool) (dataSize : Uint64)
  deriving DecidableEq, Repr

/-- What the interface has received: the calls, and the bytes of the body. -/
structure Received where
  calls : List HttpCall := []
  body : List Uint8 := []
  deriving DecidableEq, Repr

/-- A further call. -/
def Received.call (r : Received) (c : HttpCall) : Received := { r with calls := r.calls ++ [c] }

/-- The callbacks: what they return and store. With an error they do not return `PR_CONTINUE`. -/
structure Interface where
  processLeader : Received → List Uint8 → ProcessResult × Option HttpError
  processHeader : Received → List Uint8 → List Uint8 → ProcessResult × Option HttpError
  processHeaderComplete : Received → Bool → Uint64 → ProcessResult × Option HttpError × Uint64
  processData : Received → List Uint8 → ProcessResult × Option HttpError × ℕ
  leader_error : ∀ r line, (processLeader r line).1 = .prContinue →
    (processLeader r line).2.getD .none = .none
  header_error : ∀ r name value, (processHeader r name value).1 = .prContinue →
    (processHeader r name value).2.getD .none = .none
  headerComplete_error : ∀ r chunked size, (processHeaderComplete r chunked size).1 = .prContinue →
    (processHeaderComplete r chunked size).2.1.getD .none = .none
  data_error : ∀ r data, (processData r data).1 = .prContinue →
    (processData r data).2.1.getD .none = .none

/-- Every callback returns `PR_CONTINUE`, and all data is consumed. -/
structure Interface.Continues (cb : Interface) : Prop where
  leader : ∀ r line, (cb.processLeader r line).1 = .prContinue
  header : ∀ r name value, (cb.processHeader r name value).1 = .prContinue
  headerComplete : ∀ r chunked size, (cb.processHeaderComplete r chunked size).1 = .prContinue
  data : ∀ r data, (cb.processData r data).1 = .prContinue ∧ (cb.processData r data).2.2 = data.length

def httpBase (parseLeader : List Uint8 → HttpError)
    (onHttpHeaderComplete : Option (Received → Bool → Uint64 → HttpError × Uint64 × Bool))
    (write : Option (Received → List Uint8 → StreamResult × ℕ)) : Interface where
  processLeader _ line :=
    let error := parseLeader line
    (if error = .none then .prContinue else .prComplete, some error)
  processHeader _ _ _ := (.prContinue, none)
  processHeaderComplete r chunked size :=
    match onHttpHeaderComplete with
    | none => (.prContinue, none, size)
    | some notify =>
      let n := notify r chunked size
      (if n.1 ≠ .none then .prComplete else if n.2.2 then .prBlock else .prContinue, some n.1, n.2.1)
  processData r data :=
    match write with
    | none => (.prContinue, none, data.length)
    | some write =>
      let w := write r data
      match w.1 with
      | .success => (.prContinue, none, w.2)
      | .block => (.prBlock, none, w.2)
      | .eos | .error => (.prComplete, some .stream, w.2)
  leader_error r line h := by
    dsimp only at h ⊢
    split at h
    · assumption
    · cases h
  header_error _ _ _ _ := rfl
  headerComplete_error r chunked size h := by
    cases onHttpHeaderComplete with
    | none => rfl
    | some notify =>
      dsimp only at h ⊢
      split at h
      · cases h
      · exact not_not.mp ‹_›
  data_error r data h := by
    cases write with
    | none => rfl
    | some write =>
      dsimp only at h ⊢
      split at h
      · rfl
      · cases h
      · cases h
      · cases h

namespace HttpParser

def matchHeader (name header : List Uint8) : Bool :=
  name.length == header.length && equalNoCase name header

def applyHeader (p : HttpParser) (name value : List Uint8) : Option HttpParser :=
  if matchHeader name (text "Content-Length") then
    (scanUnsigned value).map fun size => { p with dataSize := BitVec.ofNat 64 size }
  else if matchHeader name (text "Transfer-Encoding") then
    if value.length = 7 ∧ equalNoCase value (text "chunked") then some { p with chunked := true }
    else if value.length = 8 ∧ equalNoCase value (text "identity") then some { p with chunked := false }
    else none
  else some p

/-- What `ProcessLine` returns and stores in `*error`, and what it leaves. -/
structure LineResult where
  result : ProcessResult
  error : Option HttpError := none
  parser : HttpParser
  received : Received

variable (cb : Interface)

/-- `ProcessLine`, with what the callback answers. -/
def processLine (p : HttpParser) (r : Received) (line : List Uint8) : LineResult :=
  match p.state with
  | .leader =>
    let c := cb.processLeader r line
    ⟨c.1, c.2, { p with state := .headers }, r.call (.leader line)⟩
  | .headers =>
    if line ≠ [] then
      match strchrn 0x3A line with
      | none => ⟨.prComplete, some .protocol, p, r⟩
      | some (name, rest) =>
        let value := rest.dropWhile isspace
        match p.applyHeader name value with
        | none => ⟨.prComplete, some .protocol, p, r⟩
        | some p =>
          let c := cb.processHeader r name value
          ⟨c.1, c.2, p, r.call (.header name value)⟩
    else
      let c := cb.processHeaderComplete r p.chunked p.dataSize
      ⟨c.1, c.2.1, { p with state := if p.chunked then .chunkSize else .data, dataSize := c.2.2 },
        r.call (.headerComplete p.chunked p.dataSize)⟩
  | .chunkSize =>
    if line ≠ [] then
      let size := strtoul16 line
      let p := { p with dataSize := BitVec.ofNat 64 size.1 }
      if size.2 ≠ [] then ⟨.prComplete, some .protocol, p, r⟩
      else
        ⟨.prContinue, none, { p with state := if p.dataSize = 0 then .trailers else .data }, r⟩
    else ⟨.prComplete, some .protocol, p, r⟩
  | .chunkTerm =>
    if line ≠ [] then ⟨.prComplete, some .protocol, p, r⟩
    else ⟨.prContinue, none, { p with state := if p.chunked then .chunkSize else .data }, r⟩
  | .trailers => if line = [] then ⟨.prComplete, none, p, r⟩ else ⟨.prContinue, none, p, r⟩
  | .data | .complete => ⟨.prContinue, none, p, r⟩

def splitLine : List Uint8 → Option (List Uint8 × List Uint8)
  | [] => none
  | c :: s => if c = 0x0A then some ([], s) else (splitLine s).map fun r => (c :: r.1, r.2)

def trimRight (line : List Uint8) : List Uint8 := (line.reverse.dropWhile isspace).reverse

/-- What `Process` returns and stores. `rest` is what is not processed. -/
structure Processed where
  result : ProcessResult
  error : HttpError
  parser : HttpParser
  received : Received
  rest : List Uint8
  deriving DecidableEq

def afterData (p : HttpParser) (read : ℕ) : HttpParser :=
  if p.dataSize ≠ sizeUnknown then { p with dataSize := p.dataSize - BitVec.ofNat 64 read } else p

def processLoop : ℕ → HttpError → HttpParser → Received → List Uint8 → Processed
  | 0, error, p, r, rest => ⟨.prContinue, error, p, r, rest⟩
  | fuel + 1, error, p, r, rest =>
    if p.state.isLine then
      match splitLine rest with
      | none => ⟨.prContinue, error, p, r, rest⟩
      | some (line, rest) =>
        let l := processLine cb p r (trimRight line)
        if l.result ≠ .prContinue then ⟨l.result, l.error.getD error, l.parser, l.received, rest⟩
        else processLoop fuel (l.error.getD error) l.parser l.received rest
    else if p.dataSize = 0 then
      if p.chunked then processLoop fuel error { p with state := .chunkTerm } r rest
      else ⟨.prComplete, error, p, r, rest⟩
    else if rest = [] then ⟨.prContinue, error, p, r, rest⟩
    else
      let available :=
        if p.dataSize ≠ sizeUnknown ∧ p.dataSize.toNat < rest.length then p.dataSize.toNat
        else rest.length
      let d := cb.processData r (rest.take available)
      if d.1 ≠ .prContinue then ⟨d.1, d.2.1.getD error, p, r, rest⟩
      else
        processLoop fuel (d.2.1.getD error) (p.afterData d.2.2)
          { r with body := r.body ++ rest.take d.2.2 } (rest.drop d.2.2)

/-- `Process`. Two rounds for each byte, and two more, are enough. -/
def process (p : HttpParser) (r : Received) (buffer : List Uint8) : Processed :=
  if p.state = .complete then ⟨.prComplete, .none, p, r, buffer⟩
  else processLoop cb (2 * buffer.length + 2) .none p r buffer

end HttpParser

/-! ## One buffer after the other -/

/-- A parser, what was received and processed, and what `Process` returned and left. -/
structure Receiving where
  parser : HttpParser
  received : Received := {}
  result : ProcessResult := .prContinue
  error : HttpError := .none
  left : List Uint8 := []
  processed : ℕ := 0
  deriving DecidableEq

def Receiving.present (cb : Interface) (d : Receiving) (buffer : List Uint8) : Receiving :=
  if d.result = .prContinue then
    let g := d.parser.process cb d.received (d.left ++ buffer)
    ⟨g.parser, g.received, g.result, g.error, g.rest,
      d.processed + ((d.left ++ buffer).length - g.rest.length)⟩
  else { d with left := d.left ++ buffer }

end Libjingle.Http
