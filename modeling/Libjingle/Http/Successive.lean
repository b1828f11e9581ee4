import Libjingle.Http.Blocked
import Libjingle.Http.Progress
import Libjingle.Http.Receiver

/-!
# Successive messages on one connection

The network delivers the bytes of several messages, one behind the other, and `recv` is called again and again,
with `send` in between.

The end of a message may be in the middle of what was read. `DoReceiveLoop` keeps the bytes behind it in the
buffer, but `recv` and `send` set `len_` to 0.

Main result: **`successive_iff`**.
-/

namespace Libjingle.Http

open Lib HttpParser

/-! ## What is kept -/

/-- `part` was read behind the messages that were delivered. -/
structure InOrder (len : BodyLength) (messages : List (List Uint8)) (part : List Uint8) (s : HttpConnection) :
    Prop where
  delivered : s.delivered = (messages.take s.delivered.length).map fun message => (receivedOf len message, .none)
  stream : messages.flatten = (messages.take s.delivered.length).flatten ++ part ++ s.incoming
  underway : s.mode = .recv →
    (machine (silent len)).Steps ⟨{}, {}, none⟩ part ⟨s.parser, s.received, none⟩ s.buffer
  between : s.mode ≠ .recv → part = if s.mode = .none ∧ s.ended = .recv then s.buffer else []
  waiting : ∀ loopCount, s.receive = .reading loopCount true →
    ∀ message ∈ messages[s.delivered.length]?, part.length < message.length
  reading : s.receive ≠ .returned → s.mode = .recv

/-- **No bytes are lost** between the messages. -/
def Successive (len : BodyLength) (messages : List (List Uint8)) (s : HttpConnection) : Prop :=
  ∃ part, InOrder len messages part s

def Assumed (len : BodyLength) (messages : List (List Uint8)) (s : HttpConnection) : HttpConnection.Event → Prop
  | .read answer cb => cb.Cooperates len messages ∧ (∀ error, answer ≠ .error error) ∧
      (s.incoming = [] → answer = .block)
  | .close _ => s.mode ≠ .recv
  | _ => True

def KeepsBytes (s : HttpConnection) : HttpConnection.Event → Prop
  | .recv _ | .send _ => s.mode = .none → s.closed = false → s.ended = .recv → s.buffer = []
  | .read _ _ => ∀ loopCount, s.receive = .reading loopCount true → s.buffer.length < kBufferSize
  | _ => True

variable {len : BodyLength} {messages : List (List Uint8)} {part : List Uint8} {s : HttpConnection}

theorem drop_flatten {k : ℕ} {incoming : List Uint8}
    (h : messages.flatten = (messages.take k).flatten ++ part ++ incoming) :
    (messages.drop k).flatten = part ++ incoming := by
  have hsplit : messages.flatten = (messages.take k).flatten ++ (messages.drop k).flatten := by
    rw [← List.flatten_append, List.take_append_drop]
  rw [h, List.append_assoc] at hsplit
  exact (List.append_cancel_left hsplit).symm

theorem InOrder.unique {part' : List Uint8} {s' : HttpConnection} (h : InOrder len messages part s)
    (h' : InOrder len messages part' s') (hdelivered : s'.delivered = s.delivered)
    (hincoming : s'.incoming = s.incoming) : part' = part := by
  have hrest := drop_flatten h'.stream
  rw [hdelivered, drop_flatten h.stream, hincoming] at hrest
  exact (List.append_cancel_right hrest).symm

/-! ## Receiving -/

/-- A message that is being received: `part` of it was read. -/
structure Receives (len : BodyLength) (messages : List (List Uint8)) (part : List Uint8) (s : HttpConnection) :
    Prop where
  mode : s.mode = .recv
  delivered : s.delivered = (messages.take s.delivered.length).map fun message => (receivedOf len message, .none)
  stream : messages.flatten = (messages.take s.delivered.length).flatten ++ part ++ s.incoming
  underway : (machine (silent len)).Steps ⟨{}, {}, none⟩ part ⟨s.parser, s.received, none⟩ s.buffer

theorem InOrder.receives (h : InOrder len messages part s) (hmode : s.mode = .recv) : Receives len messages part s :=
  ⟨hmode, h.delivered, h.stream, h.underway hmode⟩

theorem Receives.not_complete (h : Receives len messages part s) : s.parser.state ≠ .complete :=
  steps_not_complete h.underway nofun

theorem Receives.inOrder (h : Receives len messages part s)
    (hwaiting : ∀ loopCount, s.receive = .reading loopCount true →
      ∀ message ∈ messages[s.delivered.length]?, part.length < message.length) : InOrder len messages part s :=
  ⟨h.delivered, h.stream, fun _ => h.underway, fun hmode => absurd h.mode hmode, hwaiting, fun _ => h.mode⟩

theorem Receives.read (h : Receives len messages part s) (n : ℕ) :
    Receives len messages (part ++ s.incoming.take n)
      { s with buffer := s.buffer ++ s.incoming.take n, incoming := s.incoming.drop n } := by
  refine ⟨h.mode, h.delivered, ?_, h.underway.append _⟩
  show messages.flatten = _ ++ (part ++ s.incoming.take n) ++ s.incoming.drop n
  rw [h.stream]
  simp only [List.append_assoc, List.take_append_drop]

theorem successive_complete {message : List Uint8} {more : List (List Uint8)} (hparser : s.parser.state ≠ .complete)
    (hdelivered :
      s.delivered = (messages.take s.delivered.length).map fun message => (receivedOf len message, .none))
    (hdrop : messages.drop s.delivered.length = message :: more) (hreceived : s.received = receivedOf len message)
    (hmore : more.flatten = s.buffer ++ s.incoming) : Successive len messages (s.complete .none) := by
  have hlength : (s.delivered ++ [(s.received, HttpError.none)]).length = s.delivered.length + 1 :=
    List.length_append
  have htake : messages.take (s.delivered.length + 1) = messages.take s.delivered.length ++ [message] := by
    rw [List.take_add, hdrop]
    rfl
  rw [HttpConnection.complete, if_neg hparser]
  refine ⟨s.buffer, ?_, ?_, nofun, fun _ => rfl, nofun, nofun⟩
  · show s.delivered ++ [(s.received, HttpError.none)] = _
    rw [hlength, htake, List.map_append, ← hdelivered, hreceived]
    rfl
  · show messages.flatten =
      (messages.take (s.delivered ++ [(s.received, HttpError.none)]).length).flatten ++ s.buffer ++ s.incoming
    rw [hlength, List.append_assoc, ← hmore, ← List.flatten_append, htake, List.append_assoc,
      List.singleton_append, ← hdrop, List.take_append_drop]

theorem Receives.processBuffer (h : Receives len messages part s)
    (hmessages : ∀ message ∈ messages, IsMessage len message) {cb : Interface}
    (hcb : cb.Cooperates len messages) (loopCount : ℕ) :
    Successive len messages (s.processBuffer loopCount cb) := by
  have hrest := drop_flatten h.stream
  have hlater : ∀ message ∈ messages.drop s.delivered.length, message ∈ messages :=
    fun message => List.mem_of_mem_drop
  have hlater' : ∀ message ∈ messages.drop s.delivered.length, IsMessage len message :=
    fun message hmem => hmessages message (hlater message hmem)
  have hleads := leads_message hcb hlater hlater' hrest h.underway
  unfold HttpConnection.processBuffer
  dsimp only
  rcases process_progress hcb s.received h.not_complete hleads with
    ⟨hresult, hsteps, hstop⟩ | ⟨hresult, hsteps⟩ | ⟨hresult, hsteps⟩
  · -- the buffer is processed as far as it goes
    rw [hresult]
    refine ⟨part, Receives.inOrder ⟨h.mode, h.delivered, h.stream, h.underway.trans hsteps⟩ ?_⟩
    intro _ _ message hmessage
    rw [← List.head?_drop] at hmessage
    exact waits_for_message hlater' hrest (h.underway.trans hsteps) hstop message hmessage
  · -- a callback blocks
    rw [hresult]
    exact ⟨part, Receives.inOrder ⟨h.mode, h.delivered, h.stream, h.underway.trans hsteps⟩ nofun⟩
  · -- the message is complete
    have hwhole := h.underway.trans hsteps
    obtain ⟨message, more, hdrop, hreceived, herror, hmore⟩ := completes_message hlater' hrest hwhole
    rw [hresult]
    dsimp only
    rw [herror]
    exact successive_complete (steps_not_complete hwhole nofun) h.delivered hdrop hreceived hmore

/-! ## Steps -/

theorem not_successive_of_error {err : HttpError} (hparser : s.parser.state ≠ .complete) (herr : err ≠ .none) :
    ¬Successive len messages (s.complete err) := by
  rintro ⟨part, h⟩
  have hdelivered := h.delivered
  rw [HttpConnection.complete, if_neg hparser] at hdelivered
  dsimp only at hdelivered
  have hlast : (s.received, err) ∈ s.delivered ++ [(s.received, err)] :=
    List.mem_append_right _ (List.mem_singleton_self _)
  rw [hdelivered] at hlast
  obtain ⟨message, -, heq⟩ := List.mem_map.mp hlast
  exact herr (Prod.mk.inj heq).2.symm

theorem successive_receiveRound (h : InOrder len messages part s)
    (hmessages : ∀ message ∈ messages, IsMessage len message) {loopCount : ℕ} {requiresMoreData : Bool}
    (hreceive : s.receive = .reading loopCount requiresMoreData) {answer : NetworkAnswer} {cb : Interface}
    (hcb : cb.Cooperates len messages) (herror : ∀ error, answer ≠ .error error)
    (hend : s.incoming = [] → answer = .block) :
    Successive len messages (s.receiveRound loopCount requiresMoreData answer cb) ↔
      (requiresMoreData = true → s.buffer.length < kBufferSize) := by
  have hmode := h.reading (by rw [hreceive]; nofun)
  have hreceives := h.receives hmode
  unfold HttpConnection.receiveRound
  by_cases hroom : s.buffer.length < kBufferSize
  · rw [if_pos hroom]
    refine iff_of_true ?_ fun _ => hroom
    cases answer with
    | error error => exact absurd rfl (herror error)
    | data n =>
      have hmore : s.incoming ≠ [] := fun hnil => absurd (hend hnil) nofun
      dsimp only
      rw [if_neg hmore]
      exact (hreceives.read _).processBuffer hmessages hcb loopCount
    | block =>
      cases requiresMoreData with
      | false => exact hreceives.processBuffer hmessages hcb loopCount
      | true => exact ⟨part, Receives.inOrder ⟨hmode, h.delivered, h.stream, h.underway hmode⟩ nofun⟩
  · rw [if_neg hroom]
    cases requiresMoreData with
    | false => exact iff_of_true (hreceives.processBuffer hmessages hcb loopCount) nofun
    | true =>
      refine iff_of_false (not_successive_of_error hreceives.not_complete nofun) fun hkeeps => ?_
      exact hroom (hkeeps rfl)

theorem successive_recv (h : InOrder len messages part s) (streamMode : Bool) :
    Successive len messages (s.recv streamMode) ↔ KeepsBytes s (.recv streamMode) := by
  rw [HttpConnection.recv]
  by_cases hstart : s.mode ≠ .none ∨ s.closed = true
  · rw [if_pos hstart]
    refine iff_of_true ⟨part, h⟩ fun hmode hclosed => ?_
    rcases hstart with hne | hclosed'
    · exact absurd hmode hne
    · rw [hclosed] at hclosed'
      cases hclosed'
  rw [if_neg hstart]
  obtain ⟨hmode, hclosed⟩ := not_or.mp hstart
  have hmode : s.mode = .none := not_not.mp hmode
  have hbetween := h.between (by rw [hmode]; nofun)
  constructor
  · rintro ⟨part', h'⟩ - - hended
    have hpart : part' = part := h.unique h' rfl rfl
    obtain ⟨-, hbuffer⟩ := steps_leader (h'.underway rfl) rfl
    rw [if_pos ⟨hmode, hended⟩] at hbetween
    rw [← hbetween, ← hpart]
    exact hbuffer.symm
  · intro hkeeps
    have hpart : part = [] := by
      rw [hbetween]
      split_ifs with hended
      · exact hkeeps hmode (by simpa using hclosed) hended.2
      · rfl
    subst hpart
    refine ⟨[], Receives.inOrder ⟨rfl, h.delivered, h.stream, .refl _ _⟩ fun loopCount hreading => ?_⟩
    cases streamMode <;> cases hreading

theorem successive_send (h : InOrder len messages part s) (data : HttpData) :
    Successive len messages (s.send data) ↔ KeepsBytes s (.send data) := by
  rw [HttpConnection.send]
  cases hclosed : s.closed with
  | true =>
    refine iff_of_true ⟨part, h⟩ fun _ hopen => ?_
    rw [hclosed] at hopen
    cases hopen
  | false =>
    rw [if_neg Bool.false_ne_true]
    by_cases hmode : s.mode = .none
    · have hsending : (s.toHttpBase.send data).mode = .send := by
        rw [HttpBase.send, if_neg (not_not.mpr hmode)]
        rfl
      have hbetween := h.between (by rw [hmode]; nofun)
      have hidle : s.receive = .returned := by
        by_contra hne
        exact absurd (hmode.symm.trans (h.reading hne)) nofun
      constructor
      · rintro ⟨part', h'⟩ - - hended
        have hpart : part' = part := h.unique h' rfl rfl
        have hbetween' := h'.between (by rw [hsending]; nofun)
        rw [if_neg (by rw [hsending]; exact fun hnone => nomatch hnone.1)] at hbetween'
        rw [if_pos ⟨hmode, hended⟩] at hbetween
        rw [← hbetween, ← hpart, hbetween']
      · intro hkeeps
        have hpart : part = [] := by
          rw [hbetween]
          split_ifs with hended
          · exact hkeeps hmode hclosed hended.2
          · rfl
        subst hpart
        refine ⟨[], h.delivered, h.stream, fun hrecv => ?_, fun _ => ?_, h.waiting,
          fun hne => absurd hidle hne⟩
        · exact absurd (hsending.symm.trans hrecv) nofun
        · rw [if_neg (by rw [hsending]; exact fun hnone => nomatch hnone.1)]
    · have hsame : s.toHttpBase.send data = s.toHttpBase := by rw [HttpBase.send, if_pos hmode]
      rw [hsame, ← hclosed]
      exact iff_of_true ⟨part, h⟩ fun hnone => absurd hnone hmode

theorem queueDocumentData_mode (b : HttpBase) (sendRequired : Bool) (answer : ReadAnswer) :
    (b.queueDocumentData sendRequired answer).1.mode = b.mode ∨
      (b.queueDocumentData sendRequired answer).1.mode = .none := by
  cases sendRequired with
  | true => exact .inl (by rw [queueDocumentData_true])
  | false =>
    cases hdocument : b.document with
    | none => exact .inl (by rw [HttpBase.queueDocumentData, hdocument])
    | some document =>
      rcases HttpBase.queueDocumentData_cases hdocument answer with
        ⟨bytes, rest, -, -, hq⟩ | ⟨-, -, -, hq⟩ | ⟨-, -, err, hq⟩ | ⟨-, hq⟩
      · exact .inl (by rw [hq])
      · exact .inl (by rw [hq])
      · exact .inr (by rw [hq]; rfl)
      · exact .inl (by rw [hq])

theorem queueData_mode (b : HttpBase) (sendRequired : Bool) (answer : ReadAnswer) :
    (b.queueData sendRequired answer).mode = b.mode ∨ (b.queueData sendRequired answer).mode = .none := by
  have hqueued :=
    queueDocumentData_mode (b.queueHeaderData sendRequired).1 (b.queueHeaderData sendRequired).2 answer
  rw [queueHeaderData_mode] at hqueued
  unfold HttpBase.queueData
  dsimp only
  split
  · next heq =>
    rw [heq] at hqueued
    exact hqueued
  · next heq =>
    rw [heq] at hqueued
    split_ifs
    · exact .inr rfl
    · exact hqueued
    · exact hqueued

theorem step_mode (b : HttpBase) (event : HttpBase.Event) :
    (b.step event).mode = b.mode ∨ (b.step event).mode = .none := by
  cases event with
  | ready =>
    rw [HttpBase.step]
    split_ifs <;> exact .inl rfl
  | close error =>
    rw [HttpBase.step, HttpBase.onClose]
    split_ifs
    · exact .inr rfl
    · exact .inl rfl
    · exact .inl rfl
  | documentClose =>
    rw [HttpBase.step]
    split_ifs
    · exact .inr rfl
    · exact .inl rfl
  | read answer =>
    rw [HttpBase.step]
    cases b.flush with
    | queue sendRequired => exact queueData_mode b sendRequired answer
    | returned => exact .inl rfl
    | write sendRequired => exact .inl rfl
  | write answer =>
    rw [HttpBase.step]
    cases b.flush with
    | returned => exact .inl rfl
    | queue sendRequired => exact .inl rfl
    | write sendRequired =>
      cases answer with
      | success n => exact .inl rfl
      | block => exact .inl rfl
      | error error =>
        show (b.onClose error).mode = b.mode ∨ (b.onClose error).mode = .none
        rw [HttpBase.onClose]
        split_ifs
        · exact .inr rfl
        · exact .inl rfl

theorem successive_sending (h : InOrder len messages part s) (event : HttpBase.Event) :
    Successive len messages (s.sending event) := by
  rw [HttpConnection.sending]
  split_ifs with hmode
  · have hpart : part = [] := by
      rw [h.between (by rw [hmode]; nofun), if_neg (by rw [hmode]; exact fun hnone => nomatch hnone.1)]
    have hidle : s.receive = .returned := by
      by_contra hne
      exact absurd (hmode.symm.trans (h.reading hne)) nofun
    subst hpart
    have hmodes := step_mode s.toHttpBase event
    rw [hmode] at hmodes
    refine ⟨[], h.delivered, h.stream, fun hrecv => ?_, fun _ => ?_, h.waiting, fun hne => absurd hidle hne⟩
    · rcases hmodes with hsend | hnone
      · exact absurd (hsend.symm.trans hrecv) nofun
      · exact absurd (hnone.symm.trans hrecv) nofun
    · rw [if_neg]
      rintro ⟨hnone, hended⟩
      have hnone : (s.toHttpBase.step event).mode = .none := hnone
      dsimp only at hended
      rw [if_pos hnone] at hended
      cases hended
  · exact ⟨part, h⟩

/-- **An event keeps the messages in order exactly if it keeps the bytes**. -/
theorem step_successive (hmessages : ∀ message ∈ messages, IsMessage len message) (s : HttpConnection)
    (event : HttpConnection.Event) (h : Successive len messages s) (hassumed : Assumed len messages s event) :
    Successive len messages (s.step event) ↔ KeepsBytes s event := by
  obtain ⟨part, h⟩ := h
  cases event with
  | recv streamMode => exact successive_recv h streamMode
  | send data => exact successive_send h data
  | sending event => exact iff_of_true (successive_sending h event) trivial
  | ready =>
    refine iff_of_true ?_ trivial
    rw [HttpConnection.step]
    split_ifs with hready
    · exact ⟨part, Receives.inOrder ⟨hready.1, h.delivered, h.stream, h.underway hready.1⟩ nofun⟩
    · exact ⟨part, h⟩
  | close error =>
    refine iff_of_true ?_ trivial
    have hmode : s.mode ≠ .recv := hassumed
    rw [HttpConnection.step, if_neg fun hrecv => hmode hrecv.1]
    split_ifs
    · exact ⟨part, h.delivered, h.stream, h.underway, h.between, h.waiting, h.reading⟩
    · exact ⟨part, h⟩
  | read answer cb =>
    obtain ⟨hcb, herror, hend⟩ := hassumed
    rw [HttpConnection.step, KeepsBytes]
    cases hreceive : s.receive with
    | returned => exact iff_of_true ⟨part, h⟩ nofun
    | reading loopCount requiresMoreData =>
      dsimp only
      rw [successive_receiveRound h hmessages hreceive hcb herror hend]
      constructor
      · rintro hkeeps _ ⟨⟩
        exact hkeeps rfl
      · rintro hkeeps rfl
        exact hkeeps loopCount rfl

/-! ## Runs -/

/-- **No bytes are lost** in a run if and only if none of its steps throws bytes away. -/
theorem successive_iff (len : BodyLength) (messages : List (List Uint8)) (events : List HttpConnection.Event)
    (hmessages : ∀ message ∈ messages, IsMessage len message)
    (hassumed : Guarded HttpConnection.step (Assumed len messages) { incoming := messages.flatten } events) :
    (∀ pre, pre <+: events →
        Successive len messages (run HttpConnection.step { incoming := messages.flatten } pre)) ↔
      Guarded HttpConnection.step KeepsBytes { incoming := messages.flatten } events := by
  have hstart : Successive len messages { incoming := messages.flatten } :=
    ⟨[], rfl, rfl, nofun, fun _ => rfl, nofun, fun hne => absurd rfl hne⟩
  rw [guarded_iff_invariant_of (I := Successive len messages)
    (fun s event h hassumed => step_successive hmessages s event h hassumed) hassumed]
  exact and_iff_right hstart

def requestLength : BodyLength := fun _ _ size => if size = sizeUnknown then 0 else size

def twoRequests : List (List Uint8) := [text "PUT\nContent-Length:2\n\nxy", text "GET\n\n"]

def requestsApart : List HttpConnection.Event :=
  let cb := silent requestLength
  [.recv false, .read (.data 5) cb, .read (.data 17) cb, .send ⟨text "OK", [], none⟩, .sending (.read .block),
    .sending (.write (.success 9)), .sending (.read .block), .recv false, .read .block cb, .read (.data 99) cb]

/-- Both arrive in one read. -/
def requestsTogether : List HttpConnection.Event :=
  let cb := silent requestLength
  [.recv false, .read (.data 99) cb, .recv false, .read .block cb, .read .block cb]

theorem successive_apart :
    Successive requestLength twoRequests
        (run HttpConnection.step { incoming := twoRequests.flatten } requestsApart) ∧
      (run HttpConnection.step { incoming := twoRequests.flatten } requestsApart).delivered.length = 2 := by
  refine ⟨(successive_iff requestLength twoRequests _ (by decide) ?_).mpr ?_ _ List.prefix_rfl, by decide⟩
  · have hread := silent_cooperates requestLength twoRequests
    exact ⟨trivial, ⟨hread, nofun, by decide⟩, ⟨hread, nofun, by decide⟩, trivial, trivial, trivial, trivial,
      trivial, ⟨hread, nofun, by decide⟩, ⟨hread, nofun, by decide⟩, trivial⟩
  · exact ⟨fun _ _ _ => by decide, fun _ _ => by decide, fun _ _ => by decide, fun _ _ _ => by decide, trivial,
      trivial, trivial, fun _ _ _ => by decide, fun _ _ => by decide, fun _ _ => by decide, trivial⟩

/-- **The next request is lost**: `recv` waits for more, and all has been read. -/
theorem next_request_lost :
    ¬Successive requestLength twoRequests
        (run HttpConnection.step { incoming := twoRequests.flatten } requestsTogether) ∧
      (run HttpConnection.step { incoming := twoRequests.flatten } requestsTogether).mode = .recv ∧
      (run HttpConnection.step { incoming := twoRequests.flatten } requestsTogether).incoming = [] ∧
      (run HttpConnection.step { incoming := twoRequests.flatten } requestsTogether).buffer = [] ∧
      (run HttpConnection.step { incoming := twoRequests.flatten } requestsTogether).delivered.length = 1 := by
  have hend : (run HttpConnection.step { incoming := twoRequests.flatten } requestsTogether).mode = .recv ∧
      (run HttpConnection.step { incoming := twoRequests.flatten } requestsTogether).incoming = [] ∧
      (run HttpConnection.step { incoming := twoRequests.flatten } requestsTogether).buffer = [] ∧
      (run HttpConnection.step { incoming := twoRequests.flatten } requestsTogether).delivered.length = 1 := by
    decide
  refine ⟨?_, hend⟩
  obtain ⟨hmode, hincoming, hbuffer, hdelivered⟩ := hend
  rintro ⟨part, h⟩
  have hpart : part = [] := (steps_leader (h.underway hmode) (by decide)).2.symm.trans hbuffer
  have hstream := h.stream
  rw [hpart, hincoming, hdelivered] at hstream
  exact absurd hstream (by decide)

end Libjingle.Http
