import Libjingle.Lib.Rounds
import Libjingle.Http.Delivery

/-!
# `flush_data` while the network blocks (`base/httpbase.cc`)

The loop of `flush_data` from the top of a round on, when every `Write` from there on returns `SR_BLOCK`.

Main results: **`leaves_iff`**, **`neverSpins_iff`**.
-/

variable {bytes rest : List Uint8} {chunkData required : Bool}

namespace Libjingle.Http

open Lib

namespace HttpBase

/-! ## Rounds -/

/-- A round of the loop of `flush_data` while the stream blocks. -/
def blockedRound (s : HttpBase) (answer : ReadAnswer) : HttpBase :=
  (s.step (.read answer)).step (.write .block)

/-- What the `Write` of a round offers to the network. -/
def offered (s : HttpBase) (answer : ReadAnswer) : Option (List Uint8) :=
  match (s.step (.read answer)).flush with
  | .write _ => some (s.step (.read answer)).buffer
  | _ => none

/-- `flush_data` returns. -/
def Leaves (s : HttpBase) (answers : ℕ → ReadAnswer) : Prop :=
  ∃ n, (rounds blockedRound s answers n).flush = .returned

def Fresh (s : HttpBase) (answers : ℕ → ReadAnswer) : Prop :=
  ∀ n a b, (rounds blockedRound s answers n).offered (answers n) = some a →
    (rounds blockedRound s answers (n + 1)).offered (answers (n + 1)) = some b → a.length < b.length

/-- **No spinning**, for the answers that the document gives. -/
structure NeverSpins (s : HttpBase) (answers : ℕ → ReadAnswer) : Prop where
  leaves : s.Leaves answers
  fresh : s.Fresh answers
  keeps : ∀ m n, m ≤ n →
    (rounds blockedRound s answers m).buffer <+:
        ((rounds blockedRound s answers n).step (.read (answers n))).buffer ∧
      ((rounds blockedRound s answers m).step (.read (answers m))).buffer <+:
        (rounds blockedRound s answers (n + 1)).buffer

/-! ## The messages that do not spin -/

def reserve (chunkData : Bool) (len : ℕ) : ℕ := len + if chunkData then kChunkDigits + 2 + 2 else 0

def readInto (chunkData : Bool) (len : ℕ) (document : List Uint8) (answer : ReadAnswer) : ReadResult :=
  readDocument document (kBufferSize - reserve chunkData len) answer

def Ends (chunkData : Bool) (len : ℕ) (document : List Uint8) (answer : ReadAnswer) : Prop :=
  reserve chunkData len < kBufferSize ∧
    (readInto chunkData len document answer = .error ∨
      chunkData = true ∧ readInto chunkData len document answer = .eos)

/-- After a blocked `Write`, `Read` succeeds until one `Ends` the loop, before the buffer fills
up. -/
inductive EndsWell (chunkData : Bool) : ℕ → List Uint8 → (ℕ → ReadAnswer) → Prop where
  | ends {len document answers} : Ends chunkData len document (answers 0) →
      EndsWell chunkData len document answers
  | more {len document answers bytes rest} : reserve chunkData len < kBufferSize →
      readInto chunkData len document (answers 0) = .success bytes rest →
      EndsWell chunkData (reserve chunkData len + bytes.length) rest (fun k => answers (k + 1)) →
      EndsWell chunkData len document answers

def StartsWell (chunkData : Bool) (len : ℕ) (document : List Uint8) (answers : ℕ → ReadAnswer) : Prop :=
  reserve chunkData len < kBufferSize → ∀ bytes rest,
    readInto chunkData len document (answers 0) = .success bytes rest →
      EndsWell chunkData (reserve chunkData len + bytes.length) rest fun k => answers (k + 1)

def NothingLeft (s : HttpBase) : Prop := s.document = none ∧ s.headers = [] ∧ s.buffer = []

def HeadersWait (s : HttpBase) (sendRequired : Bool) : Prop := (s.queueHeaderData sendRequired).2 = true

/-- **The messages that do not spin.** -/
def Productive (s : HttpBase) (sendRequired : Bool) (answers : ℕ → ReadAnswer) : Prop :=
  s.HeadersWait sendRequired ∨ s.NothingLeft ∨
    ∃ document, s.document = some document ∧
      StartsWell s.chunkData (s.queueHeaderData sendRequired).1.buffer.length document answers

/-! ## What a round does -/

variable {s : HttpBase} {sendRequired : Bool} {answer : ReadAnswer} {answers : ℕ → ReadAnswer}
  {document : List Uint8}

theorem readDocument_success {requested : ℕ} (hroom : 0 < requested)
    (h : readDocument document requested answer = .success bytes rest) : bytes ≠ [] := by
  cases answer with
  | block => cases h
  | error => cases h
  | data n =>
    rw [readDocument] at h
    split_ifs at h with hdocument
    cases h
    intro hnil
    rcases List.take_eq_nil_iff.mp hnil with hzero | hzero
    · omega
    · exact hdocument hzero

theorem blockedRound_of_returned (h : s.flush = .returned) (answer : ReadAnswer) : s.blockedRound answer = s := by
  simp only [blockedRound, step, h]

theorem offered_of_returned (h : s.flush = .returned) (answer : ReadAnswer) : s.offered answer = none := by
  simp only [offered, step, h]

theorem step_read (h : s.flush = .queue sendRequired) (answer : ReadAnswer) :
    s.step (.read answer) = s.queueData sendRequired answer := by
  simp only [step, h]

theorem step_write (h : s.flush = .write required) (write : WriteAnswer) :
    s.step (.write write) = s.writeData required write := by
  simp only [step, h]

theorem step_write_of_not_write (h : ∀ required, s.flush ≠ .write required) (write : WriteAnswer) :
    s.step (.write write) = s := by
  cases hflush : s.flush with
  | write required => exact absurd hflush (h required)
  | returned => simp only [step, hflush]
  | queue required => simp only [step, hflush]

theorem round_of_returned (h : s.flush = .queue sendRequired)
    (hq : (s.queueData sendRequired answer).flush = .returned) :
    s.blockedRound answer = s.queueData sendRequired answer ∧ s.offered answer = none := by
  rw [blockedRound, offered, step_read h]
  simp only [step, hq, and_self]

theorem round_of_write (h : s.flush = .queue sendRequired)
    (hq : (s.queueData sendRequired answer).flush = .write required) :
    s.blockedRound answer =
        { s.queueData sendRequired answer with
          flush := if required then .returned else .queue false } ∧
      s.offered answer = some (s.queueData sendRequired answer).buffer := by
  rw [blockedRound, offered, step_read h, step_write hq]
  simp only [hq, writeData, and_true]
  cases required <;> rfl

/-! ### Headers -/

theorem queueHeaders_keeps (buffer : List Uint8) (headers : List (List Uint8 × List Uint8)) :
    buffer <+: (queueHeaders buffer headers).1 := by
  induction headers generalizing buffer with
  | nil => exact List.prefix_append _ _
  | cons header headers ih =>
    rw [queueHeaders]
    split_ifs
    · exact (List.prefix_append _ _).trans (ih _)
    · exact ih _
    · exact List.prefix_rfl

theorem queueHeaders_done {buffer : List Uint8} {headers : List (List Uint8 × List Uint8)}
    (h : (queueHeaders buffer headers).2.2 = false) :
    (queueHeaders buffer headers).2.1 = [] ∧ (queueHeaders buffer headers).1 ≠ [] := by
  induction headers generalizing buffer with
  | nil =>
    refine ⟨rfl, fun hnil => ?_⟩
    obtain ⟨hbuffer, hcrlf⟩ := List.append_eq_nil_iff.mp hnil
    rw [hbuffer] at hcrlf
    exact absurd hcrlf (by decide)
  | cons header headers ih =>
    rw [queueHeaders] at h ⊢
    split_ifs at h ⊢
    · exact ih h
    · exact ih h

theorem queueHeaderData_keeps (s : HttpBase) (sendRequired : Bool) :
    s.buffer <+: (s.queueHeaderData sendRequired).1.buffer := by
  unfold queueHeaderData
  split_ifs
  · exact queueHeaders_keeps _ _
  · exact List.prefix_rfl

@[simp] theorem queueHeaderData_document (s : HttpBase) (sendRequired : Bool) :
    (s.queueHeaderData sendRequired).1.document = s.document := by
  unfold queueHeaderData
  split_ifs <;> rfl

@[simp] theorem queueHeaderData_chunkData (s : HttpBase) (sendRequired : Bool) :
    (s.queueHeaderData sendRequired).1.chunkData = s.chunkData := by
  unfold queueHeaderData
  split_ifs <;> rfl

@[simp] theorem queueHeaderData_flush (s : HttpBase) (sendRequired : Bool) :
    (s.queueHeaderData sendRequired).1.flush = s.flush := by
  unfold queueHeaderData
  split_ifs <;> rfl

theorem queueHeaderData_nil (h : s.headers = []) : s.queueHeaderData sendRequired = (s, sendRequired) := by
  rw [queueHeaderData, if_neg fun hne => hne.2 h]

theorem queueHeaderData_done (h : (s.queueHeaderData sendRequired).2 = false) :
    sendRequired = false ∧ (s.queueHeaderData sendRequired).1.headers = [] ∧
      ((s.queueHeaderData sendRequired).1.buffer = [] → s.headers = [] ∧ s.buffer = []) := by
  unfold queueHeaderData at h ⊢
  split_ifs at h ⊢ with hqueue
  · obtain ⟨hheaders, hbuffer⟩ := queueHeaders_done h
    refine ⟨by simpa using hqueue.1, hheaders, fun hnil => absurd hnil hbuffer⟩
  · have hrequired : sendRequired = false := h
    subst hrequired
    have hheaders : s.headers = [] := by simpa using hqueue
    exact ⟨rfl, hheaders, fun hnil => ⟨hheaders, hnil⟩⟩

/-! ### The document -/

theorem queueDocumentData_cases (h : s.document = some document) (answer : ReadAnswer) :
    (∃ bytes rest, reserve s.chunkData s.buffer.length < kBufferSize ∧
        readInto s.chunkData s.buffer.length document answer = .success bytes rest ∧
        s.queueDocumentData false answer =
          ({ s with
              buffer := s.buffer ++ if s.chunkData then chunk bytes else bytes
              document := some rest }, some false)) ∨
      (reserve s.chunkData s.buffer.length < kBufferSize ∧
        readInto s.chunkData s.buffer.length document answer = .eos ∧ s.chunkData = true ∧
        s.queueDocumentData false answer =
          ({ s with buffer := s.buffer ++ lastChunk, chunkData := false }, some true)) ∨
      (reserve s.chunkData s.buffer.length < kBufferSize ∧
        (readInto s.chunkData s.buffer.length document answer = .error ∨
          readInto s.chunkData s.buffer.length document answer = .eos ∧
            s.chunkData = false ∧ s.buffer = []) ∧
        ∃ err, s.queueDocumentData false answer = (s.doComplete err, none)) ∨
      (kBufferSize ≤ reserve s.chunkData s.buffer.length ∨
          readInto s.chunkData s.buffer.length document answer = .block ∨
          readInto s.chunkData s.buffer.length document answer = .eos ∧
            s.chunkData = false ∧ s.buffer ≠ []) ∧
        s.queueDocumentData false answer = (s, some true) := by
  by_cases hfull : kBufferSize ≤ reserve s.chunkData s.buffer.length
  · refine .inr (.inr (.inr ⟨.inl hfull, ?_⟩))
    rw [queueDocumentData, h]
    exact if_pos hfull
  have hroom := Nat.lt_of_not_le hfull
  cases hread : readInto s.chunkData s.buffer.length document answer with
  | success bytes rest =>
    refine .inl ⟨bytes, rest, hroom, rfl, ?_⟩
    rw [queueDocumentData, h]
    exact (if_neg hfull).trans (by rw [readInto, reserve] at hread; rw [hread])
  | block =>
    refine .inr (.inr (.inr ⟨.inr (.inl rfl), ?_⟩))
    rw [queueDocumentData, h]
    exact (if_neg hfull).trans (by rw [readInto, reserve] at hread; rw [hread])
  | error =>
    refine .inr (.inr (.inl ⟨hroom, .inl rfl, .stream, ?_⟩))
    rw [queueDocumentData, h]
    exact (if_neg hfull).trans (by rw [readInto, reserve] at hread; rw [hread])
  | eos =>
    have heos : s.queueDocumentData false answer =
        if s.chunkData then ({ s with buffer := s.buffer ++ lastChunk, chunkData := false }, some true)
        else if s.buffer.length = 0 then (s.doComplete .none, none)
        else (s, some true) := by
      rw [queueDocumentData, h]
      exact (if_neg hfull).trans (by rw [readInto, reserve] at hread; rw [hread])
    by_cases hchunk : s.chunkData = true
    · rw [if_pos hchunk] at heos
      exact .inr (.inl ⟨hroom, rfl, hchunk, heos⟩)
    rw [if_neg hchunk] at heos
    have hchunk' : s.chunkData = false := by simpa using hchunk
    by_cases hempty : s.buffer.length = 0
    · rw [if_pos hempty] at heos
      have hnil : s.buffer = [] := List.length_eq_zero_iff.mp hempty
      exact .inr (.inr (.inl ⟨hroom, .inr ⟨rfl, hchunk', hnil⟩, .none, heos⟩))
    · rw [if_neg hempty] at heos
      exact .inr (.inr (.inr ⟨.inr (.inr ⟨rfl, hchunk', fun hnil => hempty (congrArg _ hnil)⟩), heos⟩))

theorem queueDocumentData_keeps (s : HttpBase) (sendRequired : Bool) (answer : ReadAnswer) :
    s.buffer <+: (s.queueDocumentData sendRequired answer).1.buffer := by
  cases sendRequired with
  | true => rw [queueDocumentData_true]
  | false =>
    cases hdocument : s.document with
    | none => rw [queueDocumentData, hdocument]
    | some document =>
      rcases queueDocumentData_cases hdocument answer with
        ⟨bytes, rest, -, -, hq⟩ | ⟨-, -, -, hq⟩ | ⟨-, -, err, hq⟩ | ⟨-, hq⟩
      · rw [hq]
        exact List.prefix_append _ _
      · rw [hq]
        exact List.prefix_append _ _
      · rw [hq]
        exact List.prefix_rfl
      · rw [hq]

theorem queueData_keeps (s : HttpBase) (sendRequired : Bool) (answer : ReadAnswer) :
    s.buffer <+: (s.queueData sendRequired answer).buffer := by
  have hqueued := (queueHeaderData_keeps s sendRequired).trans
    (queueDocumentData_keeps (s.queueHeaderData sendRequired).1 (s.queueHeaderData sendRequired).2 answer)
  rw [queueData]
  cases hq : (s.queueHeaderData sendRequired).1.queueDocumentData (s.queueHeaderData sendRequired).2 answer with
  | mk queued required =>
    rw [hq] at hqueued
    cases required with
    | none => exact hqueued
    | some required =>
      show s.buffer <+: (if queued.buffer.length = 0 then
        if queued.document = none then queued.doComplete .none else { queued with flush := .returned }
        else { queued with flush := .write required }).buffer
      split_ifs <;> exact hqueued

theorem blockedRound_keeps (s : HttpBase) (answer : ReadAnswer) :
    s.buffer <+: (s.step (.read answer)).buffer ∧
      (s.step (.read answer)).buffer = (s.blockedRound answer).buffer := by
  constructor
  · cases h : s.flush with
    | queue sendRequired =>
      rw [step_read h]
      exact queueData_keeps s sendRequired answer
    | returned => simp only [step, h, List.prefix_rfl]
    | write sendRequired => simp only [step, h, List.prefix_rfl]
  · rw [blockedRound]
    cases h : (s.step (.read answer)).flush with
    | write sendRequired => rw [step_write h, writeData]
    | returned => exact congrArg buffer (step_write_of_not_write (by rw [h]; exact fun _ hcase => by cases hcase) _).symm
    | queue sendRequired => exact congrArg buffer (step_write_of_not_write (by rw [h]; exact fun _ hcase => by cases hcase) _).symm

theorem keeps_queued (s : HttpBase) (answers : ℕ → ReadAnswer) {m n : ℕ} (h : m ≤ n) :
    (rounds blockedRound s answers m).buffer <+:
        ((rounds blockedRound s answers n).step (.read (answers n))).buffer ∧
      ((rounds blockedRound s answers m).step (.read (answers m))).buffer <+:
        (rounds blockedRound s answers (n + 1)).buffer := by
  have hrounds : ∀ {m n}, m ≤ n →
      (rounds blockedRound s answers m).buffer <+: (rounds blockedRound s answers n).buffer := fun hle =>
    rounds_related (R := fun a b => a.buffer <+: b.buffer) (fun _ => List.prefix_rfl)
      (fun _ _ _ => List.IsPrefix.trans)
      (fun s answer => (blockedRound_keeps s answer).2 ▸ (blockedRound_keeps s answer).1) hle
  have hnext : rounds blockedRound s answers (m + 1) =
      (rounds blockedRound s answers m).blockedRound (answers m) := rounds_succ s answers m
  refine ⟨(hrounds h).trans (blockedRound_keeps _ _).1, ?_⟩
  rw [(blockedRound_keeps _ _).2, ← hnext]
  exact hrounds (Nat.succ_le_succ h)

/-! ### A round after the headers -/

theorem length_queued (buffer bytes : List Uint8) :
    (buffer ++ if chunkData then chunk bytes else bytes).length =
      reserve chunkData buffer.length + bytes.length := by
  cases chunkData with
  | true =>
    rw [List.length_append, if_pos rfl, length_chunk, reserve, if_pos rfl]
    omega
  | false => exact List.length_append

theorem queueData_of_done (hheaders : s.headers = []) {queued : HttpBase}
    (h : s.queueDocumentData sendRequired answer = (queued, some required)) (hfilled : queued.buffer ≠ []) :
    s.queueData sendRequired answer = { queued with flush := .write required } := by
  rw [queueData, queueHeaderData_nil hheaders]
  simp only [h]
  exact if_neg fun hzero => hfilled (List.length_eq_zero_iff.mp hzero)

theorem round_success (hflush : s.flush = .queue false) (hheaders : s.headers = [])
    (hdocument : s.document = some document) (hroom : reserve s.chunkData s.buffer.length < kBufferSize)
    (hread : readInto s.chunkData s.buffer.length document answer = .success bytes rest) :
    ∃ queued, queued.length = reserve s.chunkData s.buffer.length + bytes.length ∧
      s.blockedRound answer = { s with buffer := queued, document := some rest, flush := .queue false } ∧
      s.offered answer = some queued ∧ s.buffer.length < queued.length := by
  have hbytes : bytes ≠ [] := readDocument_success (Nat.sub_pos_of_lt hroom) hread
  have hpositive := List.length_pos_iff.mpr hbytes
  have hlength := @length_queued s.chunkData s.buffer bytes
  have hmore : s.buffer.length < (s.buffer ++ if s.chunkData then chunk bytes else bytes).length := by
    rw [hlength, reserve]
    omega
  rcases queueDocumentData_cases hdocument answer with
    ⟨bytes', rest', -, hread', hq⟩ | ⟨-, hread', -⟩ | ⟨-, hread', -⟩ | ⟨hread', -⟩
  · obtain ⟨rfl, rfl⟩ := ReadResult.success.inj (hread.symm.trans hread')
    have hwrite := queueData_of_done hheaders hq (List.ne_nil_of_length_pos (Nat.zero_lt_of_lt hmore))
    obtain ⟨hround, hoffered⟩ := round_of_write hflush (congrArg flush hwrite)
    rw [hwrite] at hround hoffered
    exact ⟨_, hlength, hround, hoffered, hmore⟩
  · exact absurd (hread.symm.trans hread') nofun
  · rcases hread' with hread' | ⟨hread', -⟩ <;> exact absurd (hread.symm.trans hread') nofun
  · rcases hread' with hfull | hread' | ⟨hread', -⟩
    · omega
    · exact absurd (hread.symm.trans hread') nofun
    · exact absurd (hread.symm.trans hread') nofun

theorem round_no_success (hflush : s.flush = .queue false) (hheaders : s.headers = [])
    (hdocument : s.document = some document)
    (hread : ¬∃ bytes rest, reserve s.chunkData s.buffer.length < kBufferSize ∧
      readInto s.chunkData s.buffer.length document answer = .success bytes rest) :
    (s.blockedRound answer).flush = .returned ∧
      (s.buffer ≠ [] →
        ((∀ b, s.offered answer = some b → s.buffer.length < b.length) ↔
          Ends s.chunkData s.buffer.length document answer)) := by
  rcases queueDocumentData_cases hdocument answer with
    ⟨bytes, rest, hroom, hread', -⟩ | ⟨hroom, heos, hchunk, hq⟩ | ⟨hroom, hend, err, hq⟩ | ⟨hwaits, hq⟩
  · exact absurd ⟨bytes, rest, hroom, hread'⟩ hread
  · -- the last chunk
    have hmore : s.buffer.length < (s.buffer ++ lastChunk).length := by
      rw [List.length_append]
      exact Nat.lt_add_of_pos_right (by decide)
    have hwrite := queueData_of_done hheaders hq (List.ne_nil_of_length_pos (Nat.zero_lt_of_lt hmore))
    obtain ⟨hround, hoffered⟩ := round_of_write hflush (congrArg flush hwrite)
    rw [hwrite] at hoffered
    refine ⟨by rw [hround]; rfl, fun _ => iff_of_true (fun b hb => ?_) ⟨hroom, .inr ⟨hchunk, heos⟩⟩⟩
    rw [hoffered] at hb
    cases hb
    exact hmore
  · -- the message is completed
    have hcompleted : s.queueData false answer = s.doComplete err := by
      rw [queueData, queueHeaderData_nil hheaders]
      simp only [hq]
    obtain ⟨hround, hoffered⟩ := round_of_returned hflush (congrArg flush hcompleted)
    refine ⟨by rw [hround, hcompleted]; rfl, fun hne => iff_of_true (fun b hb => ?_) ⟨hroom, ?_⟩⟩
    · rw [hoffered] at hb
      cases hb
    · exact hend.imp_right fun h => absurd h.2.2 hne
  · by_cases hempty : s.buffer = []
    · have hreturned : s.queueData false answer = { s with flush := .returned } := by
        rw [queueData, queueHeaderData_nil hheaders]
        simp only [hq, hempty, hdocument, List.length_nil, reduceCtorEq, if_true, if_false]
      obtain ⟨hround, -⟩ := round_of_returned hflush (congrArg flush hreturned)
      exact ⟨by rw [hround, hreturned], fun hne => absurd hempty hne⟩
    -- the blocked bytes are written again
    have hwrite := queueData_of_done hheaders hq hempty
    obtain ⟨hround, hoffered⟩ := round_of_write hflush (congrArg flush hwrite)
    rw [hwrite] at hoffered
    refine ⟨by rw [hround]; rfl, fun _ => iff_of_false (fun h => ?_) ?_⟩
    · exact absurd (h _ hoffered) (Nat.lt_irrefl _)
    · rintro ⟨hroom, hends⟩
      rcases hwaits with hfull | hblock | ⟨heos, hchunk, -⟩
      · omega
      · rcases hends with herror | ⟨-, heos⟩
        · exact absurd (hblock.symm.trans herror) nofun
        · exact absurd (hblock.symm.trans heos) nofun
      · rcases hends with herror | ⟨hchunk', -⟩
        · exact absurd (heos.symm.trans herror) nofun
        · exact absurd (hchunk.symm.trans hchunk') nofun

theorem round_stuck (hflush : s.flush = .queue false) (hheaders : s.headers = [])
    (hdocument : s.document = none) (hbuffer : s.buffer ≠ []) (answer : ReadAnswer) :
    s.blockedRound answer = s ∧ s.offered answer = some s.buffer := by
  have hq : s.queueDocumentData false answer = (s, some false) := by rw [queueDocumentData, hdocument]
  have hwrite := queueData_of_done hheaders hq hbuffer
  obtain ⟨hround, hoffered⟩ := round_of_write hflush (congrArg flush hwrite)
  rw [hwrite] at hround hoffered
  refine ⟨hround.trans ?_, hoffered⟩
  simp only [Bool.false_eq_true, if_false, ← hflush]

/-! ## When the loop is left -/

theorem leaves_succ (h : s.flush ≠ .returned) :
    s.Leaves answers ↔ (s.blockedRound (answers 0)).Leaves fun k => answers (k + 1) := by
  constructor
  · rintro ⟨n, hn⟩
    cases n with
    | zero => exact absurd hn h
    | succ n => exact ⟨n, hn⟩
  · rintro ⟨n, hn⟩
    exact ⟨n + 1, hn⟩

theorem fresh_succ :
    s.Fresh answers ↔
      (∀ a b, s.offered (answers 0) = some a →
        (s.blockedRound (answers 0)).offered (answers 1) = some b → a.length < b.length) ∧
      (s.blockedRound (answers 0)).Fresh fun k => answers (k + 1) := by
  constructor
  · exact fun h => ⟨h 0, fun n => h (n + 1)⟩
  · rintro ⟨hfirst, hlater⟩ n
    cases n with
    | zero => exact hfirst
    | succ n => exact hlater n

/-- The loop goes on after a blocked `Write`. -/
structure Retrying (s : HttpBase) : Prop where
  flush : s.flush = .queue false
  headers : s.headers = []
  buffer : s.buffer ≠ []

theorem rounds_of_returned (h : s.flush = .returned) (answers : ℕ → ReadAnswer) (n : ℕ) :
    rounds blockedRound s answers n = s :=
  rounds_fixed (fun answer => blockedRound_of_returned h answer) n

theorem left_of_headersWait (hflush : s.flush = .queue sendRequired) (h : s.HeadersWait sendRequired)
    (answer : ReadAnswer) : (s.blockedRound answer).flush = .returned := by
  have hq : (s.queueHeaderData sendRequired).1.queueDocumentData (s.queueHeaderData sendRequired).2 answer =
      ((s.queueHeaderData sendRequired).1, some true) := by
    rw [show (s.queueHeaderData sendRequired).2 = true from h, queueDocumentData_true]
  by_cases hempty : (s.queueHeaderData sendRequired).1.buffer.length = 0
  · have hreturned : (s.queueData sendRequired answer).flush = .returned := by
      rw [queueData]
      simp only [hq]
      rw [if_pos hempty]
      split_ifs <;> rfl
    rw [(round_of_returned hflush hreturned).1, hreturned]
  · have hwrite : (s.queueData sendRequired answer).flush = .write true := by
      rw [queueData]
      simp only [hq]
      rw [if_neg hempty]
    rw [(round_of_write hflush hwrite).1]
    rfl

theorem queueData_of_headers (h : ¬s.HeadersWait sendRequired) (answer : ReadAnswer) :
    s.queueData sendRequired answer = (s.queueHeaderData sendRequired).1.queueData false answer := by
  have hdone : (s.queueHeaderData sendRequired).2 = false := by simpa [HeadersWait] using h
  rw [queueData, queueData, queueHeaderData_nil (queueHeaderData_done hdone).2.1, hdone]

theorem round_of_headers (hflush : s.flush = .queue sendRequired) (h : ¬s.HeadersWait sendRequired) :
    (s.queueHeaderData sendRequired).1.flush = .queue false ∧
      (s.queueHeaderData sendRequired).1.headers = [] ∧
      ∀ answer, s.blockedRound answer = (s.queueHeaderData sendRequired).1.blockedRound answer ∧
        s.offered answer = (s.queueHeaderData sendRequired).1.offered answer := by
  have hdone : (s.queueHeaderData sendRequired).2 = false := by simpa [HeadersWait] using h
  obtain ⟨hrequired, hheaders, -⟩ := queueHeaderData_done hdone
  have hflush' : (s.queueHeaderData sendRequired).1.flush = .queue false := by
    rw [queueHeaderData_flush, hflush, hrequired]
  refine ⟨hflush', hheaders, fun answer => ?_⟩
  rw [blockedRound, blockedRound, offered, offered, step_read hflush, step_read hflush',
    queueData_of_headers h]
  exact ⟨rfl, rfl⟩

theorem Retrying.round (h : Retrying s) (hdocument : s.document = some document) (answer : ReadAnswer) :
    (s.blockedRound answer).flush = .returned ∨
      ((s.blockedRound answer).Retrying ∧ (s.blockedRound answer).document.isSome) ∧
        kBufferSize - (s.blockedRound answer).buffer.length < kBufferSize - s.buffer.length := by
  by_cases hread : ∃ bytes rest, reserve s.chunkData s.buffer.length < kBufferSize ∧
      readInto s.chunkData s.buffer.length document answer = .success bytes rest
  · obtain ⟨bytes, rest, hroom, hread⟩ := hread
    obtain ⟨queued, -, hround, -, hmore⟩ := round_success h.flush h.headers hdocument hroom hread
    have hlen : s.buffer.length < kBufferSize := Nat.lt_of_le_of_lt (Nat.le_add_right _ _) hroom
    rw [hround]
    refine .inr ⟨⟨⟨rfl, h.headers, List.ne_nil_of_length_pos (Nat.zero_lt_of_lt hmore)⟩, rfl⟩, ?_⟩
    exact Nat.sub_lt_sub_left hlen hmore
  · exact .inl (round_no_success h.flush h.headers hdocument hread).1

theorem Retrying.leaves (h : Retrying s) (hdocument : s.document.isSome) (answers : ℕ → ReadAnswer) :
    s.Leaves answers := by
  refine halts_of_measure (fun s => Retrying s ∧ s.document.isSome) (fun s => s.flush = .returned)
    (fun s => kBufferSize - s.buffer.length) (fun s answer hs => ?_) ⟨h, hdocument⟩
  obtain ⟨document, hsome⟩ := Option.isSome_iff_exists.mp hs.2
  exact hs.1.round hsome answer

theorem Retrying.not_leaves (h : Retrying s) (hdocument : s.document = none) (answers : ℕ → ReadAnswer) :
    ¬s.Leaves answers := by
  rintro ⟨n, hn⟩
  rw [rounds_fixed (fun answer => (round_stuck h.flush h.headers hdocument h.buffer answer).1) n, h.flush] at hn
  cases hn

theorem leaves_of_left (h : (s.blockedRound (answers 0)).flush = .returned) : s.Leaves answers := ⟨1, h⟩

theorem fresh_of_returned (h : s.flush = .returned) (answers : ℕ → ReadAnswer) : s.Fresh answers := by
  intro n a b ha
  rw [rounds_of_returned h, offered_of_returned h] at ha
  cases ha

theorem fresh_of_left (h : (s.blockedRound (answers 0)).flush = .returned) : s.Fresh answers := by
  refine fresh_succ.mpr ⟨fun a b _ hb => ?_, fresh_of_returned h _⟩
  rw [offered_of_returned h] at hb
  cases hb

theorem left_of_nothingLeft (hflush : s.flush = .queue false) (h : s.NothingLeft) (answer : ReadAnswer) :
    (s.blockedRound answer).flush = .returned := by
  obtain ⟨hdocument, hheaders, hbuffer⟩ := h
  have hcompleted : s.queueData false answer = s.doComplete .none := by
    rw [queueData, queueHeaderData_nil hheaders, queueDocumentData, hdocument]
    simp only [hbuffer, hdocument, List.length_nil, if_true]
  have hreturned : (s.queueData false answer).flush = .returned := congrArg flush hcompleted
  rw [(round_of_returned hflush hreturned).1, hreturned]

theorem leaves_iff_of_headers (hflush : s.flush = .queue false) (hheaders : s.headers = [])
    (answers : ℕ → ReadAnswer) : s.Leaves answers ↔ s.NothingLeft ∨ s.document.isSome := by
  cases hdocument : s.document with
  | none =>
    by_cases hbuffer : s.buffer = []
    · have hnothing : s.NothingLeft := ⟨hdocument, hheaders, hbuffer⟩
      exact iff_of_true (leaves_of_left (left_of_nothingLeft hflush hnothing _)) (.inl hnothing)
    · refine iff_of_false (Retrying.not_leaves ⟨hflush, hheaders, hbuffer⟩ hdocument answers) ?_
      rintro (⟨-, -, hnil⟩ | hsome)
      · exact hbuffer hnil
      · cases hsome
  | some document =>
    refine iff_of_true ?_ (.inr rfl)
    by_cases hread : ∃ bytes rest, reserve s.chunkData s.buffer.length < kBufferSize ∧
        readInto s.chunkData s.buffer.length document (answers 0) = .success bytes rest
    · obtain ⟨bytes, rest, hroom, hread⟩ := hread
      obtain ⟨queued, -, hround, -, hmore⟩ := round_success hflush hheaders hdocument hroom hread
      have hretrying : (s.blockedRound (answers 0)).Retrying := by
        rw [hround]
        exact ⟨rfl, hheaders, List.ne_nil_of_length_pos (Nat.zero_lt_of_lt hmore)⟩
      rw [leaves_succ (by rw [hflush]; nofun)]
      exact hretrying.leaves (by rw [hround]; rfl) _
    · exact leaves_of_left (round_no_success hflush hheaders hdocument hread).1

theorem nothingLeft_of_headers (h : ¬s.HeadersWait sendRequired) :
    (s.queueHeaderData sendRequired).1.NothingLeft ↔ s.NothingLeft := by
  have hdone : (s.queueHeaderData sendRequired).2 = false := by simpa [HeadersWait] using h
  obtain ⟨-, hheaders, hbuffer⟩ := queueHeaderData_done hdone
  rw [NothingLeft, NothingLeft, queueHeaderData_document]
  constructor
  · exact fun hnothing => ⟨hnothing.1, hbuffer hnothing.2.2⟩
  · rintro ⟨hdocument, hnil, hempty⟩
    rw [queueHeaderData_nil hnil]
    exact ⟨hdocument, hnil, hempty⟩

/-- **When the loop is left**. -/
theorem leaves_iff (hflush : s.flush = .queue sendRequired) (answers : ℕ → ReadAnswer) :
    s.Leaves answers ↔ s.HeadersWait sendRequired ∨ s.NothingLeft ∨ s.document.isSome := by
  by_cases hwait : s.HeadersWait sendRequired
  · exact iff_of_true (leaves_of_left (left_of_headersWait hflush hwait _)) (.inl hwait)
  obtain ⟨hflush', hheaders, hround⟩ := round_of_headers hflush hwait
  rw [leaves_succ (by rw [hflush]; nofun), (hround _).1, ← leaves_succ (by rw [hflush']; nofun),
    leaves_iff_of_headers hflush' hheaders, nothingLeft_of_headers hwait, queueHeaderData_document]
  exact (or_iff_right hwait).symm

/-! ## When bytes are queued between two writes -/

theorem endsWell_of_success {len : ℕ} (hroom : reserve chunkData len < kBufferSize)
    (hread : readInto chunkData len document (answers 0) = .success bytes rest) :
    EndsWell chunkData len document answers ↔
      EndsWell chunkData (reserve chunkData len + bytes.length) rest fun k => answers (k + 1) := by
  constructor
  · rintro (⟨-, herror | ⟨-, heos⟩⟩ | ⟨-, hread', hmore⟩)
    · exact absurd (hread.symm.trans herror) nofun
    · exact absurd (hread.symm.trans heos) nofun
    · obtain ⟨rfl, rfl⟩ := ReadResult.success.inj (hread.symm.trans hread')
      exact hmore
  · exact .more hroom hread

theorem endsWell_of_no_success {len : ℕ} (hread : ¬∃ bytes rest, reserve chunkData len < kBufferSize ∧
      readInto chunkData len document (answers 0) = .success bytes rest) :
    EndsWell chunkData len document answers ↔ Ends chunkData len document (answers 0) := by
  constructor
  · rintro (hends | ⟨hroom, hread', -⟩)
    · exact hends
    · exact absurd ⟨_, _, hroom, hread'⟩ hread
  · exact .ends

theorem Retrying.fresh_iff (h : Retrying s) (hdocument : s.document = some document) (answers : ℕ → ReadAnswer) :
    ((∀ b, s.offered (answers 0) = some b → s.buffer.length < b.length) ∧ s.Fresh answers) ↔
      EndsWell s.chunkData s.buffer.length document answers := by
  induction hroom : kBufferSize - s.buffer.length using Nat.strong_induction_on
    generalizing s document answers with
  | _ room ih =>
    by_cases hread : ∃ bytes rest, reserve s.chunkData s.buffer.length < kBufferSize ∧
        readInto s.chunkData s.buffer.length document (answers 0) = .success bytes rest
    · obtain ⟨bytes, rest, hfits, hread⟩ := hread
      obtain ⟨queued, hlength, hround, hoffered, hmore⟩ :=
        round_success h.flush h.headers hdocument hfits hread
      have hlen : s.buffer.length < kBufferSize := Nat.lt_of_le_of_lt (Nat.le_add_right _ _) hfits
      have hretrying : (s.blockedRound (answers 0)).Retrying := by
        rw [hround]
        exact ⟨rfl, h.headers, List.ne_nil_of_length_pos (Nat.zero_lt_of_lt hmore)⟩
      have hnext := ih _ (hroom ▸ Nat.sub_lt_sub_left hlen hmore) hretrying (by rw [hround])
        (fun k => answers (k + 1)) (by rw [hround])
      rw [endsWell_of_success hfits hread, ← hlength]
      have hbuffer : (s.blockedRound (answers 0)).buffer = queued := by rw [hround]
      have hchunk : (s.blockedRound (answers 0)).chunkData = s.chunkData := by rw [hround]
      rw [hbuffer, hchunk] at hnext
      rw [← hnext, fresh_succ, hoffered]
      constructor
      · rintro ⟨-, hfirst, hlater⟩
        exact ⟨fun b => hfirst queued b rfl, hlater⟩
      · rintro ⟨hfirst, hlater⟩
        refine ⟨fun b hb => ?_, fun a b ha => ?_, hlater⟩
        · cases hb
          exact hmore
        · cases ha
          exact hfirst b
    · obtain ⟨hleft, hends⟩ := round_no_success h.flush h.headers hdocument hread
      rw [endsWell_of_no_success hread, ← hends h.buffer]
      exact and_iff_left (fresh_of_left hleft)

theorem fresh_iff_of_headers (hflush : s.flush = .queue false) (hheaders : s.headers = [])
    (hdocument : s.document = some document) (answers : ℕ → ReadAnswer) :
    s.Fresh answers ↔ StartsWell s.chunkData s.buffer.length document answers := by
  by_cases hread : ∃ bytes rest, reserve s.chunkData s.buffer.length < kBufferSize ∧
      readInto s.chunkData s.buffer.length document (answers 0) = .success bytes rest
  · obtain ⟨bytes, rest, hfits, hread⟩ := hread
    obtain ⟨queued, hlength, hround, hoffered, hmore⟩ := round_success hflush hheaders hdocument hfits hread
    have hretrying : (s.blockedRound (answers 0)).Retrying := by
      rw [hround]
      exact ⟨rfl, hheaders, List.ne_nil_of_length_pos (Nat.zero_lt_of_lt hmore)⟩
    have hnext := hretrying.fresh_iff (by rw [hround]) fun k => answers (k + 1)
    have hbuffer : (s.blockedRound (answers 0)).buffer = queued := by rw [hround]
    have hchunk : (s.blockedRound (answers 0)).chunkData = s.chunkData := by rw [hround]
    rw [hbuffer, hchunk, hlength] at hnext
    rw [fresh_succ, hoffered]
    constructor
    · rintro ⟨hfirst, hlater⟩ - bytes' rest' hread'
      obtain ⟨rfl, rfl⟩ := ReadResult.success.inj (hread.symm.trans hread')
      exact hnext.mp ⟨fun b => hlength ▸ hfirst queued b rfl, hlater⟩
    · intro hstarts
      obtain ⟨hfirst, hlater⟩ := hnext.mpr (hstarts hfits bytes rest hread)
      refine ⟨fun a b ha => ?_, hlater⟩
      cases ha
      rw [hlength]
      exact hfirst b
  · refine iff_of_true (fresh_of_left (round_no_success hflush hheaders hdocument hread).1) ?_
    exact fun hfits bytes rest hread' => absurd ⟨bytes, rest, hfits, hread'⟩ hread

/-- **When sending never spins.** -/
theorem neverSpins_iff (s : HttpBase) (sendRequired : Bool) (answers : ℕ → ReadAnswer)
    (hflush : s.flush = .queue sendRequired) :
    s.NeverSpins answers ↔ s.Productive sendRequired answers := by
  have hparts : s.NeverSpins answers ↔ s.Leaves answers ∧ s.Fresh answers :=
    ⟨fun h => ⟨h.leaves, h.fresh⟩, fun h => ⟨h.1, h.2, fun _ _ => keeps_queued s answers⟩⟩
  rw [hparts, leaves_iff hflush]
  by_cases hwait : s.HeadersWait sendRequired
  · exact iff_of_true ⟨.inl hwait, fresh_of_left (left_of_headersWait hflush hwait _)⟩ (.inl hwait)
  obtain ⟨hflush', hheaders, hround⟩ := round_of_headers hflush hwait
  have hfresh : s.Fresh answers ↔ (s.queueHeaderData sendRequired).1.Fresh answers := by
    rw [fresh_succ (s := s), (hround _).1, (hround _).2, ← fresh_succ]
  rw [Productive, or_iff_right hwait, or_iff_right hwait, hfresh]
  cases hdocument : s.document with
  | none =>
    constructor
    · rintro ⟨hnothing | hsome, -⟩
      · exact .inl hnothing
      · cases hsome
    · rintro (hnothing | ⟨document, hsome, -⟩)
      · refine ⟨.inl hnothing, fresh_of_left ?_⟩
        exact left_of_nothingLeft hflush' ((nothingLeft_of_headers hwait).mpr hnothing) _
      · cases hsome
  | some document =>
    have hdocument' := (queueHeaderData_document s sendRequired).trans hdocument
    have hstarts := fresh_iff_of_headers hflush' hheaders hdocument' answers
    rw [queueHeaderData_chunkData] at hstarts
    rw [hstarts]
    constructor
    · exact fun h => .inr ⟨document, rfl, h.2⟩
    · rintro (hnothing | ⟨document', hsome, hwell⟩)
      · exact absurd (hnothing.1.symm.trans hdocument) nofun
      · cases hsome
        exact ⟨.inr rfl, hwell⟩

/-- A document of three bytes, sent in chunks. -/
theorem neverSpins_chunked :
    (send {}
      ⟨text "PUT / HTTP/1.1", [(text "Transfer-Encoding", text "chunked")], some [1, 2, 3]⟩).NeverSpins
        fun _ => .data 9 := by
  refine (neverSpins_iff _ false _ rfl).mpr (.inr (.inr ⟨[1, 2, 3], rfl, fun _ bytes rest hread => ?_⟩))
  have hall : readInto true 48 [1, 2, 3] (.data 9) = .success [1, 2, 3] [] := by decide
  obtain ⟨rfl, rfl⟩ := ReadResult.success.inj (hall.symm.trans hread)
  exact .ends ⟨by decide, .inr ⟨by decide, by decide⟩⟩

/-- A request without a document: `flush_data` never returns. -/
theorem request_spins :
    ¬(send {} ⟨text "GET / HTTP/1.1", [], none⟩).Leaves (fun _ => .block) ∧
      ¬(send {} ⟨text "GET / HTTP/1.1", [], none⟩).NeverSpins fun _ => .block := by
  have hretrying : (send {} ⟨text "GET / HTTP/1.1", [], none⟩).Retrying :=
    ⟨by decide, by decide, by decide⟩
  have hspins := hretrying.not_leaves (by decide) fun _ => .block
  exact ⟨hspins, fun h => hspins h.leaves⟩

end HttpBase

end Libjingle.Http
