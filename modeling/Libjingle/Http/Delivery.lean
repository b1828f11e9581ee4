import Libjingle.Http.Chunks

/-!
# Chunked documents arrive

Main result: **`chunked_document_intact`**.
-/

variable {headers : List (List Uint8 × List Uint8)} {sendRequired : Bool} {header : List Uint8 × List Uint8}

namespace Libjingle.Http

open Lib

/-! ## The head -/

def fits (header : List Uint8 × List Uint8) : Bool := (headerLine header).length < kBufferSize - 3

def headLines (headers : List (List Uint8 × List Uint8)) : List Uint8 :=
  (headers.filter fits).flatMap headerLine ++ crlf

def HttpData.head (data : HttpData) : List Uint8 :=
  data.formatLeader kBufferSize ++
    strcpyn (kBufferSize - (data.formatLeader kBufferSize).length) crlf ++ headLines data.headers

theorem length_strcpyn (buflen : ℕ) (source : List Uint8) :
    (strcpyn buflen source).length = min (buflen - 1) source.length := List.length_take

theorem strcpyn_eq_self {buflen : ℕ} {source : List Uint8} (h : source.length < buflen) :
    strcpyn buflen source = source := List.take_of_length_le (by omega)

theorem headLines_cons_of_fits (h : fits header = true) :
    headLines (header :: headers) = headerLine header ++ headLines headers := by
  rw [headLines, List.filter_cons_of_pos h, List.flatMap_cons, List.append_assoc]
  rfl

theorem headLines_cons_of_not_fits (h : ¬fits header = true) : headLines (header :: headers) = headLines headers := by
  rw [headLines, List.filter_cons_of_neg h]
  rfl

theorem queueHeaders_spec {buffer : List Uint8}
    (hbuffer : buffer.length ≤ kBufferSize) (hroom : headers = [] → buffer.length + 3 ≤ kBufferSize) :
    ((queueHeaders buffer headers).2.2 = false ∧ (queueHeaders buffer headers).2.1 = [] ∧
        (queueHeaders buffer headers).1 = buffer ++ headLines headers ∨
      (queueHeaders buffer headers).2.2 = true ∧ (queueHeaders buffer headers).2.1 ≠ [] ∧
        (queueHeaders buffer headers).1 ≠ [] ∧
        (queueHeaders buffer headers).1 ++ headLines (queueHeaders buffer headers).2.1 =
          buffer ++ headLines headers) ∧
      (queueHeaders buffer headers).1.length ≤ kBufferSize := by
  induction headers generalizing buffer with
  | nil =>
    have hlength := hroom rfl
    have hcrlf : crlf.length = 2 := rfl
    rw [queueHeaders, strcpyn_eq_self (by omega)]
    refine ⟨.inl ⟨rfl, rfl, rfl⟩, ?_⟩
    rw [List.length_append]
    omega
  | cons header headers ih =>
    have hsize : kBufferSize = 32768 := rfl
    rw [queueHeaders, length_strcpyn]
    by_cases hqueue : buffer.length + min (kBufferSize - buffer.length - 1) (headerLine header).length <
        kBufferSize - 3
    · -- the line is not cut off
      have hwhole : (headerLine header).length < kBufferSize - buffer.length := by omega
      have hfits : fits header = true := decide_eq_true (by omega)
      rw [if_pos hqueue, strcpyn_eq_self hwhole, headLines_cons_of_fits hfits, ← List.append_assoc]
      refine ih ?_ fun _ => ?_ <;> rw [List.length_append] <;> omega
    · rw [if_neg hqueue]
      by_cases hempty : buffer.length = 0
      · have hfits : ¬fits header = true := by
          rw [fits, decide_eq_true_iff]
          omega
        rw [if_pos hempty, headLines_cons_of_not_fits hfits]
        exact ih hbuffer fun _ => by omega
      · rw [if_neg hempty]
        exact ⟨.inr ⟨rfl, List.cons_ne_nil _ _, fun h => hempty (congrArg List.length h), rfl⟩, hbuffer⟩

/-! ## A message on its way -/

/-- The message is being sent: `start` was sent before it, then come the headers, then `pieces`. -/
inductive Underway (start : List Uint8) (document : List Uint8) (s : HttpBase) : Prop where
  | head : s.headers ≠ [] → s.chunkData = true → s.document = some document →
      s.written ++ s.buffer ++ headLines s.headers = start → Underway start document s
  | body (pieces : List (List Uint8)) (rest : List Uint8) : s.headers = [] → Pieces pieces →
      pieces.flatten ++ rest = document → s.document = some rest → (s.chunkData = false → rest = []) →
      s.written ++ s.buffer = start ++ encoded pieces (!s.chunkData) → Underway start document s

def Carries (start document written : List Uint8) : Prop :=
  ∃ pieces, Pieces pieces ∧ pieces.flatten = document ∧ written <+: start ++ encoded pieces true

def Delivered (start document written : List Uint8) : Prop :=
  ∃ pieces, Pieces pieces ∧ pieces.flatten = document ∧ written = start ++ encoded pieces true

/-- The message is complete, and what was written carries the document. -/
structure Completed (start document : List Uint8) (s : HttpBase) : Prop where
  mode : s.mode = .none
  flush : s.flush = .returned
  carries : Carries start document s.written
  delivered : s.completed = some .none → Delivered start document s.written

/-- **The invariant of a message with a chunked document.** -/
structure Sending (start document : List Uint8) (s : HttpBase) : Prop where
  bounded : s.buffer.length ≤ kBufferSize
  progress : s.mode = .send ∧ s.completed = none ∧ Underway start document s ∨ Completed start document s
  required : s.flush = .queue true → s.buffer ≠ []

variable {start document : List Uint8} {s : HttpBase}

/-! ### What was sent -/

theorem pieces_singletons (bytes : List Uint8) : Pieces (bytes.map fun b => [b]) := by
  intro piece hpiece
  obtain ⟨b, -, rfl⟩ := List.mem_map.mp hpiece
  exact ⟨List.cons_ne_nil _ _, Nat.one_lt_two_pow (n := 32) (by decide)⟩

theorem flatten_singletons (bytes : List Uint8) : (bytes.map fun b => [b]).flatten = bytes := by
  induction bytes with
  | nil => rfl
  | cons b bytes ih => rw [List.map_cons, List.flatten_cons, ih, List.singleton_append]

theorem Pieces.append {pieces more : List (List Uint8)} (h : Pieces pieces) (h' : Pieces more) :
    Pieces (pieces ++ more) := by
  intro piece hpiece
  rcases List.mem_append.mp hpiece with hpiece | hpiece
  · exact h piece hpiece
  · exact h' piece hpiece

theorem Underway.carries (h : Underway start document s) : Carries start document s.written := by
  cases h with
  | head _ _ _ hsent =>
    refine ⟨_, pieces_singletons document, flatten_singletons document, ?_⟩
    rw [← hsent, List.append_assoc, List.append_assoc]
    exact List.prefix_append _ _
  | body pieces rest _ hpieces hdocument _ hended hsent =>
    refine ⟨pieces ++ rest.map fun b => [b], hpieces.append (pieces_singletons rest), ?_, ?_⟩
    · rw [List.flatten_append, flatten_singletons, hdocument]
    · refine (List.prefix_append s.written s.buffer).trans ?_
      rw [hsent, List.prefix_append_right_inj]
      cases hchunk : s.chunkData with
      | true =>
        rw [encoded, encoded, List.flatMap_append, List.append_assoc, if_neg (by decide), List.append_nil]
        exact List.prefix_append _ _
      | false =>
        rw [hended hchunk, List.map_nil, List.append_nil]
        exact List.prefix_rfl

theorem Underway.of_flush (h : Underway start document s) {flush : FlushState} :
    Underway start document { s with flush := flush } := by
  cases h with
  | head hheaders hchunk hrest hsent => exact .head hheaders hchunk hrest hsent
  | body pieces rest hheaders hpieces hflatten hrest hended hsent =>
    exact .body pieces rest hheaders hpieces hflatten hrest hended hsent

theorem Underway.write (h : Underway start document s) (n : ℕ) :
    Underway start document { s with buffer := s.buffer.drop n, written := s.written ++ s.buffer.take n } := by
  have hsame : s.written ++ s.buffer.take n ++ s.buffer.drop n = s.written ++ s.buffer := by
    rw [List.append_assoc, List.take_append_drop]
  cases h with
  | head hheaders hchunk hrest hsent =>
    exact .head hheaders hchunk hrest ((congrArg (· ++ headLines s.headers) hsame).trans hsent)
  | body pieces rest hheaders hpieces hflatten hrest hended hsent =>
    exact .body pieces rest hheaders hpieces hflatten hrest hended (hsame.trans hsent)

theorem handleStreamClose_ne_none (s : HttpBase) (error : ℤ) : s.handleStreamClose error ≠ .none := by
  unfold HttpBase.handleStreamClose
  split_ifs <;> exact nofun

theorem Underway.doComplete (h : Underway start document s) {err : HttpError} (herr : err ≠ .none) :
    Completed start document (s.doComplete err) where
  mode := rfl
  flush := rfl
  carries := h.carries
  delivered hcompleted := absurd (Option.some.inj hcompleted) herr

/-! ### Data is queued -/

theorem Underway.queueHeaderData (h : Underway start document s) (hbounded : s.buffer.length ≤ kBufferSize) (hrequired : sendRequired = true → s.buffer ≠ []) :
    Underway start document (s.queueHeaderData sendRequired).1 ∧
      (s.queueHeaderData sendRequired).1.buffer.length ≤ kBufferSize ∧
      ((s.queueHeaderData sendRequired).2 = true → (s.queueHeaderData sendRequired).1.buffer ≠ []) ∧
      ((s.queueHeaderData sendRequired).2 = false → (s.queueHeaderData sendRequired).1.headers = []) := by
  unfold HttpBase.queueHeaderData
  split_ifs with hqueue
  · obtain ⟨hspec, hlength⟩ := queueHeaders_spec hbounded fun hnil => absurd hnil hqueue.2
    cases h with
    | head _ hchunk hrest hsent =>
      rcases hspec with ⟨hsend, hheaders, hbuffer⟩ | ⟨hsend, hheaders, hbuffer, hlines⟩
      · refine ⟨.body [] document hheaders nofun rfl hrest (fun hfalse => ?_) ?_, hlength, ?_, fun _ => hheaders⟩
        · rw [hchunk] at hfalse
          cases hfalse
        · dsimp only
          rw [hbuffer, hchunk, ← List.append_assoc, hsent]
          exact (List.append_nil _).symm
        · intro htrue
          rw [hsend] at htrue
          cases htrue
      · refine ⟨.head hheaders hchunk hrest ?_, hlength, fun _ => hbuffer, fun hfalse => ?_⟩
        · dsimp only
          rw [List.append_assoc, hlines, ← List.append_assoc, hsent]
        · rw [hsend] at hfalse
          cases hfalse
    | body _ _ hheaders => exact absurd hheaders hqueue.2
  · refine ⟨h, hbounded, hrequired, fun hfalse => ?_⟩
    dsimp only at hfalse
    rw [hfalse] at hqueue
    exact not_not.mp fun hheaders => hqueue ⟨Bool.false_ne_true, hheaders⟩

theorem length_chunk (bytes : List Uint8) : (chunk bytes).length = kChunkDigits + 2 + 2 + bytes.length := by
  simp only [chunk, List.length_append, length_formatHex, show crlf.length = 2 from rfl]
  omega

/-- What `flush_data` may find after it has queued a part of the document. -/
structure Filled (start document : List Uint8) (answer : ReadAnswer) (s : HttpBase) : Prop where
  mode : s.mode = .send
  completed : s.completed = none
  underway : Underway start document s
  bounded : s.buffer.length ≤ kBufferSize
  blocked : s.buffer = [] → answer = .block

/-- The message is being sent: what was written so far, and what is left of the document. -/
structure Reading (start document : List Uint8) (s : HttpBase) (pieces : List (List Uint8))
    (rest : List Uint8) : Prop where
  mode : s.mode = .send
  completed : s.completed = none
  bounded : s.buffer.length ≤ kBufferSize
  headers : s.headers = []
  valid : Pieces pieces
  flatten : pieces.flatten ++ rest = document
  document : s.document = some rest
  ended : s.chunkData = false → rest = []
  sent : s.written ++ s.buffer = start ++ encoded pieces (!s.chunkData)

variable {pieces : List (List Uint8)} {rest : List Uint8} {answer : ReadAnswer}

theorem Reading.underway (h : Reading start document s pieces rest) : Underway start document s :=
  .body pieces rest h.headers h.valid h.flatten h.document h.ended h.sent

theorem Reading.filled (h : Reading start document s pieces rest)
    (hblocked : s.buffer = [] → answer = .block) : Filled start document answer s :=
  ⟨h.mode, h.completed, h.underway, h.bounded, hblocked⟩

theorem Reading.chunk (h : Reading start document s pieces rest) (hchunk : s.chunkData = true)
    (hroom : s.buffer.length + (kChunkDigits + 2 + 2) < kBufferSize) (hrest : rest ≠ []) {n : ℕ}
    (hpos : 0 < n) (hn : n ≤ kBufferSize - (s.buffer.length + (kChunkDigits + 2 + 2))) :
    Filled start document answer
      { s with buffer := s.buffer ++ Http.chunk (rest.take n), document := some (rest.drop n) } := by
  have hlength : (rest.take n).length ≤ n := List.length_take_le n rest
  have hnil : rest.take n ≠ [] := by
    rw [ne_eq, List.take_eq_nil_iff, not_or]
    exact ⟨hpos.ne', hrest⟩
  have hfour : kBufferSize < 16 ^ kChunkDigits := Nat.pow_lt_pow_right (a := 2) (m := 15) (n := 32) (by decide) (by decide)
  refine ⟨h.mode, h.completed, ?_, ?_, fun hempty => ?_⟩
  · refine .body (pieces ++ [rest.take n]) (rest.drop n) h.headers ?_ ?_ rfl (fun hfalse => ?_) ?_
    · refine h.valid.append fun piece hpiece => ?_
      obtain rfl := List.mem_singleton.mp hpiece
      exact ⟨hnil, by omega⟩
    · rw [List.flatten_append, List.flatten_singleton, List.append_assoc, List.take_append_drop, h.flatten]
    · rw [hchunk] at hfalse
      cases hfalse
    · have hsent := h.sent
      rw [hchunk, encoded, Bool.not_true, if_neg Bool.false_ne_true, List.append_nil] at hsent
      dsimp only
      rw [hchunk, encoded, Bool.not_true, if_neg Bool.false_ne_true, List.append_nil, List.flatMap_append,
        List.flatMap_singleton, ← List.append_assoc, ← List.append_assoc, hsent]
  · rw [List.length_append, length_chunk]
    omega
  · have hzero := congrArg List.length hempty
    rw [List.length_append, length_chunk, List.length_nil] at hzero
    omega

theorem Reading.lastChunk (h : Reading start document s pieces []) (hchunk : s.chunkData = true)
    (hroom : s.buffer.length + (kChunkDigits + 2 + 2) < kBufferSize) :
    Filled start document answer
      { s with buffer := s.buffer ++ Http.lastChunk, chunkData := false, document := some [] } := by
  have hlength : Http.lastChunk.length = 5 := by decide
  refine ⟨h.mode, h.completed, ?_, ?_, fun hempty => ?_⟩
  · refine .body pieces [] h.headers h.valid h.flatten rfl (fun _ => rfl) ?_
    have hsent := h.sent
    rw [hchunk, encoded, Bool.not_true, if_neg Bool.false_ne_true, List.append_nil] at hsent
    dsimp only
    rw [encoded, Bool.not_false, if_pos rfl, ← List.append_assoc, ← List.append_assoc, hsent]
  · rw [List.length_append, hlength]
    omega
  · have hzero := congrArg List.length hempty
    rw [List.length_append, hlength, List.length_nil] at hzero
    omega

theorem Reading.delivered (h : Reading start document s pieces []) (hchunk : s.chunkData = false)
    (hempty : s.buffer = []) : Completed start document (s.doComplete .none) where
  mode := rfl
  flush := rfl
  carries := h.underway.carries
  delivered _ := by
    refine ⟨pieces, h.valid, by rw [← h.flatten, List.append_nil], ?_⟩
    have hsent := h.sent
    rwa [hempty, List.append_nil, hchunk, Bool.not_false] at hsent

theorem Reading.queueDocumentData (h : Reading start document s pieces rest) (answer : ReadAnswer) :
    (∃ required, (s.queueDocumentData false answer).2 = some required ∧
        Filled start document answer (s.queueDocumentData false answer).1) ∨
      (s.queueDocumentData false answer).2 = none ∧
        Completed start document (s.queueDocumentData false answer).1 ∧
        (s.queueDocumentData false answer).1.buffer.length ≤ kBufferSize := by
  have hsize : kBufferSize = 32768 := rfl
  have hfull : ∀ n, n ≤ 12 → s.buffer.length + n ≥ kBufferSize → s.buffer = [] → answer = .block := by
    intro n hn hge hnil
    rw [hnil, List.length_nil] at hge
    omega
  unfold HttpBase.queueDocumentData
  rw [h.document]
  simp only [Bool.false_eq_true, if_false]
  by_cases hchunk : s.chunkData = true
  · simp only [if_pos hchunk]
    by_cases hroom : s.buffer.length + (kChunkDigits + 2 + 2) ≥ kBufferSize
    · rw [if_pos hroom]
      exact .inl ⟨true, rfl, h.filled (hfull _ (by decide) hroom)⟩
    rw [if_neg hroom]
    cases answer with
    | block => exact .inl ⟨true, rfl, h.filled fun _ => rfl⟩
    | error => exact .inr ⟨rfl, h.underway.doComplete nofun, h.bounded⟩
    | data n =>
      by_cases hrest : rest = []
      · subst hrest
        rw [readDocument, if_pos rfl]
        dsimp only
        exact .inl ⟨true, rfl, h.lastChunk hchunk (Nat.lt_of_not_le hroom)⟩
      · rw [readDocument, if_neg hrest]
        refine .inl ⟨false, rfl, h.chunk hchunk (Nat.lt_of_not_le hroom) hrest ?_ (Nat.min_le_right ..)⟩
        omega
  · simp only [if_neg hchunk]
    rw [Bool.not_eq_true] at hchunk
    obtain rfl := h.ended hchunk
    by_cases hroom : s.buffer.length + 0 ≥ kBufferSize
    · rw [if_pos hroom]
      exact .inl ⟨true, rfl, h.filled (hfull _ (by decide) hroom)⟩
    rw [if_neg hroom]
    cases answer with
    | block => exact .inl ⟨true, rfl, h.filled fun _ => rfl⟩
    | error => exact .inr ⟨rfl, h.underway.doComplete nofun, h.bounded⟩
    | data n =>
      rw [readDocument, if_pos rfl]
      dsimp only
      by_cases hempty : s.buffer.length = 0
      · rw [if_pos hempty]
        exact .inr ⟨rfl, h.delivered hchunk (List.length_eq_zero_iff.mp hempty), h.bounded⟩
      · rw [if_neg hempty]
        exact .inl ⟨true, rfl, h.filled fun hnil => absurd (congrArg List.length hnil) hempty⟩

theorem queueDocumentData_true (s : HttpBase) (answer : ReadAnswer) :
    s.queueDocumentData true answer = (s, some true) := by
  unfold HttpBase.queueDocumentData
  cases s.document with
  | none => rfl
  | some rest => rfl

@[simp] theorem queueHeaderData_mode (s : HttpBase) (sendRequired : Bool) :
    (s.queueHeaderData sendRequired).1.mode = s.mode := by
  unfold HttpBase.queueHeaderData
  split_ifs <;> rfl

@[simp] theorem queueHeaderData_completed (s : HttpBase) (sendRequired : Bool) :
    (s.queueHeaderData sendRequired).1.completed = s.completed := by
  unfold HttpBase.queueHeaderData
  split_ifs <;> rfl

theorem Underway.queue (h : Underway start document s) (hbounded : s.buffer.length ≤ kBufferSize)
    (hmode : s.mode = .send) (hcompleted : s.completed = none)
    (hrequired : sendRequired = true → s.buffer ≠ []) (answer : ReadAnswer) :
    let q := s.queueHeaderData sendRequired
    let d := q.1.queueDocumentData q.2 answer
    (∃ required, d.2 = some required ∧ Filled start document answer d.1) ∨
      d.2 = none ∧ Completed start document d.1 ∧ d.1.buffer.length ≤ kBufferSize := by
  intro q d
  obtain ⟨hunderway, hlength, hsend, hheaders⟩ := h.queueHeaderData hbounded hrequired
  have hmode' : q.1.mode = .send := (queueHeaderData_mode s sendRequired).trans hmode
  have hcompleted' : q.1.completed = none := (queueHeaderData_completed s sendRequired).trans hcompleted
  cases hq : q.2 with
  | true =>
    have hd : d = (q.1, some true) := by
      show q.1.queueDocumentData q.2 answer = _
      rw [hq, queueDocumentData_true]
    rw [hd]
    exact .inl ⟨true, rfl, hmode', hcompleted', hunderway, hlength, fun hnil => absurd hnil (hsend hq)⟩
  | false =>
    have hd : d = q.1.queueDocumentData false answer := by
      show q.1.queueDocumentData q.2 answer = _
      rw [hq]
    rw [hd]
    cases hunderway with
    | head hpending => exact absurd (hheaders hq) hpending
    | body pieces rest hnone hpieces hflatten hrest hended hsent =>
      exact Reading.queueDocumentData
        ⟨hmode', hcompleted', hlength, hnone, hpieces, hflatten, hrest, hended, hsent⟩ answer

/-! ## The run -/

theorem Sending.underway (h : Sending start document s) (hflush : s.flush ≠ .returned) :
    s.mode = .send ∧ s.completed = none ∧ Underway start document s :=
  h.progress.resolve_right fun hcompleted => hflush hcompleted.flush

theorem Sending.doComplete (h : Sending start document s) (hunderway : Underway start document s)
    {err : HttpError} (herr : err ≠ .none) : Sending start document (s.doComplete err) :=
  ⟨h.bounded, .inr (hunderway.doComplete herr), nofun⟩

theorem Sending.queueData (h : Sending start document s)
    (hflush : s.flush = .queue sendRequired) (answer : ReadAnswer) :
    Sending start document (s.queueData sendRequired answer) ∧
      ((s.queueData sendRequired answer).flush = .returned →
        (s.queueData sendRequired answer).mode = .send → answer = .block) := by
  obtain ⟨hmode, hcompleted, hunderway⟩ := h.underway (by rw [hflush]; exact nofun)
  have hrequired : sendRequired = true → s.buffer ≠ [] := fun htrue => h.required (htrue ▸ hflush)
  have hqueue := hunderway.queue h.bounded hmode hcompleted hrequired answer
  unfold HttpBase.queueData
  dsimp only at hqueue ⊢
  generalize (s.queueHeaderData sendRequired).1.queueDocumentData (s.queueHeaderData sendRequired).2 answer
    = d at hqueue
  obtain ⟨t, result⟩ := d
  rcases hqueue with ⟨required, rfl, hfilled⟩ | ⟨rfl, hdone, hlength⟩
  · dsimp only at hfilled ⊢
    by_cases hempty : t.buffer.length = 0
    · have hnil := List.length_eq_zero_iff.mp hempty
      have hsome : t.document ≠ none := by
        cases hfilled.underway with
        | head _ _ hrest => rw [hrest]; exact nofun
        | body _ _ _ _ _ hrest => rw [hrest]; exact nofun
      rw [if_pos hempty, if_neg hsome]
      refine ⟨⟨hfilled.bounded, .inl ⟨hfilled.mode, hfilled.completed, ?_⟩, nofun⟩,
        fun _ _ => hfilled.blocked hnil⟩
      exact hfilled.underway.of_flush
    · rw [if_neg hempty]
      exact ⟨⟨hfilled.bounded, .inl ⟨hfilled.mode, hfilled.completed, hfilled.underway.of_flush⟩, nofun⟩, nofun⟩
  · dsimp only at hdone hlength ⊢
    refine ⟨⟨hlength, .inr hdone, fun hqueue => ?_⟩, fun _ hsend => ?_⟩
    · rw [hdone.flush] at hqueue
      cases hqueue
    · rw [hdone.mode] at hsend
      cases hsend

theorem Sending.writeData (h : Sending start document s)
    (hflush : s.flush = .write sendRequired) (answer : WriteAnswer) :
    Sending start document (s.writeData sendRequired answer) ∧
      ((s.writeData sendRequired answer).flush = .returned →
        (s.writeData sendRequired answer).mode = .send → answer = .block) := by
  obtain ⟨hmode, hcompleted, hunderway⟩ := h.underway (by rw [hflush]; exact nofun)
  cases answer with
  | success n =>
    refine ⟨⟨?_, .inl ⟨hmode, hcompleted, (hunderway.write n).of_flush⟩, nofun⟩, nofun⟩
    exact (List.drop_sublist n s.buffer).length_le.trans h.bounded
  | block =>
    refine ⟨⟨h.bounded, .inl ⟨hmode, hcompleted, hunderway.of_flush⟩, fun hqueue => ?_⟩, fun _ _ => rfl⟩
    cases sendRequired <;> cases hqueue
  | error error =>
    have hclose : s.writeData sendRequired (.error error) = s.doComplete (s.handleStreamClose error) :=
      if_pos (by rw [hmode]; exact nofun)
    rw [hclose]
    refine ⟨h.doComplete hunderway (handleStreamClose_ne_none s error), fun _ hsend => ?_⟩
    cases hsend

/-- **Every event keeps what has been sent a part of the message**. -/
theorem Sending.step (h : Sending start document s) (event : HttpBase.Event) :
    Sending start document (s.step event) := by
  cases event with
  | ready =>
    simp only [HttpBase.step]
    split_ifs with hready
    · obtain ⟨hmode, hcompleted, hunderway⟩ :=
        h.progress.resolve_right fun hdone => absurd (hdone.mode.symm.trans hready.1) nofun
      refine ⟨h.bounded, .inl ⟨hmode, hcompleted, hunderway.of_flush⟩, fun hqueue hnil => ?_⟩
      have hfull := of_decide_eq_true (FlushState.queue.inj hqueue)
      rw [show s.buffer = [] from hnil] at hfull
      exact absurd hfull (by decide)
    · exact h
  | close error =>
    simp only [HttpBase.step, HttpBase.onClose]
    split_ifs with hreturned hmode
    · refine h.doComplete ?_ (handleStreamClose_ne_none s error)
      exact (h.progress.resolve_right fun hdone => hmode hdone.mode).2.2
    · exact h
    · exact h
  | documentClose =>
    simp only [HttpBase.step]
    split_ifs with hready
    · refine h.doComplete ?_ nofun
      exact (h.progress.resolve_right fun hdone => absurd (hdone.mode.symm.trans hready.1) nofun).2.2
    · exact h
  | read answer =>
    simp only [HttpBase.step]
    cases hflush : s.flush with
    | queue sendRequired => exact (h.queueData hflush answer).1
    | returned => exact h
    | write sendRequired => exact h
  | write answer =>
    simp only [HttpBase.step]
    cases hflush : s.flush with
    | write sendRequired => exact (h.writeData hflush answer).1
    | returned => exact h
    | queue sendRequired => exact h

theorem Sending.blocked_of_returned (h : Sending start document s) {event : HttpBase.Event}
    (hruns : s.flush ≠ .returned) (hreturned : (s.step event).flush = .returned)
    (hmode : (s.step event).mode = .send) : event = .read .block ∨ event = .write .block := by
  unfold HttpBase.step at hreturned hmode
  cases hflush : s.flush with
  | returned => exact absurd hflush hruns
  | queue sendRequired =>
    cases event with
    | read answer =>
      simp only [hflush] at hreturned hmode
      rw [(h.queueData hflush answer).2 hreturned hmode]
      exact .inl rfl
    | ready => simp [hflush] at hreturned
    | close error => simp [hflush] at hreturned
    | documentClose => simp [hflush] at hreturned
    | write answer => simp [hflush] at hreturned
  | write sendRequired =>
    cases event with
    | write answer =>
      simp only [hflush] at hreturned hmode
      rw [(h.writeData hflush answer).2 hreturned hmode]
      exact .inr rfl
    | ready => simp [hflush] at hreturned
    | close error => simp [hflush] at hreturned
    | documentClose => simp [hflush] at hreturned
    | read answer => simp [hflush] at hreturned

theorem headers_ne_nil {data : HttpData} (h : data.isChunked = true) : data.headers ≠ [] := by
  intro hnil
  unfold HttpData.isChunked HttpData.hasHeader at h
  rw [hnil] at h
  cases h

theorem sending_send {data : HttpData} (hmode : s.mode = .none) (hchunked : data.isChunked = true)
    (hdocument : data.document = some document) :
    Sending (s.written ++ data.head) document (s.send data) := by
  have hsize : kBufferSize = 32768 := rfl
  have hnil := headers_ne_nil hchunked
  have hlength : (data.formatLeader kBufferSize).length +
      (strcpyn (kBufferSize - (data.formatLeader kBufferSize).length) crlf).length < kBufferSize := by
    rw [length_strcpyn, HttpData.formatLeader, length_strcpyn]
    omega
  unfold HttpBase.send HttpBase.flushData
  rw [if_neg (not_not.mpr hmode)]
  simp only [if_neg hnil]
  refine ⟨?_, .inl ⟨rfl, rfl, .head hnil hchunked hdocument ?_⟩, fun hqueue => ?_⟩
  · rw [List.length_append]
    omega
  · simp only [HttpData.head, List.append_assoc]
  · have hfull := of_decide_eq_true (FlushState.queue.inj hqueue)
    rw [List.length_append] at hfull
    omega

theorem sending_run (h : Sending start document s) (events : List HttpBase.Event) :
    Sending start document (run HttpBase.step s events) :=
  run_invariant (fun _ event h _ => h.step event) h (guarded_true _ events)

/-- **`flush_data` waits only for the network or the document**: the last thing that happened is a
call that blocked. -/
theorem HttpBase.returned_blocked (s : HttpBase) (data : HttpData) (document : List Uint8)
    (events : List HttpBase.Event) (event : HttpBase.Event) (hmode : s.mode = .none) (hchunked : data.isChunked = true)
    (hdocument : data.document = some document) (hruns : (run HttpBase.step (s.send data) events).flush ≠ .returned)
    (hreturned : (run HttpBase.step (s.send data) (events ++ [event])).flush = .returned)
    (hsends : (run HttpBase.step (s.send data) (events ++ [event])).mode = .send) :
    event = .read .block ∨ event = .write .block := by
  rw [run_append] at hreturned hsends
  exact (sending_run (sending_send hmode hchunked hdocument) events).blocked_of_returned hruns hreturned hsends

/-! ## The document arrives -/

variable {cb : Interface} {first : List Uint8} {more : List (List Uint8)}

/-- What a parser makes of one buffer after the other. -/
def parsed (cb : Interface) (size : Uint64) (first : List Uint8) (more : List (List Uint8)) : Receiving :=
  (first :: more).foldl (Receiving.present cb) { parser := awaiting size }

theorem parsed_delivered (hcb : cb.Continues) (size : Uint64)
    (h : Delivered start document (start ++ (first :: more).flatten)) :
    let d := parsed cb size first more
    d.received.body = document ∧ d.result = .prComplete ∧ d.error = .none ∧ d.left = [] := by
  obtain ⟨pieces, hpieces, rfl, hsent⟩ := h
  intro d
  have hd : d = receiving (first :: more).flatten.length
      (⟨⟨.trailers, true, 0⟩, { body := pieces.flatten }, some .none⟩, []) := by
    rw [← drain_chunks cb size hpieces, ← List.append_cancel_left hsent]
    exact foldl_present_flatten hcb _ _ _
  rw [hd]
  exact ⟨rfl, rfl, rfl, rfl⟩

theorem parsed_carries (hcb : cb.Continues) (size : Uint64)
    (h : Carries start document (start ++ (first :: more).flatten)) :
    let d := parsed cb size first more
    d.received.body <+: document ∧ d.error = .none := by
  obtain ⟨pieces, hpieces, rfl, hsent⟩ := h
  obtain ⟨rest, hrest⟩ := (List.prefix_append_right_inj start).mp hsent
  intro d
  have hd : d = receiving (first :: more).flatten.length
      ((machine cb).drain ⟨awaiting size, {}, none⟩ (first :: more).flatten) :=
    foldl_present_flatten hcb _ _ _
  have hwhole := drain_chunks cb size hpieces
  rw [← hrest, Incremental.drain_append] at hwhole
  rw [hd]
  generalize (machine cb).drain ⟨awaiting size, {}, none⟩ (first :: more).flatten = x at hwhole
  obtain ⟨⟨p, r, outcome⟩, left⟩ := x
  constructor
  · have hbody : r.body <+: ((machine cb).drain ⟨p, r, outcome⟩ (left ++ rest)).1.received.body :=
      body_drain ⟨p, r, outcome⟩ (left ++ rest)
    rwa [hwhole] at hbody
  · cases outcome with
    | none => rfl
    | some e =>
      rw [drain_outcome] at hwhole
      exact Option.some.inj (congrArg (fun y => y.1.outcome) hwhole)

/-- **Chunked documents arrive intact**, whatever the document and the network answer, in whatever
pieces they arrive. -/
theorem chunked_document_intact (s : HttpBase) (data : HttpData) (document : List Uint8) (cb : Interface)
    (events : List HttpBase.Event) (hcb : cb.Continues) (hmode : s.mode = .none)
    (hchunked : data.isChunked = true) (hdocument : data.document = some document) :
    let t := run HttpBase.step (s.send data) events
    t.buffer.length ≤ kBufferSize ∧
      (∀ size first more, t.written = s.written ++ data.head ++ (first :: more).flatten →
        (parsed cb size first more).received.body <+: document ∧
          (parsed cb size first more).error = .none) ∧
      (t.completed = some .none → ∃ body, t.written = s.written ++ data.head ++ body ∧
        ∀ size first more, (first :: more).flatten = body →
          (parsed cb size first more).received.body = document ∧
            (parsed cb size first more).result = .prComplete ∧
            (parsed cb size first more).error = .none ∧ (parsed cb size first more).left = []) := by
  intro t
  have hsending := sending_run (sending_send hmode hchunked hdocument) events
  refine ⟨hsending.bounded, fun size first more hwritten => ?_, fun hcompleted => ?_⟩
  · have hcarries : Carries (s.written ++ data.head) document t.written := by
      rcases hsending.progress with ⟨-, -, hunderway⟩ | hdone
      · exact hunderway.carries
      · exact hdone.carries
    rw [hwritten] at hcarries
    exact parsed_carries hcb size hcarries
  · rcases hsending.progress with ⟨-, hnone, -⟩ | hdone
    · exact absurd (hnone.symm.trans hcompleted) nofun
    · obtain ⟨pieces, hpieces, hflatten, hwritten⟩ := hdone.delivered hcompleted
      refine ⟨_, hwritten, fun size first more hbody => ?_⟩
      have hdelivered : Delivered (s.written ++ data.head) document
          (s.written ++ data.head ++ (first :: more).flatten) :=
        ⟨pieces, hpieces, hflatten, congrArg _ hbody⟩
      exact parsed_delivered hcb size hdelivered

section Example

def exampleData : HttpData where
  leader := text "HTTP/1.1 200"
  headers := [(text "Transfer-Encoding", text "chunked")]
  document := some (text "abc")

def exampleEvents : List HttpBase.Event :=
  [.read (.data 0), .write .block, .read .block, .write (.success 50), .read (.data 5), .write (.success 7),
    .read (.data 0), .write .block, .ready, .read (.data 0), .write (.success 100), .read (.data 0)]

theorem chunked_document_intact_blocking :
    (run HttpBase.step (HttpBase.send {} exampleData) exampleEvents).completed = some .none ∧
      ∃ body, (run HttpBase.step (HttpBase.send {} exampleData) exampleEvents).written =
        exampleData.head ++ body ∧
        (parsed (httpBase (fun _ => .none) none none) 0 body []).received.body = text "abc" := by
  have hcompleted : (run HttpBase.step (HttpBase.send {} exampleData) exampleEvents).completed =
      some .none := by decide
  obtain ⟨-, -, hdelivered⟩ := chunked_document_intact {} exampleData (text "abc")
    (httpBase (fun _ => .none) none none) exampleEvents httpBase_continues rfl (by decide) rfl
  obtain ⟨body, hwritten, hparsed⟩ := hdelivered hcompleted
  exact ⟨hcompleted, body, hwritten, (hparsed 0 body [] (by simp)).1⟩

/-- The document blocks after the head is sent. -/
theorem HttpBase.returned_blocked_document :
    (run HttpBase.step (HttpBase.send {} exampleData) [.read .block, .write (.success 50), .read .block]).flush =
        .returned ∧ (HttpBase.Event.read .block = .read .block ∨ HttpBase.Event.read .block = .write .block) := by
  have hreturned : (run HttpBase.step (HttpBase.send {} exampleData)
      ([.read .block, .write (.success 50)] ++ [.read .block])).flush = .returned := by decide
  exact ⟨hreturned, returned_blocked {} exampleData (text "abc") _ _ rfl (by decide) rfl (by decide) hreturned
    (by decide)⟩

end Example

end Libjingle.Http
