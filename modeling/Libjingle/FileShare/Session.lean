import Libjingle.Lib.Run
import Libjingle.Base.Numerals
import Libjingle.Base.Pathname
import Libjingle.FileShare.Manifest

/-!
# `FileShareSession` and its HTTP requests (`session/fileshare/fileshare.cc`)

A session answers the requests for its files. A preview of an image is made by the application, which is
asked with `SignalResampleImage` and calls `ResampleComplete`; until then the transaction is kept.

Main results: **`answeredOnce_iff`**, **`preview_answered_again`**.
-/

variable {transaction : Transaction} {t : TransactionId}

namespace Libjingle.FileShare

open Lib

/-! ## The state -/

/-- The address of an `HttpServerTransaction`. -/
abbrev TransactionId := ℕ

/-- What `OnHttpRequest` reads of a transaction. -/
structure Transaction where
  id : TransactionId
  path : List Uint8
deriving DecidableEq, Repr

/-- How a request is answered. -/
inductive Response where
  | error
  | success (mimeType : List Uint8)
  deriving DecidableEq, Repr

/-- What `SignalResampleImage` asks for. -/
structure Resample where
  pathname : List Uint8
  width : ℕ
  height : ℕ
deriving DecidableEq, Repr

/-- The folders and files that can be opened for reading. -/
structure Files where
  openTar : (filter folder : List Uint8) → Bool
  openFile : (pathname : List Uint8) → Bool

/-- The type of content of files. -/
def mimeOctetStream : List Uint8 := text "application/octet-stream"

/-- The largest side of a preview. -/
def maxPreviewSize : ℕ := 1024

/-- The members of a `FileShareSession` that its requests use, and a record. -/
structure Session where
  isSender : Bool := false
  manifest : Manifest := []
  sourcePath : List Uint8 := []
  previewPath : List Uint8 := []
  localFolder : List Uint8 := []
  storedLocation : List (List Uint8) := []
  itemTransferring : ℕ := 0
  transactions : List TransactionId := []
  received : List TransactionId := []
  responded : List (TransactionId × Response) := []
  resamples : List (TransactionId × Resample) := []
  destroyed : Bool := false

/-- What happens to a session. `OnHttpRequest` carries the calls of `ResampleComplete` made in
it. -/
inductive Event where
  | setLocalFolder (folder : List Uint8)
  | onInitiate (initiator : Bool) (manifest : Manifest) (sourcePath previewPath tempFolder : List Uint8)
  | downloaded (location : List Uint8)
  | onHttpRequest (transaction : Transaction) (files : Files) (calls : List (TransactionId × Bool))
  | resampleComplete (trans : TransactionId) (success : Bool)
  | destroy

namespace Session

variable (s : Session)

/-! ## The functions -/

def respond (trans : TransactionId) (response : Response) : Session :=
  { s with responded := s.responded ++ [(trans, response)] }

/-- `ResampleComplete`. After a success the transaction is answered again. -/
def resampleComplete (trans : TransactionId) (success : Bool) : Session :=
  if trans ∈ s.transactions then
    let s := { s with transactions := s.transactions.filter (· ≠ trans) }
    let s := if success then s.respond trans (.success mimeOctetStream) else s
    s.respond trans .error
  else s

def splitQuery (path : List Uint8) : List Uint8 × List Uint8 :=
  (path.takeWhile (· ≠ 0x3F#8), (path.dropWhile (· ≠ 0x3F#8)).drop 1)

def findItem (name : List Uint8) : Option (Item × ℕ) :=
  s.manifest.zipIdx.find? fun entry => entry.1.name = name

def scanSize (query : List Uint8) : Option (ℕ × ℕ) := do
  let rest ← scanLiteral (text "width=") (query.takeWhile (· ≠ 0))
  let (width, rest) ← scanNumber 10 rest
  let rest ← scanLiteral (text "&height=") rest
  let (height, _) ← scanNumber 10 rest
  some (width % 2 ^ 32, height % 2 ^ 32)

def localPath (item : Item) : Pathname :=
  ((Pathname.setFolder {} s.localFolder).setFilename item.name).1

def preview (item : Item) (index : ℕ) (query : List Uint8) : Option Resample :=
  if item.type = .image ∧ query ≠ [] then
    match scanSize query with
    | none => none
    | some (width, height) =>
      let pathname := if s.isSender then (s.localPath item).pathname
        else s.storedLocation.getD index []
      if pathname = [] then none
      else some ⟨pathname, max 1 (min width maxPreviewSize), max 1 (min height maxPreviewSize)⟩
  else none

/-- The type of the stream for an original. -/
def openItem (item : Item) (files : Files) : Option (List Uint8) :=
  match item.type with
  | .folder =>
    let path := (Pathname.setFolder {} s.localFolder).appendFolder item.name
    if files.openTar path.folderName path.parentFolder then some (text "application/x-tar") else none
  | .file | .image =>
    if files.openFile (s.localPath item).pathname then some mimeOctetStream else none

def requestedItem (transaction : Transaction) : Option (Item × ℕ × Bool × Bool) :=
  let remoteName := Pathname.ofPathname (splitQuery transaction.path).1
  let preview := s.previewPath == remoteName.folder
  let original := s.sourcePath == remoteName.folder
  if preview || original then
    (s.findItem (urlDecode remoteName.filename)).map fun entry => (entry.1, entry.2, preview, original)
  else none

def previewRequest (transaction : Transaction) : Option Resample :=
  match s.requestedItem transaction with
  | some (item, index, true, _) => s.preview item index (splitQuery transaction.path).2
  | _ => none

def askApplication (trans : TransactionId) (resample : Resample) (calls : List (TransactionId × Bool)) :
    Session :=
  calls.foldl (fun s call => s.resampleComplete call.1 call.2)
    { s with
      transactions := s.transactions ++ [trans]
      resamples := s.resamples ++ [(trans, resample)] }

/-- The end of `OnHttpRequest`: the response. -/
def answer (trans : TransactionId) (original : Bool) (index : ℕ) (stream : Option (List Uint8)) :
    Session :=
  match stream with
  | none => s.respond trans .error
  | some mimeType =>
    let s := if original then { s with itemTransferring := index } else s
    s.respond trans (.success mimeType)

/-- `OnHttpRequest`. -/
def onHttpRequest (transaction : Transaction) (files : Files) (calls : List (TransactionId × Bool)) :
    Session :=
  let query := (splitQuery transaction.path).2
  let s := { s with received := s.received ++ [transaction.id] }
  match s.requestedItem transaction with
  | none => s.answer transaction.id false 0 none
  | some (item, index, true, original) =>
    -- The transaction is answered here also when it is kept for the application.
    let s := match s.preview item index query with
      | none => s
      | some resample => s.askApplication transaction.id resample calls
    s.answer transaction.id original index none
  | some (item, index, false, original) =>
    s.answer transaction.id original index (s.openItem item files)

/-- `OnInitiate`. Without a local folder, a temporary one. -/
def onInitiate (initiator : Bool) (manifest : Manifest)
    (sourcePath previewPath tempFolder : List Uint8) : Session :=
  { s with
    isSender := initiator
    manifest := manifest
    sourcePath := sourcePath
    previewPath := previewPath
    localFolder := if s.localFolder = [] then tempFolder else s.localFolder }

/-- The end of `OnHttpClientComplete`. -/
def downloaded (location : List Uint8) : Session :=
  { s with
    storedLocation := s.storedLocation.take s.itemTransferring ++
      List.replicate (s.itemTransferring - s.storedLocation.length) [] ++ [location]
    itemTransferring := s.itemTransferring + 1 }

/-- The destructor: what is left is answered with an error. -/
def destroy : Session :=
  let s := s.transactions.foldl (fun s kept => s.respond kept .error) s
  { s with transactions := [], destroyed := true }

/-- Nothing happens to a session that is destroyed. -/
def step (e : Event) : Session :=
  if s.destroyed then s
  else
    match e with
    | .setLocalFolder folder => { s with localFolder := folder }
    | .onInitiate initiator manifest sourcePath previewPath tempFolder =>
      s.onInitiate initiator manifest sourcePath previewPath tempFolder
    | .downloaded location => s.downloaded location
    | .onHttpRequest transaction files calls => s.onHttpRequest transaction files calls
    | .resampleComplete t success => s.resampleComplete t success
    | .destroy => s.destroy

def new : Session := {}

/-! ## The property -/

def answers (t : TransactionId) : ℕ := (s.responded.map Prod.fst).count t + s.transactions.count t

/-- **Every transaction is answered once**, or is kept; when the session is destroyed, none is
kept. -/
structure Answered : Prop where
  once : ∀ t, s.answers t = s.received.count t
  none_left : s.destroyed = true → s.transactions = []

def NoPreview (s : Session) (e : Event) : Prop :=
  ∀ transaction files calls, e = .onHttpRequest transaction files calls → s.destroyed = false →
    s.previewRequest transaction = none

/-- The transactions are answered and none is kept. -/
structure Settled : Prop extends s.Answered where
  transactions : s.transactions = []

variable {s}

@[simp] theorem answers_respond (u t : TransactionId) (response : Response) :
    (s.respond u response).answers t = s.answers t + [u].count t := by
  simp only [answers, respond, List.map_append, List.map_cons, List.map_nil, List.count_append]
  omega

/-! ## Without previews -/

theorem answer_spec (u : TransactionId) (original : Bool) (index : ℕ) (stream : Option (List Uint8)) :
    (∀ t, (s.answer u original index stream).answers t = s.answers t + [u].count t) ∧
      (s.answer u original index stream).received = s.received ∧
      (s.answer u original index stream).transactions = s.transactions ∧
      (s.answer u original index stream).destroyed = s.destroyed := by
  unfold answer
  split
  · exact ⟨fun t => answers_respond u t _, rfl, rfl, rfl⟩
  · split
    · exact ⟨fun t => answers_respond u t _, rfl, rfl, rfl⟩
    · exact ⟨fun t => answers_respond u t _, rfl, rfl, rfl⟩

theorem onHttpRequest_of_none (h : s.previewRequest transaction = none)
    (files : Files) (calls : List (TransactionId × Bool)) :
    ∃ original index stream, s.onHttpRequest transaction files calls =
      { s with received := s.received ++ [transaction.id] }.answer transaction.id original index stream := by
  have hitem : { s with received := s.received ++ [transaction.id] }.requestedItem transaction =
    s.requestedItem transaction := rfl
  unfold onHttpRequest
  simp only [hitem]
  unfold previewRequest at h
  split
  · exact ⟨_, _, _, rfl⟩
  · rename_i item index original hrequested
    have hpreview : { s with received := s.received ++ [transaction.id] }.preview item index
        (splitQuery transaction.path).2 = none := by
      rw [hrequested] at h
      exact h
    rw [hpreview]
    exact ⟨_, _, _, rfl⟩
  · exact ⟨_, _, _, rfl⟩

theorem settled_onHttpRequest (hs : s.Settled)
    (h : s.previewRequest transaction = none) (files : Files) (calls : List (TransactionId × Bool)) :
    (s.onHttpRequest transaction files calls).Settled := by
  obtain ⟨original, index, stream, heq⟩ := onHttpRequest_of_none h files calls
  obtain ⟨hanswers, hreceived, htransactions, -⟩ :=
    answer_spec (s := { s with received := s.received ++ [transaction.id] }) transaction.id original
      index stream
  rw [heq]
  refine ⟨⟨fun t => ?_, fun _ => htransactions.trans hs.transactions⟩, htransactions.trans hs.transactions⟩
  rw [hanswers, hreceived, List.count_append]
  exact congrArg (· + [transaction.id].count t) (hs.once t)

theorem settled_step (e : Event) (hs : s.Settled) (h : NoPreview s e) : (s.step e).Settled := by
  unfold step
  split
  · exact hs
  · rename_i halive
    rw [Bool.not_eq_true] at halive
    cases e with
    | setLocalFolder folder => exact ⟨⟨hs.once, hs.none_left⟩, hs.transactions⟩
    | onInitiate initiator manifest sourcePath previewPath tempFolder =>
      exact ⟨⟨hs.once, hs.none_left⟩, hs.transactions⟩
    | downloaded location => exact ⟨⟨hs.once, hs.none_left⟩, hs.transactions⟩
    | onHttpRequest transaction files calls =>
      exact settled_onHttpRequest hs (h transaction files calls rfl halive) files calls
    | resampleComplete u success =>
      dsimp only
      rw [resampleComplete, if_neg (by rw [hs.transactions]; exact List.not_mem_nil)]
      exact hs
    | destroy =>
      have hdestroy : s.destroy = { s with transactions := [], destroyed := true } := by
        rw [destroy, hs.transactions]
        rfl
      dsimp only
      rw [hdestroy]
      refine ⟨⟨fun t => ?_, fun _ => rfl⟩, rfl⟩
      have honce := hs.once t
      rw [answers, hs.transactions] at honce
      exact honce

/-! ## A preview is answered too often -/

/-- What calls of `ResampleComplete` cannot undo: whatever they remove they answer. -/
structure AtLeast (s : Session) (t : TransactionId) (n : ℕ) : Prop where
  nodup : s.transactions.Nodup
  answers : n ≤ s.answers t

theorem atLeast_respond {n : ℕ} (h : AtLeast s t n) (u : TransactionId)
    (response : Response) : AtLeast (s.respond u response) t n :=
  ⟨h.nodup, by rw [answers_respond]; exact Nat.le_add_right_of_le h.answers⟩

theorem atLeast_resampleComplete {n : ℕ} (h : AtLeast s t n) (u : TransactionId)
    (success : Bool) : AtLeast (s.resampleComplete u success) t n := by
  unfold resampleComplete
  split
  · have hremoved : ∀ response : Response, AtLeast
        ({ s with transactions := s.transactions.filter (· ≠ u) }.respond u response) t n := by
      intro response
      refine ⟨h.nodup.filter _, ?_⟩
      rw [answers_respond]
      refine h.answers.trans ?_
      simp only [Session.answers, Nat.add_assoc]
      refine Nat.add_le_add_left ?_ _
      by_cases htu : u = t
      · subst htu
        have hle := List.nodup_iff_count_le_one.mp h.nodup u
        rw [List.count_singleton_self]
        omega
      · rw [List.count_filter (by simpa using Ne.symm htu)]
        exact Nat.le_add_right _ _
    cases success with
    | true => exact atLeast_respond (hremoved _) _ _
    | false => exact hremoved _
  · exact h

@[simp] theorem received_resampleComplete (u : TransactionId) (success : Bool) :
    (s.resampleComplete u success).received = s.received := by
  unfold resampleComplete
  split
  · cases success <;> rfl
  · rfl

theorem atLeast_calls {n : ℕ} (calls : List (TransactionId × Bool)) (h : AtLeast s t n) :
    AtLeast (calls.foldl (fun s call => s.resampleComplete call.1 call.2) s) t n ∧
      (calls.foldl (fun s call => s.resampleComplete call.1 call.2) s).received = s.received := by
  induction calls generalizing s with
  | nil => exact ⟨h, rfl⟩
  | cons call calls ih =>
    obtain ⟨hleast, hreceived⟩ := ih (atLeast_resampleComplete h call.1 call.2)
    exact ⟨hleast, hreceived.trans (received_resampleComplete _ _)⟩

theorem answers_of_preview (hs : s.Settled) {resample : Resample}
    (h : s.previewRequest transaction = some resample) (files : Files)
    (calls : List (TransactionId × Bool)) :
    (s.onHttpRequest transaction files calls).received.count transaction.id <
      (s.onHttpRequest transaction files calls).answers transaction.id := by
  unfold previewRequest at h
  split at h
  · rename_i item index original hrequested
    have hpreview : { s with received := s.received ++ [transaction.id] }.preview item index
        (splitQuery transaction.path).2 = some resample := h
    have hrequested' : { s with received := s.received ++ [transaction.id] }.requestedItem transaction =
        some (item, index, true, original) := hrequested
    unfold onHttpRequest
    simp only [hrequested', hpreview]
    obtain ⟨hanswers, hreceived, -, -⟩ := answer_spec
      (s := { s with received := s.received ++ [transaction.id] }.askApplication transaction.id resample
        calls) transaction.id original index none
    have honce := hs.once transaction.id
    obtain ⟨hleast, hcalls⟩ := atLeast_calls
      (s := { s with
        received := s.received ++ [transaction.id]
        transactions := s.transactions ++ [transaction.id]
        resamples := s.resamples ++ [(transaction.id, resample)] })
      (t := transaction.id) (n := s.received.count transaction.id + 1) calls
      ⟨by simp [hs.transactions], by
        simp only [Session.answers, List.count_append, List.count_singleton_self] at honce ⊢
        omega⟩
    have hgot : ({ s with received := s.received ++ [transaction.id] }.askApplication transaction.id
        resample calls).received = s.received ++ [transaction.id] := hcalls
    have hmany : s.received.count transaction.id + 1 ≤
        ({ s with received := s.received ++ [transaction.id] }.askApplication transaction.id
          resample calls).answers transaction.id := hleast.answers
    rw [hanswers, hreceived, hgot, List.count_append, List.count_singleton_self]
    omega
  · cases h

/-! ## The runs in which every transaction is answered once -/

theorem settled_new : new.Settled := ⟨⟨fun _ => rfl, fun h => by cases h⟩, rfl⟩

/-- **Every transaction is answered exactly once** if and only if no request asks the application
for a preview. -/
theorem answeredOnce_iff (events : List Event) :
    (∀ pre, pre <+: events → (run step new pre).Answered) ↔ Guarded step NoPreview new events := by
  refine guarded_iff_property (I := Settled) (fun s hs => hs.toAnswered)
    (fun s e hs h => settled_step e hs h) (fun s e hs h => ?_) settled_new
  intro transaction files calls he halive
  subst he
  match hpreview : s.previewRequest transaction with
  | none => rfl
  | some resample =>
    have hstep : s.step (.onHttpRequest transaction files calls) =
        s.onHttpRequest transaction files calls := by
      rw [step, if_neg (by simp [halive])]
    rw [hstep] at h
    have hmore := answers_of_preview hs hpreview files calls
    rw [h.once] at hmore
    exact absurd hmore (lt_irrefl _)

def examplePreview : List Event :=
  [.onInitiate true [⟨.image, [0x69], 100, 20, 20⟩] [0x73, 0x2F] [0x70, 0x2F] [0x74, 0x2F],
    .onHttpRequest ⟨7, text "p/i?width=9&height=9"⟩ ⟨fun _ _ => false, fun _ => false⟩ [],
    .resampleComplete 7 true]

/-- **A transaction that is answered three times**, first with an error while it is kept. -/
theorem preview_answered_again :
    (run step new examplePreview).received = [7] ∧
      (run step new examplePreview).responded =
        [(7, .error), (7, .success mimeOctetStream), (7, .error)] ∧
      ¬ (run step new examplePreview).Answered := by
  have hreceived : (run step new examplePreview).received = [7] := by decide
  have hresponded : (run step new examplePreview).responded =
      [(7, .error), (7, .success mimeOctetStream), (7, .error)] := by decide
  refine ⟨hreceived, hresponded, fun h => ?_⟩
  have honce := h.once 7
  rw [answers, hreceived, hresponded] at honce
  simp at honce
  omega

end Session

end Libjingle.FileShare
