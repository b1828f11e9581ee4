import Libjingle.Base.Numerals
import Libjingle.Base.Pathname
import Libjingle.Fifo.Model

/-!
# `TarStream` (`base/tarstream.{h,cc}`)

A `TarStream` opened for reading walks a folder and gives the bytes of an archive; one opened for writing
takes the bytes of an archive and creates its folders and files. Both work on blocks of 512 bytes, and the
kind of the next block is the state. `ProcessBuffer` copies as much of a block as it can at once, which is
written byte by byte here.

A `%o` of `printf` prints the low 32 bits of its argument, and one of `sscanf` stores an `int`.
-/

namespace Libjingle

open Http (tolower)

namespace Tar

/-! ## The files of the machine -/

/-- What a `DirectoryIterator` tells of an entry. -/
structure DirEntry where
  name : List Uint8
  isDirectory : Bool
  fileSize : ℕ := 0
  modifyTime : ℕ := 0
deriving DecidableEq, Repr

/-- The file system that the stream works on. -/
structure FileSystem (φ : Type) where
  createFolder : φ → List Uint8 → Bool × φ
  openWrite : φ → List Uint8 → Bool × φ
  write : φ → List Uint8 → List Uint8 → Option ℕ × φ
  iterate : φ → List Uint8 → Option (DirEntry × List DirEntry)
  openRead : φ → List Uint8 → Option (List Uint8)

/-! ## The state -/

/-- `TarStream::mode_`. -/
inductive Mode where
  | none | read | write
  deriving DecidableEq, Repr

/-- `TarStream::next_block_`. -/
inductive NextBlock where
  | none | fileHeader | data | trailer
  deriving DecidableEq, Repr

/-- `BLOCK_SIZE`. -/
def blockSize : ℕ := 512

/-- `current_`: a file that is read or written. -/
inductive CurrentFile where
  | reading (rest : List Uint8)
  | writing (pathname : List Uint8)
  deriving DecidableEq, Repr

/-- Something that was created, for an entry of the archive. -/
inductive Created where
  | folder (entry pathname : List Uint8)
  | file (entry pathname : List Uint8)
  deriving DecidableEq, Repr

/-- The path inside the archive. -/
def Created.entry : Created → List Uint8
  | .folder entry _ | .file entry _ => entry

/-- The path in the file system. -/
def Created.pathname : Created → List Uint8
  | .folder _ pathname | .file _ pathname => pathname

/-- `TarStream`, with a record of what it creates and of failed assertions. -/
structure TarStream (φ : Type) where
  files : φ
  filters : List (List Uint8) := []
  rootFolder : List Uint8 := []
  mode : Mode := .none
  nextBlock : NextBlock := .none
  block : List Uint8 := List.replicate blockSize 0
  blockPos : ℕ := 0
  current : Option CurrentFile := none
  currentBytes : ℕ := 0
  find : List (Option (List DirEntry)) := []
  subfolder : List Uint8 := []
  created : List Created := []
  signalled : List (List Uint8 × ℕ) := []
  processed : List NextBlock := []
  asserted : Bool := true
deriving DecidableEq, Repr

namespace TarStream

variable {φ : Type} (fs : FileSystem φ) (s : TarStream φ)

/-- An `ASSERT`. -/
def assert (condition : Bool) : TarStream φ := { s with asserted := s.asserted && condition }

/-! ## Filters -/

def archivePath (p : Pathname) : Pathname := (p.setFolderDelimiter 0x2F#8).normalize

def addFilter (pathname : List Uint8) : TarStream φ :=
  if pathname = [] then s
  else { s with filters := s.filters ++ [(archivePath (.ofPathname pathname)).pathname] }

def sameNoCase : ℕ → List Uint8 → List Uint8 → Bool
  | 0, _, _ => true
  | n + 1, a, b =>
    tolower (a.headD 0) = tolower (b.headD 0) && (a.headD 0 = 0 || sameNoCase n a.tail b.tail)

def matchesFilter (pathname filter : List Uint8) : Bool :=
  sameNoCase filter.length pathname filter &&
    (filter.getLast?.any isFolderDelimiter || filter.length = pathname.length)

/-- `TarStream::CheckFilter`. -/
def checkFilter (pathname : List Uint8) : Bool :=
  s.filters.isEmpty || s.filters.any (matchesFilter pathname)

/-! ## Fields of a header -/

def fieldText (block : List Uint8) (pos maxLen : ℕ) : List Uint8 :=
  ((block.drop pos).take maxLen).takeWhile (· ≠ 0)

def fieldPadded (block : List Uint8) (pos maxLen : ℕ) : Bool :=
  (((block.drop pos).take maxLen).dropWhile (· ≠ 0)).all (· = 0)

def readsField (block : List Uint8) (field : ℕ × ℕ) : Bool :=
  field.1 + field.2 ≤ blockSize && fieldPadded block field.1 field.2

def intToSize (v : ℕ) : ℕ := if v % 2 ^ 32 < 2 ^ 31 then v % 2 ^ 32 else 2 ^ 64 - 2 ^ 32 + v % 2 ^ 32

def octalValue (field : List Uint8) : ℕ :=
  match scanNumber 8 field with
  | some (v, _) => intToSize v
  | none => 0

/-- `TarStream::ReadFieldN`. -/
def fieldNumber (block : List Uint8) (pos maxLen : ℕ) : ℕ := octalValue (fieldText block pos maxLen)

def copyInto (block : List Uint8) (pos : ℕ) (data : List Uint8) : List Uint8 :=
  block.take pos ++ data ++ block.drop (pos + data.length)

def writeFieldS (pos maxLen : ℕ) (field : List Uint8) : ℕ × TarStream φ :=
  (pos + maxLen,
    { s.assert (pos + maxLen ≤ blockSize) with
      block := copyInto s.block pos ((field.takeWhile (· ≠ 0)).take maxLen) })

def writeFields (pos : ℕ) (fields : List (ℕ × List Uint8)) : ℕ × TarStream φ :=
  fields.foldl (fun r field => r.2.writeFieldS r.1 field.1 field.2) (pos, s)

def writeChecksum : TarStream φ :=
  { s with
    block := copyInto s.block 148 (formatNumber 8 6 (s.block.map BitVec.toNat).sum ++ [0]) }

def processEmptyBlock (start : ℕ) : StreamResult × TarStream φ :=
  match s.mode with
  | .read =>
    (.success, { s with block := s.block.take start ++ List.replicate (blockSize - start) 0 })
  | _ => if (s.block.drop start).all (· = 0) then (.success, s) else (.error, s)

/-! ## Writing: the next entry of an archive -/

/-- What `WriteNextFile` reads from a header. -/
structure Header where
  name : List Uint8
  fileSize : ℕ
  pathname : List Uint8
  blockData : ℕ
deriving DecidableEq, Repr

/-- Where the link indicator is. -/
def linkPos (block : List Uint8) : ℕ := if fieldNumber block 148 8 = 0 then 148 else 156

def isUstar (block : List Uint8) : Bool :=
  fieldText block 0 100 ≠ [] && (fieldText block (linkPos block + 101) 6 = text "ustar" ||
    fieldText block (linkPos block + 101) 6 = text "ustar ")

/-- The fields that are read. -/
def headerReads (block : List Uint8) : List (ℕ × ℕ) :=
  let pos := linkPos block
  [(0, 100), (100, 8), (108, 8), (116, 8), (124, 12), (136, 12), (148, 8), (pos, 1), (pos + 1, 100),
    (pos + 101, 6), (pos + 107, 2)] ++
  if isUstar block then [(pos + 109, 32), (pos + 141, 32), (pos + 173, 8), (pos + 181, 8), (pos + 189, 155)]
  else []

def readHeader (block : List Uint8) : Header where
  name := fieldText block 0 100
  fileSize := fieldNumber block 124 12
  pathname :=
    if isUstar block then fieldText block (linkPos block + 189) 155 ++ fieldText block 0 100
    else fieldText block 0 100
  blockData := linkPos block + if isUstar block then 344 else 109

def Header.path (h : Header) : Pathname := archivePath (.ofPathname h.pathname)

/-- The checks on the path of an entry. -/
def sane (path : List Uint8) : Bool :=
  !decide (text "../" <:+: path) && !path.contains 0x3A#8 && !decide (text "//" <:+: path)

def localPath (path : List Uint8) : List Uint8 :=
  ((Pathname.ofPathname s.rootFolder).appendPathname path).normalize.pathname

def signalNextEntry (name : List Uint8) : TarStream φ :=
  { s with signalled := s.signalled ++ [(name, s.currentBytes)] }

def announceData (h : Header) : TarStream φ :=
  if h.path.filename = [] then s.assert (s.nextBlock = .fileHeader && h.fileSize = 0)
  else if 0 < h.fileSize then { s with nextBlock := .data, currentBytes := h.fileSize }
  else s

def makeEntry (h : Header) : StreamResult × TarStream φ :=
  let path := h.path
  let pathname := s.localPath path.pathname
  if path.filename = [] then
    let (made, files) := fs.createFolder s.files pathname
    let s := { s with files := files, created := s.created ++ [Created.folder path.pathname pathname] }
    if made then (.success, s.signalNextEntry path.filename) else (.error, s)
  else
    match fs.openWrite s.files pathname with
    | (false, files) => (.error, { s with files := files })
    | (true, files) =>
      let s := { s with files := files, created := s.created ++ [Created.file path.pathname pathname] }
      let s := if 0 < h.fileSize then { s with current := some (.writing pathname) } else s
      (.success, s.signalNextEntry path.filename)

def createEntry (h : Header) : StreamResult × TarStream φ :=
  let s := s.announceData h
  if !s.checkFilter h.path.pathname then (.success, s)
  else if !sane h.path.pathname then (.success, s)
  else s.makeEntry fs h

/-- `TarStream::WriteNextFile`. -/
def writeNextFile : StreamResult × TarStream φ :=
  let s := s.assert (s.mode = .write && s.nextBlock = .fileHeader && s.blockPos = blockSize &&
    s.current.isNone && s.currentBytes = 0)
  let h := readHeader s.block
  let s := s.assert ((headerReads s.block).all (readsField s.block))
  if h.name = [] then (.eos, s)
  else
    match s.processEmptyBlock h.blockData with
    | (.success, s) => s.createEntry fs h
    | r => r

/-! ## Reading: the next entry of a folder -/

/-- The fields of the header of an entry. -/
def headerFields (path : List Uint8) (isDirectory : Bool) (size modifyTime : ℕ) :
    List (ℕ × List Uint8) :=
  let name := path.drop (path.length - 100)
  let octal (n : ℕ) := formatNumber 8 11 (n % 2 ^ 32)
  [(100, name), (8, if isDirectory then text "777" else text "666"), (8, text "5"), (8, text "5"),
    (12, octal size), (12, octal modifyTime), (8, List.replicate 8 0x20),
    (1, if isDirectory then text "5" else text "0"), (100, [])] ++
  if 100 < path.length then
    [(6, text "ustar"), (2, []), (32, []), (32, []), (8, []), (8, []),
      (155, path.take (path.length - 100))]
  else []

def fillHeader (path : Pathname) (isDirectory : Bool) (modifyTime : ℕ) : StreamResult × TarStream φ :=
  let fields := headerFields path.pathname isDirectory s.currentBytes modifyTime
  let r := { s with block := List.replicate blockSize 0 }.writeFields 0 fields
  r.2.processEmptyBlock r.1

def writeHeader (path : Pathname) (isDirectory : Bool) (modifyTime : ℕ) : StreamResult × TarStream φ :=
  let r := s.fillHeader path isDirectory modifyTime
  let s : TarStream φ := { r.2.writeChecksum with blockPos := 0 }
  let s := if 0 < s.currentBytes then
    { s with nextBlock := if isDirectory then .fileHeader else .data } else s
  (r.1, s.signalNextEntry path.filename)

def entryPath (data : DirEntry) : Pathname :=
  let path := Pathname.setFolder {} s.subfolder
  archivePath (if data.isDirectory then path.appendFolder data.name else (path.setFilename data.name).1)

def processNextEntryAsserts : TarStream φ :=
  s.assert (s.mode = .read && s.nextBlock = .fileHeader && s.blockPos = blockSize && s.current.isNone &&
    s.currentBytes = 0)

/-- `TarStream::ProcessNextEntry`; `none` is an entry that is skipped. -/
def processNextEntry (data : DirEntry) : Option (StreamResult × TarStream φ) :=
  if data.isDirectory ∧ (data.name = text "." ∨ data.name = text "..") then none
  else
    let path := s.entryPath data
    if !s.checkFilter path.pathname then none
    else if 255 < path.pathname.length then some (.error, s)
    else if data.isDirectory then
      some ({ s with find := none :: s.find, subfolder := path.pathname }.writeHeader path true
        data.modifyTime)
    else
      match fs.openRead s.files (s.localPath path.pathname) with
      | none => none
      | some contents =>
        some ({ s with current := some (.reading contents), currentBytes := data.fileSize }.writeHeader
          path false data.modifyTime)

@[simp] theorem find_processNextEntryAsserts : s.processNextEntryAsserts.find = s.find := rfl

def walkSize (find : List (Option (List DirEntry))) : ℕ × ℕ :=
  (find.countP Option.isNone, (find.map fun it => (it.getD []).length + 1).sum)

def popFolder : TarStream φ :=
  { s with find := s.find.tail, subfolder := (Pathname.ofPathname s.subfolder).parentFolder }

set_option linter.unusedVariables false in
def walk (s : TarStream φ) : StreamResult × TarStream φ :=
  match hfind : s.find with
  | [] => (.eos, s.assert false)
  | some (data :: rest) :: find =>
    match { s with find := some rest :: find }.processNextEntryAsserts.processNextEntry fs data with
    | none => walk { s with find := some rest :: find }.processNextEntryAsserts
    | some r => r
  | some [] :: find => if find = [] then (.eos, s.popFolder) else walk s.popFolder
  | none :: find =>
    match fs.iterate s.files ((Pathname.ofPathname s.rootFolder).appendFolder s.subfolder).pathname with
    | some (data, rest) =>
      match { s with find := some rest :: find }.processNextEntryAsserts.processNextEntry fs data with
      | none => walk { s with find := some rest :: find }.processNextEntryAsserts
      | some r => r
    | none => if find = [] then (.eos, s.popFolder) else walk s.popFolder
termination_by walkSize s.find
decreasing_by
  all_goals simp [walkSize, Prod.lex_def, popFolder, hfind]

/-- `TarStream::ReadNextFile`. -/
def readNextFile : StreamResult × TarStream φ :=
  (s.assert (s.mode = .read && s.nextBlock = .fileHeader && s.blockPos = blockSize &&
    s.current.isNone)).walk fs

/-! ## Blocks -/

def writeData (pathname : List Uint8) : ℕ → φ → List Uint8 → Bool × φ
  | 0, files, _ => (true, files)
  | n + 1, files, data =>
    if data = [] then (true, files)
    else
      match fs.write files pathname data with
      | (none, files) => (false, files)
      | (some written, files) => writeData pathname n files (data.drop (max 1 written))

def processData : StreamResult × TarStream φ :=
  let available := min blockSize s.currentBytes
  match s.mode, s.current with
  | .read, some (.reading rest) =>
    let s := { s with
      block := copyInto s.block 0 (rest.take available)
      current := some (.reading (rest.drop available)) }
    -- A file that has become shorter.
    if rest.length < available then (.error, s.assert false) else (.success, s)
  | .read, _ => (.error, s.assert false)
  | _, some (.writing pathname) =>
    match writeData fs pathname available s.files (s.block.take available) with
    | (true, files) => (.success, { s with files := files })
    | (false, files) => (.error, { s with files := files })
  | _, _ => (.success, s)

def nextBlockStarts : TarStream φ := { s with blockPos := 0 }

def processTrailer : StreamResult × TarStream φ :=
  match s.processEmptyBlock 0 with
  | (.success, s) => (.success, { s with nextBlock := .none }.nextBlockStarts)
  | r => r

/-- `ProcessFileHeader`, or the first trailer block. -/
def processFileHeader : StreamResult × TarStream φ :=
  match if s.mode = .read then s.readNextFile fs else s.writeNextFile fs with
  | (.success, s) => (.success, s.nextBlockStarts)
  | (.eos, s) =>
    match { s with nextBlock := .trailer }.nextBlockStarts.processEmptyBlock 0 with
    | (.success, s) => (.success, s.nextBlockStarts)
    | r => r
  | r => r

/-- The rest of the last block of a file is zeroed. -/
def processDataBlock : StreamResult × TarStream φ :=
  match s.processData fs with
  | (.success, s) =>
    let consumed := min blockSize s.currentBytes
    let s := { s with currentBytes := s.currentBytes - consumed }
    if s.currentBytes = 0 then
      match s.processEmptyBlock consumed with
      | (.success, s) =>
        (.success, { s with current := none, nextBlock := .fileHeader }.nextBlockStarts)
      | r => r
    else (.success, s.nextBlockStarts)
  | r => r

/-- The start of `ProcessNextBlock`. -/
def beginBlock : TarStream φ :=
  { s.assert (s.mode ≠ .none && s.blockPos = blockSize) with processed := s.processed ++ [s.nextBlock] }

/-- `TarStream::ProcessNextBlock`. -/
def processNextBlock : StreamResult × TarStream φ :=
  match s.nextBlock with
  | .none => (.eos, s.beginBlock)
  | .trailer => s.beginBlock.processTrailer
  | .fileHeader => s.beginBlock.processFileHeader fs
  | .data => s.beginBlock.processDataBlock fs

/-! ## The stream -/

def putByte (b : Uint8) : TarStream φ :=
  { s with block := s.block.set s.blockPos b, blockPos := s.blockPos + 1 }

/-- `ProcessBuffer` for writing. -/
def writeBytes (s : TarStream φ) : List Uint8 → StreamResult × TarStream φ
  | [] => (.success, s)
  | b :: data =>
    if s.blockPos = blockSize then
      match s.processNextBlock fs with
      | (.success, s) => writeBytes (s.putByte b) data
      | r => r
    else writeBytes (s.putByte b) data

def getByte : Uint8 × TarStream φ := (s.block.getD s.blockPos 0, { s with blockPos := s.blockPos + 1 })

/-- `ProcessBuffer` for reading that many bytes. -/
def readBytes (s : TarStream φ) : ℕ → List Uint8 × TarStream φ
  | 0 => ([], s)
  | n + 1 =>
    if s.blockPos = blockSize then
      match s.processNextBlock fs with
      | (.success, s) => (s.getByte.1 :: (readBytes s.getByte.2 n).1, (readBytes s.getByte.2 n).2)
      | (_, s) => ([], s)
    else (s.getByte.1 :: (readBytes s.getByte.2 n).1, (readBytes s.getByte.2 n).2)

/-- `TarStream::Write`. -/
def write (data : List Uint8) : StreamResult × TarStream φ :=
  if s.mode = .write then s.writeBytes fs data else (.eos, s)

/-- `TarStream::Read`. -/
def read (n : ℕ) : List Uint8 × TarStream φ := if s.mode = .read then s.readBytes fs n else ([], s)

/-! ## Bytes and blocks -/

theorem writeBytes_fill (l : List Uint8) (hlen : s.block.length = blockSize)
    (hl : s.blockPos + l.length ≤ blockSize) :
    ∃ block, s.writeBytes fs l = (.success, { s with block := block, blockPos := s.blockPos + l.length }) ∧
      block.length = blockSize ∧ block.take (s.blockPos + l.length) = s.block.take s.blockPos ++ l := by
  induction l generalizing s with
  | nil => exact ⟨s.block, rfl, hlen, by simp⟩
  | cons b l ih =>
    rw [List.length_cons] at hl ⊢
    obtain ⟨block, hwrite, hlen', htake⟩ := ih (s.putByte b)
      (by rw [TarStream.putByte, List.length_set, hlen])
      (by change s.blockPos + 1 + l.length ≤ blockSize; omega)
    have hpos : (s.putByte b).blockPos + l.length = s.blockPos + (l.length + 1) := by
      change s.blockPos + 1 + l.length = _
      omega
    rw [hpos] at hwrite htake
    refine ⟨block, ?_, hlen', ?_⟩
    · rw [writeBytes, if_neg (by omega), hwrite]
      rfl
    · rw [htake]
      change (s.block.set s.blockPos b).take (s.blockPos + 1) ++ l = _
      rw [List.take_succ_eq_append_getElem (by rw [List.length_set]; omega), List.take_set_of_le (Nat.le_refl _),
        List.getElem_set_self, List.append_assoc, List.singleton_append]

variable {fs s} in
theorem writeBytes_append {s' : TarStream φ} {l : List Uint8} (h : s.writeBytes fs l = (.success, s'))
    (l' : List Uint8) : s.writeBytes fs (l ++ l') = s'.writeBytes fs l' := by
  induction l generalizing s with
  | nil =>
    obtain rfl := (Prod.mk.inj h).2
    rfl
  | cons b l ih =>
    rw [List.cons_append]
    rw [writeBytes] at h ⊢
    split at h
    · rename_i hpos
      rw [if_pos hpos]
      split at h
      · exact ih h
      · rename_i hne
        exact absurd h (hne s')
    · rename_i hpos
      rw [if_neg hpos]
      exact ih h

/-! ## Opening -/

def rootOf (folder : List Uint8) : List Uint8 := (Pathname.setFolder {} folder).normalize.folder

def close : TarStream φ :=
  { s with
    rootFolder := []
    nextBlock := .none
    blockPos := 0
    current := none
    currentBytes := 0
    find := []
    subfolder := [] }

def openWrite (folder : List Uint8) : Bool × TarStream φ :=
  let s := { s.close with rootFolder := rootOf folder }
  match fs.createFolder s.files (Pathname.ofPathname s.rootFolder).pathname with
  | (false, files) => (false, { s with files := files })
  | (true, files) => (true, { s with files := files, mode := .write, nextBlock := .fileHeader })

def openRead (folder : List Uint8) : Bool × TarStream φ :=
  let s := { s.close with rootFolder := rootOf folder }
  match fs.iterate s.files (Pathname.ofPathname s.rootFolder).pathname with
  | none => (false, s)
  | some (data, rest) =>
    let s := { s with
      mode := .read
      find := [some rest]
      nextBlock := .fileHeader
      blockPos := blockSize }.processNextEntryAsserts
    match s.processNextEntry fs data with
    | none => (true, s)
    | some (.success, s) => (true, s)
    | some (_, s) => (false, s)

end TarStream

end Tar

end Libjingle
