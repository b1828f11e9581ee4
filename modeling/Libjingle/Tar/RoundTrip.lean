import Libjingle.Lib.LexicalPath
import Libjingle.Lib.Run
import Libjingle.Tar.Stream

/-!
# From a tree to an archive, and back

Main results: **`spaced_header`**, **`roundTrips_iff`**, **`one_file_asserts`**.
-/

variable {b block : List Uint8}

namespace Libjingle.Tar

open Lib
open TarStream

/-! ## Trees -/

/-- A name that a folder may hold. -/
def FileName : Type :=
  {name : List Uint8 // name ≠ [] ∧ name ≠ text "." ∧ name ≠ text ".." ∧ 0x2F#8 ∉ name ∧ 0#8 ∉ name}

/-- A file or folder of a tree. -/
inductive Node where
  | file (name : FileName) (modifyTime : ℕ) (contents : List Uint8)
  | folder (name : FileName) (modifyTime : ℕ) (children : List Node)

def Node.entry : Node → DirEntry
  | .file name modifyTime contents => ⟨name.val, false, contents.length, modifyTime⟩
  | .folder name modifyTime _ => ⟨name.val, true, 0, modifyTime⟩

mutual

def Node.paths (folder : List Uint8) : Node → List (List Uint8 × Option (List Uint8))
  | .file name _ contents => [(folder ++ name.val, some contents)]
  | .folder name _ children =>
    (folder ++ name.val ++ [0x2F#8], none) :: treePaths (folder ++ name.val ++ [0x2F#8]) children

def treePaths (folder : List Uint8) : List Node → List (List Uint8 × Option (List Uint8))
  | [] => []
  | node :: nodes => node.paths folder ++ treePaths folder nodes

end

mutual

def Node.folders (folder : List Uint8) : Node → List (List Uint8 × List Node)
  | .file _ _ _ => []
  | .folder name _ children =>
    (folder ++ name.val ++ [0x2F#8], children) :: treeFolders (folder ++ name.val ++ [0x2F#8]) children

def treeFolders (folder : List Uint8) : List Node → List (List Uint8 × List Node)
  | [] => []
  | node :: nodes => node.folders folder ++ treeFolders folder nodes

end

abbrev Listing := {order : List DirEntry → List DirEntry // ∀ entries, (order entries).Perm entries}

/-- The entries of every folder that are not nodes. -/
def dotEntries : List DirEntry := [⟨text ".", true, 0, 0⟩, ⟨text "..", true, 0, 0⟩]

def treeFiles (listing : Listing) (root : List Uint8) (tree : List Node) : FileSystem Unit where
  createFolder files _ := (false, files)
  openWrite files _ := (false, files)
  write files _ _ := (none, files)
  iterate _ path :=
    match (((Pathname.ofPathname root).pathname, tree) :: treeFolders root tree).find?
        fun folder => folder.1 = path with
    | none => none
    | some (_, children) =>
      match listing.val (dotEntries ++ children.map Node.entry) with
      | [] => none
      | entry :: entries => some (entry, entries)
  openRead _ path := ((treePaths root tree).find? fun file => file.1 = path).bind Prod.snd

/-- What an extraction has created. -/
structure Disk where
  folders : List (List Uint8) := []
  files : List (List Uint8 × List Uint8) := []
deriving DecidableEq, Repr

/-- A file system that starts empty. -/
def diskFiles : FileSystem Disk where
  createFolder d path := (true, { d with folders := d.folders ++ [path] })
  openWrite d path :=
    if lastComponent 0x2F#8 path = [extDelim] ∨ lastComponent 0x2F#8 path = parent extDelim then (false, d)
    else (true, { d with files := d.files.filter (·.1 ≠ path) ++ [(path, [])] })
  write d path data :=
    (some data.length,
      { d with files := d.files.map fun file => if file.1 = path then (path, file.2 ++ data) else file })
  iterate _ _ := none
  openRead _ _ := none

/-- **The disk has the folders and files of a tree** under a root folder. -/
structure Recreates (d : Disk) (root : List Uint8) (tree : List Node) : Prop where
  folders : ∀ path, path ∈ d.folders ↔
    path = (Pathname.ofPathname root).pathname ∨ (path, none) ∈ treePaths root tree
  files : ∀ path contents, (path, contents) ∈ d.files ↔ (path, some contents) ∈ treePaths root tree

/-! ## The property -/

variable {φ : Type}

def readAll (fs : FileSystem φ) (s : TarStream φ) : List ℕ → List Uint8 × TarStream φ
  | [] => ([], s)
  | n :: ns => ((s.read fs n).1 ++ (readAll fs (s.read fs n).2 ns).1, (readAll fs (s.read fs n).2 ns).2)

def Exhausted (s : TarStream φ) : Prop := s.nextBlock = .none ∧ s.blockPos = blockSize

def source (listing : Listing) (folder : List Uint8) (tree : List Node) : TarStream Unit :=
  (TarStream.openRead (treeFiles listing (rootOf folder) tree) { files := () } folder).2

def target (folder : List Uint8) : TarStream Disk :=
  (TarStream.openWrite diskFiles { files := {} } folder).2

def written (s : TarStream Disk) (pieces : List (List Uint8)) : TarStream Disk :=
  run (fun s piece => (s.write diskFiles piece).2) s pieces

/-- **The round trip of a tree**, in whatever pieces the archive is written. -/
structure RoundTrips (listing : Listing) (folder folder' : List Uint8) (tree : List Node) : Prop where
  ends : ∃ sizes, Exhausted (readAll (treeFiles listing (rootOf folder) tree)
    (source listing folder tree) sizes).2
  reads : ∀ sizes, (readAll (treeFiles listing (rootOf folder) tree)
    (source listing folder tree) sizes).2.asserted = true
  writes : ∀ sizes pieces,
    Exhausted (readAll (treeFiles listing (rootOf folder) tree) (source listing folder tree) sizes).2 →
    pieces.flatten =
      (readAll (treeFiles listing (rootOf folder) tree) (source listing folder tree) sizes).1 →
    (∀ pre, pre <+: pieces → (written (target folder') pre).asserted = true) ∧
    Recreates (written (target folder') pieces).files (rootOf folder') tree ∧
    ∃ lengths : List ℕ, lengths.Perm ((treePaths [] tree).map fun file => (file.2.getD []).length) ∧
      lengths.flatMap (fun n => .fileHeader :: List.replicate ((n + (blockSize - 1)) / blockSize) .data) <+:
        (written (target folder') pieces).processed

/-! ## The header of an entry -/

section Blocks

variable {block data : List Uint8} {pos i : ℕ}

theorem length_copyInto (h : pos + data.length ≤ block.length) : (copyInto block pos data).length = block.length := by
  simp only [copyInto, List.length_append, List.length_take, List.length_drop]
  omega

theorem getElem?_copyInto_of_lt (h : pos ≤ block.length) (hi : i < pos) :
    (copyInto block pos data)[i]? = block[i]? := by
  rw [copyInto, List.append_assoc, List.getElem?_append_left (by rw [List.length_take]; omega),
    List.getElem?_take_of_lt hi]

theorem getElem?_copyInto_of_ge (h : pos ≤ block.length) (hi : pos + data.length ≤ i) :
    (copyInto block pos data)[i]? = block[i]? := by
  have hlen : (block.take pos ++ data).length = pos + data.length := by
    rw [List.length_append, List.length_take]
    omega
  rw [copyInto, List.getElem?_append_right (by omega), hlen, List.getElem?_drop]
  congr 1
  omega

theorem getElem?_copyInto (h : pos ≤ block.length) (hi : pos ≤ i) (hlt : i < pos + data.length) :
    (copyInto block pos data)[i]? = data[i - pos]? := by
  have htake : (block.take pos).length = pos := by
    rw [List.length_take]
    omega
  rw [copyInto, List.append_assoc, List.getElem?_append_right (by omega), htake,
    List.getElem?_append_left (by omega)]

end Blocks

def fieldsLength (fields : List (ℕ × List Uint8)) : ℕ := (fields.map Prod.fst).sum

theorem writeFields_cons (s : TarStream φ) (pos : ℕ) (field : ℕ × List Uint8) (fields : List (ℕ × List Uint8)) :
    s.writeFields pos (field :: fields) =
      (s.writeFieldS pos field.1 field.2).2.writeFields (s.writeFieldS pos field.1 field.2).1 fields := rfl

theorem writeFields_append (s : TarStream φ) (pos : ℕ) (fields fields' : List (ℕ × List Uint8)) :
    s.writeFields pos (fields ++ fields') =
      (s.writeFields pos fields).2.writeFields (s.writeFields pos fields).1 fields' := by
  rw [TarStream.writeFields, List.foldl_append]
  rfl

theorem writeFields_spec (s : TarStream φ) (pos : ℕ) (fields : List (ℕ × List Uint8))
    (h : pos + fieldsLength fields ≤ s.block.length) :
    (s.writeFields pos fields).1 = pos + fieldsLength fields ∧
      (s.writeFields pos fields).2.block.length = s.block.length ∧
      (s.writeFields pos fields).2.mode = s.mode ∧
      ∀ i < pos, (s.writeFields pos fields).2.block[i]? = s.block[i]? := by
  induction fields generalizing s pos with
  | nil => exact ⟨rfl, rfl, rfl, fun _ _ => rfl⟩
  | cons field fields ih =>
    have hsum : fieldsLength (field :: fields) = field.1 + fieldsLength fields := rfl
    rw [hsum] at h ⊢
    have htext : ((field.2.takeWhile (· ≠ 0)).take field.1).length ≤ field.1 := List.length_take_le _ _
    have hlength : (s.writeFieldS pos field.1 field.2).2.block.length = s.block.length :=
      length_copyInto (by omega)
    obtain ⟨hpos, hlen, hmode, hbefore⟩ := ih (s.writeFieldS pos field.1 field.2).2 (pos + field.1)
      (by rw [hlength]; omega)
    rw [writeFields_cons]
    refine ⟨?_, hlen.trans hlength, hmode, fun i hi => ?_⟩
    · exact hpos.trans (Nat.add_assoc _ _ _)
    · exact (hbefore i (by omega)).trans (getElem?_copyInto_of_lt (by omega) hi)

theorem sum_toNat_le (l : List Uint8) : (l.map BitVec.toNat).sum ≤ 255 * l.length := by
  induction l with
  | nil => exact Nat.le_refl _
  | cons b l ih =>
    have hb := b.isLt
    rw [List.map_cons, List.sum_cons, List.length_cons]
    omega

theorem headerFields_split (path : List Uint8) (isDirectory : Bool) (size modifyTime : ℕ) :
    ∃ before after, headerFields path isDirectory size modifyTime =
        before ++ (8, List.replicate 8 0x20) :: after ∧
      fieldsLength before = 148 ∧ 101 ≤ fieldsLength after ∧ fieldsLength after ≤ 344 := by
  let ustar : List (ℕ × List Uint8) :=
    if 100 < path.length then
      [(6, text "ustar"), (2, []), (32, []), (32, []), (8, []), (8, []),
        (155, path.take (path.length - 100))]
    else []
  have hustar : fieldsLength ustar ≤ 243 := by
    simp only [ustar, fieldsLength]
    split_ifs <;> simp
  refine ⟨[_, _, _, _, _, _], (1, _) :: (100, []) :: ustar, rfl, rfl, ?_, ?_⟩
  · simp only [fieldsLength, List.map_cons, List.sum_cons]
    omega
  · simp only [fieldsLength, List.map_cons, List.sum_cons] at hustar ⊢
    omega

/-- A block in which the NUL of the checksum is followed by a space. -/
structure Spaced (block : List Uint8) : Prop where
  length : block.length = blockSize
  nul : block[154]? = some 0
  space : block[155]? = some 0x20

theorem space_fields (s : TarStream φ) (hlen : s.block.length = blockSize) (path : List Uint8)
    (isDirectory : Bool) (size modifyTime : ℕ) {r : ℕ × TarStream φ}
    (hr : s.writeFields 0 (headerFields path isDirectory size modifyTime) = r) :
    r.2.block.length = blockSize ∧ r.2.block[155]? = some 0x20 ∧ r.2.mode = s.mode ∧
      156 ≤ r.1 ∧ r.1 ≤ blockSize := by
  obtain ⟨before, after, hsplit, hbefore, hmin, hmax⟩ := headerFields_split path isDirectory size modifyTime
  have hsize : blockSize = 512 := rfl
  obtain ⟨hpos₁, hlen₁, hmode₁, -⟩ := writeFields_spec s 0 before (by rw [hbefore, hlen]; decide)
  rw [hbefore, Nat.zero_add] at hpos₁
  let s₁ := (s.writeFields 0 before).2
  let s₂ := (s₁.writeFieldS 148 8 (List.replicate 8 0x20)).2
  have hfields : s.writeFields 0 (headerFields path isDirectory size modifyTime) =
      s₂.writeFields 156 after := by
    rw [hsplit, writeFields_append, hpos₁, writeFields_cons]
    rfl
  have hblock₂ : s₂.block = copyInto s₁.block 148 (List.replicate 8 0x20) := rfl
  have hlen₁' : s₁.block.length = 512 := hlen₁.trans hlen
  have hlen₂ : s₂.block.length = 512 := by
    rw [hblock₂, length_copyInto (by rw [hlen₁']; decide), hlen₁']
  have hspace₂ : s₂.block[155]? = some 0x20 := by
    rw [hblock₂, getElem?_copyInto (by rw [hlen₁']; decide) (by decide) (by decide)]
    rfl
  obtain ⟨hpos₃, hlen₃, hmode₃, hkeep₃⟩ := writeFields_spec s₂ 156 after (by rw [hlen₂]; omega)
  rw [← hr, hfields, hpos₃]
  refine ⟨hlen₃.trans hlen₂, ?_, hmode₃.trans hmode₁, by omega, by omega⟩
  rw [hkeep₃ 155 (by decide), hspace₂]

theorem space_fillHeader (s : TarStream φ) (hmode : s.mode = .read) (path : Pathname)
    (isDirectory : Bool) (modifyTime : ℕ) :
    (s.fillHeader path isDirectory modifyTime).1 = .success ∧
      (s.fillHeader path isDirectory modifyTime).2.block.length = blockSize ∧
      (s.fillHeader path isDirectory modifyTime).2.block[155]? = some 0x20 := by
  unfold fillHeader processEmptyBlock
  dsimp only
  generalize hr : ({ s with block := List.replicate blockSize 0 } : TarStream φ).writeFields 0
    (headerFields path.pathname isDirectory s.currentBytes modifyTime) = r
  obtain ⟨hlen, hspace, hmode', hmin, hmax⟩ := space_fields _ List.length_replicate _ _ _ _ hr
  rw [hmode'.trans hmode]
  refine ⟨rfl, ?_, ?_⟩
  · dsimp only
    rw [List.length_append, List.length_take, List.length_replicate, hlen]
    omega
  · dsimp only
    rw [List.getElem?_append_left (by rw [List.length_take, hlen]; exact lt_min hmin (by decide)),
      List.getElem?_take_of_lt hmin, hspace]

theorem spaced_writeChecksum {s : TarStream φ} (hlen : s.block.length = blockSize)
    (hspace : s.block[155]? = some 0x20) : Spaced s.writeChecksum.block := by
  have hsize : blockSize = 512 := rfl
  have hsix : (formatNumber 8 6 (s.block.map BitVec.toNat).sum).length = 6 := by
    have hsum := sum_toNat_le s.block
    exact length_formatNumber (by decide) (by omega)
  have hdigits : (formatNumber 8 6 (s.block.map BitVec.toNat).sum ++ [0]).length = 7 := by
    rw [List.length_append, hsix]
    rfl
  unfold writeChecksum
  dsimp only
  refine ⟨(length_copyInto (by omega)).trans hlen, ?_, ?_⟩
  · rw [getElem?_copyInto (by omega) (by decide) (by omega),
      List.getElem?_append_right (by rw [hsix]), hsix]
    rfl
  · rw [getElem?_copyInto_of_ge (by omega) (by omega), hspace]

/-- The checksum of a header is followed by a NUL and a space. -/
theorem spaced_header (s : TarStream φ) (hmode : s.mode = .read) (path : Pathname) (isDirectory : Bool)
    (modifyTime : ℕ) :
    (s.writeHeader path isDirectory modifyTime).1 = .success ∧
      Spaced (s.writeHeader path isDirectory modifyTime).2.block ∧
      (s.writeHeader path isDirectory modifyTime).2.blockPos = 0 := by
  obtain ⟨hsuccess, hlen, hspace⟩ := space_fillHeader s hmode path isDirectory modifyTime
  have hchecksum := spaced_writeChecksum hlen hspace
  unfold writeHeader
  dsimp only
  split
  · exact ⟨hsuccess, hchecksum, rfl⟩
  · exact ⟨hsuccess, hchecksum, rfl⟩

theorem not_readsField_of_spaced (h : Spaced block) : (headerReads block).all (readsField block) = false := by
  let field := (block.drop 148).take 8
  have hfield : ∀ i < 8, field[i]? = block[148 + i]? := fun i hi => by
    rw [List.getElem?_take_of_lt hi, List.getElem?_drop]
  have hsplit : field.takeWhile (· ≠ 0) ++ field.dropWhile (· ≠ 0) = field := List.takeWhile_append_dropWhile
  have hshort : (field.takeWhile (· ≠ 0)).length ≤ 6 := by
    by_contra hlong
    have hget := hfield 6 (by decide)
    rw [h.nul, ← hsplit, List.getElem?_append_left (by omega)] at hget
    have hne := List.mem_takeWhile_imp (List.mem_of_getElem? hget)
    simp at hne
  have hmem : (0x20 : Uint8) ∈ field.dropWhile (· ≠ 0) := by
    have hget := hfield 7 (by decide)
    rw [h.space, ← hsplit, List.getElem?_append_right (by omega)] at hget
    exact List.mem_of_getElem? hget
  have hpadded : readsField block (148, 8) = false := by
    rw [readsField, Bool.and_eq_false_iff]
    right
    rw [fieldPadded, List.all_eq_false]
    exact ⟨0x20, hmem, by decide⟩
  rw [List.all_eq_false]
  refine ⟨(148, 8), ?_, by rw [hpadded]; decide⟩
  unfold headerReads
  simp

/-! ## Reading a tree -/

variable {fs : FileSystem φ} {s : TarStream φ}

/-- What the search for the next entry ends with. -/
structure Found (s : TarStream φ) (r : StreamResult × TarStream φ) : Prop where
  success : r.1 = .success → Spaced r.2.block ∧ r.2.blockPos = 0
  error : r.1 ≠ .success → r.1 ≠ .eos →
    r.2.mode = .read ∧ r.2.nextBlock = s.nextBlock ∧ r.2.blockPos = s.blockPos
  eos : r.1 = .eos → r.2.mode = .read

theorem found_processNextEntry (hmode : s.mode = .read) {data : DirEntry} {r : StreamResult × TarStream φ}
    (h : s.processNextEntry fs data = some r) : Found s r ∧ r.1 ≠ .eos := by
  have hheader : ∀ s' : TarStream φ, s'.mode = .read → ∀ (path : Pathname) (isDirectory : Bool) (time : ℕ),
      Found s (s'.writeHeader path isDirectory time) ∧
        (s'.writeHeader path isDirectory time).1 ≠ .eos := by
    intro s' hmode' path isDirectory time
    obtain ⟨hsuccess, hspaced, hpos⟩ := spaced_header s' hmode' path isDirectory time
    have hne : (s'.writeHeader path isDirectory time).1 ≠ .eos := by
      rw [hsuccess]
      decide
    exact ⟨⟨fun _ => ⟨hspaced, hpos⟩, fun hne => absurd hsuccess hne, fun heos => absurd heos hne⟩, hne⟩
  unfold processNextEntry at h
  dsimp only at h
  split at h
  · cases h
  · split at h
    · cases h
    · split at h
      · cases h
        exact ⟨⟨fun hsuccess => (nomatch hsuccess), fun _ _ => ⟨hmode, rfl, rfl⟩,
          fun heos => (nomatch heos)⟩, fun heos => (nomatch heos)⟩
      · split at h
        · cases h
          refine hheader _ ?_ _ _ _
          exact hmode
        · split at h
          · cases h
          · cases h
            refine hheader _ ?_ _ _ _
            exact hmode

theorem Found.of_same {s' : TarStream φ} {r : StreamResult × TarStream φ} (h : Found s' r)
    (hkind : s'.nextBlock = s.nextBlock) (hpos : s'.blockPos = s.blockPos) : Found s r where
  success := h.success
  error hne heos := by
    obtain ⟨hmode, hkind', hpos'⟩ := h.error hne heos
    exact ⟨hmode, hkind'.trans hkind, hpos'.trans hpos⟩
  eos := h.eos

theorem found_eos {s' : TarStream φ} (hmode : s'.mode = .read) : Found s (.eos, s') :=
  ⟨fun h => (nomatch h), fun _ h => absurd rfl h, fun _ => hmode⟩

theorem found_walk (hmode : s.mode = .read) : Found s (s.walk fs) := by
  fun_induction TarStream.walk fs s with
  | case1 s hfind => exact found_eos hmode
  | case2 s data rest find hfind hskip ih => exact Found.of_same (ih hmode) rfl rfl
  | case3 s data rest find hfind r hentry =>
    refine Found.of_same (found_processNextEntry ?_ hentry).1 rfl rfl
    exact hmode
  | case4 s hfind => exact found_eos hmode
  | case5 s find hfind hne ih => exact Found.of_same (ih hmode) rfl rfl
  | case6 s find hfind data rest hiter hskip ih => exact Found.of_same (ih hmode) rfl rfl
  | case7 s find hfind data rest hiter r hentry =>
    refine Found.of_same (found_processNextEntry ?_ hentry).1 rfl rfl
    exact hmode
  | case8 s hfind hiter => exact found_eos hmode
  | case9 s find hfind hiter hne ih => exact Found.of_same (ih hmode) rfl rfl

/-- A block of zeros. -/
abbrev zeroBlock : List Uint8 := List.replicate blockSize 0

variable (fs) in
theorem processNextBlock_first (hmode : s.mode = .read) (hkind : s.nextBlock = .fileHeader) :
    ((s.processNextBlock fs).1 = .success →
      (Spaced (s.processNextBlock fs).2.block ∨ (s.processNextBlock fs).2.block = zeroBlock) ∧
        (s.processNextBlock fs).2.blockPos = 0) ∧
    ((s.processNextBlock fs).1 ≠ .success →
      (s.processNextBlock fs).2.mode = .read ∧ (s.processNextBlock fs).2.nextBlock = .fileHeader ∧
        (s.processNextBlock fs).2.blockPos = s.blockPos) := by
  have hstep : s.processNextBlock fs = s.beginBlock.processFileHeader fs := by
    rw [processNextBlock, hkind]
  have hbegin : s.beginBlock.mode = .read := hmode
  have hwalk : Found s (s.beginBlock.readNextFile fs) := by
    refine Found.of_same (found_walk ?_) rfl rfl
    exact hmode
  rw [hstep, processFileHeader, if_pos hbegin]
  split
  · rename_i s' hr
    rw [hr] at hwalk
    exact ⟨fun _ => ⟨Or.inl (hwalk.success rfl).1, rfl⟩, fun hne => absurd rfl hne⟩
  · rename_i s' hr
    rw [hr] at hwalk
    have hread : s'.mode = .read := hwalk.eos rfl
    have hempty : ({ s' with nextBlock := .trailer }.nextBlockStarts : TarStream φ).processEmptyBlock 0 =
        (.success, { s' with nextBlock := .trailer, blockPos := 0, block := zeroBlock }) := by
      unfold processEmptyBlock nextBlockStarts
      dsimp only
      rw [hread]
      rfl
    rw [hempty]
    exact ⟨fun _ => ⟨Or.inr rfl, rfl⟩, fun hne => absurd rfl hne⟩
  · rename_i hsuccess heos
    generalize s.beginBlock.readNextFile fs = r at hwalk hsuccess heos
    have hne : r.1 ≠ .success := fun h => hsuccess r.2 (Prod.ext h rfl)
    obtain ⟨hmode', hkind', hpos'⟩ := hwalk.error hne fun h => heos r.2 (Prod.ext h rfl)
    exact ⟨fun h => absurd h hne, fun _ => ⟨hmode', hkind'.trans hkind, hpos'⟩⟩

/-- What has been read so far. -/
def FirstBlock (b : List Uint8) (s : TarStream φ) : Prop :=
  (b = [] ∧ s.mode = .read ∧ s.blockPos = blockSize ∧ s.nextBlock = .fileHeader) ∨
    ∃ block, (Spaced block ∨ block = zeroBlock) ∧ b.take blockSize = block.take b.length ∧
      (b.length < blockSize → s.block = block ∧ s.blockPos = b.length)

theorem FirstBlock.of_ge (h : FirstBlock b s) (hb : blockSize ≤ b.length)
    (b' : List Uint8) (s' : TarStream φ) : FirstBlock (b ++ b') s' := by
  rcases h with ⟨rfl, -⟩ | ⟨block, hblock, htake, -⟩
  · exact absurd hb (by decide)
  · have hlen : block.length = blockSize := hblock.elim Spaced.length fun h => h ▸ List.length_replicate
    refine Or.inr ⟨block, hblock, ?_, fun hlt => ?_⟩
    · rw [List.take_append_of_le_length hb, htake, List.take_of_length_le (by omega),
        List.take_of_length_le (by rw [List.length_append]; omega)]
    · rw [List.length_append] at hlt
      omega

theorem FirstBlock.getByte (hblock : Spaced block ∨ block = zeroBlock)
    (htake : b.take blockSize = block.take b.length) (hlt : b.length < blockSize) (hs : s.block = block)
    (hpos : s.blockPos = b.length) : FirstBlock (b ++ [s.getByte.1]) s.getByte.2 := by
  have hlen : block.length = blockSize := hblock.elim Spaced.length fun h => h ▸ List.length_replicate
  rw [List.take_of_length_le (by omega)] at htake
  have hinside : b.length < block.length := by omega
  have hbyte : s.getByte.1 = block[b.length] := by
    rw [TarStream.getByte, hs, hpos, List.getD_eq_getElem?_getD, List.getElem?_eq_getElem (by omega)]
    rfl
  have hnext : b ++ [s.getByte.1] = block.take (b.length + 1) := by
    rw [hbyte, List.take_succ_eq_append_getElem (by omega), ← htake]
  have hlength : (b ++ [s.getByte.1]).length = b.length + 1 := by simp
  refine Or.inr ⟨block, hblock, ?_, fun _ => ⟨hs, ?_⟩⟩
  · rw [hlength, List.take_of_length_le (by omega), hnext]
  · rw [hlength]
    exact congrArg (· + 1) hpos

theorem firstBlock_readBytes (n : ℕ) (h : FirstBlock b s) :
    FirstBlock (b ++ (s.readBytes fs n).1) (s.readBytes fs n).2 := by
  induction n generalizing b s with
  | zero => rwa [TarStream.readBytes, List.append_nil]
  | succ n ih =>
    by_cases hb : blockSize ≤ b.length
    · exact h.of_ge hb _ _
    · rw [TarStream.readBytes]
      rcases h with ⟨rfl, hmode, hpos, hkind⟩ | ⟨block, hblock, htake, hrest⟩
      · obtain ⟨hsuccess, herror⟩ := processNextBlock_first fs hmode hkind
        rw [if_pos hpos]
        split
        · rename_i s' hr
          rw [hr] at hsuccess
          obtain ⟨hblock, hpos'⟩ := hsuccess rfl
          have hbyte := FirstBlock.getByte (b := []) hblock (by simp) (by decide) rfl hpos'
          have := ih hbyte
          rwa [List.nil_append, List.singleton_append] at this
        · rename_i r s' hne hr
          rw [hr] at herror
          obtain ⟨hmode', hkind', hpos'⟩ := herror hne
          exact Or.inl ⟨rfl, hmode', hpos'.trans hpos, hkind'⟩
      · obtain ⟨hs, hpos⟩ := hrest (by omega)
        rw [if_neg (by omega)]
        have := ih (FirstBlock.getByte hblock htake (by omega) hs hpos)
        rwa [List.append_assoc, List.singleton_append] at this

variable (fs) in
theorem firstBlock_readAll (sizes : List ℕ) (h : FirstBlock b s) :
    FirstBlock (b ++ (readAll fs s sizes).1) (readAll fs s sizes).2 := by
  induction sizes generalizing b s with
  | nil => rwa [readAll, List.append_nil]
  | cons n sizes ih =>
    have hread : FirstBlock (b ++ (s.read fs n).1) (s.read fs n).2 := by
      unfold TarStream.read
      split
      · exact firstBlock_readBytes n h
      · rwa [List.append_nil]
    rw [readAll, ← List.append_assoc]
    exact ih hread

/-! ## Opening a tree -/

section Source

variable (listing : Listing) (folder : List Uint8) (tree : List Node)

theorem iterate_root (root : List Uint8) :
    ∃ entry entries, (treeFiles listing root tree).iterate () (Pathname.ofPathname root).pathname =
        some (entry, entries) ∧
      (entry :: entries).Perm (dotEntries ++ tree.map Node.entry) := by
  have hperm := listing.property (dotEntries ++ tree.map Node.entry)
  cases hlist : listing.val (dotEntries ++ tree.map Node.entry) with
  | nil =>
    rw [hlist] at hperm
    have := hperm.length_eq
    simp [dotEntries] at this
  | cons entry entries =>
    refine ⟨entry, entries, ?_, hlist ▸ hperm⟩
    have hfind : (((Pathname.ofPathname root).pathname, tree) :: treeFolders root tree).find?
        (fun folder => decide (folder.1 = (Pathname.ofPathname root).pathname)) =
        some ((Pathname.ofPathname root).pathname, tree) := List.find?_cons_of_pos (by simp)
    simp only [treeFiles]
    rw [hfind]
    simp only [hlist]

def opened (entries : List DirEntry) : TarStream Unit :=
  { files := (), rootFolder := rootOf folder, mode := .read, find := [some entries],
    nextBlock := .fileHeader, blockPos := blockSize }

theorem source_eq {entry : DirEntry} {entries : List DirEntry}
    (h : (treeFiles listing (rootOf folder) tree).iterate ()
      (Pathname.ofPathname (rootOf folder)).pathname = some (entry, entries)) :
    source listing folder tree =
      match (opened folder entries).processNextEntry (treeFiles listing (rootOf folder) tree) entry with
      | none => opened folder entries
      | some (_, s) => s := by
  have hopened : ({ { ({ files := () } : TarStream Unit).close with rootFolder := rootOf folder } with
      mode := .read
      find := [some entries]
      nextBlock := .fileHeader
      blockPos := blockSize } : TarStream Unit).processNextEntryAsserts = opened folder entries := rfl
  unfold source TarStream.openRead
  dsimp only [TarStream.close] at hopened ⊢
  rw [h]
  dsimp only
  rw [hopened]
  cases (opened folder entries).processNextEntry (treeFiles listing (rootOf folder) tree) entry with
  | none => rfl
  | some r =>
    obtain ⟨result, s⟩ := r
    cases result <;> rfl

theorem firstBlock_source : FirstBlock [] (source listing folder tree) := by
  obtain ⟨entry, entries, hiter, -⟩ := iterate_root listing tree (rootOf folder)
  have hstart : FirstBlock [] (opened folder entries) := Or.inl ⟨rfl, rfl, rfl, rfl⟩
  rw [source_eq listing folder tree hiter]
  cases hentry : (opened folder entries).processNextEntry
      (treeFiles listing (rootOf folder) tree) entry with
  | none => exact hstart
  | some r =>
    obtain ⟨hfound, heos⟩ := found_processNextEntry (s := opened folder entries) rfl hentry
    obtain ⟨result, s⟩ := r
    by_cases hsuccess : result = .success
    · obtain ⟨hspaced, hpos⟩ := hfound.success hsuccess
      exact Or.inr ⟨s.block, Or.inl hspaced, rfl, fun _ => ⟨rfl, hpos⟩⟩
    · obtain ⟨hmode, hkind, hpos⟩ := hfound.error hsuccess heos
      exact Or.inl ⟨rfl, hmode, hpos, hkind⟩

end Source

/-! ## Writing the first block -/

theorem asserted_createEntry (h : Header) (hs : s.asserted = false) : (s.createEntry fs h).2.asserted = false := by
  have hdata : (s.announceData h).asserted = false := by
    unfold announceData
    split
    · simp [assert, hs]
    · split <;> exact hs
  have hmake : ∀ s' : TarStream φ, s'.asserted = false → (s'.makeEntry fs h).2.asserted = false := by
    intro s' hs'
    unfold makeEntry
    dsimp only
    split
    · split <;> exact hs'
    · split
      · exact hs'
      · split <;> exact hs'
  unfold createEntry
  dsimp only
  split
  · exact hdata
  · split
    · exact hdata
    · exact hmake _ hdata

/-- **Such a header fails an assertion when it is read**. -/
theorem asserted_of_spaced (hmode : s.mode = .write) (hkind : s.nextBlock = .fileHeader)
    (hspaced : Spaced s.block) : (s.processNextBlock fs).2.asserted = false := by
  have hempty : ∀ (s' : TarStream φ) (start : ℕ), s'.asserted = false →
      (s'.processEmptyBlock start).2.asserted = false := by
    intro s' start hs'
    unfold processEmptyBlock
    split
    · exact hs'
    · split <;> exact hs'
  have hfile : (s.beginBlock.writeNextFile fs).2.asserted = false := by
    unfold writeNextFile
    dsimp only
    have hfail : ∀ s' : TarStream φ, s'.block = s.block →
        (s'.assert ((headerReads s.block).all (readsField s.block))).asserted = false := by
      intro s' _
      rw [assert, not_readsField_of_spaced hspaced, Bool.and_false]
    split
    · exact hfail _ rfl
    · split
      · rename_i hr
        have hsame := congrArg (fun r => r.2.asserted) hr
        exact asserted_createEntry _ (hsame.symm.trans (hempty _ _ (hfail _ rfl)))
      · exact hempty _ _ (hfail _ rfl)
  have hstep : s.processNextBlock fs = s.beginBlock.processFileHeader fs := by
    rw [processNextBlock, hkind]
  have hwrite : s.beginBlock.mode = .write := hmode
  rw [hstep, processFileHeader, if_neg (by rw [hwrite]; decide)]
  split
  · rename_i hr
    rw [hr] at hfile
    exact hfile
  · rename_i s' hr
    rw [hr] at hfile
    have hzero := hempty ({ s' with nextBlock := .trailer }.nextBlockStarts) 0 hfile
    split
    · rename_i hr'
      rw [hr'] at hzero
      exact hzero
    · exact hzero
  · exact hfile

/-! ## Writing an archive without entries -/

/-- A stream that has seen the first trailer block: it creates nothing any more. -/
structure Ended (s : TarStream φ) : Prop where
  mode : s.mode = .write
  kind : s.nextBlock = .trailer ∨ s.nextBlock = .none

variable (fs) in
theorem ended_writeBytes (data : List Uint8) (h : Ended s) :
    Ended (s.writeBytes fs data).2 ∧ (s.writeBytes fs data).2.files = s.files := by
  have hblock : ∀ s' : TarStream φ, Ended s' →
      Ended (s'.processNextBlock fs).2 ∧ (s'.processNextBlock fs).2.files = s'.files := by
    intro s' hs'
    unfold processNextBlock
    rcases hs'.kind with hkind | hkind
    · rw [hkind]
      dsimp only
      unfold processTrailer processEmptyBlock
      rw [show s'.beginBlock.mode = .write from hs'.mode]
      dsimp only
      split_ifs
      · exact ⟨⟨hs'.mode, Or.inr rfl⟩, rfl⟩
      · exact ⟨⟨hs'.mode, Or.inl hkind⟩, rfl⟩
    · rw [hkind]
      exact ⟨⟨hs'.mode, Or.inr hkind⟩, rfl⟩
  induction data generalizing s with
  | nil => exact ⟨h, rfl⟩
  | cons b data ih =>
    rw [writeBytes]
    split
    · obtain ⟨hended, hfiles⟩ := hblock s h
      split
      · rename_i s' hr
        rw [hr] at hended hfiles
        obtain ⟨hrest, hfiles'⟩ := ih (s := s'.putByte b) ⟨hended.mode, hended.kind⟩
        exact ⟨hrest, hfiles'.trans hfiles⟩
      · exact ⟨hended, hfiles⟩
    · obtain ⟨hrest, hfiles⟩ := ih (s := s.putByte b) ⟨h.mode, h.kind⟩
      exact ⟨hrest, hfiles⟩

theorem readsField_zeroBlock : (headerReads zeroBlock).all (readsField zeroBlock) = true := by
  decide

variable (fs) in
theorem processNextBlock_zeroBlock (hmode : s.mode = .write) (hkind : s.nextBlock = .fileHeader)
    (hpos : s.blockPos = blockSize) (hcurrent : s.current = none) (hbytes : s.currentBytes = 0)
    (hblock : s.block = zeroBlock) :
    ∃ processed, s.processNextBlock fs = (.success,
      { s with nextBlock := .trailer, blockPos := 0, processed := processed }) := by
  have hname : (readHeader zeroBlock).name = [] := by decide
  obtain ⟨files, filters, rootFolder, mode, nextBlock, block, blockPos, current, currentBytes, find,
    subfolder, created, signalled, processed, asserted⟩ := s
  dsimp only at hmode hkind hpos hcurrent hbytes hblock
  subst hmode hkind hpos hcurrent hbytes hblock
  refine ⟨processed ++ [.fileHeader], ?_⟩
  unfold processNextBlock
  dsimp only
  unfold processFileHeader writeNextFile
  simp only [beginBlock, assert, readsField_zeroBlock, hname, nextBlockStarts, processEmptyBlock]
  simp

/-- A stream to which only zeros have been written. -/
structure Blank (s : TarStream φ) (files : φ) : Prop where
  mode : s.mode = .write
  kind : s.nextBlock = .fileHeader ∧ s.current = none ∧ s.currentBytes = 0 ∨
    s.nextBlock = .trailer ∨ s.nextBlock = .none
  block : s.block = zeroBlock
  files : s.files = files
  asserted : s.asserted = true

theorem blank_writeBytes {files : φ} (data : List Uint8) (hdata : ∀ b ∈ data, b = 0) (h : Blank s files) :
    Blank (s.writeBytes fs data).2 files := by
  have hput : ∀ s' : TarStream φ, Blank s' files → Blank (s'.putByte 0) files := fun s' hs' =>
    ⟨hs'.mode, hs'.kind, by
      rw [putByte, hs'.block, List.set_replicate_self], hs'.files, hs'.asserted⟩
  have hblock : ∀ s' : TarStream φ, Blank s' files → s'.blockPos = blockSize →
      Blank (s'.processNextBlock fs).2 files := by
    intro s' hs' hpos
    have hbegin : s'.beginBlock.asserted = true := by
      simp [beginBlock, assert, hs'.asserted, hs'.mode, hpos]
    have hzeros : (s'.beginBlock.block.drop 0).all (· = 0) = true := by
      rw [show s'.beginBlock.block = zeroBlock from hs'.block]
      decide +kernel
    rcases hs'.kind with ⟨hkind, hcurrent, hbytes⟩ | hkind | hkind
    · obtain ⟨processed, heq⟩ := processNextBlock_zeroBlock fs hs'.mode hkind hpos hcurrent hbytes
        hs'.block
      rw [heq]
      exact ⟨hs'.mode, Or.inr (Or.inl rfl), hs'.block, hs'.files, hs'.asserted⟩
    · unfold processNextBlock
      rw [hkind]
      dsimp only
      unfold processTrailer processEmptyBlock
      rw [show s'.beginBlock.mode = .write from hs'.mode]
      dsimp only
      rw [if_pos hzeros]
      exact ⟨hs'.mode, Or.inr (Or.inr rfl), hs'.block, hs'.files, hbegin⟩
    · unfold processNextBlock
      rw [hkind]
      exact ⟨hs'.mode, Or.inr (Or.inr hkind), hs'.block, hs'.files, hbegin⟩
  induction data generalizing s with
  | nil => exact h
  | cons b data ih =>
    obtain rfl := hdata b List.mem_cons_self
    have hrest : ∀ b ∈ data, b = 0 := fun b hb => hdata b (List.mem_cons_of_mem _ hb)
    rw [writeBytes]
    split
    · rename_i hpos
      have hnext := hblock s h hpos
      split
      · rename_i s' hr
        rw [hr] at hnext
        exact ih hrest (hput s' hnext)
      · exact hnext
    · exact ih hrest (hput s h)

/-! ## Trees with something in them -/

section Target

variable (folder : List Uint8)

def emptyDisk : Disk := { folders := [(Pathname.ofPathname (rootOf folder)).pathname] }

theorem written_cons {s : TarStream Disk} (hmode : s.mode = .write) (piece : List Uint8)
    (pieces : List (List Uint8)) :
    written s (piece :: pieces) = written (s.writeBytes diskFiles piece).2 pieces := by
  rw [written, run_cons, TarStream.write, if_pos hmode]
  rfl

theorem not_recreates_emptyDisk {tree : List Node} (h : tree ≠ []) :
    ¬ Recreates (emptyDisk folder) (rootOf folder) tree := by
  intro hrec
  obtain ⟨node, nodes, rfl⟩ := List.exists_cons_of_ne_nil h
  cases node with
  | file name modifyTime contents =>
    have hmem := (hrec.files (rootOf folder ++ name.val) contents).mpr
      (List.mem_append_left _ (List.mem_singleton.mpr rfl))
    cases hmem
  | folder name modifyTime children =>
    have hmem := (hrec.folders (rootOf folder ++ name.val ++ [0x2F#8])).mpr
      (Or.inr (List.mem_append_left _ List.mem_cons_self))
    have heq := List.mem_singleton.mp hmem
    by_cases hroot : rootOf folder = []
    · rw [hroot, List.nil_append] at heq
      have hdot : name.val = text "." := List.append_inj_left' (heq.trans (by rfl : _ = text "." ++ [0x2F#8])) rfl
      exact name.property.2.1 hdot
    · rw [Pathname.ofPathname, Pathname.pathname_setPathname _ hroot, List.append_assoc] at heq
      have hnil := List.self_eq_append_right.mp heq.symm
      exact absurd hnil (List.append_ne_nil_of_right_ne_nil _ (List.cons_ne_nil _ _))

def full (block : List Uint8) : TarStream Disk :=
  { target folder with block := block, blockPos := blockSize }

theorem writeBytes_target {l : List Uint8} (h : l.length ≤ blockSize) :
    ∃ block, (target folder).writeBytes diskFiles l =
        (.success, { target folder with block := block, blockPos := l.length }) ∧
      block.length = blockSize ∧ block.take l.length = l := by
  have hpos : (target folder).blockPos + l.length = l.length := Nat.zero_add _
  obtain ⟨block, hfill, hlen, htake⟩ := writeBytes_fill diskFiles (target folder) l
    List.length_replicate (by rw [hpos]; exact h)
  rw [hpos] at hfill htake
  exact ⟨block, hfill, hlen, htake⟩

theorem writeBytes_full (hlen : block.length = blockSize) (l : List Uint8) :
    (target folder).writeBytes diskFiles (block ++ l) = (full folder block).writeBytes diskFiles l := by
  obtain ⟨block', hfill, hlen', htake⟩ := writeBytes_target folder hlen.le
  rw [hlen] at hfill
  rw [List.take_of_length_le (by omega)] at htake
  rw [writeBytes_append hfill, htake]
  rfl

end Target

/-- **No tree with an entry is read back** without a failed assertion. -/
theorem not_roundTrips (listing : Listing) (folder folder' : List Uint8) {tree : List Node}
    (h : tree ≠ []) : ¬ RoundTrips listing folder folder' tree := by
  intro hround
  obtain ⟨sizes, hend⟩ := hround.ends
  have hfirst := firstBlock_readAll (treeFiles listing (rootOf folder) tree) sizes
    (firstBlock_source listing folder tree)
  rw [List.nil_append] at hfirst
  have hwrites := fun pieces => hround.writes sizes pieces hend
  generalize (readAll (treeFiles listing (rootOf folder) tree) (source listing folder tree) sizes).1 = b
    at hfirst hwrites
  have hsize : blockSize = 512 := rfl
  by_cases hb : b.length ≤ blockSize
  · -- The first block is never taken.
    obtain ⟨block, hfill, -⟩ := writeBytes_target folder' hb
    obtain ⟨-, hrec, -⟩ := hwrites [b] (by simp)
    rw [written_cons rfl, hfill] at hrec
    exact not_recreates_emptyDisk folder' h hrec
  · rcases hfirst with ⟨rfl, -⟩ | ⟨block, hblock, htake, -⟩
    · exact hb (by decide)
    have hlen : block.length = blockSize := hblock.elim Spaced.length fun h => h ▸ List.length_replicate
    rw [List.take_of_length_le (l := block) (by omega)] at htake
    obtain ⟨next, rest, hrest⟩ : ∃ next rest, b.drop blockSize = next :: rest :=
      List.exists_cons_of_ne_nil (by
        intro hnil
        have := congrArg List.length hnil
        rw [List.length_drop, List.length_nil] at this
        omega)
    have hsplit : b = block ++ [next] ++ rest := by
      rw [List.append_assoc, List.singleton_append, ← hrest, ← htake, List.take_append_drop]
    obtain ⟨hasserted, hrec, -⟩ := hwrites [block ++ [next], rest] (by simp [hsplit])
    have hone := hasserted [block ++ [next]] ⟨[rest], rfl⟩
    rw [written_cons rfl, writeBytes_full folder' hlen] at hone hrec
    rcases hblock with hspaced | rfl
    · -- The header of an entry: its checksum is not padded.
      have hfail : ((full folder' block).processNextBlock diskFiles).2.asserted = false :=
        asserted_of_spaced rfl rfl hspaced
      have hnext : ((full folder' block).writeBytes diskFiles [next]).2.asserted = false := by
        rw [writeBytes, if_pos (show (full folder' block).blockPos = blockSize from rfl)]
        split
        · rename_i s' hr
          rw [hr] at hfail
          exact hfail
        · exact hfail
      exact absurd (hnext.symm.trans hone) (by decide)
    · -- A trailer: nothing has been created, and nothing will be.
      obtain ⟨processed, hr⟩ := processNextBlock_zeroBlock diskFiles (s := full folder' zeroBlock)
        rfl rfl rfl rfl rfl rfl
      have hnext : (full folder' zeroBlock).writeBytes diskFiles [next] = (.success,
          ({ full folder' zeroBlock with
            nextBlock := .trailer, blockPos := 0, processed := processed } : TarStream Disk).putByte next) := by
        rw [writeBytes, if_pos (show (full folder' zeroBlock).blockPos = blockSize from rfl), hr]
        rfl
      rw [hnext, written_cons rfl] at hrec
      obtain ⟨-, hfiles⟩ := ended_writeBytes diskFiles rest
        (s := ({ full folder' zeroBlock with
          nextBlock := .trailer, blockPos := 0, processed := processed } : TarStream Disk).putByte next)
        ⟨rfl, Or.inl rfl⟩
      change Recreates (TarStream.writeBytes diskFiles _ rest).2.files _ _ at hrec
      rw [hfiles] at hrec
      exact not_recreates_emptyDisk folder' h hrec

/-! ## The empty tree -/

section Empty

variable {listing : Listing} {folder : List Uint8}

theorem processNextEntry_dot {s : TarStream φ} {entry : DirEntry} (h : entry ∈ dotEntries) :
    s.processNextEntry fs entry = none := by
  have hdot : entry.isDirectory = true ∧ (entry.name = text "." ∨ entry.name = text "..") := by
    rcases List.mem_pair.mp h with rfl | rfl
    · exact ⟨rfl, Or.inl rfl⟩
    · exact ⟨rfl, Or.inr rfl⟩
  rw [processNextEntry, if_pos hdot]

theorem source_empty (listing : Listing) (folder : List Uint8) :
    ∃ entry ∈ dotEntries, source listing folder [] = opened folder [entry] := by
  obtain ⟨entry, entries, hiter, hperm⟩ := iterate_root listing [] (rootOf folder)
  rw [List.map_nil, List.append_nil] at hperm
  have hmem : ∀ e ∈ entry :: entries, e ∈ dotEntries := fun e he => hperm.mem_iff.mp he
  have hlen : entries.length = 1 := by
    have := hperm.length_eq
    simpa [dotEntries] using this
  obtain ⟨second, rfl⟩ := List.length_eq_one_iff.mp hlen
  refine ⟨second, hmem second (by simp), ?_⟩
  rw [source_eq listing folder [] hiter, processNextEntry_dot (hmem entry List.mem_cons_self)]

/-- **An empty tree**: what has been read are zeros, and where the stream is after them. -/
structure ReadsZeros (folder : List Uint8) (b : List Uint8) (s : TarStream Unit) : Prop where
  asserted : s.asserted = true
  mode : s.mode = .read
  zeros : b = List.replicate b.length 0
  phase : (b = [] ∧ ∃ entry ∈ dotEntries, s = opened folder [entry]) ∨
    (s.nextBlock = .trailer ∧ s.block = zeroBlock ∧ s.blockPos = b.length ∧ b.length ≤ blockSize) ∨
    (s.nextBlock = .none ∧ s.block = zeroBlock ∧ blockSize + s.blockPos = b.length ∧ s.blockPos ≤ blockSize)

theorem walk_opened (fs : FileSystem Unit) {entry : DirEntry} (h : entry ∈ dotEntries) {s : TarStream Unit}
    (hs : s.find = [some [entry]]) (hmode : s.mode = .read) (hkind : s.nextBlock = .fileHeader)
    (hpos : s.blockPos = blockSize) (hcurrent : s.current = none) (hbytes : s.currentBytes = 0) :
    (s.walk fs).1 = .eos ∧ (s.walk fs).2.mode = .read ∧ (s.walk fs).2.asserted = s.asserted := by
  have hasserts : { s with find := [some []] }.processNextEntryAsserts.asserted = s.asserted := by
    simp [processNextEntryAsserts, assert, hmode, hkind, hpos, hcurrent, hbytes]
  rw [walk]
  split
  · rename_i hfind
    rw [hs] at hfind
    cases hfind
  · rename_i data rest find hfind
    rw [hs] at hfind
    obtain ⟨⟨rfl, rfl⟩, rfl⟩ : (entry = data ∧ [] = rest) ∧ [] = find := by simpa using hfind
    rw [processNextEntry_dot h]
    dsimp only
    rw [walk]
    exact ⟨rfl, hmode, hasserts⟩
  · rename_i find hfind
    rw [hs] at hfind
    simp at hfind
  · rename_i find hfind
    rw [hs] at hfind
    simp at hfind

theorem getByte_zeroBlock {s : TarStream Unit} (h : s.block = zeroBlock) : s.getByte.1 = 0 := by
  rw [getByte, h, List.getD_eq_getElem?_getD, List.getElem?_replicate]
  split <;> rfl

theorem readsZeros_processNextBlock {s : TarStream Unit} (fs : FileSystem Unit)
    (h : ReadsZeros folder b s) (hpos : s.blockPos = blockSize) :
    ((s.processNextBlock fs).1 = .success ∧ b.length < 2 * blockSize ∧
      ReadsZeros folder b (s.processNextBlock fs).2 ∧ (s.processNextBlock fs).2.block = zeroBlock ∧
      (s.processNextBlock fs).2.nextBlock ≠ .fileHeader ∧ (s.processNextBlock fs).2.blockPos = 0) ∨
    ((s.processNextBlock fs).1 = .eos ∧ b.length = 2 * blockSize ∧
      ReadsZeros folder b (s.processNextBlock fs).2) := by
  have hbegin : s.beginBlock.asserted = true := by
    simp [beginBlock, assert, h.asserted, h.mode, hpos]
  have hread : s.beginBlock.mode = .read := h.mode
  have hempty : ∀ s' : TarStream Unit, s'.mode = .read →
      s'.processEmptyBlock 0 = (.success, { s' with block := zeroBlock }) := by
    intro s' hs'
    rw [processEmptyBlock, hs']
    rfl
  rcases h.phase with ⟨rfl, entry, hentry, rfl⟩ | ⟨hkind, hblock, hb, hle⟩ | ⟨hkind, hblock, hb, hle⟩
  · left
    let s₀ := (opened folder [entry]).beginBlock.assert ((opened folder [entry]).beginBlock.mode = .read &&
      (opened folder [entry]).beginBlock.nextBlock = .fileHeader &&
      (opened folder [entry]).beginBlock.blockPos = blockSize && (opened folder [entry]).beginBlock.current.isNone)
    obtain ⟨heos, hmode, hasserted⟩ : (s₀.walk fs).1 = .eos ∧ (s₀.walk fs).2.mode = .read ∧
        (s₀.walk fs).2.asserted = s₀.asserted := walk_opened fs hentry rfl rfl rfl rfl rfl rfl
    have hstep : (opened folder [entry]).processNextBlock fs =
        (opened folder [entry]).beginBlock.processFileHeader fs := rfl
    rw [hstep, processFileHeader, if_pos hread, readNextFile]
    generalize TarStream.walk fs _ = r at heos hmode hasserted
    obtain ⟨result, s'⟩ := r
    dsimp only at heos hmode hasserted
    subst heos
    dsimp only
    rw [hempty _ (by exact hmode)]
    refine ⟨rfl, by decide, ⟨hasserted.trans rfl, hmode, rfl, Or.inr (Or.inl ⟨rfl, rfl, rfl, by decide⟩)⟩,
      rfl, by simp [nextBlockStarts], rfl⟩
  · left
    have hstep : s.processNextBlock fs = s.beginBlock.processTrailer := by
      rw [processNextBlock, hkind]
    rw [hstep, processTrailer, hempty _ hread]
    refine ⟨rfl, by rw [← hb, hpos]; decide, ⟨hbegin, hread, h.zeros, Or.inr (Or.inr ⟨rfl, rfl, ?_, ?_⟩)⟩, rfl,
      by simp [nextBlockStarts], rfl⟩
    · rw [← hb, hpos]
      rfl
    · exact Nat.zero_le _
  · right
    have hstep : s.processNextBlock fs = (.eos, s.beginBlock) := by
      rw [processNextBlock, hkind]
    rw [hstep]
    refine ⟨rfl, by rw [← hb, hpos]; decide, hbegin, hread, h.zeros, Or.inr (Or.inr ⟨hkind, hblock, hb, hle⟩)⟩

theorem readsZeros_getByte {s : TarStream Unit} (h : ReadsZeros folder b s)
    (hpos : s.blockPos < blockSize) : ReadsZeros folder (b ++ [s.getByte.1]) s.getByte.2 := by
  have hblock : s.block = zeroBlock := by
    rcases h.phase with ⟨-, entry, -, rfl⟩ | ⟨-, hblock, -⟩ | ⟨-, hblock, -⟩
    · rfl
    · exact hblock
    · exact hblock
  have hlength : (b ++ [s.getByte.1]).length = b.length + 1 := by simp
  refine ⟨h.asserted, h.mode, ?_, ?_⟩
  · rw [hlength, getByte_zeroBlock hblock, List.replicate_succ', ← h.zeros]
  · rcases h.phase with ⟨-, entry, -, rfl⟩ | ⟨hkind, -, hb, hle⟩ | ⟨hkind, -, hb, hle⟩
    · exact absurd hpos (lt_irrefl _)
    · refine Or.inr (Or.inl ⟨hkind, hblock, ?_, by omega⟩)
      rw [hlength, ← hb]
      rfl
    · refine Or.inr (Or.inr ⟨hkind, hblock, ?_, hpos⟩)
      rw [hlength, ← hb]
      rfl

theorem readsZeros_readBytes {s : TarStream Unit} (fs : FileSystem Unit) (n : ℕ) (h : ReadsZeros folder b s) :
    ReadsZeros folder (b ++ (s.readBytes fs n).1) (s.readBytes fs n).2 ∧
      (s.readBytes fs n).1.length = min n (2 * blockSize - b.length) := by
  have hsize : blockSize = 512 := rfl
  have hle : s.blockPos ≤ blockSize := by
    rcases h.phase with ⟨-, entry, -, rfl⟩ | ⟨-, -, hb, hle⟩ | ⟨-, -, -, hle⟩
    · exact Nat.le_refl _
    · omega
    · exact hle
  induction n generalizing b s with
  | zero => exact ⟨by rwa [TarStream.readBytes, List.append_nil], by simp [TarStream.readBytes]⟩
  | succ n ih =>
    have hnext : ∀ s' : TarStream Unit, ReadsZeros folder b s' → s'.blockPos < blockSize →
        b.length < 2 * blockSize →
        ReadsZeros folder (b ++ (s'.getByte.1 :: (s'.getByte.2.readBytes fs n).1)) (s'.getByte.2.readBytes fs n).2 ∧
          (s'.getByte.1 :: (s'.getByte.2.readBytes fs n).1).length = min (n + 1) (2 * blockSize - b.length) := by
      intro s' hs' hpos hlt
      obtain ⟨hzeros, hlength⟩ := ih (readsZeros_getByte hs' hpos) hpos
      rw [List.append_assoc, List.singleton_append] at hzeros
      refine ⟨hzeros, ?_⟩
      rw [List.length_cons, hlength, List.length_append, List.length_singleton]
      omega
    rw [TarStream.readBytes]
    split
    · rename_i hpos
      rcases readsZeros_processNextBlock fs h hpos with
        ⟨hsuccess, hlt, hzeros, -, -, hpos'⟩ | ⟨heos, hb, hzeros⟩
      · split
        · rename_i s' hr
          rw [hr] at hzeros hpos'
          exact hnext s' hzeros (by rw [hpos']; decide) hlt
        · rename_i hne hr
          rw [hr] at hsuccess
          exact absurd hsuccess hne
      · split
        · rename_i s' hr
          rw [hr] at heos
          cases heos
        · rename_i hne hr
          rw [hr] at hzeros
          refine ⟨by rwa [List.append_nil], ?_⟩
          rw [hb, List.length_nil]
          omega
    · rename_i hpos
      have hlt : b.length < 2 * blockSize := by
        rcases h.phase with ⟨-, entry, -, rfl⟩ | ⟨-, -, hb, -⟩ | ⟨-, -, hb, -⟩
        · exact absurd rfl hpos
        · omega
        · omega
      exact hnext s h (by omega) hlt

theorem readsZeros_readAll {s : TarStream Unit} (fs : FileSystem Unit) (sizes : List ℕ) (h : ReadsZeros folder b s) :
    ReadsZeros folder (b ++ (readAll fs s sizes).1) (readAll fs s sizes).2 := by
  induction sizes generalizing b s with
  | nil => rwa [readAll, List.append_nil]
  | cons n sizes ih =>
    have hread : s.read fs n = s.readBytes fs n := by
      rw [TarStream.read, if_pos h.mode]
    rw [readAll, ← List.append_assoc, hread]
    exact ih (readsZeros_readBytes fs n h).1

theorem readsZeros_source (listing : Listing) (folder : List Uint8) :
    ReadsZeros folder [] (source listing folder []) := by
  obtain ⟨entry, hentry, heq⟩ := source_empty listing folder
  rw [heq]
  exact ⟨rfl, rfl, rfl, Or.inl ⟨rfl, entry, hentry, rfl⟩⟩

theorem blank_written {files : Disk} {s : TarStream Disk} (pieces : List (List Uint8))
    (hzeros : ∀ piece ∈ pieces, ∀ b ∈ piece, b = 0) (h : Blank s files) : Blank (written s pieces) files := by
  induction pieces generalizing s with
  | nil => exact h
  | cons piece pieces ih =>
    rw [written_cons h.mode]
    exact ih (fun piece' h' => hzeros piece' (List.mem_cons_of_mem _ h'))
      (blank_writeBytes piece (hzeros piece List.mem_cons_self) h)

theorem roundTrips_nil (listing : Listing) (folder folder' : List Uint8) : RoundTrips listing folder folder' [] := by
  have hsource := readsZeros_source listing folder
  have hall := fun sizes => readsZeros_readAll (treeFiles listing (rootOf folder) []) sizes hsource
  refine ⟨⟨[2 * blockSize], ?_⟩, fun sizes => (hall sizes).asserted, fun sizes pieces _ hpieces => ?_⟩
  · have hread := readsZeros_readBytes (treeFiles listing (rootOf folder) []) (2 * blockSize) hsource
    have hlast := hall [2 * blockSize]
    have heq : readAll (treeFiles listing (rootOf folder) []) (source listing folder []) [2 * blockSize] =
        (((source listing folder []).readBytes (treeFiles listing (rootOf folder) []) (2 * blockSize)).1 ++ [],
          ((source listing folder []).readBytes (treeFiles listing (rootOf folder) []) (2 * blockSize)).2) := by
      rw [readAll, TarStream.read, if_pos hsource.mode]
      rfl
    rw [heq, List.append_nil, List.nil_append] at hlast
    rw [heq]
    dsimp only at hlast ⊢
    have hlength := hread.2
    rw [List.length_nil, Nat.sub_zero, Nat.min_self] at hlength
    have hsize : blockSize = 512 := rfl
    rcases hlast.phase with ⟨hnil, -⟩ | ⟨-, -, -, hle⟩ | ⟨hkind, -, hb, -⟩
    · rw [hnil] at hlength
      cases hlength
    · omega
    · exact ⟨hkind, by omega⟩
  · have hzeros : ∀ piece ∈ pieces, ∀ b ∈ piece, b = 0 := by
      intro piece hpiece b hb
      have hmem : b ∈ pieces.flatten := List.mem_flatten.mpr ⟨piece, hpiece, hb⟩
      have hread := (hall sizes).zeros
      rw [List.nil_append] at hread
      rw [hpieces, hread] at hmem
      exact List.eq_of_mem_replicate hmem
    have hblank : Blank (target folder') (emptyDisk folder') :=
      ⟨rfl, Or.inl ⟨rfl, rfl, rfl⟩, rfl, rfl, rfl⟩
    refine ⟨?_, ?_, [], by simp [treePaths], List.nil_prefix⟩
    · rintro pre ⟨post, rfl⟩
      exact (blank_written pre (fun piece hpiece => hzeros piece (List.mem_append_left _ hpiece)) hblank).asserted
    · rw [(blank_written pieces hzeros hblank).files]
      exact ⟨fun path => by simp [emptyDisk, treePaths], fun path contents => by simp [emptyDisk, treePaths]⟩

end Empty

/-- **The trees that survive the round trip** are those with nothing in them. -/
theorem roundTrips_iff (listing : Listing) (folder folder' : List Uint8) (tree : List Node) :
    RoundTrips listing folder folder' tree ↔ tree = [] := by
  constructor
  · intro h
    by_contra hne
    exact not_roundTrips listing folder folder' hne h
  · rintro rfl
    exact roundTrips_nil listing folder folder'

def exampleTree : List Node := [.file ⟨[0x61], by decide⟩ 0 [0x78]]

/-- **The archive of one file** fails an `ASSERT` when it is extracted. -/
theorem one_file_asserts : ¬ RoundTrips ⟨id, fun _ => .refl _⟩ [0x73] [0x74] exampleTree :=
  not_roundTrips _ _ _ (List.cons_ne_nil _ _)

end Libjingle.Tar
