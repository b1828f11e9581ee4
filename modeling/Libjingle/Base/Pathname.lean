import Mathlib.Data.List.DropRight
import Libjingle.Base.Words

/-!
# Pathnames, and the texts of URLs

Main result: **`pathname_setPathname`**.
-/

variable {l : List Uint8}

namespace Libjingle

abbrev extDelim : Uint8 := 0x2E#8

abbrev defaultFolderDelim : Uint8 := 0x2F#8

def isFolderDelim (ch : Uint8) : Bool := ch == 0x2F#8 || ch == 0x5C#8

def isFolderDelimiter (ch : Uint8) : Bool := isFolderDelim ch || ch == 0#8

/-- `Pathname`: folder, name, extension, and the delimiter to be used. -/
structure Pathname where
  folder : List Uint8 := []
  basename : List Uint8 := []
  extension : List Uint8 := []
  folderDelimiter : Uint8 := defaultFolderDelim
deriving DecidableEq, Repr

/-! ## The text of a path and its last delimiter -/

def throughDelim (l : List Uint8) : List Uint8 := l.rdropWhile fun ch => !isFolderDelim ch

/-- The part behind the last delimiter. -/
def afterDelim (l : List Uint8) : List Uint8 := l.rtakeWhile fun ch => !isFolderDelim ch

theorem throughDelim_append_afterDelim (l : List Uint8) : throughDelim l ++ afterDelim l = l :=
  List.rdropWhile_append_rtakeWhile ..

theorem isFolderDelim_of_mem_afterDelim {ch : Uint8} (h : ch ∈ afterDelim l) : isFolderDelim ch = false := by
  simpa using List.mem_rtakeWhile_imp h

theorem any_afterDelim (l : List Uint8) : (afterDelim l).any isFolderDelim = false := by
  rw [List.any_eq_false]
  exact fun ch h => by simp [isFolderDelim_of_mem_afterDelim h]

def lastDot (l : List Uint8) : Option ℕ :=
  match l.rdropWhile (· != extDelim) with
  | [] => none
  | _ :: l => some l.length

theorem lastDot_lt {pos : ℕ} (h : lastDot l = some pos) : pos < l.length := by
  unfold lastDot at h
  split at h
  · cases h
  · rename_i c l' hl
    have hle : (c :: l').length ≤ l.length := hl ▸ (List.rdropWhile_prefix _ l).length_le
    rw [← Option.some.inj h]
    exact hle

theorem drop_lastDot {pos : ℕ} (h : lastDot l = some pos) : ((l.drop pos).drop 1).contains extDelim = false := by
  unfold lastDot at h
  split at h
  · cases h
  · rename_i c l' hl
    cases h
    have hsplit := List.rdropWhile_append_rtakeWhile (p := (· != extDelim)) (l := l)
    rw [hl] at hsplit
    have hdrop : (l.drop l'.length).drop 1 = l.rtakeWhile (· != extDelim) := by
      rw [List.drop_drop]
      conv_lhs => rw [← hsplit]
      exact List.drop_left' rfl
    rw [hdrop, List.contains_eq_any_beq, List.any_eq_false]
    intro ch hch heq
    have hne := List.mem_rtakeWhile_imp hch
    rw [beq_iff_eq] at heq
    simp [← heq] at hne

theorem drop_lastDot_cons {pos : ℕ} (h : lastDot l = some pos) : ∃ rest, l.drop pos = extDelim :: rest := by
  have hlt := lastDot_lt h
  refine ⟨l.drop (pos + 1), ?_⟩
  rw [List.drop_eq_getElem_cons hlt]
  congr 1
  unfold lastDot at h
  split at h
  · cases h
  · rename_i c l' hl
    cases h
    have hne : l.rdropWhile (· != extDelim) ≠ [] := by rw [hl]; exact List.cons_ne_nil _ _
    have hlast := List.rdropWhile_last_not _ l hne
    have hget : (l.rdropWhile (· != extDelim)).getLast hne = l[l'.length] := by
      rw [List.getLast_eq_getElem,
        (List.rdropWhile_prefix (· != extDelim) l).getElem]
      simp [hl]
    rw [hget] at hlast
    simpa using hlast

namespace Pathname

variable (p : Pathname)

/-! ## The operations -/

def normalize : Pathname :=
  { p with folder := p.folder.map fun ch => if isFolderDelimiter ch then p.folderDelimiter else ch }

def setFolderDelimiter (delimiter : Uint8) : Pathname := { p with folderDelimiter := delimiter }

def pathname : List Uint8 :=
  match p.folder ++ p.basename ++ p.extension with
  | [] => [extDelim, p.folderDelimiter]
  | path => path

def filename : List Uint8 := p.basename ++ p.extension

def setFolder (folder : List Uint8) : Pathname :=
  match folder.getLast? with
  | none => { p with folder := folder }
  | some ch =>
    { p with folder := if isFolderDelimiter ch then folder else folder ++ [p.folderDelimiter] }

/-- `AppendFolder`. -/
def appendFolder (folder : List Uint8) : Pathname := p.setFolder (p.folder ++ folder)

def setBasename (basename : List Uint8) : Pathname × Bool :=
  if basename.any isFolderDelim then (p, false) else ({ p with basename := basename }, true)

def setExtension (extension : List Uint8) : Pathname × Bool :=
  if extension.any isFolderDelim || (extension.drop 1).contains extDelim then (p, false)
  else
    match extension with
    | [] => ({ p with extension := [] }, true)
    | ch :: rest =>
      ({ p with extension := if ch = extDelim then ch :: rest else extDelim :: ch :: rest }, true)

def setFilename (filename : List Uint8) : Pathname × Bool :=
  match lastDot filename with
  | none | some 0 =>
    match p.setExtension [] with
    | (p, true) => p.setBasename filename
    | (p, false) => (p, false)
  | some pos =>
    match p.setExtension (filename.drop pos) with
    | (p, true) => p.setBasename (filename.take pos)
    | (p, false) => (p, false)

def setPathname (pathname : List Uint8) : Pathname :=
  ((p.setFolder (throughDelim pathname)).setFilename (afterDelim pathname)).1

/-- `AppendPathname`. -/
def appendPathname (pathname : List Uint8) : Pathname := p.setPathname (p.folder ++ pathname)

def parentFolder : List Uint8 := throughDelim p.folder.dropLast

def folderName : List Uint8 := p.folder.drop p.parentFolder.length

/-- `Pathname(const std::string&)`. -/
def ofPathname (pathname : List Uint8) : Pathname := Pathname.setPathname {} pathname

/-! ## A path is what it is split from -/

theorem pathname_ne_nil : p.pathname ≠ [] := by
  unfold pathname
  split
  · exact List.cons_ne_nil _ _
  · assumption

theorem pathname_eq (h : p.folder ++ p.filename ≠ []) : p.pathname = p.folder ++ p.filename := by
  unfold pathname
  rw [filename, ← List.append_assoc] at *
  split
  · contradiction
  · rfl

theorem filename_setFilename {filename : List Uint8} (h : filename.any isFolderDelim = false) :
    (p.setFilename filename).1.filename = filename ∧ (p.setFilename filename).2 = true ∧
      (p.setFilename filename).1.folder = p.folder ∧
      (p.setFilename filename).1.folderDelimiter = p.folderDelimiter := by
  have hwhole : ∀ q : Pathname, q.extension = [] →
      (q.setBasename filename).1.filename = filename ∧ (q.setBasename filename).2 = true ∧
      (q.setBasename filename).1.folder = q.folder ∧
      (q.setBasename filename).1.folderDelimiter = q.folderDelimiter := by
    intro q hq
    simp [setBasename, h, Pathname.filename, hq]
  unfold setFilename
  split
  · exact hwhole _ rfl
  · exact hwhole _ rfl
  · rename_i pos _ hpos
    obtain ⟨rest, hrest⟩ := drop_lastDot_cons hpos
    have hsub : ∀ l : List Uint8, l ⊆ filename → l.any isFolderDelim = false := fun l hl =>
      List.any_eq_false.mpr fun ch hch => List.any_eq_false.mp h ch (hl hch)
    have hext : p.setExtension (filename.drop pos) =
        ({ p with extension := filename.drop pos }, true) := by
      have hdot := drop_lastDot hpos
      have hdelim := hsub _ (List.drop_subset pos filename)
      rw [hrest] at hdot hdelim
      rw [hrest, setExtension, hdelim, hdot]
      simp
    rw [hext]
    simp [setBasename, hsub _ (List.take_subset pos filename), Pathname.filename]

theorem folder_setFolder_throughDelim (l : List Uint8) : (p.setFolder (throughDelim l)).folder = throughDelim l := by
  unfold setFolder
  split
  · rfl
  · rename_i ch hch
    have hne : throughDelim l ≠ [] := by
      intro hnil
      rw [hnil] at hch
      cases hch
    have hlast := List.rdropWhile_last_not (fun ch => !isFolderDelim ch) l hne
    rw [List.getLast?_eq_some_getLast hne, Option.some.injEq] at hch
    have hdelim : isFolderDelimiter ch = true := by
      subst hch
      rw [isFolderDelimiter, Bool.or_eq_true]
      simp only [Bool.not_eq_true, Bool.not_eq_false'] at hlast
      exact Or.inl hlast
    simp [hdelim]

@[simp] theorem folder_setPathname (l : List Uint8) : (p.setPathname l).folder = throughDelim l := by
  rw [setPathname, (filename_setFilename _ (any_afterDelim l)).2.2.1, folder_setFolder_throughDelim]

@[simp] theorem filename_setPathname (l : List Uint8) : (p.setPathname l).filename = afterDelim l :=
  (filename_setFilename _ (any_afterDelim l)).1

/-- A pathname is divided and put together again. -/
theorem pathname_setPathname (h : l ≠ []) : (p.setPathname l).pathname = l := by
  have hjoin : (p.setPathname l).folder ++ (p.setPathname l).filename = l := by
    rw [folder_setPathname, filename_setPathname, throughDelim_append_afterDelim]
  rw [pathname_eq _ (by rwa [hjoin]), hjoin]

@[simp] theorem filename_normalize : p.normalize.filename = p.filename := rfl

end Pathname

/-! ## Decoding a URL -/

def hexDecode (ch : Uint8) : Option Uint8 :=
  if 0x30#8 ≤ ch ∧ ch ≤ 0x39#8 then some (ch - 0x30#8)
  else if 0x41#8 ≤ ch ∧ ch ≤ 0x5A#8 then some (ch - 0x41#8 + 10#8)
  else if 0x61#8 ≤ ch ∧ ch ≤ 0x7A#8 then some (ch - 0x61#8 + 10#8)
  else none

/-- A plus sign stands for a blank. -/
def plusDecode (ch : Uint8) : Uint8 := if ch = 0x2B#8 then 0x20#8 else ch

/-- `UrlDecodeString`. -/
def urlDecode : List Uint8 → List Uint8
  | ch :: a :: b :: rest =>
    if ch = 0x25#8 then
      match hexDecode a, hexDecode b with
      | some h1, some h2 => (h1 <<< 4 ||| h2) :: urlDecode rest
      | _, _ => ch :: urlDecode (a :: b :: rest)
    else plusDecode ch :: urlDecode (a :: b :: rest)
  | ch :: rest => plusDecode ch :: urlDecode rest
  | [] => []

example : urlDecode (text "a%20b+%4") = text "a b %4" := by decide

end Libjingle
