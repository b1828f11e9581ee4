import Libjingle.Base.Words

/-!
# The manifest of a file share (`session/fileshare/fileshare.{h,cc}`)
-/

namespace Libjingle.FileShare

/-- `FileShareManifest::Type`. -/
inductive ItemType where
  | file | image | folder
  deriving DecidableEq, Repr

/-- `FileShareManifest::Item`. -/
structure Item where
  type : ItemType
  name : List Uint8
  size : Uint64
  width : Uint64 := 0
  height : Uint64 := 0
deriving DecidableEq, Repr

/-- `FileShareManifest`: the items in order. -/
abbrev Manifest := List Item

namespace Manifest

/-- `AddFile`. -/
def addFile (m : Manifest) (name : List Uint8) (size : Uint64) : Manifest :=
  m ++ [{ type := .file, name := name, size := size }]

/-- `AddImage`. -/
def addImage (m : Manifest) (name : List Uint8) (size width height : Uint64) : Manifest :=
  m ++ [{ type := .image, name := name, size := size, width := width, height := height }]

/-- `AddFolder`. -/
def addFolder (m : Manifest) (name : List Uint8) (size : Uint64) : Manifest :=
  m ++ [{ type := .folder, name := name, size := size }]

/-- `Copy`: the items are copied, and then added. -/
def copy (m : Manifest) : Manifest := m ++ m

/-- The manifests that the three functions make. -/
inductive Made : Manifest → Prop where
  | empty : Made []
  | addFile {m : Manifest} (h : Made m) (name : List Uint8) (size : Uint64) : Made (m.addFile name size)
  | addImage {m : Manifest} (h : Made m) (name : List Uint8) (size width height : Uint64) :
      Made (m.addImage name size width height)
  | addFolder {m : Manifest} (h : Made m) (name : List Uint8) (size : Uint64) : Made (m.addFolder name size)
  | copy {m : Manifest} (h : Made m) : Made m.copy

theorem Made.dimensions {m : Manifest} (h : Made m) {item : Item} (hitem : item ∈ m)
    (htype : item.type ≠ .image) : item.width = 0 ∧ item.height = 0 := by
  induction h with
  | empty => cases hitem
  | addFile _ name size ih | addFolder _ name size ih =>
    rcases List.mem_append.mp hitem with hold | hnew
    · exact ih hold
    · rw [List.mem_singleton.mp hnew]
      exact ⟨rfl, rfl⟩
  | addImage _ name size width height ih =>
    rcases List.mem_append.mp hitem with hold | hnew
    · exact ih hold
    · exact absurd (List.mem_singleton.mp hnew ▸ rfl) htype
  | copy _ ih => exact ih ((List.mem_append.mp hitem).elim id id)

end Manifest

end Libjingle.FileShare
