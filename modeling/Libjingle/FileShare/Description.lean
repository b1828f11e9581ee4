import Libjingle.Base.Numerals
import Libjingle.FileShare.Manifest
import Libjingle.Xml.Element

/-!
# The description of a file share as XML (`session/fileshare/fileshare.cc`)

There are two pairs of functions that write a manifest and read it back.

Main results: **`create_translate`**, **`survives_iff`**.
-/

namespace Libjingle.FileShare

open Xml (QName Attr Element Child)
open Manifest (Made)

/-! ## Names -/

def nsGoogleShare : List Uint8 := text "http://www.google.com/session/share"

def qnShareDescription : QName := ⟨nsGoogleShare, text "description"⟩
def qnShareManifest : QName := ⟨nsGoogleShare, text "manifest"⟩
def qnShareFolder : QName := ⟨nsGoogleShare, text "folder"⟩
def qnShareFile : QName := ⟨nsGoogleShare, text "file"⟩
def qnShareName : QName := ⟨nsGoogleShare, text "name"⟩
def qnShareImage : QName := ⟨nsGoogleShare, text "image"⟩
def qnShareProtocol : QName := ⟨nsGoogleShare, text "protocol"⟩
def qnShareHttp : QName := ⟨nsGoogleShare, text "http"⟩
def qnShareUrl : QName := ⟨nsGoogleShare, text "url"⟩

def qnSize : QName := ⟨[], text "size"⟩
def qnWidth : QName := ⟨[], text "width"⟩
def qnHeight : QName := ⟨[], text "height"⟩

def qnName : QName := ⟨[], text "name"⟩

def nsFileshareDescription : List Uint8 := text "urn:xmpp:jingle:apps:file-transfer:3"

def qnFileshareDescription : QName := ⟨nsFileshareDescription, text "description"⟩
def qnFileshareOffer : QName := ⟨nsFileshareDescription, text "offer"⟩
def qnFileshareFile : QName := ⟨nsFileshareDescription, text "file"⟩
def qnFileshareDate : QName := ⟨nsFileshareDescription, text "date"⟩
def qnFileshareDesc : QName := ⟨nsFileshareDescription, text "desc"⟩
def qnFileshareName : QName := ⟨nsFileshareDescription, text "name"⟩
def qnFileshareRange : QName := ⟨nsFileshareDescription, text "range"⟩
def qnFileshareSize : QName := ⟨nsFileshareDescription, text "size"⟩

/-- The name of the URL of the files. -/
def httpSourcePath : List Uint8 := text "source-path"

def httpPreviewPath : List Uint8 := text "preview-path"

/-- `FileShareManifest::SIZE_UNKNOWN`. -/
def sizeUnknown : Uint64 := 0xFFFFFFFFFFFFFFFF

def allowedImageDimensions (width height : Uint64) : Bool :=
  16 ≤ width ∧ width ≤ 0x8000 ∧ 16 ≤ height ∧ height ≤ 0x8000

/-- `sprintf` with `%lu`. -/
def formatUlong (n : Uint64) : List Uint8 := formatNumber 10 1 n.toNat

def strtoul (s : List Uint8) : Uint64 := BitVec.ofNat 64 (((scanNumber 10 s).map Prod.fst).getD 0)

/-! ## The functions -/

/-- `FileShareSession::FileShareDescription`. -/
structure FileShareDescription where
  manifest : Manifest := []
  supportsHttp : Bool := false
  sourcePath : List Uint8 := []
  previewPath : List Uint8 := []
deriving DecidableEq, Repr

def translateItem (el : Element) (item : Item) : Option Element := do
  let qname := if item.type = .folder then qnShareFolder else qnShareFile
  let el ← el.addElementAt { name := qname } 1
  let el ← if item.size ≠ sizeUnknown then el.addAttrAt qnSize (formatUlong item.size) 2 else some el
  let elName : Element := { name := qnShareName }
  let el ← el.addElementAt (elName.setBodyText item.name) 2
  if item.type = .image ∧ allowedImageDimensions item.width item.height then
    let el ← el.addElementAt { name := qnShareImage } 2
    let el ← el.addAttrAt qnWidth (formatUlong item.width) 3
    el.addAttrAt qnHeight (formatUlong item.height) 3
  else some el

def translatePath (name path : List Uint8) (el : Element) : Option Element :=
  if path ≠ [] then
    let url : Element := { name := qnShareUrl }
    el.addElementAt ((url.setAttr qnName name).setBodyText path) 2
  else some el

/-- The XML of a description; `none` where `NULL` is dereferenced. -/
def translateSessionDescription (d : FileShareDescription) : Option Element := do
  let el := Element.withDefaultNs qnShareDescription
  let el ← d.manifest.foldlM translateItem (el.addElement { name := qnShareManifest })
  let el := el.addElement { name := qnShareProtocol }
  if d.supportsHttp then
    let el ← el.addElementAt { name := qnShareHttp } 1
    let el ← translatePath httpSourcePath d.sourcePath el
    translatePath httpPreviewPath d.previewPath el
  else some el

def readImage (item : Element) : Option (Uint64 × Uint64) :=
  match item.firstNamed qnShareImage with
  | none => none
  | some image =>
    if image.hasAttr qnWidth ∧ image.hasAttr qnHeight then
      let width := strtoul (image.attr qnWidth)
      let height := strtoul (image.attr qnHeight)
      if allowedImageDimensions width height then some (width, height) else none
    else none

def readItem (m : Manifest) (item : Element) : Manifest :=
  if item.name ≠ qnShareFolder ∧ item.name ≠ qnShareFile then m
  else
    let name := ((item.firstNamed qnShareName).map Element.bodyText).getD []
    if name = [] then m
    else
      let size := if item.hasAttr qnSize then strtoul (item.attr qnSize) else sizeUnknown
      if item.name = qnShareFolder then m.addFolder name size
      else
        match readImage item with
        | some (width, height) => m.addImage name size width height
        | none => m.addFile name size

/-- One of the two URLs is read. -/
def readUrl (d : FileShareDescription) (url : Element) : FileShareDescription :=
  if url.attr qnName = httpSourcePath then { d with sourcePath := url.bodyText }
  else if url.attr qnName = httpPreviewPath then { d with previewPath := url.bodyText }
  else d

/-- The description that an XML element stands for. -/
def createSessionDescription (element : Element) : FileShareDescription :=
  if element.name ≠ qnShareDescription then {}
  else
    match element.firstNamed qnShareManifest, element.firstNamed qnShareProtocol with
    | some manifest, some protocol =>
      let d : FileShareDescription := { manifest := manifest.elements.foldl readItem [] }
      match protocol.firstNamed qnShareHttp with
      | some http => (http.named qnShareUrl).foldl readUrl { d with supportsHttp := true }
      | none => d
    | _, _ => {}

/-- `ParseContent`, which always returns `true`. -/
def parseContent (_elem : Element) : Manifest :=
  (Manifest.addFile [] (text "test.txt") 1022).copy

def textElement (name : QName) (s : List Uint8) : Element := ({ name := name } : Element).addText s

def writeContent (_content : Manifest) : Element :=
  let desfile := ({ name := qnFileshareFile } : Element)
  let desfile := desfile.addElement (textElement qnFileshareDate (text "1969-07-21T02:56:15Z"))
  let desfile := desfile.addElement
    (textElement qnFileshareDesc (text "This is a test. If this were a real file..."))
  let desfile := desfile.addElement (textElement qnFileshareName (text "test.txt"))
  let desfile := desfile.addElement { name := qnFileshareRange }
  let desfile := desfile.addElement (textElement qnFileshareSize (text "1022"))
  ({ name := qnFileshareDescription } : Element).addElement
    (({ name := qnFileshareOffer } : Element).addElement desfile)

/-! ## What is written -/

def itemAttrs (item : Item) : List Attr :=
  if item.size ≠ sizeUnknown then [⟨qnSize, formatUlong item.size⟩] else []

def nameElement (name : List Uint8) : Element := ({ name := qnShareName } : Element).setBodyText name

def imageElement (width height : Uint64) : Element :=
  { name := qnShareImage, attrs := [⟨qnWidth, formatUlong width⟩, ⟨qnHeight, formatUlong height⟩] }

def itemElement (item : Item) : Element where
  name := if item.type = .folder then qnShareFolder else qnShareFile
  attrs := itemAttrs item
  children := .element (nameElement item.name) ::
    if item.type = .image ∧ allowedImageDimensions item.width item.height then
      [.element (imageElement item.width item.height)]
    else []

def urlElement (name path : List Uint8) : Element :=
  (({ name := qnShareUrl } : Element).setAttr qnName name).setBodyText path

def urlElements (d : FileShareDescription) : List Element :=
  (if d.sourcePath ≠ [] then [urlElement httpSourcePath d.sourcePath] else []) ++
    if d.previewPath ≠ [] then [urlElement httpPreviewPath d.previewPath] else []

def descriptionElement (d : FileShareDescription) : Element where
  name := qnShareDescription
  attrs := [⟨Xml.qnXmlns, nsGoogleShare⟩]
  children :=
    [.element { name := qnShareManifest, children := d.manifest.map fun item => .element (itemElement item) },
      .element
        { name := qnShareProtocol
          children :=
            if d.supportsHttp then
              [.element { name := qnShareHttp, children := (urlElements d).map .element }]
            else [] }]

theorem translateItem_eq (name : QName) (attrs : List Attr) (manifest : List Child) (item : Item) :
    translateItem ⟨name, attrs, [.element ⟨qnShareManifest, [], manifest, false⟩], false⟩ item =
      some ⟨name, attrs,
        [.element ⟨qnShareManifest, [], manifest ++ [.element (itemElement item)], false⟩], false⟩ := by
  have hlast : ∀ (f : Element → Element) (depth : ℕ) (child : Element),
      Element.atDepth f (depth + 1) ⟨name, attrs, [.element child], false⟩ =
        (Element.atDepth f depth child).map fun child => ⟨name, attrs, [.element child], false⟩ :=
    fun f depth child => Element.atDepth_succ f depth name attrs [] child false
  unfold translateItem itemElement itemAttrs nameElement imageElement
  by_cases hsize : item.size = sizeUnknown <;>
    by_cases himage : item.type = .image ∧ allowedImageDimensions item.width item.height = true
  all_goals
    simp only [Element.addElementAt, Element.addAttrAt, Element.addElement, ne_eq, hsize, himage, and_self,
      not_true_eq_false, not_false_eq_true, if_true, if_false, Option.bind_eq_bind, Option.bind_some, hlast,
      Element.atDepth_succ, Element.atDepth_zero, Option.map_some]
    rfl

theorem translateItems_eq (name : QName) (attrs : List Attr) (manifest : List Child) (items : List Item) :
    items.foldlM translateItem ⟨name, attrs, [.element ⟨qnShareManifest, [], manifest, false⟩], false⟩ =
      some ⟨name, attrs, [.element ⟨qnShareManifest, [],
        manifest ++ items.map fun item => .element (itemElement item), false⟩], false⟩ := by
  induction items generalizing manifest with
  | nil => simp
  | cons item items ih =>
    rw [List.foldlM_cons, translateItem_eq, Option.bind_eq_bind, Option.bind_some, ih, List.map_cons,
      List.append_assoc, List.singleton_append]

theorem translatePath_eq (name path : List Uint8) (qname : QName) (attrs : List Attr) (manifest : Child)
    (urls : List Child) :
    translatePath name path ⟨qname, attrs, [manifest, .element ⟨qnShareProtocol, [],
        [.element ⟨qnShareHttp, [], urls, false⟩], false⟩], false⟩ =
      some ⟨qname, attrs, [manifest, .element ⟨qnShareProtocol, [], [.element ⟨qnShareHttp, [],
        urls ++ if path ≠ [] then [.element (urlElement name path)] else [], false⟩], false⟩], false⟩ := by
  unfold translatePath
  split
  · have hlast : ∀ f : Element → Element, Element.atDepth f 2 ⟨qname, attrs, [manifest, .element ⟨qnShareProtocol,
        [], [.element ⟨qnShareHttp, [], urls, false⟩], false⟩], false⟩ =
          some ⟨qname, attrs, [manifest, .element ⟨qnShareProtocol, [],
            [.element (f ⟨qnShareHttp, [], urls, false⟩)], false⟩], false⟩ := fun _ => rfl
    exact hlast _
  · rw [List.append_nil]

theorem translateSessionDescription_eq (d : FileShareDescription) :
    translateSessionDescription d = some (descriptionElement d) := by
  have hmanifest : (Element.withDefaultNs qnShareDescription).addElement { name := qnShareManifest } =
      ⟨qnShareDescription, [⟨Xml.qnXmlns, nsGoogleShare⟩], [.element ⟨qnShareManifest, [], [], false⟩],
        false⟩ := rfl
  have hhttp : ∀ manifest : Element, (Element.addElement ⟨qnShareDescription, [⟨Xml.qnXmlns, nsGoogleShare⟩],
      [.element manifest], false⟩ { name := qnShareProtocol }).addElementAt { name := qnShareHttp } 1 =
        some ⟨qnShareDescription, [⟨Xml.qnXmlns, nsGoogleShare⟩], [.element manifest,
          .element ⟨qnShareProtocol, [], [.element ⟨qnShareHttp, [], [], false⟩], false⟩], false⟩ := fun _ => rfl
  unfold translateSessionDescription descriptionElement urlElements
  simp only [hmanifest, translateItems_eq, Option.bind_eq_bind, Option.bind_some, List.nil_append]
  cases hsupports : d.supportsHttp with
  | false => rfl
  | true =>
    simp only [if_true, hhttp, Option.bind_some, translatePath_eq, List.nil_append, List.map_append]
    by_cases hsource : d.sourcePath = [] <;> by_cases hpreview : d.previewPath = [] <;>
      simp [hsource, hpreview]

/-! ## What is read -/

theorem strtoul_formatUlong (n : Uint64) : strtoul (formatUlong n) = n := by
  have hscan : scanNumber 10 (formatNumber 10 1 n.toNat ++ []) = some (n.toNat, []) :=
    scanNumber_formatNumber (by omega) (by omega) (by omega) n.isLt (by simp)
  rw [List.append_nil] at hscan
  rw [strtoul, formatUlong, hscan, Option.map_some, Option.getD_some]
  exact BitVec.eq_of_toNat_eq (by simp)

theorem qnShareFile_ne_folder : qnShareFile ≠ qnShareFolder := QName.ne_of_localPart (by decide)

theorem size_itemElement (item : Item) :
    (if (itemElement item).hasAttr qnSize then strtoul ((itemElement item).attr qnSize) else sizeUnknown) =
      item.size := by
  have hattrs : (itemElement item).attrs = itemAttrs item := rfl
  unfold Element.hasAttr Element.attr
  rw [hattrs, itemAttrs]
  by_cases hsize : item.size = sizeUnknown
  · rw [if_neg (not_not.mpr hsize), hsize]
    rfl
  · rw [if_pos hsize]
    simp [strtoul_formatUlong]

theorem name_itemElement (item : Item) :
    (((itemElement item).firstNamed qnShareName).map Element.bodyText).getD [] = item.name := by
  have hname : (nameElement item.name).name = qnShareName := (Element.setBodyText_keeps _ _).1
  have hfirst : (itemElement item).firstNamed qnShareName = some (nameElement item.name) := by
    simp [itemElement, Element.firstNamed, Element.elements, hname]
  rw [hfirst, Option.map_some, Option.getD_some, nameElement, Element.bodyText_setBodyText]

theorem readImage_itemElement (item : Item) :
    readImage (itemElement item) =
      if item.type = .image ∧ allowedImageDimensions item.width item.height then
        some (item.width, item.height)
      else none := by
  have hname : (nameElement item.name).name ≠ qnShareImage := by
    rw [show (nameElement item.name).name = qnShareName from (Element.setBodyText_keeps _ _).1]
    exact QName.ne_of_localPart (by decide)
  have hfirst : (itemElement item).firstNamed qnShareImage =
      if item.type = .image ∧ allowedImageDimensions item.width item.height then
        some (imageElement item.width item.height)
      else none := by
    unfold itemElement Element.firstNamed Element.elements
    by_cases himage : item.type = .image ∧ allowedImageDimensions item.width item.height = true
    · rw [if_pos himage]
      simp [hname, himage, imageElement]
    · rw [if_neg himage, if_neg himage]
      simp [hname]
  have hwidth : (imageElement item.width item.height).attr qnWidth = formatUlong item.width := by
    simp [imageElement, Element.attr]
  have hheight : (imageElement item.width item.height).attr qnHeight = formatUlong item.height := by
    have hne : qnWidth ≠ qnHeight := by decide
    simp [imageElement, Element.attr, hne]
  have hhas : (imageElement item.width item.height).hasAttr qnWidth ∧
      (imageElement item.width item.height).hasAttr qnHeight := by
    simp [imageElement, Element.hasAttr]
  unfold readImage
  rw [hfirst]
  by_cases himage : item.type = .image ∧ allowedImageDimensions item.width item.height = true
  · rw [if_pos himage, if_pos himage]
    simp only [if_pos hhas, hwidth, hheight, strtoul_formatUlong, himage.2, if_true]
  · rw [if_neg himage, if_neg himage]

theorem readItem_itemElement (m : Manifest) {item : Item} (hname : item.name ≠ [])
    (himage : item.type = .image → allowedImageDimensions item.width item.height)
    (hother : item.type ≠ .image → item.width = 0 ∧ item.height = 0) :
    readItem m (itemElement item) = m ++ [item] := by
  have hqname : (itemElement item).name = if item.type = .folder then qnShareFolder else qnShareFile := rfl
  unfold readItem
  simp only [size_itemElement, name_itemElement, readImage_itemElement, if_neg hname, hqname]
  obtain ⟨type, name, size, width, height⟩ := item
  cases type with
  | file =>
    obtain ⟨rfl, rfl⟩ : width = 0 ∧ height = 0 := hother nofun
    simp [qnShareFile_ne_folder, Manifest.addFile]
  | image =>
    have hallowed : allowedImageDimensions width height = true := himage rfl
    simp [qnShareFile_ne_folder, hallowed, Manifest.addImage]
  | folder =>
    obtain ⟨rfl, rfl⟩ : width = 0 ∧ height = 0 := hother nofun
    simp [Manifest.addFolder]

/-- A manifest that can be offered: items have names, and images have allowed sizes. -/
structure Offered (m : Manifest) : Prop where
  made : Made m
  names : ∀ item ∈ m, item.name ≠ []
  images : ∀ item ∈ m, item.type = .image → allowedImageDimensions item.width item.height

theorem readItems_itemElements {items : List Item} (h : ∀ item ∈ items, ∀ m, readItem m (itemElement item) = m ++ [item])
    (m : Manifest) : (items.map itemElement).foldl readItem m = m ++ items := by
  induction items generalizing m with
  | nil => simp
  | cons item items ih =>
    rw [List.map_cons, List.foldl_cons, h item List.mem_cons_self,
      ih (fun item hitem => h item (List.mem_cons_of_mem _ hitem)), List.append_assoc, List.singleton_append]

theorem Offered.readItems {m : Manifest} (h : Offered m) : (m.map itemElement).foldl readItem [] = m :=
  readItems_itemElements
    (fun item hitem m' => readItem_itemElement m' (h.names item hitem) (h.images item hitem)
      (h.made.dimensions hitem)) []

theorem urlElement_spec (name path : List Uint8) :
    (urlElement name path).name = qnShareUrl ∧ (urlElement name path).attr qnName = name ∧
      (urlElement name path).bodyText = path := by
  have hset : ({ name := qnShareUrl } : Element).setAttr qnName name =
      { name := qnShareUrl, attrs := [⟨qnName, name⟩] } := rfl
  obtain ⟨hname, hattrs⟩ :=
    Element.setBodyText_keeps (({ name := qnShareUrl } : Element).setAttr qnName name) path
  refine ⟨?_, ?_, Element.bodyText_setBodyText _ _⟩
  · rw [urlElement, hname, hset]
  · rw [urlElement, Element.attr, hattrs, hset]
    simp

theorem readUrl_urlElement (d : FileShareDescription) (path : List Uint8) :
    readUrl d (urlElement httpSourcePath path) = { d with sourcePath := path } ∧
      readUrl d (urlElement httpPreviewPath path) = { d with previewPath := path } := by
  have hne : httpPreviewPath ≠ httpSourcePath := by decide
  constructor
  · rw [readUrl, (urlElement_spec _ _).2.1, if_pos rfl, (urlElement_spec _ _).2.2]
  · rw [readUrl, (urlElement_spec _ _).2.1, if_neg hne, if_pos rfl, (urlElement_spec _ _).2.2]

theorem readUrls_urlElements (d d' : FileShareDescription) (hsource : d'.sourcePath = [])
    (hpreview : d'.previewPath = []) :
    (urlElements d).foldl readUrl d' =
      { d' with sourcePath := d.sourcePath, previewPath := d.previewPath } := by
  obtain ⟨manifest, supportsHttp, sourcePath, previewPath⟩ := d'
  obtain rfl : sourcePath = [] := hsource
  obtain rfl : previewPath = [] := hpreview
  unfold urlElements
  by_cases hsource : d.sourcePath = [] <;> by_cases hpreview : d.previewPath = [] <;>
    simp [hsource, hpreview, readUrl_urlElement]

theorem named_urlElements (d : FileShareDescription) :
    (Element.named ⟨qnShareHttp, [], (urlElements d).map .element, false⟩ qnShareUrl) = urlElements d := by
  rw [Element.named, Element.elements_map_element, List.filter_eq_self]
  intro url hurl
  rw [decide_eq_true_eq]
  unfold urlElements at hurl
  rcases List.mem_append.mp hurl with hsource | hpreview
  · split at hsource
    · rw [List.mem_singleton.mp hsource]
      exact (urlElement_spec _ _).1
    · cases hsource
  · split at hpreview
    · rw [List.mem_singleton.mp hpreview]
      exact (urlElement_spec _ _).1
    · cases hpreview

/-- **What is written is read back**. -/
theorem create_translate {d : FileShareDescription} (h : Offered d.manifest) :
    (translateSessionDescription d).map createSessionDescription =
      some { d with
        sourcePath := if d.supportsHttp then d.sourcePath else []
        previewPath := if d.supportsHttp then d.previewPath else [] } := by
  have hmanifest : (descriptionElement d).firstNamed qnShareManifest = some
      { name := qnShareManifest, children := (d.manifest.map itemElement).map .element } := by
    rw [List.map_map]
    rfl
  have hprotocol : (descriptionElement d).firstNamed qnShareProtocol = some
      { name := qnShareProtocol
        children :=
          if d.supportsHttp then [.element { name := qnShareHttp, children := (urlElements d).map .element }]
          else [] } := by
    have hne : qnShareManifest ≠ qnShareProtocol := QName.ne_of_localPart (by decide)
    simp [descriptionElement, Element.firstNamed, Element.elements, hne]
  have hname : ¬ (descriptionElement d).name ≠ qnShareDescription := not_not.mpr rfl
  rw [translateSessionDescription_eq, Option.map_some, createSessionDescription, if_neg hname, hmanifest,
    hprotocol]
  dsimp only
  rw [Element.elements_map_element, h.readItems]
  cases hsupports : d.supportsHttp with
  | false => rfl
  | true =>
    have hhttp : Element.firstNamed { name := qnShareProtocol, children := [.element
        { name := qnShareHttp, children := (urlElements d).map .element }] } qnShareHttp =
          some { name := qnShareHttp, children := (urlElements d).map .element } := by
      simp [Element.firstNamed, Element.elements]
    simp only [if_true, hhttp]
    rw [named_urlElements, readUrls_urlElements _ _ rfl rfl]

/-- The description is read back, and its manifest, too. -/
def Survives (d : FileShareDescription) : Prop :=
  (translateSessionDescription d).map createSessionDescription = some d ∧
    parseContent (writeContent d.manifest) = d.manifest

/-- The item that `ParseContent` makes. -/
def testFile : Item := { type := .file, name := text "test.txt", size := 1022 }

/-- **A description survives** exactly if its manifest is what `ParseContent` makes, and it has no
path without HTTP. -/
theorem survives_iff (d : FileShareDescription) (h : Offered d.manifest) :
    Survives d ↔ d.manifest = [testFile, testFile] ∧
      (d.supportsHttp ∨ d.sourcePath = [] ∧ d.previewPath = []) := by
  obtain ⟨manifest, supportsHttp, sourcePath, previewPath⟩ := d
  have hfirst : (translateSessionDescription ⟨manifest, supportsHttp, sourcePath, previewPath⟩).map
      createSessionDescription = some ⟨manifest, supportsHttp, sourcePath, previewPath⟩ ↔
        supportsHttp ∨ sourcePath = [] ∧ previewPath = [] := by
    rw [create_translate h, Option.some_inj]
    cases supportsHttp with
    | true => simp
    | false => simp [eq_comm]
  have hsecond : parseContent (writeContent manifest) = manifest ↔ manifest = [testFile, testFile] := eq_comm
  unfold Survives
  rw [hfirst, hsecond, and_comm]

/-- The manifest that is carried. -/
theorem survives_test_files :
    Survives { manifest := [testFile, testFile], supportsHttp := true, sourcePath := [0x61] } :=
  (survives_iff { manifest := [testFile, testFile], supportsHttp := true, sourcePath := [0x61] }
    ⟨.copy (.addFile .empty _ _), by decide, by decide⟩).mpr ⟨rfl, Or.inl rfl⟩

def exampleManifest : Manifest := Manifest.addFile [] [0x61] 5

/-- **One file becomes two others**. -/
theorem one_file_replaced :
    Offered exampleManifest ∧ parseContent (writeContent exampleManifest) = [testFile, testFile] ∧
      ¬ Survives { manifest := exampleManifest, supportsHttp := true } :=
  ⟨⟨.addFile .empty _ _, by decide, by decide⟩, rfl, fun h => absurd h.2 (by decide)⟩

end Libjingle.FileShare
