import Libjingle.Lib.Chain
import Libjingle.Xml.Element

/-!
# The nodes of an element (`xmllite/xmlelement.{h,cc}`)

`XmlElement` keeps its attributes and its children in linked lists with tail pointers. `ε` is the type
of the elements inside. What dereferences `NULL` or a pointer to no node is undefined.

Main results: **`tree_addText`**, **`tree_setBodyText`**, **`tree_setAttr`**.
-/

namespace Libjingle.Xml

open Lib

/-! ## Elements with pointers -/

/-- `XmlChild`, with the pointers to elements of a type. -/
inductive XmlChild (ε : Type)
  | text (text : List Uint8)
  | element (element : ε)

/-- `XmlElement`, with the pointers of its chains. -/
structure XmlElement (ε : Type) where
  name : QName
  attrs : Chain Attr := {}
  children : Chain (XmlChild ε) := {}
  cdata : Bool := false

/-- What the code does with the elements below. -/
structure Inner (ε : Type) where
  name : ε → QName
  copy : ε → Option ε

namespace XmlElement

variable {ε : Type} (x : XmlElement ε)

def setAttr (name : QName) (value : List Uint8) : Option (XmlElement ε) := do
  let (_, attr) ← x.attrs.search (fun a => a.name = name) x.attrs.fresh none x.attrs.first
  match attr with
  | none => (x.attrs.append ⟨name, value⟩).map fun attrs => { x with attrs := attrs }
  | some p =>
    (x.attrs.setValue p fun a => { a with value := value }).map fun attrs => { x with attrs := attrs }

def clearAttr (name : QName) : Option (XmlElement ε) := do
  let (lastAttr, attr) ← x.attrs.search (fun a => a.name = name) x.attrs.fresh none x.attrs.first
  match attr with
  | none => some x
  | some p => (x.attrs.unlink lastAttr p).map fun attrs => { x with attrs := attrs }

def addAttr (name : QName) (value : List Uint8) : Option (XmlElement ε) :=
  (x.attrs.append ⟨name, value⟩).map fun attrs => { x with attrs := attrs }

/-- A new node behind `last_child_`. -/
def appendChild (child : XmlChild ε) : Option (XmlElement ε) :=
  (x.children.append child).map fun children => { x with children := children }

def addElement (child : Option ε) : Option (XmlElement ε) :=
  match child with
  | none => some x
  | some e => x.appendChild (.element e)

def addText (s : List Uint8) : Option (XmlElement ε) :=
  if s = [] then some x
  else
    match x.children.last with
    | none => x.appendChild (.text s)
    | some p => do
      let n ← x.children.nodes p
      match n.value with
      | .element _ => x.appendChild (.text s)
      | .text last =>
        (x.children.setValue p fun _ => .text (last ++ s)).map fun children => { x with children := children }

def addParsedText (s : List Uint8) : Option (XmlElement ε) := x.addText s

def clearChildren : Option (XmlElement ε) :=
  x.children.clear.map fun children => { x with children := children }

def setBodyText (s : List Uint8) : Option (XmlElement ε) :=
  if s = [] then x.clearChildren
  else
    match x.children.first with
    | none => x.addText s
    | some p => do
      let n ← x.children.nodes p
      match n.value with
      | .element _ => x.clearChildren.bind fun x' => x'.addText s
      | .text _ =>
        if x.children.last = x.children.first then
          (x.children.setValue p fun _ => .text s).map fun children => { x with children := children }
        else x.clearChildren.bind fun x' => x'.addText s

def insertChildAfter (predecessor : Option ℕ) (next : XmlChild ε) : Option (XmlElement ε) :=
  (x.children.insertAfter predecessor next).map fun children => { x with children := children }

def removeChildAfter (predecessor : Option ℕ) : Option (XmlElement ε) :=
  (x.children.removeAfter predecessor).map fun children => { x with children := children }

def isNamed (inner : Inner ε) (name : QName) : XmlChild ε → Bool
  | .text _ => false
  | .element e => inner.name e = name

/-- The loop of `ClearNamedChildren`. -/
def clearNamedFrom (inner : Inner ε) (name : QName) :
    ℕ → XmlElement ε → Option ℕ → Option ℕ → Option (XmlElement ε)
  | _, x, _, none => some x
  | 0, _, _, some _ => none
  | fuel + 1, x, prevChild, some child => do
    let n ← x.children.nodes child
    if isNamed inner name n.value then
      let x' ← x.removeChildAfter prevChild
      clearNamedFrom inner name fuel x' prevChild n.next
    else clearNamedFrom inner name fuel x (some child) n.next

def clearNamedChildren (inner : Inner ε) (name : QName) : Option (XmlElement ε) :=
  clearNamedFrom inner name x.children.fresh x none x.children.first

/-- `new XmlText` or `new XmlElement` of a child. -/
def copyChild (inner : Inner ε) : XmlChild ε → Option (XmlChild ε)
  | .text s => some (.text s)
  | .element e => (inner.copy e).map .element

def copy (inner : Inner ε) : Option (XmlElement ε) := do
  let attrs ← x.attrs.copy some
  let children ← x.children.copy (copyChild inner)
  some { name := x.name, attrs := attrs, children := children, cdata := x.cdata }

end XmlElement

/-! ## Attributes and children in order -/

/-- An element as two lists with the addresses of their nodes. -/
structure Lists where
  name : QName
  attrs : Row Attr := {}
  children : Row Child := {}
  cdata : Bool := false

namespace Lists

variable (l : Lists)

/-- The tree of the lists. -/
def tree : Element :=
  { name := l.name, attrs := l.attrs.entries.map Prod.snd, children := l.children.entries.map Prod.snd
    cdata := l.cdata }

def hasAttr (name : QName) : Bool := l.attrs.entries.any fun e => e.2.name = name

def setAttr (name : QName) (value : List Uint8) : Lists :=
  if l.hasAttr name then
    { l with attrs := l.attrs.update (fun a => a.name = name) fun a => { a with value := value } }
  else { l with attrs := l.attrs.append ⟨name, value⟩ }

def clearAttr (name : QName) : Lists := { l with attrs := l.attrs.remove fun a => a.name = name }

/-- A new attribute comes last. -/
def addAttr (name : QName) (value : List Uint8) : Lists := { l with attrs := l.attrs.append ⟨name, value⟩ }

def addElement : Option Element → Lists
  | none => l
  | some e => { l with children := l.children.append (.element e) }

def addText (s : List Uint8) : Lists :=
  if s = [] then l
  else
    match l.children.entries.getLast? with
    | some (a, .text last) =>
      { l with children :=
          { l.children with entries := l.children.entries.dropLast ++ [(a, .text (last ++ s))] } }
    | _ => { l with children := l.children.append (.text s) }

def clearChildren : Lists := { l with children := l.children.clear }

def setBodyText (s : List Uint8) : Lists :=
  if s = [] then l.clearChildren
  else
    match l.children.entries with
    | [(a, .text _)] => { l with children := { l.children with entries := [(a, .text s)] } }
    | _ => { l with children := l.children.clear.append (.text s) }

def insertChildAfter (predecessor : Option ℕ) (next : Child) : Lists :=
  { l with children := l.children.insertAfter predecessor next }

def removeChildAfter (predecessor : Option ℕ) : Lists :=
  { l with children := l.children.removeAfter predecessor }

def isNamed (name : QName) : Child → Bool
  | .text _ => false
  | .element e => e.name = name

def clearNamedChildren (name : QName) : Lists :=
  { l with children :=
      { l.children with entries := l.children.entries.filter fun e => !isNamed name e.2 } }

/-- The lists on new nodes. -/
def copy : Lists := { l with attrs := l.attrs.copied, children := l.children.copied }

/-! ### Trees -/

variable {l}

theorem tree_addText (s : List Uint8) : (l.addText s).tree = l.tree.addText s := by
  unfold addText Element.addText
  by_cases hs : s = []
  · rw [if_pos hs, if_pos hs]
  rw [if_neg hs, if_neg hs]
  obtain ⟨name, attrs, ⟨entries, fresh⟩, cdata⟩ := l
  rcases List.eq_nil_or_concat entries with rfl | ⟨front, ⟨a, child⟩, rfl⟩
  · rfl
  · cases child <;> simp [tree, Row.append]

theorem tree_setBodyText (s : List Uint8) : (l.setBodyText s).tree = l.tree.setBodyText s := by
  unfold setBodyText Element.setBodyText
  by_cases hs : s = []
  · rw [if_pos hs, if_pos hs]
    rfl
  rw [if_neg hs, if_neg hs]
  obtain ⟨name, attrs, ⟨entries, fresh⟩, cdata⟩ := l
  have hadd : Element.addText ⟨name, attrs.entries.map Prod.snd, [], cdata⟩ s =
      ⟨name, attrs.entries.map Prod.snd, [.text s], cdata⟩ := by
    rw [Element.addText, if_neg hs]
    rfl
  rcases entries with _ | ⟨⟨_, text | element⟩, _ | ⟨_, _⟩⟩
  · exact hadd.symm
  · rfl
  all_goals exact hadd.symm

theorem setFirst_map (name : QName) (value : List Uint8) (entries : List (ℕ × Attr)) :
    Element.setFirst name value (entries.map Prod.snd) =
      (entries.takeWhile (fun e => !decide (e.2.name = name)) ++
        (entries.dropWhile fun e => !decide (e.2.name = name)).modifyHead
          fun e => (e.1, { e.2 with value := value })).map Prod.snd := by
  induction entries with
  | nil => rfl
  | cons e entries ih =>
    by_cases hname : e.2.name = name
    · simp [Element.setFirst, hname]
    · simp [Element.setFirst, hname, ih]

theorem tree_setAttr (name : QName) (value : List Uint8) : (l.setAttr name value).tree = l.tree.setAttr name value := by
  have hhas : l.tree.hasAttr name = l.hasAttr name := by
    unfold tree hasAttr Element.hasAttr
    rw [List.any_map]
    rfl
  unfold setAttr Element.setAttr
  rw [hhas]
  split_ifs
  · simp only [tree, Row.update, setFirst_map]
  · simp only [tree, Row.append, Element.addAttr, List.map_append, List.map_cons, List.map_nil]

end Lists

end Libjingle.Xml
