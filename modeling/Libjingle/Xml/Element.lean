import Libjingle.Base.Words

/-!
# XML trees (`xmllite/qname.h`, `xmllite/xmlelement.{h,cc}`)
-/

namespace Libjingle.Xml

/-- `QName`. -/
structure QName where
  ns : List Uint8
  localPart : List Uint8
deriving DecidableEq, Repr

/-- `XmlAttr`. -/
structure Attr where
  name : QName
  value : List Uint8
deriving DecidableEq, Repr

mutual

/-- `XmlElement`. -/
structure Element where
  name : QName
  attrs : List Attr := []
  children : List Child := []
  cdata : Bool := false

/-- `XmlChild`: an `XmlText` or an `XmlElement`. -/
inductive Child where
  | text (text : List Uint8)
  | element (element : Element)

end

/-- `QN_XMLNS`. -/
def qnXmlns : QName := ⟨[], text "xmlns"⟩

theorem QName.ne_of_localPart {a b : QName} (h : a.localPart ≠ b.localPart) : a ≠ b :=
  fun hab => h (congrArg QName.localPart hab)

/-! ## Children -/

namespace Child

def asElement : Child → Option Element
  | text _ => none
  | element e => some e

@[simp] theorem asElement_text (s : List Uint8) : (text s).asElement = none := rfl

@[simp] theorem asElement_element (e : Element) : (element e).asElement = some e := rfl

end Child

namespace Element

variable (e : Element)

/-! ## Attributes -/

def withDefaultNs (name : QName) : Element := { name := name, attrs := [⟨qnXmlns, name.ns⟩] }

/-- `XmlElement::HasAttr`. -/
def hasAttr (name : QName) : Bool := e.attrs.any fun a => a.name = name

/-- `XmlElement::Attr`. -/
def attr (name : QName) : List Uint8 := ((e.attrs.find? fun a => a.name = name).map Attr.value).getD []

def addAttr (name : QName) (value : List Uint8) : Element := { e with attrs := e.attrs ++ [⟨name, value⟩] }

def setFirst (name : QName) (value : List Uint8) : List Attr → List Attr
  | [] => []
  | a :: attrs => if a.name = name then { a with value := value } :: attrs else a :: setFirst name value attrs

def setAttr (name : QName) (value : List Uint8) : Element :=
  if e.hasAttr name then { e with attrs := setFirst name value e.attrs } else e.addAttr name value

/-! ## Text -/

/-- `XmlElement::BodyText`. -/
def bodyText : List Uint8 :=
  match e.children with
  | [.text s] => s
  | _ => []

def addText (s : List Uint8) : Element :=
  if s = [] then e
  else
    match e.children.getLast? with
    | some (.text last) => { e with children := e.children.dropLast ++ [.text (last ++ s)] }
    | _ => { e with children := e.children ++ [.text s] }

def clearChildren : Element := { e with children := [] }

def setBodyText (s : List Uint8) : Element :=
  if s = [] then e.clearChildren
  else
    match e.children with
    | [] => e.addText s
    | [.text _] => { e with children := [.text s] }
    | _ => e.clearChildren.addText s

/-! ## Elements -/

/-- `XmlElement::AddElement`. -/
def addElement (child : Element) : Element := { e with children := e.children ++ [.element child] }

def elements : List Element := e.children.filterMap Child.asElement

def named (name : QName) : List Element := e.elements.filter fun child => child.name = name

/-- `XmlElement::FirstNamed`. -/
def firstNamed (name : QName) : Option Element := e.elements.find? fun child => child.name = name

def atDepth (f : Element → Element) : ℕ → Element → Option Element
  | 0, e => some (f e)
  | depth + 1, e =>
    match e.children.getLast? with
    | some (.element child) =>
      (atDepth f depth child).map fun child =>
        { e with children := e.children.dropLast ++ [.element child] }
    | _ => none

def addElementAt (child : Element) (depth : ℕ) : Option Element := atDepth (addElement · child) depth e

def addAttrAt (name : QName) (value : List Uint8) (depth : ℕ) : Option Element :=
  atDepth (addAttr · name value) depth e

variable {e}

theorem atDepth_zero (f : Element → Element) (e : Element) : atDepth f 0 e = some (f e) := rfl

theorem atDepth_succ (f : Element → Element) (depth : ℕ) (name : QName) (attrs : List Attr)
    (children : List Child) (child : Element) (cdata : Bool) :
    atDepth f (depth + 1) ⟨name, attrs, children ++ [.element child], cdata⟩ =
      (atDepth f depth child).map fun child => ⟨name, attrs, children ++ [.element child], cdata⟩ := by
  simp [atDepth]

theorem atDepth_atDepth (f g : Element → Element) (depth : ℕ) (e : Element) :
    (atDepth f depth e).bind (atDepth g depth) = atDepth (fun e => g (f e)) depth e := by
  induction depth generalizing e with
  | zero => rfl
  | succ depth ih =>
    unfold atDepth
    split
    · rename_i child _
      rw [← ih child]
      cases atDepth f depth child with
      | none => rfl
      | some child => simp
    · rfl

theorem atDepth_addElement (f : Element → Element) (child : Element) (depth : ℕ) (e : Element) :
    (atDepth (addElement · child) depth e).bind (atDepth f (depth + 1)) =
      atDepth (addElement · (f child)) depth e := by
  induction depth generalizing e with
  | zero =>
    rw [atDepth_zero, atDepth_zero, Option.bind_some]
    exact atDepth_succ f 0 e.name e.attrs e.children child e.cdata
  | succ depth ih =>
    rw [atDepth, atDepth]
    split
    · rename_i last _
      rw [← ih last]
      cases atDepth (addElement · child) depth last with
      | none => rfl
      | some last => simp [atDepth_succ]
    · rfl

theorem bind_atDepth (f g : Element → Element) (depth : ℕ) (root : Option Element) :
    (root.bind (atDepth f depth)).bind (atDepth g depth) = root.bind (atDepth (fun e => g (f e)) depth) := by
  cases root with
  | none => rfl
  | some e => exact atDepth_atDepth f g depth e

theorem bind_addElement (f : Element → Element) (child : Element) (depth : ℕ) (root : Option Element) :
    (root.bind (atDepth (addElement · child) depth)).bind (atDepth f (depth + 1)) =
      root.bind (atDepth (addElement · (f child)) depth) := by
  cases root with
  | none => rfl
  | some e => exact atDepth_addElement f child depth e

theorem addText_addText (e : Element) {s t : List Uint8} (hs : s ≠ []) :
    (e.addText s).addText t = e.addText (s ++ t) := by
  by_cases ht : t = []
  · rw [ht, List.append_nil]
    exact if_pos rfl
  · have hst : s ++ t ≠ [] := by simp [hs]
    have hlast : ∀ (children : List Child) (last : List Uint8),
        addText { e with children := children ++ [.text last] } t =
          { e with children := children ++ [.text (last ++ t)] } := by
      intro children last
      rw [addText, if_neg ht]
      simp
    have hadd : ∀ {r : List Uint8}, r ≠ [] → e.addText r =
        match e.children.getLast? with
        | some (.text last) => { e with children := e.children.dropLast ++ [.text (last ++ r)] }
        | _ => { e with children := e.children ++ [.text r] } := fun hr => if_neg hr
    rw [hadd hs, hadd hst]
    split
    · rw [hlast, List.append_assoc]
    · exact hlast e.children s

/-! ## Reading back -/

@[simp] theorem elements_map_element (name : QName) (attrs : List Attr) (l : List Element) (cdata : Bool) :
    elements ⟨name, attrs, l.map .element, cdata⟩ = l := by
  rw [elements, List.filterMap_map]
  exact List.filterMap_some

theorem bodyText_setBodyText (e : Element) (s : List Uint8) : (e.setBodyText s).bodyText = s := by
  unfold setBodyText
  split
  · rename_i hempty
    rw [hempty]
    rfl
  · rename_i hne
    have hadd : ∀ e : Element, e.children = [] → (e.addText s).bodyText = s := by
      intro e he
      rw [addText, if_neg hne, he]
      rfl
    split
    · rename_i hnone
      exact hadd e hnone
    · rfl
    · exact hadd e.clearChildren rfl

theorem addText_keeps (e : Element) (s : List Uint8) :
    (e.addText s).name = e.name ∧ (e.addText s).attrs = e.attrs := by
  unfold addText
  split
  · exact ⟨rfl, rfl⟩
  · split <;> exact ⟨rfl, rfl⟩

theorem setBodyText_keeps (e : Element) (s : List Uint8) :
    (e.setBodyText s).name = e.name ∧ (e.setBodyText s).attrs = e.attrs := by
  unfold setBodyText
  split
  · exact ⟨rfl, rfl⟩
  · split
    · exact addText_keeps e s
    · exact ⟨rfl, rfl⟩
    · exact addText_keeps e.clearChildren s

end Element

end Libjingle.Xml
