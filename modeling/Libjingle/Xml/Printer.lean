import Libjingle.Xml.Namespaces

/-!
# `XmlPrinter` (`xmllite/xmlprinter.cc`)

Main result: **`stack_printElement`**.
-/

namespace Libjingle.Xml

/-! ## The functions -/

def printQuotedValue (s : List Uint8) : List Uint8 :=
  s.flatMap fun b =>
    if b = 0x3C then text "&lt;"
    else if b = 0x3E then text "&gt;"
    else if b = 0x26 then text "&amp;"
    else if b = 0x22 then text "&quot;"
    else [b]

/-- `XmlPrinterImpl::PrintBodyText`. -/
def printBodyText (s : List Uint8) : List Uint8 :=
  s.flatMap fun b =>
    if b = 0x3C then text "&lt;" else if b = 0x3E then text "&gt;" else if b = 0x26 then text "&amp;" else [b]

/-- `XmlPrinterImpl::PrintCDATAText`. -/
def printCDATAText (s : List Uint8) : List Uint8 := text "<![CDATA[" ++ s ++ text "]]>"

/-- The declaration that an attribute is, if it is one. -/
def declareAttr (s : XmlnsStack) (a : Attr) : XmlnsStack :=
  if a.name = qnXmlns then s.addXmlns [] a.value
  else if a.name.ns = nsXmlns then s.addXmlns a.name.localPart a.value
  else s

def addPrefix (r : XmlnsStack × List (List Uint8 × List Uint8)) (use : List Uint8 × Bool) :
    XmlnsStack × List (List Uint8 × List Uint8) :=
  match r.1.addNewPrefix use.1 use.2 with
  | (some p, s) => (s, r.2 ++ [(p, use.1)])
  | (none, s) => (s, r.2)

/-- The namespaces of the names of an element. -/
def uses (name : QName) (attrs : List Attr) : List (List Uint8 × Bool) :=
  (name.ns, false) :: attrs.map fun a => (a.name.ns, true)

def addPrefixes (s : XmlnsStack) (name : QName) (attrs : List Attr) :
    XmlnsStack × List (List Uint8 × List Uint8) :=
  (uses name attrs).foldl addPrefix (s, [])

/-- The declarations in scope in an element. -/
def enter (s : XmlnsStack) (name : QName) (attrs : List Attr) : XmlnsStack × List (List Uint8 × List Uint8) :=
  addPrefixes (attrs.foldl declareAttr s.pushFrame) name attrs

def printAttr (s : XmlnsStack) (a : Attr) : List Uint8 :=
  text " " ++ s.formatQName a.name true ++ text "=\"" ++ printQuotedValue a.value ++ text "\""

def printDeclaration (d : List Uint8 × List Uint8) : List Uint8 :=
  if d.1 = [] then text " xmlns=\"" ++ d.2 ++ text "\"" else text " xmlns:" ++ d.1 ++ text "=\"" ++ d.2 ++ text "\""

mutual

/-- `XmlPrinterImpl::PrintElement`. -/
def printElement (s : XmlnsStack) : Element → List Uint8 × XmlnsStack
  | ⟨name, attrs, children, cdata⟩ =>
    let r := enter s name attrs
    let start := text "<" ++ r.1.formatQName name false ++ attrs.flatMap (printAttr r.1) ++
      r.2.flatMap printDeclaration
    if children.isEmpty then (start ++ text "/>", r.1.popFrame)
    else
      let content := printChildren r.1 cdata children
      (start ++ text ">" ++ content.1 ++ text "</" ++ content.2.formatQName name false ++ text ">",
        content.2.popFrame)

def printChildren (s : XmlnsStack) (cdata : Bool) : List Child → List Uint8 × XmlnsStack
  | [] => ([], s)
  | .text t :: children =>
    let rest := printChildren s cdata children
    ((if cdata then printCDATAText t else printBodyText t) ++ rest.1, rest.2)
  | .element e :: children =>
    let first := printElement s e
    let rest := printChildren first.2 cdata children
    (first.1 ++ rest.1, rest.2)

end

def Element.str (e : Element) : List Uint8 := (printElement {} e).1

/-! ## The declarations in scope -/

/-- A scope with one frame on top of another. -/
def Inside (s s' : XmlnsStack) : Prop :=
  ∃ new, s'.entries = new ++ s.entries ∧ s'.depths = s.entries.length :: s.depths

variable {s s' : XmlnsStack}

theorem Inside.addXmlns (h : Inside s s') (p ns : List Uint8) : Inside s (s'.addXmlns p ns) := by
  obtain ⟨new, hentries, hdepths⟩ := h
  exact ⟨(p, ns) :: new, congrArg ((p, ns) :: ·) hentries, hdepths⟩

theorem Inside.popFrame (h : Inside s s') : s'.popFrame = s := by
  obtain ⟨new, hentries, hdepths⟩ := h
  unfold XmlnsStack.popFrame
  rw [hdepths]
  simp [hentries]

theorem inside_enter (s : XmlnsStack) (name : QName) (attrs : List Attr) : Inside s (enter s name attrs).1 := by
  have hdeclare : Inside s (attrs.foldl declareAttr s.pushFrame) := by
    refine List.foldlRecOn attrs declareAttr ⟨[], rfl, rfl⟩ fun s' hs' a _ => ?_
    unfold declareAttr
    split
    · exact hs'.addXmlns _ _
    · split
      · exact hs'.addXmlns _ _
      · exact hs'
  refine List.foldlRecOn (motive := fun r => Inside s r.1) (uses name attrs) addPrefix
    (b := (attrs.foldl declareAttr s.pushFrame, [])) hdeclare fun r hr use _ => ?_
  unfold addPrefix XmlnsStack.addNewPrefix
  split
  · rename_i p s' heq
    split at heq
    · cases heq
    · obtain rfl := (Prod.mk.inj heq).2
      exact hr.addXmlns _ _
  · rename_i s' heq
    split at heq
    · obtain rfl := (Prod.mk.inj heq).2
      exact hr
    · cases heq

mutual

/-- Printing an element leaves the scope as it was. -/
theorem stack_printElement (s : XmlnsStack) : ∀ e : Element, (printElement s e).2 = s
  | ⟨name, attrs, children, cdata⟩ => by
    have hpop := (inside_enter s name attrs).popFrame
    rw [printElement]
    dsimp only
    split
    · exact hpop
    · rw [stack_printChildren]
      exact hpop

theorem stack_printChildren (s : XmlnsStack) (cdata : Bool) :
    ∀ children : List Child, (printChildren s cdata children).2 = s
  | [] => rfl
  | .text _ :: children => stack_printChildren s cdata children
  | .element e :: children => by
    rw [printChildren]
    dsimp only
    rw [stack_printElement s e]
    exact stack_printChildren s cdata children

end

end Libjingle.Xml
