import Libjingle.Xml.Namespaces

/-!
# `XmlParser` and `XmlBuilder` (`xmllite/xmlparser.{h,cc}`, `xmllite/xmlbuilder.{h,cc}`)

The parser is called by expat, which does not know namespaces. It keeps the declarations in scope and calls
the builder, which makes a tree.
-/

namespace Libjingle.Xml

open Lib.Markup (Call)

/-- The state of `XmlParser` and `XmlBuilder`, with the depth of the current element. -/
structure XmlParser where
  xmlnsstack : XmlnsStack := {}
  raised : Bool := false
  root : Option Element := none
  current : Option ℕ := none
  parents : List (Option ℕ) := []

/-! ## `XmlParser::ParseContext` -/

/-- `ParseContext::ResolveQName`. -/
def resolveQName (s : XmlnsStack) (qname : List Uint8) (isAttr : Bool) : QName :=
  if qname.contains Lib.Markup.colon then
    match s.nsForPrefix (qname.takeWhile (· ≠ Lib.Markup.colon)) with
    | some ns => ⟨ns, (qname.dropWhile (· ≠ Lib.Markup.colon)).tail⟩
    | none => ⟨[], []⟩
  else if isAttr then ⟨[], qname⟩
  else
    match s.nsForPrefix [] with
    | some ns => ⟨ns, qname⟩
    | none => ⟨[], []⟩

/-- `QName::IsEmpty`. -/
def QName.isEmpty (name : QName) : Bool := name.ns = [] ∧ name.localPart = []

/-! ## `XmlBuilder` -/

def buildAttrs (s : XmlnsStack) (seenNonlocalAtts : List QName) (e : Element) :
    List (List Uint8 × List Uint8) → Option Element
  | [] => some e
  | att :: atts =>
    let attName := resolveQName s att.1 true
    if attName.isEmpty then none
    else if attName.ns ≠ [] then
      if attName ∈ seenNonlocalAtts then none
      else buildAttrs s (attName :: seenNonlocalAtts) (e.addAttr attName att.2) atts
    else buildAttrs s seenNonlocalAtts (e.addAttr attName att.2) atts

def buildElement (s : XmlnsStack) (name : List Uint8) (atts : List (List Uint8 × List Uint8)) : Option Element :=
  let tagName := resolveQName s name false
  if tagName.isEmpty then none else buildAttrs s [] { name := tagName } atts

namespace XmlParser

variable (p : XmlParser)

def place (e : Element) : Option Element :=
  match p.current with
  | none => some e
  | some depth => p.root.bind (Element.atDepth (·.addElement e) depth)

def startElement (name : List Uint8) (atts : List (List Uint8 × List Uint8)) : XmlParser :=
  match buildElement p.xmlnsstack name atts with
  | none => { p with raised := true }
  | some e =>
    { p with
      root := p.place e
      current := some ((p.current.map (· + 1)).getD 0)
      parents := p.current :: p.parents }

/-! ## The callbacks of expat -/

/-- The declarations among the attributes. -/
def startNamespaces (p : XmlParser) : List (List Uint8 × List Uint8) → XmlParser
  | [] => p
  | att :: atts =>
    if strXmlns <+: att.1 then
      if att.1.length = 5 then
        startNamespaces { p with xmlnsstack := p.xmlnsstack.addXmlns [] att.2 } atts
      else if att.1[5]? = some Lib.Markup.colon then
        if att.2 = [] then { p with raised := true }
        else startNamespaces { p with xmlnsstack := p.xmlnsstack.addXmlns (att.1.drop 6) att.2 } atts
      else startNamespaces p atts
    else startNamespaces p atts

def expatStartElement (name : List Uint8) (atts : List (List Uint8 × List Uint8)) : XmlParser :=
  if p.raised then p
  else
    let p := startNamespaces { p with xmlnsstack := p.xmlnsstack.pushFrame } atts
    if p.raised then p else p.startElement name atts

def expatEndElement : XmlParser :=
  if p.raised then p
  else
    { p with
      xmlnsstack := p.xmlnsstack.popFrame
      current := p.parents.headD none
      parents := p.parents.tail }

/-- Characters are added to the current element. -/
def expatCharacterData (s : List Uint8) : XmlParser :=
  if p.raised ∨ s = [] then p
  else
    match p.current with
    | none => p
    | some depth => { p with root := p.root.bind (Element.atDepth (·.addText s) depth) }

/-- A call of expat. -/
def handle : Call → XmlParser
  | .startElement name atts => p.expatStartElement name atts
  | .endElement _ => p.expatEndElement
  | .characterData s => p.expatCharacterData s

end XmlParser

abbrev Expat := List Uint8 → ℤ → Bool × List Call

def castInt (n : ℕ) : ℤ := (BitVec.ofNat 32 n).toInt

def forStr (expat : Expat) (s : List Uint8) : Option Element :=
  let r := expat s (castInt s.length)
  let p := r.2.foldl XmlParser.handle {}
  if r.1 ∧ ¬ p.raised then p.root else none

end Libjingle.Xml
