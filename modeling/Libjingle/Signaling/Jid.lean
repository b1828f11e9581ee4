import Libjingle.Stun.Message

/-!
# Jabber ids (`xmpp/jid.cc`)
-/

namespace Libjingle.Signaling

/-- Bytes of a name. -/
abbrev Name := List Uint8

/-- `Jid`, with its three prepared parts. -/
structure Jid where
  node : Name
  domain : Name
  resource : Name
  deriving DecidableEq, Repr

namespace Jid

def lower (ch : Uint8) : Uint8 := if 0x41 ≤ ch ∧ ch ≤ 0x5A then ch + 0x20 else ch

/-- What `PrepNodeAscii` refuses. -/
def refusedInNode (ch : Uint8) : Bool :=
  ch ≤ 0x17 || [0x20, 0x26, 0x2F, 0x3A, 0x3C, 0x3E, 0x40, 0x22, 0x27, 0x7F].contains ch

def refusedInResource (ch : Uint8) : Bool := ch ≤ 0x17 || ch == 0x7F

/-- What `PrepDomainLabelAscii` refuses. -/
def refusedInLabel (ch : Uint8) : Bool :=
  ch ≤ 0x2C || ch == 0x2E || ch == 0x2F || (0x3A ≤ ch && ch ≤ 0x40) || (0x5B ≤ ch && ch ≤ 0x60) ||
    (0x7B ≤ ch && ch ≤ 0x7F)

/-- `Jid::PrepNode`. -/
def prepNode (node : Name) : Option Name :=
  if node.any refusedInNode ∨ node.length > 1023 then none else some (node.map lower)

def prepResource (resource : Name) : Option Name :=
  if resource.length > 1023 then none
  else some (resource.map fun ch => if refusedInResource ch then 0 else ch)

def prepDomainLabel (label : Name) : Option Name :=
  if label.any refusedInLabel ∨ label.length = 0 ∨ label.length > 63 ∨ label.head? = some 0x2D ∨
      label.getLast? = some 0x2D then none
  else some (label.map lower)

/-- `Jid::PrepDomain`, label by label. -/
def prepDomain (domain : Name) : Option Name := do
  let labels ← (domain.splitOn 0x2E).mapM prepDomainLabel
  let result := List.intercalate [0x2E] labels
  if result.length > 1023 then none else some result

/-- The empty id. -/
def empty : Jid := ⟨[], [], []⟩

def make (node domain resource : Name) : Jid :=
  match prepNode node, prepDomain domain, prepResource resource with
  | some node, some domain, some resource => ⟨node, domain, resource⟩
  | _, _, _ => empty

/-- `Jid(jid_string)`. -/
def parse (name : Name) : Jid :=
  if name = [] then empty
  else
    let head := name.takeWhile (· ≠ 0x2F)
    let resource := (name.dropWhile (· ≠ 0x2F)).drop 1
    if head.contains 0x40 then
      make (head.takeWhile (· ≠ 0x40)) ((head.dropWhile (· ≠ 0x40)).drop 1) resource
    else make [] head resource

/-- `Jid::IsValid`. -/
def isValid (jid : Jid) : Bool := jid.domain != []

/-- `Jid::IsFull`. -/
def isFull (jid : Jid) : Bool := jid.isValid && jid.resource != []

/-- `Jid::BareJid`. -/
def bareJid (jid : Jid) : Jid :=
  if !jid.isValid then empty
  else if !jid.isFull then jid
  else make jid.node jid.domain []

/-- `Jid::Str`. -/
def str (jid : Jid) : Name :=
  if !jid.isValid then []
  else
    (if jid.node != [] then jid.node ++ [0x40] else []) ++ jid.domain ++
      (if jid.resource != [] then 0x2F :: jid.resource else [])

def compareNames (a b : Name) : Ordering := compare (a.map BitVec.toNat) (b.map BitVec.toNat)

/-- `Jid::Compare`. -/
def compareJids (a b : Jid) : Ordering :=
  ((compareNames a.node b.node).then (compareNames a.domain b.domain)).then
    (compareNames a.resource b.resource)

def bareEquals (jid other : Jid) : Bool := other.node == jid.node && other.domain == jid.domain

end Jid

/-- `BareJidsEqual`. -/
def bareJidsEqual (name₁ name₂ : Name) : Bool :=
  let jid₁ := Jid.parse name₁
  let jid₂ := Jid.parse name₂
  jid₁.isValid && jid₂.isValid && jid₁.bareEquals jid₂

end Libjingle.Signaling
