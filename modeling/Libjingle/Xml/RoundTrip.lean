import Mathlib.Tactic.FinCases
import Libjingle.Xml.Document

/-!
# A tree is printed and parsed back

Main results: **`handle_document`**, **`str_wellFormed`**, **`roundTrips`**.
-/

variable {attrs : List Attr}

namespace Libjingle.Xml

open Lib.Markup

/-! ## Trees that agree -/

mutual

/-- The tree with neighbouring texts joined. -/
def Element.merged : Element → Element
  | ⟨name, attrs, children, cdata⟩ => Element.mergeOnto ⟨name, attrs, [], cdata⟩ children

def Element.mergeOnto (e : Element) : List Child → Element
  | [] => e
  | .text t :: children => Element.mergeOnto (e.addText t) children
  | .element child :: children => Element.mergeOnto (e.addElement child.merged) children

end

mutual

/-- The same tree, but for declarations that are added to the attributes. -/
inductive Extends : Element → Element → Prop where
  | mk {name : QName} {attrs new : List Attr} {children children' : List Child} {cdata : Bool}
      (hnew : ∀ a ∈ new, a.name.ns = nsXmlns) (h : AllExtend children children') :
      Extends ⟨name, attrs, children, cdata⟩ ⟨name, attrs ++ new, children', cdata⟩

/-- The children on the right are those on the left with declarations added. -/
inductive AllExtend : List Child → List Child → Prop where
  | nil : AllExtend [] []
  | text {children children' : List Child} (t : List Uint8) (h : AllExtend children children') :
      AllExtend (.text t :: children) (.text t :: children')
  | element {e e' : Element} {children children' : List Child} (he : Extends e e')
      (h : AllExtend children children') : AllExtend (.element e :: children) (.element e' :: children')

end

def Agrees (e e' : Element) : Prop := ∃ extended, Extends e extended ∧ e' = extended.merged

/-- **A tree comes back** from its text. -/
def RoundTrips (expat : Expat) (e : Element) : Prop := ∃ e', forStr expat e.str = some e' ∧ Agrees e e'


/-! ## Declarations that are read -/

variable {s scope : XmlnsStack}

/-- The declarations here are those there, and new ones for namespaces that are not empty. -/
structure Covers (scope s : XmlnsStack) : Prop extends Includes scope s where
  filled : ∀ e ∈ s.entries, e ∈ scope.entries ∨ e.2 ≠ []

theorem Covers.addXmlns (h : Covers scope s) (p ns : List Uint8) :
    Covers (scope.addXmlns p ns) (s.addXmlns p ns) := by
  refine ⟨h.toIncludes.addXmlns p ns, fun e he => ?_⟩
  rcases List.mem_cons.mp he with rfl | he
  · exact Or.inl List.mem_cons_self
  · exact (h.filled e he).imp (List.mem_cons_of_mem _) id

theorem Covers.declareAttrs (h : Covers scope s) (attrs : List Attr) :
    Covers (attrs.foldl declareAttr scope) (attrs.foldl declareAttr s) := by
  induction attrs generalizing scope s with
  | nil => exact h
  | cons a attrs ih =>
    refine ih ?_
    unfold declareAttr
    split
    · exact h.addXmlns _ _
    · split
      · exact h.addXmlns _ _
      · exact h

theorem Covers.pushFrame (h : Covers scope s) : Covers scope s.pushFrame :=
  ⟨⟨h.stands, h.entries⟩, h.filled⟩

theorem Covers.filled_iff (h : Covers scope s) (name : QName) (attrs : List Attr) :
    (∀ use ∈ uses name attrs, (attrs.foldl declareAttr scope).prefixForNs use.1 use.2 = none → use.1 ≠ []) ↔
      ∀ d ∈ (enter s name attrs).2, d.2 ≠ [] := by
  have hprefixes := prefixes_enter s name attrs
  have hdeclared := h.pushFrame.declareAttrs attrs
  constructor
  · intro hall d hd
    obtain ⟨use, huse, hns, hnone⟩ := hprefixes.needed d hd
    exact hns ▸ hall use huse (hdeclared.prefixForNs hnone)
  · intro hall use huse hnone hempty
    have hneeded := hdeclared.prefixForNs_none (fun e he => hempty ▸ hdeclared.filled e he) hnone
    obtain ⟨d, hd, hns⟩ := hprefixes.complete use huse hneeded
    exact hall d hd (hns.trans hempty)

theorem Covers.enter (h : Covers scope s) {name : QName} (hfilled : ∀ d ∈ (enter s name attrs).2, d.2 ≠ []) :
    Covers (attrs.foldl declareAttr scope) (Xml.enter s name attrs).1 := by
  have hprefixes := prefixes_enter s name attrs
  have hdeclared := h.pushFrame.declareAttrs attrs
  refine ⟨hdeclared.toIncludes.trans hprefixes.includes, fun e he => ?_⟩
  rw [hprefixes.stack] at he
  rcases List.mem_append.mp he with hnew | hold
  · exact Or.inr (hfilled e (List.mem_reverse.mp hnew))
  · exact hdeclared.filled e hold

namespace XmlParser

variable {p : XmlParser}

theorem startNamespaces_default (p : XmlParser) (v : List Uint8) (atts : List (List Uint8 × List Uint8)) :
    p.startNamespaces ((strXmlns, v) :: atts) =
      startNamespaces { p with xmlnsstack := p.xmlnsstack.addXmlns [] v } atts := by
  exact (if_pos (List.prefix_refl _)).trans (if_pos (show strXmlns.length = 5 from rfl))

theorem startNamespaces_prefixed (p : XmlParser) (q v : List Uint8) (atts : List (List Uint8 × List Uint8)) :
    p.startNamespaces ((strXmlns ++ Lib.Markup.colon :: q, v) :: atts) =
      if v = [] then { p with raised := true }
      else startNamespaces { p with xmlnsstack := p.xmlnsstack.addXmlns q v } atts := by
  have hlen : (strXmlns ++ Lib.Markup.colon :: q).length ≠ 5 := by
    rw [List.length_append, List.length_cons, show strXmlns.length = 5 from rfl]
    omega
  rw [startNamespaces, if_pos (List.prefix_append _ _), if_neg hlen, if_pos (by rfl)]
  rfl

theorem startNamespaces_other (p : XmlParser) {n : List Uint8} (v : List Uint8)
    (atts : List (List Uint8 × List Uint8)) (hdefault : n ≠ strXmlns)
    (hprefixed : ∀ q, n ≠ strXmlns ++ Lib.Markup.colon :: q) : p.startNamespaces ((n, v) :: atts) = p.startNamespaces atts := by
  rw [startNamespaces]
  split
  · rename_i hstarts
    obtain ⟨rest, rfl⟩ := hstarts
    cases rest with
    | nil => exact absurd (List.append_nil _) hdefault
    | cons b rest =>
      have hlen : (strXmlns ++ b :: rest).length ≠ 5 := by
        rw [List.length_append, List.length_cons, show strXmlns.length = 5 from rfl]
        omega
      have hcolon : ¬ (strXmlns ++ b :: rest)[5]? = some Lib.Markup.colon := by
        intro h
        obtain rfl : b = Lib.Markup.colon := Option.some_inj.mp h
        exact hprefixed rest rfl
      rw [if_neg hlen, if_neg hcolon]
  · rfl

theorem formatQName_declaration (s : XmlnsStack) (name : QName) :
    (name = qnXmlns → s.formatQName name true = strXmlns) ∧
      (name.ns = nsXmlns → s.formatQName name true = strXmlns ++ Lib.Markup.colon :: name.localPart) := by
  have hne : nsXmlns ≠ nsXml := by decide
  constructor
  · rintro rfl
    have hfound : s.prefixForNs qnXmlns.ns true = some [] := by
      unfold XmlnsStack.prefixForNs
      rw [if_neg (by decide), if_neg (by decide), if_pos (show s.unprefixed qnXmlns.ns true = true from rfl)]
    rw [formatQName_eq hfound, if_pos rfl]
    rfl
  · intro hns
    have hfound : s.prefixForNs name.ns true = some strXmlns := by
      unfold XmlnsStack.prefixForNs
      rw [hns, if_neg hne, if_pos rfl]
    rw [formatQName_eq hfound, if_neg (by decide)]

theorem startNamespaces_attrs (hnamed : Named s) (hlocal : ∀ a ∈ attrs, IsNcName a.name.localPart)
    (hfound : ∀ a ∈ attrs, s.prefixForNs a.name.ns true ≠ none) (p : XmlParser)
    (rest : List (List Uint8 × List Uint8)) :
    ((∀ a ∈ attrs, a.name.ns = nsXmlns → a.value ≠ []) →
        p.startNamespaces (attrs.map (fun a => (s.formatQName a.name true, a.value)) ++ rest) =
          startNamespaces { p with xmlnsstack := attrs.foldl declareAttr p.xmlnsstack } rest) ∧
      (¬ (∀ a ∈ attrs, a.name.ns = nsXmlns → a.value ≠ []) →
        (p.startNamespaces (attrs.map (fun a => (s.formatQName a.name true, a.value)) ++ rest)).raised = true) := by
  induction attrs generalizing p with
  | nil => exact ⟨fun _ => rfl, fun h => absurd nofun h⟩
  | cons a attrs ih =>
    have ih := ih (fun a ha => hlocal a (List.mem_cons_of_mem _ ha))
      fun a ha => hfound a (List.mem_cons_of_mem _ ha)
    obtain ⟨hdefault, hprefixed⟩ := formatQName_declaration s a.name
    rw [List.map_cons, List.cons_append, List.foldl_cons, List.forall_mem_cons]
    by_cases hxmlns : a.name = qnXmlns
    · have hns : ¬ a.name.ns = nsXmlns := by
        rw [hxmlns]
        decide
      have hdeclare : declareAttr p.xmlnsstack a = p.xmlnsstack.addXmlns [] a.value := if_pos hxmlns
      rw [hdefault hxmlns, startNamespaces_default, hdeclare]
      simp only [hns, false_imp_iff, true_and]
      exact ih { p with xmlnsstack := p.xmlnsstack.addXmlns [] a.value }
    · by_cases hns : a.name.ns = nsXmlns
      · have hdeclare : declareAttr p.xmlnsstack a = p.xmlnsstack.addXmlns a.name.localPart a.value := by
          rw [declareAttr, if_neg hxmlns, if_pos hns]
        rw [hprefixed hns, startNamespaces_prefixed, hdeclare]
        by_cases hvalue : a.value = []
        · simp [hns, hvalue]
        · simp only [hns, hvalue, if_false, ne_eq, not_false_eq_true, forall_const, true_and]
          exact ih { p with xmlnsstack := p.xmlnsstack.addXmlns a.name.localPart a.value }
      · -- the parser would have found the name of a declaration
        have hresolve := resolve_formatQName hnamed (hlocal a List.mem_cons_self) (hfound a List.mem_cons_self)
        have hother : p.startNamespaces ((s.formatQName a.name true, a.value) ::
            (attrs.map (fun a => (s.formatQName a.name true, a.value)) ++ rest)) =
              p.startNamespaces (attrs.map (fun a => (s.formatQName a.name true, a.value)) ++ rest) := by
          refine startNamespaces_other p _ _ (fun heq => hxmlns ?_) fun q heq => hns ?_
          · rw [← hresolve, heq]
            rfl
          · rw [← hresolve, heq, resolveQName_prefixed isNcName_strXmlns.colon_not_mem]
            rfl
        have hdeclare : declareAttr p.xmlnsstack a = p.xmlnsstack := by
          rw [declareAttr, if_neg hxmlns, if_neg hns]
        rw [hother, hdeclare]
        simp only [hns, false_imp_iff, true_and]
        exact ih p

theorem startNamespaces_new {new : List (List Uint8 × List Uint8)} (hnew : ∀ d ∈ new, d.1 ≠ []) (p : XmlParser) :
    ((∀ d ∈ new, d.2 ≠ []) →
        p.startNamespaces (new.map fun d => (declarationName d.1, d.2)) =
          { p with xmlnsstack := { p.xmlnsstack with entries := new.reverse ++ p.xmlnsstack.entries } }) ∧
      (¬ (∀ d ∈ new, d.2 ≠ []) →
        (p.startNamespaces (new.map fun d => (declarationName d.1, d.2))).raised = true) := by
  induction new generalizing p with
  | nil => exact ⟨fun _ => rfl, fun h => absurd nofun h⟩
  | cons d new ih =>
    have ih := ih fun d hd => hnew d (List.mem_cons_of_mem _ hd)
    have hname : declarationName d.1 = strXmlns ++ Lib.Markup.colon :: d.1 := if_neg (hnew d List.mem_cons_self)
    rw [List.map_cons, hname, startNamespaces_prefixed, List.forall_mem_cons]
    by_cases hvalue : d.2 = []
    · simp [hvalue]
    · obtain ⟨hgood, hbad⟩ := ih { p with xmlnsstack := p.xmlnsstack.addXmlns d.1 d.2 }
      simp only [hvalue, if_false, ne_eq, not_false_eq_true, true_and]
      refine ⟨fun h => ?_, hbad⟩
      rw [hgood h, List.reverse_cons, List.append_assoc]
      rfl

end XmlParser

/-! ## Elements that are built -/

theorem buildAttrs_eq {atts : List (List Uint8 × List Uint8)}
    (hatts : (atts.map fun att => (⟨resolveQName s att.1 true, att.2⟩ : Attr)) = attrs)
    (hnonempty : ∀ a ∈ attrs, a.name.localPart ≠ []) (hnodup : (attrs.map Attr.name).Nodup)
    {seen : List QName} (hseen : ∀ a ∈ attrs, a.name ∉ seen) (e : Element) :
    buildAttrs s seen e atts = some { e with attrs := e.attrs ++ attrs } := by
  induction atts generalizing attrs seen e with
  | nil =>
    subst hatts
    rw [buildAttrs, List.map_nil, List.append_nil]
    cases e
    rfl
  | cons att atts ih =>
    subst hatts
    rw [List.map_cons] at hnonempty hnodup hseen ⊢
    rw [List.map_cons, List.nodup_cons] at hnodup
    generalize htail : (atts.map fun att => (⟨resolveQName s att.1 true, att.2⟩ : Attr)) = attrs at *
    have hname : (resolveQName s att.1 true).isEmpty = false :=
      decide_eq_false fun h => hnonempty _ List.mem_cons_self h.2
    have hnew : resolveQName s att.1 true ∉ seen := hseen _ List.mem_cons_self
    have hrest : ∀ seen', (∀ n ∈ seen', n ∈ seen ∨ n = resolveQName s att.1 true) →
        buildAttrs s seen' (e.addAttr (resolveQName s att.1 true) att.2) atts =
          some { e with attrs := e.attrs ++ ⟨resolveQName s att.1 true, att.2⟩ :: attrs } := by
      intro seen' hsub
      have hfresh : ∀ a ∈ attrs, a.name ∉ seen' := by
        intro a ha hmem
        rcases hsub _ hmem with hold | hsame
        · exact hseen a (List.mem_cons_of_mem _ ha) hold
        · exact hnodup.1 (List.mem_map.mpr ⟨a, ha, hsame⟩)
      rw [ih rfl (fun a ha => hnonempty a (List.mem_cons_of_mem _ ha)) hnodup.2 hfresh
        (e.addAttr (resolveQName s att.1 true) att.2)]
      simp [Element.addAttr]
    rw [buildAttrs]
    simp only [hname, Bool.false_eq_true, if_false, if_neg hnew]
    split
    · exact hrest _ fun n hn => (List.mem_cons.mp hn).symm
    · exact hrest _ fun n hn => Or.inl hn

theorem buildElement_enter {name : QName} (h : Entered s name attrs) :
    buildElement (enter s name attrs).1 ((enter s name attrs).1.formatQName name false)
        ((startAtts (enter s name attrs).1 attrs (enter s name attrs).2).map fun a => (a.name, a.value)) =
      some ⟨name, attrs ++ (enter s name attrs).2.map declaration, [], false⟩ := by
  have hname : name.isEmpty = false := decide_eq_false fun hempty => h.localPart.ne_nil hempty.2
  have hatts := h.resolve_startAtts
  unfold buildElement
  rw [h.resolve_name]
  dsimp only
  rw [hname, if_neg Bool.false_ne_true]
  refine (buildAttrs_eq ?_ ?_ h.nodup_names (fun a _ => List.not_mem_nil) { name := name }).trans rfl
  · rw [List.map_map]
    exact hatts
  · intro a ha
    rcases List.mem_append.mp ha with hown | hnew
    · exact (h.localParts a hown).ne_nil
    · obtain ⟨d, hd, rfl⟩ := List.mem_map.mp hnew
      exact ((prefixes_enter s name attrs).named d hd).1.ne_nil

theorem expatStartElement_enter {name : QName} {p : XmlParser} (hraised : p.raised = false)
    (hstack : p.xmlnsstack = s) (h : Entered s name attrs) (hcovers : Covers scope s) :
    (FilledAt (attrs.foldl declareAttr scope) name attrs →
        p.expatStartElement ((enter s name attrs).1.formatQName name false)
            ((startAtts (enter s name attrs).1 attrs (enter s name attrs).2).map fun a => (a.name, a.value)) =
          { p with
            xmlnsstack := (enter s name attrs).1
            root := p.place ⟨name, attrs ++ (enter s name attrs).2.map declaration, [], false⟩
            current := some ((p.current.map (· + 1)).getD 0)
            parents := p.current :: p.parents }) ∧
      (¬ FilledAt (attrs.foldl declareAttr scope) name attrs →
        (p.expatStartElement ((enter s name attrs).1.formatQName name false)
          ((startAtts (enter s name attrs).1 attrs (enter s name attrs).2).map fun a =>
            (a.name, a.value))).raised = true) := by
  obtain ⟨stack, raised, root, current, parents⟩ := p
  dsimp only at hraised hstack
  replace hstack := hstack.symm
  subst hraised hstack
  have hprefixes := prefixes_enter s name attrs
  have hatts : (startAtts (enter s name attrs).1 attrs (enter s name attrs).2).map (fun a => (a.name, a.value)) =
      attrs.map (fun a => ((enter s name attrs).1.formatQName a.name true, a.value)) ++
        (enter s name attrs).2.map fun d => (declarationName d.1, d.2) := by
    rw [startAtts, List.map_append, List.map_map, List.map_map]
    rfl
  have hbuild := buildElement_enter h
  have hfilled := hcovers.filled_iff name attrs
  obtain ⟨hattrs, hattrsError⟩ := XmlParser.startNamespaces_attrs h.named_enter h.localParts
    (fun a ha => hprefixes.resolved (a.name.ns, true) (List.mem_cons_of_mem _ (List.mem_map.mpr ⟨a, ha, rfl⟩)))
    { xmlnsstack := s.pushFrame, root := root, current := current, parents := parents }
    ((enter s name attrs).2.map fun d => (declarationName d.1, d.2))
  obtain ⟨hnew, hnewError⟩ := XmlParser.startNamespaces_new (fun d hd => (hprefixes.named d hd).1.ne_nil)
    { xmlnsstack := attrs.foldl declareAttr s.pushFrame, root := root, current := current, parents := parents }
  rw [hatts] at hbuild ⊢
  unfold XmlParser.expatStartElement FilledAt
  rw [hfilled]
  dsimp only
  rw [if_neg Bool.false_ne_true]
  constructor
  · rintro ⟨hown, hempty⟩
    have hread := (hattrs hown).trans (hnew hempty)
    dsimp only at hread
    rw [← hprefixes.stack] at hread
    rw [hread, if_neg Bool.false_ne_true]
    unfold XmlParser.startElement
    rw [hbuild]
    rfl
  · intro hbad
    have hread : (XmlParser.startNamespaces
        { xmlnsstack := s.pushFrame, root := root, current := current, parents := parents }
        (attrs.map (fun a => ((enter s name attrs).1.formatQName a.name true, a.value)) ++
          (enter s name attrs).2.map fun d => (declarationName d.1, d.2))).raised = true := by
      by_cases hown : ∀ a ∈ attrs, a.name.ns = nsXmlns → a.value ≠ []
      · rw [hattrs hown]
        exact hnewError fun hempty => hbad ⟨hown, hempty⟩
      · exact hattrsError hown
    rw [if_pos hread]
    exact hread

/-! ## The tree that comes back -/

mutual

/-- The tree with the declarations that the printer adds. -/
def declared (s : XmlnsStack) : Element → Element
  | ⟨name, attrs, children, cdata⟩ =>
    ⟨name, attrs ++ (enter s name attrs).2.map declaration, allDeclared (enter s name attrs).1 children, cdata⟩

def allDeclared (s : XmlnsStack) : List Child → List Child
  | [] => []
  | .text t :: children => .text t :: allDeclared s children
  | .element e :: children => .element (declared s e) :: allDeclared s children

end

mutual

theorem extends_declared (s : XmlnsStack) : ∀ e : Element, Extends e (declared s e)
  | ⟨name, attrs, children, cdata⟩ => by
    refine .mk (fun a ha => ?_) (allExtend_allDeclared _ children)
    obtain ⟨d, -, rfl⟩ := List.mem_map.mp ha
    rfl

theorem allExtend_allDeclared (s : XmlnsStack) : ∀ children : List Child,
    AllExtend children (allDeclared s children)
  | [] => .nil
  | .text t :: children => .text t (allExtend_allDeclared s children)
  | .element e :: children => .element (extends_declared s e) (allExtend_allDeclared s children)

end

theorem expatCharacterData_eq {p : XmlParser} (hraised : p.raised = false) {depth : ℕ}
    (hcurrent : p.current = some depth) {t : List Uint8} (ht : t ≠ []) :
    p.expatCharacterData t = { p with root := p.root.bind (Element.atDepth (·.addText t) depth) } := by
  unfold XmlParser.expatCharacterData
  rw [if_neg (by simp [hraised, ht]), hcurrent]

theorem undivided_handle : Undivided XmlParser.handle := by
  have hnone : ∀ p : XmlParser, p.expatCharacterData [] = p := fun p => if_pos (Or.inr rfl)
  refine ⟨hnone, fun p a b => ?_⟩
  change (p.expatCharacterData a).expatCharacterData b = p.expatCharacterData (a ++ b)
  by_cases ha : a = []
  · rw [ha, List.nil_append, hnone]
  by_cases hb : b = []
  · rw [hb, List.append_nil, hnone]
  have hab : a ++ b ≠ [] := by simp [ha]
  cases hraised : p.raised with
  | true =>
    have hsame : ∀ t, p.expatCharacterData t = p := fun t => if_pos (Or.inl hraised)
    rw [hsame, hsame, hsame]
  | false =>
    cases hcurrent : p.current with
    | none =>
      have hsame : ∀ t, p.expatCharacterData t = p := by
        intro t
        unfold XmlParser.expatCharacterData
        rw [hcurrent]
        exact ite_self p
      rw [hsame, hsame, hsame]
    | some depth =>
      rw [expatCharacterData_eq hraised hcurrent ha, expatCharacterData_eq hraised hcurrent hab]
      have hagain : ∀ root, XmlParser.expatCharacterData { p with root := root } b =
          { p with root := root.bind (Element.atDepth (·.addText b) depth) } := fun root =>
        expatCharacterData_eq (p := { p with root := root }) hraised hcurrent hb
      rw [hagain, Element.bind_atDepth]
      simp only [Element.addText_addText _ ha]

theorem bind_place (p : XmlParser) (f : Element → Element) (e : Element) :
    (p.place e).bind (Element.atDepth f ((p.current.map (· + 1)).getD 0)) = p.place (f e) := by
  unfold XmlParser.place
  cases p.current with
  | none => rfl
  | some depth => exact Element.bind_addElement f e depth p.root

theorem foldl_handle_raised {p : XmlParser} (h : p.raised = true) (calls : List Call) :
    calls.foldl XmlParser.handle p = p := by
  induction calls with
  | nil => rfl
  | cons call calls ih =>
    have hcall : p.handle call = p := by
      cases call with
      | startElement name atts => exact if_pos h
      | endElement name => exact if_pos h
      | characterData s => exact if_pos (Or.inl h)
    rw [List.foldl_cons, hcall, ih]

mutual

/-- **The document of a tree is parsed to the tree**. -/
theorem handle_document : ∀ {e : Element} {scope : XmlnsStack} {p : XmlParser}, p.raised = false →
    Covers scope p.xmlnsstack → Named p.xmlnsstack → e.Valid →
      (e.Everywhere FilledAt scope → (document p.xmlnsstack e).calls.foldl XmlParser.handle p =
        { p with root := p.place (declared p.xmlnsstack e).merged }) ∧
      (¬ e.Everywhere FilledAt scope →
        ((document p.xmlnsstack e).calls.foldl XmlParser.handle p).raised = true)
  | ⟨name, attrs, children, cdata⟩, scope, p, hraised, hcovers, hnamed,
      ⟨hcdata, hlocal, hattrs, hnodup, hchildren⟩ => by
    have hentered : Entered p.xmlnsstack name attrs := ⟨hnamed, hlocal, fun a ha => (hattrs a ha).1, hnodup⟩
    obtain ⟨hstart, herror⟩ := expatStartElement_enter hraised rfl hentered hcovers
    have hcalls : (document p.xmlnsstack ⟨name, attrs, children, cdata⟩).calls.foldl XmlParser.handle p =
        ((contentCalls (documents (enter p.xmlnsstack name attrs).1 children)).foldl XmlParser.handle
          (p.expatStartElement ((enter p.xmlnsstack name attrs).1.formatQName name false)
            ((startAtts (enter p.xmlnsstack name attrs).1 attrs (enter p.xmlnsstack name attrs).2).map fun a =>
              (a.name, a.value)))).expatEndElement := by
      rw [document, Node.calls, List.cons_append, List.foldl_cons, List.foldl_append]
      rfl
    have hend : ∀ {p : XmlParser}, p.raised = true → p.expatEndElement = p := fun h => if_pos h
    rw [hcalls, Element.Everywhere]
    by_cases hfilled : FilledAt (attrs.foldl declareAttr scope) name attrs
    · have hinside := hcovers.enter ((hcovers.filled_iff name attrs).mp hfilled.2)
      have hpop := (inside_enter p.xmlnsstack name attrs).popFrame
      have hnamed' := hentered.named_enter
      have hdeclared : (declared p.xmlnsstack ⟨name, attrs, children, cdata⟩).merged =
          Element.mergeOnto ⟨name, attrs ++ (enter p.xmlnsstack name attrs).2.map declaration, [], false⟩
            (allDeclared (enter p.xmlnsstack name attrs).1 children) := by
        rw [declared, Element.merged, hcdata]
      rw [hstart hfilled, hdeclared]
      generalize enter p.xmlnsstack name attrs = r at hinside hpop hnamed' ⊢
      generalize (⟨name, attrs ++ r.2.map declaration, [], false⟩ : Element) = new
      obtain ⟨hgood, hbad⟩ := handle_documents
        (p := { p with
          xmlnsstack := r.1
          root := p.place new
          current := some ((p.current.map (· + 1)).getD 0)
          parents := p.current :: p.parents }) hraised rfl (bind_place p (fun e => e) new) hinside hnamed' hchildren
      refine ⟨fun h => ?_, fun h => ?_⟩
      · rw [hgood h.2]
        dsimp only
        rw [bind_place]
        unfold XmlParser.expatEndElement
        rw [if_neg (by simp [hraised])]
        simp [hpop]
      · have hraised' := hbad fun hall => h ⟨hfilled, hall⟩
        rw [hend hraised']
        exact hraised'
    · have hraised' := herror hfilled
      rw [foldl_handle_raised hraised', hend hraised']
      exact ⟨fun h => absurd h.1 hfilled, fun _ => hraised'⟩

theorem handle_documents : ∀ {children : List Child} {scope : XmlnsStack} {p : XmlParser} {depth : ℕ},
    p.raised = false → p.current = some depth → p.root.bind (Element.atDepth (fun e => e) depth) = p.root →
      Covers scope p.xmlnsstack → Named p.xmlnsstack → AllValid children →
        (EverywhereIn FilledAt scope children →
          (contentCalls (documents p.xmlnsstack children)).foldl XmlParser.handle p =
            { p with
              root := p.root.bind
                (Element.atDepth (fun e => e.mergeOnto (allDeclared p.xmlnsstack children)) depth) }) ∧
        (¬ EverywhereIn FilledAt scope children →
          ((contentCalls (documents p.xmlnsstack children)).foldl XmlParser.handle p).raised = true)
  | [], scope, p, depth, _, _, hplaced, _, _, _ => by
    refine ⟨fun _ => ?_, fun h => absurd trivial h⟩
    have hmerge : (fun e : Element => e.mergeOnto (allDeclared p.xmlnsstack [])) = fun e => e := by
      funext e
      rw [allDeclared, Element.mergeOnto]
    rw [hmerge, hplaced]
    rfl
  | .text t :: children, scope, p, depth, hraised, hcurrent, hplaced, hcovers, hnamed, ⟨_, hchildren⟩ => by
    have hcalls : (contentCalls (documents p.xmlnsstack (.text t :: children))).foldl XmlParser.handle p =
        (contentCalls (documents p.xmlnsstack children)).foldl XmlParser.handle (p.expatCharacterData t) := by
      rw [documents, contentCalls, Node.calls, List.singleton_append, List.foldl_cons]
      rfl
    rw [hcalls, EverywhereIn]
    by_cases ht : t = []
    · have hmerge : (fun e : Element => e.mergeOnto (allDeclared p.xmlnsstack (.text t :: children))) =
          fun e => e.mergeOnto (allDeclared p.xmlnsstack children) := by
        funext e
        rw [allDeclared, Element.mergeOnto, Element.addText, if_pos ht]
      rw [hmerge, show p.expatCharacterData t = p from if_pos (Or.inr ht)]
      exact handle_documents hraised hcurrent hplaced hcovers hnamed hchildren
    · have hmerge : (fun e : Element => e.mergeOnto (allDeclared p.xmlnsstack (.text t :: children))) =
          fun e => (e.addText t).mergeOnto (allDeclared p.xmlnsstack children) := by
        funext e
        rw [allDeclared, Element.mergeOnto]
      obtain ⟨hgood, hbad⟩ := handle_documents
        (p := { p with root := p.root.bind (Element.atDepth (·.addText t) depth) }) hraised hcurrent
        (Element.bind_atDepth _ _ depth p.root) hcovers hnamed hchildren
      rw [expatCharacterData_eq hraised hcurrent ht, hmerge]
      refine ⟨fun h => ?_, hbad⟩
      rw [hgood h, Element.bind_atDepth]
  | .element e :: children, scope, p, depth, hraised, hcurrent, hplaced, hcovers, hnamed, ⟨he, hchildren⟩ => by
    have hcalls : (contentCalls (documents p.xmlnsstack (.element e :: children))).foldl XmlParser.handle p =
        (contentCalls (documents p.xmlnsstack children)).foldl XmlParser.handle
          ((document p.xmlnsstack e).calls.foldl XmlParser.handle p) := by
      rw [documents, contentCalls, List.foldl_append]
    have hplace : ∀ e, p.place e = p.root.bind (Element.atDepth (·.addElement e) depth) := by
      intro e
      unfold XmlParser.place
      rw [hcurrent]
    have hmerge : (fun e' : Element => e'.mergeOnto (allDeclared p.xmlnsstack (.element e :: children))) =
        fun e' => (e'.addElement (declared p.xmlnsstack e).merged).mergeOnto
          (allDeclared p.xmlnsstack children) := by
      funext e'
      rw [allDeclared, Element.mergeOnto]
    obtain ⟨hfirst, hfirstError⟩ := handle_document hraised hcovers hnamed he
    rw [hcalls, EverywhereIn, hmerge]
    by_cases hfilled : e.Everywhere FilledAt scope
    · obtain ⟨hgood, hbad⟩ := handle_documents
        (p := { p with root := p.root.bind (Element.atDepth (·.addElement (declared p.xmlnsstack e).merged) depth) })
        hraised hcurrent (Element.bind_atDepth _ _ depth p.root) hcovers hnamed hchildren
      rw [hfirst hfilled, hplace]
      refine ⟨fun h => ?_, fun h => hbad fun hall => h ⟨hfilled, hall⟩⟩
      rw [hgood h.2, Element.bind_atDepth]
    · have hraised' := hfirstError hfilled
      rw [foldl_handle_raised hraised']
      exact ⟨fun h => absurd h.1 hfilled, fun _ => hraised'⟩

end

/-! ## The round trip -/

def Element.Plain (e : Element) : Prop := e.Everywhere PlainAt {}

/-- The namespaces that need a prefix are not empty. -/
def Element.Filled (e : Element) : Prop := e.Everywhere FilledAt {}

theorem covers_empty : Covers {} {} := ⟨.refl _, fun _ => Or.inl⟩

theorem castInt_of_lt {n : ℕ} (h : n < 2 ^ 31) : castInt n = n := by
  rw [castInt, BitVec.toInt_eq_toNat_of_lt]
  · rw [BitVec.toNat_ofNat, Nat.mod_eq_of_lt (by omega)]
  · rw [BitVec.toNat_ofNat]
    omega

theorem forStr_str {expat : Expat} (hexpat : Tokenises fun s => expat s s.length) {e : Element}
    (hvalid : e.Valid) (hplain : e.Plain) (hlen : e.str.length < 2 ^ 31) :
    (e.Filled → forStr expat e.str = some (declared {} e).merged) ∧
      (¬ e.Filled → forStr expat e.str = none) := by
  have hnamed : Named {} := nofun
  have hwrite : (document {} e).write = e.str := write_document {} e hvalid
  have hwell := wellFormed_document (.refl {}) hnamed hvalid hplain
  obtain ⟨hok, hcalls⟩ : (expat e.str e.str.length).1 = true ∧
      joined (expat e.str e.str.length).2 = joined (document {} e).calls := by
    rw [← hwrite]
    cases e
    exact hexpat _ _ _ hwell
  obtain ⟨hgood, hbad⟩ := handle_document (e := e) (p := {}) rfl covers_empty hnamed hvalid
  unfold forStr
  rw [castInt_of_lt hlen]
  dsimp only
  rw [← foldl_joined undivided_handle, hcalls, foldl_joined undivided_handle, hok]
  constructor
  · intro h
    rw [hgood h]
    rfl
  · intro h
    rw [if_neg]
    simp [hbad h]

/-- **The round trip.** A tree comes back if it is plain and filled, and no other plain tree
does. -/
theorem roundTrips {expat : Expat} (hexpat : Tokenises fun s => expat s s.length) {e : Element} (hvalid : e.Valid) :
    (e.Plain ∧ e.Filled ∧ e.str.length < 2 ^ 31 → RoundTrips expat e) ∧
      (e.Plain ∧ e.str.length < 2 ^ 31 → RoundTrips expat e → e.Filled) := by
  constructor
  · rintro ⟨hplain, hfilled, hlen⟩
    exact ⟨_, (forStr_str hexpat hvalid hplain hlen).1 hfilled, _, extends_declared {} e, rfl⟩
  · rintro ⟨hplain, hlen⟩ ⟨e', he', -⟩
    by_contra hfilled
    rw [(forStr_str hexpat hvalid hplain hlen).2 hfilled] at he'
    cases he'

def exampleExpat : Expat := fun s len => if len = s.length then tokenise s else (false, [])

theorem tokenises_exampleExpat : Tokenises fun s => exampleExpat s s.length := by
  have heq : (fun s => exampleExpat s s.length) = tokenise := funext fun s => if_pos rfl
  rw [heq]
  exact tokenises_tokenise

def exampleTree : Element where
  name := ⟨[0x75], [0x61]⟩
  attrs := [⟨⟨[0x75], [0x62]⟩, [0x3C, 0x22]⟩]
  children := [.text [0x26], .text [0x3E], .element { name := ⟨[0x75], [0x63]⟩ }]

theorem isNcName_letter {b : Uint8} (h : inRanges nameStartRanges b.toNat) (hascii : b.toNat < 0x80) :
    IsNcName [b] := isNcName_ascii h hascii nofun

theorem exampleTree_valid : exampleTree.Valid := by
  have hletter : ∀ b ∈ [(0x61 : Uint8), 0x62, 0x63], IsNcName [b] := by
    intro b hb
    fin_cases hb <;> exact isNcName_letter (by decide) (by decide)
  exact ⟨rfl, hletter _ (by decide), by simpa [exampleTree] using ⟨hletter 0x62 (by decide),
    carried_ascii (by decide) (by decide)⟩, by decide, carried_ascii (by decide) (by decide),
      carried_ascii (by decide) (by decide), ⟨rfl, hletter _ (by decide), nofun, by decide, trivial⟩, trivial⟩

theorem exampleTree_uses : (∀ use ∈ uses exampleTree.name exampleTree.attrs, use.1 = [0x75]) ∧
    ∀ use ∈ uses ⟨[0x75], [0x63]⟩ [], use.1 = [0x75] := by decide

theorem exampleTree_plain : exampleTree.Plain := by
  have hplain : ∀ ns : List Uint8, ns = [0x75] → CarriedValue ns ∧ ∀ b ∈ ns, b ∉ specialValue := by
    rintro _ rfl
    exact ⟨carried_ascii (by decide) (by decide), by decide⟩
  obtain ⟨hroot, hchild⟩ := exampleTree_uses
  exact ⟨fun use huse _ => hplain _ (hroot use huse), ⟨fun use huse _ => hplain _ (hchild use huse), trivial⟩, trivial⟩

/-- **What is printed of a valid tree is a well-formed document.** -/
theorem str_wellFormed {e : Element} (hvalid : e.Valid) (hplain : e.Plain) :
    ∃ d : Node, d.WellFormed ∧ d.write = e.str := by
  have hnamed : Named {} := fun _ h => absurd h List.not_mem_nil
  exact ⟨document {} e, wellFormed_document (.refl {}) hnamed hvalid hplain, write_document {} e hvalid⟩

theorem str_wellFormed_tree : ∃ d : Node, d.WellFormed ∧ d.write = exampleTree.str :=
  str_wellFormed exampleTree_valid exampleTree_plain

theorem roundTrips_exampleTree : RoundTrips exampleExpat exampleTree := by
  have hfilled : ∀ ns : List Uint8, ns = [0x75] → ns ≠ [] := by
    rintro _ rfl
    exact List.cons_ne_nil _ _
  obtain ⟨hroot, hchild⟩ := exampleTree_uses
  refine (roundTrips tokenises_exampleExpat exampleTree_valid).1 ⟨exampleTree_plain, ?_, by decide⟩
  exact ⟨⟨by decide, fun use huse _ => hfilled _ (hroot use huse)⟩,
    ⟨⟨nofun, fun use huse _ => hfilled _ (hchild use huse)⟩, trivial⟩, trivial⟩

def emptyInside : Element where
  name := ⟨[0x75], [0x61]⟩
  attrs := [⟨qnXmlns, [0x75]⟩]
  children := [.element { name := ⟨[], [0x62]⟩ }]

def ampersand : Element := { name := ⟨[0x26, 0x61, 0x6D, 0x70, 0x3B], [0x61]⟩ }

theorem name_mergeOnto (e : Element) (children : List Child) : (e.mergeOnto children).name = e.name := by
  induction children generalizing e with
  | nil => rw [Element.mergeOnto]
  | cons child children ih =>
    cases child with
    | text t => rw [Element.mergeOnto, ih, (Element.addText_keeps e t).1]
    | element child =>
      rw [Element.mergeOnto, ih]
      rfl

theorem Agrees.name {e e' : Element} (h : Agrees e e') : e'.name = e.name := by
  obtain ⟨extended, hextends, rfl⟩ := h
  cases hextends
  rw [Element.merged, name_mergeOnto]

/-- **Trees that do not come back.** -/
theorem namespaces_lost :
    Tokenises (fun s => exampleExpat s s.length) ∧
      (emptyInside.Valid ∧ ¬ RoundTrips exampleExpat emptyInside) ∧
        ampersand.Valid ∧ ¬ RoundTrips exampleExpat ampersand := by
  have hletter : ∀ b ∈ [(0x61 : Uint8), 0x62], IsNcName [b] := by
    intro b hb
    fin_cases hb <;> exact isNcName_letter (by decide) (by decide)
  have hamp : (forStr exampleExpat ampersand.str).map Element.name = some ⟨[0x26], [0x61]⟩ := by decide
  have hvalid : emptyInside.Valid :=
    ⟨rfl, hletter _ (by decide), List.forall_mem_singleton.mpr ⟨isNcName_strXmlns,
      carried_ascii (by decide) (by decide)⟩, List.nodup_singleton _,
        ⟨rfl, hletter _ (by decide), nofun, List.nodup_nil, trivial⟩, trivial⟩
  refine ⟨tokenises_exampleExpat, ⟨hvalid, ?_⟩, ?_, ?_⟩
  · have huses : ∀ use ∈ uses ⟨[0x75], [0x61]⟩ [⟨qnXmlns, [0x75]⟩], use.1 = [0x75] ∨ use.1 = [] := by decide
    have hcarried : ∀ ns : List Uint8, ns = [0x75] ∨ ns = [] → CarriedValue ns ∧ ∀ b ∈ ns, b ∉ specialValue := by
      rintro _ (rfl | rfl) <;> exact ⟨carried_ascii (by decide) (by decide), by decide⟩
    have hplain : emptyInside.Plain :=
      ⟨fun use huse _ => hcarried _ (huses use huse),
        ⟨fun use huse _ => hcarried _ (Or.inr (List.mem_singleton.mp huse ▸ rfl)), trivial⟩, trivial⟩
    have hempty : ¬ emptyInside.Filled := fun h => h.2.1.1.2 ([], false) List.mem_cons_self (by decide) rfl
    rintro ⟨e', he', -⟩
    rw [(forStr_str tokenises_exampleExpat hvalid hplain (by decide)).2 hempty] at he'
    cases he'
  · exact ⟨rfl, hletter _ (by decide), nofun, List.nodup_nil, trivial⟩
  · rintro ⟨e', he', hagrees⟩
    rw [he', Option.map_some, Option.some_inj, hagrees.name] at hamp
    exact absurd hamp (by decide)

end Libjingle.Xml
