import Libjingle.Xml.Parser
import Libjingle.Xml.Scope

/-!
# The document that is printed for a tree

Main results: **`write_document`**, **`resolve_formatQName`**, **`wellFormed_document`**.
-/

variable {p : List Uint8} {name : QName} {attrs : List Attr}

namespace Libjingle.Xml

open Lib.Markup

/-! ## Trees -/

mutual

def Element.Valid : Element → Prop
  | ⟨name, attrs, children, cdata⟩ =>
    cdata = false ∧ IsNcName name.localPart ∧
      (∀ a ∈ attrs, IsNcName a.name.localPart ∧ CarriedValue a.value) ∧ (attrs.map Attr.name).Nodup ∧
        AllValid children

def AllValid : List Child → Prop
  | [] => True
  | .text t :: children => CarriedText t ∧ AllValid children
  | .element e :: children => e.Valid ∧ AllValid children

end

/-! ## Conditions at every element -/

mutual

def Element.Everywhere (P : XmlnsStack → QName → List Attr → Prop) (scope : XmlnsStack) : Element → Prop
  | ⟨name, attrs, children, _⟩ =>
    P (attrs.foldl declareAttr scope) name attrs ∧
      EverywhereIn P (attrs.foldl declareAttr scope) children

def EverywhereIn (P : XmlnsStack → QName → List Attr → Prop) (scope : XmlnsStack) : List Child → Prop
  | [] => True
  | .text _ :: children => EverywhereIn P scope children
  | .element e :: children => e.Everywhere P scope ∧ EverywhereIn P scope children

end

def PlainAt (scope : XmlnsStack) (name : QName) (attrs : List Attr) : Prop :=
  ∀ use ∈ uses name attrs, scope.prefixForNs use.1 use.2 = none →
    CarriedValue use.1 ∧ ∀ b ∈ use.1, b ∉ specialValue

/-- A namespace without a prefix is not empty. -/
def FilledAt (scope : XmlnsStack) (name : QName) (attrs : List Attr) : Prop :=
  (∀ a ∈ attrs, a.name.ns = nsXmlns → a.value ≠ []) ∧
    ∀ use ∈ uses name attrs, scope.prefixForNs use.1 use.2 = none → use.1 ≠ []

/-! ## The document -/

def declarationName (p : List Uint8) : List Uint8 := if p = [] then strXmlns else strXmlns ++ Lib.Markup.colon :: p

/-- The attributes of a start tag. -/
def startAtts (s : XmlnsStack) (attrs : List Attr) (new : List (List Uint8 × List Uint8)) : List Attribute :=
  attrs.map (fun a => ⟨s.formatQName a.name true, a.value, printQuotedValue a.value⟩) ++
    new.map fun d => ⟨declarationName d.1, d.2, d.2⟩

mutual

/-- The document that is printed for an element. -/
def document (s : XmlnsStack) : Element → Node
  | ⟨name, attrs, children, _⟩ =>
    .element ((enter s name attrs).1.formatQName name false)
      (startAtts (enter s name attrs).1 attrs (enter s name attrs).2) (documents (enter s name attrs).1 children)

def documents (s : XmlnsStack) : List Child → List Node
  | [] => []
  | .text t :: children => .data t (printBodyText t) :: documents s children
  | .element e :: children => document s e :: documents s children

end

theorem write_startAtts (s : XmlnsStack) (attrs : List Attr) (new : List (List Uint8 × List Uint8)) :
    (startAtts s attrs new).flatMap Attribute.write =
      attrs.flatMap (printAttr s) ++ new.flatMap printDeclaration := by
  rw [startAtts, List.flatMap_append, List.flatMap_map, List.flatMap_map]
  congr 1
  · refine List.flatMap_congr fun a _ => ?_
    rw [Attribute.write, printAttr]
    simp [text]
  · refine List.flatMap_congr fun d _ => ?_
    rw [Attribute.write, printDeclaration, declarationName]
    split
    · rfl
    · simp [text, Lib.Markup.colon, strXmlns]

mutual

/-- **What is printed is a document**. -/
theorem write_document (s : XmlnsStack) : ∀ e : Element, e.Valid → (document s e).write = (printElement s e).1
  | ⟨name, attrs, children, cdata⟩, ⟨hcdata, _, _, _, hchildren⟩ => by
    have hcontent := write_documents (enter s name attrs).1 children hchildren
    have hempty : (documents (enter s name attrs).1 children).isEmpty = children.isEmpty := by
      cases children with
      | nil => rfl
      | cons child children => cases child <;> rfl
    rw [document, Node.write, printElement, hempty, hcontent, hcdata]
    dsimp only
    rw [stack_printChildren, writeStart, writeEnd, write_startAtts]
    split
    · simp [text]
    · simp [text]

theorem write_documents (s : XmlnsStack) : ∀ children : List Child, AllValid children →
    writeContent (documents s children) = (printChildren s false children).1
  | [], _ => rfl
  | .text t :: children, ⟨_, hchildren⟩ => by
    rw [documents, writeContent, write_documents s children hchildren]
    rfl
  | .element e :: children, ⟨he, hchildren⟩ => by
    rw [documents, writeContent, write_document s e he, write_documents s children hchildren, printChildren]
    dsimp only
    rw [stack_printElement]

end

/-! ## Values and names as they are printed -/

theorem written_printQuotedValue (s : List Uint8) : Written specialValue s (printQuotedValue s) := by
  induction s with
  | nil => exact .nil
  | cons b s ih =>
    rw [printQuotedValue, List.flatMap_cons]
    split_ifs with hlt hgt hamp hquot
    · rw [hlt]
      exact .reference (r := (0x3C, [0x6C, 0x74])) (by decide) ih
    · rw [hgt]
      exact .reference (r := (0x3E, [0x67, 0x74])) (by decide) ih
    · rw [hamp]
      exact .reference (r := (0x26, [0x61, 0x6D, 0x70])) (by decide) ih
    · rw [hquot]
      exact .reference (r := (0x22, [0x71, 0x75, 0x6F, 0x74])) (by decide) ih
    · refine .plain (fun hmem => ?_) ih
      simp only [specialValue, List.mem_cons, List.not_mem_nil, or_false] at hmem
      tauto

theorem written_printBodyText (s : List Uint8) : Written specialText s (printBodyText s) := by
  induction s with
  | nil => exact .nil
  | cons b s ih =>
    rw [printBodyText, List.flatMap_cons]
    split_ifs with hlt hgt hamp
    · rw [hlt]
      exact .reference (r := (0x3C, [0x6C, 0x74])) (by decide) ih
    · rw [hgt]
      exact .reference (r := (0x3E, [0x67, 0x74])) (by decide) ih
    · rw [hamp]
      exact .reference (r := (0x26, [0x61, 0x6D, 0x70])) (by decide) ih
    · refine .plain (fun hmem => ?_) ih
      simp only [specialText, List.mem_cons, List.not_mem_nil, or_false] at hmem
      tauto

theorem isNcName_strXml : IsNcName strXml := isNcName_ascii (by decide) (by decide) (by decide)

theorem isNcName_strXmlns : IsNcName strXmlns := isNcName_ascii (by decide) (by decide) (by decide)

variable {s s' scope : XmlnsStack}

theorem Named.prefixForNs (h : Named s) {ns : List Uint8} {isAttr : Bool}
    (hfound : s.prefixForNs ns isAttr = some p) : p = [] ∨ IsNcName p := by
  unfold XmlnsStack.prefixForNs at hfound
  split_ifs at hfound
  · exact Or.inr (Option.some_inj.mp hfound ▸ isNcName_strXml)
  · exact Or.inr (Option.some_inj.mp hfound ▸ isNcName_strXmlns)
  · exact Or.inl (Option.some_inj.mp hfound).symm
  · obtain ⟨e, hfind, rfl⟩ := Option.map_eq_some_iff.mp hfound
    exact h e (List.mem_of_find?_eq_some hfind)

theorem formatQName_eq {isAttr : Bool} (hfound : s.prefixForNs name.ns isAttr = some p) :
    s.formatQName name isAttr = if p = [] then name.localPart else p ++ Lib.Markup.colon :: name.localPart := by
  unfold XmlnsStack.formatQName
  rw [hfound]
  rfl

theorem isName_formatQName (h : Named s) (hlocal : IsNcName name.localPart) (isAttr : Bool) :
    IsName (s.formatQName name isAttr) := by
  cases hfound : s.prefixForNs name.ns isAttr with
  | none =>
    unfold XmlnsStack.formatQName
    rw [hfound]
    exact Or.inl hlocal
  | some p =>
    rw [formatQName_eq hfound]
    split
    · exact Or.inl hlocal
    · rename_i hp
      exact Or.inr ⟨p, _, (h.prefixForNs hfound).resolve_left hp, hlocal, rfl⟩

theorem resolveQName_prefixed (hp : Lib.Markup.colon ∉ p) (l : List Uint8) (isAttr : Bool) :
    resolveQName s (p ++ Lib.Markup.colon :: l) isAttr =
      ((s.nsForPrefix p).map fun ns => ⟨ns, l⟩).getD ⟨[], []⟩ := by
  have hnot : ∀ b ∈ p, decide (b ≠ Lib.Markup.colon) = true := fun b hb => decide_eq_true fun h => hp (h ▸ hb)
  have htake : (p ++ Lib.Markup.colon :: l).takeWhile (fun b => decide (b ≠ Lib.Markup.colon)) = p := by
    rw [List.takeWhile_append_of_pos hnot]
    simp
  have hdrop : (p ++ Lib.Markup.colon :: l).dropWhile (fun b => decide (b ≠ Lib.Markup.colon)) = Lib.Markup.colon :: l := by
    rw [List.dropWhile_append_of_pos hnot]
    simp
  rw [resolveQName, if_pos (List.contains_iff_mem.mpr (List.mem_append_right _ List.mem_cons_self)), htake, hdrop, List.tail_cons]
  cases s.nsForPrefix p <;> rfl

/-- A name that was printed is resolved to itself. -/
theorem resolve_formatQName (h : Named s) (hlocal : IsNcName name.localPart) {isAttr : Bool}
    (hfound : s.prefixForNs name.ns isAttr ≠ none) :
    resolveQName s (s.formatQName name isAttr) isAttr = name := by
  obtain ⟨p, hp⟩ := Option.ne_none_iff_exists'.mp hfound
  obtain ⟨ns, l⟩ := name
  rw [formatQName_eq hp]
  obtain ⟨rfl, hfree⟩ | ⟨hne, hstands⟩ := XmlnsStack.matches_of_prefixForNs hp
  · rw [if_pos rfl, resolveQName, if_neg (mt List.contains_iff_mem.mp hlocal.colon_not_mem)]
    unfold XmlnsStack.unprefixed at hfree
    cases isAttr with
    | true =>
      obtain rfl : ns = [] := by simpa using hfree
      rfl
    | false =>
      have hstands : s.nsForPrefix [] = some ns :=
        XmlnsStack.prefixMatchesNs_iff.mp (by simpa using hfree)
      simp only [Bool.false_eq_true, if_false, hstands]
  · have hname := (h.prefixForNs hp).resolve_left hne
    rw [if_neg hne, resolveQName_prefixed hname.colon_not_mem]
    simp only at hstands
    rw [hstands]
    rfl

theorem resolve_declarationName (hp : p ≠ []) : resolveQName s (declarationName p) true = ⟨nsXmlns, p⟩ := by
  rw [declarationName, if_neg hp, resolveQName_prefixed isNcName_strXmlns.colon_not_mem]
  rfl

/-! ## The names of a start tag -/

def declaration (d : List Uint8 × List Uint8) : Attr := ⟨⟨nsXmlns, d.1⟩, d.2⟩

theorem Named.addXmlns (h : Named s) (hp : p = [] ∨ IsNcName p) (ns : List Uint8) : Named (s.addXmlns p ns) := by
  intro e he
  rcases List.mem_cons.mp he with rfl | he
  · exact hp
  · exact h e he

theorem Named.declareAttrs (h : Named s) (hattrs : ∀ a ∈ attrs, IsNcName a.name.localPart) :
    Named (attrs.foldl declareAttr s) := by
  induction attrs generalizing s with
  | nil => exact h
  | cons a attrs ih =>
    refine ih ?_ fun a ha => hattrs a (List.mem_cons_of_mem _ ha)
    unfold declareAttr
    split
    · exact h.addXmlns (Or.inl rfl) _
    · split
      · exact h.addXmlns (Or.inr (hattrs a List.mem_cons_self)) _
      · exact h

theorem entries_declareAttrs (attrs : List Attr) : ∀ e ∈ s.entries, e ∈ (attrs.foldl declareAttr s).entries := by
  induction attrs generalizing s with
  | nil => exact fun _ => id
  | cons a attrs ih =>
    refine fun e he => ih e ?_
    unfold declareAttr
    split
    · exact List.mem_cons_of_mem _ he
    · split
      · exact List.mem_cons_of_mem _ he
      · exact he

theorem bound_declareAttrs (hxml : startsWithXml p = false)
    (h : ∃ a ∈ attrs, a.name = ⟨nsXmlns, p⟩) : (attrs.foldl declareAttr s).nsForPrefix p ≠ none := by
  obtain ⟨a, ha, hname⟩ := h
  have hmem : (p, a.value) ∈ (attrs.foldl declareAttr s).entries := by
    obtain ⟨before, after, rfl⟩ := List.append_of_mem ha
    rw [List.foldl_append, List.foldl_cons]
    refine entries_declareAttrs after _ ?_
    have hne : (⟨nsXmlns, p⟩ : QName) ≠ qnXmlns := by
      intro heq
      exact absurd (congrArg QName.ns heq) (show nsXmlns ≠ [] by decide)
    rw [declareAttr, hname, if_neg hne, if_pos rfl]
    exact List.mem_cons_self
  obtain ⟨ns, hns⟩ := isSome_nsForPrefix hmem hxml
  rw [hns]
  exact Option.some_ne_none ns

section Tag

variable {name : QName} {attrs : List Attr}

/-- An element that is entered: the names are valid, and the prefixes are names. -/
structure Entered (s : XmlnsStack) (name : QName) (attrs : List Attr) : Prop where
  named : Named s
  localPart : IsNcName name.localPart
  localParts : ∀ a ∈ attrs, IsNcName a.name.localPart
  nodup : (attrs.map Attr.name).Nodup

theorem prefixes_enter (s : XmlnsStack) (name : QName) (attrs : List Attr) :
    Prefixes (attrs.foldl declareAttr s.pushFrame) (uses name attrs) (enter s name attrs) :=
  addPrefixes_spec _ name attrs

namespace Entered

variable (h : Entered s name attrs)
include h

theorem named_enter : Named (enter s name attrs).1 := by
  have hprefixes := prefixes_enter s name attrs
  have hdeclared : Named (attrs.foldl declareAttr s.pushFrame) :=
    Named.declareAttrs (s := s.pushFrame) h.named h.localParts
  intro e he
  rw [hprefixes.stack] at he
  rcases List.mem_append.mp he with hnew | hold
  · exact Or.inr (hprefixes.named e (List.mem_reverse.mp hnew)).1
  · exact hdeclared e hold

theorem resolve_name :
    resolveQName (enter s name attrs).1 ((enter s name attrs).1.formatQName name false) false = name :=
  resolve_formatQName h.named_enter h.localPart
    ((prefixes_enter s name attrs).resolved (name.ns, false) List.mem_cons_self)

theorem resolve_startAtts :
    ((startAtts (enter s name attrs).1 attrs (enter s name attrs).2).map fun att =>
      (⟨resolveQName (enter s name attrs).1 att.name true, att.value⟩ : Attr)) =
        attrs ++ (enter s name attrs).2.map declaration := by
  have hprefixes := prefixes_enter s name attrs
  rw [startAtts, List.map_append, List.map_map, List.map_map]
  congr 1
  · refine (List.map_congr_left fun a ha => ?_).trans (List.map_id _)
    have hfound := hprefixes.resolved (a.name.ns, true)
      (List.mem_cons_of_mem _ (List.mem_map.mpr ⟨a, ha, rfl⟩))
    have hresolve := resolve_formatQName h.named_enter (h.localParts a ha) hfound
    simp only [Function.comp_apply, hresolve, id_eq]
  · refine List.map_congr_left fun d hd => ?_
    simp only [Function.comp_apply, resolve_declarationName (hprefixes.named d hd).1.ne_nil]
    rfl

theorem nodup_names : ((attrs ++ (enter s name attrs).2.map declaration).map Attr.name).Nodup := by
  have hprefixes := prefixes_enter s name attrs
  rw [List.map_append, List.nodup_append]
  refine ⟨h.nodup, ?_, ?_⟩
  · have hmap : ((enter s name attrs).2.map declaration).map Attr.name =
        ((enter s name attrs).2.map Prod.fst).map fun p => ⟨nsXmlns, p⟩ := by
      rw [List.map_map, List.map_map]
      rfl
    rw [hmap]
    exact hprefixes.nodup.map fun p q heq => congrArg QName.localPart heq
  · rintro n hn n' hn' rfl
    obtain ⟨a, ha, rfl⟩ := List.mem_map.mp hn
    obtain ⟨d', hd', heq⟩ := List.mem_map.mp hn'
    obtain ⟨d, hd, rfl⟩ := List.mem_map.mp hd'
    exact bound_declareAttrs (hprefixes.named d hd).2 ⟨a, ha, heq.symm⟩ (hprefixes.fresh d hd)

end Entered

end Tag

/-! ## The document is well formed -/

theorem Entered.wellFormed_startAtts (h : Entered s name attrs)
    (hvalues : ∀ a ∈ attrs, CarriedValue a.value) (hincludes : Includes scope s)
    (hplain : PlainAt (attrs.foldl declareAttr scope) name attrs) :
    (∀ a ∈ startAtts (enter s name attrs).1 attrs (enter s name attrs).2, a.WellFormed) ∧
      ((startAtts (enter s name attrs).1 attrs (enter s name attrs).2).map Attribute.name).Nodup := by
  have hprefixes := prefixes_enter s name attrs
  have hpushed : Includes scope s.pushFrame := ⟨hincludes.stands, hincludes.entries⟩
  have hscope : Includes (attrs.foldl declareAttr scope) (attrs.foldl declareAttr s.pushFrame) :=
    hpushed.declareAttrs attrs
  constructor
  · intro att hatt
    rcases List.mem_append.mp hatt with hown | hnew
    · obtain ⟨a, ha, rfl⟩ := List.mem_map.mp hown
      exact ⟨isName_formatQName h.named_enter (h.localParts a ha) true, hvalues a ha,
        written_printQuotedValue a.value⟩
    · obtain ⟨d, hd, rfl⟩ := List.mem_map.mp hnew
      have hname := (hprefixes.named d hd).1
      obtain ⟨use, huse, hns, hnone⟩ := hprefixes.needed d hd
      obtain ⟨hcarried, hwritten⟩ := hplain use huse (hscope.prefixForNs hnone)
      rw [hns] at hcarried hwritten
      refine ⟨?_, hcarried, .self hwritten⟩
      rw [declarationName, if_neg hname.ne_nil]
      exact Or.inr ⟨_, _, isNcName_strXmlns, hname, rfl⟩
  · -- names that are found different are different
    refine List.Nodup.of_map (fun n => resolveQName (enter s name attrs).1 n true) ?_
    have hnames := h.nodup_names
    rw [← h.resolve_startAtts, List.map_map] at hnames
    rw [List.map_map]
    exact hnames

mutual

/-- **The document of a valid tree is well formed** if its namespaces are plain. -/
theorem wellFormed_document : ∀ {e : Element} {s scope : XmlnsStack}, Includes scope s → Named s → e.Valid →
    e.Everywhere PlainAt scope → (document s e).WellFormed
  | ⟨name, attrs, children, cdata⟩, s, scope, hincludes, hnamed, ⟨_, hlocal, hattrs, hnodup, hchildren⟩,
      ⟨hplain, hall⟩ => by
    have hentered : Entered s name attrs := ⟨hnamed, hlocal, fun a ha => (hattrs a ha).1, hnodup⟩
    obtain ⟨hatts, hnames⟩ :=
      hentered.wellFormed_startAtts (fun a ha => (hattrs a ha).2) hincludes hplain
    have hpushed : Includes scope s.pushFrame := ⟨hincludes.stands, hincludes.entries⟩
    have hinside : Includes (attrs.foldl declareAttr scope) (enter s name attrs).1 :=
      (hpushed.declareAttrs attrs).trans (prefixes_enter s name attrs).includes
    exact ⟨isName_formatQName hentered.named_enter hlocal false, hatts, hnames,
      wellFormed_documents hinside hentered.named_enter hchildren hall⟩

theorem wellFormed_documents : ∀ {children : List Child} {s scope : XmlnsStack}, Includes scope s → Named s →
    AllValid children → EverywhereIn PlainAt scope children → ContentWellFormed (documents s children)
  | [], _, _, _, _, _, _ => trivial
  | .text t :: _, _, _, hincludes, hnamed, ⟨htext, hchildren⟩, hall =>
    ⟨⟨htext, written_printBodyText t⟩, wellFormed_documents hincludes hnamed hchildren hall⟩
  | .element _ :: _, _, _, hincludes, hnamed, ⟨he, hchildren⟩, ⟨hplain, hall⟩ =>
    ⟨wellFormed_document hincludes hnamed he hplain, wellFormed_documents hincludes hnamed hchildren hall⟩

end

end Libjingle.Xml
