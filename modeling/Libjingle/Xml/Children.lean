import Mathlib.Data.List.TakeWhile
import Libjingle.Xml.Nodes

/-!
# The children of an element (`xmllite/xmlelement.{h,cc}`)

The functions of an element refine the functions of lists, as long as no child is inserted behind the
last one.

Main result: **`children_models`**.
-/

namespace Libjingle.Xml

open Lib

/-! ## Pointers and lists -/

section Refinement

variable {ε : Type}

/-- A child of the model of pointers stands for one of the tree. -/
inductive Stands (R : ε → Element → Prop) : XmlChild ε → Child → Prop
  | text (s : List Uint8) : Stands R (.text s) (.text s)
  | element {e : ε} {t : Element} (h : R e t) : Stands R (.element e) (.element t)

/-- The pointers are those of the lists. -/
structure Models (R : ε → Element → Prop) (x : XmlElement ε) (l : Lists) : Prop where
  name : x.name = l.name
  cdata : x.cdata = l.cdata
  attrs : x.attrs.Holds Eq l.attrs
  children : x.children.Holds (Stands R) l.children

/-- The functions of elements inside are those of their trees. -/
structure Inner.Lawful (inner : Inner ε) (R : ε → Element → Prop) : Prop where
  name : ∀ {e t}, R e t → inner.name e = t.name
  copy : ∀ {e t}, R e t → ∃ e', inner.copy e = some e' ∧ R e' t

variable {R : ε → Element → Prop} {inner : Inner ε} {x : XmlElement ε} {l : Lists}

theorem models_new (name : QName) : Models R { name := name } { name := name } where
  name := rfl
  cdata := rfl
  attrs := Chain.holds_empty
  children := Chain.holds_empty

/-! ### Attributes -/

theorem Models.withAttrs (h : Models R x l) {attrs : Chain Attr} {row : Row Attr} (hrow : attrs.Holds Eq row) :
    Models R { x with attrs := attrs } { l with attrs := row } := { h with attrs := hrow }

theorem Models.addAttr (h : Models R x l) (name : QName) (value : List Uint8) :
    ∃ x', x.addAttr name value = some x' ∧ Models R x' (l.addAttr name value) := by
  obtain ⟨attrs, happend, hrow⟩ := h.attrs.append (rfl : (⟨name, value⟩ : Attr) = ⟨name, value⟩)
  exact ⟨_, congrArg (Option.map _) happend, h.withAttrs hrow⟩

theorem Models.search (h : Models R x l) (name : QName) :
    x.attrs.search (fun a => a.name = name) x.attrs.fresh none x.attrs.first =
      some (Row.tail (l.attrs.entries.takeWhile fun e => !decide (e.2.name = name)),
        (l.attrs.entries.dropWhile fun e => !decide (e.2.name = name)).head?.map Prod.fst) :=
  h.attrs.toThreaded.search fun w v heq => by rw [heq]

theorem Lists.hasAttr_iff (name : QName) :
    l.hasAttr name = true ↔ (l.attrs.entries.dropWhile fun e => !decide (e.2.name = name)) ≠ [] := by
  rw [Lists.hasAttr, List.any_eq_true, Ne, List.dropWhile_eq_nil_iff]
  simp

theorem Models.setAttr (h : Models R x l) (name : QName) (value : List Uint8) :
    ∃ x', x.setAttr name value = some x' ∧ Models R x' (l.setAttr name value) := by
  have hcut := List.takeWhile_append_dropWhile (p := fun e : ℕ × Attr => !decide (e.2.name = name))
    (l := l.attrs.entries)
  have hhas := l.hasAttr_iff name
  rw [XmlElement.setAttr, h.search name, Option.bind_eq_bind, Option.bind_some]
  cases hdrop : l.attrs.entries.dropWhile fun e => !decide (e.2.name = name) with
  | nil =>
    rw [hdrop] at hhas
    rw [Lists.setAttr, if_neg fun hany => hhas.mp hany rfl]
    exact h.addAttr name value
  | cons e rest =>
    rw [hdrop] at hhas hcut
    have hset := h.attrs.setValue hcut.symm (f := fun a => { a with value := value })
      (g := fun a => { a with value := value }) fun w heq => by rw [heq]
    obtain ⟨attrs, hattrs, hrow⟩ := hset
    rw [Lists.setAttr, if_pos (hhas.mpr (List.cons_ne_nil e rest)), Row.update, hdrop]
    exact ⟨_, congrArg (Option.map _) hattrs, h.withAttrs hrow⟩

theorem Models.clearAttr (h : Models R x l) (name : QName) :
    ∃ x', x.clearAttr name = some x' ∧ Models R x' (l.clearAttr name) := by
  have hcut := List.takeWhile_append_dropWhile (p := fun e : ℕ × Attr => !decide (e.2.name = name))
    (l := l.attrs.entries)
  rw [XmlElement.clearAttr, h.search name, Option.bind_eq_bind, Option.bind_some, Lists.clearAttr, Row.remove]
  cases hdrop : l.attrs.entries.dropWhile fun e => !decide (e.2.name = name) with
  | nil =>
    rw [hdrop, List.append_nil] at hcut
    rw [List.tail_nil, List.append_nil, hcut]
    exact ⟨x, rfl, h⟩
  | cons e rest =>
    rw [hdrop] at hcut
    obtain ⟨attrs, hattrs, hrow⟩ := h.attrs.unlink hcut.symm
    exact ⟨_, congrArg (Option.map _) hattrs, h.withAttrs hrow⟩

/-! ### Children -/

theorem Models.withChildren (h : Models R x l) {children : Chain (XmlChild ε)} {row : Row Child}
    (hrow : children.Holds (Stands R) row) :
    Models R { x with children := children } { l with children := row } := { h with children := hrow }

theorem Models.appendChild (h : Models R x l) {child : XmlChild ε} {t : Child} (ht : Stands R child t) :
    ∃ x', x.appendChild child = some x' ∧ Models R x' { l with children := l.children.append t } := by
  obtain ⟨children, happend, hrow⟩ := h.children.append ht
  exact ⟨_, congrArg (Option.map _) happend, h.withChildren hrow⟩

theorem Models.clearChildren (h : Models R x l) : ∃ x', x.clearChildren = some x' ∧ Models R x' l.clearChildren := by
  obtain ⟨children, hclear, hrow⟩ := h.children.clear
  exact ⟨_, congrArg (Option.map _) hclear, h.withChildren hrow⟩

theorem Models.insertChildAfter (h : Models R x l) {predecessor : Option ℕ}
    (hbehind : Row.behind predecessor l.children.entries ≠ []) {child : XmlChild ε} {t : Child}
    (ht : Stands R child t) :
    ∃ x', x.insertChildAfter predecessor child = some x' ∧ Models R x' (l.insertChildAfter predecessor t) := by
  obtain ⟨children, hinsert, hrow⟩ := h.children.insertAfter hbehind ht
  exact ⟨_, congrArg (Option.map _) hinsert, h.withChildren hrow⟩

theorem Models.removeChildAfter (h : Models R x l) {predecessor : Option ℕ}
    (hbehind : Row.behind predecessor l.children.entries ≠ []) :
    ∃ x', x.removeChildAfter predecessor = some x' ∧ Models R x' (l.removeChildAfter predecessor) := by
  obtain ⟨children, hremove, hrow⟩ := h.children.removeAfter hbehind
  exact ⟨_, congrArg (Option.map _) hremove, h.withChildren hrow⟩

theorem Models.node (h : Models R x l) {front back : List (ℕ × Child)} {a : ℕ} {t : Child}
    (hentries : l.children.entries = front ++ (a, t) :: back) :
    ∃ w, x.children.nodes a = some { value := w, next := back.head?.map Prod.fst } ∧ Stands R w t := by
  have hlinked := h.children.linked
  rw [hentries] at hlinked
  obtain ⟨m, -, -, w, next, hnode, hS, hback⟩ := linked_append.mp hlinked
  exact ⟨w, by rw [hnode, hback.head], hS⟩

theorem Models.addText (h : Models R x l) (s : List Uint8) :
    ∃ x', x.addText s = some x' ∧ Models R x' (l.addText s) := by
  unfold XmlElement.addText Lists.addText
  by_cases hs : s = []
  · rw [if_pos hs, if_pos hs]
    exact ⟨x, rfl, h⟩
  · rw [if_neg hs, if_neg hs, h.children.last]
    rcases List.eq_nil_or_concat l.children.entries with hnil | ⟨front, e, hconcat⟩
    · rw [hnil]
      exact h.appendChild (.text s)
    · obtain ⟨a, t⟩ := e
      rw [List.concat_eq_append] at hconcat
      obtain ⟨w, hnode, hw⟩ := h.node hconcat
      rw [hconcat, Row.tail_concat, List.getLast?_concat, List.dropLast_concat]
      simp only [hnode, Option.bind_eq_bind, Option.bind_some]
      cases hw with
      | element he => exact h.appendChild (.text s)
      | text last =>
        obtain ⟨children, hset, hrow⟩ := h.children.setValue hconcat
          (f := fun _ => .text (last ++ s)) (g := fun _ => .text (last ++ s)) fun _ _ => .text _
        exact ⟨_, congrArg (Option.map _) hset, h.withChildren hrow⟩

theorem Models.setBodyText (h : Models R x l) (s : List Uint8) :
    ∃ x', x.setBodyText s = some x' ∧ Models R x' (l.setBodyText s) := by
  -- the children are deleted, and the text is a new node
  have hnew : s ≠ [] → ∃ x', (x.clearChildren.bind fun x' => x'.addText s) = some x' ∧
      Models R x' { l with children := l.children.clear.append (.text s) } := by
    intro hs
    obtain ⟨x', hclear, hx'⟩ := h.clearChildren
    obtain ⟨x'', htext, hx''⟩ := hx'.addText s
    refine ⟨x'', by rw [hclear, Option.bind_some, htext], ?_⟩
    rwa [Lists.addText, if_neg hs] at hx''
  unfold XmlElement.setBodyText Lists.setBodyText
  by_cases hs : s = []
  · rw [if_pos hs, if_pos hs]
    exact h.clearChildren
  · rw [if_neg hs, if_neg hs, h.children.linked.head, h.children.last]
    cases hentries : l.children.entries with
    | nil =>
      obtain ⟨x', htext, hx'⟩ := h.addText s
      refine ⟨x', htext, ?_⟩
      rw [Lists.addText, if_neg hs, hentries] at hx'
      have hclear : l.children.clear = l.children := by rw [Row.clear, ← hentries]
      rw [hclear]
      exact hx'
    | cons e rest =>
      obtain ⟨a, t⟩ := e
      have hsplit : l.children.entries = [] ++ (a, t) :: rest := hentries
      obtain ⟨w, hnode, hw⟩ := h.node hsplit
      simp only [List.head?_cons, Option.map_some, hnode, Option.bind_eq_bind, Option.bind_some]
      cases rest with
      | nil =>
        cases hw with
        | element he => exact hnew hs
        | text old =>
          obtain ⟨children, hset, hrow⟩ := h.children.setValue hsplit
            (f := fun _ => .text s) (g := fun _ => .text s) fun _ _ => .text _
          have hlast : Row.tail [(a, Child.text old)] = some a := rfl
          exact ⟨_, (if_pos hlast).trans (congrArg (Option.map _) hset), h.withChildren hrow⟩
      | cons e rest =>
        have hlast : Row.tail ((a, t) :: e :: rest) ≠ some a := by
          have hnodup := h.children.nodup
          rw [hentries, List.map_cons, List.nodup_cons] at hnodup
          intro heq
          rw [← List.singleton_append, Row.tail_append_cons, Row.tail, Option.map_eq_some_iff] at heq
          obtain ⟨found, hfound, rfl⟩ := heq
          exact hnodup.1 (List.mem_map.mpr ⟨found, List.mem_of_getLast? hfound, rfl⟩)
        cases hw with
        | element he => exact hnew hs
        | text old =>
          obtain ⟨x', hx, hx'⟩ := hnew hs
          exact ⟨x', (if_neg hlast).trans hx, hx'⟩

theorem Models.clearNamedFrom (hinner : inner.Lawful R) (name : QName) {rest : List (ℕ × Child)} :
    ∀ {fuel : ℕ} {x : XmlElement ε} {front : List (ℕ × Child)},
      Models R x { l with children := { l.children with entries := front ++ rest } } → rest.length ≤ fuel →
      ∃ x', XmlElement.clearNamedFrom inner name fuel x (Row.tail front) (rest.head?.map Prod.fst) = some x' ∧
        Models R x' { l with children :=
          { l.children with entries := front ++ rest.filter fun e => !Lists.isNamed name e.2 } } := by
  induction rest with
  | nil =>
    intro fuel x front h _
    refine ⟨x, ?_, h⟩
    cases fuel <;> rfl
  | cons e rest ih =>
    intro fuel x front h hfuel
    obtain ⟨fuel, rfl⟩ : ∃ n, fuel = n + 1 := ⟨fuel - 1, by rw [List.length_cons] at hfuel; omega⟩
    have hfuel' := Nat.le_of_succ_le_succ hfuel
    obtain ⟨a, t⟩ := e
    obtain ⟨w, hnode, hw⟩ := h.node rfl
    have hnamed : XmlElement.isNamed inner name w = Lists.isNamed name t := by
      cases hw with
      | text s => rfl
      | element he => rw [XmlElement.isNamed, Lists.isNamed, hinner.name he]
    simp only [List.head?_cons, Option.map_some, XmlElement.clearNamedFrom, hnode, Option.bind_eq_bind,
      Option.bind_some, hnamed]
    cases ht : Lists.isNamed name t with
    | true =>
      have hnodup := h.children.nodup
      have hbehind : Row.behind (Row.tail front) (front ++ (a, t) :: rest) = (a, t) :: rest :=
        Row.behind_of_split hnodup rfl
      have hne : Row.behind (Row.tail front) (front ++ (a, t) :: rest) ≠ [] := by
        rw [hbehind]
        exact List.cons_ne_nil _ _
      obtain ⟨x', hremove, hx'⟩ := h.removeChildAfter hne
      rw [Lists.removeChildAfter, Row.removeAfter, Row.upTo_of_split hnodup rfl, hbehind] at hx'
      obtain ⟨x'', hrest, hx''⟩ := ih hx' hfuel'
      refine ⟨x'', ?_, ?_⟩
      · rw [if_pos rfl, hremove, Option.bind_some, hrest]
      · rwa [List.filter_cons_of_neg (by simp [ht])]
    | false =>
      have hsplit : front ++ (a, t) :: rest = (front ++ [(a, t)]) ++ rest := by
        rw [List.append_assoc, List.singleton_append]
      rw [hsplit] at h
      obtain ⟨x', hrest, hx'⟩ := ih h hfuel'
      rw [Row.tail_concat] at hrest
      refine ⟨x', ?_, ?_⟩
      · rw [if_neg Bool.false_ne_true, hrest]
      · rw [List.filter_cons_of_pos (by simp [ht])]
        rwa [List.append_assoc, List.singleton_append] at hx'

theorem Models.clearNamedChildren (h : Models R x l) (hinner : inner.Lawful R) (name : QName) :
    ∃ x', x.clearNamedChildren inner name = some x' ∧ Models R x' (l.clearNamedChildren name) := by
  have hlength := h.children.toThreaded.length_le
  have hhead := h.children.linked.head
  have hstart : Models R x { l with children := { l.children with entries := [] ++ l.children.entries } } := h
  obtain ⟨x', hloop, hx'⟩ := Models.clearNamedFrom hinner name hstart hlength
  rw [Row.tail_nil, ← hhead] at hloop
  exact ⟨x', hloop, hx'⟩

/-! ### Copies -/

theorem Stands.copyChild (hinner : inner.Lawful R) {w : XmlChild ε} {t : Child} (h : Stands R w t) :
    ∃ w', XmlElement.copyChild inner w = some w' ∧ Stands R w' t := by
  cases h with
  | text s => exact ⟨.text s, rfl, .text s⟩
  | element he =>
    obtain ⟨e', hcopy, he'⟩ := hinner.copy he
    exact ⟨.element e', congrArg (Option.map _) hcopy, .element he'⟩

theorem Models.copy (h : Models R x l) (hinner : inner.Lawful R) :
    ∃ x', x.copy inner = some x' ∧ Models R x' l.copy := by
  obtain ⟨attrs, hattrs, hrow⟩ := h.attrs.toThreaded.copy (f := some) fun w _ hw => ⟨w, rfl, hw⟩
  obtain ⟨children, hchildren, hrow'⟩ := h.children.toThreaded.copy fun w t hw => hw.copyChild hinner
  refine ⟨{ name := x.name, attrs := attrs, children := children, cdata := x.cdata }, ?_, ?_⟩
  · rw [XmlElement.copy, hattrs, Option.bind_eq_bind, Option.bind_some, hchildren]
    rfl
  · exact { name := h.name, cdata := h.cdata, attrs := hrow, children := hrow' }

theorem Row.map_number {α : Type} (n : ℕ) (vs : List α) : (Row.number n vs).map Prod.snd = vs := by
  induction vs generalizing n with
  | nil => rfl
  | cons v vs ih => rw [Row.number, List.map_cons, ih]

theorem Lists.tree_copy : l.copy.tree = l.tree := by
  rw [Lists.tree, Lists.copy, Row.copied, Row.copied, Row.map_number, Row.map_number]
  rfl

/-! ### Calls -/

/-- The functions of the lists. `κ` is the type of children. -/
inductive ChildCall (ε κ : Type)
  | addElement (child : Option ε)
  | addText (s : List Uint8)
  | addParsedText (s : List Uint8)
  | setBodyText (s : List Uint8)
  | insertChildAfter (predecessor : Option ℕ) (next : κ)
  | removeChildAfter (predecessor : Option ℕ)
  | clearNamedChildren (name : QName)
  | clearChildren
  | setAttr (name : QName) (value : List Uint8)
  | addAttr (name : QName) (value : List Uint8)
  | clearAttr (name : QName)
  | copy

/-- A call on the lists of pointers. -/
def ChildCall.apply (inner : Inner ε) (x : XmlElement ε) : ChildCall ε (XmlChild ε) → Option (XmlElement ε)
  | addElement child => x.addElement child
  | addText s => x.addText s
  | addParsedText s => x.addParsedText s
  | setBodyText s => x.setBodyText s
  | insertChildAfter predecessor next => x.insertChildAfter predecessor next
  | removeChildAfter predecessor => x.removeChildAfter predecessor
  | clearNamedChildren name => x.clearNamedChildren inner name
  | clearChildren => x.clearChildren
  | setAttr name value => x.setAttr name value
  | addAttr name value => x.addAttr name value
  | clearAttr name => x.clearAttr name
  | copy => x.copy inner

def ChildCall.effect (l : Lists) : ChildCall Element Child → Lists
  | addElement child => l.addElement child
  | addText s => l.addText s
  | addParsedText s => l.addText s
  | setBodyText s => l.setBodyText s
  | insertChildAfter predecessor next => l.insertChildAfter predecessor next
  | removeChildAfter predecessor => l.removeChildAfter predecessor
  | clearNamedChildren name => l.clearNamedChildren name
  | clearChildren => l.clearChildren
  | setAttr name value => l.setAttr name value
  | addAttr name value => l.addAttr name value
  | clearAttr name => l.clearAttr name
  | copy => l.copy

/-- There is a child behind the predecessor. -/
def Allowed {ε' κ : Type} (l : Lists) : ChildCall ε' κ → Prop
  | .insertChildAfter predecessor _ => Row.behind predecessor l.children.entries ≠ []
  | .removeChildAfter predecessor => Row.behind predecessor l.children.entries ≠ []
  | _ => True

/-- The same call on both sides. -/
inductive SameCall (R : ε → Element → Prop) : ChildCall ε (XmlChild ε) → ChildCall Element Child → Prop
  | addNothing : SameCall R (.addElement none) (.addElement none)
  | addElement {e : ε} {t : Element} (h : R e t) : SameCall R (.addElement (some e)) (.addElement (some t))
  | addText (s : List Uint8) : SameCall R (.addText s) (.addText s)
  | addParsedText (s : List Uint8) : SameCall R (.addParsedText s) (.addParsedText s)
  | setBodyText (s : List Uint8) : SameCall R (.setBodyText s) (.setBodyText s)
  | insertChildAfter (predecessor : Option ℕ) {next : XmlChild ε} {t : Child} (h : Stands R next t) :
    SameCall R (.insertChildAfter predecessor next) (.insertChildAfter predecessor t)
  | removeChildAfter (predecessor : Option ℕ) :
    SameCall R (.removeChildAfter predecessor) (.removeChildAfter predecessor)
  | clearNamedChildren (name : QName) : SameCall R (.clearNamedChildren name) (.clearNamedChildren name)
  | clearChildren : SameCall R .clearChildren .clearChildren
  | setAttr (name : QName) (value : List Uint8) : SameCall R (.setAttr name value) (.setAttr name value)
  | addAttr (name : QName) (value : List Uint8) : SameCall R (.addAttr name value) (.addAttr name value)
  | clearAttr (name : QName) : SameCall R (.clearAttr name) (.clearAttr name)
  | copy : SameCall R .copy .copy

theorem Models.apply (h : Models R x l) (hinner : inner.Lawful R) {call : ChildCall ε (XmlChild ε)}
    {call' : ChildCall Element Child} (hsame : SameCall R call call') (hallowed : Allowed l call') :
    ∃ x', call.apply inner x = some x' ∧ Models R x' (call'.effect l) := by
  cases hsame with
  | addNothing => exact ⟨x, rfl, h⟩
  | addElement he => exact h.appendChild (.element he)
  | addText s => exact h.addText s
  | addParsedText s => exact h.addText s
  | setBodyText s => exact h.setBodyText s
  | insertChildAfter predecessor ht => exact h.insertChildAfter hallowed ht
  | removeChildAfter predecessor => exact h.removeChildAfter hallowed
  | clearNamedChildren name => exact h.clearNamedChildren hinner name
  | clearChildren => exact h.clearChildren
  | setAttr name value => exact h.setAttr name value
  | addAttr name value => exact h.addAttr name value
  | clearAttr name => exact h.clearAttr name
  | copy => exact h.copy hinner

/-! ### Runs -/

/-- A run of calls. -/
def run (inner : Inner ε) : XmlElement ε → List (ChildCall ε (XmlChild ε)) → Option (XmlElement ε)
  | x, [] => some x
  | x, call :: calls => (call.apply inner x).bind fun x' => run inner x' calls

def effects (l : Lists) (calls : List (ChildCall Element Child)) : Lists := calls.foldl ChildCall.effect l

def AllowedRun : Lists → List (ChildCall Element Child) → Prop
  | _, [] => True
  | l, call :: calls => Allowed l call ∧ AllowedRun (call.effect l) calls

theorem Models.run (hinner : inner.Lawful R) {calls : List (ChildCall ε (XmlChild ε))}
    {calls' : List (ChildCall Element Child)} (hsame : List.Forall₂ (SameCall R) calls calls') :
    ∀ {x : XmlElement ε} {l : Lists}, Models R x l → AllowedRun l calls' →
      ∃ x', Xml.run inner x calls = some x' ∧ Models R x' (effects l calls') := by
  induction hsame with
  | nil => exact fun h _ => ⟨_, rfl, h⟩
  | cons hcall _ ih =>
    intro x l h hallowed
    obtain ⟨x', happly, hx'⟩ := h.apply hinner hcall hallowed.1
    obtain ⟨x'', hrun, hx''⟩ := ih hx' hallowed.2
    exact ⟨x'', by rw [Xml.run, happly, Option.bind_some, hrun], hx''⟩

end Refinement

/-! ## Elements inside elements -/

/-- Elements of a depth below `d`. -/
def ElementAt : ℕ → Type
  | 0 => Empty
  | d + 1 => XmlElement (ElementAt d)

/-- An element is copied with the copy constructor. -/
def innerAt : (d : ℕ) → Inner (ElementAt d)
  | 0 => { name := Empty.elim, copy := Empty.elim }
  | d + 1 => { name := XmlElement.name, copy := fun x => XmlElement.copy x (innerAt d) }

def ModelsAt : (d : ℕ) → ElementAt d → Element → Prop
  | 0 => fun _ _ => False
  | d + 1 => fun x t => ∃ l, Models (ModelsAt d) x l ∧ l.tree = t

theorem lawful_innerAt : ∀ d, (innerAt d).Lawful (ModelsAt d)
  | 0 => ⟨fun h => False.elim h, fun h => False.elim h⟩
  | d + 1 => by
    refine ⟨fun h => ?_, fun h => ?_⟩
    · obtain ⟨l, hmodels, rfl⟩ := h
      exact hmodels.name
    · obtain ⟨l, hmodels, rfl⟩ := h
      obtain ⟨x', hcopy, hx'⟩ := hmodels.copy (lawful_innerAt d)
      exact ⟨x', hcopy, l.copy, hx', Lists.tree_copy⟩

def Built : (d : ℕ) → ElementAt d → Element → Prop
  | 0 => fun _ _ => False
  | d + 1 => fun x t => ∃ (name : QName) (calls : List (ChildCall (ElementAt d) (XmlChild (ElementAt d))))
      (calls' : List (ChildCall Element Child)), List.Forall₂ (SameCall (Built d)) calls calls' ∧
        AllowedRun { name := name } calls' ∧ run (innerAt d) { name := name } calls = some x ∧
        (effects { name := name } calls').tree = t

theorem SameCall.imp {ε : Type} {R R' : ε → Element → Prop} (h : ∀ e t, R e t → R' e t)
    {call : ChildCall ε (XmlChild ε)} {call' : ChildCall Element Child} (hsame : SameCall R call call') :
    SameCall R' call call' := by
  cases hsame with
  | addElement he => exact .addElement (h _ _ he)
  | insertChildAfter predecessor ht =>
    cases ht with
    | text s => exact .insertChildAfter predecessor (.text s)
    | element he => exact .insertChildAfter predecessor (.element (h _ _ he))
  | _ => constructor

theorem modelsAt_of_built : ∀ {d : ℕ} {x : ElementAt d} {t : Element}, Built d x t → ModelsAt d x t
  | 0, _, _, h => h
  | d + 1, x, t, h => by
    obtain ⟨name, calls, calls', hsame, hallowed, hrun, rfl⟩ := h
    have hsame' := hsame.imp fun _ _ hcall => hcall.imp fun e t he => modelsAt_of_built (d := d) he
    obtain ⟨x', hrun', hx'⟩ := Models.run (lawful_innerAt d) hsame' (models_new name) hallowed
    obtain rfl := Option.some_inj.mp (hrun.symm.trans hrun')
    exact ⟨_, hx', rfl⟩

/-- **A run of allowed calls** has exactly the effects of its calls, and keeps the tail pointers. -/
theorem children_models {d : ℕ} (name : QName) {calls : List (ChildCall (ElementAt d) (XmlChild (ElementAt d)))}
    {calls' : List (ChildCall Element Child)} (hsame : List.Forall₂ (SameCall (Built d)) calls calls')
    (hallowed : AllowedRun { name := name } calls') :
    ∃ x, run (innerAt d) { name := name } calls = some x ∧
      Models (ModelsAt d) x (effects { name := name } calls') :=
  Models.run (lawful_innerAt d) (hsame.imp fun _ _ hcall => hcall.imp fun _ _ he => modelsAt_of_built he)
    (models_new name) hallowed

def elementB : ElementAt 1 := { name := ⟨[], text "b"⟩ : XmlElement (ElementAt 0) }

theorem children_models_insert :
    ∃ x, run (innerAt 1) { name := ⟨[], text "a"⟩ }
        [.addElement (some elementB), .insertChildAfter none (.text (text "x")), .copy, .removeChildAfter none] =
          some x ∧
      Models (ModelsAt 1) x
        { name := ⟨[], text "a"⟩
          children := { entries := [(1, .element { name := ⟨[], text "b"⟩ })], fresh := 2 } } := by
  have hbuilt : Built 1 elementB { name := ⟨[], text "b"⟩ } :=
    ⟨⟨[], text "b"⟩, [], [], .nil, trivial, rfl, rfl⟩
  have hne : ∀ {e : ℕ × Child} {l : List (ℕ × Child)}, e :: l ≠ [] := List.cons_ne_nil _ _
  exact children_models ⟨[], text "a"⟩
    (.cons (.addElement hbuilt) (.cons (.insertChildAfter none (.text (text "x")))
      (.cons .copy (.cons (.removeChildAfter none) .nil))))
    ⟨trivial, hne, trivial, hne, trivial⟩

/-- A text is lost when an element is added. -/
theorem inserted_child_lost :
    ∃ x x', run (innerAt 1) { name := ⟨[], text "a"⟩ } [.insertChildAfter none (.text (text "x"))] = some x ∧
      x.children.first = some 0 ∧ x.children.last = none ∧
      run (innerAt 1) x [.addElement (some elementB)] = some x' ∧
      x'.children.toList = some [(1, .element elementB)] ∧
      (effects { name := ⟨[], text "a"⟩ }
        [.insertChildAfter none (.text (text "x")), .addElement (some { name := ⟨[], text "b"⟩ })]).children.entries =
          [(0, .text (text "x")), (1, .element { name := ⟨[], text "b"⟩ })] :=
  ⟨_, _, rfl, rfl, rfl, rfl, rfl, rfl⟩

end Libjingle.Xml
