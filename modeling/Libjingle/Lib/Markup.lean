import Mathlib.Tactic.Common
import Mathlib.Data.List.Basic

/-!
# XML 1.0 texts, without namespaces

Main results: **`foldl_joined`**, **`tokenises_tokenise`**.
-/

variable {s value text : List Byte} {b : Byte}

namespace Lib.Markup

abbrev Byte := BitVec 8

/-! ## Characters and names -/

def encode (cs : List Char) : List Byte := cs.flatMap fun c => (String.utf8EncodeChar c).map UInt8.toBitVec

def IsXmlChar (c : Char) : Prop :=
  c.toNat = 0x9 ∨ c.toNat = 0xA ∨ c.toNat = 0xD ∨
    0x20 ≤ c.toNat ∧ c.toNat ≠ 0xFFFE ∧ c.toNat ≠ 0xFFFF

def Carried (changed : List Char) (s : List Byte) : Prop :=
  ∃ cs, encode cs = s ∧ ∀ c ∈ cs, IsXmlChar c ∧ c ∉ changed

/-- Carriage returns in character data are changed. -/
def CarriedText (s : List Byte) : Prop := Carried ['\r'] s

def CarriedValue (s : List Byte) : Prop := Carried ['\r', '\n', '\t'] s

def nameStartRanges : List (ℕ × ℕ) :=
  [(0x41, 0x5A), (0x5F, 0x5F), (0x61, 0x7A), (0xC0, 0xD6), (0xD8, 0xF6), (0xF8, 0x2FF), (0x370, 0x37D),
    (0x37F, 0x1FFF), (0x200C, 0x200D), (0x2070, 0x218F), (0x2C00, 0x2FEF), (0x3001, 0xD7FF), (0xF900, 0xFDCF),
    (0xFDF0, 0xFFFD), (0x10000, 0xEFFFF)]

def nameRanges : List (ℕ × ℕ) := [(0x2D, 0x2E), (0x30, 0x39), (0xB7, 0xB7), (0x300, 0x36F), (0x203F, 0x2040)]

def inRanges (ranges : List (ℕ × ℕ)) (n : ℕ) : Bool := ranges.any fun r => r.1 ≤ n ∧ n ≤ r.2

def IsNameStart (c : Char) : Prop := inRanges nameStartRanges c.toNat

def IsNameChar (c : Char) : Prop := inRanges (nameStartRanges ++ nameRanges) c.toNat

/-- A name without a colon. -/
def IsNcName (s : List Byte) : Prop :=
  ∃ c cs, encode (c :: cs) = s ∧ IsNameStart c ∧ ∀ x ∈ cs, IsNameChar x

def colon : Byte := 0x3A

/-- A name, or two of them with a colon between. -/
def IsName (s : List Byte) : Prop :=
  IsNcName s ∨ ∃ p l, IsNcName p ∧ IsNcName l ∧ s = p ++ colon :: l

theorem mem_encode {cs : List Char} (hb : b ∈ encode cs) : 0x80 ≤ b.toNat ∨ ∃ c ∈ cs, c.toNat = b.toNat := by
  obtain ⟨c, hc, hmem⟩ := List.mem_flatMap.mp hb
  obtain ⟨u, hu, rfl⟩ := List.mem_map.mp hmem
  have hval : c.val.toNat = c.toNat := rfl
  simp only [String.utf8EncodeChar, hval] at hu
  split_ifs at hu with h1 h2 h3
  · right
    refine ⟨c, hc, ?_⟩
    rw [List.mem_singleton.mp hu]
    simp
    omega
  · left
    simp only [List.mem_cons, List.not_mem_nil, or_false] at hu
    rcases hu with rfl | rfl <;> simp <;> omega
  · left
    simp only [List.mem_cons, List.not_mem_nil, or_false] at hu
    rcases hu with rfl | rfl | rfl <;> simp <;> omega
  · left
    simp only [List.mem_cons, List.not_mem_nil, or_false] at hu
    rcases hu with rfl | rfl | rfl | rfl <;> simp <;> omega

theorem toNat_ofNat_ascii {n : ℕ} (h : n < 0x80) : (Char.ofNat n).toNat = n := by
  rw [Char.ofNat, dif_pos (Or.inl (by omega))]
  rfl

theorem encode_ascii (h : ∀ b ∈ s, b.toNat < 0x80) : encode (s.map fun b => Char.ofNat b.toNat) = s := by
  induction s with
  | nil => rfl
  | cons b s ih =>
    have hb := h b List.mem_cons_self
    have hone : (String.utf8EncodeChar (Char.ofNat b.toNat)).map UInt8.toBitVec = [b] := by
      have hval : (Char.ofNat b.toNat).val.toNat = b.toNat := toNat_ofNat_ascii hb
      rw [String.utf8EncodeChar]
      simp only [hval]
      rw [if_pos (by omega), List.map_singleton]
      congr 1
      exact BitVec.eq_of_toNat_eq (by simp)
    have hrest := ih fun b hb => h b (List.mem_cons_of_mem _ hb)
    rw [List.map_cons, encode, List.flatMap_cons, hone]
    exact congrArg (b :: ·) hrest

theorem carried_ascii {changed : List Char} (hchanged : changed.all (·.toNat < 0x20))
    (h : s.all fun b => 0x20 ≤ b.toNat ∧ b.toNat < 0x80) : Carried changed s := by
  have hascii : ∀ b ∈ s, 0x20 ≤ b.toNat ∧ b.toNat < 0x80 := by simpa using h
  refine ⟨s.map fun b => Char.ofNat b.toNat, encode_ascii fun b hb => (hascii b hb).2, fun c hc => ?_⟩
  obtain ⟨b, hb, rfl⟩ := List.mem_map.mp hc
  have hchar := toNat_ofNat_ascii (hascii b hb).2
  have hrange := hascii b hb
  refine ⟨?_, fun hmem => ?_⟩
  · rw [IsXmlChar, hchar]
    omega
  · have := of_decide_eq_true (List.all_eq_true.mp hchanged _ hmem)
    omega

theorem isNcName_ascii (hstart : inRanges nameStartRanges b.toNat) (hascii : b.toNat < 0x80)
    (h : ∀ b ∈ s, b.toNat < 0x80 ∧ inRanges (nameStartRanges ++ nameRanges) b.toNat) : IsNcName (b :: s) := by
  have hall : ∀ x ∈ b :: s, x.toNat < 0x80 := by
    intro x hx
    rcases List.mem_cons.mp hx with rfl | hx
    · exact hascii
    · exact (h x hx).1
  refine ⟨Char.ofNat b.toNat, s.map fun b => Char.ofNat b.toNat, ?_, ?_, ?_⟩
  · rw [← List.map_cons (f := fun b : Byte => Char.ofNat b.toNat)]
    exact encode_ascii hall
  · rw [IsNameStart, toNat_ofNat_ascii hascii]
    exact hstart
  · intro x hx
    obtain ⟨b, hb, rfl⟩ := List.mem_map.mp hx
    rw [IsNameChar, toNat_ofNat_ascii (h b hb).1]
    exact (h b hb).2

theorem IsNcName.ne_nil (h : IsNcName s) : s ≠ [] := by
  obtain ⟨c, cs, rfl, -⟩ := h
  intro hnil
  rw [encode, List.flatMap_cons, List.append_eq_nil_iff, List.map_eq_nil_iff] at hnil
  exact String.utf8EncodeChar_ne_nil hnil.1

theorem IsNcName.not_mem (h : IsNcName s) (hascii : b.toNat < 0x80)
    (hout : inRanges (nameStartRanges ++ nameRanges) b.toNat = false) : b ∉ s := by
  obtain ⟨c, cs, rfl, hstart, hchars⟩ := h
  intro hb
  obtain hhigh | ⟨x, hx, hxb⟩ := mem_encode hb
  · omega
  · have hin : inRanges (nameStartRanges ++ nameRanges) x.toNat = true := by
      rcases List.mem_cons.mp hx with rfl | hx
      · rw [inRanges, List.any_append, Bool.or_eq_true]
        exact Or.inl hstart
      · exact hchars x hx
    rw [hxb, hout] at hin
    cases hin

theorem IsNcName.colon_not_mem (h : IsNcName s) : colon ∉ s :=
  h.not_mem (by decide) (by decide)

def delimiters : List Byte := [0x20, 0x22, 0x26, 0x2F, 0x3C, 0x3D, 0x3E]

theorem IsName.not_mem (h : IsName s) (hb : b ∈ delimiters) : b ∉ s := by
  have hdelimiters : ∀ b ∈ delimiters, b.toNat < 0x80 ∧
      inRanges (nameStartRanges ++ nameRanges) b.toNat = false ∧ b ≠ colon := by decide
  obtain ⟨hascii, hout, hcolon⟩ := hdelimiters b hb
  rcases h with h | ⟨p, l, hp, hl, rfl⟩
  · exact h.not_mem hascii hout
  · intro hmem
    rcases List.mem_append.mp hmem with hmem | hmem
    · exact hp.not_mem hascii hout hmem
    · exact (List.mem_cons.mp hmem).elim hcolon (hl.not_mem hascii hout)

theorem IsName.ne_nil (h : IsName s) : s ≠ [] := by
  rcases h with h | ⟨p, l, -, -, rfl⟩
  · exact h.ne_nil
  · simp

/-! ## Values as they are written -/

def references : List (Byte × List Byte) :=
  [(0x26, [0x61, 0x6D, 0x70]), (0x3C, [0x6C, 0x74]), (0x3E, [0x67, 0x74]), (0x22, [0x71, 0x75, 0x6F, 0x74])]

/-- A text stands for a value: these bytes are written as references, and others may be. -/
inductive Written (special : List Byte) : List Byte → List Byte → Prop where
  | nil : Written special [] []
  | plain {b : Byte} {value text : List Byte} (hb : b ∉ special) (h : Written special value text) :
      Written special (b :: value) (b :: text)
  | reference {r : Byte × List Byte} {value text : List Byte} (hr : r ∈ references)
      (h : Written special value text) : Written special (r.1 :: value) (0x26 :: r.2 ++ 0x3B :: text)

def specialText : List Byte := [0x26, 0x3C, 0x3E]

/-- What cannot be in a value between quotation marks. -/
def specialValue : List Byte := [0x22, 0x26, 0x3C]

theorem Written.append {special value' text' : List Byte} (h : Written special value text)
    (h' : Written special value' text') : Written special (value ++ value') (text ++ text') := by
  induction h with
  | nil => exact h'
  | plain hb _ ih => exact .plain hb ih
  | reference hr _ ih =>
    rw [List.append_assoc, List.cons_append]
    exact .reference hr ih

theorem Written.self {special : List Byte} (h : ∀ b ∈ value, b ∉ special) : Written special value value := by
  induction value with
  | nil => exact .nil
  | cons b value ih =>
    exact .plain (h b List.mem_cons_self) (ih fun b hb => h b (List.mem_cons_of_mem _ hb))

/-! ## Elements, their text, and the calls that report them -/

/-- An attribute, with its value and the text of its value. -/
structure Attribute where
  name : List Byte
  value : List Byte
  written : List Byte

/-- Content as it is written: text with its escaped form, or an element. -/
inductive Node where
  | data (value written : List Byte)
  | element (name : List Byte) (atts : List Attribute) (content : List Node)

/-- The calls of a processor to its handlers. -/
inductive Call where
  | startElement (name : List Byte) (atts : List (List Byte × List Byte))
  | endElement (name : List Byte)
  | characterData (s : List Byte)
  deriving DecidableEq, Repr

def Attribute.write (a : Attribute) : List Byte := 0x20 :: a.name ++ 0x3D :: 0x22 :: a.written ++ [0x22]

/-- A start tag, up to its end. -/
def writeStart (name : List Byte) (atts : List Attribute) : List Byte :=
  0x3C :: name ++ atts.flatMap Attribute.write

/-- An end tag. -/
def writeEnd (name : List Byte) : List Byte := 0x3C :: 0x2F :: name ++ [0x3E]

mutual

def Node.write : Node → List Byte
  | .data _ written => written
  | .element name atts content =>
    writeStart name atts ++
      if content.isEmpty then [0x2F, 0x3E] else 0x3E :: writeContent content ++ writeEnd name

def writeContent : List Node → List Byte
  | [] => []
  | node :: content => node.write ++ writeContent content

end

mutual

def Node.calls : Node → List Call
  | .data value _ => [.characterData value]
  | .element name atts content =>
    .startElement name (atts.map fun a => (a.name, a.value)) :: contentCalls content ++ [.endElement name]

def contentCalls : List Node → List Call
  | [] => []
  | node :: content => node.calls ++ contentCalls content

end

/-- The attribute has a name, and its value is escaped. -/
structure Attribute.WellFormed (a : Attribute) : Prop where
  name : IsName a.name
  carried : CarriedValue a.value
  written : Written specialValue a.value a.written

mutual

def Node.WellFormed : Node → Prop
  | .data value written => CarriedText value ∧ Written specialText value written
  | .element name atts content =>
    IsName name ∧ (∀ a ∈ atts, a.WellFormed) ∧ (atts.map Attribute.name).Nodup ∧ ContentWellFormed content

def ContentWellFormed : List Node → Prop
  | [] => True
  | node :: content => node.WellFormed ∧ ContentWellFormed content

end

/-! ## The division of character data -/

def joinCall : Call → List Call → List Call
  | .characterData s, calls =>
    if s = [] then calls
    else
      match calls with
      | .characterData t :: calls => .characterData (s ++ t) :: calls
      | calls => .characterData s :: calls
  | call, calls => call :: calls

theorem joinCall_joinCall (a b : List Byte) (calls : List Call) :
    joinCall (.characterData a) (joinCall (.characterData b) calls) =
      joinCall (.characterData (a ++ b)) calls := by
  by_cases ha : a = []
  · simp [joinCall, ha]
  · by_cases hb : b = []
    · simp [joinCall, ha, hb]
    · cases calls with
      | nil => simp [joinCall, ha, hb]
      | cons call calls => cases call <;> simp [joinCall, ha, hb]

/-- The calls up to the division of character data. -/
def joined (calls : List Call) : List Call := calls.foldr joinCall []

def Undivided {σ : Type} (handle : σ → Call → σ) : Prop :=
  (∀ s, handle s (.characterData []) = s) ∧
    ∀ s a b, handle (handle s (.characterData a)) (.characterData b) = handle s (.characterData (a ++ b))

theorem foldl_joinCall {σ : Type} {handle : σ → Call → σ} (h : Undivided handle) (s : σ) (call : Call)
    (calls : List Call) : (joinCall call calls).foldl handle s = calls.foldl handle (handle s call) := by
  cases call with
  | startElement name atts => rfl
  | endElement name => rfl
  | characterData t =>
    simp only [joinCall]
    split
    · rename_i hnil
      rw [hnil, h.1]
    · split
      · rw [List.foldl_cons, List.foldl_cons, h.2]
      · rfl

theorem foldl_joined {σ : Type} {handle : σ → Call → σ} (h : Undivided handle) (s : σ) (calls : List Call) :
    (joined calls).foldl handle s = calls.foldl handle s := by
  induction calls generalizing s with
  | nil => rfl
  | cons call calls ih =>
    change (joinCall call (joined calls)).foldl handle s = _
    rw [foldl_joinCall h, ih, List.foldl_cons]

abbrev Processor := List Byte → Bool × List Call

/-- **What is written is reported.** -/
def Tokenises (processor : Processor) : Prop :=
  ∀ name atts content, (Node.element name atts content).WellFormed →
    (processor (Node.element name atts content).write).1 = true ∧
      joined (processor (Node.element name atts content).write).2 =
        joined (Node.element name atts content).calls

/-! ## A processor for such texts -/

/-- Where the reader is in the text. -/
inductive Mode where
  | content
  | textReference (ref : List Byte)
  | startName (name : List Byte)
  | inTag (name : List Byte) (atts : List (List Byte × List Byte))
  | attName (name : List Byte) (atts : List (List Byte × List Byte)) (att : List Byte)
  | quote (name : List Byte) (atts : List (List Byte × List Byte)) (att : List Byte)
  | value (name : List Byte) (atts : List (List Byte × List Byte)) (att value : List Byte)
  | valueReference (name : List Byte) (atts : List (List Byte × List Byte)) (att value ref : List Byte)
  | emptyTag (name : List Byte) (atts : List (List Byte × List Byte))
  | endName (name : List Byte)
  | failed
  deriving DecidableEq, Repr

/-- The state: the elements that are open, and the calls that were made. -/
structure Reader where
  mode : Mode := .content
  opened : List (List Byte) := []
  calls : List Call := []
deriving DecidableEq, Repr

namespace Reader

/-- The character of a predefined entity. -/
def resolve (ref : List Byte) : Option Byte := (references.find? fun r => r.2 = ref).map Prod.fst

/-- A byte that ends a start tag, or goes on with it. -/
def afterName (r : Reader) (name : List Byte) (atts : List (List Byte × List Byte)) (b : Byte) : Reader :=
  if b = 0x20 then { r with mode := .attName name atts [] }
  else if b = 0x2F then { r with mode := .emptyTag name atts }
  else if b = 0x3E then
    { mode := .content, opened := name :: r.opened, calls := r.calls ++ [.startElement name atts] }
  else { r with mode := .failed }

def step (r : Reader) (b : Byte) : Reader :=
  match r.mode with
  | .content =>
    if b = 0x3C then { r with mode := .startName [] }
    else if b = 0x26 then { r with mode := .textReference [] }
    else { r with calls := r.calls ++ [.characterData [b]] }
  | .textReference ref =>
    if b = 0x3B then
      match resolve ref with
      | some c => { r with mode := .content, calls := r.calls ++ [.characterData [c]] }
      | none => { r with mode := .failed }
    else { r with mode := .textReference (ref ++ [b]) }
  | .startName name =>
    if name = [] ∧ b = 0x2F then { r with mode := .endName [] }
    else if b ∈ delimiters then r.afterName name [] b
    else { r with mode := .startName (name ++ [b]) }
  | .inTag name atts => r.afterName name atts b
  | .attName name atts att =>
    if b = 0x3D then { r with mode := .quote name atts att }
    else { r with mode := .attName name atts (att ++ [b]) }
  | .quote name atts att =>
    if b = 0x22 then { r with mode := .value name atts att [] } else { r with mode := .failed }
  | .value name atts att value =>
    if b = 0x22 then { r with mode := .inTag name (atts ++ [(att, value)]) }
    else if b = 0x26 then { r with mode := .valueReference name atts att value [] }
    else { r with mode := .value name atts att (value ++ [b]) }
  | .valueReference name atts att value ref =>
    if b = 0x3B then
      match resolve ref with
      | some c => { r with mode := .value name atts att (value ++ [c]) }
      | none => { r with mode := .failed }
    else { r with mode := .valueReference name atts att value (ref ++ [b]) }
  | .emptyTag name atts =>
    if b = 0x3E then
      { r with mode := .content, calls := r.calls ++ [.startElement name atts, .endElement name] }
    else { r with mode := .failed }
  | .endName name =>
    if b = 0x3E then
      if r.opened.head? = some name then
        { mode := .content, opened := r.opened.tail, calls := r.calls ++ [.endElement name] }
      else { r with mode := .failed }
    else { r with mode := .endName (name ++ [b]) }
  | .failed => r

/-- The reader takes a text. -/
def read (r : Reader) (s : List Byte) : Reader := s.foldl step r

variable {opened : List (List Byte)} {calls : List Call}

theorem read_append (r : Reader) (s t : List Byte) : r.read (s ++ t) = (r.read s).read t := List.foldl_append

theorem read_cons (r : Reader) (b : Byte) (s : List Byte) : r.read (b :: s) = (r.step b).read s := rfl

theorem read_collect {mode : List Byte → Mode}
    (h : ∀ acc, ∀ b ∈ s, step ⟨mode acc, opened, calls⟩ b = ⟨mode (acc ++ [b]), opened, calls⟩)
    (acc : List Byte) : read ⟨mode acc, opened, calls⟩ s = ⟨mode (acc ++ s), opened, calls⟩ := by
  induction s generalizing acc with
  | nil => rw [List.append_nil]; rfl
  | cons b s ih =>
    rw [read_cons, h acc b List.mem_cons_self, ih fun acc b hb => h acc b (List.mem_cons_of_mem _ hb),
      List.append_assoc, List.singleton_append]

theorem resolve_reference {r : Byte × List Byte} (hr : r ∈ references) :
    resolve r.2 = some r.1 ∧ (0x3B : Byte) ∉ r.2 := by
  have hall : ∀ r ∈ references, resolve r.2 = some r.1 ∧ (0x3B : Byte) ∉ r.2 := by decide
  exact hall r hr

theorem read_value (name : List Byte) (atts : List (List Byte × List Byte)) (att : List Byte) (h : Written specialValue value text) (acc : List Byte) :
    read ⟨.value name atts att acc, opened, calls⟩ text =
      ⟨.value name atts att (acc ++ value), opened, calls⟩ := by
  induction h generalizing acc with
  | nil => rw [List.append_nil]; rfl
  | @plain b value text hb _ ih =>
    have hne : b ≠ 0x22 ∧ b ≠ 0x26 := by
      constructor <;> rintro rfl <;> exact hb (by decide)
    have hstep : step ⟨.value name atts att acc, opened, calls⟩ b =
        ⟨.value name atts att (acc ++ [b]), opened, calls⟩ := by
      simp only [step, if_neg hne.1, if_neg hne.2]
    rw [read_cons, hstep, ih, List.append_assoc, List.singleton_append]
  | @reference r value text hr _ ih =>
    obtain ⟨hresolve, hsemicolon⟩ := resolve_reference hr
    have href : read ⟨.valueReference name atts att acc [], opened, calls⟩ r.2 =
        ⟨.valueReference name atts att acc r.2, opened, calls⟩ := by
      refine read_collect (fun ref b hb => ?_) []
      have hne : b ≠ 0x3B := fun h => hsemicolon (h ▸ hb)
      simp only [step, if_neg hne]
    have hstep : step ⟨.valueReference name atts att acc r.2, opened, calls⟩ 0x3B =
        ⟨.value name atts att (acc ++ [r.1]), opened, calls⟩ := by
      simp only [step, if_true, hresolve]
    rw [List.cons_append, read_cons, read_append]
    change read (read ⟨.valueReference name atts att acc [], opened, calls⟩ r.2) (0x3B :: text) = _
    rw [href, read_cons, hstep, ih, List.append_assoc, List.singleton_append]

theorem read_text (h : Written specialText value text) (calls : List Call) :
    read ⟨.content, opened, calls⟩ text =
      ⟨.content, opened, calls ++ value.map fun b => .characterData [b]⟩ := by
  induction h generalizing calls with
  | nil => rw [List.map_nil, List.append_nil]; rfl
  | @plain b value text hb _ ih =>
    have hne : b ≠ 0x3C ∧ b ≠ 0x26 := by
      constructor <;> rintro rfl <;> exact hb (by decide)
    have hstep : step ⟨.content, opened, calls⟩ b =
        ⟨.content, opened, calls ++ [.characterData [b]]⟩ := by
      simp only [step, if_neg hne.1, if_neg hne.2]
    rw [read_cons, hstep, ih, List.append_assoc, List.map_cons, List.singleton_append]
  | @reference r value text hr _ ih =>
    obtain ⟨hresolve, hsemicolon⟩ := resolve_reference hr
    have href : read ⟨.textReference [], opened, calls⟩ r.2 = ⟨.textReference r.2, opened, calls⟩ := by
      refine read_collect (fun ref b hb => ?_) []
      have hne : b ≠ 0x3B := fun h => hsemicolon (h ▸ hb)
      simp only [step, if_neg hne]
    have hstep : step ⟨.textReference r.2, opened, calls⟩ 0x3B =
        ⟨.content, opened, calls ++ [.characterData [r.1]]⟩ := by
      simp only [step, if_true, hresolve]
    rw [List.cons_append, read_cons, read_append]
    change read (read ⟨.textReference [], opened, calls⟩ r.2) (0x3B :: text) = _
    rw [href, read_cons, hstep, ih, List.append_assoc, List.map_cons, List.singleton_append]

theorem read_attribute (name : List Byte) (atts : List (List Byte × List Byte)) {a : Attribute} (h : a.WellFormed) :
    read ⟨.inTag name atts, opened, calls⟩ a.write =
      ⟨.inTag name (atts ++ [(a.name, a.value)]), opened, calls⟩ := by
  have hname : read ⟨.attName name atts [], opened, calls⟩ a.name =
      ⟨.attName name atts a.name, opened, calls⟩ := by
    refine read_collect (fun att b hb => ?_) []
    have hne : b ≠ 0x3D := fun heq => h.name.not_mem (by decide) (heq ▸ hb)
    simp only [step, if_neg hne]
  calc read ⟨.inTag name atts, opened, calls⟩ a.write
      = read (read (read ⟨.attName name atts [], opened, calls⟩ a.name) (0x3D :: 0x22 :: a.written)) [0x22] := by
        rw [Attribute.write, read_append, List.cons_append]
        exact congrArg (fun r => read r [0x22]) (read_append _ a.name _)
    _ = read (read ⟨.value name atts a.name [], opened, calls⟩ a.written) [0x22] := by rw [hname]; rfl
    _ = ⟨.inTag name (atts ++ [(a.name, a.value)]), opened, calls⟩ := by
        rw [read_value name atts a.name h.written]
        rfl

theorem read_attributes (name : List Byte) {attributes : List Attribute} (h : ∀ a ∈ attributes, a.WellFormed)
    (atts : List (List Byte × List Byte)) :
    read ⟨.inTag name atts, opened, calls⟩ (attributes.flatMap Attribute.write) =
      ⟨.inTag name (atts ++ attributes.map fun a => (a.name, a.value)), opened, calls⟩ := by
  induction attributes generalizing atts with
  | nil => rw [List.map_nil, List.append_nil]; rfl
  | cons a attributes ih =>
    rw [List.flatMap_cons, read_append, read_attribute name atts (h a List.mem_cons_self),
      ih fun a ha => h a (List.mem_cons_of_mem _ ha), List.append_assoc, List.map_cons, List.singleton_append]

theorem read_start {name : List Byte} (hname : IsName name) {attributes : List Attribute}
    (h : ∀ a ∈ attributes, a.WellFormed) (hb : b ∈ delimiters) (rest : List Byte) :
    read ⟨.content, opened, calls⟩ (writeStart name attributes ++ b :: rest) =
      read ⟨.inTag name (attributes.map fun a => (a.name, a.value)), opened, calls⟩ (b :: rest) := by
  have hcollect : read ⟨.startName [], opened, calls⟩ name = ⟨.startName name, opened, calls⟩ := by
    refine read_collect (fun acc b hb => ?_) []
    have hne : b ∉ delimiters := fun h => hname.not_mem h hb
    have hslash : ¬ (acc = [] ∧ b = 0x2F) := fun h => hne (h.2 ▸ by decide)
    simp only [step, if_neg hslash, if_neg hne]
  have hafter : ∀ c ∈ delimiters, ∀ rest, read ⟨.startName name, opened, calls⟩ (c :: rest) =
      read ⟨.inTag name [], opened, calls⟩ (c :: rest) := by
    intro c hc rest
    have hslash : ¬ (name = [] ∧ c = 0x2F) := fun h => hname.ne_nil h.1
    rw [read_cons, read_cons]
    simp only [step, if_neg hslash, if_pos hc]
    rfl
  have hbegin : read ⟨.content, opened, calls⟩ (writeStart name attributes ++ b :: rest) =
      read ⟨.startName name, opened, calls⟩ (attributes.flatMap Attribute.write ++ b :: rest) := by
    rw [writeStart, List.append_assoc, List.cons_append, read_cons, read_append]
    exact congrArg (fun r => read r _) hcollect
  rw [hbegin]
  cases attributes with
  | nil => exact hafter b hb rest
  | cons a attributes =>
    have hspace : (a :: attributes).flatMap Attribute.write ++ b :: rest =
        0x20 :: ((a :: attributes).flatMap Attribute.write ++ b :: rest).tail := rfl
    rw [hspace, hafter 0x20 (by decide), ← hspace, read_append, read_attributes name h, List.nil_append]

theorem read_end {name : List Byte} (hname : IsName name) :
    read ⟨.content, name :: opened, calls⟩ (writeEnd name) =
      ⟨.content, opened, calls ++ [.endElement name]⟩ := by
  have hcollect : read ⟨.endName [], name :: opened, calls⟩ name =
      ⟨.endName name, name :: opened, calls⟩ := by
    refine read_collect (fun acc b hb => ?_) []
    have hne : b ≠ 0x3E := fun heq => hname.not_mem (by decide) (heq ▸ hb)
    simp only [step, if_neg hne]
  have hlast : step ⟨.endName name, name :: opened, calls⟩ 0x3E =
      ⟨.content, opened, calls ++ [.endElement name]⟩ := by
    simp [step]
  rw [writeEnd, List.cons_append, List.cons_append, read_cons, read_cons, read_append]
  change read (read ⟨.endName [], name :: opened, calls⟩ name) [0x3E] = _
  rw [hcollect]
  exact hlast

end Reader

def bytewise (calls : List Call) : List Call :=
  calls.flatMap fun
    | .characterData s => s.map fun b => .characterData [b]
    | call => [call]

theorem bytewise_append (a b : List Call) : bytewise (a ++ b) = bytewise a ++ bytewise b := List.flatMap_append

theorem joined_map_data (s : List Byte) (calls : List Call) :
    joined (s.map (fun b => Call.characterData [b]) ++ calls) = joinCall (.characterData s) (joined calls) := by
  induction s with
  | nil => simp [joinCall]
  | cons b s ih =>
    change joinCall (.characterData [b]) (joined (s.map (fun b => Call.characterData [b]) ++ calls)) = _
    rw [ih, joinCall_joinCall, List.singleton_append]

theorem joined_bytewise (calls : List Call) : joined (bytewise calls) = joined calls := by
  induction calls with
  | nil => rfl
  | cons call calls ih =>
    cases call with
    | startElement name atts => exact congrArg (Call.startElement name atts :: ·) ih
    | endElement name => exact congrArg (Call.endElement name :: ·) ih
    | characterData s =>
      change joined (s.map (fun b => Call.characterData [b]) ++ bytewise calls) =
        joinCall (.characterData s) (joined calls)
      rw [joined_map_data, ih]

open Reader in
mutual

/-- **A document that is well formed is read as the calls of its nodes**. -/
theorem read_node {opened : List (List Byte)} (calls : List Call) : ∀ {node : Node}, node.WellFormed →
    read ⟨.content, opened, calls⟩ node.write = ⟨.content, opened, calls ++ bytewise node.calls⟩
  | .data value written, h => by
    have hcalls : bytewise (Node.data value written).calls = value.map fun b => .characterData [b] := by
      simp [Node.calls, bytewise]
    rw [hcalls]
    exact read_text h.2 calls
  | .element name atts content, ⟨hname, hatts, _, hcontent⟩ => by
    have hcalls : bytewise (Node.element name atts content).calls =
        .startElement name (atts.map fun a => (a.name, a.value)) ::
          (bytewise (contentCalls content) ++ [.endElement name]) := by
      rw [Node.calls, List.cons_append]
      exact congrArg _ (bytewise_append _ _)
    rw [hcalls, Node.write]
    split
    · rename_i hempty
      rw [List.isEmpty_iff.mp hempty, read_start hname hatts (by decide)]
      rfl
    · have hopen :
          read ⟨.content, name :: opened, calls ++ [.startElement name (atts.map fun a => (a.name, a.value))]⟩
            (writeContent content) = ⟨.content, name :: opened,
              calls ++ [.startElement name (atts.map fun a => (a.name, a.value))] ++
                bytewise (contentCalls content)⟩ :=
        read_content _ hcontent
      have hbegin : read ⟨.inTag name (atts.map fun a => (a.name, a.value)), opened, calls⟩
          (0x3E :: (writeContent content ++ writeEnd name)) =
            read ⟨.content, name :: opened, calls ++ [.startElement name (atts.map fun a => (a.name, a.value))]⟩
              (writeContent content ++ writeEnd name) := rfl
      rw [List.cons_append, read_start hname hatts (by decide), hbegin, read_append, hopen, read_end hname,
        List.append_assoc, List.append_assoc, List.singleton_append]

theorem read_content {opened : List (List Byte)} (calls : List Call) : ∀ {content : List Node},
    ContentWellFormed content → read ⟨.content, opened, calls⟩ (writeContent content) =
      ⟨.content, opened, calls ++ bytewise (contentCalls content)⟩
  | [], _ => by
    rw [contentCalls, bytewise, List.flatMap_nil, List.append_nil]
    rfl
  | node :: content, ⟨hnode, hcontent⟩ => by
    rw [writeContent, read_append, read_node calls hnode, read_content _ hcontent, contentCalls,
      bytewise_append, List.append_assoc]

end

/-- Whether the text is a well-formed document, and the calls. -/
def tokenise : Processor := fun s =>
  let r := Reader.read {} s
  (r.mode = .content ∧ r.opened = [], r.calls)

/-- **The reader is a processor for documents**. -/
theorem tokenises_tokenise : Tokenises tokenise := by
  intro name atts content h
  have hread : Reader.read {} (Node.element name atts content).write =
      ⟨.content, [], [] ++ bytewise (Node.element name atts content).calls⟩ := read_node [] h
  rw [List.nil_append] at hread
  rw [tokenise, hread]
  exact ⟨rfl, joined_bytewise _⟩

end Lib.Markup
