import Mathlib.Data.List.TakeWhile
import Libjingle.Base.Numerals
import Libjingle.Lib.Markup
import Libjingle.Xml.Element

/-!
# The namespaces in scope (`xmllite/xmlnsstack.{h,cc}`)

Main results: **`matches_of_prefixForNs`**, **`newPrefix_spec`**.
-/

variable {base p : List Uint8}

namespace Libjingle.Xml

open Lib.Markup (IsNcName isNcName_ascii)

def nsXml : List Uint8 := text "http://www.w3.org/XML/1998/namespace"

def nsXmlns : List Uint8 := text "http://www.w3.org/2000/xmlns/"

def strXml : List Uint8 := text "xml"

def strXmlns : List Uint8 := text "xmlns"

/-- `XmlnsStack`: the declarations, last first, and the frames. -/
structure XmlnsStack where
  entries : List (List Uint8 × List Uint8) := []
  depths : List ℕ := []
deriving DecidableEq, Repr

def startsWithXml : List Uint8 → Bool
  | x :: m :: l :: _ => (x = 0x78 ∨ x = 0x58) ∧ (m = 0x6D ∨ m = 0x4D) ∧ (l = 0x6C ∨ l = 0x4C)
  | _ => false

/-- A letter. -/
def isAsciiLetter (ch : Uint8) : Bool := (0x61 ≤ ch ∧ ch ≤ 0x7A) ∨ (0x41 ≤ ch ∧ ch ≤ 0x5A)

/-- `AsciiLower`. -/
def asciiLower (s : List Uint8) : List Uint8 := s.map fun ch => if 0x41 ≤ ch ∧ ch ≤ 0x5A then ch + 0x20 else ch

/-- The last letters of a namespace without its extension. -/
def suggestPrefix (ns : List Uint8) : List Uint8 :=
  let extension := (ns.reverse.takeWhile (· ≠ 0x2E)).length + 1
  let ns := if ns.contains 0x2E ∧ extension ≤ 4 + 1 then ns.take (ns.length - extension) else ns
  let letters := ((ns.reverse.dropWhile fun ch => !isAsciiLetter ch).takeWhile isAsciiLetter).reverse
  let candidate := asciiLower (if letters.length > 4 then letters.take 3 else letters)
  if letters ≠ [] ∧ ¬ strXml <+: candidate then candidate else text "ns"

def numbered (base : List Uint8) : ℕ → List Uint8
  | 0 => base
  | n + 1 => base ++ formatNumber 10 1 (n + 2)

namespace XmlnsStack

variable (s : XmlnsStack)

def pushFrame : XmlnsStack := { s with depths := s.entries.length :: s.depths }

def popFrame : XmlnsStack :=
  match s.depths with
  | size :: depths => { entries := s.entries.drop (s.entries.length - size), depths := depths }
  | [] => s

def addXmlns (p ns : List Uint8) : XmlnsStack := { s with entries := (p, ns) :: s.entries }

/-- `XmlnsStack::NsForPrefix`. -/
def nsForPrefix (p : List Uint8) : Option (List Uint8) :=
  if startsWithXml p then
    if p = strXml then some nsXml else if p = strXmlns then some nsXmlns else none
  else
    match s.entries.find? fun e => e.1 = p with
    | some e => some e.2
    | none => if p = [] then some [] else none

/-- `XmlnsStack::PrefixMatchesNs`. -/
def prefixMatchesNs (p ns : List Uint8) : Bool := s.nsForPrefix p = some ns

/-- Whether the namespace needs no prefix. -/
def unprefixed (ns : List Uint8) (isAttr : Bool) : Bool := if isAttr then ns = [] else s.prefixMatchesNs [] ns

/-- `XmlnsStack::PrefixForNs`. -/
def prefixForNs (ns : List Uint8) (isAttr : Bool) : Option (List Uint8) :=
  if ns = nsXml then some strXml
  else if ns = nsXmlns then some strXmlns
  else if s.unprefixed ns isAttr then some []
  else
    (s.entries.find? fun e => e.2 = ns ∧ (isAttr = false ∨ e.1 ≠ []) ∧ s.prefixMatchesNs e.1 ns).map Prod.fst

/-- `XmlnsStack::FormatQName`. -/
def formatQName (name : QName) (isAttr : Bool) : List Uint8 :=
  let p := (s.prefixForNs name.ns isAttr).getD []
  if p = [] then name.localPart else p ++ Lib.Markup.colon :: name.localPart

/-- The loop of `AddNewPrefix`. -/
def firstFree (base : List Uint8) : ℕ → ℕ → List Uint8
  | 0, n => numbered base n
  | fuel + 1, n =>
    if (s.nsForPrefix (numbered base n)).isSome then firstFree base fuel (n + 1) else numbered base n

/-- The prefix that is made up for a namespace. -/
def newPrefix (ns : List Uint8) : List Uint8 := s.firstFree (suggestPrefix ns) s.entries.length 0

/-- `XmlnsStack::AddNewPrefix`. -/
def addNewPrefix (ns : List Uint8) (isAttr : Bool) : Option (List Uint8) × XmlnsStack :=
  if (s.prefixForNs ns isAttr).isSome then (none, s)
  else (some (s.newPrefix ns), s.addXmlns (s.newPrefix ns) ns)

/-! ## Prefixes that are found -/

variable {s}

theorem prefixMatchesNs_iff {ns : List Uint8} : s.prefixMatchesNs p ns = true ↔ s.nsForPrefix p = some ns :=
  decide_eq_true_iff

/-- A prefix that is found stands for the namespace. -/
theorem matches_of_prefixForNs {ns : List Uint8} {isAttr : Bool} (h : s.prefixForNs ns isAttr = some p) :
    p = [] ∧ s.unprefixed ns isAttr = true ∨ p ≠ [] ∧ s.nsForPrefix p = some ns := by
  unfold prefixForNs at h
  split at h
  · rename_i hns
    obtain rfl := Option.some_inj.mp h
    rw [hns]
    exact Or.inr ⟨by decide, rfl⟩
  · split at h
    · rename_i hns
      obtain rfl := Option.some_inj.mp h
      rw [hns]
      exact Or.inr ⟨by decide, rfl⟩
    · split at h
      · rename_i hnone
        obtain rfl := Option.some_inj.mp h
        exact Or.inl ⟨rfl, hnone⟩
      · obtain ⟨e, hfind, rfl⟩ := Option.map_eq_some_iff.mp h
        have he := List.find?_some hfind
        rw [decide_eq_true_eq, prefixMatchesNs_iff] at he
        obtain ⟨-, hattr, hmatch⟩ := he
        by_cases hp : e.1 = []
        · left
          rw [hp] at hmatch ⊢
          obtain rfl : isAttr = false := hattr.resolve_right (not_not.mpr hp)
          exact ⟨rfl, prefixMatchesNs_iff.mpr hmatch⟩
        · exact Or.inr ⟨hp, hmatch⟩

end XmlnsStack

/-! ## Prefixes that are made up -/

/-- A base of prefixes: small letters, and not those of `xml`. -/
structure Suggested (base : List Uint8) : Prop where
  ne_nil : base ≠ []
  letters : ∀ b ∈ base, 0x61 ≤ b.toNat ∧ b.toNat ≤ 0x7A
  notXml : startsWithXml base = false

theorem asciiLower_letter {ch : Uint8} (h : isAsciiLetter ch = true) :
    0x61 ≤ (if 0x41 ≤ ch ∧ ch ≤ 0x5A then ch + 0x20 else ch).toNat ∧
      (if 0x41 ≤ ch ∧ ch ≤ 0x5A then ch + 0x20 else ch).toNat ≤ 0x7A := by
  simp only [isAsciiLetter, decide_eq_true_eq, BitVec.le_def] at h
  split
  · rename_i hupper
    simp only [BitVec.le_def] at hupper
    simp at h hupper ⊢
    omega
  · rename_i hupper
    simp only [BitVec.le_def] at hupper
    simp at h hupper ⊢
    omega

theorem startsWithXml_small (hletters : ∀ b ∈ base, 0x61 ≤ b.toNat)
    (h : startsWithXml base = true) : strXml <+: base := by
  have hsmall : ∀ {small : Uint8} {b : Uint8}, b ∈ base → b = small ∨ b = small - 0x20 →
      (small - 0x20).toNat < 0x61 → b = small := by
    intro small b hb hor hlt
    refine hor.resolve_right fun heq => ?_
    have := hletters b hb
    rw [heq] at this
    omega
  match base, h with
  | x :: m :: l :: rest, h =>
    simp only [startsWithXml, decide_eq_true_eq] at h
    obtain rfl := hsmall (b := x) (by simp) h.1 (by decide)
    obtain rfl := hsmall (b := m) (by simp) h.2.1 (by decide)
    obtain rfl := hsmall (b := l) (by simp) h.2.2 (by decide)
    exact ⟨rest, rfl⟩

theorem suggestPrefix_spec (ns : List Uint8) : Suggested (suggestPrefix ns) := by
  unfold suggestPrefix
  extract_lets extension ns' letters candidate
  split
  · rename_i h
    have hsub : ∀ ch ∈ letters, isAsciiLetter ch = true := by
      intro ch hch
      exact List.mem_takeWhile_imp (List.mem_reverse.mp hch)
    have hletters : ∀ b ∈ candidate, 0x61 ≤ b.toNat ∧ b.toNat ≤ 0x7A := by
      intro b hb
      obtain ⟨ch, hch, rfl⟩ := List.mem_map.mp hb
      refine asciiLower_letter (hsub ch ?_)
      split at hch
      · exact List.mem_of_mem_take hch
      · exact hch
    refine ⟨?_, hletters, ?_⟩
    · intro hnil
      have hlen : candidate.length = 0 := by rw [hnil]; rfl
      have hpos : 0 < letters.length := List.length_pos_of_ne_nil h.1
      simp only [candidate, asciiLower, List.length_map] at hlen
      split at hlen
      · rw [List.length_take] at hlen
        omega
      · omega
    · by_contra hxml
      exact h.2 (startsWithXml_small (fun b hb => (hletters b hb).1) (Bool.of_not_eq_false hxml))
  · exact ⟨by decide, by decide, by decide⟩

theorem formatNumber_digit {n : ℕ} {b : Uint8} (hb : b ∈ formatNumber 10 1 n) : 0x30 ≤ b.toNat ∧ b.toNat ≤ 0x39 := by
  obtain ⟨ds, hds, hlt, -⟩ := formatNumber_eq 1 n (show 1 < 10 by omega)
  rw [hds] at hb
  obtain ⟨d, hd, rfl⟩ := List.mem_map.mp hb
  have := hlt d hd
  rw [digitChar, BitVec.toNat_ofNat]
  omega

theorem formatNumber_injective {m n : ℕ} (h : formatNumber 10 1 m = formatNumber 10 1 n) : m = n := by
  obtain ⟨ds, hds, hlt, hm⟩ := formatNumber_eq 1 m (show 1 < 10 by omega)
  obtain ⟨es, hes, hlt', hn⟩ := formatNumber_eq 1 n (show 1 < 10 by omega)
  have hmap : (ds.map digitChar).filterMap (digitOf 10) = (es.map digitChar).filterMap (digitOf 10) := by
    rw [← hds, ← hes, h]
  rw [filterMap_digitOf (by omega) hlt, filterMap_digitOf (by omega) hlt'] at hmap
  rw [← hm, ← hn, hmap]

theorem numbered_injective (base : List Uint8) : Function.Injective (numbered base) := by
  have hne : ∀ n, base ≠ base ++ formatNumber 10 1 (n + 2) := fun n heq =>
    formatNumber_ne_nil one_pos (List.append_right_eq_self.mp heq.symm)
  intro m n hmn
  match m, n, hmn with
  | 0, 0, _ => rfl
  | 0, n + 1, hmn => exact absurd hmn (hne n)
  | m + 1, 0, hmn => exact absurd hmn.symm (hne m)
  | m + 1, n + 1, hmn =>
    have := formatNumber_injective (List.append_cancel_left hmn)
    omega

namespace Suggested

variable {base : List Uint8}

theorem numbered_byte (h : Suggested base) (n : ℕ) {b : Uint8} (hb : b ∈ numbered base n) :
    0x61 ≤ b.toNat ∧ b.toNat ≤ 0x7A ∨ 0x30 ≤ b.toNat ∧ b.toNat ≤ 0x39 := by
  cases n with
  | zero => exact Or.inl (h.letters b hb)
  | succ n => exact (List.mem_append.mp hb).imp (h.letters b) formatNumber_digit

theorem isNcName (h : Suggested base) (n : ℕ) : IsNcName (numbered base n) := by
  have hin : ∀ {r : ℕ × ℕ} {ranges : List (ℕ × ℕ)}, r ∈ ranges → ∀ {k : ℕ}, r.1 ≤ k ∧ k ≤ r.2 →
      Lib.Markup.inRanges ranges k = true :=
    fun hr _ hk => List.any_eq_true.mpr ⟨_, hr, decide_eq_true hk⟩
  have hbytes : ∀ b ∈ numbered base n, b.toNat < 0x80 ∧
      Lib.Markup.inRanges (Lib.Markup.nameStartRanges ++ Lib.Markup.nameRanges) b.toNat = true := by
    intro b hb
    rcases h.numbered_byte n hb with hletter | hdigit
    · exact ⟨by omega, hin (r := (0x61, 0x7A)) (by decide) hletter⟩
    · exact ⟨by omega, hin (r := (0x30, 0x39)) (by decide) hdigit⟩
  obtain ⟨rest, hrest⟩ : ∃ rest, numbered base n = base ++ rest := by
    cases n with
    | zero => exact ⟨[], (List.append_nil _).symm⟩
    | succ n => exact ⟨_, rfl⟩
  obtain ⟨b, base', rfl⟩ := List.exists_cons_of_ne_nil h.ne_nil
  rw [List.cons_append] at hrest
  rw [hrest] at hbytes ⊢
  have hletter := h.letters b List.mem_cons_self
  exact isNcName_ascii (hin (r := (0x61, 0x7A)) (by decide) hletter) (by omega)
    fun b hb => hbytes b (List.mem_cons_of_mem _ hb)

theorem notXml_numbered (h : Suggested base) (n : ℕ) : startsWithXml (numbered base n) = false := by
  cases n with
  | zero => exact h.notXml
  | succ n =>
    have hdigits := fun b => formatNumber_digit (n := n + 2) (b := b)
    change startsWithXml (base ++ formatNumber 10 1 (n + 2)) = false
    generalize formatNumber 10 1 (n + 2) = digits at hdigits
    have hnot : ∀ d ∈ digits, ∀ c : Uint8, 0x39 < c.toNat → d ≠ c := by
      rintro d hd _ hc rfl
      have := hdigits d hd
      omega
    match base, h.notXml, h.ne_nil with
    | [x], _, _ =>
      match digits, hnot with
      | [], _ => rfl
      | [_], _ => rfl
      | m :: l :: rest, hnot =>
        refine decide_eq_false fun hxml => ?_
        exact hxml.2.1.elim (hnot m List.mem_cons_self _ (by decide)) (hnot m List.mem_cons_self _ (by decide))
    | [x, m], _, _ =>
      match digits, hnot with
      | [], _ => rfl
      | l :: rest, hnot =>
        refine decide_eq_false fun hxml => ?_
        exact hxml.2.2.elim (hnot l List.mem_cons_self _ (by decide)) (hnot l List.mem_cons_self _ (by decide))
    | x :: m :: l :: rest, hnotXml, _ => exact hnotXml

end Suggested

namespace XmlnsStack

variable {s : XmlnsStack}

theorem mem_entries_of_nsForPrefix (hp : p ≠ []) (hxml : startsWithXml p = false)
    (h : (s.nsForPrefix p).isSome) : p ∈ s.entries.map Prod.fst := by
  unfold nsForPrefix at h
  rw [if_neg (by rw [hxml]; exact Bool.false_ne_true)] at h
  split at h
  · rename_i e hfind
    exact List.mem_map.mpr ⟨e, List.mem_of_find?_eq_some hfind, by simpa using List.find?_some hfind⟩
  · rw [if_neg hp] at h
    cases h

theorem firstFree_spec {fuel n k : ℕ} (hn : n ≤ k) (hk : k ≤ n + fuel)
    (hfree : s.nsForPrefix (numbered base k) = none) :
    ∃ m, n ≤ m ∧ m ≤ k ∧ s.firstFree base fuel n = numbered base m ∧
      s.nsForPrefix (numbered base m) = none ∧
      ∀ j, n ≤ j → j < m → (s.nsForPrefix (numbered base j)).isSome = true := by
  induction fuel generalizing n with
  | zero =>
    obtain rfl : n = k := by omega
    exact ⟨n, le_rfl, le_rfl, rfl, hfree, fun j hj hlt => absurd hlt (Nat.not_lt.mpr hj)⟩
  | succ fuel ih =>
    unfold firstFree
    split
    · rename_i hbound
      have hne : n ≠ k := by
        rintro rfl
        rw [hfree] at hbound
        cases hbound
      obtain ⟨m, hm, hmk, heq, hnone, hall⟩ := ih (n := n + 1) (by omega) (by omega)
      refine ⟨m, by omega, hmk, heq, hnone, fun j hj hlt => ?_⟩
      rcases Nat.eq_or_lt_of_le hj with rfl | hj
      · exact hbound
      · exact hall j hj hlt
    · rename_i hunbound
      exact ⟨n, le_rfl, hn, rfl, Option.not_isSome_iff_eq_none.mp hunbound,
        fun j hj hlt => absurd hlt (Nat.not_lt.mpr hj)⟩

theorem exists_free (h : Suggested base) : ∃ k ≤ s.entries.length, s.nsForPrefix (numbered base k) = none := by
  by_contra hall
  simp only [not_exists, not_and] at hall
  have hsub : (List.range (s.entries.length + 1)).map (numbered base) ⊆ s.entries.map Prod.fst := by
    intro p hp
    obtain ⟨k, hk, rfl⟩ := List.mem_map.mp hp
    have hbound := hall k (Nat.lt_succ_iff.mp (List.mem_range.mp hk))
    exact mem_entries_of_nsForPrefix (h.isNcName k).ne_nil (h.notXml_numbered k)
      (Option.isSome_iff_ne_none.mpr hbound)
  have hnodup : ((List.range (s.entries.length + 1)).map (numbered base)).Nodup :=
    List.nodup_range.map (numbered_injective base)
  have hlen := (List.subperm_of_subset hnodup hsub).length_le
  rw [List.length_map, List.length_map, List.length_range] at hlen
  omega

theorem newPrefix_first (s : XmlnsStack) (ns : List Uint8) :
    ∃ k ≤ s.entries.length, s.newPrefix ns = numbered (suggestPrefix ns) k ∧
      s.nsForPrefix (numbered (suggestPrefix ns) k) = none ∧
      ∀ j < k, (s.nsForPrefix (numbered (suggestPrefix ns) j)).isSome = true := by
  obtain ⟨free, hle, hfree⟩ := s.exists_free (suggestPrefix_spec ns)
  have hfuel : free ≤ 0 + s.entries.length := by omega
  obtain ⟨k, -, hk, heq, hnone, hall⟩ := firstFree_spec (Nat.zero_le free) hfuel hfree
  exact ⟨k, by omega, heq, hnone, fun j hj => hall j (Nat.zero_le j) hj⟩

/-- **A new prefix is a name that stands for nothing yet**. -/
theorem newPrefix_spec (s : XmlnsStack) (ns : List Uint8) :
    IsNcName (s.newPrefix ns) ∧ startsWithXml (s.newPrefix ns) = false ∧
      s.nsForPrefix (s.newPrefix ns) = none := by
  have hbase := suggestPrefix_spec ns
  obtain ⟨k, -, heq, hnone, -⟩ := s.newPrefix_first ns
  rw [heq]
  exact ⟨hbase.isNcName k, hbase.notXml_numbered k, hnone⟩

end XmlnsStack

end Libjingle.Xml
