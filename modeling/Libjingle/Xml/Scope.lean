import Libjingle.Xml.Printer

/-!
# Declarations that are added to others

Main results: **`Includes.prefixForNs`**, **`addPrefixes_spec`**.
-/

variable {ns p : List Uint8}

namespace Libjingle.Xml

open Lib.Markup (IsNcName)

/-- What a prefix stands for here it stands for there. -/
structure Includes (s s' : XmlnsStack) : Prop where
  stands : ∀ {p ns : List Uint8}, s.nsForPrefix p = some ns → s'.nsForPrefix p = some ns
  entries : ∀ e ∈ s.entries, e ∈ s'.entries

def Named (s : XmlnsStack) : Prop := ∀ e ∈ s.entries, e.1 = [] ∨ IsNcName e.1

variable {s s' : XmlnsStack}

theorem Includes.refl (s : XmlnsStack) : Includes s s := ⟨id, fun _ => id⟩

theorem Includes.trans {s'' : XmlnsStack} (h : Includes s s') (h' : Includes s' s'') : Includes s s'' :=
  ⟨fun hp => h'.stands (h.stands hp), fun e he => h'.entries e (h.entries e he)⟩

theorem Includes.unbound (h : Includes s s') (hp : s'.nsForPrefix p = none) : s.nsForPrefix p = none := by
  cases hs : s.nsForPrefix p with
  | none => rfl
  | some ns =>
    rw [h.stands hs] at hp
    cases hp

theorem nsForPrefix_addXmlns (s : XmlnsStack) (p ns q : List Uint8) :
    (s.addXmlns p ns).nsForPrefix q =
      if startsWithXml q = false ∧ p = q then some ns else s.nsForPrefix q := by
  unfold XmlnsStack.nsForPrefix XmlnsStack.addXmlns
  cases hxml : startsWithXml q with
  | true => simp
  | false =>
    rw [List.find?_cons]
    by_cases hpq : p = q
    · simp [hpq]
    · simp [hpq]

theorem Includes.of_fresh (h : s.nsForPrefix p = none) : Includes s (s.addXmlns p ns) := by
  refine ⟨fun {q v} hq => ?_, fun e he => List.mem_cons_of_mem _ he⟩
  have hne : ¬ (startsWithXml q = false ∧ p = q) := by
    rintro ⟨-, rfl⟩
    rw [h] at hq
    cases hq
  rw [nsForPrefix_addXmlns, if_neg hne, hq]

theorem Includes.addXmlns (h : Includes s s') (p ns : List Uint8) :
    Includes (s.addXmlns p ns) (s'.addXmlns p ns) := by
  refine ⟨fun {q v} hq => ?_, fun e he => ?_⟩
  · rw [nsForPrefix_addXmlns] at hq ⊢
    split
    · rename_i hpq
      rwa [if_pos hpq] at hq
    · rename_i hpq
      rw [if_neg hpq] at hq
      exact h.stands hq
  · exact (List.mem_cons.mp he).elim (fun heq => heq ▸ List.mem_cons_self)
      fun he => List.mem_cons_of_mem _ (h.entries e he)

theorem Includes.declareAttr (h : Includes s s') (a : Attr) : Includes (declareAttr s a) (declareAttr s' a) := by
  unfold Xml.declareAttr
  split
  · exact h.addXmlns _ _
  · split
    · exact h.addXmlns _ _
    · exact h

theorem Includes.declareAttrs (h : Includes s s') (attrs : List Attr) :
    Includes (attrs.foldl Xml.declareAttr s) (attrs.foldl Xml.declareAttr s') := by
  induction attrs generalizing s s' with
  | nil => exact h
  | cons a attrs ih => exact ih (h.declareAttr a)

/-- A namespace without a prefix in the larger scope has none in the smaller. -/
theorem Includes.prefixForNs (h : Includes s s') {isAttr : Bool}
    (hnone : s'.prefixForNs ns isAttr = none) : s.prefixForNs ns isAttr = none := by
  unfold XmlnsStack.prefixForNs at hnone ⊢
  split_ifs at hnone with hxml hxmlns hfree
  have hfree' : ¬ s.unprefixed ns isAttr = true := by
    intro hs
    apply hfree
    unfold XmlnsStack.unprefixed at hs ⊢
    split
    · rename_i hattr
      rwa [if_pos hattr] at hs
    · rename_i hattr
      rw [if_neg hattr, XmlnsStack.prefixMatchesNs_iff] at hs
      exact XmlnsStack.prefixMatchesNs_iff.mpr (h.stands hs)
  rw [if_neg hxml, if_neg hxmlns, if_neg hfree']
  rw [Option.map_eq_none_iff, List.find?_eq_none] at hnone ⊢
  intro e he hmatch
  rw [decide_eq_true_eq, XmlnsStack.prefixMatchesNs_iff] at hmatch
  refine hnone e (h.entries e he) ?_
  rw [decide_eq_true_eq, XmlnsStack.prefixMatchesNs_iff]
  exact ⟨hmatch.1, hmatch.2.1, h.stands hmatch.2.2⟩

theorem isSome_nsForPrefix {e : List Uint8 × List Uint8} (he : e ∈ s.entries)
    (hxml : startsWithXml e.1 = false) : ∃ ns, s.nsForPrefix e.1 = some ns := by
  unfold XmlnsStack.nsForPrefix
  rw [if_neg (by rw [hxml]; exact Bool.false_ne_true)]
  split
  · rename_i found _
    exact ⟨found.2, rfl⟩
  · rename_i hnone
    exact absurd (decide_eq_true rfl) (List.find?_eq_none.mp hnone e he)

theorem exists_nsForPrefix_nil (s : XmlnsStack) : ∃ ns, s.nsForPrefix [] = some ns := by
  unfold XmlnsStack.nsForPrefix
  rw [if_neg (by decide)]
  split
  · rename_i found _
    exact ⟨found.2, rfl⟩
  · exact ⟨[], if_pos rfl⟩

theorem Includes.prefixForNs_none (h : Includes s s') {isAttr : Bool}
    (hentries : ∀ e ∈ s'.entries, e ∈ s.entries ∨ e.2 ≠ ns) (hnone : s.prefixForNs ns isAttr = none) :
    s'.prefixForNs ns isAttr = none := by
  have hback : ∀ {p v : List Uint8}, s.nsForPrefix p = some v → s'.nsForPrefix p = some ns →
      s.nsForPrefix p = some ns := by
    intro p v hv hns
    rwa [h.stands hv, ← hv] at hns
  unfold XmlnsStack.prefixForNs at hnone ⊢
  split_ifs at hnone with hxml hxmlns hfree
  have hfree' : ¬ s'.unprefixed ns isAttr = true := by
    intro hs
    apply hfree
    unfold XmlnsStack.unprefixed at hs ⊢
    split
    · rename_i hattr
      rwa [if_pos hattr] at hs
    · rename_i hattr
      rw [if_neg hattr, XmlnsStack.prefixMatchesNs_iff] at hs
      obtain ⟨v, hv⟩ := exists_nsForPrefix_nil s
      exact XmlnsStack.prefixMatchesNs_iff.mpr (hback hv hs)
  rw [if_neg hxml, if_neg hxmlns, if_neg hfree']
  rw [Option.map_eq_none_iff, List.find?_eq_none] at hnone ⊢
  intro e he hmatch
  rw [decide_eq_true_eq, XmlnsStack.prefixMatchesNs_iff] at hmatch
  have hmem := (hentries e he).resolve_right (not_not.mpr hmatch.1)
  refine hnone e hmem ?_
  rw [decide_eq_true_eq, XmlnsStack.prefixMatchesNs_iff]
  refine ⟨hmatch.1, hmatch.2.1, ?_⟩
  cases hstarts : startsWithXml e.1 with
  | true =>
    have hfixed : s'.nsForPrefix e.1 = s.nsForPrefix e.1 := by
      unfold XmlnsStack.nsForPrefix
      rw [if_pos hstarts, if_pos hstarts]
    exact hfixed ▸ hmatch.2.2
  | false =>
    obtain ⟨v, hv⟩ := isSome_nsForPrefix hmem hstarts
    exact hback hv hmatch.2.2

theorem prefixForNs_of_mem (hmem : (p, ns) ∈ s.entries) (hne : p ≠ [])
    (hstands : s.nsForPrefix p = some ns) (isAttr : Bool) : s.prefixForNs ns isAttr ≠ none := by
  unfold XmlnsStack.prefixForNs
  split_ifs
  · exact Option.some_ne_none _
  · exact Option.some_ne_none _
  · exact Option.some_ne_none _
  · rw [Ne, Option.map_eq_none_iff, List.find?_eq_none]
    intro hall
    refine hall _ hmem ?_
    rw [decide_eq_true_eq, XmlnsStack.prefixMatchesNs_iff]
    exact ⟨rfl, Or.inr hne, hstands⟩

/-! ## New prefixes -/

/-- What prefixes for some namespaces do to the declarations. -/
structure Prefixes (s : XmlnsStack) (done : List (List Uint8 × Bool))
    (r : XmlnsStack × List (List Uint8 × List Uint8)) : Prop where
  stack : r.1 = { s with entries := r.2.reverse ++ s.entries }
  includes : Includes s r.1
  resolved : ∀ use ∈ done, r.1.prefixForNs use.1 use.2 ≠ none
  named : ∀ d ∈ r.2, IsNcName d.1 ∧ startsWithXml d.1 = false
  fresh : ∀ d ∈ r.2, s.nsForPrefix d.1 = none
  bound : ∀ d ∈ r.2, r.1.nsForPrefix d.1 ≠ none
  nodup : (r.2.map Prod.fst).Nodup
  needed : ∀ d ∈ r.2, ∃ use ∈ done, use.1 = d.2 ∧ s.prefixForNs use.1 use.2 = none
  complete : ∀ use ∈ done, s.prefixForNs use.1 use.2 = none → ∃ d ∈ r.2, d.2 = use.1

theorem Prefixes.nil (s : XmlnsStack) : Prefixes s [] (s, []) where
  stack := rfl
  includes := .refl s
  resolved := nofun
  named := nofun
  fresh := nofun
  bound := nofun
  nodup := List.nodup_nil
  needed := nofun
  complete := nofun

theorem Prefixes.addPrefix {done : List (List Uint8 × Bool)} {r : XmlnsStack × List (List Uint8 × List Uint8)}
    (h : Prefixes s done r) (use : List Uint8 × Bool) : Prefixes s (done ++ [use]) (addPrefix r use) := by
  have hmem : ∀ {use' : List Uint8 × Bool}, use' ∈ done ++ [use] → use' ∈ done ∨ use' = use := fun hu =>
    (List.mem_append.mp hu).imp id List.mem_singleton.mp
  cases hfound : r.1.prefixForNs use.1 use.2 with
  | some p =>
    have hsame : Xml.addPrefix r use = r := by
      unfold Xml.addPrefix XmlnsStack.addNewPrefix
      rw [hfound]
      rfl
    rw [hsame]
    refine ⟨h.stack, h.includes, ?_, h.named, h.fresh, h.bound, h.nodup, ?_, ?_⟩
    · intro use' huse'
      rcases hmem huse' with hold | rfl
      · exact h.resolved use' hold
      · exact hfound ▸ Option.some_ne_none p
    · intro d hd
      obtain ⟨use', huse', heq⟩ := h.needed d hd
      exact ⟨use', List.mem_append_left _ huse', heq⟩
    · intro use' huse' hnone
      rcases hmem huse' with hold | rfl
      · exact h.complete use' hold hnone
      · by_contra hno
        have hkept : r.1.prefixForNs use'.1 use'.2 = none := by
          refine h.includes.prefixForNs_none (fun e he => ?_) hnone
          rw [h.stack] at he
          rcases List.mem_append.mp he with hnew | hold
          · exact Or.inr fun heq => hno ⟨e, List.mem_reverse.mp hnew, heq⟩
          · exact Or.inl hold
        rw [hfound] at hkept
        cases hkept
  | none =>
    obtain ⟨hname, hxml, hfresh⟩ := XmlnsStack.newPrefix_spec r.1 use.1
    have hadded : Xml.addPrefix r use =
        (r.1.addXmlns (r.1.newPrefix use.1) use.1, r.2 ++ [(r.1.newPrefix use.1, use.1)]) := by
      unfold Xml.addPrefix XmlnsStack.addNewPrefix
      rw [hfound]
      rfl
    rw [hadded]
    generalize r.1.newPrefix use.1 = p at hname hxml hfresh
    have hinc : Includes r.1 (r.1.addXmlns p use.1) := .of_fresh hfresh
    have hbound : (r.1.addXmlns p use.1).nsForPrefix p = some use.1 := by
      rw [nsForPrefix_addXmlns, if_pos ⟨hxml, rfl⟩]
    refine ⟨?_, h.includes.trans hinc, ?_, ?_, ?_, ?_, ?_, ?_, ?_⟩
    · rw [h.stack]
      simp [XmlnsStack.addXmlns]
    · intro use' huse'
      rcases hmem huse' with hold | rfl
      · exact fun hnone => h.resolved use' hold (hinc.prefixForNs hnone)
      · exact prefixForNs_of_mem List.mem_cons_self hname.ne_nil hbound _
    · intro d hd
      rcases List.mem_append.mp hd with hold | hnew
      · exact h.named d hold
      · rw [List.mem_singleton.mp hnew]
        exact ⟨hname, hxml⟩
    · intro d hd
      rcases List.mem_append.mp hd with hold | hnew
      · exact h.fresh d hold
      · rw [List.mem_singleton.mp hnew]
        exact h.includes.unbound hfresh
    · intro d hd
      rcases List.mem_append.mp hd with hold | hnew
      · exact fun hnone => h.bound d hold (hinc.unbound hnone)
      · rw [List.mem_singleton.mp hnew, hbound]
        exact Option.some_ne_none _
    · rw [List.map_append, List.nodup_append]
      refine ⟨h.nodup, List.nodup_singleton _, ?_⟩
      rintro q hq q' hq' rfl
      obtain ⟨d, hd, rfl⟩ := List.mem_map.mp hq
      rw [List.map_singleton, List.mem_singleton] at hq'
      exact h.bound d hd (hq' ▸ hfresh)
    · intro d hd
      rcases List.mem_append.mp hd with hold | hnew
      · obtain ⟨use', huse', heq⟩ := h.needed d hold
        exact ⟨use', List.mem_append_left _ huse', heq⟩
      · rw [List.mem_singleton.mp hnew]
        exact ⟨use, List.mem_append_right _ List.mem_cons_self, rfl, h.includes.prefixForNs hfound⟩
    · intro use' huse' hnone
      rcases hmem huse' with hold | rfl
      · obtain ⟨d, hd, heq⟩ := h.complete use' hold hnone
        exact ⟨d, List.mem_append_left _ hd, heq⟩
      · exact ⟨(p, use'.1), List.mem_append_right _ List.mem_cons_self, rfl⟩

/-- **After the loop of `PrintElement` over the names, every name has its prefix**. -/
theorem addPrefixes_spec (s : XmlnsStack) (name : QName) (attrs : List Attr) :
    Prefixes s (uses name attrs) (addPrefixes s name attrs) := by
  have hrun : ∀ (todo done : List (List Uint8 × Bool)) (r : XmlnsStack × List (List Uint8 × List Uint8)),
      Prefixes s done r → Prefixes s (done ++ todo) (todo.foldl addPrefix r) := by
    intro todo
    induction todo with
    | nil =>
      intro done r h
      rwa [List.append_nil]
    | cons use todo ih =>
      intro done r h
      rw [List.foldl_cons, ← List.singleton_append, ← List.append_assoc]
      exact ih _ _ (h.addPrefix use)
  exact hrun (uses name attrs) [] (s, []) (.nil s)

end Libjingle.Xml
