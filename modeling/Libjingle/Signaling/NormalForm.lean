import Libjingle.Signaling.Jid

/-!
# The normal form of Jabber ids (`xmpp/jid.cc`)

Main result: **`normal_iff`**.

* `Prepared`: what the three loops make of the parts. They change nothing when they run again, and so
  **`parse_str`**: an id that is written and read is the same.
-/

variable {domain resource result node : Name}

namespace Libjingle.Signaling.Jid

/-! ## Normal ids -/

def isControl (ch : Uint8) : Bool := ch ≤ 0x1F || ch == 0x7F

/-- A label that `PrepDomainLabel` leaves as it is. -/
structure GoodLabel (label : Name) : Prop where
  ne_nil : label ≠ []
  short : label.length ≤ 63
  allowed : ∀ ch ∈ label, refusedInLabel ch = false
  first : label.head? ≠ some 0x2D
  last : label.getLast? ≠ some 0x2D

/-- An id that is its own normal form. -/
structure Normal (jid : Jid) : Prop where
  parse_str : parse jid.str = jid
  node : ∀ ch ∈ jid.node, refusedInNode ch = false
  domain : ∀ label ∈ jid.domain.splitOn 0x2E, GoodLabel label
  resource : ∀ ch ∈ jid.resource, isControl ch = false
  short : jid.node.length ≤ 1023 ∧ jid.domain.length ≤ 1023 ∧ jid.resource.length ≤ 1023

/-! ## Characters -/

theorem character_spec : ∀ ch : Uint8, (lower (lower ch) = lower ch ∧ refusedInNode (lower ch) = refusedInNode ch ∧
      refusedInLabel (lower ch) = refusedInLabel ch ∧ (lower ch = 0x2D ↔ ch = 0x2D)) ∧
    isControl (if refusedInResource ch then 0 else ch) = isControl ch ∧
      (if refusedInResource (if refusedInResource ch then 0 else ch) then 0
        else if refusedInResource ch then 0 else ch) = if refusedInResource ch then 0 else ch := by
  decide +kernel

theorem lower_lower (ch : Uint8) : lower (lower ch) = lower ch := (character_spec ch).1.1

theorem refusedInNode_lower (ch : Uint8) : refusedInNode (lower ch) = refusedInNode ch :=
  (character_spec ch).1.2.1

theorem refusedInLabel_lower (ch : Uint8) : refusedInLabel (lower ch) = refusedInLabel ch :=
  (character_spec ch).1.2.2.1

theorem lower_eq_hyphen (ch : Uint8) : lower ch = 0x2D ↔ ch = 0x2D := (character_spec ch).1.2.2.2

theorem isControl_ite (ch : Uint8) : isControl (if refusedInResource ch then 0 else ch) = isControl ch :=
  (character_spec ch).2.1

theorem refusedInResource_ite (ch : Uint8) :
    (if refusedInResource (if refusedInResource ch then 0 else ch) then 0
      else if refusedInResource ch then 0 else ch) = if refusedInResource ch then 0 else ch :=
  (character_spec ch).2.2

/-! ## Parts -/

theorem prepNode_eq_some (h : prepNode node = some result) :
    (∀ ch ∈ result, refusedInNode ch = false) ∧ result.length ≤ 1023 ∧ prepNode result = some result := by
  unfold prepNode at h
  split_ifs at h with hbad
  obtain rfl := Option.some_inj.mp h
  rw [not_or, Bool.not_eq_true, List.any_eq_false, Nat.not_lt] at hbad
  obtain ⟨hchars, hlength⟩ := hbad
  have hresult : ∀ ch ∈ node.map lower, refusedInNode ch = false := by
    intro ch hch
    obtain ⟨ch, hmem, rfl⟩ := List.mem_map.mp hch
    rw [refusedInNode_lower]
    exact Bool.eq_false_iff.mpr (hchars ch hmem)
  have hshort : (node.map lower).length ≤ 1023 := by rwa [List.length_map]
  refine ⟨hresult, hshort, ?_⟩
  have hany : ¬ ((node.map lower).any refusedInNode = true ∨ (node.map lower).length > 1023) := by
    rw [not_or, Bool.not_eq_true, List.any_eq_false, Nat.not_lt]
    exact ⟨fun ch hch => Bool.eq_false_iff.mp (hresult ch hch), hshort⟩
  rw [prepNode, if_neg hany, List.map_map]
  exact congrArg some (List.map_congr_left fun ch _ => lower_lower ch)

theorem prepResource_eq_some (h : prepResource resource = some result) :
    result.length ≤ 1023 ∧ prepResource result = some result ∧
      ((∀ ch ∈ result, isControl ch = false) ↔ ∀ ch ∈ resource, isControl ch = false) := by
  unfold prepResource at h
  split_ifs at h with hlong
  obtain rfl := Option.some_inj.mp h
  refine ⟨by rwa [List.length_map, ← Nat.not_lt], ?_, ?_⟩
  · rw [prepResource, List.length_map, if_neg hlong, List.map_map]
    exact congrArg some (List.map_congr_left fun ch _ => refusedInResource_ite ch)
  · rw [List.forall_mem_map]
    exact forall₂_congr fun ch _ => by rw [isControl_ite]

theorem prepDomainLabel_eq_some_iff {label : Name} :
    prepDomainLabel label = some result ↔ GoodLabel label ∧ label.map lower = result := by
  have hgood : ¬ (label.any refusedInLabel ∨ label.length = 0 ∨ label.length > 63 ∨
      label.head? = some 0x2D ∨ label.getLast? = some 0x2D) ↔ GoodLabel label := by
    simp only [not_or, Bool.not_eq_true, List.any_eq_false, Nat.not_lt, List.length_eq_zero_iff]
    exact ⟨fun ⟨h, hne, hshort, hfirst, hlast⟩ => ⟨hne, hshort, h, hfirst, hlast⟩,
      fun h => ⟨h.allowed, h.ne_nil, h.short, h.first, h.last⟩⟩
  rw [← hgood, prepDomainLabel]
  split_ifs with hbad
  · exact ⟨False.elim, fun h => absurd hbad h.1⟩
  · rw [Option.some_inj]
    exact ⟨fun h => ⟨hbad, h⟩, fun h => h.2⟩

theorem GoodLabel.lower {label : Name} (h : GoodLabel label) : GoodLabel (label.map lower) where
  ne_nil := fun hnil => h.ne_nil (List.map_eq_nil_iff.mp hnil)
  short := by rw [List.length_map]; exact h.short
  allowed := fun ch hch => by
    obtain ⟨ch, hmem, rfl⟩ := List.mem_map.mp hch
    rw [refusedInLabel_lower]
    exact h.allowed ch hmem
  first := fun hfirst => by
    rw [List.head?_map, Option.map_eq_some_iff] at hfirst
    obtain ⟨ch, hch, hlower⟩ := hfirst
    exact h.first (hch.trans (congrArg some ((lower_eq_hyphen ch).mp hlower)))
  last := fun hlast => by
    rw [List.getLast?_map, Option.map_eq_some_iff] at hlast
    obtain ⟨ch, hch, hlower⟩ := hlast
    exact h.last (hch.trans (congrArg some ((lower_eq_hyphen ch).mp hlower)))

theorem mapM_prepDomainLabel {labels result : List Name} :
    labels.mapM prepDomainLabel = some result ↔
      (∀ label ∈ labels, GoodLabel label) ∧ labels.map (List.map Jid.lower) = result := by
  induction labels generalizing result with
  | nil =>
    rw [List.mapM_nil, List.map_nil]
    exact ⟨fun h => ⟨fun _ hmem => absurd hmem List.not_mem_nil, Option.some_inj.mp h⟩,
      fun h => congrArg some h.2⟩
  | cons label labels ih =>
    rw [List.mapM_cons, Option.bind_eq_bind, Option.bind_eq_some_iff, List.forall_mem_cons, List.map_cons]
    constructor
    · rintro ⟨first, hfirst, h⟩
      obtain ⟨rest, hrest, h⟩ := Option.bind_eq_some_iff.mp h
      obtain ⟨hgood, rfl⟩ := prepDomainLabel_eq_some_iff.mp hfirst
      obtain ⟨hall, rfl⟩ := ih.mp hrest
      exact ⟨⟨hgood, hall⟩, Option.some_inj.mp h⟩
    · rintro ⟨⟨hgood, hall⟩, rfl⟩
      refine ⟨_, prepDomainLabel_eq_some_iff.mpr ⟨hgood, rfl⟩, ?_⟩
      rw [ih.mpr ⟨hall, rfl⟩]
      rfl

theorem prepDomain_eq_some (h : prepDomain domain = some result) :
    result ≠ [] ∧ (∀ label ∈ result.splitOn 0x2E, GoodLabel label) ∧ result.length ≤ 1023 ∧
      prepDomain result = some result := by
  unfold prepDomain at h
  obtain ⟨labels, hlabels, h⟩ := Option.bind_eq_some_iff.mp h
  obtain ⟨hgood, rfl⟩ := mapM_prepDomainLabel.mp hlabels
  simp only at h
  split_ifs at h with hlong
  obtain rfl := Option.some_inj.mp h
  have hgood' : ∀ label ∈ (domain.splitOn 0x2E).map (List.map Jid.lower), GoodLabel label := by
    intro label hmem
    obtain ⟨label, hlabel, rfl⟩ := List.mem_map.mp hmem
    exact (hgood label hlabel).lower
  have hdot : ∀ label ∈ (domain.splitOn 0x2E).map (List.map Jid.lower), (0x2E : Uint8) ∉ label := by
    intro label hmem hdot
    exact absurd ((hgood' label hmem).allowed _ hdot) (by decide)
  have hne : (domain.splitOn 0x2E).map (List.map Jid.lower) ≠ [] := by
    rw [Ne, List.map_eq_nil_iff]
    exact List.splitOn_ne_nil _ _
  have hsplit := List.splitOn_intercalate 0x2E hdot hne
  have hsame : ((domain.splitOn 0x2E).map (List.map Jid.lower)).map (List.map Jid.lower) =
      (domain.splitOn 0x2E).map (List.map Jid.lower) := by
    rw [List.map_map]
    refine List.map_congr_left fun label _ => ?_
    rw [Function.comp_apply, List.map_map]
    exact List.map_congr_left fun ch _ => lower_lower ch
  refine ⟨fun hnil => ?_, ?_, Nat.not_lt.mp hlong, ?_⟩
  · rw [hnil] at hsplit
    have hmem : ([] : Name) ∈ (domain.splitOn 0x2E).map (List.map Jid.lower) := by
      rw [← hsplit, List.splitOn_nil]
      exact List.mem_cons_self
    exact (hgood' [] hmem).ne_nil rfl
  · rw [hsplit]
    exact hgood'
  · rw [prepDomain, hsplit, mapM_prepDomainLabel.mpr ⟨hgood', hsame⟩]
    exact if_neg hlong

theorem mem_intercalate {sep ch : Uint8} {labels : List Name} (h : ch ∈ [sep].intercalate labels) :
    ch = sep ∨ ∃ label ∈ labels, ch ∈ label := by
  induction labels with
  | nil => exact absurd h List.not_mem_nil
  | cons label labels ih =>
    cases labels with
    | nil => exact Or.inr ⟨label, List.mem_cons_self, by rwa [List.intercalate_singleton] at h⟩
    | cons next labels =>
      rw [List.intercalate_cons_cons, List.append_assoc, List.mem_append, List.mem_append,
        List.mem_singleton] at h
      rcases h with h | h | h
      · exact Or.inr ⟨label, List.mem_cons_self, h⟩
      · exact Or.inl h
      · exact (ih h).imp_right fun ⟨l, hl, hmem⟩ => ⟨l, List.mem_cons_of_mem _ hl, hmem⟩

theorem ne_of_goodLabels (h : ∀ label ∈ domain.splitOn 0x2E, GoodLabel label)
    {ch sep : Uint8} (hmem : ch ∈ domain) (hsep : sep ≠ 0x2E) (hrefused : refusedInLabel sep = true) :
    ch ≠ sep := by
  rintro rfl
  rw [← @List.intercalate_splitOn _ domain _ _ 0x2E] at hmem
  rcases mem_intercalate hmem with rfl | ⟨label, hlabel, hch⟩
  · exact hsep rfl
  · exact absurd ((h label hlabel).allowed ch hch) (Bool.eq_false_iff.not_left.mpr hrefused)

/-! ## Round trips -/

theorem parse_append {front back : Name} (hfront : ∀ ch ∈ front, ch ≠ 0x2F) (hne : front ≠ []) :
    parse (front ++ if back != [] then 0x2F :: back else []) =
      if front.contains 0x40 then
        make (front.takeWhile (· ≠ 0x40)) ((front.dropWhile (· ≠ 0x40)).drop 1) back
      else make [] front back := by
  have hpos : ∀ ch ∈ front, decide (ch ≠ 0x2F) = true := fun ch hch => decide_eq_true (hfront ch hch)
  have htake : (front ++ if back != [] then 0x2F :: back else []).takeWhile (· ≠ 0x2F) = front := by
    rw [List.takeWhile_append_of_pos hpos]
    split
    · rw [List.takeWhile_cons_of_neg (by simp), List.append_nil]
    · rw [List.takeWhile_nil, List.append_nil]
  have hdrop : ((front ++ if back != [] then 0x2F :: back else []).dropWhile (· ≠ 0x2F)).drop 1 = back := by
    rw [List.dropWhile_append_of_pos hpos]
    split
    · rw [List.dropWhile_cons_of_neg (by simp), List.drop_one, List.tail_cons]
    · rename_i hback
      rw [List.dropWhile_nil, List.drop_nil]
      exact (by simpa using hback : back = []).symm
  unfold parse
  rw [if_neg (fun hnil => hne (List.append_eq_nil_iff.mp hnil).1)]
  simp only [htake, hdrop]

/-- **A prepared id is read back**. -/
theorem parse_str (hnode : prepNode node = some node)
    (hdomain : prepDomain domain = some domain) (hresource : prepResource resource = some resource) :
    parse (str ⟨node, domain, resource⟩) = ⟨node, domain, resource⟩ := by
  obtain ⟨hne, hlabels, -, -⟩ := prepDomain_eq_some hdomain
  obtain ⟨hchars, -, -⟩ := prepNode_eq_some hnode
  have hslash : ∀ ch ∈ domain, ch ≠ 0x2F := fun ch hch =>
    ne_of_goodLabels hlabels hch (by decide) (by decide)
  have hat : ∀ ch ∈ domain, ch ≠ 0x40 := fun ch hch => ne_of_goodLabels hlabels hch (by decide) (by decide)
  have hmake : make node domain resource = ⟨node, domain, resource⟩ := by
    rw [make, hnode, hdomain, hresource]
  have hvalid : isValid ⟨node, domain, resource⟩ = true := by simpa [isValid] using hne
  rw [str, hvalid]
  simp only [Bool.not_true, Bool.false_eq_true, if_false]
  by_cases hnil : node = []
  · subst hnil
    have hcontains : domain.contains 0x40 = false := by
      rw [Bool.eq_false_iff, Ne, List.contains_iff_mem]
      exact fun hmem => hat _ hmem rfl
    rw [if_neg (by simp), List.nil_append, parse_append hslash hne, hcontains, if_neg Bool.false_ne_true, hmake]
  · have hnodeChars : ∀ ch ∈ node, ch ≠ 0x2F ∧ ch ≠ 0x40 := by
      intro ch hch
      constructor <;> rintro rfl <;> exact absurd (hchars _ hch) (by decide)
    have hfront : ∀ ch ∈ node ++ [0x40] ++ domain, ch ≠ 0x2F := by
      intro ch hch
      rw [List.mem_append, List.mem_append, List.mem_singleton] at hch
      rcases hch with (hch | rfl) | hch
      · exact (hnodeChars ch hch).1
      · decide
      · exact hslash ch hch
    have hpos : ∀ ch ∈ node, decide (ch ≠ 0x40) = true := fun ch hch => decide_eq_true (hnodeChars ch hch).2
    have hcontains : (node ++ [0x40] ++ domain).contains 0x40 = true := by
      rw [List.contains_iff_mem]
      simp
    rw [if_pos (by simpa using hnil), parse_append hfront (by simp), hcontains, if_pos rfl, List.append_assoc,
      List.takeWhile_append_of_pos hpos, List.dropWhile_append_of_pos hpos, List.singleton_append,
      List.takeWhile_cons_of_neg (by simp), List.dropWhile_cons_of_neg (by simp), List.append_nil,
      List.drop_one, List.tail_cons, hmake]

/-! ## Ids that are valid -/

theorem make_of_isValid (h : (make node domain resource).isValid = true) :
    ∃ n d r, prepNode node = some n ∧ prepDomain domain = some d ∧ prepResource resource = some r ∧
      make node domain resource = ⟨n, d, r⟩ := by
  unfold make at h ⊢
  cases hnode : prepNode node with
  | none => rw [hnode] at h; cases h
  | some n =>
    cases hdomain : prepDomain domain with
    | none => rw [hnode, hdomain] at h; cases h
    | some d =>
      cases hresource : prepResource resource with
      | none => rw [hnode, hdomain, hresource] at h; cases h
      | some r => exact ⟨n, d, r, rfl, rfl, rfl, rfl⟩

theorem normal_make_iff (h : (make node domain resource).isValid = true) :
    Normal (make node domain resource) ↔ ∀ ch ∈ resource, isControl ch = false := by
  obtain ⟨n, d, r, hnode, hdomain, hresource, hmake⟩ := make_of_isValid h
  obtain ⟨hchars, hshortNode, hnode'⟩ := prepNode_eq_some hnode
  obtain ⟨-, hlabels, hshortDomain, hdomain'⟩ := prepDomain_eq_some hdomain
  obtain ⟨hshortResource, hresource', hcontrol⟩ := prepResource_eq_some hresource
  rw [hmake, ← hcontrol]
  exact ⟨fun hnormal => hnormal.resource, fun hfree =>
    ⟨parse_str hnode' hdomain' hresource', hchars, hlabels, hfree, hshortNode, hshortDomain, hshortResource⟩⟩

/-- The text behind the first `/`. -/
def resourceOf (name : Name) : Name := (name.dropWhile (· ≠ 0x2F)).drop 1

theorem normal_parse_iff {name : Name} (h : (parse name).isValid = true) :
    Normal (parse name) ↔ ∀ ch ∈ resourceOf name, isControl ch = false := by
  unfold parse at h ⊢
  by_cases hname : name = []
  · rw [if_pos hname] at h
    cases h
  · rw [if_neg hname] at h ⊢
    simp only at h ⊢
    split at h
    · rename_i hat
      rw [if_pos hat]
      exact normal_make_iff h
    · rename_i hat
      rw [if_neg hat]
      exact normal_make_iff h

/-! ## The order of ids -/

instance : Std.TransCmp compareJids :=
  inferInstanceAs (Std.TransCmp (compareLex
    (compareLex (compareOn fun jid : Jid => jid.node.map BitVec.toNat)
      (compareOn fun jid : Jid => jid.domain.map BitVec.toNat))
    (compareOn fun jid : Jid => jid.resource.map BitVec.toNat)))

theorem compareNames_eq {a b : Name} : compareNames a b = .eq ↔ a = b := by
  rw [compareNames, Std.LawfulEqCmp.compare_eq_iff_eq]
  exact (List.map_injective_iff.mpr fun _ _ => BitVec.eq_of_toNat_eq).eq_iff

theorem compareJids_eq {a b : Jid} : compareJids a b = .eq ↔ a = b := by
  obtain ⟨n, d, r⟩ := a
  obtain ⟨n', d', r'⟩ := b
  rw [compareJids, Ordering.then_eq_eq, Ordering.then_eq_eq, compareNames_eq, compareNames_eq, compareNames_eq,
    and_assoc, Jid.mk.injEq]

/-- **Ids are normal** if and only if the resources given have no control characters. -/
theorem normal_iff (name node domain resource : Name) (a b c : Jid) :
    ((parse name).isValid = true →
        (Normal (parse name) ↔ ∀ ch ∈ resourceOf name, isControl ch = false)) ∧
      ((make node domain resource).isValid = true →
        (Normal (make node domain resource) ↔ ∀ ch ∈ resource, isControl ch = false)) ∧
      (compareJids a b = .eq ↔ a = b) ∧ compareJids b a = (compareJids a b).swap ∧
      ((compareJids a b).isLE = true → (compareJids b c).isLE = true → (compareJids a c).isLE = true) :=
  ⟨normal_parse_iff, normal_make_iff, compareJids_eq, Std.OrientedCmp.eq_swap, Std.TransCmp.isLE_trans⟩

/-- Characters that are refused in a resource become zero bytes of it. -/
theorem control_in_resource :
    parse (text "a@b/" ++ [0x07]) = ⟨text "a", text "b", [0x00]⟩ ∧
      (parse (text "a@b/" ++ [0x07])).isValid = true ∧
      ¬ ∀ ch ∈ (parse (text "a@b/" ++ [0x07])).resource, isControl ch = false := by
  decide

end Libjingle.Signaling.Jid
