import Libjingle.Media.PayloadTypes

/-!
# The payload types of an offer (`session/media/mediasession.cc`)

Main result: **`offered_payloads`**.
-/

namespace Libjingle.Media

open MediaCodec LawfulMediaCodec

/-! ## What is added to an offer -/

section Added

variable {C : Type} [MediaCodec C]

def updateReference (p : ℤ × C) (a : C × C) : ℤ × C :=
  if p.1 = (codec a.1).id then (p.1, withParam p.2 kCodecParamAssociatedPayloadType (toStringInt (codec a.2).id)) else p

def primaryCodecs (l : List C) : List C := l.filter fun c => !(codec c).isRtx

/-- The codecs of `reference` that an offer lacks, apart from RTX. -/
def missingCodecs : List C → List C → List C
  | _, [] => []
  | offered, c :: reference =>
    if findMatchingCodec offered c = none ∧ (codec c).isRtx = false then
      c :: missingCodecs (offered ++ [c]) reference
    else missingCodecs offered reference

theorem mem_primaryCodecs {c : C} {l : List C} : c ∈ primaryCodecs l ↔ c ∈ l ∧ (codec c).isRtx = false := by
  rw [primaryCodecs, List.mem_filter, Bool.not_eq_true']

theorem findMatchingCodec_eq_none {l : List C} {x : C} :
    findMatchingCodec l x = none ↔ ∀ c ∈ l, isMatch c x = false := by
  simp only [findMatchingCodec, List.find?_eq_none, Bool.not_eq_true]

omit [MediaCodec C] in
theorem mem_insertNew {key : ℤ} {c : C} {l : List (ℤ × C)} {p : ℤ × C} (h : p ∈ insertNew key c l) :
    p = (key, c) ∨ p ∈ l := by
  induction l with
  | nil => exact .inl (List.mem_singleton.mp h)
  | cons q l ih =>
    rw [insertNew] at h
    split_ifs at h
    · exact List.mem_cons.mp h
    · exact .inr h
    · rcases List.mem_cons.mp h with rfl | h
      · exact .inr List.mem_cons_self
      · exact (ih h).imp (fun h => h) (List.mem_cons_of_mem q)

theorem mem_newRtxCodecs {offered reference : List C} {found : List (ℤ × C)} {p : ℤ × C}
    (h : p ∈ newRtxCodecs offered reference found) :
    p ∈ found ∨ ∃ s ∈ reference, (codec s).isRtx = true ∧ findMatchingCodec offered s = none ∧
      p = ((codec s).associatedId, withAssociated s) := by
  induction reference generalizing found with
  | nil => exact .inl h
  | cons c reference ih =>
    rw [newRtxCodecs] at h
    rcases ih h with hfound | ⟨s, hs, hrest⟩
    · split_ifs at hfound with hnew
      · rcases mem_insertNew hfound with rfl | hold
        · exact .inr ⟨c, List.mem_cons_self, hnew.2, hnew.1, rfl⟩
        · exact .inl hold
      · exact .inl hfound
    · exact .inr ⟨s, List.mem_cons_of_mem c hs, hrest⟩

variable [LawfulMediaCodec C]

theorem associatedId_withAssociated (c : C) : (codec (withAssociated c)).associatedId = (codec c).associatedId := by
  rw [withAssociated]
  split_ifs with hnone
  · rw [codec_withParam, Codec.associatedId, Codec.getParam_setParam, Codec.associatedId, hnone]
    rfl
  · rfl

theorem id_withAssociated (c : C) : (codec (withAssociated c)).id = (codec c).id := by
  rw [withAssociated]
  split_ifs
  · rw [codec_withParam]
    rfl
  · rfl

omit [LawfulMediaCodec C] in
theorem isInt_renumbered {c c' : C} (hint : IsInt (codec c).id) (h : Renumbered c c') : IsInt (codec c').id := by
  rcases h.range with heq | ⟨hmin, hmax⟩
  · rwa [heq]
  · exact ⟨by omega, by omega⟩

theorem withCodec_withParam (c : C) (name value : List Uint8) (base : Codec) :
    withCodec (withParam c name value) base = withCodec c base := withCodec_withCodec _ _ _

theorem isRtx_withParam (c : C) (name value : List Uint8) :
    (codec (withParam c name value)).isRtx = (codec c).isRtx := by
  rw [codec_withParam]
  rfl

theorem isRtx_withAssociated (c : C) : (codec (withAssociated c)).isRtx = (codec c).isRtx := by
  rw [withAssociated]
  split_ifs
  · rw [isRtx_withParam]
  · rfl

theorem other_foldl_updateReference (p : ℤ × C) (added : List (C × C)) :
    (added.foldl updateReference p).1 = p.1 ∧
      (∀ base, withCodec (added.foldl updateReference p).2 base = withCodec p.2 base) ∧
      (codec (added.foldl updateReference p).2).isRtx = (codec p.2).isRtx ∧
      (codec (added.foldl updateReference p).2).id = (codec p.2).id := by
  induction added generalizing p with
  | nil => exact ⟨rfl, fun _ => rfl, rfl, rfl⟩
  | cons a added ih =>
    obtain ⟨hkey, hother, hrtx, hid⟩ := ih (updateReference p a)
    rw [List.foldl_cons, hkey, hrtx, hid]
    simp only [hother]
    unfold updateReference
    split_ifs
    · refine ⟨rfl, fun base => withCodec_withParam _ _ _ base, isRtx_withParam _ _ _, ?_⟩
      rw [codec_withParam]
      rfl
    · exact ⟨rfl, fun _ => rfl, rfl, rfl⟩

theorem foldl_updateReference (p : ℤ × C) {added : List (C × C)} (hints : ∀ a ∈ added, IsInt (codec a.2).id) :
    (∀ a ∈ added, (codec a.1).id ≠ p.1) ∧ added.foldl updateReference p = p ∨
      ∃ a ∈ added, (codec a.1).id = p.1 ∧
        (codec (added.foldl updateReference p).2).associatedId = (codec a.2).id := by
  induction added using List.reverseRecOn with
  | nil => exact .inl ⟨fun a ha => absurd ha List.not_mem_nil, rfl⟩
  | append_singleton added a ih =>
    have hcases := ih fun b hb => hints b (List.mem_append_left [a] hb)
    have hkey := (other_foldl_updateReference p added).1
    have hmem : a ∈ added ++ [a] := List.mem_append_right added (List.mem_singleton_self a)
    rw [List.foldl_append, List.foldl_cons, List.foldl_nil, updateReference]
    split_ifs with hid
    · refine .inr ⟨a, hmem, hid.symm.trans hkey, ?_⟩
      rw [codec_withParam, Codec.associatedId, Codec.getParam_setParam]
      exact fromStringInt_toStringInt (hints a hmem)
    · rcases hcases with ⟨hnone, heq⟩ | ⟨b, hb, hrest⟩
      · refine .inl ⟨fun b hb => ?_, heq⟩
        rcases List.mem_append.mp hb with hb | hb
        · exact hnone b hb
        · rw [List.mem_singleton.mp hb]
          exact fun h => hid (hkey.trans h.symm)
      · exact .inr ⟨b, List.mem_append_left [a] hb, hrest⟩

/-- What is added of codecs that are not RTX: `new`, renumbered. -/
structure Additions (reference : List C) (s s' : OfferState C) (new : List C) : Prop where
  offered : s'.offered = s.offered ++ (findAndSetIdsUsed s.used new).1
  used : s'.used = (findAndSetIdsUsed s.used new).2
  newRtx : s'.newRtx = s.newRtx.map fun p => (new.zip (findAndSetIdsUsed s.used new).1).foldl updateReference p
  sublist : new.Sublist (primaryCodecs reference)
  missing : s.used.idSet.length + ((idsOf (primaryCodecs reference)).filter Dynamic).length ≤ 32 →
    ∀ offered, (∀ x, findMatchingCodec s.offered x = none ↔ findMatchingCodec offered x = none) →
      new = missingCodecs offered reference

theorem findMatchingCodec_append_iff {offered offered' : List C} {c c' : C}
    (h : ∀ x, findMatchingCodec offered' x = none ↔ findMatchingCodec offered x = none) (hc : Kept c c') (x : C) :
    findMatchingCodec (offered' ++ [c']) x = none ↔ findMatchingCodec (offered ++ [c]) x = none := by
  have hx := h x
  rw [findMatchingCodec_eq_none, findMatchingCodec_eq_none] at hx ⊢
  simp only [List.forall_mem_append, List.forall_mem_singleton, hx, hc.isMatch_eq x]

theorem addNewCodecs_spec (reference : List C) {s : OfferState C} (h : s.used.Valid) :
    ∃ new, Additions reference s (addNewCodecs reference s) new := by
  induction reference generalizing s with
  | nil => exact ⟨[], (List.append_nil _).symm, rfl, (List.map_id' _).symm, List.Sublist.slnil, fun _ _ _ => rfl⟩
  | cons c reference ih =>
    rw [addNewCodecs]
    split_ifs with hnew
    · obtain ⟨hunmatched, hprimary⟩ := hnew
      have hcons : primaryCodecs (c :: reference) = c :: primaryCodecs reference :=
        List.filter_cons_of_pos (by rw [hprimary]; rfl)
      have hsingle := findAndSetIdsUsed_set h [c]
      obtain ⟨new, hadded⟩ := ih (s := s.add c) hsingle.assigned.valid
      refine ⟨c :: new, ?_, hadded.used, ?_, ?_, ?_⟩
      · rw [hadded.offered, OfferState.add, List.append_assoc]
        rfl
      · rw [hadded.newRtx, OfferState.add, List.map_map]
        refine List.map_congr_left fun p _ => ?_
        simp only [findAndSetIdsUsed, List.zip_cons_cons, List.foldl_cons, Function.comp_apply, updateReference,
          codec_withId]
      · rw [hcons]
        exact hadded.sublist.cons_cons c
      · intro hroom offered hsame
        have hlength := hsingle.length
        rw [hcons, idsOf, List.map_cons, ← List.singleton_append, List.filter_append, List.length_append] at hroom
        have hkept := hsingle.kept (le_trans (by unfold idsOf; simp) hroom)
        rw [missingCodecs, if_pos ⟨(hsame c).mp hunmatched, hprimary⟩]
        refine congrArg (c :: ·) (hadded.missing ?_ _ ?_)
        · refine le_trans (Nat.add_le_add_right hlength _) (le_trans (le_of_eq ?_) hroom)
          rw [Nat.add_assoc]
          rfl
        · exact findMatchingCodec_append_iff hsame (List.forall₂_cons.mp hkept).1
    · obtain ⟨new, hadded⟩ := ih h
      have hsub : (primaryCodecs reference).Sublist (primaryCodecs (c :: reference)) :=
        (List.sublist_cons_self c reference).filter _
      refine ⟨new, hadded.offered, hadded.used, hadded.newRtx, hadded.sublist.trans hsub, fun hroom offered hsame => ?_⟩
      rw [missingCodecs, if_neg fun hc => hnew ⟨(hsame c).mpr hc.1, hc.2⟩]
      have hlength := ((hsub.map fun c => (codec c).id).filter fun id => Dynamic id).length_le
      exact hadded.missing (le_trans (Nat.add_le_add_left hlength _) hroom) offered hsame

/-! ## New RTX codecs -/

omit [MediaCodec C] [LawfulMediaCodec C] in
theorem exists_mem_insertNew (key : ℤ) (c : C) (l : List (ℤ × C)) : ∃ p ∈ insertNew key c l, p.1 = key := by
  induction l with
  | nil => exact ⟨(key, c), List.mem_cons_self, rfl⟩
  | cons q l ih =>
    rw [insertNew]
    split_ifs with hlt heq
    · exact ⟨(key, c), List.mem_cons_self, rfl⟩
    · exact ⟨q, List.mem_cons_self, heq.symm⟩
    · obtain ⟨p, hp, hkey⟩ := ih
      exact ⟨p, List.mem_cons_of_mem q hp, hkey⟩

omit [MediaCodec C] [LawfulMediaCodec C] in
theorem mem_insertNew_of_mem {key : ℤ} {c : C} {l : List (ℤ × C)} {p : ℤ × C} (h : p ∈ l) : p ∈ insertNew key c l := by
  induction l with
  | nil => exact absurd h List.not_mem_nil
  | cons q l ih =>
    rw [insertNew]
    split_ifs
    · exact List.mem_cons_of_mem _ h
    · exact h
    · rcases List.mem_cons.mp h with rfl | h
      · exact List.mem_cons_self
      · exact List.mem_cons_of_mem q (ih h)

omit [LawfulMediaCodec C] in
theorem exists_mem_newRtxCodecs {offered reference : List C} {found : List (ℤ × C)} {key : ℤ}
    (h : (∃ p ∈ found, p.1 = key) ∨ ∃ s ∈ reference, (codec s).isRtx = true ∧ findMatchingCodec offered s = none ∧
      (codec s).associatedId = key) : ∃ p ∈ newRtxCodecs offered reference found, p.1 = key := by
  induction reference generalizing found with
  | nil => exact h.resolve_right fun ⟨s, hs, _⟩ => absurd hs List.not_mem_nil
  | cons c reference ih =>
    rw [newRtxCodecs]
    refine ih ?_
    rcases h with ⟨p, hp, hkey⟩ | ⟨s, hs, hrtx, hnone, hkey⟩
    · left
      split_ifs
      · exact ⟨p, mem_insertNew_of_mem hp, hkey⟩
      · exact ⟨p, hp, hkey⟩
    · rcases List.mem_cons.mp hs with rfl | hs
      · left
        rw [if_pos ⟨hnone, hrtx⟩, hkey]
        exact exists_mem_insertNew key _ found
      · exact .inr ⟨s, hs, hrtx, hnone, hkey⟩

omit [MediaCodec C] [LawfulMediaCodec C] in
theorem countP_insertNew (test : C → Bool) (key : ℤ) (c : C) (l : List (ℤ × C)) :
    ((insertNew key c l).map Prod.snd).countP test ≤ (l.map Prod.snd).countP test + [c].countP test := by
  induction l with
  | nil => simp [insertNew]
  | cons q l ih =>
    rw [insertNew]
    split_ifs <;> simp only [List.map_cons, List.countP_cons, List.countP_nil] at ih ⊢ <;> omega

omit [LawfulMediaCodec C] in
theorem countP_newRtxCodecs (test : C → Bool) (htest : ∀ c : C, test (withAssociated c) = test c)
    (offered reference : List C) (found : List (ℤ × C)) :
    ((newRtxCodecs offered reference found).map Prod.snd).countP test + (primaryCodecs reference).countP test ≤
      (found.map Prod.snd).countP test + reference.countP test := by
  induction reference generalizing found with
  | nil => exact le_refl _
  | cons c reference ih =>
    rw [newRtxCodecs, primaryCodecs]
    cases hrtx : (codec c).isRtx with
    | false =>
      have hlength := ih found
      rw [if_neg (by simp), List.filter_cons_of_pos (by rw [hrtx]; rfl), List.countP_cons, List.countP_cons]
      unfold primaryCodecs at hlength
      omega
    | true =>
      rw [List.filter_cons_of_neg (by rw [hrtx]; decide), List.countP_cons]
      by_cases hnew : findMatchingCodec offered c = none ∧ true = true
      · rw [if_pos hnew]
        have hinsert := countP_insertNew test (codec c).associatedId (withAssociated c) found
        have hlength := ih (insertNew (codec c).associatedId (withAssociated c) found)
        rw [List.countP_singleton, htest] at hinsert
        unfold primaryCodecs at hlength
        omega
      · rw [if_neg hnew]
        have hlength := ih found
        unfold primaryCodecs at hlength
        omega

end Added

/-! ## Offers -/

section Offers

variable {C : Type} [MediaCodec C]

def RefersAlike (source offered : List C) (s r : C) : Prop :=
  ∃ x ∈ primaryCodecs source, (codec x).id = (codec s).associatedId ∧
    ∃ y ∈ primaryCodecs offered, (codec y).id = (codec r).associatedId ∧ isMatch y x = true

/-- **RTX codecs refer to what they referred to**. -/
def RtxConsistent (ours current offered : List C) : Prop :=
  ∃ kept added rtx, offered = kept ++ added ++ rtx ∧
    List.Forall₂ (fun s r => (codec r).isRtx = true → RefersAlike current offered s r) current kept ∧
    (∀ c ∈ added, (codec c).isRtx = false) ∧
    List.Forall₂ (fun p r => withCodec r (codec p.2) = p.2 ∧ (codec r).isRtx = true ∧ RefersAlike ours offered p.2 r)
      (newRtxCodecs current ours []) rtx

/-- What RTX codecs refer to is found: in the current description a codec that keeps its id; among
ours one that is new, or is matched under the same id by a current one that keeps it. -/
structure RtxAnchored (before : List ℤ) (ours current : List C) : Prop where
  kept : ∀ s ∈ current, (codec s).isRtx = true →
    ∃ x ∈ primaryCodecs current, (codec x).id = (codec s).associatedId ∧ Keeps before current x
  added : ∀ s ∈ ours, (codec s).isRtx = true → findMatchingCodec current s = none →
    ∃ x ∈ primaryCodecs ours, (codec x).id = (codec s).associatedId ∧
      (x ∈ missingCodecs current ours ∨
        ∃ y ∈ primaryCodecs current, (codec y).id = (codec x).id ∧ isMatch y x = true ∧ Keeps before current y)

/-- The codecs that are added to an offer. -/
def newCodecs (current ours : List C) : List C :=
  missingCodecs current ours ++ (newRtxCodecs current ours []).map Prod.snd

/-- The codecs that are offered: the current ones before ours. If there is `room` for all dynamic
ids, anchored RTX codecs refer to what they referred to; and conversely where ids are `fresh`. -/
structure Offered (distinct room fresh : Prop) (before : List ℤ) (ours current offered : List C) : Prop where
  present : ∃ kept, kept <+: offered ∧ List.Forall₂ Kept current kept
  same : distinct → current <+: offered
  keeps : ∀ x, Keeps before current x → x ∈ offered
  rtx : room → RtxAnchored before ours current → RtxConsistent ours current offered
  anchored : room → fresh → RtxConsistent ours current offered → RtxAnchored before ours current

theorem newRtxCodecs_congr {offered offered' : List C}
    (h : ∀ x, findMatchingCodec offered x = none ↔ findMatchingCodec offered' x = none) (reference : List C)
    (found : List (ℤ × C)) : newRtxCodecs offered reference found = newRtxCodecs offered' reference found := by
  induction reference generalizing found with
  | nil => rfl
  | cons c reference ih => simp only [newRtxCodecs, h c, ih]

theorem forall₂_mem_right {α β : Type} {R : α → β → Prop} {l : List α} {l' : List β} (h : List.Forall₂ R l l') {b : β}
    (hb : b ∈ l') : ∃ a ∈ l, R a b := by
  induction h with
  | nil => exact absurd hb List.not_mem_nil
  | cons hhead _ ih =>
    rcases List.mem_cons.mp hb with rfl | hb
    · exact ⟨_, List.mem_cons_self, hhead⟩
    · obtain ⟨a, ha, hab⟩ := ih hb
      exact ⟨a, List.mem_cons_of_mem _ ha, hab⟩

theorem exists_mem_zip {α β : Type} {l : List α} {l' : List β} (h : l.length = l'.length) {a : α} (ha : a ∈ l) :
    ∃ b, (a, b) ∈ l.zip l' := by
  rw [← List.map_fst_zip (le_of_eq h)] at ha
  obtain ⟨⟨_, b⟩, hmem, rfl⟩ := List.mem_map.mp ha
  exact ⟨b, hmem⟩

theorem RtxConsistent.associated {ours current offered : List C} (h : RtxConsistent ours current offered) {r : C}
    (hr : r ∈ offered) (hrtx : (codec r).isRtx = true) :
    ∃ y ∈ primaryCodecs offered, (codec y).id = (codec r).associatedId := by
  obtain ⟨kept, added, rtx, rfl, hkept, hadded, hnew⟩ := h
  have hrefers : ∃ source s, RefersAlike source (kept ++ added ++ rtx) s r := by
    rcases List.mem_append.mp hr with hr | hr
    · rcases List.mem_append.mp hr with hr | hr
      · obtain ⟨s, -, hs⟩ := forall₂_mem_right hkept hr
        exact ⟨current, s, hs hrtx⟩
      · exact absurd hrtx (by rw [hadded r hr]; decide)
    · obtain ⟨p, -, -, -, hp⟩ := forall₂_mem_right hnew hr
      exact ⟨ours, p.2, hp⟩
  obtain ⟨-, -, -, -, -, y, hy, hid, -⟩ := hrefers
  exact ⟨y, hy, hid⟩

variable [LawfulMediaCodec C]

theorem findMatchingCodec_kept {current kept : List C} (h : List.Forall₂ Kept current kept) (x : C) :
    findMatchingCodec kept x = none ↔ findMatchingCodec current x = none := by
  rw [findMatchingCodec_eq_none, findMatchingCodec_eq_none]
  induction h with
  | nil => exact Iff.rfl
  | cons hkept _ ih => simp only [List.forall_mem_cons, ih, hkept.isMatch_eq x]

def updateReferences (new new' : List C) (p : ℤ × C) : ℤ × C := (new.zip new').foldl updateReference p

/-- `kept` with `new` codecs of ours, and then the RTX codecs, both renumbered. -/
structure Completed (ours current kept : List C) (used : UsedIds) (offered : List C) (used' : UsedIds)
    (new new' rtx' : List C) : Prop where
  offered : offered = kept ++ new' ++ rtx'
  setNew : SetIds used new new' (findAndSetIdsUsed used new).2
  setRtx : SetIds (findAndSetIdsUsed used new).2
    ((newRtxCodecs current ours []).map fun p => (updateReferences new new' p).2) rtx' used'
  sublist : new.Sublist (primaryCodecs ours)
  missing : used.idSet.length + ((idsOf (primaryCodecs ours)).filter Dynamic).length ≤ 32 →
    new = missingCodecs current ours

theorem findCodecsToOffer_spec (ours : List C) {current kept : List C} {used : UsedIds} (h : used.Valid)
    (hkept : List.Forall₂ Kept current kept) :
    ∃ new new' rtx', Completed ours current kept used (findCodecsToOffer ours kept used).1
      (findCodecsToOffer ours kept used).2 new new' rtx' := by
  obtain ⟨new, hadded⟩ := addNewCodecs_spec ours (s := ⟨kept, used, newRtxCodecs kept ours []⟩) h
  have hnew : newRtxCodecs kept ours [] = newRtxCodecs current ours [] :=
    newRtxCodecs_congr (findMatchingCodec_kept hkept) ours []
  have hsetNew := findAndSetIdsUsed_set h new
  set new' := (findAndSetIdsUsed used new).1
  have hrtx : (addNewCodecs ours ⟨kept, used, newRtxCodecs kept ours []⟩).newRtx.map Prod.snd =
      (newRtxCodecs current ours []).map fun p => (updateReferences new new' p).2 := by
    rw [hadded.newRtx, List.map_map, hnew]
    rfl
  have hoffer : findCodecsToOffer ours kept used =
      (kept ++ new' ++ (findAndSetIdsUsed (findAndSetIdsUsed used new).2
        ((newRtxCodecs current ours []).map fun p => (updateReferences new new' p).2)).1,
      (findAndSetIdsUsed (findAndSetIdsUsed used new).2
        ((newRtxCodecs current ours []).map fun p => (updateReferences new new' p).2)).2) := by
    rw [← hrtx, ← hadded.offered, ← hadded.used]
    rfl
  rw [hoffer]
  exact ⟨new, new', _, rfl, hsetNew, findAndSetIdsUsed_set hsetNew.assigned.valid _, hadded.sublist,
    fun hroom => hadded.missing hroom current (findMatchingCodec_kept hkept)⟩

omit [LawfulMediaCodec C] in
theorem length_dynamic (l : List C) : ((idsOf l).filter Dynamic).length = l.countP fun c => Dynamic (codec c).id := by
  rw [idsOf, ← List.countP_eq_length_filter, List.countP_map]
  rfl

namespace Completed

variable {ours current kept offered new new' rtx' : List C} {used used' : UsedIds}
  {before : List ℤ}

theorem idsOf_rtx (l : List (ℤ × C)) :
    idsOf (l.map fun p => (updateReferences new new' p).2) = idsOf (l.map Prod.snd) := by
  rw [idsOf, idsOf, List.map_map, List.map_map]
  exact List.map_congr_left fun p _ => (other_foldl_updateReference p _).2.2.2

theorem length_le (h : Completed ours current kept used offered used' new new' rtx') :
    used'.idSet.length ≤ used.idSet.length + ((idsOf ours).filter Dynamic).length := by
  have hnew := h.setNew.length
  have hrtx := h.setRtx.length
  have hsub := h.sublist.countP_le (p := fun c => decide (Dynamic (codec c).id))
  have hcount := countP_newRtxCodecs (fun c => decide (Dynamic (codec c).id))
    (fun c => by rw [id_withAssociated]) current ours []
  rw [idsOf_rtx] at hrtx
  rw [length_dynamic] at hnew hrtx ⊢
  simp only [List.map_nil, List.countP_nil] at hcount
  omega

omit [LawfulMediaCodec C] in
theorem assigned (h : Completed ours current kept used offered used' new new' rtx') :
    Assigned used (idsOf (new' ++ rtx')) used' := by
  rw [idsOf, List.map_append]
  exact h.setNew.assigned.append h.setRtx.assigned

theorem same (h : Completed ours current kept used offered used' new new' rtx')
    (hmissing : new = missingCodecs current ours) {ids : List ℤ} (hsub : used.idSet ⊆ ids)
    (hnodup : (ids ++ (idsOf (newCodecs current ours)).filter Dynamic).Nodup) :
    new' = new ∧ used'.idSet ⊆ ids ++ (idsOf (newCodecs current ours)).filter Dynamic := by
  have hids : ids ++ (idsOf (newCodecs current ours)).filter Dynamic = ids ++ (idsOf new).filter Dynamic ++
      (idsOf ((newRtxCodecs current ours []).map fun p => (updateReferences new new' p).2)).filter Dynamic := by
    rw [idsOf_rtx, newCodecs, idsOf, List.map_append, List.filter_append, ← List.append_assoc, hmissing]
    rfl
  rw [hids] at hnodup ⊢
  obtain ⟨hsame, hused⟩ := h.setNew.same ids hsub (List.nodup_append.mp hnodup).1
  exact ⟨hsame, (h.setRtx.same _ hused hnodup).2⟩

theorem refers (h : Completed ours current kept used offered used' new new' rtx')
    (hints : ∀ c ∈ ours, IsInt (codec c).id) {p : ℤ × C} (hp : p ∈ newRtxCodecs current ours []) {r : C}
    (hr : Renumbered (updateReferences new new' p).2 r) :
    (∃ x ∈ new, (codec x).id = p.1) ∧ RefersAlike ours offered p.2 r ∨
      (∀ x ∈ new, (codec x).id ≠ p.1) ∧ (codec r).associatedId = p.1 := by
  obtain ⟨hlength, hzip⟩ := List.forall₂_iff_zip.mp h.setNew.renumbered
  obtain hp | ⟨s, -, -, -, rfl⟩ := mem_newRtxCodecs hp
  · exact absurd hp List.not_mem_nil
  have hadded : ∀ a ∈ new.zip new', IsInt (codec a.2).id := fun a ha => by
    obtain ⟨hmem, -⟩ := List.of_mem_zip ha
    exact isInt_renumbered (hints a.1 (mem_primaryCodecs.mp (h.sublist.subset hmem)).1) (hzip ha)
  have hcases := foldl_updateReference ((codec s).associatedId, withAssociated s) hadded
  rw [hr.associatedId_eq]
  rcases hcases with ⟨hnone, heq⟩ | ⟨a, ha, hid, hassociated⟩
  · refine .inr ⟨fun x hx => ?_, ?_⟩
    · obtain ⟨y, hy⟩ := exists_mem_zip hlength hx
      exact hnone (x, y) hy
    · rw [updateReferences, heq]
      exact associatedId_withAssociated s
  · obtain ⟨hnew, hy⟩ := List.of_mem_zip ha
    have hx := h.sublist.subset hnew
    have hrenumbered : Renumbered a.1 a.2 := hzip ha
    refine .inl ⟨⟨a.1, hnew, hid⟩, a.1, hx, ?_, a.2, mem_primaryCodecs.mpr ⟨?_, ?_⟩, ?_, hrenumbered.isMatch_self⟩
    · rw [associatedId_withAssociated]
      exact hid
    · rw [h.offered]
      exact List.mem_append_left _ (List.mem_append_right _ hy)
    · rw [hrenumbered.isRtx_eq]
      exact (mem_primaryCodecs.mp hx).2
    · rw [hr.associatedId_eq]
      exact hassociated.symm

theorem rtxConsistent (h : Completed ours current kept used offered used' new new' rtx')
    (hints : ∀ c ∈ ours, IsInt (codec c).id) (hmissing : new = missingCodecs current ours)
    (hkept : List.Forall₂ Kept current kept) (hkeeps : ∀ x, Keeps before current x → x ∈ kept)
    (hanchored : RtxAnchored before ours current) : RtxConsistent ours current offered := by
  have hoffered {x : C} (hx : x ∈ primaryCodecs current) (hkeep : Keeps before current x) :
      x ∈ primaryCodecs offered := by
    refine mem_primaryCodecs.mpr ⟨?_, (mem_primaryCodecs.mp hx).2⟩
    rw [h.offered]
    exact List.mem_append_left _ (List.mem_append_left _ (hkeeps x hkeep))
  refine ⟨kept, new', rtx', h.offered, ?_, fun c hc => ?_, ?_⟩
  · refine ((List.forall₂_and_left _ _).mpr ⟨fun s hs => hs, hkept⟩).imp fun s r hsr hrtx => ?_
    obtain ⟨hs, hr⟩ := hsr
    obtain ⟨x, hx, hid, hkeep⟩ := hanchored.kept s hs (hr.isRtx_eq.symm.trans hrtx)
    exact ⟨x, hx, hid, x, hoffered hx hkeep, hid.trans hr.associatedId_eq.symm, isMatch_refl x⟩
  · obtain ⟨x, hx, hrenumbered⟩ := forall₂_mem_right h.setNew.renumbered hc
    rw [hrenumbered.isRtx_eq]
    exact (mem_primaryCodecs.mp (h.sublist.subset hx)).2
  · have hrenumbered := List.forall₂_map_left_iff.mp h.setRtx.renumbered
    refine ((List.forall₂_and_left _ _).mpr ⟨fun p hp => hp, hrenumbered⟩).imp fun p r hpr => ?_
    obtain ⟨hp, hr⟩ := hpr
    obtain ⟨-, hother, hisRtx, -⟩ := other_foldl_updateReference p (new.zip new')
    have hrefers := h.refers hints hp hr
    obtain hp | ⟨s, hs, hrtx, hunmatched, rfl⟩ := mem_newRtxCodecs hp
    · exact absurd hp List.not_mem_nil
    refine ⟨?_, ?_, ?_⟩
    · rw [hr.withCodec_eq, updateReferences, hother, withCodec_codec]
    · rw [hr.isRtx_eq, updateReferences, hisRtx, isRtx_withAssociated, hrtx]
    · rcases hrefers with ⟨-, hrefers⟩ | ⟨hnone, hid⟩
      · exact hrefers
      · obtain ⟨x, hx, hxid, hnew | ⟨y, hy, hyid, hmatch, hkeep⟩⟩ := hanchored.added s hs hrtx hunmatched
        · exact absurd hxid (hnone x (hmissing ▸ hnew))
        · refine ⟨x, hx, ?_, y, hoffered hy hkeep, (hyid.trans hxid).trans hid.symm, hmatch⟩
          rw [associatedId_withAssociated]
          exact hxid

theorem rtxAnchored (h : Completed ours current current used offered used' new new rtx')
    (hints : ∀ c ∈ ours, IsInt (codec c).id) (hmissing : new = missingCodecs current ours)
    (hkeeps : ∀ x ∈ current, Keeps before current x) (hconsistent : RtxConsistent ours current offered) :
    RtxAnchored before ours current := by
  obtain ⟨kept, added, rtx, hoffered, hkept, -, hrtx⟩ := hconsistent
  have hrenumbered := List.forall₂_map_left_iff.mp h.setRtx.renumbered
  -- The lists are those of the offer, as they are as long.
  rw [h.offered, List.append_assoc, List.append_assoc] at hoffered
  obtain ⟨rfl, hrest⟩ := List.append_inj hoffered hkept.length_eq
  obtain ⟨rfl, rfl⟩ := List.append_inj' hrest (hrenumbered.length_eq.symm.trans hrtx.length_eq)
  refine ⟨fun s hs hisRtx => ?_, fun s hs hisRtx hunmatched => ?_⟩
  · obtain ⟨x, hx, hid, -⟩ := List.forall₂_same.mp hkept s hs hisRtx
    exact ⟨x, hx, hid, hkeeps x (mem_primaryCodecs.mp hx).1⟩
  · obtain ⟨p, hp, hkey⟩ := exists_mem_newRtxCodecs (.inr ⟨s, hs, hisRtx, hunmatched, rfl⟩)
    obtain ⟨r, hr⟩ := exists_mem_zip hrtx.length_eq hp
    obtain ⟨-, -, x, hx, hxid, y, hy, hyid, hmatch⟩ := (List.forall₂_iff_zip.mp hrtx).2 hr
    rcases h.refers hints hp ((List.forall₂_iff_zip.mp hrenumbered).2 hr) with ⟨⟨z, hz, hzid⟩, -⟩ | ⟨hnone, hid⟩
    · exact ⟨z, h.sublist.subset hz, hzid.trans hkey, .inl (hmissing ▸ hz)⟩
    · have hkeyOf : (codec p.2).associatedId = p.1 := by
        obtain hp | ⟨t, -, -, -, rfl⟩ := mem_newRtxCodecs hp
        · exact absurd hp List.not_mem_nil
        · exact associatedId_withAssociated t
      obtain ⟨hmem, hprimary⟩ := mem_primaryCodecs.mp hy
      have hcurrent : y ∈ current := by
        rw [h.offered] at hmem
        rcases List.mem_append.mp hmem with hmem | hmem
        · exact (List.mem_append.mp hmem).resolve_right fun hmem => hnone y hmem (hyid.trans hid)
        · obtain ⟨-, -, -, hyRtx, -⟩ := forall₂_mem_right hrtx hmem
          exact absurd hyRtx (by rw [hprimary]; decide)
      exact ⟨x, hx, hxid.trans (hkeyOf.trans hkey), .inr ⟨y, mem_primaryCodecs.mpr ⟨hcurrent, hprimary⟩,
        (hyid.trans hid).trans (hxid.trans hkeyOf).symm, hmatch, hkeeps y hcurrent⟩⟩

theorem isOffered {distinct room fresh : Prop} (h : Completed ours current kept used offered used' new new' rtx')
    (hints : ∀ c ∈ ours, IsInt (codec c).id) (hmissing : room → new = missingCodecs current ours)
    (hkept : List.Forall₂ Kept current kept) (hkeeps : ∀ x, Keeps before current x → x ∈ kept)
    (hdistinct : distinct → kept = current) (hfresh : room → fresh → distinct ∧ new' = new)
    (hnodup : distinct → ((before ++ idsOf current).filter Dynamic).Nodup) :
    Offered distinct room fresh before ours current offered := by
  have hprefix : kept <+: offered := by
    rw [h.offered, List.append_assoc]
    exact List.prefix_append _ _
  refine ⟨⟨kept, hprefix, hkept⟩, fun hsame => hdistinct hsame ▸ hprefix, fun x hx => hprefix.subset (hkeeps x hx),
    fun hroom => h.rtxConsistent hints (hmissing hroom) hkept hkeeps, fun hroom hclean => ?_⟩
  obtain ⟨hsame, rfl⟩ := hfresh hroom hclean
  obtain rfl := hdistinct hsame
  exact h.rtxAnchored hints (hmissing hroom) fun x => Keeps.of_nodup (hnodup hsame)

end Completed

end Offers

/-- The payload types of all three lists. -/
def Codecs.ids (codecs : Codecs) : List ℤ := idsOf codecs.audio ++ idsOf codecs.video ++ idsOf codecs.data

/-- No dynamic payload type is used twice. -/
def Codecs.Distinct (codecs : Codecs) : Prop := (codecs.ids.filter Dynamic).Nodup

def Codecs.new (ours current : Codecs) : Codecs where
  audio := newCodecs current.audio ours.audio
  video := newCodecs current.video ours.video
  data := newCodecs current.data ours.data

theorem idsOf_append {C : Type} [MediaCodec C] (l l' : List C) : idsOf (l ++ l') = idsOf l ++ idsOf l' :=
  List.map_append

theorem length_filter_ids (codecs : Codecs) : (codecs.ids.filter Dynamic).length =
    ((idsOf codecs.audio).filter Dynamic).length + ((idsOf codecs.video).filter Dynamic).length +
      ((idsOf codecs.data).filter Dynamic).length := by
  rw [Codecs.ids, List.filter_append, List.filter_append, List.length_append, List.length_append]

def keepCodecs (codecs : Codecs) : Codecs × UsedIds :=
  let audio := findAndSetIdsUsed usedPayloadTypes codecs.audio
  let video := findAndSetIdsUsed audio.2 codecs.video
  let data := findAndSetIdsUsed video.2 codecs.data
  (⟨audio.1, video.1, data.1⟩, data.2)

/-- What becomes of the codecs of the current description. -/
structure KeptCodecs (codecs kept : Codecs) (used : UsedIds) : Prop where
  assigned : Assigned usedPayloadTypes kept.ids used
  audio : List.Forall₂ Kept codecs.audio kept.audio
  video : List.Forall₂ Kept codecs.video kept.video
  data : List.Forall₂ Kept codecs.data kept.data
  keepsAudio : ∀ x, Keeps [] codecs.audio x → x ∈ kept.audio
  keepsVideo : ∀ x, Keeps (idsOf codecs.audio) codecs.video x → x ∈ kept.video
  keepsData : ∀ x, Keeps (idsOf codecs.audio ++ idsOf codecs.video) codecs.data x → x ∈ kept.data
  length : used.idSet.length ≤ (codecs.ids.filter Dynamic).length
  same : codecs.Distinct → kept = codecs ∧ used.idSet ⊆ codecs.ids.filter Dynamic

theorem keepCodecs_spec {codecs : Codecs} (hroom : (codecs.ids.filter Dynamic).length ≤ 32) :
    KeptCodecs codecs (keepCodecs codecs).1 (keepCodecs codecs).2 := by
  have hlength := length_filter_ids codecs
  have haudio := findAndSetIdsUsed_set usedPayloadTypes_valid codecs.audio
  have hvideo := findAndSetIdsUsed_set haudio.assigned.valid codecs.video
  have hdata := findAndSetIdsUsed_set hvideo.assigned.valid codecs.data
  have haudioLength : _ ≤ 0 + _ := haudio.length
  have hvideoLength := hvideo.length
  have hdataLength := hdata.length
  have hroomAudio : (([] ++ idsOf codecs.audio).filter Dynamic).length ≤ 32 := by
    rw [List.nil_append]
    omega
  have hroomVideo : ((idsOf codecs.audio ++ idsOf codecs.video).filter Dynamic).length ≤ 32 := by
    rw [List.filter_append, List.length_append]
    omega
  have hfilled := usedPayloadTypes_filled.run usedPayloadTypes_valid hroomAudio
  refine ⟨(haudio.assigned.append hvideo.assigned).append hdata.assigned,
    haudio.kept (by show 0 + _ ≤ 32; omega), hvideo.kept (by omega), hdata.kept (by omega),
    fun x => usedPayloadTypes_filled.mem_of_keeps usedPayloadTypes_valid hroomAudio,
    fun x => hfilled.mem_of_keeps haudio.assigned.valid hroomVideo,
    fun x => (hfilled.run haudio.assigned.valid hroomVideo).mem_of_keeps hvideo.assigned.valid hroom,
    by show (findAndSetIdsUsed _ codecs.data).2.idSet.length ≤ _; omega, fun hdistinct => ?_⟩
  unfold Codecs.Distinct Codecs.ids at hdistinct
  rw [List.filter_append, List.filter_append] at hdistinct
  have htwo := (List.nodup_append.mp hdistinct).1
  obtain ⟨haudioSame, haudioSub⟩ := haudio.same [] (List.nil_subset _) (List.nodup_append.mp htwo).1
  obtain ⟨hvideoSame, hvideoSub⟩ := hvideo.same _ haudioSub htwo
  obtain ⟨hdataSame, hdataSub⟩ := hdata.same _ hvideoSub hdistinct
  refine ⟨?_, ?_⟩
  · unfold keepCodecs
    dsimp only
    rw [haudioSame, hvideoSame, hdataSame]
  · unfold Codecs.ids
    rw [List.filter_append, List.filter_append]
    exact hdataSub

/-- **The payload types of an offer**: dynamic ones are distinct, current codecs are kept, and RTX
codecs refer to what they referred to where these are anchored; nowhere else, while no id is given
in place of its own. -/
theorem offered_payloads (ours : Codecs) (current : Option SessionDescription) (hints : ∀ id ∈ ours.ids, IsInt id)
    (hroom : ((currentCodecs current).ids.filter Dynamic).length ≤ 32) :
    let codecs := currentCodecs current
    let offered := getCodecsToOffer ours current
    let room := (codecs.ids.filter Dynamic).length + (ours.ids.filter Dynamic).length ≤ 32
    let fresh := ((codecs.ids ++ (ours.new codecs).ids).filter Dynamic).Nodup
    offered.Distinct ∧ Offered codecs.Distinct room fresh [] ours.audio codecs.audio offered.audio ∧
      Offered codecs.Distinct room fresh (idsOf codecs.audio) ours.video codecs.video offered.video ∧
      Offered codecs.Distinct room fresh (idsOf codecs.audio ++ idsOf codecs.video) ours.data codecs.data
        offered.data := by
  intro codecs offered room fresh
  have hkept : KeptCodecs codecs (keepCodecs codecs).1 (keepCodecs codecs).2 := keepCodecs_spec hroom
  set kept := (keepCodecs codecs).1 with hkeptEq
  -- Ours are added.
  obtain ⟨newAudio, newAudio', rtxAudio, haudio⟩ :=
    findCodecsToOffer_spec ours.audio hkept.assigned.valid hkept.audio
  obtain ⟨newVideo, newVideo', rtxVideo, hvideo⟩ :=
    findCodecsToOffer_spec ours.video (haudio.assigned).valid hkept.video
  obtain ⟨newData, newData', rtxData, hdata⟩ :=
    findCodecsToOffer_spec ours.data (hvideo.assigned).valid hkept.data
  have hintsOf {C : Type} [MediaCodec C] {l : List C} (hsub : idsOf l ⊆ ours.ids) : ∀ c ∈ l, IsInt (codec c).id :=
    fun c hc => hints _ (hsub (List.mem_map_of_mem hc))
  have hprimary {C : Type} [MediaCodec C] (l : List C) :
      ((idsOf (primaryCodecs l)).filter Dynamic).length ≤ ((idsOf l).filter Dynamic).length :=
    ((List.filter_sublist.map _).filter _).length_le
  have hmissing (h : room) : newAudio = missingCodecs codecs.audio ours.audio ∧
      newVideo = missingCodecs codecs.video ours.video ∧ newData = missingCodecs codecs.data ours.data := by
    have htotal : _ + _ ≤ 32 := h
    rw [length_filter_ids ours] at htotal
    have hlength := hkept.length
    have haudioLength := haudio.length_le
    have hvideoLength := hvideo.length_le
    have hprimaryAudio := hprimary ours.audio
    have hprimaryVideo := hprimary ours.video
    have hprimaryData := hprimary ours.data
    exact ⟨haudio.missing (by omega), hvideo.missing (by omega), hdata.missing (by omega)⟩
  have hfresh (h : room) (hclean : fresh) : codecs.Distinct ∧ newAudio' = newAudio ∧ newVideo' = newVideo ∧
      newData' = newData := by
    obtain ⟨haudioMissing, hvideoMissing, hdataMissing⟩ := hmissing h
    have hall : (codecs.ids.filter Dynamic ++ (idsOf (newCodecs codecs.audio ours.audio)).filter Dynamic ++
        (idsOf (newCodecs codecs.video ours.video)).filter Dynamic ++
        (idsOf (newCodecs codecs.data ours.data)).filter Dynamic).Nodup := by
      rw [← List.filter_append, ← List.filter_append, ← List.filter_append, List.append_assoc, List.append_assoc,
        ← List.append_assoc (idsOf (newCodecs codecs.audio ours.audio))]
      exact hclean
    have htwo := (List.nodup_append.mp hall).1
    have hone := (List.nodup_append.mp htwo).1
    have hdistinct : codecs.Distinct := (List.nodup_append.mp hone).1
    obtain ⟨haudioSame, haudioSub⟩ := haudio.same haudioMissing (hkept.same hdistinct).2 hone
    obtain ⟨hvideoSame, hvideoSub⟩ := hvideo.same hvideoMissing haudioSub htwo
    exact ⟨hdistinct, haudioSame, hvideoSame, (hdata.same hdataMissing hvideoSub hall).1⟩
  have hnodup {l l' : List ℤ} (h : ((l ++ l').filter Dynamic).Nodup) : (l.filter Dynamic).Nodup := by
    rw [List.filter_append] at h
    exact (List.nodup_append.mp h).1
  refine ⟨?_, ?_, ?_, ?_⟩
  · have hassigned := ((hkept.assigned.append haudio.assigned).append hvideo.assigned).append hdata.assigned
    have hperm : offered.ids.Perm (kept.ids ++ idsOf (newAudio' ++ rtxAudio) ++ idsOf (newVideo' ++ rtxVideo) ++
        idsOf (newData' ++ rtxData)) := by
      have haudioOffer : offered.audio = _ := haudio.offered
      have hvideoOffer : offered.video = _ := hvideo.offered
      have hdataOffer : offered.data = _ := hdata.offered
      rw [Codecs.ids, haudioOffer, hvideoOffer, hdataOffer]
      refine List.perm_iff_count.mpr fun id => ?_
      simp only [Codecs.ids, idsOf_append, List.count_append]
      omega
    exact (hperm.filter _).nodup_iff.mpr hassigned.nodup
  · exact haudio.isOffered (hintsOf fun id hid => List.mem_append_left _ (List.mem_append_left _ hid))
      (fun h => (hmissing h).1) hkept.audio hkept.keepsAudio (fun h => congrArg Codecs.audio (hkept.same h).1)
      (fun h hclean => ⟨(hfresh h hclean).1, (hfresh h hclean).2.1⟩) fun h => hnodup (hnodup h)
  · exact hvideo.isOffered (hintsOf fun id hid => List.mem_append_left _ (List.mem_append_right _ hid))
      (fun h => (hmissing h).2.1) hkept.video hkept.keepsVideo (fun h => congrArg Codecs.video (hkept.same h).1)
      (fun h hclean => ⟨(hfresh h hclean).1, (hfresh h hclean).2.2.1⟩) fun h => hnodup h
  · exact hdata.isOffered (hintsOf fun id hid => List.mem_append_right _ hid)
      (fun h => (hmissing h).2.2) hkept.data hkept.keepsData (fun h => congrArg Codecs.data (hkept.same h).1)
      (fun h hclean => ⟨(hfresh h hclean).1, (hfresh h hclean).2.2.2⟩) fun h => h

/-! ## An RTX codec that is left behind -/

section Example

def isacCodec (id : ℤ) : AudioCodec := ⟨⟨id, text "ISAC", 16000, 0, [], []⟩, 0, 1⟩

/-- VP8, under an id. -/
def vp8Codec (id : ℤ) : VideoCodec := ⟨⟨id, text "VP8", 90000, 0, [], []⟩, 640, 400, 30⟩

def rtxCodec (id associated : ℤ) : VideoCodec :=
  ⟨⟨id, text "rtx", 90000, 0, [(text "apt", toStringInt associated)], []⟩, 0, 0, 0⟩

def videoDescription (codecs : List VideoCodec) : SessionDescription where
  contents := [⟨text "video", nsJingleRtp, false, some (.video { codecs := codecs })⟩]

def mediaDescription (audio : List AudioCodec) (video : List VideoCodec) : SessionDescription where
  contents := [⟨text "audio", nsJingleRtp, false, some (.audio { codecs := audio })⟩,
    ⟨text "video", nsJingleRtp, false, some (.video { codecs := video })⟩]

theorem offered_payloads_rtx :
    RtxConsistent [vp8Codec 95, rtxCodec 97 95] []
        (getCodecsToOffer ⟨[], [vp8Codec 95, rtxCodec 97 95], []⟩ none).video ∧
      RtxConsistent [] [vp8Codec 96, rtxCodec 97 96] (getCodecsToOffer {} (some (mediaDescription
        [isacCodec 100, isacCodec 100] [vp8Codec 96, rtxCodec 97 96]))).video := by
  obtain ⟨-, -, hadded, -⟩ :=
    offered_payloads ⟨[], [vp8Codec 95, rtxCodec 97 95], []⟩ none (by decide) (by decide)
  obtain ⟨-, -, hkept, -⟩ := offered_payloads {} (some (mediaDescription
    [isacCodec 100, isacCodec 100] [vp8Codec 96, rtxCodec 97 96])) (by decide)
      (by decide)
  refine ⟨hadded.rtx (by decide) ⟨fun s hs => absurd hs List.not_mem_nil, fun s hs hrtx _ => ?_⟩,
    hkept.rtx (by decide) ⟨fun s hs hrtx => ?_, fun s hs => absurd hs List.not_mem_nil⟩⟩
  · refine ⟨vp8Codec 95, by decide, ?_, .inl (by decide)⟩
    rcases List.mem_cons.mp hs with rfl | hs
    · exact absurd hrtx (by decide)
    · rw [List.mem_singleton.mp hs]
      decide
  · refine ⟨vp8Codec 96, by decide, ?_, [], [rtxCodec 97 96], rfl, by decide⟩
    rcases List.mem_cons.mp hs with rfl | hs
    · exact absurd hrtx (by decide)
    · rw [List.mem_singleton.mp hs]
      decide

/-- **VP8 is offered as 100 already**, and RTX still refers to 96. -/
theorem rtx_left_behind :
    ¬∀ (ours : Codecs) (current : Option SessionDescription),
      ((currentCodecs current).ids.filter Dynamic).length + (ours.ids.filter Dynamic).length ≤ 32 →
        RtxConsistent ours.video (currentCodecs current).video (getCodecsToOffer ours current).video := by
  intro h
  have hconsistent := h ⟨[], [vp8Codec 96, rtxCodec 97 96], []⟩
    (some (videoDescription [vp8Codec 100])) (by decide)
  have hoffer : (getCodecsToOffer ⟨[], [vp8Codec 96, rtxCodec 97 96], []⟩
      (some (videoDescription [vp8Codec 100]))).video =
        [vp8Codec 100, rtxCodec 97 96] := by decide
  rw [hoffer] at hconsistent
  obtain ⟨y, hy, hid⟩ := hconsistent.associated (r := rtxCodec 97 96) (by decide) (by decide)
  have hnone : ∀ y ∈ primaryCodecs [vp8Codec 100, rtxCodec 97 96],
      (codec y).id ≠ (codec (rtxCodec 97 96)).associatedId := by decide
  exact hnone y hy hid

end Example

end Libjingle.Media
