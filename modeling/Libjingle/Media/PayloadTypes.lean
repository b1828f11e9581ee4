import Libjingle.Media.Description
import Mathlib.Data.Finset.Card

/-!
# The codecs of an offer (`session/media/mediasession.cc`)

Main results: **`findAndSetIdsUsed_spec`**, **`Filled.keepsId_iff`**.
-/

variable {ids : List ℤ}

namespace Libjingle.Media

open MediaCodec LawfulMediaCodec

/-! ## Ids in use -/

/-- `UsedIds`: the range, where the search starts, and the ids in use. -/
structure UsedIds where
  minAllowedId : ℤ
  maxAllowedId : ℤ
  nextId : ℤ
  idSet : List ℤ := []

def usedPayloadTypes : UsedIds where
  minAllowedId := 96
  maxAllowedId := 127
  nextId := 127

def usedRtpHeaderExtensionIds : UsedIds where
  minAllowedId := 1
  maxAllowedId := 14
  nextId := 14

def findUnused (idSet : List ℤ) (minAllowedId : ℤ) : (rounds : ℕ) → (nextId : ℤ) → ℤ
  | 0, nextId => nextId
  | rounds + 1, nextId =>
    if nextId ∈ idSet ∧ nextId ≥ minAllowedId then findUnused idSet minAllowedId rounds (nextId - 1) else nextId

namespace UsedIds

/-- `FindUnusedId`. -/
def findUnusedId (u : UsedIds) : ℤ :=
  findUnused u.idSet u.minAllowedId (u.nextId - u.minAllowedId + 1).toNat u.nextId

def findAndSetIdUsed (u : UsedIds) (originalId : ℤ) : ℤ × UsedIds :=
  if originalId > u.maxAllowedId ∨ originalId < u.minAllowedId then (originalId, u)
  else if originalId ∈ u.idSet then
    (u.findUnusedId, { u with nextId := u.findUnusedId, idSet := u.findUnusedId :: u.idSet })
  else (originalId, { u with idSet := originalId :: u.idSet })

end UsedIds

section Template

variable {C : Type} [MediaCodec C]

def findAndSetIdsUsed : UsedIds → List C → List C × UsedIds
  | u, [] => ([], u)
  | u, c :: codecs =>
    let r := u.findAndSetIdUsed (codec c).id
    let rest := findAndSetIdsUsed r.2 codecs
    (withId c r.1 :: rest.1, rest.2)

/-! ## New codecs -/

def findMatchingCodec (codecs : List C) (codecToMatch : C) : Option C :=
  codecs.find? fun it => isMatch it codecToMatch

def insertNew (key : ℤ) (c : C) : List (ℤ × C) → List (ℤ × C)
  | [] => [(key, c)]
  | p :: l => if key < p.1 then (key, c) :: p :: l else if key = p.1 then p :: l else p :: insertNew key c l

def withAssociated (c : C) : C :=
  if (codec c).getParam kCodecParamAssociatedPayloadType = none then
    withParam c kCodecParamAssociatedPayloadType [] else c

def newRtxCodecs (offered : List C) : List C → List (ℤ × C) → List (ℤ × C)
  | [], found => found
  | c :: reference, found =>
    newRtxCodecs offered reference
      (if findMatchingCodec offered c = none ∧ (codec c).isRtx = true then
        insertNew (codec c).associatedId (withAssociated c) found else found)

/-- The loop of `FindCodecsToOffer`: the offer, the ids, and the RTX codecs to be added. -/
structure OfferState (C : Type) where
  offered : List C
  used : UsedIds
  newRtx : List (ℤ × C)

def OfferState.add (s : OfferState C) (c : C) : OfferState C :=
  let r := s.used.findAndSetIdUsed (codec c).id
  { offered := s.offered ++ [withId c r.1]
    used := r.2
    newRtx := s.newRtx.map fun p =>
      if p.1 = (codec c).id then (p.1, withParam p.2 kCodecParamAssociatedPayloadType (toStringInt r.1)) else p }

def addNewCodecs : List C → OfferState C → OfferState C
  | [], s => s
  | c :: reference, s =>
    addNewCodecs reference
      (if findMatchingCodec s.offered c = none ∧ (codec c).isRtx = false then s.add c else s)

def findCodecsToOffer (reference offered : List C) (used : UsedIds) : List C × UsedIds :=
  let s := addNewCodecs reference ⟨offered, used, newRtxCodecs offered reference []⟩
  let r := findAndSetIdsUsed s.used (s.newRtx.map Prod.snd)
  (s.offered ++ r.1, r.2)

end Template

/-- The codecs of the three types of media. -/
structure Codecs where
  audio : List AudioCodec := []
  video : List VideoCodec := []
  data : List DataCodec := []

def currentCodecs (current : Option SessionDescription) : Codecs where
  audio := match current.bind (·.getFirstMediaContent .audio) with
    | some ⟨_, _, _, some (.audio desc)⟩ => desc.codecs
    | _ => []
  video := match current.bind (·.getFirstMediaContent .video) with
    | some ⟨_, _, _, some (.video desc)⟩ => desc.codecs
    | _ => []
  data := match current.bind (·.getFirstMediaContent .data) with
    | some ⟨_, _, _, some (.data desc)⟩ => desc.codecs
    | _ => []

def getCodecsToOffer (ours : Codecs) (current : Option SessionDescription) : Codecs :=
  let audio := findAndSetIdsUsed usedPayloadTypes (currentCodecs current).audio
  let video := findAndSetIdsUsed audio.2 (currentCodecs current).video
  let data := findAndSetIdsUsed video.2 (currentCodecs current).data
  let audio' := findCodecsToOffer ours.audio audio.1 data.2
  let video' := findCodecsToOffer ours.video video.1 audio'.2
  let data' := findCodecsToOffer ours.data data.1 video'.2
  ⟨audio'.1, video'.1, data'.1⟩

/-! ## Assigned ids -/

def Dynamic (id : ℤ) : Prop := 96 ≤ id ∧ id ≤ 127

instance (id : ℤ) : Decidable (Dynamic id) := inferInstanceAs (Decidable (_ ∧ _))

theorem findUnused_spec (idSet : List ℤ) (minAllowedId : ℤ) {rounds : ℕ} {nextId : ℤ}
    (h : (nextId - minAllowedId + 1).toNat ≤ rounds) :
    findUnused idSet minAllowedId rounds nextId ≤ nextId ∧
      (minAllowedId - 1 ≤ nextId → minAllowedId - 1 ≤ findUnused idSet minAllowedId rounds nextId) ∧
      (minAllowedId ≤ findUnused idSet minAllowedId rounds nextId →
        findUnused idSet minAllowedId rounds nextId ∉ idSet) ∧
      ∀ i, findUnused idSet minAllowedId rounds nextId < i → i ≤ nextId → i ∈ idSet := by
  induction rounds generalizing nextId with
  | zero =>
    rw [findUnused]
    refine ⟨le_refl _, id, fun hmin => ?_, fun i hlt hle => ?_⟩ <;> omega
  | succ rounds ih =>
    rw [findUnused]
    split_ifs with hused
    · obtain ⟨hle, hmin, hnot, habove⟩ := @ih (nextId - 1) (by omega)
      refine ⟨by omega, fun _ => hmin (by omega), hnot, fun i hlt hi => ?_⟩
      rcases eq_or_ne i nextId with rfl | hne
      · exact hused.1
      · exact habove i hlt (by omega)
    · refine ⟨le_refl _, id, fun hmin hmem => hused ⟨hmem, hmin⟩, fun i hlt hle => ?_⟩
      omega

/-- What holds of the ids in use while an offer is made. -/
structure UsedIds.Valid (u : UsedIds) : Prop where
  min : u.minAllowedId = 96
  max : u.maxAllowedId = 127
  lower : 95 ≤ u.nextId
  upper : u.nextId ≤ 127
  above : ∀ id, u.nextId < id → id ≤ 127 → id ∈ u.idSet

theorem usedPayloadTypes_valid : usedPayloadTypes.Valid :=
  ⟨rfl, rfl, by decide, by decide, fun id (hlt : 127 < id) hle => absurd hlt (not_lt.mpr hle)⟩

section Assigned

variable {u u' u'' : UsedIds} {id : ℤ} {ids ids' : List ℤ}

theorem UsedIds.Valid.findUnusedId (h : u.Valid) : 95 ≤ u.findUnusedId ∧ u.findUnusedId ≤ u.nextId ∧
    (96 ≤ u.findUnusedId → u.findUnusedId ∉ u.idSet) ∧
    ∀ i, u.findUnusedId < i → i ≤ u.nextId → i ∈ u.idSet := by
  have hlower := h.lower
  obtain ⟨hle, hmin, hnot, habove⟩ := findUnused_spec u.idSet u.minAllowedId (le_refl _)
  rw [h.min] at hmin hnot
  unfold UsedIds.findUnusedId
  rw [h.min] at hle habove ⊢
  exact ⟨hmin (by omega), hle, hnot, habove⟩

theorem UsedIds.Valid.findAndSetIdUsed (h : u.Valid) (id : ℤ) :
    ¬Dynamic id ∧ u.findAndSetIdUsed id = (id, u) ∨
      Dynamic id ∧ id ∉ u.idSet ∧ u.findAndSetIdUsed id = (id, { u with idSet := id :: u.idSet }) ∨
      Dynamic id ∧ id ∈ u.idSet ∧ u.findAndSetIdUsed id =
        (u.findUnusedId, { u with nextId := u.findUnusedId, idSet := u.findUnusedId :: u.idSet }) := by
  rw [UsedIds.findAndSetIdUsed, h.min, h.max]
  by_cases hdynamic : Dynamic id
  · have hrange : ¬(id > 127 ∨ id < 96) := by
      obtain ⟨hmin, hmax⟩ := hdynamic
      omega
    rw [if_neg hrange]
    by_cases hused : id ∈ u.idSet
    · exact .inr (.inr ⟨hdynamic, hused, if_pos hused⟩)
    · exact .inr (.inl ⟨hdynamic, hused, if_neg hused⟩)
  · have hrange : id > 127 ∨ id < 96 := by
      unfold Dynamic at hdynamic
      omega
    exact .inl ⟨hdynamic, if_pos hrange⟩

/-- Ids that were set as used in turn: the dynamic ones are distinct. -/
structure Assigned (u : UsedIds) (ids : List ℤ) (u' : UsedIds) : Prop where
  valid : u'.Valid
  nodup : (ids.filter Dynamic).Nodup
  free : ∀ id ∈ ids, Dynamic id → id ∉ u.idSet
  used : ∀ id ∈ ids, Dynamic id → id ∈ u'.idSet
  mono : u.idSet ⊆ u'.idSet

theorem Assigned.nil (h : u.Valid) : Assigned u [] u :=
  ⟨h, List.nodup_nil, fun _ h => absurd h List.not_mem_nil, fun _ h => absurd h List.not_mem_nil, fun _ h => h⟩

theorem Assigned.append (h : Assigned u ids u') (h' : Assigned u' ids' u'') : Assigned u (ids ++ ids') u'' where
  valid := h'.valid
  nodup := by
    rw [List.filter_append, List.nodup_append]
    refine ⟨h.nodup, h'.nodup, fun a ha b hb heq => ?_⟩
    obtain ⟨ha, hdynamic⟩ := List.mem_filter.mp ha
    obtain ⟨hb, -⟩ := List.mem_filter.mp hb
    exact h'.free b hb (heq ▸ of_decide_eq_true hdynamic) (heq ▸ h.used a ha (of_decide_eq_true hdynamic))
  free id hmem hdynamic := by
    rcases List.mem_append.mp hmem with hmem | hmem
    · exact h.free id hmem hdynamic
    · exact fun hused => h'.free id hmem hdynamic (h.mono hused)
  used id hmem hdynamic := by
    rcases List.mem_append.mp hmem with hmem | hmem
    · exact h'.mono (h.used id hmem hdynamic)
    · exact h'.used id hmem hdynamic
  mono := fun _ hmem => h'.mono (h.mono hmem)

theorem Assigned.single (h : u.Valid) (id : ℤ) :
    Assigned u [(u.findAndSetIdUsed id).1] (u.findAndSetIdUsed id).2 := by
  have hset {n : ℤ} {v : UsedIds} (hv : v.Valid) (hn : Dynamic n → n ∉ u.idSet) (hset : v.idSet = n :: u.idSet) :
      Assigned u [n] v :=
    ⟨hv, (List.nodup_singleton n).filter _, fun i hi => by rw [List.mem_singleton.mp hi]; exact hn,
      fun i hi _ => by rw [List.mem_singleton.mp hi, hset]; exact List.mem_cons_self,
      fun i hi => by rw [hset]; exact List.mem_cons_of_mem _ hi⟩
  rcases h.findAndSetIdUsed id with ⟨hstatic, heq⟩ | ⟨-, hfree, heq⟩ | ⟨-, -, heq⟩ <;> rw [heq]
  · have hnot (i : ℤ) (hi : i ∈ [id]) : ¬Dynamic i := List.mem_singleton.mp hi ▸ hstatic
    exact ⟨h, (List.nodup_singleton id).filter _, fun i hi hdynamic => absurd hdynamic (hnot i hi),
      fun i hi hdynamic => absurd hdynamic (hnot i hi), fun _ hi => hi⟩
  · exact hset ⟨h.min, h.max, h.lower, h.upper, fun i hlt hle => List.mem_cons_of_mem _ (h.above i hlt hle)⟩
      (fun _ => hfree) rfl
  · obtain ⟨hlower, hle, hnot, habove⟩ := h.findUnusedId
    refine hset ⟨h.min, h.max, hlower, hle.trans h.upper, fun i hlt hi => ?_⟩ (fun hdynamic => hnot hdynamic.1) rfl
    refine List.mem_cons_of_mem _ ?_
    rcases le_or_gt i u.nextId with hnext | hnext
    · exact habove i hlt hnext
    · exact h.above i hnext hi

end Assigned

/-! ## Renumbered codecs -/

section Renumbered

variable {C : Type} [MediaCodec C] [LawfulMediaCodec C] {u : UsedIds} {l : List C}

/-- `c'` is `c` under an id that was set for it. -/
structure Renumbered (c c' : C) : Prop where
  eq : c' = withId c (codec c').id
  static : ¬Dynamic (codec c).id → (codec c').id = (codec c).id
  range : (codec c').id = (codec c).id ∨ 95 ≤ (codec c').id ∧ (codec c').id ≤ 127

/-- The payload types of codecs. -/
def idsOf (l : List C) : List ℤ := l.map fun c => (codec c).id

theorem renumbered_set (h : u.Valid) (c : C) : Renumbered c (withId c (u.findAndSetIdUsed (codec c).id).1) := by
  have hid : (codec (withId c (u.findAndSetIdUsed (codec c).id).1)).id = (u.findAndSetIdUsed (codec c).id).1 := by
    rw [codec_withId]
  refine ⟨by rw [hid], fun hstatic => ?_, ?_⟩ <;> rw [hid] <;>
    rcases h.findAndSetIdUsed (codec c).id with ⟨hnot, heq⟩ | ⟨hdynamic, -, heq⟩ | ⟨hdynamic, -, heq⟩ <;> rw [heq]
  · exact absurd hdynamic hstatic
  · exact .inl rfl
  · exact .inl rfl
  · obtain ⟨hlower, hle, -, -⟩ := h.findUnusedId
    exact .inr ⟨hlower, hle.trans h.upper⟩

/-- **Every id that is taken is free**, and only dynamic ones change. -/
theorem findAndSetIdsUsed_spec (h : u.Valid) (l : List C) :
    Assigned u (idsOf (findAndSetIdsUsed u l).1) (findAndSetIdsUsed u l).2 ∧
      List.Forall₂ Renumbered l (findAndSetIdsUsed u l).1 := by
  induction l generalizing u with
  | nil => exact ⟨.nil h, .nil⟩
  | cons c l ih =>
    have hsingle := Assigned.single h (codec c).id
    obtain ⟨hassigned, hrenumbered⟩ := ih hsingle.valid
    refine ⟨?_, .cons (renumbered_set h c) hrenumbered⟩
    have hall := hsingle.append hassigned
    simp only [findAndSetIdsUsed, idsOf, List.map_cons, codec_withId]
    exact hall

theorem findAndSetIdsUsed_eq (h : u.Valid) (hnodup : ((idsOf l).filter Dynamic).Nodup)
    (hfree : ∀ id ∈ idsOf l, Dynamic id → id ∉ u.idSet) :
    (findAndSetIdsUsed u l).1 = l ∧
      ∀ id ∈ (findAndSetIdsUsed u l).2.idSet, id ∈ u.idSet ∨ id ∈ (idsOf l).filter Dynamic := by
  induction l generalizing u with
  | nil => exact ⟨rfl, fun id hid => .inl hid⟩
  | cons c l ih =>
    have hvalid := (Assigned.single h (codec c).id).valid
    have hstep : (u.findAndSetIdUsed (codec c).id).1 = (codec c).id ∧
        ∀ id ∈ (u.findAndSetIdUsed (codec c).id).2.idSet,
          id ∈ u.idSet ∨ id = (codec c).id ∧ Dynamic (codec c).id := by
      rcases h.findAndSetIdUsed (codec c).id with ⟨-, heq⟩ | ⟨hdynamic, -, heq⟩ | ⟨hdynamic, hused, -⟩
      · rw [heq]
        exact ⟨rfl, fun id hid => .inl hid⟩
      · rw [heq]
        exact ⟨rfl, fun id hid => (List.mem_cons.mp hid).symm.imp (fun h => h) fun hid => ⟨hid, hdynamic⟩⟩
      · exact absurd hused (hfree _ List.mem_cons_self hdynamic)
    have hcons : (idsOf (c :: l)).filter Dynamic =
        if Dynamic (codec c).id then (codec c).id :: (idsOf l).filter Dynamic else (idsOf l).filter Dynamic := by
      rw [idsOf, List.map_cons, List.filter_cons]
      simp only [decide_eq_true_eq]
      rfl
    obtain ⟨hid, hset⟩ := hstep
    have hrest := @ih (u.findAndSetIdUsed (codec c).id).2 hvalid (by
      rw [hcons] at hnodup
      split_ifs at hnodup with hdynamic
      · exact (List.nodup_cons.mp hnodup).2
      · exact hnodup) (fun id hmem hdynamic hused => by
      rcases hset id hused with hu | ⟨rfl, hc⟩
      · exact hfree id (List.mem_cons_of_mem _ hmem) hdynamic hu
      · rw [hcons, if_pos hc] at hnodup
        exact (List.nodup_cons.mp hnodup).1 (List.mem_filter.mpr ⟨hmem, decide_eq_true hc⟩))
    obtain ⟨heq, hids⟩ := hrest
    refine ⟨?_, fun id hmem => ?_⟩
    · simp only [findAndSetIdsUsed, heq, hid, withId_self]
    · rw [hcons]
      rcases hids id hmem with hu | hl
      · rcases hset id hu with hu | ⟨rfl, hc⟩
        · exact .inl hu
        · rw [if_pos hc]
          exact .inr List.mem_cons_self
      · split_ifs
        · exact .inr (List.mem_cons_of_mem _ hl)
        · exact .inr hl

theorem UsedIds.Valid.findUnusedId_dynamic (h : u.Valid) (hroom : u.idSet.length < 32) : Dynamic u.findUnusedId := by
  obtain ⟨hlower, hle, -, habove⟩ := h.findUnusedId
  refine ⟨?_, hle.trans h.upper⟩
  by_contra hlt
  have hall : ∀ id ∈ (List.range 32).map fun n : ℕ => (96 : ℤ) + (n : ℤ), id ∈ u.idSet := by
    intro id hid
    obtain ⟨n, hn, rfl⟩ := List.mem_map.mp hid
    have hn := List.mem_range.mp hn
    rcases le_or_gt (96 + n : ℤ) u.nextId with hnext | hnext
    · exact habove _ (by omega) hnext
    · exact h.above _ hnext (by omega)
  have hnodup : ((List.range 32).map fun n : ℕ => (96 : ℤ) + (n : ℤ)).Nodup := by decide
  have hlength := (hnodup.subperm hall).length_le
  rw [List.length_map, List.length_range] at hlength
  omega

omit [LawfulMediaCodec C] in
theorem length_findAndSetIdsUsed (h : u.Valid) (l : List C) :
    (findAndSetIdsUsed u l).2.idSet.length ≤ u.idSet.length + ((idsOf l).filter Dynamic).length := by
  induction l generalizing u with
  | nil => exact le_refl _
  | cons c l ih =>
    have hlength := ih (Assigned.single h (codec c).id).valid
    rw [idsOf, List.map_cons, List.filter_cons]
    simp only [findAndSetIdsUsed, decide_eq_true_eq]
    unfold idsOf at hlength
    rcases h.findAndSetIdUsed (codec c).id with ⟨hnot, heq⟩ | ⟨hdynamic, -, heq⟩ | ⟨hdynamic, -, heq⟩ <;>
      rw [heq] at hlength ⊢
    · rw [if_neg hnot]
      exact hlength
    all_goals
      rw [if_pos hdynamic, List.length_cons]
      rw [List.length_cons] at hlength
      omega

theorem findAndSetIdsUsed_dynamic (h : u.Valid) (hroom : u.idSet.length + ((idsOf l).filter Dynamic).length ≤ 32) :
    List.Forall₂ (fun c c' => Dynamic (codec c).id → Dynamic (codec c').id) l (findAndSetIdsUsed u l).1 := by
  induction l generalizing u with
  | nil => exact .nil
  | cons c l ih =>
    have hvalid := (Assigned.single h (codec c).id).valid
    rw [idsOf, List.map_cons, List.filter_cons] at hroom
    simp only [findAndSetIdsUsed]
    rcases h.findAndSetIdUsed (codec c).id with ⟨hnot, heq⟩ | ⟨hdynamic, -, heq⟩ | ⟨hdynamic, -, heq⟩
    · rw [if_neg (by simpa using hnot)] at hroom
      exact .cons (fun hdynamic => absurd hdynamic hnot) (ih hvalid (by rw [heq]; exact hroom))
    all_goals
      rw [if_pos (by simpa using hdynamic), List.length_cons] at hroom
      have hall := ih hvalid (by
        rw [heq, List.length_cons]
        unfold idsOf
        omega)
      refine .cons (fun _ => ?_) hall
      rw [codec_withId, heq]
    · exact hdynamic
    · exact h.findUnusedId_dynamic (by omega)

theorem Renumbered.withCodec_eq {c c' : C} (h : Renumbered c c') (base : Codec) :
    withCodec c' base = withCodec c base := by
  rw [h.eq]
  exact withCodec_withCodec _ _ _

theorem Renumbered.isRtx_eq {c c' : C} (h : Renumbered c c') : (codec c').isRtx = (codec c).isRtx := by
  rw [h.eq, codec_withId]
  rfl

theorem Renumbered.associatedId_eq {c c' : C} (h : Renumbered c c') :
    (codec c').associatedId = (codec c).associatedId := by
  rw [h.eq, codec_withId]
  rfl

theorem Renumbered.isMatch_eq {c c' : C} (h : Renumbered c c') (hdynamic : Dynamic (codec c).id → Dynamic (codec c').id)
    (x : C) : isMatch c' x = isMatch c x := by
  rw [h.eq]
  refine isMatch_withId fun hstatic => ?_
  by_cases hc : Dynamic (codec c).id
  · have hlow := hc.1
    have hlow' := (hdynamic hc).1
    have hmax : kMaxStaticPayloadId = 95 := rfl
    omega
  · rw [h.static hc]

theorem Renumbered.isMatch_self {c c' : C} (h : Renumbered c c') : isMatch c' c = true := by
  rw [h.eq, isMatch_withId, isMatch_refl]
  intro hstatic
  have hnot : ¬Dynamic (codec c).id := fun hdynamic => by
    have := hdynamic.1
    have hmax : kMaxStaticPayloadId = 95 := rfl
    omega
  rw [h.static hnot]

/-- A codec as it is kept: a dynamic id stays dynamic. -/
structure Kept (c c' : C) : Prop extends Renumbered c c' where
  dynamic : Dynamic (codec c).id → Dynamic (codec c').id

theorem Kept.isMatch_eq {c c' : C} (h : Kept c c') (x : C) : isMatch c' x = isMatch c x :=
  h.toRenumbered.isMatch_eq h.dynamic x

/-- `findAndSetIdsUsed` renumbers `l` to `l'`, matched as before if there is room; distinct new ones
stay as they are. -/
structure SetIds (u : UsedIds) (l l' : List C) (u' : UsedIds) : Prop where
  assigned : Assigned u (idsOf l') u'
  renumbered : List.Forall₂ Renumbered l l'
  length : u'.idSet.length ≤ u.idSet.length + ((idsOf l).filter Dynamic).length
  kept : u.idSet.length + ((idsOf l).filter Dynamic).length ≤ 32 → List.Forall₂ Kept l l'
  same : ∀ ids, u.idSet ⊆ ids → (ids ++ (idsOf l).filter Dynamic).Nodup →
    l' = l ∧ u'.idSet ⊆ ids ++ (idsOf l).filter Dynamic

theorem findAndSetIdsUsed_set (h : u.Valid) (l : List C) :
    SetIds u l (findAndSetIdsUsed u l).1 (findAndSetIdsUsed u l).2 := by
  obtain ⟨hassigned, hrenumbered⟩ := findAndSetIdsUsed_spec h l
  refine ⟨hassigned, hrenumbered, length_findAndSetIdsUsed h l, fun hroom => ?_, fun ids hsub hnodup => ?_⟩
  · exact hrenumbered.mp (fun _ _ hc hd => ⟨hc, hd⟩) (findAndSetIdsUsed_dynamic h hroom)
  · obtain ⟨-, hl, hdisjoint⟩ := List.nodup_append.mp hnodup
    obtain ⟨heq, hids⟩ := findAndSetIdsUsed_eq h hl fun id hmem hid hused =>
      hdisjoint id (hsub hused) id (List.mem_filter.mpr ⟨hmem, decide_eq_true hid⟩) rfl
    exact ⟨heq, fun id hid => List.mem_append.mpr ((hids id hid).imp (fun h => hsub h) fun h => h)⟩

end Renumbered

/-! ## Ids that stay -/

/-- The dynamic ids above `id` that are not among `earlier`. -/
def unusedAbove (earlier : List ℤ) (id : ℤ) : Finset ℤ :=
  ((List.range 32).map fun n : ℕ => 96 + (n : ℤ)).toFinset.filter fun i => id < i ∧ i ∉ earlier

theorem mem_unusedAbove {id i : ℤ} : i ∈ unusedAbove ids id ↔ Dynamic i ∧ id < i ∧ i ∉ ids := by
  rw [unusedAbove, Finset.mem_filter, List.mem_toFinset, List.mem_map]
  refine and_congr_left fun _ => ⟨?_, fun h => ⟨(i - 96).toNat, List.mem_range.mpr ?_, ?_⟩⟩
  · rintro ⟨n, hn, rfl⟩
    have hlt := List.mem_range.mp hn
    exact ⟨by omega, by omega⟩
  · have hle := h.2
    omega
  · have hle := h.1
    omega

/-- A codec behind the ids `earlier` keeps its own: it is not among them, and the replacements for
those that occur again stay above it. -/
def KeepsId (earlier : List ℤ) (id : ℤ) : Prop :=
  Dynamic id → id ∉ earlier ∧
    (earlier.filter Dynamic).length ≤ (earlier.filter Dynamic).toFinset.card + (unusedAbove earlier id).card

instance (earlier : List ℤ) (id : ℤ) : Decidable (KeepsId earlier id) :=
  inferInstanceAs (Decidable (_ → _))

/-- The ids in use after `ids` were set as used, while there is room; all above a replacement are in
use. -/
structure Filled (u : UsedIds) (ids : List ℤ) : Prop where
  nodup : u.idSet.Nodup
  dynamic : ∀ id ∈ u.idSet, Dynamic id
  length : u.idSet.length = (ids.filter Dynamic).length
  used : ∀ id ∈ ids, Dynamic id → id ∈ u.idSet
  above : ∀ id ∈ u.idSet, id ∉ ids → ∀ i, id ≤ i → i ≤ 127 → i ∈ u.idSet

theorem usedPayloadTypes_filled : Filled usedPayloadTypes [] where
  nodup := List.nodup_nil
  dynamic _ h := nomatch h
  length := rfl
  used _ h := nomatch h
  above _ h := nomatch h

theorem Filled.set {u v : UsedIds} (h : Filled u ids) {id n : ℤ} (hv : v.idSet = n :: u.idSet)
    (hid : Dynamic id) (hn : Dynamic n) (hfree : n ∉ u.idSet) (hused : id ∈ v.idSet)
    (habove : n ≠ id → ∀ i, n < i → i ≤ 127 → i ∈ u.idSet) : Filled v (ids ++ [id]) where
  nodup := by
    rw [hv]
    exact List.nodup_cons.mpr ⟨hfree, h.nodup⟩
  dynamic := by
    rw [hv]
    exact List.forall_mem_cons.mpr ⟨hn, h.dynamic⟩
  length := by
    rw [hv, List.length_cons, h.length, List.filter_append, List.filter_singleton, decide_eq_true hid]
    simp
  used i hi hdynamic := by
    rcases List.mem_append.mp hi with hi | hi
    · rw [hv]
      exact List.mem_cons_of_mem n (h.used i hi hdynamic)
    · rwa [List.mem_singleton.mp hi]
  above i hi hnot j hle hj := by
    rw [hv] at hi ⊢
    rw [List.mem_append, List.mem_singleton, not_or] at hnot
    rcases List.mem_cons.mp hi with rfl | hi
    · rcases eq_or_lt_of_le hle with rfl | hlt
      · exact List.mem_cons_self
      · exact List.mem_cons_of_mem i (habove hnot.2 j hlt hj)
    · exact List.mem_cons_of_mem n (h.above i hi hnot.1 j hle hj)

theorem Filled.step {u : UsedIds} (h : Filled u ids) (hvalid : u.Valid) {id : ℤ}
    (hroom : ((ids ++ [id]).filter Dynamic).length ≤ 32) : Filled (u.findAndSetIdUsed id).2 (ids ++ [id]) := by
  rcases hvalid.findAndSetIdUsed id with ⟨hstatic, heq⟩ | ⟨hdynamic, hfree, heq⟩ | ⟨hdynamic, hused, heq⟩ <;> rw [heq]
  · refine ⟨h.nodup, h.dynamic, ?_, fun i hi hdynamic => ?_, fun i hi hnot => ?_⟩
    · rw [h.length, List.filter_append, List.filter_singleton, decide_eq_false hstatic]
      simp
    · rcases List.mem_append.mp hi with hi | hi
      · exact h.used i hi hdynamic
      · exact absurd (List.mem_singleton.mp hi ▸ hdynamic) hstatic
    · exact h.above i hi fun hids => hnot (List.mem_append_left _ hids)
  · exact h.set rfl hdynamic hdynamic hfree List.mem_cons_self fun hne => absurd rfl hne
  · obtain ⟨-, -, hnot, habove⟩ := hvalid.findUnusedId
    have hfresh : Dynamic u.findUnusedId := by
      refine hvalid.findUnusedId_dynamic ?_
      rw [List.filter_append, List.filter_singleton, decide_eq_true hdynamic, List.length_append] at hroom
      rw [h.length]
      exact hroom
    refine h.set rfl hdynamic hfresh (hnot hfresh.1) (List.mem_cons_of_mem _ hused) fun _ i hlt hi => ?_
    rcases le_or_gt i u.nextId with hle | hgt
    · exact habove i hlt hle
    · exact hvalid.above i hgt hi

/-- **When a codec keeps its id.** -/
theorem Filled.keepsId_iff {u : UsedIds} (h : Filled u ids) (id : ℤ) :
    KeepsId ids id ↔ (Dynamic id → id ∉ u.idSet) := by
  refine forall_congr' fun hdynamic => ?_
  have hlength : (ids.filter Dynamic).length = u.idSet.toFinset.card := by
    rw [List.toFinset_card_of_nodup h.nodup, h.length]
  have hsub : (ids.filter Dynamic).toFinset ⊆ u.idSet.toFinset := by
    intro i hi
    obtain ⟨hi, hd⟩ := List.mem_filter.mp (List.mem_toFinset.mp hi)
    exact List.mem_toFinset.mpr (h.used i hi (of_decide_eq_true hd))
  have hdisjoint : Disjoint (ids.filter Dynamic).toFinset (unusedAbove ids id) := by
    refine Finset.disjoint_left.mpr fun i hi hunused => ?_
    exact (mem_unusedAbove.mp hunused).2.2 (List.mem_filter.mp (List.mem_toFinset.mp hi)).1
  rw [hlength, ← Finset.card_union_of_disjoint hdisjoint]
  constructor
  · rintro ⟨hnot, hcard⟩ hused
    have hinsert : insert id ((ids.filter Dynamic).toFinset ∪ unusedAbove ids id) ⊆ u.idSet.toFinset := by
      refine Finset.insert_subset (List.mem_toFinset.mpr hused) (Finset.union_subset hsub fun i hi => ?_)
      obtain ⟨hd, hlt, -⟩ := mem_unusedAbove.mp hi
      exact List.mem_toFinset.mpr (h.above id hused hnot i hlt.le hd.2)
    have hnew : id ∉ (ids.filter Dynamic).toFinset ∪ unusedAbove ids id := by
      rw [Finset.mem_union, List.mem_toFinset, List.mem_filter, mem_unusedAbove]
      rintro (⟨hids, -⟩ | ⟨-, hlt, -⟩)
      · exact hnot hids
      · exact absurd hlt (lt_irrefl id)
    have hle := Finset.card_le_card hinsert
    rw [Finset.card_insert_of_notMem hnew] at hle
    omega
  · intro hfree
    refine ⟨fun hids => hfree (h.used id hids hdynamic), Finset.card_le_card fun i hi => ?_⟩
    have hused := List.mem_toFinset.mp hi
    have hi := h.dynamic i hused
    rw [Finset.mem_union, List.mem_toFinset, List.mem_filter, mem_unusedAbove]
    by_cases hids : i ∈ ids
    · exact .inl ⟨hids, decide_eq_true hi⟩
    · -- One that replaces an id is above `id`: all above it are in use, and `id` is not.
      refine .inr ⟨hi, ?_, hids⟩
      by_contra! hle
      exact hfree (h.above i hused hids id hle hdynamic.2)

section Keeps

variable {C : Type} [MediaCodec C] {u : UsedIds} {ids : List ℤ} {l : List C} {x : C}

theorem findAndSetIdsUsed_append (u : UsedIds) (l l' : List C) :
    findAndSetIdsUsed u (l ++ l') =
      ((findAndSetIdsUsed u l).1 ++ (findAndSetIdsUsed (findAndSetIdsUsed u l).2 l').1,
        (findAndSetIdsUsed (findAndSetIdsUsed u l).2 l').2) := by
  induction l generalizing u with
  | nil => rfl
  | cons c l ih =>
    rw [List.cons_append]
    simp only [findAndSetIdsUsed, ih, List.cons_append]

def Keeps (before : List ℤ) (l : List C) (x : C) : Prop :=
  ∃ pre post, l = pre ++ x :: post ∧ KeepsId (before ++ idsOf pre) (codec x).id

theorem Keeps.of_nodup {before : List ℤ} (h : ((before ++ idsOf l).filter Dynamic).Nodup) (hx : x ∈ l) :
    Keeps before l x := by
  obtain ⟨pre, post, rfl⟩ := List.append_of_mem hx
  refine ⟨pre, post, rfl, fun hdynamic => ?_⟩
  rw [idsOf, List.map_append, ← List.append_assoc, List.map_cons, List.filter_append, List.nodup_append] at h
  obtain ⟨hbefore, -, hdisjoint⟩ := h
  refine ⟨fun hmem => ?_, ?_⟩
  · refine hdisjoint _ (List.mem_filter.mpr ⟨hmem, decide_eq_true hdynamic⟩) _ ?_ rfl
    exact List.mem_filter.mpr ⟨List.mem_cons_self, decide_eq_true hdynamic⟩
  · unfold idsOf
    rw [List.toFinset_card_of_nodup hbefore]
    exact Nat.le_add_right _ _

theorem Filled.run (h : Filled u ids) (hvalid : u.Valid) (hroom : ((ids ++ idsOf l).filter Dynamic).length ≤ 32) :
    Filled (findAndSetIdsUsed u l).2 (ids ++ idsOf l) := by
  induction l generalizing u ids with
  | nil =>
    rw [idsOf, List.map_nil, List.append_nil]
    exact h
  | cons c l ih =>
    have happend : ids ++ idsOf (c :: l) = ids ++ [(codec c).id] ++ idsOf l := List.append_cons _ _ _
    rw [happend] at hroom ⊢
    have hfirst : ((ids ++ [(codec c).id]).filter Dynamic).length ≤ 32 := by
      rw [List.filter_append, List.length_append] at hroom
      omega
    exact ih (h.step hvalid hfirst) (Assigned.single hvalid _).valid hroom

variable [LawfulMediaCodec C]

theorem Filled.mem_of_keeps (h : Filled u ids) (hvalid : u.Valid)
    (hroom : ((ids ++ idsOf l).filter Dynamic).length ≤ 32) (hx : Keeps ids l x) : x ∈ (findAndSetIdsUsed u l).1 := by
  obtain ⟨pre, post, rfl, hkeeps⟩ := hx
  rw [findAndSetIdsUsed_append]
  refine List.mem_append_right _ ?_
  have hpre : ((ids ++ idsOf pre).filter Dynamic).length ≤ 32 := by
    refine le_trans (List.Sublist.length_le (List.Sublist.filter _ ?_)) hroom
    rw [idsOf, idsOf, List.map_append, ← List.append_assoc]
    exact List.sublist_append_left _ _
  have hfilled := h.run hvalid hpre
  have hvalid' := (findAndSetIdsUsed_spec hvalid pre).1.valid
  have hfree := (hfilled.keepsId_iff (codec x).id).mp hkeeps
  have hsame : ((findAndSetIdsUsed u pre).2.findAndSetIdUsed (codec x).id).1 = (codec x).id := by
    rcases hvalid'.findAndSetIdUsed (codec x).id with ⟨-, heq⟩ | ⟨-, -, heq⟩ | ⟨hdynamic, hused, -⟩
    · rw [heq]
    · rw [heq]
    · exact absurd hused (hfree hdynamic)
  simp only [findAndSetIdsUsed, hsame, withId_self]
  exact List.mem_cons_self

end Keeps

end Libjingle.Media
