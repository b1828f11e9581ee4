import Libjingle.Media.OfferedCodecs
import Libjingle.Media.Made

/-!
# The codecs of an answer (`NegotiateCodecs`, `CreateAnswer` in `session/media/mediasession.cc`)

Main result: **`answer_inside_iff`**.
-/

namespace Libjingle.Media

open Lib MediaCodec LawfulMediaCodec MediaSessionDescriptionFactory

/-! ## Negotiation -/

theorem eq_of_countP_le_one {α : Type} {l : List α} {p : α → Bool} {a b : α} (h : l.countP p ≤ 1) (ha : a ∈ l)
    (hb : b ∈ l) (hpa : p a = true) (hpb : p b = true) : a = b := by
  have ha' := List.mem_filter.mpr ⟨ha, hpa⟩
  have hb' := List.mem_filter.mpr ⟨hb, hpb⟩
  rw [List.countP_eq_length_filter] at h
  generalize l.filter p = l' at h ha' hb'
  rcases l' with _ | ⟨x, _ | ⟨y, rest⟩⟩
  · cases ha'
  · rw [List.mem_singleton.mp ha', List.mem_singleton.mp hb']
  · exact absurd (Nat.le_of_succ_le_succ h) (Nat.not_succ_le_zero _)

section Negotiation

variable {C : Type} [MediaCodec C] {ours usable offered : List C}

def negotiates (ours theirs : C) : Bool :=
  isMatch ours theirs &&
    (!(codec ours).isRtx || ((codec theirs).getParam kCodecParamAssociatedPayloadType).isSome)

/-- No offered codec is negotiated with two of ours. -/
def Unambiguous (ours offered : List C) : Prop :=
  ∀ theirs ∈ offered, ours.countP (fun c => negotiates c theirs) ≤ 1

/-- The payload types are distinct, each codec matches what was offered under its own, and RTX has
the associated one that was offered. -/
structure InsideOffer (usable offered answered : List C) : Prop where
  nodup : (idsOf answered).Nodup
  offered : ∀ c ∈ answered, ∃ theirs ∈ offered, (codec theirs).id = (codec c).id ∧ isMatch c theirs = true ∧
    ((codec c).isRtx = true → ((codec theirs).getParam kCodecParamAssociatedPayloadType).isSome ∧
      (codec c).getParam kCodecParamAssociatedPayloadType = (codec theirs).getParam kCodecParamAssociatedPayloadType)
  usable : ∀ c ∈ answered, ∃ c' ∈ usable, isMatch c' c = true

theorem mem_negotiateCodecs {n : C} :
    n ∈ negotiateCodecs ours offered ↔ ∃ c ∈ ours, ∃ theirs ∈ offered, negotiateCodec c theirs = some n := by
  simp only [negotiateCodecs, List.mem_flatMap, List.mem_filterMap]

theorem count_idsOf_filter (hnodup : (idsOf offered).Nodup) {theirs : C} (hmem : theirs ∈ offered) (p : C → Bool) :
    (idsOf (offered.filter p)).count (codec theirs).id = if p theirs then 1 else 0 := by
  have hsub : (idsOf (offered.filter p)).Sublist (idsOf offered) := List.filter_sublist.map _
  split_ifs with hp
  · exact List.count_eq_one_of_mem (hnodup.sublist hsub)
      (List.mem_map.mpr ⟨theirs, List.mem_filter.mpr ⟨hmem, hp⟩, rfl⟩)
  · refine List.count_eq_zero_of_not_mem fun hin => ?_
    obtain ⟨c, hc, heq⟩ := List.mem_map.mp hin
    obtain ⟨hc, hpc⟩ := List.mem_filter.mp hc
    obtain rfl := List.inj_on_of_nodup_map hnodup hc hmem heq
    exact hp hpc

variable [LawfulMediaCodec C]

theorem isSome_negotiateCodec (c theirs : C) : (negotiateCodec c theirs).isSome = negotiates c theirs := by
  have hrtx : (codec (withFeedbackOf c theirs)).isRtx = (codec c).isRtx := by
    rw [codec_withFeedbackOf]
    rfl
  rw [negotiateCodec, negotiates]
  dsimp only
  rw [hrtx]
  split_ifs with hmatch hisRtx
  · rw [hmatch]
    rfl
  · rw [Option.isSome_map, Bool.eq_true_of_not_eq_false hmatch, hisRtx]
    rfl
  · rw [Bool.eq_true_of_not_eq_false hmatch, Bool.eq_false_of_not_eq_true hisRtx]
    rfl

theorem isMatch_renamed {c theirs : C} {base : Codec} (hmatch : isMatch c theirs = true)
    (hid : base.id = (codec theirs).id) (hname : base.name = (codec c).name)
    (hclockrate : base.clockrate = (codec c).clockrate) :
    isMatch (withCodec c base) theirs = true ∧ isMatch c (withCodec c base) = true := by
  rw [isMatch, Bool.and_eq_true, Codec.isMatch] at hmatch
  simp only [isMatch, Bool.and_eq_true, Codec.isMatch, codec_withCodec, agrees_withCodec c theirs base hclockrate,
    agrees_withCodec_right c c base hclockrate, agrees_refl, hmatch.2, hid, hname, and_true]
  obtain ⟨hmatch, -⟩ := hmatch
  split_ifs at hmatch ⊢
  · exact ⟨decide_eq_true trivial, hmatch⟩
  · exact ⟨hmatch, equalText_refl _⟩

theorem negotiateCodec_spec {c theirs n : C} (h : negotiateCodec c theirs = some n) :
    negotiates c theirs = true ∧ (codec n).id = (codec theirs).id ∧ (codec n).name = (codec c).name ∧
      isMatch n theirs = true ∧ isMatch c n = true ∧
      ((codec n).isRtx = true → ((codec theirs).getParam kCodecParamAssociatedPayloadType).isSome ∧
        (codec n).getParam kCodecParamAssociatedPayloadType =
          (codec theirs).getParam kCodecParamAssociatedPayloadType) := by
  refine ⟨by rw [← isSome_negotiateCodec, h]; rfl, ?_⟩
  rw [negotiateCodec] at h
  dsimp only at h
  split_ifs at h with hmatch hrtx
  all_goals replace hmatch := Bool.eq_true_of_not_eq_false hmatch
  · obtain ⟨apt, hapt, rfl⟩ := Option.map_eq_some_iff.mp h
    have hrenamed := @isMatch_renamed _ _ _ c theirs
      { ((codec c).intersectFeedbackParams (codec theirs)).setParam kCodecParamAssociatedPayloadType apt with
        id := (codec theirs).id } hmatch rfl rfl rfl
    have heq : withId (withParam (withFeedbackOf c theirs) kCodecParamAssociatedPayloadType apt) (codec theirs).id =
        withCodec c { ((codec c).intersectFeedbackParams (codec theirs)).setParam kCodecParamAssociatedPayloadType
          apt with id := (codec theirs).id } := by
      rw [withId, codec_withParam, codec_withFeedbackOf, withParam, withFeedbackOf]
      simp only [withCodec_withCodec]
    rw [heq, codec_withCodec]
    refine ⟨rfl, rfl, hrenamed.1, hrenamed.2, fun _ => ?_⟩
    rw [hapt]
    exact ⟨rfl, Codec.getParam_setParam _ _ _⟩
  · cases h
    have heq : withId (withFeedbackOf c theirs) (codec theirs).id =
        withCodec c { (codec c).intersectFeedbackParams (codec theirs) with id := (codec theirs).id } := by
      rw [withId, codec_withFeedbackOf, withFeedbackOf, withCodec_withCodec]
    have hrenamed := @isMatch_renamed _ _ _ c theirs
      { (codec c).intersectFeedbackParams (codec theirs) with id := (codec theirs).id } hmatch rfl rfl rfl
    rw [heq, codec_withCodec]
    refine ⟨rfl, rfl, hrenamed.1, hrenamed.2, fun hisRtx => absurd ?_ hrtx⟩
    rw [codec_withFeedbackOf]
    exact hisRtx

/-! ## How often a codec is answered -/

theorem idsOf_filterMap (c : C) (offered : List C) :
    idsOf (offered.filterMap (negotiateCodec c)) = idsOf (offered.filter (negotiates c)) := by
  induction offered with
  | nil => rfl
  | cons theirs offered ih =>
    cases h : negotiateCodec c theirs with
    | none =>
      have hneg : ¬negotiates c theirs = true := by
        rw [← isSome_negotiateCodec, h]
        exact Bool.false_ne_true
      rw [List.filterMap_cons_none h, List.filter_cons_of_neg hneg, ih]
    | some n =>
      obtain ⟨hneg, hid, -⟩ := negotiateCodec_spec h
      rw [List.filterMap_cons_some h, List.filter_cons_of_pos hneg, idsOf, List.map_cons, hid]
      exact congrArg ((codec theirs).id :: ·) ih

theorem count_negotiateCodecs (hnodup : (idsOf offered).Nodup) {theirs : C} (hmem : theirs ∈ offered)
    (ours : List C) : (idsOf (negotiateCodecs ours offered)).count (codec theirs).id =
      ours.countP fun c => negotiates c theirs := by
  induction ours with
  | nil => rfl
  | cons c ours ih =>
    have happend : idsOf (negotiateCodecs (c :: ours) offered) =
        idsOf (offered.filter (negotiates c)) ++ idsOf (negotiateCodecs ours offered) := by
      rw [← idsOf_filterMap]
      exact List.map_append
    rw [happend, List.count_append, ih, count_idsOf_filter hnodup hmem, List.countP_cons, add_comm]

theorem nodup_negotiateCodecs_iff (hnodup : (idsOf offered).Nodup) :
    (idsOf (negotiateCodecs ours offered)).Nodup ↔ Unambiguous ours offered := by
  rw [List.nodup_iff_count_le_one]
  refine ⟨fun h theirs hmem => (count_negotiateCodecs hnodup hmem ours).symm.le.trans (h _), fun h id => ?_⟩
  by_cases hid : id ∈ idsOf (negotiateCodecs ours offered)
  · obtain ⟨n, hn, rfl⟩ := List.mem_map.mp hid
    obtain ⟨c, -, theirs, hmem, hneg⟩ := mem_negotiateCodecs.mp hn
    obtain ⟨-, heq, -⟩ := negotiateCodec_spec hneg
    rw [heq, count_negotiateCodecs hnodup hmem]
    exact h theirs hmem
  · rw [List.count_eq_zero_of_not_mem hid]
    exact Nat.zero_le 1

/-! ## Codecs that may not be used -/

theorem negotiates_of_isMatch {c c' theirs n : C} (h : negotiateCodec c theirs = some n) (hmatch : isMatch c' n = true)
    (hid : kMaxStaticPayloadId < (codec c).id) (hagrees : agrees c' theirs = true) : negotiates c' theirs = true := by
  obtain ⟨hneg, hnid, hname, -⟩ := negotiateCodec_spec h
  obtain ⟨hc, hrtx⟩ := Bool.and_eq_true_iff.mp hneg
  have hdynamic : ¬(codec theirs).id ≤ kMaxStaticPayloadId := fun hle => by
    rw [isMatch, Bool.and_eq_true, Codec.isMatch, if_pos hle, decide_eq_true_eq] at hc
    omega
  rw [isMatch, Bool.and_eq_true, Codec.isMatch, if_neg hdynamic] at hc
  rw [isMatch, Bool.and_eq_true, Codec.isMatch, hnid, if_neg hdynamic, hname] at hmatch
  have hisRtx : (codec c').isRtx = (codec c).isRtx := by
    rw [Bool.eq_iff_iff]
    exact ⟨equalText_trans (equalText_symm hmatch.1), equalText_trans hmatch.1⟩
  rw [negotiates, isMatch, Codec.isMatch, if_neg hdynamic, equalText_trans hmatch.1 hc.1, hagrees, hisRtx, hrtx]
  rfl

theorem insideOffer_iff (hnodup : (idsOf offered).Nodup) (hsub : usable ⊆ ours)
    (hunusable : ∀ c ∈ ours, c ∉ usable → kMaxStaticPayloadId < (codec c).id ∧
      ∀ c' theirs : C, agrees c' theirs = true) :
    InsideOffer usable offered (sortCodecs (negotiateCodecs ours offered)) ↔
      Unambiguous ours offered ∧ ∀ c ∈ ours, c ∉ usable → ∀ theirs ∈ offered, negotiates c theirs = false := by
  have hperm : (sortCodecs (negotiateCodecs ours offered)).Perm (negotiateCodecs ours offered) :=
    List.perm_insertionSort _ _
  constructor
  · intro h
    have hunambiguous : Unambiguous ours offered :=
      (nodup_negotiateCodecs_iff hnodup).mp ((hperm.map _).nodup_iff.mp h.nodup)
    refine ⟨hunambiguous, fun c hc hnot theirs hmem => Bool.eq_false_iff.mpr fun hneg => ?_⟩
    obtain ⟨n, hn⟩ := Option.isSome_iff_exists.mp ((isSome_negotiateCodec c theirs).trans hneg)
    obtain ⟨c', hc', hmatch⟩ :=
      h.usable n (hperm.mem_iff.mpr (mem_negotiateCodecs.mpr ⟨c, hc, theirs, hmem, hn⟩))
    obtain ⟨hid, hagrees⟩ := hunusable c hc hnot
    have hneg' := negotiates_of_isMatch hn hmatch hid (hagrees c' theirs)
    exact hnot (eq_of_countP_le_one (hunambiguous theirs hmem) hc (hsub hc') hneg hneg' ▸ hc')
  · rintro ⟨hunambiguous, hnone⟩
    have hspec : ∀ n ∈ sortCodecs (negotiateCodecs ours offered),
        ∃ c ∈ ours, ∃ theirs ∈ offered, negotiateCodec c theirs = some n :=
      fun n hn => mem_negotiateCodecs.mp (hperm.mem_iff.mp hn)
    refine ⟨(hperm.map _).nodup_iff.mpr ((nodup_negotiateCodecs_iff hnodup).mpr hunambiguous), ?_, ?_⟩
    · intro n hn
      obtain ⟨c, -, theirs, hmem, hneg⟩ := hspec n hn
      obtain ⟨-, hid, -, hmatch, -, hrtx⟩ := negotiateCodec_spec hneg
      exact ⟨theirs, hmem, hid.symm, hmatch, hrtx⟩
    · intro n hn
      obtain ⟨c, hc, theirs, hmem, hneg⟩ := hspec n hn
      obtain ⟨hneg, -, -, -, hmatch, -⟩ := negotiateCodec_spec hneg
      refine ⟨c, by_contra fun hnot => ?_, hmatch⟩
      rw [hnone c hc hnot theirs hmem] at hneg
      cases hneg

end Negotiation

/-! ## Sessions -/

/-- The codecs of a content are inside the offer. -/
def ContentDescription.Inside (f : MediaSessionDescriptionFactory) (options : MediaSessionOptions)
    (offer : SessionDescription) : ContentDescription → Prop
  | .audio desc => InsideOffer (f.audioCodecsToAnswer options) (currentCodecs (some offer)).audio desc.codecs
  | .video desc => InsideOffer f.codecs.video (currentCodecs (some offer)).video desc.codecs
  | .data desc => InsideOffer (filterDataCodecs f.codecs.data (options.dataChannelType = .sctp))
      (currentCodecs (some offer)).data desc.codecs

namespace MediaSessionDescriptionFactory

section Sessions

variable {f : MediaSessionDescriptionFactory} {options : MediaSessionOptions} {offer : SessionDescription}
  {current : Option SessionDescription} {random random' : Random} {s s' : Session}

def AllInside (f : MediaSessionDescriptionFactory) (options : MediaSessionOptions) (offer : SessionDescription)
    (contents : List ContentInfo) : Prop :=
  ∀ content ∈ contents, ∀ desc, content.description = some desc → desc.Inside f options offer

theorem allInside_append_singleton {contents : List ContentInfo} {name type : List Uint8} {rejected : Bool}
    {desc : ContentDescription} : AllInside f options offer (contents ++ [⟨name, type, rejected, some desc⟩]) ↔
      AllInside f options offer contents ∧ desc.Inside f options offer := by
  constructor
  · intro h
    exact ⟨fun content hmem => h content (List.mem_append_left _ hmem),
      h _ (List.mem_append_right _ (List.mem_singleton_self _)) desc rfl⟩
  · rintro ⟨h, hdesc⟩ content hmem desc' heq
    rcases List.mem_append.mp hmem with hmem | hmem
    · exact h content hmem desc' heq
    · obtain rfl := List.mem_singleton.mp hmem
      exact Option.some.inj heq ▸ hdesc

theorem allInside_bare {contents contents' : List ContentInfo} (h : contents'.map bare = contents.map bare) :
    AllInside f options offer contents' ↔ AllInside f options offer contents := by
  have hbare : ∀ contents : List ContentInfo,
      AllInside f options offer contents ↔ AllInside f options offer (contents.map bare) := fun contents => by
    simp only [AllInside, List.forall_mem_map]
    refine forall₂_congr fun content _ => ?_
    rcases content with ⟨name, type, rejected, _ | (desc | desc | desc)⟩ <;>
      simp [bare, ContentDescription.setCryptos, ContentDescription.Inside]
  rw [hbare, hbare contents, h]

theorem insideOffer_nil {C : Type} [MediaCodec C] {usable ours : List C} :
    InsideOffer usable [] (sortCodecs (negotiateCodecs ours [])) := by
  have hnil : negotiateCodecs ours ([] : List C) = [] := by simp [negotiateCodecs]
  rw [hnil]
  exact ⟨List.nodup_nil, fun _ h => absurd h List.not_mem_nil, fun _ h => absurd h List.not_mem_nil⟩

theorem answerAudio_inside (h : f.answerAudio options offer current s random = .ok (s', random')) :
    AllInside f options offer s'.1.contents ↔ AllInside f options offer s.1.contents ∧
      InsideOffer (f.audioCodecsToAnswer options) (currentCodecs (some offer)).audio
        (sortCodecs (negotiateCodecs (f.audioCodecsToAnswer options) (currentCodecs (some offer)).audio)) := by
  rcases getFirstMediaContent_cases offer .audio with heq | ⟨name, type, rejected, desc | desc | desc, heq, htype⟩
  · simp only [answerAudio, heq] at h
    obtain ⟨rfl, -⟩ := Prod.mk.inj (pure_eq_ok.mp h)
    simp only [currentCodecs, Option.bind_some, heq, insideOffer_nil, and_true]
  · simp only [answerAudio, heq] at h
    obtain ⟨rejected', made, hcontents, hcodecs⟩ := answerContent_codecs h fun _ => rfl
    rw [hcontents, allInside_append_singleton, ContentDescription.Inside, hcodecs]
    simp only [currentCodecs, Option.bind_some, heq]
  · cases htype
  · cases htype

theorem answerVideo_inside (h : f.answerVideo options offer current s random = .ok (s', random')) :
    AllInside f options offer s'.1.contents ↔ AllInside f options offer s.1.contents ∧
      InsideOffer f.codecs.video (currentCodecs (some offer)).video
        (sortCodecs (negotiateCodecs f.codecs.video (currentCodecs (some offer)).video)) := by
  rcases getFirstMediaContent_cases offer .video with heq | ⟨name, type, rejected, desc | desc | desc, heq, htype⟩
  · simp only [answerVideo, heq] at h
    obtain ⟨rfl, -⟩ := Prod.mk.inj (pure_eq_ok.mp h)
    simp only [currentCodecs, Option.bind_some, heq, insideOffer_nil, and_true]
  · cases htype
  · simp only [answerVideo, heq] at h
    obtain ⟨rejected', made, hcontents, hcodecs⟩ := answerContent_codecs h fun _ => rfl
    rw [hcontents, allInside_append_singleton, ContentDescription.Inside, hcodecs]
    simp only [currentCodecs, Option.bind_some, heq]
  · cases htype

theorem answerData_inside (h : f.answerData options offer current s random = .ok (s', random')) :
    AllInside f options offer s'.1.contents ↔ AllInside f options offer s.1.contents ∧
      InsideOffer (filterDataCodecs f.codecs.data (options.dataChannelType = .sctp)) (currentCodecs (some offer)).data
        (sortCodecs (negotiateCodecs f.codecs.data (currentCodecs (some offer)).data)) := by
  rcases getFirstMediaContent_cases offer .data with heq | ⟨name, type, rejected, desc | desc | desc, heq, htype⟩
  · simp only [answerData, heq] at h
    obtain ⟨rfl, -⟩ := Prod.mk.inj (pure_eq_ok.mp h)
    simp only [currentCodecs, Option.bind_some, heq, insideOffer_nil, and_true]
  · cases htype
  · cases htype
  · simp only [answerData, heq] at h
    obtain ⟨rejected', made, hcontents, hcodecs⟩ := answerContent_codecs h fun _ => rfl
    rw [hcontents, allInside_append_singleton, ContentDescription.Inside, hcodecs]
    simp only [currentCodecs, Option.bind_some, heq]

theorem createAnswer_inside {answer : SessionDescription}
    (h : f.createAnswer offer options current random = .ok (answer, random')) :
    AllInside f options offer answer.contents ↔
      (InsideOffer (f.audioCodecsToAnswer options) (currentCodecs (some offer)).audio
          (sortCodecs (negotiateCodecs (f.audioCodecsToAnswer options) (currentCodecs (some offer)).audio)) ∧
        InsideOffer f.codecs.video (currentCodecs (some offer)).video
          (sortCodecs (negotiateCodecs f.codecs.video (currentCodecs (some offer)).video))) ∧
        InsideOffer (filterDataCodecs f.codecs.data (options.dataChannelType = .sctp))
          (currentCodecs (some offer)).data
          (sortCodecs (negotiateCodecs f.codecs.data (currentCodecs (some offer)).data)) := by
  rw [createAnswer, bind_eq_ok] at h
  obtain ⟨s₁, random₁, haudio, h⟩ := h
  obtain ⟨s₂, random₂, hvideo, h⟩ := bind_eq_ok.mp h
  obtain ⟨s₃, random₃, hdata, h⟩ := bind_eq_ok.mp h
  have hbundled : answer.contents.map bare = s₃.1.contents.map bare := by
    rcases hgroup : offer.getGroupByName bundleGroup.semantics with _ | group <;>
      cases hbundle : options.bundleEnabled <;> simp only [hgroup, hbundle] at h
    · obtain ⟨rfl, -⟩ := Prod.mk.inj (pure_eq_ok.mp h)
      rfl
    · obtain ⟨rfl, -⟩ := Prod.mk.inj (pure_eq_ok.mp h)
      rfl
    · obtain ⟨rfl, -⟩ := Prod.mk.inj (pure_eq_ok.mp h)
      rfl
    · split_ifs at h
      · obtain ⟨rfl, -⟩ := Prod.mk.inj (pure_eq_ok.mp h)
        rfl
      · exact addBundle_contents h
  have hnil : AllInside f options offer [] := fun _ hmem => absurd hmem List.not_mem_nil
  rw [allInside_bare hbundled, answerData_inside hdata, answerVideo_inside hvideo, answerAudio_inside haudio,
    eq_true hnil, true_and]

/-- No offered codec is negotiated with two of ours, nor with a data codec of another type of
channel. -/
structure Negotiable (f : MediaSessionDescriptionFactory) (options : MediaSessionOptions)
    (offer : SessionDescription) : Prop where
  audio : Unambiguous (f.audioCodecsToAnswer options) (currentCodecs (some offer)).audio
  video : Unambiguous f.codecs.video (currentCodecs (some offer)).video
  data : Unambiguous f.codecs.data (currentCodecs (some offer)).data
  dataUsable : ∀ c ∈ f.codecs.data, c ∉ filterDataCodecs f.codecs.data (options.dataChannelType = .sctp) →
    ∀ theirs ∈ (currentCodecs (some offer)).data, negotiates c theirs = false

/-- **Answers stay inside the offer**, exactly if every offered codec is negotiated with one of ours
at most. -/
theorem answer_inside_iff {answer : SessionDescription} (haudio : (idsOf (currentCodecs (some offer)).audio).Nodup)
    (hvideo : (idsOf (currentCodecs (some offer)).video).Nodup)
    (hdata : (idsOf (currentCodecs (some offer)).data).Nodup)
    (h : f.createAnswer offer options current random = .ok (answer, random')) :
    AllInside f options offer answer.contents ↔ Negotiable f options offer := by
  have hunusable : ∀ c ∈ f.codecs.data, c ∉ filterDataCodecs f.codecs.data (options.dataChannelType = .sctp) →
      kMaxStaticPayloadId < (codec c).id ∧ ∀ c' theirs : DataCodec, agrees c' theirs = true := by
    intro c hc hnot
    refine ⟨by_contra fun hle => hnot (List.mem_filter.mpr ⟨hc, decide_eq_true ?_⟩), fun _ _ => rfl⟩
    have hle : c.id ≤ 95 := not_lt.mp hle
    have hrtp : c.id ≠ 101 := by omega
    have hsctp : c.id ≠ 108 := by omega
    split_ifs
    · exact hrtp
    · exact hsctp
  have hsub : filterDataCodecs f.codecs.data (options.dataChannelType = .sctp) ⊆ f.codecs.data :=
    List.filter_subset_self _
  rw [createAnswer_inside h, insideOffer_iff haudio (List.Subset.refl _) fun _ hc hnot => absurd hc hnot,
    insideOffer_iff hvideo (List.Subset.refl _) fun _ hc hnot => absurd hc hnot,
    insideOffer_iff hdata hsub hunusable]
  constructor
  · rintro ⟨⟨⟨haudio, -⟩, hvideo, -⟩, hdata, husable⟩
    exact ⟨haudio, hvideo, hdata, husable⟩
  · rintro ⟨haudio, hvideo, hdata, husable⟩
    exact ⟨⟨⟨haudio, fun _ hc hnot => absurd hc hnot⟩, hvideo, fun _ hc hnot => absurd hc hnot⟩, hdata, husable⟩

end Sessions

/-! ## An answer outside the offer -/

section Runs

def videoOptions : MediaSessionOptions where
  hasAudio := false
  hasVideo := true

def videoFactory (codecs : List VideoCodec) : MediaSessionDescriptionFactory where
  codecs := { video := codecs }

/-- Two stream ids and two names to draw. -/
def twoIds : Random := ⟨[1, 2], [some [97], some [98]]⟩

theorem answer_inside_rtx : ∃ answer random', (videoFactory [vp8Codec 96, rtxCodec 97 96]).createAnswer
      (videoDescription [vp8Codec 100, rtxCodec 101 100]) videoOptions none twoIds = .ok (answer, random') ∧
    AllInside (videoFactory [vp8Codec 96, rtxCodec 97 96]) videoOptions
      (videoDescription [vp8Codec 100, rtxCodec 101 100]) answer.contents := by
  obtain ⟨r, hrun⟩ : ∃ r, (videoFactory [vp8Codec 96, rtxCodec 97 96]).createAnswer
      (videoDescription [vp8Codec 100, rtxCodec 101 100]) videoOptions none twoIds = .ok r := ⟨_, rfl⟩
  refine ⟨r.1, r.2, hrun, (answer_inside_iff (by decide) (by decide) (by decide) hrun).mpr ⟨?_, ?_, ?_, ?_⟩⟩
  · exact fun _ hmem => absurd hmem List.not_mem_nil
  · unfold Unambiguous
    decide
  · exact fun _ hmem => absurd hmem List.not_mem_nil
  · exact fun _ hmem => absurd hmem List.not_mem_nil

def googleDataCodec (id : ℤ) (name : List Uint8) : DataCodec := ⟨⟨id, name, 0, 0, [], []⟩⟩

def dataDescription : SessionDescription where
  contents := [⟨text "data", nsJingleRtp, false, some (.data
    { protocol := kMediaProtocolAvpf, codecs := [googleDataCodec 101 (text "google-data")] })⟩]

def dataFactory : MediaSessionDescriptionFactory where
  codecs := { data := [googleDataCodec 101 (text "google-data"), googleDataCodec 108 (text "google-sctp-data")] }

/-- A request for data over SCTP. -/
def sctpOptions : MediaSessionOptions where
  hasAudio := false
  dataChannelType := .sctp

/-- **The data codec for RTP is answered although channels are SCTP.** -/
theorem answer_outside : ¬∀ (f : MediaSessionDescriptionFactory) (options : MediaSessionOptions)
    (offer : SessionDescription) (current : Option SessionDescription) (random random' : Random)
    (answer : SessionDescription), (currentCodecs (some offer)).ids.Nodup → f.codecs.ids.Nodup →
      f.createAnswer offer options current random = .ok (answer, random') →
        AllInside f options offer answer.contents := by
  intro h
  obtain ⟨r, hrun⟩ : ∃ r, dataFactory.createAnswer dataDescription sctpOptions none twoIds = .ok r := ⟨_, rfl⟩
  have hinside := h dataFactory sctpOptions dataDescription none twoIds r.2 r.1 (by decide) (by decide) hrun
  obtain ⟨-, hdata⟩ := (createAnswer_inside hrun).mp hinside
  obtain ⟨c, hc, hmatch⟩ := hdata.usable (googleDataCodec 101 (text "google-data")) (by decide)
  revert c
  decide

end Runs

end MediaSessionDescriptionFactory

end Libjingle.Media
