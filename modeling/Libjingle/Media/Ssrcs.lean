import Libjingle.Media.AnsweredCodecs
import Libjingle.Media.Remade

/-!
# The SSRCs of a description (`CreateOffer`, `CreateAnswer` in `session/media/mediasession.cc`)

Main result: **`uniqueSsrcs_iff`**.
-/

variable {params : List StreamParams}

namespace Libjingle.Media

open Lib MediaSessionDescriptionFactory

/-! ## What is promised -/

def rtpStreams (contents : List ContentInfo) : List StreamParams := contents.flatMap fun content =>
  (content.description.map fun desc => if isSctp desc.media then [] else desc.media.streams).getD []

def KeepsStreams (current : List StreamParams) (streams : List Stream) (contents : List ContentInfo) : Prop :=
  ∀ content ∈ contents, ∀ desc, content.description = some desc → ∀ s ∈ streams, s.type = desc.type →
    ∀ p, getStreamByIds current [] s.id = some p → getStreamByIds desc.media.streams [] s.id = some p

/-- The SSRCs of the RTP contents are distinct, and the current streams keep theirs. -/
structure UniqueSsrcs (current : List StreamParams) (streams : List Stream) (contents : List ContentInfo) : Prop where
  nodup : (ssrcsOf (rtpStreams contents)).Nodup
  kept : KeepsStreams current streams contents

section Contents

variable {part : Part} {sdesc sdesc' : SessionDescription} {added : List StreamParams}

theorem rtpStreams_of_adds (h : Adds part sdesc sdesc' added) :
    rtpStreams sdesc'.contents = rtpStreams sdesc.contents ++ if part.sctp then [] else added := by
  obtain ⟨content, desc, hcontents, hdesc, -, hsctp, rfl⟩ := h
  rw [hcontents, rtpStreams, List.flatMap_append, List.flatMap_singleton, hdesc, Option.map_some, hsctp]
  rfl

theorem ssrcsOf_append (params params' : List StreamParams) :
    ssrcsOf (params ++ params') = ssrcsOf params ++ ssrcsOf params' := List.flatMap_append

theorem rtpStreams_bare (contents : List ContentInfo) : rtpStreams (contents.map bare) = rtpStreams contents := by
  rw [rtpStreams, rtpStreams, List.flatMap_map]
  refine List.flatMap_congr fun content _ => ?_
  rcases content with ⟨name, type, rejected, _ | (desc | desc | desc)⟩ <;> rfl

theorem keepsStreams_bare (current : List StreamParams) (streams : List Stream) (contents : List ContentInfo) :
    KeepsStreams current streams (contents.map bare) ↔ KeepsStreams current streams contents := by
  simp only [KeepsStreams, List.forall_mem_map]
  refine forall₂_congr fun content _ => ?_
  rcases content with ⟨name, type, rejected, _ | (desc | desc | desc)⟩ <;>
    simp [bare, ContentDescription.setCryptos, ContentDescription.media, ContentDescription.type]

theorem keepsStreams_of_adds {current : List StreamParams} {streams : List Stream}
    (h : KeepsStreams current streams sdesc.contents) (hadds : Adds part sdesc sdesc' added)
    (hadded : ∀ s ∈ streams, s.type = part.type → ∀ p, getStreamByIds current [] s.id = some p →
      getStreamByIds added [] s.id = some p) : KeepsStreams current streams sdesc'.contents := by
  obtain ⟨content, desc, hcontents, hdesc, htype, -, rfl⟩ := hadds
  rw [hcontents]
  intro content' hmem desc' hdesc' s hs hstype p hp
  rcases List.mem_append.mp hmem with hmem | hmem
  · exact h content' hmem desc' hdesc' s hs hstype p hp
  · obtain rfl := List.mem_singleton.mp hmem
    obtain rfl := Option.some.inj (hdesc.symm.trans hdesc')
    exact hadded s hs (hstype.trans htype) p hp

end Contents

theorem keepsStreams_of_create {f : MediaSessionDescriptionFactory} {options : MediaSessionOptions}
    {current : Option SessionDescription} {request : Request} {random random' : Random} {made : SessionDescription}
    (h : f.create options current request random = .ok (made, random')) :
    KeepsStreams (getCurrentStreamParams current) options.streams made.contents := by
  obtain ⟨s, ⟨-, hkept⟩, hmade⟩ := @create_induction f options current request
    (fun _ s => (∃ new, s.2 = getCurrentStreamParams current ++ new) ∧
      KeepsStreams (getCurrentStreamParams current) options.streams s.1.contents) _ _ _ h
    ⟨⟨[], (List.append_nil _).symm⟩, fun _ hmem => absurd hmem List.not_mem_nil⟩ (by
      rintro done rest part ⟨sdesc, known⟩ ⟨sdesc', known'⟩ added random random' - ⟨⟨new, rfl⟩, hkept⟩ hrun hadds
      rw [addedStreams] at hrun
      split_ifs at hrun with hlegacy
      · obtain ⟨p, random₁, -, hrun⟩ := bind_eq_ok.mp hrun
        obtain ⟨heq, -⟩ := Prod.mk.inj (pure_eq_ok.mp hrun)
        obtain ⟨-, rfl⟩ := Prod.mk.inj heq
        refine ⟨⟨new, rfl⟩, keepsStreams_of_adds hkept hadds fun s hs => ?_⟩
        rw [hlegacy.1] at hs
        cases hs
      · obtain ⟨new', rfl, -⟩ := addStreams_known hrun
        refine ⟨⟨new ++ new', List.append_assoc _ _ _⟩, keepsStreams_of_adds hkept hadds fun s hs htype p hp => ?_⟩
        exact addStreams_kept hrun hs htype (getStreamByIds_append hp new))
  rw [← keepsStreams_bare, hmade, keepsStreams_bare]
  exact hkept

/-! ## Streams with separate SSRCs -/

/-- `made` are known streams with distinct SSRCs; other ids are not there yet, and other streams
have no SSRC of a current one. -/
structure Separated (current known made : List StreamParams) (handled : List (List Uint8)) : Prop where
  grown : ∃ new, known = current ++ new ∧ ∀ p ∈ new, p.id ∈ handled
  nodup : (ssrcsOf made).Nodup
  separate : ∀ p ∈ made, p ∈ known ∧ p.id ∈ handled ∧ (p ∈ current ∨ ∀ ssrc ∈ p.ssrcs, ssrc ∉ ssrcsOf current)

section Separate

variable {current known known' made : List StreamParams} {handled : List (List Uint8)} {p : StreamParams}
  {mediaType : MediaType} {streams requested : List Stream} {rtx sctp : Bool} {random random' : Random}
  {added : List StreamParams × List StreamParams}

theorem disjoint_ssrcs (h : (ssrcsOf params).Nodup) {p q : StreamParams} (hp : p ∈ params)
    (hq : q ∈ params) (hne : p ≠ q) : List.Disjoint p.ssrcs q.ssrcs := by
  have hsymm : Std.Symm (Function.onFun List.Disjoint StreamParams.ssrcs) := ⟨fun _ _ h => h.symm⟩
  exact (List.nodup_flatMap.mp h).2.forall hp hq hne

theorem Separated.mono (h : Separated current known made handled) {new : List StreamParams} {ids : List (List Uint8)}
    (hnew : ∀ p ∈ new, p.id ∈ ids) : Separated current (known ++ new) made (handled ++ ids) := by
  obtain ⟨before, rfl, hbefore⟩ := h.grown
  refine ⟨⟨before ++ new, List.append_assoc _ _ _, fun p hp => ?_⟩, h.nodup, fun p hp => ?_⟩
  · rcases List.mem_append.mp hp with hp | hp
    · exact List.mem_append_left _ (hbefore p hp)
    · exact List.mem_append_right _ (hnew p hp)
  · obtain ⟨hmem, hid, hssrcs⟩ := h.separate p hp
    exact ⟨List.mem_append_left _ hmem, List.mem_append_left _ hid, hssrcs⟩

theorem Separated.concat (h : Separated current known made handled) (hknown : p ∈ known) (hid : p.id ∈ handled)
    (hcurrent : p ∈ current ∨ ∀ ssrc ∈ p.ssrcs, ssrc ∉ ssrcsOf current) (hnodup : p.ssrcs.Nodup)
    (hdisjoint : ∀ q ∈ made, List.Disjoint q.ssrcs p.ssrcs) : Separated current known (made ++ [p]) handled := by
  refine ⟨h.grown, ?_, fun q hq => ?_⟩
  · have hsingle : ssrcsOf [p] = p.ssrcs := List.flatMap_singleton _ _
    rw [ssrcsOf_append, hsingle]
    refine List.nodup_append'.mpr ⟨h.nodup, hnodup, fun ssrc hmade hp => ?_⟩
    obtain ⟨q, hq, hssrc⟩ := mem_ssrcsOf.mp hmade
    exact hdisjoint q hq hssrc hp
  · rcases List.mem_append.mp hq with hq | hq
    · exact h.separate q hq
    · rw [List.mem_singleton.mp hq]
      exact ⟨hknown, hid, hcurrent⟩

theorem Separated.found (hcurrent : (ssrcsOf current).Nodup) (h : Separated current known made handled)
    (hid : p.id ∉ handled) (hlookup : p ∈ known) :
    Separated current known (made ++ [p]) (handled ++ [p.id]) := by
  obtain ⟨new, rfl, hnew⟩ := h.grown
  have hp : p ∈ current := (List.mem_append.mp hlookup).resolve_right fun hp => hid (hnew p hp)
  have h' : Separated current (current ++ new) made (handled ++ [p.id]) := by
    have hmono := @Separated.mono _ _ _ _ h [] [p.id] fun _ hmem => absurd hmem List.not_mem_nil
    rwa [List.append_nil] at hmono
  refine h'.concat hlookup (List.mem_append_right _ (List.mem_singleton_self _)) (.inl hp)
    ((List.nodup_flatMap.mp hcurrent).1 p hp) fun q hq ssrc hssrc hssrc' => ?_
  obtain ⟨-, hqid, hq | hq⟩ := h.separate q hq
  · exact disjoint_ssrcs hcurrent hq hp (fun heq => hid (heq ▸ hqid)) hssrc hssrc'
  · exact hq ssrc hssrc (mem_ssrcsOf.mpr ⟨p, hp, hssrc'⟩)

theorem Separated.fresh (h : Separated current known made handled) (hfresh : Fresh (ssrcsOf known) p.ssrcs) :
    Separated current (known ++ [p]) (made ++ [p]) (handled ++ [p.id]) := by
  have h' : Separated current (known ++ [p]) made (handled ++ [p.id]) :=
    h.mono fun q hq => List.mem_singleton.mpr (congrArg (·.id) (List.mem_singleton.mp hq))
  obtain ⟨new, rfl, -⟩ := h.grown
  refine h'.concat (List.mem_append_right _ (List.mem_singleton_self p))
    (List.mem_append_right _ (List.mem_singleton_self _)) (.inr fun ssrc hssrc hmem => ?_) hfresh.1
    fun q hq ssrc hssrc hssrc' => ?_
  · obtain ⟨q, hq, hmem⟩ := mem_ssrcsOf.mp hmem
    exact (hfresh.2 ssrc hssrc).2 (mem_ssrcsOf.mpr ⟨q, List.mem_append_left _ hq, hmem⟩)
  · exact (hfresh.2 ssrc hssrc').2 (mem_ssrcsOf.mpr ⟨q, (h.separate q hq).1, hssrc⟩)

theorem addStreams_separated (hcurrent : (ssrcsOf current).Nodup) (h : Separated current known made handled)
    (hids : (handled ++ idsOfType mediaType requested).Nodup)
    (hrtx : rtx = true → ∀ s ∈ requested, s.type = mediaType → (getStreamByIds current [] s.id).isSome = true)
    (hrun : addStreams mediaType streams rtx false requested known random = .ok (added, random')) :
    Separated current added.2 (made ++ added.1) (handled ++ idsOfType mediaType requested) := by
  induction requested generalizing known made handled random added with
  | nil =>
    obtain ⟨rfl, -⟩ := Prod.mk.inj (pure_eq_ok.mp hrun)
    simpa [idsOfType] using h
  | cons stream requested ih =>
    have hrtx' : rtx = true → ∀ s ∈ requested, s.type = mediaType → (getStreamByIds current [] s.id).isSome = true :=
      fun hisRtx s hs => hrtx hisRtx s (List.mem_cons_of_mem _ hs)
    rcases addStreams_cons hrun with ⟨hother, hrun⟩ | ⟨p, known', rest, random₁, htype, rfl, hrest, hp⟩
    · rw [idsOfType_cons_of_ne hother] at hids ⊢
      exact ih h hids hrtx' hrun
    · rw [idsOfType_cons htype] at hids ⊢
      have hnot : stream.id ∉ handled := fun hmem => (List.nodup_append'.mp hids).2.2 hmem List.mem_cons_self
      have hnext : Separated current known' (made ++ [p]) (handled ++ [stream.id]) := by
        rcases hp with ⟨hfound, rfl⟩ | ⟨hnone, rfl, hnew⟩
        · obtain ⟨hmem, -, hid⟩ := getStreamByIds_some hfound
          rw [← hid] at hnot ⊢
          exact h.found hcurrent hnot hmem
        · obtain ⟨-, hid, hfresh⟩ := newStream_spec hnew
          have hnotRtx : rtx = false := by
            by_contra hisRtx
            obtain ⟨q, hq⟩ := Option.isSome_iff_exists.mp
              (hrtx (Bool.eq_true_of_not_eq_false hisRtx) stream List.mem_cons_self htype)
            obtain ⟨new, rfl, -⟩ := h.grown
            rw [getStreamByIds_append hq new] at hnone
            cases hnone
          rw [← hid]
          exact h.fresh (hfresh hnotRtx rfl)
      have hrun' := ih hnext (by rwa [List.append_assoc]) hrtx' hrest
      rwa [List.append_assoc, List.append_assoc] at hrun'

end Separate

/-! ## When SSRCs are unique -/

def rtpParts (parts : List Part) : List Part := parts.filter fun part => !part.sctp

/-- Not two contents get legacy streams, and none is new with RTX. -/
structure Separable (current : List StreamParams) (streams : List Stream) (addLegacy : Bool) (parts : List Part) :
    Prop where
  legacy : streams = [] → addLegacy = true → (rtpParts parts).length ≤ 1
  rtx : ∀ part ∈ rtpParts parts, part.rtx = true → ∀ s ∈ streams, s.type = part.type →
    (getStreamByIds current [] s.id).isSome = true

def handledIds (streams : List Stream) (parts : List Part) : List (List Uint8) :=
  parts.flatMap fun part => idsOfType part.type streams

section Unique

variable {f : MediaSessionDescriptionFactory} {options : MediaSessionOptions} {current : Option SessionDescription}
  {request : Request} {random random' : Random} {made : SessionDescription}

theorem part_type {mediaType : MediaType} {part : Part} (h : f.part options current request mediaType = some part) :
    part.type = mediaType := by
  unfold MediaSessionDescriptionFactory.part at h
  split at h <;> split at h <;> cases h <;> rfl

theorem nodup_handledIds (hids : (options.streams.map (·.id)).Nodup) :
    (handledIds options.streams (f.parts options current request)).Nodup := by
  refine List.nodup_flatMap.mpr ⟨fun part _ => hids.sublist (List.filter_sublist.map _), ?_⟩
  have htypes : (f.parts options current request).Pairwise fun part part' => part.type ≠ part'.type := by
    refine List.Pairwise.filterMap _ (R := fun a b => a ≠ b) ?_ (by decide)
    intro a b hne part hpart part' hpart'
    rwa [part_type hpart, part_type hpart']
  refine htypes.imp fun {part part'} hne id hmem hmem' => ?_
  obtain ⟨s, hs, rfl⟩ := List.mem_map.mp hmem
  obtain ⟨s', hs', heq⟩ := List.mem_map.mp hmem'
  obtain ⟨hs, htype⟩ := List.mem_filter.mp hs
  obtain ⟨hs', htype'⟩ := List.mem_filter.mp hs'
  obtain rfl := List.inj_on_of_nodup_map hids hs' hs heq
  exact hne ((of_decide_eq_true htype).symm.trans (of_decide_eq_true htype'))

theorem rtpParts_concat_sctp {done : List Part} {part : Part} (h : part.sctp = true) :
    rtpParts (done ++ [part]) = rtpParts done := by
  simp [rtpParts, h]

theorem rtpParts_concat_rtp {done : List Part} {part : Part} (h : part.sctp = false) :
    rtpParts (done ++ [part]) = rtpParts done ++ [part] := by
  simp [rtpParts, h]

theorem nodup_of_legacy (hstreams : options.streams = []) (hlegacy : f.addLegacy = true)
    (hone : (rtpParts (f.parts options current request)).length ≤ 1)
    (h : f.create options current request random = .ok (made, random')) :
    (ssrcsOf (rtpStreams made.contents)).Nodup := by
  obtain ⟨s, ⟨-, hs⟩, hmade⟩ := @create_induction f options current request
    (fun done s => (rtpParts done = [] → rtpStreams s.1.contents = []) ∧
      ((rtpParts done).length ≤ 1 → (ssrcsOf (rtpStreams s.1.contents)).Nodup)) _ _ _ h
    ⟨fun _ => rfl, fun _ => List.nodup_nil⟩ (by
      rintro done rest part s s' streams random random' - ⟨hnone, hone⟩ hrun hadds
      rw [rtpStreams_of_adds hadds]
      cases hsctp : part.sctp with
      | true =>
        rw [rtpParts_concat_sctp hsctp, if_pos rfl, List.append_nil]
        exact ⟨hnone, hone⟩
      | false =>
        rw [rtpParts_concat_rtp hsctp, if_neg Bool.false_ne_true]
        refine ⟨fun heq => absurd heq (List.append_ne_nil_of_right_ne_nil _ (List.cons_ne_nil _ _)), fun hle => ?_⟩
        rw [List.length_append, List.length_singleton] at hle
        rw [hnone (List.length_eq_zero_iff.mp (by omega)), List.nil_append]
        rw [addedStreams, if_pos ⟨hstreams, hlegacy⟩, hsctp] at hrun
        obtain ⟨p, random₁, hp, hrun⟩ := bind_eq_ok.mp hrun
        obtain ⟨heq, -⟩ := Prod.mk.inj (pure_eq_ok.mp hrun)
        obtain ⟨rfl, -⟩ := Prod.mk.inj heq
        rw [ssrcsOf, List.flatMap_singleton]
        exact (addLegacyStream_spec hp).1.1)
  rw [← rtpStreams_bare, hmade, rtpStreams_bare]
  exact hs hone

theorem nodup_of_requested (hcurrent : (ssrcsOf (getCurrentStreamParams current)).Nodup)
    (hids : (options.streams.map (·.id)).Nodup) (hlegacy : ¬(options.streams = [] ∧ f.addLegacy = true))
    (hrtx : ∀ part ∈ rtpParts (f.parts options current request), part.rtx = true → ∀ s ∈ options.streams,
      s.type = part.type → (getStreamByIds (getCurrentStreamParams current) [] s.id).isSome = true)
    (h : f.create options current request random = .ok (made, random')) :
    (ssrcsOf (rtpStreams made.contents)).Nodup := by
  obtain ⟨s, hs, hmade⟩ := @create_induction f options current request
    (fun done s => Separated (getCurrentStreamParams current) s.2 (rtpStreams s.1.contents)
      (handledIds options.streams done)) _ _ _ h
    ⟨⟨[], (List.append_nil _).symm, fun _ hmem => absurd hmem List.not_mem_nil⟩, List.nodup_nil,
      fun _ hmem => absurd hmem List.not_mem_nil⟩ (by
      rintro done rest part ⟨sdesc, known⟩ ⟨sdesc', known'⟩ streams random random' hparts hs hrun hadds
      have happend : handledIds options.streams (done ++ [part]) =
          handledIds options.streams done ++ idsOfType part.type options.streams := by
        rw [handledIds, List.flatMap_append, List.flatMap_singleton]
        rfl
      rw [rtpStreams_of_adds hadds, happend]
      rw [addedStreams, if_neg hlegacy] at hrun
      cases hsctp : part.sctp with
      | true =>
        obtain ⟨new, rfl, hnew⟩ := addStreams_known hrun
        rw [if_pos rfl, List.append_nil]
        exact hs.mono hnew
      | false =>
        rw [if_neg Bool.false_ne_true]
        rw [hsctp] at hrun
        have hmem : part ∈ rtpParts (f.parts options current request) := by
          rw [hparts]
          exact List.mem_filter.mpr ⟨List.mem_append_right _ List.mem_cons_self, by rw [hsctp]; rfl⟩
        refine addStreams_separated hcurrent hs ?_ (hrtx part hmem) hrun
        have hnodup := @nodup_handledIds f options current request hids
        rw [hparts, List.append_cons, handledIds, List.flatMap_append] at hnodup
        exact happend ▸ (List.nodup_append.mp hnodup).1)
  rw [← rtpStreams_bare, hmade, rtpStreams_bare]
  exact hs.nodup

theorem uniqueSsrcs_of_separable (hcurrent : (ssrcsOf (getCurrentStreamParams current)).Nodup)
    (hids : (options.streams.map (·.id)).Nodup)
    (hseparable : Separable (getCurrentStreamParams current) options.streams f.addLegacy
      (f.parts options current request))
    (h : f.create options current request random = .ok (made, random')) :
    UniqueSsrcs (getCurrentStreamParams current) options.streams made.contents := by
  refine ⟨?_, keepsStreams_of_create h⟩
  by_cases hlegacy : options.streams = [] ∧ f.addLegacy = true
  · exact nodup_of_legacy hlegacy.1 hlegacy.2 (hseparable.legacy hlegacy.1 hlegacy.2) h
  · exact nodup_of_requested hcurrent hids hlegacy hseparable.rtx h

/-! ### Runs with an SSRC that is used twice -/

theorem not_nodup_append {params' : List StreamParams} (h : ¬(ssrcsOf params).Nodup) :
    ¬(ssrcsOf (params ++ params')).Nodup := by
  rw [ssrcsOf_append]
  exact fun hnodup => h (List.nodup_append.mp hnodup).1

theorem spoiled_of_legacy (hstreams : options.streams = []) (hlegacy : f.addLegacy = true)
    (htwo : 2 ≤ (rtpParts (f.parts options current request)).length) :
    Replays (f.create options current request) (f.create options current request) fun _ made' =>
      ¬(ssrcsOf (rtpStreams made'.contents)).Nodup := by
  refine (@create_replays f options current request (fun done s s' => Alike s.1 s'.1 ∧
    s.2 = getCurrentStreamParams current ∧ s'.2 = getCurrentStreamParams current ∧
      (rtpParts done ≠ [] → ∃ ssrc ∈ ssrcsOf (rtpStreams s'.1.contents), ssrc ≠ 0 ∧
        ssrc ∉ ssrcsOf (getCurrentStreamParams current)) ∧
      (2 ≤ (rtpParts done).length → ¬(ssrcsOf (rtpStreams s'.1.contents)).Nodup)) ?_ ?_ ?_).mono ?_
  · rintro done s s' ⟨halike, hknown, hknown', -⟩
    exact ⟨halike, hknown ▸ hknown' ▸ forall₂_shrunk_refl _⟩
  · exact ⟨rfl, rfl, rfl, fun h => absurd rfl h, fun h => absurd h (by decide)⟩
  · rintro done rest part ⟨sdesc, _⟩ ⟨sdesc', _⟩ - ⟨-, rfl, rfl, hdrawn, htwice⟩
    rw [addedStreams, if_pos ⟨hstreams, hlegacy⟩]
    cases hsctp : part.sctp with
    | true =>
      refine .bind (addLegacyStream_replays (forall₂_shrunk_refl _) _ _) fun p p' _ => .pure ?_
      rintro r r' halike hr hr' - hadds'
      rw [rtpParts_concat_sctp hsctp, rtpStreams_of_adds hadds', hsctp, if_pos rfl, List.append_nil]
      exact ⟨halike, hr, hr', hdrawn, htwice⟩
    | false =>
      by_cases hdone : rtpParts done = []
      · -- The first one has an SSRC that the next ones may use.
        refine .bind (addLegacyStream_replays (forall₂_shrunk_refl _) _ _).reached ?_
        rintro p _ ⟨rfl, random, random', hrun⟩
        obtain ⟨hfresh, hne⟩ := addLegacyStream_spec hrun
        obtain ⟨ssrc, hssrc⟩ := List.exists_mem_of_ne_nil _ hne
        refine .pure fun r r' halike hr hr' _ hadds' => ⟨halike, hr, hr', fun _ => ⟨ssrc, ?_, hfresh.2 ssrc hssrc⟩, ?_⟩
        · rw [rtpStreams_of_adds hadds', hsctp, if_neg Bool.false_ne_true, ssrcsOf_append]
          exact List.mem_append_right _ (mem_ssrcsOf.mpr ⟨p, List.mem_singleton_self p, hssrc⟩)
        · rw [rtpParts_concat_rtp hsctp, hdone]
          exact fun h => absurd h (by simp)
      · obtain ⟨ssrc, hmem, hne, hnot⟩ := hdrawn hdone
        refine .bind (addLegacyStream_spoiled (forall₂_shrunk_refl _) _ hne hnot) fun p p' hp => .pure ?_
        rintro r r' halike hr hr' - hadds'
        rw [rtpStreams_of_adds hadds', hsctp, if_neg Bool.false_ne_true, ssrcsOf_append]
        refine ⟨halike, hr, hr', fun _ => ⟨ssrc, List.mem_append_left _ hmem, hne, hnot⟩, fun _ hnodup => ?_⟩
        exact (List.nodup_append'.mp hnodup).2.2 hmem (mem_ssrcsOf.mpr ⟨p', List.mem_singleton_self p', hp⟩)
  · rintro made made' ⟨s, s', ⟨-, -, -, -, htwice⟩, -, hmade'⟩
    rw [← rtpStreams_bare, hmade', rtpStreams_bare]
    exact htwice htwo

def Spoils (current : List StreamParams) (streams : List Stream) (part : Part) : Prop :=
  part.rtx = true ∧ ∃ s ∈ streams, s.type = part.type ∧ getStreamByIds current [] s.id = none

theorem getStreamByIds_append_none {params' : List StreamParams} {id : List Uint8}
    (h : getStreamByIds params [] id = none) (h' : ∀ p ∈ params', p.id ≠ id) :
    getStreamByIds (params ++ params') [] id = none := by
  refine List.find?_eq_none.mpr fun p hp hmatch => ?_
  rcases List.mem_append.mp hp with hp | hp
  · exact List.find?_eq_none.mp h p hp hmatch
  · have hids : p.groupid = [] ∧ p.id = id := by simpa [StreamSelector.isMatch] using hmatch
    exact h' p hp hids.2

theorem spoiled_of_requested (hids : (options.streams.map (·.id)).Nodup)
    (hlegacy : ¬(options.streams = [] ∧ f.addLegacy = true))
    (hspoils : ∃ part ∈ rtpParts (f.parts options current request),
      Spoils (getCurrentStreamParams current) options.streams part) :
    Replays (f.create options current request) (f.create options current request) fun _ made' =>
      ¬(ssrcsOf (rtpStreams made'.contents)).Nodup := by
  refine (@create_replays f options current request (fun done s s' => Alike s.1 s'.1 ∧ List.Forall₂ Shrunk s.2 s'.2 ∧
    (∃ new, s.2 = getCurrentStreamParams current ++ new ∧ ∀ p ∈ new, p.id ∈ handledIds options.streams done) ∧
      ((∃ part ∈ rtpParts done, Spoils (getCurrentStreamParams current) options.streams part) →
        ¬(ssrcsOf (rtpStreams s'.1.contents)).Nodup)) ?_ ?_ ?_).mono ?_
  · exact fun done s s' h => ⟨h.1, h.2.1⟩
  · exact ⟨rfl, forall₂_shrunk_refl _, ⟨[], (List.append_nil _).symm, fun _ hmem => absurd hmem List.not_mem_nil⟩,
      fun ⟨_, hmem, _⟩ => absurd hmem List.not_mem_nil⟩
  · rintro done rest part ⟨sdesc, _⟩ ⟨sdesc', known'⟩ hparts ⟨-, hshrunk, ⟨new, rfl, hnew⟩, htwice⟩
    rw [addedStreams, addedStreams, if_neg hlegacy, if_neg hlegacy]
    have hgrown : ∀ {added : List StreamParams × List StreamParams} {random random' : Random},
        addStreams part.type options.streams part.rtx part.sctp options.streams (getCurrentStreamParams current ++ new)
          random = .ok (added, random') → ∃ new, added.2 = getCurrentStreamParams current ++ new ∧
            ∀ p ∈ new, p.id ∈ handledIds options.streams (done ++ [part]) := by
      intro added random random' hrun
      obtain ⟨new', heq, hnew'⟩ := addStreams_known hrun
      refine ⟨new ++ new', heq.trans (List.append_assoc _ _ _), fun p hp => ?_⟩
      rw [handledIds, List.flatMap_append, List.flatMap_singleton]
      rcases List.mem_append.mp hp with hp | hp
      · exact List.mem_append_left _ (hnew p hp)
      · exact List.mem_append_right _ (hnew' p hp)
    by_cases hpart : part.sctp = false ∧ Spoils (getCurrentStreamParams current) options.streams part
    · obtain ⟨hsctp, hrtx, s, hs, htype, hnone⟩ := hpart
      have hdistinct := @nodup_handledIds f options current request hids
      rw [hparts, handledIds, List.flatMap_append, List.flatMap_cons] at hdistinct
      have hlookup : getStreamByIds (getCurrentStreamParams current ++ new) [] s.id = none := by
        refine getStreamByIds_append_none hnone fun p hp heq => ?_
        refine (List.nodup_append'.mp hdistinct).2.2 (hnew p hp) (List.mem_append_left _ ?_)
        exact heq ▸ List.mem_map.mpr ⟨s, List.mem_filter.mpr ⟨hs, decide_eq_true htype⟩, rfl⟩
      have hnewStream : addsNew part.type options.streams (getCurrentStreamParams current ++ new) = true :=
        List.any_eq_true.mpr ⟨s, hs, by rw [hlookup, decide_eq_true htype]; rfl⟩
      rw [hsctp, hrtx] at hgrown ⊢
      refine (addStreams_spoiled hshrunk part.type options.streams _ hnewStream).reached.mono ?_
      rintro added added' ⟨⟨hshrunk', hspoiled⟩, random, random', hrun⟩ r r' halike hr hr' - hadds'
      refine ⟨halike, hr ▸ hr' ▸ hshrunk', hr ▸ hgrown hrun, fun _ => ?_⟩
      rw [rtpStreams_of_adds hadds', hsctp, if_neg Bool.false_ne_true, ssrcsOf_append]
      exact fun hnodup => hspoiled (List.nodup_append.mp hnodup).2.1
    · refine (addStreams_replays hshrunk part.type options.streams _ _ _).reached.mono ?_
      rintro added added' ⟨hshrunk', random, random', hrun⟩ r r' halike hr hr' - hadds'
      refine ⟨halike, hr ▸ hr' ▸ hshrunk', hr ▸ hgrown hrun, ?_⟩
      rintro ⟨part', hpart', hspoils⟩
      rw [rtpStreams_of_adds hadds']
      refine not_nodup_append (htwice ⟨part', ?_, hspoils⟩)
      obtain ⟨hmem, hrtp⟩ := List.mem_filter.mp hpart'
      rcases List.mem_append.mp hmem with hmem | hmem
      · exact List.mem_filter.mpr ⟨hmem, hrtp⟩
      · obtain rfl := List.mem_singleton.mp hmem
        exact absurd ⟨by simpa using hrtp, hspoils⟩ hpart
  · rintro made made' ⟨s, s', ⟨-, -, -, htwice⟩, -, hmade'⟩
    rw [← rtpStreams_bare, hmade', rtpStreams_bare]
    exact htwice hspoils

end Unique

/-- **SSRCs are unique whatever is drawn**, exactly if contents are separable. The ids of the
streams are distinct, as the comment on `AddStream` demands. -/
theorem uniqueSsrcs_iff (f : MediaSessionDescriptionFactory) (options : MediaSessionOptions)
    (current : Option SessionDescription) (request : Request)
    (hcurrent : (ssrcsOf (getCurrentStreamParams current)).Nodup) (hids : (options.streams.map (·.id)).Nodup)
    (hmade : ∃ random r, f.create options current request random = .ok r) :
    (∀ random made random', f.create options current request random = .ok (made, random') →
      UniqueSsrcs (getCurrentStreamParams current) options.streams made.contents) ↔
    Separable (getCurrentStreamParams current) options.streams f.addLegacy (f.parts options current request) := by
  refine ⟨fun hunique => by_contra fun hnot => ?_, fun hseparable random made random' h =>
    uniqueSsrcs_of_separable hcurrent hids hseparable h⟩
  have hspoiled : Replays (f.create options current request) (f.create options current request) fun _ made' =>
      ¬(ssrcsOf (rtpStreams made'.contents)).Nodup := by
    by_cases hlegacy : options.streams = [] ∧ f.addLegacy = true
    · refine spoiled_of_legacy hlegacy.1 hlegacy.2 (by_contra fun hle => hnot ⟨fun _ _ => by omega, ?_⟩)
      intro part _ _ s hs
      rw [hlegacy.1] at hs
      cases hs
    · refine spoiled_of_requested hids hlegacy (by_contra fun hnone => hnot ⟨fun h h' => absurd ⟨h, h'⟩ hlegacy, ?_⟩)
      intro part hpart hrtx s hs htype
      by_contra hsome
      exact hnone ⟨part, hpart, hrtx, s, hs, htype, Option.not_isSome_iff_eq_none.mp hsome⟩
  obtain ⟨random, ⟨made, random'⟩, h⟩ := hmade
  obtain ⟨drawn, made', htwice, hrun⟩ := hspoiled random made random' h
  exact htwice (hunique _ _ _ (hrun [])).nodup

/-! ## An SSRC that is drawn twice -/

section Runs

def streamOptions : MediaSessionOptions where
  hasAudio := false
  hasVideo := true
  streams := [{ type := .video, id := [118] }]

def sameIds : Random := ⟨[5, 5, 7], [some [99], some [117], some [112]]⟩

theorem uniqueSsrcs_iff_vp8 : ∃ made random', (videoFactory [vp8Codec 96]).create streamOptions none .offer sameIds =
      .ok (made, random') ∧ UniqueSsrcs [] streamOptions.streams made.contents := by
  obtain ⟨r, hrun⟩ : ∃ r, (videoFactory [vp8Codec 96]).create streamOptions none .offer sameIds = .ok r := ⟨_, rfl⟩
  refine ⟨r.1, r.2, hrun, (uniqueSsrcs_iff (videoFactory [vp8Codec 96]) streamOptions none .offer (by decide)
    (by decide) ⟨_, _, hrun⟩).mpr ⟨?_, ?_⟩ _ _ _ hrun⟩
  · exact fun h => absurd h (List.cons_ne_nil _ _)
  · decide

/-- **The SSRC of a stream is drawn again for its RTX.** -/
theorem ssrc_drawn_twice : ¬∀ (f : MediaSessionDescriptionFactory) (options : MediaSessionOptions)
    (current : Option SessionDescription) (request : Request) (random random' : Random) (made : SessionDescription),
      (ssrcsOf (getCurrentStreamParams current)).Nodup → (options.streams.map (·.id)).Nodup →
        f.create options current request random = .ok (made, random') →
          UniqueSsrcs (getCurrentStreamParams current) options.streams made.contents := by
  intro h
  obtain ⟨r, hrun, htwice⟩ : ∃ r, (videoFactory [vp8Codec 96, rtxCodec 97 96]).create streamOptions none .offer
      sameIds = .ok r ∧ ssrcsOf (rtpStreams r.1.contents) = [5, 5] := ⟨_, rfl, by decide⟩
  have hnodup := (h _ streamOptions none .offer sameIds r.2 r.1 (by decide) (by decide) hrun).nodup
  rw [htwice] at hnodup
  revert hnodup
  decide

end Runs

end Libjingle.Media
