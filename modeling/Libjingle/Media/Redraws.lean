import Libjingle.Media.Draws

/-!
# Streams added again, with other ids

Main result: **`addStreams_spoiled`**.
-/

namespace Libjingle.Media

open Lib

/-- The stream has the same ids, and no further SSRCs. -/
structure Shrunk (p p' : StreamParams) : Prop where
  groupid : p'.groupid = p.groupid
  id : p'.id = p.id
  cname : p'.cname = p.cname
  ssrcs : p'.ssrcs ⊆ p.ssrcs

theorem Shrunk.refl (p : StreamParams) : Shrunk p p := ⟨rfl, rfl, rfl, List.Subset.refl _⟩

theorem forall₂_shrunk_refl (params : List StreamParams) : List.Forall₂ Shrunk params params :=
  List.forall₂_same.mpr fun p _ => Shrunk.refl p

/-! ## Lookups -/

section Lookups

variable {known known' : List StreamParams} (h : List.Forall₂ Shrunk known known')
include h

theorem getStreamByIds_shrunk (groupid id : List Uint8) :
    Option.Rel Shrunk (getStreamByIds known groupid id) (getStreamByIds known' groupid id) := by
  induction h with
  | nil => exact .none
  | cons hp _ ih =>
    rw [getStreamByIds_cons, getStreamByIds_cons, hp.groupid, hp.id]
    split_ifs
    · exact .some hp
    · exact ih

theorem ssrcsOf_shrunk : ssrcsOf known' ⊆ ssrcsOf known := by
  induction h with
  | nil => exact List.Subset.refl _
  | cons hp _ ih =>
    intro ssrc hmem
    rcases List.mem_append.mp hmem with hmem | hmem
    · exact List.mem_append_left _ (hp.ssrcs hmem)
    · exact List.mem_append_right _ (ih hmem)

theorem getStreamBySsrc_shrunk {ssrc : Uint32} (hnone : (getStreamBySsrc known ssrc).isNone = true) :
    (getStreamBySsrc known' ssrc).isNone = true := by
  by_cases hzero : ssrc = 0
  · -- The selector of SSRC 0 looks at the ids.
    subst hzero
    have hrel : Option.Rel Shrunk (getStreamBySsrc known 0) (getStreamBySsrc known' 0) := getStreamByIds_shrunk h [] []
    rw [Option.isNone_iff_eq_none.mp hnone] at hrel
    generalize getStreamBySsrc known' 0 = found at hrel ⊢
    cases hrel
    rfl
  · rw [getStreamBySsrc_isNone hzero] at hnone ⊢
    exact fun hmem => hnone (ssrcsOf_shrunk h hmem)

theorem generateCname_shrunk (streams : List Stream) (syncLabel : List Uint8) :
    generateCname known' streams syncLabel = generateCname known streams syncLabel := by
  have hany : ∀ s : List Uint8, (known'.any fun p => p.cname = s) = known.any fun p => p.cname = s := fun s => by
    induction h with
    | nil => rfl
    | cons hp _ ih => rw [List.any_cons, List.any_cons, ih, hp.cname]
  have hunused : ∀ strings, firstUnused known' strings = firstUnused known strings := fun strings => by
    induction strings with
    | nil => rfl
    | cons s strings ih =>
      cases s with
      | none => rfl
      | some s => rw [firstUnused, firstUnused, hany, ih]
  have hfound : ∀ streams : List Stream, Option.Rel Shrunk (streams.findSome? fun s => getStreamByIds known [] s.id)
      (streams.findSome? fun s => getStreamByIds known' [] s.id) := fun streams => by
    induction streams with
    | nil => exact .none
    | cons s streams ih =>
      rw [List.findSome?_cons, List.findSome?_cons]
      have hrel := getStreamByIds_shrunk h [] s.id
      revert hrel
      cases getStreamByIds known [] s.id <;> cases getStreamByIds known' [] s.id <;> intro hrel <;> cases hrel
      · exact ih
      · exact .some ‹_›
  have hrel := hfound (streams.filter fun s => s.syncLabel = syncLabel)
  rw [generateCname, generateCname]
  revert hrel
  generalize (streams.filter fun s => s.syncLabel = syncLabel).findSome? (fun s => getStreamByIds known [] s.id) = found
  generalize (streams.filter fun s => s.syncLabel = syncLabel).findSome? (fun s => getStreamByIds known' [] s.id) = found'
  intro hrel
  cases hrel with
  | none => simp only [hunused]
  | some hp => simp only [hp.cname]

end Lookups

/-! ## Streams -/

theorem keepsSupply_generateCname (known : List StreamParams) (streams : List Stream) (syncLabel : List Uint8) :
    KeepsSupply (generateCname known streams syncLabel) := by
  unfold generateCname
  split
  · exact .pure _
  · intro s a s' h ids
    dsimp only at h
    cases hunused : firstUnused known s.strings with
    | error e =>
      rw [hunused] at h
      cases h
    | ok r =>
      rw [hunused] at h
      obtain ⟨rfl, rfl⟩ := Prod.mk.inj (Except.ok.inj h)
      show (firstUnused known s.strings).map _ = _
      rw [hunused]
      rfl

theorem drawId_replays {accepts accepts' : Uint32 → Bool} (h : ∀ id, accepts id = true → accepts' id = true) :
    Replays (drawId accepts) (drawId accepts') Eq := by
  intro s ssrc s' hrun
  obtain ⟨hne, haccepts, hstrings⟩ := drawId_spec hrun
  refine ⟨[ssrc], ssrc, rfl, fun rest => ?_⟩
  show drawId accepts' ⟨ssrc :: rest, s.strings⟩ = .ok (ssrc, ⟨rest, s'.strings⟩)
  rw [hstrings]
  exact drawId_run hne (h ssrc haccepts) rest s.strings

section Replays

variable {known known' : List StreamParams} (h : List.Forall₂ Shrunk known known')
include h

theorem generateSsrcs_shrunk (n : ℕ) : Replays (generateSsrcs known n []) (generateSsrcs known' n []) Eq :=
  generateSsrcs_replays fun drawn hlength hfresh => ⟨drawn, hlength, hfresh.mono (ssrcsOf_shrunk h), rfl⟩

theorem generateIds_replays (sctp : Bool) (n : ℕ) : Replays (generateIds known sctp n) (generateIds known' sctp n) Eq := by
  cases sctp with
  | false => exact generateSsrcs_shrunk h n
  | true =>
    show Replays (generateSctpSids known []) (generateSctpSids known' []) Eq
    rw [generateSctpSids, generateSctpSids, h.length_eq]
    split_ifs
    · exact .pure rfl
    · refine .bind (drawId_replays fun id hnone => getStreamBySsrc_shrunk h hnone) ?_
      rintro id _ rfl
      exact .pure rfl

theorem newStream_replays (streams : List Stream) (rtx sctp : Bool) (stream : Stream) :
    Replays (newStream known streams rtx sctp stream) (newStream known' streams rtx sctp stream) Eq := by
  rw [newStream, newStream, generateCname_shrunk h]
  refine .bind (keepsSupply_generateCname _ _ _).replays ?_
  rintro cname _ rfl
  refine .bind (generateIds_replays h sctp _) ?_
  rintro ssrcs _ rfl
  cases rtx with
  | false => exact .pure rfl
  | true =>
    refine .bind (generateSsrcs_shrunk h 1) ?_
    rintro rtxSsrc _ rfl
    rcases ssrcs with _ | ⟨ssrc, ssrcs⟩
    · exact .throw _ _
    · rcases rtxSsrc with _ | ⟨fidSsrc, rest⟩
      · exact .throw _ _
      · exact .pure rfl

theorem newStream_spoiled (streams : List Stream) (stream : Stream) :
    Replays (newStream known streams true false stream) (newStream known' streams true false stream)
      fun p p' => Shrunk p p' ∧ ¬p'.ssrcs.Nodup := by
  rw [newStream, newStream, generateCname_shrunk h]
  refine .bind (keepsSupply_generateCname _ _ _).replays ?_
  rintro cname _ rfl
  refine .bind (R := fun ssrcs ssrcs' => ssrcs = ssrcs' ∧ Fresh (ssrcsOf known) ssrcs)
    (generateSsrcs_replays fun drawn hlength hfresh =>
      ⟨drawn, hlength, hfresh.mono (ssrcsOf_shrunk h), rfl, hfresh⟩) ?_
  rintro ssrcs _ ⟨rfl, hfresh⟩
  rcases ssrcs with _ | ⟨ssrc, ssrcs⟩
  · exact .bind (generateSsrcs_shrunk h 1) fun _ _ _ => .throw _ _
  · have hssrc : Fresh (ssrcsOf known') [ssrc] :=
      ⟨List.nodup_singleton ssrc, fun x hx => List.mem_singleton.mp hx ▸
        (hfresh.mono (ssrcsOf_shrunk h)).2 ssrc List.mem_cons_self⟩
    refine .bind (R := fun _ rtxSsrc' => rtxSsrc' = [ssrc])
      (generateSsrcs_replays fun _ _ _ => ⟨[ssrc], rfl, hssrc, rfl⟩) ?_
    rintro rtxSsrc _ rfl
    rcases rtxSsrc with _ | ⟨fidSsrc, rest⟩
    · exact .throw _ _
    · refine .pure ?_
      rw [addFidSsrc_of_mem List.mem_cons_self, addFidSsrc_of_mem List.mem_cons_self]
      refine ⟨⟨rfl, rfl, rfl, fun x hx => ?_⟩, fun hnodup => ?_⟩
      · rcases List.mem_append.mp hx with hx | hx
        · exact List.mem_append_left _ hx
        · rw [List.mem_singleton.mp hx]
          exact List.mem_append_left _ List.mem_cons_self
      · exact List.disjoint_of_nodup_append hnodup List.mem_cons_self (List.mem_singleton_self ssrc)

theorem addStreams_replays (mediaType : MediaType) (streams : List Stream) (rtx sctp : Bool)
    (requested : List Stream) :
    Replays (addStreams mediaType streams rtx sctp requested known) (addStreams mediaType streams rtx sctp requested known')
      fun added added' => List.Forall₂ Shrunk added.2 added'.2 := by
  induction requested generalizing known known' with
  | nil => exact .pure h
  | cons stream requested ih =>
    rw [addStreams, addStreams]
    split_ifs
    · exact ih h
    · have hrel := getStreamByIds_shrunk h [] stream.id
      generalize getStreamByIds known [] stream.id = found at hrel ⊢
      generalize getStreamByIds known' [] stream.id = found' at hrel ⊢
      cases hrel with
      | some hp => exact .bind (ih h) fun _ _ hadded => .pure hadded
      | none =>
        refine .bind (newStream_replays h streams rtx sctp stream) ?_
        rintro p _ rfl
        exact .bind (ih (List.rel_append h (.cons (.refl p) .nil))) fun _ _ hadded => .pure hadded

/-- The streams of a part repeat a source for a suitable random sequence. -/
theorem addStreams_spoiled (mediaType : MediaType) (streams requested : List Stream)
    (hnew : addsNew mediaType requested known = true) :
    Replays (addStreams mediaType streams true false requested known)
      (addStreams mediaType streams true false requested known')
      fun added added' => List.Forall₂ Shrunk added.2 added'.2 ∧ ¬(ssrcsOf added'.1).Nodup := by
  induction requested with
  | nil => cases hnew
  | cons stream requested ih =>
    rw [addsNew, List.any_cons, Bool.or_eq_true] at hnew
    rw [addStreams, addStreams]
    split_ifs with htype
    · refine ih (hnew.resolve_left fun hfirst => htype ?_)
      exact of_decide_eq_true (Bool.and_eq_true_iff.mp hfirst).1
    · have hrel := getStreamByIds_shrunk h [] stream.id
      generalize getStreamByIds known [] stream.id = found at hrel hnew ⊢
      generalize getStreamByIds known' [] stream.id = found' at hrel ⊢
      cases hrel with
      | some hp =>
        refine .bind (ih (hnew.resolve_left (by simp))) fun _ _ hadded => .pure ⟨hadded.1, fun hnodup => ?_⟩
        exact hadded.2 (List.nodup_append.mp hnodup).2.1
      | none =>
        refine .bind (newStream_spoiled h streams stream) ?_
        rintro p p' ⟨hp, hspoiled⟩
        refine .bind (addStreams_replays (List.rel_append h (.cons hp .nil)) mediaType streams true false requested)
          fun _ _ hadded => .pure ⟨hadded, fun hnodup => ?_⟩
        exact hspoiled (List.nodup_append.mp hnodup).1

end Replays

/-! ## Legacy streams -/

section Legacy

variable {known known' : List StreamParams} {rtx : Bool} {p : StreamParams} {random random' : Random}

theorem addLegacyStream_spec (h : addLegacyStream known rtx false random = .ok (p, random')) :
    Fresh (ssrcsOf known) p.ssrcs ∧ p.ssrcs ≠ [] := by
  rw [addLegacyStream, bind_eq_ok] at h
  obtain ⟨ssrcs, random₁, hssrcs, h⟩ := h
  obtain ⟨drawn, rfl, hlength, hfresh, -⟩ := generateSsrcs_spec hssrcs
  rw [List.append_nil] at hfresh
  cases rtx with
  | false =>
    obtain ⟨ssrc, rfl⟩ := List.length_eq_one_iff.mp hlength
    obtain ⟨rfl, -⟩ := Prod.mk.inj (pure_eq_ok.mp h)
    exact ⟨hfresh, List.cons_ne_nil _ _⟩
  | true =>
    obtain ⟨ssrc, fidSsrc, rfl⟩ := List.length_eq_two.mp hlength
    obtain ⟨rfl, -⟩ := Prod.mk.inj (pure_eq_ok.mp h)
    rw [addFidSsrc_of_mem (List.mem_singleton_self ssrc)]
    exact ⟨hfresh, List.cons_ne_nil _ _⟩

theorem addLegacyStream_replays (h : List.Forall₂ Shrunk known known') (rtx sctp : Bool) :
    Replays (addLegacyStream known rtx sctp) (addLegacyStream known' rtx sctp) Eq := by
  refine .bind (generateIds_replays h sctp _) ?_
  rintro ssrcs _ rfl
  cases rtx <;> rcases ssrcs with _ | ⟨ssrc, _ | ⟨fidSsrc, ssrcs⟩⟩
  · exact .throw _ _
  · exact .pure rfl
  · exact .pure rfl
  · exact .throw _ _
  · exact .throw _ _
  · exact .pure rfl

theorem addLegacyStream_spoiled (h : List.Forall₂ Shrunk known known') (rtx : Bool) {ssrc : Uint32} (hne : ssrc ≠ 0)
    (hnot : ssrc ∉ ssrcsOf known') :
    Replays (addLegacyStream known rtx false) (addLegacyStream known' rtx false) fun _ p' => ssrc ∈ p'.ssrcs := by
  cases rtx with
  | false =>
    refine .bind (R := fun drawn drawn' => drawn' = [ssrc] ∧ ∃ x, drawn = [x])
      (generateSsrcs_replays fun drawn hlength _ => ⟨[ssrc], rfl, ⟨List.nodup_singleton ssrc, fun x hx =>
        List.mem_singleton.mp hx ▸ ⟨hne, hnot⟩⟩, rfl, List.length_eq_one_iff.mp hlength⟩) ?_
    rintro _ _ ⟨rfl, x, rfl⟩
    exact .pure (List.mem_singleton_self ssrc)
  | true =>
    refine .bind (R := fun drawn drawn' => ∃ x y z, drawn = [x, y] ∧ drawn' = [ssrc, z])
      (generateSsrcs_replays fun drawn hlength hfresh => ?_) ?_
    · obtain ⟨x, y, rfl⟩ := List.length_eq_two.mp hlength
      -- One of the two SSRCs is another one.
      obtain ⟨z, hz, hother⟩ : ∃ z ∈ [x, y], z ≠ ssrc := by
        by_cases hx : x = ssrc
        · refine ⟨y, List.mem_cons_of_mem _ (List.mem_singleton_self y), fun hy => ?_⟩
          exact (List.nodup_cons.mp hfresh.1).1 (hx.trans hy.symm ▸ List.mem_singleton_self y)
        · exact ⟨x, List.mem_cons_self, hx⟩
      refine ⟨[ssrc, z], rfl, ⟨?_, ?_⟩, x, y, z, rfl, rfl⟩
      · simpa using hother.symm
      · rintro w hw
        rcases List.mem_cons.mp hw with rfl | hw
        · exact ⟨hne, hnot⟩
        · exact List.mem_singleton.mp hw ▸ (hfresh.mono (ssrcsOf_shrunk h)).2 z hz
    · rintro _ _ ⟨x, y, z, rfl, rfl⟩
      refine .pure ?_
      rw [addFidSsrc_of_mem (List.mem_singleton_self ssrc)]
      exact List.mem_append_left _ (List.mem_singleton_self ssrc)

end Legacy

end Libjingle.Media
