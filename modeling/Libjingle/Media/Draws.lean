import Libjingle.Media.Streams

/-!
# What is drawn for streams

* `Shrunk`: a stream with fewer SSRCs. `addStreams_replays`: with such streams the same ones can be added.
* **`addStreams_spoiled`**: where RTX is used, a new stream can be given one SSRC twice.
-/

variable {ssrc : Uint32}

namespace Libjingle.Media

open Lib

/-! ## Ids -/

/-- All SSRCs of streams. -/
def ssrcsOf (params : List StreamParams) : List Uint32 := params.flatMap (·.ssrcs)

theorem mem_ssrcsOf {params : List StreamParams} :
    ssrc ∈ ssrcsOf params ↔ ∃ p ∈ params, ssrc ∈ p.ssrcs := List.mem_flatMap

theorem getStreamBySsrc_isNone {params : List StreamParams} (h : ssrc ≠ 0) :
    (getStreamBySsrc params ssrc).isNone = true ↔ ssrc ∉ ssrcsOf params := by
  have hmatch : ∀ p : StreamParams, StreamSelector.isMatch { ssrc := ssrc } p = decide (ssrc ∈ p.ssrcs) :=
    fun p => if_neg h
  simp only [getStreamBySsrc, getStream, Option.isNone_iff_eq_none, List.find?_eq_none, hmatch, decide_eq_true_eq, mem_ssrcsOf, not_exists, not_and]

theorem getStreamByIds_cons (p : StreamParams) (params : List StreamParams) (groupid id : List Uint8) :
    getStreamByIds (p :: params) groupid id =
      if p.groupid = groupid ∧ p.id = id then some p else getStreamByIds params groupid id := by
  rw [getStreamByIds, getStreamByIds, getStream, getStream, List.find?_cons]
  by_cases h : p.groupid = groupid ∧ p.id = id
  · rw [if_pos h, show StreamSelector.isMatch _ p = true from by simp [StreamSelector.isMatch, h]]
  · rw [if_neg h, show StreamSelector.isMatch _ p = false from by simpa [StreamSelector.isMatch] using h]

theorem getStreamByIds_some {params : List StreamParams} {groupid id : List Uint8} {p : StreamParams}
    (h : getStreamByIds params groupid id = some p) : p ∈ params ∧ p.groupid = groupid ∧ p.id = id :=
  ⟨List.mem_of_find?_eq_some h, by simpa [StreamSelector.isMatch] using List.find?_some h⟩

theorem getStreamByIds_append {params : List StreamParams} {groupid id : List Uint8} {p : StreamParams}
    (h : getStreamByIds params groupid id = some p) (more : List StreamParams) :
    getStreamByIds (params ++ more) groupid id = some p := by
  rw [getStreamByIds, getStream, List.find?_append]
  exact (Option.or_of_isSome (Option.isSome_of_eq_some h)).trans h

theorem drawId_spec {accepts : Uint32 → Bool} {random random' : Random}
    (h : drawId accepts random = .ok (ssrc, random')) :
    ssrc ≠ 0 ∧ accepts ssrc = true ∧ random'.strings = random.strings := by
  have hfirst : ∀ {ids : List Uint32} {r : Uint32 × List Uint32}, firstAccepted accepts ids = .ok r →
      r.1 ≠ 0 ∧ accepts r.1 = true := by
    intro ids
    induction ids with
    | nil => exact fun h => by cases h
    | cons id ids ih =>
      intro r h
      rw [firstAccepted] at h
      split_ifs at h with haccepts
      · obtain rfl := Except.ok.inj h
        exact haccepts
      · exact ih h
  rw [drawId] at h
  cases hr : firstAccepted accepts random.ids with
  | error e =>
    rw [hr] at h
    cases h
  | ok r =>
    rw [hr] at h
    obtain ⟨rfl, rfl⟩ := Prod.mk.inj (Except.ok.inj h)
    exact ⟨(hfirst hr).1, (hfirst hr).2, rfl⟩

theorem drawId_run {accepts : Uint32 → Bool} (h : ssrc ≠ 0) (haccepts : accepts ssrc = true)
    (rest : List Uint32) (strings : List (Option (List Uint8))) :
    drawId accepts ⟨ssrc :: rest, strings⟩ = .ok (ssrc, ⟨rest, strings⟩) := by
  rw [drawId, firstAccepted, if_pos ⟨h, haccepts⟩]
  rfl

/-! ## SSRCs that are drawn -/

def Fresh (known drawn : List Uint32) : Prop := drawn.Nodup ∧ ∀ ssrc ∈ drawn, ssrc ≠ 0 ∧ ssrc ∉ known

theorem Fresh.mono {known known' drawn : List Uint32} (h : Fresh known drawn) (hsub : known' ⊆ known) :
    Fresh known' drawn :=
  ⟨h.1, fun ssrc hmem => ⟨(h.2 ssrc hmem).1, fun hin => (h.2 ssrc hmem).2 (hsub hin)⟩⟩

theorem fresh_cons {known ssrcs drawn : List Uint32} :
    Fresh (known ++ ssrcs) (ssrc :: drawn) ↔
      ssrc ≠ 0 ∧ ssrc ∉ known ∧ ssrc ∉ ssrcs ∧ Fresh (known ++ (ssrcs ++ [ssrc])) drawn := by
  simp only [Fresh, List.nodup_cons, List.forall_mem_cons, List.mem_append, List.mem_singleton]
  constructor
  · rintro ⟨⟨hnot, hnodup⟩, ⟨hne, hknown⟩, h⟩
    refine ⟨hne, fun hin => hknown (.inl hin), fun hin => hknown (.inr hin), hnodup, fun x hx => ⟨(h x hx).1, ?_⟩⟩
    rintro (hin | hin | rfl)
    · exact (h x hx).2 (.inl hin)
    · exact (h x hx).2 (.inr hin)
    · exact hnot hx
  · rintro ⟨hne, hknown, hssrcs, hnodup, h⟩
    refine ⟨⟨fun hin => (h ssrc hin).2 (.inr (.inr rfl)), hnodup⟩, ⟨hne, fun hin => hin.elim hknown hssrcs⟩,
      fun x hx => ⟨(h x hx).1, ?_⟩⟩
    rintro (hin | hin)
    · exact (h x hx).2 (.inl hin)
    · exact (h x hx).2 (.inr (.inl hin))

variable {params params' : List StreamParams} {random random' : Random}

theorem generateSsrcs_spec {n : ℕ} {ssrcs drawn : List Uint32}
    (h : generateSsrcs params n ssrcs random = .ok (drawn, random')) :
    ∃ added, drawn = ssrcs ++ added ∧ added.length = n ∧ Fresh (ssrcsOf params ++ ssrcs) added ∧
      random'.strings = random.strings := by
  induction n generalizing ssrcs random with
  | zero =>
    obtain ⟨rfl, rfl⟩ := Prod.mk.inj (pure_eq_ok.mp h)
    exact ⟨[], (List.append_nil _).symm, rfl, ⟨List.nodup_nil, fun _ hin => absurd hin List.not_mem_nil⟩, rfl⟩
  | succ n ih =>
    rw [generateSsrcs, bind_eq_ok] at h
    obtain ⟨ssrc, random₁, hssrc, h⟩ := h
    obtain ⟨hne, haccepts, hstrings⟩ := drawId_spec hssrc
    rw [Bool.and_eq_true, getStreamBySsrc_isNone hne, Bool.not_eq_true', ← Bool.not_eq_true,
      List.contains_iff_mem] at haccepts
    obtain ⟨added, rfl, hlength, hfresh, hstrings'⟩ := ih h
    exact ⟨ssrc :: added, by rw [List.append_assoc]; rfl, congrArg (· + 1) hlength,
      fresh_cons.mpr ⟨hne, haccepts.1, haccepts.2, hfresh⟩, hstrings'.trans hstrings⟩

theorem generateSsrcs_run {ssrcs drawn : List Uint32} (h : Fresh (ssrcsOf params ++ ssrcs) drawn) (rest : List Uint32)
    (strings : List (Option (List Uint8))) : generateSsrcs params drawn.length ssrcs ⟨drawn ++ rest, strings⟩ =
      .ok (ssrcs ++ drawn, ⟨rest, strings⟩) := by
  induction drawn generalizing ssrcs with
  | nil =>
    rw [List.append_nil]
    rfl
  | cons ssrc drawn ih =>
    obtain ⟨hne, hknown, hssrcs, h⟩ := fresh_cons.mp h
    have haccepts : ((getStreamBySsrc params ssrc).isNone && !ssrcs.contains ssrc) = true := by
      rw [Bool.and_eq_true, getStreamBySsrc_isNone hne, Bool.not_eq_true', ← Bool.not_eq_true, List.contains_iff_mem]
      exact ⟨hknown, hssrcs⟩
    have hrest := ih h
    rw [List.append_assoc] at hrest
    exact bind_eq_ok.mpr ⟨ssrc, _, drawId_run hne haccepts _ _, hrest⟩

theorem generateSsrcs_replays {n n' : ℕ} {R : List Uint32 → List Uint32 → Prop}
    (h : ∀ drawn, drawn.length = n → Fresh (ssrcsOf params) drawn →
      ∃ drawn', drawn'.length = n' ∧ Fresh (ssrcsOf params') drawn' ∧ R drawn drawn') :
    Replays (generateSsrcs params n []) (generateSsrcs params' n' []) R := by
  intro s drawn s' hrun
  obtain ⟨added, rfl, hlength, hfresh, hstrings⟩ := generateSsrcs_spec hrun
  rw [List.append_nil] at hfresh
  obtain ⟨drawn', rfl, hfresh', hR⟩ := h _ hlength hfresh
  refine ⟨drawn', drawn', hR, fun rest => ?_⟩
  show generateSsrcs params' drawn'.length [] ⟨drawn' ++ rest, s.strings⟩ = .ok (drawn', ⟨rest, s'.strings⟩)
  rw [hstrings]
  exact @generateSsrcs_run params' [] drawn' (by rwa [List.append_nil]) rest s.strings

/-! ## Streams that are added -/

theorem addFidSsrc_of_mem {p : StreamParams} (h : ssrc ∈ p.ssrcs) (fidSsrc : Uint32) :
    p.addFidSsrc ssrc fidSsrc = { p with
      ssrcs := p.ssrcs ++ [fidSsrc]
      ssrcGroups := p.ssrcGroups ++ [⟨kFidSsrcGroupSemantics, [ssrc, fidSsrc]⟩] } := by
  rw [StreamParams.addFidSsrc, if_neg (not_not.mpr h)]

variable {streams requested : List Stream} {stream : Stream} {mediaType : MediaType} {rtx sctp : Bool}
  {known : List StreamParams} {p : StreamParams} {added : List StreamParams × List StreamParams}

/-- A new stream carries its id and draws fresh sources. -/
theorem newStream_spec (h : newStream known streams rtx sctp stream random = .ok (p, random')) :
    p.groupid = [] ∧ p.id = stream.id ∧ (rtx = false → sctp = false → Fresh (ssrcsOf known) p.ssrcs) := by
  rw [newStream, bind_eq_ok] at h
  obtain ⟨cname, random₁, -, h⟩ := h
  obtain ⟨ssrcs, random₂, hssrcs, h⟩ := bind_eq_ok.mp h
  cases rtx with
  | true =>
    obtain ⟨rtxSsrc, random₃, -, h⟩ := bind_eq_ok.mp h
    rcases ssrcs with _ | ⟨ssrc, ssrcs⟩
    · exact absurd h throw_ne_ok
    · rcases rtxSsrc with _ | ⟨fidSsrc, rest⟩
      · exact absurd h throw_ne_ok
      · obtain ⟨rfl, -⟩ := Prod.mk.inj (pure_eq_ok.mp h)
        rw [addFidSsrc_of_mem List.mem_cons_self]
        exact ⟨rfl, rfl, fun hfalse => absurd hfalse Bool.noConfusion⟩
  | false =>
    obtain ⟨rfl, -⟩ := Prod.mk.inj (pure_eq_ok.mp h)
    refine ⟨rfl, rfl, fun _ hsctp => ?_⟩
    rw [generateIds, hsctp] at hssrcs
    obtain ⟨drawn, rfl, -, hfresh, -⟩ := generateSsrcs_spec hssrcs
    rwa [List.append_nil] at hfresh

theorem addStreams_cons
    (h : addStreams mediaType streams rtx sctp (stream :: requested) known random = .ok (added, random')) :
    (stream.type ≠ mediaType ∧ addStreams mediaType streams rtx sctp requested known random = .ok (added, random')) ∨
      ∃ p known' rest random₁, stream.type = mediaType ∧ added = (p :: rest.1, rest.2) ∧
        addStreams mediaType streams rtx sctp requested known' random₁ = .ok (rest, random') ∧
        (getStreamByIds known [] stream.id = some p ∧ known' = known ∨
          getStreamByIds known [] stream.id = none ∧ known' = known ++ [p] ∧
            newStream known streams rtx sctp stream random = .ok (p, random₁)) := by
  rw [addStreams] at h
  split_ifs at h with htype
  · exact .inl ⟨htype, h⟩
  · refine .inr ?_
    rw [not_not] at htype
    cases hlookup : getStreamByIds known [] stream.id with
    | some p =>
      simp only [hlookup] at h
      obtain ⟨rest, random₁, hrest, h⟩ := bind_eq_ok.mp h
      obtain ⟨rfl, rfl⟩ := Prod.mk.inj (pure_eq_ok.mp h)
      exact ⟨p, known, rest, random, htype, rfl, hrest, .inl ⟨rfl, rfl⟩⟩
    | none =>
      simp only [hlookup] at h
      obtain ⟨p, random₁, hp, h⟩ := bind_eq_ok.mp h
      obtain ⟨rest, random₂, hrest, h⟩ := bind_eq_ok.mp h
      obtain ⟨rfl, rfl⟩ := Prod.mk.inj (pure_eq_ok.mp h)
      exact ⟨p, known ++ [p], rest, random₁, htype, rfl, hrest, .inr ⟨rfl, rfl, hp⟩⟩

def idsOfType (mediaType : MediaType) (streams : List Stream) : List (List Uint8) :=
  (streams.filter fun s => s.type = mediaType).map (·.id)

theorem idsOfType_cons (h : stream.type = mediaType) :
    idsOfType mediaType (stream :: requested) = stream.id :: idsOfType mediaType requested := by
  simp [idsOfType, h]

theorem idsOfType_cons_of_ne (h : stream.type ≠ mediaType) :
    idsOfType mediaType (stream :: requested) = idsOfType mediaType requested := by
  simp [idsOfType, h]

/-- What is added are streams that were asked for. -/
theorem addStreams_known (h : addStreams mediaType streams rtx sctp requested known random = .ok (added, random')) :
    ∃ new, added.2 = known ++ new ∧ ∀ p ∈ new, p.id ∈ idsOfType mediaType requested := by
  induction requested generalizing known random added with
  | nil =>
    obtain ⟨rfl, -⟩ := Prod.mk.inj (pure_eq_ok.mp h)
    exact ⟨[], (List.append_nil _).symm, fun _ hmem => absurd hmem List.not_mem_nil⟩
  | cons stream requested ih =>
    rcases addStreams_cons h with ⟨htype, h⟩ | ⟨p, known', rest, random₁, htype, rfl, hrest, hknown⟩
    · rw [idsOfType_cons_of_ne htype]
      exact ih h
    · obtain ⟨new, heq, hnew⟩ := ih hrest
      rw [idsOfType_cons htype]
      rcases hknown with ⟨-, rfl⟩ | ⟨-, rfl, hp⟩
      · exact ⟨new, heq, fun q hq => List.mem_cons_of_mem _ (hnew q hq)⟩
      · refine ⟨p :: new, by rw [heq, List.append_assoc]; rfl, fun q hq => ?_⟩
        rcases List.mem_cons.mp hq with rfl | hq
        · rw [(newStream_spec hp).2.1]
          exact List.mem_cons_self
        · exact List.mem_cons_of_mem _ (hnew q hq)

/-- A stream that was known before keeps its parameters. -/
theorem addStreams_kept (h : addStreams mediaType streams rtx sctp requested known random = .ok (added, random'))
    (hmem : stream ∈ requested) (htype : stream.type = mediaType)
    (hlookup : getStreamByIds known [] stream.id = some p) : getStreamByIds added.1 [] stream.id = some p := by
  induction requested generalizing known random added with
  | nil => cases hmem
  | cons first requested ih =>
    rcases addStreams_cons h with ⟨hother, h⟩ | ⟨q, known', rest, random₁, -, rfl, hrest, hknown⟩
    · refine ih h ?_ hlookup
      rcases List.mem_cons.mp hmem with rfl | hmem
      · exact absurd htype hother
      · exact hmem
    · rw [getStreamByIds_cons]
      have hlookup' : getStreamByIds known' [] stream.id = some p := by
        rcases hknown with ⟨-, rfl⟩ | ⟨-, rfl, -⟩
        · exact hlookup
        · exact getStreamByIds_append hlookup _
      have hq : q.groupid = [] ∧ q.id = first.id := by
        rcases hknown with ⟨hfound, -⟩ | ⟨-, -, hq⟩
        · exact (getStreamByIds_some hfound).2
        · exact ⟨(newStream_spec hq).1, (newStream_spec hq).2.1⟩
      by_cases hid : first.id = stream.id
      · rw [if_pos ⟨hq.1, hq.2.trans hid⟩]
        rcases hknown with ⟨hfound, -⟩ | ⟨hnone, -⟩
        · exact hfound.symm.trans (hid ▸ hlookup)
        · rw [hid, hlookup] at hnone
          cases hnone
      · rw [if_neg fun h => hid (hq.2.symm.trans h.2)]
        refine ih hrest ?_ hlookup'
        rcases List.mem_cons.mp hmem with rfl | hmem
        · exact absurd rfl hid
        · exact hmem

end Libjingle.Media
