import Libjingle.Http.ExactFraming

/-!
# The parser and callbacks that block

Main results: **`process_progress`**, **`completes_message`**.
-/

variable {rest buf incoming part : List Uint8} {p : HttpParser} {c c' : Config}

namespace Libjingle.Http

open Lib HttpParser

/-- What `onHttpHeaderComplete` makes of `data_size`. -/
abbrev BodyLength : Type := Received → Bool → Uint64 → Uint64

section Silent

variable (len : BodyLength)

def silent : Interface :=
  httpBase (fun _ => .none) (some fun r chunked size => (.none, len r chunked size, false)) none

theorem silent_continues : (silent len).Continues where
  leader _ _ := rfl
  header _ _ _ := rfl
  headerComplete _ _ _ := rfl
  data _ _ := ⟨rfl, rfl⟩

def IsMessage (message : List Uint8) : Prop :=
  (({} : HttpParser).process (silent len) {} message).result = .prComplete ∧
    (({} : HttpParser).process (silent len) {} message).error = .none ∧
    (({} : HttpParser).process (silent len) {} message).rest = []

instance (message : List Uint8) : Decidable (IsMessage len message) := by
  unfold IsMessage
  infer_instance

def receivedOf (message : List Uint8) : Received :=
  (({} : HttpParser).process (silent len) {} message).received

end Silent

/-- Callbacks that take the messages, in as many calls as they like. -/
structure Interface.Cooperates (cb : Interface) (len : BodyLength) (messages : List (List Uint8)) : Prop where
  leader : ∀ message ∈ messages, ∀ line rest, splitLine message = some (line, rest) →
    ∀ r, (cb.processLeader r (trimRight line)).1 = .prContinue
  header : ∀ r name value, (cb.processHeader r name value).1 = .prContinue
  headerComplete : ∀ r chunked size, (cb.processHeaderComplete r chunked size).1 ≠ .prComplete ∧
    (cb.processHeaderComplete r chunked size).2.2 = len r chunked size
  data : ∀ r data, data ≠ [] → (cb.processData r data).1 = .prBlock ∨
    (cb.processData r data).1 = .prContinue ∧ 0 < (cb.processData r data).2.2 ∧
      (cb.processData r data).2.2 ≤ data.length

theorem silent_cooperates (len : BodyLength) (messages : List (List Uint8)) :
    (silent len).Cooperates len messages where
  leader _ _ _ _ _ _ := rfl
  header _ _ _ := rfl
  headerComplete _ _ _ := ⟨nofun, rfl⟩
  data _ _ hne := .inr ⟨rfl, List.length_pos_iff.mpr hne, Nat.le_refl _⟩

/-! ## Lines -/

theorem processLine_cooperates {cb : Interface} {len : BodyLength} {messages : List (List Uint8)}
    (hcb : cb.Cooperates len messages) (r : Received) (line : List Uint8)
    (hleader : p.state = .leader → (cb.processLeader r line).1 = .prContinue) :
    (processLine cb p r line).parser = (processLine (silent len) p r line).parser ∧
      (processLine cb p r line).received = (processLine (silent len) p r line).received ∧
      ((processLine cb p r line).result = (processLine (silent len) p r line).result ∧
          (processLine cb p r line).error.getD .none = (processLine (silent len) p r line).error.getD .none ∨
        (processLine cb p r line).result = .prBlock ∧
          (processLine (silent len) p r line).result = .prContinue) := by
  unfold processLine
  cases hstate : p.state with
  | leader =>
    have hcontinue := hleader hstate
    exact ⟨rfl, rfl, .inl ⟨hcontinue, cb.leader_error _ _ hcontinue⟩⟩
  | headers =>
    by_cases hline : line ≠ []
    · simp only [if_pos hline]
      cases strchrn 0x3A line with
      | none => exact ⟨rfl, rfl, .inl ⟨rfl, rfl⟩⟩
      | some found =>
        dsimp only
        cases p.applyHeader found.1 (found.2.dropWhile isspace) with
        | none => exact ⟨rfl, rfl, .inl ⟨rfl, rfl⟩⟩
        | some q =>
          have hcontinue := hcb.header r found.1 (found.2.dropWhile isspace)
          exact ⟨rfl, rfl, .inl ⟨hcontinue, cb.header_error _ _ _ hcontinue⟩⟩
    · simp only [if_neg hline]
      obtain ⟨hresult, hsize⟩ := hcb.headerComplete r p.chunked p.dataSize
      refine ⟨by rw [hsize]; rfl, trivial, ?_⟩
      cases hc : (cb.processHeaderComplete r p.chunked p.dataSize).1 with
      | prContinue => exact .inl ⟨rfl, cb.headerComplete_error _ _ _ hc⟩
      | prBlock => exact .inr ⟨rfl, rfl⟩
      | prComplete => exact absurd hc hresult
  | chunkSize => exact ⟨rfl, rfl, .inl ⟨rfl, rfl⟩⟩
  | chunkTerm => exact ⟨rfl, rfl, .inl ⟨rfl, rfl⟩⟩
  | trailers => exact ⟨rfl, rfl, .inl ⟨rfl, rfl⟩⟩
  | data => exact ⟨rfl, rfl, .inl ⟨rfl, rfl⟩⟩
  | complete => exact ⟨rfl, rfl, .inl ⟨rfl, rfl⟩⟩

theorem processLine_not_leader (cb : Interface) (p : HttpParser) (r : Received) (line : List Uint8) :
    (processLine cb p r line).parser.state ≠ .leader := by
  have hcond (P : Prop) [Decidable P] (s t : ParserState) (hs : s ≠ .leader) (ht : t ≠ .leader) :
      (if P then s else t) ≠ .leader := by
    split
    · exact hs
    · exact ht
  unfold processLine
  cases hstate : p.state with
  | leader => nofun
  | headers =>
    have hsame : p.state ≠ .leader := by
      rw [hstate]
      nofun
    by_cases hline : line ≠ []
    · simp only [if_pos hline]
      split
      · exact hsame
      · split
        · exact hsame
        · next hq =>
          rw [applyHeader_state hq]
          exact hsame
    · simp only [if_neg hline]
      exact hcond _ _ _ nofun nofun
  | chunkSize =>
    have hsame : p.state ≠ .leader := by
      rw [hstate]
      nofun
    dsimp only
    split
    · split
      · nofun
      · exact hcond _ _ _ nofun nofun
    · exact hsame
  | chunkTerm =>
    have hsame : p.state ≠ .leader := by
      rw [hstate]
      nofun
    dsimp only
    split
    · exact hsame
    · exact hcond _ _ _ nofun nofun
  | trailers =>
    dsimp only
    split <;> (rw [hstate]; nofun)
  | data => rw [hstate]; nofun
  | complete => rw [hstate]; nofun

/-! ## `Process` -/

def Progressed (len : BodyLength) (c : Config) (buf : List Uint8) (g : Processed) : Prop :=
  g.result = .prContinue ∧ (machine (silent len)).Steps c buf ⟨g.parser, g.received, none⟩ g.rest ∧
      (machine (silent len)).step ⟨g.parser, g.received, none⟩ g.rest = none ∨
    g.result = .prBlock ∧ (machine (silent len)).Steps c buf ⟨g.parser, g.received, none⟩ g.rest ∨
    g.result = .prComplete ∧ (machine (silent len)).Steps c buf ⟨g.parser, g.received, some g.error⟩ g.rest

theorem Progressed.of_steps {len : BodyLength} {g : Processed}
    (hsteps : (machine (silent len)).Steps c buf c' rest) (h : Progressed len c' rest g) :
    Progressed len c buf g := by
  rcases h with ⟨hresult, hmore, hstop⟩ | ⟨hresult, hmore⟩ | ⟨hresult, hmore⟩
  · exact .inl ⟨hresult, hsteps.trans hmore, hstop⟩
  · exact .inr (.inl ⟨hresult, hsteps.trans hmore⟩)
  · exact .inr (.inr ⟨hresult, hsteps.trans hmore⟩)

variable {cb : Interface} {len : BodyLength} {messages : List (List Uint8)}

def Leads (cb : Interface) (p : HttpParser) (buf : List Uint8) : Prop :=
  p.state = .leader → ∀ line rest, splitLine buf = some (line, rest) →
    ∀ r, (cb.processLeader r (trimRight line)).1 = .prContinue

theorem processLoop_progress (hcb : cb.Cooperates len messages) (fuel : ℕ) (p : HttpParser) (r : Received)
    (buf : List Uint8) (hstate : p.state ≠ .complete) (hleads : Leads cb p buf)
    (hfuel : 2 * buf.length + (⟨p, r, none⟩ : Config).rank < fuel) :
    Progressed len ⟨p, r, none⟩ buf (processLoop cb fuel .none p r buf) := by
  induction fuel generalizing p r buf with
  | zero => exact absurd hfuel (Nat.not_lt_zero _)
  | succ fuel ih =>
    rw [processLoop]
    split
    · rename_i hline
      have hstep := step_line (silent len) r buf hline
      cases hsplit : splitLine buf with
      | none =>
        rw [hsplit] at hstep
        exact .inl ⟨rfl, .refl _ _, hstep⟩
      | some split =>
        obtain ⟨line, rest⟩ := split
        have hlength := splitLine_length hsplit
        rw [hsplit, Option.map_some] at hstep
        obtain ⟨hparser, hreceived, hresult⟩ := processLine_cooperates hcb r (trimRight line)
          fun hleader => hleads hleader line rest hsplit r
        have hrank := rank_le ⟨(processLine (silent len) p r (trimRight line)).parser,
          (processLine (silent len) p r (trimRight line)).received, none⟩
        dsimp only [Config.line] at hstep ⊢
        rcases hresult with ⟨hresult, herror⟩ | ⟨hblock, hcontinue⟩
        · rcases processLine_result (silent_continues len) p r (trimRight line) with ⟨hgo, hnone⟩ | hcomplete
          · rw [hresult, hgo, if_neg (not_not.mpr rfl), herror, hnone, hparser, hreceived]
            rw [if_pos hgo] at hstep
            refine .of_steps (.single hstep) (ih _ _ _ (processLine_state p r _ hstate) ?_ (by omega))
            exact fun hleader => absurd hleader (processLine_not_leader (silent len) p r _)
          · have hne : (processLine (silent len) p r (trimRight line)).result ≠ .prContinue := by
              rw [hcomplete]
              decide
            rw [if_pos (by rwa [hresult])]
            rw [if_neg hne] at hstep
            refine .inr (.inr ⟨hresult.trans hcomplete, ?_⟩)
            rw [hparser, hreceived, herror]
            exact .single hstep
        · rw [if_pos (by rw [hblock]; decide)]
          rw [if_pos hcontinue] at hstep
          refine .inr (.inl ⟨hblock, ?_⟩)
          rw [hparser, hreceived]
          exact .single hstep
    · rename_i hline
      have hdata : p.state = .data := by
        cases h : p.state <;> simp_all [ParserState.isLine]
      have hstep := step_state (silent len) r buf hdata
      split
      · rename_i hzero
        rw [if_pos hzero] at hstep
        have hrank : (⟨p, r, none⟩ : Config).rank = 1 := by
          simp [Config.rank, hdata, hzero, ParserState.isLine]
        split
        · rename_i hchunked
          rw [if_pos hchunked] at hstep
          have hrank' : (⟨{ p with state := .chunkTerm }, r, none⟩ : Config).rank = 0 := rfl
          exact .of_steps (.single hstep)
            (ih _ _ _ (fun hstate => by cases hstate) (fun hleader => by cases hleader) (by omega))
        · rename_i hchunked
          rw [if_neg hchunked] at hstep
          exact .inr (.inr ⟨rfl, .single hstep⟩)
      · rename_i hzero
        rw [if_neg hzero] at hstep
        split
        · rename_i hempty
          subst hempty
          exact .inl ⟨rfl, .refl _ _, hstep⟩
        · rename_i hempty
          obtain ⟨k, hk, hpos, hle, hsize⟩ := available_spec hzero hempty
          have hlength : (buf.take k).length = k := List.length_take_of_le hle
          have hne : buf.take k ≠ [] := List.ne_nil_of_length_pos (by omega)
          dsimp only
          rw [hk]
          rcases hcb.data r (buf.take k) hne with hblock | ⟨hcontinue, hread, hread'⟩
          · rw [if_pos (by rw [hblock]; decide)]
            exact .inr (.inl ⟨hblock, .refl _ _⟩)
          · -- a part of the data is taken
            rw [hlength] at hread'
            generalize (cb.processData r (buf.take k)).2.2 = n at hread hread'
            have hlength' : (buf.take n).length = n := List.length_take_of_le (hread'.trans hle)
            have hsteps := steps_data (silent len) r hdata (buf.take n) (buf.drop n)
              (by rw [hlength']; exact hsize.imp_right hread'.trans)
            rw [List.take_append_drop, hlength'] at hsteps
            rw [hcontinue, if_neg (not_not.mpr rfl), cb.data_error _ _ hcontinue]
            refine .of_steps hsteps (ih _ _ _ (by rwa [afterData_state]) (fun hleader => ?_) ?_)
            · rw [afterData_state, hdata] at hleader
              cases hleader
            · have hrank := rank_le ⟨p.afterData n, { r with body := r.body ++ buf.take n }, none⟩
              rw [List.length_drop]
              omega

/-- **`Process` makes progress along the message**. -/
theorem process_progress (hcb : cb.Cooperates len messages) (r : Received)
    (hstate : p.state ≠ .complete) (hleads : Leads cb p buf) :
    Progressed len ⟨p, r, none⟩ buf (p.process cb r buf) := by
  rw [process, if_neg hstate]
  have hrank := rank_le ⟨p, r, none⟩
  exact processLoop_progress hcb _ p r buf hstate hleads (by omega)

/-! ## Messages in a stream -/

theorem step_state_cases (h : (machine cb).step c buf = some (c', rest)) :
    (∃ line, c'.parser = (processLine cb c.parser c.received line).parser) ∨ c'.parser.state = .chunkTerm ∨
      c.parser.state.isLine = false ∧ c'.parser.state = c.parser.state := by
  have h : Config.step cb c buf = some (c', rest) := h
  unfold Config.step at h
  split_ifs at h with hout hcomplete hline hzero hchunked
  · cases h
    exact .inr (.inr ⟨by rw [hcomplete]; rfl, rfl⟩)
  · obtain ⟨found, -, heq⟩ := Option.map_eq_some_iff.mp h
    cases heq
    exact .inl ⟨_, rfl⟩
  · cases h
    exact .inr (.inl rfl)
  · cases h
    exact .inr (.inr ⟨Bool.eq_false_iff.mpr hline, rfl⟩)
  · cases buf with
    | nil => cases h
    | cons b buf =>
      cases h
      exact .inr (.inr ⟨Bool.eq_false_iff.mpr hline, afterData_state _ _⟩)

theorem step_not_leader (h : (machine cb).step c buf = some (c', rest)) : c'.parser.state ≠ .leader := by
  rcases step_state_cases h with ⟨line, hparser⟩ | hterm | ⟨hline, hsame⟩
  · rw [hparser]
    exact processLine_not_leader cb _ _ _
  · rw [hterm]
    nofun
  · intro hleader
    rw [hsame.symm.trans hleader] at hline
    cases hline

theorem steps_not_complete (h : (machine cb).Steps c buf c' rest)
    (hc : c.parser.state ≠ .complete) : c'.parser.state ≠ .complete := by
  refine Incremental.Steps.invariant (m := machine cb) (P := fun c _ => c.parser.state ≠ .complete) ?_ h hc
  intro c buf c' rest hc hstep
  rcases step_state_cases hstep with ⟨line, hparser⟩ | hterm | ⟨-, hsame⟩
  · rw [hparser]
    exact processLine_state _ _ _ hc
  · rw [hterm]
    nofun
  · rwa [hsame]

theorem steps_leader (h : (machine cb).Steps c buf c' rest)
    (hleader : c'.parser.state = .leader) : c' = c ∧ rest = buf := by
  induction h with
  | refl => exact ⟨rfl, rfl⟩
  | step hfirst _ ih =>
    obtain ⟨rfl, -⟩ := ih hleader
    exact absurd hleader (step_not_leader hfirst)

theorem steps_nil (h : (machine cb).Steps ⟨{}, {}, none⟩ [] c rest) : c = ⟨{}, {}, none⟩ ∧ rest = [] := by
  cases h with
  | refl => exact ⟨rfl, rfl⟩
  | step hfirst _ => cases hfirst

theorem drain_message {message : List Uint8} (h : IsMessage len message) (more : List Uint8) :
    ∃ p, (machine (silent len)).drain ⟨{}, {}, none⟩ (message ++ more) =
      (⟨p, receivedOf len message, some .none⟩, more) := by
  obtain ⟨hresult, herror, hrest⟩ := h
  refine ⟨(({} : HttpParser).process (silent len) {} message).parser, ?_⟩
  have hdrain := process_drain (silent_continues len) {} {} message
  have hconfig : (({} : HttpParser).process (silent len) {} message).config =
      ⟨(({} : HttpParser).process (silent len) {} message).parser, receivedOf len message, some .none⟩ := by
    rw [Processed.config, hresult, if_neg (by decide), herror]
    rfl
  rw [Processed.drained, hconfig, hrest] at hdrain
  rw [Incremental.drain_append, hdrain, drain_outcome]
  rfl

/-- **A message is complete exactly at its end**. -/
theorem completes_message (hmessages : ∀ message ∈ messages, IsMessage len message) (hstream : messages.flatten = part ++ incoming)
    {r : Received} {err : HttpError}
    (h : (machine (silent len)).Steps ⟨{}, {}, none⟩ part ⟨p, r, some err⟩ rest) :
    ∃ message more, messages = message :: more ∧ r = receivedOf len message ∧ err = .none ∧
      more.flatten = rest ++ incoming := by
  cases messages with
  | nil =>
    obtain ⟨hpart, -⟩ := List.append_eq_nil_iff.mp hstream.symm
    rw [hpart] at h
    exact absurd (congrArg Config.outcome (steps_nil h).1) nofun
  | cons message more =>
    refine ⟨message, more, rfl, ?_⟩
    obtain ⟨q, hdrain⟩ := drain_message (hmessages message List.mem_cons_self) more.flatten
    have hsteps := Incremental.drain_of_steps (h.append incoming)
    rw [← hstream, List.flatten_cons, hdrain, drain_outcome] at hsteps
    obtain ⟨hconfig, hrest⟩ := Prod.mk.inj hsteps
    cases hconfig
    exact ⟨rfl, rfl, hrest⟩

theorem waits_for_message (hmessages : ∀ message ∈ messages, IsMessage len message) (hstream : messages.flatten = part ++ incoming)
    {r : Received}
    (h : (machine (silent len)).Steps ⟨{}, {}, none⟩ part ⟨p, r, none⟩ rest)
    (hstop : (machine (silent len)).step ⟨p, r, none⟩ rest = none) :
    ∀ message ∈ messages.head?, part.length < message.length := by
  cases messages with
  | nil => nofun
  | cons message more =>
    rintro _ ⟨⟩
    by_contra hlong
    -- the message is at the front of what was read
    have hfront : message <+: part := by
      have hwhole : message <+: part ++ incoming := by
        rw [← hstream, List.flatten_cons]
        exact List.prefix_append _ _
      exact List.prefix_of_prefix_length_le hwhole (List.prefix_append _ _) (by omega)
    obtain ⟨beyond, rfl⟩ := hfront
    obtain ⟨q, hdrain⟩ := drain_message (hmessages message List.mem_cons_self) beyond
    rw [Incremental.drain_of_steps h, Incremental.drain_none hstop] at hdrain
    exact absurd (congrArg (fun x => x.1.outcome) hdrain) nofun

theorem splitLine_message {message : List Uint8} (h : IsMessage len message) :
    ∃ line rest, splitLine message = some (line, rest) := by
  cases hsplit : splitLine message with
  | some found => exact ⟨found.1, found.2, rfl⟩
  | none =>
    obtain ⟨q, hdrain⟩ := drain_message h []
    have hstep := step_line (silent len) (p := {}) {} message rfl
    rw [hsplit] at hstep
    rw [List.append_nil, Incremental.drain_none hstep] at hdrain
    exact absurd (congrArg (fun x => x.1.outcome) hdrain) nofun

theorem leads_message {later : List (List Uint8)} (hcb : cb.Cooperates len messages)
    (hlater : ∀ message ∈ later, message ∈ messages) (hmessages : ∀ message ∈ later, IsMessage len message) (hstream : later.flatten = part ++ incoming)
    {r : Received} {outcome : Option HttpError}
    (h : (machine (silent len)).Steps ⟨{}, {}, none⟩ part ⟨p, r, outcome⟩ rest) : Leads cb p rest := by
  intro hleader line rest' hsplit
  obtain ⟨-, rfl⟩ := steps_leader h hleader
  have hwhole := splitLine_append hsplit incoming
  rw [← hstream] at hwhole
  cases later with
  | nil => cases hwhole
  | cons message more =>
    obtain ⟨first, beyond, hfirst⟩ := splitLine_message (hmessages message List.mem_cons_self)
    rw [List.flatten_cons, splitLine_append hfirst] at hwhole
    obtain ⟨rfl, -⟩ := Prod.mk.inj (Option.some.inj hwhole)
    exact hcb.leader message (hlater message List.mem_cons_self) first beyond hfirst

end Libjingle.Http
