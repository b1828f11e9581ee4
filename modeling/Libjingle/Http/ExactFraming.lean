import Libjingle.Http.Framing

/-!
# The framing of messages

Main result: **`exactlyFramed_iff`**.
-/

variable {rest bytes buf : List Uint8}

namespace Libjingle.Http

open Lib HttpParser

/-! ## What exact framing is -/

/-- The last `Content-Length` that was received. -/
def declaredLength (calls : List HttpCall) : Option (List Uint8) :=
  calls.foldl (fun declared c =>
    match c with
    | .header name value => if matchHeader name (text "Content-Length") then some value else declared
    | _ => declared) none

section Messages

variable (cb : Interface) (message : List Uint8)

def Reaches (p : HttpParser) (r : Received) (rest : List Uint8) : Prop :=
  (machine cb).Steps ⟨{}, {}, none⟩ message ⟨p, r, none⟩ rest

/-- The parser comes to a line, which does not end it. -/
def Reads (state : ParserState) (p : HttpParser) (r : Received) (line rest : List Uint8) : Prop :=
  Reaches cb message p r (line ++ 0x0A :: rest) ∧ p.state = state ∧ 0x0A ∉ line

def Chunked : Prop := ∃ p r rest, Reaches cb message p r rest ∧ p.state = .chunkSize

/-- **The body of a message is framed exactly.** -/
structure ExactlyFramed : Prop where
  sizes : ∀ p r line rest, Reads cb message .chunkSize p r line rest →
    (Accepts cb p r line ↔ (exactSize (trimRight line)).isSome = true)
  chunks : ∀ p r line bytes, Reads cb message .headers p r line bytes → trimRight line = [] → p.chunked = true →
    ChunkedBody bytes (({} : HttpParser).process cb {} message).received.body
      (({} : HttpParser).process cb {} message).config.outcome (({} : HttpParser).process cb {} message).rest
  lengths : ¬Chunked cb message → ∀ p r line rest value, Reads cb message .headers p r line rest →
    lengthValue (trimRight line) = some value → (Accepts cb p r line ↔ (exactLength value).isSome = true)
  content : ∀ p r line bytes value, Reads cb message .headers p r line bytes → trimRight line = [] →
    p.chunked = false → declaredLength r.calls = some value →
    (cb.processHeaderComplete r p.chunked p.dataSize).2.2 = p.dataSize →
    ∃ n, exactLength value = some n ∧ Delivers n bytes (({} : HttpParser).process cb {} message)

/-- No size, and no length of a message that is not chunked, is lenient. -/
structure Plain : Prop where
  sizes : ∀ p r line rest, Reads cb message .chunkSize p r line rest → ¬LenientSize (trimRight line)
  lengths : ¬Chunked cb message → ∀ p r line rest value, Reads cb message .headers p r line rest →
    lengthValue (trimRight line) = some value → ¬LenientLength value

end Messages

/-! ## Headers -/

section Headers

variable {cb : Interface} {p : HttpParser} {r : Received} {line : List Uint8} {message : List Uint8}

theorem step_cases {c c' : Config} (h : (machine cb).step c buf = some (c', rest)) :
    c.outcome = none ∧
      ((c.parser.state.isLine = true ∧ ∃ line, buf = line ++ 0x0A :: rest ∧ 0x0A ∉ line ∧ c' = c.line cb line) ∨
        c.parser.state.isLine = false ∧ (c'.outcome.isSome = true ∨ c.parser.chunked = true ∧ c'.parser.state = .chunkTerm ∨
          c'.parser.state = c.parser.state ∧ c'.parser.chunked = c.parser.chunked)) := by
  have h : Config.step cb c buf = some (c', rest) := h
  unfold Config.step at h
  split_ifs at h with hout hcomplete hline hzero hchunked
  · cases h
    exact ⟨Option.not_isSome_iff_eq_none.mp hout, .inr ⟨by rw [hcomplete]; rfl, .inl rfl⟩⟩
  · obtain ⟨⟨line, rest'⟩, hsplit, heq⟩ := Option.map_eq_some_iff.mp h
    obtain ⟨rfl, rfl⟩ := Prod.mk.inj heq
    obtain ⟨hbuf, hnot⟩ := splitLine_eq_some hsplit
    exact ⟨Option.not_isSome_iff_eq_none.mp hout, .inl ⟨hline, line, hbuf, hnot, rfl⟩⟩
  · cases h
    exact ⟨Option.not_isSome_iff_eq_none.mp hout, .inr ⟨Bool.eq_false_iff.mpr hline, .inr (.inl ⟨hchunked, rfl⟩)⟩⟩
  · cases h
    exact ⟨Option.not_isSome_iff_eq_none.mp hout, .inr ⟨Bool.eq_false_iff.mpr hline, .inl rfl⟩⟩
  · refine ⟨Option.not_isSome_iff_eq_none.mp hout, .inr ⟨Bool.eq_false_iff.mpr hline, .inr (.inr ?_)⟩⟩
    cases buf with
    | nil => cases h
    | cons b buf =>
      cases h
      refine ⟨afterData_state _ _, ?_⟩
      show (c.parser.afterData 1).chunked = _
      unfold afterData
      split_ifs <;> rfl

def ParserState.isHead : ParserState → Bool
  | .leader | .headers => true
  | _ => false

theorem processLine_behind (hstate : p.state.isHead = false) :
    (processLine cb p r line).parser.state.isHead = false := by
  unfold processLine
  split
  · next h =>
    rw [h] at hstate
    cases hstate
  · next h =>
    rw [h] at hstate
    cases hstate
  · split_ifs
    · dsimp only
      split_ifs
      · exact hstate
      · rfl
      · rfl
    · exact hstate
  · split_ifs
    · exact hstate
    · rfl
    · rfl
  · split_ifs <;> exact hstate
  · exact hstate
  · exact hstate

theorem steps_behind {c c' : Config} (h : (machine cb).Steps c buf c' rest)
    (hc : c.parser.state.isHead = false) : c'.outcome = none → c'.parser.state.isHead = false := by
  refine Incremental.Steps.invariant (m := machine cb)
    (P := fun c _ => c.outcome = none → c.parser.state.isHead = false) ?_ h fun _ => hc
  intro c buf c' rest hc hstep hout'
  obtain ⟨hout, ⟨-, line, -, -, rfl⟩ | ⟨-, hsome | ⟨-, hterm⟩ | ⟨hsame, -⟩⟩⟩ := step_cases hstep
  · exact processLine_behind (hc hout)
  · rw [hout'] at hsome
    cases hsome
  · rw [hterm]
    rfl
  · rw [hsame]
    exact hc hout

theorem steps_data_behind {c c' : Config} (h : (machine cb).Steps c buf c' rest)
    (hc : c.parser.state = .data ∧ c.parser.chunked = false) :
    c'.outcome = none → c'.parser.state = .data ∧ c'.parser.chunked = false := by
  refine Incremental.Steps.invariant (m := machine cb)
    (P := fun c _ => c.outcome = none → c.parser.state = .data ∧ c.parser.chunked = false) ?_ h fun _ => hc
  intro c buf c' rest hc hstep hout'
  obtain ⟨hout, ⟨hline, -⟩ | ⟨-, hsome | ⟨hchunked, -⟩ | ⟨hsame, hsame'⟩⟩⟩ := step_cases hstep
  · rw [(hc hout).1] at hline
    cases hline
  · rw [hout'] at hsome
    cases hsome
  · rw [(hc hout).2] at hchunked
    cases hchunked
  · rw [hsame, hsame']
    exact hc hout

theorem line_headerComplete (hcb : cb.Continues) (hstate : p.state = .headers) (hempty : trimRight line = []) :
    (⟨p, r, none⟩ : Config).line cb line =
      ⟨{ p with
        state := if p.chunked then .chunkSize else .data
        dataSize := (cb.processHeaderComplete r p.chunked p.dataSize).2.2 },
        r.call (.headerComplete p.chunked p.dataSize), none⟩ := by
  unfold Config.line processLine
  rw [hstate]
  dsimp only
  rw [if_neg (not_not.mpr hempty)]
  dsimp only
  rw [if_pos (hcb.headerComplete _ _ _)]

theorem applyHeader_dataSize {q : HttpParser} {name value : List Uint8} (h : p.applyHeader name value = some q)
    (hother : matchHeader name (text "Content-Length") = false) : q.dataSize = p.dataSize := by
  rw [applyHeader, if_neg (by rw [hother]; decide)] at h
  split_ifs at h <;> obtain rfl := Option.some.inj h <;> rfl

theorem declaredLength_leader (calls : List HttpCall) (line : List Uint8) :
    declaredLength (calls ++ [.leader line]) = declaredLength calls := by
  rw [declaredLength, List.foldl_append]
  rfl

theorem declaredLength_header (calls : List HttpCall) (name value : List Uint8) :
    declaredLength (calls ++ [.header name value]) =
      if matchHeader name (text "Content-Length") then some value else declaredLength calls := by
  rw [declaredLength, List.foldl_append]
  rfl

def DeclaredExactly (p : HttpParser) (r : Received) : Prop :=
  ∀ value, declaredLength r.calls = some value → ∃ n, exactLength value = some n ∧ p.dataSize = BitVec.ofNat 64 n

theorem reaches_head (hcb : cb.Continues) (h : Reaches cb message p r rest) (hhead : p.state.isHead = true) :
    r.body = [] ∧ (Plain cb message → ¬Chunked cb message → DeclaredExactly p r) := by
  have hinv := Incremental.Steps.invariant (m := machine cb)
    (P := fun c buf => (machine cb).Steps ⟨{}, {}, none⟩ message c buf ∧ (c.outcome = none →
      c.parser.state.isHead = true → c.received.body = [] ∧
        (Plain cb message → ¬Chunked cb message → DeclaredExactly c.parser c.received))) ?_ h
    ⟨.refl _ _, fun _ _ => ⟨rfl, fun _ _ _ h => nomatch h⟩⟩
  · exact hinv.2 rfl hhead
  rintro ⟨p, r, out⟩ buf c' rest ⟨hsteps, hc⟩ hstep
  refine ⟨hsteps.trans (.single hstep), fun hout' hhead' => ?_⟩
  obtain ⟨rfl, ⟨-, line, rfl, hnot, rfl⟩ | ⟨hline, hrest⟩⟩ := step_cases hstep
  · -- A line keeps the parser at the headers only if it is there.
    have hbefore : p.state.isHead = true := by
      by_contra hno
      have hbehind : (processLine cb p r (trimRight line)).parser.state.isHead = false :=
        processLine_behind (Bool.eq_false_iff.mpr hno)
      exact absurd (hhead'.symm.trans hbehind) (by decide)
    obtain ⟨hbody, hexact⟩ := hc rfl hbefore
    cases hstate : p.state with
    | leader =>
      have heq : (⟨p, r, none⟩ : Config).line cb line =
          ⟨{ p with state := .headers }, r.call (.leader (trimRight line)), none⟩ := by
        unfold Config.line processLine
        rw [hstate]
        dsimp only
        rw [if_pos (hcb.leader _ _)]
      rw [heq]
      refine ⟨hbody, fun hplain hnone value hvalue => ?_⟩
      have hvalue : declaredLength (r.calls ++ [.leader (trimRight line)]) = some value := hvalue
      rw [declaredLength_leader] at hvalue
      exact hexact hplain hnone value hvalue
    | headers =>
      by_cases hempty : trimRight line = []
      · rw [line_headerComplete hcb hstate hempty] at hhead'
        cases hchunked : p.chunked <;> rw [hchunked] at hhead' <;> cases hhead'
      rcases line_header (r := r) hcb hstate hempty with ⟨-, hout⟩ | ⟨name, s, q, hfound, hq, heq⟩
      · rw [hout] at hout'
        cases hout'
      rw [heq]
      refine ⟨hbody, fun hplain hnone value hvalue => ?_⟩
      have hvalue : declaredLength (r.calls ++ [.header name (s.dropWhile isspace)]) = some value := hvalue
      rw [declaredLength_header] at hvalue
      split_ifs at hvalue with hmatch
      · cases hvalue
        have hlength : lengthValue (trimRight line) = some (s.dropWhile isspace) := by
          rw [lengthValue, hfound, Option.bind_some, if_pos hmatch]
        have happly : p.applyHeader name (s.dropWhile isspace) = (scanUnsigned (s.dropWhile isspace)).map
            fun size => { p with dataSize := BitVec.ofNat 64 size } := if_pos hmatch
        obtain ⟨size, hsize, rfl⟩ := Option.map_eq_some_iff.mp (happly.symm.trans hq)
        rcases (scanUnsigned_accepts (head?_dropWhile_space s)).mp (by rw [hsize]; rfl) with hsome | hlenient
        · obtain ⟨n, hn⟩ := Option.isSome_iff_exists.mp hsome
          have hread := (exactLength_eq_some hn).2.2
          obtain rfl := Option.some.inj (hsize.symm.trans hread)
          exact ⟨size, hn, rfl⟩
        · exact absurd hlenient (hplain.lengths hnone p r line rest _ ⟨hsteps, hstate, hnot⟩ hlength)
      · obtain ⟨n, hn, hdata⟩ := hexact hplain hnone value hvalue
        exact ⟨n, hn, (applyHeader_dataSize hq (Bool.eq_false_iff.mpr hmatch)).trans hdata⟩
    | _ => rw [hstate] at hbefore; cases hbefore
  · have hdata : p.state.isHead = false := by
      revert hline
      show p.state.isLine = false → _
      cases p.state <;> decide
    rcases hrest with hsome | ⟨-, hterm⟩ | ⟨hsame, -⟩
    · rw [hout'] at hsome
      cases hsome
    · rw [hterm] at hhead'
      cases hhead'
    · rw [hsame] at hhead'
      exact absurd (hhead'.symm.trans hdata) (by decide)

end Headers

/-! ## Messages -/

section Main

variable {cb : Interface} {p : HttpParser} {r : Received} {line : List Uint8} {message : List Uint8}

theorem process_of_headers (hcb : cb.Continues) (h : Reads cb message .headers p r line bytes)
    (hempty : trimRight line = []) :
    (({} : HttpParser).process cb {} message).drained = (machine cb).drain ⟨{ p with
      state := if p.chunked then .chunkSize else .data
      dataSize := (cb.processHeaderComplete r p.chunked p.dataSize).2.2 },
      r.call (.headerComplete p.chunked p.dataSize), none⟩ bytes := by
  obtain ⟨hreach, hstate, hnot⟩ := h
  have hstep := step_splits cb (p := p) r (by rw [hstate]; rfl) hnot bytes
  rw [← process_drain hcb, Incremental.drain_of_steps hreach, Incremental.drain_some hstep,
    line_headerComplete hcb hstate hempty]

theorem not_chunked (hcb : cb.Continues) (h : Reads cb message .headers p r line bytes)
    (hempty : trimRight line = []) (hchunked : p.chunked = false) : ¬Chunked cb message := by
  obtain ⟨hreach, hstate, hnot⟩ := h
  rintro ⟨q, r', rest, hreach', hstate'⟩
  have hstep := step_splits cb (p := p) r (by rw [hstate]; rfl) hnot bytes
  rcases hreach.linear hreach' with hmore | hmore
  · cases hmore with
    | refl =>
      rw [hstate] at hstate'
      cases hstate'
    | step hfirst hmore =>
      obtain ⟨rfl, rfl⟩ := Prod.mk.inj (Option.some.inj (hstep.symm.trans hfirst))
      rw [line_headerComplete hcb hstate hempty, hchunked] at hmore
      have hdata := steps_data_behind hmore ⟨rfl, rfl⟩ rfl
      rw [hstate'] at hdata
      exact absurd hdata.1 (by decide)
  · have hbehind := steps_behind hmore (by rw [hstate']; rfl) rfl
    rw [hstate] at hbehind
    cases hbehind

theorem delivers_of_drain {g : Processed} {n : ℕ} (hstate : p.state = .data)
    (hchunked : p.chunked = false) (hsize : p.dataSize = BitVec.ofNat 64 n) (hn : n < sizeUnknown.toNat)
    (hbody : r.body = []) (hg : g.drained = (machine cb).drain ⟨p, r, none⟩ bytes) : Delivers n bytes g := by
  have hconfig : g.config = ((machine cb).drain ⟨p, r, none⟩ bytes).1 := congrArg Prod.fst hg
  have hrest : g.rest = ((machine cb).drain ⟨p, r, none⟩ bytes).2 := congrArg Prod.snd hg
  have hreceived : g.received.body = g.config.received.body := rfl
  rw [Delivers, hreceived, hconfig, hrest]
  rcases lt_or_ge bytes.length n with hshort | hlong
  · obtain ⟨q, hdrain⟩ := drain_short cb r hstate hsize hn hshort
    rw [hdrain, if_neg (not_le.mpr hshort), List.take_of_length_le hshort.le]
    exact ⟨by rw [hbody]; rfl, rfl, rfl⟩
  · have hlength : (bytes.take n).length = n := List.length_take_of_le hlong
    have hsteps : (machine cb).Steps ⟨p, r, none⟩ (bytes.take n ++ bytes.drop n) _ _ :=
      steps_known cb r hstate (by rw [hlength, hsize]) (by rwa [hlength]) (bytes.drop n)
    rw [List.take_append_drop] at hsteps
    have hcomplete : (machine cb).step ⟨{ p with dataSize := 0 }, { r with body := r.body ++ bytes.take n }, none⟩
        (bytes.drop n) = some (⟨{ p with dataSize := 0 }, { r with body := r.body ++ bytes.take n }, some .none⟩,
          bytes.drop n) := by
      rw [step_state cb (p := { p with dataSize := 0 }) _ _ hstate]
      simp only [hchunked, if_true, Bool.false_eq_true, if_false]
    rw [Incremental.drain_of_steps (hsteps.trans (.single hcomplete)), drain_outcome, if_pos hlong]
    exact ⟨by rw [hbody]; rfl, rfl, rfl⟩

/-- **A message is framed exactly** iff no size or length that counts is lenient. -/
theorem exactlyFramed_iff (hcb : cb.Continues) (message : List Uint8) : ExactlyFramed cb message ↔ Plain cb message := by
  constructor
  · intro h
    refine ⟨fun p r line rest hreads hlenient => ?_, fun hnone p r line rest value hreads hvalue hlenient => ?_⟩
    · have hexact := (h.sizes p r line rest hreads).mp ((accepts_chunkSize hreads.2.1).mpr (.inr hlenient))
      rw [hlenient.not_exact] at hexact
      cases hexact
    · have hexact := (h.lengths hnone p r line rest value hreads hvalue).mp
        ((accepts_length hcb hreads.2.1 hvalue).mpr (.inr hlenient))
      rw [hlenient.not_exact] at hexact
      cases hexact
  · intro hplain
    refine ⟨fun p r line rest hreads => ?_, fun p r line bytes hreads hempty hchunked => ?_,
      fun hnone p r line rest value hreads hvalue => ?_,
      fun p r line bytes value hreads hempty hchunked hdeclared hkeeps => ?_⟩
    · rw [accepts_chunkSize hreads.2.1, or_iff_left (hplain.sizes p r line rest hreads)]
    · have hprocess := process_of_headers hcb hreads hempty
      obtain ⟨hbody, -⟩ := reaches_head hcb hreads.1 (by rw [hreads.2.1]; rfl)
      have hstep := step_splits cb (p := p) r (by rw [hreads.2.1]; rfl) hreads.2.2 bytes
      rw [line_headerComplete hcb hreads.2.1 hempty] at hstep
      have hfrom : PlainFrom cb _ bytes := fun q r' line' rest' hsteps hstate hnot =>
        hplain.sizes q r' line' rest' ⟨hreads.1.trans (.step hstep hsteps), hstate, hnot⟩
      obtain ⟨q, body, outcome, rest, hdrain, hgrammar⟩ := drain_chunked (p := { p with
        state := if p.chunked then .chunkSize else .data
        dataSize := (cb.processHeaderComplete r p.chunked p.dataSize).2.2 }) (by simp only [hchunked, if_true])
        hchunked hfrom
      rw [hdrain] at hprocess
      have hconfig : (({} : HttpParser).process cb {} message).config = _ := congrArg Prod.fst hprocess
      have hrest : (({} : HttpParser).process cb {} message).rest = _ := congrArg Prod.snd hprocess
      have hreceived : (({} : HttpParser).process cb {} message).received.body = body := by
        have hcall : (r.call (.headerComplete p.chunked p.dataSize)).body = [] := hbody
        rw [hcall, List.nil_append] at hconfig
        exact congrArg (fun c : Config => c.received.body) hconfig
      rw [hreceived, hconfig, hrest]
      exact hgrammar
    · rw [accepts_length hcb hreads.2.1 hvalue, or_iff_left (hplain.lengths hnone p r line rest value hreads hvalue)]
    · obtain ⟨hbody, hdeclares⟩ := reaches_head hcb hreads.1 (by rw [hreads.2.1]; rfl)
      obtain ⟨n, hn, hsize⟩ := hdeclares hplain (not_chunked hcb hreads hempty hchunked) value hdeclared
      have hlt := (exactLength_eq_some hn).2.1
      refine ⟨n, hn, delivers_of_drain (p := { p with
        state := if p.chunked then .chunkSize else .data
        dataSize := (cb.processHeaderComplete r p.chunked p.dataSize).2.2 }) ?_ hchunked ?_ ?_ ?_
        (process_of_headers hcb hreads hempty)⟩
      · simp only [hchunked, Bool.false_eq_true, if_false]
      · exact hkeeps.trans hsize
      · exact hlt.trans (by decide)
      · exact hbody

end Main

/-! ## A size with a sign -/

def signedMessage : List Uint8 := text "P\nTransfer-Encoding:chunked\n\n+0\n\n"

theorem signedMessage_reads :
    Reads (httpBase (fun _ => .none) none none) signedMessage .chunkSize ⟨.chunkSize, true, sizeUnknown⟩
      ⟨[.leader (text "P"), .header (text "Transfer-Encoding") (text "chunked"), .headerComplete true sizeUnknown], []⟩
      (text "+0") [0x0A] := by
  refine ⟨?_, rfl, by decide⟩
  exact .step (by rfl) (.step (by rfl) (.step (by rfl) (.refl _ _)))

/-- **`+0` is accepted** as the size of a chunk. -/
theorem signed_size_accepted : ¬ExactlyFramed (httpBase (fun _ => .none) none none) signedMessage := by
  intro h
  have haccepts := (h.sizes _ _ _ _ signedMessage_reads).mp (by rfl)
  exact absurd haccepts (by decide)

/-- The sign is lenient. -/
theorem exactlyFramed_iff_signed : ¬Plain (httpBase (fun _ => .none) none none) signedMessage := by
  intro h
  have hframed := (exactlyFramed_iff httpBase_continues signedMessage).mpr h
  have haccepts := (hframed.sizes _ _ _ _ signedMessage_reads).mp (by rfl)
  exact absurd haccepts (by decide)

end Libjingle.Http
