import Libjingle.Http.Numbers

/-!
# Bodies and their grammar

Main result: **`drain_chunked`**.
-/

namespace Libjingle.Http

open Lib HttpParser

/-! ## Bodies -/

/-- Trailers, as far as they go: lines, up to an empty one. -/
inductive Trailers : (bytes : List Uint8) → (outcome : Option HttpError) → (rest : List Uint8) → Prop
  | unfinished {bytes : List Uint8} : 0x0A ∉ bytes → Trailers bytes none bytes
  | trailer {line rest left : List Uint8} {outcome : Option HttpError} : 0x0A ∉ line → trimRight line ≠ [] →
      Trailers rest outcome left → Trailers (line ++ 0x0A :: rest) outcome left
  | empty {line rest : List Uint8} : 0x0A ∉ line → trimRight line = [] →
      Trailers (line ++ 0x0A :: rest) (some .none) rest

/-- A chunked body: its data, whether it is complete or malformed, and what follows. -/
inductive ChunkedBody :
    (bytes body : List Uint8) → (outcome : Option HttpError) → (rest : List Uint8) → Prop
  | unfinished {bytes : List Uint8} : 0x0A ∉ bytes → ChunkedBody bytes [] none bytes
  | malformed {line rest : List Uint8} : 0x0A ∉ line → exactSize (trimRight line) = none →
      ChunkedBody (line ++ 0x0A :: rest) [] (some .protocol) rest
  | last {line rest left : List Uint8} {outcome : Option HttpError} : 0x0A ∉ line →
      exactSize (trimRight line) = some 0 → Trailers rest outcome left →
      ChunkedBody (line ++ 0x0A :: rest) [] outcome left
  | short {line data : List Uint8} {n : ℕ} : 0x0A ∉ line → exactSize (trimRight line) = some n → data.length < n →
      ChunkedBody (line ++ 0x0A :: data) data none []
  | unterminated {line data rest : List Uint8} : 0x0A ∉ line → exactSize (trimRight line) = some data.length →
      data ≠ [] → 0x0A ∉ rest → ChunkedBody (line ++ 0x0A :: (data ++ rest)) data none rest
  | malformedEnd {line data last rest : List Uint8} : 0x0A ∉ line → exactSize (trimRight line) = some data.length →
      data ≠ [] → 0x0A ∉ last → trimRight last ≠ [] →
      ChunkedBody (line ++ 0x0A :: (data ++ (last ++ 0x0A :: rest))) data (some .protocol) rest
  | chunk {line data last rest body left : List Uint8} {outcome : Option HttpError} : 0x0A ∉ line →
      exactSize (trimRight line) = some data.length → data ≠ [] → 0x0A ∉ last → trimRight last = [] →
      ChunkedBody rest body outcome left →
      ChunkedBody (line ++ 0x0A :: (data ++ (last ++ 0x0A :: rest))) (data ++ body) outcome left

def Delivers (n : ℕ) (bytes : List Uint8) (g : Processed) : Prop :=
  g.received.body = bytes.take n ∧
    if n ≤ bytes.length then g.config.outcome = some .none ∧ g.rest = bytes.drop n
    else g.config.outcome = none ∧ g.rest = []

def lengthValue (line : List Uint8) : Option (List Uint8) :=
  (strchrn 0x3A line).bind fun r =>
    if matchHeader r.1 (text "Content-Length") then some (r.2.dropWhile isspace) else none

def Accepts (cb : Interface) (p : HttpParser) (r : Received) (line : List Uint8) : Prop :=
  ((⟨p, r, none⟩ : Config).line cb line).outcome = none

/-! ## Lines -/

section Lines

variable {cb : Interface} {p : HttpParser} {r : Received} {buf line rest : List Uint8}

theorem splitLine_eq_none : splitLine buf = none ↔ 0x0A ∉ buf := by
  induction buf with
  | nil => exact ⟨fun _ => List.not_mem_nil, fun _ => rfl⟩
  | cons c s ih =>
    rw [splitLine, List.mem_cons, not_or]
    split_ifs with hc
    · exact ⟨fun h => h.elim, fun h => absurd hc.symm h.1⟩
    · rw [Option.map_eq_none_iff, ih]
      exact ⟨fun h => ⟨Ne.symm hc, h⟩, fun h => h.2⟩

theorem splitLine_eq_some (h : splitLine buf = some (line, rest)) : buf = line ++ 0x0A :: rest ∧ 0x0A ∉ line := by
  induction buf generalizing line with
  | nil => cases h
  | cons c s ih =>
    rw [splitLine] at h
    split_ifs at h with hc
    · cases h
      exact ⟨by rw [hc]; rfl, List.not_mem_nil⟩
    · obtain ⟨⟨line', rest'⟩, hs, heq⟩ := Option.map_eq_some_iff.mp h
      obtain ⟨rfl, rfl⟩ := Prod.mk.inj heq
      obtain ⟨rfl, hnot⟩ := ih hs
      exact ⟨rfl, fun hmem => (List.mem_cons.mp hmem).elim (fun h => hc h.symm) hnot⟩

theorem step_splits (cb : Interface) (r : Received) (hline : p.state.isLine = true) (hnot : 0x0A ∉ line)
    (rest : List Uint8) :
    (machine cb).step ⟨p, r, none⟩ (line ++ 0x0A :: rest) = some ((⟨p, r, none⟩ : Config).line cb line, rest) := by
  rw [step_line cb r _ hline, splitLine_of_notMem hnot]
  rfl

theorem drain_unfinished (cb : Interface) (r : Received) (hline : p.state.isLine = true) (hnot : 0x0A ∉ buf) :
    (machine cb).drain ⟨p, r, none⟩ buf = (⟨p, r, none⟩, buf) :=
  Incremental.drain_none (by rw [step_line cb r _ hline, splitLine_eq_none.mpr hnot]; rfl)

theorem line_cases (buf : List Uint8) : 0x0A ∉ buf ∨ ∃ line rest, buf = line ++ 0x0A :: rest ∧ 0x0A ∉ line := by
  cases h : splitLine buf with
  | none => exact .inl (splitLine_eq_none.mp h)
  | some l => exact .inr ⟨l.1, l.2, splitLine_eq_some h⟩

theorem line_chunkSize (hstate : p.state = .chunkSize) :
    (trimRight line ≠ [] ∧ (strtoul16 (trimRight line)).2 = [] ∧ (⟨p, r, none⟩ : Config).line cb line =
        ⟨{ p with
          dataSize := BitVec.ofNat 64 (strtoul16 (trimRight line)).1
          state := if BitVec.ofNat 64 (strtoul16 (trimRight line)).1 = 0 then .trailers else .data }, r, none⟩) ∨
      ¬(trimRight line ≠ [] ∧ (strtoul16 (trimRight line)).2 = []) ∧ ∃ q,
        (⟨p, r, none⟩ : Config).line cb line = ⟨q, r, some .protocol⟩ := by
  unfold Config.line processLine
  rw [hstate]
  dsimp only
  by_cases hne : trimRight line ≠ []
  · rw [if_pos hne]
    by_cases hend : (strtoul16 (trimRight line)).2 ≠ []
    · rw [if_pos hend]
      exact .inr ⟨fun h => hend h.2, _, rfl⟩
    · rw [if_neg hend]
      exact .inl ⟨hne, not_not.mp hend, rfl⟩
  · rw [if_neg hne]
    exact .inr ⟨fun h => hne h.1, _, rfl⟩

/-- When a chunk size is accepted. -/
theorem accepts_chunkSize (hstate : p.state = .chunkSize) :
    Accepts cb p r line ↔ (exactSize (trimRight line)).isSome = true ∨ LenientSize (trimRight line) := by
  rw [← strtoul16_accepts, Accepts]
  rcases @line_chunkSize cb p r line hstate with ⟨hne, hend, heq⟩ | ⟨hnot, q, heq⟩
  · rw [heq]
    exact ⟨fun _ => ⟨hne, hend⟩, fun _ => rfl⟩
  · rw [heq]
    exact ⟨nofun, fun h => absurd h hnot⟩

theorem head?_dropWhile_space (s : List Uint8) : ∀ ch ∈ (s.dropWhile isspace).head?, isspace ch = false := by
  intro ch hch
  have h := List.head?_dropWhile_not isspace s
  rw [hch] at h
  exact h

theorem line_header (hcb : cb.Continues) (hstate : p.state = .headers) (hne : trimRight line ≠ []) :
    (∀ name s, strchrn 0x3A (trimRight line) = some (name, s) → p.applyHeader name (s.dropWhile isspace) = none) ∧
        ((⟨p, r, none⟩ : Config).line cb line).outcome = some .protocol ∨
      ∃ name s q, strchrn 0x3A (trimRight line) = some (name, s) ∧
        p.applyHeader name (s.dropWhile isspace) = some q ∧
        (⟨p, r, none⟩ : Config).line cb line = ⟨q, r.call (.header name (s.dropWhile isspace)), none⟩ := by
  unfold Config.line processLine
  rw [hstate]
  dsimp only
  rw [if_pos hne]
  cases hfound : strchrn 0x3A (trimRight line) with
  | none => exact .inl ⟨nofun, rfl⟩
  | some found =>
    obtain ⟨name, s⟩ := found
    cases happly : p.applyHeader name (s.dropWhile isspace) with
    | none =>
      refine .inl ⟨fun name' s' heq => ?_, ?_⟩
      · cases heq
        exact happly
      · simp only [happly]
        rfl
    | some q =>
      refine .inr ⟨name, s, q, rfl, happly, ?_⟩
      simp only [happly, hcb.header, if_true]

/-- When a content length is accepted. -/
theorem accepts_length (hcb : cb.Continues) (hstate : p.state = .headers) {value : List Uint8}
    (hvalue : lengthValue (trimRight line) = some value) :
    Accepts cb p r line ↔ (exactLength value).isSome = true ∨ LenientLength value := by
  obtain ⟨⟨name, s⟩, hfound, hif⟩ := Option.bind_eq_some_iff.mp hvalue
  split_ifs at hif with hmatch
  cases hif
  have hne : trimRight line ≠ [] := fun hnil => by
    rw [hnil] at hfound
    cases hfound
  have happly : p.applyHeader name (s.dropWhile isspace) = (scanUnsigned (s.dropWhile isspace)).map
      fun size => { p with dataSize := BitVec.ofNat 64 size } := if_pos hmatch
  rw [← scanUnsigned_accepts (head?_dropWhile_space s), Accepts]
  rcases line_header (r := r) hcb hstate hne with ⟨hnone, hout⟩ | ⟨name', s', q, hfound', hq, heq⟩
  · have hscan := Option.map_eq_none_iff.mp (happly.symm.trans (hnone name s hfound))
    rw [hout, hscan]
    exact ⟨nofun, nofun⟩
  · obtain ⟨rfl, rfl⟩ := Prod.mk.inj (Option.some.inj (hfound.symm.trans hfound'))
    obtain ⟨size, hsize, -⟩ := Option.map_eq_some_iff.mp (happly.symm.trans hq)
    rw [heq, hsize]
    exact ⟨fun _ => rfl, fun _ => rfl⟩

end Lines

/-! ## Data -/

section Data

variable {cb : Interface} {p : HttpParser} {r : Received} {data rest : List Uint8} {n : ℕ}

theorem toNat_size (hn : n < sizeUnknown.toNat) : (BitVec.ofNat 64 n).toNat = n := by
  have hmax : sizeUnknown.toNat = 2 ^ 64 - 1 := rfl
  rw [BitVec.toNat_ofNat, Nat.mod_eq_of_lt (by omega)]

theorem known_of_lt (hn : n < sizeUnknown.toNat) : BitVec.ofNat 64 n ≠ sizeUnknown := fun h => by
  have hvalue := congrArg BitVec.toNat h
  rw [toNat_size hn] at hvalue
  omega

theorem steps_known (cb : Interface) (r : Received) (hstate : p.state = .data) (hsize : p.dataSize = BitVec.ofNat 64 data.length)
    (hn : data.length < sizeUnknown.toNat) (rest : List Uint8) :
    (machine cb).Steps ⟨p, r, none⟩ (data ++ rest)
      ⟨{ p with dataSize := 0 }, { r with body := r.body ++ data }, none⟩ rest := by
  have hsteps := steps_data cb r hstate data rest (.inr (by rw [hsize, toNat_size hn]))
  have hafter : p.afterData data.length = { p with dataSize := 0 } := by
    rw [afterData, hsize, if_pos (known_of_lt hn), BitVec.sub_self]
    rfl
  rwa [hafter] at hsteps

theorem drain_short (cb : Interface) (r : Received) (hstate : p.state = .data) (hsize : p.dataSize = BitVec.ofNat 64 n)
    (hn : n < sizeUnknown.toNat) (hlt : data.length < n) :
    ∃ q, (machine cb).drain ⟨p, r, none⟩ data = (⟨q, { r with body := r.body ++ data }, none⟩, []) := by
  have hsteps := steps_data cb r hstate data [] (.inr (by rw [hsize, toNat_size hn]; exact hlt.le))
  have hafter : p.afterData data.length = { p with dataSize := BitVec.ofNat 64 n - BitVec.ofNat 64 data.length } := by
    rw [afterData, hsize, if_pos (known_of_lt hn)]
  rw [List.append_nil] at hsteps
  have hne : BitVec.ofNat 64 n - BitVec.ofNat 64 data.length ≠ 0 := fun h => by
    have hvalue := congrArg BitVec.toNat (BitVec.sub_eq_iff_eq_add.mp h)
    have hzero : (0 : BitVec 64) + BitVec.ofNat 64 data.length = BitVec.ofNat 64 data.length := BitVec.zero_add _
    rw [hzero, toNat_size hn, toNat_size (hlt.trans hn)] at hvalue
    omega
  refine ⟨p.afterData data.length, ?_⟩
  rw [Incremental.drain_of_steps hsteps]
  refine Incremental.drain_none ?_
  rw [step_state cb _ _ (by rw [afterData_state, hstate]), hafter, if_neg hne]

end Data

/-! ## Chunks -/

section Chunks

variable {cb : Interface} {p : HttpParser} {r : Received} {line : List Uint8}

theorem line_trailers (cb : Interface) (r : Received) (hstate : p.state = .trailers) (line : List Uint8) :
    (⟨p, r, none⟩ : Config).line cb line = ⟨p, r, if trimRight line = [] then some .none else none⟩ := by
  unfold Config.line processLine
  rw [hstate]
  dsimp only
  by_cases hempty : trimRight line = []
  · rw [if_pos hempty, if_pos hempty]
    rfl
  · rw [if_neg hempty, if_neg hempty]
    rfl

theorem line_chunkTerm (cb : Interface) (r : Received) (hstate : p.state = .chunkTerm) (hchunked : p.chunked = true)
    (line : List Uint8) : (⟨p, r, none⟩ : Config).line cb line =
      if trimRight line = [] then ⟨{ p with state := .chunkSize }, r, none⟩ else ⟨p, r, some .protocol⟩ := by
  unfold Config.line processLine
  rw [hstate]
  dsimp only
  by_cases hempty : trimRight line = []
  · rw [if_neg (not_not.mpr hempty), if_pos hempty, hchunked]
    rfl
  · rw [if_pos hempty, if_neg hempty]
    rfl

theorem drain_trailers (cb : Interface) (r : Received) (hstate : p.state = .trailers) (bytes : List Uint8) :
    ∃ outcome rest, (machine cb).drain ⟨p, r, none⟩ bytes = (⟨p, r, outcome⟩, rest) ∧ Trailers bytes outcome rest := by
  have hline : p.state.isLine = true := by rw [hstate]; rfl
  induction h : bytes.length using Nat.strong_induction_on generalizing bytes with
  | _ k ih =>
    rcases line_cases bytes with hnot | ⟨line, rest, rfl, hnot⟩
    · exact ⟨none, bytes, drain_unfinished cb r hline hnot, .unfinished hnot⟩
    · rw [Incremental.drain_some (step_splits cb r hline hnot rest), line_trailers cb r hstate]
      split_ifs with hempty
      · exact ⟨some .none, rest, drain_outcome _ _ _ _, .empty hnot hempty⟩
      · have hlt : rest.length < k := by
          rw [← h, List.length_append, List.length_cons]
          omega
        obtain ⟨outcome, left, heq, htrailers⟩ := ih rest.length hlt rest rfl
        exact ⟨outcome, left, heq, .trailer hnot hempty htrailers⟩

/-- The sizes from here on are exact numbers or none. -/
def PlainFrom (cb : Interface) (c : Config) (bytes : List Uint8) : Prop :=
  ∀ p r line rest, (machine cb).Steps c bytes ⟨p, r, none⟩ (line ++ 0x0A :: rest) → p.state = .chunkSize →
    0x0A ∉ line → ¬LenientSize (trimRight line)

theorem PlainFrom.steps {c c' : Config} {bytes rest : List Uint8} (h : PlainFrom cb c bytes)
    (hsteps : (machine cb).Steps c bytes c' rest) : PlainFrom cb c' rest :=
  fun p r line left hmore => h p r line left (hsteps.trans hmore)

theorem line_exactSize (cb : Interface) (r : Received) (hstate : p.state = .chunkSize) {n : ℕ}
    (hn : exactSize (trimRight line) = some n) : (⟨p, r, none⟩ : Config).line cb line =
      ⟨{ p with dataSize := BitVec.ofNat 64 n, state := if n = 0 then .trailers else .data }, r, none⟩ := by
  obtain ⟨hhex, hlt, hread⟩ := exactSize_eq_some hn
  rcases @line_chunkSize cb p r line hstate with ⟨-, -, heq⟩ | ⟨hnot, -⟩
  · rw [heq, hread]
    have hzero : BitVec.ofNat 64 n = 0 ↔ n = 0 := by
      refine ⟨fun h => ?_, fun h => by rw [h]; rfl⟩
      have hvalue := congrArg BitVec.toNat h
      rw [toNat_size hlt] at hvalue
      exact hvalue
    simp only [hzero]
  · exact absurd ⟨hhex.1, by rw [hread]⟩ hnot

/-- A chunked body is read up to where it ends. -/
theorem drain_chunked (hstate : p.state = .chunkSize) (hchunked : p.chunked = true) {bytes : List Uint8}
    (hplain : PlainFrom cb ⟨p, r, none⟩ bytes) :
    ∃ q body outcome rest, (machine cb).drain ⟨p, r, none⟩ bytes =
      (⟨q, { r with body := r.body ++ body }, outcome⟩, rest) ∧ ChunkedBody bytes body outcome rest := by
  have hline {q : HttpParser} (h : q.state = .chunkSize) : q.state.isLine = true := by rw [h]; rfl
  have hnil (r : Received) : { r with body := r.body ++ [] } = r := by rw [List.append_nil]
  induction h : bytes.length using Nat.strong_induction_on generalizing p r bytes with
  | _ k ih =>
    rcases line_cases bytes with hnot | ⟨line, rest, rfl, hnot⟩
    · refine ⟨p, [], none, bytes, ?_, .unfinished hnot⟩
      rw [drain_unfinished cb r (hline hstate) hnot, hnil]
    have hstep := step_splits cb r (hline hstate) hnot rest
    rw [Incremental.drain_some hstep]
    cases hsize : exactSize (trimRight line) with
    | none =>
      have hreject : ¬(trimRight line ≠ [] ∧ (strtoul16 (trimRight line)).2 = []) := by
        rw [strtoul16_accepts, hsize]
        rintro (hsome | hlenient)
        · cases hsome
        · exact hplain p r line rest (.refl _ _) hstate hnot hlenient
      rcases @line_chunkSize cb p r line hstate with ⟨hne, hend, -⟩ | ⟨-, q, heq⟩
      · exact absurd ⟨hne, hend⟩ hreject
      · refine ⟨q, [], some .protocol, rest, ?_, .malformed hnot hsize⟩
        rw [heq, drain_outcome, hnil]
    | some n =>
      have hlt := (exactSize_eq_some hsize).2.1
      have heq := line_exactSize cb r hstate hsize
      rw [heq] at hstep ⊢
      rcases Nat.eq_zero_or_pos n with rfl | hpos
      · rw [if_pos rfl]
        obtain ⟨outcome, left, hdrain, htrailers⟩ := drain_trailers cb (p := { p with
          dataSize := BitVec.ofNat 64 0, state := .trailers }) r rfl rest
        refine ⟨⟨.trailers, p.chunked, BitVec.ofNat 64 0⟩, [], outcome, left, ?_, .last hnot hsize htrailers⟩
        rw [hdrain, hnil]
      rw [if_neg hpos.ne'] at hstep ⊢
      rcases lt_or_ge rest.length n with hshort | hlong
      · obtain ⟨q, hdrain⟩ := drain_short cb (p := { p with
          dataSize := BitVec.ofNat 64 n, state := .data }) r rfl rfl hlt hshort
        exact ⟨q, rest, none, [], hdrain, .short hnot hsize hshort⟩
      -- All data of the chunk is there, and the parser is before the line that ends it.
      obtain ⟨data, after, rfl, rfl⟩ : ∃ data after, rest = data ++ after ∧ data.length = n :=
        ⟨rest.take n, rest.drop n, (List.take_append_drop n rest).symm, List.length_take_of_le hlong⟩
      have hne : data ≠ [] := List.length_pos_iff.mp hpos
      have hdata := steps_known cb (p := { p with dataSize := BitVec.ofNat 64 data.length, state := .data }) r rfl
        rfl hlt after
      have hterm : (machine cb).step ⟨⟨.data, p.chunked, 0⟩, { r with body := r.body ++ data }, none⟩ after =
          some (⟨⟨.chunkTerm, p.chunked, 0⟩, { r with body := r.body ++ data }, none⟩, after) := by
        rw [step_state cb _ _ rfl]
        simp only [hchunked, if_true]
      have hsteps := hdata.trans (.single hterm)
      rw [Incremental.drain_of_steps hsteps]
      rcases line_cases after with hopen | ⟨last, after, rfl, hlast⟩
      · refine ⟨_, data, none, after, drain_unfinished cb _ rfl hopen, .unterminated hnot hsize hne hopen⟩
      have hend := step_splits cb (p := ⟨.chunkTerm, p.chunked, 0⟩) { r with body := r.body ++ data } rfl hlast after
      rw [Incremental.drain_some hend]
      rw [line_chunkTerm cb (p := ⟨.chunkTerm, p.chunked, 0⟩) _ rfl hchunked] at hend ⊢
      split_ifs at hend ⊢ with hempty
      · have hshorter : after.length < k := by
          rw [← h, List.length_append, List.length_cons, List.length_append, List.length_append, List.length_cons]
          omega
        have hall := Incremental.Steps.step hstep (hsteps.trans (.single hend))
        obtain ⟨q, body, outcome, left, hdrain, hbody⟩ := ih after.length hshorter (p := ⟨.chunkSize, p.chunked, 0⟩)
          (r := { r with body := r.body ++ data }) rfl hchunked (hplain.steps hall) rfl
        refine ⟨q, data ++ body, outcome, left, ?_, .chunk hnot hsize hne hlast hempty hbody⟩
        rw [hdrain, List.append_assoc]
      · exact ⟨_, data, some .protocol, after, drain_outcome _ _ _ _, .malformedEnd hnot hsize hne hlast hempty⟩

end Chunks

end Libjingle.Http
