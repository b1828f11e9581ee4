import Libjingle.Lib.Incremental
import Libjingle.Http.Parser

/-!
# The parser and the boundaries of packets

Main results: **`process_drain`**, **`present_flatten`**.
-/

namespace Libjingle.Http

open Lib HttpParser

/-! ## The machine -/

/-- A parser, what was received, and the error with `PR_COMPLETE`. -/
structure Config where
  parser : HttpParser
  received : Received
  outcome : Option HttpError := none
  deriving DecidableEq

variable (cb : Interface)

theorem splitLine_append {buf line rest : List Uint8} (h : splitLine buf = some (line, rest))
    (more : List Uint8) : splitLine (buf ++ more) = some (line, rest ++ more) := by
  induction buf generalizing line with
  | nil => cases h
  | cons c s ih =>
    rw [splitLine] at h
    rw [List.cons_append, splitLine]
    split at h
    · cases h
      rw [if_pos ‹_›]
    · rw [if_neg ‹_›]
      obtain ⟨r, hr, heq⟩ := Option.map_eq_some_iff.mp h
      cases heq
      rw [ih hr, Option.map_some]

theorem splitLine_length {buf line rest : List Uint8} (h : splitLine buf = some (line, rest)) :
    rest.length < buf.length := by
  induction buf generalizing line with
  | nil => cases h
  | cons c s ih =>
    rw [splitLine] at h
    split at h
    · cases h
      exact Nat.lt_succ_self _
    · obtain ⟨r, hr, heq⟩ := Option.map_eq_some_iff.mp h
      cases heq
      exact Nat.lt_succ_of_lt (ih hr)

def Config.line (c : Config) (line : List Uint8) : Config :=
  let l := processLine cb c.parser c.received (trimRight line)
  ⟨l.parser, l.received, if l.result = .prContinue then none else some (l.error.getD .none)⟩

def Config.byte (c : Config) (b : Uint8) : Config :=
  { c with
    parser := c.parser.afterData 1
    received := { c.received with body := c.received.body ++ [b] } }

/-- One step: a line, a byte, or a change of the state. -/
def Config.step (c : Config) (buf : List Uint8) : Option (Config × List Uint8) :=
  if c.outcome.isSome then none
  else if c.parser.state = .complete then some ({ c with outcome := some .none }, buf)
  else if c.parser.state.isLine then (splitLine buf).map fun r => (c.line cb r.1, r.2)
  else if c.parser.dataSize = 0 then
    if c.parser.chunked then some ({ c with parser := { c.parser with state := .chunkTerm } }, buf)
    else some ({ c with outcome := some .none }, buf)
  else
    match buf with
    | [] => none
    | b :: rest => some (c.byte b, rest)

def Config.rank (c : Config) : ℕ :=
  if c.outcome.isSome then 0
  else if c.parser.state = .complete then 1
  else if c.parser.state.isLine then 0
  else if c.parser.dataSize = 0 then 1
  else 0

variable {cb} {c c' : Config} {buf rest : List Uint8}

theorem Config.step_append (h : c.step cb buf = some (c', rest)) (more : List Uint8) :
    c.step cb (buf ++ more) = some (c', rest ++ more) := by
  unfold Config.step at h ⊢
  split at h
  · cases h
  · rename_i hout
    rw [if_neg hout]
    split at h
    · cases h
      rw [if_pos ‹_›]
    · rename_i hcomplete
      rw [if_neg hcomplete]
      split at h
      · rename_i hline
        rw [if_pos hline]
        obtain ⟨r, hr, heq⟩ := Option.map_eq_some_iff.mp h
        cases heq
        rw [splitLine_append hr more, Option.map_some]
      · rename_i hline
        rw [if_neg hline]
        split at h
        · rename_i hzero
          rw [if_pos hzero]
          split at h
          · cases h
            rw [if_pos ‹_›]
          · cases h
            rw [if_neg ‹_›]
        · rename_i hzero
          rw [if_neg hzero]
          split at h
          · cases h
          · cases h
            rfl

theorem Config.step_shrinks (h : c.step cb buf = some (c', rest)) :
    rest.length < buf.length ∨ rest.length = buf.length ∧ c'.rank < c.rank := by
  unfold Config.step at h
  split at h
  · cases h
  · rename_i hout
    split at h
    · rename_i hcomplete
      cases h
      exact .inr ⟨rfl, by simp [Config.rank, hout, hcomplete]⟩
    · rename_i hcomplete
      split at h
      · obtain ⟨r, hr, heq⟩ := Option.map_eq_some_iff.mp h
        cases heq
        exact .inl (splitLine_length hr)
      · rename_i hline
        split at h
        · rename_i hzero
          have hrank : c.rank = 1 := by
            rw [Config.rank, if_neg hout, if_neg hcomplete, if_neg hline, if_pos hzero]
          have hterm : ParserState.chunkTerm.isLine = true := rfl
          split at h <;> cases h <;> refine .inr ⟨rfl, ?_⟩
          · rw [hrank]
            simp [Config.rank, hout, hterm]
          · rw [hrank]
            exact Nat.zero_lt_one
        · split at h
          · cases h
          · cases h
            exact .inl (Nat.lt_succ_self _)

variable (cb) in
def machine : Incremental Config Uint8 where
  step := Config.step cb
  rank := Config.rank
  stable := Config.step_append
  shrinks := Config.step_shrinks

/-! ## `Process` -/

section Equations

variable (cb) {p : HttpParser} (r : Received) (buf : List Uint8)

theorem step_line (hline : p.state.isLine = true) : (machine cb).step ⟨p, r, none⟩ buf =
    (splitLine buf).map fun l => ((⟨p, r, none⟩ : Config).line cb l.1, l.2) := by
  have hcomplete : p.state ≠ .complete := fun h => by
    rw [h] at hline
    cases hline
  simp [machine, Config.step, hcomplete, hline]

theorem step_state (hstate : p.state = .data) : (machine cb).step ⟨p, r, none⟩ buf =
    if p.dataSize = 0 then
      if p.chunked then some (⟨{ p with state := .chunkTerm }, r, none⟩, buf)
      else some (⟨p, r, some .none⟩, buf)
    else
      match buf with
      | [] => none
      | b :: rest => some ((⟨p, r, none⟩ : Config).byte b, rest) := by
  have hline : ¬p.state.isLine = true := by
    rw [hstate]
    exact Bool.false_ne_true
  have hcomplete : p.state ≠ .complete := by
    rw [hstate]
    exact nofun
  simp only [machine, Config.step, Option.isSome_none, Bool.false_eq_true, if_false, hcomplete, hline]

end Equations

theorem drain_outcome (e : HttpError) (p : HttpParser) (r : Received) (buf : List Uint8) :
    (machine cb).drain ⟨p, r, some e⟩ buf = (⟨p, r, some e⟩, buf) :=
  Incremental.drain_none rfl

def HttpParser.Processed.config (g : Processed) : Config :=
  ⟨g.parser, g.received, if g.result = .prContinue then none else some g.error⟩

def HttpParser.Processed.drained (g : Processed) : Config × List Uint8 := (g.config, g.rest)

theorem processLine_result (hcb : cb.Continues) (p : HttpParser) (r : Received) (line : List Uint8) :
    (processLine cb p r line).result = .prContinue ∧
        (processLine cb p r line).error.getD .none = .none ∨
      (processLine cb p r line).result = .prComplete := by
  unfold processLine
  cases p.state with
  | leader => exact .inl ⟨hcb.leader _ _, cb.leader_error _ _ (hcb.leader _ _)⟩
  | headers =>
    dsimp only
    split
    · split
      · exact .inr rfl
      · split
        · exact .inr rfl
        · exact .inl ⟨hcb.header _ _ _, cb.header_error _ _ _ (hcb.header _ _ _)⟩
    · exact .inl ⟨hcb.headerComplete _ _ _, cb.headerComplete_error _ _ _ (hcb.headerComplete _ _ _)⟩
  | chunkSize =>
    dsimp only
    split
    · split
      · exact .inr rfl
      · exact .inl ⟨rfl, rfl⟩
    · exact .inr rfl
  | chunkTerm =>
    dsimp only
    split
    · exact .inr rfl
    · exact .inl ⟨rfl, rfl⟩
  | trailers =>
    dsimp only
    split
    · exact .inr rfl
    · exact .inl ⟨rfl, rfl⟩
  | data => exact .inl ⟨rfl, rfl⟩
  | complete => exact .inl ⟨rfl, rfl⟩

theorem applyHeader_state {p q : HttpParser} {name value : List Uint8}
    (h : p.applyHeader name value = some q) : q.state = p.state := by
  unfold applyHeader at h
  split at h
  · obtain ⟨size, -, rfl⟩ := Option.map_eq_some_iff.mp h
    rfl
  · split at h
    · split at h
      · cases h
        rfl
      · split at h <;> cases h
        rfl
    · cases h
      rfl

theorem afterData_succ (p : HttpParser) (hsize : p.dataSize ≠ 0) (k : ℕ) :
    (p.afterData 1).afterData k = p.afterData (k + 1) := by
  unfold afterData
  by_cases hknown : p.dataSize ≠ sizeUnknown
  · have hpred : p.dataSize - BitVec.ofNat 64 1 ≠ sizeUnknown := by
      intro h
      apply hsize
      apply BitVec.eq_of_toNat_eq
      have hunknown : sizeUnknown.toNat = 2 ^ 64 - 1 := rfl
      have hzero : (0 : Uint64).toNat = 0 := rfl
      have hnat := congrArg BitVec.toNat h
      have hlt := p.dataSize.isLt
      rw [hunknown, BitVec.toNat_sub, BitVec.toNat_ofNat] at hnat
      rw [hzero]
      omega
    rw [if_pos hknown, if_pos hpred, if_pos hknown]
    congr 1
    apply BitVec.eq_of_toNat_eq
    simp only [BitVec.toNat_sub, BitVec.toNat_ofNat]
    omega
  · rw [if_neg hknown, if_neg hknown, if_neg hknown]

theorem steps_data (cb : Interface) {p : HttpParser} (r : Received) (hstate : p.state = .data) (data rest : List Uint8)
    (hsize : p.dataSize = sizeUnknown ∨ data.length ≤ p.dataSize.toNat) :
    (machine cb).Steps ⟨p, r, none⟩ (data ++ rest)
      ⟨p.afterData data.length, { r with body := r.body ++ data }, none⟩ rest := by
  induction data generalizing p r with
  | nil =>
    have hp : p.afterData 0 = p := by
      unfold afterData
      split
      · simp
      · rfl
    rw [List.length_nil, hp, List.append_nil]
    exact .refl _ _
  | cons b data ih =>
    have hunknown : sizeUnknown.toNat = 2 ^ 64 - 1 := rfl
    have hzero : (0 : Uint64).toNat = 0 := rfl
    have hne : p.dataSize ≠ 0 := by
      rintro h
      rw [h] at hsize
      rcases hsize with hsize | hsize
      · have := congrArg BitVec.toNat hsize
        omega
      · rw [hzero] at hsize
        exact absurd hsize (Nat.not_succ_le_zero _)
    have hstep : (machine cb).step ⟨p, r, none⟩ (b :: data ++ rest) =
        some ((⟨p, r, none⟩ : Config).byte b, data ++ rest) := by
      rw [step_state cb r _ hstate, if_neg hne]
      rfl
    have hstate' : (p.afterData 1).state = .data := by
      unfold afterData
      split
      · exact hstate
      · exact hstate
    have hsize' : (p.afterData 1).dataSize = sizeUnknown ∨
        data.length ≤ (p.afterData 1).dataSize.toNat := by
      unfold afterData
      split
      · rename_i hknown
        have hle := hsize.resolve_left hknown
        rw [List.length_cons] at hle
        refine .inr ?_
        have hlt := p.dataSize.isLt
        show data.length ≤ (p.dataSize - BitVec.ofNat 64 1).toNat
        rw [BitVec.toNat_sub, BitVec.toNat_ofNat]
        omega
      · exact .inl (not_not.mp ‹_›)
    have hrest := ih { r with body := r.body ++ [b] } hstate' hsize'
    rw [afterData_succ p hne, List.append_assoc, List.singleton_append] at hrest
    exact .step hstep hrest

theorem processLine_state (p : HttpParser) (r : Received) (line : List Uint8)
    (hstate : p.state ≠ .complete) : (processLine cb p r line).parser.state ≠ .complete := by
  have hcond (P : Prop) [Decidable P] (s t : ParserState) (hs : s ≠ .complete) (ht : t ≠ .complete) :
      (if P then s else t) ≠ .complete := by
    split
    · exact hs
    · exact ht
  unfold processLine
  split
  · exact nofun
  · split
    · split
      · exact hstate
      · dsimp only
        split
        · exact hstate
        · rename_i q hq
          rwa [applyHeader_state hq]
    · exact hcond _ _ _ nofun nofun
  · split
    · dsimp only
      split
      · exact hstate
      · exact hcond _ _ _ nofun nofun
    · exact hstate
  · split
    · exact hstate
    · exact hcond _ _ _ nofun nofun
  · split <;> exact hstate
  · exact hstate
  · exact hstate

theorem available_spec {size : Uint64} {rest : List Uint8} (hsize : size ≠ 0) (hrest : rest ≠ []) :
    ∃ k, (if size ≠ sizeUnknown ∧ size.toNat < rest.length then size.toNat else rest.length) = k ∧
      0 < k ∧ k ≤ rest.length ∧ (size = sizeUnknown ∨ k ≤ size.toNat) := by
  refine ⟨_, rfl, ?_⟩
  have hpos : 0 < size.toNat := Nat.pos_of_ne_zero fun h => hsize (BitVec.eq_of_toNat_eq h)
  split
  · rename_i h
    exact ⟨hpos, h.2.le, .inr le_rfl⟩
  · rename_i h
    refine ⟨List.length_pos_iff.mpr hrest, le_rfl, ?_⟩
    by_cases hknown : size = sizeUnknown
    · exact .inl hknown
    · exact .inr (not_lt.mp fun hlt => h ⟨hknown, hlt⟩)

theorem afterData_state (p : HttpParser) (k : ℕ) : (p.afterData k).state = p.state := by
  unfold afterData
  split <;> rfl

theorem rank_le (c : Config) : c.rank ≤ 1 := by
  unfold Config.rank
  split_ifs <;> omega

/-- **The loop drains the machine**. -/
theorem processLoop_drain (hcb : cb.Continues) (fuel : ℕ) (p : HttpParser) (r : Received)
    (buf : List Uint8) (hstate : p.state ≠ .complete)
    (hfuel : 2 * buf.length + (⟨p, r, none⟩ : Config).rank < fuel) :
    (machine cb).drain ⟨p, r, none⟩ buf = (processLoop cb fuel .none p r buf).drained := by
  induction fuel generalizing p r buf with
  | zero => exact absurd hfuel (Nat.not_lt_zero _)
  | succ fuel ih =>
    rw [processLoop]
    split
    · rename_i hline
      have hstep := step_line cb r buf hline
      cases hsplit : splitLine buf with
      | none =>
        rw [hsplit] at hstep
        exact Incremental.drain_none hstep
      | some split =>
        obtain ⟨line, rest⟩ := split
        have hlength := splitLine_length hsplit
        rw [hsplit, Option.map_some] at hstep
        rw [Incremental.drain_some hstep]
        have hrank := rank_le ⟨(processLine cb p r (trimRight line)).parser,
          (processLine cb p r (trimRight line)).received, none⟩
        dsimp only [Config.line]
        rcases processLine_result hcb p r (trimRight line) with ⟨hresult, herror⟩ | hresult
        · rw [if_pos hresult, if_neg (not_not.mpr hresult), herror]
          exact ih _ _ _ (processLine_state p r _ hstate) (by omega)
        · have hne : (processLine cb p r (trimRight line)).result ≠ .prContinue := by
            rw [hresult]
            exact nofun
          rw [if_neg hne, if_pos hne, drain_outcome]
          simp only [Processed.drained, Processed.config, if_neg hne]
    · rename_i hline
      have hdata : p.state = .data := by
        cases h : p.state <;> simp_all [ParserState.isLine]
      have hstep := step_state cb r buf hdata
      split
      · rename_i hzero
        rw [if_pos hzero] at hstep
        have hrank : (⟨p, r, none⟩ : Config).rank = 1 := by
          simp [Config.rank, hdata, hzero, ParserState.isLine]
        split
        · rename_i hchunked
          rw [if_pos hchunked] at hstep
          rw [Incremental.drain_some hstep]
          have hrank' : (⟨{ p with state := .chunkTerm }, r, none⟩ : Config).rank = 0 := rfl
          exact ih _ _ _ nofun (by omega)
        · rename_i hchunked
          rw [if_neg hchunked] at hstep
          rw [Incremental.drain_some hstep, drain_outcome]
          rfl
      · rename_i hzero
        rw [if_neg hzero] at hstep
        split
        · rename_i hempty
          subst hempty
          exact Incremental.drain_none hstep
        · rename_i hempty
          obtain ⟨k, hk, hpos, hle, hsize⟩ := available_spec hzero hempty
          have hlength : (buf.take k).length = k := List.length_take_of_le hle
          have hsteps := steps_data cb r hdata (buf.take k) (buf.drop k) (by rwa [hlength])
          rw [List.take_append_drop, hlength] at hsteps
          dsimp only
          obtain ⟨hcontinue, hread⟩ := hcb.data r (buf.take k)
          rw [hk, hread, hlength, if_neg (not_not.mpr hcontinue), cb.data_error _ _ hcontinue,
            Incremental.drain_of_steps hsteps]
          refine ih _ _ _ (by rwa [afterData_state]) ?_
          have hrank := rank_le ⟨p.afterData k, { r with body := r.body ++ buf.take k }, none⟩
          rw [List.length_drop]
          omega

/-- `Process` drains the machine. -/
theorem process_drain (hcb : cb.Continues) (p : HttpParser) (r : Received) (buf : List Uint8) :
    (machine cb).drain ⟨p, r, none⟩ buf = (p.process cb r buf).drained := by
  unfold process
  split
  · rename_i hcomplete
    have hstep : (machine cb).step ⟨p, r, none⟩ buf = some (⟨p, r, some .none⟩, buf) := by
      simp [machine, Config.step, hcomplete]
    rw [Incremental.drain_some hstep, drain_outcome]
    rfl
  · rename_i hcomplete
    have hrank := rank_le ⟨p, r, none⟩
    exact processLoop_drain hcb _ _ _ _ hcomplete (by omega)

theorem processLoop_result (hcb : cb.Continues) (fuel : ℕ) (p : HttpParser) (r : Received) (buf : List Uint8) :
    (processLoop cb fuel .none p r buf).result = .prContinue ∧
        (processLoop cb fuel .none p r buf).error = .none ∨
      (processLoop cb fuel .none p r buf).result = .prComplete := by
  induction fuel generalizing p r buf with
  | zero => exact .inl ⟨rfl, rfl⟩
  | succ fuel ih =>
    rw [processLoop]
    split
    · split
      · exact .inl ⟨rfl, rfl⟩
      · rename_i line rest _
        dsimp only
        rcases processLine_result hcb p r (trimRight line) with ⟨hresult, herror⟩ | hresult
        · rw [if_neg (not_not.mpr hresult), herror]
          exact ih _ _ _
        · rw [hresult, if_pos nofun]
          exact .inr rfl
    · split
      · split
        · exact ih _ _ _
        · exact .inr rfl
      · split
        · exact .inl ⟨rfl, rfl⟩
        · dsimp only
          have hcontinue := fun data => (hcb.data r data).1
          rw [if_neg (not_not.mpr (hcontinue _)), cb.data_error _ _ (hcontinue _)]
          exact ih _ _ _

theorem process_result (hcb : cb.Continues) (p : HttpParser) (r : Received) (buf : List Uint8) :
    (p.process cb r buf).result = .prContinue ∧ (p.process cb r buf).error = .none ∨
      (p.process cb r buf).result = .prComplete := by
  unfold process
  split
  · exact .inr rfl
  · exact processLoop_result hcb _ p r buf

/-! ## Buffers -/

def receiving (n : ℕ) (x : Config × List Uint8) : Receiving where
  parser := x.1.parser
  received := x.1.received
  result := if x.1.outcome.isSome then .prComplete else .prContinue
  error := x.1.outcome.getD .none
  left := x.2
  processed := n - x.2.length

theorem receiving_drained (hcb : cb.Continues) (n : ℕ) (p : HttpParser) (r : Received) (buf : List Uint8) :
    receiving n (p.process cb r buf).drained =
      ⟨(p.process cb r buf).parser, (p.process cb r buf).received, (p.process cb r buf).result,
        (p.process cb r buf).error, (p.process cb r buf).rest, n - (p.process cb r buf).rest.length⟩ := by
  unfold receiving Processed.drained Processed.config
  rcases process_result hcb p r buf with ⟨hresult, herror⟩ | hresult
  · rw [hresult, herror]
    rfl
  · rw [hresult]
    rfl

theorem present_receiving (hcb : cb.Continues) {n : ℕ} {x : Config × List Uint8}
    (hn : x.2.length ≤ n) (buffer : List Uint8) :
    (receiving n x).present cb buffer =
      receiving (n + buffer.length) ((machine cb).drain x.1 (x.2 ++ buffer)) := by
  obtain ⟨⟨p, r, outcome⟩, left⟩ := x
  cases outcome with
  | none =>
    have hle : (p.process cb r (left ++ buffer)).rest.length ≤ (left ++ buffer).length := by
      have h := Incremental.length_drain_le (m := machine cb) ⟨p, r, none⟩ (left ++ buffer)
      rwa [process_drain hcb] at h
    rw [process_drain hcb, receiving_drained hcb]
    show Receiving.mk _ _ _ _ _ _ = _
    congr 1
    rw [List.length_append] at hle ⊢
    dsimp only [receiving] at hn ⊢
    omega
  | some e =>
    rw [drain_outcome]
    show Receiving.mk _ _ _ _ _ _ = Receiving.mk _ _ _ _ _ _
    congr 1
    dsimp only [receiving] at hn ⊢
    rw [List.length_append]
    omega

theorem foldl_present (hcb : cb.Continues) {n : ℕ} {x : Config × List Uint8} (hn : x.2.length ≤ n)
    (buffers : List (List Uint8)) :
    buffers.foldl (Receiving.present cb) (receiving n x) =
      receiving (n + buffers.flatten.length) ((machine cb).feed x buffers) := by
  induction buffers generalizing n x with
  | nil => rfl
  | cons buffer buffers ih =>
    have hle := Incremental.length_drain_le (m := machine cb) x.1 (x.2 ++ buffer)
    rw [List.length_append] at hle
    rw [List.foldl_cons, present_receiving hcb hn, ih (by omega), List.flatten_cons, List.length_append,
      Nat.add_assoc]
    rfl

theorem foldl_present_flatten (hcb : cb.Continues) (p : HttpParser) (first : List Uint8) (more : List (List Uint8)) :
    (first :: more).foldl (Receiving.present cb) { parser := p } =
      receiving (first :: more).flatten.length
        ((machine cb).drain ⟨p, {}, none⟩ (first :: more).flatten) := by
  have hstart : ({ parser := p } : Receiving) = receiving 0 (⟨p, {}, none⟩, []) := rfl
  rw [hstart, foldl_present hcb (Nat.le_refl 0), Incremental.feed_flatten, Nat.zero_add]
  show receiving _ ((machine cb).drain ⟨p, {}, none⟩ ([] ++ _)) = _
  rw [List.nil_append]

/-- **It does not matter how the bytes are cut**. -/
theorem present_flatten (hcb : cb.Continues) (p : HttpParser) (first : List Uint8) (more : List (List Uint8)) :
    let bytes := (first :: more).flatten
    let one := p.process cb {} bytes
    (first :: more).foldl (Receiving.present cb) { parser := p } =
      { parser := one.parser
        received := one.received
        result := one.result
        error := one.error
        left := one.rest
        processed := bytes.length - one.rest.length } := by
  intro bytes one
  rw [foldl_present_flatten hcb, process_drain hcb, receiving_drained hcb]

theorem httpBase_continues : (httpBase (fun _ => .none) none none).Continues where
  leader _ _ := rfl
  header _ _ _ := rfl
  headerComplete _ _ _ := rfl
  data _ _ := ⟨rfl, rfl⟩

/-- A chunk, cut within its size, its end and the end of the message. -/
theorem present_flatten_chunk :
    let p : HttpParser := { state := .chunkSize, chunked := true }
    let d := [[0x30], [0x32, 0x0D], [0x0A, 0x78, 0x79, 0x0D], [0x0A, 0x30, 0x0D, 0x0A, 0x0D], [0x0A]].foldl
      (Receiving.present (httpBase (fun _ => .none) none none)) { parser := p }
    d.received.body = [0x78, 0x79] ∧ d.result = .prComplete ∧ d.error = .none ∧ d.processed = 13 := by
  intro p d
  have h : d = _ := present_flatten httpBase_continues p _ _
  rw [h]
  decide

end Libjingle.Http
