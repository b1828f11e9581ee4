import Mathlib.Data.List.TakeWhile
import Libjingle.Http.Boundaries
import Libjingle.Http.Sender

/-!
# Chunks are parsed

Main result: **`drain_chunks`**.
-/

variable {digits n : ℕ}

namespace Libjingle.Http

open Lib HttpParser

/-! ## The size of a chunk -/

theorem hexDigit_hexChar (d : Fin 16) : hexDigit (hexChar d) = some d.val := by
  revert d
  decide

theorem hexChar_plain (d : Fin 16) : isspace (hexChar d) = false ∧ hexChar d ∉ [0x0A, 0x2D, 0x2B, 0x78, 0x58] := by
  revert d
  decide

theorem mem_formatHex {b : Uint8} (h : b ∈ formatHex digits n) : ∃ d : Fin 16, b = hexChar d := by
  induction digits generalizing n with
  | zero => cases h
  | succ digits ih =>
    rw [formatHex, List.mem_append, List.mem_singleton] at h
    rcases h with h | rfl
    · exact ih h
    · exact ⟨⟨n % 16, Nat.mod_lt _ (by decide)⟩, rfl⟩

@[simp] theorem length_formatHex (digits n : ℕ) : (formatHex digits n).length = digits := by
  induction digits generalizing n with
  | zero => rfl
  | succ digits ih => rw [formatHex, List.length_append, ih, List.length_singleton]

theorem digitsValue_formatHex (h : n < 16 ^ digits) :
    digitsValue 16 ((formatHex digits n).filterMap hexDigit) = n := by
  induction digits generalizing n with
  | zero =>
    rw [Nat.pow_zero] at h
    rw [Nat.lt_one_iff.mp h]
    rfl
  | succ digits ih =>
    have hdigit := hexDigit_hexChar ⟨n % 16, Nat.mod_lt _ (by decide)⟩
    have hquotient : n / 16 < 16 ^ digits := Nat.div_lt_of_lt_mul (by rwa [Nat.pow_succ, Nat.mul_comm] at h)
    have hvalue := ih hquotient
    rw [digitsValue] at hvalue ⊢
    rw [formatHex, List.filterMap_append, List.foldl_append, hvalue, List.filterMap_cons, hdigit,
      List.filterMap_nil, List.foldl_cons, List.foldl_nil]
    exact Nat.div_add_mod' n 16

theorem scanSign_of_ne {c : Uint8} {s : List Uint8} (h : c ≠ 0x2D) (h' : c ≠ 0x2B) :
    scanSign (c :: s) = (false, c :: s) := by
  rw [scanSign, if_neg h, if_neg h']

theorem skipPrefix_of_ne {s : List Uint8} (h : ∀ b ∈ s, b ≠ 0x78 ∧ b ≠ 0x58) : skipPrefix s = s := by
  unfold skipPrefix
  split
  · next z x d s =>
    obtain ⟨hx, hX⟩ := h x (by simp)
    rw [if_neg]
    rintro ⟨-, h | h, -⟩
    · exact hx h
    · exact hX h
  · rfl

theorem strtoul16_formatHex (h : n < 16 ^ (digits + 1)) (hn : n < 2 ^ 64) :
    strtoul16 (formatHex (digits + 1) n) = (n, []) := by
  have hplain : ∀ b ∈ formatHex (digits + 1) n,
      isspace b = false ∧ b ∉ [0x0A, 0x2D, 0x2B, 0x78, 0x58] ∧ (hexDigit b).isSome := by
    intro b hb
    obtain ⟨d, rfl⟩ := mem_formatHex hb
    obtain ⟨hspace, hsign⟩ := hexChar_plain d
    exact ⟨hspace, hsign, by rw [hexDigit_hexChar]; rfl⟩
  have hvalue := digitsValue_formatHex h
  have hlength := length_formatHex (digits + 1) n
  generalize formatHex (digits + 1) n = s at *
  obtain ⟨c, s, rfl⟩ := List.exists_cons_of_length_eq_add_one hlength
  obtain ⟨hspace, hsign, -⟩ := hplain c List.mem_cons_self
  simp only [List.mem_cons, List.not_mem_nil, not_or] at hsign
  have hdrop : (c :: s).dropWhile isspace = c :: s :=
    List.dropWhile_cons_of_neg (by rw [hspace]; exact Bool.false_ne_true)
  have hskip : skipPrefix (c :: s) = c :: s := by
    refine skipPrefix_of_ne fun b hb => ?_
    have hb := (hplain b hb).2.1
    simp only [List.mem_cons, List.not_mem_nil, not_or] at hb
    exact ⟨hb.2.2.2.1, hb.2.2.2.2.1⟩
  have htake : (c :: s).takeWhile (fun ch => (hexDigit ch).isSome) = c :: s :=
    List.takeWhile_eq_self_iff.mpr fun b hb => (hplain b hb).2.2
  unfold strtoul16
  rw [hdrop, scanSign_of_ne hsign.2.1 hsign.2.2.1]
  simp only [hskip, htake, List.cons_ne_nil, if_false, hvalue, List.drop_length]
  rw [signedValue, if_neg (by unfold ulongMax; omega)]
  rfl

/-! ## Lines -/

theorem splitLine_of_notMem {line : List Uint8} (h : 0x0A ∉ line) (rest : List Uint8) :
    splitLine (line ++ 0x0A :: rest) = some (line, rest) := by
  induction line with
  | nil => rfl
  | cons c s ih =>
    rw [List.mem_cons, not_or] at h
    rw [List.cons_append, splitLine, if_neg (Ne.symm h.1), ih h.2, Option.map_some]

theorem trimRight_crlf {line : List Uint8} (h : ∀ b ∈ line, isspace b = false) :
    trimRight (line ++ [0x0D]) = line := by
  have hreturn : isspace 0x0D = true := by decide
  rw [trimRight, List.reverse_append, List.reverse_singleton, List.singleton_append,
    List.dropWhile_cons_of_pos hreturn]
  cases hreverse : line.reverse with
  | nil => rw [List.dropWhile_nil, List.reverse_nil, ← List.reverse_eq_nil_iff.mp hreverse]
  | cons c s =>
    have hc : isspace c = false := h c (List.mem_reverse.mp (hreverse ▸ List.mem_cons_self))
    rw [List.dropWhile_cons_of_neg (by rw [hc]; exact Bool.false_ne_true), ← hreverse, List.reverse_reverse]

variable {cb : Interface}

theorem step_crlf (cb : Interface) (p : HttpParser) (r : Received) (hline : p.state.isLine = true)
    (line : List Uint8) (h : ∀ b ∈ line, isspace b = false) (rest : List Uint8) :
    (machine cb).step ⟨p, r, none⟩ (line ++ (crlf ++ rest)) =
      some (⟨(processLine cb p r line).parser, (processLine cb p r line).received,
        if (processLine cb p r line).result = .prContinue then none
        else some ((processLine cb p r line).error.getD .none)⟩, rest) := by
  have hfeed : (0x0A : Uint8) ∉ line ++ [0x0D] := by
    rw [List.mem_append, not_or]
    refine ⟨fun hmem => ?_, by decide⟩
    have hspace : isspace 0x0A = true := by decide
    rw [h _ hmem] at hspace
    cases hspace
  have hsplit : line ++ (crlf ++ rest) = line ++ [0x0D] ++ 0x0A :: rest := by
    rw [List.append_assoc]
    rfl
  rw [step_line cb r _ hline, hsplit, splitLine_of_notMem hfeed, Option.map_some]
  simp only [Config.line, trimRight_crlf h]

/-! ## Chunks -/

def awaiting (size : Uint64) : HttpParser := ⟨.chunkSize, true, size⟩

theorem isspace_formatHex : ∀ b ∈ formatHex digits n, isspace b = false := by
  intro b hb
  obtain ⟨d, rfl⟩ := mem_formatHex hb
  exact (hexChar_plain d).1

theorem processLine_size {size : Uint64} {r : Received} (hpos : 0 < n) (hn : n < 16 ^ kChunkDigits) :
    processLine cb (awaiting size) r (formatHex kChunkDigits n) =
      ⟨.prContinue, none, ⟨.data, true, BitVec.ofNat 64 n⟩, r⟩ := by
  have hlt : n < 2 ^ 64 := hn.trans (by decide)
  have hnil : formatHex kChunkDigits n ≠ [] := by
    intro h
    have hlength := length_formatHex kChunkDigits n
    rw [h] at hlength
    cases hlength
  have hne : BitVec.ofNat 64 n ≠ 0 := by
    intro h
    have hvalue := congrArg BitVec.toNat h
    rw [BitVec.toNat_ofNat, Nat.mod_eq_of_lt hlt] at hvalue
    exact hpos.ne' hvalue
  simp only [processLine, awaiting, if_pos hnil, strtoul16_formatHex hn hlt, ne_eq, not_true_eq_false,
    if_false, if_neg hne]

theorem steps_chunk (cb : Interface) (size : Uint64) (r : Received) {bytes : List Uint8}
    (hpos : bytes ≠ []) (hlength : bytes.length < 16 ^ kChunkDigits) (rest : List Uint8) :
    (machine cb).Steps ⟨awaiting size, r, none⟩ (chunk bytes ++ rest)
      ⟨awaiting 0, { r with body := r.body ++ bytes }, none⟩ rest := by
  have hsplit : chunk bytes ++ rest =
      formatHex kChunkDigits bytes.length ++ (crlf ++ (bytes ++ ([] ++ (crlf ++ rest)))) := by
    simp only [chunk, List.append_assoc, List.nil_append]
  have hsize : (BitVec.ofNat 64 bytes.length).toNat = bytes.length := by
    rw [BitVec.toNat_ofNat, Nat.mod_eq_of_lt (hlength.trans (by decide))]
  -- the line with the size
  have hfirst := step_crlf cb (awaiting size) r rfl (formatHex kChunkDigits bytes.length)
    isspace_formatHex (bytes ++ ([] ++ (crlf ++ rest)))
  rw [processLine_size (List.length_pos_iff.mpr hpos) hlength, if_pos rfl] at hfirst
  -- the data
  have hdata := steps_data cb (p := ⟨.data, true, BitVec.ofNat 64 bytes.length⟩) r rfl bytes
    ([] ++ (crlf ++ rest)) (.inr hsize.ge)
  have hafter : afterData ⟨.data, true, BitVec.ofNat 64 bytes.length⟩ bytes.length = ⟨.data, true, 0⟩ := by
    have hknown : BitVec.ofNat 64 bytes.length ≠ sizeUnknown := by
      intro h
      have hvalue := congrArg BitVec.toNat h
      rw [hsize] at hvalue
      exact absurd (hvalue ▸ hlength) (by decide)
    rw [afterData, if_pos hknown, BitVec.sub_self]
    rfl
  rw [hafter] at hdata
  -- the end of the chunk
  have hterm := step_crlf cb ⟨.chunkTerm, true, 0⟩ { r with body := r.body ++ bytes } rfl [] nofun rest
  rw [hsplit]
  refine .step hfirst (hdata.trans (.step ?_ (.step hterm (.refl _ _))))
  exact step_state cb _ _ rfl

theorem steps_lastChunk (cb : Interface) (size : Uint64) (r : Received) (rest : List Uint8) :
    (machine cb).Steps ⟨awaiting size, r, none⟩ (lastChunk ++ rest)
      ⟨⟨.trailers, true, 0⟩, r, some .none⟩ rest := by
  have hsplit : lastChunk ++ rest = text "0" ++ (crlf ++ ([] ++ (crlf ++ rest))) := by
    simp only [lastChunk, List.append_assoc, List.nil_append]
  have hsize := step_crlf cb (awaiting size) r rfl (text "0") (by decide) ([] ++ (crlf ++ rest))
  have htrailers := step_crlf cb ⟨.trailers, true, 0⟩ r rfl [] nofun rest
  rw [hsplit]
  exact .step hsize (.single htrailers)

def encoded (pieces : List (List Uint8)) (ended : Bool) : List Uint8 :=
  pieces.flatMap chunk ++ if ended then lastChunk else []

def Pieces (pieces : List (List Uint8)) : Prop :=
  ∀ bytes ∈ pieces, bytes ≠ [] ∧ bytes.length < 16 ^ kChunkDigits

theorem steps_chunks (cb : Interface) (size : Uint64) (r : Received) {pieces : List (List Uint8)}
    (h : Pieces pieces) (rest : List Uint8) :
    ∃ size', (machine cb).Steps ⟨awaiting size, r, none⟩ (pieces.flatMap chunk ++ rest)
      ⟨awaiting size', { r with body := r.body ++ pieces.flatten }, none⟩ rest := by
  induction pieces generalizing size r with
  | nil =>
    refine ⟨size, ?_⟩
    rw [List.flatten_nil, List.append_nil]
    exact .refl _ _
  | cons bytes pieces ih =>
    obtain ⟨hbytes, hpieces⟩ := List.forall_mem_cons.mp h
    obtain ⟨size', hsteps⟩ := ih 0 { r with body := r.body ++ bytes } hpieces
    refine ⟨size', ?_⟩
    rw [List.flatMap_cons, List.append_assoc, List.flatten_cons, ← List.append_assoc r.body]
    exact (steps_chunk cb size r hbytes.1 hbytes.2 _).trans hsteps

/-- **The chunks of a document are put together again**. -/
theorem drain_chunks (cb : Interface) (size : Uint64) {pieces : List (List Uint8)} (h : Pieces pieces) :
    (machine cb).drain ⟨awaiting size, {}, none⟩ (encoded pieces true) =
      (⟨⟨.trailers, true, 0⟩, { body := pieces.flatten }, some .none⟩, []) := by
  obtain ⟨size', hchunks⟩ := steps_chunks cb size {} h lastChunk
  have hlast := steps_lastChunk cb size' { body := [] ++ pieces.flatten } []
  rw [List.append_nil, List.nil_append] at hlast
  rw [List.nil_append] at hchunks
  rw [encoded, if_pos rfl, Incremental.drain_of_steps (hchunks.trans hlast), drain_outcome]

/-! ## What was received -/

theorem body_processLine (p : HttpParser) (r : Received) (line : List Uint8) :
    (processLine cb p r line).received.body = r.body := by
  unfold processLine
  split
  · rfl
  · split
    · split
      · rfl
      · dsimp only
        split <;> rfl
    · rfl
  · split_ifs <;> try rfl
    dsimp only
    split_ifs <;> rfl
  · split_ifs <;> rfl
  · split_ifs <;> rfl
  · rfl
  · rfl

theorem body_step {c c' : Config} {buf rest : List Uint8} (h : c.step cb buf = some (c', rest)) :
    c.received.body <+: c'.received.body := by
  unfold Config.step at h
  split_ifs at h
  · cases h
    exact List.prefix_rfl
  · obtain ⟨l, -, heq⟩ := Option.map_eq_some_iff.mp h
    cases heq
    simp only [Config.line, body_processLine, List.prefix_rfl]
  · cases h
    exact List.prefix_rfl
  · cases h
    exact List.prefix_rfl
  · split at h
    · cases h
    · cases h
      exact List.prefix_append _ _

theorem body_drain (c : Config) (buf : List Uint8) :
    c.received.body <+: ((machine cb).drain c buf).1.received.body := by
  induction c, buf using Incremental.drain.induct (machine cb) with
  | case1 c buf hstep => rw [Incremental.drain_none hstep]
  | case2 c buf c' rest hstep _ ih =>
    rw [Incremental.drain_some hstep]
    exact (body_step hstep).trans ih

end Libjingle.Http
