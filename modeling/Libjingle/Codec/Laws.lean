import Libjingle.Codec.StringEncode

/-!
# The laws of encoders and decoders

Main results: **`coding_eq`**, **`encoderLaws_of_reads`**, **`decoderLaws_of_reads`**,
**`roundTrips_of_reads`**.
-/

namespace Libjingle.StringEncode

open Lib

/-- All stores are inside the buffer, and the last one is the terminator at the position. -/
structure Contained (buflen : ℕ) (o : Output Uint8) : Prop where
  inside : ∀ s ∈ o.stores, s.1 < buflen
  below : 0 < buflen → o.pos < buflen
  terminated : 0 < buflen → ∀ m, o.memory m o.pos = 0

/-- The output of an encoder stays inside the buffer, and consists of whole units, up to one that
does not fit. -/
structure EncoderLaws (enc : ℕ → List Uint8 → Output Uint8) (units : List Uint8 → List (List Uint8)) :
    Prop where
  contained : ∀ buflen source, Contained buflen (enc buflen source)
  whole : ∀ buflen source, ∃ k, (∀ m, (enc buflen source).text m = ((units source).take k).flatten) ∧
    ∀ u ∈ (units source)[k]?, buflen ≤ ((units source).take k).flatten.length + u.length

theorem contained_written_iff {buflen : ℕ} {bs : List Uint8} :
    Contained buflen ((Output.written bs).terminate 0) ↔ bs.length < buflen := by
  constructor
  · exact fun hcontained => Output.inside_iff.mp hcontained.inside
  · exact fun hlt => ⟨Output.inside_iff.mpr hlt, fun _ => (Output.pos_written _).trans_lt hlt,
      fun _ m => Output.memory_terminate_pos _ _ m⟩

/-- What holds of a decoder on every source: it stays inside its buffer. -/
structure DecoderLaws (dec : ℕ → List Uint8 → Output Uint8) : Prop where
  contained : ∀ buflen source, Contained buflen (dec buflen source)

def RoundTrips (enc dec : ℕ → List Uint8 → Output Uint8) (units : List Uint8 → List (List Uint8))
    (source : List Uint8) : Prop :=
  ∀ buflen buflen' m m', (units source).flatten.length < buflen → source.length < buflen' →
    (dec buflen' ((enc buflen source).text m)).text m' = source

/-! ## Loops -/

/-- Where there is room for two cells, the body writes the next piece of the source, if that
fits. -/
structure Reads (next : List Uint8 → Option (Piece Uint8 × List Uint8)) (buflen : ℕ)
    (body : List Uint8 → Output Uint8 → Option (List Uint8 × Output Uint8)) : Prop where
  nil : next [] = none
  need : ∀ src p, next src = some p → 2 ≤ p.1.need
  body : ∀ src bs, src ≠ [] → bs.length + 1 < buflen → body src (.written bs) =
    (next src).bind fun p =>
      if bs.length + p.1.need ≤ buflen then some (p.2, .written (bs ++ p.1.cells)) else none

variable {next : List Uint8 → Option (Piece Uint8 × List Uint8)} {buflen : ℕ}
  {body : List Uint8 → Output Uint8 → Option (List Uint8 × Output Uint8)}

def sourcePieces (next : List Uint8 → Option (Piece Uint8 × List Uint8)) (source : List Uint8) :
    List (Piece Uint8) := pieces next source.length source

theorem coding_eq (h : Reads next buflen body) (hbuflen : 0 < buflen) (source : List Uint8) :
    coding body buflen source = (Output.written (packed buflen 0 (sourcePieces next source))).terminate 0 := by
  have hloop : codeLoop (fun bufpos => bufpos + 1 < buflen) body source.length source (.written []) =
      .written ([] ++ packed buflen 0 (sourcePieces next source)) := by
    refine codeLoop_eq h.nil (fun src p pos hnext hstop => ?_) (fun src bs hne hgo => ?_) _ _ _
    · have := h.need src p hnext
      have := of_decide_eq_false hstop
      omega
    · exact h.body src bs hne (of_decide_eq_true hgo)
  rw [coding, if_neg (by omega)]
  exact congrArg (Output.terminate · 0) hloop

theorem contained_zero : Contained 0 {} := ⟨nofun, nofun, nofun⟩

theorem contained_coding_iff (h : Reads next buflen body) (hbuflen : 0 < buflen) (source : List Uint8) :
    Contained buflen (coding body buflen source) ↔
      (packed buflen 0 (sourcePieces next source)).length < buflen := by
  rw [coding_eq h hbuflen]
  exact contained_written_iff

/-- Each piece needs room for itself and a terminator. -/
def Tight (next : List Uint8 → Option (Piece Uint8 × List Uint8)) : Prop :=
  ∀ src p, next src = some p → p.1.need = p.1.cells.length + 1

theorem contained_coding (h : Reads next buflen body) (htight : Tight next) (source : List Uint8) :
    Contained buflen (coding body buflen source) := by
  rcases Nat.eq_zero_or_pos buflen with rfl | hbuflen
  · exact contained_zero
  · refine (contained_coding_iff h hbuflen source).mpr ?_
    have hneed : ∀ p ∈ sourcePieces next source, p.cells.length < p.need :=
      forall_mem_pieces (fun src p hnext => by
        have := htight src p hnext
        omega) _ _
    have hlt := length_packed_lt hneed hbuflen
    rwa [Nat.zero_add] at hlt

theorem text_coding (h : Reads next buflen body)
    (hfit : ∀ src p, next src = some p → p.1.need ≤ p.1.cells.length + 1) {source : List Uint8}
    (hroom : ((sourcePieces next source).flatMap Piece.cells).length < buflen) (m : ℕ → Uint8) :
    (coding body buflen source).text m = (sourcePieces next source).flatMap Piece.cells := by
  have hneed : ∀ p ∈ sourcePieces next source, p.need ≤ p.cells.length + 1 :=
    forall_mem_pieces hfit _ _
  rw [coding_eq h (by omega), Output.text_terminate, packed_of_lt hneed (by omega)]

theorem encoderLaws_of_reads {body : ℕ → List Uint8 → Output Uint8 → Option (List Uint8 × Output Uint8)}
    (h : ∀ buflen, Reads next buflen (body buflen)) (htight : Tight next) :
    EncoderLaws (fun buflen => coding (body buflen) buflen)
      (fun source => (sourcePieces next source).map Piece.cells) where
  contained buflen source := contained_coding (h buflen) htight source
  whole buflen source := by
    rcases Nat.eq_zero_or_pos buflen with rfl | hbuflen
    · exact ⟨0, fun _ => rfl, fun u _ => Nat.zero_le _⟩
    · obtain ⟨k, heq, hnext⟩ := @packed_eq_take _ buflen (sourcePieces next source) 0
      refine ⟨k, fun m => ?_, fun u hu => ?_⟩
      · rw [coding_eq (h buflen) hbuflen, Output.text_terminate, heq, ← List.map_take, List.flatMap_def]
      · rw [List.getElem?_map] at hu
        obtain ⟨p, hp, rfl⟩ := Option.mem_map.mp hu
        have hroom := hnext p hp
        have hneed : p.need = p.cells.length + 1 :=
          @forall_mem_pieces _ _ next (fun p => p.need = p.cells.length + 1) htight _ _ p
            (List.mem_of_getElem? hp)
        rw [← List.map_take, ← List.flatMap_def]
        omega

theorem decoderLaws_of_reads (h : ∀ buflen, Reads next buflen body) (htight : Tight next) :
    DecoderLaws (fun buflen => coding body buflen) where
  contained buflen source := contained_coding (h buflen) htight source

/-! ## Sources of parts -/

section Parts

variable {γ : Type} {cs : List γ} {f : γ → List Uint8}

theorem length_le_flatMap (h : ∀ c ∈ cs, f c ≠ []) : cs.length ≤ (cs.flatMap f).length := by
  induction cs with
  | nil => exact Nat.zero_le _
  | cons c cs ih =>
    obtain ⟨hc, hcs⟩ := List.forall_mem_cons.mp h
    have := ih hcs
    have := List.length_pos_of_ne_nil hc
    rw [List.flatMap_cons, List.length_append, List.length_cons]
    omega

theorem sourcePieces_flatMap {piece : γ → Piece Uint8} (hnil : next [] = none) (hne : ∀ c ∈ cs, f c ≠ [])
    (h : ∀ c ∈ cs, ∀ rest, next (f c ++ rest) = some (piece c, rest)) :
    sourcePieces next (cs.flatMap f) = cs.map piece :=
  pieces_flatMap hnil h (length_le_flatMap hne)

/-- **A decoder undoes an encoder if it undoes its pieces**. -/
theorem roundTrips_of_reads {body body' : ℕ → List Uint8 → Output Uint8 → Option (List Uint8 × Output Uint8)}
    {next' : List Uint8 → Option (Piece Uint8 × List Uint8)} {code : γ → List Uint8}
    {piece : γ → Piece Uint8} (hread : ∀ buflen, Reads next buflen (body buflen)) (htight : Tight next)
    (hread' : ∀ buflen, Reads next' buflen (body' buflen))
    (hfit' : ∀ src p, next' src = some p → p.1.need ≤ p.1.cells.length + 1)
    (hne : ∀ c ∈ cs, f c ≠ []) (hne' : ∀ c ∈ cs, code c ≠ [])
    (henc : ∀ c ∈ cs, ∀ rest, next (f c ++ rest) = some (.tight (code c), rest))
    (hdec : ∀ c ∈ cs, ∀ rest, next' (code c ++ rest) = some (piece c, rest))
    (hcells : ∀ c ∈ cs, (piece c).cells = f c) :
    RoundTrips (fun buflen => coding (body buflen) buflen) (fun buflen => coding (body' buflen) buflen)
      (fun source => (sourcePieces next source).map Piece.cells) (cs.flatMap f) := by
  intro buflen buflen' m m' hroom hroom'
  have hpieces : sourcePieces next (cs.flatMap f) = cs.map fun c => .tight (code c) :=
    sourcePieces_flatMap (hread 0).nil hne henc
  have hpieces' : sourcePieces next' (cs.flatMap code) = cs.map piece :=
    sourcePieces_flatMap (hread' 0).nil hne' hdec
  have hcode : (sourcePieces next (cs.flatMap f)).flatMap Piece.cells = cs.flatMap code := by
    rw [hpieces, List.flatMap_map]
    rfl
  have hsource : (sourcePieces next' (cs.flatMap code)).flatMap Piece.cells = cs.flatMap f := by
    rw [hpieces', List.flatMap_map]
    exact List.flatMap_congr hcells
  dsimp only at hroom ⊢
  rw [← List.flatMap_def] at hroom
  rw [text_coding (hread buflen) (fun src p hnext => (htight src p hnext).le) hroom, hcode,
    text_coding (hread' buflen') hfit' (by rwa [hsource]), hsource]

end Parts

theorem bind_tight (bs cells rest : List Uint8) :
    (some (Piece.tight cells, rest)).bind (fun p =>
      if bs.length + p.1.need ≤ buflen then some (p.2, Output.written (bs ++ p.1.cells)) else none) =
    if bs.length + cells.length ≥ buflen then none else some (rest, .written (bs ++ cells)) := by
  rw [Option.bind_some]
  split
  · exact (if_neg (show ¬bs.length + cells.length ≥ buflen by
      have : bs.length + (cells.length + 1) ≤ buflen := ‹_›
      omega)).symm
  · exact (if_pos (show bs.length + cells.length ≥ buflen by
      have : ¬bs.length + (cells.length + 1) ≤ buflen := ‹_›
      omega)).symm

def charNext (code : Uint8 → List Uint8) : List Uint8 → Option (Piece Uint8 × List Uint8)
  | [] => none
  | ch :: src => some (.tight (code ch), src)

theorem tight_charNext (code : Uint8 → List Uint8) : Tight (charNext code)
  | [], _, h => by cases h
  | ch :: src, p, h => by
    cases h
    rfl

theorem units_charNext (code : Uint8 → List Uint8) (source : List Uint8) :
    (sourcePieces (charNext code) source).map Piece.cells = source.map code := by
  have hpieces := @sourcePieces_flatMap (charNext code) Uint8 source (fun ch => [ch])
    (fun ch => .tight (code ch)) rfl (fun _ _ => List.cons_ne_nil _ _) (fun _ _ _ => rfl)
  rw [List.flatMap_singleton'] at hpieces
  rw [hpieces, List.map_map]
  rfl

theorem reads_charNext {code : Uint8 → List Uint8} (hne : ∀ ch, code ch ≠ [])
    (hbody : ∀ ch src bs, bs.length + 1 < buflen → body (ch :: src) (.written bs) =
      if bs.length + (code ch).length ≥ buflen then none else some (src, .written (bs ++ code ch))) :
    Reads (charNext code) buflen body where
  nil := rfl
  need
    | [], _, h => by cases h
    | ch :: src, p, h => by
      cases h
      exact Nat.succ_le_succ (List.length_pos_of_ne_nil (hne ch))
  body
    | [], _, hsrc, _ => absurd rfl hsrc
    | ch :: src, bs, _, hguard => by
      rw [hbody ch src bs hguard, charNext, bind_tight]

section Characters

variable {body body' : ℕ → List Uint8 → Output Uint8 → Option (List Uint8 × Output Uint8)}
  {code : Uint8 → List Uint8} {next' : List Uint8 → Option (Piece Uint8 × List Uint8)}

theorem encoderLaws_of_chars (h : ∀ buflen, Reads (charNext code) buflen (body buflen)) :
    EncoderLaws (fun buflen => coding (body buflen) buflen) (fun source => source.map code) := by
  have hlaws := encoderLaws_of_reads h (tight_charNext code)
  rwa [funext (units_charNext code)] at hlaws

theorem roundTrips_of_chars (h : ∀ buflen, Reads (charNext code) buflen (body buflen))
    (h' : ∀ buflen, Reads next' buflen (body' buflen))
    (hfit' : ∀ src p, next' src = some p → p.1.need ≤ p.1.cells.length + 1) (hne : ∀ ch, code ch ≠ [])
    (hback : ∀ ch rest, next' (code ch ++ rest) = some (.tight [ch], rest)) (source : List Uint8) :
    RoundTrips (fun buflen => coding (body buflen) buflen) (fun buflen => coding (body' buflen) buflen)
      (fun source => source.map code) source := by
  have hsource := @roundTrips_of_reads _ _ source (fun ch => [ch]) body body' next' code
    (fun ch => .tight [ch]) h (tight_charNext code) h' hfit' (fun _ _ => List.cons_ne_nil _ _)
    (fun ch _ => hne ch) (fun _ _ _ => rfl) (fun ch _ => hback ch) (fun _ _ => rfl)
  rwa [List.flatMap_singleton', funext (units_charNext code)] at hsource

end Characters

/-- A decoder of single characters. -/
def byteNext (read : List Uint8 → Option (Uint8 × List Uint8)) (src : List Uint8) :
    Option (Piece Uint8 × List Uint8) := (read src).map fun r => (.tight [r.1], r.2)

theorem tight_byteNext (read : List Uint8 → Option (Uint8 × List Uint8)) : Tight (byteNext read) := by
  intro src p h
  obtain ⟨r, -, rfl⟩ := Option.map_eq_some_iff.mp h
  rfl

theorem reads_byteNext {read : List Uint8 → Option (Uint8 × List Uint8)} (hnil : read [] = none)
    (hbody : ∀ src bs, body src (.written bs) = (read src).map fun r => (r.2, .written (bs ++ [r.1]))) :
    Reads (byteNext read) buflen body where
  nil := by
    rw [byteNext, hnil]
    rfl
  need src p h := by
    obtain ⟨r, -, rfl⟩ := Option.map_eq_some_iff.mp h
    exact le_rfl
  body src bs _ hguard := by
    rw [hbody, byteNext]
    cases read src with
    | none => rfl
    | some r =>
      rw [Option.map_some, Option.map_some, Option.bind_some]
      exact (if_pos (show bs.length + 2 ≤ buflen from hguard)).symm

end Libjingle.StringEncode
