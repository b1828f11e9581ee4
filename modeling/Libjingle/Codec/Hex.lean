import Libjingle.Codec.Escapes

/-!
# Hexadecimal texts (`base/stringencode.{h,cc}`)

Main results: **`hexDecodeLoop_spec`**, **`hex_exact_iff`**.
-/

namespace Libjingle.StringEncode

open Lib

/-! ## The functions -/

def hexEncodeLoop (delimiter : Uint8) : List Uint8 → Output Uint8 → Output Uint8
  | [], o => o
  | ch :: src, o =>
    let o := o.puts [hexEncode (ch >>> 4 &&& 0xF), hexEncode (ch &&& 0xF)]
    hexEncodeLoop delimiter src (if delimiter ≠ 0 ∧ src ≠ [] then o.put delimiter else o)

def encodeNeeded (delimiter : Uint8) (srclen : ℕ) : ℕ := if delimiter ≠ 0 then srclen * 3 else srclen * 2 + 1

/-- `hex_encode_with_delimiter`. -/
def hexEncodeWithDelimiter (buflen : ℕ) (source : List Uint8) (delimiter : Uint8) : ℕ × Output Uint8 :=
  if buflen = 0 then (0, {})
  else if buflen < encodeNeeded delimiter source.length then (0, {})
  else
    let o := hexEncodeLoop delimiter source {}
    (o.pos, o.terminate 0)

def hexDecodeLoop (delimiter : Uint8) : List Uint8 → Output Uint8 → ℕ × Output Uint8
  | [], o => (o.pos, o)
  | [_], o => (0, o)
  | a :: b :: src, o =>
    match hexPair a b with
    | none => (0, o)
    | some value =>
      match src with
      | d :: c :: rest =>
        if delimiter ≠ 0 then
          if d ≠ delimiter then (0, o.put value) else hexDecodeLoop delimiter (c :: rest) (o.put value)
        else hexDecodeLoop delimiter (d :: c :: rest) (o.put value)
      | rest => hexDecodeLoop delimiter rest (o.put value)

def decodeNeeded (delimiter : Uint8) (srclen : ℕ) : ℕ := if delimiter ≠ 0 then (srclen + 1) / 3 else srclen / 2

/-- `hex_decode_with_delimiter`. -/
def hexDecodeWithDelimiter (buflen : ℕ) (source : List Uint8) (delimiter : Uint8) : ℕ × Output Uint8 :=
  if buflen = 0 then (0, {})
  else if buflen < decodeNeeded delimiter source.length then (0, {})
  else hexDecodeLoop delimiter source {}

/-! ## Pairs of characters -/

/-- What stands between two pairs. -/
def separator (delimiter : Uint8) : List Uint8 := if delimiter ≠ 0 then [delimiter] else []

/-- Pairs of characters with the delimiter between them. -/
def joined (delimiter : Uint8) : List (Uint8 × Uint8) → List Uint8
  | [] => []
  | [p] => [p.1, p.2]
  | p :: q :: ps => p.1 :: p.2 :: (separator delimiter ++ joined delimiter (q :: ps))

/-- The two digits of a byte. -/
def hexDigits (ch : Uint8) : Uint8 × Uint8 := (hexEncode (ch >>> 4 &&& 0xF), hexEncode (ch &&& 0xF))

/-- The byte that two digits stand for. -/
def pairValue (p : Uint8 × Uint8) : Uint8 := (hexPair p.1 p.2).getD 0

section Joined

variable {delimiter : Uint8} {ps qs : List (Uint8 × Uint8)} {n : ℕ}

theorem joined_ne_nil (h : ps ≠ []) : joined delimiter ps ≠ [] := by
  match ps with
  | [] => exact absurd rfl h
  | [_] | _ :: _ :: _ => exact List.cons_ne_nil _ _

theorem joined_cons (p : Uint8 × Uint8) (h : ps ≠ []) :
    joined delimiter (p :: ps) = p.1 :: p.2 :: (separator delimiter ++ joined delimiter ps) := by
  cases ps with
  | nil => exact absurd rfl h
  | cons q ps => rfl

theorem length_joined (h : ps ≠ []) : (joined delimiter ps).length + 1 =
    if delimiter ≠ 0 then 3 * ps.length else 2 * ps.length + 1 := by
  induction ps with
  | nil => exact absurd rfl h
  | cons p ps ih =>
    cases ps with
    | nil => split <;> rfl
    | cons q ps =>
      have ih := ih (List.cons_ne_nil _ _)
      rw [joined, List.length_cons, List.length_cons, List.length_append, separator]
      simp only [List.length_cons] at ih ⊢
      split at ih
      · rw [if_pos ‹_›, if_pos ‹_›, List.length_singleton]
        omega
      · rw [if_neg ‹_›, if_neg ‹_›, List.length_nil]
        omega

theorem decodeNeeded_joined (h : ps ≠ []) : decodeNeeded delimiter (joined delimiter ps).length = ps.length := by
  have hlength := @length_joined delimiter ps h
  rw [decodeNeeded]
  split at hlength
  · rw [if_pos ‹_›]
    omega
  · rw [if_neg ‹_›]
    omega

theorem length_joined_lt (hpos : 0 < n) (h : encodeNeeded delimiter ps.length ≤ n) :
    (joined delimiter ps).length < n := by
  rcases eq_or_ne ps [] with rfl | hne
  · exact hpos
  · have hlength := @length_joined delimiter ps hne
    rw [encodeNeeded] at h
    split at hlength
    · rw [if_pos ‹_›] at h
      omega
    · rw [if_neg ‹_›] at h
      omega

theorem joined_inj (h : joined delimiter ps = joined delimiter qs) : ps = qs := by
  induction ps generalizing qs with
  | nil =>
    by_contra hne
    exact joined_ne_nil (Ne.symm hne) h.symm
  | cons p ps ih =>
    cases qs with
    | nil => exact absurd h (joined_ne_nil (List.cons_ne_nil _ _))
    | cons q qs =>
      cases ps with
      | nil =>
        cases qs with
        | nil => simpa [joined, Prod.ext_iff] using h
        | cons q' qs =>
          simp only [joined, List.cons.injEq] at h
          exact absurd (List.append_eq_nil_iff.mp h.2.2.symm).2 (joined_ne_nil (List.cons_ne_nil _ _))
      | cons p' ps =>
        cases qs with
        | nil =>
          simp only [joined, List.cons.injEq] at h
          exact absurd (List.append_eq_nil_iff.mp h.2.2).2 (joined_ne_nil (List.cons_ne_nil _ _))
        | cons q' qs =>
          simp only [joined, List.cons.injEq, List.append_cancel_left_eq] at h
          rw [ih h.2.2, Prod.ext h.1 h.2.1]

end Joined

/-! ## The loops -/

theorem hexEncodeLoop_eq (delimiter : Uint8) (src bs : List Uint8) :
    hexEncodeLoop delimiter src (.written bs) = .written (bs ++ joined delimiter (src.map hexDigits)) := by
  induction src generalizing bs with
  | nil => rw [hexEncodeLoop, List.map_nil, joined, List.append_nil]
  | cons ch src ih =>
    rw [hexEncodeLoop, Output.puts_written]
    cases src with
    | nil =>
      rw [if_neg (fun h => h.2 rfl), hexEncodeLoop]
      rfl
    | cons ch' src =>
      have hdigits : joined delimiter ((ch :: ch' :: src).map hexDigits) = [hexEncode (ch >>> 4 &&& 0xF),
          hexEncode (ch &&& 0xF)] ++ (separator delimiter ++ joined delimiter ((ch' :: src).map hexDigits)) :=
        rfl
      rw [hdigits, separator]
      by_cases hdelimiter : delimiter ≠ 0
      · rw [if_pos ⟨hdelimiter, List.cons_ne_nil _ _⟩, if_pos hdelimiter, Output.put_written, ih]
        simp only [List.append_assoc]
      · rw [if_neg (fun h => hdelimiter h.1), if_neg hdelimiter, ih]
        simp only [List.append_assoc, List.nil_append]

section Decoding

variable {delimiter : Uint8}

theorem hexDecodeLoop_joined {ps : List (Uint8 × Uint8)} (h : ∀ p ∈ ps, (hexPair p.1 p.2).isSome)
    (o : Output Uint8) : hexDecodeLoop delimiter (joined delimiter ps) o =
      (o.pos + ps.length, o.puts (ps.map pairValue)) := by
  induction ps generalizing o with
  | nil => rfl
  | cons p ps ih =>
    obtain ⟨hp, hps⟩ := List.forall_mem_cons.mp h
    obtain ⟨value, hvalue⟩ := Option.isSome_iff_exists.mp hp
    have hrest : hexDecodeLoop delimiter (joined delimiter ps) (o.put value) =
        (o.pos + (p :: ps).length, o.puts ((p :: ps).map pairValue)) := by
      rw [ih hps, List.map_cons, pairValue, hvalue, Option.getD_some, List.length_cons]
      exact Prod.ext (Nat.add_right_comm _ _ _) rfl
    rw [← hrest]
    match ps with
    | [] =>
      simp only [joined, hexDecodeLoop, hvalue]
    | q :: ps =>
      obtain ⟨c, rest, hc⟩ := List.exists_cons_of_ne_nil (@joined_ne_nil delimiter (q :: ps) (List.cons_ne_nil _ _))
      rw [joined, separator, hc]
      by_cases hdelimiter : delimiter ≠ 0
      · rw [if_pos hdelimiter, List.singleton_append, hexDecodeLoop, hvalue]
        dsimp only
        rw [if_pos hdelimiter, if_neg (not_not.mpr rfl)]
      · obtain ⟨c', rest', rfl⟩ : ∃ c' rest', rest = c' :: rest' := by
          have := @length_joined delimiter (q :: ps) (List.cons_ne_nil _ _)
          rw [hc, if_neg hdelimiter, List.length_cons, List.length_cons] at this
          exact List.exists_cons_of_length_pos (by omega)
        rw [if_neg hdelimiter, List.nil_append, hexDecodeLoop, hvalue]
        dsimp only
        rw [if_neg hdelimiter]

theorem hexDecodeLoop_spec (source : List Uint8) (o : Output Uint8) :
    (∃ cs, (hexDecodeLoop delimiter source o).2 = o.puts cs ∧
      cs.length ≤ decodeNeeded delimiter source.length) ∧
    ((hexDecodeLoop delimiter source o).1 ≠ 0 → ∃ ps, source = joined delimiter ps ∧
      ∀ p ∈ ps, (hexPair p.1 p.2).isSome) := by
  have hcons {a b value : Uint8} (hvalue : hexPair a b = some value) {ps : List (Uint8 × Uint8)}
      (hps : ∀ p ∈ ps, (hexPair p.1 p.2).isSome) : ∀ p ∈ (a, b) :: ps, (hexPair p.1 p.2).isSome :=
    List.forall_mem_cons.mpr ⟨by rw [hvalue]; rfl, hps⟩
  unfold decodeNeeded
  fun_induction hexDecodeLoop delimiter source o with
  | case1 o => exact ⟨⟨[], rfl, Nat.zero_le _⟩, fun _ => ⟨[], rfl, nofun⟩⟩
  | case2 ch o => exact ⟨⟨[], rfl, Nat.zero_le _⟩, fun h => absurd rfl h⟩
  | case3 a b src o hvalue => exact ⟨⟨[], rfl, Nat.zero_le _⟩, fun h => absurd rfl h⟩
  | case4 a b o value hvalue d c rest hdelimiter hother =>
    refine ⟨⟨[value], rfl, ?_⟩, fun h => absurd rfl h⟩
    rw [if_pos hdelimiter]
    simp only [List.length_cons, List.length_nil]
    omega
  | case5 a b o value hvalue d c rest hdelimiter hsame ih =>
    obtain rfl := not_not.mp hsame
    obtain ⟨⟨cs, hcs, hlength⟩, htaken⟩ := ih
    refine ⟨⟨value :: cs, hcs, ?_⟩, fun h => ?_⟩
    · rw [if_pos hdelimiter] at hlength ⊢
      simp only [List.length_cons] at hlength ⊢
      omega
    · obtain ⟨ps, hps, hall⟩ := htaken h
      have hne : ps ≠ [] := by
        rintro rfl
        cases hps
      refine ⟨(a, b) :: ps, ?_, hcons hvalue hall⟩
      rw [joined_cons _ hne, separator, if_pos hdelimiter, ← hps]
      rfl
  | case6 a b o value hvalue d c rest hdelimiter ih =>
    obtain ⟨⟨cs, hcs, hlength⟩, htaken⟩ := ih
    refine ⟨⟨value :: cs, hcs, ?_⟩, fun h => ?_⟩
    · rw [if_neg hdelimiter] at hlength ⊢
      simp only [List.length_cons] at hlength ⊢
      omega
    · obtain ⟨ps, hps, hall⟩ := htaken h
      have hne : ps ≠ [] := by
        rintro rfl
        cases hps
      refine ⟨(a, b) :: ps, ?_, hcons hvalue hall⟩
      rw [joined_cons _ hne, separator, if_neg hdelimiter, ← hps]
      rfl
  | case7 a b o value hvalue rest hshort ih =>
    match rest with
    | [] =>
      refine ⟨⟨[value], rfl, ?_⟩, fun _ => ⟨[(a, b)], rfl, hcons hvalue nofun⟩⟩
      split <;> simp
    | [ch] =>
      refine ⟨⟨[value], rfl, ?_⟩, fun h => absurd rfl h⟩
      split <;> simp
    | d :: c :: rest => exact (hshort d c rest rfl).elim

end Decoding

/-! ## The codec -/

def isHexDigit (ch : Uint8) : Bool :=
  (0x30 ≤ ch && ch ≤ 0x39) || (0x41 ≤ ch && ch ≤ 0x46) || (0x61 ≤ ch && ch ≤ 0x66)

def IsHexText (delimiter : Uint8) (buflen : ℕ) (source : List Uint8) : Prop :=
  ∃ pairs, pairs ≠ [] ∧ source = joined delimiter pairs ∧ pairs.length ≤ buflen ∧
    ∀ p ∈ pairs, isHexDigit p.1 ∧ isHexDigit p.2

def Spurious (delimiter : Uint8) (buflen : ℕ) (source : List Uint8) : Prop :=
  ∃ pairs, source = joined delimiter pairs ∧ pairs.length ≤ buflen ∧
    (∀ p ∈ pairs, (hexDecode p.1).isSome ∧ (hexDecode p.2).isSome) ∧
    ∃ p ∈ pairs, ¬(isHexDigit p.1 ∧ isHexDigit p.2)

def returned (r : ℕ × Output Uint8) (m : ℕ → Uint8) : List Uint8 := block (r.2.memory m) 0 r.1

def HexRoundTrips (delimiter : Uint8) (source : List Uint8) : Prop :=
  ∀ buflen buflen' m m', encodeNeeded delimiter source.length ≤ buflen → source.length ≤ buflen' →
    returned (hexDecodeWithDelimiter buflen' (returned (hexEncodeWithDelimiter buflen source delimiter) m)
      delimiter) m' = source

def Inside (buflen : ℕ) (r : ℕ × Output Uint8) : Prop := ∀ s ∈ r.2.stores, s.1 < buflen

theorem isSome_hexPair (a b : Uint8) : (hexPair a b).isSome ↔ (hexDecode a).isSome ∧ (hexDecode b).isSome := by
  unfold hexPair
  cases hexDecode a <;> cases hexDecode b <;> simp

set_option maxRecDepth 4000 in
theorem isSome_of_isHexDigit {ch : Uint8} (h : isHexDigit ch = true) : (hexDecode ch).isSome := by
  have hall : ∀ n : Fin 256, isHexDigit (BitVec.ofFin n) = true → (hexDecode (BitVec.ofFin n)).isSome := by
    decide
  exact hall ch.toFin h

section Codec

variable {delimiter : Uint8} {buflen : ℕ} {source : List Uint8}

theorem accepted_iff : (hexDecodeWithDelimiter buflen source delimiter).1 ≠ 0 ↔
    ∃ pairs, pairs ≠ [] ∧ source = joined delimiter pairs ∧ pairs.length ≤ buflen ∧
      ∀ p ∈ pairs, (hexDecode p.1).isSome ∧ (hexDecode p.2).isSome := by
  constructor
  · intro h
    rw [hexDecodeWithDelimiter] at h
    split at h
    · exact absurd rfl h
    · split at h
      · exact absurd rfl h
      · rename_i hroom
        obtain ⟨ps, rfl, hps⟩ := (@hexDecodeLoop_spec delimiter source {}).2 h
        have hne : ps ≠ [] := by
          rintro rfl
          exact h rfl
        rw [decodeNeeded_joined hne] at hroom
        exact ⟨ps, hne, rfl, Nat.le_of_not_lt hroom, fun p hp => (isSome_hexPair _ _).mp (hps p hp)⟩
  · rintro ⟨ps, hne, rfl, hfit, hps⟩
    have hlength := List.length_pos_of_ne_nil hne
    rw [hexDecodeWithDelimiter, if_neg (by omega), decodeNeeded_joined hne, if_neg (by omega),
      hexDecodeLoop_joined (fun p hp => (isSome_hexPair _ _).mpr (hps p hp))]
    exact Nat.ne_of_gt (Nat.add_pos_right _ hlength)

theorem accepted_iff_isHexText : ((hexDecodeWithDelimiter buflen source delimiter).1 ≠ 0 ↔
    IsHexText delimiter buflen source) ↔ ¬Spurious delimiter buflen source := by
  have hdigits {ps : List (Uint8 × Uint8)} (h : ∀ p ∈ ps, isHexDigit p.1 ∧ isHexDigit p.2) :
      ∀ p ∈ ps, (hexDecode p.1).isSome ∧ (hexDecode p.2).isSome := fun p hp =>
    ⟨isSome_of_isHexDigit (h p hp).1, isSome_of_isHexDigit (h p hp).2⟩
  rw [accepted_iff]
  constructor
  · rintro h ⟨ps, rfl, hfit, hps, p, hp, hnot⟩
    obtain ⟨ps', -, hsame, -, hall⟩ := h.mp ⟨ps, List.ne_nil_of_mem hp, rfl, hfit, hps⟩
    exact hnot (hall p (joined_inj hsame ▸ hp))
  · intro h
    constructor
    · rintro ⟨ps, hne, rfl, hfit, hps⟩
      refine ⟨ps, hne, rfl, hfit, fun p hp => ?_⟩
      by_contra hnot
      exact h ⟨ps, rfl, hfit, hps, p, hp, hnot⟩
    · rintro ⟨ps, hne, hsource, hfit, hall⟩
      exact ⟨ps, hne, hsource, hfit, hdigits hall⟩

theorem inside_hexDecode : Inside buflen (hexDecodeWithDelimiter buflen source delimiter) := by
  rw [hexDecodeWithDelimiter]
  split
  · exact nofun
  · split
    · exact nofun
    · rename_i hroom
      obtain ⟨cs, hcs, hlength⟩ := (@hexDecodeLoop_spec delimiter source {}).1
      intro s hs
      rw [hcs] at hs
      exact (Output.lt_of_mem_stores hs).trans_le (hlength.trans (Nat.le_of_not_lt hroom))

theorem inside_hexEncode : Inside buflen (hexEncodeWithDelimiter buflen source delimiter) := by
  rw [hexEncodeWithDelimiter]
  split
  · exact nofun
  · split
    · exact nofun
    · rename_i hpos hroom
      have hloop := hexEncodeLoop_eq delimiter source []
      rw [List.nil_append] at hloop
      change ∀ s ∈ ((hexEncodeLoop delimiter source (.written [])).terminate 0).stores, s.1 < buflen
      rw [hloop]
      refine Output.inside_iff.mpr (length_joined_lt (Nat.pos_of_ne_zero hpos) ?_)
      rw [List.length_map]
      exact Nat.le_of_not_lt hroom

/-- **Decoding undoes encoding**. -/
theorem hex_roundTrips (delimiter : Uint8) (source : List Uint8) : HexRoundTrips delimiter source := by
  intro buflen buflen' m m' hroom hroom'
  rcases eq_or_ne source [] with rfl | hne
  · have hencode : (hexEncodeWithDelimiter buflen [] delimiter).1 = 0 := by
      rw [hexEncodeWithDelimiter]
      split
      · rfl
      · split <;> rfl
    have hdecode : (hexDecodeWithDelimiter buflen' [] delimiter).1 = 0 := by
      rw [hexDecodeWithDelimiter]
      split
      · rfl
      · split <;> rfl
    have hcode : returned (hexEncodeWithDelimiter buflen [] delimiter) m = [] := by
      rw [returned, hencode]
      rfl
    rw [hcode, returned, hdecode]
    rfl
  · have hlength : 0 < source.length := List.length_pos_of_ne_nil hne
    have hpairs : source.map hexDigits ≠ [] := fun h => hne (List.map_eq_nil_iff.mp h)
    have hcode : returned (hexEncodeWithDelimiter buflen source delimiter) m =
        joined delimiter (source.map hexDigits) := by
      have hpos : buflen ≠ 0 := by
        rw [encodeNeeded] at hroom
        split at hroom <;> omega
      have hloop := hexEncodeLoop_eq delimiter source []
      rw [List.nil_append] at hloop
      rw [hexEncodeWithDelimiter, if_neg hpos, if_neg (Nat.not_lt.mpr hroom)]
      change ((hexEncodeLoop delimiter source (.written [])).terminate 0).text m = _
      rw [hloop, Output.text_terminate]
    have hvalue (ch : Uint8) : hexPair (hexDigits ch).1 (hexDigits ch).2 = some ch := hexPair_hexEncode ch
    have hloop := @hexDecodeLoop_joined delimiter (source.map hexDigits) (fun p hp => by
      obtain ⟨ch, -, rfl⟩ := List.mem_map.mp hp
      rw [hvalue]
      rfl) {}
    have hsource : (source.map hexDigits).map pairValue = source := by
      rw [List.map_map]
      refine List.map_id'' (fun ch => ?_) source
      rw [Function.comp_apply, pairValue, hvalue, Option.getD_some]
    rw [hcode, hexDecodeWithDelimiter, if_neg (by omega), decodeNeeded_joined hpairs,
      if_neg (by rw [List.length_map]; omega), hloop, hsource, List.length_map]
    have hpos : ({} : Output Uint8).pos + source.length = source.length := Nat.zero_add _
    rw [hpos]
    exact Output.block_memory_written source m'

/-- **The hexadecimal codec**: what is encoded is decoded, inside the buffers; only pairs of digits
are accepted, just if the text is not spurious. -/
theorem hex_exact_iff (delimiter : Uint8) (buflen : ℕ) (source : List Uint8) :
    HexRoundTrips delimiter source ∧ Inside buflen (hexEncodeWithDelimiter buflen source delimiter) ∧
      Inside buflen (hexDecodeWithDelimiter buflen source delimiter) ∧
      (((hexDecodeWithDelimiter buflen source delimiter).1 ≠ 0 ↔ IsHexText delimiter buflen source) ↔
        ¬Spurious delimiter buflen source) :=
  ⟨hex_roundTrips delimiter source, inside_hexEncode, inside_hexDecode, accepted_iff_isHexText⟩

end Codec

/-- Two letters are accepted. -/
theorem hex_accepts_letters : (hexDecodeWithDelimiter 1 (text "zz") 0).1 = 1 ∧
    ¬IsHexText 0 1 (text "zz") := by
  refine ⟨by decide, ?_⟩
  rintro ⟨pairs, -, hsource, -, hall⟩
  have hpairs : [(0x7A, 0x7A)] = pairs := joined_inj (show joined 0 [(0x7A, 0x7A)] = _ from hsource)
  have hdigits := hall (0x7A, 0x7A) (hpairs ▸ List.mem_singleton_self _)
  exact absurd hdigits.1 (by decide)

example : returned (hexEncodeWithDelimiter 9 [0x1F, 0xA0, 0x07] 0x3A) 0 = text "1f:a0:07" := by decide

end Libjingle.StringEncode
