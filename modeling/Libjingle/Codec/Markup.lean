import Libjingle.Codec.Utf8

/-!
# Markup

Main result: **`markup_roundTrip`**.
-/

namespace Libjingle.StringEncode

open Lib Http

/-! ## Escape sequences -/

set_option maxRecDepth 4000 in
theorem unsafe_cases {ch : Uint8} (h : isUnsafe XML_UNSAFE ch = true) :
    ch = 0x3C ∨ ch = 0x3E ∨ ch = 0x27 ∨ ch = 0x22 ∨ ch = 0x26 := by
  have hall : ∀ n : Fin 256, isUnsafe XML_UNSAFE (BitVec.ofFin n) = true →
      BitVec.ofFin n = 0x3C#8 ∨ BitVec.ofFin n = 0x3E#8 ∨ BitVec.ofFin n = 0x27#8 ∨
        BitVec.ofFin n = 0x22#8 ∨ BitVec.ofFin n = 0x26#8 := by decide
  exact hall ch.toFin h

/-- What `xml_encode` makes of a character. -/
def xmlUnit (ch : Uint8) : List Uint8 := if isUnsafe XML_UNSAFE ch then xmlEscape ch else [ch]

/-- What `html_encode` makes of a character of ASCII. -/
def htmlUnit (ch : Uint8) : List Uint8 := if isUnsafe HTML_UNSAFE ch then htmlEscape ch else [ch]

def reference (value : ℕ) : List Uint8 := text "&#" ++ formatNumber 10 1 value ++ text ";"

theorem xmlUnit_ne_nil (ch : Uint8) : xmlUnit ch ≠ [] := by
  rw [xmlUnit]
  split
  · rename_i h
    rcases unsafe_cases h with rfl | rfl | rfl | rfl | rfl <;> decide
  · exact List.cons_ne_nil _ _

theorem htmlUnit_ne_nil (ch : Uint8) : htmlUnit ch ≠ [] := by
  rw [htmlUnit]
  split
  · rename_i h
    rcases unsafe_cases h with rfl | rfl | rfl | rfl | rfl <;> decide
  · exact List.cons_ne_nil _ _

theorem sprintfn_eq {value : ℕ} (h : value < 2 ^ 21) : sprintfn 11 value = reference value := by
  have hdigits : (Nat.digits 10 value).length ≤ 7 :=
    (Nat.digits_length_le_iff (by decide) value).mpr (h.trans (by decide))
  refine List.take_of_length_le ?_
  have hmark : (text "&#").length = 2 ∧ (text ";").length = 1 := by decide
  simp only [formatNumber, List.length_append, List.length_replicate, List.length_map, List.length_reverse,
    hmark]
  omega

/-! ## The loops of the encoders -/

theorem reads_xmlEncode (buflen : ℕ) : Reads (charNext xmlUnit) buflen (xmlEncodeBody buflen) := by
  refine reads_charNext xmlUnit_ne_nil fun ch src bs hguard => ?_
  rw [xmlEncodeBody, xmlUnit, Output.pos_written]
  split
  · dsimp only
    rw [Output.puts_written]
  · rw [if_neg (show ¬bs.length + [ch].length ≥ buflen from Nat.not_le.mpr hguard), Output.put_written]

/-- What `html_encode` reads, and what it makes of it. -/
def htmlNext : List Uint8 → Option (Piece Uint8 × List Uint8)
  | [] => none
  | ch :: src =>
    if ch < 128 then some (.tight (htmlUnit ch), src)
    else
      let decoded := (utf8Decode (ch :: src)).getD (1, ch.toNat)
      some (.tight (reference decoded.2), (ch :: src).drop decoded.1)

theorem tight_htmlNext : Tight htmlNext
  | [], _, h => by cases h
  | ch :: src, p, h => by
    rw [htmlNext] at h
    split at h <;> cases h <;> rfl

theorem reads_htmlEncode (buflen : ℕ) : Reads htmlNext buflen (htmlEncodeBody buflen) where
  nil := rfl
  need
    | [], _, h => by cases h
    | ch :: src, p, h => by
      rw [htmlNext] at h
      split at h
      · cases h
        exact Nat.succ_le_succ (List.length_pos_of_ne_nil (htmlUnit_ne_nil ch))
      · cases h
        exact Nat.succ_le_succ (Nat.succ_pos _)
  body
    | [], _, hsrc, _ => absurd rfl hsrc
    | ch :: src, bs, _, hguard => by
      have hvalue : ((utf8Decode (ch :: src)).getD (1, ch.toNat)).2 < 2 ^ 21 := by
        cases hdecoded : utf8Decode (ch :: src) with
        | none => exact (BitVec.isLt ch).trans (by decide)
        | some r => exact utf8Decode_lt hdecoded
      rw [htmlEncodeBody, htmlNext, htmlUnit, Output.pos_written]
      dsimp only
      split
      · rw [bind_tight]
        split
        · rw [Output.puts_written]
        · rw [if_neg (show ¬bs.length + [ch].length ≥ buflen from Nat.not_le.mpr hguard),
            Output.put_written]
      · rw [sprintfn_eq hvalue, bind_tight, Output.puts_written]

/-! ## Decoding -/

theorem not_starts {s t : List Uint8} (n : ℕ) (hs : n ≤ s.length) (ht : n ≤ t.length)
    (hne : s.take n ≠ t.take n) (rest : List Uint8) : ¬s <+: t ++ rest := by
  intro h
  have htake : s.take n <+: t.take n := by
    have := h.take n
    rwa [List.take_append_of_le_length ht] at this
  refine hne (htake.eq_of_length ?_)
  rw [List.length_take_of_le hs, List.length_take_of_le ht]

theorem xmlNext_named (rest : List Uint8) :
    xmlNext (text "&lt;" ++ rest) = some (.tight [0x3C], rest) ∧
      xmlNext (text "&gt;" ++ rest) = some (.tight [0x3E], rest) ∧
      xmlNext (text "&apos;" ++ rest) = some (.tight [0x27], rest) ∧
      xmlNext (text "&quot;" ++ rest) = some (.tight [0x22], rest) ∧
      xmlNext (text "&amp;" ++ rest) = some (.tight [0x26], rest) := by
  have hamp : ¬(0x26 : Uint8) ≠ 0x26 := by decide
  have hnot {s t : List Uint8} := @not_starts s t 2
  refine ⟨?_, ?_, ?_, ?_, ?_⟩
  · change xmlNext (0x26 :: (text "lt;" ++ rest)) = _
    rw [xmlNext, if_neg hamp, if_pos (List.prefix_append _ _)]
    rfl
  · change xmlNext (0x26 :: (text "gt;" ++ rest)) = _
    rw [xmlNext, if_neg hamp, if_neg (hnot (by decide) (by decide) (by decide) _),
      if_pos (List.prefix_append _ _)]
    rfl
  · change xmlNext (0x26 :: (text "apos;" ++ rest)) = _
    rw [xmlNext, if_neg hamp, if_neg (hnot (by decide) (by decide) (by decide) _),
      if_neg (hnot (by decide) (by decide) (by decide) _), if_pos (List.prefix_append _ _)]
    rfl
  · change xmlNext (0x26 :: (text "quot;" ++ rest)) = _
    rw [xmlNext, if_neg hamp, if_neg (hnot (by decide) (by decide) (by decide) _),
      if_neg (hnot (by decide) (by decide) (by decide) _),
      if_neg (hnot (by decide) (by decide) (by decide) _), if_pos (List.prefix_append _ _)]
    rfl
  · change xmlNext (0x26 :: (text "amp;" ++ rest)) = _
    rw [xmlNext, if_neg hamp, if_neg (hnot (by decide) (by decide) (by decide) _),
      if_neg (hnot (by decide) (by decide) (by decide) _),
      if_neg (hnot (by decide) (by decide) (by decide) _),
      if_neg (hnot (by decide) (by decide) (by decide) _), if_pos (List.prefix_append _ _)]
    rfl

theorem strtoul_formatNumber {v : ℕ} (h : v < 2 ^ 64) (rest : List Uint8) :
    strtoul false (formatNumber 10 1 v ++ text ";" ++ rest) = (v, text ";" ++ rest) := by
  have hscan : scanNumber 10 (formatNumber 10 1 v ++ (text ";" ++ rest)) = some (v, text ";" ++ rest) :=
    scanNumber_formatNumber (by decide) (by decide) (by decide) h (by
      rintro ch hch
      obtain rfl : 0x3B = ch := Option.some.inj hch
      decide)
  rw [strtoul, if_neg Bool.false_ne_true, List.append_assoc, hscan]
  rfl

theorem isHex_formatNumber (v : ℕ) (ch : Uint8) (rest : List Uint8) :
    isHex (ch :: (formatNumber 10 1 v ++ rest)) = false := by
  have hne : formatNumber 10 1 v ≠ [] := formatNumber_ne_nil Nat.one_pos
  obtain ⟨ds, hds, hlt, -⟩ := @formatNumber_eq 10 1 v (by decide)
  rw [hds] at hne ⊢
  cases ds with
  | nil => exact absurd rfl hne
  | cons d ds =>
    have hall : ∀ d : Fin 10, digitChar d ≠ 0x78 := by decide
    have hd : digitChar d ≠ 0x78 := hall ⟨d, hlt d List.mem_cons_self⟩
    exact decide_eq_false fun h => hd (Option.some.inj h)

theorem xmlNext_reference {v : ℕ} (h : v ≤ 0x1FFFFF) (rest : List Uint8) :
    xmlNext (reference v ++ rest) = some (characterPiece v, rest) := by
  have hnot {s t : List Uint8} := @not_starts s t 1
  have hsrc : reference v ++ rest = 0x26 :: (text "#" ++ (formatNumber 10 1 v ++ text ";" ++ rest)) := by
    rw [reference]
    simp only [List.append_assoc]
    rfl
  have hhex : isHex (text "#" ++ (formatNumber 10 1 v ++ text ";" ++ rest)) = false := by
    rw [List.append_assoc]
    exact isHex_formatNumber v _ _
  have hhead : (text "#" ++ (formatNumber 10 1 v ++ text ";" ++ rest)).head? = some 0x23 := rfl
  rw [hsrc, xmlNext, if_neg (show ¬(0x26 : Uint8) ≠ 0x26 by decide),
    if_neg (hnot (by decide) (by decide) (by decide) _), if_neg (hnot (by decide) (by decide) (by decide) _),
    if_neg (hnot (by decide) (by decide) (by decide) _), if_neg (hnot (by decide) (by decide) (by decide) _),
    if_neg (hnot (by decide) (by decide) (by decide) _), if_pos hhead, digitsOf, hhex,
    if_neg Bool.false_ne_true]
  have hvalue := strtoul_formatNumber (h.trans_lt (by decide)) rest
  change strtoul false ((text "#" ++ (formatNumber 10 1 v ++ text ";" ++ rest)).drop 1) = _ at hvalue
  rw [hvalue]
  exact if_pos ⟨rfl, h⟩

theorem xmlNext_safe {ch : Uint8} (h : ¬isUnsafe XML_UNSAFE ch = true) (rest : List Uint8) :
    xmlNext ([ch] ++ rest) = some (.tight [ch], rest) := by
  have hamp : ch ≠ 0x26 := by
    rintro rfl
    exact h (by decide)
  exact if_pos hamp

/-- What `xml_encode` writes for a byte is decoded to it. -/
theorem xmlNext_xmlUnit (ch : Uint8) (rest : List Uint8) :
    xmlNext (xmlUnit ch ++ rest) = some (.tight [ch], rest) := by
  obtain ⟨hlt, hgt, hapos, hquot, hamp⟩ := xmlNext_named rest
  rw [xmlUnit]
  split
  · rename_i h
    rcases unsafe_cases h with rfl | rfl | rfl | rfl | rfl
    · exact hlt
    · exact hgt
    · exact hapos
    · exact hquot
    · exact hamp
  · exact xmlNext_safe ‹_› rest

theorem xmlNext_htmlUnit (ch : Uint8) (rest : List Uint8) :
    xmlNext (htmlUnit ch ++ rest) = some (.tight [ch], rest) := by
  obtain ⟨hlt, hgt, -, hquot, hamp⟩ := xmlNext_named rest
  rw [htmlUnit]
  split
  · rename_i h
    rcases unsafe_cases h with rfl | rfl | rfl | rfl | rfl
    · exact hlt
    · exact hgt
    · have hnumber : htmlEscape 0x27 = reference 39 := by decide
      rw [hnumber, xmlNext_reference (by decide)]
      rfl
    · exact hquot
    · exact hamp
  · exact xmlNext_safe ‹_› rest

/-! ## Canonical texts as HTML -/

def htmlCode (v : ℕ) : List Uint8 := if v ≤ 0x7F then htmlUnit (BitVec.ofNat 8 v) else reference v

theorem htmlCode_ne_nil (v : ℕ) : htmlCode v ≠ [] := by
  rw [htmlCode]
  split
  · exact htmlUnit_ne_nil _
  · exact List.cons_ne_nil _ _

theorem htmlNext_utf8Bytes {v : ℕ} (h : v ≤ 0x1FFFFF) (rest : List Uint8) :
    htmlNext (utf8Bytes v ++ rest) = some (.tight (htmlCode v), rest) := by
  rw [htmlCode]
  split
  · rename_i hascii
    have hsmall : BitVec.ofNat 8 v < 128 := by
      rw [BitVec.lt_def, BitVec.toNat_ofNat]
      exact (Nat.mod_le _ _).trans_lt (Nat.lt_succ_of_le hascii)
    rw [utf8Bytes_ascii hascii]
    exact if_pos hsmall
  · obtain ⟨hdecode, b, bs, hbytes, hlarge⟩ := utf8Decode_utf8Bytes (Nat.lt_of_not_le ‹_›) h rest
    rw [hbytes, List.cons_append] at hdecode ⊢
    rw [htmlNext, if_neg hlarge, hdecode, Option.getD_some]
    dsimp only
    rw [← List.cons_append, List.drop_left]

/-- A numeric reference is decoded to its character. -/
theorem xmlNext_htmlCode {v : ℕ} (h : v ≤ 0x1FFFFF) (rest : List Uint8) :
    xmlNext (htmlCode v ++ rest) = some (characterPiece v, rest) := by
  rw [htmlCode]
  split
  · rename_i hascii
    have hpiece : characterPiece v = .tight [BitVec.ofNat 8 v] := by
      rw [characterPiece, utf8Bytes_ascii hascii]
      rfl
    rw [hpiece]
    exact xmlNext_htmlUnit _ rest
  · exact xmlNext_reference h rest

/-! ## Encoding and decoding -/

def htmlUnits (source : List Uint8) : List (List Uint8) := (sourcePieces htmlNext source).map Piece.cells

theorem xml_roundTrips (source beyond : List Uint8) :
    RoundTrips xmlEncode (fun buflen source => xmlDecode buflen source beyond)
      (fun source => source.map xmlUnit) source :=
  roundTrips_of_chars reads_xmlEncode (reads_xmlDecode beyond)
    (fun src p hnext => (xmlNext_piece src p hnext).2.2.2) xmlUnit_ne_nil xmlNext_xmlUnit source

theorem html_roundTrips {source : List Uint8} (h : Canonical source) (beyond : List Uint8) :
    RoundTrips htmlEncode (fun buflen source => htmlDecode buflen source beyond) htmlUnits source := by
  obtain ⟨vs, hvs, rfl⟩ := h
  exact @roundTrips_of_reads _ _ vs utf8Bytes htmlEncodeBody (xmlDecodeBody beyond) xmlNext htmlCode
    characterPiece reads_htmlEncode tight_htmlNext (reads_xmlDecode beyond)
    (fun src p hnext => (xmlNext_piece src p hnext).2.2.2) (fun v hv => utf8Bytes_ne_nil (hvs v hv))
    (fun v _ => htmlCode_ne_nil v) (fun v hv => htmlNext_utf8Bytes (hvs v hv))
    (fun v hv => xmlNext_htmlCode (hvs v hv)) (fun _ _ => rfl)

/-- **Markup**: the decoders take back what the encoders write, and with any buffer these stay
inside it and write whole units. -/
theorem markup_roundTrip (source beyond : List Uint8) :
    EncoderLaws xmlEncode (fun source => source.map xmlUnit) ∧ EncoderLaws htmlEncode htmlUnits ∧
      RoundTrips xmlEncode (fun buflen source => xmlDecode buflen source beyond)
        (fun source => source.map xmlUnit) source ∧
      (Canonical source →
        RoundTrips htmlEncode (fun buflen source => htmlDecode buflen source beyond) htmlUnits source) :=
  ⟨encoderLaws_of_chars reads_xmlEncode, encoderLaws_of_reads reads_htmlEncode tight_htmlNext,
    xml_roundTrips source beyond, fun h => html_roundTrips h beyond⟩

/-- A text with a character of two bytes. -/
theorem markup_roundTrip_sample : RoundTrips htmlEncode (fun buflen source => htmlDecode buflen source [])
    htmlUnits (Markup.encode ['é', '<', '&']) :=
  (markup_roundTrip (Markup.encode ['é', '<', '&']) []).2.2.2 (canonical_encode _)

example : (htmlEncode 20 (Markup.encode ['é', '<', '&'])).text 0 = text "&#233;&lt;&amp;" := by decide

end Libjingle.StringEncode
