import Libjingle.Codec.Laws

/-!
# Escape characters and hexadecimal digits

Main result: **`escapes_roundTrip`**.
-/

namespace Libjingle.StringEncode

open Lib

variable {illegal : List Uint8} {esc : Uint8} {buflen : ℕ}

/-! ## `escape` and `unescape` -/

/-- What `escape` writes for a character. -/
def escapeUnit (illegal : List Uint8) (esc ch : Uint8) : List Uint8 :=
  if ch == esc || strchr illegal ch then [esc, ch] else [ch]

theorem escapeUnit_ne_nil (ch : Uint8) : escapeUnit illegal esc ch ≠ [] := by
  rw [escapeUnit]
  split <;> exact List.cons_ne_nil _ _

/-- `escape` reads piece by piece. -/
theorem reads_escape (buflen : ℕ) :
    Reads (charNext (escapeUnit illegal esc)) buflen (escapeBody illegal esc buflen) := by
  refine reads_charNext escapeUnit_ne_nil fun ch src bs hguard => ?_
  rw [escapeBody, escapeUnit, Output.pos_written]
  split
  · rw [Output.put_written, Output.put_written, List.append_assoc]
    rfl
  · rw [if_neg (show ¬bs.length + [ch].length ≥ buflen from Nat.not_le.mpr hguard), Output.put_written]

def unescapeRead (esc : Uint8) : List Uint8 → Option (Uint8 × List Uint8)
  | [] => none
  | [ch] => some (ch, [])
  | ch :: ch' :: src => if ch = esc then some (ch', src) else some (ch, ch' :: src)

/-- `unescape` reads piece by piece. -/
theorem reads_unescape (buflen : ℕ) : Reads (byteNext (unescapeRead esc)) buflen (unescapeBody esc) := by
  refine reads_byteNext rfl fun src bs => ?_
  match src with
  | [] => rfl
  | [ch] => rw [unescapeBody, Output.put_written]; rfl
  | ch :: ch' :: src =>
    rw [unescapeBody, unescapeRead, Output.put_written, Output.put_written]
    split <;> rfl

theorem unescapeRead_escapeUnit (ch : Uint8) (rest : List Uint8) :
    unescapeRead esc (escapeUnit illegal esc ch ++ rest) = some (ch, rest) := by
  rw [escapeUnit]
  split
  · exact if_pos rfl
  · rename_i hplain
    have hne : ch ≠ esc := by
      rintro rfl
      simp at hplain
    cases rest with
    | nil => rfl
    | cons ch' rest => exact if_neg hne

/-! ## `encode` and `decode` -/

set_option maxRecDepth 4000 in
theorem hexPair_hexEncode (ch : Uint8) :
    hexPair (hexEncode (ch >>> 4 &&& 0xF)) (hexEncode (ch &&& 0xF)) = some ch := by
  have hall : ∀ n : Fin 256, hexPair (hexEncode (BitVec.ofFin n >>> 4 &&& 0xF))
      (hexEncode (BitVec.ofFin n &&& 0xF)) = some (BitVec.ofFin n) := by decide
  exact hall ch.toFin

/-- A character as an escape character and two digits. -/
def hexUnit (esc ch : Uint8) : List Uint8 := [esc, hexEncode (ch >>> 4 &&& 0xF), hexEncode (ch &&& 0xF)]

/-- What `encode` writes for a character. -/
def encodeUnit (illegal : List Uint8) (esc ch : Uint8) : List Uint8 :=
  if ch != esc && !strchr illegal ch then [ch] else hexUnit esc ch

theorem encodeUnit_ne_nil (ch : Uint8) : encodeUnit illegal esc ch ≠ [] := by
  rw [encodeUnit]
  split <;> exact List.cons_ne_nil _ _

theorem reads_encode (buflen : ℕ) :
    Reads (charNext (encodeUnit illegal esc)) buflen (encodeBody illegal esc buflen) := by
  refine reads_charNext encodeUnit_ne_nil fun ch src bs hguard => ?_
  rw [encodeBody, encodeUnit, Output.pos_written]
  split
  · rw [if_neg (show ¬bs.length + [ch].length ≥ buflen from Nat.not_le.mpr hguard), Output.put_written]
  · rw [Output.puts_written]
    rfl

def decodeRead (esc : Uint8) : List Uint8 → Option (Uint8 × List Uint8)
  | [] => none
  | ch :: a :: b :: src =>
    if ch = esc then (hexPair a b).elim (some (ch, a :: b :: src)) fun value => some (value, src)
    else some (ch, a :: b :: src)
  | ch :: src => some (ch, src)

theorem reads_decode (buflen : ℕ) : Reads (byteNext (decodeRead esc)) buflen (decodeBody esc) := by
  refine reads_byteNext rfl fun src bs => ?_
  match src with
  | [] => rfl
  | [ch] => simp only [decodeBody, decodeRead, Output.put_written, Option.map_some]
  | [ch, a] => simp only [decodeBody, decodeRead, Output.put_written, Option.map_some]
  | ch :: a :: b :: src =>
    simp only [decodeBody, decodeRead, Output.put_written]
    split
    · cases hexPair a b <;> rfl
    · rfl

theorem decodeRead_encodeUnit (ch : Uint8) (rest : List Uint8) :
    decodeRead esc (encodeUnit illegal esc ch ++ rest) = some (ch, rest) := by
  rw [encodeUnit]
  split
  · rename_i hplain
    have hne : ch ≠ esc := by
      rintro rfl
      simp at hplain
    match rest with
    | [] => rfl
    | [a] => rfl
    | a :: b :: rest => exact if_neg hne
  · rw [hexUnit, List.cons_append, List.cons_append, List.cons_append, List.nil_append, decodeRead,
      if_pos rfl, hexPair_hexEncode]
    rfl

/-! ## `url_encode` and `url_decode` -/

/-- What `url_encode` makes of a character. -/
def urlUnit (ch : Uint8) : List Uint8 := if isUnsafe URL_UNSAFE ch then hexUnit 0x25 ch else [ch]

theorem urlUnit_ne_nil (ch : Uint8) : urlUnit ch ≠ [] := by
  rw [urlUnit]
  split <;> exact List.cons_ne_nil _ _

theorem reads_urlEncode (buflen : ℕ) : Reads (charNext urlUnit) buflen (urlEncodeBody buflen) := by
  refine reads_charNext urlUnit_ne_nil fun ch src bs hguard => ?_
  rw [urlEncodeBody, urlUnit, Output.pos_written]
  split
  · rw [Output.puts_written]
    rfl
  · rw [if_neg (show ¬bs.length + [ch].length ≥ buflen from Nat.not_le.mpr hguard), Output.put_written]

def urlDecodeRead : List Uint8 → Option (Uint8 × List Uint8)
  | [] => none
  | ch :: a :: b :: src =>
    if ch = 0x2B then some (0x20, a :: b :: src)
    else if ch = 0x25 then (hexPair a b).elim (some (ch, a :: b :: src)) fun value => some (value, src)
    else some (ch, a :: b :: src)
  | ch :: src => some (if ch = 0x2B then 0x20 else ch, src)

theorem reads_urlDecode (buflen : ℕ) : Reads (byteNext urlDecodeRead) buflen urlDecodeBody := by
  refine reads_byteNext rfl fun src bs => ?_
  match src with
  | [] => rfl
  | [ch] => simp only [urlDecodeBody, urlDecodeRead, Output.put_written, Option.map_some]
  | [ch, a] => simp only [urlDecodeBody, urlDecodeRead, Output.put_written, Option.map_some]
  | ch :: a :: b :: src =>
    simp only [urlDecodeBody, urlDecodeRead, Output.put_written]
    split
    · rfl
    · split
      · cases hexPair a b <;> rfl
      · rfl

theorem isUnsafe_plus_percent : isUnsafe URL_UNSAFE 0x2B = true ∧ isUnsafe URL_UNSAFE 0x25 = true := by
  decide

theorem urlDecodeRead_urlUnit (ch : Uint8) (rest : List Uint8) :
    urlDecodeRead (urlUnit ch ++ rest) = some (ch, rest) := by
  rw [urlUnit]
  split
  · rw [hexUnit, List.cons_append, List.cons_append, List.cons_append, List.nil_append, urlDecodeRead,
      if_neg (by decide), if_pos rfl, hexPair_hexEncode]
    rfl
  · rename_i hsafe
    have hplus : ch ≠ 0x2B := by
      rintro rfl
      exact hsafe isUnsafe_plus_percent.1
    have hpercent : ch ≠ 0x25 := by
      rintro rfl
      exact hsafe isUnsafe_plus_percent.2
    match rest with
    | [] => exact congrArg (fun ch => some (ch, [])) (if_neg hplus)
    | [a] => exact congrArg (fun ch => some (ch, [a])) (if_neg hplus)
    | a :: b :: rest => exact (if_neg hplus).trans (if_neg hpercent)

/-! ## The three pairs -/

theorem laws_of_units {body : ℕ → List Uint8 → Output Uint8 → Option (List Uint8 × Output Uint8)}
    {body' : List Uint8 → Output Uint8 → Option (List Uint8 × Output Uint8)} {unit : Uint8 → List Uint8}
    {read : List Uint8 → Option (Uint8 × List Uint8)}
    (henc : ∀ buflen, Reads (charNext unit) buflen (body buflen)) (hne : ∀ ch, unit ch ≠ [])
    (hdec : ∀ buflen, Reads (byteNext read) buflen body')
    (hback : ∀ ch rest, read (unit ch ++ rest) = some (ch, rest)) :
    EncoderLaws (fun buflen => coding (body buflen) buflen) (fun source => source.map unit) ∧
      DecoderLaws (fun buflen => coding body' buflen) ∧
      ∀ source, RoundTrips (fun buflen => coding (body buflen) buflen) (fun buflen => coding body' buflen)
        (fun source => source.map unit) source := by
  refine ⟨encoderLaws_of_chars henc, decoderLaws_of_reads hdec (tight_byteNext read), fun source => ?_⟩
  refine roundTrips_of_chars henc hdec (fun src p hnext => (tight_byteNext read src p hnext).le) hne
    (fun ch rest => ?_) source
  rw [byteNext, hback]
  rfl

/-- **Escape characters, hexadecimal digits and URLs**: all six functions stay inside their buffers,
whole units are written, and what was encoded is decoded. -/
theorem escapes_roundTrip (illegal : List Uint8) (esc : Uint8) :
    (EncoderLaws (fun buflen source => escape buflen source illegal esc)
        (fun source => source.map (escapeUnit illegal esc)) ∧
      DecoderLaws (fun buflen source => unescape buflen source esc) ∧
      ∀ source, RoundTrips (fun buflen source => escape buflen source illegal esc)
        (fun buflen source => unescape buflen source esc)
        (fun source => source.map (escapeUnit illegal esc)) source) ∧
    (EncoderLaws (fun buflen source => encode buflen source illegal esc)
        (fun source => source.map (encodeUnit illegal esc)) ∧
      DecoderLaws (fun buflen source => decode buflen source esc) ∧
      ∀ source, RoundTrips (fun buflen source => encode buflen source illegal esc)
        (fun buflen source => decode buflen source esc)
        (fun source => source.map (encodeUnit illegal esc)) source) ∧
    EncoderLaws (urlEncode true) (fun source => source.map urlUnit) ∧ DecoderLaws (urlDecode true) ∧
      ∀ source, RoundTrips (urlEncode true) (urlDecode true) (fun source => source.map urlUnit) source :=
  ⟨laws_of_units reads_escape escapeUnit_ne_nil reads_unescape unescapeRead_escapeUnit,
    laws_of_units reads_encode encodeUnit_ne_nil reads_decode decodeRead_encodeUnit,
    laws_of_units reads_urlEncode urlUnit_ne_nil reads_urlDecode urlDecodeRead_urlUnit⟩

example : (encode 8 (text "a/b/c") (text "/") 0x25).text 0 = text "a%2fb" := by decide

end Libjingle.StringEncode
