import Libjingle.Codec.Laws

/-!
# The decoding of entities

Main results: **`reads_xmlDecode`**, **`decode_contained_iff`**.
-/

namespace Libjingle.StringEncode

open Lib Http

/-! ## Numbers -/

section Numbers

variable {p : Uint8 → Bool} {c : Uint8} {s t : List Uint8}

theorem takeWhile_stop (h : p c = false) : (s ++ c :: t).takeWhile p = s.takeWhile p := by
  induction s with
  | nil => simp [h]
  | cons a s ih =>
    rw [List.cons_append, List.takeWhile_cons, List.takeWhile_cons, ih]

theorem dropWhile_stop (h : p c = false) : (s ++ c :: t).dropWhile p = s.dropWhile p ++ c :: t := by
  induction s with
  | nil => simp [h]
  | cons a s ih =>
    rw [List.cons_append, List.dropWhile_cons, List.dropWhile_cons, ih]
    split <;> rfl

theorem scanSign_stop : scanSign (s ++ 0x3B :: t) = ((scanSign s).1, (scanSign s).2 ++ 0x3B :: t) := by
  cases s with
  | nil => rfl
  | cons a s =>
    rw [List.cons_append, scanSign, scanSign]
    split
    · rfl
    · split <;> rfl

theorem skipPrefix_stop : skipPrefix (s ++ 0x3B :: t) = skipPrefix s ++ 0x3B :: t := by
  match s with
  | [] =>
    match t with
    | [] | [_] => rfl
    | a :: b :: t => simp [skipPrefix]
  | [z] =>
    match t with
    | [] => rfl
    | a :: t => simp [skipPrefix]
  | [z, x] =>
    have hdigit : (hexDigit 0x3B#8).isSome = false := by decide
    simp [skipPrefix, hdigit]
  | z :: x :: d :: s =>
    simp only [List.cons_append, skipPrefix]
    split <;> rfl

def numberOf (base : ℕ) (digit : Uint8 → Option ℕ) (negative : Bool) (number s : List Uint8) :
    ℕ × List Uint8 :=
  let digits := number.takeWhile fun ch => (digit ch).isSome
  if digits = [] then (0, s)
  else (signedValue negative (digitsValue base (digits.filterMap digit)), number.drop digits.length)

theorem strtoul_hex (s : List Uint8) : strtoul true s = numberOf 16 hexDigit
    (scanSign (s.dropWhile isspace)).1 (skipPrefix (scanSign (s.dropWhile isspace)).2) s := rfl

theorem strtoul_dec (s : List Uint8) : strtoul false s = numberOf 10 (digitOf 10)
    (scanSign (s.dropWhile isspace)).1 (scanSign (s.dropWhile isspace)).2 s := by
  simp only [strtoul, Bool.false_eq_true, if_false, scanNumber, numberOf]
  split <;> rfl

theorem numberOf_stop {base : ℕ} {digit : Uint8 → Option ℕ} (h : digit c = none) (negative : Bool)
    (number s : List Uint8) : numberOf base digit negative (number ++ c :: t) (s ++ c :: t) =
      ((numberOf base digit negative number s).1, (numberOf base digit negative number s).2 ++ c :: t) := by
  have hstop : (number ++ c :: t).takeWhile (fun ch => (digit ch).isSome) =
      number.takeWhile fun ch => (digit ch).isSome := takeWhile_stop (by rw [h]; rfl)
  simp only [numberOf, hstop]
  split
  · rfl
  · rw [List.drop_append_of_le_length (List.takeWhile_prefix _).length_le]

theorem strtoul_stop (hex : Bool) : strtoul hex (s ++ 0x3B :: t) =
    ((strtoul hex s).1, (strtoul hex s).2 ++ 0x3B :: t) := by
  have hspace : isspace 0x3B = false := by decide
  cases hex with
  | true =>
    rw [strtoul_hex, strtoul_hex, dropWhile_stop hspace, scanSign_stop, skipPrefix_stop]
    exact numberOf_stop (by decide) _ _ _
  | false =>
    rw [strtoul_dec, strtoul_dec, dropWhile_stop hspace, scanSign_stop]
    exact numberOf_stop (by decide) _ _ _

theorem scanSign_suffix (s : List Uint8) : (scanSign s).2 <:+ s := by
  cases s with
  | nil => exact List.suffix_rfl
  | cons a s =>
    rw [scanSign]
    split
    · exact List.suffix_cons a s
    · split
      · exact List.suffix_cons a s
      · exact List.suffix_rfl

theorem skipPrefix_suffix (s : List Uint8) : skipPrefix s <:+ s := by
  match s with
  | [] | [_] | [_, _] => exact List.suffix_rfl
  | z :: x :: d :: s =>
    rw [skipPrefix]
    split
    · exact ⟨[z, x], rfl⟩
    · exact List.suffix_rfl

theorem numberOf_suffix {base : ℕ} {digit : Uint8 → Option ℕ} (negative : Bool) {number s : List Uint8}
    (h : number <:+ s) : (numberOf base digit negative number s).2 <:+ s := by
  rw [numberOf]
  split
  · exact List.suffix_rfl
  · exact (List.drop_suffix _ _).trans h

theorem strtoul_suffix (hex : Bool) (s : List Uint8) : (strtoul hex s).2 <:+ s := by
  have hsigned : (scanSign (s.dropWhile isspace)).2 <:+ s :=
    (scanSign_suffix _).trans (List.dropWhile_suffix _)
  cases hex with
  | true => exact numberOf_suffix _ ((skipPrefix_suffix _).trans hsigned)
  | false =>
    rw [strtoul_dec]
    exact numberOf_suffix _ hsigned

theorem strtoul_beyond (hex : Bool) (s beyond : List Uint8) :
    ((strtoul hex (s ++ beyond)).2.length > beyond.length ∧
        (strtoul hex (s ++ beyond)).2.head? = some 0x3B ↔ (strtoul hex s).2.head? = some 0x3B) ∧
      ((strtoul hex s).2.head? = some 0x3B →
        strtoul hex (s ++ beyond) = ((strtoul hex s).1, (strtoul hex s).2 ++ beyond)) := by
  by_cases hmem : 0x3B ∈ s
  · obtain ⟨front, rest, rfl⟩ := List.append_of_mem hmem
    have hboth : strtoul hex (front ++ 0x3B :: rest ++ beyond) =
        ((strtoul hex front).1, (strtoul hex front).2 ++ 0x3B :: (rest ++ beyond)) := by
      rw [List.append_assoc, List.cons_append, strtoul_stop]
    rw [hboth, strtoul_stop]
    refine ⟨?_, fun _ => by simp⟩
    have hhead (t : List Uint8) : ((strtoul hex front).2 ++ 0x3B :: t).head? =
        ((strtoul hex front).2.head?.or (some 0x3B)) := by rw [List.head?_append]; rfl
    dsimp only
    rw [hhead, hhead]
    refine and_iff_right ?_
    simp only [List.length_append, List.length_cons]
    omega
  · have hnot {l : List Uint8} (hl : l <:+ s) : l.head? ≠ some 0x3B := fun hhead =>
      hmem (hl.subset (List.mem_of_mem_head? hhead))
    have hsource := hnot (strtoul_suffix hex s)
    refine ⟨iff_of_false ?_ hsource, fun hhead => absurd hhead hsource⟩
    rintro ⟨hlength, hhead⟩
    obtain ⟨front, hfront⟩ := strtoul_suffix hex (s ++ beyond)
    obtain ⟨l, hl, hrest⟩ : ∃ l, (strtoul hex (s ++ beyond)).2 = l ++ beyond ∧ s = front ++ l := by
      obtain ⟨l, h1, h2⟩ | ⟨l, h1, h2⟩ := List.append_eq_append_iff.mp hfront
      · exact ⟨l, h2, h1⟩
      · have hbeyond := congrArg List.length h2
        rw [List.length_append] at hbeyond
        omega
    have hne : l ≠ [] := by
      rintro rfl
      rw [hl, List.nil_append] at hlength
      omega
    rw [hl, List.head?_append_of_ne_nil _ hne] at hhead
    exact hnot (hrest ▸ List.suffix_append front l) hhead

end Numbers

/-! ## Characters -/

def utf8Bytes (value : ℕ) : List Uint8 := utf8Encode 4 value

theorem utf8Bytes_ne_nil {value : ℕ} (h : value ≤ 0x1FFFFF) : utf8Bytes value ≠ [] := by
  unfold utf8Bytes utf8Encode
  split_ifs <;> first | exact List.cons_ne_nil _ _ | omega

theorem utf8Encode_eq {room value : ℕ} (hroom : 2 ≤ room) : utf8Encode room value =
    if value ≤ 0x1FFFFF ∧ (utf8Bytes value).length ≤ room then utf8Bytes value else [] := by
  unfold utf8Bytes utf8Encode
  split_ifs <;> first | rfl | (simp only [List.length_cons, List.length_nil] at *; omega)

def characterPiece (value : ℕ) : Piece Uint8 := ⟨utf8Bytes value, max 2 (utf8Bytes value).length⟩

/-! ## What `xml_decode` reads -/

def isHex (src : List Uint8) : Bool := src.tail.head? = some 0x78

def digitsOf (src : List Uint8) : List Uint8 := if isHex src then src.drop 2 else src.drop 1

/-- The next piece: a character, or one of the references. -/
def xmlNext : List Uint8 → Option (Piece Uint8 × List Uint8)
  | [] => none
  | ch :: src =>
    if ch ≠ 0x26 then some (.tight [ch], src)
    else if text "lt;" <+: src then some (.tight [0x3C], src.drop 3)
    else if text "gt;" <+: src then some (.tight [0x3E], src.drop 3)
    else if text "apos;" <+: src then some (.tight [0x27], src.drop 5)
    else if text "quot;" <+: src then some (.tight [0x22], src.drop 5)
    else if text "amp;" <+: src then some (.tight [0x26], src.drop 4)
    else if src.head? = some 0x23 then
      let r := strtoul (isHex src) (digitsOf src)
      if r.2.head? = some 0x3B ∧ r.1 ≤ 0x1FFFFF then some (characterPiece r.1, r.2.tail) else none
    else none

theorem xmlNext_piece : ∀ src p, xmlNext src = some p →
    2 ≤ p.1.need ∧ p.1.cells ≠ [] ∧ p.1.cells.length ≤ p.1.need ∧ p.1.need ≤ p.1.cells.length + 1
  | [], _, h => by cases h
  | ch :: src, p, h => by
    have hone (b : Uint8) : 2 ≤ (Piece.tight [b]).need ∧ (Piece.tight [b]).cells ≠ [] ∧
        (Piece.tight [b]).cells.length ≤ (Piece.tight [b]).need ∧
        (Piece.tight [b]).need ≤ (Piece.tight [b]).cells.length + 1 :=
      ⟨le_rfl, List.cons_ne_nil _ _, Nat.le_succ _, le_rfl⟩
    rw [xmlNext] at h
    dsimp only at h
    split_ifs at h
    · cases h; exact hone ch
    · cases h; exact hone _
    · cases h; exact hone _
    · cases h; exact hone _
    · cases h; exact hone _
    · cases h; exact hone _
    · rename_i hnumber
      cases h
      have hne := utf8Bytes_ne_nil hnumber.2
      have := List.length_pos_of_ne_nil hne
      exact ⟨le_max_left _ _, hne, le_max_right _ _, by dsimp only [characterPiece]; omega⟩

theorem reference_eq {bs : List Uint8} {buflen : ℕ} (hguard : bs.length + 1 < buflen) (hex : Bool)
    (digits beyond : List Uint8) :
    (let r := strtoul hex (digits ++ beyond)
      if r.2.length > beyond.length ∧ r.2.head? = some 0x3B then
        let bytes := utf8Encode (buflen - (Output.written bs).pos) r.1
        if bytes = [] then none
        else some (r.2.tail.take (r.2.length - 1 - beyond.length), (Output.written bs).puts bytes)
      else none) =
    (let r := strtoul hex digits
      if r.2.head? = some 0x3B ∧ r.1 ≤ 0x1FFFFF then some (characterPiece r.1, r.2.tail) else none).bind
        fun p => if bs.length + p.1.need ≤ buflen then some (p.2, .written (bs ++ p.1.cells)) else none := by
  obtain ⟨hiff, hvalue⟩ := strtoul_beyond hex digits beyond
  dsimp only
  by_cases hhead : (strtoul hex digits).2.head? = some 0x3B
  · rw [if_pos (hiff.mpr hhead), hvalue hhead]
    dsimp only
    generalize strtoul hex digits = r at *
    obtain ⟨value, rest⟩ := r
    dsimp only at *
    have hrest : (rest ++ beyond).tail.take ((rest ++ beyond).length - 1 - beyond.length) = rest.tail := by
      cases rest with
      | nil => cases hhead
      | cons a rest => simp
    rw [hrest, Output.pos_written, utf8Encode_eq (by omega), Output.puts_written]
    by_cases hwritten : value ≤ 0x1FFFFF ∧ (utf8Bytes value).length ≤ buflen - bs.length
    · have hread : rest.head? = some 0x3B ∧ value ≤ 0x1FFFFF := ⟨hhead, hwritten.1⟩
      have hroom := hwritten.2
      rw [if_pos hwritten, if_neg (utf8Bytes_ne_nil hwritten.1), if_pos hread, Option.bind_some]
      exact (if_pos (show bs.length + max 2 (utf8Bytes value).length ≤ buflen by omega)).symm
    · rw [if_neg hwritten, if_pos rfl]
      by_cases hvalid : value ≤ 0x1FFFFF
      · have hread : rest.head? = some 0x3B ∧ value ≤ 0x1FFFFF := ⟨hhead, hvalid⟩
        have hroom : ¬(utf8Bytes value).length ≤ buflen - bs.length := fun h => hwritten ⟨hvalid, h⟩
        rw [if_pos hread, Option.bind_some]
        exact (if_neg (show ¬bs.length + max 2 (utf8Bytes value).length ≤ buflen by omega)).symm
      · rw [if_neg (fun h => hvalid h.2)]
        rfl
  · rw [if_neg (fun h => hhead (hiff.mp h)), if_neg (fun h => hhead h.1)]
    rfl

theorem reads_xmlDecode (beyond : List Uint8) (buflen : ℕ) :
    Reads xmlNext buflen (xmlDecodeBody beyond buflen) where
  nil := rfl
  need src p h := (xmlNext_piece src p h).1
  body
    | [], _, hsrc, _ => absurd rfl hsrc
    | ch :: src, bs, _, hguard => by
      have hone (b : Uint8) (rest : List Uint8) : some (rest, (Output.written bs).put b) =
          (some (Piece.tight [b], rest)).bind fun p =>
            if bs.length + p.1.need ≤ buflen then some (p.2, .written (bs ++ p.1.cells)) else none := by
        rw [Option.bind_some, Output.put_written]
        exact (if_pos (show bs.length + 2 ≤ buflen from hguard)).symm
      rw [xmlDecodeBody, xmlNext]
      split_ifs with h1 h2 h3 h4 h5 h6 h7
      · exact hone _ _
      · exact hone _ _
      · exact hone _ _
      · exact hone _ _
      · exact hone _ _
      · exact hone _ _
      · have hdigits : (if src.tail.head? = some 0x78 then src.drop 2 else src.drop 1) = digitsOf src := by
          simp [digitsOf, isHex]
        dsimp only
        rw [hdigits]
        exact reference_eq hguard (isHex src) (digitsOf src) beyond
      · rfl

/-! ## The end of the buffer -/

def Fills (buflen : ℕ) (source : List Uint8) : Prop :=
  ∃ front p rest, sourcePieces xmlNext source = front ++ p :: rest ∧ p.need = p.cells.length ∧
    (front.flatMap Piece.cells).length + p.cells.length = buflen

/-- **The decoding of entities** stays inside the buffer, just if no reference to a character of
several bytes ends at its end. -/
theorem decode_contained_iff (buflen : ℕ) (source beyond : List Uint8) :
    (Contained buflen (xmlDecode buflen source beyond) ↔ ¬Fills buflen source) ∧
      (Contained buflen (htmlDecode buflen source beyond) ↔ ¬Fills buflen source) := by
  have hpiece : ∀ p ∈ sourcePieces xmlNext source,
      p.cells ≠ [] ∧ p.cells.length ≤ p.need ∧ p.need ≤ p.cells.length + 1 :=
    forall_mem_pieces (fun src p h => (xmlNext_piece src p h).2) _ _
  refine and_self_iff.mpr ?_
  rcases Nat.eq_zero_or_pos buflen with rfl | hbuflen
  · refine iff_of_true contained_zero ?_
    rintro ⟨front, p, rest, hsplit, -, hlength⟩
    have hne := (hpiece p (hsplit ▸ List.mem_append_right _ List.mem_cons_self)).1
    have := List.length_pos_of_ne_nil hne
    omega
  · have hlt := length_packed_lt_iff hpiece hbuflen
    rw [Nat.zero_add] at hlt
    rw [xmlDecode, contained_coding_iff (reads_xmlDecode beyond buflen) hbuflen, hlt]
    simp only [Nat.zero_add, Fills, not_exists, not_and]

/-- `&#233;` into two bytes: the terminator is stored behind them. -/
theorem decode_overrun : (xmlDecode 2 (text "&#233;") []).stores = [(0, 0xC3), (1, 0xA9), (2, 0)] ∧
    ¬Contained 2 (xmlDecode 2 (text "&#233;") []) := by
  have hstores : (xmlDecode 2 (text "&#233;") []).stores = [(0, 0xC3), (1, 0xA9), (2, 0)] := by decide
  refine ⟨hstores, fun h => ?_⟩
  have hlast := h.inside (2, 0) (hstores ▸ by decide)
  exact absurd hlast (by decide)

end Libjingle.StringEncode
