import Libjingle.Codec.Entities
import Libjingle.Lib.Markup

/-!
# UTF-8

Main results: **`utf8Decode_utf8Bytes`**, **`canonical_encode`**.
-/

namespace Libjingle.StringEncode

open Lib Http

/-! ## Bytes -/

theorem and_63 (v : ℕ) : v &&& 0x3F = v % 64 := Nat.and_two_pow_sub_one_eq_mod v 6

theorem shiftLeft_or {i y : ℕ} (x : ℕ) (h : y < 2 ^ i) : x <<< i ||| y = x * 2 ^ i + y := by
  rw [← Nat.shiftLeft_add_eq_or_of_lt h, Nat.shiftLeft_eq]

theorem trailer_spec {y : ℕ} (h : y < 64) :
    isTrailer (utf8Byte 0x80 y) = true ∧ (utf8Byte 0x80 y &&& 0x3F).toNat = y := by
  have hall : ∀ y : Fin 64, isTrailer (utf8Byte 0x80 y) = true ∧ (utf8Byte 0x80 y &&& 0x3F).toNat = y := by
    decide
  exact hall ⟨y, h⟩

theorem lead2_spec {x : ℕ} (h : x < 32) : ¬utf8Byte 0xC0 x &&& 0x80 = 0x00 ∧ ¬utf8Byte 0xC0 x < 128 ∧
    utf8Byte 0xC0 x &&& 0xE0 = 0xC0 ∧ (utf8Byte 0xC0 x &&& 0x1F).toNat = x := by
  have hall : ∀ x : Fin 32, ¬utf8Byte 0xC0 x &&& 0x80 = 0x00 ∧ ¬utf8Byte 0xC0 x < 128 ∧
      utf8Byte 0xC0 x &&& 0xE0 = 0xC0 ∧ (utf8Byte 0xC0 x &&& 0x1F).toNat = x := by decide
  exact hall ⟨x, h⟩

theorem lead3_spec {x : ℕ} (h : x < 16) : ¬utf8Byte 0xE0 x &&& 0x80 = 0x00 ∧ ¬utf8Byte 0xE0 x < 128 ∧
    ¬utf8Byte 0xE0 x &&& 0xE0 = 0xC0 ∧ utf8Byte 0xE0 x &&& 0xF0 = 0xE0 ∧
    (utf8Byte 0xE0 x &&& 0x0F).toNat = x := by
  have hall : ∀ x : Fin 16, ¬utf8Byte 0xE0 x &&& 0x80 = 0x00 ∧ ¬utf8Byte 0xE0 x < 128 ∧
      ¬utf8Byte 0xE0 x &&& 0xE0 = 0xC0 ∧ utf8Byte 0xE0 x &&& 0xF0 = 0xE0 ∧
      (utf8Byte 0xE0 x &&& 0x0F).toNat = x := by decide
  exact hall ⟨x, h⟩

theorem lead4_spec {x : ℕ} (h : x < 8) : ¬utf8Byte 0xF0 x &&& 0x80 = 0x00 ∧ ¬utf8Byte 0xF0 x < 128 ∧
    ¬utf8Byte 0xF0 x &&& 0xE0 = 0xC0 ∧ ¬utf8Byte 0xF0 x &&& 0xF0 = 0xE0 ∧ utf8Byte 0xF0 x &&& 0xF8 = 0xF0 ∧
    (utf8Byte 0xF0 x &&& 0x07).toNat = x := by
  have hall : ∀ x : Fin 8, ¬utf8Byte 0xF0 x &&& 0x80 = 0x00 ∧ ¬utf8Byte 0xF0 x < 128 ∧
      ¬utf8Byte 0xF0 x &&& 0xE0 = 0xC0 ∧ ¬utf8Byte 0xF0 x &&& 0xF0 = 0xE0 ∧
      utf8Byte 0xF0 x &&& 0xF8 = 0xF0 ∧ (utf8Byte 0xF0 x &&& 0x07).toNat = x := by decide
  exact hall ⟨x, h⟩

section Bytes

variable {v : ℕ}

/-- A value below 128 is its own encoding. -/
theorem utf8Bytes_ascii (h : v ≤ 0x7F) : utf8Bytes v = [BitVec.ofNat 8 v] := if_pos ⟨h, by decide⟩

/-- The encoding in two bytes. -/
theorem utf8Bytes_two (h1 : 0x7F < v) (h2 : v ≤ 0x7FF) :
    utf8Bytes v = [utf8Byte 0xC0 (v / 2 ^ 6), utf8Byte 0x80 (v % 64)] := by
  rw [utf8Bytes, utf8Encode, if_neg (by omega), if_pos ⟨h2, by decide⟩, and_63, Nat.shiftRight_eq_div_pow]

theorem utf8Bytes_three (h2 : 0x7FF < v) (h3 : v ≤ 0xFFFF) : utf8Bytes v =
    [utf8Byte 0xE0 (v / 2 ^ 12), utf8Byte 0x80 (v / 2 ^ 6 % 64), utf8Byte 0x80 (v % 64)] := by
  rw [utf8Bytes, utf8Encode, if_neg (by omega), if_neg (by omega), if_pos ⟨h3, by decide⟩, and_63, and_63,
    Nat.shiftRight_eq_div_pow, Nat.shiftRight_eq_div_pow]

theorem utf8Bytes_four (h3 : 0xFFFF < v) (h4 : v ≤ 0x1FFFFF) : utf8Bytes v =
    [utf8Byte 0xF0 (v / 2 ^ 18), utf8Byte 0x80 (v / 2 ^ 12 % 64), utf8Byte 0x80 (v / 2 ^ 6 % 64),
      utf8Byte 0x80 (v % 64)] := by
  rw [utf8Bytes, utf8Encode, if_neg (by omega), if_neg (by omega), if_neg (by omega),
    if_pos ⟨h4, by decide⟩, and_63, and_63, and_63, Nat.shiftRight_eq_div_pow, Nat.shiftRight_eq_div_pow,
    Nat.shiftRight_eq_div_pow]

end Bytes

/-! ## Sequences -/

section Sequences

variable {a b c d : Uint8} {rest : List Uint8}

theorem utf8Decode_two (hascii : ¬a &&& 0x80 = 0x00) (hb : isTrailer b = true) (hlead : a &&& 0xE0 = 0xC0) :
    utf8Decode (a :: b :: rest) = some (2, (a &&& 0x1F).toNat <<< 6 ||| (b &&& 0x3F).toNat) := by
  simp only [utf8Decode, List.getD_cons_zero, List.getD_cons_succ, List.length_cons]
  rw [if_neg hascii, hb, if_neg (by simp), if_pos hlead]

theorem utf8Decode_three (hascii : ¬a &&& 0x80 = 0x00) (hb : isTrailer b = true)
    (htwo : ¬a &&& 0xE0 = 0xC0) (hc : isTrailer c = true) (hlead : a &&& 0xF0 = 0xE0) :
    utf8Decode (a :: b :: c :: rest) =
      some (3, (a &&& 0x0F).toNat <<< 12 ||| ((b &&& 0x3F).toNat <<< 6 ||| (c &&& 0x3F).toNat)) := by
  simp only [utf8Decode, List.getD_cons_zero, List.getD_cons_succ, List.length_cons]
  rw [if_neg hascii, hb, if_neg (by simp), if_neg htwo, hc, if_neg (by simp), if_pos hlead]

theorem utf8Decode_four (hascii : ¬a &&& 0x80 = 0x00) (hb : isTrailer b = true)
    (htwo : ¬a &&& 0xE0 = 0xC0) (hc : isTrailer c = true) (hthree : ¬a &&& 0xF0 = 0xE0)
    (hd : isTrailer d = true) (hlead : a &&& 0xF8 = 0xF0) :
    utf8Decode (a :: b :: c :: d :: rest) = some (4, (a &&& 0x07).toNat <<< 18 |||
      (((b &&& 0x3F).toNat <<< 6 ||| (c &&& 0x3F).toNat) <<< 6 ||| (d &&& 0x3F).toNat)) := by
  simp only [utf8Decode, List.getD_cons_zero, List.getD_cons_succ, List.length_cons]
  rw [if_neg hascii, hb, if_neg (by simp), if_neg htwo, hc, if_neg (by simp), if_neg hthree, hd,
    if_neg (by simp), if_pos hlead]

end Sequences

/-- **What was encoded is decoded**, and does not start like ASCII. -/
theorem utf8Decode_utf8Bytes {v : ℕ} (hmin : 0x7F < v) (hmax : v ≤ 0x1FFFFF) (rest : List Uint8) :
    utf8Decode (utf8Bytes v ++ rest) = some ((utf8Bytes v).length, v) ∧
      ∃ b bs, utf8Bytes v = b :: bs ∧ ¬b < 128 := by
  obtain ⟨htrail, hvalue⟩ := trailer_spec (show v % 64 < 64 by omega)
  by_cases h2 : v ≤ 0x7FF
  · obtain ⟨hascii, hlarge, hlead, hbits⟩ := lead2_spec (show v / 2 ^ 6 < 32 by omega)
    rw [utf8Bytes_two hmin h2]
    refine ⟨?_, _, _, rfl, hlarge⟩
    rw [List.cons_append, List.cons_append, utf8Decode_two hascii htrail hlead, hbits, hvalue,
      shiftLeft_or _ (show v % 64 < 2 ^ 6 by omega)]
    have hsum : v / 2 ^ 6 * 2 ^ 6 + v % 64 = v := by omega
    rw [hsum]
    rfl
  obtain ⟨htrail', hvalue'⟩ := trailer_spec (show v / 2 ^ 6 % 64 < 64 by omega)
  by_cases h3 : v ≤ 0xFFFF
  · obtain ⟨hascii, hlarge, htwo, hlead, hbits⟩ := lead3_spec (show v / 2 ^ 12 < 16 by omega)
    rw [utf8Bytes_three (by omega) h3]
    refine ⟨?_, _, _, rfl, hlarge⟩
    rw [List.cons_append, List.cons_append, List.cons_append,
      utf8Decode_three hascii htrail' htwo htrail hlead, hbits, hvalue, hvalue',
      shiftLeft_or _ (show v % 64 < 2 ^ 6 by omega), shiftLeft_or _ (by omega)]
    have hsum : v / 2 ^ 12 * 2 ^ 12 + (v / 2 ^ 6 % 64 * 2 ^ 6 + v % 64) = v := by omega
    rw [hsum]
    rfl
  · obtain ⟨htrail'', hvalue''⟩ := trailer_spec (show v / 2 ^ 12 % 64 < 64 by omega)
    obtain ⟨hascii, hlarge, htwo, hthree, hlead, hbits⟩ := lead4_spec (show v / 2 ^ 18 < 8 by omega)
    rw [utf8Bytes_four (by omega) hmax]
    refine ⟨?_, _, _, rfl, hlarge⟩
    rw [List.cons_append, List.cons_append, List.cons_append, List.cons_append,
      utf8Decode_four hascii htrail'' htwo htrail' hthree htrail hlead, hbits, hvalue, hvalue', hvalue'',
      shiftLeft_or (v / 2 ^ 12 % 64) (show v / 2 ^ 6 % 64 < 2 ^ 6 by omega),
      shiftLeft_or _ (show v % 64 < 2 ^ 6 by omega), shiftLeft_or _ (by omega)]
    have hsum : v / 2 ^ 18 * 2 ^ 18 + ((v / 2 ^ 12 % 64 * 2 ^ 6 + v / 2 ^ 6 % 64) * 2 ^ 6 + v % 64) = v := by
      omega
    rw [hsum]
    rfl

theorem or_shiftLeft_lt {x y i j : ℕ} (hx : x < 2 ^ i) (hy : y < 2 ^ j) : x <<< j ||| y < 2 ^ (i + j) := by
  rw [shiftLeft_or x hy, Nat.pow_add]
  calc x * 2 ^ j + y < (x + 1) * 2 ^ j := by rw [Nat.succ_mul]; omega
    _ ≤ 2 ^ i * 2 ^ j := Nat.mul_le_mul_right _ hx

theorem toNat_and_lt (x : Uint8) {mask : Uint8} {i : ℕ} (h : mask.toNat < 2 ^ i) : (x &&& mask).toNat < 2 ^ i := by
  rw [BitVec.toNat_and]
  exact Nat.and_lt_two_pow _ h

theorem utf8Decode_lt {s : List Uint8} {n v : ℕ} (h : utf8Decode s = some (n, v)) : v < 2 ^ 21 := by
  have htrail (x : Uint8) : (x &&& 0x3F).toNat < 2 ^ 6 := toNat_and_lt x (by decide)
  have hlead (x : Uint8) {mask : Uint8} {i j y : ℕ} (hmask : mask.toNat < 2 ^ i) (hy : y < 2 ^ j)
      (hsum : i + j ≤ 21) : (x &&& mask).toNat <<< j ||| y < 2 ^ 21 :=
    (or_shiftLeft_lt (toNat_and_lt x hmask) hy).trans_le (Nat.pow_le_pow_right (by decide) hsum)
  simp only [utf8Decode] at h
  split_ifs at h <;> cases h
  · exact (BitVec.isLt _).trans_le (by decide)
  · exact hlead _ (by decide : _ < 2 ^ 5) (htrail _) (by decide)
  · exact hlead _ (by decide : _ < 2 ^ 4) (or_shiftLeft_lt (htrail _) (htrail _)) (by decide)
  · exact hlead _ (by decide : _ < 2 ^ 3) (or_shiftLeft_lt (or_shiftLeft_lt (htrail _) (htrail _)) (htrail _))
      (by decide)

/-! ## Canonical texts -/

/-- The UTF-8 of some code points. -/
def Canonical (s : List Uint8) : Prop := ∃ vs : List ℕ, (∀ v ∈ vs, v ≤ 0x1FFFFF) ∧ s = vs.flatMap utf8Bytes

theorem utf8Byte_eq : (∀ x : Fin 64, BitVec.ofNat 8 (x + 0x80) = utf8Byte 0x80 x) ∧
    (∀ x : Fin 32, BitVec.ofNat 8 (x + 0xC0) = utf8Byte 0xC0 x) ∧
    (∀ x : Fin 16, BitVec.ofNat 8 (x + 0xE0) = utf8Byte 0xE0 x) ∧
    ∀ x : Fin 8, BitVec.ofNat 8 (x + 0xF0) = utf8Byte 0xF0 x := by
  decide

theorem toNat_lt (c : Char) : c.val.toNat < 0x110000 := by
  have hvalid := c.valid
  unfold UInt32.isValidChar Nat.isValidChar at hvalid
  omega

theorem utf8EncodeChar_eq (c : Char) : (String.utf8EncodeChar c).map UInt8.toBitVec = utf8Bytes c.val.toNat := by
  obtain ⟨htrail, hlead2, hlead3, hlead4⟩ := utf8Byte_eq
  have hmax := toNat_lt c
  unfold String.utf8EncodeChar
  generalize c.val.toNat = v at *
  have ht (x : ℕ) : BitVec.ofNat 8 (x % 64 + 0x80) = utf8Byte 0x80 (x % 64) := htrail ⟨x % 64, by omega⟩
  dsimp only
  split_ifs with h1 h2 h3
  · rw [utf8Bytes_ascii h1]
    rfl
  · rw [utf8Bytes_two (by omega) h2, ← hlead2 ⟨v / 2 ^ 6, by omega⟩, ← ht,
      Nat.mod_eq_of_lt (show v / 64 < 32 by omega)]
    rfl
  · rw [utf8Bytes_three (by omega) h3, ← hlead3 ⟨v / 2 ^ 12, by omega⟩, ← ht, ← ht,
      Nat.mod_eq_of_lt (show v / 4096 < 16 by omega)]
    rfl
  · rw [utf8Bytes_four (by omega) (by omega), ← hlead4 ⟨v / 2 ^ 18, by omega⟩, ← ht, ← ht, ← ht,
      Nat.mod_eq_of_lt (show v / 262144 < 8 by omega)]
    rfl

theorem canonical_encode (cs : List Char) : Canonical (Markup.encode cs) := by
  refine ⟨cs.map fun c => c.val.toNat, fun v hv => ?_, ?_⟩
  · obtain ⟨c, -, rfl⟩ := List.mem_map.mp hv
    exact (toNat_lt c).le.trans (by decide)
  · rw [List.flatMap_map]
    exact List.flatMap_congr fun c _ => utf8EncodeChar_eq c

end Libjingle.StringEncode
