import Libjingle.Turn.Server

/-!
# The nonces of a TURN server

Main result: **`nonce_iff`**.
-/

namespace Libjingle.TurnConfig

open Lib StunMessage

variable {cfg : TurnConfig}

/-! ## Hexadecimal digits -/

/-- The character is one that `hex_encode` writes. -/
def IsLowerHex (ch : Uint8) : Prop :=
  0x30 ≤ ch.toNat ∧ ch.toNat ≤ 0x39 ∨ 0x61 ≤ ch.toNat ∧ ch.toNat ≤ 0x66

instance (ch : Uint8) : Decidable (IsLowerHex ch) := inferInstanceAs (Decidable (_ ∨ _))

theorem hexDigit_spec {val : ℕ} (h : val < 16) : IsLowerHex (hexDigit val) ∧ hexValue (hexDigit val) = some val := by
  have hall : ∀ v : Fin 16, IsLowerHex (hexDigit v) ∧ hexValue (hexDigit v) = some v.val := by decide
  exact hall ⟨val, h⟩

theorem hexValue_of_isLowerHex {ch : Uint8} (h : IsLowerHex ch) :
    ∃ val < 16, hexValue ch = some val ∧ hexDigit val = ch := by
  have hch := BitVec.ofNat_toNat 8 ch
  rw [BitVec.setWidth_eq] at hch
  obtain ⟨hmin, hmax⟩ | ⟨hmin, hmax⟩ := h
  · refine ⟨ch.toNat - 0x30, by omega, by simp [hexValue, hmin, hmax], ?_⟩
    rw [hexDigit, if_pos (by omega), show 0x30 + (ch.toNat - 0x30) = ch.toNat by omega, hch]
  · refine ⟨ch.toNat - 0x61 + 10, by omega, ?_, ?_⟩
    · simp only [hexValue]
      rw [if_neg (by omega), if_neg (by omega), if_pos (by omega)]
    · rw [hexDigit, if_neg (by omega),
        show 0x61 + (ch.toNat - 0x61 + 10 - 10) = ch.toNat by omega, hch]

theorem or_halves (high low : Fin 16) :
    (BitVec.ofNat 8 (high.val * 16 ||| low.val)).toNat = high.val * 16 + low.val := by
  revert high low
  decide

theorem length_hexEncode (source : List Uint8) : (hexEncode source).length = 2 * source.length := by
  induction source with
  | nil => rfl
  | cons b source ih =>
    change (hexEncode source).length + 1 + 1 = _
    rw [ih, List.length_cons]
    omega

theorem isLowerHex_hexEncode {source : List Uint8} {ch : Uint8} (h : ch ∈ hexEncode source) : IsLowerHex ch := by
  obtain ⟨b, -, hmem⟩ := List.mem_flatMap.mp h
  have hb := b.isLt
  simp only [List.mem_cons, List.not_mem_nil, or_false] at hmem
  obtain rfl | rfl := hmem
  · exact (hexDigit_spec (by omega)).1
  · exact (hexDigit_spec (by omega)).1

/-- Decoding undoes encoding. -/
theorem hexDecode_hexEncode (source : List Uint8) : hexDecode (hexEncode source) = some source := by
  induction source with
  | nil => rfl
  | cons b source ih =>
    have hb := b.isLt
    have hhalves : BitVec.ofNat 8 (b.toNat / 16 * 16 ||| b.toNat % 16) = b := by
      apply BitVec.eq_of_toNat_eq
      rw [or_halves ⟨b.toNat / 16, by omega⟩ ⟨b.toNat % 16, by omega⟩]
      dsimp only
      omega
    change hexDecode (hexDigit (b.toNat / 16) :: hexDigit (b.toNat % 16) :: hexEncode source) = _
    unfold hexDecode
    rw [(hexDigit_spec (by omega)).2, (hexDigit_spec (by omega)).2, ih]
    simp only [Option.bind_eq_bind, Option.bind_some, hhalves]

/-- Encoding undoes the decoding of lower-case digits. -/
theorem hexEncode_of_hexDecode : ∀ {source bytes : List Uint8},
    hexDecode source = some bytes → (∀ ch ∈ source, IsLowerHex ch) → hexEncode bytes = source
  | [], bytes, h, _ => by
    cases h
    rfl
  | [_], _, h, _ => by cases h
  | a :: b :: source, bytes, h, hlower => by
    obtain ⟨high, hhigh, hvalueHigh, hdigitHigh⟩ := hexValue_of_isLowerHex (hlower a (by simp))
    obtain ⟨low, hlow, hvalueLow, hdigitLow⟩ := hexValue_of_isLowerHex (hlower b (by simp))
    unfold hexDecode at h
    rw [hvalueHigh, hvalueLow] at h
    simp only [Option.bind_eq_bind, Option.bind_some] at h
    obtain ⟨rest, hrest, h⟩ := Option.bind_eq_some_iff.mp h
    cases h
    have ih := hexEncode_of_hexDecode hrest fun ch hch => hlower ch (by simp [hch])
    have hbyte := or_halves ⟨high, hhigh⟩ ⟨low, hlow⟩
    dsimp only at hbyte
    change hexDigit _ :: hexDigit _ :: hexEncode rest = _
    rw [hbyte, ih, show (high * 16 + low) / 16 = high by omega,
      show (high * 16 + low) % 16 = low by omega, hdigitHigh, hdigitLow]

theorem length_of_hexDecode : ∀ {source bytes : List Uint8},
    hexDecode source = some bytes → source.length = 2 * bytes.length
  | [], bytes, h => by
    cases h
    rfl
  | [_], _, h => by cases h
  | a :: b :: source, bytes, h => by
    unfold hexDecode at h
    obtain ⟨high, -, h⟩ := Option.bind_eq_some_iff.mp h
    obtain ⟨low, -, h⟩ := Option.bind_eq_some_iff.mp h
    obtain ⟨rest, hrest, h⟩ := Option.bind_eq_some_iff.mp h
    cases h
    have ih := length_of_hexDecode hrest
    simp only [List.length_cons]
    omega

/-! ## Timestamps -/

@[simp] theorem length_memoryBytes (v : Uint32) : (memoryBytes v).length = 4 := by
  rw [memoryBytes, List.length_reverse, length_wordBytes]

theorem beValue_memoryBytes (v : Uint32) : BitVec.ofNat 32 (beValue (memoryBytes v).reverse) = v := by
  rw [memoryBytes, List.reverse_reverse]
  exact ofNat_wordBytes 4 v

theorem memoryBytes_beValue {bytes : List Uint8} (h : bytes.length = 4) :
    memoryBytes (BitVec.ofNat 32 (beValue bytes.reverse)) = bytes := by
  have hbytes := wordBytes_ofNat (n := 4) (x := bytes.reverse) (by rw [List.length_reverse, h])
  rw [memoryBytes]
  exact (congrArg List.reverse hbytes).trans (List.reverse_reverse bytes)

theorem since_lt_iff {t t' : ℕ} (h : t ≤ t') :
    (BitVec.ofNat 32 t' - BitVec.ofNat 32 t).toInt < kNonceTimeout ↔
      (t' - t) % 2 ^ 32 < kNonceTimeout ∨ 2 ^ 31 ≤ (t' - t) % 2 ^ 32 := by
  obtain ⟨ms, rfl⟩ := Nat.exists_eq_add_of_le h
  rw [BitVec.toInt_eq_toNat_cond, BitVec.toNat_sub, BitVec.toNat_ofNat, BitVec.toNat_ofNat]
  split <;> omega

/-! ## Nonces -/

theorem take_generateNonce (cfg : TurnConfig) (now : ℕ) :
    (cfg.generateNonce now).take 8 = hexEncode (memoryBytes (BitVec.ofNat 32 now)) := by
  rw [generateNonce, List.take_append_of_le_length (by rw [length_hexEncode, length_memoryBytes])]
  exact List.take_of_length_le (by rw [length_hexEncode, length_memoryBytes])

theorem drop_generateNonce (cfg : TurnConfig) (now : ℕ) :
    (cfg.generateNonce now).drop 8 = cfg.hmacMd5 cfg.nonceKey (memoryBytes (BitVec.ofNat 32 now)) :=
  List.drop_left' (by rw [length_hexEncode, length_memoryBytes])

theorem validateNonce_generateNonce (hlength : ∀ key input, (cfg.hmacMd5 key input).length = 32) (t t' : ℕ) :
    cfg.validateNonce t' (cfg.generateNonce t) =
      decide ((BitVec.ofNat 32 t' - BitVec.ofNat 32 t).toInt < kNonceTimeout) := by
  have hsize : (cfg.generateNonce t).length = kNonceSize := by
    rw [generateNonce, List.length_append, length_hexEncode, length_memoryBytes, hlength]
  unfold validateNonce
  rw [if_neg (not_not.mpr hsize), take_generateNonce, hexDecode_hexEncode]
  dsimp only
  rw [drop_generateNonce, if_neg (not_not.mpr rfl), beValue_memoryBytes]

theorem validateNonce_spec {now : ℕ} {nonce : List Uint8} (h : cfg.validateNonce now nonce = true) :
    ∃ bytes, bytes.length = 4 ∧ hexDecode (nonce.take 8) = some bytes ∧
      nonce.drop 8 = cfg.hmacMd5 cfg.nonceKey bytes := by
  unfold validateNonce at h
  split_ifs at h with hsize
  cases hdecode : hexDecode (nonce.take 8) with
  | none =>
    rw [hdecode] at h
    cases h
  | some bytes =>
    rw [hdecode] at h
    dsimp only at h
    split_ifs at h with hmac
    have hbytes := length_of_hexDecode hdecode
    rw [List.length_take, not_not.mp hsize] at hbytes
    norm_num at hbytes
    exact ⟨bytes, by omega, rfl, not_not.mp hmac⟩

theorem exists_generateNonce_iff {now : ℕ} {nonce : List Uint8} (h : cfg.validateNonce now nonce = true) :
    (∃ t, nonce = cfg.generateNonce t) ↔ ∀ ch ∈ nonce.take 8, IsLowerHex ch := by
  constructor
  · rintro ⟨t, rfl⟩ ch hch
    rw [take_generateNonce] at hch
    exact isLowerHex_hexEncode hch
  · intro hlower
    obtain ⟨bytes, hbytes, hdecode, hmac⟩ := validateNonce_spec h
    refine ⟨beValue bytes.reverse, ?_⟩
    unfold generateNonce
    dsimp only
    rw [memoryBytes_beValue hbytes, hexEncode_of_hexDecode hdecode hlower, ← hmac,
      List.take_append_drop]

/-- **When nonces are valid**: just if their age does not wrap, and their timestamp has lower-case
digits. -/
theorem nonce_iff (cfg : TurnConfig) (hlength : ∀ key input, (cfg.hmacMd5 key input).length = 32) :
    (∀ t t' : ℕ, t ≤ t' →
      ((cfg.validateNonce t' (cfg.generateNonce t) = true ↔ t' - t < kNonceTimeout) ↔
        t' - t < kNonceTimeout ∨
          kNonceTimeout ≤ (t' - t) % 2 ^ 32 ∧ (t' - t) % 2 ^ 32 < 2 ^ 31)) ∧
    ∀ (now : ℕ) (nonce : List Uint8), cfg.validateNonce now nonce = true →
      ((∃ t, nonce = cfg.generateNonce t) ↔ ∀ ch ∈ nonce.take 8, IsLowerHex ch) := by
  refine ⟨?_, fun now nonce h => exists_generateNonce_iff h⟩
  intro t t' h
  rw [validateNonce_generateNonce hlength, decide_eq_true_iff, since_lt_iff h]
  omega

section Example

theorem nonce_iff_young :
    exampleConfig.validateNonce 3599999 (exampleConfig.generateNonce 0) = true ∧
      ∃ t, exampleConfig.generateNonce 5 = exampleConfig.generateNonce t := by
  have hnonce := nonce_iff exampleConfig fun _ _ => rfl
  refine ⟨((hnonce.1 0 3599999 (by decide)).mpr (by decide)).mpr (by decide), ?_⟩
  exact (hnonce.2 5 (exampleConfig.generateNonce 5) (by decide)).mpr (by decide)

def exampleUpperNonce : List Uint8 := text "0A000000" ++ List.replicate 32 0x30

/-- **A nonce is accepted after `2 ^ 31` ms**, and so is a string that is not one. -/
theorem nonce_old :
    (exampleConfig.validateNonce (2 ^ 31) (exampleConfig.generateNonce 0) = true ∧
      ¬ 2 ^ 31 - 0 < kNonceTimeout) ∧
    exampleConfig.validateNonce 10 exampleUpperNonce = true ∧
      ¬ ∃ t, exampleUpperNonce = exampleConfig.generateNonce t := by
  refine ⟨by decide, by decide, ?_⟩
  have hupper : ¬ ∀ ch ∈ exampleUpperNonce.take 8, IsLowerHex ch := by decide
  exact fun hexists => hupper
    ((exists_generateNonce_iff (by decide : exampleConfig.validateNonce 10 _ = true)).mp hexists)

end Example

end Libjingle.TurnConfig
