import Mathlib.Tactic.IntervalCases
import Libjingle.Base.Words

/-!
# Base64 (`base/base64.cc`)

Main results: **`decodeFromArray_terminates`**, **`base64_exact`**.
-/

variable {ch : Uint8}

namespace Libjingle.Base64

/-! ## The tables -/

/-- The padding character `=`. -/
abbrev kPad : Uint8 := 0x3D#8
/-- The entry of padding in `DecodeTable`. -/
abbrev pd : Uint8 := 0xFD#8
abbrev sp : Uint8 := 0xFE#8
abbrev il : Uint8 := 0xFF#8

/-- `Base64Table`: the 64 symbols. -/
def table : List Uint8 :=
  ['A', 'B', 'C', 'D', 'E', 'F', 'G', 'H', 'I', 'J', 'K', 'L', 'M', 'N', 'O', 'P',
   'Q', 'R', 'S', 'T', 'U', 'V', 'W', 'X', 'Y', 'Z', 'a', 'b', 'c', 'd', 'e', 'f',
   'g', 'h', 'i', 'j', 'k', 'l', 'm', 'n', 'o', 'p', 'q', 'r', 's', 't', 'u', 'v',
   'w', 'x', 'y', 'z', '0', '1', '2', '3', '4', '5', '6', '7', '8', '9', '+', '/'].map fun c =>
    BitVec.ofNat 8 c.toNat

def decodeTable : List Uint8 :=
  [il, il, il, il, il, il, il, il, il, sp,
   sp, sp, sp, sp, il, il, il, il, il, il,
   il, il, il, il, il, il, il, il, il, il,
   il, il, sp, il, il, il, il, il, il, il,
   il, il, il, 62, il, il, il, 63, 52, 53,
   54, 55, 56, 57, 58, 59, 60, 61, il, il,
   il, pd, il, il, il,  0,  1,  2,  3,  4,
    5,  6,  7,  8,  9, 10, 11, 12, 13, 14,
   15, 16, 17, 18, 19, 20, 21, 22, 23, 24,
   25, il, il, il, il, il, il, 26, 27, 28,
   29, 30, 31, 32, 33, 34, 35, 36, 37, 38,
   39, 40, 41, 42, 43, 44, 45, 46, 47, 48,
   49, 50, 51, il, il, il, il, il, il, il] ++ List.replicate 126 il

/-- The symbol of a value below 64. -/
def base64Char (c : Uint8) : Uint8 := table.getD c.toNat 0

def symbol (ch : Uint8) : Uint8 := decodeTable.getD ch.toNat il

/-! ## Encoding -/

/-- `Base64::EncodeFromArray`. -/
def encodeFromArray : List Uint8 → List Uint8
  | [] => []
  | [b] => [base64Char ((b >>> 2) &&& 0x3f#8), base64Char ((b <<< 4) &&& 0x3f#8), kPad, kPad]
  | [b, b'] =>
    [base64Char ((b >>> 2) &&& 0x3f#8), base64Char (((b <<< 4) &&& 0x3f#8) ||| ((b' >>> 4) &&& 0x0f#8)),
      base64Char ((b' <<< 2) &&& 0x3f#8), kPad]
  | b :: b' :: b'' :: data =>
    base64Char ((b >>> 2) &&& 0x3f#8) ::
      base64Char (((b <<< 4) &&& 0x3f#8) ||| ((b' >>> 4) &&& 0x0f#8)) ::
      base64Char (((b' <<< 2) &&& 0x3f#8) ||| ((b'' >>> 6) &&& 0x03#8)) ::
      base64Char (b'' &&& 0x3f#8) :: encodeFromArray data

/-! ## Decoding -/

abbrev DecodeFlags := ℕ

abbrev doParseStrict : DecodeFlags := 1
abbrev doParseWhite : DecodeFlags := 2
abbrev doParseAny : DecodeFlags := 3
abbrev doParseMask : DecodeFlags := 3
abbrev doPadYes : DecodeFlags := 4
abbrev doPadAny : DecodeFlags := 8
abbrev doPadNo : DecodeFlags := 12
abbrev doPadMask : DecodeFlags := 12
abbrev doTermBuffer : DecodeFlags := 16
abbrev doTermChar : DecodeFlags := 32
abbrev doTermAny : DecodeFlags := 48
abbrev doTermMask : DecodeFlags := 48

abbrev doStrict : DecodeFlags := doParseStrict ||| doPadYes ||| doTermBuffer

/-- The variables of `GetNextQuantum`. Each entry of `qbuf` is written before it is read. -/
structure Quantum where
  byteLen : ℕ
  padLen : ℕ
  padStart : ℕ
  dpos : ℕ
  qbuf : List Uint8
  deriving DecidableEq

def Quantum.take (parseFlags : DecodeFlags) (illegalPads : Bool) (q : Quantum) (ch : Uint8) :
    Option Quantum :=
  let c := symbol ch
  let q := { q with qbuf := q.qbuf.set q.byteLen c }
  if c = il ∨ (illegalPads ∧ c = pd) then
    if parseFlags ≠ doParseAny then none else some q
  else if c = sp then
    if parseFlags = doParseStrict then none else some q
  else if c = pd then
    if q.byteLen < 2 then
      if parseFlags ≠ doParseAny then none else some q
    else if q.byteLen + q.padLen ≥ 4 then
      if parseFlags ≠ doParseAny then none else some q
    else
      some { q with
        padLen := q.padLen + 1, padStart := if q.padLen + 1 = 1 then q.dpos else q.padStart }
  else if q.padLen > 0 then
    -- ignore pads which are followed by data
    if parseFlags ≠ doParseAny then none else some { q with padLen := 0, byteLen := q.byteLen + 1 }
  else some { q with byteLen := q.byteLen + 1 }

/-- The loop of `GetNextQuantum` from `dpos` on. -/
def Quantum.scan (parseFlags : DecodeFlags) (illegalPads : Bool) : Quantum → List Uint8 → Quantum
  | q, [] => q
  | q, ch :: data =>
    if q.byteLen < 4 then
      match q.take parseFlags illegalPads ch with
      | none => q
      | some q' => scan parseFlags illegalPads { q' with dpos := q'.dpos + 1 } data
    else q

/-- What `GetNextQuantum` gives back: its result, `*dpos`, `qbuf` and `*padded`. -/
structure Symbols where
  byteLen : ℕ
  dpos : ℕ
  qbuf : List Uint8
  padded : Bool
  deriving DecidableEq

/-- `GetNextQuantum`: the next four symbols from `dpos` on. -/
def getNextQuantum (parseFlags : DecodeFlags) (illegalPads : Bool) (data : List Uint8) (dpos : ℕ) :
    Symbols :=
  let q := Quantum.scan parseFlags illegalPads ⟨0, 0, 0, dpos, List.replicate 4 0⟩ (data.drop dpos)
  let qbuf := q.qbuf.take q.byteLen ++ List.replicate (4 - q.byteLen) 0
  if 4 = q.byteLen + q.padLen then ⟨q.byteLen, q.dpos, qbuf, true⟩
  else ⟨q.byteLen, if q.padLen > 0 then q.padStart else q.dpos, qbuf, false⟩

def byte0 (qbuf : List Uint8) : Uint8 := (qbuf.getD 0 0 <<< 2) ||| ((qbuf.getD 1 0 >>> 4) &&& 0x3#8)

def byte1 (qbuf : List Uint8) : Uint8 :=
  ((qbuf.getD 1 0 <<< 4) &&& 0xf0#8) ||| ((qbuf.getD 2 0 >>> 2) &&& 0xf#8)

def byte2 (qbuf : List Uint8) : Uint8 := ((qbuf.getD 2 0 <<< 6) &&& 0xc0#8) ||| qbuf.getD 3 0

/-- What a decoding gives back: its result, `*result` and `*data_used`. -/
structure Decoded where
  success : Bool
  result : List Uint8
  dataUsed : ℕ
  deriving DecidableEq

def decodeLoop (parseFlags padFlags termFlags : DecodeFlags) (data : List Uint8) :
    ℕ → ℕ → List Uint8 → Option Decoded
  | 0, _, _ => none
  | fuel + 1, dpos, result =>
    if dpos < data.length then
      let q := getNextQuantum parseFlags (decide (doPadNo = padFlags)) data dpos
      let result := if q.byteLen ≥ 2 then result ++ [byte0 q.qbuf] else result
      let result := if q.byteLen ≥ 3 then result ++ [byte1 q.qbuf] else result
      let result := if q.byteLen ≥ 4 then result ++ [byte2 q.qbuf] else result
      let c := if q.byteLen ≥ 4 then 0 else if q.byteLen ≥ 3 then byte2 q.qbuf
        else if q.byteLen ≥ 2 then byte1 q.qbuf else byte0 q.qbuf
      if q.byteLen < 4 then
        -- unused bits, or expected padding
        let success := !(termFlags ≠ doTermAny ∧ 0 ≠ c) && !(doPadYes = padFlags ∧ ¬ q.padded)
        some ⟨success, result, q.dpos⟩
      else decodeLoop parseFlags padFlags termFlags data fuel q.dpos result
    else some ⟨true, result, dpos⟩

/-- `Base64::DecodeFromArrayTemplate`: the bytes, the data used, and whether it succeeded. -/
def decodeFromArray (data : List Uint8) (flags : DecodeFlags) : Option Decoded :=
  let parseFlags := flags &&& doParseMask
  let padFlags := flags &&& doPadMask
  let termFlags := flags &&& doTermMask
  (decodeLoop parseFlags padFlags termFlags data (data.length + 1) 0 []).map fun d =>
    { d with success := d.success && !(doTermBuffer = termFlags ∧ d.dataUsed ≠ data.length) }

/-! ## Every decoding ends inside the string -/

section Terminates

variable (parseFlags padFlags termFlags : DecodeFlags) (illegalPads : Bool)

/-- `GetNextQuantum` has read from `start` to `dpos`, and the symbols there. -/
structure Quantum.At (start : ℕ) (q : Quantum) : Prop where
  start_add : start + q.byteLen ≤ q.dpos
  byteLen_le : q.byteLen ≤ 4
  full : q.byteLen = 4 → q.padLen = 0
  padStart_le : q.padLen > 0 → q.padStart ≤ q.dpos

variable {parseFlags illegalPads} in
theorem Quantum.take_at {start : ℕ} {q q' : Quantum} (h : q.At start)
    (hlt : q.byteLen < 4) (ht : q.take parseFlags illegalPads ch = some q') :
    q'.dpos = q.dpos ∧ ({ q' with dpos := q'.dpos + 1 } : Quantum).At start := by
  have hs := h.start_add
  have hf := h.full
  have hp := h.padStart_le
  unfold Quantum.take at ht
  dsimp only at ht
  split_ifs at ht <;> obtain rfl := Option.some.inj ht <;> refine ⟨rfl, ?_, ?_, ?_, ?_⟩ <;> dsimp only <;>
    omega

theorem Quantum.scan_at {start : ℕ} {q : Quantum} (h : q.At start) (data : List Uint8) :
    (q.scan parseFlags illegalPads data).At start ∧
      (q.scan parseFlags illegalPads data).dpos ≤ q.dpos + data.length := by
  induction data generalizing q with
  | nil => exact ⟨h, Nat.le_refl _⟩
  | cons ch data ih =>
    rw [Quantum.scan]
    split_ifs with hlt
    · cases ht : q.take parseFlags illegalPads ch with
      | none => exact ⟨h, Nat.le_add_right _ _⟩
      | some q' =>
        obtain ⟨hd, h'⟩ := take_at h hlt ht
        obtain ⟨hat, hle⟩ := ih h'
        refine ⟨hat, hle.trans ?_⟩
        simp only [hd, List.length_cons]
        omega
    · exact ⟨h, Nat.le_add_right _ _⟩

theorem getNextQuantum_dpos {data : List Uint8} {dpos : ℕ} (hle : dpos ≤ data.length) :
    (getNextQuantum parseFlags illegalPads data dpos).dpos ≤ data.length ∧
      (¬ (getNextQuantum parseFlags illegalPads data dpos).byteLen < 4 →
        dpos < (getNextQuantum parseFlags illegalPads data dpos).dpos) := by
  have h₀ : Quantum.At dpos ⟨0, 0, 0, dpos, List.replicate 4 0⟩ :=
    ⟨Nat.le_refl _, by simp, by simp, by simp⟩
  obtain ⟨h, hd⟩ := Quantum.scan_at parseFlags illegalPads h₀ (data.drop dpos)
  rw [List.length_drop] at hd
  unfold getNextQuantum
  dsimp only at hd ⊢
  have hs := h.start_add
  have hb := h.byteLen_le
  have hf := h.full
  have hp := h.padStart_le
  split_ifs <;> constructor <;> simp only <;> intros <;> omega

theorem decodeLoop_terminates {data : List Uint8} (fuel dpos : ℕ) (result : List Uint8)
    (hle : dpos ≤ data.length) (hfuel : data.length < fuel + dpos) :
    ∃ d, decodeLoop parseFlags padFlags termFlags data fuel dpos result = some d ∧
      d.dataUsed ≤ data.length := by
  induction fuel generalizing dpos result with
  | zero => omega
  | succ fuel ih =>
    obtain ⟨hd, hlt⟩ := getNextQuantum_dpos parseFlags (decide (doPadNo = padFlags)) hle
    rw [decodeLoop]
    split_ifs with h
    · dsimp only
      split_ifs with hq
      all_goals first | exact ⟨_, rfl, hd⟩ | exact ih _ _ hd (by have := hlt hq; omega)
    · exact ⟨_, rfl, hle⟩

/-- **The decoder returns**, and reports no more data than it was given. -/
theorem decodeFromArray_terminates (data : List Uint8) (flags : DecodeFlags) :
    ∃ d, decodeFromArray data flags = some d ∧ d.dataUsed ≤ data.length := by
  obtain ⟨d, hd, hle⟩ := decodeLoop_terminates (flags &&& doParseMask) (flags &&& doPadMask)
    (flags &&& doTermMask) (data.length + 1) 0 [] (Nat.zero_le data.length) (by omega)
  rw [decodeFromArray, hd]
  exact ⟨_, rfl, hle⟩

end Terminates

/-! ## Symbols and characters -/

def IsSymbol (ch : Uint8) : Prop := symbol ch ≠ il ∧ symbol ch ≠ sp ∧ symbol ch ≠ pd

instance (ch : Uint8) : Decidable (IsSymbol ch) := by unfold IsSymbol; infer_instance

theorem symbol_kPad : symbol kPad = pd := by decide

theorem decodeTable_entries : ∀ e ∈ decodeTable.zipIdx,
    e.1 = il ∨ e.1 = sp ∨ e.1 = pd ∧ BitVec.ofNat 8 e.2 = kPad ∨
      e.1 &&& 0x3f#8 = e.1 ∧ base64Char e.1 = BitVec.ofNat 8 e.2 := by decide +kernel

theorem symbol_cases (ch : Uint8) : symbol ch = il ∨ symbol ch = sp ∨ symbol ch = pd ∧ ch = kPad ∨
    symbol ch &&& 0x3f#8 = symbol ch ∧ base64Char (symbol ch) = ch := by
  have hlen : decodeTable.length = 256 := by decide +kernel
  have hlt : ch.toNat < decodeTable.length := hlen ▸ ch.isLt
  have hmem : (decodeTable[ch.toNat], ch.toNat) ∈ decodeTable.zipIdx :=
    List.mk_mem_zipIdx_iff_getElem?.mpr (List.getElem?_eq_getElem hlt)
  have h := decodeTable_entries _ hmem
  rw [BitVec.ofNat_toNat, BitVec.setWidth_eq] at h
  rwa [symbol, List.getD_eq_getElem?_getD, List.getElem?_eq_getElem hlt]

theorem eq_kPad (h : symbol ch = pd) : ch = kPad := by
  rcases symbol_cases ch with h' | h' | h' | h'
  · exact absurd (h.symm.trans h') (by decide)
  · exact absurd (h.symm.trans h') (by decide)
  · exact h'.2
  · exact absurd h'.1 (by rw [h]; decide)

theorem IsSymbol.spec (h : IsSymbol ch) : symbol ch &&& 0x3f#8 = symbol ch ∧ base64Char (symbol ch) = ch := by
  obtain ⟨h₁, h₂, h₃⟩ := h
  rcases symbol_cases ch with h' | h' | h' | h'
  · exact absurd h' h₁
  · exact absurd h' h₂
  · exact absurd h'.1 h₃
  · exact h'

theorem table_entries : ∀ e ∈ table.zipIdx, symbol e.1 = BitVec.ofNat 8 e.2 := by decide

theorem symbol_base64Char {c : Uint8} (h : c &&& 0x3f#8 = c) : symbol (base64Char c) = c := by
  have hlt : c.toNat < table.length := by
    have : (c &&& 0x3f#8).toNat < 64 := by
      rw [BitVec.toNat_and]
      exact Nat.lt_of_le_of_lt Nat.and_le_right (by decide)
    rwa [h] at this
  have hmem : (table[c.toNat], c.toNat) ∈ table.zipIdx :=
    List.mk_mem_zipIdx_iff_getElem?.mpr (List.getElem?_eq_getElem hlt)
  have h := table_entries _ hmem
  rw [BitVec.ofNat_toNat, BitVec.setWidth_eq] at h
  rwa [base64Char, List.getD_eq_getElem?_getD, List.getElem?_eq_getElem hlt]

theorem isSymbol_base64Char {c : Uint8} (h : c &&& 0x3f#8 = c) : IsSymbol (base64Char c) := by
  unfold IsSymbol
  rw [symbol_base64Char h]
  refine ⟨?_, ?_, ?_⟩ <;> rintro rfl <;> exact absurd h (by decide)

/-! ## Three bytes and four symbols -/

def sextets (b b' b'' : Uint8) : List Uint8 :=
  [(b >>> 2) &&& 0x3f#8, ((b <<< 4) &&& 0x3f#8) ||| ((b' >>> 4) &&& 0x0f#8),
    ((b' <<< 2) &&& 0x3f#8) ||| ((b'' >>> 6) &&& 0x03#8), b'' &&& 0x3f#8]

theorem sextets_and_mask (b b' b'' : Uint8) : ∀ s ∈ sextets b b' b'', s &&& 0x3f#8 = s := by
  simp only [sextets, List.forall_mem_cons, List.not_mem_nil, false_implies, implies_true, and_true]
  refine ⟨?_, ?_, ?_, ?_⟩ <;> ext i hi <;> interval_cases i <;> simp

theorem byte0_sextets (b b' b'' : Uint8) : byte0 (sextets b b' b'') = b := by
  simp only [byte0, sextets, List.getD_cons_zero, List.getD_cons_succ]
  ext i hi
  interval_cases i <;> simp

theorem byte1_sextets (b b' b'' : Uint8) : byte1 (sextets b b' b'') = b' := by
  simp only [byte1, sextets, List.getD_cons_zero, List.getD_cons_succ]
  ext i hi
  interval_cases i <;> simp

theorem byte2_sextets (b b' b'' : Uint8) : byte2 (sextets b b' b'') = b'' := by
  simp only [byte2, sextets, List.getD_cons_zero, List.getD_cons_succ]
  ext i hi
  interval_cases i <;> simp

theorem sextets_spec (b b' b'' : Uint8) :
    ∃ s₀ s₁ s₂ s₃, sextets b b' b'' = [s₀, s₁, s₂, s₃] ∧
      (s₀ &&& 0x3f#8 = s₀ ∧ s₁ &&& 0x3f#8 = s₁ ∧ s₂ &&& 0x3f#8 = s₂ ∧ s₃ &&& 0x3f#8 = s₃) ∧
      (byte0 [s₀, s₁, s₂, s₃] = b ∧ byte1 [s₀, s₁, s₂, s₃] = b' ∧ byte2 [s₀, s₁, s₂, s₃] = b'') ∧
      (b'' = 0 → s₃ = 0) ∧ (b' = 0 → b'' = 0 → s₂ = 0) := by
  have hmask := sextets_and_mask b b' b''
  refine ⟨_, _, _, _, rfl, ?_, ⟨byte0_sextets b b' b'', byte1_sextets b b' b'',
    byte2_sextets b b' b''⟩, ?_, ?_⟩
  · simpa only [sextets, List.forall_mem_cons, List.not_mem_nil, false_implies, implies_true,
      and_true] using hmask
  · rintro rfl
    decide
  · rintro rfl rfl
    decide

theorem sextets_bytes {a b c d : Uint8} (ha : a &&& 0x3f#8 = a) (hb : b &&& 0x3f#8 = b)
    (hc : c &&& 0x3f#8 = c) (hd : d &&& 0x3f#8 = d) :
    sextets (byte0 [a, b, c, d]) (byte1 [a, b, c, d]) (byte2 [a, b, c, d]) = [a, b, c, d] := by
  rw [← ha, ← hb, ← hc, ← hd]
  simp only [byte0, byte1, byte2, sextets, List.getD_cons_zero, List.getD_cons_succ, List.cons.injEq,
    and_true]
  refine ⟨?_, ?_, ?_, ?_⟩ <;> ext i hi <;> interval_cases i <;> simp

/-! ## A quantum in strict mode -/

section Strict

theorem take_symbol (h : IsSymbol ch) (n k s dpos : ℕ) (qbuf : List Uint8) :
    Quantum.take doParseStrict false ⟨n, k, s, dpos, qbuf⟩ ch =
      if k > 0 then none else some ⟨n + 1, k, s, dpos, qbuf.set n (symbol ch)⟩ := by
  obtain ⟨h₁, h₂, h₃⟩ := h
  simp [Quantum.take, h₁, h₂, h₃]

theorem take_kPad (n k s dpos : ℕ) (qbuf : List Uint8) :
    Quantum.take doParseStrict false ⟨n, k, s, dpos, qbuf⟩ kPad =
      if n < 2 ∨ n + k ≥ 4 then none
      else some ⟨n, k + 1, if k + 1 = 1 then dpos else s, dpos, qbuf.set n pd⟩ := by
  have hil : pd ≠ il := by decide
  have hsp : pd ≠ sp := by decide
  by_cases h₁ : n < 2 <;> by_cases h₂ : n + k ≥ 4 <;>
    simp [Quantum.take, symbol_kPad, hil, hsp, h₁, h₂]

theorem take_other (h : ¬ IsSymbol ch) (hp : ch ≠ kPad) (q : Quantum) :
    Quantum.take doParseStrict false q ch = none := by
  have h₃ : symbol ch ≠ pd := fun h => hp (eq_kPad h)
  by_cases h₁ : symbol ch = il
  · simp [Quantum.take, h₁]
  · have h₂ : symbol ch = sp := Classical.byContradiction fun h₂ => h ⟨h₁, h₂, h₃⟩
    simp [Quantum.take, h₂]

theorem take_early (h : ¬ IsSymbol ch) {n : ℕ} (hn : n < 2) (k s dpos : ℕ)
    (qbuf : List Uint8) : Quantum.take doParseStrict false ⟨n, k, s, dpos, qbuf⟩ ch = none := by
  by_cases hp : ch = kPad
  · rw [hp, take_kPad, if_pos (Or.inl hn)]
  · exact take_other h hp _

theorem take_late (ch : Uint8) {n k : ℕ} (hk : k > 0) (hn : n + k ≥ 4) (s dpos : ℕ)
    (qbuf : List Uint8) : Quantum.take doParseStrict false ⟨n, k, s, dpos, qbuf⟩ ch = none := by
  by_cases h : IsSymbol ch
  · rw [take_symbol h, if_pos hk]
  by_cases hp : ch = kPad
  · rw [hp, take_kPad, if_pos (Or.inr hn)]
  · exact take_other h hp _

variable {data : List Uint8} {dpos : ℕ} {a b c d : Uint8}

theorem scan_full (parseFlags : DecodeFlags) (illegalPads : Bool) (k s : ℕ) (qbuf rest : List Uint8) :
    Quantum.scan parseFlags illegalPads ⟨4, k, s, dpos, qbuf⟩ rest = ⟨4, k, s, dpos, qbuf⟩ := by
  cases rest with
  | nil => rfl
  | cons ch rest => simp [Quantum.scan]

theorem quantum_four {rest : List Uint8} (hl : data.drop dpos = a :: b :: c :: d :: rest)
    (ha : IsSymbol a) (hb : IsSymbol b) (hc : IsSymbol c) (hd : IsSymbol d) :
    getNextQuantum doParseStrict false data dpos =
      ⟨4, dpos + 4, [symbol a, symbol b, symbol c, symbol d], true⟩ := by
  simp [getNextQuantum, hl, Quantum.scan, take_symbol, ha, hb, hc, hd, scan_full]

theorem quantum_three (hl : data.drop dpos = [a, b, c, kPad]) (ha : IsSymbol a) (hb : IsSymbol b)
    (hc : IsSymbol c) : getNextQuantum doParseStrict false data dpos =
      ⟨3, dpos + 4, [symbol a, symbol b, symbol c, 0], true⟩ := by
  simp [getNextQuantum, hl, Quantum.scan, take_symbol, take_kPad, ha, hb, hc]

theorem quantum_two (hl : data.drop dpos = [a, b, kPad, kPad]) (ha : IsSymbol a) (hb : IsSymbol b) :
    getNextQuantum doParseStrict false data dpos =
      ⟨2, dpos + 4, [symbol a, symbol b, 0, 0], true⟩ := by
  simp [getNextQuantum, hl, Quantum.scan, take_symbol, take_kPad, ha, hb]

theorem quantum_inv {l : List Uint8} (hl : data.drop dpos = l) (hne : l ≠ []) :
    (∃ a b c d rest, l = a :: b :: c :: d :: rest ∧ IsSymbol a ∧ IsSymbol b ∧ IsSymbol c ∧ IsSymbol d) ∨
    (getNextQuantum doParseStrict false data dpos).byteLen < 4 ∧
      ((getNextQuantum doParseStrict false data dpos).padded = true →
        (getNextQuantum doParseStrict false data dpos).dpos = data.length →
        (∃ a b, l = [a, b, kPad, kPad] ∧ IsSymbol a ∧ IsSymbol b) ∨
        ∃ a b c, l = [a, b, c, kPad] ∧ IsSymbol a ∧ IsSymbol b ∧ IsSymbol c) := by
  have hlen : data.length = dpos + l.length := by
    have := congrArg List.length hl
    rw [List.length_drop] at this
    have := List.length_pos_iff.mpr hne
    omega
  rw [getNextQuantum, hl, hlen]
  -- the first two characters are symbols, or the quantum ends there
  rcases l with _ | ⟨a, l⟩
  · exact absurd rfl hne
  by_cases ha : IsSymbol a
  swap
  · right; simp [Quantum.scan, take_early ha]
  rcases l with _ | ⟨b, l⟩
  · right; simp [Quantum.scan, take_symbol ha]
  by_cases hb : IsSymbol b
  swap
  · right; simp [Quantum.scan, take_symbol ha, take_early hb]
  rcases l with _ | ⟨c, l⟩
  · right; simp [Quantum.scan, take_symbol, ha, hb]
  by_cases hc : IsSymbol c
  · -- after three symbols comes a fourth or one pad
    rcases l with _ | ⟨d, l⟩
    · right; simp [Quantum.scan, take_symbol, ha, hb, hc]
    by_cases hd : IsSymbol d
    · exact Or.inl ⟨a, b, c, d, l, rfl, ha, hb, hc, hd⟩
    right
    by_cases hp : d = kPad
    · subst hp
      rcases l with _ | ⟨e, l⟩
      · simp [Quantum.scan, take_symbol, take_kPad, ha, hb, hc]
      · simp [Quantum.scan, take_symbol, take_kPad, ha, hb, hc, take_late]
        omega
    · simp [Quantum.scan, take_symbol, ha, hb, hc, take_other hd hp]
  · right
    by_cases hp : c = kPad
    swap
    · simp [Quantum.scan, take_symbol, ha, hb, take_other hc hp]
    subst hp
    rcases l with _ | ⟨d, l⟩
    · simp [Quantum.scan, take_symbol, take_kPad, ha, hb]
    by_cases hd : IsSymbol d
    · simp [Quantum.scan, take_symbol, take_kPad, ha, hb, hd]
    by_cases hp : d = kPad
    swap
    · simp [Quantum.scan, take_symbol, take_kPad, ha, hb, take_other hd hp]
    subst hp
    rcases l with _ | ⟨e, l⟩
    · simp [Quantum.scan, take_symbol, take_kPad, ha, hb]
    · simp [Quantum.scan, take_symbol, take_kPad, ha, hb, take_late]
      omega

end Strict

/-! ## Strict decoding is the inverse of encoding -/

theorem encode_one (b : Uint8) : encodeFromArray [b] = ((sextets b 0 0).take 2).map base64Char ++ [kPad, kPad] := by
  simp [encodeFromArray, sextets]

theorem encode_two (b b' : Uint8) : encodeFromArray [b, b'] = ((sextets b b' 0).take 3).map base64Char ++ [kPad] := by
  simp [encodeFromArray, sextets]

theorem encode_three (b b' b'' : Uint8) (x : List Uint8) :
    encodeFromArray (b :: b' :: b'' :: x) =
      (sextets b b' b'').map base64Char ++ encodeFromArray x := rfl

section Strict

variable {data : List Uint8} {dpos fuel : ℕ} {acc : List Uint8}

abbrev strictLoop (data : List Uint8) (fuel dpos : ℕ) (acc : List Uint8) : Option Decoded :=
  decodeLoop doParseStrict doPadYes doTermBuffer data fuel dpos acc

theorem strictLoop_nil (h : data.drop dpos = []) : strictLoop data (fuel + 1) dpos acc = some ⟨true, acc, dpos⟩ := by
  rw [strictLoop, decodeLoop, if_neg (by have := List.drop_eq_nil_iff.mp h; omega)]

theorem lt_of_drop_ne_nil (h : data.drop dpos ≠ []) : dpos < data.length := by
  by_contra hge
  exact h (List.drop_eq_nil_of_le (by omega))

theorem strictLoop_short (h : data.drop dpos ≠ []) {q : Symbols}
    (hq : getNextQuantum doParseStrict false data dpos = q) (hlt : q.byteLen < 4) :
    strictLoop data (fuel + 1) dpos acc = some
      ⟨decide (0 = if q.byteLen ≥ 3 then byte2 q.qbuf else if q.byteLen ≥ 2 then byte1 q.qbuf
          else byte0 q.qbuf) && q.padded,
        acc ++ [byte0 q.qbuf, byte1 q.qbuf].take (q.byteLen - 1), q.dpos⟩ := by
  have hd := lt_of_drop_ne_nil h
  have hpad : decide (doPadNo = doPadYes) = false := by decide
  rw [strictLoop, decodeLoop, if_pos hd, hpad, hq]
  dsimp only
  have hcases : q.byteLen = 0 ∨ q.byteLen = 1 ∨ q.byteLen = 2 ∨ q.byteLen = 3 := by omega
  rcases hcases with hn | hn | hn | hn <;> simp [hn]

theorem strictLoop_four (h : data.drop dpos ≠ []) {n : ℕ} {qbuf : List Uint8}
    (hq : getNextQuantum doParseStrict false data dpos = ⟨4, n, qbuf, true⟩) :
    strictLoop data (fuel + 1) dpos acc =
      strictLoop data fuel n (acc ++ [byte0 qbuf, byte1 qbuf, byte2 qbuf]) := by
  have hd := lt_of_drop_ne_nil h
  have hpad : decide (doPadNo = doPadYes) = false := by decide
  rw [strictLoop, decodeLoop, if_pos hd, hpad, hq]
  simp

/-- **The strict decoder undoes the encoder**. -/
theorem strictLoop_encode (x acc : List Uint8) (h : data.drop dpos = encodeFromArray x)
    (hd : dpos ≤ data.length) (hfuel : x.length < fuel) :
    strictLoop data fuel dpos acc = some ⟨true, acc ++ x, data.length⟩ := by
  have hlen := congrArg List.length h
  rw [List.length_drop] at hlen
  obtain ⟨fuel, rfl⟩ : ∃ n, fuel = n + 1 := ⟨fuel - 1, by omega⟩
  induction x using encodeFromArray.induct generalizing dpos fuel acc with
  | case1 =>
    rw [strictLoop_nil h, List.append_nil]
    simp [encodeFromArray] at hlen
    congr 2
    omega
  | case2 b =>
    obtain ⟨s₀, s₁, s₂, s₃, hs, ⟨h₀, h₁, -, -⟩, ⟨hb, hc, -⟩, hs₃, hs₂⟩ := sextets_spec b 0 0
    obtain rfl := hs₂ rfl rfl
    obtain rfl := hs₃ rfl
    rw [encode_one, hs] at h hlen
    have hne : data.drop dpos ≠ [] := by rw [h]; exact List.cons_ne_nil _ _
    have hq := quantum_two h (isSymbol_base64Char h₀) (isSymbol_base64Char h₁)
    rw [symbol_base64Char h₀, symbol_base64Char h₁] at hq
    rw [strictLoop_short hne hq (by simp)]
    simp at hlen ⊢
    exact ⟨hc.symm, hb, by omega⟩
  | case3 b b' =>
    obtain ⟨s₀, s₁, s₂, s₃, hs, ⟨h₀, h₁, h₂, -⟩, ⟨hb, hb', hc⟩, hs₃, -⟩ := sextets_spec b b' 0
    obtain rfl := hs₃ rfl
    rw [encode_two, hs] at h hlen
    have hne : data.drop dpos ≠ [] := by rw [h]; exact List.cons_ne_nil _ _
    have hq := quantum_three h (isSymbol_base64Char h₀) (isSymbol_base64Char h₁)
      (isSymbol_base64Char h₂)
    rw [symbol_base64Char h₀, symbol_base64Char h₁, symbol_base64Char h₂] at hq
    rw [strictLoop_short hne hq (by simp)]
    simp at hlen ⊢
    exact ⟨hc.symm, ⟨hb, hb'⟩, by omega⟩
  | case4 b b' b'' x ih =>
    obtain ⟨s₀, s₁, s₂, s₃, hs, ⟨h₀, h₁, h₂, h₃⟩, ⟨hb, hb', hb''⟩, -, -⟩ := sextets_spec b b' b''
    rw [encode_three, hs] at h hlen
    have hne : data.drop dpos ≠ [] := by rw [h]; exact List.cons_ne_nil _ _
    have hq := quantum_four h (isSymbol_base64Char h₀) (isSymbol_base64Char h₁)
      (isSymbol_base64Char h₂) (isSymbol_base64Char h₃)
    rw [symbol_base64Char h₀, symbol_base64Char h₁, symbol_base64Char h₂, symbol_base64Char h₃] at hq
    have hrest : data.drop (dpos + 4) = encodeFromArray x := by
      rw [← List.drop_drop, h]
      rfl
    simp at hlen hfuel
    obtain ⟨fuel, rfl⟩ : ∃ n, fuel = n + 1 := ⟨fuel - 1, by omega⟩
    have := ih (acc ++ [b, b', b'']) hrest (by omega) (by omega) fuel (by omega)
    rw [strictLoop_four hne hq, hb, hb', hb'', this]
    simp

theorem zero_and_mask : (0 : Uint8) &&& 0x3f#8 = 0 := by decide

/-- **What the strict decoder accepts in full is an encoding**. -/
theorem strictLoop_inv {d : Decoded} (hd : dpos ≤ data.length)
    (h : strictLoop data fuel dpos acc = some d) (hs : d.success = true)
    (hu : d.dataUsed = data.length) :
    ∃ x, data.drop dpos = encodeFromArray x ∧ d.result = acc ++ x := by
  induction fuel generalizing dpos acc with
  | zero => cases h
  | succ fuel ih =>
    rcases hl : data.drop dpos with _ | ⟨ch, l⟩
    · rw [strictLoop_nil hl] at h
      cases h
      exact ⟨[], rfl, (List.append_nil acc).symm⟩
    have hne : data.drop dpos ≠ [] := by rw [hl]; exact List.cons_ne_nil _ _
    rw [← hl]
    rcases quantum_inv rfl hne with ⟨a, b, c, e, rest, hl, ha, hb, hc, he⟩ | ⟨hlt, htail⟩
    · have hq := quantum_four hl ha hb hc he
      have hrest : data.drop (dpos + 4) = rest := by
        rw [← List.drop_drop, hl]
        rfl
      have hle : dpos + 4 ≤ data.length := by
        have := congrArg List.length hl
        simp at this
        omega
      rw [strictLoop_four hne hq] at h
      obtain ⟨x, hx, hr⟩ := ih hle h
      refine ⟨_ :: _ :: _ :: x, ?_, hr.trans (List.append_assoc _ _ _)⟩
      rw [encode_three, sextets_bytes ha.spec.1 hb.spec.1 hc.spec.1 he.spec.1, ← hx, hrest, hl]
      simp [ha.spec.2, hb.spec.2, hc.spec.2, he.spec.2]
    · rw [strictLoop_short hne rfl hlt] at h
      cases h
      rw [Bool.and_eq_true, decide_eq_true_iff] at hs
      rcases htail hs.2 hu with ⟨a, b, hl, ha, hb⟩ | ⟨a, b, c, hl, ha, hb, hc⟩
      · rw [quantum_two hl ha hb] at hs ⊢
        have hsix := sextets_bytes ha.spec.1 hb.spec.1 zero_and_mask zero_and_mask
        rw [← show (0 : Uint8) = byte1 [symbol a, symbol b, 0, 0] from hs.1,
          show byte2 [symbol a, symbol b, 0, 0] = 0 by simp [byte2]] at hsix
        refine ⟨[byte0 [symbol a, symbol b, 0, 0]], ?_, rfl⟩
        rw [encode_one, hsix, hl]
        simp [ha.spec.2, hb.spec.2]
      · rw [quantum_three hl ha hb hc] at hs ⊢
        have hsix := sextets_bytes ha.spec.1 hb.spec.1 hc.spec.1 zero_and_mask
        rw [← show (0 : Uint8) = byte2 [symbol a, symbol b, symbol c, 0] from hs.1] at hsix
        refine ⟨[byte0 [symbol a, symbol b, symbol c, 0], byte1 [symbol a, symbol b, symbol c, 0]],
          ?_, rfl⟩
        rw [encode_two, hsix, hl]
        simp [ha.spec.2, hb.spec.2, hc.spec.2]

end Strict

theorem decodeFromArray_strict (s : List Uint8) :
    decodeFromArray s doStrict = (strictLoop s (s.length + 1) 0 []).map fun d =>
      { d with success := d.success && decide (d.dataUsed = s.length) } := by
  have hterm : doTermBuffer = doStrict &&& doTermMask := by decide
  rw [decodeFromArray]
  congr 1
  funext d
  by_cases h : d.dataUsed = s.length <;> simp [h, ← hterm]

theorem length_le_encode (x : List Uint8) : x.length ≤ (encodeFromArray x).length := by
  induction x using encodeFromArray.induct with
  | case4 b b' b'' x ih =>
    simp only [encodeFromArray, List.length_cons]
    omega
  | _ => simp [encodeFromArray]

theorem decode_encode (x : List Uint8) :
    decodeFromArray (encodeFromArray x) doStrict = some ⟨true, x, (encodeFromArray x).length⟩ := by
  have hlen := length_le_encode x
  rw [decodeFromArray_strict, strictLoop_encode x [] List.drop_zero (Nat.zero_le _) (by omega)]
  simp

theorem encode_decode {s x : List Uint8} (h : decodeFromArray s doStrict = some ⟨true, x, s.length⟩) :
    s = encodeFromArray x := by
  rw [decodeFromArray_strict, Option.map_eq_some_iff] at h
  obtain ⟨d, hd, heq⟩ := h
  obtain ⟨hs, hr, hu⟩ := Decoded.mk.inj heq
  rw [Bool.and_eq_true] at hs
  obtain ⟨x', hx, hr'⟩ := strictLoop_inv (Nat.zero_le _) hd hs.1 hu
  rw [← hr, hr', List.nil_append, ← hx, List.drop_zero]

/-- **Base64 is exact**: decoding gives back what was encoded, strict decoding accepts nothing else,
and no decoding leaves the string. -/
theorem base64_exact :
    (∀ x : List Uint8,
      decodeFromArray (encodeFromArray x) doStrict = some ⟨true, x, (encodeFromArray x).length⟩) ∧
    (∀ s x : List Uint8, decodeFromArray s doStrict = some ⟨true, x, s.length⟩ → s = encodeFromArray x) ∧
    ∀ (s : List Uint8) (flags : DecodeFlags),
      ∃ d, decodeFromArray s flags = some d ∧ d.dataUsed ≤ s.length :=
  ⟨decode_encode, fun _ _ => encode_decode, decodeFromArray_terminates⟩

theorem base64_exact_word : [0x5a#8, 0x6d#8, 0x39#8, 0x76#8] = encodeFromArray [0x66#8, 0x6f#8, 0x6f#8] :=
  base64_exact.2.1 _ _ (by decide)

end Libjingle.Base64
