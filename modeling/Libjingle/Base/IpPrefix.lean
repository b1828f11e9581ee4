import Libjingle.Base.SocketAddress

/-!
# Prefixes of IP addresses (`base/ipaddress.cc`)

Main result: **`prefix_arithmetic`**.
-/

variable {n : ℕ}

namespace Libjingle

/-! ## The functions -/

/-- The 32-bit word number `i` of an IPv6 address. -/
def word (addr : BitVec 128) (i : ℕ) : Uint32 := addr.extractLsb' (96 - 32 * i) 32

/-- The IPv6 address of four words. -/
def ofWords (words : ℕ → Uint32) : BitVec 128 := words 0 ++ words 1 ++ words 2 ++ words 3

/-- `TruncateIP`: the first `length` bits, the rest zero. -/
def truncateIP (ip : IPAddress) (length : ℤ) : IPAddress :=
  if length < 0 then .unspec
  else match ip with
    | .v4 addr =>
      if length > 31 then .v4 addr
      else if length = 0 then .v4 0
      else .v4 (addr &&& (0xFFFFFFFF#32 <<< (32 - length.toNat)))
    | .v6 addr =>
      if length > 127 then .v6 addr
      else if length = 0 then .v6 0
      else
        let position := length.toNat / 32
        let innerLength := 32 - (length.toNat - position * 32)
        let innerMask : Uint32 := (0xFFFFFFFF#64 <<< innerLength).setWidth 32
        .v6 (ofWords fun i =>
          if i = position then word addr i &&& innerMask
          else if i > position then 0
          else word addr i)
    | .unspec => .unspec

/-- The number of trailing zeros. -/
def trailingZeroes (wordToCount : Uint32) : Uint32 :=
  -- The negation of `int32` wraps on 0x80000000, the word of a mask that ends behind its first bit.
  let lowest := wordToCount &&& -wordToCount
  32 - (if lowest ≠ 0 then 1 else 0) -
    (if lowest &&& 0x0000FFFF ≠ 0 then 16 else 0) -
    (if lowest &&& 0x00FF00FF ≠ 0 then 8 else 0) -
    (if lowest &&& 0x0F0F0F0F ≠ 0 then 4 else 0) -
    (if lowest &&& 0x33333333 ≠ 0 then 2 else 0) -
    (if lowest &&& 0x55555555 ≠ 0 then 1 else 0)

/-- The end of `CountIPMaskBits`, behind `bits` ones. -/
def countWord (bits : ℕ) (wordToCount : Uint32) : ℤ :=
  if wordToCount = 0 then bits else (BitVec.ofNat 32 bits + (32 - trailingZeroes wordToCount)).toInt

/-- `CountIPMaskBits`: the leading ones, by words. -/
def countIPMaskBits : IPAddress → ℤ
  | .v4 addr => countWord 0 addr
  | .v6 addr =>
    let i := ((List.range 4).find? fun i => word addr i ≠ 0xFFFFFFFF).getD 4
    countWord (i * 32) (if i < 4 then word addr i else 0)
  | .unspec => 0

/-! ## Bits -/

section Bits

variable {w : ℕ}

/-- The first `n` bits of a word, the rest zero. -/
def firstBits (n : ℕ) (x : BitVec w) : BitVec w := x &&& (BitVec.allOnes w <<< (w - n))

theorem getLsbD_firstBits (n i : ℕ) (x : BitVec w) :
    (firstBits n x).getLsbD i = (x.getLsbD i && decide (w - n ≤ i)) := by
  rw [firstBits, BitVec.getLsbD_and, BitVec.getLsbD_shiftLeft, BitVec.getLsbD_allOnes]
  by_cases hi : i < w
  · by_cases hn : w - n ≤ i
    · have : i - (w - n) < w := by omega
      simp [hi, hn, this, Nat.not_lt.mpr hn]
    · simp [hn, Nat.lt_of_not_le hn]
  · simp [BitVec.getLsbD_of_ge x i (Nat.le_of_not_lt hi)]

theorem getMsbD_firstBits (hn : n ≤ w) (i : ℕ) (x : BitVec w) :
    (firstBits n x).getMsbD i = (x.getMsbD i && decide (i < n)) := by
  rw [BitVec.getMsbD_eq_getLsbD, BitVec.getMsbD_eq_getLsbD, getLsbD_firstBits]
  by_cases hi : i < w
  · have : w - n ≤ w - 1 - i ↔ i < n := by omega
    simp [hi, this]
  · simp [hi]

theorem firstBits_of_le (h : w ≤ n) (x : BitVec w) : firstBits n x = x := by
  refine BitVec.eq_of_getLsbD_eq fun i _ => ?_
  rw [getLsbD_firstBits, Nat.sub_eq_zero_of_le h]
  simp

theorem firstBits_zero (x : BitVec w) : firstBits 0 x = 0 := by
  refine BitVec.eq_of_getLsbD_eq fun i hi => ?_
  rw [getLsbD_firstBits, Nat.sub_zero, decide_eq_false (Nat.not_le.mpr hi), Bool.and_false]
  simp

theorem firstBits_firstBits {a b : ℕ} (ha : a ≤ w) (hb : b ≤ w) (x : BitVec w) :
    firstBits b (firstBits a x) = firstBits (min a b) x := by
  refine BitVec.eq_of_getLsbD_eq fun i _ => ?_
  rw [getLsbD_firstBits, getLsbD_firstBits, getLsbD_firstBits, Bool.and_assoc, ← Bool.decide_and]
  congr 2
  apply propext
  omega

end Bits

/-! ## Truncation -/

theorem word_getLsbD (addr : BitVec 128) (i k : ℕ) :
    (word addr i).getLsbD k = (decide (k < 32) && addr.getLsbD (96 - 32 * i + k)) := by
  rw [word, BitVec.getLsbD_extractLsb']

theorem ofWords_word (addr : BitVec 128) : ofWords (word addr) = addr := by
  refine BitVec.eq_of_getLsbD_eq fun i hi => ?_
  rw [ofWords]
  simp only [BitVec.getLsbD_append, word_getLsbD]
  split_ifs with h0 h1 h2
  · simp [h0]
  · have : 96 - 32 * 2 + (i - 32) = i := by omega
    simp [h1, this]
  · have : 96 - 32 * 1 + (i - 32 - 32) = i := by omega
    simp [h2, this]
  · have hlt : i - 32 - 32 - 32 < 32 := by omega
    have : 96 - 32 * 0 + (i - 32 - 32 - 32) = i := by omega
    simp [hlt, this]

theorem ofWords_congr {f g : ℕ → Uint32} (h : ∀ i < 4, f i = g i) : ofWords f = ofWords g := by
  rw [ofWords, ofWords, h 0 (by omega), h 1 (by omega), h 2 (by omega), h 3 (by omega)]

theorem mask_getLsbD {k : ℕ} (hk : k < 32) :
    ((0xFFFFFFFF#64 <<< n).setWidth 32 : Uint32).getLsbD k = decide (n ≤ k) := by
  have hones : 0xFFFFFFFF#64 = (BitVec.allOnes 32).setWidth 64 := by decide
  rw [hones, BitVec.getLsbD_setWidth, BitVec.getLsbD_shiftLeft, BitVec.getLsbD_setWidth, BitVec.getLsbD_allOnes]
  by_cases hn : n ≤ k
  · have hwide : k < 64 := by omega
    have hshort : k - n < 32 := by omega
    have hshort' : k - n < 64 := by omega
    simp [hk, hn, hwide, hshort, hshort', Nat.not_lt.mpr hn]
  · simp [hn, Nat.lt_of_not_le hn]

theorem word_firstBits {i : ℕ} (hn : n ≤ 127) (hi : i < 4) (addr : BitVec 128) :
    word (firstBits n addr) i =
      if i = n / 32 then word addr i &&& (0xFFFFFFFF#64 <<< (32 - (n - n / 32 * 32))).setWidth 32
      else if i > n / 32 then 0
      else word addr i := by
  refine BitVec.eq_of_getLsbD_eq fun k hk => ?_
  rw [word_getLsbD, getLsbD_firstBits]
  split_ifs with heq hgt
  · have hend : 128 - n ≤ 96 - 32 * i + k ↔ 32 - (n - n / 32 * 32) ≤ k := by omega
    rw [BitVec.getLsbD_and, word_getLsbD, mask_getLsbD hk, decide_eq_decide.mpr hend, Bool.and_assoc]
  · have hbehind : ¬128 - n ≤ 96 - 32 * i + k := by omega
    rw [decide_eq_false hbehind, Bool.and_false, Bool.and_false]
    simp
  · have hbefore : 128 - n ≤ 96 - 32 * i + k := by omega
    rw [decide_eq_true hbefore, Bool.and_true, word_getLsbD]

theorem truncateIP_v4 (hn : n ≤ 32) (addr : Uint32) : truncateIP (.v4 addr) n = .v4 (firstBits n addr) := by
  rw [truncateIP, if_neg (by omega)]
  by_cases hall : (n : ℤ) > 31
  · rw [if_pos hall, firstBits_of_le (by omega)]
  · rw [if_neg hall]
    by_cases hzero : (n : ℤ) = 0
    · obtain rfl : n = 0 := by omega
      rw [if_pos hzero, firstBits_zero]
    · rw [if_neg hzero, Int.toNat_natCast]
      rfl

theorem truncateIP_v6 (hn : n ≤ 128) (addr : BitVec 128) : truncateIP (.v6 addr) n = .v6 (firstBits n addr) := by
  rw [truncateIP, if_neg (by omega)]
  by_cases hall : (n : ℤ) > 127
  · rw [if_pos hall, firstBits_of_le (by omega)]
  · rw [if_neg hall]
    by_cases hzero : (n : ℤ) = 0
    · obtain rfl : n = 0 := by omega
      rw [if_pos hzero, firstBits_zero]
    · rw [if_neg hzero, Int.toNat_natCast, ← ofWords_word (firstBits n addr)]
      exact congrArg _ (ofWords_congr fun i hi => (word_firstBits (by omega) hi addr).symm)

/-! ## Prefixes -/

def IPAddress.width : IPAddress → ℕ
  | .unspec => 0
  | .v4 _ => 32
  | .v6 _ => 128

def IPAddress.bit : IPAddress → ℕ → Bool
  | .unspec, _ => false
  | .v4 addr, i => addr.getMsbD i
  | .v6 addr, i => addr.getMsbD i

/-- `r` has the first `n` bits of `ip`, then zeros. -/
def Truncated (ip : IPAddress) (n : ℕ) (r : IPAddress) : Prop :=
  r.width = ip.width ∧ ∀ i, r.bit i = (ip.bit i && decide (i < n))

def IsMask (n : ℕ) (mask : IPAddress) : Prop := ∀ i < mask.width, mask.bit i = decide (i < n)

instance (n : ℕ) (mask : IPAddress) : Decidable (IsMask n mask) :=
  inferInstanceAs (Decidable (∀ i < mask.width, mask.bit i = decide (i < n)))

theorem eq_firstBits {w : ℕ} {x : BitVec w} (hn : n ≤ w) (h : ∀ i < w, x.getMsbD i = decide (i < n)) :
    x = firstBits n (BitVec.allOnes w) := by
  refine BitVec.eq_of_getMsbD_eq fun i hi => ?_
  rw [h i hi, getMsbD_firstBits hn, BitVec.getMsbD_allOnes, decide_eq_true hi, Bool.true_and]

set_option maxRecDepth 4000 in
theorem countIPMaskBits_mask {mask : IPAddress} (hn : n ≤ mask.width) (h : IsMask n mask) :
    countIPMaskBits mask = n := by
  cases mask with
  | unspec =>
    rw [Nat.le_zero.mp hn]
    rfl
  | v4 addr =>
    have hall : ∀ n : Fin 33, countIPMaskBits (.v4 (firstBits n (BitVec.allOnes 32))) = (n : ℕ) := by decide
    rw [eq_firstBits hn h]
    exact hall ⟨n, Nat.lt_succ_of_le hn⟩
  | v6 addr =>
    have hall : ∀ n : Fin 129, countIPMaskBits (.v6 (firstBits n (BitVec.allOnes 128))) = (n : ℕ) := by decide
    rw [eq_firstBits hn h]
    exact hall ⟨n, Nat.lt_succ_of_le hn⟩

theorem truncateIP_truncated {ip : IPAddress} (hn : n ≤ ip.width) : Truncated ip n (truncateIP ip n) := by
  cases ip with
  | unspec =>
    rw [Nat.le_zero.mp hn]
    exact ⟨rfl, fun i => rfl⟩
  | v4 addr =>
    rw [truncateIP_v4 hn]
    exact ⟨rfl, fun i => getMsbD_firstBits hn i addr⟩
  | v6 addr =>
    rw [truncateIP_v6 hn]
    exact ⟨rfl, fun i => getMsbD_firstBits hn i addr⟩

theorem truncateIP_truncateIP {ip : IPAddress} {a b : ℕ} (ha : a ≤ ip.width) (hb : b ≤ ip.width) :
    truncateIP (truncateIP ip a) b = truncateIP ip (min a b : ℕ) := by
  have hmin : min a b ≤ ip.width := (Nat.min_le_left a b).trans ha
  cases ip with
  | unspec =>
    rw [Nat.le_zero.mp ha, Nat.le_zero.mp hb]
    rfl
  | v4 addr =>
    have hbits := @firstBits_firstBits 32 a b ha hb addr
    rw [truncateIP_v4 ha, truncateIP_v4 hb, truncateIP_v4 hmin, hbits]
  | v6 addr =>
    have hbits := @firstBits_firstBits 128 a b ha hb addr
    rw [truncateIP_v6 ha, truncateIP_v6 hb, truncateIP_v6 hmin, hbits]

/-- **Prefixes of IP addresses**: truncation keeps the first bits only, truncations compose to the
smaller length, and the ones of a mask are counted. -/
theorem prefix_arithmetic {ip : IPAddress} {a b : ℕ} (ha : a ≤ ip.width) (hb : b ≤ ip.width) :
    Truncated ip a (truncateIP ip a) ∧ truncateIP (truncateIP ip a) b = truncateIP ip (min a b : ℕ) ∧
      (IsMask a ip → countIPMaskBits ip = a) :=
  ⟨truncateIP_truncated ha, truncateIP_truncateIP ha hb, countIPMaskBits_mask ha⟩

/-- 255.255.0.0 to 20 bits, and to 16. -/
theorem prefix_arithmetic_mask :
    countIPMaskBits (.v4 0xFFFF0000) = 16 ∧
      truncateIP (truncateIP (.v4 0xFFFF0000) 16) 20 = truncateIP (.v4 0xFFFF0000) 16 :=
  have h := @prefix_arithmetic (.v4 0xFFFF0000) 16 20 (by decide) (by decide)
  ⟨h.2.2 (by decide), h.2.1⟩

end Libjingle
