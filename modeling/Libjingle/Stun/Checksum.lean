import Libjingle.Stun.Fingerprint

/-!
# What FINGERPRINT detects (`base/crc32.cc`, `p2p/base/stun.cc`)

`UpdateCrc32` takes eight steps of a shift register at once, from a table. A step is linear and can be undone,
so four bytes enter the register as one word.

Main results: **`crc32Byte_eq`**, **`foldl_crc32Byte`**, **`fingerprint_detects`**.
-/

namespace Libjingle

open Lib

/-! ## The register -/

/-- Some steps of the register of the CRC. -/
def crc32Shifts : ℕ → Uint32 → Uint32
  | 0, c => c
  | n + 1, c => crc32Shifts n (crc32Shift c)

theorem crc32Shifts_add (m n : ℕ) (c : Uint32) : crc32Shifts (m + n) c = crc32Shifts n (crc32Shifts m c) := by
  induction m generalizing c with
  | zero => rw [Nat.zero_add, crc32Shifts]
  | succ m ih => rw [Nat.add_right_comm, crc32Shifts, crc32Shifts, ih]

theorem crc32Shift_eq (c : Uint32) :
    crc32Shift c = if c.getLsbD 0 then kCrc32Polynomial ^^^ (c >>> 1) else c >>> 1 := by
  have hbit : c &&& 1 ≠ 0 ↔ c.getLsbD 0 = true := by
    rw [show c &&& 1 = _ from BitVec.and_one_eq_setWidth_ofBool_getLsbD]
    cases c.getLsbD 0 <;> decide
  exact if_congr hbit rfl rfl

theorem crc32Shift_xor (a b : Uint32) : crc32Shift (a ^^^ b) = crc32Shift a ^^^ crc32Shift b := by
  have hcancel : ∀ p x y : Uint32, (p ^^^ x) ^^^ (p ^^^ y) = x ^^^ y := fun p x y => by
    rw [BitVec.xor_comm p x, BitVec.xor_assoc, ← BitVec.xor_assoc p p y, BitVec.xor_self, BitVec.zero_xor]
  simp only [crc32Shift_eq, BitVec.getLsbD_xor, BitVec.ushiftRight_xor_distrib]
  cases a.getLsbD 0 <;> cases b.getLsbD 0
  · rfl
  · exact (BitVec.xor_assoc _ _ _).symm.trans ((congrArg (· ^^^ _) (BitVec.xor_comm _ _)).trans
      (BitVec.xor_assoc _ _ _))
  · exact (BitVec.xor_assoc _ _ _).symm
  · exact (hcancel _ _ _).symm

theorem crc32Shift_eq_zero {c : Uint32} (h : crc32Shift c = 0) : c = 0 := by
  rw [crc32Shift_eq] at h
  have hlow : c.getLsbD 0 = false := by
    by_contra hset
    rw [Bool.not_eq_false] at hset
    rw [if_pos hset] at h
    have htop := congrArg (·.getLsbD 31) h
    simp only [BitVec.getLsbD_xor, BitVec.getLsbD_ushiftRight, BitVec.getLsbD_of_ge c (1 + 31) (by omega)] at htop
    exact absurd htop (by decide)
  rw [hlow, if_neg Bool.false_ne_true] at h
  refine BitVec.eq_of_getLsbD_eq fun i hi => ?_
  change c.getLsbD i = (0#32).getLsbD i
  rw [BitVec.getLsbD_zero]
  cases i with
  | zero => exact hlow
  | succ i =>
    have hbit := congrArg (·.getLsbD i) h
    simpa [BitVec.getLsbD_ushiftRight, Nat.add_comm] using hbit

theorem crc32Shifts_xor (n : ℕ) (a b : Uint32) : crc32Shifts n (a ^^^ b) = crc32Shifts n a ^^^ crc32Shifts n b := by
  induction n generalizing a b with
  | zero => rfl
  | succ n ih => rw [crc32Shifts, crc32Shift_xor, ih, crc32Shifts, crc32Shifts]

theorem crc32Shifts_injective (n : ℕ) {a b : Uint32} (h : crc32Shifts n a = crc32Shifts n b) : a = b := by
  have hzero : ∀ n, ∀ c : Uint32, crc32Shifts n c = 0 → c = 0 := fun n => by
    induction n with
    | zero => exact fun _ => id
    | succ n ih => exact fun c hc => crc32Shift_eq_zero (ih _ hc)
  refine BitVec.xor_eq_zero_iff.mp (hzero n _ ?_)
  rw [crc32Shifts_xor, h]
  exact BitVec.xor_self

theorem crc32Shifts_of_low {n : ℕ} {c : Uint32} (h : ∀ i < n, c.getLsbD i = false) : crc32Shifts n c = c >>> n := by
  induction n generalizing c with
  | zero => rw [crc32Shifts, BitVec.ushiftRight_zero]
  | succ n ih =>
    have hshift : crc32Shift c = c >>> 1 := by
      rw [crc32Shift_eq, h 0 (Nat.succ_pos n), if_neg Bool.false_ne_true]
    rw [crc32Shifts, hshift, ih fun i hi => by rw [BitVec.getLsbD_ushiftRight]; exact h _ (by omega),
      ← BitVec.shiftRight_add, Nat.add_comm]

/-! ## Bytes -/

/-- The body of the loop of `UpdateCrc32`. -/
def crc32Byte (c : Uint32) (u : Uint8) : Uint32 :=
  crc32Entry ((c ^^^ u.setWidth 32) &&& 0xFF) ^^^ (c >>> 8)

/-- A byte takes eight steps of the register. -/
theorem crc32Byte_eq (c : Uint32) (u : Uint8) : crc32Byte c u = crc32Shifts 8 (c ^^^ u.setWidth 32) := by
  have hmask : ∀ i < 32, (0xFF#32).getLsbD i = decide (i < 8) := by decide
  have hsplit : ∀ v : Uint32, v = (v &&& 0xFF#32) ^^^ (v >>> 8 <<< 8) := fun v => by
    refine BitVec.eq_of_getLsbD_eq fun i hi => ?_
    rw [BitVec.getLsbD_xor, BitVec.getLsbD_and, hmask i hi]
    by_cases h : i < 8
    · simp [h]
    · simp [h, hi, Nat.add_sub_cancel' (Nat.not_lt.mp h)]
  have hhigh : (c ^^^ u.setWidth 32) >>> 8 <<< 8 >>> 8 = c >>> 8 := by
    refine BitVec.eq_of_getLsbD_eq fun i hi => ?_
    by_cases h : 8 + i < 32
    · simp [h]
    · simp [h, BitVec.getLsbD_of_ge c (8 + i) (by omega)]
  conv_rhs => rw [hsplit (c ^^^ u.setWidth 32)]
  have hlow : ∀ i < 8, ((c ^^^ u.setWidth 32) >>> 8 <<< 8).getLsbD i = false := fun i hi => by simp [hi]
  rw [crc32Shifts_xor, crc32Shifts_of_low hlow, hhigh]
  rfl

/-- The word of some bytes, the first one lowest. -/
def wordOf : List Uint8 → Uint32
  | [] => 0
  | u :: us => u.setWidth 32 ^^^ (wordOf us <<< 8)

theorem wordOf_high {us : List Uint8} {i : ℕ} (h : 8 * us.length ≤ i) : (wordOf us).getLsbD i = false := by
  induction us generalizing i with
  | nil => exact BitVec.getLsbD_zero
  | cons u us ih =>
    rw [List.length_cons] at h
    have hrest : (wordOf us).getLsbD (i - 8) = false := ih (by omega)
    simp [wordOf, hrest, BitVec.getLsbD_of_ge u i (by omega)]

theorem wordOf_low {us : List Uint8} (h : us.length < 4) : wordOf us <<< 8 >>> 8 = wordOf us := by
  refine BitVec.eq_of_getLsbD_eq fun i hi => ?_
  rw [BitVec.getLsbD_ushiftRight, BitVec.getLsbD_shiftLeft, Nat.add_sub_cancel_left]
  by_cases hi' : 8 + i < 32
  · simp [hi']
  · simp [hi', wordOf_high (show 8 * us.length ≤ i by omega)]

theorem wordOf_injective {us vs : List Uint8} (hlength : us.length = vs.length) (h : us.length ≤ 4)
    (heq : wordOf us = wordOf vs) : us = vs := by
  induction us generalizing vs with
  | nil => exact (List.length_eq_zero_iff.mp hlength.symm).symm
  | cons u us ih =>
    cases vs with
    | nil => cases hlength
    | cons v vs =>
      rw [List.length_cons] at h
      have hlength' : us.length = vs.length := Nat.succ.inj hlength
      have hbits : ∀ i, (wordOf (u :: us)).getLsbD i = (wordOf (v :: vs)).getLsbD i := fun i => by rw [heq]
      have hfirst : u = v := BitVec.eq_of_getLsbD_eq fun i hi => by
        have hbit := hbits i
        simpa [wordOf, hi, show i < 32 by omega] using hbit
      have hrest : wordOf us <<< 8 = wordOf vs <<< 8 := by
        rw [wordOf, wordOf, hfirst] at heq
        exact BitVec.xor_right_inj _ |>.mp heq
      rw [hfirst, ih hlength' (by omega) (by
        rw [← wordOf_low (show us.length < 4 by omega), hrest, wordOf_low (by omega)])]

theorem foldl_crc32Byte (c : Uint32) {us : List Uint8} (h : us.length ≤ 4) :
    us.foldl crc32Byte c = crc32Shifts (8 * us.length) (c ^^^ wordOf us) := by
  induction us generalizing c with
  | nil => exact (BitVec.xor_zero).symm
  | cons u us ih =>
    rw [List.length_cons] at h
    have hmoved : crc32Shifts 8 (wordOf us <<< 8) = wordOf us := by
      rw [crc32Shifts_of_low fun i hi => by simp [hi], wordOf_low (by omega)]
    have hword : crc32Byte c u ^^^ wordOf us = crc32Shifts 8 (c ^^^ wordOf (u :: us)) := by
      rw [wordOf, ← BitVec.xor_assoc, crc32Shifts_xor, hmoved, crc32Byte_eq]
    rw [List.foldl_cons, ih _ (by omega), hword, ← crc32Shifts_add, List.length_cons, Nat.mul_succ, Nat.add_comm]

theorem foldl_crc32Byte_injective {c c' : Uint32} (us : List Uint8)
    (h : us.foldl crc32Byte c = us.foldl crc32Byte c') : c = c' := by
  induction us generalizing c c' with
  | nil => exact h
  | cons u us ih =>
    have hbyte := ih h
    rw [crc32Byte_eq, crc32Byte_eq] at hbyte
    exact BitVec.xor_left_inj _ |>.mp (crc32Shifts_injective 8 hbyte)

theorem computeCrc32_injective {front back us vs : List Uint8} (hlength : us.length = vs.length)
    (h : us.length ≤ 4) (heq : computeCrc32 (front ++ us ++ back) = computeCrc32 (front ++ vs ++ back)) :
    us = vs := by
  have hfold := BitVec.xor_left_inj _ |>.mp heq
  change (front ++ us ++ back).foldl crc32Byte _ = (front ++ vs ++ back).foldl crc32Byte _ at hfold
  rw [List.foldl_append, List.foldl_append, List.foldl_append, List.foldl_append] at hfold
  have hwindow := foldl_crc32Byte_injective back hfold
  have h' : vs.length ≤ 4 := by omega
  rw [@foldl_crc32Byte _ us h, @foldl_crc32Byte _ vs h', ← hlength] at hwindow
  exact wordOf_injective hlength h (BitVec.xor_right_inj _ |>.mp (crc32Shifts_injective _ hwindow))

/-! ## Packets -/

theorem crc32_of_validateFingerprint {data : ℕ → Uint8} {size : ℕ} (h : validateFingerprint data size = true) :
    getBE32 data (size - fingerprintAttrSize + kStunAttributeHeaderSize) ^^^ stunFingerprintXorValue =
      computeCrc32 (block data 0 (size - fingerprintAttrSize)) := by
  unfold validateFingerprint validateFingerprintWith at h
  split_ifs at h
  dsimp only at h
  split_ifs at h
  exact of_decide_eq_true h

/-- **A change within four consecutive bytes is detected.** -/
theorem fingerprint_detects {data data' : ℕ → Uint8} {size p : ℕ} (hvalid : validateFingerprint data size = true)
    (hcovered : p + 4 ≤ size - fingerprintAttrSize)
    (hsame : ∀ i, ¬(p ≤ i ∧ i < p + 4) → data' i = data i) (hchanged : data' ≠ data) :
    validateFingerprint data' size = false := by
  by_contra hstill
  rw [Bool.not_eq_false] at hstill
  obtain ⟨k, hk⟩ := Nat.exists_eq_add_of_le hcovered
  have hcrc := crc32_of_validateFingerprint hvalid
  have hcrc' := crc32_of_validateFingerprint hstill
  have hfield : getBE32 data' (size - fingerprintAttrSize + kStunAttributeHeaderSize) =
      getBE32 data (size - fingerprintAttrSize + kStunAttributeHeaderSize) := by
    rw [getBE32, getBE32, block_congr fun i _ => hsame _ (by omega)]
  have hfront : block data' 0 p = block data 0 p := block_congr fun i hi => hsame _ (by omega)
  have hback : block data' (p + 4) k = block data (p + 4) k := block_congr fun i _ => hsame _ (by omega)
  have hsplit : ∀ m : ℕ → Uint8, block m 0 (size - fingerprintAttrSize) =
      block m 0 p ++ block m p 4 ++ block m (p + 4) k := fun m => by
    rw [hk, block_add, block_add, Nat.zero_add, Nat.zero_add]
  rw [hfield, hcrc, hsplit, hsplit, hfront, hback] at hcrc'
  have hwindow : block data p 4 = block data' p 4 :=
    computeCrc32_injective (by rw [length_block, length_block]) (by rw [length_block]) hcrc'
  refine hchanged (funext fun i => ?_)
  by_cases hi : p ≤ i ∧ i < p + 4
  · have hget := congrArg (·[i - p]?) hwindow
    simp only [getElem?_block] at hget
    rw [if_pos (by omega), if_pos (by omega), Nat.add_sub_cancel' hi.1] at hget
    exact (Option.some.inj hget).symm
  · exact hsame i hi

def exampleFingerprinted : List Uint8 :=
  [0, 1, 0, 8, 0x21, 0x12, 0xA4, 0x42, 0, 0, 0, 0, 0, 0, 0, 0, 0, 0, 0, 0, 0x80, 0x28, 0, 4, 0xB2, 0xAA, 0xF9, 0xF6]

/-- Two bytes of the transaction id change. -/
theorem fingerprint_detects_id :
    validateFingerprint (packetData exampleFingerprinted) 28 = true ∧
      validateFingerprint (fun i => if i = 10 ∨ i = 13 then 7 else packetData exampleFingerprinted i) 28 = false := by
  have hvalid : validateFingerprint (packetData exampleFingerprinted) 28 = true := by decide +kernel
  refine ⟨hvalid, @fingerprint_detects _ _ _ 10 hvalid (by decide) (fun i hi => if_neg (by omega)) fun hsame => ?_⟩
  exact absurd (congrFun hsame 10) (by decide)

end Libjingle
