import Libjingle.Codec.Laws

/-!
# Texts of URLs (`base/urlencode.{h,cc}`)

Main result: **`urlEncode_iff`**.

`unsigned int` and `int` have 32 bits, and characters are signed.
-/

namespace Libjingle.UrlEncode

open Lib StringEncode

/-! ## Decoding -/

def hexValue (digit : Uint8) : Option ℕ :=
  if 0x30 ≤ digit ∧ digit ≤ 0x39 then some (digit.toNat - 0x30)
  else if 0x41 ≤ digit ∧ digit ≤ 0x46 then some (digit.toNat - 0x41 + 10)
  else if 0x61 ≤ digit ∧ digit ≤ 0x66 then some (digit.toNat - 0x61 + 10)
  else none

def hexPairValue (a b : Uint8) : Option ℕ := do
  let value ← hexValue a
  let digit ← hexValue b
  some (value <<< 4 + digit)

/-- The body of the loop, none at the terminator. -/
def decodeBody (encodeSpaceAsPlus : Bool) :
    List Uint8 → Output Uint8 → Option (List Uint8 × Output Uint8)
  | [], _ => none
  | ch :: src, o =>
    if ch = 0 then none
    else if ch = 0x2B then some (src, o.put (if encodeSpaceAsPlus then 0x20 else ch))
    else if ch = 0x25 then
      match src with
      | a :: b :: rest =>
        if a ≠ 0 ∧ b ≠ 0 then
          match hexPairValue a b with
          | some value => some (rest, o.put (BitVec.ofNat 8 value))
          | none => some (src, o.put 0x3F)
        else some (src, o.put 0x3F)
      | _ => some (src, o.put 0x3F)
    else some (src, o.put ch)

def toInt (distance : ℕ) : ℤ := (BitVec.ofNat 32 distance).toInt

/-- `InternalUrlDecode`: what it returns, and the stores. -/
def internalUrlDecode (source : List Uint8) (encodeSpaceAsPlus : Bool) : ℤ × Output Uint8 :=
  let o := codeLoop (fun _ => true) (decodeBody encodeSpaceAsPlus) source.length source {}
  (toInt o.pos, o.terminate 0)

/-- `UrlDecode`. -/
def urlDecode (source : List Uint8) : ℤ × Output Uint8 := internalUrlDecode source true

/-! ## Encoding -/

/-- `isalnum` in the C locale. -/
def isalnum (ch : Uint8) : Bool :=
  (0x30 ≤ ch && ch ≤ 0x39) || (0x41 ≤ ch && ch ≤ 0x5A) || (0x61 ≤ ch && ch ≤ 0x7A)

def isValidUrlChar (ch : Uint8) (unsafeOnly : Bool) : Bool :=
  if unsafeOnly then !(ch.toInt ≤ 0x20 || strchr (text "\\\"^&\x60<>[]\x7b\x7d") ch)
  else isalnum ch || strchr (text "-_.!~*'()") ch

def upperDigit (val : Uint8) : Uint8 := (text "0123456789ABCDEF").getD val.toNat 0

/-- The loop of `InternalUrlEncode`. -/
def encodeLoop (max : BitVec 32) (encodeSpaceAsPlus unsafeOnly : Bool) :
    List Uint8 → Output Uint8 → Output Uint8
  | [], o => o
  | ch :: src, o =>
    if BitVec.ofNat 32 o.pos < max ∧ ch ≠ 0 then
      if ch = 0x20 ∧ encodeSpaceAsPlus ∧ !unsafeOnly then
        encodeLoop max encodeSpaceAsPlus unsafeOnly src (o.put 0x2B)
      else if isValidUrlChar ch unsafeOnly then
        encodeLoop max encodeSpaceAsPlus unsafeOnly src (o.put ch)
      else if BitVec.ofNat 32 o.pos + 4 > max then o
      else encodeLoop max encodeSpaceAsPlus unsafeOnly src
        (((o.put 0x25).put (upperDigit (ch >>> 4 &&& 0x0F))).put (upperDigit (ch &&& 0x0F)))
    else o

/-- `InternalUrlEncode`, for a buffer of `max` characters. -/
def internalUrlEncode (source : List Uint8) (max : BitVec 32) (encodeSpaceAsPlus unsafeOnly : Bool) :
    ℤ × Output Uint8 :=
  if max = 0 then (0, {})
  else
    let o := encodeLoop max encodeSpaceAsPlus unsafeOnly source {}
    (toInt o.pos, o.terminate 0)

/-- `UrlEncode`. -/
def urlEncode (source : List Uint8) (max : BitVec 32) : ℤ × Output Uint8 :=
  internalUrlEncode source max true false

def urlEncodeWithoutEncodingSpaceAsPlus (source : List Uint8) (max : BitVec 32) : ℤ × Output Uint8 :=
  internalUrlEncode source max false false

def urlEncodeOnlyUnsafeChars (source : List Uint8) (max : BitVec 32) : ℤ × Output Uint8 :=
  internalUrlEncode source max false true

/-! ## Strings -/

def returned (size : ℕ) (o : Output Uint8) (m : ℕ → Uint8) : Option (List Uint8) :=
  if ∀ s ∈ o.stores, s.1 < size then some ((o.text m).takeWhile (· ≠ 0)) else none

def internalUrlDecodeString (encoded : List Uint8) (encodeSpaceAsPlus : Bool) (m : ℕ → Uint8) :
    Option (List Uint8) :=
  returned (encoded.length + 1) (internalUrlDecode encoded encodeSpaceAsPlus).2 m

/-- `UrlDecodeString`. -/
def urlDecodeString (encoded : List Uint8) (m : ℕ → Uint8) : Option (List Uint8) :=
  internalUrlDecodeString encoded true m

def neededLength (length : ℕ) : Option (BitVec 32) :=
  let needed := toInt length * 3 + 1
  if 0 < needed ∧ needed < 2 ^ 31 then some (BitVec.ofInt 32 needed) else none

def internalUrlEncodeString (decoded : List Uint8) (encodeSpaceAsPlus unsafeOnly : Bool) (m : ℕ → Uint8) :
    Option (List Uint8) := do
  let needed ← neededLength decoded.length
  returned needed.toNat (internalUrlEncode decoded needed encodeSpaceAsPlus unsafeOnly).2 m

def urlEncodeString (decoded : List Uint8) (m : ℕ → Uint8) : Option (List Uint8) :=
  internalUrlEncodeString decoded true false m

/-! ## Codes -/

/-- What `InternalUrlEncode` makes of a character. -/
def code (encodeSpaceAsPlus unsafeOnly : Bool) (ch : Uint8) : List Uint8 :=
  if ch = 0x20 ∧ encodeSpaceAsPlus ∧ !unsafeOnly then [0x2B]
  else if isValidUrlChar ch unsafeOnly then [ch]
  else [0x25, upperDigit (ch >>> 4 &&& 0x0F), upperDigit (ch &&& 0x0F)]

section Loop

variable {plus only : Bool} {max : BitVec 32} {bs src : List Uint8} {ch : Uint8}

theorem length_code (ch : Uint8) : (code plus only ch).length = 1 ∨ (code plus only ch).length = 3 := by
  rw [code]
  split
  · exact Or.inl rfl
  · split
    · exact Or.inl rfl
    · exact Or.inr rfl

theorem length_codes (src : List Uint8) : src.length ≤ (src.flatMap (code plus only)).length ∧
    (src.flatMap (code plus only)).length ≤ 3 * src.length := by
  induction src with
  | nil => exact ⟨le_rfl, le_rfl⟩
  | cons ch src ih =>
    have := @length_code plus only ch
    rw [List.flatMap_cons, List.length_append, List.length_cons]
    omega

theorem loop_cons (hpos : bs.length + 4 < 2 ^ 32) (hch : ch ≠ 0) (hroom : bs.length < max.toNat) :
    encodeLoop max plus only (ch :: src) (.written bs) =
      if (code plus only ch).length = 3 ∧ bs.length + 4 > max.toNat then .written bs
      else encodeLoop max plus only src (.written (bs ++ code plus only ch)) := by
  have hguard : BitVec.ofNat 32 bs.length < max := by
    rw [BitVec.lt_def, BitVec.toNat_ofNat]
    omega
  have htest : BitVec.ofNat 32 bs.length + 4 > max ↔ bs.length + 4 > max.toNat := by
    rw [GT.gt, BitVec.lt_def, BitVec.toNat_add, BitVec.toNat_ofNat]
    change max.toNat < (bs.length % 2 ^ 32 + 4) % 2 ^ 32 ↔ _
    omega
  rw [encodeLoop, Output.pos_written, if_pos ⟨hguard, hch⟩, code]
  split
  · rw [if_neg (fun h => absurd h.1 (by decide : ¬[0x2B].length = 3)), Output.put_written]
  · split
    · rw [if_neg (fun h => absurd h.1 (by decide : ¬1 = 3)), Output.put_written]
    · rw [Output.put_written, Output.put_written, Output.put_written, List.append_assoc, List.append_assoc]
      by_cases hfull : bs.length + 4 > max.toNat
      · rw [if_pos (htest.mpr hfull), if_pos ⟨rfl, hfull⟩]
      · rw [if_neg (fun h => hfull (htest.mp h)), if_neg (fun h => hfull h.2)]
        rfl

theorem loop_written (src bs : List Uint8) :
    ∃ cs, encodeLoop max plus only src (.written bs) = .written (bs ++ cs) := by
  induction src generalizing bs with
  | nil => exact ⟨[], by rw [encodeLoop, List.append_nil]⟩
  | cons ch src ih =>
    have happend (ds : List Uint8) :
        ∃ cs, encodeLoop max plus only src (.written (bs ++ ds)) = .written (bs ++ cs) := by
      obtain ⟨cs, hcs⟩ := ih (bs ++ ds)
      exact ⟨ds ++ cs, by rw [hcs, List.append_assoc]⟩
    rw [encodeLoop]
    split
    · simp only [Output.put_written, List.append_assoc]
      split
      · exact happend _
      · split
        · exact happend _
        · split
          · exact ⟨[], by rw [List.append_nil]⟩
          · exact happend _
    · exact ⟨[], by rw [List.append_nil]⟩

theorem loop_of_room (hmax : max.toNat ≤ 2 ^ 31) (hnul : 0 ∉ src) (hroom : bs.length + 3 * src.length < max.toNat) :
    encodeLoop max plus only src (.written bs) = .written (bs ++ src.flatMap (code plus only)) := by
  induction src generalizing bs with
  | nil => rw [encodeLoop, List.flatMap_nil, List.append_nil]
  | cons ch src ih =>
    rw [List.length_cons] at hroom
    have hlength := @length_code plus only ch
    have hch : ch ≠ 0 := fun h => hnul (h ▸ List.mem_cons_self)
    rw [loop_cons (by omega) hch (by omega), if_neg (by omega),
      ih (fun h => hnul (List.mem_cons_of_mem _ h)) (by rw [List.length_append]; omega), List.flatMap_cons,
      List.append_assoc]

/-! ## Overruns -/

/-- The positions that a buffer and `int` have. -/
def limit (max : BitVec 32) : ℕ := min max.toNat (2 ^ 31)

def Overruns (plus only : Bool) (max : BitVec 32) (pos : ℕ) (source : List Uint8) : Prop :=
  ∃ front ch, front ++ [ch] <+: source.takeWhile (· ≠ 0) ∧
    pos + (front.flatMap (code plus only)).length < limit max ∧
    limit max ≤ pos + (front.flatMap (code plus only)).length + (code plus only ch).length ∧
    ((code plus only ch).length = 3 → pos + (front.flatMap (code plus only)).length + 3 < max.toNat)

theorem not_overruns_nil {pos : ℕ} : ¬Overruns plus only max pos [] := by
  rintro ⟨front, ch, hstart, -⟩
  have := hstart.length_le
  rw [List.length_append] at this
  exact absurd this (Nat.not_succ_le_zero _)

theorem overruns_cons (hch : ch ≠ 0) {pos : ℕ} : Overruns plus only max pos (ch :: src) ↔
    (pos < limit max ∧ limit max ≤ pos + (code plus only ch).length ∧
      ((code plus only ch).length = 3 → pos + 3 < max.toNat)) ∨
    Overruns plus only max (pos + (code plus only ch).length) src := by
  rw [Overruns, List.takeWhile_cons_of_pos (by simpa using hch)]
  constructor
  · rintro ⟨front, ch', hstart, hbefore, hreach, hescape⟩
    cases front with
    | nil =>
      obtain ⟨rfl, -⟩ := List.cons_prefix_cons.mp hstart
      exact Or.inl ⟨hbefore, hreach, hescape⟩
    | cons first front =>
      obtain ⟨rfl, htail⟩ := List.cons_prefix_cons.mp hstart
      rw [List.flatMap_cons, List.length_append, ← Nat.add_assoc] at hbefore hreach hescape
      exact Or.inr ⟨front, ch', htail, hbefore, hreach, hescape⟩
  · rintro (⟨hbefore, hreach, hescape⟩ | ⟨front, ch', hstart, hbefore, hreach, hescape⟩)
    · exact ⟨[], ch, List.cons_prefix_cons.mpr ⟨rfl, List.nil_prefix⟩, hbefore, hreach, hescape⟩
    · refine ⟨ch :: front, ch', List.cons_prefix_cons.mpr ⟨rfl, hstart⟩, ?_⟩
      rw [List.flatMap_cons, List.length_append, ← Nat.add_assoc]
      exact ⟨hbefore, hreach, hescape⟩

theorem loop_pos_lt_iff (hpos : bs.length < limit max) :
    (encodeLoop max plus only src (.written bs)).pos < limit max ↔
      ¬Overruns plus only max bs.length src := by
  have hlimit : limit max ≤ max.toNat ∧ limit max ≤ 2 ^ 31 := ⟨min_le_left _ _, min_le_right _ _⟩
  induction src generalizing bs with
  | nil =>
    rw [encodeLoop, Output.pos_written]
    exact iff_of_true hpos not_overruns_nil
  | cons ch src ih =>
    by_cases hch : ch = 0
    · have hstop : ¬Overruns plus only max bs.length (ch :: src) := by
        have : (ch :: src).takeWhile (· ≠ 0) = List.takeWhile (· ≠ 0) [] := by simp [hch]
        rw [Overruns, this]
        exact not_overruns_nil
      rw [encodeLoop, if_neg (fun h => h.2 hch), Output.pos_written]
      exact iff_of_true hpos hstop
    rw [loop_cons (by omega) hch (by omega), overruns_cons hch]
    split
    · rename_i hfull
      rw [Output.pos_written]
      refine iff_of_true hpos ?_
      rintro (⟨-, -, hescape⟩ | ⟨front, ch', -, hbefore, -⟩)
      · have := hescape hfull.1
        omega
      · omega
    · rename_i hwritten
      by_cases hbelow : (bs ++ code plus only ch).length < limit max
      · refine (ih hbelow).trans ?_
        rw [List.length_append] at hbelow ⊢
        exact not_congr ⟨Or.inr, fun h => h.resolve_left fun h => absurd h.2.1 (by omega)⟩
      · obtain ⟨cs, hcs⟩ := @loop_written plus only max src (bs ++ code plus only ch)
        rw [hcs, Output.pos_written]
        rw [List.length_append] at hbelow ⊢
        rw [List.length_append]
        refine iff_of_false (by omega) (not_not.mpr (Or.inl ⟨hpos, by omega, by omega⟩))

end Loop

/-! ## Buffers -/

def Bounded (max : BitVec 32) (r : ℤ × Output Uint8) : Prop := Contained max.toNat r.2 ∧ r.1 = r.2.pos

theorem toInt_eq_iff {n : ℕ} : toInt n = n ↔ n < 2 ^ 31 := by
  rw [toInt, BitVec.toInt_ofNat', Int.bmod_def]
  omega

theorem bounded_iff (max : BitVec 32) (source : List Uint8) (plus only : Bool) :
    Bounded max (internalUrlEncode source max plus only) ↔ ¬Overruns plus only max 0 source := by
  rw [internalUrlEncode]
  split
  · rename_i hzero
    subst hzero
    refine iff_of_true ⟨contained_zero, rfl⟩ ?_
    rintro ⟨front, ch, -, hbefore, -⟩
    exact Nat.not_lt_zero _ hbefore
  · rename_i hmax
    have hpos : 0 < limit max := by
      have : max.toNat ≠ 0 := fun h => hmax (BitVec.eq_of_toNat_eq h)
      exact lt_min (Nat.pos_of_ne_zero this) (by decide)
    refine Iff.trans ?_ (@loop_pos_lt_iff plus only max [] source hpos)
    obtain ⟨cs, hcs⟩ := @loop_written plus only max source []
    rw [List.nil_append] at hcs
    change Contained max.toNat ((encodeLoop max plus only source (.written [])).terminate 0) ∧
      toInt (encodeLoop max plus only source (.written [])).pos =
        (encodeLoop max plus only source (.written [])).pos ↔ _
    rw [hcs, contained_written_iff, Output.pos_written, toInt_eq_iff]
    exact lt_min_iff.symm

/-! ## Strings -/

section Strings

variable {m m' : ℕ → Uint8} {size : ℕ}

theorem returned_terminate {o : Output Uint8} {s : List Uint8} (h : returned size (o.terminate 0) m = some s) :
    s.length < size ∧ 0 ∉ s := by
  rw [returned] at h
  split at h
  · rename_i hinside
    cases h
    refine ⟨?_, fun hmem => absurd (List.mem_takeWhile_imp hmem) (by decide)⟩
    have hpos : o.pos < size := hinside (o.pos, 0) (List.mem_append_right _ List.mem_cons_self)
    refine (List.takeWhile_prefix _).length_le.trans_lt ?_
    rw [Output.text, block, List.length_map, List.length_range]
    exact hpos
  · cases h

theorem returned_written {bs : List Uint8} (hroom : bs.length < size) (hnul : 0 ∉ bs) :
    returned size ((Output.written bs).terminate 0) m = some bs := by
  rw [returned, if_pos (Output.inside_iff.mpr hroom), Output.text_terminate]
  refine congrArg some (List.takeWhile_eq_self_iff.mpr fun ch hch => ?_)
  exact decide_eq_true fun h => hnul (h ▸ hch)

theorem toNat_ofInt {n : ℤ} (hpos : 0 < n) (hlt : n < 2 ^ 31) : ((BitVec.ofInt 32 n).toNat : ℤ) = n := by
  lift n to ℕ using hpos.le
  rw [BitVec.ofInt_natCast, BitVec.toNat_ofNat]
  omega

theorem neededLength_spec {length : ℕ} {needed : BitVec 32} (h : neededLength length = some needed) :
    0 < needed.toNat ∧ needed.toNat < 2 ^ 31 ∧ (needed.toNat : ℤ) = toInt length * 3 + 1 := by
  unfold neededLength at h
  dsimp only at h
  split at h
  · rename_i hrange
    have hvalue := toNat_ofInt hrange.1 hrange.2
    rw [Option.some.inj h] at hvalue
    omega
  · cases h

theorem neededLength_of_lt {length : ℕ} (h : 3 * length + 1 < 2 ^ 31) :
    ∃ needed, neededLength length = some needed ∧ needed.toNat = 3 * length + 1 := by
  have hint : toInt length = length := toInt_eq_iff.mpr (by omega)
  have hrange : 0 < toInt length * 3 + 1 ∧ toInt length * 3 + 1 < 2 ^ 31 := by omega
  have hvalue := toNat_ofInt hrange.1 hrange.2
  exact ⟨BitVec.ofInt 32 (toInt length * 3 + 1), if_pos hrange, by omega⟩

set_option maxRecDepth 4000 in
theorem hexPairValue_upperDigit (ch : Uint8) :
    hexPairValue (upperDigit (ch >>> 4 &&& 0x0F)) (upperDigit (ch &&& 0x0F)) = some ch.toNat ∧
      upperDigit (ch >>> 4 &&& 0x0F) ≠ 0 ∧ upperDigit (ch &&& 0x0F) ≠ 0 := by
  have hall : ∀ n : Fin 256, hexPairValue (upperDigit (BitVec.ofFin n >>> 4 &&& 0x0F))
      (upperDigit (BitVec.ofFin n &&& 0x0F)) = some n ∧
      upperDigit (BitVec.ofFin n >>> 4 &&& 0x0F) ≠ 0 ∧ upperDigit (BitVec.ofFin n &&& 0x0F) ≠ 0 := by decide
  exact hall ch.toFin

theorem zero_not_mem_code {ch : Uint8} (h : ch ≠ 0) : 0 ∉ code true false ch := by
  obtain ⟨-, hhigh, hlow⟩ := hexPairValue_upperDigit ch
  rw [code]
  split
  · decide
  · split
    · exact fun hmem => h (List.mem_singleton.mp hmem).symm
    · simpa using ⟨Ne.symm hhigh, Ne.symm hlow⟩

theorem decodeBody_code {ch : Uint8} (h : ch ≠ 0) (rest bs : List Uint8) :
    decodeBody true (code true false ch ++ rest) (.written bs) = some (rest, .written (bs ++ [ch])) := by
  obtain ⟨hvalue, hdigits⟩ := hexPairValue_upperDigit ch
  rw [code]
  split
  · rename_i hspace
    rw [hspace.1, ← Output.put_written]
    rfl
  · split
    · rename_i hvalid
      have hplus : ch ≠ 0x2B := by
        rintro rfl
        exact absurd hvalid (by decide)
      have hpercent : ch ≠ 0x25 := by
        rintro rfl
        exact absurd hvalid (by decide)
      rw [← Output.put_written]
      exact (if_neg h).trans ((if_neg hplus).trans (if_neg hpercent))
    · rw [List.cons_append, List.cons_append, List.cons_append, List.nil_append, decodeBody,
        if_neg (by decide), if_neg (by decide), if_pos rfl, if_pos hdigits, hvalue]
      dsimp only
      rw [BitVec.ofNat_toNat, BitVec.setWidth_eq, Output.put_written]

theorem decode_loop {cs : List Uint8} (hnul : 0 ∉ cs) {fuel : ℕ} (hfuel : cs.length ≤ fuel) (bs : List Uint8) :
    codeLoop (fun _ => true) (decodeBody true) fuel (cs.flatMap (code true false)) (.written bs) =
      .written (bs ++ cs) := by
  induction cs generalizing fuel bs with
  | nil =>
    rw [List.flatMap_nil, List.append_nil]
    cases fuel with
    | zero => rfl
    | succ fuel => exact if_neg fun h => h.1 rfl
  | cons ch cs ih =>
    obtain ⟨hch, hcs⟩ := not_or.mp (mt List.mem_cons.mpr hnul)
    obtain ⟨fuel, rfl⟩ := Nat.exists_eq_add_of_lt (Nat.lt_of_lt_of_le (Nat.succ_pos _) hfuel)
    rw [List.length_cons] at hfuel
    have hne : (ch :: cs).flatMap (code true false) ≠ [] := by
      have := @length_code true false ch
      refine List.ne_nil_of_length_pos ?_
      rw [List.flatMap_cons, List.length_append]
      omega
    rw [Nat.zero_add, codeLoop, if_pos ⟨hne, rfl⟩, List.flatMap_cons, decodeBody_code (Ne.symm hch)]
    dsimp only
    rw [ih hcs (by omega), List.append_assoc]
    rfl

/-- **A string is decoded to itself** exactly if it has no NUL and its encoding has a size. -/
theorem string_roundTrip_iff (s : List Uint8) : (urlEncodeString s m).bind (urlDecodeString · m') = some s ↔
    0 ∉ s ∧ 3 * s.length + 1 < 2 ^ 31 := by
  constructor
  · intro h
    obtain ⟨encoded, hencoded, hdecoded⟩ := Option.bind_eq_some_iff.mp h
    obtain ⟨needed, hneeded, hcode⟩ := Option.bind_eq_some_iff.mp hencoded
    obtain ⟨hlength, hnul⟩ := returned_terminate hdecoded
    obtain ⟨hpos, hmax, hvalue⟩ := neededLength_spec hneeded
    have hfit : encoded.length < needed.toNat := by
      rw [internalUrlEncode] at hcode
      split at hcode
      · rename_i hzero
        rw [hzero] at hpos
        exact absurd hpos (Nat.lt_irrefl 0)
      · exact (returned_terminate hcode).1
    have hint : toInt s.length = s.length := toInt_eq_iff.mpr (by omega)
    exact ⟨hnul, by omega⟩
  · rintro ⟨hnul, hlength⟩
    obtain ⟨needed, hneeded, hvalue⟩ := neededLength_of_lt hlength
    obtain ⟨hmin, hmax⟩ := @length_codes true false s
    have hfree : 0 ∉ s.flatMap (code true false) := fun h => by
      obtain ⟨ch, hch, hmem⟩ := List.mem_flatMap.mp h
      exact zero_not_mem_code (fun h => hnul (h ▸ hch)) hmem
    have hencode : urlEncodeString s m = some (s.flatMap (code true false)) := by
      have hpositive : needed ≠ 0 := by
        rintro rfl
        exact absurd hvalue (by simp)
      have hloop := @loop_of_room true false needed [] s (by omega) hnul (by
        rw [List.length_nil]
        omega)
      rw [urlEncodeString, internalUrlEncodeString, hneeded, Option.bind_eq_bind, Option.bind_some,
        internalUrlEncode, if_neg hpositive]
      change returned needed.toNat ((encodeLoop needed true false s (.written [])).terminate 0) m = _
      rw [hloop, List.nil_append]
      exact returned_written (by omega) hfree
    rw [hencode, Option.bind_some, urlDecodeString, internalUrlDecodeString]
    have hloop := @decode_loop s hnul _ hmin []
    change returned ((s.flatMap (code true false)).length + 1) ((codeLoop (fun _ => true) (decodeBody true)
      (s.flatMap (code true false)).length (s.flatMap (code true false)) (.written [])).terminate 0) m' = _
    rw [hloop, List.nil_append]
    exact returned_written (Nat.lt_succ_of_le hmin) hnul

end Strings

/-! ## Encoders -/

/-- **The encoders** stay inside the buffer just if no code overruns, and a string is decoded from
its code just if it has no NUL and a length that is an `int`. -/
theorem urlEncode_iff (max : BitVec 32) (source : List Uint8) (m m' : ℕ → Uint8) :
    (Bounded max (urlEncode source max) ↔ ¬Overruns true false max 0 source) ∧
      (Bounded max (urlEncodeWithoutEncodingSpaceAsPlus source max) ↔
        ¬Overruns false false max 0 source) ∧
      (Bounded max (urlEncodeOnlyUnsafeChars source max) ↔ ¬Overruns false true max 0 source) ∧
      ((urlEncodeString source m).bind (urlDecodeString · m') = some source ↔
        0 ∉ source ∧ 3 * source.length + 1 < 2 ^ 31) :=
  ⟨bounded_iff max source true false, bounded_iff max source false false, bounded_iff max source false true,
    string_roundTrip_iff source⟩

/-- A letter in a buffer for one character: the terminator is written behind it. -/
theorem urlEncode_overrun : (urlEncode (text "a") 1).2.stores = [(0, 0x61), (1, 0)] ∧
    ¬Bounded 1 (urlEncode (text "a") 1) := by
  have hstores : (urlEncode (text "a") 1).2.stores = [(0, 0x61), (1, 0)] := by decide
  refine ⟨hstores, fun h => ?_⟩
  have hlast := h.1.inside (1, 0) (hstores ▸ by decide)
  exact absurd hlast (by decide)

example : (urlEncode (text "a b&c") 16).1 = 7 ∧ (urlEncode (text "a b&c") 16).2.text 0 = text "a+b%26c" := by
  decide

end Libjingle.UrlEncode
