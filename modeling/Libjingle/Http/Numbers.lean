import Libjingle.Http.Chunks

/-!
# The numbers of a message

Main results: **`strtoul16_accepts`**, **`scanUnsigned_accepts`**.
-/

variable {sign pre : List Uint8}

namespace Libjingle.Http

def Hexadecimal (s : List Uint8) : Prop := s ≠ [] ∧ ∀ ch ∈ s, (hexDigit ch).isSome = true

def Decimal (s : List Uint8) : Prop := s ≠ [] ∧ ∀ ch ∈ s, (decDigit ch).isSome = true

instance (s : List Uint8) : Decidable (Hexadecimal s) := inferInstanceAs (Decidable (_ ∧ _))

instance (s : List Uint8) : Decidable (Decimal s) := inferInstanceAs (Decidable (_ ∧ _))

def hexValue (s : List Uint8) : ℕ := digitsValue 16 (s.filterMap hexDigit)

def decValue (s : List Uint8) : ℕ := digitsValue 10 (s.filterMap decDigit)

/-- The size that a line announces by the grammar of chunks. -/
def exactSize (line : List Uint8) : Option ℕ :=
  if Hexadecimal line ∧ hexValue line < sizeUnknown.toNat then some (hexValue line) else none

/-- The length, if it is decimal and an `unsigned int`. -/
def exactLength (value : List Uint8) : Option ℕ :=
  if Decimal value ∧ decValue value < 2 ^ 32 then some (decValue value) else none

def LenientSize (line : List Uint8) : Prop :=
  ∃ space sign pre digits, line = space ++ (sign ++ (pre ++ digits)) ∧ (∀ ch ∈ space, isspace ch = true) ∧
    sign ∈ [[], text "+", text "-"] ∧ pre ∈ [[], text "0x", text "0X"] ∧ Hexadecimal digits ∧
    (space ++ (sign ++ pre) ≠ [] ∨ sizeUnknown.toNat ≤ hexValue digits)

def LenientLength (value : List Uint8) : Prop :=
  ∃ sign digits tail, value = sign ++ (digits ++ tail) ∧ sign ∈ [[], text "+", text "-"] ∧ Decimal digits ∧
    (∀ ch ∈ tail.head?, decDigit ch = none) ∧ (sign ++ tail ≠ [] ∨ 2 ^ 32 ≤ decValue digits)

/-! ## Characters -/

set_option maxRecDepth 4000 in
theorem hexDigit_plain {ch : Uint8} (h : (hexDigit ch).isSome = true) :
    isspace ch = false ∧ ch ∉ [0x2D, 0x2B, 0x78, 0x58] := by
  have hall : ∀ n : Fin 256, (hexDigit (BitVec.ofFin n)).isSome = true →
      isspace (BitVec.ofFin n) = false ∧ (BitVec.ofFin n : Uint8) ∉ [0x2D, 0x2B, 0x78, 0x58] := by decide
  exact hall ch.toFin h

set_option maxRecDepth 4000 in
theorem decDigit_plain {ch : Uint8} (h : (decDigit ch).isSome = true) :
    isspace ch = false ∧ ch ∉ [0x2D, 0x2B, 0x00] := by
  have hall : ∀ n : Fin 256, (decDigit (BitVec.ofFin n)).isSome = true →
      isspace (BitVec.ofFin n) = false ∧ (BitVec.ofFin n : Uint8) ∉ [0x2D, 0x2B, 0x00] := by decide
  exact hall ch.toFin h

theorem dropWhile_space {space s : List Uint8} (hspace : ∀ ch ∈ space, isspace ch = true)
    (h : ∀ ch ∈ s.head?, isspace ch = false) : (space ++ s).dropWhile isspace = s := by
  rw [List.dropWhile_append, List.dropWhile_eq_nil_iff.mpr hspace]
  simp only [List.isEmpty_nil, if_true]
  cases s with
  | nil => rfl
  | cons c s => exact List.dropWhile_cons_of_neg (by rw [h c rfl]; decide)

theorem scanSign_append {s : List Uint8} (hsign : sign ∈ [[], text "+", text "-"])
    (h : ∀ ch ∈ s.head?, ch ∉ [(0x2D : Uint8), 0x2B]) : (scanSign (sign ++ s)).2 = s := by
  simp only [List.mem_cons, List.not_mem_nil, or_false] at hsign
  rcases hsign with rfl | rfl | rfl
  · cases s with
    | nil => rfl
    | cons c s =>
      have hc := h c rfl
      simp only [List.mem_cons, List.not_mem_nil, or_false, not_or] at hc
      rw [List.nil_append, scanSign_of_ne hc.1 hc.2]
  · rfl
  · rfl

theorem scanSign_spec (s : List Uint8) : ∃ sign ∈ [[], text "+", text "-"], s = sign ++ (scanSign s).2 := by
  cases s with
  | nil => exact ⟨[], by decide, rfl⟩
  | cons c s =>
    rw [scanSign]
    split_ifs with hminus hplus
    · exact ⟨text "-", by decide, by rw [hminus]; rfl⟩
    · exact ⟨text "+", by decide, by rw [hplus]; rfl⟩
    · exact ⟨[], by decide, rfl⟩

theorem skipPrefix_spec (s : List Uint8) : ∃ pre ∈ [[], text "0x", text "0X"], s = pre ++ skipPrefix s := by
  unfold skipPrefix
  split
  · next z x d s =>
    split_ifs with h
    · obtain ⟨rfl, rfl | rfl, -⟩ := h
      · exact ⟨text "0x", by decide, rfl⟩
      · exact ⟨text "0X", by decide, rfl⟩
    · exact ⟨[], by decide, rfl⟩
  · exact ⟨[], by decide, rfl⟩

theorem skipPrefix_append {digits : List Uint8} (hpre : pre ∈ [[], text "0x", text "0X"])
    (h : Hexadecimal digits) : skipPrefix (pre ++ digits) = digits := by
  obtain ⟨hne, hall⟩ := h
  obtain ⟨d, ds, rfl⟩ := List.exists_cons_of_ne_nil hne
  have hd := hall d List.mem_cons_self
  simp only [List.mem_cons, List.not_mem_nil, or_false] at hpre
  rcases hpre with rfl | rfl | rfl
  · refine skipPrefix_of_ne fun b hb => ?_
    have hplain := (hexDigit_plain (hall b hb)).2
    simp only [List.mem_cons, List.not_mem_nil, or_false, not_or] at hplain
    exact hplain.2.2
  · exact if_pos ⟨rfl, .inl rfl, hd⟩
  · exact if_pos ⟨rfl, .inr rfl, hd⟩

theorem head?_append_of_ne {a b : List Uint8} {p : Uint8 → Prop} (ha : ∀ ch ∈ a, p ch) (hb : ∀ ch ∈ b.head?, p ch) :
    ∀ ch ∈ (a ++ b).head?, p ch := by
  cases a with
  | nil => exact hb
  | cons c a =>
    intro ch hch
    rw [List.cons_append, List.head?_cons, Option.mem_some_iff] at hch
    exact hch ▸ ha c List.mem_cons_self

theorem sign_plain (h : sign ∈ [[], text "+", text "-"]) :
    ∀ ch ∈ sign, isspace ch = false ∧ hexDigit ch = none ∧ decDigit ch = none ∧ ch ≠ 0 := by
  revert sign
  decide

theorem pre_plain (h : pre ∈ [[], text "0x", text "0X"]) :
    (∀ ch ∈ pre, isspace ch = false ∧ ch ∉ [(0x2D : Uint8), 0x2B]) ∧ (pre ≠ [] → ∃ ch ∈ pre, hexDigit ch = none) := by
  revert pre
  decide

/-! ## Sizes -/

section Sizes

variable {line : List Uint8}

theorem strtoul16_parts {space digits : List Uint8} (hspace : ∀ ch ∈ space, isspace ch = true)
    (hsign : sign ∈ [[], text "+", text "-"]) (hpre : pre ∈ [[], text "0x", text "0X"]) (hdigits : Hexadecimal digits) :
    strtoul16 (space ++ (sign ++ (pre ++ digits))) =
      (signedValue (scanSign (sign ++ (pre ++ digits))).1 (hexValue digits), []) := by
  obtain ⟨hprePlain, -⟩ := pre_plain hpre
  have hdigit (ch : Uint8) (hch : ch ∈ digits) := hexDigit_plain (hdigits.2 ch hch)
  have hhead {p : Uint8 → Prop} (h : ∀ ch ∈ digits, p ch) : ∀ ch ∈ digits.head?, p ch :=
    fun ch hch => h ch (List.mem_of_mem_head? hch)
  have hdrop : (space ++ (sign ++ (pre ++ digits))).dropWhile isspace = sign ++ (pre ++ digits) :=
    dropWhile_space hspace (head?_append_of_ne (fun ch hch => (sign_plain hsign ch hch).1)
      (head?_append_of_ne (fun ch hch => (hprePlain ch hch).1) (hhead fun ch hch => (hdigit ch hch).1)))
  have hscan : (scanSign (sign ++ (pre ++ digits))).2 = pre ++ digits :=
    scanSign_append hsign (head?_append_of_ne (fun ch hch => (hprePlain ch hch).2) (hhead fun ch hch => by
      have hplain := (hdigit ch hch).2
      simp only [List.mem_cons, List.not_mem_nil, or_false, not_or] at hplain ⊢
      exact ⟨hplain.1, hplain.2.1⟩))
  have htake : digits.takeWhile (fun ch => (hexDigit ch).isSome) = digits :=
    List.takeWhile_eq_self_iff.mpr hdigits.2
  unfold strtoul16
  simp only [hdrop, hscan, skipPrefix_append hpre hdigits, htake, if_neg hdigits.1, List.drop_length]
  rfl

theorem parts_of_strtoul16 (hne : line ≠ []) (h : (strtoul16 line).2 = []) :
    ∃ space sign pre digits, line = space ++ (sign ++ (pre ++ digits)) ∧ (∀ ch ∈ space, isspace ch = true) ∧
      sign ∈ [[], text "+", text "-"] ∧ pre ∈ [[], text "0x", text "0X"] ∧ Hexadecimal digits := by
  obtain ⟨sign, hsign, hscan⟩ := scanSign_spec (line.dropWhile isspace)
  obtain ⟨pre, hpre, hskip⟩ := skipPrefix_spec (scanSign (line.dropWhile isspace)).2
  set number := skipPrefix (scanSign (line.dropWhile isspace)).2 with hnumber
  have hdigits : number.takeWhile (fun ch => (hexDigit ch).isSome) ≠ [] := by
    intro hnil
    unfold strtoul16 at h
    simp only [← hnumber, hnil, if_true] at h
    exact hne h
  have hrest : number.drop (number.takeWhile fun ch => (hexDigit ch).isSome).length = [] := by
    unfold strtoul16 at h
    simp only [← hnumber, if_neg hdigits] at h
    exact h
  have hall : number.takeWhile (fun ch => (hexDigit ch).isSome) = number := by
    have hsplit := List.takeWhile_append_dropWhile (p := fun ch => (hexDigit ch).isSome) (l := number)
    have hlength := congrArg List.length hsplit
    rw [List.length_append] at hlength
    have hle := List.drop_eq_nil_iff.mp hrest
    exact List.Sublist.eq_of_length_le (List.takeWhile_sublist _) hle
  refine ⟨line.takeWhile isspace, sign, pre, number, ?_, fun ch => List.mem_takeWhile_imp, hsign, hpre, ?_, ?_⟩
  · rw [← hskip, ← hscan, List.takeWhile_append_dropWhile]
  · rwa [hall] at hdigits
  · exact List.takeWhile_eq_self_iff.mp hall

theorem exactSize_eq_some {n : ℕ} (h : exactSize line = some n) :
    Hexadecimal line ∧ n < sizeUnknown.toNat ∧ strtoul16 line = (n, []) := by
  rw [exactSize] at h
  split_ifs at h with hexact
  obtain ⟨hhex, hlt⟩ := hexact
  cases h
  have hparts := @strtoul16_parts [] [] [] line (fun ch hch => absurd hch List.not_mem_nil) (by decide) (by decide) hhex
  simp only [List.nil_append] at hparts
  refine ⟨hhex, hlt, ?_⟩
  rw [hparts]
  obtain ⟨c, s, rfl⟩ := List.exists_cons_of_ne_nil hhex.1
  have hc := (hexDigit_plain (hhex.2 c List.mem_cons_self)).2
  simp only [List.mem_cons, List.not_mem_nil, or_false, not_or] at hc
  have hmax : ulongMax = sizeUnknown.toNat := rfl
  rw [scanSign_of_ne hc.1 hc.2.1, signedValue, hmax, if_neg (not_lt.mpr hlt.le)]
  rfl

theorem LenientSize.not_exact (h : LenientSize line) : exactSize line = none := by
  obtain ⟨space, sign, pre, digits, rfl, hspace, hsign, hpre, hdigits, hlenient⟩ := h
  refine if_neg fun ⟨hhex, hlt⟩ => ?_
  have hplain (a : List Uint8) (hsub : a ⊆ space ++ (sign ++ (pre ++ digits)))
      (hother : a ≠ [] → ∃ ch ∈ a, hexDigit ch = none) : a = [] := by
    by_contra hne
    obtain ⟨ch, hch, hnone⟩ := hother hne
    have hsome := hhex.2 ch (hsub hch)
    rw [hnone] at hsome
    cases hsome
  have hfirst {a : List Uint8} {p : Uint8 → Prop} (h : ∀ ch ∈ a, p ch) (hne : a ≠ []) : ∃ ch ∈ a, p ch := by
    obtain ⟨c, s, rfl⟩ := List.exists_cons_of_ne_nil hne
    exact ⟨c, List.mem_cons_self, h c List.mem_cons_self⟩
  have hspaceNil : space = [] := hplain space (List.subset_append_left _ _) (hfirst fun ch hch => by
    by_contra hsome
    have hnot := (hexDigit_plain (Option.isSome_iff_ne_none.mpr hsome)).1
    rw [hspace ch hch] at hnot
    cases hnot)
  have hsignNil : sign = [] := hplain sign (fun ch hch => List.mem_append_right _ (List.mem_append_left _ hch))
    (hfirst fun ch hch => (sign_plain hsign ch hch).2.1)
  have hpreNil : pre = [] := hplain pre
    (fun ch hch => List.mem_append_right _ (List.mem_append_right _ (List.mem_append_left _ hch))) (pre_plain hpre).2
  rw [hspaceNil, hsignNil, hpreNil] at hlenient hlt
  rcases hlenient with hne | hle
  · exact hne rfl
  · exact absurd hlt (not_lt.mpr hle)

/-- **Which chunk sizes `strtoul` accepts**: exact ones and lenient ones. -/
theorem strtoul16_accepts : (line ≠ [] ∧ (strtoul16 line).2 = []) ↔ (exactSize line).isSome = true ∨ LenientSize line := by
  constructor
  · rintro ⟨hne, h⟩
    obtain ⟨space, sign, pre, digits, rfl, hspace, hsign, hpre, hdigits⟩ := parts_of_strtoul16 hne h
    by_cases hlenient : space ++ (sign ++ pre) ≠ [] ∨ sizeUnknown.toNat ≤ hexValue digits
    · exact .inr ⟨space, sign, pre, digits, rfl, hspace, hsign, hpre, hdigits, hlenient⟩
    · obtain ⟨hnil, hlt⟩ := not_or.mp hlenient
      obtain ⟨rfl, hempty⟩ := List.append_eq_nil_iff.mp (not_not.mp hnil)
      obtain ⟨rfl, rfl⟩ := List.append_eq_nil_iff.mp hempty
      refine .inl ?_
      rw [List.nil_append, List.nil_append, List.nil_append, exactSize, if_pos ⟨hdigits, not_le.mp hlt⟩]
      rfl
  · rintro (h | ⟨space, sign, pre, digits, rfl, hspace, hsign, hpre, hdigits, -⟩)
    · obtain ⟨n, hn⟩ := Option.isSome_iff_exists.mp h
      obtain ⟨hhex, -, heq⟩ := exactSize_eq_some hn
      exact ⟨hhex.1, by rw [heq]⟩
    · refine ⟨fun hnil => hdigits.1 ?_, by rw [strtoul16_parts hspace hsign hpre hdigits]⟩
      exact (List.append_eq_nil_iff.mp (List.append_eq_nil_iff.mp (List.append_eq_nil_iff.mp hnil).2).2).2

end Sizes

/-! ## Lengths -/

section Lengths

variable {value : List Uint8}

theorem scanUnsigned_parts {digits tail : List Uint8} (hsign : sign ∈ [[], text "+", text "-"])
    (hdigits : Decimal digits) (htail : ∀ ch ∈ tail.head?, decDigit ch = none) :
    scanUnsigned (sign ++ (digits ++ tail)) =
      some (signedValue (scanSign (sign ++ (digits ++ tail.takeWhile (· ≠ 0)))).1 (decValue digits) % 2 ^ 32) := by
  have hdigit (ch : Uint8) (hch : ch ∈ digits) : isspace ch = false ∧ ch ≠ 0x2D ∧ ch ≠ 0x2B ∧ ch ≠ 0x00 := by
    obtain ⟨hspace, hplain⟩ := decDigit_plain (hdigits.2 ch hch)
    simp only [List.mem_cons, List.not_mem_nil, or_false, not_or] at hplain
    exact ⟨hspace, hplain⟩
  obtain ⟨d, ds, hcons⟩ := List.exists_cons_of_ne_nil hdigits.1
  have hd := hdigit d (hcons ▸ List.mem_cons_self)
  have hhead {p : Uint8 → Prop} (more : List Uint8) (h : p d) : ∀ ch ∈ (digits ++ more).head?, p ch := by
    intro ch hch
    rw [hcons, List.cons_append, List.head?_cons, Option.mem_some_iff] at hch
    exact hch ▸ h
  have hcut : (sign ++ (digits ++ tail)).takeWhile (· ≠ 0) = sign ++ (digits ++ tail.takeWhile (· ≠ 0)) := by
    rw [List.takeWhile_append_of_pos fun ch hch => decide_eq_true (sign_plain hsign ch hch).2.2.2,
      List.takeWhile_append_of_pos fun ch hch => decide_eq_true (hdigit ch hch).2.2.2]
  have hdrop : (sign ++ (digits ++ tail.takeWhile (· ≠ 0))).dropWhile isspace =
      sign ++ (digits ++ tail.takeWhile (· ≠ 0)) :=
    @dropWhile_space [] _ (fun ch hch => absurd hch List.not_mem_nil)
      (head?_append_of_ne (fun ch hch => (sign_plain hsign ch hch).1) (hhead _ hd.1))
  have hscan : (scanSign (sign ++ (digits ++ tail.takeWhile (· ≠ 0)))).2 = digits ++ tail.takeWhile (· ≠ 0) :=
    scanSign_append hsign (hhead _ (by
      simp only [List.mem_cons, List.not_mem_nil, or_false, not_or]
      exact ⟨hd.2.1, hd.2.2.1⟩))
  have htake : (digits ++ tail.takeWhile (· ≠ 0)).takeWhile (fun ch => (decDigit ch).isSome) = digits := by
    rw [List.takeWhile_append_of_pos hdigits.2]
    cases tail with
    | nil => exact List.append_nil _
    | cons t tail =>
      rw [List.takeWhile_cons]
      split_ifs
      · rw [List.takeWhile_cons_of_neg (by rw [htail t rfl]; decide), List.append_nil]
      · exact List.append_nil _
  unfold scanUnsigned
  simp only [hcut, hdrop, hscan, htake, if_neg hdigits.1]
  rfl

theorem parts_of_scanUnsigned (hspace : ∀ ch ∈ value.head?, isspace ch = false) (h : (scanUnsigned value).isSome = true) :
    ∃ sign digits tail, value = sign ++ (digits ++ tail) ∧ sign ∈ [[], text "+", text "-"] ∧ Decimal digits ∧
      ∀ ch ∈ tail.head?, decDigit ch = none := by
  set cut := value.takeWhile (· ≠ 0) with hcut
  have hdrop : cut.dropWhile isspace = cut := by
    refine @dropWhile_space [] cut (fun ch hch => absurd hch List.not_mem_nil) fun ch hch => hspace ch ?_
    obtain ⟨s, hs⟩ := List.head?_eq_some_iff.mp hch
    rw [← List.takeWhile_append_dropWhile (p := fun ch : Uint8 => decide (ch ≠ 0)) (l := value), ← hcut, hs]
    rfl
  obtain ⟨sign, hsign, hscan⟩ := scanSign_spec cut
  set number := (scanSign cut).2 with hnumber
  have hne : number.takeWhile (fun ch => (decDigit ch).isSome) ≠ [] := by
    intro hnil
    unfold scanUnsigned at h
    simp only [← hcut, hdrop, ← hnumber, hnil, if_true] at h
    cases h
  refine ⟨sign, number.takeWhile fun ch => (decDigit ch).isSome,
    number.dropWhile (fun ch => (decDigit ch).isSome) ++ value.dropWhile (· ≠ 0), ?_, hsign,
    ⟨hne, fun ch => List.mem_takeWhile_imp⟩, ?_⟩
  · rw [← List.append_assoc (number.takeWhile _), List.takeWhile_append_dropWhile, ← List.append_assoc, ← hscan, hcut,
      List.takeWhile_append_dropWhile]
  · intro ch hch
    have hstop {p : Uint8 → Bool} {l : List Uint8} {c : Uint8} {s : List Uint8} (hl : l.dropWhile p = c :: s) :
        p c = false := by
      have hnot := List.head_dropWhile_not (l := l) p (by rw [hl]; exact List.cons_ne_nil c s)
      simp only [hl, List.head_cons] at hnot
      exact hnot
    cases hrest : number.dropWhile fun ch => (decDigit ch).isSome with
    | cons c s =>
      rw [hrest, List.cons_append, List.head?_cons, Option.mem_some_iff] at hch
      exact hch ▸ Option.not_isSome_iff_eq_none.mp (by rw [hstop hrest]; decide)
    | nil =>
      rw [hrest, List.nil_append] at hch
      obtain ⟨s, hs⟩ := List.head?_eq_some_iff.mp hch
      have hzero := of_decide_eq_false (hstop hs)
      rw [not_not.mp hzero]
      decide

theorem exactLength_eq_some {n : ℕ} (h : exactLength value = some n) :
    Decimal value ∧ n < 2 ^ 32 ∧ scanUnsigned value = some n := by
  rw [exactLength] at h
  split_ifs at h with hexact
  obtain ⟨hdec, hlt⟩ := hexact
  cases h
  refine ⟨hdec, hlt, ?_⟩
  have hparts := @scanUnsigned_parts [] value [] (by decide) hdec fun ch hch => absurd hch nofun
  simp only [List.nil_append, List.append_nil, List.takeWhile_nil] at hparts
  obtain ⟨c, s, rfl⟩ := List.exists_cons_of_ne_nil hdec.1
  have hc := (decDigit_plain (hdec.2 c List.mem_cons_self)).2
  simp only [List.mem_cons, List.not_mem_nil, or_false, not_or] at hc
  have hmax : ¬ulongMax < decValue (c :: s) := by
    unfold ulongMax
    omega
  rw [hparts, scanSign_of_ne hc.1 hc.2.1, signedValue, if_neg hmax]
  simp only [Bool.false_eq_true, if_false, Nat.mod_eq_of_lt hlt]

theorem LenientLength.not_exact (h : LenientLength value) : exactLength value = none := by
  obtain ⟨sign, digits, tail, rfl, hsign, hdigits, htail, hlenient⟩ := h
  refine if_neg fun ⟨hdec, hlt⟩ => ?_
  have hsignNil : sign = [] := by
    by_contra hne
    obtain ⟨c, s, rfl⟩ := List.exists_cons_of_ne_nil hne
    have hsome := hdec.2 c List.mem_cons_self
    rw [(sign_plain hsign c List.mem_cons_self).2.2.1] at hsome
    cases hsome
  have htailNil : tail = [] := by
    cases tail with
    | nil => rfl
    | cons c s =>
      have hsome := hdec.2 c (List.mem_append_right _ (List.mem_append_right _ List.mem_cons_self))
      rw [htail c rfl] at hsome
      cases hsome
  rw [hsignNil, htailNil, List.nil_append, List.append_nil] at hlt
  rcases hlenient with hne | hle
  · exact hne (by rw [hsignNil, htailNil]; rfl)
  · exact absurd hlt (not_lt.mpr hle)

/-- **Which lengths `sscanf` accepts**. -/
theorem scanUnsigned_accepts (hspace : ∀ ch ∈ value.head?, isspace ch = false) :
    (scanUnsigned value).isSome = true ↔ (exactLength value).isSome = true ∨ LenientLength value := by
  constructor
  · intro h
    obtain ⟨sign, digits, tail, rfl, hsign, hdigits, htail⟩ := parts_of_scanUnsigned hspace h
    by_cases hlenient : sign ++ tail ≠ [] ∨ 2 ^ 32 ≤ decValue digits
    · exact .inr ⟨sign, digits, tail, rfl, hsign, hdigits, htail, hlenient⟩
    · obtain ⟨hnil, hlt⟩ := not_or.mp hlenient
      obtain ⟨rfl, rfl⟩ := List.append_eq_nil_iff.mp (not_not.mp hnil)
      refine .inl ?_
      rw [List.nil_append, List.append_nil, exactLength, if_pos ⟨hdigits, not_le.mp hlt⟩]
      rfl
  · rintro (h | ⟨sign, digits, tail, rfl, hsign, hdigits, htail, -⟩)
    · obtain ⟨n, hn⟩ := Option.isSome_iff_exists.mp h
      rw [(exactLength_eq_some hn).2.2]
      rfl
    · rw [scanUnsigned_parts hsign hdigits htail]
      rfl

end Lengths

end Libjingle.Http
