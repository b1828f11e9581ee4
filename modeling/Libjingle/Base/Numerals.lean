import Mathlib.Data.Nat.Digits.Lemmas
import Libjingle.Http.Text

/-!
# Numbers as text

Main result: **`scanNumber_formatNumber`**.
-/

namespace Libjingle

open Http (isspace scanSign signedValue digitsValue)

def digitChar (d : ℕ) : Uint8 := BitVec.ofNat 8 (0x30 + d)

def digitOf (base : ℕ) (ch : Uint8) : Option ℕ :=
  if 0x30 ≤ ch.toNat ∧ ch.toNat < 0x30 + base then some (ch.toNat - 0x30) else none

/-- `printf` with `%u` or `%o`. -/
def formatNumber (base precision n : ℕ) : List Uint8 :=
  let digits := (Nat.digits base n).reverse.map digitChar
  List.replicate (precision - digits.length) (digitChar 0) ++ digits

def scanNumber (base : ℕ) (s : List Uint8) : Option (ℕ × List Uint8) :=
  let signed := scanSign (s.dropWhile isspace)
  let digits := signed.2.takeWhile fun ch => (digitOf base ch).isSome
  if digits = [] then none
  else some (signedValue signed.1 (digitsValue base (digits.filterMap (digitOf base))),
    signed.2.drop digits.length)

def scanLiteral (literal s : List Uint8) : Option (List Uint8) :=
  if literal <+: s then some (s.drop literal.length) else none

variable {base : ℕ}

theorem digitOf_digitChar (hbase : base ≤ 10) {d : ℕ} (h : d < base) : digitOf base (digitChar d) = some d := by
  have htoNat : (digitChar d).toNat = 0x30 + d := by
    rw [digitChar, BitVec.toNat_ofNat]
    omega
  rw [digitOf, htoNat, if_pos (by omega)]
  congr 1
  omega

theorem filterMap_digitOf (hbase : base ≤ 10) {ds : List ℕ} (h : ∀ d ∈ ds, d < base) :
    (ds.map digitChar).filterMap (digitOf base) = ds := by
  rw [List.filterMap_map]
  calc ds.filterMap (digitOf base ∘ digitChar) = ds.filterMap some :=
        List.filterMap_congr fun d hd => digitOf_digitChar hbase (h d hd)
    _ = ds := List.filterMap_some

theorem digitsValue_replicate_zero (n : ℕ) (ds : List ℕ) :
    digitsValue base (List.replicate n 0 ++ ds) = digitsValue base ds := by
  induction n with
  | zero => rfl
  | succ n ih =>
    rw [List.replicate_succ, List.cons_append, digitsValue, List.foldl_cons, Nat.zero_mul,
      Nat.zero_add]
    exact ih

theorem digitsValue_reverse (ds : List ℕ) : digitsValue base ds.reverse = Nat.ofDigits base ds := by
  rw [digitsValue, List.foldl_reverse, Nat.ofDigits_eq_foldr]
  congr 1
  funext d v
  simp [Nat.mul_comm, Nat.add_comm]

theorem formatNumber_eq (precision n : ℕ) (hone : 1 < base) :
    ∃ ds : List ℕ, formatNumber base precision n = ds.map digitChar ∧ (∀ d ∈ ds, d < base) ∧
      digitsValue base ds = n := by
  refine ⟨List.replicate (precision - (Nat.digits base n).length) 0 ++ (Nat.digits base n).reverse,
    ?_, ?_, ?_⟩
  · simp [formatNumber]
  · intro d hd
    rcases List.mem_append.mp hd with hzero | hdigit
    · rw [(List.mem_replicate.mp hzero).2]
      omega
    · exact Nat.digits_lt_base hone (List.mem_reverse.mp hdigit)
  · rw [digitsValue_replicate_zero, digitsValue_reverse, Nat.ofDigits_digits]

theorem formatNumber_ne_nil {precision n : ℕ} (h : 0 < precision) : formatNumber base precision n ≠ [] := by
  have hlen : 0 < (formatNumber base precision n).length := by
    rw [formatNumber, List.length_append, List.length_replicate]
    omega
  exact List.ne_nil_of_length_pos hlen

theorem isSome_digitOf (hone : 1 < base) (hbase : base ≤ 10) {precision n : ℕ} {ch : Uint8}
    (h : ch ∈ formatNumber base precision n) : (digitOf base ch).isSome := by
  obtain ⟨ds, hds, hlt, -⟩ := formatNumber_eq precision n hone
  rw [hds] at h
  obtain ⟨d, hd, rfl⟩ := List.mem_map.mp h
  rw [digitOf_digitChar hbase (hlt d hd)]
  rfl

theorem digitsValue_formatNumber (hone : 1 < base) (hbase : base ≤ 10) (precision n : ℕ) :
    digitsValue base ((formatNumber base precision n).filterMap (digitOf base)) = n := by
  obtain ⟨ds, hds, hlt, hvalue⟩ := formatNumber_eq precision n hone
  rw [hds, filterMap_digitOf hbase hlt, hvalue]

theorem length_formatNumber {precision n : ℕ} (hone : 1 < base) (h : n < base ^ precision) :
    (formatNumber base precision n).length = precision := by
  have hle : (Nat.digits base n).length ≤ precision := (Nat.digits_length_le_iff hone n).mpr h
  simp only [formatNumber, List.length_append, List.length_replicate, List.length_map,
    List.length_reverse]
  omega

/-- **A number that was written is read back**. -/
theorem scanNumber_formatNumber (hone : 1 < base) (hbase : base ≤ 10) {precision n : ℕ}
    (hprecision : 0 < precision) (hn : n < 2 ^ 64) {rest : List Uint8}
    (hrest : ∀ ch ∈ rest.head?, digitOf base ch = none) :
    scanNumber base (formatNumber base precision n ++ rest) = some (n, rest) := by
  have hne : formatNumber base precision n ≠ [] := formatNumber_ne_nil hprecision
  obtain ⟨ds, hds, hlt, hvalue⟩ := formatNumber_eq precision n hone
  rw [hds] at hne ⊢
  have hdigit : ∀ ch ∈ ds.map digitChar, (digitOf base ch).isSome = true := by
    intro ch hch
    obtain ⟨d, hd, rfl⟩ := List.mem_map.mp hch
    rw [digitOf_digitChar hbase (hlt d hd)]
    rfl
  have hfirst : ∃ ch l, ds.map digitChar = ch :: l ∧ isspace ch = false ∧ ch ≠ 0x2D ∧ ch ≠ 0x2B := by
    obtain ⟨ch, l, hcons⟩ := List.exists_cons_of_ne_nil hne
    refine ⟨ch, l, hcons, ?_⟩
    have hsome := hdigit ch (hcons ▸ List.mem_cons_self)
    unfold digitOf at hsome
    split at hsome
    · rename_i hrange
      refine ⟨?_, ?_, ?_⟩
      · simp only [isspace, Bool.or_eq_false_iff, Bool.and_eq_false_iff, decide_eq_false_iff_not,
          beq_eq_false_iff_ne, ne_eq, BitVec.le_def]
        refine ⟨?_, Or.inr ?_⟩
        · rintro rfl
          simp at hrange
        · simp
          omega
      · rintro rfl
        simp at hrange
      · rintro rfl
        simp at hrange
    · cases hsome
  obtain ⟨ch, l, hcons, hspace, hminus, hplus⟩ := hfirst
  have hsign : scanSign ((ds.map digitChar ++ rest).dropWhile isspace) =
      (false, ds.map digitChar ++ rest) := by
    rw [hcons, List.cons_append, List.dropWhile_cons_of_neg (by simp [hspace]), scanSign,
      if_neg hminus, if_neg hplus]
  have htake : (ds.map digitChar ++ rest).takeWhile (fun ch => (digitOf base ch).isSome) =
      ds.map digitChar := by
    rw [List.takeWhile_append_of_pos hdigit]
    cases rest with
    | nil => simp
    | cons ch rest =>
      have := hrest ch (by simp)
      simp [this]
  unfold scanNumber
  simp only [hsign, htake, if_neg hne]
  have hmax : ¬ Http.ulongMax < n := by
    unfold Http.ulongMax
    omega
  rw [filterMap_digitOf hbase hlt, hvalue, signedValue, if_neg hmax,
    List.drop_left' (by simp)]
  rfl

end Libjingle
