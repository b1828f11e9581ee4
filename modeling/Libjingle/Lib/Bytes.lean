import Mathlib.Tactic.Common
import Mathlib.Tactic.Ring
import Mathlib.Data.List.Basic
import Mathlib.Data.BitVec

/-!
# Words in network byte order, and reading from the front of a byte string

Main results: **`takeBytes_eq_some`**, **`takeWord_eq_some`**.
-/

variable {x : List (BitVec 8)} {n : ℕ}

namespace Lib

/-! ## Numbers and bytes -/

def beBytes : ℕ → ℕ → List (BitVec 8)
  | 0, _ => []
  | n + 1, v => BitVec.ofNat 8 (v / 256 ^ n) :: beBytes n v

def beValue : List (BitVec 8) → ℕ
  | [] => 0
  | b :: l => b.toNat * 256 ^ l.length + beValue l

@[simp] theorem length_beBytes (n v : ℕ) : (beBytes n v).length = n := by
  induction n with
  | zero => rfl
  | succ n ih => rw [beBytes, List.length_cons, ih]

theorem beValue_lt (l : List (BitVec 8)) : beValue l < 256 ^ l.length := by
  induction l with
  | nil => exact Nat.one_pos
  | cons b l ih =>
    have hb : b.toNat ≤ 255 := by
      have := b.isLt
      omega
    calc beValue (b :: l) < b.toNat * 256 ^ l.length + 256 ^ l.length := Nat.add_lt_add_left ih _
      _ = (b.toNat + 1) * 256 ^ l.length := by rw [Nat.succ_mul]
      _ ≤ 256 * 256 ^ l.length := Nat.mul_le_mul_right _ (by omega)
      _ = 256 ^ (b :: l).length := by rw [List.length_cons, Nat.pow_succ, Nat.mul_comm]

theorem beValue_beBytes (n v : ℕ) : beValue (beBytes n v) = v % 256 ^ n := by
  induction n with
  | zero => rw [Nat.pow_zero, Nat.mod_one]; rfl
  | succ n ih =>
    have hdigit : (BitVec.ofNat 8 (v / 256 ^ n)).toNat = v / 256 ^ n % 256 := by simp
    rw [beBytes, beValue, ih, length_beBytes, hdigit, Nat.pow_succ, Nat.mod_mul, Nat.mul_comm,
      Nat.add_comm]

theorem beBytes_add (n k r : ℕ) (m : ℕ) (hm : n ≤ m) : beBytes n (k * 256 ^ m + r) = beBytes n r := by
  induction n with
  | zero => rfl
  | succ n ih =>
    rw [beBytes, beBytes, ih (by omega)]
    congr 1
    obtain ⟨j, rfl⟩ := Nat.exists_eq_add_of_le hm
    apply BitVec.eq_of_toNat_eq
    have hsplit : k * 256 ^ (n + 1 + j) + r = r + 256 ^ n * (256 * (k * 256 ^ j)) := by
      rw [show n + 1 + j = n + (1 + j) by omega, Nat.pow_add, Nat.pow_add, Nat.pow_one]
      ring
    rw [hsplit, Nat.add_mul_div_left _ _ (Nat.pow_pos (by decide))]
    simp

theorem beBytes_beValue (l : List (BitVec 8)) : beBytes l.length (beValue l) = l := by
  induction l with
  | nil => rfl
  | cons b l ih =>
    have hlt := beValue_lt l
    rw [List.length_cons, beBytes, beValue, beBytes_add _ _ _ _ (Nat.le_refl _), ih]
    congr 1
    rw [Nat.add_comm, Nat.add_mul_div_right _ _ (Nat.pow_pos (by decide)), Nat.div_eq_of_lt hlt,
      Nat.zero_add]
    simp

/-! ## Readers -/

def takeBytes (n : ℕ) (buf : List (BitVec 8)) : Option (List (BitVec 8) × List (BitVec 8)) :=
  if n > buf.length then none else some (buf.take n, buf.drop n)

/-- Bytes are taken exactly where there are enough of them. -/
theorem takeBytes_eq_some {buf rest : List (BitVec 8)} :
    takeBytes n buf = some (x, rest) ↔ buf = x ++ rest ∧ x.length = n := by
  unfold takeBytes
  constructor
  · intro h
    split_ifs at h with hn
    cases h
    exact ⟨(List.take_append_drop n buf).symm, by rw [List.length_take]; omega⟩
  · rintro ⟨rfl, rfl⟩
    rw [if_neg (by rw [List.length_append]; omega), List.take_left, List.drop_left]

@[simp] theorem takeBytes_append (h : x.length = n)
    (rest : List (BitVec 8)) : takeBytes n (x ++ rest) = some (x, rest) :=
  takeBytes_eq_some.mpr ⟨rfl, h⟩

def wordBytes (n : ℕ) (v : BitVec (8 * n)) : List (BitVec 8) := beBytes n v.toNat

@[simp] theorem length_wordBytes (n : ℕ) (v : BitVec (8 * n)) : (wordBytes n v).length = n :=
  length_beBytes n v.toNat

/-- A word of `n` bytes from the front. -/
def takeWord (n : ℕ) (buf : List (BitVec 8)) : Option (BitVec (8 * n) × List (BitVec 8)) :=
  (takeBytes n buf).map fun r => (BitVec.ofNat (8 * n) (beValue r.1), r.2)

theorem two_pow_eight_mul (n : ℕ) : 2 ^ (8 * n) = 256 ^ n := by rw [Nat.pow_mul]

theorem wordBytes_ofNat (h : x.length = n) : wordBytes n (BitVec.ofNat (8 * n) (beValue x)) = x := by
  subst h
  have hlt := beValue_lt x
  rw [← two_pow_eight_mul] at hlt
  rw [wordBytes, BitVec.toNat_ofNat, Nat.mod_eq_of_lt hlt, beBytes_beValue]

theorem ofNat_wordBytes (n : ℕ) (v : BitVec (8 * n)) : BitVec.ofNat (8 * n) (beValue (wordBytes n v)) = v := by
  have hlt := v.isLt
  rw [two_pow_eight_mul] at hlt
  rw [wordBytes, beValue_beBytes, Nat.mod_eq_of_lt hlt]
  exact BitVec.ofNat_toNat _ v |>.trans (BitVec.setWidth_eq v)

/-- **A word is read exactly where its bytes stand**. -/
theorem takeWord_eq_some {buf rest : List (BitVec 8)} {v : BitVec (8 * n)} :
    takeWord n buf = some (v, rest) ↔ buf = wordBytes n v ++ rest := by
  unfold takeWord
  constructor
  · intro h
    obtain ⟨⟨x, rest'⟩, hx, heq⟩ := Option.map_eq_some_iff.mp h
    obtain ⟨rfl, hlen⟩ := takeBytes_eq_some.mp hx
    obtain ⟨rfl, rfl⟩ := Prod.mk.inj heq
    rw [wordBytes_ofNat hlen]
  · rintro rfl
    rw [takeBytes_append (length_wordBytes n v), Option.map_some, ofNat_wordBytes]

@[simp] theorem takeWord_append (n : ℕ) (v : BitVec (8 * n)) (rest : List (BitVec 8)) :
    takeWord n (wordBytes n v ++ rest) = some (v, rest) :=
  takeWord_eq_some.mpr rfl

theorem wordBytes_append_inj {v v' : BitVec (8 * n)} {x' : List (BitVec 8)}
    (h : wordBytes n v ++ x = wordBytes n v' ++ x') : v = v' ∧ x = x' := by
  have heq : some (v, x) = some (v', x') := by rw [← takeWord_append, h, takeWord_append]
  exact Prod.mk.inj (Option.some.inj heq)

/-! ## Readers that look at what they take only -/

variable {α β : Type}

def Prefixed (f : List (BitVec 8) → Option (α × List (BitVec 8))) : Prop :=
  ∀ buf a rest, f buf = some (a, rest) ↔ ∃ x, buf = x ++ rest ∧ f x = some (a, [])

namespace Prefixed

variable {f : List (BitVec 8) → Option (α × List (BitVec 8))}
  {g : α × List (BitVec 8) → Option (β × List (BitVec 8))}

theorem append (h : Prefixed f) {a : α} (hx : f x = some (a, []))
    (rest : List (BitVec 8)) : f (x ++ rest) = some (a, rest) :=
  (h _ _ _).mpr ⟨x, rfl, hx⟩

theorem pure (a : α) : Prefixed fun buf => some (a, buf) := by
  intro buf b rest
  constructor
  · intro h
    cases h
    exact ⟨[], rfl, rfl⟩
  · rintro ⟨x, rfl, hx⟩
    cases hx
    rfl

theorem fail : Prefixed fun _ => (none : Option (α × List (BitVec 8))) := by
  intro buf b rest
  constructor
  · intro h
    cases h
  · rintro ⟨x, -, hx⟩
    cases hx

theorem bytes (n : ℕ) : Prefixed (takeBytes n) := by
  intro buf a rest
  rw [takeBytes_eq_some]
  constructor
  · rintro ⟨rfl, hlen⟩
    exact ⟨a, rfl, takeBytes_eq_some.mpr ⟨(List.append_nil a).symm, hlen⟩⟩
  · rintro ⟨x, rfl, hx⟩
    obtain ⟨rfl, hlen⟩ := takeBytes_eq_some.mp hx
    rw [List.append_nil]
    exact ⟨rfl, hlen⟩

theorem word (n : ℕ) : Prefixed (takeWord n) := by
  intro buf a rest
  rw [takeWord_eq_some]
  constructor
  · rintro rfl
    exact ⟨_, rfl, takeWord_eq_some.mpr (List.append_nil _).symm⟩
  · rintro ⟨x, rfl, hx⟩
    rw [takeWord_eq_some.mp hx, List.append_nil]

theorem bind (hf : Prefixed f) (hg : ∀ a, Prefixed fun buf => g (a, buf)) : Prefixed fun buf => (f buf).bind g := by
  intro buf b rest
  simp only [Option.bind_eq_some_iff]
  constructor
  · rintro ⟨⟨a, mid⟩, ha, hb⟩
    obtain ⟨x, rfl, hx⟩ := (hf _ _ _).mp ha
    obtain ⟨y, rfl, hy⟩ := (hg a _ _ _).mp hb
    refine ⟨x ++ y, (List.append_assoc _ _ _).symm, (a, y), hf.append hx y, hy⟩
  · rintro ⟨x, rfl, ⟨a, mid⟩, ha, hb⟩
    obtain ⟨y, rfl, hy⟩ := (hf _ _ _).mp ha
    refine ⟨(a, mid ++ rest), ?_, (hg a).append hb rest⟩
    rw [List.append_assoc]
    exact hf.append hy (mid ++ rest)

theorem ite {c : Prop} [Decidable c] {f f' : List (BitVec 8) → Option (α × List (BitVec 8))}
    (h : Prefixed f) (h' : Prefixed f') : Prefixed fun buf => if c then f buf else f' buf := by
  by_cases hc : c
  · simp only [if_pos hc]
    exact h
  · simp only [if_neg hc]
    exact h'

end Prefixed

end Lib
