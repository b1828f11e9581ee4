import Libjingle.Base.Words

/-!
# The standard library: characters and numbers in text
-/

namespace Libjingle.Http

/-- `isspace` in the C locale. -/
def isspace (ch : Uint8) : Bool := ch == 0x20 || (0x09 ≤ ch && ch ≤ 0x0D)

/-- `tolower` in the C locale. -/
def tolower (ch : Uint8) : Uint8 := if 0x41 ≤ ch ∧ ch ≤ 0x5A then ch + 0x20 else ch

/-- `_strnicmp` of texts of the same length finds no difference. -/
def equalNoCase (a b : List Uint8) : Bool := a.map tolower == b.map tolower

def decDigit (ch : Uint8) : Option ℕ := if 0x30 ≤ ch ∧ ch ≤ 0x39 then some (ch.toNat - 0x30) else none

def hexDigit (ch : Uint8) : Option ℕ :=
  if 0x30 ≤ ch ∧ ch ≤ 0x39 then some (ch.toNat - 0x30)
  else if 0x61 ≤ ch ∧ ch ≤ 0x66 then some (ch.toNat - 0x61 + 10)
  else if 0x41 ≤ ch ∧ ch ≤ 0x46 then some (ch.toNat - 0x41 + 10)
  else none

def digitsValue (base : ℕ) (ds : List ℕ) : ℕ := ds.foldl (fun v d => v * base + d) 0

def scanSign : List Uint8 → Bool × List Uint8
  | [] => (false, [])
  | c :: s => if c = 0x2D then (true, s) else if c = 0x2B then (false, s) else (false, c :: s)

def skipPrefix : List Uint8 → List Uint8
  | z :: x :: d :: s =>
    if z = 0x30 ∧ (x = 0x78 ∨ x = 0x58) ∧ (hexDigit d).isSome then d :: s else z :: x :: d :: s
  | s => s

/-- The largest `unsigned long`. -/
def ulongMax : ℕ := 2 ^ 64 - 1

def signedValue (negative : Bool) (v : ℕ) : ℕ :=
  if ulongMax < v then ulongMax else if negative then (2 ^ 64 - v) % 2 ^ 64 else v

/-- `strtoul` to base 16: the number, and the text behind it. -/
def strtoul16 (s : List Uint8) : ℕ × List Uint8 :=
  let signed := scanSign (s.dropWhile isspace)
  let number := skipPrefix signed.2
  let digits := number.takeWhile fun ch => (hexDigit ch).isSome
  if digits = [] then (0, s)
  else (signedValue signed.1 (digitsValue 16 (digits.filterMap hexDigit)), number.drop digits.length)

/-- `sscanf` of one `%u`: the value, if there is one. -/
def scanUnsigned (s : List Uint8) : Option ℕ :=
  let signed := scanSign ((s.takeWhile (· ≠ 0)).dropWhile isspace)
  let digits := signed.2.takeWhile fun ch => (decDigit ch).isSome
  if digits = [] then none
  else some (signedValue signed.1 (digitsValue 10 (digits.filterMap decDigit)) % 2 ^ 32)

/-- `strchrn`: what is before and after the first `ch`. -/
def strchrn (ch : Uint8) : List Uint8 → Option (List Uint8 × List Uint8)
  | [] => none
  | c :: s =>
    if c = 0 then none
    else if c = ch then some ([], s)
    else (strchrn ch s).map fun r => (c :: r.1, r.2)

end Libjingle.Http
