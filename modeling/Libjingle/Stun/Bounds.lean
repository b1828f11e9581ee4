import Libjingle.Lib.Reading
import Libjingle.Stun.Integrity

/-!
# The bytes that the integrity check reads (`p2p/base/stun.cc`)

The check of the size of a MESSAGE-INTEGRITY leaves out its header, `current_pos + attr_length > size`,
and the length field is read before anything is known about the size.

Main results: **`validateMessageIntegrity_eq`**, **`staysInside_iff`**,
**`integrity_reads_beyond`**.
-/

namespace Libjingle

open Lib

/-! ## The bytes that are read -/

/-- `GetBE16` as reads from memory. -/
def readBE16 (pos : ℕ) : Reading Uint8 Uint16 := do
  let bytes ← Reading.cells pos 2
  pure (BitVec.ofNat 16 (beValue bytes))

/-- The loop of `ValidateMessageIntegrity`, with the bytes it reads. -/
def walkToIntegrity (size : ℕ) : ℕ → ℕ → Reading Uint8 (Option ℕ)
  | 0, _ => pure none
  | fuel + 1, currentPos =>
    if currentPos < size then do
      let attrType ← readBE16 currentPos
      let attrLength ← readBE16 (currentPos + 2)
      if attrType = attrMessageIntegrity then
        if attrLength.toNat ≠ kStunMessageIntegritySize ∨ currentPos + attrLength.toNat > size then pure none
        else pure (some currentPos)
      else walkToIntegrity size fuel (currentPos + 2 + 2 + attrLength.toNat + paddingLength attrLength)
    else pure none

/-- The length field of the copy. -/
def adjustLength (size miPos : ℕ) (tempData : List Uint8) : List Uint8 :=
  if size > miPos + kStunAttributeHeaderSize + kStunMessageIntegritySize then
    let extraOffset := size - (miPos + kStunAttributeHeaderSize + kStunMessageIntegritySize)
    let newAdjustedLen := size - extraOffset - kStunHeaderSize
    tempData.take 2 ++ writeUInt16 (BitVec.ofNat 16 newAdjustedLen) ++ tempData.drop 4
  else tempData

/-- `ValidateMessageIntegrity`, with the bytes it reads. -/
def readMessageIntegrity (hmac : List Uint8 → List Uint8 → List Uint8) (size : ℕ)
    (password : List Uint8) : Reading Uint8 Bool :=
  if size % 4 ≠ 0 then pure false
  else do
    let msgLength ← readBE16 2
    if size ≠ msgLength.toNat + kStunHeaderSize then pure false
    else do
      let found ← walkToIntegrity size size kStunHeaderSize
      match found with
      | none => pure false
      | some miPos => do
        let tempData ← Reading.cells 0 miPos
        let digest := hmac password (adjustLength size miPos tempData)
        if digest.length ≠ kStunMessageIntegritySize then pure false
        else do
          let mac ← Reading.cells (miPos + kStunAttributeHeaderSize) kStunMessageIntegritySize
          pure (mac = digest)

variable (hmac : List Uint8 → List Uint8 → List Uint8) (data : ℕ → Uint8) (size : ℕ)
  (password : List Uint8)

theorem readBE16_eq (pos : ℕ) : readBE16 pos data = (getBE16 data pos, [pos, pos + 1]) := by
  have heq : readBE16 pos data =
      (BitVec.ofNat 16 (beValue (Reading.cells pos 2 data).1), (Reading.cells pos 2 data).2 ++ []) := rfl
  rw [heq, Reading.cells_eq]
  rfl

theorem readBE16_local (pos : ℕ) : (readBE16 pos).Local :=
  Reading.local_bind (Reading.local_cells pos 2) fun _ => Reading.local_pure _

def nextAttribute (pos : ℕ) : ℕ :=
  pos + 2 + 2 + (getBE16 data (pos + 2)).toNat + paddingLength (getBE16 data (pos + 2))

theorem walkToIntegrity_succ (fuel pos : ℕ) :
    walkToIntegrity size (fuel + 1) pos data =
      if pos < size then
        if getBE16 data pos = attrMessageIntegrity then
          (if (getBE16 data (pos + 2)).toNat ≠ kStunMessageIntegritySize ∨
              pos + (getBE16 data (pos + 2)).toNat > size then none else some pos,
            List.range' pos 4)
        else ((walkToIntegrity size fuel (nextAttribute data pos) data).1,
          List.range' pos 4 ++ (walkToIntegrity size fuel (nextAttribute data pos) data).2)
      else (none, []) := by
  rw [walkToIntegrity]
  split
  · rw [Reading.bind_of_eq (readBE16_eq data pos), Reading.bind_of_eq (readBE16_eq data (pos + 2))]
    split
    · split <;> rfl
    · rfl
  · rfl

theorem value_walkToIntegrity (fuel pos : ℕ) :
    (walkToIntegrity size fuel pos data).1 = findMessageIntegrity data size fuel pos := by
  induction fuel generalizing pos with
  | zero => rfl
  | succ fuel ih =>
    rw [walkToIntegrity_succ, findMessageIntegrity]
    split
    · dsimp only
      split
      · rfl
      · exact ih _
    · rfl

theorem walkToIntegrity_fuel {fuel fuel' pos : ℕ} (h : size ≤ pos + fuel) (h' : size ≤ pos + fuel') :
    walkToIntegrity size fuel pos data = walkToIntegrity size fuel' pos data := by
  induction fuel generalizing pos fuel' with
  | zero =>
    cases fuel' with
    | zero => rfl
    | succ fuel' =>
      rw [walkToIntegrity_succ, if_neg (by omega)]
      rfl
  | succ fuel ih =>
    cases fuel' with
    | zero =>
      rw [walkToIntegrity_succ, if_neg (by omega)]
      rfl
    | succ fuel' =>
      have hnext : pos + 4 ≤ nextAttribute data pos := by
        unfold nextAttribute
        omega
      rw [walkToIntegrity_succ, walkToIntegrity_succ, @ih fuel' _ (by omega) (by omega)]

theorem walkToIntegrity_local (fuel pos : ℕ) : (walkToIntegrity size fuel pos).Local := by
  induction fuel generalizing pos with
  | zero => exact Reading.local_pure _
  | succ fuel ih =>
    refine .ite ?_ (Reading.local_pure _)
    refine Reading.local_bind (readBE16_local _) fun _ => Reading.local_bind (readBE16_local _) fun _ => ?_
    exact .ite (.ite (Reading.local_pure _) (Reading.local_pure _)) (ih _)

theorem readMessageIntegrity_local : (readMessageIntegrity hmac size password).Local := by
  refine .ite (Reading.local_pure _) (Reading.local_bind (readBE16_local 2) fun _ => ?_)
  refine .ite (Reading.local_pure _) (Reading.local_bind (walkToIntegrity_local size _ _) fun found => ?_)
  cases found with
  | none => exact Reading.local_pure _
  | some miPos =>
    refine Reading.local_bind (Reading.local_cells _ _) fun _ => ?_
    exact .ite (Reading.local_pure _)
      (Reading.local_bind (Reading.local_cells _ _) fun _ => Reading.local_pure _)

def comparisonReads : Option ℕ → List ℕ
  | none => []
  | some miPos =>
    List.range' 0 miPos ++ List.range' (miPos + kStunAttributeHeaderSize) kStunMessageIntegritySize

theorem readMessageIntegrity_reads (hhmac : ∀ key input, (hmac key input).length = kStunMessageIntegritySize) :
    (readMessageIntegrity hmac size password data).2 =
      if size % 4 ≠ 0 then []
      else if size ≠ (getBE16 data 2).toNat + kStunHeaderSize then [2, 3]
      else [2, 3] ++ ((walkToIntegrity size size kStunHeaderSize data).2 ++
        comparisonReads (findMessageIntegrity data size size kStunHeaderSize)) := by
  unfold readMessageIntegrity
  split
  · rfl
  · rw [Reading.bind_of_eq (readBE16_eq data 2)]
    split
    · rfl
    · rw [Reading.reads_bind, value_walkToIntegrity]
      cases findMessageIntegrity data size size kStunHeaderSize with
      | none => rfl
      | some miPos =>
        simp only [Reading.reads_bind, Reading.reads_cells, hhmac, ne_eq, not_true, if_false,
          Reading.reads_pure, List.append_nil, comparisonReads]

/-- **The integrity check as a computation that reads memory**. -/
theorem validateMessageIntegrity_eq :
    validateMessageIntegrity hmac data size password = (readMessageIntegrity hmac size password data).1 := by
  unfold validateMessageIntegrity integrityPosition readMessageIntegrity
  by_cases hmod : size % 4 ≠ 0
  · rw [if_pos hmod, if_pos hmod]
    rfl
  · rw [if_neg hmod, if_neg hmod, Reading.bind_of_eq (readBE16_eq data 2)]
    by_cases hlength : size ≠ (getBE16 data 2).toNat + kStunHeaderSize
    · simp only [if_pos hlength]
      rfl
    · simp only [if_neg hlength]
      rw [Reading.value_bind, value_walkToIntegrity]
      cases findMessageIntegrity data size size kStunHeaderSize with
      | none => rfl
      | some miPos =>
        simp only [Reading.value_bind, Reading.value_cells]
        have hinput : adjustLength size miPos (block data 0 miPos) = integrityInput data size miPos := rfl
        rw [hinput]
        by_cases hdigest : (hmac password (integrityInput data size miPos)).length = kStunMessageIntegritySize
        · simp only [hdigest, ne_eq, not_true, if_false, decide_true, Bool.true_and, Reading.value_bind,
            Reading.value_cells, Reading.value_pure]
        · simp only [hdigest, ne_eq, not_false_eq_true, if_true, decide_false, Bool.false_and,
            Reading.value_pure]

/-! ## The headers that are visited -/

/-- The walk from the header at the first position comes to the one at the second. -/
inductive VisitsFrom (data : ℕ → Uint8) (size : ℕ) : ℕ → ℕ → Prop where
  | here {pos : ℕ} : pos < size → VisitsFrom data size pos pos
  | next {pos later : ℕ} : pos < size → getBE16 data pos ≠ attrMessageIntegrity →
      VisitsFrom data size (nextAttribute data pos) later → VisitsFrom data size pos later

theorem nextAttribute_mod {pos : ℕ} (h : pos % 4 = 0) : nextAttribute data pos % 4 = 0 := by
  have := paddingLength_mod (getBE16 data (pos + 2))
  unfold nextAttribute
  omega

variable {data size}

theorem VisitsFrom.aligned {pos later : ℕ} (h : VisitsFrom data size pos later) (hpos : pos % 4 = 0) :
    later % 4 = 0 ∧ pos ≤ later ∧ later < size := by
  induction h with
  | here hlt => exact ⟨hpos, Nat.le_refl _, hlt⟩
  | @next pos later hlt _ _ ih =>
    obtain ⟨hmod, hle, hlater⟩ := ih (nextAttribute_mod data hpos)
    unfold nextAttribute at hle
    exact ⟨hmod, by omega, hlater⟩

theorem findMessageIntegrity_eq_some {fuel pos miPos : ℕ} (hfuel : size ≤ pos + fuel) :
    findMessageIntegrity data size fuel pos = some miPos ↔
      VisitsFrom data size pos miPos ∧ getBE16 data miPos = attrMessageIntegrity ∧
        (getBE16 data (miPos + 2)).toNat = kStunMessageIntegritySize ∧
        miPos + kStunMessageIntegritySize ≤ size := by
  induction fuel generalizing pos with
  | zero =>
    constructor
    · intro h
      cases h
    · rintro ⟨hvisits, -⟩
      cases hvisits with
      | here hlt => omega
      | next hlt _ _ => omega
  | succ fuel ih =>
    have hnext : pos + 4 ≤ nextAttribute data pos := by
      unfold nextAttribute
      omega
    rw [findMessageIntegrity]
    dsimp only
    rw [← nextAttribute]
    by_cases hpos : pos < size
    · by_cases hmi : getBE16 data pos = attrMessageIntegrity
      · rw [if_pos hpos, if_pos hmi]
        have hhere : ∀ {later}, VisitsFrom data size pos later → later = pos := by
          intro later hvisits
          cases hvisits with
          | here => rfl
          | next _ hne _ => exact absurd hmi hne
        constructor
        · intro h
          split_ifs at h with hsize
          cases h
          rw [not_or, not_not, not_lt] at hsize
          refine ⟨.here hpos, hmi, hsize.1, ?_⟩
          rw [← hsize.1]
          exact hsize.2
        · rintro ⟨hvisits, -, hlength, hle⟩
          obtain rfl := hhere hvisits
          rw [if_neg]
          rw [not_or, not_not, not_lt, hlength]
          exact ⟨rfl, hle⟩
      · rw [if_pos hpos, if_neg hmi, ih (by omega)]
        constructor
        · rintro ⟨hvisits, hfound⟩
          exact ⟨.next hpos hmi hvisits, hfound⟩
        · rintro ⟨hvisits, hfound⟩
          cases hvisits with
          | here => exact absurd hfound.1 hmi
          | next _ _ hrest => exact ⟨hrest, hfound⟩
    · rw [if_neg hpos]
      constructor
      · intro h
        cases h
      · rintro ⟨hvisits, -⟩
        cases hvisits with
        | here hlt => exact absurd hlt hpos
        | next hlt _ _ => exact absurd hlt hpos

theorem walkToIntegrity_reads {fuel pos p : ℕ} (h : p ∈ (walkToIntegrity size fuel pos data).2) :
    ∃ later, VisitsFrom data size pos later ∧ later ≤ p ∧ p < later + 4 := by
  induction fuel generalizing pos with
  | zero => cases h
  | succ fuel ih =>
    rw [walkToIntegrity_succ] at h
    have hheader : p ∈ List.range' pos 4 → pos ≤ p ∧ p < pos + 4 := fun hp => by simpa using hp
    by_cases hpos : pos < size
    · rw [if_pos hpos] at h
      by_cases hmi : getBE16 data pos = attrMessageIntegrity
      · rw [if_pos hmi] at h
        exact ⟨pos, .here hpos, hheader h⟩
      · rw [if_neg hmi] at h
        rcases List.mem_append.mp h with h | h
        · exact ⟨pos, .here hpos, hheader h⟩
        · obtain ⟨later, hvisits, hp⟩ := ih h
          exact ⟨later, .next hpos hmi hvisits, hp⟩
    · rw [if_neg hpos] at h
      cases h

/-! ## Inside the packet -/

/-- **The check stays inside the packet**, and a whole MESSAGE-INTEGRITY is in what it accepts. -/
structure StaysInside (hmac : List Uint8 → List Uint8 → List Uint8) (data : ℕ → Uint8) (size : ℕ)
    (password : List Uint8) : Prop where
  ends : ∀ fuel ≥ size,
    walkToIntegrity size fuel kStunHeaderSize data = walkToIntegrity size size kStunHeaderSize data
  inside : ∀ p ∈ (readMessageIntegrity hmac size password data).2, p < size
  same : ∀ data', (∀ p < size, data' p = data p) →
    validateMessageIntegrity hmac data' size password = validateMessageIntegrity hmac data size password
  whole : validateMessageIntegrity hmac data size password = true →
    ∃ miPos, kStunHeaderSize ≤ miPos ∧
      miPos + kStunAttributeHeaderSize + kStunMessageIntegritySize ≤ size ∧
      getBE16 data miPos = attrMessageIntegrity ∧
      (getBE16 data (miPos + 2)).toNat = kStunMessageIntegritySize

/-- The packet ends four bytes too early. -/
def EndsEarly (data : ℕ → Uint8) (size : ℕ) : Prop :=
  size % 4 = 0 ∧ size = (getBE16 data 2).toNat + kStunHeaderSize ∧
    ∃ miPos, VisitsFrom data size kStunHeaderSize miPos ∧ getBE16 data miPos = attrMessageIntegrity ∧
      (getBE16 data (miPos + 2)).toNat = kStunMessageIntegritySize ∧
      miPos + kStunMessageIntegritySize = size

/-- **The check stays inside unless the packet is empty, or ends four bytes too early.** -/
theorem staysInside_iff (hmac : List Uint8 → List Uint8 → List Uint8) (data : ℕ → Uint8) (size : ℕ)
    (password : List Uint8)
    (hhmac : ∀ key input, (hmac key input).length = kStunMessageIntegritySize) :
    StaysInside hmac data size password ↔ size ≠ 0 ∧ ¬EndsEarly data size := by
  have h₂₀ : kStunHeaderSize = 20 := rfl
  have h₄ : kStunAttributeHeaderSize = 4 := rfl
  have hmiSize : kStunMessageIntegritySize = 20 := rfl
  constructor
  · intro h
    refine ⟨?_, ?_⟩
    · rintro rfl
      have hreads := readMessageIntegrity_reads hmac data 0 password hhmac
      rw [if_neg (by omega), if_pos (by omega)] at hreads
      have := h.inside 2 (by rw [hreads]; exact List.mem_cons_self)
      omega
    · rintro ⟨hmod, hlength, miPos, hvisits, hmi, hmiLength, hend⟩
      have hfind : findMessageIntegrity data size size kStunHeaderSize = some miPos :=
        (findMessageIntegrity_eq_some (by omega)).mpr ⟨hvisits, hmi, hmiLength, by omega⟩
      have hreads := readMessageIntegrity_reads hmac data size password hhmac
      rw [if_neg (by omega), if_neg (by omega), hfind, comparisonReads] at hreads
      have hlast : size ∈ List.range' (miPos + kStunAttributeHeaderSize) kStunMessageIntegritySize := by
        rw [List.mem_range'_1]
        omega
      have := h.inside size (by rw [hreads]; simp only [List.mem_append, hlast, or_true])
      omega
  · rintro ⟨hne, hend⟩
    -- what the walk finds is a whole attribute
    have hfound : size % 4 = 0 → size = (getBE16 data 2).toNat + kStunHeaderSize →
        ∀ miPos, findMessageIntegrity data size size kStunHeaderSize = some miPos →
        kStunHeaderSize ≤ miPos ∧ miPos + 24 ≤ size ∧ getBE16 data miPos = attrMessageIntegrity ∧
          (getBE16 data (miPos + 2)).toNat = kStunMessageIntegritySize := by
      intro hmod hlength miPos hfind
      obtain ⟨hvisits, hmi, hmiLength, hle⟩ := (findMessageIntegrity_eq_some (by omega)).mp hfind
      obtain ⟨haligned, hge, -⟩ := hvisits.aligned rfl
      have hmore : miPos + kStunMessageIntegritySize ≠ size := fun h =>
        hend ⟨hmod, hlength, miPos, hvisits, hmi, hmiLength, h⟩
      exact ⟨hge, by omega, hmi, hmiLength⟩
    have hinside : ∀ p ∈ (readMessageIntegrity hmac size password data).2, p < size := by
      intro p hp
      rw [readMessageIntegrity_reads hmac data size password hhmac] at hp
      have hfield : p ∈ [2, 3] → p ≤ 3 := by
        simp only [List.mem_cons, List.not_mem_nil, or_false]
        omega
      split_ifs at hp with hmod hlength
      · cases hp
      · have := hfield hp
        omega
      · rcases List.mem_append.mp hp with hp | hp
        · have := hfield hp
          omega
        · rcases List.mem_append.mp hp with hp | hp
          · -- a header starts at a multiple of four, and so the packet does not end inside
            obtain ⟨later, hvisits, -, hlt⟩ := walkToIntegrity_reads hp
            obtain ⟨haligned, -, hlater⟩ := hvisits.aligned rfl
            omega
          · cases hfind : findMessageIntegrity data size size kStunHeaderSize with
            | none =>
              rw [hfind] at hp
              cases hp
            | some miPos =>
              obtain ⟨-, hle, -⟩ := hfound (by omega) (by omega) miPos hfind
              rw [hfind, comparisonReads, List.mem_append, List.mem_range'_1, List.mem_range'_1] at hp
              omega
    refine ⟨fun fuel hfuel => walkToIntegrity_fuel data size (by omega) (by omega), hinside, ?_, ?_⟩
    · intro data' hdata
      rw [validateMessageIntegrity_eq, validateMessageIntegrity_eq,
        (readMessageIntegrity_local hmac size password).congr hinside hdata]
    · intro hvalid
      obtain ⟨hmod, miPos, hposition, hfind⟩ := integrityPosition_of_valid hvalid
      have hlength : size = (getBE16 data 2).toNat + kStunHeaderSize := by
        unfold integrityPosition at hposition
        split_ifs at hposition with hmod' hlength
        exact not_not.mp hlength
      obtain ⟨hge, hle, hmi, hmiLength⟩ := hfound hmod hlength miPos hfind
      exact ⟨miPos, hge, by omega, hmi, hmiLength⟩

/-- A packet with a whole MESSAGE-INTEGRITY. -/
theorem staysInside_whole :
    let d := bindingHeader 24 ++ zeroIntegrity
    StaysInside (fun _ _ => List.replicate 20 0) (packetData d) 44 [] := by
  intro d
  refine (staysInside_iff _ _ 44 [] fun _ _ => rfl).mpr ⟨by decide, ?_⟩
  rintro ⟨-, -, miPos, hvisits, -, -, hend⟩
  cases hvisits with
  | here => exact absurd hend (by decide)
  | next _ hne _ => exact hne (by decide)

/-- **A packet that ends after 16 bytes of its digest** passes. -/
theorem integrity_reads_beyond :
    let d := bindingHeader 20 ++ zeroIntegrity.take 20
    let hmac : List Uint8 → List Uint8 → List Uint8 := fun _ _ => List.replicate 20 0
    d.length = 40 ∧ validateMessageIntegrity hmac (packetData d) 40 [] = true ∧
      ¬StaysInside hmac (packetData d) 40 [] := by
  intro d hmac
  have hreads : 43 ∈ (readMessageIntegrity hmac 40 [] (packetData d)).2 := by decide
  refine ⟨by decide, by decide, fun h => ?_⟩
  exact absurd (h.inside 43 hreads) (by decide)

end Libjingle
