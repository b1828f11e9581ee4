import Libjingle.Lib.Ring

/-!
# Text written into a bounded buffer, piece by piece

Main results: **`text_terminate`**, **`inside_iff`**, **`packed_eq_take`**, **`length_packed_lt`**,
**`packed_of_lt`**, **`length_packed_lt_iff`**, **`pieces_flatMap`**, **`codeLoop_eq`**.
-/

namespace Lib

variable {α β γ : Type}

/-! ## Buffers -/

/-- The position in a buffer, and the stores made, in their order. -/
structure Output (β : Type) where
  pos : ℕ := 0
  stores : List (ℕ × β) := []
  deriving DecidableEq, Repr

namespace Output

/-- `buffer[pos++] = b`. -/
def put (o : Output β) (b : β) : Output β := ⟨o.pos + 1, o.stores ++ [(o.pos, b)]⟩

/-- Several cells are written. -/
def puts (o : Output β) (bs : List β) : Output β := bs.foldl put o

/-- `buffer[pos] = b`. -/
def terminate (o : Output β) (b : β) : Output β := { o with stores := o.stores ++ [(o.pos, b)] }

def memory (o : Output β) (m : ℕ → β) : ℕ → β :=
  o.stores.foldl (fun m s => Function.update m s.1 s.2) m

/-- The cells in front of the position. -/
def text (o : Output β) (m : ℕ → β) : List β := block (o.memory m) 0 o.pos

def written (bs : List β) : Output β := puts {} bs

@[simp] theorem written_nil : written ([] : List β) = {} := rfl

@[simp] theorem puts_written (bs cs : List β) : (written bs).puts cs = written (bs ++ cs) :=
  List.foldl_append.symm

@[simp] theorem put_written (bs : List β) (b : β) : (written bs).put b = written (bs ++ [b]) :=
  puts_written bs [b]

@[simp] theorem pos_written (bs : List β) : (written bs).pos = bs.length := by
  induction bs using List.reverseRecOn with
  | nil => rfl
  | append_singleton bs b ih => rw [← put_written, put, ih, List.length_append, List.length_singleton]

theorem lt_of_mem_stores {bs : List β} {s : ℕ × β} (h : s ∈ (written bs).stores) : s.1 < bs.length := by
  induction bs using List.reverseRecOn with
  | nil => cases h
  | append_singleton bs b ih =>
    rw [← put_written, put, List.mem_append, List.mem_singleton, pos_written] at h
    rw [List.length_append, List.length_singleton]
    obtain h | rfl := h
    · exact (ih h).trans (Nat.lt_succ_self _)
    · exact Nat.lt_succ_self _

theorem memory_put (o : Output β) (b : β) (m : ℕ → β) :
    (o.put b).memory m = Function.update (o.memory m) o.pos b := by
  rw [memory, put, List.foldl_append]
  rfl

theorem memory_terminate (o : Output β) (b : β) (m : ℕ → β) :
    (o.terminate b).memory m = Function.update (o.memory m) o.pos b := by
  rw [memory, terminate, List.foldl_append]
  rfl

theorem block_update (m : ℕ → β) (n : ℕ) (b : β) : block (Function.update m n b) 0 n = block m 0 n := by
  refine List.map_congr_left fun i hi => Function.update_of_ne ?_ _ _
  have := List.mem_range.mp hi
  omega

theorem block_memory_written (bs : List β) (m : ℕ → β) : block ((written bs).memory m) 0 bs.length = bs := by
  induction bs using List.reverseRecOn with
  | nil => rfl
  | append_singleton bs b ih =>
    rw [← put_written, memory_put, pos_written, List.length_append, List.length_singleton, block_add,
      block_update, ih, Nat.zero_add]
    congr 1
    exact congrArg (fun b => [b]) (Function.update_self _ _ _)

@[simp] theorem text_terminate (bs : List β) (b : β) (m : ℕ → β) : ((written bs).terminate b).text m = bs := by
  rw [text, memory_terminate]
  change block (Function.update _ (written bs).pos b) 0 (written bs).pos = bs
  rw [block_update, pos_written, block_memory_written]

@[simp] theorem memory_terminate_pos (o : Output β) (b : β) (m : ℕ → β) :
    (o.terminate b).memory m (o.terminate b).pos = b := by
  rw [memory_terminate]
  exact Function.update_self _ _ _

theorem inside_iff {bs : List β} {b : β} {cap : ℕ} :
    (∀ s ∈ ((written bs).terminate b).stores, s.1 < cap) ↔ bs.length < cap := by
  rw [terminate, List.forall_mem_append, List.forall_mem_singleton, pos_written]
  exact ⟨And.right, fun h => ⟨fun s hs => (lt_of_mem_stores hs).trans h, h⟩⟩

end Output

/-! ## Pieces -/

/-- Some cells, and the room that there must be to write them. -/
structure Piece (β : Type) where
  cells : List β
  need : ℕ
  deriving DecidableEq, Repr

namespace Piece

def tight (cells : List β) : Piece β := ⟨cells, cells.length + 1⟩

end Piece

/-- What is written from `pos` on into `cap` cells. -/
def packed (cap : ℕ) : ℕ → List (Piece β) → List β
  | _, [] => []
  | pos, p :: ps => if pos + p.need ≤ cap then p.cells ++ packed cap (pos + p.cells.length) ps else []

section Packed

variable {cap : ℕ}

theorem packed_eq_take (ps : List (Piece β)) (pos : ℕ) :
    ∃ k, packed cap pos ps = (ps.take k).flatMap Piece.cells ∧
      ∀ p ∈ ps[k]?, cap < pos + ((ps.take k).flatMap Piece.cells).length + p.need := by
  induction ps generalizing pos with
  | nil => exact ⟨0, rfl, nofun⟩
  | cons p ps ih =>
    rw [packed]
    split
    · obtain ⟨k, heq, hnext⟩ := ih (pos + p.cells.length)
      refine ⟨k + 1, ?_, fun p' hp' => ?_⟩
      · rw [heq, List.take_succ_cons, List.flatMap_cons]
      · have := hnext p' hp'
        rw [List.take_succ_cons, List.flatMap_cons, List.length_append]
        omega
    · refine ⟨0, rfl, fun p' hp' => ?_⟩
      obtain rfl : p = p' := by simpa using hp'
      simpa using (by omega : cap < pos + p.need)

theorem length_packed_lt {ps : List (Piece β)} (h : ∀ p ∈ ps, p.cells.length < p.need) {pos : ℕ}
    (hpos : pos < cap) : pos + (packed cap pos ps).length < cap := by
  induction ps generalizing pos with
  | nil => exact hpos
  | cons p ps ih =>
    obtain ⟨hp, hps⟩ := List.forall_mem_cons.mp h
    rw [packed]
    split
    · have := ih hps (show pos + p.cells.length < cap by omega)
      rw [List.length_append]
      omega
    · exact hpos

theorem packed_of_lt {ps : List (Piece β)} (h : ∀ p ∈ ps, p.need ≤ p.cells.length + 1) {pos : ℕ}
    (hroom : pos + (ps.flatMap Piece.cells).length < cap) :
    packed cap pos ps = ps.flatMap Piece.cells := by
  induction ps generalizing pos with
  | nil => rfl
  | cons p ps ih =>
    obtain ⟨hp, hps⟩ := List.forall_mem_cons.mp h
    rw [List.flatMap_cons, List.length_append] at hroom
    rw [packed, if_pos (by omega), ih hps (by omega), List.flatMap_cons]

/-- **When a packing leaves room for a terminator**. -/
theorem length_packed_lt_iff {ps : List (Piece β)}
    (h : ∀ p ∈ ps, p.cells ≠ [] ∧ p.cells.length ≤ p.need ∧ p.need ≤ p.cells.length + 1) {pos : ℕ}
    (hpos : pos < cap) : pos + (packed cap pos ps).length < cap ↔
      ∀ front p rest, ps = front ++ p :: rest → p.need = p.cells.length →
        pos + (front.flatMap Piece.cells).length + p.cells.length ≠ cap := by
  induction ps generalizing pos with
  | nil => exact iff_of_true hpos fun front p rest hsplit => by simp at hsplit
  | cons p ps ih =>
    obtain ⟨⟨hne, hmin, hmax⟩, hps⟩ := List.forall_mem_cons.mp h
    have hcells : 0 < p.cells.length := List.length_pos_of_ne_nil hne
    rw [packed]
    split
    · rename_i hroom
      rw [List.length_append, ← Nat.add_assoc]
      by_cases hfull : pos + p.cells.length = cap
      · refine iff_of_false (by omega) fun hall => ?_
        exact hall [] p ps rfl (by omega) (by simpa using hfull)
      · rw [ih hps (by omega)]
        constructor
        · intro hall front p' rest hsplit hneed
          cases front with
          | nil =>
            obtain ⟨rfl, rfl⟩ := List.cons.inj hsplit
            simpa using hfull
          | cons first front =>
            obtain ⟨rfl, htail⟩ := List.cons.inj hsplit
            have := hall front p' rest htail hneed
            rw [List.flatMap_cons, List.length_append]
            omega
        · intro hall front p' rest hsplit hneed
          have := hall (p :: front) p' rest (congrArg (p :: ·) hsplit) hneed
          rw [List.flatMap_cons, List.length_append] at this
          omega
    · rename_i hroom
      refine iff_of_true hpos fun front p' rest hsplit hneed => ?_
      cases front with
      | nil =>
        obtain ⟨rfl, rfl⟩ := List.cons.inj hsplit
        simp only [List.flatMap_nil, List.length_nil]
        omega
      | cons first front =>
        obtain ⟨rfl, htail⟩ := List.cons.inj hsplit
        have hp' := (hps p' (htail ▸ List.mem_append_right _ List.mem_cons_self)).1
        have : 0 < p'.cells.length := List.length_pos_of_ne_nil hp'
        rw [List.flatMap_cons, List.length_append]
        omega

end Packed

/-! ## Coding -/

section Coding

variable (next : List α → Option (Piece β × List α))

/-- The pieces that `next` reads; as much fuel as cells is enough. -/
def pieces : ℕ → List α → List (Piece β)
  | 0, _ => []
  | fuel + 1, src =>
    match next src with
    | none => []
    | some (p, rest) => p :: pieces fuel rest

variable {next}

theorem forall_mem_pieces {P : Piece β → Prop} (h : ∀ src p, next src = some p → P p.1) (fuel : ℕ)
    (src : List α) : ∀ p ∈ pieces next fuel src, P p := by
  induction fuel generalizing src with
  | zero => nofun
  | succ fuel ih =>
    rw [pieces]
    split
    · nofun
    · rename_i p rest hnext
      exact List.forall_mem_cons.mpr ⟨h src _ hnext, ih rest⟩

theorem pieces_flatMap {f : γ → List α} {g : γ → Piece β} (hnil : next [] = none) {cs : List γ}
    (h : ∀ c ∈ cs, ∀ rest, next (f c ++ rest) = some (g c, rest)) {fuel : ℕ} (hfuel : cs.length ≤ fuel) :
    pieces next fuel (cs.flatMap f) = cs.map g := by
  induction cs generalizing fuel with
  | nil =>
    cases fuel with
    | zero => rfl
    | succ fuel =>
      rw [List.flatMap_nil, pieces, hnil]
      rfl
  | cons c cs ih =>
    obtain ⟨hc, hcs⟩ := List.forall_mem_cons.mp h
    obtain ⟨fuel, rfl⟩ := Nat.exists_eq_add_of_lt (Nat.lt_of_lt_of_le (Nat.succ_pos _) hfuel)
    rw [List.length_cons] at hfuel
    rw [Nat.zero_add, List.flatMap_cons, pieces, hc, List.map_cons]
    dsimp only
    rw [ih hcs (by omega)]

variable (guard : ℕ → Bool) (body : List α → Output β → Option (List α × Output β))

/-- `while (srcpos < srclen && guard) body`; `none` breaks. -/
def codeLoop : ℕ → List α → Output β → Output β
  | 0, _, o => o
  | fuel + 1, src, o =>
    if src ≠ [] ∧ guard o.pos then
      match body src o with
      | none => o
      | some (src, o) => codeLoop fuel src o
    else o

variable {guard body} {cap : ℕ}

/-- **The loop with its guard writes the packing of the pieces**. -/
theorem codeLoop_eq (hnil : next [] = none)
    (hguard : ∀ src p pos, next src = some p → guard pos = false → cap < pos + p.1.need)
    (hbody : ∀ src bs, src ≠ [] → guard bs.length = true → body src (.written bs) =
      (next src).bind fun p =>
        if bs.length + p.1.need ≤ cap then some (p.2, .written (bs ++ p.1.cells)) else none)
    (fuel : ℕ) (src : List α) (bs : List β) : codeLoop guard body fuel src (.written bs) =
      .written (bs ++ packed cap bs.length (pieces next fuel src)) := by
  induction fuel generalizing src bs with
  | zero => rw [codeLoop, pieces, packed, List.append_nil]
  | succ fuel ih =>
    rw [codeLoop, pieces, Output.pos_written]
    split
    · rename_i hgo
      rw [hbody src bs hgo.1 hgo.2]
      cases hnext : next src with
      | none => rw [Option.bind_none, packed, List.append_nil]
      | some p =>
        rw [Option.bind_some, packed]
        by_cases hroom : bs.length + p.1.need ≤ cap
        · rw [if_pos hroom, if_pos hroom]
          dsimp only
          rw [ih, List.length_append, List.append_assoc]
        · rw [if_neg hroom, if_neg hroom, List.append_nil]
    · rename_i hstop
      cases hnext : next src with
      | none => rw [packed, List.append_nil]
      | some p =>
        have hne : src ≠ [] := by
          rintro rfl
          rw [hnil] at hnext
          cases hnext
        have hfalse : guard bs.length = false := Bool.eq_false_iff.mpr fun h => hstop ⟨hne, h⟩
        have := hguard src p bs.length hnext hfalse
        rw [packed, if_neg (by omega), List.append_nil]

end Coding

end Lib
