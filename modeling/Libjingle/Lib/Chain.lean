import Mathlib.Data.List.Nodup
import Mathlib.Data.List.Basic
import Mathlib.Data.List.Perm.Subperm
import Mathlib.Logic.Function.Basic
import Mathlib.Tactic.Common

/-!
# Singly linked lists with a tail pointer

The nodes of a chain live at addresses. A slot is a place that holds a pointer: the pointer to the
first node, or the one in a node. What uses an address without a node is undefined.

Main results: **`Holds.append`**, **`Holds.unlink`**, **`Holds.setValue`**, **`Holds.clear`**,
**`Threaded.copy`**, **`Holds.insertAfter`**.
-/

namespace Lib

variable {α β : Type}

/-! ## Rows -/

/-- Nodes in order, and the next address that is given out. -/
structure Row (α : Type) where
  entries : List (ℕ × α) := []
  fresh : ℕ := 0
deriving DecidableEq, Repr

namespace Row

def tail (l : List (ℕ × α)) : Option ℕ := l.getLast?.map Prod.fst

@[simp] theorem tail_nil : tail ([] : List (ℕ × α)) = none := rfl

@[simp] theorem tail_concat (l : List (ℕ × α)) (e : ℕ × α) : tail (l ++ [e]) = some e.1 := by
  rw [tail, List.getLast?_concat]
  rfl

theorem tail_append_cons (l r : List (ℕ × α)) (e : ℕ × α) : tail (l ++ e :: r) = tail (e :: r) := by
  rw [tail, tail, List.getLast?_append_of_ne_nil _ (List.cons_ne_nil e r)]

theorem tail_append_of_ne_nil {r : List (ℕ × α)} (l : List (ℕ × α)) (hr : r ≠ []) : tail (l ++ r) = tail r := by
  obtain ⟨e, r, rfl⟩ := List.exists_cons_of_ne_nil hr
  exact tail_append_cons l r e

def behind (slot : Option ℕ) (l : List (ℕ × α)) : List (ℕ × α) :=
  match slot with
  | none => l
  | some a => (l.dropWhile fun e => e.1 ≠ a).tail

theorem behind_some (a : ℕ) (l : List (ℕ × α)) : behind (some a) l = (l.dropWhile fun e => e.1 ≠ a).tail := rfl

def upTo (slot : Option ℕ) (l : List (ℕ × α)) : List (ℕ × α) := l.take (l.length - (behind slot l).length)

variable (row : Row α)

/-- A value is added at the end. -/
def append (v : α) : Row α := { entries := row.entries ++ [(row.fresh, v)], fresh := row.fresh + 1 }

/-- A value is added behind a slot. -/
def insertAfter (slot : Option ℕ) (v : α) : Row α :=
  { entries := upTo slot row.entries ++ (row.fresh, v) :: behind slot row.entries, fresh := row.fresh + 1 }

def removeAfter (slot : Option ℕ) : Row α :=
  { row with entries := upTo slot row.entries ++ (behind slot row.entries).tail }

def update (p : α → Bool) (f : α → α) : Row α :=
  { row with entries :=
      row.entries.takeWhile (fun e => !p e.2) ++
        (row.entries.dropWhile fun e => !p e.2).modifyHead fun e => (e.1, f e.2) }

def remove (p : α → Bool) : Row α :=
  { row with entries := row.entries.takeWhile (fun e => !p e.2) ++ (row.entries.dropWhile fun e => !p e.2).tail }

/-- All nodes are removed. -/
def clear : Row α := { row with entries := [] }

def number (n : ℕ) : List α → List (ℕ × α)
  | [] => []
  | v :: vs => (n, v) :: number (n + 1) vs

/-- The same values in new nodes. -/
def copied : Row α := { entries := number 0 (row.entries.map Prod.snd), fresh := row.entries.length }

theorem behind_of_split {slot : Option ℕ} {l r : List (ℕ × α)} (hnodup : ((l ++ r).map Prod.fst).Nodup)
    (hslot : tail l = slot) : behind slot (l ++ r) = r := by
  subst hslot
  rcases List.eq_nil_or_concat l with rfl | ⟨l, e, rfl⟩
  · rfl
  · rw [List.concat_eq_append] at hnodup ⊢
    rw [List.append_assoc, List.singleton_append] at hnodup ⊢
    rw [tail_append_cons, tail, List.getLast?_singleton]
    show behind (some e.1) (l ++ e :: r) = r
    rw [behind_some, List.dropWhile_append_of_pos, List.dropWhile_cons_of_neg (by simp), List.tail_cons]
    intro x hx
    rw [decide_eq_true_eq]
    rw [List.map_append, List.map_cons] at hnodup
    exact fun heq => (List.nodup_append.mp hnodup).2.2 x.1 (List.mem_map_of_mem hx) e.1
      List.mem_cons_self heq

theorem upTo_of_split {slot : Option ℕ} {l r : List (ℕ × α)} (hnodup : ((l ++ r).map Prod.fst).Nodup)
    (hslot : tail l = slot) : upTo slot (l ++ r) = l := by
  rw [upTo, behind_of_split hnodup hslot, List.length_append, Nat.add_sub_cancel, List.take_left]

theorem exists_split {slot : Option ℕ} {l : List (ℕ × α)} (h : behind slot l ≠ []) :
    ∃ front, tail front = slot ∧ l = front ++ behind slot l := by
  cases slot with
  | none => exact ⟨[], rfl, rfl⟩
  | some a =>
    have hcut := List.takeWhile_append_dropWhile (p := fun e : ℕ × α => decide (e.1 ≠ a)) (l := l)
    rw [behind_some] at h ⊢
    cases hdrop : l.dropWhile (fun e : ℕ × α => decide (e.1 ≠ a)) with
    | nil =>
      rw [hdrop] at h
      exact absurd rfl h
    | cons e rest =>
      have he : e.1 = a := by
        have hhead := List.head_dropWhile_not (fun e : ℕ × α => decide (e.1 ≠ a)) (w := by
          rw [hdrop]
          exact List.cons_ne_nil e rest)
        simp only [hdrop, List.head_cons, decide_eq_false_iff_not, not_not] at hhead
        exact hhead
      refine ⟨l.takeWhile (fun e => decide (e.1 ≠ a)) ++ [e], by rw [tail_concat, he], ?_⟩
      rw [List.tail_cons, List.append_assoc, List.singleton_append, ← hdrop]
      exact hcut.symm

end Row

/-! ## Chains -/

/-- A value, and the pointer to the next node. -/
structure Node (α : Type) where
  value : α
  next : Option ℕ

/-- The nodes, the pointers to the first and the last one, and the next address. -/
structure Chain (α : Type) where
  nodes : ℕ → Option (Node α) := fun _ => none
  first : Option ℕ := none
  last : Option ℕ := none
  fresh : ℕ := 0

namespace Chain

variable (c : Chain α)

def alloc (v : α) : Chain α :=
  { c with nodes := Function.update c.nodes c.fresh (some { value := v, next := none }), fresh := c.fresh + 1 }

def after (slot : Option ℕ) : Option (Option ℕ) :=
  match slot with
  | none => some c.first
  | some p => (c.nodes p).map Node.next

def link (slot target : Option ℕ) : Option (Chain α) :=
  match slot with
  | none => some { c with first := target }
  | some p => (c.nodes p).map fun n =>
      { c with nodes := Function.update c.nodes p (some { n with next := target }) }

/-- The value of a node is changed. -/
def setValue (p : ℕ) (f : α → α) : Option (Chain α) :=
  (c.nodes p).map fun n =>
    { c with nodes := Function.update c.nodes p (some { n with value := f n.value }) }

/-- A node is deleted. -/
def free (p : ℕ) : Chain α := { c with nodes := Function.update c.nodes p none }

/-- A node is added behind the tail. -/
def append (v : α) : Option (Chain α) :=
  ((c.alloc v).link c.last (some c.fresh)).map fun c' => { c' with last := some c.fresh }

/-- A new node behind a slot; the tail pointer stays. -/
def insertAfter (slot : Option ℕ) (v : α) : Option (Chain α) := do
  let next ← (c.alloc v).after slot
  let c' ← (c.alloc v).link (some c.fresh) next
  c'.link slot (some c.fresh)

/-- The node `p` behind a slot is taken out and deleted. -/
def unlink (slot : Option ℕ) (p : ℕ) : Option (Chain α) := do
  let n ← c.nodes p
  let c' ← c.link slot n.next
  some (Chain.free { c' with last := if c'.last = some p then slot else c'.last } p)

def removeAfter (slot : Option ℕ) : Option (Chain α) := do
  let next ← c.after slot
  let p ← next
  c.unlink slot p

def search (m : α → Bool) : ℕ → Option ℕ → Option ℕ → Option (Option ℕ × Option ℕ)
  | _, slot, none => some (slot, none)
  | 0, _, some _ => none
  | fuel + 1, slot, some p => do
    let n ← c.nodes p
    if m n.value then some (slot, some p) else search m fuel (some p) n.next

/-- The nodes from `p` on. -/
def walk : ℕ → Option ℕ → Option (List (ℕ × α))
  | _, none => some []
  | 0, some _ => none
  | fuel + 1, some p => do
    let n ← c.nodes p
    let rest ← walk fuel n.next
    some ((p, n.value) :: rest)

def toList : Option (List (ℕ × α)) := c.walk c.fresh c.first

/-- The nodes from `p` on are deleted. -/
def freeFrom : ℕ → Chain α → Option ℕ → Option (Chain α)
  | _, c, none => some c
  | 0, _, some _ => none
  | fuel + 1, c, some p => do
    let n ← c.nodes p
    freeFrom fuel (c.free p) n.next

/-- All nodes are deleted, from the first one on. -/
def clear : Option (Chain α) :=
  (freeFrom c.fresh c c.first).map fun c' => { c' with first := none, last := none }

/-- The nodes from `p` on are copied behind `node`. -/
def copyFrom (f : α → Option α) : ℕ → Chain α → Option ℕ → Option ℕ → Option (Chain α × Option ℕ)
  | _, d, node, none => some (d, node)
  | 0, _, _, some _ => none
  | fuel + 1, d, node, some p => do
    let n ← c.nodes p
    let v ← f n.value
    let d' ← (d.alloc v).link node (some d.fresh)
    copyFrom f fuel d' (some d.fresh) n.next

/-- The nodes are copied, with their values. -/
def copy (f : α → Option α) : Option (Chain α) :=
  (c.copyFrom f c.fresh {} none c.first).map fun r => { r.1 with last := r.2 }

end Chain

/-! ## Linked S nodes -/

def Linked (S : α → β → Prop) (nodes : ℕ → Option (Node α)) : Option ℕ → List (ℕ × β) → Option ℕ → Prop
  | p, [], q => p = q
  | p, (a, v) :: l, q =>
    p = some a ∧ ∃ w next, nodes a = some { value := w, next := next } ∧ S w v ∧ Linked S nodes next l q

variable {S : α → β → Prop} {nodes nodes' : ℕ → Option (Node α)} {p q : Option ℕ} {l r : List (ℕ × β)}

theorem linked_append : Linked S nodes p (l ++ r) q ↔ ∃ m, Linked S nodes p l m ∧ Linked S nodes m r q := by
  induction l generalizing p with
  | nil => exact ⟨fun h => ⟨p, rfl, h⟩, fun ⟨_, hp, h⟩ => hp ▸ h⟩
  | cons e l ih =>
    constructor
    · rintro ⟨hp, w, next, hnode, hS, h⟩
      obtain ⟨m, hl, hr⟩ := ih.mp h
      exact ⟨m, ⟨hp, w, next, hnode, hS, hl⟩, hr⟩
    · rintro ⟨m, ⟨hp, w, next, hnode, hS, hl⟩, hr⟩
      exact ⟨hp, w, next, hnode, hS, ih.mpr ⟨m, hl, hr⟩⟩

theorem Linked.congr (h : Linked S nodes p l q) (heq : ∀ a ∈ l.map Prod.fst, nodes' a = nodes a) :
    Linked S nodes' p l q := by
  induction l generalizing p with
  | nil => exact h
  | cons e l ih =>
    obtain ⟨hp, w, next, hnode, hS, h⟩ := h
    exact ⟨hp, w, next, (heq e.1 List.mem_cons_self).trans hnode, hS,
      ih h fun a ha => heq a (List.mem_cons_of_mem _ ha)⟩

theorem Linked.head (h : Linked S nodes p l none) : p = l.head?.map Prod.fst := by
  cases l with
  | nil => exact h
  | cons e l => exact h.1

/-! ## What a chain holds -/

namespace Chain

/-- The nodes that are reached from the first one are those of `row`. -/
structure Threaded (S : α → β → Prop) (c : Chain α) (row : Row β) : Prop where
  linked : Linked S c.nodes c.first row.entries none
  nodup : (row.entries.map Prod.fst).Nodup
  bound : ∀ a ∈ row.entries.map Prod.fst, a < c.fresh
  fresh : c.fresh = row.fresh

/-- The chain holds the row, and its tail pointer is that of the row. -/
structure Holds (S : α → β → Prop) (c : Chain α) (row : Row β) : Prop extends Threaded S c row where
  last : c.last = Row.tail row.entries

variable {c : Chain α} {row : Row β}

theorem holds_empty : Holds S ({} : Chain α) {} where
  linked := rfl
  nodup := List.nodup_nil
  bound := fun _ h => absurd h List.not_mem_nil
  fresh := rfl
  last := rfl

theorem Threaded.length_le (h : Threaded S c row) : row.entries.length ≤ c.fresh := by
  have hsub : row.entries.map Prod.fst ⊆ List.range c.fresh := fun a ha => List.mem_range.mpr (h.bound a ha)
  have hle := (List.subperm_of_subset h.nodup hsub).length_le
  rwa [List.length_map, List.length_range] at hle

theorem Threaded.fresh_not_mem (h : Threaded S c row) : c.fresh ∉ row.entries.map Prod.fst :=
  fun hmem => Nat.lt_irrefl _ (h.bound _ hmem)

/-! ### Slots -/

theorem after_tail {m : Option ℕ} (h : Linked S c.nodes c.first l m) : c.after (Row.tail l) = some m := by
  rcases List.eq_nil_or_concat l with rfl | ⟨l, e, rfl⟩
  · exact congrArg some h
  · rw [List.concat_eq_append] at h ⊢
    obtain ⟨_, -, -, w, next, hnode, -, rfl⟩ := linked_append.mp h
    rw [Row.tail_concat, after, hnode]
    rfl

theorem link_some {p : ℕ} {n : Node α} (h : c.nodes p = some n) (target : Option ℕ) :
    c.link (some p) target =
      some { c with nodes := Function.update c.nodes p (some { n with next := target }) } := by
  rw [link, h]
  rfl

theorem link_tail {m : Option ℕ} (h : Linked S c.nodes c.first l m) (hnodup : (l.map Prod.fst).Nodup)
    (target : Option ℕ) :
    ∃ c', c.link (Row.tail l) target = some c' ∧ c'.last = c.last ∧ c'.fresh = c.fresh ∧
      (∀ a ∉ l.map Prod.fst, c'.nodes a = c.nodes a) ∧ Linked S c'.nodes c'.first l target := by
  rcases List.eq_nil_or_concat l with rfl | ⟨l, e, rfl⟩
  · exact ⟨_, rfl, rfl, rfl, fun _ _ => rfl, rfl⟩
  · rw [List.concat_eq_append] at h hnodup ⊢
    obtain ⟨m', hl, hm', w, next, hnode, hS, -⟩ := linked_append.mp h
    rw [List.map_append, List.map_cons, List.map_nil] at hnodup ⊢
    have hnot : e.1 ∉ l.map Prod.fst := fun hmem =>
      (List.nodup_append.mp hnodup).2.2 e.1 hmem e.1 List.mem_cons_self rfl
    rw [Row.tail_concat, link_some hnode]
    refine ⟨_, rfl, rfl, rfl, fun a ha => ?_, ?_⟩
    · exact Function.update_of_ne
        (ne_of_mem_of_not_mem (List.mem_append_right _ List.mem_cons_self) ha).symm _ _
    · refine linked_append.mpr ⟨m', hl.congr fun a ha => ?_, hm', w, target, ?_, hS, rfl⟩
      · exact Function.update_of_ne (ne_of_mem_of_not_mem ha hnot) _ _
      · exact Function.update_self _ _ _

/-! ### New nodes -/

theorem Threaded.alloc (h : Threaded S c row) (v : α) :
    Linked S (c.alloc v).nodes (c.alloc v).first row.entries none ∧
      (c.alloc v).nodes c.fresh = some { value := v, next := none } := by
  refine ⟨h.linked.congr fun a ha => Function.update_of_ne ?_ _ _, Function.update_self _ _ _⟩
  exact ne_of_mem_of_not_mem ha h.fresh_not_mem

theorem Threaded.push (h : Threaded S c row) {w : α} {v : β} (hS : S w v) :
    ∃ c', (c.alloc w).link (Row.tail row.entries) (some c.fresh) = some c' ∧ Threaded S c' (row.append v) := by
  obtain ⟨hlinked, hnode⟩ := h.alloc w
  obtain ⟨c', hlink, -, hfresh, hother, hfront⟩ := link_tail hlinked h.nodup (some c.fresh)
  have hentries : (row.append v).entries = row.entries ++ [(c.fresh, v)] := by rw [Row.append, h.fresh]
  refine ⟨c', hlink, ?_, ?_, ?_, ?_⟩
  · rw [hentries]
    refine linked_append.mpr ⟨_, hfront, rfl, w, none, ?_, hS, rfl⟩
    rw [hother _ h.fresh_not_mem, hnode]
  · rw [hentries, List.map_append]
    refine List.nodup_append.mpr ⟨h.nodup, List.nodup_singleton _, ?_⟩
    rintro a ha b hb rfl
    have heq : a = c.fresh := List.mem_singleton.mp hb
    exact h.fresh_not_mem (heq ▸ ha)
  · intro a ha
    rw [hentries, List.map_append] at ha
    rw [hfresh]
    rcases List.mem_append.mp ha with ha | ha
    · exact Nat.lt_succ_of_lt (h.bound a ha)
    · rw [List.mem_singleton.mp ha]
      exact Nat.lt_succ_self _
  · exact hfresh.trans (congrArg Nat.succ h.fresh)

/-- **Appending to the chain is appending to the row**. -/
theorem Holds.append (h : Holds S c row) {w : α} {v : β} (hS : S w v) :
    ∃ c', c.append w = some c' ∧ Holds S c' (row.append v) := by
  obtain ⟨c', hlink, hthreaded⟩ := h.push hS
  rw [← h.last] at hlink
  refine ⟨{ c' with last := some c.fresh }, ?_, { hthreaded with last := ?_ }⟩
  · rw [Chain.append, hlink]
    rfl
  · rw [Row.append, Row.tail_concat, h.fresh]

theorem insertAfter_entries (hnodup : (row.entries.map Prod.fst).Nodup) (hentries : row.entries = l ++ r)
    (v : β) : (row.insertAfter (Row.tail l) v).entries = l ++ (row.fresh, v) :: r := by
  rw [hentries] at hnodup
  rw [Row.insertAfter, hentries, Row.upTo_of_split hnodup rfl, Row.behind_of_split hnodup rfl]

/-- A node linked in behind a place of the chain. -/
theorem Threaded.insertAfter (h : Threaded S c row) (hentries : row.entries = l ++ r) {w : α} {v : β} (hS : S w v) :
    ∃ c', c.insertAfter (Row.tail l) w = some c' ∧ Threaded S c' (row.insertAfter (Row.tail l) v) ∧
      c'.last = c.last := by
  have hrow := insertAfter_entries h.nodup hentries v
  obtain ⟨hlinked, hnode⟩ := h.alloc w
  rw [hentries] at hlinked
  obtain ⟨m, hl, hr⟩ := linked_append.mp hlinked
  have hnodup := h.nodup
  have hfresh := h.fresh_not_mem
  rw [hentries, List.map_append] at hnodup hfresh
  have hfront : c.fresh ∉ l.map Prod.fst := fun hmem => hfresh (List.mem_append_left _ hmem)
  have hback : c.fresh ∉ r.map Prod.fst := fun hmem => hfresh (List.mem_append_right _ hmem)
  -- the new node is given the pointer of the slot
  let c₂ : Chain α :=
    { c.alloc w with
      nodes := Function.update (c.alloc w).nodes c.fresh (some { value := w, next := m }) }
  have hlink₂ : (c.alloc w).link (some c.fresh) m = some c₂ := link_some hnode m
  have hl₂ : Linked S c₂.nodes c₂.first l m :=
    hl.congr fun a ha => Function.update_of_ne (ne_of_mem_of_not_mem ha hfront) _ _
  -- and then the slot the pointer to the new node
  obtain ⟨c', hlink, hlast, hnext, hother, hl'⟩ :=
    link_tail hl₂ (List.nodup_append.mp hnodup).1 (some c.fresh)
  have hnew : c'.nodes c.fresh = some { value := w, next := m } :=
    (hother _ hfront).trans (Function.update_self _ _ _)
  have hr' : Linked S c'.nodes m r none := hr.congr fun a ha => by
    have hnot : a ∉ l.map Prod.fst := fun hmem => (List.nodup_append.mp hnodup).2.2 a hmem a ha rfl
    rw [hother a hnot]
    exact Function.update_of_ne (ne_of_mem_of_not_mem ha hback) _ _
  refine ⟨c', ?_, ⟨?_, ?_, ?_, ?_⟩, hlast⟩
  · rw [Chain.insertAfter, after_tail hl, Option.bind_eq_bind, Option.bind_some, hlink₂]
    exact hlink
  · rw [hrow, ← h.fresh]
    exact linked_append.mpr ⟨_, hl', rfl, w, m, hnew, hS, hr'⟩
  · rw [hrow, ← h.fresh, List.map_append, List.map_cons]
    refine (List.nodup_middle).mpr (List.nodup_cons.mpr ⟨hfresh, hnodup⟩)
  · intro a ha
    rw [hrow, ← h.fresh, List.map_append, List.map_cons] at ha
    rw [hnext]
    rcases List.mem_cons.mp (List.perm_middle.mem_iff.mp ha) with rfl | ha
    · exact Nat.lt_succ_self _
    · refine Nat.lt_succ_of_lt (h.bound a ?_)
      rwa [hentries, List.map_append]
  · exact hnext.trans (congrArg Nat.succ h.fresh)

/-- **Inserting into the chain is inserting into the row**. -/
theorem Holds.insertAfter (h : Holds S c row) {slot : Option ℕ} (hbehind : Row.behind slot row.entries ≠ [])
    {w : α} {v : β} (hS : S w v) : ∃ c', c.insertAfter slot w = some c' ∧ Holds S c' (row.insertAfter slot v) := by
  obtain ⟨l, rfl, hentries⟩ := Row.exists_split hbehind
  obtain ⟨c', hinsert, hthreaded, hlast⟩ := h.toThreaded.insertAfter hentries hS
  refine ⟨c', hinsert, { hthreaded with last := ?_ }⟩
  rw [hlast, h.last, insertAfter_entries h.nodup hentries, Row.tail_append_cons]
  conv_lhs => rw [hentries]
  rw [Row.tail_append_of_ne_nil l hbehind, ← List.singleton_append,
    Row.tail_append_of_ne_nil _ hbehind]

/-! ### Nodes that stay and nodes that go -/

variable {a : ℕ} {v : β}

/-- **Unlinking a node takes its entry out of the row**. -/
theorem Holds.unlink (h : Holds S c row) (hentries : row.entries = l ++ (a, v) :: r) :
    ∃ c', c.unlink (Row.tail l) a = some c' ∧ Holds S c' { row with entries := l ++ r } := by
  have hlinked := h.linked
  have hnodup := h.nodup
  rw [hentries] at hlinked hnodup
  obtain ⟨m, hl, -, w, next, hnode, -, hr⟩ := linked_append.mp hlinked
  rw [List.map_append, List.map_cons] at hnodup
  obtain ⟨hnot, hnodup'⟩ := List.nodup_cons.mp (List.nodup_middle.mp hnodup)
  obtain ⟨c', hlink, hlast, hfresh, hother, hl'⟩ := link_tail hl (List.nodup_append.mp hnodup').1 next
  have hr' : Linked S c'.nodes next r none := hr.congr fun b hb =>
    hother b fun hmem => (List.nodup_append.mp hnodup').2.2 b hmem b hb rfl
  have hall : Linked S c'.nodes c'.first (l ++ r) none := linked_append.mpr ⟨next, hl', hr'⟩
  refine ⟨_, by rw [Chain.unlink, hnode, Option.bind_eq_bind, Option.bind_some, hlink]; rfl, ⟨?_, ?_, ?_, ?_⟩, ?_⟩
  · refine hall.congr fun b hb => Function.update_of_ne (ne_of_mem_of_not_mem hb ?_) _ _
    rwa [List.map_append]
  · rwa [List.map_append]
  · intro b hb
    refine lt_of_lt_of_eq (h.bound b ?_) hfresh.symm
    rw [List.map_append] at hb
    rw [hentries, List.map_append, List.map_cons]
    exact List.perm_middle.mem_iff.mpr (List.mem_cons_of_mem a hb)
  · exact hfresh.trans h.fresh
  · show (if c'.last = some a then Row.tail l else c'.last) = Row.tail (l ++ r)
    rw [hlast, h.last, hentries, Row.tail_append_cons]
    rcases List.eq_nil_or_concat r with rfl | ⟨r, e, rfl⟩
    · rw [if_pos (show Row.tail [(a, v)] = some a from rfl), List.append_nil]
    · rw [List.concat_eq_append] at hnot ⊢
      have hne : e.1 ≠ a := by
        rintro rfl
        exact hnot (List.mem_append_right _ (by rw [List.map_append]; simp))
      rw [← List.cons_append, Row.tail_concat, if_neg (fun heq => hne (Option.some_inj.mp heq)),
        ← List.append_assoc, Row.tail_concat]

theorem Holds.removeAfter (h : Holds S c row) {slot : Option ℕ} (hbehind : Row.behind slot row.entries ≠ []) :
    ∃ c', c.removeAfter slot = some c' ∧ Holds S c' (row.removeAfter slot) := by
  obtain ⟨l, rfl, hentries⟩ := Row.exists_split hbehind
  obtain ⟨⟨a, v⟩, r, hr⟩ := List.exists_cons_of_ne_nil hbehind
  have hnodup := h.nodup
  have hlinked := h.linked
  rw [hentries] at hnodup hlinked
  obtain ⟨m, hl, hm⟩ := linked_append.mp hlinked
  rw [hr] at hm hentries
  obtain ⟨c', hunlink, hc'⟩ := h.unlink hentries
  have hrow : row.removeAfter (Row.tail l) = { row with entries := l ++ r } := by
    rw [hr] at hnodup
    rw [Row.removeAfter, hentries, Row.upTo_of_split hnodup rfl, Row.behind_of_split hnodup rfl,
      List.tail_cons]
  refine ⟨c', ?_, hrow ▸ hc'⟩
  rw [Chain.removeAfter, after_tail hl, Option.bind_eq_bind, Option.bind_some, hm.1]
  exact hunlink

/-- A value is changed in place. -/
theorem Holds.setValue (h : Holds S c row) (hentries : row.entries = l ++ (a, v) :: r)
    {f : α → α} {g : β → β} (hf : ∀ w, S w v → S (f w) (g v)) :
    ∃ c', c.setValue a f = some c' ∧ Holds S c' { row with entries := l ++ (a, g v) :: r } := by
  have hlinked := h.linked
  have hnodup := h.nodup
  rw [hentries] at hlinked hnodup
  obtain ⟨m, hl, hm, w, next, hnode, hS, hr⟩ := linked_append.mp hlinked
  rw [List.map_append, List.map_cons] at hnodup
  have hnot := (List.nodup_cons.mp (List.nodup_middle.mp hnodup)).1
  have haddresses : (l ++ (a, g v) :: r).map Prod.fst = row.entries.map Prod.fst := by
    rw [hentries, List.map_append, List.map_append, List.map_cons, List.map_cons]
  rw [Chain.setValue, hnode]
  refine ⟨_, rfl, ⟨?_, ?_, ?_, h.fresh⟩, ?_⟩
  · refine linked_append.mpr ⟨m, hl.congr fun b hb => Function.update_of_ne ?_ _ _, hm, _, next,
      Function.update_self _ _ _, hf w hS, hr.congr fun b hb => Function.update_of_ne ?_ _ _⟩
    · exact ne_of_mem_of_not_mem hb fun hmem => hnot (List.mem_append_left _ hmem)
    · exact ne_of_mem_of_not_mem hb fun hmem => hnot (List.mem_append_right _ hmem)
  · rw [haddresses]
    exact h.nodup
  · rw [haddresses]
    exact h.bound
  · refine h.last.trans ?_
    rw [hentries, Row.tail_append_cons, Row.tail_append_cons]
    cases r with
    | nil => rfl
    | cons e r =>
      rw [← List.singleton_append, ← List.singleton_append (l := e :: r), Row.tail_append_cons,
        Row.tail_append_cons]

/-! ### Loops over the nodes -/

/-- **The walk along the pointers finds the first match** and the node before it. -/
theorem search_eq {m : α → Bool} {m' : β → Bool} (hm : ∀ w v, S w v → m w = m' v) {fuel : ℕ}
    (h : Linked S c.nodes p r none) (hfuel : r.length ≤ fuel) :
    ∀ l : List (ℕ × β), c.search m fuel (Row.tail l) p =
      some (Row.tail (l ++ r.takeWhile fun e => !m' e.2), (r.dropWhile fun e => !m' e.2).head?.map Prod.fst) := by
  induction r generalizing fuel p with
  | nil => intro l; rw [h.head, List.takeWhile_nil, List.append_nil]; cases fuel <;> rfl
  | cons e r ih =>
    intro l
    obtain ⟨rfl, w, next, hnode, hS, hrest⟩ := h
    obtain ⟨fuel, rfl⟩ : ∃ n, fuel = n + 1 := ⟨fuel - 1, by rw [List.length_cons] at hfuel; omega⟩
    have hvalue : m w = m' e.2 := hm w e.2 hS
    rw [search, hnode, Option.bind_eq_bind, Option.bind_some, hvalue]
    cases hm' : m' e.2 with
    | true =>
      rw [if_pos rfl, List.takeWhile_cons_of_neg (by simp [hm']),
        List.dropWhile_cons_of_neg (by simp [hm']), List.append_nil]
      rfl
    | false =>
      have hrec := ih hrest (Nat.le_of_succ_le_succ hfuel) (l ++ [e])
      rw [Row.tail_concat, List.append_assoc, List.singleton_append] at hrec
      rw [if_neg Bool.false_ne_true, List.takeWhile_cons_of_pos (by simp [hm']),
        List.dropWhile_cons_of_pos (by simp [hm'])]
      exact hrec

theorem Threaded.search (h : Threaded S c row) {m : α → Bool} {m' : β → Bool} (hm : ∀ w v, S w v → m w = m' v) :
    c.search m c.fresh none c.first =
      some (Row.tail (row.entries.takeWhile fun e => !m' e.2),
        (row.entries.dropWhile fun e => !m' e.2).head?.map Prod.fst) :=
  search_eq hm h.linked h.length_le []

theorem freeFrom_eq {fuel : ℕ} (h : Linked S c.nodes p l none) (hnodup : (l.map Prod.fst).Nodup)
    (hfuel : l.length ≤ fuel) : ∃ c', freeFrom fuel c p = some c' ∧ c'.fresh = c.fresh := by
  induction l generalizing fuel p c with
  | nil =>
    refine ⟨c, ?_, rfl⟩
    rw [h.head]
    cases fuel <;> rfl
  | cons e l ih =>
    obtain ⟨rfl, w, next, hnode, hS, hrest⟩ := h
    obtain ⟨fuel, rfl⟩ : ∃ n, fuel = n + 1 := ⟨fuel - 1, by rw [List.length_cons] at hfuel; omega⟩
    rw [List.map_cons, List.nodup_cons] at hnodup
    have hrest' : Linked S (c.free e.1).nodes next l none := hrest.congr fun b hb =>
      Function.update_of_ne (ne_of_mem_of_not_mem hb hnodup.1) _ _
    obtain ⟨c', hfree, hfresh⟩ := ih hrest' hnodup.2 (Nat.le_of_succ_le_succ hfuel)
    refine ⟨c', ?_, hfresh⟩
    rw [freeFrom, hnode, Option.bind_eq_bind, Option.bind_some, hfree]

/-- Clearing the chain leaves an empty row. -/
theorem Holds.clear (h : Holds S c row) : ∃ c', c.clear = some c' ∧ Holds S c' row.clear := by
  obtain ⟨c', hfree, hfresh⟩ := freeFrom_eq h.linked h.nodup h.length_le
  refine ⟨{ c' with first := none, last := none }, by rw [Chain.clear, hfree]; rfl, ⟨rfl, List.nodup_nil, ?_, ?_⟩, rfl⟩
  · exact fun _ hmem => absurd hmem List.not_mem_nil
  · exact hfresh.trans h.fresh

/-! ### Copies -/

theorem copyFrom_eq {f : α → Option α} {fuel : ℕ} {d : Chain α} {drow : Row β}
    (h : Linked S c.nodes p l none) (hfuel : l.length ≤ fuel) (hd : Threaded S d drow)
    (hf : ∀ w v, S w v → ∃ w', f w = some w' ∧ S w' v) :
    ∃ d', c.copyFrom f fuel d (Row.tail drow.entries) p =
        some (d', Row.tail (drow.entries ++ Row.number drow.fresh (l.map Prod.snd))) ∧
      Threaded S d'
        { entries := drow.entries ++ Row.number drow.fresh (l.map Prod.snd), fresh := drow.fresh + l.length } := by
  induction l generalizing fuel p d drow with
  | nil =>
    rw [List.map_nil, Row.number, List.append_nil]
    refine ⟨d, ?_, hd⟩
    rw [h.head]
    cases fuel <;> rfl
  | cons e l ih =>
    obtain ⟨rfl, w, next, hnode, hS, hrest⟩ := h
    obtain ⟨fuel, rfl⟩ : ∃ n, fuel = n + 1 := ⟨fuel - 1, by rw [List.length_cons] at hfuel; omega⟩
    obtain ⟨w', hw, hS'⟩ := hf w e.2 hS
    obtain ⟨d', hlink, hd'⟩ := hd.push hS'
    have hnew : some d.fresh = Row.tail (drow.append e.2).entries := by
      rw [Row.append, Row.tail_concat, hd.fresh]
    obtain ⟨d'', hcopy, hd''⟩ := ih hrest (Nat.le_of_succ_le_succ hfuel) hd'
    have hentries : (drow.append e.2).entries ++ Row.number (drow.append e.2).fresh (l.map Prod.snd) =
        drow.entries ++ Row.number drow.fresh ((e :: l).map Prod.snd) := by
      rw [Row.append, List.append_assoc]
      rfl
    rw [hentries] at hcopy hd''
    refine ⟨d'', ?_, ?_⟩
    · rw [copyFrom, hnode, Option.bind_eq_bind, Option.bind_some, hw, Option.bind_eq_bind, Option.bind_some,
        hlink, Option.bind_eq_bind, Option.bind_some, hnew]
      exact hcopy
    · rw [List.length_cons, Nat.add_comm l.length 1, ← Nat.add_assoc]
      exact hd''

/-- **The copy of a chain holds the same row**, on nodes of its own. -/
theorem Threaded.copy {f : α → Option α} (h : Threaded S c row) (hf : ∀ w v, S w v → ∃ w', f w = some w' ∧ S w' v) :
    ∃ d, c.copy f = some d ∧ Holds S d row.copied := by
  obtain ⟨d, hcopy, hd⟩ := copyFrom_eq h.linked h.length_le holds_empty.toThreaded hf
  rw [Nat.zero_add, List.nil_append] at hd
  rw [List.nil_append] at hcopy
  refine ⟨{ d with last := Row.tail row.copied.entries }, ?_, { hd with last := rfl }⟩
  rw [Chain.copy]
  exact congrArg (Option.map _) hcopy

end Chain

end Lib
