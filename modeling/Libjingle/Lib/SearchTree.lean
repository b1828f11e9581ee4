import Mathlib.Order.Lattice
import Mathlib.Data.List.Basic
import Mathlib.Tactic.Common
import Mathlib.Tactic.SplitIfs

/-!
# Search trees under any comparison

A tree that is searched with a comparison `lt`, the way `std::map` does it: `lowerBound` goes right of
a key that is less and remembers the last one that is not, `find` then compares the other way.

Main results: **`find_eq_lookup`**, **`find_of_mapRun`**.
-/

namespace Lib

/-- Binary trees with keys and values. -/
inductive Tree (κ ν : Type) where
  | leaf
  | node (left : Tree κ ν) (key : κ) (value : ν) (right : Tree κ ν)

namespace Tree

variable {κ ν : Type} (lt : κ → κ → Bool)

/-- The entries in order. -/
def toList : Tree κ ν → List (κ × ν)
  | leaf => []
  | node l x v r => l.toList ++ (x, v) :: r.toList

/-- The first entry whose key is not less than `k`. -/
def lowerBound (k : κ) : Tree κ ν → Option (κ × ν)
  | leaf => none
  | node l x v r => if lt x k then lowerBound k r else (lowerBound k l).or (some (x, v))

def find (k : κ) (t : Tree κ ν) : Option ν :=
  (lowerBound lt k t).bind fun e => if lt k e.1 then none else some e.2

def insertNew (k : κ) (v : ν) : Tree κ ν → Tree κ ν
  | leaf => node leaf k v leaf
  | node l x w r => if lt x k then node l x w (insertNew k v r) else node (insertNew k v l) x w r

/-- A new value for the entry that the search finds. -/
def replace (k : κ) (v : ν) : Tree κ ν → Tree κ ν
  | leaf => leaf
  | node l x w r =>
    if lt x k then node l x w (replace k v r)
    else if (lowerBound lt k l).isSome then node (replace k v l) x w r else node l x v r

/-- `map[k] = v`. -/
def set (k : κ) (v : ν) (t : Tree κ ν) : Tree κ ν :=
  if (find lt k t).isSome then replace lt k v t else insertNew lt k v t

def popMin : Tree κ ν → κ → ν → Tree κ ν → (κ × ν) × Tree κ ν
  | leaf, x, v, r => ((x, v), r)
  | node l x v r, y, w, r' => ((popMin l x v r).1, node (popMin l x v r).2 y w r')

def join (l : Tree κ ν) : Tree κ ν → Tree κ ν
  | leaf => l
  | node l' x v r => node l (popMin l' x v r).1.1 (popMin l' x v r).1.2 (popMin l' x v r).2

def remove (k : κ) : Tree κ ν → Tree κ ν
  | leaf => leaf
  | node l x w r =>
    if lt x k then node l x w (remove k r)
    else if (lowerBound lt k l).isSome then node (remove k l) x w r else join l r

/-- `map.erase(map.find(k))`, if the key is found. -/
def erase (k : κ) (t : Tree κ ν) : Tree κ ν := if (find lt k t).isSome then remove lt k t else t

/-! ## Any comparison -/

variable {lt}

theorem lowerBound_mem {k : κ} {t : Tree κ ν} {e : κ × ν} (h : lowerBound lt k t = some e) :
    e ∈ t.toList ∧ lt e.1 k = false := by
  induction t with
  | leaf => cases h
  | node l x v r ihl ihr =>
    rw [lowerBound] at h
    split_ifs at h with hx
    · obtain ⟨hmem, hlt⟩ := ihr h
      exact ⟨List.mem_append_right _ (List.mem_cons_of_mem _ hmem), hlt⟩
    · rcases Option.or_eq_some_iff.mp h with h | ⟨-, h⟩
      · obtain ⟨hmem, hlt⟩ := ihl h
        exact ⟨List.mem_append_left _ hmem, hlt⟩
      · cases h
        exact ⟨List.mem_append_right _ List.mem_cons_self, eq_false_of_ne_true hx⟩

theorem find_sound {k : κ} {t : Tree κ ν} {v : ν} (h : find lt k t = some v) :
    ∃ x, (x, v) ∈ t.toList ∧ lt x k = false ∧ lt k x = false := by
  obtain ⟨⟨x, w⟩, hlb, h⟩ := Option.bind_eq_some_iff.mp h
  dsimp only at h
  split_ifs at h with hk
  cases h
  obtain ⟨hmem, hx⟩ := lowerBound_mem hlb
  exact ⟨x, hmem, hx, eq_false_of_ne_true hk⟩

theorem mem_insertNew {k : κ} {v : ν} {t : Tree κ ν} {e : κ × ν} :
    e ∈ (insertNew lt k v t).toList ↔ e = (k, v) ∨ e ∈ t.toList := by
  induction t with
  | leaf => simp [insertNew, toList]
  | node l x w r ihl ihr =>
    rw [insertNew]
    split_ifs
    · simp only [toList, List.mem_append, List.mem_cons, ihr]
      tauto
    · simp only [toList, List.mem_append, List.mem_cons, ihl]
      tauto

theorem toList_popMin (l : Tree κ ν) (x : κ) (v : ν) (r : Tree κ ν) :
    (popMin l x v r).1 :: (popMin l x v r).2.toList = l.toList ++ (x, v) :: r.toList := by
  induction l generalizing x v r with
  | leaf => rfl
  | node l' y w r' ihl ihr =>
    rw [popMin, toList, toList, ← List.cons_append, ihl]

theorem toList_join (l r : Tree κ ν) : (join l r).toList = l.toList ++ r.toList := by
  cases r with
  | leaf => rw [join, toList, List.append_nil]
  | node l' x v r =>
    rw [join, toList]
    exact congrArg (l.toList ++ ·) (toList_popMin l' x v r)

theorem mem_of_mem_remove {k : κ} {t : Tree κ ν} {e : κ × ν} (h : e ∈ (remove lt k t).toList) : e ∈ t.toList := by
  induction t with
  | leaf => exact h
  | node l x w r ihl ihr =>
    rw [remove] at h
    split_ifs at h
    · simp only [toList, List.mem_append, List.mem_cons] at h ⊢
      tauto
    · simp only [toList, List.mem_append, List.mem_cons] at h ⊢
      tauto
    · rw [toList_join] at h
      simp only [toList, List.mem_append, List.mem_cons] at h ⊢
      tauto

theorem mem_of_mem_erase {k : κ} {t : Tree κ ν} {e : κ × ν} (h : e ∈ (erase lt k t).toList) : e ∈ t.toList := by
  unfold erase at h
  split_ifs at h
  · exact mem_of_mem_remove h
  · exact h

/-! ## A comparison of ranks -/

section ranked

variable {α : Type} [LinearOrder α] (rank : κ → α) {K : κ → Prop}

/-- On the keys `K` the comparison is that of the ranks. -/
def Ranked (lt : κ → κ → Bool) (rank : κ → α) (K : κ → Prop) : Prop :=
  ∀ a b, K a → K b → (lt a b = true ↔ rank a < rank b)

/-- The entries are in order, and their keys in `K`. -/
structure Sorted (rank : κ → α) (K : κ → Prop) (l : List (κ × ν)) : Prop where
  keys : ∀ e ∈ l, K e.1
  pairwise : l.Pairwise fun a b => rank a.1 < rank b.1

def lookup (k : κ) (l : List (κ × ν)) : Option ν :=
  (l.find? fun e => rank e.1 = rank k).map Prod.snd

variable {rank}

theorem Sorted.of_append {l r : List (κ × ν)} (h : Sorted rank K (l ++ r)) :
    Sorted rank K l ∧ Sorted rank K r ∧ ∀ a ∈ l, ∀ b ∈ r, rank a.1 < rank b.1 := by
  obtain ⟨hl, hr, hlr⟩ := List.pairwise_append.mp h.pairwise
  exact ⟨⟨fun e he => h.keys e (List.mem_append_left _ he), hl⟩,
    ⟨fun e he => h.keys e (List.mem_append_right _ he), hr⟩, hlr⟩

theorem Sorted.eq_of_rank {l : List (κ × ν)} (h : Sorted rank K l) {e e' : κ × ν} (he : e ∈ l)
    (he' : e' ∈ l) (hrank : rank e.1 = rank e'.1) : e = e' := by
  have hsame : l.Pairwise fun a b => rank a.1 = rank b.1 → a = b :=
    h.pairwise.imp fun hlt heq => absurd heq hlt.ne
  have hflip : l.Pairwise fun a b => rank b.1 = rank a.1 → b = a :=
    h.pairwise.imp fun hlt heq => absurd heq hlt.ne'
  exact hsame.forall_of_forall_of_flip (fun _ _ _ => rfl) hflip he he' hrank

theorem lowerBound_eq {k : κ} {t : Tree κ ν} (hlt : Ranked lt rank K) (hk : K k) (h : Sorted rank K t.toList) :
    lowerBound lt k t = t.toList.find? fun e => ¬rank e.1 < rank k := by
  induction t with
  | leaf => rfl
  | node l x v r ihl ihr =>
    obtain ⟨hl, hxr, hcross⟩ := h.of_append
    have hx : K x := hxr.keys (x, v) List.mem_cons_self
    have hr : Sorted rank K r.toList := ⟨fun e he => hxr.keys e (List.mem_cons_of_mem _ he),
      (List.pairwise_cons.mp hxr.pairwise).2⟩
    rw [lowerBound, toList, List.find?_append, ihl hl, ihr hr]
    by_cases hxk : rank x < rank k
    · -- everything on the left is less than `k` too
      have hnone : (l.toList.find? fun e => ¬rank e.1 < rank k) = none := by
        rw [List.find?_eq_none]
        intro e he
        simpa using (hcross e he (x, v) List.mem_cons_self).trans hxk
      rw [if_pos ((hlt x k hx hk).mpr hxk), hnone, Option.none_or, List.find?_cons_of_neg (by simpa)]
    · rw [if_neg (fun hlt' => hxk ((hlt x k hx hk).mp hlt')),
        List.find?_cons_of_pos (by simpa using hxk)]

theorem find?_eq_lookup {k : κ} {l : List (κ × ν)} (h : Sorted rank K l) :
    ((l.find? fun e => ¬rank e.1 < rank k).bind fun e =>
      if rank k < rank e.1 then none else some e.2) = lookup rank k l := by
  induction l with
  | nil => rfl
  | cons e l ih =>
    have hpair := List.pairwise_cons.mp h.pairwise
    have hl : Sorted rank K l := ⟨fun a ha => h.keys a (List.mem_cons_of_mem _ ha), hpair.2⟩
    unfold lookup at ih ⊢
    rcases lt_trichotomy (rank e.1) (rank k) with hlt | heq | hgt
    · rw [List.find?_cons_of_neg (by simpa), List.find?_cons_of_neg (by simpa using hlt.ne), ih hl]
    · rw [List.find?_cons_of_pos (by simp [heq]), List.find?_cons_of_pos (by simp [heq]),
        Option.bind_some, if_neg (by simp [heq]), Option.map_some]
    · have hnone : (l.find? fun e => rank e.1 = rank k) = none := by
        rw [List.find?_eq_none]
        intro a ha
        simpa using (hgt.trans (hpair.1 a ha)).ne'
      rw [List.find?_cons_of_pos (by simpa using hgt.le), List.find?_cons_of_neg (by simpa using hgt.ne'),
        hnone, Option.bind_some, if_pos hgt, Option.map_none]

/-- **A look-up in the tree is one in its sorted entries**. -/
theorem find_eq_lookup {k : κ} {t : Tree κ ν} (hlt : Ranked lt rank K) (hk : K k)
    (h : Sorted rank K t.toList) : find lt k t = lookup rank k t.toList := by
  rw [← find?_eq_lookup h, find, lowerBound_eq hlt hk h]
  cases hfound : t.toList.find? fun e => ¬rank e.1 < rank k with
  | none => rfl
  | some e =>
    have he : K e.1 := h.keys e (List.mem_of_find?_eq_some hfound)
    simp only [Option.bind_some, (hlt k e.1 hk he)]

theorem lookup_eq_some {k : κ} {v : ν} {l : List (κ × ν)} (h : Sorted rank K l) :
    lookup rank k l = some v ↔ ∃ x, (x, v) ∈ l ∧ rank x = rank k := by
  unfold lookup
  induction l with
  | nil => simp
  | cons e l ih =>
    have hpair := List.pairwise_cons.mp h.pairwise
    have hl : Sorted rank K l := ⟨fun a ha => h.keys a (List.mem_cons_of_mem _ ha), hpair.2⟩
    by_cases he : rank e.1 = rank k
    · rw [List.find?_cons_of_pos (by simpa using he), Option.map_some, Option.some.injEq]
      constructor
      · rintro rfl
        exact ⟨e.1, List.mem_cons_self, he⟩
      · rintro ⟨x, hmem, hx⟩
        rcases List.mem_cons.mp hmem with rfl | hmem
        · rfl
        · exact absurd (he.trans hx.symm) (hpair.1 _ hmem).ne
    · rw [List.find?_cons_of_neg (by simpa using he), ih hl]
      refine exists_congr fun x => and_congr_left fun hx => ?_
      rw [List.mem_cons]
      exact ⟨.inr, fun hmem => hmem.resolve_left fun heq => he (by rw [← heq]; exact hx)⟩

theorem sorted_node {l r : Tree κ ν} {x : κ} {w : ν} :
    Sorted rank K (node l x w r).toList ↔
      Sorted rank K l.toList ∧ Sorted rank K r.toList ∧ K x ∧
        (∀ a ∈ l.toList, rank a.1 < rank x) ∧ ∀ b ∈ r.toList, rank x < rank b.1 := by
  constructor
  · intro h
    obtain ⟨hl, hxr, hcross⟩ := h.of_append
    have hpair := List.pairwise_cons.mp hxr.pairwise
    exact ⟨hl, ⟨fun e he => hxr.keys e (List.mem_cons_of_mem _ he), hpair.2⟩,
      hxr.keys (x, w) List.mem_cons_self, fun a ha => hcross a ha (x, w) List.mem_cons_self, hpair.1⟩
  · rintro ⟨hl, hr, hx, hlx, hxr⟩
    refine ⟨?_, List.pairwise_append.mpr ⟨hl.pairwise, List.pairwise_cons.mpr ⟨hxr, hr.pairwise⟩, ?_⟩⟩
    · intro e he
      rcases List.mem_append.mp he with he | he
      · exact hl.keys e he
      · rcases List.mem_cons.mp he with rfl | he
        · exact hx
        · exact hr.keys e he
    · intro a ha b hb
      rcases List.mem_cons.mp hb with rfl | hb
      · exact hlx a ha
      · exact (hlx a ha).trans (hxr b hb)

theorem found_node {l r : Tree κ ν} {x k : κ} {w : ν} (h : Sorted rank K (node l x w r).toList)
    (hfound : ∃ e ∈ (node l x w r).toList, rank e.1 = rank k) :
    (rank x < rank k ∧ ∃ e ∈ r.toList, rank e.1 = rank k) ∨
      (rank k < rank x ∧ ∃ e ∈ l.toList, rank e.1 = rank k) ∨ rank x = rank k := by
  obtain ⟨-, -, -, hlx, hxr⟩ := sorted_node.mp h
  obtain ⟨e, he, hrank⟩ := hfound
  rcases List.mem_append.mp he with he | he
  · exact .inr (.inl ⟨by rw [← hrank]; exact hlx e he, e, he, hrank⟩)
  · rcases List.mem_cons.mp he with rfl | he
    · exact .inr (.inr hrank)
    · exact .inl ⟨by rw [← hrank]; exact hxr e he, e, he, hrank⟩

theorem isSome_lowerBound {k : κ} {t : Tree κ ν} (hlt : Ranked lt rank K) (hk : K k) (h : Sorted rank K t.toList) :
    (lowerBound lt k t).isSome ↔ ∃ e ∈ t.toList, ¬rank e.1 < rank k := by
  rw [lowerBound_eq hlt hk h, List.find?_isSome]
  simp only [decide_eq_true_eq]

theorem walk_node {l r : Tree κ ν} {x k : κ} {w : ν} (hlt : Ranked lt rank K) (hk : K k)
    (h : Sorted rank K (node l x w r).toList)
    (hfound : ∃ e ∈ (node l x w r).toList, rank e.1 = rank k) :
    (lt x k = true ∧ rank x < rank k ∧ ∃ e ∈ r.toList, rank e.1 = rank k) ∨
      (lt x k = false ∧ (lowerBound lt k l).isSome ∧ rank k < rank x ∧
        ∃ e ∈ l.toList, rank e.1 = rank k) ∨
      (lt x k = false ∧ (lowerBound lt k l).isSome = false ∧ rank x = rank k) := by
  obtain ⟨hl, -, hx, hlx, -⟩ := sorted_node.mp h
  rcases found_node h hfound with ⟨hxk, hr⟩ | ⟨hkx, e, he, hrank⟩ | heq
  · exact .inl ⟨(hlt x k hx hk).mpr hxk, hxk, hr⟩
  · refine .inr (.inl ⟨?_, (isSome_lowerBound hlt hk hl).mpr ⟨e, he, ?_⟩, hkx, e, he, hrank⟩)
    · exact eq_false_of_ne_true fun hlt' => lt_asymm hkx ((hlt x k hx hk).mp hlt')
    · rw [hrank]
      exact lt_irrefl _
  · refine .inr (.inr ⟨?_, ?_, heq⟩)
    · exact eq_false_of_ne_true fun hlt' => absurd ((hlt x k hx hk).mp hlt') (by rw [heq]; exact lt_irrefl _)
    · rw [← Bool.not_eq_true, isSome_lowerBound hlt hk hl]
      rintro ⟨e, he, hnot⟩
      exact hnot (by rw [← heq]; exact hlx e he)

theorem sorted_insertNew {k : κ} {v : ν} {t : Tree κ ν} (hlt : Ranked lt rank K) (hk : K k)
    (h : Sorted rank K t.toList) (hnew : ∀ e ∈ t.toList, rank e.1 ≠ rank k) :
    Sorted rank K (insertNew lt k v t).toList := by
  induction t with
  | leaf => exact ⟨by simpa [insertNew, toList] using hk, by simp [insertNew, toList]⟩
  | node l x w r ihl ihr =>
    obtain ⟨hl, hr, hx, hlx, hxr⟩ := sorted_node.mp h
    have hne : rank x ≠ rank k := hnew (x, w) (List.mem_append_right _ List.mem_cons_self)
    have hnewl : ∀ e ∈ l.toList, rank e.1 ≠ rank k := fun e he => hnew e (List.mem_append_left _ he)
    have hnewr : ∀ e ∈ r.toList, rank e.1 ≠ rank k :=
      fun e he => hnew e (List.mem_append_right _ (List.mem_cons_of_mem _ he))
    rw [insertNew]
    split_ifs with hxk
    · refine sorted_node.mpr ⟨hl, ihr hr hnewr, hx, hlx, fun e he => ?_⟩
      rcases mem_insertNew.mp he with rfl | he
      · exact (hlt x _ hx hk).mp hxk
      · exact hxr e he
    · refine sorted_node.mpr ⟨ihl hl hnewl, hr, hx, fun e he => ?_, hxr⟩
      rcases mem_insertNew.mp he with rfl | he
      · exact lt_of_le_of_ne (not_lt.mp fun hlt' => hxk ((hlt x _ hx hk).mpr hlt')) hne.symm
      · exact hlx e he

/-- What `replace` makes of an entry. -/
def update (rank : κ → α) (k : κ) (v : ν) (e : κ × ν) : κ × ν := if rank e.1 = rank k then (e.1, v) else e

theorem map_update_of_ne {k : κ} {v : ν} {l : List (κ × ν)} (h : ∀ e ∈ l, rank e.1 ≠ rank k) :
    l.map (update rank k v) = l := by
  have hid : ∀ e ∈ l, update rank k v e = id e := fun e he => if_neg (h e he)
  rw [List.map_congr_left hid, List.map_id]

theorem filter_of_ne {k : κ} {l : List (κ × ν)} (h : ∀ e ∈ l, rank e.1 ≠ rank k) :
    (l.filter fun e => rank e.1 ≠ rank k) = l :=
  List.filter_eq_self.mpr fun e he => decide_eq_true (h e he)

theorem toList_replace {k : κ} {v : ν} {t : Tree κ ν} (hlt : Ranked lt rank K) (hk : K k)
    (h : Sorted rank K t.toList) (hfound : ∃ e ∈ t.toList, rank e.1 = rank k) :
    (replace lt k v t).toList = t.toList.map (update rank k v) := by
  induction t with
  | leaf => rfl
  | node l x w r ihl ihr =>
    obtain ⟨hl, hr, hx, hlx, hxr⟩ := sorted_node.mp h
    rw [replace]
    rcases walk_node hlt hk h hfound with ⟨hxk, hrank, hfr⟩ | ⟨hxk, hlb, hrank, hfl⟩ | ⟨hxk, hlb, hrank⟩
    · rw [if_pos hxk, toList, toList, ihr hr hfr, List.map_append, List.map_cons,
        map_update_of_ne fun e he => ((hlx e he).trans hrank).ne, update, if_neg hrank.ne]
    · rw [if_neg (by rw [hxk]; decide), if_pos hlb, toList, toList, ihl hl hfl, List.map_append,
        List.map_cons, map_update_of_ne fun e he => (hrank.trans (hxr e he)).ne', update,
        if_neg hrank.ne']
    · rw [if_neg (by rw [hxk]; decide), if_neg (by rw [hlb]; decide), toList, toList, List.map_append,
        List.map_cons, map_update_of_ne fun e he => (hrank ▸ hlx e he).ne,
        map_update_of_ne fun e he => (hrank ▸ hxr e he).ne', update, if_pos hrank]

theorem toList_remove {k : κ} {t : Tree κ ν} (hlt : Ranked lt rank K) (hk : K k)
    (h : Sorted rank K t.toList) (hfound : ∃ e ∈ t.toList, rank e.1 = rank k) :
    (remove lt k t).toList = t.toList.filter fun e => rank e.1 ≠ rank k := by
  induction t with
  | leaf => rfl
  | node l x w r ihl ihr =>
    obtain ⟨hl, hr, hx, hlx, hxr⟩ := sorted_node.mp h
    rw [remove]
    rcases walk_node hlt hk h hfound with ⟨hxk, hrank, hfr⟩ | ⟨hxk, hlb, hrank, hfl⟩ | ⟨hxk, hlb, hrank⟩
    · rw [if_pos hxk, toList, toList, ihr hr hfr, List.filter_append,
        List.filter_cons_of_pos (by simpa using hrank.ne),
        filter_of_ne fun e he => ((hlx e he).trans hrank).ne]
    · rw [if_neg (by rw [hxk]; decide), if_pos hlb, toList, toList, ihl hl hfl, List.filter_append,
        List.filter_cons_of_pos (by simpa using hrank.ne'),
        filter_of_ne fun e he => (hrank.trans (hxr e he)).ne']
    · rw [if_neg (by rw [hxk]; decide), if_neg (by rw [hlb]; decide), toList_join, toList,
        List.filter_append, List.filter_cons_of_neg (by simpa using hrank),
        filter_of_ne fun e he => (hrank ▸ hlx e he).ne, filter_of_ne fun e he => (hrank ▸ hxr e he).ne']

theorem isSome_find {k : κ} {t : Tree κ ν} (hlt : Ranked lt rank K) (hk : K k) (h : Sorted rank K t.toList) :
    (find lt k t).isSome ↔ ∃ e ∈ t.toList, rank e.1 = rank k := by
  rw [find_eq_lookup hlt hk h, lookup, Option.isSome_map, List.find?_isSome]
  simp only [decide_eq_true_eq]

theorem find_eq_some {k : κ} {v : ν} {t : Tree κ ν} (hlt : Ranked lt rank K) (hk : K k) (h : Sorted rank K t.toList) :
    find lt k t = some v ↔ ∃ x, (x, v) ∈ t.toList ∧ rank x = rank k := by
  rw [find_eq_lookup hlt hk h, lookup_eq_some h]

theorem sorted_set {k : κ} {v : ν} {t : Tree κ ν} (hlt : Ranked lt rank K) (hk : K k)
    (h : Sorted rank K t.toList) : Sorted rank K (set lt k v t).toList := by
  have hkey : ∀ e, (update rank k v e).1 = e.1 := fun e => by unfold update; split_ifs <;> rfl
  unfold set
  split_ifs with hfound
  · rw [isSome_find hlt hk h] at hfound
    rw [toList_replace hlt hk h hfound]
    refine ⟨fun e he => ?_, List.pairwise_map.mpr (h.pairwise.imp fun hab => by rwa [hkey, hkey])⟩
    obtain ⟨e', he', rfl⟩ := List.mem_map.mp he
    rw [hkey]
    exact h.keys e' he'
  · rw [isSome_find hlt hk h] at hfound
    exact sorted_insertNew hlt hk h fun e he heq => hfound ⟨e, he, heq⟩

theorem sorted_erase {k : κ} {t : Tree κ ν} (hlt : Ranked lt rank K) (hk : K k)
    (h : Sorted rank K t.toList) : Sorted rank K (erase lt k t).toList := by
  unfold erase
  split_ifs with hfound
  · rw [isSome_find hlt hk h] at hfound
    rw [toList_remove hlt hk h hfound]
    exact ⟨fun e he => h.keys e (List.mem_of_mem_filter he), h.pairwise.filter _⟩
  · exact h

theorem mem_erase {k : κ} {t : Tree κ ν} {e : κ × ν} (hlt : Ranked lt rank K) (hk : K k)
    (h : Sorted rank K t.toList) :
    e ∈ (erase lt k t).toList ↔ e ∈ t.toList ∧ rank e.1 ≠ rank k := by
  unfold erase
  split_ifs with hfound
  · rw [isSome_find hlt hk h] at hfound
    rw [toList_remove hlt hk h hfound, List.mem_filter, decide_eq_true_eq]
  · rw [isSome_find hlt hk h] at hfound
    exact ⟨fun he => ⟨he, fun heq => hfound ⟨e, he, heq⟩⟩, And.left⟩

theorem find_set {k k' : κ} {v : ν} {t : Tree κ ν} (hlt : Ranked lt rank K) (hk : K k) (hk' : K k')
    (h : Sorted rank K t.toList) :
    find lt k' (set lt k v t) = if rank k = rank k' then some v else find lt k' t := by
  have hset := sorted_set (v := v) hlt hk h
  ext w
  rw [find_eq_some hlt hk' hset]
  unfold set
  split_ifs with hfound heq heq
  · rw [isSome_find hlt hk h] at hfound
    rw [toList_replace hlt hk h hfound]
    obtain ⟨e, he, hrank⟩ := hfound
    constructor
    · rintro ⟨x, hmem, hx⟩
      obtain ⟨a, -, ha⟩ := List.mem_map.mp hmem
      unfold update at ha
      split_ifs at ha with hak
      · obtain ⟨-, rfl⟩ := Prod.mk.inj ha
        rfl
      · subst ha
        exact absurd (hx.trans heq.symm) hak
    · rintro hw
      cases hw
      refine ⟨e.1, List.mem_map.mpr ⟨e, he, if_pos hrank⟩, hrank.trans heq⟩
  · rw [isSome_find hlt hk h] at hfound
    rw [toList_replace hlt hk h hfound, find_eq_some hlt hk' h]
    refine exists_congr fun x => and_congr_left fun hx => ?_
    have hne : rank x ≠ rank k := fun hxk => heq (hxk.symm.trans hx)
    constructor
    · intro hmem
      obtain ⟨a, hmem, ha⟩ := List.mem_map.mp hmem
      unfold update at ha
      split_ifs at ha with hak
      · obtain ⟨rfl, -⟩ := Prod.mk.inj ha
        exact absurd hak hne
      · rw [← ha]
        exact hmem
    · intro hmem
      exact List.mem_map.mpr ⟨(x, w), hmem, if_neg hne⟩
  · rw [isSome_find hlt hk h] at hfound
    constructor
    · rintro ⟨x, hmem, hx⟩
      rcases mem_insertNew.mp hmem with hnew | hold
      · rw [(Prod.mk.inj hnew).2]
      · exact absurd ⟨(x, w), hold, hx.trans heq.symm⟩ hfound
    · intro hw
      cases hw
      exact ⟨k, mem_insertNew.mpr (.inl rfl), heq⟩
  · rw [find_eq_some hlt hk' h]
    refine exists_congr fun x => and_congr_left fun hx => ?_
    rw [mem_insertNew]
    refine ⟨fun hmem => hmem.resolve_left fun hnew => heq ?_, .inr⟩
    rw [← hx, (Prod.mk.inj hnew).1]

theorem find_erase {k k' : κ} {t : Tree κ ν} (hlt : Ranked lt rank K) (hk : K k) (hk' : K k')
    (h : Sorted rank K t.toList) :
    find lt k' (erase lt k t) = if rank k = rank k' then none else find lt k' t := by
  have herase := sorted_erase hlt hk h
  ext w
  rw [find_eq_some hlt hk' herase]
  split_ifs with heq
  · constructor
    · rintro ⟨x, hmem, hx⟩
      exact absurd (hx.trans heq.symm) ((mem_erase hlt hk h).mp hmem).2
    · intro hw
      cases hw
  · rw [find_eq_some hlt hk' h]
    refine exists_congr fun x => and_congr_left fun hx => ?_
    rw [mem_erase hlt hk h]
    exact ⟨And.left, fun hmem => ⟨hmem, fun hxk => heq (hxk.symm.trans hx)⟩⟩

end ranked

/-! ## Histories -/

/-- The operations of a map. -/
inductive Op (κ ν : Type) where
  | set (k : κ) (v : ν)
  | erase (k : κ)

def Op.key : Op κ ν → κ
  | set k _ => k
  | erase k => k

/-- The trees that a history leads to, with any rebalancing after each operation. -/
inductive MapRun (lt : κ → κ → Bool) : List (Op κ ν) → Tree κ ν → Prop where
  | nil : MapRun lt [] leaf
  | set {ops : List (Op κ ν)} {t t' : Tree κ ν} {k : κ} {v : ν} :
      MapRun lt ops t → t'.toList = (t.set lt k v).toList → MapRun lt (ops ++ [.set k v]) t'
  | erase {ops : List (Op κ ν)} {t t' : Tree κ ν} {k : κ} :
      MapRun lt ops t → t'.toList = (t.erase lt k).toList → MapRun lt (ops ++ [.erase k]) t'

def lastValue (same : κ → κ → Bool) (k : κ) (ops : List (Op κ ν)) : Option ν :=
  ops.foldl (fun found op =>
    match op with
    | .set k' v => if same k' k then some v else found
    | .erase k' => if same k' k then none else found) none

theorem sorted_of_mapRun {α : Type} [LinearOrder α] {rank : κ → α} {K : κ → Prop}
    {ops : List (Op κ ν)} {t : Tree κ ν} (hlt : Ranked lt rank K) (h : MapRun lt ops t)
    (hops : ∀ op ∈ ops, K op.key) : Sorted rank K t.toList := by
  induction h with
  | nil => exact ⟨fun e he => absurd he List.not_mem_nil, .nil⟩
  | @set ops t t' k v _ ht' ih =>
    rw [List.forall_mem_append, List.forall_mem_singleton] at hops
    rw [ht']
    exact sorted_set hlt hops.2 (ih hops.1)
  | @erase ops t t' k _ ht' ih =>
    rw [List.forall_mem_append, List.forall_mem_singleton] at hops
    rw [ht']
    exact sorted_erase hlt hops.2 (ih hops.1)

/-- **A look-up finds the last value that was set**. -/
theorem find_of_mapRun {α : Type} [LinearOrder α] {rank : κ → α} {K : κ → Prop}
    {same : κ → κ → Bool} {ops : List (Op κ ν)} {t : Tree κ ν} {k : κ} (hlt : Ranked lt rank K)
    (hsame : ∀ a b, same a b = true ↔ rank a = rank b) (h : MapRun lt ops t)
    (hops : ∀ op ∈ ops, K op.key) (hk : K k) : find lt k t = lastValue same k ops := by
  induction h with
  | nil => rfl
  | @set ops t t' k' v hrun ht' ih =>
    rw [List.forall_mem_append, List.forall_mem_singleton] at hops
    have hk' : K k' := hops.2
    have hsorted := sorted_of_mapRun hlt hrun hops.1
    have hset := sorted_set (v := v) hlt hk' hsorted
    have hsplit : lastValue same k (ops ++ [.set k' v]) =
        if same k' k then some v else lastValue same k ops := by
      rw [lastValue, List.foldl_append]
      rfl
    rw [hsplit, find_eq_lookup hlt hk (by rw [ht']; exact hset), ht', ← find_eq_lookup hlt hk hset,
      find_set hlt hk' hk hsorted, ih hops.1]
    simp only [hsame]
  | @erase ops t t' k' hrun ht' ih =>
    rw [List.forall_mem_append, List.forall_mem_singleton] at hops
    have hk' : K k' := hops.2
    have hsorted := sorted_of_mapRun hlt hrun hops.1
    have herase := sorted_erase hlt hk' hsorted
    have hsplit : lastValue same k (ops ++ [.erase k'] : List (Op κ ν)) =
        if same k' k then none else lastValue same k ops := by
      rw [lastValue, List.foldl_append]
      rfl
    rw [hsplit, find_eq_lookup hlt hk (by rw [ht']; exact herase), ht', ← find_eq_lookup hlt hk herase,
      find_erase hlt hk' hk hsorted, ih hops.1]
    simp only [hsame]

end Tree

end Lib
