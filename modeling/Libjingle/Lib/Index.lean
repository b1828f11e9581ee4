import Libjingle.Lib.SearchTree

/-!
# Indices

A search tree is an index of objects by their keys if its entries are exactly the objects with their
keys. Keys are compared by a rank, and no two objects have keys of one rank.

Main result: **`find_eq_some`**.
-/

namespace Lib.Tree

variable {κ ι α : Type} [LinearOrder α] {lt : κ → κ → Bool} {rank : κ → α} {K : κ → Prop}

/-- The entries of `t` are the objects that have a key. -/
structure Indexed (rank : κ → α) (K : κ → Prop) (t : Tree κ ι) (key : ι → Option κ) : Prop where
  sorted : Sorted rank K t.toList
  mem_iff : ∀ k x, (k, x) ∈ t.toList ↔ key x = some k

namespace Indexed

variable {t : Tree κ ι} {key : ι → Option κ} {k k' : κ} {x y : ι}

theorem leaf : Indexed rank K (.leaf : Tree κ ι) fun _ => none :=
  ⟨⟨fun _ h => absurd h List.not_mem_nil, .nil⟩, fun _ _ => ⟨fun h => absurd h List.not_mem_nil, nofun⟩⟩

theorem eq_of_rank (h : Indexed rank K t key) (hx : key x = some k) (hy : key y = some k')
    (hrank : rank k = rank k') : x = y :=
  congrArg Prod.snd (h.sorted.eq_of_rank ((h.mem_iff k x).mpr hx) ((h.mem_iff k' y).mpr hy) hrank)

/-- **A look-up finds what has the key**. -/
theorem find_eq_some (h : Indexed rank K t key) (hlt : Ranked lt rank K) (hk : K k) :
    find lt k t = some x ↔ ∃ k', key x = some k' ∧ rank k' = rank k := by
  rw [Tree.find_eq_some hlt hk h.sorted]
  simp only [h.mem_iff]

theorem isSome_find (h : Indexed rank K t key) (hlt : Ranked lt rank K) (hx : key x = some k) :
    find lt k t = some x :=
  (h.find_eq_some hlt (h.sorted.keys _ ((h.mem_iff k x).mpr hx))).mpr ⟨k, hx, rfl⟩

variable [DecidableEq ι]

theorem set (h : Indexed rank K t key) (hlt : Ranked lt rank K) (hk : K k)
    (hfind : find lt k t = none) (hx : key x = none) :
    Indexed rank K (Tree.set lt k x t) (Function.update key x (some k)) := by
  have hset : Tree.set lt k x t = insertNew lt k x t := by
    rw [Tree.set, if_neg (by rw [hfind]; exact Bool.false_ne_true)]
  refine ⟨sorted_set hlt hk h.sorted, fun k' y => ?_⟩
  rw [hset, mem_insertNew, Prod.mk.injEq, h.mem_iff]
  by_cases hy : y = x
  · rw [hy, Function.update_self, hx]
    simp only [and_true, reduceCtorEq, or_false, Option.some.injEq]
    exact eq_comm
  · rw [Function.update_of_ne hy]
    simp only [hy, and_false, false_or]

theorem erase (h : Indexed rank K t key) (hlt : Ranked lt rank K) (hx : key x = some k) :
    Indexed rank K (Tree.erase lt k t) (Function.update key x none) := by
  have hk : K k := h.sorted.keys _ ((h.mem_iff k x).mpr hx)
  refine ⟨sorted_erase hlt hk h.sorted, fun k' y => ?_⟩
  rw [mem_erase hlt hk h.sorted, h.mem_iff]
  by_cases hy : y = x
  · rw [hy, Function.update_self, hx]
    simp only [Option.some.injEq, reduceCtorEq, iff_false, not_and, not_not]
    exact fun heq => by rw [heq]
  · rw [Function.update_of_ne hy]
    exact ⟨And.left, fun hkey => ⟨hkey, fun hrank => hy (h.eq_of_rank hkey hx hrank)⟩⟩

end Indexed

end Lib.Tree
