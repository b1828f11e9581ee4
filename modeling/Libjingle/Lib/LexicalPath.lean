import Mathlib.Data.List.DropRight

/-!
# What a path means by its text

A path is a text with a separator `sep`. The components `dot` and empty ones mean nothing, and two dots
lead to the folder above.

Main result: **`inside_append`**.
-/

namespace Lib

variable {α : Type} [DecidableEq α] (sep dot : α)

def parent : List α := [dot, dot]

def components (path : List α) : List (List α) :=
  (path.splitOn sep).filter fun c => c ≠ [] ∧ c ≠ [dot]

def lastComponent (path : List α) : List α := path.rtakeWhile (· ≠ sep)

def isAbsolute (path : List α) : Bool := path.head? = some sep

def climb (absolute : Bool) (stack : List (List α)) (c : List α) : List (List α) :=
  if c = parent dot then
    match stack with
    | [] => if absolute then [] else [parent dot]
    | top :: rest => if top = parent dot then parent dot :: top :: rest else rest
  else c :: stack

/-- The folder a path leads to, by its text. -/
def resolve (path : List α) : Bool × List (List α) :=
  (isAbsolute sep path, (components sep dot path).foldl (climb dot (isAbsolute sep path)) [])

def Inside (root path : List α) : Prop :=
  (resolve sep dot path).1 = (resolve sep dot root).1 ∧
    ∃ below, (resolve sep dot path).2 = below ++ (resolve sep dot root).2 ∧ parent dot ∉ below

variable {sep dot} {path : List α}

/-! ## Components -/

theorem splitOn_append_sep (xs ys : List α) : (xs ++ sep :: ys).splitOn sep = xs.splitOn sep ++ ys.splitOn sep := by
  rw [List.splitOn_eq_splitOnP, List.splitOnP_append_cons xs ys (by simp),
    ← List.splitOn_eq_splitOnP, ← List.splitOn_eq_splitOnP]

theorem split_first (sep : α) (path : List α) : sep ∉ path ∨ ∃ xs ys, path = xs ++ sep :: ys ∧ sep ∉ xs := by
  by_cases h : sep ∈ path
  · exact Or.inr (List.eq_append_cons_of_mem h)
  · exact Or.inl h

theorem splitOn_of_not_mem (h : sep ∉ path) : path.splitOn sep = [path] := by
  rw [List.splitOn_eq_splitOnP]
  refine List.splitOnP_eq_singleton fun x hx => ?_
  rw [beq_eq_false_iff_ne]
  rintro rfl
  exact h hx

theorem lastComponent_append_sep (xs ys : List α) : lastComponent sep (xs ++ sep :: ys) = lastComponent sep ys := by
  induction ys using List.reverseRecOn with
  | nil => rw [lastComponent, List.rtakeWhile_concat_neg _ _ _ (by simp), lastComponent, List.rtakeWhile_nil]
  | append_singleton ys y ih =>
    rw [← List.cons_append, ← List.append_assoc]
    unfold lastComponent at ih ⊢
    by_cases hy : y = sep
    · rw [List.rtakeWhile_concat_neg _ _ _ (by simp [hy]), List.rtakeWhile_concat_neg _ _ _ (by simp [hy])]
    · rw [List.rtakeWhile_concat_pos _ _ _ (by simp [hy]), List.rtakeWhile_concat_pos _ _ _ (by simp [hy]),
        ih]

theorem mem_splitOn {c : List α} (h : c ∈ path.splitOn sep) : c = lastComponent sep path ∨ c ++ [sep] <:+: path := by
  induction hn : path.length using Nat.strong_induction_on generalizing path with
  | _ n ih =>
    rcases split_first sep path with hmem | ⟨xs, ys, rfl, hxs⟩
    · rw [splitOn_of_not_mem hmem, List.mem_singleton] at h
      left
      rw [h, lastComponent, eq_comm, List.rtakeWhile_eq_self_iff]
      intro x hx
      simp only [ne_eq, decide_not, Bool.not_eq_eq_eq_not, Bool.not_true, decide_eq_false_iff_not]
      rintro rfl
      exact hmem hx
    · rw [splitOn_append_sep, splitOn_of_not_mem hxs, List.singleton_append, List.mem_cons] at h
      rw [lastComponent_append_sep]
      have hsplit : xs ++ sep :: ys = (xs ++ [sep]) ++ ys := by simp
      rcases h with rfl | h
      · right
        rw [hsplit]
        exact (List.prefix_append _ _).isInfix
      · refine (ih ys.length ?_ h rfl).imp_right fun hin => ?_
        · subst hn
          simp only [List.length_append, List.length_cons]
          omega
        · rw [hsplit]
          exact hin.trans (List.suffix_append _ _).isInfix

theorem parent_not_mem_components (hin : ¬ parent dot ++ [sep] <:+: path)
    (hlast : lastComponent sep path ≠ parent dot) : parent dot ∉ components sep dot path := by
  intro hmem
  rcases mem_splitOn (List.mem_filter.mp hmem).1 with heq | h
  · exact hlast heq.symm
  · exact hin h

theorem components_append {root : List α} (hroot : root = [] ∨ root.getLast? = some sep) :
    components sep dot (root ++ path) = components sep dot root ++ components sep dot path := by
  rcases hroot with rfl | hroot
  · simp [components, List.splitOn_nil]
  · obtain ⟨init, rfl⟩ : ∃ init, root = init ++ [sep] := by
      rw [List.getLast?_eq_some_iff] at hroot
      exact hroot
    rw [List.append_assoc, List.singleton_append]
    simp only [components]
    rw [splitOn_append_sep, splitOn_append_sep, List.filter_append, List.filter_append,
      List.splitOn_nil]
    simp

theorem foldl_climb {absolute : Bool} {cs : List (List α)} (h : parent dot ∉ cs)
    (stack : List (List α)) : cs.foldl (climb dot absolute) stack = cs.reverse ++ stack := by
  induction cs generalizing stack with
  | nil => rfl
  | cons c cs ih =>
    obtain ⟨hc, hcs⟩ := not_or.mp (mt List.mem_cons.mpr h)
    have hclimb : climb dot absolute stack c = c :: stack := by
      unfold climb
      rw [if_neg (Ne.symm hc)]
    rw [List.foldl_cons, hclimb, ih hcs, List.reverse_cons, List.append_assoc, List.singleton_append]

/-- **A relative path without a parent component stays inside**. -/
theorem inside_append {root : List α} (hroot : root = [] ∨ root.getLast? = some sep)
    (habsolute : root = [] → isAbsolute sep path = false)
    (hparent : parent dot ∉ components sep dot path) : Inside sep dot root (root ++ path) := by
  have hsame : isAbsolute sep (root ++ path) = isAbsolute sep root := by
    cases root with
    | nil => simpa [isAbsolute] using habsolute rfl
    | cons a root => rfl
  refine ⟨hsame, (components sep dot path).reverse, ?_, fun hmem => hparent (List.mem_reverse.mp hmem)⟩
  simp only [resolve]
  rw [components_append hroot, List.foldl_append, hsame, foldl_climb hparent]

theorem not_inside_of_isAbsolute (h : isAbsolute sep path = true) : ¬ Inside sep dot [] path := by
  rintro ⟨hsame, -⟩
  simp only [resolve] at hsame
  rw [h] at hsame
  cases hsame

end Lib
