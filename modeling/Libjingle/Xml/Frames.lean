import Libjingle.Xml.Scope

/-!
# Frames of namespaces (`xmllite/xmlnsstack.{h,cc}`)

Calls to a stack of namespaces in any order. `PopFrame` is defined only where a frame is open.

Main results: **`run_frame`**, **`prefixes_sound`**.
-/

namespace Libjingle.Xml.XmlnsStack

/-! ## Calls -/

/-- A call of the stack. -/
inductive Call
  | pushFrame
  | addXmlns (p ns : List Uint8)
  | addNewPrefix (ns : List Uint8) (isAttr : Bool)
  | popFrame
deriving DecidableEq

def Call.apply (s : XmlnsStack) : Call → Option XmlnsStack
  | pushFrame => some s.pushFrame
  | addXmlns p ns => some (s.addXmlns p ns)
  | addNewPrefix ns isAttr => some (s.addNewPrefix ns isAttr).2
  | popFrame => if s.depths = [] then none else some s.popFrame

/-- A run of calls. -/
def run : XmlnsStack → List Call → Option XmlnsStack
  | s, [] => some s
  | s, call :: calls => (call.apply s).bind fun s' => run s' calls

/-- The open frames, if no call closes one from before. -/
def frames : ℕ → List Call → Option ℕ
  | n, [] => some n
  | n, .pushFrame :: calls => frames (n + 1) calls
  | 0, .popFrame :: _ => none
  | n + 1, .popFrame :: calls => frames n calls
  | n, .addXmlns _ _ :: calls => frames n calls
  | n, .addNewPrefix _ _ :: calls => frames n calls

theorem run_append (s : XmlnsStack) (calls rest : List Call) :
    run s (calls ++ rest) = (run s calls).bind fun s' => run s' rest := by
  induction calls generalizing s with
  | nil => rfl
  | cons call calls ih =>
    rw [List.cons_append, run, run, Option.bind_assoc]
    exact congrArg _ (funext ih)

/-! ## What a frame leaves -/

/-- The stack after `PushFrame` on `base` and calls that leave `n` more frames open. -/
structure Inside (base : XmlnsStack) (n : ℕ) (s : XmlnsStack) : Prop where
  entries : ∃ added, s.entries = added ++ base.entries
  depths : ∃ opened : List ℕ, s.depths = opened ++ base.entries.length :: base.depths ∧
    opened.length = n ∧ ∀ size ∈ opened, base.entries.length ≤ size

variable {base s : XmlnsStack} {n : ℕ}

theorem Inside.pushFrame (h : Inside base n s) : Inside base (n + 1) s.pushFrame := by
  obtain ⟨added, hentries⟩ := h.entries
  obtain ⟨opened, hdepths, hlen, hsize⟩ := h.depths
  refine ⟨⟨added, hentries⟩, s.entries.length :: opened, congrArg _ hdepths, congrArg _ hlen, ?_⟩
  intro size hmem
  rcases List.mem_cons.mp hmem with rfl | hmem
  · rw [hentries, List.length_append]
    exact Nat.le_add_left _ _
  · exact hsize size hmem

theorem Inside.addXmlns (h : Inside base n s) (p ns : List Uint8) : Inside base n (s.addXmlns p ns) := by
  obtain ⟨added, hentries⟩ := h.entries
  exact ⟨⟨(p, ns) :: added, congrArg _ hentries⟩, h.depths⟩

theorem Inside.addNewPrefix (h : Inside base n s) (ns : List Uint8) (isAttr : Bool) :
    Inside base n (s.addNewPrefix ns isAttr).2 := by
  unfold XmlnsStack.addNewPrefix
  split
  · exact h
  · exact h.addXmlns _ _

theorem popFrame_eq {size : ℕ} {depths : List ℕ} (h : s.depths = size :: depths) :
    s.popFrame = { entries := s.entries.drop (s.entries.length - size), depths := depths } := by
  unfold XmlnsStack.popFrame
  rw [h]

theorem Inside.popFrame (h : Inside base (n + 1) s) : s.depths ≠ [] ∧ Inside base n s.popFrame := by
  obtain ⟨added, hentries⟩ := h.entries
  obtain ⟨opened, hdepths, hlen, hsize⟩ := h.depths
  obtain ⟨size, opened, rfl⟩ := List.exists_cons_of_length_eq_add_one hlen
  rw [popFrame_eq hdepths, hdepths]
  have hle := hsize size List.mem_cons_self
  refine ⟨List.cons_ne_nil _ _, ⟨added.drop (s.entries.length - size), ?_⟩, opened, rfl,
    Nat.succ.inj hlen, fun size hmem => hsize size (List.mem_cons_of_mem _ hmem)⟩
  rw [hentries, List.length_append]
  exact List.drop_append_of_le_length (by omega)

/-- A run inside a frame stays above its base. -/
theorem Inside.run {calls : List Call} {m : ℕ} (h : Inside base n s) (hframes : frames n calls = some m) :
    ∃ s', XmlnsStack.run s calls = some s' ∧ Inside base m s' := by
  induction calls generalizing s n with
  | nil =>
    obtain rfl := Option.some_inj.mp hframes
    exact ⟨s, rfl, h⟩
  | cons call calls ih =>
    cases call with
    | pushFrame => exact ih h.pushFrame hframes
    | addXmlns p ns => exact ih (h.addXmlns p ns) (by cases n <;> exact hframes)
    | addNewPrefix ns isAttr => exact ih (h.addNewPrefix ns isAttr) (by cases n <;> exact hframes)
    | popFrame =>
      cases n with
      | zero => cases hframes
      | succ n =>
        obtain ⟨hne, hpop⟩ := h.popFrame
        obtain ⟨s', hrun, hs'⟩ := ih hpop hframes
        refine ⟨s', ?_, hs'⟩
        rw [XmlnsStack.run, Call.apply, if_neg hne]
        exact hrun

/-- **A frame that is popped leaves the stack as it was**. -/
theorem run_frame (s : XmlnsStack) {calls : List Call} (hframes : frames 0 calls = some 0) :
    run s (.pushFrame :: calls ++ [.popFrame]) = some s := by
  have hinside : Inside s 0 s.pushFrame := ⟨⟨[], rfl⟩, [], rfl, rfl, fun _ h => absurd h List.not_mem_nil⟩
  obtain ⟨s', hrun, ⟨added, hentries⟩, opened, hdepths, hlen, -⟩ := hinside.run hframes
  obtain rfl := List.eq_nil_of_length_eq_zero hlen
  have hpop : s'.popFrame = s := by
    rw [popFrame_eq hdepths, hentries, List.length_append, Nat.add_sub_cancel]
    exact congrArg (fun es => ({ entries := es, depths := s.depths } : XmlnsStack)) List.drop_left
  have hne : s'.depths ≠ [] := by
    rw [hdepths]
    exact List.cons_ne_nil _ _
  have hcalls : run s (.pushFrame :: calls) = some s' := hrun
  have hlast : run s' [.popFrame] = some s'.popFrame := by
    rw [run, Call.apply, if_neg hne]
    rfl
  rw [run_append, hcalls, Option.bind_some, hlast, hpop]

/-! ## Prefixes -/

theorem prefixForNs_addNewPrefix (s : XmlnsStack) (ns : List Uint8) (isAttr : Bool) :
    ∃ p, (s.addNewPrefix ns isAttr).2.prefixForNs ns isAttr = some p := by
  refine Option.ne_none_iff_exists'.mp ?_
  unfold XmlnsStack.addNewPrefix
  split
  · rename_i hsome
    exact Option.isSome_iff_ne_none.mp hsome
  · obtain ⟨hname, hxml, -⟩ := s.newPrefix_spec ns
    refine prefixForNs_of_mem List.mem_cons_self hname.ne_nil ?_ isAttr
    rw [nsForPrefix_addXmlns, if_pos ⟨hxml, rfl⟩]

theorem includes_addNewPrefix (s : XmlnsStack) (ns : List Uint8) (isAttr : Bool) :
    Includes s (s.addNewPrefix ns isAttr).2 := by
  unfold XmlnsStack.addNewPrefix
  split
  · exact Includes.refl s
  · exact Includes.of_fresh (s.newPrefix_spec ns).2.2

/-- **Prefixes are sound** in every stack. -/
theorem prefixes_sound (s : XmlnsStack) (ns : List Uint8) (isAttr : Bool) :
    (∀ p, s.prefixForNs ns isAttr = some p →
        isAttr = true ∧ p = [] ∧ ns = [] ∨ (isAttr = true → p ≠ []) ∧ s.nsForPrefix p = some ns) ∧
      (∃ p, (s.addNewPrefix ns isAttr).2.prefixForNs ns isAttr = some p) ∧
      (∀ q v, s.nsForPrefix q = some v → (s.addNewPrefix ns isAttr).2.nsForPrefix q = some v) ∧
      (∃ k ≤ s.entries.length, s.newPrefix ns = numbered (suggestPrefix ns) k ∧
        s.nsForPrefix (numbered (suggestPrefix ns) k) = none ∧
        ∀ j < k, (s.nsForPrefix (numbered (suggestPrefix ns) j)).isSome = true) ∧
      ∀ calls, frames 0 calls = some 0 → run s (.pushFrame :: calls ++ [.popFrame]) = some s := by
  refine ⟨fun p hp => ?_, prefixForNs_addNewPrefix s ns isAttr,
    fun q v hq => (includes_addNewPrefix s ns isAttr).stands hq, s.newPrefix_first ns,
    fun calls hframes => run_frame s hframes⟩
  rcases matches_of_prefixForNs hp with ⟨rfl, hfree⟩ | ⟨hne, hstands⟩
  · unfold unprefixed at hfree
    cases isAttr with
    | true => exact Or.inl ⟨rfl, rfl, of_decide_eq_true hfree⟩
    | false => exact Or.inr ⟨fun h => absurd h Bool.false_ne_true, prefixMatchesNs_iff.mp hfree⟩
  · exact Or.inr ⟨fun _ => hne, hstands⟩

/-- The empty prefix of an attribute does not stand for the default namespace. -/
theorem unprefixed_attribute :
    run {} [.pushFrame, .addXmlns [] (text "jabber:client")] =
        some { entries := [([], text "jabber:client")], depths := [0] } ∧
      prefixForNs { entries := [([], text "jabber:client")], depths := [0] } [] true = some [] ∧
      nsForPrefix { entries := [([], text "jabber:client")], depths := [0] } [] ≠ some [] := by
  decide

end Libjingle.Xml.XmlnsStack
