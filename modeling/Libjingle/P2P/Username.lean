import Mathlib.Data.List.GetD
import Libjingle.P2P.StunPort

/-!
# The user names of connectivity checks

Main result: **`agrees_iff`**.
-/

namespace Libjingle.P2P

open StunMessage

namespace StunPort

variable (hmac : List Uint8 → List Uint8 → List Uint8) (garbage : Uint8) (port : StunPort)

/-- `Port::CreateStunUsername`. -/
def createStunUsername (remoteUsername : List Uint8) : List Uint8 :=
  remoteUsername ++ (if port.isStandardIce then [colon] else []) ++ port.usernameFragment garbage

/-- The test of a user name: the fragment of the sender, if the rest names this port. -/
def acceptUsername (username : List Uint8) : Option (List Uint8) :=
  (port.parseStunUsername garbage username).bind fun parsed =>
    if parsed.localUfrag ≠ port.usernameFragment garbage then none else some parsed.remoteUfrag

variable {hmac garbage port} {data username : List Uint8} {addr : SocketAddress} {request : StunMessage}

/-! ## The fragment of a port -/

/-- The RTCP fragment is determined. -/
def HasNext (port : StunPort) : Prop :=
  (getNextBase64Char (port.iceUsernameFragment.getLast port.fragment_ne)).isSome

instance (port : StunPort) : Decidable port.HasNext := inferInstanceAs (Decidable (_ = _))

def Adjusts (port : StunPort) : Prop := !port.isStandardIce ∧ port.component = iceCandidateComponentRtcp

instance (port : StunPort) : Decidable port.Adjusts := inferInstanceAs (Decidable (_ ∧ _))

theorem getD_succ_spec {table : List Uint8} (hnodup : table.Nodup) (hlen : 1 < table.length) {ch : Uint8}
    (h : ch ∈ table) :
    table.getD ((table.idxOf ch + 1) % table.length) 0 ∈ table ∧
      table.getD ((table.idxOf ch + 1) % table.length) 0 ≠ ch := by
  have hindex := List.idxOf_lt_length_of_mem h
  have hnext := Nat.mod_lt (table.idxOf ch + 1) (Nat.zero_lt_of_lt hlen)
  rw [List.getD_eq_getElem _ _ hnext]
  refine ⟨List.getElem_mem hnext, fun heq => ?_⟩
  have hself : (table.idxOf ch + 1) % table.length = table.idxOf ch :=
    hnodup.getElem_inj_iff.mp (heq.trans (List.getElem_idxOf hindex).symm)
  rcases Nat.lt_or_ge (table.idxOf ch + 1) table.length with hlt | hge
  · rw [Nat.mod_eq_of_lt hlt] at hself
    omega
  · have hlast : table.idxOf ch + 1 = table.length := Nat.le_antisymm hindex hge
    rw [hlast, Nat.mod_self] at hself
    omega

theorem text_of_ofList {s : String} {l : List Char} (h : s = String.ofList l) :
    text s = l.map fun c => BitVec.ofNat 8 c.toNat := by
  rw [text, h, String.toList_ofList]

theorem base64Table_spec : (base64Table.map BitVec.toNat).Nodup ∧ 1 < base64Table.length ∧ colon ∉ base64Table := by
  have hchars : base64Table = _ := text_of_ofList rfl
  rw [hchars]
  decide +kernel

theorem getNextBase64Char_spec {ch next : Uint8} (h : getNextBase64Char ch = some next) :
    next ≠ ch ∧ next ≠ colon := by
  unfold getNextBase64Char at h
  split at h
  · rename_i hmem
    obtain ⟨hnodup, hlen, hcolon⟩ := base64Table_spec
    obtain ⟨hin, hne⟩ := getD_succ_spec hnodup.of_map hlen (List.contains_iff_mem.mp hmem)
    rw [Option.some.inj h] at hin hne
    refine ⟨hne, ?_⟩
    rintro rfl
    exact hcolon hin
  · cases h

theorem usernameFragment_of_not_adjusts (h : ¬ port.Adjusts) :
    port.usernameFragment garbage = port.iceUsernameFragment := if_neg h

theorem usernameFragment_of_adjusts (h : port.Adjusts) :
    port.usernameFragment garbage = port.iceUsernameFragment.dropLast ++
      [(getNextBase64Char (port.iceUsernameFragment.getLast port.fragment_ne)).getD garbage] := if_pos h

theorem length_usernameFragment (garbage : Uint8) (port : StunPort) :
    (port.usernameFragment garbage).length = port.iceUsernameFragment.length := by
  by_cases h : port.Adjusts
  · have hpos := List.length_pos_iff.mpr port.fragment_ne
    rw [usernameFragment_of_adjusts h, List.length_append, List.length_dropLast, List.length_singleton]
    omega
  · rw [usernameFragment_of_not_adjusts h]

theorem usernameFragment_eq (h : port.Adjusts → port.HasNext) (garbage garbage' : Uint8) :
    port.usernameFragment garbage = port.usernameFragment garbage' := by
  by_cases hadjusts : port.Adjusts
  · obtain ⟨next, hnext⟩ := Option.isSome_iff_exists.mp (h hadjusts)
    rw [usernameFragment_of_adjusts hadjusts, usernameFragment_of_adjusts hadjusts, hnext]
    rfl
  · rw [usernameFragment_of_not_adjusts hadjusts, usernameFragment_of_not_adjusts hadjusts]

theorem usernameFragment_ne (hadjusts : port.Adjusts) (h : ¬ port.HasNext) {garbage garbage' : Uint8}
    (hne : garbage ≠ garbage') : port.usernameFragment garbage ≠ port.usernameFragment garbage' := by
  rw [usernameFragment_of_adjusts hadjusts, usernameFragment_of_adjusts hadjusts,
    Option.not_isSome_iff_eq_none.mp h]
  intro heq
  exact hne (List.singleton_inj.mp (List.append_cancel_left heq))

theorem exists_ne_byte (ch : Uint8) : ∃ garbage : Uint8, garbage ≠ ch := by
  by_cases h : ch = 0
  · exact ⟨1, by rw [h]; decide⟩
  · exact ⟨0, Ne.symm h⟩

theorem usernameFragment_ne_self (hadjusts : port.Adjusts) :
    ∃ garbage, port.usernameFragment garbage ≠ port.iceUsernameFragment := by
  obtain ⟨garbage, hgarbage⟩ := exists_ne_byte (port.iceUsernameFragment.getLast port.fragment_ne)
  refine ⟨garbage, ?_⟩
  rw [usernameFragment_of_adjusts hadjusts]
  intro heq
  have hlast : (getNextBase64Char (port.iceUsernameFragment.getLast port.fragment_ne)).getD garbage =
      port.iceUsernameFragment.getLast port.fragment_ne := by
    refine List.singleton_inj.mp (List.append_cancel_left (heq.trans ?_))
    exact (List.dropLast_append_getLast port.fragment_ne).symm
  cases hnext : getNextBase64Char (port.iceUsernameFragment.getLast port.fragment_ne) with
  | none => exact hgarbage (by rwa [hnext] at hlast)
  | some next => exact (getNextBase64Char_spec hnext).1 (by rwa [hnext] at hlast)

theorem colon_notMem_usernameFragment (hcolon : colon ∉ port.iceUsernameFragment)
    (hgarbage : port.Adjusts → ¬ port.HasNext → garbage ≠ colon) :
    colon ∉ port.usernameFragment garbage := by
  by_cases hadjusts : port.Adjusts
  · rw [usernameFragment_of_adjusts hadjusts, List.mem_append, List.mem_singleton]
    rintro (hmem | hlast)
    · exact hcolon (List.mem_of_mem_dropLast hmem)
    · cases hnext : getNextBase64Char (port.iceUsernameFragment.getLast port.fragment_ne) with
      | none =>
        rw [hnext] at hlast
        exact hgarbage hadjusts (Option.not_isSome_iff_eq_none.mpr hnext) hlast.symm
      | some next =>
        rw [hnext] at hlast
        exact (getNextBase64Char_spec hnext).2 hlast.symm
  · rwa [usernameFragment_of_not_adjusts hadjusts]

/-! ## The two styles -/

theorem acceptUsername_colon (hprotocol : port.iceProtocol ≠ .google) {localUfrag remoteUfrag : List Uint8}
    (hcolon : colon ∉ localUfrag) :
    port.acceptUsername garbage (localUfrag ++ [colon] ++ remoteUfrag) =
      if localUfrag ≠ port.usernameFragment garbage then none else some remoteUfrag := by
  have hcontains : (localUfrag ++ colon :: remoteUfrag).contains colon = true := by
    rw [List.contains_iff_mem, List.mem_append]
    exact .inr List.mem_cons_self
  have htype : port.remoteProtocolType (localUfrag ++ colon :: remoteUfrag) = .rfc5245 := by
    unfold remoteProtocolType
    rw [hcontains]
    cases hport : port.iceProtocol <;> simp_all [Port.isHybridIce]
  have hbefore : ∀ ch ∈ localUfrag, decide (ch ≠ colon) = true := by
    intro ch hch
    exact decide_eq_true fun heq => hcolon (heq ▸ hch)
  rw [List.append_assoc, List.singleton_append]
  unfold acceptUsername parseStunUsername
  rw [htype]
  dsimp only
  rw [if_pos hcontains, List.takeWhile_append_of_pos hbefore, List.dropWhile_append_of_pos hbefore]
  simp

theorem acceptUsername_google {localUfrag remoteUfrag : List Uint8}
    (htype : port.remoteProtocolType (localUfrag ++ remoteUfrag) = .google)
    (hlength : localUfrag.length = port.iceUsernameFragment.length) :
    port.acceptUsername garbage (localUfrag ++ remoteUfrag) =
      if localUfrag ≠ port.usernameFragment garbage then none else some remoteUfrag := by
  unfold acceptUsername parseStunUsername
  rw [htype]
  dsimp only
  rw [length_usernameFragment, ← hlength, if_neg (by simp), List.take_left, List.drop_left]
  rfl

/-! ## Agreement -/

def Agrees (l r : StunPort) : Prop :=
  ∀ garbage garbage' garbage'' garbage''' : Uint8,
    r.acceptUsername garbage'' (l.createStunUsername garbage
      ((r.setIceProtocolType l.iceProtocol).usernameFragment garbage')) =
        some (l.usernameFragment garbage''')

def Agreeable (l r : StunPort) : Prop :=
  l.component = iceCandidateComponentRtcp →
    (l.isStandardIce → ¬ r.isHybridIce) ∧ (¬ l.isStandardIce → l.HasNext ∧ r.HasNext)

instance (l r : StunPort) : Decidable (Agreeable l r) := inferInstanceAs (Decidable (_ → _))

variable {l r : StunPort}

/-- **Two ports agree in RFC 5245 mode** unless one changes its fragment in hybrid mode. -/
theorem agrees_rfc5245 (hl : l.iceProtocol = .rfc5245)
    (hmode : r.iceProtocol = l.iceProtocol ∨ r.iceProtocol = .hybrid)
    (hcolon : colon ∉ r.iceUsernameFragment) :
    Agrees l r ↔ (r.component = iceCandidateComponentRtcp → ¬ r.isHybridIce) := by
  have hstandard : l.isStandardIce = true := by simp [Port.isStandardIce, hl]
  have hprotocol : r.iceProtocol ≠ .google := by
    rcases hmode with h | h <;> rw [h]
    · rw [hl]
      decide
    · decide
  have hlocal (garbage : Uint8) : l.usernameFragment garbage = l.iceUsernameFragment :=
    usernameFragment_of_not_adjusts fun h => by simp [Adjusts, hstandard] at h
  have hremote (garbage : Uint8) :
      (r.setIceProtocolType l.iceProtocol).usernameFragment garbage = r.iceUsernameFragment := by
    refine usernameFragment_of_not_adjusts fun h => ?_
    simp [Adjusts, setIceProtocolType, Port.isStandardIce, hl] at h
  have haccept (garbage garbage' garbage'' : Uint8) :
      r.acceptUsername garbage'' (l.createStunUsername garbage
        ((r.setIceProtocolType l.iceProtocol).usernameFragment garbage')) =
          if r.iceUsernameFragment ≠ r.usernameFragment garbage'' then none
          else some l.iceUsernameFragment := by
    rw [createStunUsername, hremote, hlocal, if_pos hstandard, acceptUsername_colon hprotocol hcolon]
  constructor
  · intro hagrees hrtcp hhybrid
    have hadjusts : r.Adjusts := ⟨by simp_all [Port.isHybridIce, Port.isStandardIce], hrtcp⟩
    obtain ⟨garbage, hne⟩ := usernameFragment_ne_self hadjusts
    have hrefused := hagrees 0 0 garbage 0
    rw [haccept, if_pos hne.symm] at hrefused
    cases hrefused
  · intro hrtcp garbage garbage' garbage'' garbage'''
    have hnot : ¬ r.Adjusts := by
      rintro ⟨hnot, hcomponent⟩
      rcases hmode with h | h
      · simp [Port.isStandardIce, h, hl] at hnot
      · exact hrtcp hcomponent (by simp [Port.isHybridIce, h])
    rw [haccept, if_neg (by rw [usernameFragment_of_not_adjusts hnot]; exact not_not.mpr rfl), hlocal]

theorem agrees_google (hl : l.iceProtocol = .google) (hmode : r.iceProtocol = l.iceProtocol ∨ r.iceProtocol = .hybrid)
    (hcomponent : r.component = l.component) (hcolonLocal : colon ∉ l.iceUsernameFragment)
    (hcolon : colon ∉ r.iceUsernameFragment) :
    Agrees l r ↔ (l.component = iceCandidateComponentRtcp → l.HasNext ∧ r.HasNext) := by
  have hstandard : l.isStandardIce = false := by simp [Port.isStandardIce, hl]
  have hstandardRemote : r.isStandardIce = false := by
    rcases hmode with h | h <;> simp [Port.isStandardIce, h, hl]
  have hremote (garbage : Uint8) :
      (r.setIceProtocolType l.iceProtocol).usernameFragment garbage = r.usernameFragment garbage := by
    unfold usernameFragment
    rw [hstandardRemote]
    simp [setIceProtocolType, Port.isStandardIce, hl]
  have haccept (garbage garbage' garbage'' : Uint8)
      (hl' : l.Adjusts → ¬ l.HasNext → garbage ≠ colon)
      (hr' : r.Adjusts → ¬ r.HasNext → garbage' ≠ colon) :
      r.acceptUsername garbage'' (l.createStunUsername garbage
        ((r.setIceProtocolType l.iceProtocol).usernameFragment garbage')) =
          if r.usernameFragment garbage' ≠ r.usernameFragment garbage'' then none
          else some (l.usernameFragment garbage) := by
    rw [createStunUsername, hremote, hstandard, if_neg Bool.false_ne_true, List.append_nil]
    refine acceptUsername_google ?_ (length_usernameFragment garbage' r)
    unfold remoteProtocolType
    rcases hmode with h | h
    · simp [Port.isHybridIce, h, hl]
    · have hnone : (r.usernameFragment garbage' ++ l.usernameFragment garbage).contains colon = false := by
        rw [← Bool.not_eq_true, List.contains_iff_mem, List.mem_append, not_or]
        exact ⟨colon_notMem_usernameFragment hcolon hr', colon_notMem_usernameFragment hcolonLocal hl'⟩
      rw [hnone]
      simp [Port.isHybridIce, h]
  constructor
  · intro hagrees hrtcp
    have hadjusts : l.Adjusts := ⟨by simp [hstandard], hrtcp⟩
    have hadjustsRemote : r.Adjusts := ⟨by simp [hstandardRemote], hcomponent.trans hrtcp⟩
    constructor
    · by_contra hnext
      refine usernameFragment_ne hadjusts hnext (by decide : (0 : Uint8) ≠ 1) ?_
      exact Option.some.inj ((hagrees 0 0 0 0).symm.trans (hagrees 0 0 0 1))
    · by_contra hnext
      have hrefused := hagrees 0 1 0 0
      rw [haccept 0 1 0 (fun _ _ => by decide) (fun _ _ => by decide),
        if_pos (usernameFragment_ne hadjustsRemote hnext (by decide))] at hrefused
      cases hrefused
  · intro hnext garbage garbage' garbage'' garbage'''
    have hl' : l.Adjusts → l.HasNext := fun h => (hnext h.2).1
    have hr' : r.Adjusts → r.HasNext := fun h => (hnext (hcomponent ▸ h.2)).2
    rw [haccept garbage garbage' garbage'' (fun h hnot => absurd (hl' h) hnot)
      (fun h hnot => absurd (hr' h) hnot), if_neg (not_not.mpr (usernameFragment_eq hr' _ _)),
      usernameFragment_eq hl' garbage garbage''']

/-- **When the user names of checks agree**, for ports of one component in compatible modes. -/
theorem agrees_iff (l r : StunPort) (hl : ¬ l.isHybridIce)
    (hmode : r.iceProtocol = l.iceProtocol ∨ r.iceProtocol = .hybrid)
    (hcomponent : r.component = l.component) (hcolonLocal : colon ∉ l.iceUsernameFragment)
    (hcolon : colon ∉ r.iceUsernameFragment) :
    Agrees l r ↔ Agreeable l r := by
  cases hprotocol : l.iceProtocol with
  | hybrid => exact absurd (by simp [Port.isHybridIce, hprotocol]) hl
  | rfc5245 =>
    rw [agrees_rfc5245 hprotocol hmode hcolon, hcomponent]
    simp [Agreeable, Port.isStandardIce, hprotocol]
  | google =>
    rw [agrees_google hprotocol hmode hcomponent hcolonLocal hcolon]
    simp [Agreeable, Port.isStandardIce, hprotocol]

section Example

def exampleRtcpPort (protocol : IceProtocolType) (ufrag : List Uint8) (h : ufrag ≠ []) : StunPort :=
  { exampleStunPort with
    component := iceCandidateComponentRtcp
    iceProtocol := protocol
    iceUsernameFragment := ufrag
    fragment_ne := h }

/-- A check of Google ICE to a port in hybrid mode. -/
theorem agrees_iff_google :
    Agrees (exampleRtcpPort .google (text "peer") (by decide))
      (exampleRtcpPort .hybrid (text "user") (by decide)) :=
  (agrees_iff (exampleRtcpPort .google (text "peer") (by decide))
    (exampleRtcpPort .hybrid (text "user") (by decide)) (by decide) (by decide) (by decide)
    (by decide) (by decide)).mpr (by decide)

/-- **A check of RFC 5245 is refused by a port in hybrid mode**. -/
theorem agrees_rfc5245_hybrid :
    let l := exampleRtcpPort .rfc5245 (text "peer") (by decide)
    let r := exampleRtcpPort .hybrid (text "user") (by decide)
    l.createStunUsername 0 ((r.setIceProtocolType .rfc5245).usernameFragment 0) = text "user:peer" ∧
      r.acceptUsername 0 (text "user:peer") = none ∧
      r.acceptUsername 0 (text "uses:peer") = some (text "peer") ∧ ¬ Agrees l r := by
  refine ⟨by decide, by decide, by decide, ?_⟩
  intro hagrees
  exact absurd (hagrees 0 0 0 0) (by decide)

end Example

end StunPort

end Libjingle.P2P
