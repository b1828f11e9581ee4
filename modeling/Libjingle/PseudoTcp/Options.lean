import Libjingle.Lib.Reading
import Libjingle.Fifo.Queue
import Libjingle.PseudoTcp.Window

/-!
# The options of a CONNECT

Main results: **`readOptions_eq`**, **`parseOptions_scale`**, **`parseOptions_fallsBack`**,
**`decodesScale_iff`**.
-/

namespace Libjingle

open Lib

/-- An option: its kind and its content. -/
structure OptionField where
  kind : Uint8
  content : List Uint8
  deriving DecidableEq

/-- How a list of options ends: well, without a length, or with one that leads beyond the end. -/
inductive OptionsEnd where
  | finished
  | bare (kind : Uint8)
  | truncated
  deriving DecidableEq

/-- The complete options, and how the bytes end. -/
def splitOptions : ℕ → List Uint8 → List OptionField × OptionsEnd
  | 0, _ => ([], .finished)
  | _ + 1, [] => ([], .finished)
  | fuel + 1, kind :: buf =>
    if kind = tcpOptEol then ([], .finished)
    else if kind = tcpOptNoop then splitOptions fuel buf
    else
      match buf with
      | [] => ([], .bare kind)
      | optLen :: rest =>
        if optLen.toNat ≤ rest.length then
          let r := splitOptions fuel (rest.drop optLen.toNat)
          (⟨kind, rest.take optLen.toNat⟩ :: r.1, r.2)
        else ([], .truncated)

def completeOptions (data : List Uint8) : List OptionField := (splitOptions data.length data).1

def optionsEnd (data : List Uint8) : OptionsEnd := (splitOptions data.length data).2

def OptionField.IsScale (o : OptionField) : Prop := o.kind = tcpOptWndScale ∧ o.content.length = 1

instance (o : OptionField) : Decidable o.IsScale := inferInstanceAs (Decidable (_ ∧ _))

def scaleAfter (scale : Uint8) (options : List OptionField) : Uint8 :=
  options.foldl (fun scale o => if o.IsScale then o.content.headD 0 else scale) scale

def OptionsEnd.kinds (seen : List Uint8) : OptionsEnd → Option (List Uint8)
  | .finished => some seen
  | .bare kind => some (kind :: seen)
  | .truncated => none

namespace PseudoTcp

variable {s : PseudoTcp} {data : List Uint8}

/-! ## The loop -/

theorem parseOptionsLoop_nil (fuel : ℕ) (kinds : List Uint8) (s : PseudoTcp) :
    parseOptionsLoop fuel [] kinds s = (s, some kinds) := by
  cases fuel <;> rfl

theorem applyOption_eq (s : PseudoTcp) (kind : Uint8) (content : List Uint8) :
    s.applyOption kind content =
      { s with snd.swndScale := scaleAfter s.snd.swndScale [⟨kind, content⟩] } := by
  rw [scaleAfter, List.foldl_cons, List.foldl_nil]
  by_cases h : OptionField.IsScale ⟨kind, content⟩
  · rw [if_pos h]
    exact if_pos h
  · rw [if_neg h]
    exact if_neg h

theorem applyOption_nil (s : PseudoTcp) (kind : Uint8) : s.applyOption kind [] = s :=
  if_neg fun h => absurd h.2 (by decide)

theorem parseOptionsLoop_eq {fuel : ℕ} {buf : List Uint8} (hfuel : buf.length ≤ fuel) (kinds : List Uint8)
    (s : PseudoTcp) :
    parseOptionsLoop fuel buf kinds s =
      let r := splitOptions fuel buf
      ({ s with snd.swndScale := scaleAfter s.snd.swndScale r.1 },
        r.2.kinds ((r.1.map OptionField.kind).reverse ++ kinds)) := by
  induction fuel generalizing buf kinds s with
  | zero => rfl
  | succ fuel ih =>
    cases buf with
    | nil => rfl
    | cons kind buf =>
      have hlen : buf.length ≤ fuel := Nat.le_of_succ_le_succ hfuel
      simp only [parseOptionsLoop, splitOptions]
      by_cases heol : kind = tcpOptEol
      · rw [if_pos heol, if_pos heol]
        rfl
      by_cases hnoop : kind = tcpOptNoop
      · rw [if_neg heol, if_neg heol, if_pos hnoop, if_pos hnoop]
        exact ih hlen kinds s
      rw [if_neg heol, if_neg heol, if_neg hnoop, if_neg hnoop]
      cases buf with
      | nil =>
        have hzero : (([] : List Uint8).headD 0).toNat ≤ (([] : List Uint8).drop 1).length := le_rfl
        rw [if_pos hzero, List.drop_nil, List.drop_nil, List.take_nil, parseOptionsLoop_nil, applyOption_nil]
        rfl
      | cons optLen rest =>
        simp only [List.headD_cons, List.drop_one, List.tail_cons]
        have hrest : (rest.drop optLen.toNat).length ≤ fuel := by
          rw [List.length_drop]
          exact (Nat.sub_le _ _).trans ((Nat.le_succ _).trans hlen)
        split_ifs
        · rw [ih hrest, applyOption_eq]
          simp only [List.map_cons, List.reverse_cons, List.append_assoc, List.singleton_append]
          rfl
        · rfl

theorem parseOptionsLoop_data (s : PseudoTcp) (data : List Uint8) :
    parseOptionsLoop data.length data [] s =
      ({ s with snd.swndScale := scaleAfter s.snd.swndScale (completeOptions data) },
        (optionsEnd data).kinds (((completeOptions data).map OptionField.kind).reverse ++ [])) :=
  parseOptionsLoop_eq (le_refl data.length) [] s

/-! ## The bytes of the buffer -/

def readOption (kind optLen : Uint8) (p : ℕ) (s : PseudoTcp) : Lib.Reading Uint8 PseudoTcp :=
  if kind = tcpOptWndScale ∧ optLen = 1 then do
    let scale ← Lib.Reading.cell p
    pure { s with snd.swndScale := scale }
  else pure s

def readLength (size p : ℕ) : Lib.Reading Uint8 Uint8 := if p = size then pure 0 else Lib.Reading.cell p

/-- The loop of `parseOptions` from `start` on; `none` without fuel. -/
def readOptions (size : ℕ) : ℕ → ℕ → List Uint8 → PseudoTcp →
    Lib.Reading Uint8 (Option (PseudoTcp × Option (List Uint8)))
  | 0, _, _, _ => pure none
  | fuel + 1, start, kinds, s =>
    if start = size then pure (some (s, some kinds))
    else do
      let kind ← Lib.Reading.cell start
      if kind = tcpOptEol then pure (some (s, some kinds))
      else if kind = tcpOptNoop then readOptions size fuel (start + 1) kinds s
      else do
        let optLen ← readLength size (start + 1)
        let start := min (start + 2) size
        if optLen.toNat ≤ size - start then do
          let s ← readOption kind optLen start s
          readOptions size fuel (start + optLen.toNat) (kind :: kinds) s
        else pure (some (s, none))

theorem block_ptr (data : List Uint8) : block (ptr data) 0 data.length = data := by
  refine List.ext_getElem (length_block _ _ _) fun i _ hi => ?_
  rw [getElem_block, Nat.zero_add]
  exact (List.getElem_eq_getD 0).symm

theorem block_succ (m : ℕ → Uint8) (p n : ℕ) : block m p (n + 1) = m p :: block m (p + 1) n := by
  rw [Nat.add_comm, block_add]
  rfl

theorem value_readOption (m : ℕ → Uint8) (kind optLen : Uint8) (p : ℕ) (s : PseudoTcp) :
    (readOption kind optLen p s m).1 = s.applyOption kind (block m p optLen.toNat) := by
  have hone : (block m p optLen.toNat).length = 1 ↔ optLen = 1 := by
    rw [length_block, ← BitVec.toNat_inj]
    rfl
  by_cases h : kind = tcpOptWndScale ∧ optLen = 1
  · rw [readOption, if_pos h, applyOption, if_pos ⟨h.1, hone.mpr h.2⟩, h.2]
    rfl
  · rw [readOption, if_neg h, applyOption, if_neg fun h' => h ⟨h'.1, hone.mp h'.2⟩]
    rfl

theorem readOption_inside {m : ℕ → Uint8} {kind optLen : Uint8} {p size : ℕ}
    (h : p + optLen.toNat ≤ size) : ∀ q ∈ (readOption kind optLen p s m).2, q < size := by
  unfold readOption
  split_ifs with hscale
  · intro q hq
    have hone : optLen.toNat = 1 := by rw [hscale.2]; rfl
    have hp : q = p := by simpa using hq
    omega
  · exact fun q hq => absurd hq List.not_mem_nil

theorem readLength_eq (m : ℕ → Uint8) {size p : ℕ} (hp : p ≤ size) :
    (readLength size p m).1 = (block m p (size - p)).headD 0 ∧ ∀ q ∈ (readLength size p m).2, q < size := by
  unfold readLength
  split_ifs with hend
  · rw [hend, Nat.sub_self]
    exact ⟨rfl, fun q hq => absurd hq List.not_mem_nil⟩
  · obtain ⟨n, hn⟩ : ∃ n, size - p = n + 1 := Nat.exists_eq_succ_of_ne_zero (by omega)
    rw [hn, block_succ]
    refine ⟨rfl, fun q hq => ?_⟩
    rw [List.mem_singleton.mp hq]
    omega

theorem readOptions_eq (m : ℕ → Uint8) {size fuel start : ℕ} (hstart : start ≤ size)
    (hfuel : size - start < fuel) {rounds : ℕ} (hrounds : size - start ≤ rounds) (kinds : List Uint8)
    (s : PseudoTcp) :
    (readOptions size fuel start kinds s m).1 =
        some (parseOptionsLoop rounds (block m start (size - start)) kinds s) ∧
      ∀ p ∈ (readOptions size fuel start kinds s m).2, p < size := by
  induction fuel generalizing start rounds kinds s with
  | zero => omega
  | succ fuel ih =>
    by_cases hend : start = size
    · rw [readOptions, if_pos hend, hend, Nat.sub_self, block_zero, parseOptionsLoop_nil]
      exact ⟨rfl, fun p hp => absurd hp List.not_mem_nil⟩
    obtain ⟨n, hn⟩ : ∃ n, size - start = n + 1 := Nat.exists_eq_succ_of_ne_zero (by omega)
    obtain ⟨k, rfl⟩ : ∃ k, rounds = k + 1 := Nat.exists_eq_succ_of_ne_zero (by omega)
    have hn' : size - (start + 1) = n := by omega
    rw [hn, block_succ, readOptions, if_neg hend,
      Lib.Reading.bind_of_eq (rfl : Lib.Reading.cell start m = (m start, [start])), parseOptionsLoop]
    dsimp only
    by_cases heol : m start = tcpOptEol
    · rw [if_pos heol, if_pos heol]
      refine ⟨rfl, fun p hp => ?_⟩
      rw [Lib.Reading.reads_pure, List.append_nil, List.mem_singleton] at hp
      omega
    by_cases hnoop : m start = tcpOptNoop
    · obtain ⟨h1, h2⟩ := ih (show start + 1 ≤ size by omega) (by omega)
        (show size - (start + 1) ≤ k by omega) kinds s
      rw [hn'] at h1
      rw [if_neg heol, if_neg heol, if_pos hnoop, if_pos hnoop]
      refine ⟨h1, fun p hp => ?_⟩
      rcases List.mem_append.mp hp with hp | hp
      · rw [List.mem_singleton.mp hp]
        omega
      · exact h2 p hp
    obtain ⟨hlen, hlenIn⟩ := readLength_eq m (show start + 1 ≤ size by omega)
    have hrest : (block m (start + 1) n).drop 1 = block m (min (start + 2) size) (size - min (start + 2) size) := by
      rw [drop_block]
      by_cases hlast : start + 2 ≤ size
      · rw [Nat.min_eq_left hlast, show size - (start + 2) = n - 1 by omega]
      · rw [show n - 1 = 0 by omega, Nat.min_eq_right (by omega), Nat.sub_self, block_zero, block_zero]
    have hstart' : min (start + 2) size ≤ size := Nat.min_le_right _ _
    have hfuel' : size - min (start + 2) size < fuel := by omega
    have hrounds' : size - min (start + 2) size ≤ k := by omega
    rw [hn'] at hlen
    rw [if_neg heol, if_neg heol, if_neg hnoop, if_neg hnoop, hrest, length_block,
      Lib.Reading.bind_of_eq (Prod.mk.eta (p := readLength size (start + 1) m)).symm, hlen]
    dsimp only
    generalize (block m (start + 1) n).headD 0 = optLen
    generalize min (start + 2) size = start' at hstart' hfuel' hrounds'
    by_cases hfits : optLen.toNat ≤ size - start'
    · rw [if_pos hfits, if_pos hfits]
      simp only [Lib.Reading.value_bind, Lib.Reading.reads_bind, value_readOption]
      obtain ⟨h1, h2⟩ := ih (show start' + optLen.toNat ≤ size by omega) (by omega)
        (show size - (start' + optLen.toNat) ≤ k by omega) (m start :: kinds) (s.applyOption (m start) (block m start' optLen.toNat))
      rw [drop_block, FifoBuffer.take_block, Nat.min_eq_left hfits, Nat.sub_sub]
      refine ⟨h1, fun p hp => ?_⟩
      rcases List.mem_append.mp hp with hp | hp
      · rw [List.mem_singleton.mp hp]
        omega
      rcases List.mem_append.mp hp with hp | hp
      · exact hlenIn p hp
      rcases List.mem_append.mp hp with hp | hp
      · exact readOption_inside (by omega) p hp
      · exact h2 p hp
    · rw [if_neg hfits, if_neg hfits]
      refine ⟨rfl, fun p hp => ?_⟩
      rcases List.mem_append.mp hp with hp | hp
      · rw [List.mem_singleton.mp hp]
        omega
      · rw [Lib.Reading.reads_pure, List.append_nil] at hp
        exact hlenIn p hp

/-! ## What `parseOptions` does -/

def LacksScale (data : List Uint8) : Prop := ∀ o ∈ completeOptions data, o.kind ≠ tcpOptWndScale

/-- The end of the options hides no window scale. -/
def EndsClean (data : List Uint8) : Prop :=
  optionsEnd data ≠ .truncated ∧ optionsEnd data ≠ .bare tcpOptWndScale

theorem kinds_lack (seen : List Uint8) (e : OptionsEnd) (kind : Uint8) :
    (∃ kinds, e.kinds seen = some kinds ∧ kind ∉ kinds) ↔
      kind ∉ seen ∧ e ≠ .truncated ∧ e ≠ .bare kind := by
  cases e with
  | finished => simp only [OptionsEnd.kinds, Option.some.injEq, exists_eq_left', ne_eq, reduceCtorEq,
      not_false_eq_true, and_true]
  | bare last =>
    simp only [OptionsEnd.kinds, Option.some.injEq, exists_eq_left', List.mem_cons, not_or, ne_eq,
      reduceCtorEq, not_false_eq_true, true_and, OptionsEnd.bare.injEq]
    rw [and_comm, eq_comm]
  | truncated => simp only [OptionsEnd.kinds, reduceCtorEq, false_and, exists_false, ne_eq, not_true,
      and_false]

/-- The options lead back to the default buffer. -/
def FallsBack (s : PseudoTcp) (data : List Uint8) : Prop :=
  0 < s.rcv.rwndScale ∧ LacksScale data ∧ EndsClean data

theorem fallsBack_iff : s.FallsBack data ↔ 0 < s.rcv.rwndScale ∧
    ∃ kinds, (optionsEnd data).kinds (((completeOptions data).map OptionField.kind).reverse ++ []) =
      some kinds ∧ tcpOptWndScale ∉ kinds := by
  rw [kinds_lack, FallsBack, LacksScale, EndsClean]
  simp only [List.append_nil, List.mem_reverse, List.mem_map, not_exists, not_and]

/-- **The last window scale counts**. -/
theorem parseOptions_scale (h : ¬ s.FallsBack data) : s.parseOptions data =
    { s with snd.swndScale := scaleAfter s.snd.swndScale (completeOptions data) } := by
  rw [fallsBack_iff, not_and, not_exists] at h
  unfold parseOptions
  rw [parseOptionsLoop_data]
  split
  · next t kinds heq =>
    obtain ⟨rfl, hkinds⟩ := Prod.mk.inj heq
    rw [if_neg fun hc => h hc.2 kinds ⟨hkinds, hc.1⟩]
  · next t heq => exact (Prod.mk.inj heq).1.symm

/-- Without one, both ends fall back to unscaled windows. -/
theorem parseOptions_fallsBack (h : s.FallsBack data) : s.parseOptions data =
    { s.resizeReceiveBuffer defaultRcvBufSize with snd.swndScale := 0 } := by
  obtain ⟨hpos, kinds, hkinds, hlacks⟩ := fallsBack_iff.mp h
  unfold parseOptions
  rw [parseOptionsLoop_data, hkinds]
  dsimp only
  rw [if_pos ⟨hlacks, hpos⟩]
  simp only [resizeReceiveBuffer_eq]

/-! ## What the options should do -/

def Reverted (s t : PseudoTcp) : Prop :=
  t.rcv = (s.resizeReceiveBuffer defaultRcvBufSize).rcv ∧ t.faults = s.faults

/-- **What the options of a CONNECT should do.** -/
structure DecodesScale (s : PseudoTcp) (data : List Uint8) : Prop where
  reads : let r := readOptions data.length (data.length + 1) 0 [] s (ptr data)
    r.1 = some (parseOptionsLoop data.length data [] s) ∧ ∀ p ∈ r.2, p < data.length
  exact : ∀ seg : Segment, ((s.parseOptions data).announcedWindow seg).toNat =
    seg.wnd.toNat * 2 ^ (s.parseOptions data).snd.swndScale.toNat
  changes : (s.parseOptions data).snd.swndScale = s.snd.swndScale ∨
    ⟨tcpOptWndScale, [(s.parseOptions data).snd.swndScale]⟩ ∈ completeOptions data
  reverts : 0 < s.rcv.rwndScale ∧ LacksScale data → Reverted s (s.parseOptions data)
  keeps : ¬ (0 < s.rcv.rwndScale ∧ LacksScale data) → (s.parseOptions data).rcv = s.rcv

def ScaleSound (s : PseudoTcp) (data : List Uint8) : Prop :=
  (0 < s.rcv.rwndScale ∧ LacksScale data →
      EndsClean data ∧ s.rcv.rbuf.dataLength ≤ defaultRcvBufSize.toNat ∧ s.snd.swndScale = 0) ∧
    (¬ (0 < s.rcv.rwndScale ∧ LacksScale data) →
      (scaleAfter s.snd.swndScale (completeOptions data)).toNat ≤ 16)

theorem scaled_iff (s : PseudoTcp) :
    (∀ seg : Segment, (s.announcedWindow seg).toNat = seg.wnd.toNat * 2 ^ s.snd.swndScale.toNat) ↔
      s.snd.swndScale.toNat ≤ 16 := by
  have hwindow (seg : Segment) :
      (s.announcedWindow seg).toNat = seg.wnd.toNat * 2 ^ s.snd.swndScale.toNat % 2 ^ 32 := by
    rw [announcedWindow, BitVec.toNat_shiftLeft, Nat.shiftLeft_eq, BitVec.toNat_setWidth_of_le (by decide)]
  constructor
  · intro h
    by_contra hlarge
    have hfull : 65535 * 2 ^ s.snd.swndScale.toNat % 2 ^ 32 = 65535 * 2 ^ s.snd.swndScale.toNat := by
      have := h { dataSegment 0 [] with wnd := 65535 }
      rwa [hwindow] at this
    have hlt := Nat.mod_lt (65535 * 2 ^ s.snd.swndScale.toNat) (show 2 ^ 32 > 0 by decide)
    have hpow : 2 ^ 17 ≤ 2 ^ s.snd.swndScale.toNat := Nat.pow_le_pow_right (by decide) (by omega)
    omega
  · intro h seg
    have hpow : 2 ^ s.snd.swndScale.toNat ≤ 2 ^ 16 := Nat.pow_le_pow_right (by decide) h
    have hwnd : seg.wnd.toNat < 2 ^ 16 := seg.wnd.isLt
    rw [hwindow, Nat.mod_eq_of_lt]
    calc seg.wnd.toNat * 2 ^ s.snd.swndScale.toNat ≤ seg.wnd.toNat * 2 ^ 16 := Nat.mul_le_mul_left _ hpow
      _ < 2 ^ 16 * 2 ^ 16 := Nat.mul_lt_mul_of_pos_right hwnd (by decide)

theorem scaleAfter_mem (scale : Uint8) (options : List OptionField) :
    scaleAfter scale options = scale ∨ ⟨tcpOptWndScale, [scaleAfter scale options]⟩ ∈ options := by
  induction options generalizing scale with
  | nil => exact .inl rfl
  | cons o options ih =>
    have hcons : scaleAfter scale (o :: options) =
        scaleAfter (if o.IsScale then o.content.headD 0 else scale) options := rfl
    rw [hcons]
    rcases ih (if o.IsScale then o.content.headD 0 else scale) with hkept | hmem
    · rw [hkept]
      by_cases h : o.IsScale
      · obtain ⟨x, hx⟩ := List.length_eq_one_iff.mp h.2
        have ho : o = ⟨tcpOptWndScale, [x]⟩ := by rw [← h.1, ← hx]
        rw [if_pos h, hx, ho]
        exact .inr List.mem_cons_self
      · rw [if_neg h]
        exact .inl rfl
    · exact .inr (List.mem_cons_of_mem o hmem)

/-- **The options do what they should exactly if they are sound.** -/
theorem decodesScale_iff (s : PseudoTcp) (data : List Uint8) : DecodesScale s data ↔ ScaleSound s data := by
  have hresize : (s.resizeReceiveBuffer defaultRcvBufSize).rcv.rwndScale = 0 ∧
      ((s.resizeReceiveBuffer defaultRcvBufSize).faults = s.faults ↔
        s.rcv.rbuf.dataLength ≤ defaultRcvBufSize.toNat) := by
    have hscale : (scaleDown 16 defaultRcvBufSize 0).2 = 0 := by decide
    have hsize : (scaledSize defaultRcvBufSize).toNat = defaultRcvBufSize.toNat := by decide
    rw [resizeReceiveBuffer_eq]
    refine ⟨hscale, ?_⟩
    rw [hsize]
    have hfits : (s.rcv.rbuf.setCapacity defaultRcvBufSize.toNat s.heap).1 = true ↔
        s.rcv.rbuf.dataLength ≤ defaultRcvBufSize.toNat := by
      unfold FifoBuffer.setCapacity
      split_ifs with hdata
      · exact ⟨fun h => absurd h (by decide), fun h => absurd hdata (not_lt.mpr h)⟩
      all_goals exact ⟨fun _ => not_lt.mp hdata, fun _ => rfl⟩
    rw [← hfits]
    generalize s.rcv.rbuf.setCapacity defaultRcvBufSize.toNat s.heap = r
    obtain ⟨ok, rbuf⟩ := r
    cases ok <;> simp
  constructor
  · intro h
    by_cases hdue : 0 < s.rcv.rwndScale ∧ LacksScale data
    · refine ⟨fun _ => ?_, fun hnot => absurd hdue hnot⟩
      obtain ⟨hrcv, hfaults⟩ := h.reverts hdue
      have hclean : EndsClean data := by
        by_contra hclean
        rw [parseOptions_scale fun hback => hclean hback.2.2] at hrcv
        have hzero : s.rcv.rwndScale = 0 := (congrArg Incoming.rwndScale hrcv).trans hresize.1
        exact absurd hdue.1 (by rw [hzero]; decide)
      have hback : s.FallsBack data := ⟨hdue.1, hdue.2, hclean⟩
      have hchanges := h.changes
      rw [parseOptions_fallsBack hback] at hfaults hchanges
      refine ⟨hclean, hresize.2.mp hfaults, ?_⟩
      rcases hchanges with hsame | hmem
      · exact hsame.symm
      · exact absurd rfl (hdue.2 _ hmem)
    · refine ⟨fun hdue' => absurd hdue' hdue, fun _ => ?_⟩
      have hscaled := (scaled_iff _).mp h.exact
      rwa [parseOptions_scale fun hback => hdue ⟨hback.1, hback.2.1⟩] at hscaled
  · rintro ⟨hdue, hother⟩
    have hreads := readOptions_eq (ptr data) (Nat.zero_le data.length) (Nat.lt_succ_self _) le_rfl [] s
    rw [Nat.sub_zero, block_ptr] at hreads
    by_cases hcase : 0 < s.rcv.rwndScale ∧ LacksScale data
    · obtain ⟨hclean, hfits, hzero⟩ := hdue hcase
      have hback := parseOptions_fallsBack ⟨hcase.1, hcase.2, hclean⟩
      refine ⟨hreads, (scaled_iff _).mpr ?_, .inl ?_, fun _ => ?_, fun hnot => absurd hcase hnot⟩
      · rw [hback]
        exact Nat.zero_le 16
      · rw [hback, hzero]
      · rw [hback]
        exact ⟨rfl, hresize.2.mpr hfits⟩
    · have hscale : s.parseOptions data = _ := parseOptions_scale fun hback => hcase ⟨hback.1, hback.2.1⟩
      refine ⟨hreads, (scaled_iff _).mpr ?_, ?_, fun hdue' => absurd hdue' hcase, fun _ => ?_⟩
      · rw [hscale]
        exact hother hcase
      · rw [hscale]
        exact scaleAfter_mem _ _
      · rw [hscale]

/-- **A scale of 17 loses the top bit of a window.** -/
theorem decodesScale_large : ¬ DecodesScale (new calmWorld 0) [3, 1, 17] := by
  intro h
  have hexact := h.exact { dataSegment 0 [] with wnd := 65535 }
  revert hexact
  decide

end PseudoTcp

end Libjingle
