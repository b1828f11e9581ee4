import Libjingle.PseudoTcp.Api

/-!
# `GetNextClock` and `NotifyClock`

Main result: **`clock_agrees`**.
-/

namespace Libjingle

namespace PseudoTcp

variable (s : PseudoTcp) (now : Uint32)

/-! ## The timers -/

/-- The retransmission timer has run out. -/
def RetransmitDue : Prop := s.rtoBase ≠ 0 ∧ timeDiff (s.rtoBase + s.rxRto) now ≤ 0

/-- The window is closed, and it is time for a probe. -/
def ProbeDue : Prop := s.snd.sndWnd = 0 ∧ timeDiff (s.snd.lastsend + s.rxRto) now ≤ 0

/-- The delayed acknowledgement is due. -/
def AckDue : Prop := s.tAck ≠ 0 ∧ timeDiff (s.tAck + s.ackDelay) now ≤ 0

def deadlines : List Uint32 :=
  (if s.tAck ≠ 0 then [s.tAck + s.ackDelay] else []) ++
    (if s.rtoBase ≠ 0 then [s.rtoBase + s.rxRto] else []) ++
    if s.snd.sndWnd = 0 then [s.snd.lastsend + s.rxRto] else []

variable {s now}

theorem due_iff : (s.RetransmitDue now ∨ s.ProbeDue now ∨ s.AckDue now) ↔
    ∃ e ∈ s.deadlines, timeDiff e now ≤ 0 := by
  simp only [RetransmitDue, ProbeDue, AckDue, deadlines, List.mem_append, or_and_right, exists_or,
    List.mem_ite_nil_right, List.mem_singleton, and_assoc, exists_and_left, exists_eq_left]
  tauto

theorem notifyClock_idle (h : ∀ e ∈ s.deadlines, 0 < timeDiff e now) : s.notifyClock now = s := by
  have hidle : ¬ (s.RetransmitDue now ∨ s.ProbeDue now ∨ s.AckDue now) := by
    rw [due_iff]
    rintro ⟨e, he, hpast⟩
    exact absurd (h e he) (not_lt.mpr hpast)
  obtain ⟨hretransmit, hprobe, hack⟩ := by simpa only [not_or] using hidle
  have hr : s.clockRetransmit now = (s, true) := if_neg hretransmit
  have hp : s.clockProbe now = (s, true) := if_neg hprobe
  have ha : s.clockAck now = s := if_neg hack
  simp only [notifyClock, hr, hp, ha, ite_self]

/-! ## The timeout -/

theorem foldl_min_spec (t : ℤ) (ts : List ℤ) :
    ts.foldl min t ≤ t ∧ (∀ x ∈ ts, ts.foldl min t ≤ x) ∧ (ts.foldl min t = t ∨ ts.foldl min t ∈ ts) := by
  induction ts generalizing t with
  | nil => simp
  | cons x ts ih =>
    obtain ⟨hle, hall, hmem⟩ := ih (min t x)
    rw [List.foldl_cons]
    refine ⟨hle.trans (min_le_left t x), ?_, ?_⟩
    · intro y hy
      rcases List.mem_cons.mp hy with rfl | hy
      · exact hle.trans (min_le_right t y)
      · exact hall y hy
    · rcases hmem with hmem | hmem
      · rw [hmem]
        refine (min_choice t x).imp id fun hx => ?_
        rw [hx]
        exact List.mem_cons_self
      · exact Or.inr (List.mem_cons_of_mem x hmem)

theorem getNextClock_eq {timeout : ℤ} (hopen : s.state ≠ .closed) (h : s.getNextClock now = some timeout) :
    timeout = (s.deadlines.map (timeDiff · now)).foldl min defaultTimeout := by
  unfold getNextClock at h
  rw [if_neg hopen] at h
  unfold deadlines
  split_ifs at h ⊢ <;> exact (Option.some_inj.mp h).symm

theorem timeDiff_add {e : Uint32} {d : ℕ} (h : (d : ℤ) ≤ timeDiff e now) :
    timeDiff e (now + BitVec.ofNat 32 d) = timeDiff e now - d := by
  have hlt := timeDiff_lt e now
  have hsub : e - (now + BitVec.ofNat 32 d) = (e - now) - BitVec.ofNat 32 d := sub_add_eq_sub_sub _ _ _
  unfold timeDiff at *
  rw [hsub, BitVec.toInt_sub]
  have hd : (BitVec.ofNat 32 d).toInt = d := by
    rw [BitVec.toInt_eq_toNat_bmod, BitVec.toNat_ofNat, Int.bmod_def]
    omega
  rw [hd, Int.bmod_def]
  omega

/-- **The two clocks agree**: `NotifyClock` does nothing before the timeout, and something is due at
it. -/
theorem clock_agrees (s : PseudoTcp) (now : Uint32) (timeout : ℤ) (hopen : s.state ≠ .closed)
    (hnext : s.getNextClock now = some timeout) :
    (∀ d : ℕ, (d : ℤ) < timeout → s.notifyClock (now + BitVec.ofNat 32 d) = s) ∧
      (0 ≤ timeout → timeout < defaultTimeout →
        s.RetransmitDue (now + BitVec.ofInt 32 timeout) ∨ s.ProbeDue (now + BitVec.ofInt 32 timeout) ∨
          s.AckDue (now + BitVec.ofInt 32 timeout)) := by
  have htimeout := getNextClock_eq hopen hnext
  obtain ⟨-, hle, hmem⟩ := foldl_min_spec defaultTimeout (s.deadlines.map (timeDiff · now))
  rw [← htimeout] at hle hmem
  constructor
  · intro d hd
    refine notifyClock_idle fun e he => ?_
    have hfar := hle _ (List.mem_map_of_mem he)
    rw [timeDiff_add (by omega)]
    omega
  · intro hpos hlt
    obtain ⟨e, he, hdiff⟩ := List.mem_map.mp (hmem.resolve_left hlt.ne)
    obtain ⟨d, rfl⟩ := Int.eq_ofNat_of_zero_le hpos
    rw [BitVec.ofInt_natCast]
    refine due_iff.mpr ⟨e, he, ?_⟩
    rw [timeDiff_add hdiff.ge, hdiff, sub_self]

/-- A connecting socket whose CONNECT has gone out at time 1. -/
theorem clock_agrees_connecting :
    let s := (new calmWorld 0).connect.1
    (∀ d : ℕ, (d : ℤ) < 3000 → s.notifyClock (1 + BitVec.ofNat 32 d) = s) ∧
      ((0 : ℤ) ≤ 3000 → (3000 : ℤ) < defaultTimeout →
        s.RetransmitDue (1 + BitVec.ofInt 32 3000) ∨ s.ProbeDue (1 + BitVec.ofInt 32 3000) ∨
          s.AckDue (1 + BitVec.ofInt 32 3000)) :=
  clock_agrees (new calmWorld 0).connect.1 1 3000 (by decide) (by decide)

end PseudoTcp

end Libjingle
