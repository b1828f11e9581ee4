import Libjingle.PseudoTcp.Recovery

/-!
# The round-trip estimator

Main results: **`sampleExact_iff`**, **`estimator_iff`**.
-/

namespace Libjingle

open Lib

/-! ## Weighted averages -/

/-- The average with weights `k` and `1`. -/
def average (k old new : ℕ) : ℕ := (k * old + new) / (k + 1)

theorem average_le (k old new : ℕ) : average k old new ≤ max old new := by
  refine Nat.div_le_of_le_mul ?_
  calc k * old + new ≤ k * max old new + max old new :=
        Nat.add_le_add (Nat.mul_le_mul_left k (le_max_left _ _)) (le_max_right _ _)
    _ = (k + 1) * max old new := (Nat.succ_mul k _).symm

theorem wrapped_average_eq {k old new q : ℕ} (hq : 0 < q) :
    (k * old + new) % ((k + 1) * q) / (k + 1) = average k old new ↔ k * old + new < (k + 1) * q := by
  constructor
  · intro heq
    by_contra hge
    have hmod : (k * old + new) % ((k + 1) * q) / (k + 1) < q :=
      Nat.div_lt_of_lt_mul (Nat.mod_lt _ (Nat.mul_pos k.succ_pos hq))
    have hquot : q ≤ average k old new :=
      (Nat.le_div_iff_mul_le k.succ_pos).mpr (by rw [Nat.mul_comm]; exact not_lt.mp hge)
    omega
  · intro hlt
    rw [Nat.mod_eq_of_lt hlt]
    rfl

/-! ## The estimator -/

/-- The round-trip time and its variation. -/
structure Estimate where
  srtt : ℕ
  rttvar : ℕ
  deriving DecidableEq

namespace Estimate

variable (e : Estimate) (rtt : ℕ)

def error : ℕ := max rtt e.srtt - min rtt e.srtt

def sample : Estimate :=
  if e.srtt = 0 then ⟨rtt, rtt / 2⟩
  else ⟨average 7 e.srtt rtt, average 3 e.rttvar (e.error rtt)⟩

def allowance : ℕ := max 1 (4 * e.rttvar % 2 ^ 32)

def TimeoutFits : Prop :=
  e.srtt + e.allowance < 2 ^ 32 ∨ 2 ^ 32 + maxRto.toNat ≤ e.srtt + e.allowance ∨ e.srtt ≤ minRto.toNat

def Fits : Prop :=
  (e.srtt ≠ 0 → 7 * e.srtt + rtt < 2 ^ 32 ∧ 3 * e.rttvar + e.error rtt < 2 ^ 32) ∧
    (e.sample rtt).TimeoutFits

end Estimate

namespace PseudoTcp

variable {s s' : PseudoTcp} {seg : Segment} {op : Op}

/-- The two averages as numbers. -/
def estimate (s : PseudoTcp) : Estimate := ⟨s.rxSrtt.toNat, s.rxRttvar.toNat⟩

/-! ## What leaves the estimator alone -/

theorem SendFrame.estimator (h : SendFrame s s') : s'.estimator = s.estimator := by
  simp only [PseudoTcp.estimator, h.rxSrtt, h.rxRttvar, h.rxRto]

theorem estimator_transmitFront (s : PseudoTcp) (now : Uint32) : (s.transmitFront now).1.estimator = s.estimator :=
  (SendFrame.transmitFront s now).estimator

theorem estimator_check (s : PseudoTcp) (fault : Fault) (c : Bool) : (s.check fault c).estimator = s.estimator := by
  rw [check_eq]
  rfl

theorem RecvFrame.estimator (h : RecvFrame s s') : s'.estimator = s.estimator := by
  obtain ⟨r, fs, rfl, -, -⟩ := h
  rfl

theorem estimator_beforeAck (s : PseudoTcp) (seg : Segment) : (s.beforeAck seg).estimator = s.estimator := by
  have h := ackInputs_beforeAck s seg
  simp only [ackInputs, Prod.mk.injEq] at h
  exact h.2.2.2.2

theorem estimator_ackCongestion (s : PseudoTcp) (nAcked now : Uint32) :
    (s.ackCongestion nAcked now).1.estimator = s.estimator := by
  rcases ackCongestion_cases s nAcked now with ⟨cwnd, h⟩ | ⟨-, -, cwnd, h⟩
  · rw [h]
    rfl
  · rw [h]
    exact estimator_transmitFront s now

theorem estimator_duplicateAck (s : PseudoTcp) (now : Uint32) : (s.duplicateAck now).1.estimator = s.estimator := by
  have hfront := estimator_transmitFront { s with dupAcks := s.dupAcks + 1 } now
  rcases duplicateAck_cases s now with ⟨cwnd, h⟩ | ⟨t, ht, -, recover, ssthresh, cwnd, -, h⟩
  · rw [h]
    rfl
  · rw [h]
    rw [← ht] at hfront
    exact hfront

theorem estimator_handleAck (s : PseudoTcp) (seg : Segment) (now : Uint32) :
    (s.handleAck seg now).1.estimator =
      if s.isValuable seg.ack then (s.updateRtt seg.tsecr now).estimator else s.estimator := by
  unfold handleAck
  by_cases hv : s.isValuable seg.ack
  · rw [if_pos hv, if_pos hv]
    simp only [estimator_ackCongestion]
    simp only [advanceUna, check_eq]
    rfl
  · rw [if_neg hv, if_neg hv]
    by_cases ha : seg.ack = s.snd.sndUna
    · rw [if_pos ha]
      simp only
      split_ifs
      · rfl
      · exact estimator_duplicateAck _ now
      · rfl
    · rw [if_neg ha]

theorem estimator_processData (s : PseudoTcp) (seg : Segment) (bConnect : Bool) :
    (s.processData seg bConnect).estimator = s.estimator := by
  have hopen : (s.openIfSynReceived bConnect).estimator = s.estimator := by
    unfold openIfSynReceived
    split_ifs <;> rfl
  have hwrite (t : PseudoTcp) : t.notifyWriteable.estimator = t.estimator := by
    unfold notifyWriteable
    simp only
    split_ifs <;> rfl
  have hread (t : PseudoTcp) (b : Bool) : (t.notifyReadable b).estimator = t.estimator := by
    unfold notifyReadable
    split_ifs <;> rfl
  unfold processData
  dsimp only
  rw [hread, (SendFrame.attemptSend _ _).estimator, (RecvFrame.receive _ _ _).estimator, hwrite, hopen]

theorem estimator_accepted (hinc : s.incoming op = some seg) :
    (step s op).estimator =
      if s.isValuable seg.ack then ((s.beforeAck seg).updateRtt seg.tsecr s.now).estimator
      else s.estimator := by
  have hdone : (step s op).estimator = (s.ackDone seg).estimator := by
    rcases step_ackDone hinc with ⟨-, bConnect, h⟩ | ⟨-, h⟩
    · rw [h, estimator_processData]
    · rw [h]
      rfl
  rw [hdone, ackDone, estimator_handleAck, (beforeAck_fields s seg).2.2.2.2, estimator_beforeAck]

theorem estimate_of_estimator (h : s'.estimator = s.estimator) : s'.estimate = s.estimate := by
  simp only [estimator, Prod.mk.injEq] at h
  rw [estimate, estimate, h.1, h.2.1]

theorem estimate_step (hinc : s.incoming op = none) : (step s op).estimate = s.estimate := by
  have h := ackState_step hinc
  simp only [ackState, Prod.mk.injEq] at h
  rw [estimate, estimate, h.2.1, h.2.2]

/-! ## Samples -/

/-- The round-trip time that a call measures. -/
def sample (s : PseudoTcp) (op : Op) : Option Uint32 :=
  (s.incoming op).bind fun seg =>
    if s.isValuable seg.ack ∧ seg.tsecr ≠ 0 ∧ 0 ≤ timeDiff s.now seg.tsecr
    then some (s.now - seg.tsecr) else none

def samples : PseudoTcp → List Op → List ℕ
  | _, [] => []
  | s, op :: ops => (s.sample op).toList.map BitVec.toNat ++ samples (step s op) ops

theorem rto_toNat (srtt rttvar : Uint32) :
    (bound minRto (srtt + max32 1 (4 * rttvar)) maxRto).toNat = min (max minRto.toNat
      ((srtt.toNat + Estimate.allowance ⟨srtt.toNat, rttvar.toNat⟩) % 2 ^ 32)) maxRto.toNat := by
  simp only [bound, toNat_min32, toNat_max32, BitVec.toNat_add, BitVec.toNat_mul, Estimate.allowance]
  rfl

theorem updateRtt_sample (s : PseudoTcp) {tsecr now : Uint32} (hts : tsecr ≠ 0) (hpast : 0 ≤ timeDiff now tsecr) :
    let rtt := (now - tsecr).toNat
    let t := s.updateRtt tsecr now
    (t.estimate = if s.rxSrtt = 0 then ⟨rtt, rtt / 2⟩ else
        ⟨(7 * s.rxSrtt.toNat + rtt) % 2 ^ 32 / 8,
          (3 * s.rxRttvar.toNat + s.estimate.error rtt) % 2 ^ 32 / 4⟩) ∧
      t.rxRto.toNat = min (max minRto.toNat ((t.estimate.srtt + t.estimate.allowance) % 2 ^ 32))
        maxRto.toNat := by
  have hnot : ¬ timeDiff now tsecr < 0 := not_lt.mpr hpast
  have herr : (if now - tsecr > s.rxSrtt then now - tsecr - s.rxSrtt
      else s.rxSrtt - (now - tsecr)).toNat = s.estimate.error (now - tsecr).toNat := by
    simp only [Estimate.error, estimate]
    split_ifs <;> bv_omega
  simp only [updateRtt, if_neg hts, if_neg hnot]
  constructor
  · by_cases h0 : s.rxSrtt = 0
    · simp only [estimate, if_pos h0, BitVec.toNat_udiv]
      rfl
    · simp only [estimate, if_neg h0, BitVec.toNat_udiv, BitVec.toNat_add, BitVec.toNat_mul, herr]
      simp only [Nat.mod_add_mod]
      rfl
  · exact rto_toNat _ _

theorem estimate_no_sample (h : s.sample op = none) : (step s op).estimate = s.estimate := by
  cases hinc : s.incoming op with
  | none => exact estimate_step hinc
  | some seg =>
    rw [sample, hinc, Option.bind_some] at h
    refine estimate_of_estimator ?_
    rw [estimator_accepted hinc]
    split_ifs with hv
    · rw [← estimator_beforeAck s seg]
      unfold updateRtt
      split_ifs with hts hneg
      · rfl
      · exact estimator_check _ _ _
      all_goals
        rw [if_pos ⟨hv, hts, not_lt.mp hneg⟩] at h
        cases h
    · rfl

theorem step_sample {rtt : Uint32} (h : s.sample op = some rtt) :
    ((step s op).estimate = if s.rxSrtt = 0 then ⟨rtt.toNat, rtt.toNat / 2⟩ else
        ⟨(7 * s.rxSrtt.toNat + rtt.toNat) % 2 ^ 32 / 8,
          (3 * s.rxRttvar.toNat + s.estimate.error rtt.toNat) % 2 ^ 32 / 4⟩) ∧
      (step s op).rxRto.toNat = min (max minRto.toNat
        (((step s op).estimate.srtt + (step s op).estimate.allowance) % 2 ^ 32)) maxRto.toNat := by
  obtain ⟨seg, hinc, hseg⟩ := Option.bind_eq_some_iff.mp h
  split_ifs at hseg with hc
  obtain rfl : s.now - seg.tsecr = rtt := Option.some.inj hseg
  have hstep := estimator_accepted hinc
  rw [if_pos hc.1] at hstep
  have hbefore := estimator_beforeAck s seg
  obtain ⟨h1, h2⟩ := updateRtt_sample (s.beforeAck seg) hc.2.1 hc.2.2
  rw [← estimate_of_estimator hstep] at h1 h2
  simp only [estimator, Prod.mk.injEq] at hstep hbefore
  rw [hbefore.1, hbefore.2.1, estimate_of_estimator (estimator_beforeAck s seg)] at h1
  exact ⟨h1, by rw [hstep.2.2]; exact h2⟩

/-! ## The law -/

/-- **What one sample must do**: exact averages, and a timeout within its bounds. -/
structure SampleExact (s s' : PseudoTcp) (rtt : ℕ) : Prop where
  exact : s'.estimate = s.estimate.sample rtt
  least : minRto ≤ s'.rxRto
  most : s'.rxRto ≤ maxRto
  long : min32 maxRto s'.rxSrtt ≤ s'.rxRto

/-- **The update is exact exactly if it fits**. -/
theorem sampleExact_iff {rtt : Uint32} (h : s.sample op = some rtt) :
    SampleExact s (step s op) rtt.toNat ↔ s.estimate.Fits rtt.toNat := by
  obtain ⟨hestimate, hrto⟩ := step_sample h
  have hmin : minRto.toNat = 250 := rfl
  have hmax : maxRto.toNat = 60000 := rfl
  have hzero : s.estimate.srtt = 0 ↔ s.rxSrtt = 0 := (BitVec.toNat_inj (y := 0#32))
  have hexact : (step s op).estimate = s.estimate.sample rtt.toNat ↔
      (s.estimate.srtt ≠ 0 → 7 * s.estimate.srtt + rtt.toNat < 2 ^ 32 ∧
        3 * s.estimate.rttvar + s.estimate.error rtt.toNat < 2 ^ 32) := by
    have hsrtt : (7 * s.rxSrtt.toNat + rtt.toNat) % 2 ^ 32 / 8 = _ ↔ _ :=
      wrapped_average_eq (k := 7) (q := 2 ^ 29) (by decide)
    have hvar : (3 * s.rxRttvar.toNat + s.estimate.error rtt.toNat) % 2 ^ 32 / 4 = _ ↔ _ :=
      wrapped_average_eq (k := 3) (q := 2 ^ 30) (by decide)
    rw [hestimate, Estimate.sample]
    by_cases h0 : s.rxSrtt = 0
    · rw [if_pos h0, if_pos (hzero.mpr h0)]
      exact ⟨fun _ hne => absurd (hzero.mpr h0) hne, fun _ => rfl⟩
    · have hne : s.estimate.srtt ≠ 0 := fun h => h0 (hzero.mp h)
      rw [if_neg h0, if_neg hne, Estimate.mk.injEq]
      exact (and_congr hsrtt hvar).trans ⟨fun h _ => h, fun h => h hne⟩
  have hlong : min32 maxRto (step s op).rxSrtt ≤ (step s op).rxRto ↔
      (step s op).estimate.TimeoutFits := by
    have hlt : (step s op).estimate.srtt < 2 ^ 32 := BitVec.isLt _
    have hone : 1 ≤ (step s op).estimate.allowance := le_max_left _ _
    have hallow : (step s op).estimate.allowance < 2 ^ 32 :=
      max_lt (by decide) (Nat.mod_lt _ (by decide))
    rw [BitVec.le_def, toNat_min32, hrto, hmin, hmax, Estimate.TimeoutFits, hmin, hmax]
    change min 60000 (step s op).estimate.srtt ≤ _ ↔ _
    omega
  constructor
  · intro hlaw
    exact ⟨hexact.mp hlaw.exact, hlaw.exact ▸ hlong.mp hlaw.long⟩
  · rintro ⟨hsums, htimeout⟩
    have heq := hexact.mpr hsums
    refine ⟨heq, ?_, ?_, hlong.mpr (heq ▸ htimeout)⟩
    · rw [BitVec.le_def, hrto]
      exact le_min (le_max_left _ _) (by decide)
    · rw [BitVec.le_def, hrto]
      exact min_le_right _ _

def largestSample (rtts : List ℕ) : ℕ := rtts.foldr max 0

theorem srtt_step (s : PseudoTcp) (op : Op) : (step s op).rxSrtt.toNat ≤
    max s.rxSrtt.toNat (largestSample ((s.sample op).toList.map BitVec.toNat)) := by
  cases h : s.sample op with
  | none =>
    have hsame : (step s op).rxSrtt.toNat = s.rxSrtt.toNat :=
      congrArg Estimate.srtt (estimate_no_sample h)
    rw [hsame]
    exact le_max_left _ _
  | some rtt =>
    change _ ≤ max s.rxSrtt.toNat (max rtt.toNat 0)
    rw [Nat.max_zero]
    have hsrtt : (step s op).rxSrtt.toNat = _ := congrArg Estimate.srtt (step_sample h).1
    rw [hsrtt]
    split_ifs
    · exact le_max_right _ _
    · exact (Nat.div_le_div_right (Nat.mod_le _ _)).trans (average_le 7 _ _)

theorem srtt_run (s : PseudoTcp) (ops : List Op) :
    (run step s ops).rxSrtt.toNat ≤ max s.rxSrtt.toNat (largestSample (samples s ops)) := by
  induction ops generalizing s with
  | nil => exact le_max_left _ _
  | cons op ops ih =>
    have happend : largestSample (samples s (op :: ops)) =
        max (largestSample ((s.sample op).toList.map BitVec.toNat))
          (largestSample (samples (step s op) ops)) := by
      rw [samples]
      cases s.sample op with
      | none => exact (Nat.zero_max _).symm
      | some rtt => exact congrArg (max · _) (Nat.max_zero _).symm
    rw [happend, run_cons, ← max_assoc]
    exact (ih _).trans (max_le_max_right _ (srtt_step s op))

/-- **The estimator over a run.** -/
structure EstimatorLaw (s₀ : PseudoTcp) (ops : List Op) : Prop where
  bounded : ∀ pre, pre <+: ops → (run step s₀ pre).rxSrtt.toNat ≤ largestSample (samples s₀ pre)
  exact : Guarded step (fun s op => ∀ rtt, s.sample op = some rtt → SampleExact s (step s op) rtt.toNat)
    s₀ ops

def SampleFits (s : PseudoTcp) (op : Op) : Prop :=
  ∀ rtt, s.sample op = some rtt → s.estimate.Fits rtt.toNat

/-- **The estimator is exact in the runs whose samples all fit**, and in no others. -/
theorem estimator_iff (w : World) (conv : Uint32) (ops : List Op) :
    EstimatorLaw (new w conv) ops ↔ Guarded step SampleFits (new w conv) ops := by
  have hiff (s : PseudoTcp) (op : Op) : (∀ rtt, s.sample op = some rtt →
      SampleExact s (step s op) rtt.toNat) ↔ SampleFits s op :=
    forall₂_congr fun rtt h => sampleExact_iff h
  have hguards : Guarded step _ (new w conv) ops ↔ Guarded step SampleFits (new w conv) ops :=
    guarded_congr (I := fun _ => True) (fun s op _ => hiff s op) (fun _ _ _ _ => trivial) trivial
  constructor
  · exact fun hlaw => hguards.mp hlaw.exact
  · refine fun hfits => ⟨fun pre _ => ?_, hguards.mpr hfits⟩
    exact (srtt_run (new w conv) pre).trans_eq (Nat.zero_max _)

/-- An answer with a timestamp that nobody has sent. -/
def staleReply : Packet := { connectReply with tsecr := 2863311531 }

/-- **A first round-trip time whose timeout wraps**: 16 days, and `m_rx_rto` is `MIN_RTO`. -/
theorem estimator_wraps : ¬ EstimatorLaw (new calmWorld 0) [.connect, .packet staleReply] := by
  intro hlaw
  have hsample : (step (new calmWorld 0) .connect).sample (.packet staleReply) = some 1431655766 := by
    decide
  have hlong := (hlaw.exact.2.1 _ hsample).long
  revert hlong
  decide

end PseudoTcp

end Libjingle
