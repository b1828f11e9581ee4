import Libjingle.Base.Words

/-!
# The 32-bit clock (`base/timeutils.cc`)

Main result: **`timeIsLater_reading`**.
-/

namespace Libjingle

/-- `Time()`, `ms` milliseconds after the start. -/
def timeReading (ms : ℕ) : Uint32 := BitVec.ofNat 32 ms

/-- `TimeAfter`. -/
def timeAfter (now : Uint32) (elapsed : ℤ) : Uint32 := now + BitVec.ofInt 32 elapsed

/-- `talk_base::TimeDiff`, signed. -/
def timeDiff (later earlier : Uint32) : ℤ := (later - earlier).toInt

/-- `TimeIsLater`. -/
def timeIsLater (earlier later : Uint32) : Bool :=
  0 < timeDiff later earlier && timeDiff later earlier < 0x80000000

theorem timeDiff_lt (later earlier : Uint32) : timeDiff later earlier < 0x80000000 := by
  have := BitVec.toInt_lt (x := later - earlier)
  simpa [timeDiff] using this

theorem timeDiff_reading {a b : ℕ} (hab : a < b + 2 ^ 31) (hba : b < a + 2 ^ 31) :
    timeDiff (timeReading b) (timeReading a) = (b : ℤ) - a := by
  rw [timeDiff, timeReading, timeReading, BitVec.toInt_sub, BitVec.toInt_eq_toNat_bmod,
    BitVec.toInt_eq_toNat_bmod, BitVec.toNat_ofNat, BitVec.toNat_ofNat]
  simp only [Int.bmod_def]
  omega

/-- **The comparison of readings is that of times less than 2 ^ 31 apart**. -/
theorem timeIsLater_reading {a b : ℕ} (hab : a < b + 2 ^ 31) (hba : b < a + 2 ^ 31) :
    timeIsLater (timeReading a) (timeReading b) = decide (a < b) := by
  have hlt := timeDiff_lt (timeReading b) (timeReading a)
  rw [timeIsLater, decide_eq_true hlt, Bool.and_true, timeDiff_reading hab hba]
  exact decide_eq_decide.mpr (by omega)

theorem timeIsLater_of_lt {a b : ℕ} (hab : a < b) (hba : b < a + 2 ^ 31) :
    timeIsLater (timeReading a) (timeReading b) = true := by
  rw [timeIsLater_reading (by omega) hba, decide_eq_true hab]

theorem timeReading_toNat {t : ℕ} (h : t < 2 ^ 32) : (timeReading t).toNat = t := by
  rw [timeReading, BitVec.toNat_ofNat, Nat.mod_eq_of_lt h]

theorem timeReading_eq (t : Uint32) : timeReading t.toNat = t := by
  rw [timeReading, BitVec.ofNat_toNat, BitVec.setWidth_eq]

theorem timeAfter_reading {now d : ℕ} : timeAfter (timeReading now) d = timeReading (now + d) := by
  apply BitVec.eq_of_toNat_eq
  simp only [timeAfter, timeReading, BitVec.toNat_add, BitVec.toNat_ofNat, BitVec.toNat_ofInt]
  omega

end Libjingle
