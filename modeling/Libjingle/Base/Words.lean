import Mathlib.Data.BitVec

/-!
# Machine words (`base/basictypes.h`)
-/

namespace Libjingle

/-- An unsigned byte. -/
abbrev Uint8 := BitVec 8
/-- An unsigned 16-bit word. -/
abbrev Uint16 := BitVec 16
/-- An unsigned 32-bit word. -/
abbrev Uint32 := BitVec 32
/-- An unsigned 64-bit word. -/
abbrev Uint64 := BitVec 64

def text (s : String) : List Uint8 := s.toList.map fun c => BitVec.ofNat 8 c.toNat

end Libjingle
