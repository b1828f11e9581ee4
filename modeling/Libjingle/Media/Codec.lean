import Mathlib.Data.List.TakeWhile
import Libjingle.Base.HostAddress
import Libjingle.Base.Numerals

/-!
# Codecs (`media/base/codec.{h,cc}`)

Main result: **`fromStringInt_toStringInt`**.
-/

namespace Libjingle.Media

open Http (isspace scanSign digitsValue equalNoCase)

/-! ## Text -/

/-- `_stricmp` finds no difference. -/
def equalText (a b : List Uint8) : Bool := equalNoCase (cString a) (cString b)

theorem equalText_refl (a : List Uint8) : equalText a a = true := by simp [equalText, equalNoCase]

theorem equalText_symm {a b : List Uint8} (h : equalText a b = true) : equalText b a = true := by
  simp only [equalText, equalNoCase, beq_iff_eq] at h ⊢
  exact h.symm

theorem equalText_trans {a b c : List Uint8} (hab : equalText a b = true) (hbc : equalText b c = true) :
    equalText a c = true := by
  simp only [equalText, equalNoCase, beq_iff_eq] at hab hbc ⊢
  exact hab.trans hbc

def IsInt (n : ℤ) : Prop := -2 ^ 31 ≤ n ∧ n < 2 ^ 31

instance (n : ℤ) : Decidable (IsInt n) := inferInstanceAs (Decidable (_ ∧ _))

/-- `ToString<int>`. -/
def toStringInt (n : ℤ) : List Uint8 := (if n < 0 then [0x2D] else []) ++ formatNumber 10 1 n.natAbs

/-- `FromString<int>`, whose default is 0: a number out of range leaves the default, as C++98
streams do. -/
def fromStringInt (s : List Uint8) : ℤ :=
  let signed := scanSign (s.dropWhile isspace)
  let digits := signed.2.takeWhile fun ch => (digitOf 10 ch).isSome
  let v : ℤ := digitsValue 10 (digits.filterMap (digitOf 10))
  let n := if signed.1 then -v else v
  if digits ≠ [] ∧ IsInt n then n else 0

set_option maxRecDepth 4000 in
theorem scanSign_digit {ch : Uint8} {s : List Uint8} (h : (digitOf 10 ch).isSome) :
    (ch :: s).dropWhile isspace = ch :: s ∧ scanSign (ch :: s) = (false, ch :: s) := by
  have hall : ∀ ch : Fin 256, (digitOf 10 (BitVec.ofFin ch)).isSome →
      isspace (BitVec.ofFin ch) = false ∧ (BitVec.ofFin ch : Uint8) ≠ 0x2D ∧
        (BitVec.ofFin ch : Uint8) ≠ 0x2B := by decide
  obtain ⟨hspace, hminus, hplus⟩ := hall ch.toFin h
  refine ⟨List.dropWhile_cons_of_neg (Bool.eq_false_iff.mp hspace), ?_⟩
  rw [scanSign, if_neg hminus, if_neg hplus]

theorem fromStringInt_toStringInt {n : ℤ} (h : IsInt n) : fromStringInt (toStringInt n) = n := by
  have hne : formatNumber 10 1 n.natAbs ≠ [] := formatNumber_ne_nil one_pos
  have hdigits : ∀ ch ∈ formatNumber 10 1 n.natAbs, (digitOf 10 ch).isSome :=
    fun ch => isSome_digitOf (by decide) (le_refl 10)
  have htake : (formatNumber 10 1 n.natAbs).takeWhile (fun ch => (digitOf 10 ch).isSome) =
      formatNumber 10 1 n.natAbs := List.takeWhile_eq_self_iff.mpr hdigits
  have hvalue := digitsValue_formatNumber (by decide) (le_refl 10) 1 n.natAbs
  by_cases hneg : n < 0
  · have hscan : scanSign ((toStringInt n).dropWhile isspace) = (true, formatNumber 10 1 n.natAbs) := by
      rw [toStringInt, if_pos hneg]
      rfl
    have hn : -((n.natAbs : ℕ) : ℤ) = n := by omega
    simp only [fromStringInt, hscan, htake, hvalue, if_true, hn]
    exact if_pos ⟨hne, h⟩
  · have hscan : scanSign ((toStringInt n).dropWhile isspace) = (false, formatNumber 10 1 n.natAbs) := by
      rw [toStringInt, if_neg hneg, List.nil_append]
      obtain ⟨ch, s, hcons⟩ := List.exists_cons_of_ne_nil hne
      rw [hcons] at hdigits ⊢
      obtain ⟨hdrop, hsign⟩ := @scanSign_digit ch s (hdigits ch List.mem_cons_self)
      rw [hdrop, hsign]
    have hn : ((n.natAbs : ℕ) : ℤ) = n := by omega
    simp only [fromStringInt, hscan, htake, hvalue, Bool.false_eq_true, if_false, hn]
    exact if_pos ⟨hne, h⟩

/-! ## Codecs -/

/-- `FeedbackParam`. -/
structure FeedbackParam where
  id : List Uint8
  param : List Uint8
  deriving DecidableEq, Repr

def FeedbackParam.equal (a b : FeedbackParam) : Bool := equalText b.id a.id && equalText b.param a.param

def intersectFeedback (params source : List FeedbackParam) : List FeedbackParam :=
  params.filter fun param => source.any fun other => other.equal param

/-- `Codec`. The parameters are a map from their names. -/
structure Codec where
  id : ℤ
  name : List Uint8
  clockrate : ℤ
  preference : ℤ
  params : List (List Uint8 × List Uint8) := []
  feedbackParams : List FeedbackParam := []
  deriving DecidableEq, Repr

/-- `AudioCodec`. -/
structure AudioCodec extends Codec where
  bitrate : ℤ
  channels : ℤ
  deriving DecidableEq, Repr

/-- `VideoCodec`. -/
structure VideoCodec extends Codec where
  width : ℤ
  height : ℤ
  framerate : ℤ
  deriving DecidableEq, Repr

/-- `DataCodec`. -/
structure DataCodec extends Codec where
  deriving DecidableEq, Repr

abbrev kMaxStaticPayloadId : ℤ := 95

def kRtxCodecName : List Uint8 := text "rtx"
def kComfortNoiseCodecName : List Uint8 := text "CN"
def kCodecParamAssociatedPayloadType : List Uint8 := text "apt"

namespace Codec

def isMatch (c codec : Codec) : Bool :=
  if codec.id ≤ kMaxStaticPayloadId then c.id = codec.id else equalText c.name codec.name

/-- `GetParam`. -/
def getParam (c : Codec) (name : List Uint8) : Option (List Uint8) := c.params.lookup name

/-- `SetParam`. -/
def setParam (c : Codec) (name value : List Uint8) : Codec :=
  { c with params := (name, value) :: c.params.filter fun p => p.1 ≠ name }

def intersectFeedbackParams (c other : Codec) : Codec :=
  { c with feedbackParams := intersectFeedback c.feedbackParams other.feedbackParams }

/-- `IsRtxCodec`. -/
def isRtx (c : Codec) : Bool := equalText c.name kRtxCodecName

/-- The id in the parameter `apt`. -/
def associatedId (c : Codec) : ℤ := fromStringInt ((c.getParam kCodecParamAssociatedPayloadType).getD [])

@[simp] theorem getParam_setParam (c : Codec) (name value : List Uint8) :
    (c.setParam name value).getParam name = some value := by simp [getParam, setParam]

theorem isMatch_refl (c : Codec) : c.isMatch c = true := by
  rw [isMatch]
  split
  · exact decide_eq_true rfl
  · exact equalText_refl _

end Codec

def AudioCodec.agrees (c codec : AudioCodec) : Bool :=
  (codec.clockrate = 0 || c.clockrate = codec.clockrate) &&
    (codec.bitrate = 0 || c.bitrate ≤ 0 || c.bitrate = codec.bitrate) &&
    ((codec.channels < 2 && c.channels < 2) || c.channels = codec.channels)

/-- A class of codecs. `agrees` is what its `Matches` looks at besides. -/
class MediaCodec (C : Type) where
  codec : C → Codec
  withCodec : C → Codec → C
  agrees : C → C → Bool

open MediaCodec

instance : MediaCodec AudioCodec where
  codec c := c.toCodec
  withCodec c base := { c with toCodec := base }
  agrees := AudioCodec.agrees

instance : MediaCodec VideoCodec where
  codec c := c.toCodec
  withCodec c base := { c with toCodec := base }
  agrees _ _ := true

instance : MediaCodec DataCodec where
  codec c := c.toCodec
  withCodec c base := { c with toCodec := base }
  agrees _ _ := true

section Template

variable {C : Type} [MediaCodec C]

def isMatch (c other : C) : Bool := (codec c).isMatch (codec other) && agrees c other

def withId (c : C) (id : ℤ) : C := withCodec c { codec c with id := id }

def withParam (c : C) (name value : List Uint8) : C := withCodec c ((codec c).setParam name value)

def withFeedbackOf (c other : C) : C := withCodec c ((codec c).intersectFeedbackParams (codec other))

def containsRtxCodec (codecs : List C) : Bool := codecs.any fun c => (codec c).isRtx

def sortCodecs (codecs : List C) : List C :=
  codecs.insertionSort fun a b => (codec b).preference ≤ (codec a).preference

end Template

/-! ## Laws -/

/-- A codec is a `Codec` with other members; of these `Matches` looks at the clockrate only. -/
class LawfulMediaCodec (C : Type) [MediaCodec C] : Prop where
  codec_withCodec : ∀ (c : C) (base : Codec), codec (withCodec c base) = base
  withCodec_codec : ∀ c : C, withCodec c (codec c) = c
  withCodec_withCodec : ∀ (c : C) (base base' : Codec), withCodec (withCodec c base) base' = withCodec c base'
  agrees_withCodec : ∀ (c other : C) (base : Codec), base.clockrate = (codec c).clockrate →
    agrees (withCodec c base) other = agrees c other
  agrees_withCodec_right : ∀ (c other : C) (base : Codec), base.clockrate = (codec other).clockrate →
    agrees c (withCodec other base) = agrees c other
  agrees_refl : ∀ c : C, agrees c c = true

open LawfulMediaCodec

instance : LawfulMediaCodec AudioCodec where
  codec_withCodec _ _ := rfl
  withCodec_codec _ := rfl
  withCodec_withCodec _ _ _ := rfl
  agrees_withCodec c other base h := by
    have h : base.clockrate = c.clockrate := h
    show AudioCodec.agrees { c with toCodec := base } other = AudioCodec.agrees c other
    simp only [AudioCodec.agrees, h]
  agrees_withCodec_right c other base h := by
    have h : base.clockrate = other.clockrate := h
    show AudioCodec.agrees c { other with toCodec := base } = AudioCodec.agrees c other
    simp only [AudioCodec.agrees, h]
  agrees_refl c := by simp [agrees, AudioCodec.agrees]

instance : LawfulMediaCodec VideoCodec where
  codec_withCodec _ _ := rfl
  withCodec_codec _ := rfl
  withCodec_withCodec _ _ _ := rfl
  agrees_withCodec _ _ _ _ := rfl
  agrees_withCodec_right _ _ _ _ := rfl
  agrees_refl _ := rfl

instance : LawfulMediaCodec DataCodec where
  codec_withCodec _ _ := rfl
  withCodec_codec _ := rfl
  withCodec_withCodec _ _ _ := rfl
  agrees_withCodec _ _ _ _ := rfl
  agrees_withCodec_right _ _ _ _ := rfl
  agrees_refl _ := rfl

section Laws

variable {C : Type} [MediaCodec C] [LawfulMediaCodec C]

@[simp] theorem codec_withId (c : C) (id : ℤ) : codec (withId c id) = { codec c with id := id } :=
  codec_withCodec _ _

@[simp] theorem codec_withParam (c : C) (name value : List Uint8) :
    codec (withParam c name value) = (codec c).setParam name value := codec_withCodec _ _

@[simp] theorem codec_withFeedbackOf (c other : C) :
    codec (withFeedbackOf c other) = (codec c).intersectFeedbackParams (codec other) := codec_withCodec _ _

theorem isMatch_refl (c : C) : isMatch c c = true := by
  rw [isMatch, Codec.isMatch_refl, agrees_refl]
  rfl

theorem withId_self (c : C) : withId c (codec c).id = c := withCodec_codec c

theorem isMatch_withId {c other : C} {id : ℤ}
    (h : (codec other).id ≤ kMaxStaticPayloadId → ((codec c).id = (codec other).id ↔ id = (codec other).id)) :
    isMatch (withId c id) other = isMatch c other := by
  have hagrees : agrees (withId c id) other = agrees c other := agrees_withCodec _ _ _ rfl
  rw [isMatch, isMatch, hagrees, codec_withId, Codec.isMatch, Codec.isMatch]
  split_ifs with hstatic
  · rw [decide_eq_decide.mpr (h hstatic)]
  · rfl

end Laws

end Libjingle.Media
